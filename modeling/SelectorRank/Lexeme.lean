import SelectorRank.Text.Digit

/-! Lexemes of selector text, each with the offset at which it starts. -/
namespace SelectorRank

inductive Shape where
  | blank
  | ident (name : String)
  | hash (name : String)
  | string (value : String)
  | number (digits : String)
  | delim (c : Char)
  | stop
  deriving DecidableEq, Repr

structure Lexeme where
  shape : Shape
  start : Nat
  deriving DecidableEq, Repr

inductive LexicalFault where
  | unclosedString (start : Nat)
  | invalidString (start : Nat)
  deriving DecidableEq, Repr

/-- The lexemes of a text. A fault comes to light only when it is reached. -/
inductive Lexemes where
  | stop (start : Nat)
  | fault (f : LexicalFault)
  | next (l : Lexeme) (rest : Lexemes)
  deriving DecidableEq, Repr

def Lexemes.length : Lexemes → Nat
  | .stop _ => 0
  | .fault _ => 0
  | .next _ rest => rest.length + 1

def LexicalFault.message : LexicalFault → String
  | .unclosedString start => "Unclosed string at " ++ String.ofList (Text.natural start)
  | .invalidString start => "Invalid string at " ++ String.ofList (Text.natural start)

def Shape.value : Shape → String
  | .blank => " "
  | .ident name => name
  | .hash name => name
  | .string value => value
  | .number digits => digits
  | .delim c => String.singleton c
  | .stop => ""

def Shape.kind : Shape → String
  | .blank => "S"
  | .ident _ => "IDENT"
  | .hash _ => "HASH"
  | .string _ => "STRING"
  | .number _ => "NUMBER"
  | .delim _ => "DELIM"
  | .stop => "EOF"

def Lexeme.text (l : Lexeme) : String :=
  let place := " at " ++ String.ofList (Text.natural l.start) ++ ">"
  match l.shape with
  | .stop => "<EOF" ++ place
  | shape => "<" ++ shape.kind ++ " \x27" ++ shape.value ++ "\x27" ++ place

end SelectorRank
