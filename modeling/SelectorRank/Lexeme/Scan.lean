import SelectorRank.Lexeme
import SelectorRank.Lexeme.Unescape

/-! Cutting selector text into lexemes. The first kind that fits takes as many characters as it
can. -/
namespace SelectorRank
open Unescape Spelling

def isSpace (c : Char) : Bool :=
  c == ' ' || c == '\t' || c == '\r' || c == '\n' || c == '\x0c'

def isNameStart (c : Char) : Bool := c.isAlpha || c == '_' || isNonAscii c

def isNameChars (c : Char) : Bool := isNameChar c || isNonAscii c

def escapeLength (cs : List Char) : Nat :=
  match numberedLength cs, cs with
  | 0, c :: _ => if newlineLength [c] = 0 then 1 else 0
  | n, _ => n

def nameLength : Nat → List Char → Nat
  | _, [] => 0
  | k + 1, _ :: cs => nameLength k cs + 1
  | 0, c :: cs =>
      if isNameChars c then nameLength 0 cs + 1
      else if c = '\\' then
        match escapeLength cs with
        | 0 => 0
        | n + 1 => nameLength (n + 1) cs + 1
      else 0

def startsName : List Char → Bool
  | [] => false
  | c :: cs => isNameStart c || (c == '\\' && escapeLength cs != 0)

def identLength : List Char → Nat
  | '-' :: cs => if startsName cs then nameLength 0 cs + 1 else 0
  | cs => if startsName cs then nameLength 0 cs else 0

def bodyLength (quote : Char) : Nat → List Char → Nat
  | _, [] => 0
  | k + 1, _ :: cs => bodyLength quote k cs + 1
  | 0, c :: cs =>
      if c = '\\' then
        match newlineLength cs, escapeLength cs with
        | 0, 0 => 0
        | 0, n + 1 => bodyLength quote (n + 1) cs + 1
        | n + 1, _ => bodyLength quote (n + 1) cs + 1
      else if c = quote || newlineLength [c] ≠ 0 then 0
      else bodyLength quote 0 cs + 1

def digitsLength (cs : List Char) : Nat := (cs.takeWhile Char.isDigit).length

def unsignedLength (cs : List Char) : Nat :=
  let whole := digitsLength cs
  match cs.drop whole with
  | '.' :: rest =>
      match digitsLength rest with
      | 0 => whole
      | n + 1 => whole + 1 + (n + 1)
  | _ => whole

def numberLength : List Char → Nat
  | [] => 0
  | c :: cs =>
      if c = '+' || c = '-' then
        match unsignedLength cs with
        | 0 => 0
        | n + 1 => n + 2
      else unsignedLength (c :: cs)

def commentLength : List Char → Nat
  | [] => 0
  | '*' :: '/' :: _ => 2
  | _ :: cs => commentLength cs + 1

inductive Scanned where
  | lexeme (shape : Shape) (length : Nat)
  | comment (length : Nat)
  | unclosed
  | invalid
  deriving DecidableEq, Repr

def scanString (quote : Char) (cs : List Char) : Scanned :=
  let n := bodyLength quote 0 cs
  match cs.drop n with
  | [] => .unclosed
  | c :: _ =>
      if c = quote then .lexeme (.string (String.ofList (ofString (cs.take n)))) (n + 2)
      else .invalid

def scan (c : Char) (cs : List Char) : Scanned :=
  if isSpace c then .lexeme .blank ((cs.takeWhile isSpace).length + 1)
  else match identLength (c :: cs) with
    | n + 1 => .lexeme (.ident (String.ofList (ofName ((c :: cs).take (n + 1))))) (n + 1)
    | 0 =>
      match c, nameLength 0 cs with
      | '#', n + 1 => .lexeme (.hash (String.ofList (ofName (cs.take (n + 1))))) (n + 2)
      | _, _ =>
        if c = Text.singleQuote || c = Text.doubleQuote then scanString c cs
        else match numberLength (c :: cs) with
          | n + 1 => .lexeme (.number (String.ofList ((c :: cs).take (n + 1)))) (n + 1)
          | 0 =>
            match c, cs with
            | '/', '*' :: rest => .comment (commentLength rest + 2)
            | _, _ => .lexeme (.delim c) 1

/-- The lexemes of what follows the first `skip` characters of a text that starts at an offset. -/
def lexemesFrom : (skip start : Nat) → List Char → Lexemes
  | _, start, [] => .stop start
  | skip + 1, start, _ :: cs => lexemesFrom skip (start + 1) cs
  | 0, start, c :: cs =>
      match scan c cs with
      | .lexeme shape length => .next ⟨shape, start⟩ (lexemesFrom (length - 1) (start + 1) cs)
      | .comment length => lexemesFrom (length - 1) (start + 1) cs
      | .unclosed => .fault (.unclosedString start)
      | .invalid => .fault (.invalidString start)

def readable (c : Char) : Char := if c = '\x00' then replacement else c

def lexemes (source : List Char) : Lexemes := lexemesFrom 0 0 (source.map readable)

end SelectorRank
