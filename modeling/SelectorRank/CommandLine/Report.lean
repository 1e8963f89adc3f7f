import SelectorRank.CommandLine.Flag

/-! Reports: a row for each declaration, as a line or as an object of a document. -/
namespace SelectorRank.CommandLine
open Text

structure Row where
  selector : Option String
  specificity : Specificity
  precedence : Precedence
  deriving DecidableEq, Repr

def matchedText? : Match → Option String
  | .selector s => some s.text
  | _ => none

def Row.of (d : Declaration) : Except WeightFault Row := do
  let specificity ← d.specificity
  let precedence ← d.precedence
  .ok ⟨matchedText? d.matched, specificity, precedence⟩

def Row.text (r : Row) : String := r.selector.getD "None"

def Row.line (r : Row) : String := r.specificity.text ++ "\t" ++ r.text ++ "\n"

def unitEscape (n : Nat) : List Char := '\\' :: 'u' :: padLeft 4 '0' (hex n)

def numberEscape (n : Nat) : List Char :=
  if n < 0x10000 then unitEscape n
  else unitEscape (0xd800 + (n - 0x10000) / 0x400) ++ unitEscape (0xdc00 + (n - 0x10000) % 0x400)

def asciiChar (c : Char) : List Char :=
  if c = doubleQuote || c = '\\' then ['\\', c]
  else if c = '\n' then ['\\', 'n']
  else if c = '\r' then ['\\', 'r']
  else if c = '\t' then ['\\', 't']
  else if c = '\x0c' then ['\\', 'f']
  else if c = '\x08' then ['\\', 'b']
  else if 0x20 ≤ c.toNat && c.toNat < 0x7f then [c]
  else numberEscape c.toNat

def asciiQuoted (s : String) : String :=
  String.ofList (doubleQuote :: s.toList.flatMap asciiChar ++ [doubleQuote])

def spread (depth : Nat) (opening closing : String) (items : List String) : String :=
  let margin := fun n => "\n" ++ String.ofList (List.replicate (2 * n) ' ')
  if items.isEmpty then opening ++ closing
  else opening ++ margin (depth + 1) ++ String.intercalate ("," ++ margin (depth + 1)) items ++
    margin depth ++ closing

def numeral (n : Nat) : String := String.ofList (natural n)

def Row.object (r : Row) : String :=
  spread 1 "\x7b" "\x7d" [
    "\"selector\": " ++ r.selector.elim "null" asciiQuoted,
    "\"specificity\": " ++ spread 2 "[" "]" (r.specificity.columns.map numeral),
    "\"precedence\": " ++ numeral r.precedence.rank]

def report (format : Format) (rows : List Row) : String :=
  match format with
  | .text => String.join (rows.map Row.line)
  | .json => spread 0 "[" "]" (rows.map Row.object) ++ "\n"

end SelectorRank.CommandLine
