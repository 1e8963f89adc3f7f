import SelectorRank.Source.Position
import SelectorRank.Text.Digit
import SelectorRank.Text.Quoted

/-! Reasons to reject a settings document, and the places where they show. -/
namespace SelectorRank.Toml
open Text

abbrev Path := List String

def Path.shown (p : Path) : String := tupled (p.map quoted)

inductive Fault where
  | statement
  | lineEnd
  | keyStart
  | equalsSign
  | declaredTwice (path : Path)
  | occupied
  | tableEnd
  | sealedPath (path : Path)
  | arrayTableEnd
  | redefined (path : Path)
  | arrayEnd
  | inlineTableEnd
  | repeatedKey (key : String)
  | escape
  | hexDigits
  | codePoint
  | missingMark (mark : String)
  | strayChar (c : Char)
  | unterminated
  | stringChar (c : Char)
  | calendar
  | value
  deriving DecidableEq, Repr

def Fault.phrase : Fault → String
  | .statement => "Invalid statement"
  | .lineEnd => "Expected newline or end of document after a statement"
  | .keyStart => "Invalid initial character for a key part"
  | .equalsSign => "Expected \x27=\x27 after a key in a key/value pair"
  | .declaredTwice path => "Cannot declare " ++ path.shown ++ " twice"
  | .occupied => "Cannot overwrite a value"
  | .tableEnd => "Expected \x27]\x27 at the end of a table declaration"
  | .sealedPath path => "Cannot mutate immutable namespace " ++ path.shown
  | .arrayTableEnd => "Expected \x27]]\x27 at the end of an array declaration"
  | .redefined path => "Cannot redefine namespace " ++ path.shown
  | .arrayEnd => "Unclosed array"
  | .inlineTableEnd => "Unclosed inline table"
  | .repeatedKey key => "Duplicate inline table key " ++ quoted key
  | .escape => "Unescaped \x27\\\x27 in a string"
  | .hexDigits => "Invalid hex value"
  | .codePoint => "Escaped character is not a Unicode scalar value"
  | .missingMark mark => "Expected " ++ quoted mark
  | .strayChar c => "Found invalid character " ++ quoted (String.singleton c)
  | .unterminated => "Unterminated string"
  | .stringChar c => "Illegal character " ++ quoted (String.singleton c)
  | .calendar => "Invalid date or datetime"
  | .value => "Invalid value"

/-- A fault in front of the last so many characters, or a numeral of too many digits. -/
inductive Stop where
  | rejected (fault : Fault) (left : Nat)
  | longNumeral (digits : Nat)
  deriving DecidableEq, Repr

def placeText (document : List Char) (left : Nat) : String :=
  if left = 0 then "end of document"
  else
    let p := Position.ofOffset document ((document.length : Int) - left)
    "line " ++ String.ofList (integer p.line) ++ ", column " ++ String.ofList (integer p.column)

def Fault.message (f : Fault) (document : List Char) (left : Nat) : String :=
  f.phrase ++ " (at " ++ placeText document left ++ ")"

abbrev Reading := Except Stop

def reject {α : Type} (fault : Fault) (rest : List Char) : Reading α :=
  .error (.rejected fault rest.length)

end SelectorRank.Toml
