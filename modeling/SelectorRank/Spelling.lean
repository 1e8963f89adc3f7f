import SelectorRank.Text.Quoted

/-! Spelling of identifiers and strings in selector text. -/
namespace SelectorRank.Spelling

def isControl (c : Char) : Bool := (0x01 ≤ c.toNat && c.toNat ≤ 0x1f) || c.toNat == 0x7f

def isNameChar (c : Char) : Bool := c.isAlphanum || c == '-' || c == '_'

def isNonAscii (c : Char) : Bool := 0x80 ≤ c.toNat

def replacement : Char := '\ufffd'

/-- A numbered escape, closed by a blank so that no following digit joins it. -/
def codePoint (c : Char) : List Char := '\\' :: Text.hex c.toNat ++ [' ']

def identifierChar (digits : Bool) (c : Char) : List Char :=
  if c = '\x00' then [replacement]
  else if isControl c || (c.isDigit && !digits) then codePoint c
  else if isNonAscii c || isNameChar c then [c]
  else ['\\', c]

def identifier : List Char → List Char
  | [] => []
  | ['-'] => ['\\', '-']
  | '-' :: c :: cs => '-' :: identifierChar false c ++ cs.flatMap (identifierChar true)
  | c :: cs => identifierChar false c ++ cs.flatMap (identifierChar true)

def stringChar (c : Char) : List Char :=
  if c = '\x00' then [replacement]
  else if isControl c then codePoint c
  else if c = Text.doubleQuote || c = '\\' then ['\\', c]
  else [c]

def string (cs : List Char) : List Char :=
  Text.doubleQuote :: cs.flatMap stringChar ++ [Text.doubleQuote]

def identifierText (s : String) : String := String.ofList (identifier s.toList)

def stringText (s : String) : String := String.ofList (string s.toList)

end SelectorRank.Spelling
