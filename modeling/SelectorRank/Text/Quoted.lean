import SelectorRank.Text.Printable

/-! Quoted texts as messages show them. -/
namespace SelectorRank.Text

def singleQuote : Char := '\x27'

def doubleQuote : Char := '\x22'

def quoteFor (cs : List Char) : Char :=
  if cs.contains singleQuote && !cs.contains doubleQuote then doubleQuote else singleQuote

def padLeft (width : Nat) (fill : Char) (cs : List Char) : List Char :=
  List.replicate (width - cs.length) fill ++ cs

def hex (n : Nat) : List Char := Nat.toDigits 16 n

def numbered (n : Nat) : List Char :=
  if n < 0x100 then '\\' :: 'x' :: padLeft 2 '0' (hex n)
  else if n < 0x10000 then '\\' :: 'u' :: padLeft 4 '0' (hex n)
  else '\\' :: 'U' :: padLeft 8 '0' (hex n)

def quotedChar (quote c : Char) : List Char :=
  if c = quote || c = '\\' then ['\\', c]
  else if c = '\n' then ['\\', 'n']
  else if c = '\r' then ['\\', 'r']
  else if c = '\t' then ['\\', 't']
  else if isPrintable c then [c]
  else numbered c.toNat

def quotedChars (cs : List Char) : List Char :=
  quoteFor cs :: cs.flatMap (quotedChar (quoteFor cs)) ++ [quoteFor cs]

def quoted (s : String) : String := String.ofList (quotedChars s.toList)

def listed (items : List String) : String := "[" ++ String.intercalate ", " items ++ "]"

def tupled : List String → String
  | [item] => "(" ++ item ++ ",)"
  | items => "(" ++ String.intercalate ", " items ++ ")"

def braced (entries : List (String × String)) : String :=
  "\x7b" ++ String.intercalate ", " (entries.map (fun e => quoted e.1 ++ ": " ++ e.2)) ++ "\x7d"

end SelectorRank.Text
