import SelectorRank.Lexeme.Unescape
import SelectorRank.Toml.Value

/-! Numbers of settings documents. The longest start of a text that is a number is read, so `01` is
the number zero before a one. -/
namespace SelectorRank.Toml
open Text

inductive Number where
  | integer (value : Int)
  | overlong (digits : Nat)
  | float (value : Float)

def furtherDigits (isDigit : Char → Bool) : List Char → List Char × List Char
  | [] => ([], [])
  | c :: cs =>
      if isDigit c then
        let (ds, rest) := furtherDigits isDigit cs
        (c :: ds, rest)
      else match cs with
        | d :: tail =>
            if c = '_' && isDigit d then
              let (ds, rest) := furtherDigits isDigit tail
              (d :: ds, rest)
            else ([], c :: cs)
        | [] => ([], [c])

def digitGroup (isDigit : Char → Bool) : List Char → List Char × List Char
  | [] => ([], [])
  | c :: cs => if isDigit c then furtherDigits isDigit (c :: cs) else ([], c :: cs)

def valueInBase (base : Nat) (digits : List Char) : Nat :=
  digits.foldl (fun n c => base * n + Unescape.hexValue c) 0

def baseOf? (c : Char) : Option (Nat × (Char → Bool)) :=
  if c = 'x' then some (16, Unescape.isHex)
  else if c = 'o' then some (8, fun d => '0' ≤ d && d ≤ '7')
  else if c = 'b' then some (2, fun d => d = '0' || d = '1')
  else none

def readBased? : List Char → Option (Number × List Char)
  | '0' :: mark :: cs => do
      let (base, isDigit) ← baseOf? mark
      match digitGroup isDigit cs with
      | ([], _) => none
      | (digits, rest) => some (.integer (valueInBase base digits), rest)
  | _ => none

def readSign : List Char → Bool × List Char
  | '-' :: cs => (true, cs)
  | '+' :: cs => (false, cs)
  | cs => (false, cs)

def readWhole : List Char → List Char × List Char
  | '0' :: cs => (['0'], cs)
  | cs => digitGroup Char.isDigit cs

def readDecimals : List Char → List Char × List Char
  | '.' :: cs =>
      match digitGroup Char.isDigit cs with
      | ([], _) => ([], '.' :: cs)
      | (digits, rest) => (digits, rest)
  | cs => ([], cs)

def readExponent? : List Char → Option ((Bool × List Char) × List Char)
  | [] => none
  | c :: cs =>
      if c = 'e' || c = 'E' then
        let (negative, cs) := readSign cs
        match digitGroup Char.isDigit cs with
        | ([], _) => none
        | (digits, rest) => some ((negative, digits), rest)
      else none

def signed (negative : Bool) (n : Nat) : Int := if negative then -(n : Int) else n

def floatOf (negative : Bool) (digits : List Char) (exponent : Int) : Float :=
  let value := Decimal.nearest (valueInBase 10 digits) exponent
  if negative then -value else value

def readDecimal? (cs : List Char) : Option (Number × List Char) :=
  let (negative, cs) := readSign cs
  match readWhole cs with
  | ([], _) => none
  | (whole, cs) =>
      let (decimals, cs) := readDecimals cs
      let scale : Int := decimals.length
      match decimals, readExponent? cs with
      | [], none =>
          some (if whole.length ≤ numeralLimit then
            .integer (signed negative (valueInBase 10 whole)) else .overlong whole.length, cs)
      | _, none => some (.float (floatOf negative (whole ++ decimals) (-scale)), cs)
      | _, some ((below, digits), rest) =>
          some (.float (floatOf negative (whole ++ decimals)
            (signed below (valueInBase 10 digits) - scale)), rest)

def readNamed? (cs : List Char) : Option (Number × List Char) :=
  let (negative, rest) := readSign cs
  if ['i', 'n', 'f'].isPrefixOf rest then
    some (.float (if negative then -(1 / 0) else 1 / 0), rest.drop 3)
  else if ['n', 'a', 'n'].isPrefixOf rest then some (.float (0 / 0), rest.drop 3)
  else none

def readNumber? (cs : List Char) : Option (Number × List Char) :=
  readBased? cs <|> readDecimal? cs <|> readNamed? cs

end SelectorRank.Toml
