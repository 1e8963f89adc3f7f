import SelectorRank.Spelling

/-! Reading escapes in three passes. What one pass uncovers the next may read as an escape again. -/
namespace SelectorRank.Unescape

def isHex (c : Char) : Bool :=
  c.isDigit || ('a' ≤ c && c ≤ 'f') || ('A' ≤ c && c ≤ 'F')

def hexValue (c : Char) : Nat :=
  if c.isDigit then c.toNat - 48 else if 'a' ≤ c then c.toNat - 87 else c.toNat - 55

def newlineLength : List Char → Nat
  | '\r' :: '\n' :: _ => 2
  | '\n' :: _ => 1
  | '\r' :: _ => 1
  | '\x0c' :: _ => 1
  | _ => 0

def closingLength : List Char → Nat
  | ' ' :: _ => 1
  | '\t' :: _ => 1
  | cs => newlineLength cs

def hexDigits (cs : List Char) : List Char := (cs.take 6).takeWhile isHex

def numberedLength (cs : List Char) : Nat :=
  match (hexDigits cs).length with
  | 0 => 0
  | n + 1 => n + 1 + closingLength (cs.drop (n + 1))

def ofCodePoint (n : Nat) : Char :=
  if n ≠ 0 && n.isValidChar then Char.ofNat n else Spelling.replacement

def numberedChar (cs : List Char) : Char :=
  ofCodePoint ((hexDigits cs).foldl (fun n c => 16 * n + hexValue c) 0)

def joinLines : Nat → List Char → List Char
  | _, [] => []
  | k + 1, _ :: cs => joinLines k cs
  | 0, c :: cs =>
      if c = '\\' then
        match newlineLength cs with
        | 0 => c :: joinLines 0 cs
        | n + 1 => joinLines (n + 1) cs
      else c :: joinLines 0 cs

def readNumbered : Nat → List Char → List Char
  | _, [] => []
  | k + 1, _ :: cs => readNumbered k cs
  | 0, c :: cs =>
      if c = '\\' then
        match numberedLength cs with
        | 0 => c :: readNumbered 0 cs
        | n + 1 => numberedChar cs :: readNumbered (n + 1) cs
      else c :: readNumbered 0 cs

def dropBackslashes : List Char → List Char
  | [] => []
  | '\\' :: c :: cs =>
      if c = '\n' then '\\' :: c :: dropBackslashes cs else c :: dropBackslashes cs
  | c :: cs => c :: dropBackslashes cs

def ofName (cs : List Char) : List Char := dropBackslashes (readNumbered 0 cs)

def ofString (cs : List Char) : List Char := ofName (joinLines 0 cs)

end SelectorRank.Unescape
