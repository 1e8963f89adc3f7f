import SelectorRank.Lexeme.Unescape
import SelectorRank.Toml.Blank

/-! Strings of settings documents: literal ones, in single quotes, and basic ones, which have
escapes. -/
namespace SelectorRank.Toml
open Text (singleQuote doubleQuote)

def cutAt? (mark : List Char) : List Char → Option (List Char × List Char)
  | [] => none
  | c :: cs =>
      if mark.isPrefixOf (c :: cs) then some ([], (c :: cs).drop mark.length)
      else (cutAt? mark cs).map (fun r => (c :: r.1, r.2))

def readLiteral (mark : List Char) (oneLine : Bool) (cs : List Char) :
    Reading (List Char × List Char) :=
  match cutAt? mark cs with
  | none => reject (.missingMark (String.ofList mark)) []
  | some (body, rest) =>
      match body.find? (isForbidden oneLine) with
      | some c => reject (.strayChar c) (cs.dropWhile (fun c => !isForbidden oneLine c))
      | none => .ok (body, rest)

def readCodePoint (size : Nat) (cs : List Char) : Reading (List Char × List Char) :=
  let digits := cs.take size
  if digits.length = size && digits.all Unescape.isHex then
    let n := digits.foldl (fun n c => 16 * n + Unescape.hexValue c) 0
    if n.isValidChar then .ok ([Char.ofNat n], cs.drop size)
    else reject .codePoint (cs.drop size)
  else reject .hexDigits cs

def shortEscape? (c : Char) : Option Char :=
  if c = 'b' then some '\x08'
  else if c = 't' then some '\t'
  else if c = 'n' then some '\n'
  else if c = 'f' then some '\x0c'
  else if c = 'r' then some '\r'
  else if c = doubleQuote || c = '\\' then some c
  else none

def readLineJoin (cs : List Char) : Reading (List Char × List Char) :=
  match skipSpaces cs with
  | [] => .ok ([], [])
  | '\n' :: rest => .ok ([], rest.dropWhile isSpaceOrLineFeed)
  | rest => reject .escape rest

def readEscape (oneLine : Bool) : List Char → Reading (List Char × List Char)
  | [] => reject .escape []
  | c :: cs =>
      if !oneLine && isSpaceOrLineFeed c then readLineJoin (c :: cs)
      else if c = 'u' then readCodePoint 4 cs
      else if c = 'U' then readCodePoint 8 cs
      else match shortEscape? c with
        | some value => .ok ([value], cs)
        | none => reject .escape cs

def readBasic (oneLine : Bool) : Nat → List Char → Reading (List Char × List Char)
  | 0, cs => reject .unterminated cs
  | _ + 1, [] => reject .unterminated []
  | n + 1, c :: cs =>
      if c = doubleQuote && (oneLine || [doubleQuote, doubleQuote].isPrefixOf cs) then
        .ok ([], if oneLine then cs else cs.drop 2)
      else if c = '\\' then do
        let (piece, rest) ← readEscape oneLine cs
        let (body, rest) ← readBasic oneLine n rest
        .ok (piece ++ body, rest)
      else if isForbidden oneLine c then reject (.stringChar c) (c :: cs)
      else do
        let (body, rest) ← readBasic oneLine n cs
        .ok (c :: body, rest)

def triple (quote : Char) : List Char := [quote, quote, quote]

def readBody (quote : Char) (oneLine : Bool) (cs : List Char) : Reading (List Char × List Char) :=
  if quote = singleQuote then
    readLiteral (if oneLine then [quote] else triple quote) oneLine cs
  else readBasic oneLine (cs.length + 1) cs

/-- Up to two quotes after the end of a string that ran over lines. -/
def withTrailingQuotes (quote : Char) (body cs : List Char) : List Char × List Char :=
  let extra := (cs.take 2).takeWhile (· = quote)
  (body ++ extra, cs.drop extra.length)

def readLines (quote : Char) (cs : List Char) : Reading (List Char × List Char) := do
  let (body, rest) ← readBody quote false (if cs.head? = some '\n' then cs.drop 1 else cs)
  .ok (withTrailingQuotes quote body rest)

def readString (quote : Char) (cs : List Char) : Reading (List Char × List Char) :=
  if (triple quote).isPrefixOf cs then readLines quote (cs.drop 3)
  else readBody quote true (cs.drop 1)

def isBareKeyChar (c : Char) : Bool := c.isAlphanum || c = '-' || c = '_'

def readKeyPart : List Char → Reading (String × List Char)
  | [] => reject .keyStart []
  | c :: cs =>
      if isBareKeyChar c then
        .ok (String.ofList ((c :: cs).takeWhile isBareKeyChar), (c :: cs).dropWhile isBareKeyChar)
      else if c = singleQuote || c = doubleQuote then do
        let (body, rest) ← readBody c true cs
        .ok (String.ofList body, rest)
      else reject .keyStart (c :: cs)

def readKeyParts : Nat → List Char → Reading ((Path × String) × List Char)
  | 0, cs => reject .keyStart cs
  | n + 1, cs => do
      let (part, rest) ← readKeyPart cs
      match skipSpaces rest with
      | '.' :: rest => do
          let ((path, last), rest) ← readKeyParts n (skipSpaces rest)
          .ok ((part :: path, last), rest)
      | rest => .ok (([], part), rest)

def readKey (cs : List Char) : Reading ((Path × String) × List Char) :=
  readKeyParts (cs.length + 1) cs

end SelectorRank.Toml
