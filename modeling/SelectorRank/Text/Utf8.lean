import SelectorRank.Text.Digit
import SelectorRank.Text.Quoted

/-! Text from bytes. The first byte of a character bounds the next one, which rules out surrogates
and spellings that are longer than they need be. -/
namespace SelectorRank.Text

inductive Utf8Reason where
  | badStart | badContinuation | cutShort
  deriving DecidableEq, Repr

/-- Bytes of which no character can be made: the places of the first and the last of them, and the
first byte. -/
structure Utf8Fault where
  reason : Utf8Reason
  first : Nat
  last : Nat
  byte : UInt8
  deriving DecidableEq, Repr

def Utf8Reason.phrase : Utf8Reason → String
  | .badStart => "invalid start byte"
  | .badContinuation => "invalid continuation byte"
  | .cutShort => "unexpected end of data"

def Utf8Fault.message (f : Utf8Fault) : String :=
  let first := String.ofList (natural f.first)
  let what :=
    if f.first = f.last then
      "byte 0x" ++ String.ofList (padLeft 2 '0' (hex f.byte.toNat)) ++ " in position " ++ first
    else "bytes in position " ++ first ++ "-" ++ String.ofList (natural f.last)
  "\x27utf-8\x27 codec can\x27t decode " ++ what ++ ": " ++ f.reason.phrase

structure Unfinished where
  byte : UInt8
  first : Nat
  owed : Nat
  low : Nat
  high : Nat
  value : Nat
  deriving DecidableEq, Repr

def leading? (place : Nat) (b : UInt8) : Option Unfinished :=
  let n := b.toNat
  if n < 0xc2 then none
  else if n < 0xe0 then some ⟨b, place, 0, 0x80, 0xbf, n - 0xc0⟩
  else if n < 0xf0 then
    some ⟨b, place, 1, if n = 0xe0 then 0xa0 else 0x80, if n = 0xed then 0x9f else 0xbf, n - 0xe0⟩
  else if n < 0xf5 then
    some ⟨b, place, 2, if n = 0xf0 then 0x90 else 0x80, if n = 0xf4 then 0x8f else 0xbf, n - 0xf0⟩
  else none

def decodeFrom (place : Nat) : Option Unfinished → List UInt8 → Except Utf8Fault (List Char)
  | none, [] => .ok []
  | some p, [] => .error ⟨.cutShort, p.first, place - 1, p.byte⟩
  | none, b :: bs =>
      if b.toNat < 0x80 then do
        let rest ← decodeFrom (place + 1) none bs
        .ok (Char.ofNat b.toNat :: rest)
      else match leading? place b with
        | some p => decodeFrom (place + 1) (some p) bs
        | none => .error ⟨.badStart, place, place, b⟩
  | some p, b :: bs =>
      let value := 64 * p.value + (b.toNat - 0x80)
      if b.toNat < p.low || p.high < b.toNat then
        .error ⟨.badContinuation, p.first, place - 1, p.byte⟩
      else match p.owed with
        | 0 => do
            let rest ← decodeFrom (place + 1) none bs
            .ok (Char.ofNat value :: rest)
        | n + 1 => decodeFrom (place + 1) (some ⟨p.byte, p.first, n, 0x80, 0xbf, value⟩) bs

def decode (bytes : List UInt8) : Except Utf8Fault (List Char) := decodeFrom 0 none bytes

end SelectorRank.Text
