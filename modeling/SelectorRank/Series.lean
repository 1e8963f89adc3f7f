import SelectorRank.Text.Digit

/-! Arithmetic series `An+B`, the arguments of the counting pseudo-classes. -/
namespace SelectorRank

structure Series where
  step : Int
  offset : Int
  deriving DecidableEq, Repr

namespace Series
open Text

def stepText (a : Int) : List Char :=
  if a = 1 then ['n']
  else if a = -1 then ['-', 'n']
  else if a = 0 then []
  else integer a ++ ['n']

def text (s : Series) : List Char :=
  let term := stepText s.step
  if term = [] then integer s.offset
  else if s.offset = 0 then term
  else if 0 < s.offset then term ++ '+' :: integer s.offset
  else term ++ integer s.offset

def isWritable (s : Series) : Bool :=
  (natural s.step.natAbs).length ≤ numeralLimit && (natural s.offset.natAbs).length ≤ numeralLimit

def lower (c : Char) : Char := c.toLower

def step? : List Char → Option Int
  | [] => some 1
  | ['+'] => some 1
  | ['-'] => some (-1)
  | cs => integer? cs

def offset? : List Char → Option Int
  | [] => some 0
  | cs => integer? cs

def ofText? (cs : List Char) : Option Series :=
  let s := (trim isBlank cs).map lower
  if s = ['o', 'd', 'd'] then some ⟨2, 1⟩
  else if s = ['e', 'v', 'e', 'n'] then some ⟨2, 0⟩
  else match s.dropWhile (· ≠ 'n') with
    | [] => (integer? s).map (⟨0, ·⟩)
    | _ :: rest => do
        let a ← step? (s.takeWhile (· ≠ 'n'))
        let b ← offset? rest
        some ⟨a, b⟩

end Series

end SelectorRank
