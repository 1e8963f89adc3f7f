/-! Merging two ordered runs, one item at a time until one run has gone first often enough in a row;
then the runs leap in turn. -/
namespace SelectorRank.Sorting

variable {α ε : Type}

inductive Direction where
  | forward | backward
  deriving DecidableEq, Repr

/-- Of two middles the later one as the runs lie, which is nearer in a merge from their ends. -/
def Direction.middle (d : Direction) (low high : Nat) : Nat :=
  match d with
  | .forward => low + (high - low) / 2
  | .backward => high - 1 - (high - low) / 2

def testAt (test : α → Except ε Bool) (xs : List α) (place : Nat) : Except ε Bool :=
  match xs[place]? with
  | some x => test x
  | none => .ok false

def bisect (d : Direction) (test : α → Except ε Bool) (xs : List α) :
    Nat → Nat → Nat → Except ε Nat
  | 0, low, _ => .ok low
  | steps + 1, low, high =>
      if low < high then do
        let middle := d.middle low high
        if ← testAt test xs middle then bisect d test xs steps (middle + 1) high
        else bisect d test xs steps low middle
      else .ok low

def stride (test : α → Except ε Bool) (xs : List α) : Nat → Nat → Nat → Except ε (Nat × Nat)
  | 0, last, next => .ok (last, min next xs.length)
  | steps + 1, last, next =>
      if next < xs.length then do
        if ← testAt test xs next then stride test xs steps next (2 * next + 1)
        else .ok (last, next)
      else .ok (last, xs.length)

def countPassing (d : Direction) (test : α → Except ε Bool) (xs : List α) : Except ε Nat := do
  if ← testAt test xs 0 then
    let (last, next) ← stride test xs xs.length 0 1
    bisect d test xs xs.length (last + 1) next
  else .ok 0

/-- What is merged, the last first, and what is left of two runs, in the direction of the merge. -/
structure Merging (α : Type) where
  merged : List α
  left : List α
  right : List α

namespace Merging

def start (d : Direction) (left right : List α) : Merging α :=
  match d with
  | .forward => ⟨[], left, right⟩
  | .backward => ⟨[], left.reverse, right.reverse⟩

def takeLeft (m : Merging α) (count : Nat) : Merging α :=
  ⟨(m.left.take count).reverse ++ m.merged, m.left.drop count, m.right⟩

def takeRight (m : Merging α) (count : Nat) : Merging α :=
  ⟨(m.right.take count).reverse ++ m.merged, m.left, m.right.drop count⟩

/-- Nothing is left to compare: one run is used up, or only the outermost item of the other, which
is known to go last, is left. -/
def isSettled (m : Merging α) (d : Direction) : Bool :=
  match d with
  | .forward => m.left.length ≤ 1 || m.right.isEmpty
  | .backward => m.left.isEmpty || m.right.length ≤ 1

def result (m : Merging α) (d : Direction) : List α :=
  match d with
  | .forward => m.merged.reverse ++ m.right ++ m.left
  | .backward => (m.merged.reverse ++ m.left ++ m.right).reverse

end Merging

def takesLeft (less : α → α → Except ε Bool) (d : Direction) (x y : α) : Except ε Bool := do
  let falls ← less y x
  .ok (if d = .forward then !falls else falls)

def Merging.leap (less : α → α → Except ε Bool) (d : Direction) (m : Merging α) :
    Except ε (Nat × Merging α) :=
  match m.right with
  | [] => .ok (0, m)
  | y :: _ => do
      let lefts ← countPassing d (fun x => takesLeft less d x y) m.left
      let m := m.takeLeft lefts
      if m.isSettled d then .ok (lefts, m)
      else
        let m := m.takeRight 1
        match m.isSettled d, m.left with
        | false, x :: _ => do
            let rights ← countPassing d (fun y => do .ok (!(← takesLeft less d x y))) m.right
            let m := m.takeRight rights
            .ok (max lefts rights, if m.isSettled d then m else m.takeLeft 1)
        | _, _ => .ok (lefts, m)

def shortestLeap : Nat := 7

inductive Pace where
  | single (lefts rights : Nat)
  | leaping
  deriving DecidableEq, Repr

/-- It takes less patience to leap with every leap that follows another, and more once leaping
ends. -/
def mergeFrom (less : α → α → Except ε Bool) (d : Direction) :
    Nat → Nat → Pace → Merging α → Except ε (Nat × List α)
  | 0, patience, _, m => .ok (patience, m.result d)
  | steps + 1, patience, pace, m =>
      if m.isSettled d then .ok (patience, m.result d)
      else match pace with
        | .single lefts rights =>
            match m.left, m.right with
            | x :: _, y :: _ => do
                if ← takesLeft less d x y then
                  mergeFrom less d steps patience
                    (if patience ≤ lefts + 1 then .leaping else .single (lefts + 1) 0)
                    (m.takeLeft 1)
                else
                  mergeFrom less d steps patience
                    (if patience ≤ rights + 1 then .leaping else .single 0 (rights + 1))
                    (m.takeRight 1)
            | _, _ => .ok (patience, m.result d)
        | .leaping => do
            let (longest, m) ← m.leap less d
            if m.isSettled d then .ok (patience, m.result d)
            else if shortestLeap ≤ longest then
              mergeFrom less d steps (max 1 (patience - 1)) .leaping m
            else mergeFrom less d steps (patience + 1) (.single 0 0) m

def mergeTrimmed (less : α → α → Except ε Bool) (patience : Nat) (left right : List α) :
    Except ε (Nat × List α) :=
  let size := left.length + right.length
  if left.length ≤ right.length then
    mergeFrom less .forward size patience (.single 0 0)
      ((Merging.start .forward left right).takeRight 1)
  else
    mergeFrom less .backward size patience (.single 0 0)
      ((Merging.start .backward left right).takeLeft 1)

def mergeRuns (less : α → α → Except ε Bool) (patience : Nat) (left right : List α) :
    Except ε (Nat × List α) :=
  match right with
  | [] => .ok (patience, left)
  | y :: _ => do
      let ahead ← countPassing .forward (fun x => takesLeft less .forward x y) left
      match (left.drop ahead).getLast? with
      | none => .ok (patience, left ++ right)
      | some x => do
          let behind ← countPassing .backward
            (fun y => do .ok (!(← takesLeft less .backward x y))) right.reverse
          let mixed := right.length - behind
          if mixed = 0 then .ok (patience, left ++ right)
          else do
            let (patience, merged) ← mergeTrimmed less patience (left.drop ahead) (right.take mixed)
            .ok (patience, left.take ahead ++ merged ++ right.drop mixed)

end SelectorRank.Sorting
