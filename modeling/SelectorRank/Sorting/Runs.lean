import SelectorRank.Sorting.Insertion
import SelectorRank.Sorting.Merge

/-! Sorting by merging of runs, in an order that halving the whole list would suggest. -/
namespace SelectorRank.Sorting

variable {α ε : Type}

/-- The size of the list, halved and rounded up until it is below 64. -/
def leastRun (lost : Nat) (size : Nat) : Nat :=
  if size < 64 then size + lost else leastRun (max lost (size % 2)) (size / 2)
termination_by size
decreasing_by omega

def nextRun (less : α → α → Except ε Bool) (least : Nat) (xs : List α) :
    Except ε (List α × List α) := do
  let (run, rest) ← leadingRun less xs
  let more := least - run.length
  let run ← (rest.take more).foldlM (fun sorted item => insertByHalving less item sorted) run
  .ok (run, rest.drop more)

/-- How often a list has to be halved until two places, given by their doubles, are parted. -/
def partingDepth (size first second : Nat) : Nat :=
  let parts := fun n => first * Nat.pow 2 n / size ≠ second * Nat.pow 2 n / size
  ((List.range (size + 1)).find? (fun n => parts n)).getD size

structure Waiting (α : Type) where
  items : List α
  depth : Nat

def settle (less : α → α → Except ε Bool) (depth : Nat) :
    Nat → List (Waiting α) → List α → Except ε (Nat × List (Waiting α) × List α)
  | patience, [], run => .ok (patience, [], run)
  | patience, w :: ws, run =>
      if depth < w.depth then do
        let (patience, run) ← mergeRuns less patience w.items run
        settle less depth patience ws run
      else .ok (patience, w :: ws, run)

def mergeAll (less : α → α → Except ε Bool) : Nat → List (List α) → Except ε (List α)
  | patience, first :: second :: third :: rest =>
      if third.length < first.length then do
        let (patience, run) ← mergeRuns less patience third second
        mergeAll less patience (first :: run :: rest)
      else do
        let (patience, run) ← mergeRuns less patience second first
        mergeAll less patience (run :: third :: rest)
  | patience, [first, second] => do
      let (_, run) ← mergeRuns less patience second first
      .ok run
  | _, [run] => .ok run
  | _, [] => .ok []
termination_by _ runs => runs.length

/-- `start` is the place of the last run read, which waits for the next. -/
def gather (less : α → α → Except ε Bool) (size least : Nat) :
    Nat → Nat → Nat → List (Waiting α) → List α → List α → Except ε (List α)
  | 0, _, patience, waiting, run, _ => mergeAll less patience (run :: waiting.map Waiting.items)
  | steps + 1, start, patience, waiting, run, rest => do
      if rest.isEmpty then mergeAll less patience (run :: waiting.map Waiting.items)
      else
        let (next, rest) ← nextRun less least rest
        let middle := 2 * start + run.length
        let depth := partingDepth size middle (middle + run.length + next.length)
        let (patience, waiting, merged) ← settle less depth patience waiting run
        gather less size least steps (start + run.length) patience (⟨merged, depth⟩ :: waiting)
          next rest

def sortByRuns (less : α → α → Except ε Bool) (xs : List α) : Except ε (List α) := do
  let least := leastRun 0 xs.length
  let (run, rest) ← nextRun less least xs
  gather less xs.length least xs.length 0 shortestLeap [] run rest

end SelectorRank.Sorting
