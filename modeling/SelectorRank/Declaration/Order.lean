import SelectorRank.Declaration.Item
import SelectorRank.Sorting.Runs

/-! Cascade order: the winner first, and of two declarations that tie the later one. -/
namespace SelectorRank
open Sorting

def comesBefore (x y : Nat × Declaration) : Except WeightFault Bool := do
  match ← x.2.compare y.2 with
  | .lt => .ok true
  | .gt => .ok false
  | .eq => .ok (y.1 < x.1)

def numbered (ds : List Declaration) : List (Nat × Declaration) :=
  ds.zipIdx.map (fun p => (p.2, p.1))

def rankDeclarations (ds : List Declaration) : Except WeightFault (List (Nat × Declaration)) :=
  sortByRuns comesBefore (numbered ds)

def sortDeclarations (ds : List Declaration) : Except WeightFault (List Declaration) :=
  (rankDeclarations ds).map (List.map Prod.snd)

def sortItems (items : List Item) : Except Failure (List Declaration) := do
  let declarations ← items.mapM Item.coerce
  (sortDeclarations declarations).mapError WeightFault.failure

end SelectorRank
