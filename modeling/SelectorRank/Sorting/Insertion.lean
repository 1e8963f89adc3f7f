/-! Runs at the start of a list and insertion into them, with a comparison that may fail. -/
namespace SelectorRank.Sorting

variable {α ε : Type}

def fallingRun (less : α → α → Except ε Bool) (run : List α) (last : α) :
    List α → Except ε (List α × List α)
  | [] => .ok (last :: run, [])
  | x :: xs => do
      if ← less x last then fallingRun less (last :: run) x xs
      else .ok (last :: run, x :: xs)

def risingRun (less : α → α → Except ε Bool) (run : List α) (last : α) :
    List α → Except ε (List α × List α)
  | [] => .ok ((last :: run).reverse, [])
  | x :: xs => do
      if ← less x last then .ok ((last :: run).reverse, x :: xs)
      else risingRun less (last :: run) x xs

def leadingRun (less : α → α → Except ε Bool) : List α → Except ε (List α × List α)
  | x :: y :: rest => do
      if ← less y x then fallingRun less [x] y rest else risingRun less [x] y rest
  | short => .ok (short, [])

/-- Puts an item after all items of an ordered list that it is not less than, by halving. -/
def insertByHalving (less : α → α → Except ε Bool) (item : α) (xs : List α) :
    Except ε (List α) :=
  match _h : xs.drop (xs.length / 2) with
  | [] => .ok [item]
  | middle :: after => do
      if ← less item middle then
        let before ← insertByHalving less item (xs.take (xs.length / 2))
        .ok (before ++ middle :: after)
      else
        let after ← insertByHalving less item after
        .ok (xs.take (xs.length / 2) ++ middle :: after)
termination_by xs.length
decreasing_by
  all_goals
    have size := congrArg List.length _h
    simp only [List.length_drop, List.length_cons, List.length_take] at size ⊢
    omega

end SelectorRank.Sorting
