import SelectorRank.Proofs.Sorting.Merge
import SelectorRank.Sorting.Runs

/-! Sorting by merging of runs. At any time the runs and what is not read yet hold the items, and
each run is ordered; which runs are merged next is of no account to that. -/
namespace SelectorRank.Sorting

variable {α ε : Type} {less : α → α → Except ε Bool} {bad : ε → Prop}

theorem nextRunYields (trans : Transitive less) {least : Nat} {xs : List α}
    (told : xs.Pairwise (Told less bad)) :
    Yields (fun parts => parts.1.Pairwise (Before less) ∧ (parts.1 ++ parts.2).Perm xs ∧
      (xs ≠ [] → parts.2.length < xs.length)) bad (nextRun less least xs) := by
  refine (leadingYields trans told).bind ?_
  rintro ⟨run, rest⟩ ⟨ordered, same, some⟩
  dsimp only at ordered same some ⊢
  generalize least - run.length = more
  have all := toldPerm same told
  rw [← List.take_append_drop more rest, ← List.append_assoc] at all
  refine (insertAllYields trans ordered (List.pairwise_append.mp all).1).bind ?_
  intro longer sorts
  refine .ok ⟨sorts.ordered, ?_, ?_⟩
  · have joined := sorts.same.append_right (rest.drop more)
    rw [List.append_assoc run, List.take_append_drop] at joined
    exact joined.trans same
  · intro left
    have sizes := same.length_eq
    have size := List.length_pos_iff.mpr (some left)
    simp only [List.length_append, List.length_drop] at sizes ⊢
    omega

/-- Ordered runs that together with what is not read yet hold all items. -/
structure Gathered (less : α → α → Except ε Bool) (items : List α) (runs : List (List α))
    (rest : List α) : Prop where
  ordered : ∀ run ∈ runs, run.Pairwise (Before less)
  same : (runs.flatten ++ rest).Perm items

namespace Gathered

variable {items rest : List α} {runs : List (List α)}

theorem perm {other : List (List α)} (gathered : Gathered less items runs rest)
    (moved : other.Perm runs) : Gathered less items other rest :=
  ⟨fun run member => gathered.ordered run (moved.mem_iff.mp member),
    (moved.flatten.append_right rest).trans gathered.same⟩

theorem single {run : List α} (gathered : Gathered less items [run] []) : Sorts less items run :=
  ⟨gathered.ordered run (by simp), by simpa using gathered.same⟩

theorem read {run left : List α} (gathered : Gathered less items runs rest)
    (ordered : run.Pairwise (Before less)) (same : (run ++ left).Perm rest) :
    Gathered less items (run :: runs) left where
  ordered := List.forall_mem_cons.mpr ⟨ordered, gathered.ordered⟩
  same := by
    have moved : (run ++ runs.flatten ++ left).Perm (runs.flatten ++ (run ++ left)) := by
      rw [← List.append_assoc]
      exact List.perm_append_comm.append_right left
    exact moved.trans ((same.append_left _).trans gathered.same)

theorem apart (told : items.Pairwise (Told less bad)) {first second : List α}
    (gathered : Gathered less items (first :: second :: runs) rest) :
    ∀ x ∈ second, ∀ y ∈ first, Told less bad x y := by
  have each := toldPerm gathered.same told
  simp only [List.flatten_cons, List.append_assoc] at each
  intro x later y early
  exact toldSymm ((List.pairwise_append.mp each).2.2 y early x (by simp [later]))

end Gathered

section
variable (trans : Transitive less) {items : List α} (told : items.Pairwise (Told less bad))
  {rest : List α} {patience : Nat}
include trans told

theorem mergeLastYields {first second : List α} {runs : List (List α)}
    (gathered : Gathered less items (first :: second :: runs) rest) :
    Yields (fun merged => Gathered less items (merged.2 :: runs) rest) bad
      (mergeRuns less patience second first) := by
  refine (mergeRunsYields trans (gathered.ordered second (by simp)) (gathered.ordered first (by simp))
    (gathered.apart told)).imp ?_
  rintro ⟨patience, merged⟩ ⟨ordered, same⟩
  refine ⟨List.forall_mem_cons.mpr ⟨ordered, fun run member =>
    gathered.ordered run (by simp [member])⟩, ?_⟩
  have moved : (merged ++ (runs.flatten ++ rest)).Perm
      (first ++ second ++ (runs.flatten ++ rest)) :=
    (same.trans List.perm_append_comm).append_right _
  simpa using moved.trans (by simpa using gathered.same)

theorem settleYields {depth : Nat} {waiting : List (Waiting α)} {run : List α}
    (gathered : Gathered less items (run :: waiting.map Waiting.items) rest) :
    Yields (fun settled =>
        Gathered less items (settled.2.2 :: settled.2.1.map Waiting.items) rest) bad
      (settle less depth patience waiting run) := by
  induction waiting generalizing patience run with
  | nil => exact .ok gathered
  | cons w ws ih =>
    unfold settle
    split
    · exact (mergeLastYields trans told gathered).bind fun _ merged => ih merged
    · exact .ok gathered

theorem mergeAllYields {runs : List (List α)} (gathered : Gathered less items runs []) :
    Yields (Sorts less items) bad (mergeAll less patience runs) := by
  induction size : runs.length using Nat.strongRecOn generalizing patience runs with
  | ind n ih =>
    subst size
    unfold mergeAll
    split
    · next patience first second third runs =>
      split
      · have inner : ([second, third] ++ first :: runs).Perm (first :: second :: third :: runs) :=
          List.perm_middle
        refine (mergeLastYields trans told (gathered.perm inner)).bind ?_
        intro merged last
        exact ih _ (by simp) (last.perm (.swap merged.2 first runs)) rfl
      · exact (mergeLastYields trans told gathered).bind fun _ last => ih _ (by simp) last rfl
    · exact (mergeLastYields trans told gathered).bind fun _ last => .ok last.single
    · exact .ok gathered.single
    · exact .ok ⟨.nil, gathered.same⟩

theorem gatherYields {size least steps start : Nat} {waiting : List (Waiting α)} {run : List α}
    (gathered : Gathered less items (run :: waiting.map Waiting.items) rest)
    (enough : rest.length ≤ steps) :
    Yields (Sorts less items) bad
      (gather less size least steps start patience waiting run rest) := by
  induction steps generalizing start patience waiting run rest with
  | zero =>
    rw [List.length_eq_zero_iff.mp (Nat.le_zero.mp enough)] at gathered
    exact mergeAllYields trans told gathered
  | succ steps ih =>
    unfold gather
    split
    · next spent =>
      rw [List.isEmpty_iff.mp spent] at gathered
      exact mergeAllYields trans told gathered
    · next more =>
      have each := (List.pairwise_append.mp (toldPerm gathered.same told)).2.1
      refine (nextRunYields trans each).bind ?_
      rintro ⟨next, left⟩ ⟨ordered, same, shorter⟩
      refine (settleYields trans told gathered).bind ?_
      rintro ⟨patience, waiting, merged⟩ settled
      -- each step reads a run that is not empty, so there are enough of them
      have shorter : left.length < rest.length := shorter (by simpa using more)
      exact ih (settled.read ordered same) (by omega)

theorem sortByRunsYields : Yields (Sorts less items) bad (sortByRuns less items) := by
  refine (nextRunYields trans told).bind ?_
  rintro ⟨run, rest⟩ ⟨ordered, same, _⟩
  have size : rest.length ≤ items.length := by simp [← same.length_eq]
  exact gatherYields trans told ⟨by simpa using ordered, by simpa using same⟩ size

end

theorem sortByRunsFirst {x y : α} {rest : List α} {e : ε} (failed : less y x = .error e) :
    sortByRuns less (x :: y :: rest) = .error e := by
  simp [sortByRuns, nextRun, leadingRun, failed, bind, Except.bind]

end SelectorRank.Sorting
