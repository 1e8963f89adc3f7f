import SelectorRank.Proofs.Outcome
import SelectorRank.Sorting.Insertion

/-! Runs at the start of a list, and insertion into a run. What they give is the same items, in a run
every one before every later one; what they fail with is what one of their comparisons failed with. -/
namespace SelectorRank.Sorting

variable {α ε : Type} {less : α → α → Except ε Bool} {bad : ε → Prop}

def Before (less : α → α → Except ε Bool) (x y : α) : Prop := less x y = .ok true

def Transitive (less : α → α → Except ε Bool) : Prop :=
  ∀ {x y z}, Before less x y → Before less y z → Before less x z

/-- An answer of a comparison says which of two items goes before the other. -/
def Answers (less : α → α → Except ε Bool) (bad : ε → Prop) (x y : α) : Prop :=
  Yields (fun goes => if goes then Before less x y else Before less y x) bad (less x y)

def Told (less : α → α → Except ε Bool) (bad : ε → Prop) (x y : α) : Prop :=
  Answers less bad x y ∧ Answers less bad y x

theorem toldSymm {x y : α} (h : Told less bad x y) : Told less bad y x := ⟨h.2, h.1⟩

theorem toldPerm {xs ys : List α} (same : xs.Perm ys) (h : ys.Pairwise (Told less bad)) :
    xs.Pairwise (Told less bad) := (same.pairwise_iff toldSymm).mpr h

structure Sorts (less : α → α → Except ε Bool) (items out : List α) : Prop where
  ordered : out.Pairwise (Before less)
  same : out.Perm items

namespace Sorts

variable {items others out out' : List α}

theorem perm (sorts : Sorts less items out) (moved : items.Perm others) : Sorts less others out :=
  ⟨sorts.ordered, sorts.same.trans moved⟩

theorem append (first : Sorts less items out) (second : Sorts less others out')
    (apart : ∀ x ∈ items, ∀ y ∈ others, Before less x y) :
    Sorts less (items ++ others) (out ++ out') where
  ordered := List.pairwise_append.mpr ⟨first.ordered, second.ordered, fun x member y later =>
    apart x (first.same.mem_iff.mp member) y (second.same.mem_iff.mp later)⟩
  same := first.same.append second.same

end Sorts

theorem orderedSorts {xs : List α} (ordered : xs.Pairwise (Before less)) : Sorts less xs xs :=
  ⟨ordered, .refl xs⟩

theorem beforeAll (trans : Transitive less) {x y : α} {ys : List α} (first : Before less x y)
    (ordered : (y :: ys).Pairwise (Before less)) : ∀ z ∈ y :: ys, Before less x z :=
  List.forall_mem_cons.mpr
    ⟨first, fun z later => trans first ((List.pairwise_cons.mp ordered).1 z later)⟩

section
variable (trans : Transitive less)
include trans

/-! Insertion. -/

theorem insertedYields {item : α} {xs : List α} (ordered : xs.Pairwise (Before less))
    (told : ∀ x ∈ xs, Told less bad item x) :
    Yields (Sorts less (item :: xs)) bad (insertByHalving less item xs) := by
  induction size : xs.length using Nat.strongRecOn generalizing xs with
  | ind n ih =>
    rw [insertByHalving]
    split
    · next spent =>
      have none : xs = [] := by
        have := congrArg List.length spent
        simp only [List.length_drop, List.length_nil] at this
        exact List.length_eq_zero_iff.mp (by omega)
      subst none
      exact .ok (orderedSorts (List.pairwise_singleton _ _))
    · next middle after found =>
      have whole := List.take_append_drop (xs.length / 2) xs
      generalize xs.take (xs.length / 2) = front at whole ⊢
      rw [found] at whole
      have sizes := congrArg List.length whole
      simp only [List.length_append, List.length_cons] at sizes
      subst xs
      obtain ⟨frontOrdered, backOrdered, across⟩ := List.pairwise_append.mp ordered
      obtain ⟨middleFirst, afterOrdered⟩ := List.pairwise_cons.mp backOrdered
      refine (told middle (by simp)).1.bind ?_
      intro goes answer
      cases goes with
      | true =>
        refine (ih front.length (by omega) frontOrdered (fun x member => told x (by simp [member]))
          rfl).bind ?_
        intro placed sorts
        refine .ok (sorts.append (orderedSorts backOrdered) ?_)
        exact List.forall_mem_cons.mpr ⟨beforeAll trans answer backOrdered, across⟩
      | false =>
        refine (ih after.length (by omega) afterOrdered (fun x member => told x (by simp [member]))
          rfl).bind ?_
        intro placed sorts
        have fromMiddle : ∀ y ∈ item :: after, Before less middle y :=
          List.forall_mem_cons.mpr ⟨answer, middleFirst⟩
        have back : Sorts less (middle :: item :: after) (middle :: placed) :=
          (orderedSorts (List.pairwise_singleton _ middle)).append sorts (by simpa using fromMiddle)
        have inserted := (orderedSorts frontOrdered).append back fun x member =>
          have first := across x member middle (by simp)
          List.forall_mem_cons.mpr ⟨first, fun y later => trans first (fromMiddle y later)⟩
        refine .ok (inserted.perm ?_)
        exact ((List.Perm.swap item middle after).append_left front).trans List.perm_middle

theorem insertAllYields {items run : List α} (ordered : run.Pairwise (Before less))
    (told : (run ++ items).Pairwise (Told less bad)) :
    Yields (Sorts less (run ++ items)) bad
      (items.foldlM (fun sorted item => insertByHalving less item sorted) run) := by
  induction items generalizing run with
  | nil =>
    rw [List.append_nil]
    exact .ok (orderedSorts ordered)
  | cons item items ih =>
    have apart := (List.pairwise_append.mp told).2.2
    rw [List.foldlM_cons]
    refine (insertedYields trans ordered fun x member =>
      toldSymm (apart x member item (by simp))).bind ?_
    intro longer sorts
    have moved : (longer ++ items).Perm (run ++ item :: items) :=
      (sorts.same.append_right items).trans List.perm_middle.symm
    exact (ih sorts.ordered (toldPerm moved told)).imp fun _ sorts => sorts.perm moved

end

/-! Runs. -/

/-- An ordered run and what is left of a list. The run is not empty if the list is not. -/
structure Starts (less : α → α → Except ε Bool) (items : List α) (parts : List α × List α) :
    Prop where
  ordered : parts.1.Pairwise (Before less)
  same : (parts.1 ++ parts.2).Perm items
  some : items ≠ [] → parts.1 ≠ []

theorem startsPerm {items others : List α} {parts : List α × List α}
    (starts : Starts less items parts) (moved : items.Perm others) : Starts less others parts where
  ordered := starts.ordered
  same := starts.same.trans moved
  some left := starts.some fun none => left (List.nil_perm.mp (none ▸ moved))

section
variable (trans : Transitive less) {run xs : List α} {last : α}
include trans

/-- A falling run is kept with its latest item in front, which goes before all the others. -/
theorem fallingYields (ordered : (last :: run).Pairwise (Before less))
    (told : (last :: xs).Pairwise (Told less bad)) :
    Yields (Starts less (last :: run ++ xs)) bad (fallingRun less run last xs) := by
  induction xs generalizing run last with
  | nil => exact .ok ⟨ordered, .refl _, by simp⟩
  | cons x xs ih =>
    obtain ⟨first, rest⟩ := List.pairwise_cons.mp told
    refine (first x (by simp)).2.bind ?_
    intro falls answer
    cases falls with
    | true =>
      have longer := List.pairwise_cons.mpr ⟨beforeAll trans answer ordered, ordered⟩
      exact (ih longer rest).imp fun _ starts => startsPerm starts List.perm_middle.symm
    | false => exact .ok ⟨ordered, .refl _, by simp⟩

theorem risingYields (ordered : (last :: run).reverse.Pairwise (Before less))
    (told : (last :: xs).Pairwise (Told less bad)) :
    Yields (Starts less (last :: run ++ xs)) bad (risingRun less run last xs) := by
  induction xs generalizing run last with
  | nil => exact .ok ⟨ordered, by simpa using List.reverse_perm (last :: run), by simp⟩
  | cons x xs ih =>
    obtain ⟨first, rest⟩ := List.pairwise_cons.mp told
    refine (first x (by simp)).2.bind ?_
    intro falls answer
    cases falls with
    | true => exact .ok ⟨ordered, (List.reverse_perm (last :: run)).append_right _, by simp⟩
    | false =>
      have longer : (x :: last :: run).reverse.Pairwise (Before less) := by
        rw [List.reverse_cons]
        refine List.pairwise_append.mpr ⟨ordered, by simp, ?_⟩
        intro a member b single
        rw [List.mem_singleton.mp single]
        rw [List.reverse_cons] at ordered member
        rcases List.mem_append.mp member with old | same
        · exact trans ((List.pairwise_append.mp ordered).2.2 a old last (by simp)) answer
        · exact List.mem_singleton.mp same ▸ answer
      exact (ih longer rest).imp fun _ starts => startsPerm starts List.perm_middle.symm

theorem leadingYields (told : xs.Pairwise (Told less bad)) :
    Yields (Starts less xs) bad (leadingRun less xs) := by
  match xs with
  | [] => exact .ok ⟨.nil, .refl _, by simp⟩
  | [x] => exact .ok ⟨List.pairwise_singleton _ _, .refl _, by simp⟩
  | x :: y :: more =>
    obtain ⟨first, rest⟩ := List.pairwise_cons.mp told
    have swapped : (y :: x :: more).Perm (x :: y :: more) := .swap x y more
    refine (first y (by simp)).2.bind ?_
    intro falls answer
    cases falls with
    | true =>
      have pair : [y, x].Pairwise (Before less) := List.pairwise_pair.mpr answer
      exact (fallingYields trans pair rest).imp fun _ starts => startsPerm starts swapped
    | false =>
      have pair : [y, x].reverse.Pairwise (Before less) := List.pairwise_pair.mpr answer
      exact (risingYields trans pair rest).imp fun _ starts => startsPerm starts swapped

end

end SelectorRank.Sorting
