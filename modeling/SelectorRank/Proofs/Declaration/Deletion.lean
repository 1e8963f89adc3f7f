import SelectorRank.Proofs.Declaration.Comparable

/-! Declarations that are deleted before sorting. The order of those that are kept is the order that
they had among all, whatever places they move to. -/
namespace SelectorRank
open Sorting Declaration

section
variable {α β ε : Type} {keep : Nat → Bool} {places : List Nat} {xs ys : List α}

/-- Items whose places are kept, where places and items are given side by side. -/
def kept (keep : Nat → Bool) : List Nat → List α → List α
  | place :: places, x :: xs =>
      if keep place then x :: kept keep places xs else kept keep places xs
  | _, _ => []

theorem keptMap (f : α → β) : (kept keep places xs).map f = kept keep places (xs.map f) := by
  fun_induction kept keep places xs with
  | case1 place places x xs holds ih => simp [kept, holds, ih]
  | case2 place places x xs drops ih => simp [kept, drops, ih]
  | case3 places xs ends =>
    cases places with
    | nil => rfl
    | cons place places =>
      cases xs with
      | nil => rfl
      | cons x xs => exact (ends _ _ _ _ rfl rfl).elim

theorem keptSelf (keep : Nat → Bool) (places : List Nat) :
    kept keep places places = places.filter keep := by
  induction places with
  | nil => rfl
  | cons place places ih => rw [kept, List.filter_cons, ih]

theorem keptSublist (keep : Nat → Bool) (places : List Nat) (xs : List α) :
    (kept keep places xs).Sublist xs := by
  fun_induction kept keep places xs with
  | case1 _ _ _ _ _ ih => exact ih.cons_cons _
  | case2 _ _ _ _ _ ih => exact ih.cons _
  | case3 => exact List.nil_sublist _

theorem keptMapM {f : α → Except ε β} {out : List β} (ok : xs.mapM f = .ok out) :
    (kept keep places xs).mapM f = .ok (kept keep places out) := by
  induction places generalizing xs out with
  | nil => rfl
  | cons place places ih =>
    cases xs with
    | nil =>
      cases ok
      rfl
    | cons x xs =>
      obtain ⟨y, rest, made, others, rfl⟩ := mapMCons ok
      rw [kept, kept]
      split
      · rw [List.mapM_cons, made, ih others]
        rfl
      · exact ih others

theorem keptCongr {keep' : Nat → Bool} (same : ∀ place ∈ places, keep place = keep' place) :
    kept keep places xs = kept keep' places xs := by
  induction places generalizing xs with
  | nil => rfl
  | cons place places ih =>
    obtain ⟨first, rest⟩ := List.forall_mem_cons.mp same
    cases xs with
    | nil => rfl
    | cons x xs => rw [kept, kept, first, ih rest]

theorem sublistKept (sub : ys.Sublist xs) (start : Nat) :
    ∃ keep, ys = kept keep (List.range' start xs.length) xs := by
  induction sub generalizing start with
  | slnil => exact ⟨fun _ => true, rfl⟩
  | @cons ys xs x _ ih =>
    obtain ⟨keep, rfl⟩ := ih (start + 1)
    refine ⟨fun place => place ≠ start && keep place, ?_⟩
    rw [List.length_cons, List.range'_succ, kept, if_neg (by simp)]
    refine keptCongr fun place member => ?_
    have later := (List.mem_range'_1.mp member).1
    simp [show place ≠ start by omega]
  | @cons_cons ys xs x _ ih =>
    obtain ⟨keep, rfl⟩ := ih (start + 1)
    refine ⟨fun place => place = start || keep place, ?_⟩
    rw [List.length_cons, List.range'_succ, kept, if_pos (by simp)]
    congr 1
    refine keptCongr fun place member => ?_
    have later := (List.mem_range'_1.mp member).1
    simp [show place ≠ start by omega]

end

/-! What is left of a list, each item beside the place that it had, in rising order of places. -/

variable {ds : List Declaration} {keep : Nat → Bool}

structure Former (ds left : List Declaration) (former : List Nat) : Prop where
  rising : former.Pairwise (· < ·)
  taken : former.map (ds[·]?) = left.map some

theorem keptFormer (keep : Nat → Bool) (ds : List Declaration) :
    Former ds (kept keep (List.range ds.length) ds) ((List.range ds.length).filter keep) where
  rising := List.pairwise_lt_range.filter _
  taken := by
    have whole : (List.range ds.length).map (ds[·]?) = ds.map some :=
      List.ext_getElem (by simp) (by simp)
    rw [keptMap, ← whole, ← keptMap, keptSelf]

namespace Former

variable {left : List Declaration} {former : List Nat}

theorem length (h : Former ds left former) : left.length = former.length := by
  simpa using (congrArg List.length h.taken).symm

theorem place (h : Former ds left former) {i : Nat} {x : Declaration} (found : left[i]? = some x) :
    ∃ place, former[i]? = some place ∧ ds[place]? = some x := by
  have taken := congrArg (·[i]?) h.taken
  simp only [List.getElem?_map, found, Option.map_some] at taken
  simpa using taken

theorem leads (h : Former ds left former) {i j : Nat} (ranked : Ranked left i j) :
    Ranked ds (former.getD i 0) (former.getD j 0) := by
  obtain ⟨x, y, hx, hy, leads⟩ := ranked
  obtain ⟨p, hp, first⟩ := h.place hx
  obtain ⟨q, hq, second⟩ := h.place hy
  refine ⟨x, y, by simpa [hp] using first, by simpa [hq] using second, ?_⟩
  rcases leads with wins | ⟨ties, later⟩
  · exact .inl wins
  · refine .inr ⟨ties, ?_⟩
    obtain ⟨hi, rfl⟩ := List.getElem?_eq_some_iff.mp hp
    obtain ⟨hj, rfl⟩ := List.getElem?_eq_some_iff.mp hq
    simpa [hi, hj] using List.pairwise_iff_getElem.mp h.rising j i hj hi later

theorem range (former : List Nat) :
    (List.range former.length).map (former.getD · 0) = former :=
  List.ext_getElem (by simp) (by simp +contextual)

theorem order (h : Former ds left former) {places : List Nat} (ordered : CascadeOrder left places) :
    (places.map (former.getD · 0)).Perm former ∧
      (places.map (former.getD · 0)).Pairwise (Ranked ds) := by
  constructor
  · have moved := ordered.each.map (former.getD · 0)
    rwa [h.length, range] at moved
  · exact List.pairwise_map.mpr (ordered.ordered.imp h.leads)

theorem arranged (h : Former ds left former) {out : List Declaration} {places : List Nat}
    (arranged : Arranged left out places) :
    (places.map (former.getD · 0)).map (ds[·]?) = out.map some := by
  rw [← arranged.taken, List.map_map]
  refine List.map_congr_left fun i member => ?_
  have small : i < left.length := List.mem_range.mp (arranged.order.each.mem_iff.mp member)
  obtain ⟨p, hp, found⟩ := h.place (List.getElem?_eq_getElem small)
  simp [hp, found, List.getElem?_eq_getElem small]

end Former

theorem sortedKept {out : List Declaration} {places : List Nat}
    (sorted : sortDeclarations ds = .ok out) (arranged : Arranged ds out places)
    (keep : Nat → Bool) :
    sortDeclarations (kept keep (List.range ds.length) ds) = .ok (kept keep places out) := by
  have former := keptFormer keep ds
  have free : ∀ fault, ¬ Collides (kept keep (List.range ds.length) ds) fault :=
    fun fault collides => sortedFree sorted (collidesSublist (keptSublist keep _ ds) collides)
  obtain ⟨out', sorted'⟩ := sortDeclarationsGiven free
  obtain ⟨places', arranged'⟩ := sortedArranged sorted'
  obtain ⟨same, ordered⟩ := former.order arranged'.order
  have moved : places'.map (((List.range ds.length).filter keep).getD · 0) = places.filter keep :=
    rankedUnique (same.trans (arranged.order.each.filter keep).symm) ordered
      (List.Pairwise.filter keep arranged.order.ordered)
  have taken := former.arranged arranged'
  rw [moved, ← keptSelf, keptMap, arranged.taken, ← keptMap] at taken
  rw [sorted', List.map_inj_right (fun _ _ => Option.some.inj) |>.mp taken]

theorem sortItemsOk {items : List Item} {out : List Declaration} (sorted : sortItems items = .ok out) :
    ∃ ds, items.mapM Item.coerce = .ok ds ∧ sortDeclarations ds = .ok out := by
  obtain ⟨ds, coerced, ranked⟩ := bindOk sorted
  cases found : sortDeclarations ds with
  | error fault => simp [found, Except.mapError] at ranked
  | ok out' =>
    simp only [found, Except.mapError, Except.ok.injEq] at ranked
    exact ⟨ds, coerced, by rw [found, ranked]⟩

/-- Where items can be sorted, what is left of them when those at any places are deleted can be sorted
too, and its order is the order of all without those that were deleted. Every sublist is left by some
deletion. -/
theorem sortItemsKept {items : List Item} {out : List Declaration}
    (sorted : sortItems items = .ok out) :
    (∃ ds places, items.mapM Item.coerce = .ok ds ∧ Arranged ds out places ∧
      ∀ keep, sortItems (kept keep (List.range items.length) items) =
        .ok (kept keep places out)) ∧
    ∀ others, others.Sublist items →
      ∃ keep, others = kept keep (List.range items.length) items := by
  obtain ⟨ds, coerced, ranked⟩ := sortItemsOk sorted
  obtain ⟨places, arranged⟩ := sortedArranged ranked
  constructor
  · refine ⟨ds, places, coerced, arranged, fun keep => ?_⟩
    rw [sortItemsCoerced (keptMapM coerced), ← mapMLength coerced, sortedKept ranked arranged]
    rfl
  · intro others sub
    rw [List.range_eq_range']
    exact sublistKept sub 0

theorem sortItemsKeptTied :
    let a := Selector.ofTokens [.usual (.className "a")]
    let b := Selector.ofTokens [.usual (.id "b")]
    let c := Selector.ofTokens [.usual (.className "c")]
    let items : List Item := [.selector a, .selector b, .selector c, .selector a]
    let out : List Declaration := [.ofSelector b, .ofSelector a, .ofSelector c, .ofSelector a]
    sortItems items = .ok out ∧ ∃ ds places, items.mapM Item.coerce = .ok ds ∧
      Arranged ds out places ∧
        sortItems [.selector a, .selector b, .selector c] = .ok (kept (· ≠ 3) places out) := by
  have applied : ∀ {items out} (sorted : sortItems items = .ok out), sortItems items = .ok out ∧
      ∃ ds places, items.mapM Item.coerce = .ok ds ∧ Arranged ds out places ∧
        sortItems (kept (· ≠ 3) (List.range items.length) items) =
          .ok (kept (· ≠ 3) places out) := by
    intro items out sorted
    obtain ⟨⟨ds, places, coerced, arranged, left⟩, _⟩ := sortItemsKept sorted
    exact ⟨sorted, ds, places, coerced, arranged, left _⟩
  exact applied (by cbv)

end SelectorRank
