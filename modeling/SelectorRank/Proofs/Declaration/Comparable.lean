import SelectorRank.Proofs.Declaration.Order

/-! Declarations that cannot be sorted. A fault of a declaration is met only when it is compared with
another one, but a sort that gives any order has compared, directly or through others between them,
each declaration with each; so it gives one exactly if no two declarations have to be told apart by
what one of them lacks. Of several faults the order that they are given in decides which is told. -/
namespace SelectorRank
open Sorting

namespace Declaration

variable {x y : Declaration} {fault : WeightFault}

def Avoids (fault : WeightFault) (x y : Declaration) : Prop :=
  x.compare y ≠ .error fault ∧ y.compare x ≠ .error fault

theorem avoidsSymm (h : Avoids fault x y) : Avoids fault y x := ⟨h.2, h.1⟩

theorem leadsAvoids {i j : Nat} (leads : Leads i x j y) : Avoids fault x y := by
  rcases leads with wins | ⟨ties, _⟩
  · exact ⟨by simp [wins], by simp [compareSwap wins]⟩
  · exact ⟨by simp [ties], by simp [compareSwap ties]⟩

/-- The first of two declarations lacks what they have to be told apart by. -/
inductive Blocks (x y : Declaration) (fault : WeightFault) : Prop where
  | origin (unplaced : x.precedence = .error fault)
  | selector {level} (left : x.precedence = .ok level) (right : y.precedence = .ok level)
      (weightless : x.specificity = .error fault)

theorem rankUnique {p q : Precedence} (same : p.rank = q.rank) : p = q := by
  cases p <;> cases q <;> first | rfl | cases same

theorem blocksCompare (h : Blocks x y fault) : x.compare y = .error fault := by
  cases h with
  | origin unplaced => simp [compare, unplaced, bind, Except.bind]
  | selector left right weightless => simp [compare, left, right, weightless, bind, Except.bind]

theorem compareBlocks (failed : x.compare y = .error fault) : Blocks x y fault ∨ Blocks y x fault := by
  rcases bindFails failed with unplaced | ⟨p, left, failed⟩
  · exact .inl (.origin unplaced)
  rcases bindFails failed with unplaced | ⟨q, right, failed⟩
  · exact .inr (.origin unplaced)
  split at failed
  · cases failed
  split at failed
  · cases failed
  next less more =>
  obtain rfl : p = q := rankUnique (by omega)
  rcases bindFails failed with weightless | ⟨s, _, failed⟩
  · exact .inl (.selector left right weightless)
  rcases bindFails failed with weightless | ⟨t, _, failed⟩
  · exact .inr (.selector right left weightless)
  · split at failed
    · cases failed
    · split at failed <;> cases failed

end Declaration

open Declaration

variable {ds other : List Declaration} {fault : WeightFault}

theorem collidesIff : Collides ds fault ↔ ¬ ds.Pairwise (Avoids fault) := by
  constructor
  · rintro ⟨i, j, x, y, apart, first, second, failed⟩ each
    obtain ⟨hi, rfl⟩ := List.getElem?_eq_some_iff.mp first
    obtain ⟨hj, rfl⟩ := List.getElem?_eq_some_iff.mp second
    rcases Nat.lt_or_gt_of_ne apart with before | after
    · exact (List.pairwise_iff_getElem.mp each i j hi hj before).1 failed
    · exact (List.pairwise_iff_getElem.mp each j i hj hi after).2 failed
  · intro unclear
    by_contra free
    refine unclear (List.pairwise_iff_getElem.mpr fun i j hi hj before => ?_)
    have first := List.getElem?_eq_getElem hi
    have second := List.getElem?_eq_getElem hj
    exact ⟨fun failed => free ⟨i, j, _, _, by omega, first, second, failed⟩,
      fun failed => free ⟨j, i, _, _, by omega, second, first, failed⟩⟩

theorem collidesPerm (same : other.Perm ds) : Collides other fault ↔ Collides ds fault := by
  rw [collidesIff, collidesIff]
  exact not_congr (same.pairwise_iff avoidsSymm)

theorem collidesSublist (sub : other.Sublist ds) (collides : Collides other fault) :
    Collides ds fault :=
  collidesIff.mpr fun each => collidesIff.mp collides (each.sublist sub)

/-- What keeps declarations from being sorted: there are two or more, and the origin of one of them
is unknown, or two of one level are not both weighed. -/
def Unsortable (ds : List Declaration) : Prop :=
  2 ≤ ds.length ∧ ((∃ d ∈ ds, ∃ fault, d.precedence = .error fault) ∨
    ∃ (i j : Nat) (x y : Declaration), i ≠ j ∧ ds[i]? = some x ∧ ds[j]? = some y ∧
      (∃ level, x.precedence = .ok level ∧ y.precedence = .ok level) ∧
      ∃ fault, x.specificity = .error fault)

theorem blocksUnsortable {i j : Nat} {x y : Declaration} (apart : i ≠ j)
    (first : ds[i]? = some x) (second : ds[j]? = some y) (blocks : Blocks x y fault) :
    Unsortable ds := by
  obtain ⟨hi, _⟩ := List.getElem?_eq_some_iff.mp first
  obtain ⟨hj, _⟩ := List.getElem?_eq_some_iff.mp second
  refine ⟨by omega, ?_⟩
  cases blocks with
  | origin unplaced => exact .inl ⟨x, List.mem_of_getElem? first, _, unplaced⟩
  | selector left right weightless =>
    exact .inr ⟨i, j, x, y, apart, first, second, ⟨_, left, right⟩, _, weightless⟩

theorem unsortableCollides (unsortable : Unsortable ds) : ∃ fault, Collides ds fault := by
  obtain ⟨two, ⟨d, member, fault, unplaced⟩ | ⟨i, j, x, y, apart, first, second, level, weight⟩⟩ :=
    unsortable
  · obtain ⟨i, found⟩ := List.mem_iff_getElem?.mp member
    -- any other place will do, as the first or the second of them is one
    have other : ∃ j, i ≠ j ∧ j < ds.length := by
      by_cases start : i = 0
      · exact ⟨1, by omega, by omega⟩
      · exact ⟨0, start, by omega⟩
    obtain ⟨j, apart, small⟩ := other
    exact ⟨fault, i, j, d, _, apart, found, List.getElem?_eq_getElem small,
      blocksCompare (.origin unplaced)⟩
  · obtain ⟨_, left, right⟩ := level
    obtain ⟨fault, weightless⟩ := weight
    exact ⟨fault, i, j, x, y, apart, first, second,
      blocksCompare (.selector left right weightless)⟩

theorem unsortableIff : Unsortable ds ↔ ∃ fault, Collides ds fault := by
  refine ⟨unsortableCollides, ?_⟩
  rintro ⟨fault, i, j, x, y, apart, first, second, failed⟩
  rcases compareBlocks failed with blocks | blocks
  · exact blocksUnsortable apart first second blocks
  · exact blocksUnsortable apart.symm second first blocks

/-! Sorting. -/

theorem numberedSelf (ds : List Declaration) : (numbered ds).map Prod.snd = ds := by
  simp [numbered, Function.comp_def]

theorem sortedFree {out : List Declaration} (ok : sortDeclarations ds = .ok out) :
    ¬ Collides ds fault := by
  obtain ⟨ranked, ranks, rfl⟩ := mapOk ok
  have sorts := (rankDeclarationsYields ds).right ranks
  have each : (ranked.map Prod.snd).Pairwise (Avoids fault) :=
    List.pairwise_map.mpr (sorts.ordered.imp fun before => leadsAvoids (comesBeforeIff.mp before))
  have same : (ranked.map Prod.snd).Perm ds := numberedSelf ds ▸ sorts.same.map Prod.snd
  rw [← collidesPerm same, collidesIff, not_not]
  exact each

theorem sortDeclarationsFails :
    (∃ fault, sortDeclarations ds = .error fault) ↔ ∃ fault, Collides ds fault := by
  constructor
  · rintro ⟨fault, failed⟩
    exact ⟨fault, sortDeclarationsFault failed⟩
  · rintro ⟨fault, collides⟩
    cases sorted : sortDeclarations ds with
    | error fault => exact ⟨fault, rfl⟩
    | ok out => exact absurd collides (sortedFree sorted)

theorem sortDeclarationsFirst {x y : Declaration} {fault : WeightFault}
    (failed : x.compare y = .error fault) : sortDeclarations (y :: x :: ds) = .error fault := by
  have first : comesBefore (1, x) (0, y) = .error fault := by
    rw [comesBefore, failed]
    rfl
  exact congrArg (Except.map (List.map Prod.snd)) (sortByRunsFirst first)

/-! Items. -/

def Fails (items : List Item) : Prop := ∃ failure, sortItems items = .error failure

def Raises (items : List Item) : Prop := ∃ fault, sortItems items = .error (.state fault)

theorem sortItemsCoerced {items : List Item} (coerced : items.mapM Item.coerce = .ok ds) :
    sortItems items = (sortDeclarations ds).mapError WeightFault.failure := by
  simp [sortItems, coerced, bind, Except.bind]

theorem sortItemsFault {items : List Item} {failure : Failure}
    (coerced : items.mapM Item.coerce = .ok ds) (failed : sortItems items = .error failure) :
    ∃ fault, sortDeclarations ds = .error fault ∧ failure = fault.failure := by
  rw [sortItemsCoerced coerced] at failed
  cases sorted : sortDeclarations ds with
  | ok out => simp [sorted, Except.mapError] at failed
  | error fault => exact ⟨fault, rfl, by simpa [sorted, Except.mapError, eq_comm] using failed⟩

theorem failsIff {items : List Item} (coerced : items.mapM Item.coerce = .ok ds) :
    Fails items ↔ ∃ fault, Collides ds fault := by
  rw [← sortDeclarationsFails]
  constructor
  · rintro ⟨failure, failed⟩
    obtain ⟨fault, failed, _⟩ := sortItemsFault coerced failed
    exact ⟨fault, failed⟩
  · rintro ⟨fault, failed⟩
    exact ⟨fault.failure, by rw [sortItemsCoerced coerced, failed]; rfl⟩

theorem failsPerm {items moved : List Item} (coerced : items.mapM Item.coerce = .ok ds)
    (same : moved.Perm items) : Fails moved ↔ Fails items := by
  obtain ⟨other, done, same⟩ := mapMPerm same coerced
  simp only [failsIff done, failsIff coerced, collidesPerm same]

theorem movedFirst {α : Type} {xs : List α} {i j : Nat} {x y : α} (apart : i ≠ j)
    (first : xs[i]? = some x) (second : xs[j]? = some y) :
    ∃ rest, (y :: x :: rest).Perm xs := by
  obtain ⟨hi, rfl⟩ := List.getElem?_eq_some_iff.mp first
  have left : y ∈ xs.eraseIdx i := List.mem_eraseIdx_iff_getElem?.mpr ⟨j, apart.symm, second⟩
  obtain ⟨front, back, split⟩ := List.append_of_mem left
  have whole := List.getElem_cons_eraseIdx_perm hi
  rw [split] at whole
  exact ⟨front ++ back, (List.Perm.swap _ _ _).trans ((List.perm_middle.symm.cons _).trans whole)⟩

/-- The two that collide are compared first where they are given first. -/
theorem collidesTold {items : List Item} (coerced : items.mapM Item.coerce = .ok ds)
    (collides : Collides ds fault) :
    ∃ moved, moved.Perm items ∧ sortItems moved = .error fault.failure := by
  obtain ⟨i, j, x, y, apart, first, second, failed⟩ := collides
  obtain ⟨a, first, madeX⟩ := mapMAt coerced first
  obtain ⟨b, second, madeY⟩ := mapMAt coerced second
  obtain ⟨rest, same⟩ := movedFirst apart first second
  obtain ⟨_, done, _⟩ := mapMPerm same coerced
  obtain ⟨y', others, made, tail, rfl⟩ := mapMCons done
  cases madeY.symm.trans made
  obtain ⟨x', left, made, _, rfl⟩ := mapMCons tail
  cases madeX.symm.trans made
  refine ⟨_, same, ?_⟩
  rw [sortItemsCoerced done, sortDeclarationsFirst failed]
  rfl

theorem raisesIff {items : List Item} (coerced : items.mapM Item.coerce = .ok ds)
    (writable : ¬ Collides ds .longInteger) : Raises items ↔ Fails items := by
  refine ⟨fun ⟨fault, failed⟩ => ⟨_, failed⟩, fun ⟨failure, failed⟩ => ?_⟩
  obtain ⟨fault, sorted, rfl⟩ := sortItemsFault coerced failed
  cases fault with
  | state f => exact ⟨f, failed⟩
  | longInteger => exact absurd (sortDeclarationsFault sorted) writable

theorem raisesAlways {items : List Item} (coerced : items.mapM Item.coerce = .ok ds) :
    (∀ moved, moved.Perm items → (Raises moved ↔ Fails moved)) ↔ ¬ Collides ds .longInteger := by
  constructor
  · intro raises collides
    obtain ⟨moved, same, failed⟩ := collidesTold coerced collides
    obtain ⟨fault, raised⟩ := (raises moved same).mpr ⟨_, failed⟩
    cases failed.symm.trans raised
  · intro writable moved same
    obtain ⟨other, done, same⟩ := mapMPerm same coerced
    exact raisesIff done ((collidesPerm same).not.mpr writable)

/-- Sorting items that can be coerced fails exactly if two or more are not sortable, whatever order
they are given in, and otherwise gives an order. It fails with what two of them collide with, and each
such fault is told for some order of the items. So whatever their order it fails by raising exactly if
no two collide with an integer that is too long to be told. -/
theorem sortItemsRaises {items : List Item} (coerced : items.mapM Item.coerce = .ok ds) :
    ((∀ moved, moved.Perm items → (Raises moved ↔ Unsortable ds)) ↔ ¬ Collides ds .longInteger) ∧
    (∀ moved, moved.Perm items → (Fails moved ↔ Unsortable ds)) ∧
    (items.length ≤ 1 → ∃ out, sortItems items = .ok out) ∧
    (∀ failure, sortItems items = .error failure →
      ∃ fault, Collides ds fault ∧ failure = fault.failure) ∧
    ∀ fault, Collides ds fault →
      ∃ moved, moved.Perm items ∧ sortItems moved = .error fault.failure := by
  have fails : ∀ moved, moved.Perm items → (Fails moved ↔ Unsortable ds) := fun moved same => by
    rw [failsPerm coerced same, failsIff coerced, unsortableIff]
  refine ⟨?_, fails, fun short => ?_, fun failure failed => ?_, fun _ => collidesTold coerced⟩
  · rw [← raisesAlways coerced]
    exact forall_congr' fun moved => forall_congr' fun same => by rw [fails moved same]
  · cases sorted : sortItems items with
    | ok out => exact ⟨out, rfl⟩
    | error failure =>
      have two := ((fails items (.refl _)).mp ⟨failure, sorted⟩).1
      rw [mapMLength coerced] at two
      omega
  · obtain ⟨fault, sorted, same⟩ := sortItemsFault coerced failed
    exact ⟨fault, sortDeclarationsFault sorted, same⟩

theorem longOrigin {origin : Datum} (long : origin.isShowable = false) (important : Datum)
    (matched : Match) :
    (Declaration.mk (.unknown origin) important matched).precedence = .error .longInteger := by
  simp [precedence, GivenOrigin.fault, GivenOrigin.name?, long]

/-- The least number whose numeral is too long to be told. -/
def overlong : Datum := .integer (Nat.pow 10 Text.numeralLimit)

theorem numeralHidden {n : Nat} (long : Text.numeralLimit < (Text.natural n).length) :
    (Datum.integer n).isShowable = false :=
  decide_eq_false (Nat.not_le.mpr long)

theorem powerDigits {n : Nat} (some : 0 < n) : n < (Text.natural (Nat.pow 10 n)).length := by
  rw [← Nat.not_le, Text.natural, Nat.length_toDigits_le_iff (by decide) some]
  exact Nat.lt_irrefl _

theorem overlongHidden : overlong.isShowable = false := numeralHidden (powerDigits (by decide))

theorem sortItemsRaisesMixed :
    let long : Declaration := ⟨.unknown overlong, .bool false, .nothing⟩
    let strange : Declaration := ⟨.unknown (.text "print"), .bool false, .nothing⟩
    let items : List Item := [.declaration long, .declaration strange]
    items.mapM Item.coerce = .ok [long, strange] ∧ Collides [long, strange] .longInteger ∧
      Fails items ∧ Fails items.reverse ∧
      (¬ ∀ moved, moved.Perm items → (Raises moved ↔ Unsortable [long, strange])) ∧
      ∃ moved, moved.Perm items ∧ sortItems moved = .error (.render .longInteger) := by
  intro long strange items
  have coerced : items.mapM Item.coerce = .ok [long, strange] := rfl
  have failed : long.compare strange = .error .longInteger :=
    blocksCompare (.origin (longOrigin overlongHidden _ _))
  have collides : Collides [long, strange] .longInteger :=
    ⟨0, 1, long, strange, by decide, rfl, rfl, failed⟩
  have unsortable := unsortableIff.mpr ⟨_, collides⟩
  obtain ⟨always, fails, _, _, told⟩ := sortItemsRaises coerced
  exact ⟨coerced, collides, (fails _ (.refl _)).mpr unsortable,
    (fails _ (List.reverse_perm _)).mpr unsortable,
    fun raises => always.mp raises collides, told _ collides⟩

theorem pairTold {first second : Item} {x y : Declaration}
    (coerced : [first, second].mapM Item.coerce = .ok [x, y]) (failed : y.compare x = .error fault) :
    sortItems [first, second] = .error fault.failure := by
  rw [sortItemsCoerced coerced, sortDeclarationsFirst failed]
  rfl

/-- The fault of an origin that is too long to be told is no fault of state, and where there is
another one the order of the items decides which of the two is met. -/
theorem longOriginTold :
    let options := [("origin", OptionValue.datum overlong)]
    let long : Declaration := ⟨.unknown overlong, .bool false, .nothing⟩
    let strange : Declaration := ⟨.unknown (.text "print"), .bool false, .nothing⟩
    let own : Declaration := ⟨.known .inline, .bool false, .nothing⟩
    let items : List Item := [.config options, .config []]
    let mixed : List Item := [.declaration long, .declaration strange]
    items.mapM Item.coerce = .ok [long, own] ∧ Unsortable [long, own] ∧
      sortItems items = .error (.render .longInteger) ∧ ¬ Raises items ∧
      Raises mixed ∧ ¬ Raises mixed.reverse := by
  intro options long strange own items mixed
  have unplaced : long.precedence = .error .longInteger := longOrigin overlongHidden _ _
  have known : unknownOptions options = [] := by simp [unknownOptions, options, optionNames]
  have none : unknownOptions [] = [] := by simp [unknownOptions]
  have coerced : items.mapM Item.coerce = .ok [long, own] := by
    simp only [items, List.mapM_cons, List.mapM_nil, Item.coerce, Declaration.ofOptions, known, none]
    rfl
  have placed : own.precedence = .ok .authorNormal := rfl
  have ownFails : own.compare long = .error .longInteger := by
    rw [Declaration.compare, placed, unplaced]
    rfl
  have sorted : sortItems items = .error (.render .longInteger) := pairTold coerced ownFails
  have raised : sortItems mixed = .error (.state (.unknownOrigin "print")) :=
    pairTold (x := long) (y := strange) rfl (blocksCompare (.origin rfl))
  have back : sortItems mixed.reverse = .error (.render .longInteger) :=
    pairTold (x := strange) (y := long) rfl (blocksCompare (.origin unplaced))
  refine ⟨coerced, ?_, sorted, ?_, ⟨_, raised⟩, ?_⟩
  · exact ⟨by decide, .inl ⟨long, List.mem_cons_self, _, unplaced⟩⟩
  · intro state
    obtain ⟨_, failed⟩ := state
    cases sorted.symm.trans failed
  · intro state
    obtain ⟨_, failed⟩ := state
    cases back.symm.trans failed

end SelectorRank
