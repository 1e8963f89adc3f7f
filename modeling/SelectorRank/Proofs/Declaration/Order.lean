import Mathlib.Data.List.Permutation
import SelectorRank.Declaration.Order
import SelectorRank.Proofs.Sorting.Runs

/-! Cascade order of declarations. A comparison that has an answer is one of two weights on one
scale, so answers agree with each other; with the places of the declarations as a last resort no
two declarations tie, and only one order is left. -/
namespace SelectorRank
open Sorting

theorem outranksAsymm {s t : Specificity} (h : s.outranks t) : ¬ t.outranks s := by
  unfold Specificity.outranks at *; omega

theorem outranksTrans {s t u : Specificity} (st : s.outranks t) (tu : t.outranks u) :
    s.outranks u := by
  unfold Specificity.outranks at *; omega

theorem eqOfNeitherOutranks {s t : Specificity} (st : ¬ s.outranks t) (ts : ¬ t.outranks s) :
    s = t := by
  cases s; cases t
  simp only [Specificity.outranks, Specificity.mk.injEq] at *
  omega

namespace Declaration

inductive Compared (x y : Declaration) : Ordering → Prop where
  | above {p q} (left : x.precedence = .ok p) (right : y.precedence = .ok q)
      (less : p.rank < q.rank) : Compared x y .lt
  | below {p q} (left : x.precedence = .ok p) (right : y.precedence = .ok q)
      (less : q.rank < p.rank) : Compared x y .gt
  | level {p q s t o} (left : x.precedence = .ok p) (right : y.precedence = .ok q)
      (same : p.rank = q.rank) (first : x.specificity = .ok s) (second : y.specificity = .ok t)
      (weighed : o = .lt ∧ s.outranks t ∨ o = .gt ∧ t.outranks s ∨ o = .eq ∧ s = t) :
      Compared x y o

theorem compareSource {x y : Declaration} {o : Ordering} (ok : x.compare y = .ok o) :
    Compared x y o := by
  obtain ⟨p, left, ok⟩ := bindOk ok
  obtain ⟨q, right, ok⟩ := bindOk ok
  by_cases less : p.rank < q.rank
  · rw [if_pos less] at ok
    cases ok
    exact .above left right less
  by_cases more : q.rank < p.rank
  · rw [if_neg less, if_pos more] at ok
    cases ok
    exact .below left right more
  rw [if_neg less, if_neg more] at ok
  obtain ⟨s, first, ok⟩ := bindOk ok
  obtain ⟨t, second, ok⟩ := bindOk ok
  have level := Compared.level (o := o) left right (by omega) first second
  by_cases st : s.outranks t
  · rw [if_pos st] at ok
    cases ok
    exact level (.inl ⟨rfl, st⟩)
  by_cases ts : t.outranks s
  · rw [if_neg st, if_pos ts] at ok
    cases ok
    exact level (.inr (.inl ⟨rfl, ts⟩))
  rw [if_neg st, if_neg ts] at ok
  cases ok
  exact level (.inr (.inr ⟨rfl, eqOfNeitherOutranks st ts⟩))

theorem compareFromSource {x y : Declaration} {o : Ordering} (h : Compared x y o) :
    x.compare y = .ok o := by
  cases h with
  | above left right less => simp [compare, left, right, bind, Except.bind, less]
  | below left right less =>
    simp [compare, left, right, bind, Except.bind, less, Nat.le_of_lt less]
  | level left right same first second weighed =>
    simp only [compare, left, right, first, second, bind, Except.bind, same, Nat.lt_irrefl,
      if_false]
    rcases weighed with ⟨rfl, st⟩ | ⟨rfl, ts⟩ | ⟨rfl, rfl⟩
    · rw [if_pos st]
    · rw [if_neg (outranksAsymm ts), if_pos ts]
    · simp [Specificity.outranks]

theorem compareWeighed {x y : Declaration} {p q : Precedence} {s t : Specificity}
    (left : x.precedence = .ok p) (right : y.precedence = .ok q) (first : x.specificity = .ok s)
    (second : y.specificity = .ok t) : ∃ o, x.compare y = .ok o := by
  rcases Nat.lt_trichotomy p.rank q.rank with less | same | more
  · exact ⟨.lt, compareFromSource (.above left right less)⟩
  · by_cases st : s.outranks t
    · exact ⟨.lt, compareFromSource (.level left right same first second (.inl ⟨rfl, st⟩))⟩
    by_cases ts : t.outranks s
    · exact ⟨.gt, compareFromSource (.level left right same first second (.inr (.inl ⟨rfl, ts⟩)))⟩
    have eq := eqOfNeitherOutranks st ts
    exact ⟨.eq, compareFromSource (.level left right same first second (.inr (.inr ⟨rfl, eq⟩)))⟩
  · exact ⟨.gt, compareFromSource (.below left right more)⟩

theorem compareSwap {x y : Declaration} {o : Ordering} (ok : x.compare y = .ok o) :
    y.compare x = .ok o.swap := by
  apply compareFromSource
  cases compareSource ok with
  | above left right less => exact .below right left less
  | below left right less => exact .above right left less
  | level left right same first second weighed =>
    refine .level right left same.symm second first ?_
    rcases weighed with ⟨rfl, st⟩ | ⟨rfl, ts⟩ | ⟨rfl, rfl⟩
    · exact .inr (.inl ⟨rfl, st⟩)
    · exact .inl ⟨rfl, ts⟩
    · exact .inr (.inr ⟨rfl, rfl⟩)

/-- The first of two placed declarations wins, or they tie and it was given later. -/
def Leads (i : Nat) (x : Declaration) (j : Nat) (y : Declaration) : Prop :=
  x.compare y = .ok .lt ∨ x.compare y = .ok .eq ∧ j < i

theorem leadsSource {i j : Nat} {x y : Declaration} (h : Leads i x j y) :
    ∃ p q, x.precedence = .ok p ∧ y.precedence = .ok q ∧
      (p.rank < q.rank ∨ p.rank = q.rank ∧ ∃ s t, x.specificity = .ok s ∧
        y.specificity = .ok t ∧ (s.outranks t ∨ s = t ∧ j < i)) := by
  rcases h with wins | ⟨ties, later⟩
  · cases compareSource wins with
    | above left right less => exact ⟨_, _, left, right, .inl less⟩
    | level left right same first second weighed =>
      have st := by simpa using weighed
      exact ⟨_, _, left, right, .inr ⟨same, _, _, first, second, .inl st⟩⟩
  · cases compareSource ties with
    | level left right same first second weighed =>
      have st := by simpa using weighed
      exact ⟨_, _, left, right, .inr ⟨same, _, _, first, second, .inr ⟨st, later⟩⟩⟩

theorem leadsFromSource {i j : Nat} {x y : Declaration} {p q : Precedence}
    (left : x.precedence = .ok p) (right : y.precedence = .ok q)
    (weighed : p.rank < q.rank ∨ p.rank = q.rank ∧ ∃ s t, x.specificity = .ok s ∧
      y.specificity = .ok t ∧ (s.outranks t ∨ s = t ∧ j < i)) : Leads i x j y := by
  rcases weighed with less | ⟨same, s, t, first, second, st | ⟨eq, later⟩⟩
  · exact .inl (compareFromSource (.above left right less))
  · exact .inl (compareFromSource (.level left right same first second (.inl ⟨rfl, st⟩)))
  · refine .inr ⟨compareFromSource (.level left right same first second ?_), later⟩
    exact .inr (.inr ⟨rfl, eq⟩)

theorem leadsTrans {i j k : Nat} {x y z : Declaration} (xy : Leads i x j y) (yz : Leads j y k z) :
    Leads i x k z := by
  obtain ⟨p, q, hp, hq, pq⟩ := leadsSource xy
  obtain ⟨q', r, hq', hr, qr⟩ := leadsSource yz
  cases hq.symm.trans hq'
  refine leadsFromSource hp hr ?_
  rcases pq with pq | ⟨pq, s, t, hs, ht, st⟩
  · exact .inl (by omega)
  rcases qr with qr | ⟨qr, t', u, ht', hu, tu⟩
  · exact .inl (by omega)
  cases ht.symm.trans ht'
  refine .inr ⟨pq.trans qr, s, u, hs, hu, ?_⟩
  rcases st with st | ⟨rfl, first⟩
  · rcases tu with tu | ⟨rfl, _⟩
    · exact .inl (outranksTrans st tu)
    · exact .inl st
  · rcases tu with tu | ⟨rfl, second⟩
    · exact .inl tu
    · exact .inr ⟨rfl, by omega⟩

theorem leadsAsymm {i j : Nat} {x y : Declaration} (xy : Leads i x j y) : ¬ Leads j y i x := by
  intro yx
  rcases xy with wins | ⟨ties, _⟩
  · rcases yx with back | ⟨back, _⟩ <;> cases (compareSwap wins).symm.trans back
  · rcases yx with back | ⟨_, _⟩
    · cases (compareSwap ties).symm.trans back
    · omega

theorem leadsOfNot {i j : Nat} {x y : Declaration} (apart : i ≠ j) {o : Ordering}
    (ok : x.compare y = .ok o) (not : ¬ Leads i x j y) : Leads j y i x := by
  have back := compareSwap ok
  cases o with
  | lt => exact absurd (.inl ok) not
  | gt => exact .inl back
  | eq =>
    have early : ¬ j < i := fun later => not (.inr ⟨ok, later⟩)
    exact .inr ⟨back, by omega⟩

end Declaration

open Declaration

theorem comesBeforeIff {x y : Nat × Declaration} :
    Before comesBefore x y ↔ Leads x.1 x.2 y.1 y.2 := by
  simp only [Before, comesBefore, Leads, bind, Except.bind]
  cases x.2.compare y.2 with
  | error fault => simp
  | ok o => cases o <;> simp

theorem comesBeforeNot {x y : Nat × Declaration} (ok : comesBefore x y = .ok false) :
    ∃ o, x.2.compare y.2 = .ok o ∧ ¬ Leads x.1 x.2 y.1 y.2 := by
  obtain ⟨o, compared, _⟩ := bindOk ok
  refine ⟨o, compared, ?_⟩
  rw [← comesBeforeIff, Before, ok]
  simp

theorem comesBeforeFault {x y : Nat × Declaration} {fault : WeightFault}
    (failed : comesBefore x y = .error fault) : x.2.compare y.2 = .error fault := by
  rcases bindFails failed with failed | ⟨o, _, answered⟩
  · exact failed
  · cases o <;> cases answered

theorem comesBeforeTrans : Transitive comesBefore := by
  intro x y z xy yz
  exact comesBeforeIff.mpr (leadsTrans (comesBeforeIff.mp xy) (comesBeforeIff.mp yz))

theorem comesBeforeAnswers {bad : WeightFault → Prop} {x y : Nat × Declaration} (apart : x.1 ≠ y.1)
    (fails : ∀ fault, x.2.compare y.2 = .error fault → bad fault) : Answers comesBefore bad x y := by
  unfold Answers
  cases ran : comesBefore x y with
  | error fault => exact fails fault (comesBeforeFault ran)
  | ok goes =>
    cases goes with
    | true => exact ran
    | false =>
      obtain ⟨o, compared, not⟩ := comesBeforeNot ran
      exact comesBeforeIff.mpr (leadsOfNot apart compared not)

theorem numberedPlaces (ds : List Declaration) :
    (numbered ds).map Prod.fst = List.range ds.length := by
  simp [numbered, List.map_map, Function.comp_def, List.range_eq_range']

theorem numberedAt {ds : List Declaration} {p : Nat × Declaration} (mem : p ∈ numbered ds) :
    ds[p.1]? = some p.2 := by
  obtain ⟨q, hq, rfl⟩ := List.mem_map.mp mem
  exact List.mem_zipIdx_iff_getElem?.mp hq

/-- A fault of comparing two declarations that are given at different places. -/
def Collides (ds : List Declaration) (fault : WeightFault) : Prop :=
  ∃ (i j : Nat) (x y : Declaration), i ≠ j ∧ ds[i]? = some x ∧ ds[j]? = some y ∧
    x.compare y = .error fault

theorem numberedTold (ds : List Declaration) :
    (numbered ds).Pairwise (Told comesBefore (Collides ds)) := by
  have places : ((numbered ds).map Prod.fst).Nodup := by
    rw [numberedPlaces]; exact List.nodup_range
  refine (List.pairwise_map.mp places).imp_of_mem fun {p q} hp hq apart => ?_
  have first := numberedAt hp
  have second := numberedAt hq
  exact ⟨comesBeforeAnswers apart fun _ failed => ⟨_, _, _, _, apart, first, second, failed⟩,
    comesBeforeAnswers apart.symm fun _ failed => ⟨_, _, _, _, apart.symm, second, first, failed⟩⟩

theorem rankDeclarationsYields (ds : List Declaration) :
    Yields (Sorts comesBefore (numbered ds)) (Collides ds) (rankDeclarations ds) :=
  sortByRunsYields comesBeforeTrans (numberedTold ds)

/-- The places of declarations in cascade order: each of two declarations wins over the later one,
or ties with it and was given after it. -/
structure CascadeOrder (ds : List Declaration) (places : List Nat) : Prop where
  each : places.Perm (List.range ds.length)
  ordered : places.Pairwise fun i j =>
    ∃ x y, ds[i]? = some x ∧ ds[j]? = some y ∧ Leads i x j y

def Ranked (ds : List Declaration) (i j : Nat) : Prop :=
  ∃ x y, ds[i]? = some x ∧ ds[j]? = some y ∧ Leads i x j y

theorem rankedUnique {ds : List Declaration} {left right : List Nat} (same : left.Perm right)
    (hl : left.Pairwise (Ranked ds)) (hr : right.Pairwise (Ranked ds)) : left = right := by
  refine same.eq_of_pairwise ?_ hl hr
  rintro i j _ _ ⟨x, y, hx, hy, xy⟩ ⟨y', x', hy', hx', yx⟩
  cases hx.symm.trans hx'
  cases hy.symm.trans hy'
  exact absurd yx (leadsAsymm xy)

theorem cascadeOrderUnique {ds : List Declaration} {left right : List Nat}
    (hl : CascadeOrder ds left) (hr : CascadeOrder ds right) : left = right :=
  rankedUnique (hl.each.trans hr.each.symm) hl.ordered hr.ordered

structure Arranged (ds out : List Declaration) (places : List Nat) : Prop where
  order : CascadeOrder ds places
  taken : places.map (ds[·]?) = out.map some

theorem sortedArranged {ds out : List Declaration} (ok : sortDeclarations ds = .ok out) :
    ∃ places, Arranged ds out places := by
  obtain ⟨ranked, hranked, rfl⟩ := mapOk ok
  have ⟨ordered, same⟩ := (rankDeclarationsYields ds).right hranked
  have found : ∀ p ∈ ranked, ds[p.1]? = some p.2 := fun p hp => numberedAt (same.mem_iff.mp hp)
  refine ⟨ranked.map Prod.fst, ⟨?_, ?_⟩, ?_⟩
  · rw [← numberedPlaces]
    exact same.map Prod.fst
  · rw [List.pairwise_map]
    refine ordered.imp_of_mem ?_
    intro p q hp hq pq
    exact ⟨p.2, q.2, found p hp, found q hq, comesBeforeIff.mp pq⟩
  · rw [List.map_map, List.map_map]
    exact List.map_congr_left found

theorem sortDeclarationsGiven {ds : List Declaration} (free : ∀ fault, ¬ Collides ds fault) :
    ∃ out, sortDeclarations ds = .ok out := by
  obtain ⟨ranked, ok⟩ := (rankDeclarationsYields ds).given free
  exact ⟨_, congrArg (Except.map (List.map Prod.snd)) ok⟩

theorem sortDeclarationsFault {ds : List Declaration} {fault : WeightFault}
    (failed : sortDeclarations ds = .error fault) : Collides ds fault :=
  (rankDeclarationsYields ds).fails (mapFails failed)

section
variable (level : Declaration → Precedence) (weight : Declaration → Specificity)

def atLeast (x y : Declaration) : Bool :=
  decide ((level x).rank < (level y).rank ∨
    (level x).rank = (level y).rank ∧ ¬ (weight y).outranks (weight x))

theorem atLeastTrans (x y z : Declaration) (xy : atLeast level weight x y)
    (yz : atLeast level weight y z) : atLeast level weight x z := by
  simp only [atLeast, decide_eq_true_eq] at *
  unfold Specificity.outranks at *
  omega

theorem atLeastTotal (x y : Declaration) :
    atLeast level weight x y || atLeast level weight y x := by
  simp only [atLeast, Bool.or_eq_true, decide_eq_true_eq]
  unfold Specificity.outranks
  omega

def Weighed (ds : List Declaration) : Prop :=
  ∀ d ∈ ds, d.precedence = .ok (level d) ∧ d.specificity = .ok (weight d)

variable {level weight} {ds : List Declaration}

theorem weighedCompare (weighed : Weighed level weight ds) {x y : Declaration} (hx : x ∈ ds)
    (hy : y ∈ ds) : ∃ o, x.compare y = .ok o :=
  compareWeighed (weighed x hx).1 (weighed y hy).1 (weighed x hx).2 (weighed y hy).2

theorem weighedLeads (weighed : Weighed level weight ds) {x y : Declaration} (hx : x ∈ ds)
    (hy : y ∈ ds) {i j : Nat} (first : atLeast level weight x y)
    (later : atLeast level weight y x → j < i) : Leads i x j y := by
  obtain ⟨p, s⟩ := weighed x hx
  obtain ⟨q, t⟩ := weighed y hy
  refine leadsFromSource p q ?_
  simp only [atLeast, decide_eq_true_eq] at first later
  rcases first with less | ⟨same, light⟩
  · exact .inl less
  refine .inr ⟨same, _, _, s, t, ?_⟩
  by_cases st : (weight x).outranks (weight y)
  · exact .inl st
  · exact .inr ⟨eqOfNeitherOutranks st light, later (.inr ⟨same.symm, st⟩)⟩

def stablePlaces (level : Declaration → Precedence) (weight : Declaration → Specificity)
    (ds : List Declaration) : List Nat :=
  (ds.reverse.zipIdx.mergeSort (List.zipIdxLE (atLeast level weight))).map
    (fun p => ds.length - 1 - p.2)

theorem reversedAt {p : Declaration × Nat} (mem : p ∈ ds.reverse.zipIdx) :
    p.2 < ds.length ∧ ds[ds.length - 1 - p.2]? = some p.1 := by
  have found := List.mem_zipIdx_iff_getElem?.mp mem
  have small : p.2 < ds.length := by
    have := (List.getElem?_eq_some_iff.mp found).1
    simpa using this
  rw [List.getElem?_reverse small] at found
  exact ⟨small, found⟩

theorem stableArranged (weighed : Weighed level weight ds) :
    Arranged ds (ds.reverse.mergeSort (atLeast level weight)) (stablePlaces level weight ds) := by
  have same := List.mergeSort_perm ds.reverse.zipIdx (List.zipIdxLE (atLeast level weight))
  have sorted := List.pairwise_mergeSort (List.zipIdxLE_trans (atLeastTrans level weight))
    (List.zipIdxLE_total (atLeastTotal level weight)) ds.reverse.zipIdx
  have apart : ((ds.reverse.zipIdx.mergeSort (List.zipIdxLE (atLeast level weight))).map
      Prod.snd).Nodup := by
    rw [(same.map Prod.snd).nodup_iff, List.zipIdx_map_snd]
    exact List.nodup_range'
  refine ⟨⟨?_, ?_⟩, ?_⟩
  · refine (same.map _).trans ?_
    have places := congrArg (List.map (ds.length - 1 - ·)) (List.zipIdx_map_snd 0 ds.reverse)
    rw [List.map_map, List.length_reverse, ← List.range_eq_range'] at places
    rw [show (fun p : Declaration × Nat => ds.length - 1 - p.2) =
      (fun k => ds.length - 1 - k) ∘ Prod.snd from rfl, places]
    have reversed := @List.reverse_range' 0 ds.length
    rw [← List.range_eq_range', Nat.zero_add] at reversed
    rw [← reversed]
    exact List.reverse_perm _
  · rw [stablePlaces, List.pairwise_map]
    refine ((List.pairwise_map.mp apart).and sorted).imp_of_mem ?_
    intro p q hp hq ⟨distinct, le⟩
    obtain ⟨smallP, atP⟩ := reversedAt (same.mem_iff.mp hp)
    obtain ⟨smallQ, atQ⟩ := reversedAt (same.mem_iff.mp hq)
    refine ⟨p.1, q.1, atP, atQ, ?_⟩
    simp only [List.zipIdxLE] at le
    split at le
    · next first =>
      refine weighedLeads weighed (List.mem_of_getElem? atP) (List.mem_of_getElem? atQ) first ?_
      intro back
      rw [if_pos back, decide_eq_true_eq] at le
      omega
    · contradiction
  · rw [stablePlaces, ← @List.mergeSort_zipIdx _ (atLeast level weight), List.map_map, List.map_map]
    exact List.map_congr_left fun p hp => (reversedAt (same.mem_iff.mp hp)).2

theorem weighedSorted (weighed : Weighed level weight ds) :
    sortDeclarations ds = .ok (ds.reverse.mergeSort (atLeast level weight)) := by
  have free : ∀ fault, ¬ Collides ds fault := by
    rintro fault ⟨i, j, x, y, _, first, second, failed⟩
    obtain ⟨o, compared⟩ := weighedCompare weighed (List.mem_of_getElem? first)
      (List.mem_of_getElem? second)
    cases compared.symm.trans failed
  obtain ⟨out, ok⟩ := sortDeclarationsGiven free
  obtain ⟨places, arranged⟩ := sortedArranged ok
  have stable := stableArranged weighed
  have taken := arranged.taken
  rw [cascadeOrderUnique arranged.order stable.order, stable.taken] at taken
  have equal := List.map_inj_right (fun _ _ => Option.some.inj) |>.mp taken
  rw [ok, equal]

end

/-- Items that can be coerced have at most one cascade order, and sorting them gives it if it gives
anything. Where all have a level and a weight it does, and the order is the stable sort by them of
the items from the last to the first. -/
theorem sortItemsCascadeOrder {items : List Item} {ds : List Declaration}
    (coerced : items.mapM Item.coerce = .ok ds) :
    (∀ out, sortItems items = .ok out → ∃ places, Arranged ds out places ∧
      ∀ other, CascadeOrder ds other → other = places) ∧
    ∀ level weight, Weighed level weight ds →
      sortItems items = .ok (ds.reverse.mergeSort (atLeast level weight)) := by
  have sorting : sortItems items = (sortDeclarations ds).mapError WeightFault.failure := by
    simp [sortItems, coerced, bind, Except.bind]
  rw [sorting]
  constructor
  · intro out ok
    cases sorted : sortDeclarations ds with
    | error fault => simp [sorted, Except.mapError] at ok
    | ok ranked =>
      simp only [sorted, Except.mapError, Except.ok.injEq] at ok
      subst out
      obtain ⟨places, arranged⟩ := sortedArranged sorted
      exact ⟨places, arranged, fun _ other => cascadeOrderUnique other arranged.order⟩
  · intro level weight weighed
    rw [weighedSorted weighed]
    rfl

theorem sortItemsCascadeOrderTied :
    let a := Selector.ofTokens [.usual (.className "a")]
    let b := Selector.ofTokens [.usual (.id "b")]
    let c := Selector.ofTokens [.usual (.className "c")]
    let own : Declaration := ⟨.known .inline, .bool false, .nothing⟩
    let items := [.selector a, .config [], .selector b, .selector c]
    let ds := [.ofSelector a, own, .ofSelector b, .ofSelector c]
    let out := [own, .ofSelector b, .ofSelector c, .ofSelector a]
    items.mapM Item.coerce = .ok ds ∧ sortItems items = .ok out ∧
      ∃ places, Arranged ds out places ∧ ∀ other, CascadeOrder ds other → other = places := by
  have applied : ∀ {items ds out} (coerced : items.mapM Item.coerce = .ok ds)
      (sorted : sortDeclarations ds = .ok out), items.mapM Item.coerce = .ok ds ∧
      sortItems items = .ok out ∧ ∃ places, Arranged ds out places ∧
        ∀ other, CascadeOrder ds other → other = places := by
    intro items ds out coerced sorted
    have given : sortItems items = .ok out := by
      rw [sortItems, coerced]
      exact congrArg (Except.mapError WeightFault.failure) sorted
    exact ⟨coerced, given, (sortItemsCascadeOrder coerced).1 _ given⟩
  have own : Item.coerce (.config []) = .ok ⟨.known .inline, .bool false, .nothing⟩ := by
    simp only [Item.coerce, Declaration.ofOptions, unknownOptions, List.map_nil, List.filter_nil,
      List.mergeSort_nil]
    rfl
  exact applied (by simp only [List.mapM_cons, List.mapM_nil, own]; rfl) (by cbv)

end SelectorRank
