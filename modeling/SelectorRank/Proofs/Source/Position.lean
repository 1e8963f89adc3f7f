import Mathlib.Algebra.GroupWithZero.Nat
import Mathlib.Data.Int.ConditionallyCompleteOrder
import Mathlib.Data.List.TakeWhile
import Mathlib.Data.Prod.Lex
import Mathlib.Order.ConditionallyCompleteLattice.Basic
import SelectorRank.Source.Position

/-! Offsets of a text and places in it. Line feeds cut a text into lines, and a line has a place
before each of its characters and one behind the last. The places of all lines, one line after the
other, are the offsets of the text in order. -/
namespace SelectorRank

def feedLines (source : List Char) : List (List Char) := source.splitOn '\n'

/-- Offset at which a line starts. Here the first line has number zero. -/
def lineStart (source : List Char) (n : Nat) : Nat :=
  (((feedLines source).take n).map (·.length + 1)).sum

/-- Lines and columns of a text, both counted from one. -/
def places (source : List Char) : Set (Int ×ₗ Int) :=
  {p | ∃ (n : Nat) (l : List Char) (m : Nat), (feedLines source)[n]? = some l ∧ m ≤ l.length ∧
    p = toLex ((n + 1 : Int), (m + 1 : Int))}

def Position.place (p : Position) : Int ×ₗ Int := toLex (p.line, p.column)

/-- A position is in a line behind as many line feeds as its number says, and as far from the start
of that line as its column says. -/
structure Position.Tells (p : Position) (source : List Char) : Prop where
  feeds : p.line - 1 = (source.take p.offset.toNat).count '\n'
  column : ∃ l, (feedLines source)[(p.line - 1).toNat]? = some l ∧
    1 ≤ p.column ∧ p.column ≤ l.length + 1
  offset : p.offset = lineStart source (p.line - 1).toNat + p.column - 1

variable {source l rest : List Char} {k m n : Nat}

/-! Texts, line by line. -/

theorem byLines {P : List Char → Prop} (last : ∀ l, '\n' ∉ l → P l)
    (more : ∀ l rest, '\n' ∉ l → P rest → P (l ++ '\n' :: rest)) (source : List Char) : P source := by
  by_cases feed : '\n' ∈ source
  · obtain ⟨l, rest, rfl, single⟩ := List.eq_append_cons_of_mem feed
    exact more l rest single (byLines last more rest)
  · exact last source feed
termination_by source.length
decreasing_by grind

theorem feedLinesLast (single : '\n' ∉ l) : feedLines l = [l] := List.splitOn_eq_singleton single

theorem feedLinesMore (single : '\n' ∉ l) (rest : List Char) :
    feedLines (l ++ '\n' :: rest) = l :: feedLines rest :=
  List.splitOn_append_cons_self_of_not_mem single rest

theorem lineStartMore (single : '\n' ∉ l) (rest : List Char) (n : Nat) :
    lineStart (l ++ '\n' :: rest) (n + 1) = l.length + 1 + lineStart rest n := by
  rw [lineStart, feedLinesMore single, List.take_succ_cons, List.map_cons, List.sum_cons, lineStart]

theorem lineStartNext (found : (feedLines source)[n]? = some l) :
    lineStart source (n + 1) = lineStart source n + (l.length + 1) := by
  simp [lineStart, List.take_add_one, found]

theorem lineStartMono (source : List Char) : Monotone (lineStart source) := by
  refine monotone_nat_of_le_succ fun n => ?_
  rw [lineStart, lineStart, List.take_add_one, List.map_append, List.sum_append]
  exact Nat.le_add_right _ _

/-! Characters since the last line feed. -/

theorem sinceNone (single : '\n' ∉ l) : sinceLineFeed l = l.length := by
  have all : ∀ c ∈ l.reverse, decide (c ≠ '\n') = true := by
    intro c member
    exact decide_eq_true fun feed => single (feed ▸ List.mem_reverse.mp member)
  rw [sinceLineFeed, List.takeWhile_eq_self_iff.mpr all, List.length_reverse]

theorem sinceBehind (front rest : List Char) :
    sinceLineFeed (front ++ '\n' :: rest) = sinceLineFeed rest := by
  have reversed : (front ++ '\n' :: rest).reverse = rest.reverse ++ '\n' :: front.reverse := by simp
  rw [sinceLineFeed, sinceLineFeed, reversed, List.takeWhile_append]
  split
  · next whole => rw [whole, List.takeWhile_cons_of_neg (by simp), List.append_nil]
  · rfl

/-! Positions. -/

theorem ofOffsetWithin (within : k ≤ source.length) :
    Position.ofOffset source k =
      ⟨(source.take k).count '\n' + 1, sinceLineFeed (source.take k) + 1, k⟩ := by
  have clamped : clampOffset source k = k := by
    rw [clampOffset, Int.toNat_natCast]
    omega
  simp only [Position.ofOffset, clamped]

theorem ofOffsetFirst (single : '\n' ∉ l) (within : m ≤ l.length) (rest : List Char) :
    Position.ofOffset (l ++ rest) m = ⟨1, m + 1, m⟩ := by
  have none : '\n' ∉ l.take m := fun member => single (List.mem_of_mem_take member)
  rw [ofOffsetWithin (by rw [List.length_append]; omega), List.take_append_of_le_length within,
    List.count_eq_zero.mpr none, sinceNone none, List.length_take_of_le within]
  rfl

theorem ofOffsetMore (single : '\n' ∉ l) (within : k ≤ rest.length) :
    Position.ofOffset (l ++ '\n' :: rest) (l.length + 1 + k : Nat) =
      { Position.ofOffset rest k with
        line := (Position.ofOffset rest k).line + 1
        offset := (l.length + 1 + k : Nat) } := by
  have taken : (l ++ '\n' :: rest).take (l.length + 1 + k) = l ++ '\n' :: rest.take k := by
    rw [Nat.add_assoc, List.take_length_add_append, Nat.add_comm, List.take_succ_cons]
  have bound : l.length + 1 + k ≤ (l ++ '\n' :: rest).length := by
    rw [List.length_append, List.length_cons]
    omega
  have count : (l ++ '\n' :: rest.take k).count '\n' = (rest.take k).count '\n' + 1 := by
    rw [List.count_append, List.count_cons_self, List.count_eq_zero.mpr single, Nat.zero_add]
  rw [ofOffsetWithin bound, ofOffsetWithin within, taken, count, sinceBehind]
  rfl

theorem ofOffsetClamped (source : List Char) (offset : Int) :
    Position.ofOffset source offset = Position.ofOffset source (clampOffset source offset) := by
  have twice : clampOffset source (clampOffset source offset) = clampOffset source offset := by
    simp only [clampOffset, Int.toNat_natCast]
    omega
  simp only [Position.ofOffset, twice]

/-! Places. -/

theorem placeRead (found : (feedLines source)[n]? = some l) (within : m ≤ l.length) :
    lineStart source n + m ≤ source.length ∧
      Position.ofOffset source (lineStart source n + m : Nat) =
        ⟨n + 1, m + 1, (lineStart source n + m : Nat)⟩ := by
  induction source using byLines generalizing n with
  | last source single =>
    rw [feedLinesLast single] at found
    obtain ⟨rfl, rfl⟩ : n = 0 ∧ source = l := by
      cases n <;> simp_all
    have start : lineStart source 0 + m = m := Nat.zero_add m
    rw [start]
    exact ⟨within, by simpa using ofOffsetFirst single within []⟩
  | more first rest single ih =>
    rw [feedLinesMore single] at found
    cases n with
    | zero =>
      obtain rfl : first = l := by simpa using found
      have start : lineStart (first ++ '\n' :: rest) 0 + m = m := Nat.zero_add m
      rw [start]
      exact ⟨by rw [List.length_append]; omega, ofOffsetFirst single within _⟩
    | succ n =>
      obtain ⟨bound, place⟩ := ih (by simpa using found)
      rw [lineStartMore single, Nat.add_assoc]
      refine ⟨by simp only [List.length_append, List.length_cons]; omega, ?_⟩
      rw [ofOffsetMore single bound, place]
      rfl

theorem placeFound (within : k ≤ source.length) :
    ∃ n l m, (feedLines source)[n]? = some l ∧ m ≤ l.length ∧ k = lineStart source n + m := by
  induction source using byLines generalizing k with
  | last source single =>
    exact ⟨0, source, k, by rw [feedLinesLast single]; rfl, within, (Nat.zero_add k).symm⟩
  | more first rest single ih =>
    rw [List.length_append, List.length_cons] at within
    by_cases here : k ≤ first.length
    · exact ⟨0, first, k, by rw [feedLinesMore single]; rfl, here, (Nat.zero_add k).symm⟩
    · obtain ⟨n, l, m, found, inside, place⟩ := ih (k := k - (first.length + 1)) (by omega)
      refine ⟨n + 1, l, m, by rw [feedLinesMore single]; exact found, inside, ?_⟩
      rw [lineStartMore single]
      omega

theorem placeTold (found : (feedLines source)[n]? = some l) (within : m ≤ l.length) :
    (Position.ofOffset source (lineStart source n + m : Nat)).place =
      toLex ((n + 1 : Int), (m + 1 : Int)) := by
  rw [Position.place, (placeRead found within).2]

theorem positionTells (source : List Char) (offset : Int) :
    (Position.ofOffset source offset).Tells source := by
  have bound : clampOffset source offset ≤ source.length := Nat.min_le_right _ _
  obtain ⟨n, l, m, found, within, same⟩ := placeFound bound
  have feeds := congrArg Position.line (ofOffsetWithin (same ▸ bound))
  rw [ofOffsetClamped, same]
  rw [(placeRead found within).2] at feeds ⊢
  have line : ((n : Int) + 1 - 1).toNat = n := by omega
  refine ⟨?_, ⟨l, line.symm ▸ found, ?_, ?_⟩, ?_⟩
  · simp only [Int.toNat_natCast] at feeds ⊢
    omega
  · simp
  · simpa using within
  · simp only [line]
    omega

/-! Order. -/

theorem placeOrder {l' : List Char} {m' n' : Nat} (found' : (feedLines source)[n']? = some l')
    (within' : m' ≤ l'.length) (less : lineStart source n + m < lineStart source n' + m') :
    n < n' ∨ n = n' ∧ m < m' := by
  rcases Nat.lt_trichotomy n n' with before | rfl | behind
  · exact .inl before
  · exact .inr ⟨rfl, by omega⟩
  · have next := lineStartNext found'
    have later : lineStart source (n' + 1) ≤ lineStart source n := lineStartMono source behind
    omega

theorem placesIncrease (source : List Char) :
    StrictMonoOn (fun i => (Position.ofOffset source i).place) (Set.Icc 0 source.length) := by
  rintro i ⟨first, last⟩ j ⟨first', last'⟩ less
  lift i to Nat using first
  lift j to Nat using first'
  obtain ⟨n, l, m, found, within, rfl⟩ := placeFound (Int.ofNat_le.mp last)
  obtain ⟨n', l', m', found', within', rfl⟩ := placeFound (Int.ofNat_le.mp last')
  have order := placeOrder found' within' (Int.ofNat_lt.mp less)
  change (Position.ofOffset source _).place < (Position.ofOffset source _).place
  rw [placeTold found within, placeTold found' within', Prod.Lex.toLex_lt_toLex]
  omega

theorem placesTold (source : List Char) :
    Set.MapsTo (fun i => (Position.ofOffset source i).place) (Set.Icc 0 source.length)
      (places source) := by
  rintro i ⟨first, last⟩
  lift i to Nat using first
  obtain ⟨n, l, m, found, within, rfl⟩ := placeFound (Int.ofNat_le.mp last)
  exact ⟨n, l, m, found, within, placeTold found within⟩

theorem placesReached (source : List Char) :
    Set.SurjOn (fun i => (Position.ofOffset source i).place) (Set.Icc 0 source.length)
      (places source) := by
  rintro _ ⟨n, l, m, found, within, rfl⟩
  have bound := (placeRead found within).1
  exact ⟨(lineStart source n + m : Nat), ⟨Int.natCast_nonneg _, Int.ofNat_le.mpr bound⟩,
    placeTold found within⟩

/-- The position of an offset, or of the nearer end of the text where the offset is outside, tells
where it is. Offsets in their order are the places of the text in theirs, each place once. -/
theorem offsetPlaces (source : List Char) :
    (∀ offset, (Position.ofOffset source offset).offset = max 0 (min offset source.length) ∧
      (Position.ofOffset source offset).Tells source) ∧
    StrictMonoOn (fun i => (Position.ofOffset source i).place) (Set.Icc 0 source.length) ∧
    Set.BijOn (fun i => (Position.ofOffset source i).place) (Set.Icc 0 source.length)
      (places source) := by
  have increase := placesIncrease source
  refine ⟨fun offset => ⟨?_, positionTells source offset⟩, increase,
    placesTold source, increase.injOn, placesReached source⟩
  rw [ofOffsetOffset, clampOffset]
  omega

/-- A place behind the last character, in an empty line. -/
example : Position.ofOffset "a\n\n".toList 99 = ⟨3, 1, 3⟩ := by decide

end SelectorRank
