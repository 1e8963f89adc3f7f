import Mathlib.Data.List.TakeWhile
import SelectorRank.Text.Blank

/-! Lines of a text. A line feed closes a line whatever comes before it, so a text is cut behind a
line feed into texts with lines of their own; a line that another break closes is a stray one, and
there are as many more lines than line feeds as there are stray ones. -/
namespace SelectorRank.Text

variable {p : Char → Bool} {cs : List Char} {c : Char}

theorem trimRightCons (other : p c = false) (cs : List Char) :
    trimRight p (c :: cs) = c :: trimRight p cs := by
  rw [trimRight, List.reverse_cons, List.dropWhile_append]
  split
  · next spent => simp_all [trimRight]
  · simp [trimRight]

theorem trimRightAppend (xs ys : List Char) (some : trimRight p ys ≠ []) :
    trimRight p (xs ++ ys) = xs ++ trimRight p ys := by
  have left : ys.reverse.dropWhile p ≠ [] := by simpa [trimRight] using some
  rw [trimRight, List.reverse_append, List.dropWhile_append, if_neg (by simpa using left)]
  simp [trimRight]

theorem trimRightNone : trimRight p cs = [] ↔ ∀ c ∈ cs, p c = true := by
  rw [trimRight, List.reverse_eq_nil_iff, List.dropWhile_eq_nil_iff]
  simp

theorem trimRightLength (cs : List Char) : (trimRight p cs).length ≤ cs.length := by
  simpa [trimRight] using (List.dropWhile_suffix p (l := cs.reverse)).length_le

theorem trimRightSame (xs ys : List Char) :
    trimRight p (xs ++ ys) = trimRight p xs ↔ ∀ c ∈ ys, p c = true := by
  constructor
  · intro same
    by_contra kept
    have some : trimRight p ys ≠ [] := mt trimRightNone.mp kept
    have longer := congrArg List.length ((trimRightAppend xs ys some).symm.trans same)
    have bound := trimRightLength (p := p) xs
    have positive := List.length_pos_iff.mpr some
    rw [List.length_append] at longer
    omega
  · intro all
    rw [trimRight, List.reverse_append, List.dropWhile_append_of_pos (by simpa using all), trimRight]

theorem trimParts (p : Char → Bool) (cs : List Char) :
    cs = cs.takeWhile p ++ (trim p cs ++ ((trimLeft p cs).reverse.takeWhile p).reverse) := by
  rw [trim, trimRight, ← List.reverse_append, List.takeWhile_append_dropWhile, List.reverse_reverse,
    trimLeft, List.takeWhile_append_dropWhile]

theorem trimFirst {rest : List Char} (found : trim p cs = c :: rest) : p c = false := by
  have within : trim p cs <+: trimLeft p cs :=
    List.reverse_suffix.mp (by simpa [trim, trimRight] using List.dropWhile_suffix p)
  obtain ⟨behind, left⟩ := within
  have first := List.head?_dropWhile_not p cs
  rw [trimLeft, found] at left
  rw [← left] at first
  exact first

/-! Shape of lines. -/

/-- A line that no line feed ends. -/
def Line.isStray (l : Line) : Bool := '\n' ∉ l.ending

/-- A line as it is shown: without a line feed at its end, and then without carriage returns. -/
def Line.shown (l : Line) : List Char := trimRight (· = '\r') (trimRight (· = '\n') l.whole)

structure Line.Shaped (l : Line) : Prop where
  body : ∀ c ∈ l.body, isBreak c = false
  ending : l.ending = [] ∨ l.ending = ['\r', '\n'] ∨ ∃ c, isBreak c = true ∧ l.ending = [c]

theorem linesShaped (cs : List Char) : ∀ l ∈ lines cs, l.Shaped := by
  fun_induction lines cs with
  | case1 => simp
  | case2 cs ih => exact List.forall_mem_cons.mpr ⟨⟨by simp, by simp⟩, ih⟩
  | case3 c cs _ closes ih =>
    exact List.forall_mem_cons.mpr ⟨⟨by simp, .inr (.inr ⟨c, closes, rfl⟩)⟩, ih⟩
  | case4 c cs _ inside none _ =>
    exact List.forall_mem_singleton.mpr ⟨by simpa using inside, .inl rfl⟩
  | case5 c cs _ inside l ls found ih =>
    rw [found] at ih
    obtain ⟨first, rest⟩ := List.forall_mem_cons.mp ih
    refine List.forall_mem_cons.mpr ⟨⟨?_, first.ending⟩, rest⟩
    exact List.forall_mem_cons.mpr ⟨by simpa using inside, first.body⟩

theorem trimRightMem (within : c ∈ trimRight p cs) : c ∈ cs := by
  rw [trimRight, List.mem_reverse] at within
  exact List.mem_reverse.mp ((List.dropWhile_suffix p).subset within)

theorem shownFeed {l : Line} (shaped : l.Shaped) : '\n' ∉ l.shown := by
  have body : '\n' ∉ l.body := by
    intro within
    cases shaped.body _ within
  intro within
  have kept : '\n' ∈ trimRight (· = '\n') l.whole := trimRightMem within
  rw [Line.whole] at kept
  rcases shaped.ending with none | pair | ⟨c, _, single⟩
  · rw [none, List.append_nil] at kept
    exact body (trimRightMem kept)
  · rw [pair, List.append_cons, (trimRightSame _ _).mpr (by simp)] at kept
    exact absurd (trimRightMem kept) (by simp [body])
  · by_cases feed : c = '\n'
    · rw [single, (trimRightSame _ _).mpr (by simp [feed])] at kept
      exact body (trimRightMem kept)
    · rw [single] at kept
      exact absurd (trimRightMem kept) (by simp [body, Ne.symm feed])

theorem linesNone : lines cs = [] ↔ cs = [] := by
  fun_cases lines cs <;> simp

theorem linesBreak (closes : isBreak c = true) (apart : c = '\r' → cs.head? ≠ some '\n') :
    lines (c :: cs) = ⟨[], [c]⟩ :: lines cs := by
  rw [lines, if_pos closes]
  rintro cs' rfl rfl
  exact apart rfl rfl

theorem linesOpen {l : Line} {ls : List Line} (inner : isBreak c = false)
    (found : lines cs = l :: ls) : lines (c :: cs) = ⟨c :: l.body, l.ending⟩ :: ls := by
  rw [lines, if_neg (by simp [inner]), found]
  rintro cs' rfl rfl
  cases inner

theorem linesSingle (single : ∀ c ∈ cs, isBreak c = false) (some : cs ≠ []) :
    lines cs = [⟨cs, []⟩] := by
  induction cs with
  | nil => exact absurd rfl some
  | cons c cs ih =>
    obtain ⟨inner, rest⟩ := List.forall_mem_cons.mp single
    cases cs with
    | nil =>
      rw [lines, if_neg (by simp [inner]), linesNone.mpr rfl]
      nofun
    | cons d cs => exact linesOpen inner (ih rest (List.cons_ne_nil d cs))

/-! A text that ends in a line feed, or is empty, has lines of its own in front of any other. -/

def Closed (cs : List Char) : Prop := cs = [] ∨ ∃ front, cs = front ++ ['\n']

theorem linesFeed (cs rest : List Char) :
    lines (cs ++ '\n' :: rest) = lines (cs ++ ['\n']) ++ lines rest := by
  have feed (rest : List Char) : lines ('\n' :: rest) = ⟨[], ['\n']⟩ :: lines rest :=
    linesBreak (by decide) (fun same => absurd same (by decide))
  have none : lines [] = [] := rfl
  fun_induction lines cs with
  | case1 => simp [feed, none]
  | case2 cs ih => simp [lines, ih]
  | case3 c cs pair closes ih =>
    by_cases joins : c = '\r' ∧ cs = []
    · obtain ⟨rfl, rfl⟩ := joins
      simp [lines]
    · have apart (rest : List Char) : c = '\r' → (cs ++ '\n' :: rest).head? ≠ some '\n' := by
        rintro rfl head
        cases cs with
        | nil => simp at joins
        | cons d cs => exact pair cs rfl (by simpa using head)
      rw [List.cons_append, List.cons_append, linesBreak closes (apart rest),
        linesBreak closes (apart []), ih, List.cons_append]
  | case4 c cs pair inner empty _ =>
    obtain rfl := linesNone.mp empty
    have inner : isBreak c = false := by simpa using inner
    have single : lines [c, '\n'] = [⟨[c], ['\n']⟩] := by simp [linesOpen inner (feed []), none]
    simp [linesOpen inner (feed rest), single]
  | case5 c cs pair inner l ls found ih =>
    have inner : isBreak c = false := by simpa using inner
    cases behind : lines (cs ++ ['\n']) with
    | nil => simp [linesNone] at behind
    | cons l' ls' =>
      rw [behind, List.cons_append] at ih
      rw [List.cons_append, List.cons_append, linesOpen inner ih, linesOpen inner behind,
        List.cons_append]

theorem linesClosed {front : List Char} (closed : Closed front) (rest : List Char) :
    lines (front ++ rest) = lines front ++ lines rest := by
  rcases closed with rfl | ⟨front, rfl⟩
  · rfl
  · rw [List.append_assoc, List.singleton_append, linesFeed]

theorem shapedCount {l : Line} (shaped : l.Shaped) :
    l.whole.count '\n' = if l.isStray then 0 else 1 := by
  have body : l.body.count '\n' = 0 := by
    rw [List.count_eq_zero]
    intro member
    cases shaped.body _ member
  rw [Line.whole, List.count_append, body, Nat.zero_add, Line.isStray]
  rcases shaped.ending with none | pair | ⟨c, _, single⟩
  · simp [none]
  · simp [pair]
  · by_cases feed : '\n' = c
    · simp [single, ← feed]
    · simp [single, feed, Ne.symm feed]

theorem linesCount (cs : List Char) :
    (lines cs).length = cs.count '\n' + (lines cs).countP Line.isStray := by
  have counted : ∀ ls : List Line, (∀ l ∈ ls, l.Shaped) →
      ls.length = (ls.flatMap Line.whole).count '\n' + ls.countP Line.isStray := by
    intro ls shaped
    induction ls with
    | nil => rfl
    | cons l ls ih =>
      obtain ⟨first, rest⟩ := List.forall_mem_cons.mp shaped
      rw [List.flatMap_cons, List.count_append, shapedCount first, List.countP_cons,
        List.length_cons, ih rest]
      split <;> simp_all <;> omega
  have count := counted (lines cs) (linesShaped cs)
  rwa [linesWhole] at count

/-! The first line of a text whose first line feed is known. -/

def untilBreak (cs : List Char) : List Char :=
  cs.takeWhile (!isBreak ·) ++ (cs.dropWhile (!isBreak ·)).take 1

def OnlyReturns (cs : List Char) : Prop :=
  ∀ c ∈ (cs.dropWhile (!isBreak ·)).drop 1, c = '\r'

theorem untilBreakRest (cs : List Char) :
    untilBreak cs ++ (cs.dropWhile (!isBreak ·)).drop 1 = cs := by
  rw [untilBreak, List.append_assoc, List.take_append_drop, List.takeWhile_append_dropWhile]

theorem untilBreakShown (cs : List Char) :
    trimRight (· = '\r') (untilBreak cs) = trimRight (· = '\r') cs ↔ OnlyReturns cs := by
  have same := trimRightSame (p := (· = '\r')) (untilBreak cs) ((cs.dropWhile (!isBreak ·)).drop 1)
  rw [untilBreakRest] at same
  rw [eq_comm, same]
  simp [OnlyReturns]

theorem firstShown {front rest : List Char} (single : '\n' ∉ front)
    (ends : rest = [] ∨ rest.head? = some '\n') (visible : front ++ rest ≠ []) :
    ∃ l ls, lines (front ++ rest) = l :: ls ∧
      l.shown = trimRight (· = '\r') (untilBreak front) := by
  induction front with
  | nil =>
    rcases ends with rfl | head
    · contradiction
    obtain ⟨rest, rfl⟩ : ∃ tail, rest = '\n' :: tail := List.head?_eq_some_iff.mp head
    exact ⟨⟨[], ['\n']⟩, lines rest, linesBreak (by decide) (by simp), rfl⟩
  | cons c front ih =>
    obtain ⟨other, single⟩ := not_or.mp (mt List.mem_cons.mpr single)
    cases closes : isBreak c with
    | true =>
      have cut : untilBreak (c :: front) = [c] := by simp [untilBreak, closes]
      rw [cut]
      by_cases pair : c = '\r' ∧ (front ++ rest).head? = some '\n'
      · obtain ⟨rfl, head⟩ := pair
        obtain ⟨tail, same⟩ := List.head?_eq_some_iff.mp head
        exact ⟨⟨[], ['\r', '\n']⟩, lines tail, by rw [List.cons_append, same, lines], rfl⟩
      · have apart : c = '\r' → (front ++ rest).head? ≠ some '\n' := by simpa using pair
        refine ⟨⟨[], [c]⟩, lines (front ++ rest), linesBreak closes apart, ?_⟩
        simp [Line.shown, Line.whole, trimRight, Ne.symm other]
    | false =>
      have cut : untilBreak (c :: front) = c :: untilBreak front := by
        simp [untilBreak, closes]
      have inner : c ≠ '\r' := by
        rintro rfl
        cases closes
      have shown (cs : List Char) : trimRight (· = '\r') (trimRight (· = '\n') (c :: cs)) =
          c :: trimRight (· = '\r') (trimRight (· = '\n') cs) := by
        rw [trimRightCons (by simpa using Ne.symm other), trimRightCons (by simpa using inner)]
      rw [cut, trimRightCons (by simpa using inner)]
      by_cases last : front ++ rest = []
      · obtain ⟨rfl, rfl⟩ := List.append_eq_nil_iff.mp last
        refine ⟨⟨[c], []⟩, [], by simp [lines, closes], shown []⟩
      · obtain ⟨l, ls, found, same⟩ := ih single last
        refine ⟨⟨c :: l.body, l.ending⟩, ls, linesOpen closes found, ?_⟩
        rw [← same]
        exact shown (l.body ++ l.ending)

end SelectorRank.Text
