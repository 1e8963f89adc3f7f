import SelectorRank.Proofs.Series
import SelectorRank.Proofs.Text.Lines
import SelectorRank.Source.Excerpt

/-! The row of a report that shows the source. A place counts its line in line feeds, while the row
is looked up among the lines that any break ends: it belongs to the place if no stray line comes
before the place, and it is whole if no break stands inside the line. -/
namespace SelectorRank
open Text

section LineOfPlace

variable (source : List Char) (k : Nat)

/-- What stands before the line of a place, up to the line feed that ends it. -/
def lineFront : List Char := ((source.take k).reverse.dropWhile (· ≠ '\n')).reverse

def lineBefore : List Char := ((source.take k).reverse.takeWhile (· ≠ '\n')).reverse

def lineAfter : List Char := (source.drop k).takeWhile (· ≠ '\n')

def lineRest : List Char := (source.drop k).dropWhile (· ≠ '\n')

/-- The line of a place, from line feed to line feed, without carriage returns at its end. -/
def lineAround : List Char := trimRight (· = '\r') (lineBefore source k ++ lineAfter source k)

theorem lineTaken : lineFront source k ++ lineBefore source k = source.take k := by
  rw [lineFront, lineBefore, ← List.reverse_append, List.takeWhile_append_dropWhile,
    List.reverse_reverse]

theorem lineParts :
    lineFront source k ++ (lineBefore source k ++ lineAfter source k ++ lineRest source k) =
      source := by
  rw [List.append_assoc, ← List.append_assoc, lineTaken, lineAfter, lineRest,
    List.takeWhile_append_dropWhile, List.take_append_drop]

theorem lineFrontClosed : Closed (lineFront source k) := by
  rw [Closed, lineFront]
  cases front : (source.take k).reverse.dropWhile (· ≠ '\n') with
  | nil => exact .inl rfl
  | cons c cs =>
    have first := List.head?_dropWhile_not (· ≠ '\n') (source.take k).reverse
    rw [front] at first
    obtain rfl : c = '\n' := by simpa using first
    exact .inr ⟨cs.reverse, List.reverse_cons⟩

theorem lineBeforeSingle : '\n' ∉ lineBefore source k := by
  intro within
  have other := List.all_takeWhile (p := (· ≠ '\n')) (l := (source.take k).reverse)
  exact absurd (List.all_eq_true.mp other '\n' (List.mem_reverse.mp within)) (by simp)

theorem lineAfterSingle : '\n' ∉ lineAfter source k := by
  intro within
  have other := List.all_takeWhile (p := (· ≠ '\n')) (l := source.drop k)
  exact absurd (List.all_eq_true.mp other '\n' within) (by simp)

theorem lineRestEnds : lineRest source k = [] ∨ (lineRest source k).head? = some '\n' := by
  rw [lineRest]
  cases rest : (source.drop k).dropWhile (· ≠ '\n') with
  | nil => exact .inl rfl
  | cons c cs =>
    have first := List.head?_dropWhile_not (· ≠ '\n') (source.drop k)
    rw [rest] at first
    obtain rfl : c = '\n' := by simpa using first
    exact .inr rfl

/-- A line that no line feed ends stands before the line of the place. -/
def StrayBefore : Prop := ∃ l ∈ lines (lineFront source k), l.isStray = true

/-- At most carriage returns follow the first break of the line of a place. -/
def WholeLine : Prop := OnlyReturns (lineBefore source k ++ lineAfter source k)

instance : Decidable (StrayBefore source k) := inferInstanceAs (Decidable (∃ l ∈ _, _))

end LineOfPlace

section Report

variable {source : List Char} {k : Nat} {c : Char}

theorem lineAfterStarts (inside : source[k]? = some c) (feed : c ≠ '\n') :
    ∃ cs, lineAfter source k = c :: cs := by
  obtain ⟨bound, here⟩ := List.getElem?_eq_some_iff.mp inside
  refine ⟨(source.drop (k + 1)).takeWhile (· ≠ '\n'), ?_⟩
  rw [lineAfter, List.drop_eq_getElem_cons bound, here, List.takeWhile_cons_of_pos (by simpa)]

theorem lineAroundSplit (inside : source[k]? = some c) (feed : c ≠ '\n') (back : c ≠ '\r') :
    ∃ cs, lineAround source k = lineBefore source k ++ c :: cs := by
  obtain ⟨cs, after⟩ := lineAfterStarts inside feed
  have shown : trimRight (· = '\r') (c :: cs) = c :: trimRight (· = '\r') cs :=
    trimRightCons (by simpa using back) cs
  refine ⟨trimRight (· = '\r') cs, ?_⟩
  rw [lineAround, after, trimRightAppend _ _ (by simp [shown]), shown]

theorem placeOffset (inside : source[k]? = some c) :
    Position.ofOffset source k =
      ⟨(lineFront source k).count '\n' + 1, (lineBefore source k).length + 1, k⟩ := by
  obtain ⟨bound, _⟩ := List.getElem?_eq_some_iff.mp inside
  have within : clampOffset source k = k := by
    rw [clampOffset, Int.toNat_natCast]
    omega
  have count : (source.take k).count '\n' = (lineFront source k).count '\n' := by
    rw [← lineTaken, List.count_append, List.count_eq_zero.mpr (lineBeforeSingle source k),
      Nat.add_zero]
  have since : sinceLineFeed (source.take k) = (lineBefore source k).length := by
    rw [sinceLineFeed, lineBefore, List.length_reverse]
  simp only [Position.ofOffset, within, count, since]

/-! Rows of a report. -/

def gutter (p : Position) : List Char := integer p.line ++ [' ', '|', ' ']

def caretPad (p : Position) : List Char :=
  List.replicate ((integer p.line).length + 1) ' ' ++ ['|', ' '] ++
    List.replicate (p.column - 1).toNat ' '

/-- The rows above the two last ones. -/
def heading (detail name : String) (p : Position) : String :=
  let margin := String.ofList (List.replicate ((integer p.line).length + 1) ' ')
  "error: " ++ detail ++ "\n" ++ margin ++ "--> " ++ name ++ ":" ++
    String.ofList (integer p.line) ++ ":" ++ String.ofList (integer p.column) ++ "\n" ++
    margin ++ "|"

theorem reportRows (detail source : String) (p : Position) (name : String) :
    ((⟨detail, source, some p⟩ : Complaint).report name).toList =
      (heading detail name p).toList ++ '\n' ::
        (gutter p ++ excerptLine source.toList p.line ++ '\n' :: (caretPad p ++ ['^'])) := by
  have bar : "|\n".toList = "|".toList ++ ['\n'] := by decide
  have spaced : " | ".toList = [' ', '|', ' '] := by decide
  have feed : "\n".toList = ['\n'] := by decide
  have short : "| ".toList = ['|', ' '] := by decide
  have caret : "^".toList = ['^'] := by decide
  unfold Complaint.report heading
  dsimp only [gutter, caretPad]
  simp only [String.toList_append, String.toList_ofList, String.length_ofList]
  simp only [bar, spaced, feed, short, caret, List.append_assoc, List.cons_append, List.nil_append]

theorem numeralFeed (p : Position) : '\n' ∉ integer p.line := by
  have digits : '\n' ∉ natural p.line.natAbs := by
    intro within
    cases naturalDigits _ _ within
  rw [integer]
  split <;> simp [digits]

theorem excerptFeed (source : List Char) (line : Int) : '\n' ∉ excerptLine source line := by
  rw [excerptLine]
  split
  · simp
  · split
    · next l found => exact shownFeed (linesShaped source l (List.mem_of_getElem? found))
    · simp

theorem excerptFound {l : Line} {n : Nat} (found : (lines source)[n]? = some l) :
    excerptLine source (n + 1) = l.shown := by
  have index : ((n : Int) + 1 - 1).toNat = n := by omega
  rw [excerptLine, if_neg (by omega), index, found, Line.shown]

/-- The last two rows are the line of a place behind a gutter, and a caret as far along as the
place is in the row above. -/
def Points (source : List Char) (k : Nat) (report : String) : Prop :=
  ∃ pad, [gutter (.ofOffset source k) ++ lineAround source k, pad ++ ['^']] <:+
      report.toList.splitOn '\n' ∧ '^' ∉ pad ∧
    pad.length = (gutter (.ofOffset source k)).length + (lineBefore source k).length ∧
    (gutter (.ofOffset source k) ++ lineAround source k)[pad.length]? = source[k]?

/-- The caret is always in its place, so all depends on the row above it. -/
theorem pointsExcerpt {source : String} (inside : source.toList[k]? = some c) (feed : c ≠ '\n')
    (back : c ≠ '\r') (detail name : String) :
    Points source.toList k ((⟨detail, source, some (.ofOffset source.toList k)⟩ : Complaint).report
        name) ↔
      excerptLine source.toList (Position.ofOffset source.toList k).line =
        lineAround source.toList k := by
  set p := Position.ofOffset source.toList k with place
  have column : (p.column - 1).toNat = (lineBefore source.toList k).length := by
    rw [place, placeOffset inside]
    exact congrArg Int.toNat (Int.add_sub_cancel _ 1)
  have row : '\n' ∉ gutter p ++ excerptLine source.toList p.line := by
    simp [gutter, numeralFeed, excerptFeed]
  have caret : '\n' ∉ caretPad p ++ ['^'] := by simp [caretPad]
  rw [Points, reportRows, List.splitOn_append_cons_self,
    List.splitOn_append_cons_self_of_not_mem row, List.splitOn_eq_singleton caret]
  constructor
  · rintro ⟨pad, ends, _⟩
    have same := (List.suffix_of_suffix_length_le ends (List.suffix_append _ _)
      (Nat.le_refl 2)).eq_of_length rfl
    exact (List.append_cancel_left (List.cons.inj same).1).symm
  · intro shown
    obtain ⟨cs, split⟩ := lineAroundSplit inside feed back
    have length : (caretPad p).length = (gutter p).length + (lineBefore source.toList k).length := by
      simp only [caretPad, gutter, column, List.length_append, List.length_replicate,
        List.length_cons, List.length_nil]
    refine ⟨caretPad p, ?_, by simp [caretPad], length, ?_⟩
    · rw [shown]
      exact List.suffix_append _ _
    · rw [length, List.getElem?_append_right (Nat.le_add_right _ _), Nat.add_sub_cancel_left,
        split,
        List.getElem?_append_right (Nat.le_refl _), Nat.sub_self, inside]
      rfl

/-! The row above the caret. -/

theorem excerptPlain (inside : source[k]? = some c) (feed : c ≠ '\n')
    (plain : ¬StrayBefore source k) :
    excerptLine source (Position.ofOffset source k).line = lineAround source k ↔
      WholeLine source k := by
  obtain ⟨cs, after⟩ := lineAfterStarts inside feed
  have single : '\n' ∉ lineBefore source k ++ lineAfter source k := by
    simp [lineBeforeSingle, lineAfterSingle]
  obtain ⟨l, ls, first, shown⟩ := firstShown single (lineRestEnds source k) (by simp [after])
  have none : (lines (lineFront source k)).countP Line.isStray = 0 :=
    List.countP_eq_zero.mpr fun l within stray => plain ⟨l, within, stray⟩
  have count := linesCount (lineFront source k)
  rw [none, Nat.add_zero] at count
  have found : (lines source)[(lineFront source k).count '\n']? = some l := by
    rw [← lineParts source k, linesClosed (lineFrontClosed source k), lineParts, first, ← count,
      List.getElem?_append_right (Nat.le_refl _), Nat.sub_self]
    rfl
  rw [placeOffset inside, excerptFound found, shown, lineAround, untilBreakShown, WholeLine]

theorem excerptStray (inside : source[k]? = some c) (stray : StrayBefore source k) :
    ∃ before l after, lines source = before ++ l :: after ∧
      before.length = (lineFront source k).count '\n' ∧
      (before ++ [l]).flatMap Line.whole <+: lineFront source k ∧
      excerptLine source (Position.ofOffset source k).line = l.shown := by
  obtain ⟨shift, within, is⟩ := stray
  have positive : 0 < (lines (lineFront source k)).countP Line.isStray :=
    List.countP_pos_iff.mpr ⟨shift, within, is⟩
  have count := linesCount (lineFront source k)
  have bound : (lineFront source k).count '\n' < (lines (lineFront source k)).length := by omega
  have cut := List.take_append_drop ((lineFront source k).count '\n') (lines (lineFront source k))
  rw [List.drop_eq_getElem_cons bound] at cut
  have length := List.length_take_of_le (Nat.le_of_lt bound)
  have whole := linesWhole (lineFront source k)
  set before := (lines (lineFront source k)).take ((lineFront source k).count '\n')
  set l := (lines (lineFront source k))[(lineFront source k).count '\n']
  set after := (lines (lineFront source k)).drop ((lineFront source k).count '\n' + 1)
  have all : lines source = before ++ l :: (after ++
      lines (lineBefore source k ++ lineAfter source k ++ lineRest source k)) := by
    rw [← List.cons_append, ← List.append_assoc, cut, ← linesClosed (lineFrontClosed source k),
      lineParts]
  refine ⟨before, l, _, all, length, ⟨after.flatMap Line.whole, ?_⟩, ?_⟩
  · rw [← List.flatMap_append, List.append_assoc, List.singleton_append, cut, whole]
  · rw [placeOffset inside]
    refine excerptFound ?_
    rw [all, ← length, List.getElem?_append_right (Nat.le_refl _), Nat.sub_self]
    rfl

/-- Where only line feeds end the lines before a place, a report points at it if and only if the
line is whole. Otherwise the row shown is an earlier line, and the report points at the place if
and only if that line reads the same. -/
theorem excerptPoints {source : String} {k : Nat} {c : Char} (inside : source.toList[k]? = some c)
    (feed : c ≠ '\n') (back : c ≠ '\r') (detail name : String) :
    let report :=
      (⟨detail, source, some (.ofOffset source.toList k)⟩ : Complaint).report name
    (¬StrayBefore source.toList k →
      (Points source.toList k report ↔ WholeLine source.toList k)) ∧
    (StrayBefore source.toList k →
      ∃ before l after, lines source.toList = before ++ l :: after ∧
        before.length = (lineFront source.toList k).count '\n' ∧
        (before ++ [l]).flatMap Line.whole <+: lineFront source.toList k ∧
        (Points source.toList k report ↔ l.shown = lineAround source.toList k)) := by
  have excerpt := pointsExcerpt inside feed back detail name
  constructor
  · intro plain
    rw [excerpt, excerptPlain inside feed plain]
  · intro stray
    obtain ⟨before, l, after, all, length, front, shown⟩ := excerptStray inside stray
    refine ⟨before, l, after, all, length, front, ?_⟩
    rw [excerpt, shown]

/-- A form feed in the first line moves the row of the second line up by one. -/
theorem excerptPointsFormFeed :
    let source := "a\x0c\n$"
    StrayBefore source.toList 3 ∧
      ¬Points source.toList 3 ((⟨"", source, some (.ofOffset source.toList 3)⟩ : Complaint).report
        unnamedSource) := by
  have stray : StrayBefore "a\x0c\n$".toList 3 := by decide
  refine ⟨stray, ?_⟩
  have rows : lines "a\x0c\n$".toList =
      [⟨['a'], ['\x0c']⟩, ⟨[], ['\n']⟩, ⟨['$'], []⟩] := by decide
  have place : (lineFront "a\x0c\n$".toList 3).count '\n' = 1 := by decide
  obtain ⟨before, l, after, all, length, _, points⟩ :=
    (excerptPoints (c := '$') (by decide) (by decide) (by decide) "" unnamedSource).2 stray
  have second : (lines "a\x0c\n$".toList)[1]? = some l := by
    rw [all, ← place, ← length, List.getElem?_append_right (Nat.le_refl _), Nat.sub_self]
    rfl
  rw [rows] at second
  obtain rfl : (⟨[], ['\n']⟩ : Line) = l := Option.some.inj second
  exact fun pointed => absurd (points.mp pointed) (by decide)

end Report

end SelectorRank
