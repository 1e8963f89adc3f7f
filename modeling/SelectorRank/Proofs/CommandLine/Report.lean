import SelectorRank.CommandLine.Report
import SelectorRank.Proofs.Declaration.Weight
import SelectorRank.Proofs.Store
import SelectorRank.Proofs.Token.Control

/-! Reports of lines, read back. No specificity and no canonical text holds a line feed or a tab, if
no name that is written as it stands does, so the lines and their two fields can be told apart. -/
namespace SelectorRank.CommandLine

/-- A declaration of a style sheet, by its selector, which passed the check and can be written. -/
structure Reported (d : Declaration) (s : Selector) : Prop where
  origin : ∃ origin : Origin, origin ≠ .inline ∧ d.origin = .known origin
  matched : d.matched = .selector s
  sound : s.Sound
  short : areWritable s.tokens = true

/-- The fields of a line, which is cut at its first tab. -/
def fieldsOf (line : List Char) : List Char × List Char :=
  (line.takeWhile (· ≠ '\t'), (line.dropWhile (· ≠ '\t')).tail)

/-! Rows. -/

def Row.fields (r : Row) : List Char × List Char := (r.specificity.text.toList, r.text.toList)

/-- A line without the line feed that ends it. -/
def Row.chars (r : Row) : List Char :=
  r.specificity.text.toList ++ '\t' :: r.text.toList

theorem lineChars (r : Row) : r.line.toList = r.chars ++ ['\n'] := by
  simp [Row.line, Row.chars]

theorem tabCut {front : List Char} (none : '\t' ∉ front) (back : List Char) :
    fieldsOf (front ++ '\t' :: back) = (front, back) := by
  have whole : ∀ c ∈ front, decide (c ≠ '\t') = true := by
    intro c member
    exact decide_eq_true fun tab => none (tab ▸ member)
  rw [fieldsOf, List.takeWhile_append_of_pos whole, List.dropWhile_append_of_pos whole]
  simp

theorem rowCut (r : Row) : fieldsOf r.chars = r.fields := by
  have none : '\t' ∉ r.specificity.text.toList :=
    fun tab => specificityNoControl r.specificity _ tab (by decide)
  rw [Row.chars, tabCut none, Row.fields]

theorem rowSingle {r : Row} (clean : HasNoControl r.text.toList) : '\n' ∉ r.chars := by
  have feed : IsControl '\n' := by decide
  rw [Row.chars, List.mem_append, List.mem_cons]
  rintro (front | tab | back)
  · exact specificityNoControl r.specificity _ front feed
  · cases tab
  · exact clean _ back feed

theorem reportLines {rows : List Row} (single : ∀ r ∈ rows, '\n' ∉ r.chars) :
    (report .text rows).toList.splitOn '\n' = rows.map Row.chars ++ [[]] := by
  rw [report, String.toList_join, List.flatMap_map]
  induction rows with
  | nil => rfl
  | cons r rows ih =>
    obtain ⟨first, rest⟩ := List.forall_mem_cons.mp single
    rw [List.flatMap_cons, lineChars, List.append_assoc, List.singleton_append,
      List.splitOn_append_cons_self_of_not_mem first, ih rest]
    rfl

/-! Declarations. -/

def fieldsOfSelector (s : Selector) : List Char × List Char :=
  (s.specificity.text.toList, (canonicalText s.tokens).toList)

theorem rowReported {d : Declaration} {s : Selector} (reported : Reported d s) :
    ∃ r, Row.of d = .ok r ∧ r.fields = fieldsOfSelector s := by
  obtain ⟨⟨origin, sheet, known⟩, matched, sound, _⟩ := reported
  have row : Declaration.Sheet origin d.isImportant s.tokens d :=
    ⟨sheet, known, rfl, s, matched, rfl, sound.weighed⟩
  obtain ⟨level, ranked, _⟩ := Declaration.sheetPrecedence row row
  have text : s.text = canonicalText s.tokens := (Selector.freshWritten sound).symm
  refine ⟨⟨matchedText? d.matched, specificityOf s.tokens, level⟩, ?_, ?_⟩
  · rw [Row.of, Declaration.sheetSpecificity row, ranked]
    rfl
  · rw [Row.fields, fieldsOfSelector, matched, matchedText?, text, sound.weighed]
    rfl

theorem rowsReported {ds : List Declaration} {selectors : List Selector}
    (reported : List.Forall₂ Reported ds selectors) :
    ∃ rows, ds.mapM Row.of = .ok rows ∧ rows.map Row.fields = selectors.map fieldsOfSelector := by
  induction reported with
  | nil => exact ⟨[], rfl, rfl⟩
  | cons first _ ih =>
    obtain ⟨r, made, fields⟩ := rowReported first
    obtain ⟨rows, others, rest⟩ := ih
    refine ⟨r :: rows, ?_, by rw [List.map_cons, List.map_cons, fields, rest]⟩
    rw [List.mapM_cons, made, others]
    rfl

theorem textsReported {ds : List Declaration} {selectors : List Selector}
    (reported : List.Forall₂ Reported ds selectors) :
    ∀ s ∈ selectors, s.text? = some (canonicalText s.tokens) := by
  induction reported with
  | nil => simp
  | cons first _ ih =>
    exact List.forall_mem_cons.mpr ⟨first.sound.text.trans (if_pos first.short), ih⟩

/-- Declarations of style sheets whose selectors passed the check and can be written are reported in
order, one line each, which is the specificity, a tab and the canonical text. Cutting the report at
its line feeds and the lines at their first tabs gives those back, if the names that are written as
they stand hold no control characters, since the canonical texts then hold none either. -/
theorem reportReadBack {ds : List Declaration} {selectors : List Selector}
    (reported : List.Forall₂ Reported ds selectors)
    (plain : ∀ s ∈ selectors, HavePlainNames s.tokens) :
    (∀ s ∈ selectors, s.text? = some (canonicalText s.tokens) ∧
      HasNoControl (canonicalText s.tokens).toList) ∧
    ∃ rows lines, ds.mapM Row.of = .ok rows ∧
      (report .text rows).toList.splitOn '\n' = lines ++ [[]] ∧
      lines.map fieldsOf = selectors.map fieldsOfSelector := by
  have clean : ∀ s ∈ selectors, HasNoControl (canonicalText s.tokens).toList := by
    intro s member
    rw [canonicalText, String.toList_ofList]
    exact (tokensNoControl.2 s.tokens).mpr (plain s member)
  obtain ⟨rows, made, fields⟩ := rowsReported reported
  have single : ∀ r ∈ rows, '\n' ∉ r.chars := by
    intro r member
    have told : r.fields ∈ selectors.map fieldsOfSelector := fields ▸ List.mem_map_of_mem member
    obtain ⟨s, given, same⟩ := List.mem_map.mp told
    have text : r.text.toList = (canonicalText s.tokens).toList :=
      congrArg Prod.snd same.symm
    exact rowSingle (text ▸ clean s given)
  refine ⟨fun s member => ⟨textsReported reported s member, clean s member⟩, rows, _, made,
    reportLines single, ?_⟩
  rw [List.map_map, ← fields]
  exact List.map_congr_left fun r _ => rowCut r

theorem reportReadBackForged :
    let count : Token := .usual (.pseudoClass "nth-child" (some (.series ⟨-1, 3⟩)))
    let forged : Token := .usual (.attributeValue "a\n0,0,0,9" .equals "b\tc" (.named "\x7f"))
    let s : Selector := (Selector.ofTokens [.not [forged, count]]).kept
    let d : Declaration := ⟨.known .user, .bool true, .selector s⟩
    Reported d s ∧ HavePlainNames s.tokens ∧
      s.text? = some ":not([\\7f |a\\a 0\\,0\\,0\\,9=\"b\\9 c\"]:nth-child(-n+3))" ∧
      ∃ rows lines, [d, d].mapM Row.of = .ok rows ∧
        (report .text rows).toList.splitOn '\n' = lines ++ [[]] ∧
        lines.map fieldsOf = [s, s].map fieldsOfSelector := by
  intro count forged s d
  have checked : (Datum.list (tokenData [.not [forged, count]])).check =
    .ok [.not [forged, count]] := rfl
  have told : Reported d s :=
    ⟨⟨.user, by decide, rfl⟩, rfl, Selector.keptSound (Selector.constructedSound checked), rfl⟩
  have name : HasNoControl "nth-child".toList := by decide
  have plain : HavePlainNames s.tokens := ⟨⟨trivial, name, trivial⟩, trivial⟩
  have reported : List.Forall₂ Reported [d, d] [s, s] := .cons told (.cons told .nil)
  obtain ⟨texts, read⟩ := reportReadBack reported (by simp [plain])
  obtain ⟨written, _⟩ := texts s List.mem_cons_self
  refine ⟨told, plain, written.trans (congrArg some ?_), read⟩
  decide

end SelectorRank.CommandLine
