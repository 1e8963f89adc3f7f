import SelectorRank.Proofs.Diagnostic

/-! What is said of the lines of a document. Texts that are noted down are those of the lines before,
each beside the first of these lines that holds it; so a warning names that line, and is given for
nothing else. -/
namespace SelectorRank
open Text

def BlankLine (l : Line) : Prop := (contentOf l.body).text = []

instance (l : Line) : Decidable (BlankLine l) := by unfold BlankLine; infer_instance

def lineTexts (l : Line) : List String :=
  if BlankLine l then []
  else match parseList (lineSource l) with
    | .ok selectors => selectors.map Selector.text
    | .error _ => []

def firstHolding? (before : List Line) (text : String) : Option Nat :=
  before.findIdx? fun l => decide (text ∈ lineTexts l)

/-- Where an error is marked: at the place that the complaint names, moved into the line, or along the
text between the blanks. -/
def Placed (l : Line) (c : Complaint) (first last : Nat) : Prop :=
  match c.position with
  | some p => (first : Int) = (contentOf l.body).indent + p.offset ∧ last = first + 1
  | none => first = (contentOf l.body).indent ∧ last = first + (contentOf l.body).text.length

def warning (number : Nat) (l : Line) (first : Nat) (text : String) : Diagnostic where
  line := number
  first := (contentOf l.body).indent
  last := (contentOf l.body).indent + (contentOf l.body).text.length
  severity := .warning
  message := "duplicate selector " ++ quoted text ++ " (first on line " ++
    String.ofList (natural (first + 1)) ++ ")"

inductive Marks (before : List Line) (l : Line) : List Diagnostic → Prop where
  | blank (empty : BlankLine l) : Marks before l []
  | rejected {c first last} (some : ¬ BlankLine l)
      (failed : parseList (lineSource l) = .error (.rejected c)) (placed : Placed l c first last) :
      Marks before l [⟨before.length, first, last, .error, c.detail⟩]
  | read {selectors} (some : ¬ BlankLine l) (read : parseList (lineSource l) = .ok selectors) :
      Marks before l ((selectors.map Selector.text).filterMap fun text =>
        (firstHolding? before text).map (warning before.length l · text))

inductive Reports : List Line → List Line → List Diagnostic → Prop where
  | nil (before) : Reports before [] []
  | cons {before l ls part found} (line : Marks before l part)
      (rest : Reports (before ++ [l]) ls found) : Reports before (l :: ls) (part ++ found)

/-! Texts that are noted down. -/

/-- What is noted down after some lines and the first texts of another one. -/
def Notes (before : List Line) (own : List String) (seen : FirstLines) : Prop :=
  ∀ text, seen.lookup text =
    (firstHolding? before text).or (if text ∈ own then some before.length else none)

section
variable {before : List Line} {own : List String} {seen : FirstLines} {l : Line}

theorem firstHoldingBound {text : String} {first : Nat} (found : firstHolding? before text = some first) :
    first < before.length :=
  (List.findIdx?_eq_some_iff_getElem.mp found).1

theorem notesOld {text : String} {first : Nat} (notes : Notes before own seen)
    (found : seen.lookup text = some first) : Notes before (own ++ [text]) seen := by
  intro other
  rw [notes other]
  by_cases same : other = text
  · subst same
    rw [notes other] at found
    cases held : firstHolding? before other with
    | some first => rfl
    | none =>
      have member : other ∈ own := by
        by_contra missing
        simp [held, missing] at found
      simp [member]
  · simp [same]

theorem notesNew {text : String} (notes : Notes before own seen) (missing : seen.lookup text = none) :
    Notes before (own ++ [text]) ((text, before.length) :: seen) := by
  intro other
  by_cases same : other = text
  · subst same
    rw [notes other] at missing
    simp [Option.or_eq_none_iff.mp missing]
  · have differs : (other == text) = false := by simpa using same
    rw [List.lookup_cons, differs]
    simpa [same] using notes other

theorem repetitionsMark (texts : List String) (notes : Notes before own seen) :
    ∃ seen', repetitions before.length (contentOf l.body) seen texts =
        (texts.filterMap fun text =>
          (firstHolding? before text).map (warning before.length l · text), seen') ∧
      Notes before (own ++ texts) seen' := by
  induction texts generalizing own seen with
  | nil => exact ⟨seen, rfl, by rwa [List.append_nil]⟩
  | cons text rest ih =>
    rw [List.append_cons]
    cases found : seen.lookup text with
    | none =>
      obtain ⟨seen', done, after⟩ := ih (notesNew notes found)
      have fresh := (notes text).symm.trans found
      refine ⟨seen', ?_, after⟩
      simp [repetitions, found, done, (Option.or_eq_none_iff.mp fresh).1]
    | some first =>
      obtain ⟨seen', done, after⟩ := ih (notesOld notes found)
      refine ⟨seen', ?_, after⟩
      have known := (notes text).symm.trans found
      simp only [repetitions, found, done, List.filterMap_cons]
      cases held : firstHolding? before text with
      | some other =>
        rw [held] at known
        obtain rfl : other = first := Option.some.inj known
        have apart := Nat.ne_of_lt (firstHoldingBound held)
        simp [apart, repetition, warning]
      | none =>
        -- the text is one of this line's own, and those are not warned of
        rw [held] at known
        have here : before.length = first := by
          by_contra other
          simp [other] at known
        simp [here]

theorem notesLine (notes : Notes before (lineTexts l) seen) : Notes (before ++ [l]) [] seen := by
  intro text
  rw [notes text, firstHolding?, firstHolding?, List.findIdx?_append]
  by_cases held : text ∈ lineTexts l <;> simp [held]

end

/-! Complaints and their places. -/

theorem complainOfPlace {source : String} {fault : GrammarFault} {c : Complaint} {p : Position}
    (failed : complainOf source fault = .rejected c) (position : c.position = some p) :
    ∃ k : Nat, p.offset = k ∧ k ≤ source.toList.length := by
  unfold complainOf at failed
  split at failed
  · cases failed
    cases position
  · split at failed
    · cases failed
      cases position
      exact ⟨_, ofOffsetOffset _ _, Nat.min_le_right _ _⟩
    · cases failed

theorem convertNowhere {source : String} {w : Written} {c : Complaint}
    (failed : convert source w = .error (.rejected c)) : c.position = none := by
  unfold convert at failed
  split at failed
  · cases failed
  · cases failed
    rfl

theorem rejectedPlace {source : String} {c : Complaint} {p : Position}
    (failed : parseList source = .error (.rejected c)) (position : c.position = some p) :
    ∃ k : Nat, p.offset = k ∧ k ≤ source.toList.length := by
  unfold parseList at failed
  split at failed
  · exact complainOfPlace (Except.error.inj failed) position
  · obtain ⟨w, _, failed⟩ := mapMFails failed
    cases (convertNowhere failed).symm.trans position

theorem rejectionPlaced {l : Line} {c : Complaint} (number : Nat)
    (failed : parseList (lineSource l) = .error (.rejected c)) :
    ∃ first last, Placed l c first last ∧
      rejection number (contentOf l.body) c = ⟨number, first, last, .error, c.detail⟩ := by
  unfold Placed rejection
  cases position : c.position with
  | none => exact ⟨_, _, ⟨rfl, rfl⟩, rfl⟩
  | some p =>
    obtain ⟨k, offset, _⟩ := rejectedPlace failed position
    refine ⟨_, _, ⟨?_, rfl⟩, rfl⟩
    simp [offset]

/-! Lines and documents. -/

section
variable {before ls : List Line} {l : Line} {seen : FirstLines}

theorem lineTextsRead {selectors : List Selector} (some : ¬ BlankLine l)
    (read : parseList (lineSource l) = .ok selectors) :
    lineTexts l = selectors.map Selector.text := by
  rw [lineTexts, if_neg some, read]

theorem lineTextsRejected {failure : ParseFailure}
    (failed : parseList (lineSource l) = .error failure) : lineTexts l = [] := by
  rw [lineTexts, failed]
  exact ite_self _

theorem diagnoseLineMarks (settles : ¬ BlankLine l → Settles (lineSource l))
    (notes : Notes before [] seen) :
    ∃ part seen', diagnoseLine before.length l.body seen = .ok (part, seen') ∧
      Marks before l part ∧ Notes (before ++ [l]) [] seen' := by
  unfold diagnoseLine
  dsimp only
  split
  · next empty =>
    have texts : lineTexts l = [] := if_pos empty
    refine ⟨[], seen, rfl, .blank empty, notesLine ?_⟩
    rwa [texts]
  · next full =>
    rw [← lineSource]
    cases outcome : parseList (lineSource l) with
    | ok selectors =>
      obtain ⟨seen', done, after⟩ := repetitionsMark (l := l) (selectors.map Selector.text) notes
      refine ⟨_, seen', congrArg Except.ok done, .read full outcome, notesLine ?_⟩
      rwa [lineTextsRead full outcome]
    | error failure =>
      cases failure with
      | longOffset digits => exact absurd outcome (settles full digits)
      | rejected c =>
        obtain ⟨first, last, placed, same⟩ := rejectionPlaced before.length outcome
        refine ⟨_, seen, rfl, same ▸ .rejected full outcome placed, notesLine ?_⟩
        rwa [lineTextsRejected outcome]

theorem diagnoseFromReports (settles : ∀ l ∈ ls, ¬ BlankLine l → Settles (lineSource l))
    (notes : Notes before [] seen) :
    ∃ found, diagnoseFrom before.length seen ls = .ok found ∧ Reports before ls found := by
  induction ls generalizing before seen with
  | nil => exact ⟨[], rfl, .nil before⟩
  | cons l ls ih =>
    obtain ⟨first, rest⟩ := List.forall_mem_cons.mp settles
    obtain ⟨part, seen', line, marks, noted⟩ := diagnoseLineMarks first notes
    obtain ⟨found, others, reports⟩ := ih rest noted
    rw [List.length_append, List.length_singleton] at others
    refine ⟨part ++ found, ?_, .cons marks reports⟩
    simp [diagnoseFrom, line, others, bind, Except.bind]

end

/-! Ranges. -/

theorem contentWithin (body : List Char) :
    (body.drop (contentOf body).indent).take (contentOf body).text.length = (contentOf body).text := by
  have rest : body.drop (contentOf body).indent = body.dropWhile isBlank := by
    have whole : body.takeWhile isBlank ++ body.dropWhile isBlank = body :=
      List.takeWhile_append_dropWhile
    exact (congrArg (List.drop _) whole.symm).trans List.drop_left
  have front : (contentOf body).text <+: body.dropWhile isBlank := by
    have suffix := List.dropWhile_suffix isBlank (l := (body.dropWhile isBlank).reverse)
    simpa [contentOf, trim, trimLeft, trimRight] using List.reverse_prefix.mpr suffix
  rw [rest]
  exact (List.prefix_iff_eq_take.mp front).symm

/-- A range on a line. That of an error starts in the text between the blanks or at its end, that of a
warning covers the text. -/
structure Ranged (l : Line) (d : Diagnostic) : Prop where
  some : d.first < d.last
  after : (contentOf l.body).indent ≤ d.first
  starts : d.severity = .error →
    d.first ≤ (contentOf l.body).indent + (contentOf l.body).text.length
  covers : d.severity = .warning →
    (l.body.drop d.first).take (d.last - d.first) = (contentOf l.body).text

section
variable {before ls : List Line} {l : Line} {part found : List Diagnostic} {d : Diagnostic}

theorem contentSome (some : ¬ BlankLine l) : 0 < (contentOf l.body).text.length :=
  List.length_pos_of_ne_nil some

theorem marksRanged (marks : Marks before l part) (member : d ∈ part) :
    d.line = before.length ∧ Ranged l d := by
  cases marks with
  | blank => cases member
  | @rejected c first last some failed placed =>
    obtain rfl := List.mem_singleton.mp member
    have size := contentSome some
    refine ⟨rfl, ?_⟩
    unfold Placed at placed
    cases position : c.position with
    | none =>
      rw [position] at placed
      obtain ⟨rfl, rfl⟩ := placed
      exact ⟨by simpa using size, Nat.le_refl _, fun _ => Nat.le_add_right .., by simp⟩
    | some p =>
      rw [position] at placed
      obtain ⟨start, rfl⟩ := placed
      obtain ⟨k, offset, bound⟩ := rejectedPlace failed position
      rw [lineSource, String.toList_ofList] at bound
      obtain rfl : first = (contentOf l.body).indent + k := by omega
      exact ⟨Nat.lt_succ_self _, Nat.le_add_right .., fun _ => Nat.add_le_add_left bound _, by simp⟩
  | read some _ =>
    obtain ⟨text, _, warned⟩ := List.mem_filterMap.mp member
    obtain ⟨first, _, rfl⟩ := Option.map_eq_some_iff.mp warned
    have size := contentSome some
    refine ⟨rfl, by simpa [warning] using size, Nat.le_refl _, by simp [warning], fun _ => ?_⟩
    simpa [warning] using contentWithin l.body

theorem reportsRanged (reports : Reports before ls found) (member : d ∈ found) :
    ∃ l, (before ++ ls)[d.line]? = some l ∧ Ranged l d := by
  induction reports with
  | nil => cases member
  | @cons before l ls part found line _ ih =>
    rcases List.mem_append.mp member with here | later
    · obtain ⟨number, ranged⟩ := marksRanged line here
      exact ⟨l, by simp [number], ranged⟩
    · obtain ⟨other, placed, ranged⟩ := ih later
      exact ⟨other, by rwa [List.append_cons], ranged⟩

end

/-- A document whose lines can all be read, to selectors or to a complaint, is reported line by line:
an error for a line that is rejected, and a warning for each text that a line before holds, which names
the first of these. Every range lies on a line of the document. -/
theorem diagnoseReports {document : String}
    (settles : ∀ l ∈ lines document.toList, ¬ BlankLine l → Settles (lineSource l)) :
    ∃ found, diagnose document = .ok found ∧ Reports [] (lines document.toList) found ∧
      ∀ d ∈ found, ∃ l, (lines document.toList)[d.line]? = some l ∧ Ranged l d := by
  have none : Notes [] [] [] := fun _ => rfl
  obtain ⟨found, done, reports⟩ := diagnoseFromReports settles none
  exact ⟨found, done, reports, fun d member => reportsRanged reports member⟩

theorem diagnoseReportsIndented :
    let document := "a>b, .x\n  a,\n\ta  >  b"
    let found := [⟨1, 4, 5, .error, "Expected selector, got <EOF at 2>"⟩,
      ⟨2, 1, 8, .warning, "duplicate selector \x27a > b\x27 (first on line 1)"⟩]
    diagnose document = .ok found ∧ Reports [] (lines document.toList) found := by
  intro document found
  have run : diagnose document = .ok found := by decide +kernel
  have settles : ∀ l ∈ lines document.toList, ¬ BlankLine l → Settles (lineSource l) :=
    fun l member some => settlesIff.mpr ((diagnoseFromGiven 0 [] _).mp ⟨found, run⟩ l member some)
  obtain ⟨_, done, reports, _⟩ := diagnoseReports settles
  cases run.symm.trans done
  exact ⟨run, reports⟩

end SelectorRank
