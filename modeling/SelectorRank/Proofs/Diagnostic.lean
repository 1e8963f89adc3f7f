import SelectorRank.Diagnostic
import SelectorRank.Proofs.Parse.Place
import SelectorRank.Proofs.Parse.Shape
import SelectorRank.Proofs.Store

/-! How reading a source can end. It gives selectors, or a complaint, or comes to nothing where the
message of the grammar names a place whose number is too long to be read. -/
namespace SelectorRank
open Text

/-- The first place that the grammar's message names has more digits than a numeral may have. -/
def NamesLongPlace (source : String) : Prop :=
  ∃ fault digits, readSource source.toList = .error fault ∧
    findPlace? fault.message.toList = some digits ∧ numeralLimit < digits.length

/-! Such places. A string is quoted in the message as it stands, so what it says about a place is
found before the place of the string itself. -/

def spuriousPlace (n : Nat) : List Char := [' ', 'a', 't', ' '] ++ List.replicate n '1' ++ ['>']

theorem stringRejected (value : String) (visible : HasNoNull value.toList)
    (clear : Clear value.toList) : ∃ start, readSource (Spelling.string value.toList) =
      .error (.expected .selector ⟨.string value, start⟩) := by
  have whole := readableWhole (stringNoNull visible)
  have place : (Cursor.ofSource (Spelling.string value.toList)).At
      (Spelling.string value.toList ++ []) := ⟨0, by
    rw [List.append_nil, Cursor.ofSource, lexemes, whole]⟩
  have takes := Cursor.takes place (cutString [] visible clear)
  rw [String.ofList_toList] at takes
  obtain ⟨start, peek⟩ := takes.peek
  have skip := takes.skip (by simp)
  refine ⟨start, ?_⟩
  unfold readSource
  dsimp only
  generalize Cursor.ofSource (Spelling.string value.toList) = c at peek skip ⊢
  obtain ⟨n, bound⟩ : ∃ n, callBound c = n + 3 := ⟨4 * c.rest.length + 5, rfl⟩
  have test : readElement c = .ok (none, c) := by simp [readElement, peek, bind, Except.bind]
  rw [bound, readList, readCompound]
  simp only [skip, test, bind, Except.bind]
  rw [readParts]
  simp [peek, Shape.endsCompound, bind, Except.bind]

theorem findSpurious (n : Nat) :
    findPlace? (spuriousPlace (n + 1)) = some (List.replicate (n + 1) 1) := by
  have digits : ∀ c ∈ List.replicate (n + 1) '1', isDigit c = true := by
    intro c member
    rw [List.eq_of_mem_replicate member]
    rfl
  have value : digitValue? '1' = some 1 := rfl
  have read : placeDigits? (List.replicate (n + 1) '1' ++ ['>']) =
      some (List.replicate (n + 1) 1) := by
    rw [placeDigitsRead [] (by simp) digits]
    simp [value]
  rw [spuriousPlace, List.append_assoc, List.cons_append, findPlaceCons]
  simp [placeAt?, read]

/-- A string that says so names a place of any number of digits. -/
theorem namesLongPlaceQuoted {n : Nat} (long : numeralLimit < n) :
    NamesLongPlace (Spelling.stringText (String.ofList (spuriousPlace n))) := by
  obtain ⟨n, rfl⟩ : ∃ m, n = m + 1 := ⟨n - 1, by omega⟩
  have visible : HasNoNull (spuriousPlace (n + 1)) := by
    simp [spuriousPlace, HasNoNull]
  have clear : Clear (spuriousPlace (n + 1)) := clearUnmarked (by simp [spuriousPlace])
  have chars : (String.ofList (spuriousPlace (n + 1))).toList = spuriousPlace (n + 1) :=
    String.toList_ofList
  obtain ⟨start, rejected⟩ := stringRejected (String.ofList (spuriousPlace (n + 1)))
    (by rwa [chars]) (by rwa [chars])
  refine ⟨.expected .selector ⟨.string (String.ofList (spuriousPlace (n + 1))), start⟩,
    List.replicate (n + 1) 1, ?_, ?_, ?_⟩
  · rw [Spelling.stringText, String.toList_ofList]
    exact rejected
  · simp [findExpected, namedPlace, Shape.value, findSpurious]
  · rwa [List.length_replicate]

/-! Selectors are made of their tokens by a check, which never fails for those of a source. -/

def convertChecked (source : String) (w : Written) : Except Failure Selector := do
  let s ← (convert source w).mapError .parse
  let tokens ← (Datum.list (tokenData s.tokens)).check.mapError .token
  .ok (.ofTokens tokens)

def parseChecked (source : String) : Except Failure (List Selector) :=
  match readSource source.toList with
  | .error f => .error (.parse (complainOf source f))
  | .ok list => list.mapM (convertChecked source)

theorem convertCheckedSame {source : String} {w : Written}
    (shaped : ∀ tokens, w.tokens = .ok tokens → parsed.IsSelector tokens) :
    convertChecked source w = (convert source w).mapError .parse := by
  unfold convertChecked convert
  cases converted : w.tokens with
  | error f => rfl
  | ok tokens =>
    simp [Except.mapError, bind, Except.bind, Selector.ofTokens, parsedChecked (shaped tokens converted)]

theorem parseCheckedSame (source : String) :
    parseChecked source = (parseList source).mapError .parse := by
  unfold parseChecked parseList
  cases read : readSource source.toList with
  | error f => rfl
  | ok list =>
    exact mapMError fun w member => convertCheckedSame fun tokens => sourceShaped read member

/-! Sources. -/

theorem convertRejected {source : String} {w : Written} {failure : ParseFailure}
    (failed : convert source w = .error failure) : ∃ c, failure = .rejected c := by
  unfold convert at failed
  split at failed
  · cases failed
  · cases failed
    exact ⟨_, rfl⟩

/-- How reading ends. What was read is never empty and can be written. -/
inductive Ended (source : String) : Except ParseFailure (List Selector) → Prop where
  | read {selectors} (placed : ¬ NamesLongPlace source) (some : selectors ≠ [])
      (written : ∀ s ∈ selectors, s.text? = .some s.text) : Ended source (.ok selectors)
  | rejected {c} (placed : ¬ NamesLongPlace source) : Ended source (.error (.rejected c))
  | overlong {digits} (names : NamesLongPlace source) : Ended source (.error (.longOffset digits))

theorem complainEnded {source : String} {fault : GrammarFault}
    (read : readSource source.toList = .error fault) :
    Ended source (.error (complainOf source fault)) := by
  unfold complainOf
  split
  · next none =>
    refine .rejected ?_
    rintro ⟨_, digits, read', found, _⟩
    cases read.symm.trans read'
    cases none.symm.trans found
  · next digits found =>
    split
    · next short =>
      refine .rejected ?_
      rintro ⟨_, digits', read', found', long⟩
      cases read.symm.trans read'
      cases found.symm.trans found'
      omega
    · next long => exact .overlong ⟨fault, digits, read, found, by omega⟩

theorem parseListEnded (source : String) : Ended source (parseList source) := by
  cases read : readSource source.toList with
  | error fault =>
    rw [parseList, read]
    exact complainEnded read
  | ok list =>
    have placed : ¬ NamesLongPlace source := by
      rintro ⟨_, _, read', _⟩
      cases read.symm.trans read'
    cases ended : parseList source with
    | error failure =>
      rw [parseList, read] at ended
      obtain ⟨w, _, failed⟩ := mapMFails ended
      obtain ⟨c, rfl⟩ := convertRejected failed
      exact .rejected placed
    | ok selectors =>
      obtain ⟨tokens, seqs, rfl, shaped⟩ := parseListShape (sourceStarts source.toList) ended
      refine .read placed (by simp) (List.forall_mem_map.mpr fun given member => ?_)
      have shape := Vocabulary.selectorWithin lexiconParsed (shaped given member)
      have writable := regularWritable (regularSelector shape)
      simp [Selector.text?, Selector.text, Selector.ofTokens, writeTokens, writable]

/-- Reading a source gives selectors or a complaint, and does not fail in any other way. -/
def Settles (source : String) : Prop := ∀ digits, parseList source ≠ .error (.longOffset digits)

theorem settlesIff {source : String} : Settles source ↔ ¬ NamesLongPlace source := by
  have ended := parseListEnded source
  unfold Settles
  generalize parseList source = outcome at ended
  cases ended with
  | read placed _ _ => simp [placed]
  | rejected placed => simp [placed]
  | overlong names => simp [names]

theorem isValidGiven (source : String) :
    (∃ verdict, isValid source = .ok verdict) ↔ ¬ NamesLongPlace source := by
  have ended := parseListEnded source
  unfold isValid
  generalize parseList source = outcome at ended
  cases ended with
  | read placed _ _ => exact ⟨fun _ => placed, fun _ => ⟨true, rfl⟩⟩
  | rejected placed => exact ⟨fun _ => placed, fun _ => ⟨false, rfl⟩⟩
  | overlong names => exact ⟨fun ⟨_, ok⟩ => (by cases ok), fun placed => absurd names placed⟩

/-! Documents. -/

/-- What is read of a line; it is empty where the line is blank. -/
def lineSource (l : Line) : String := String.ofList (contentOf l.body).text

theorem diagnoseLineGiven (number : Nat) (l : Line) (seen : FirstLines) :
    (∃ found, diagnoseLine number l.body seen = .ok found) ↔
      ((contentOf l.body).text ≠ [] → ¬ NamesLongPlace (lineSource l)) := by
  unfold diagnoseLine
  dsimp only
  split
  · next blank => exact ⟨fun _ some => absurd blank some, fun _ => ⟨_, rfl⟩⟩
  · next some =>
    have ended := parseListEnded (lineSource l)
    unfold lineSource at ended ⊢
    generalize parseList (String.ofList (contentOf l.body).text) = outcome at ended
    cases ended with
    | read placed _ _ => exact ⟨fun _ _ => placed, fun _ => ⟨_, rfl⟩⟩
    | rejected placed => exact ⟨fun _ _ => placed, fun _ => ⟨_, rfl⟩⟩
    | overlong names => exact ⟨fun ⟨_, ok⟩ => (by cases ok), fun placed => absurd names (placed some)⟩

theorem diagnoseFromGiven (number : Nat) (seen : FirstLines) (ls : List Line) :
    (∃ found, diagnoseFrom number seen ls = .ok found) ↔
      ∀ l ∈ ls, (contentOf l.body).text ≠ [] → ¬ NamesLongPlace (lineSource l) := by
  induction ls generalizing number seen with
  | nil => exact ⟨fun _ => by simp, fun _ => ⟨_, rfl⟩⟩
  | cons l ls ih =>
    rw [List.forall_mem_cons, ← diagnoseLineGiven number l seen]
    constructor
    · rintro ⟨found, ok⟩
      obtain ⟨first, line, ok⟩ := bindOk ok
      obtain ⟨rest, others, _⟩ := bindOk ok
      exact ⟨⟨first, line⟩, (ih _ _).mp ⟨rest, others⟩⟩
    · rintro ⟨⟨first, line⟩, others⟩
      obtain ⟨rest, ok⟩ := (ih (number + 1) first.2).mpr others
      exact ⟨first.1 ++ rest, by simp [diagnoseFrom, line, ok, bind, Except.bind]⟩

/-- Reading a source ends in selectors that can be written or in a complaint, unless the grammar's
message names a place that is too long. Checking a source for validity and diagnosing a document come
to an end exactly where no such place is named. -/
theorem parseOutcome (source document : String) :
    (NamesLongPlace source ∧
        (∃ digits, parseChecked source = .error (.parse (.longOffset digits))) ∨
      ¬ NamesLongPlace source ∧
        ((∃ selectors, parseChecked source = .ok selectors ∧ selectors ≠ [] ∧
          ∀ s ∈ selectors, s.text? = some s.text) ∨
        ∃ c, parseChecked source = .error (.parse (.rejected c)))) ∧
    ((∃ verdict, isValid source = .ok verdict) ↔ ¬ NamesLongPlace source) ∧
    ((∃ found, diagnose document = .ok found) ↔ ∀ l ∈ lines document.toList,
      (contentOf l.body).text ≠ [] → ¬ NamesLongPlace (lineSource l)) := by
  refine ⟨?_, isValidGiven source, diagnoseFromGiven 0 [] (lines document.toList)⟩
  have ended := parseListEnded source
  rw [parseCheckedSame]
  generalize parseList source = outcome at ended
  cases ended with
  | read placed some written => exact .inr ⟨placed, .inl ⟨_, rfl, some, written⟩⟩
  | rejected placed => exact .inr ⟨placed, .inr ⟨_, rfl⟩⟩
  | overlong names => exact .inl ⟨names, _, rfl⟩

end SelectorRank
