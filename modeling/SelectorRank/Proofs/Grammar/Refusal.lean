import SelectorRank.Proofs.Grammar.Conversion

/-! What a conversion refuses. A tree is refused exactly if something in it has no token, wherever
in the tree it stands, and the fault that is told is of such a thing. In a list the first selector
that is refused decides. -/
namespace SelectorRank

/-! Compounds at any depth: on either side of a combinator, under other parts, in negations. -/

mutual

inductive Complex.Has : Complex → Compound → Prop where
  | compound {c node} : Compound.Has c node → Complex.Has (.compound c) node
  | left {left combinator right node} :
      Complex.Has left node → Complex.Has (.combined left combinator right) node
  | right {left combinator right node} :
      Compound.Has right node → Complex.Has (.combined left combinator right) node

inductive Compound.Has : Compound → Compound → Prop where
  | self {node} : Compound.Has node node
  | base {base part node} : Compound.Has base node → Compound.Has (.qualified base part) node
  | negation {base body node} :
      Complex.Has body node → Compound.Has (.qualified base (.negation body)) node

end

/-- The last part of a compound has no token, for the reason that the fault tells. -/
inductive Compound.Unsupported : Compound → ConversionFault → Prop where
  | matching {base options} : Unsupported (.qualified base (.matching options))
      (.construct (.qualified base (.matching options)))
  | adjustment {base options} : Unsupported (.qualified base (.adjustment options))
      (.construct (.qualified base (.adjustment options)))
  | relation {base arguments} : Unsupported (.qualified base (.relation arguments))
      (.construct (.qualified base (.relation arguments)))
  | nameless {base space comparison} :
      Unsupported (.qualified base (.attribute ⟨space, none, comparison⟩)) .namelessAttribute
  | operator {base space name c} : (∀ known : AttributeOperator, known.symbol ≠ c.operator) →
      Unsupported (.qualified base (.attribute ⟨space, some name, some c⟩)) (.operator c.operator)
  | series {base name words} : isCounting name = true →
      (∀ value, words = [.ident value] → lowered value ≠ "odd" ∧ lowered value ≠ "even") →
      seriesOf? words = none →
      Unsupported (.qualified base (.function name words)) (.series name words)
  | arguments {base name words} : isCounting name = false →
      (∀ value, words ≠ [.ident value] ∧ words ≠ [.string value]) →
      Unsupported (.qualified base (.function name words)) (.arguments name)

def Written.Unsupported (w : Written) (f : ConversionFault) : Prop :=
  (∃ node, w.selector.Has node ∧ node.Unsupported f) ∨
    ∃ name words, w.pseudoElement = some (.functional name words) ∧
      f = .functionalPseudoElement name

def Written.Supported (w : Written) : Prop := ∀ f, ¬ w.Unsupported f

variable {base : Compound} {f : ConversionFault}

/-! Parts without selectors in them. -/

theorem parityNone {words : List Word} : parityOf? words = none ↔
    ∀ value, words = [.ident value] → lowered value ≠ "odd" ∧ lowered value ≠ "even" := by
  unfold parityOf?
  split
  · next value =>
    simp only [List.cons.injEq, Word.ident.injEq, and_true, forall_eq']
    unfold Parity.ofWord?
    by_cases odd : lowered value = "odd"
    · simp [odd]
    · by_cases even : lowered value = "even" <;> simp [odd, even]
  · next other =>
    exact ⟨fun _ value same => absurd same (other value), fun _ => rfl⟩

theorem argumentRefused {name : String} {words : List Word} :
    argumentOf name words = .error f ↔
      (Compound.qualified base (.function name words)).Unsupported f := by
  constructor
  · intro refused
    unfold argumentOf at refused
    split at refused
    · next counting =>
      split at refused
      · cases refused
      · next none =>
        split at refused
        · cases refused
        · next unread =>
          cases refused
          exact .series counting (parityNone.mp none) unread
    · next counting =>
      split at refused
      · cases refused
      · cases refused
      · next ident string =>
        cases refused
        exact .arguments (by simpa using counting) fun value => ⟨ident value, string value⟩
  · intro unsupported
    unfold argumentOf
    cases unsupported with
    | series counting none unread => rw [if_pos counting, parityNone.mpr none, unread]
    | arguments counting none =>
      rw [if_neg (by simp [counting])]
      split
      · next value => exact absurd rfl (none value).1
      · next value => exact absurd rfl (none value).2
      · rfl

theorem symbolUnknown {symbol : String} : AttributeOperator.ofSymbol? symbol = none ↔
    ∀ known : AttributeOperator, known.symbol ≠ symbol := by
  have listed : ∀ known : AttributeOperator, known ∈ AttributeOperator.all := by
    intro known
    cases known <;> decide
  simp [AttributeOperator.ofSymbol?, listed]

theorem attributeRefused {test : AttributeTest} :
    test.token = .error f ↔ (Compound.qualified base (.attribute test)).Unsupported f := by
  obtain ⟨space, name, comparison⟩ := test
  constructor
  · intro refused
    cases name with
    | none =>
      cases refused
      exact .nameless
    | some name =>
      cases comparison with
      | none => cases refused
      | some c =>
        simp only [AttributeTest.token] at refused
        split at refused
        · cases refused
        · next unknown =>
          cases refused
          exact .operator (symbolUnknown.mp unknown)
  · intro unsupported
    cases unsupported with
    | nameless => rfl
    | operator unknown => simp only [AttributeTest.token, symbolUnknown.mpr unknown]

/-! Parts that a compound is searched for before any of its parts is converted. -/

theorem unsupportedFound {c node : Compound} (found : c.unsupported? = some node) :
    c.Has node ∧ node.Unsupported (.construct node) := by
  match c, found with
  | .qualified base part, found =>
    rw [Compound.unsupported?] at found
    split at found
    · obtain ⟨has, unsupported⟩ := unsupportedFound found
      exact ⟨.base has, unsupported⟩
    · next refused =>
      cases found
      refine ⟨.self, ?_⟩
      match part, refused with
      | .matching options, _ => exact .matching
      | .adjustment options, _ => exact .adjustment
      | .relation arguments, _ => exact .relation

theorem unsupportedNone {part : Part} (none : (Compound.qualified base part).unsupported? = none) :
    base.unsupported? = .none ∧ part.isSupported = true := by
  rw [Compound.unsupported?] at none
  split at none
  · next supported => exact ⟨none, supported⟩
  · cases none

/-! A conversion that fails has met a part without a token. -/

mutual

theorem complexFails (s : Complex) (failed : s.tokens = .error f) :
    ∃ node, s.Has node ∧ node.Unsupported f := by
  cases s with
  | compound c =>
    rw [Complex.tokens] at failed
    obtain ⟨node, has, unsupported⟩ := compoundFails c true nofun failed
    exact ⟨node, .compound has, unsupported⟩
  | combined left combinator right =>
    rw [Complex.tokens] at failed
    rcases bindFails failed with failed | ⟨before, _, failed⟩
    · obtain ⟨node, has, unsupported⟩ := complexFails left failed
      exact ⟨node, .left has, unsupported⟩
    rcases bindFails failed with failed | ⟨after, _, failed⟩
    · obtain ⟨node, has, unsupported⟩ := compoundFails right true nofun failed
      exact ⟨node, .right has, unsupported⟩
    · cases failed

theorem compoundFails (c : Compound) (whole : Bool)
    (searched : whole = false → c.unsupported? = none) (failed : c.tokens whole = .error f) :
    ∃ node, c.Has node ∧ node.Unsupported f := by
  cases c with
  | element space name => cases failed
  | qualified base part =>
    rw [Compound.tokens] at failed
    split at failed
    · next node found =>
      cases failed
      split at found
      · exact ⟨node, unsupportedFound found⟩
      · cases found
    · next none =>
      have clean : (Compound.qualified base part).unsupported? = .none := by
        cases whole with
        | true => exact none
        | false => exact searched rfl
      obtain ⟨inner, supported⟩ := unsupportedNone clean
      rcases bindFails failed with failed | ⟨before, _, failed⟩
      · obtain ⟨node, has, unsupported⟩ := compoundFails base false (fun _ => inner) failed
        exact ⟨node, .base has, unsupported⟩
      rcases bindFails failed with failed | ⟨t, _, failed⟩
      · exact partFails base part supported failed
      · cases failed

theorem partFails (base : Compound) (part : Part) (supported : part.isSupported = true)
    (failed : part.token = .error f) :
    ∃ node, (Compound.qualified base part).Has node ∧ node.Unsupported f := by
  match part, supported, failed with
  | .attribute test, _, failed =>
    rw [Part.token] at failed
    exact ⟨_, .self, attributeRefused.mp failed⟩
  | .function name words, _, failed =>
    rw [Part.token] at failed
    rcases bindFails failed with failed | ⟨argument, _, failed⟩
    · exact ⟨_, .self, argumentRefused.mp failed⟩
    · cases failed
  | .negation body, _, failed =>
    rw [Part.token] at failed
    rcases bindFails failed with failed | ⟨tokens, _, failed⟩
    · obtain ⟨node, has, unsupported⟩ := complexFails body failed
      exact ⟨node, .negation has, unsupported⟩
    · cases failed

end

/-! A conversion that succeeds has met none. -/

theorem partGiven {part : Part} {t : Token} (given : part.token = .ok t) :
    ¬ (Compound.qualified base part).Unsupported f := by
  intro unsupported
  match part, given with
  | .attribute test, given =>
    rw [Part.token] at given
    cases given.symm.trans (attributeRefused.mpr unsupported)
  | .function name words, given =>
    rw [Part.token] at given
    obtain ⟨argument, read, _⟩ := bindOk given
    cases read.symm.trans (argumentRefused.mpr unsupported)

mutual

theorem complexGiven (s : Complex) {tokens : List Token} {node : Compound}
    (given : s.tokens = .ok tokens) (has : s.Has node) : ¬ node.Unsupported f := by
  cases s with
  | compound c =>
    rw [Complex.tokens] at given
    cases has with
    | compound has => exact compoundGiven c given has
  | combined left combinator right =>
    rw [Complex.tokens] at given
    obtain ⟨before, front, given⟩ := bindOk given
    obtain ⟨after, back, given⟩ := bindOk given
    cases has with
    | left has => exact complexGiven left front has
    | right has => exact compoundGiven right back has

theorem compoundGiven (c : Compound) {whole : Bool} {tokens : List Token} {node : Compound}
    (given : c.tokens whole = .ok tokens) (has : c.Has node) : ¬ node.Unsupported f := by
  cases c with
  | element space name =>
    cases has
    rintro ⟨⟩
  | qualified base part =>
    rw [Compound.tokens] at given
    split at given
    · cases given
    · obtain ⟨before, front, given⟩ := bindOk given
      obtain ⟨t, last, given⟩ := bindOk given
      cases has with
      | self => exact partGiven last
      | base has => exact compoundGiven base front has
      | @negation _ body _ has =>
        rw [Part.token] at last
        obtain ⟨inner, read, _⟩ := bindOk last
        exact complexGiven body read has

end

/-! Whole selectors. -/

variable {w : Written}

theorem writtenFails (failed : w.tokens = .error f) : w.Unsupported f := by
  obtain ⟨selector, pseudoElement⟩ := w
  rw [Written.tokens] at failed
  rcases bindFails failed with failed | ⟨tokens, _, failed⟩
  · exact .inl (complexFails selector failed)
  · match pseudoElement, failed with
    | some (.functional name words), failed =>
      cases failed
      exact .inr ⟨name, words, rfl, rfl⟩

theorem writtenSupported {tokens : List Token} (given : w.tokens = .ok tokens) : w.Supported := by
  obtain ⟨selector, pseudoElement⟩ := w
  rw [Written.tokens] at given
  obtain ⟨inner, front, given⟩ := bindOk given
  intro f unsupported
  rcases unsupported with ⟨node, has, unsupported⟩ | ⟨name, words, rfl, _⟩
  · exact complexGiven selector front has unsupported
  · cases given

theorem convertSupported {source : String} {s : Selector} (converted : convert source w = .ok s) :
    w.Supported := by
  obtain ⟨tokens, given, _⟩ := convertSource converted
  exact writtenSupported given

theorem convertUnsupported {source : String} {failure : ParseFailure}
    (failed : convert source w = .error failure) :
    ∃ f, w.Unsupported f ∧ failure = .rejected ⟨f.message, source, none⟩ := by
  unfold convert at failed
  split at failed
  · cases failed
  · next f refused =>
    cases failed
    exact ⟨f, writtenFails refused, rfl⟩

theorem convertedSupported {source : String} {list : List Written} {selectors : List Selector}
    (converted : list.mapM (convert source) = .ok selectors) : ∀ w ∈ list, w.Supported := by
  intro w member
  obtain ⟨s, given⟩ := mapMEach converted w member
  exact convertSupported given

/-- A list that is read is converted exactly if everything in it is supported. If not, it is rejected
as a whole for its first selector that is not supported, with a complaint about something in that
selector that names no place. -/
theorem parseSupports {source : String} {list : List Written}
    (read : readSource source.toList = .ok list) :
    ((∃ selectors, parseList source = .ok selectors) ↔ ∀ w ∈ list, w.Supported) ∧
    ((∃ w ∈ list, ¬ w.Supported) → ∃ before w after f, list = before ++ w :: after ∧
      (∀ v ∈ before, v.Supported) ∧ w.Unsupported f ∧
      parseList source = .error (.rejected ⟨f.message, source, none⟩)) := by
  have parsed : parseList source = list.mapM (convert source) := by simp only [parseList, read]
  rw [parsed]
  cases outcome : list.mapM (convert source) with
  | ok selectors =>
    have each := convertedSupported outcome
    refine ⟨⟨fun _ => each, fun _ => ⟨selectors, rfl⟩⟩, ?_⟩
    rintro ⟨w, member, refused⟩
    exact absurd (each w member) refused
  | error failure =>
    obtain ⟨before, w, after, made, rfl, front, failed⟩ := mapMSplit outcome
    obtain ⟨f, unsupported, rfl⟩ := convertUnsupported failed
    constructor
    · refine ⟨?_, fun each => absurd unsupported (each w (by simp) f)⟩
      rintro ⟨selectors, given⟩
      cases given
    · intro _
      exact ⟨before, w, after, f, rfl, convertedSupported front, unsupported, rfl⟩

/-- The second selector holds an unknown operator inside a negation, the third is refused too. -/
theorem parseSupportsNested :
    let source := "a, b > c:not(d[e!=f]) g, :is(h)"
    ∃ list, readSource source.toList = .ok list ∧ ¬ (∀ w ∈ list, w.Supported) ∧
      ∃ before w after f, list = before ++ w :: after ∧ (∀ v ∈ before, v.Supported) ∧
        w.Unsupported f ∧ f.message = "unsupported attribute operator \x27!=\x27" := by
  intro source
  have reads : (readSource source.toList).map (fun _ => ()) = .ok () := by decide +kernel
  obtain ⟨list, read, _⟩ := mapOk reads
  obtain ⟨given, refused⟩ := parseSupports read
  have rejected : parseList source = .error (.rejected
      ⟨"unsupported attribute operator \x27!=\x27", source, none⟩) := by decide +kernel
  have unsupported : ¬ ∀ w ∈ list, w.Supported := by
    intro each
    obtain ⟨selectors, parsed⟩ := given.mpr each
    cases rejected.symm.trans parsed
  obtain ⟨before, w, after, f, split, front, fault, outcome⟩ := refused (by simpa using unsupported)
  refine ⟨list, read, unsupported, before, w, after, f, split, front, fault, ?_⟩
  simpa using outcome.symm.trans rejected

end SelectorRank
