import SelectorRank.Grammar.Conversion
import SelectorRank.Proofs.Grammar.Vocabulary
import SelectorRank.Proofs.Lexeme.Lexicon
import SelectorRank.Proofs.Outcome

/-! Trees that are converted. Whatever a tree holds, the tokens that it is converted into have the
shape of a selector; parts without tokens are never converted. -/
namespace SelectorRank

variable {x : Lexicon} {p : Places} {opens : Bool}

def Lexicon.Lowers (x : Lexicon) (name : String) : Prop :=
  ∃ raw, x.name raw ∧ x.colon raw ∧ name = lowered raw

def Lexicon.vocabulary (x : Lexicon) : Vocabulary where
  element := fun space name => x.name name ∧ (space = .unspecified → name = "*" → x.bar)
  name := x.name
  id := x.id
  space := fun name => x.name name ∧ name ≠ "*"
  value := fun value => x.name value ∨ x.value value
  series := Series.Short
  pseudoElement := x.Lowers
  pseudoClass := fun opens name =>
    x.Lowers name ∧ isLegacyPseudoElement name = false ∧ (name = "scope" → opens = true)
  function := fun name =>
    x.Lowers name ∧ isLegacyPseudoElement name = false ∧ holdsSelectors name = false

/-! Arguments and attribute tests. -/

def Word.From (x : Lexicon) : Word → Prop
  | .ident value => x.name value
  | .string value => x.value value
  | _ => True

theorem argumentGiven {name : String} {words : List Word} {argument : Argument}
    (worded : ∀ w ∈ words, w.From x) (read : argumentOf name words = .ok argument) :
    x.vocabulary.Gives (isCounting name) argument := by
  unfold argumentOf at read
  split at read
  · next counting =>
    rw [counting]
    split at read
    · cases read
      rfl
    split at read
    · next series spelled =>
      cases read
      unfold seriesOf? at spelled
      split at spelled
      · cases spelled
      · exact ⟨rfl, Series.ofTextShort spelled⟩
    · cases read
  · next counting =>
    have other : isCounting name = false := by simpa using counting
    rw [other]
    split at read
    · cases read
      exact ⟨rfl, worded (.ident _) (by simp)⟩
    · cases read
      exact ⟨rfl, .inr (worded (.string _) (by simp))⟩
    · cases read

structure AttributeTest.From (x : Lexicon) (test : AttributeTest) : Prop where
  space : ∀ s ∈ test.space, x.name s ∨ s = "*"
  name : ∀ n ∈ test.name, x.name n
  value : ∀ c ∈ test.comparison, x.name c.value ∨ x.value c.value

theorem spaceGiven {space : Option String} (spaced : ∀ s ∈ space, x.name s ∨ s = "*") :
    x.vocabulary.Spaces (.ofWritten space) := by
  cases space with
  | none => trivial
  | some name =>
    by_cases star : name = "*"
    · simp [Namespace.ofWritten, star, Vocabulary.Spaces]
    · rw [Namespace.ofWritten, if_neg star]
      exact ⟨(spaced name rfl).resolve_right star, star⟩

theorem attributeGiven {test : AttributeTest} {t : Token} (given : test.From x)
    (read : test.token = .ok t) : x.vocabulary.Qualifies opens t := by
  obtain ⟨space, name, comparison⟩ := test
  have spaced := spaceGiven given.space
  cases name with
  | none => cases read
  | some name =>
    have named := given.name name rfl
    cases comparison with
    | none =>
      cases read
      exact .presence spaced named
    | some c =>
      have valued := given.value c rfl
      simp only [AttributeTest.token] at read
      split at read
      · cases read
        exact .comparison spaced named valued
      · cases read

/-! Compounds. -/

abbrev Token.bare : Token := .usual (.universal .unspecified)

structure Places.Apart (p : Places) : Prop where
  head {t} : p.head t → t ≠ .bare
  part {opens t} : p.part opens t → t ≠ .bare
  last {t} : ¬ p.last t

def Part.Gives (p : Places) (opens : Bool) (part : Part) : Prop :=
  ∀ t, part.token = .ok t → p.part opens t

theorem failsGives {part : Part} {fault : ConversionFault} (fails : part.token = .error fault) :
    part.Gives p opens := by
  intro t token
  rw [fails] at token
  cases token

def Compound.Grows (p : Places) (opens : Bool) (compound : Compound) : Prop :=
  ∀ tokens, compound.tokens false = .ok tokens → IsEnded p opens tokens

def Compound.Gives (p : Places) (opens : Bool) (compound : Compound) : Prop :=
  ∀ tokens, compound.tokens true = .ok tokens → IsCompound p opens tokens

theorem endedPart {tokens : List Token} {t : Token} (apart : p.Apart)
    (front : IsEnded p opens tokens) (part : p.part opens t) : IsEnded p opens (tokens ++ [t]) := by
  right
  rcases front with rfl | ⟨whole, other⟩
  · exact ⟨.headless part (by simp), by simpa using apart.part part⟩
  · cases whole with
    | bare => contradiction
    | headed first rest =>
      refine ⟨.headed first ?_, by simp⟩
      exact List.forall_mem_append.mpr ⟨rest, List.forall_mem_singleton.mpr part⟩
    | headless first rest =>
      refine ⟨.headless first ?_, by simp⟩
      exact List.forall_mem_append.mpr ⟨rest, List.forall_mem_singleton.mpr part⟩

theorem growsPart {compound : Compound} {part : Part} (apart : p.Apart)
    (grows : compound.Grows p opens) (gives : part.Gives p opens) :
    (Compound.qualified compound part).Grows p opens := by
  intro tokens read
  simp only [Compound.tokens] at read
  obtain ⟨before, readBefore, read⟩ := bindOk read
  obtain ⟨t, readPart, same⟩ := bindOk read
  cases same
  exact endedPart apart (grows before readBefore) (gives t readPart)

theorem elementWhole (space name : Option String) :
    elementTokens true space name = [.bare] ∨
      elementTokens true space name = elementTokens false space name ∧
        elementTokens false space name ≠ [] := by
  cases name with
  | some name => exact .inr ⟨rfl, by simp [elementTokens]⟩
  | none =>
    cases space with
    | some space => exact .inr ⟨rfl, by simp [elementTokens]⟩
    | none => exact .inl rfl

theorem growsGives {compound : Compound} (grows : compound.Grows p opens) :
    compound.Gives p opens := by
  intro tokens read
  cases compound with
  | element space name =>
    cases read
    rcases elementWhole space name with alone | ⟨same, some⟩
    · rw [alone]
      exact .bare
    · rw [same]
      exact ((grows _ rfl).resolve_left some).1
  | qualified base part =>
    have inner : (Compound.qualified base part).tokens false = .ok tokens := by
      simp only [Compound.tokens, if_true] at read
      split at read
      · cases read
      · simpa [Compound.tokens] using read
    refine ((grows tokens inner).resolve_left ?_).1
    simp only [Compound.tokens] at inner
    obtain ⟨before, _, more⟩ := bindOk inner
    obtain ⟨t, _, same⟩ := bindOk more
    cases same
    simp

/-! Selectors. -/

def Complex.Gives (p : Places) (opens : Bool) (selector : Complex) : Prop :=
  ∀ tokens, selector.tokens = .ok tokens → IsSequence p opens tokens

theorem givesFirst {compound : Compound} (gives : compound.Gives p opens) :
    (Complex.compound compound).Gives p opens := by
  intro tokens read
  rw [Complex.tokens] at read
  exact .compound (gives tokens read)

theorem sequenceJoin {before tokens : List Token} {combinator : Combinator} (apart : p.Apart)
    (front : IsSequence p opens before) (whole : IsCompound p false tokens) :
    IsSequence p opens (before ++ .combinator combinator :: tokens) := by
  induction front with
  | compound first => exact .combined first (.compound whole)
  | ended _ closes => exact absurd closes apart.last
  | combined first _ ih =>
    rw [List.append_assoc, List.cons_append]
    exact .combined first ih

theorem givesCombined {left : Complex} {right : Compound} (combinator : Combinator)
    (apart : p.Apart) (gives : left.Gives p opens) (more : right.Gives p false) :
    (Complex.combined left combinator right).Gives p opens := by
  intro tokens read
  rw [Complex.tokens] at read
  obtain ⟨before, readBefore, read⟩ := bindOk read
  obtain ⟨after, readAfter, same⟩ := bindOk read
  cases same
  exact sequenceJoin apart (gives before readBefore) (more after readAfter)

theorem compoundSome {tokens : List Token} (whole : IsCompound p opens tokens) : tokens ≠ [] := by
  cases whole <;> simp

theorem sequenceSome {tokens : List Token} (sequence : IsSequence p opens tokens) :
    tokens ≠ [] := by
  cases sequence with
  | compound whole => exact compoundSome whole
  | ended _ _ => simp
  | combined _ _ => simp

theorem compoundBare {tokens : List Token} (apart : p.Apart) (whole : IsCompound p opens tokens)
    (last : tokens.getLast? = some .bare) : tokens = [.bare] := by
  have member := List.mem_of_getLast? last
  cases whole with
  | bare => rfl
  | headed first rest =>
    rcases List.mem_cons.mp member with rfl | member
    · exact absurd rfl (apart.head first)
    · exact absurd rfl (apart.part (rest _ member))
  | headless first rest =>
    rcases List.mem_cons.mp member with rfl | member
    · exact absurd rfl (apart.part first)
    · exact absurd rfl (apart.part (rest _ member))

theorem withPseudoElementBehind {tokens : List Token} (front : List Token) (name : String)
    (some : tokens ≠ []) :
    withPseudoElement (front ++ tokens) name = front ++ withPseudoElement tokens name := by
  unfold withPseudoElement
  rw [List.getLast?_append_of_ne_nil front some, List.dropLast_append_of_ne_nil some]
  split <;> simp

theorem withPseudoElementShape {q : Places} {tokens : List Token} {name : String}
    (apart : p.Apart) (within : p.Within q) (sequence : IsSequence p opens tokens)
    (last : q.last (.usual (.pseudoElement name))) :
    IsSequence q opens (withPseudoElement tokens name) := by
  induction sequence with
  | @compound opens tokens whole =>
    unfold withPseudoElement
    split
    · next same =>
      rw [compoundBare apart whole same]
      exact .ended (.inl rfl) last
    · next other =>
      refine .ended (.inr ⟨compoundWithin within whole, ?_⟩) last
      rintro rfl
      exact other rfl
  | ended _ closes => exact absurd closes apart.last
  | @combined opens tokens combinator rest first next ih =>
    have behind := withPseudoElementBehind (tokens ++ [.combinator combinator]) name
      (sequenceSome next)
    rw [List.append_assoc, List.append_assoc] at behind
    rw [show tokens ++ .combinator combinator :: rest =
      tokens ++ ([.combinator combinator] ++ rest) from rfl, behind]
    exact .combined (compoundWithin within first) ih

/-! Whole selectors. -/

def Vocabulary.endless (v : Vocabulary) : Places := ⟨v.Heads, v.Parts, fun _ => False⟩

theorem endlessWithin (v : Vocabulary) : v.endless.Within v.outside := ⟨id, id, False.elim⟩

theorem headsApart {v : Vocabulary} {t : Token} (heads : v.Heads t) : t ≠ .bare := by
  cases heads with
  | universal _ known =>
    intro same
    cases same
    exact known rfl
  | element _ _ => simp [Token.usual]

theorem qualifiesApart {v : Vocabulary} {t : Token} (qualifies : v.Qualifies opens t) :
    t ≠ .bare := by
  cases qualifies <;> simp [Token.usual]

theorem insideApart (v : Vocabulary) : v.inside.Apart := ⟨headsApart, qualifiesApart, id⟩

theorem endlessApart (v : Vocabulary) : v.endless.Apart where
  head := headsApart
  part part := by
    cases part with
    | simple qualifies => exact qualifiesApart qualifies
    | negation _ => simp [Token.not, Token.usual]
  last := id

def PseudoElement.From (x : Lexicon) : PseudoElement → Prop
  | .plain name => x.Lowers name
  | .functional _ _ => True

theorem writtenGives {written : Written} {tokens : List Token}
    (gives : written.selector.Gives x.vocabulary.endless opens)
    (last : ∀ e ∈ written.pseudoElement, e.From x) (read : written.tokens = .ok tokens) :
    IsSequence x.vocabulary.outside opens tokens := by
  obtain ⟨selector, pseudoElement⟩ := written
  obtain ⟨inner, readInner, read⟩ := bindOk read
  have sequence := gives inner readInner
  cases pseudoElement with
  | none =>
    cases read
    exact sequenceWithin (endlessWithin _) sequence
  | some e =>
    cases e with
    | plain name =>
      cases read
      exact withPseudoElementShape (endlessApart _) (endlessWithin _) sequence
        (.pseudoElement (last _ rfl))
    | functional _ _ => cases read

theorem convertSource {source : String} {written : Written} {selector : Selector}
    (read : convert source written = .ok selector) :
    ∃ tokens, written.tokens = .ok tokens ∧ selector = .ofTokens tokens := by
  unfold convert at read
  split at read
  · next tokens converted =>
    cases read
    exact ⟨tokens, converted, rfl⟩
  · cases read

end SelectorRank
