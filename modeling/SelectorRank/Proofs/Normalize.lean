import SelectorRank.Proofs.Grammar.Output
import SelectorRank.Proofs.Token.Canonical

/-! Normalization. A name or value that does not come back has fewer marks each time it is read, so
a normalized text that stays as it is holds only what comes back. -/
namespace SelectorRank
open Spelling Cursor

variable {n : Nat} {star : Prop}

/-! Names of pseudo-classes and pseudo-elements, which are written as they stand. -/

mutual

def Token.pseudoNames : Token → List String
  | .simple (.pseudoElement name) _ => [name]
  | .simple (.pseudoClass name _) _ => [name]
  | .simple _ _ => []
  | .negation _ body _ => pseudoNamesOf body
  | .combinator _ => []

def pseudoNamesOf : List Token → List String
  | [] => []
  | t :: ts => t.pseudoNames ++ pseudoNamesOf ts

end

/-- No name that is written as it stands needs an escape. -/
def NeedsNoEscape (names : List String) : Prop := ∀ name ∈ names, IsPlainIdent name

theorem needsAppend {a b : List String} :
    NeedsNoEscape (a ++ b) ↔ NeedsNoEscape a ∧ NeedsNoEscape b := List.forall_mem_append

theorem needsSingle {name : String} : NeedsNoEscape [name] ↔ IsPlainIdent name :=
  List.forall_mem_singleton

theorem needsEach {tokens : List Token} : NeedsNoEscape (pseudoNamesOf tokens) ↔
    ∀ t ∈ tokens, NeedsNoEscape t.pseudoNames := by
  induction tokens with
  | nil => simp [pseudoNamesOf, NeedsNoEscape]
  | cons t tokens ih => rw [pseudoNamesOf, needsAppend, ih, List.forall_mem_cons]

/-! Sources. Each holds finitely many marks. -/

def limited (n : Nat) : Lexicon := { returning n True with colon := fun _ => True }

theorem limitedWithin {m : Nat} (le : m ≤ n) : (limited m).Within (limited n) where
  name named := named.imp_right (Or.imp_right (fun few => Nat.le_trans few le))
  id named := named.imp_right (Or.imp_right (fun few => Nat.le_trans few le))
  value valued := valued.imp_right (Or.imp_right (fun few => Nat.le_trans few le))
  colon := id
  bar := id

theorem limitedAllows {before : Option Shape} {shape : Shape}
    (allowed : lexicon.Allows before shape) (few : markCount shape.value.toList ≤ n) :
    (limited n).Allows before shape := by
  unfold Lexicon.Allows at allowed ⊢
  split
  · exact ⟨⟨allowed.1, .inr few⟩, fun _ => trivial⟩
  · exact ⟨allowed, .inr few⟩
  · exact ⟨allowed, .inr few⟩
  · exact fun _ => trivial
  · trivial

theorem limitedHold {before : Option Shape} {ls : Lexemes} (hold : ls.Hold lexicon before) :
    ∃ n, ls.Hold (limited n) before := by
  induction ls generalizing before with
  | stop start => exact ⟨0, trivial⟩
  | fault f => exact ⟨0, trivial⟩
  | next l rest ih =>
    obtain ⟨n, later⟩ := ih hold.2
    let m := markCount l.shape.value.toList
    exact ⟨max m n, limitedAllows hold.1 (Nat.le_max_left m n),
      holdWithin (limitedWithin (Nat.le_max_right m n)) later⟩

theorem sourceLimited (source : List Char) :
    ∃ n, (Cursor.ofSource source).Starts (limited (n + 1)) := by
  obtain ⟨before, starts, hold⟩ := sourceStarts source
  obtain ⟨n, few⟩ := limitedHold hold
  exact ⟨n, before, starts, holdWithin (limitedWithin (Nat.le_succ n)) few⟩

/-! Tokens without escapes in the names that are written as they stand. -/

theorem lowersNeeding {name : String} (plain : IsPlainIdent name) :
    (returning n star).Lowers name := by
  have named := plainReadName plain
  refine ⟨name, ⟨⟨?_, named.1.visible⟩, .inl ⟨named.1.clear, named.2⟩⟩, plain,
    (loweredPlain plain).symm⟩
  simpa using named.1.some

theorem insideLimited : ((limited n).vocabulary.inside.having
    (fun t => NeedsNoEscape t.pseudoNames)).Within (returning n True).vocabulary.inside where
  head := by
    rintro t ⟨heads, _⟩
    cases heads with
    | universal spaced known => exact .universal spaced known
    | element spaced named => exact .element spaced named
  part := by
    rintro opens t ⟨qualifies, plain⟩
    cases qualifies with
    | id named => exact .id named
    | className named => exact .className named
    | presence spaced named => exact .presence spaced named
    | comparison spaced named valued => exact .comparison spaced named valued
    | pseudoClass named => exact .pseudoClass ⟨lowersNeeding (needsSingle.mp plain), named.2⟩
    | function named given =>
      exact .function ⟨lowersNeeding (needsSingle.mp plain), named.2⟩ given
  last := fun ends => ends.1

theorem outsideLimited : ((limited n).vocabulary.outside.having
    (fun t => NeedsNoEscape t.pseudoNames)).Within (returning n True).vocabulary.outside where
  head := insideLimited.head
  part := by
    rintro opens t ⟨part, plain⟩
    cases part with
    | simple qualifies => exact .simple (insideLimited.part ⟨qualifies, plain⟩)
    | negation holds =>
      exact .negation (sequenceWithin insideLimited (sequenceHaving holds (needsEach.mp plain)))
  last := by
    rintro t ⟨ends, plain⟩
    cases ends with
    | pseudoElement _ => exact .pseudoElement (lowersNeeding (needsSingle.mp plain))

theorem limitedReturning {tokens : List Token} (shape : (limited n).vocabulary.IsSelector tokens)
    (plain : NeedsNoEscape (pseudoNamesOf tokens)) :
    (returning n True).vocabulary.IsSelector tokens :=
  sequenceWithin outsideLimited (sequenceHaving shape (needsEach.mp plain))

/-! What a source is read as. -/

theorem convertAll {source : String} {list : List Written} {selectors : List Selector}
    {holds : List Token → Prop} (read : list.mapM (convert source) = .ok selectors)
    (each : ∀ written ∈ list, ∀ tokens, written.tokens = .ok tokens → holds tokens) :
    ∃ seqs : List (List Token), selectors = seqs.map .ofTokens ∧ seqs.length = list.length ∧
      ∀ tokens ∈ seqs, holds tokens := by
  induction list generalizing selectors with
  | nil =>
    cases read
    exact ⟨[], rfl, rfl, by simp⟩
  | cons written list ih =>
    obtain ⟨selector, others, converted, readRest, rfl⟩ := mapMCons read
    obtain ⟨first, rest⟩ := List.forall_mem_cons.mp each
    obtain ⟨tokens, given, rfl⟩ := convertSource converted
    obtain ⟨seqs, rfl, size, shaped⟩ := ih readRest rest
    exact ⟨tokens :: seqs, rfl, by simp [size],
      List.forall_mem_cons.mpr ⟨first tokens given, shaped⟩⟩

theorem parseListShape {x : Lexicon} {source : String} {selectors : List Selector}
    (starts : (Cursor.ofSource source.toList).Starts x)
    (parsed : parseList source = .ok selectors) :
    ∃ (tokens : List Token) (seqs : List (List Token)),
      selectors = (tokens :: seqs).map .ofTokens ∧
      ∀ given ∈ tokens :: seqs, x.vocabulary.IsSelector given := by
  unfold parseList at parsed
  split at parsed
  · cases parsed
  · next list read =>
    obtain ⟨some, each⟩ := readListOutput starts rfl read
    obtain ⟨seqs, rfl, size, shaped⟩ := convertAll parsed each
    cases seqs with
    | nil => exact absurd (List.eq_nil_of_length_eq_zero size.symm) some
    | cons tokens seqs => exact ⟨tokens, seqs, rfl, shaped⟩

/-! Texts of lists. -/

theorem joinedTexts (seqs : List (List Token)) : joinTexts (seqs.map .ofTokens) =
    String.intercalate ", " (seqs.map canonicalText) := by
  simp [joinTexts, Function.comp_def, Selector.text, Selector.ofTokens]

theorem joinedChars (tokens : List Token) (seqs : List (List Token)) :
    (joinTexts ((tokens :: seqs).map .ofTokens)).toList = charsOf tokens ++ listTail seqs := by
  rw [joinedTexts, listTailJoined]

theorem listTailCloses (seqs : List (List Token)) : Closes (listTail seqs) :=
  fun d head => .inr (listTailStops seqs d head)

theorem firstUnique {ts us : List Token} {seqs seqs' : List (List Token)}
    (left : written.IsSelector ts) (right : written.IsSelector us)
    (same : charsOf ts ++ listTail seqs = charsOf us ++ listTail seqs') :
    ts = us ∧ listTail seqs = listTail seqs' := by
  have closes := listTailCloses seqs
  have closes' := listTailCloses seqs'
  exact laidUnique insideUnique (laidSequence outsideTells left closes).1
    (laidSequence outsideTells right closes').1 closes closes' same

theorem listUnique {ts us : List Token} {seqs seqs' : List (List Token)}
    (left : ∀ given ∈ ts :: seqs, written.IsSelector given)
    (right : ∀ given ∈ us :: seqs', written.IsSelector given)
    (same : charsOf ts ++ listTail seqs = charsOf us ++ listTail seqs') :
    ts = us ∧ seqs = seqs' := by
  induction seqs generalizing ts us seqs' with
  | nil =>
    obtain ⟨firsts, rests⟩ := firstUnique (left ts (by simp)) (right us (by simp)) same
    cases seqs' with
    | nil => exact ⟨firsts, rfl⟩
    | cons us' seqs' => cases rests
  | cons ts' seqs ih =>
    obtain ⟨firsts, rests⟩ := firstUnique (left ts (by simp)) (right us (by simp)) same
    cases seqs' with
    | nil => cases rests
    | cons us' seqs' =>
      obtain ⟨tokens, others⟩ := ih (List.forall_mem_cons.mp left).2
        (List.forall_mem_cons.mp right).2 (List.cons.inj (List.cons.inj rests).2).2
      exact ⟨firsts, by rw [tokens, others]⟩

/-! Reading again. -/

theorem returningWritten : (returning n star).vocabulary.Within written where
  element named := named.1.1
  name named := named.1
  id named := named.1
  space named := named.1.1.2
  value valued := valued.elim (fun named => named.1.2) And.left
  series _ := trivial
  pseudoElement lowers := plainKnown (lowersPlain lowers)
  pseudoClass named := plainKnown (lowersPlain named.1)
  function named := ⟨plainKnown (lowersPlain named.1), functionNotNot named.2.2⟩

section
variable {tokens : List Token} {seqs : List (List Token)}

theorem returningStarts
    (shaped : ∀ given ∈ tokens :: seqs, (returning (n + 1) star).vocabulary.IsSelector given) :
    (Cursor.ofSource (joinTexts ((tokens :: seqs).map .ofTokens)).toList).Starts
      (returning n False) := by
  rw [joinedChars]
  exact listStarts shaped (listNoNull (fun given member =>
    Vocabulary.selectorWithin returningWritten (shaped given member)))

theorem stableSame {again : List Selector}
    (shaped : ∀ given ∈ tokens :: seqs, (returning (n + 1) star).vocabulary.IsSelector given)
    (parsed : parseList (joinTexts ((tokens :: seqs).map .ofTokens)) = .ok again)
    (stable : joinTexts again = joinTexts ((tokens :: seqs).map .ofTokens)) :
    again = (tokens :: seqs).map .ofTokens := by
  obtain ⟨tokens', seqs', rfl, shaped'⟩ := parseListShape (returningStarts shaped) parsed
  have texts := congrArg String.toList stable
  rw [joinedChars, joinedChars] at texts
  obtain ⟨rfl, rfl⟩ := listUnique
    (fun given member => Vocabulary.selectorWithin returningWritten (shaped' given member))
    (fun given member => Vocabulary.selectorWithin returningWritten (shaped given member)) texts
  rfl

theorem ofTokensUnique {seqs seqs' : List (List Token)}
    (same : seqs.map Selector.ofTokens = seqs'.map Selector.ofTokens) : seqs = seqs' := by
  have injective : Function.Injective Selector.ofTokens :=
    fun _ _ same => congrArg Selector.tokens same
  exact List.map_injective_iff.mpr injective same

section
variable (same : parseList (joinTexts ((tokens :: seqs).map .ofTokens)) =
  .ok ((tokens :: seqs).map .ofTokens))
include same

theorem returningAgain
    (shaped : ∀ given ∈ tokens :: seqs, (returning (n + 1) star).vocabulary.IsSelector given) :
    ∀ given ∈ tokens :: seqs, (returning n False).vocabulary.IsSelector given := by
  obtain ⟨tokens', seqs', lists, shaped'⟩ := parseListShape (returningStarts shaped) same
  rwa [ofTokensUnique lists]

theorem returningNone
    (shaped : ∀ given ∈ tokens :: seqs, (returning n False).vocabulary.IsSelector given) :
    ∀ given ∈ tokens :: seqs, (returning 0 False).vocabulary.IsSelector given := by
  -- Each mark that does not come back is lost in one more reading, and there are n of them.
  induction n with
  | zero => exact shaped
  | succ n ih => exact ih (returningAgain same shaped)

end

end

theorem unmarkedClear {value : List Char} (none : markCount value ≤ 0) :
    Clear value ∧ ¬ Doubled value := by
  have unmarked : ∀ c ∈ value, isMark c = false := by
    simpa using List.countP_eq_zero.mp (Nat.le_zero.mp none)
  constructor
  · clear none
    induction value with
    | nil => exact .nil
    | cons c value ih =>
      obtain ⟨_, rest⟩ := List.forall_mem_cons.mp unmarked
      cases value with
      | nil => exact .singleton c
      | cons d value =>
        have next := rest d (by simp)
        rw [isMark, Bool.or_eq_false_iff] at next
        exact .cons_cons (fun _ => next.1) (ih rest)
  · intro doubled
    unfold Doubled at doubled
    split at doubled
    · exact absurd (unmarked '-' (by simp)) (by decide)
    · exact doubled

theorem returningRead {name : String} (named : (returning 0 False).name name) :
    IsReadName name := by
  obtain ⟨⟨known, visible⟩, marks⟩ := named
  obtain ⟨clear, single⟩ := marks.elim id unmarkedClear
  exact ⟨⟨visible, by simpa using known, clear⟩, single⟩

theorem returningLegible : (returning 0 False).vocabulary.Within legible where
  element named := ⟨returningRead named.1, fun none same => named.2 none same⟩
  name := returningRead
  id named := by
    obtain ⟨⟨known, visible⟩, marks⟩ := named
    exact ⟨visible, by simpa using known, marks.elim id (fun none => (unmarkedClear none).1)⟩
  space named := named.imp_left returningRead
  value valued := by
    rcases valued with named | ⟨visible, marks⟩
    · exact ⟨named.1.2, (returningRead named).1.clear⟩
    · exact ⟨visible, marks.elim id (fun none => (unmarkedClear none).1)⟩
  series := id
  pseudoElement := lowersPlain
  pseudoClass named := ⟨lowersPlain named.1, named.2⟩
  function named := ⟨lowersPlain named.1, named.2⟩

/-! Legible selectors need no escapes. -/

theorem headsNeed {v : Vocabulary} {t : Token} (heads : v.Heads t) :
    NeedsNoEscape t.pseudoNames := by
  cases heads <;> simp [Token.usual, Token.pseudoNames, NeedsNoEscape]

theorem qualifiesNeed {opens : Bool} {t : Token} (qualifies : legible.Qualifies opens t) :
    NeedsNoEscape t.pseudoNames := by
  cases qualifies with
  | pseudoClass named => exact needsSingle.mpr named.1
  | function named _ => exact needsSingle.mpr named.1
  | _ => simp [Token.usual, Token.pseudoNames, NeedsNoEscape]

theorem bareNeeds : NeedsNoEscape Token.bare.pseudoNames := by
  simp [Token.usual, Token.pseudoNames, NeedsNoEscape]

theorem combinatorNeeds (combinator : Combinator) :
    NeedsNoEscape (Token.combinator combinator).pseudoNames := by
  simp [Token.pseudoNames, NeedsNoEscape]

theorem legibleNeeds {tokens : List Token} (shape : legible.IsSelector tokens) :
    NeedsNoEscape (pseudoNamesOf tokens) := by
  refine needsEach.mpr
    (sequenceTokens (p := legible.outside) headsNeed ?_ ?_ bareNeeds combinatorNeeds shape)
  · intro opens t part
    cases part with
    | simple qualifies => exact qualifiesNeed qualifies
    | negation holds =>
      exact needsEach.mpr (sequenceTokens (p := legible.inside) headsNeed qualifiesNeed False.elim
        bareNeeds combinatorNeeds holds)
  · intro t ends
    cases ends with
    | pseudoElement named => exact needsSingle.mpr named

/-! Stable sources. -/

theorem normalizeParsed {source : String} {selectors : List Selector}
    (parsed : parseList source = .ok selectors) :
    normalize source = .ok (joinTexts selectors) := by
  rw [normalize, parsed]
  rfl

/-- A source is normalized to a stable text of the same specificities, without names that would need
an escape where none is written, exactly if all that it holds is read back as it was. -/
theorem normalizeStable {source : String} {selectors : List Selector}
    (parsed : parseList source = .ok selectors) :
    (∃ text again, normalize source = .ok text ∧ normalize text = .ok text ∧
        parseList text = .ok again ∧
        again.map Selector.specificity = selectors.map Selector.specificity) ∧
      (∀ s ∈ selectors, NeedsNoEscape (pseudoNamesOf s.tokens)) ↔
      ∀ s ∈ selectors, legible.IsSelector s.tokens := by
  obtain ⟨n, starts⟩ := sourceLimited source.toList
  obtain ⟨tokens, seqs, rfl, shaped⟩ := parseListShape starts parsed
  simp only [List.forall_mem_map]
  constructor
  · rintro ⟨⟨text, again, first, second, parsedAgain, _⟩, plain⟩
    have returns : ∀ given ∈ tokens :: seqs,
        (returning (n + 1) True).vocabulary.IsSelector given :=
      fun given member => limitedReturning (shaped given member) (plain given member)
    cases (normalizeParsed parsed).symm.trans first
    have stable := (normalizeParsed parsedAgain).symm.trans second
    cases stableSame returns parsedAgain (Except.ok.inj stable)
    have none := returningNone parsedAgain (returningAgain parsedAgain returns)
    exact fun given member => Vocabulary.selectorWithin returningLegible (none given member)
  · intro read
    have again := parseListText read
    rw [← joinedTexts] at again
    exact ⟨⟨_, _, normalizeParsed parsed, normalizeParsed again, again, rfl⟩,
      fun given member => legibleNeeds (read given member)⟩

theorem legibleClass {name : String} {tokens : List Token} (shape : legible.IsSelector tokens)
    (member : .usual (.className name) ∈ tokens) : IsReadName name := by
  have each : ∀ t ∈ tokens, ∀ name, t = .usual (.className name) → IsReadName name := by
    refine sequenceTokens (p := legible.outside) ?_ ?_ ?_ (by simp [Token.usual]) (by simp
      [Token.usual]) shape
    · intro t heads name same
      cases heads <;> cases same
    · intro opens t part name same
      cases part with
      | negation _ => cases same
      | simple qualifies =>
        cases qualifies with
        | className named =>
          cases same
          exact named
        | _ => cases same
    · intro t ends name same
      cases ends
      cases same
  exact each _ member name rfl

/-- A class that begins with two hyphens is read, but its canonical text is not. -/
theorem normalizeStableDoubled :
    parseList ".\\-\\-a" = .ok [.ofTokens [.usual (.className "--a")]] ∧
      ¬ ∃ text again, normalize ".\\-\\-a" = .ok text ∧ normalize text = .ok text ∧
        parseList text = .ok again ∧ again.map Selector.specificity = [⟨0, 0, 1, 0⟩] := by
  have parsed : parseList ".\\-\\-a" = .ok [.ofTokens [.usual (.className "--a")]] := by rfl
  refine ⟨parsed, fun stable => ?_⟩
  have plain : ∀ s ∈ [Selector.ofTokens [.usual (.className "--a")]],
      NeedsNoEscape (pseudoNamesOf s.tokens) := by
    simp [Selector.ofTokens, Token.usual, pseudoNamesOf, Token.pseudoNames, NeedsNoEscape]
  have shape := (normalizeStable parsed).mp ⟨stable, plain⟩ _ (List.mem_singleton_self _)
  exact absurd (legibleClass shape (List.mem_singleton_self _)).2 (by decide)

end SelectorRank
