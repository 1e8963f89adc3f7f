import SelectorRank.Parse
import SelectorRank.Proofs.Grammar.Selector

/-! Canonical text is read back. A source is a list of selectors with commas between them, and the
text of legible selectors in a row is read as those selectors. -/
namespace SelectorRank
open Spelling Cursor

/-! Canonical text holds no null character, so no character of it is replaced. -/

theorem identifierNoNull {name : String} (visible : HasNoNull name.toList) :
    HasNoNull (identifier name.toList) := spellsNoNull (identifierSpells visible) visible

theorem stringNoNull {value : String} (visible : HasNoNull value.toList) :
    HasNoNull (Spelling.string value.toList) := by
  simp [Spelling.string, Text.doubleQuote, spellsNoNull (stringSpells visible) visible]

theorem plainNoNull {name : String} (plain : IsPlain name) : HasNoNull name.toList := by
  rintro c member rfl
  exact absurd (plain.2 _ member) (by decide)

theorem spaceNoNull {space : Namespace} (spaced : written.Spaces space) :
    HasNoNull space.chars := by
  cases space with
  | unspecified => simp [Namespace.chars]
  | named name => simp [Namespace.chars, identifierNoNull spaced]
  | any => simp [Namespace.chars]

theorem argumentNoNull {counting : Bool} {argument : Argument}
    (given : written.Gives counting argument) : HasNoNull argument.chars := by
  cases argument with
  | identifier value => exact identifierNoNull given.2.2
  | string value => exact stringNoNull given.2
  | parity value => exact (plainReadName (parityPlain value)).1.visible
  | series value =>
    rintro c member rfl
    exact absurd (Series.textChars value _ member) (by unfold Text.IsSeriesChar; decide)

theorem headsNoNull {t : Token} (heads : written.Heads t) : HasNoNull t.chars := by
  cases heads with
  | universal spaced _ => simp [Token.usual, Token.chars, Simple.chars, spaceNoNull spaced]
  | element spaced named =>
    simp [Token.usual, Token.chars, Simple.chars, spaceNoNull spaced, identifierNoNull named.2]

theorem qualifiesNoNull {opens : Bool} {t : Token} (qualifies : written.Qualifies opens t) :
    HasNoNull t.chars := by
  cases qualifies with
  | id named => simp [Token.usual, Token.chars, Simple.chars, identifierNoNull named.2]
  | className named => simp [Token.usual, Token.chars, Simple.chars, identifierNoNull named.2]
  | presence spaced named =>
    simp [Token.usual, Token.chars, Simple.chars, spaceNoNull spaced, identifierNoNull named.2]
  | @comparison _ operator _ _ spaced named valued =>
    have symbol : HasNoNull operator.symbol.toList := by
      cases operator <;> simp [AttributeOperator.symbol]
    simp [Token.usual, Token.chars, Simple.chars, spaceNoNull spaced, symbol,
      identifierNoNull named.2, stringNoNull valued]
  | pseudoClass named => simp [Token.usual, Token.chars, Simple.chars, plainNoNull named]
  | function named given =>
    simp [Token.usual, Token.chars, Simple.chars, plainNoNull named.1, argumentNoNull given]

theorem charsNoNull {tokens : List Token} (each : ∀ t ∈ tokens, HasNoNull t.chars) :
    HasNoNull (charsOf tokens) := by
  induction tokens with
  | nil => simp [charsOf]
  | cons t tokens ih =>
    obtain ⟨first, rest⟩ := List.forall_mem_cons.mp each
    simp [charsOf, first, ih rest]

theorem combinatorNoNull (combinator : Combinator) :
    HasNoNull (Token.combinator combinator).chars := by
  cases combinator <;> simp [Token.chars, Combinator.chars]

theorem bareNoNull : HasNoNull (Token.usual (.universal .unspecified)).chars := by
  simp [Token.usual, Token.chars, Simple.chars, Namespace.chars]

theorem negationNoNull {body : List Token} (holds : IsSequence written.inside false body) :
    HasNoNull (Token.not body).chars := by
  have each :=
    sequenceTokens headsNoNull qualifiesNoNull False.elim bareNoNull combinatorNoNull holds
  simp [Token.not, Token.chars, charsNoNull each]

theorem selectorNoNull {tokens : List Token} (shape : written.IsSelector tokens) :
    HasNoNull (charsOf tokens) := by
  refine charsNoNull (sequenceTokens headsNoNull ?_ ?_ bareNoNull combinatorNoNull shape)
  · intro opens t part
    cases part with
    | simple qualifies => exact qualifiesNoNull qualifies
    | negation holds => exact negationNoNull holds
  · intro t ends
    cases ends with
    | pseudoElement named => simp [Token.usual, Token.chars, Simple.chars, plainNoNull named]

/-! Lists of selectors. -/

def Stops (rest : List Char) : Prop := ∀ d, rest.head? = some d → d = ','

variable {c : Cursor} {rest : List Char}

theorem stopsEnds (stops : Stops rest) : EndsCompound rest := by
  intro d head
  simp [stops d head]

theorem peekStops (place : c.At rest) (stops : Stops rest) :
    ∃ l, c.peek = .ok l ∧ c.skipBlanks = c ∧ (l.shape = .stop ∨ l.shape = .delim ',') := by
  cases rest with
  | nil =>
    obtain ⟨⟨start, peek⟩, skipped⟩ := atEnd place
    exact ⟨_, peek, skipped, .inl rfl⟩
  | cons d cs =>
    cases stops d rfl
    have next := takesMark place (by decide)
    obtain ⟨start, peek⟩ := next.peek
    exact ⟨_, peek, next.skip (by simp), .inr rfl⟩

theorem readWrittenStops {p : Places} {body : Complex} {last : Option PseudoElement}
    {tokens : List Token} {m : Nat} (finished : Finished p body last tokens) (place : c.At rest)
    (stops : Stops rest) : readWritten (m + 1) body last c = .ok (⟨body, last⟩, c) := by
  obtain ⟨l, peek, skipped, ends⟩ := peekStops place stops
  have low : last.map PseudoElement.lowered = last := by
    rcases finished.last with rfl | ⟨name, plain, _, rfl⟩
    · rfl
    · simp [PseudoElement.lowered, loweredPlain plain]
  rcases ends with ends | ends <;>
    simp [readWritten, skipped, peek, ends, low, bind, Except.bind]

theorem readSelectorText {tokens : List Token} {n : Nat} (shape : legible.IsSelector tokens)
    (stops : Stops rest) (first : c.opensSelector = true) (place : c.At (charsOf tokens ++ rest))
    (bound : 4 * c.rest.length + 3 ≤ n) :
    ∃ compound last c' written c'', readCompound n .free c = .ok (compound, last, c') ∧
      readWritten n (.compound compound) last c' = .ok (written, c'') ∧
      Written.tokens written = .ok tokens ∧ c.Reaches c'' rest := by
  obtain ⟨compound, last, c', body, last', c'', m, read, looped, finished, reaches⟩ :=
    readSequence outsideRead writtenContinues (by decide) shape (stopsEnds stops)
      (fun _ => first) place bound addsFirst
  refine ⟨compound, last, c', ⟨body, last'⟩, c'', read, ?_, finished.tokens, reaches⟩
  rw [looped]
  exact readWrittenStops finished reaches.place stops

theorem commaText {text : List Char} (begins : BeginsCompound text)
    (place : c.At (',' :: ' ' :: text)) :
    c.Reaches c.advance.skipBlanks text ∧ c.advance.skipBlanks.opensSelector = true := by
  have comma := takesMark place (by decide)
  have blank := blankText (beginsNoSpace begins) comma.reaches.place
  obtain ⟨l, peek, inner⟩ := begins _ blank.reaches.place
  have skipped : c.advance.skipBlanks = c.advance.advance :=
    blank.skipBlank.trans (peekSkip peek (innerVisible inner))
  rw [skipped]
  refine ⟨comma.reaches.trans blank.reaches, ?_⟩
  simp [opensSelector, blank.passedBlank, comma.passed]

theorem convertTokens {written : Written} {tokens : List Token} (source : String)
    (read : written.tokens = .ok tokens) : convert source written = .ok (.ofTokens tokens) := by
  simp [convert, read]

def listTail : List (List Token) → List Char
  | [] => []
  | tokens :: seqs => ',' :: ' ' :: (charsOf tokens ++ listTail seqs)

theorem listTailStops (seqs : List (List Token)) : Stops (listTail seqs) := by
  intro d head
  cases seqs with
  | nil => cases head
  | cons tokens seqs =>
    cases head
    rfl

theorem listTailJoined (tokens : List Token) (seqs : List (List Token)) :
    (String.intercalate ", " ((tokens :: seqs).map canonicalText)).toList =
      charsOf tokens ++ listTail seqs := by
  induction seqs generalizing tokens with
  | nil => simp [listTail, canonicalText]
  | cons tokens' seqs ih =>
    rw [List.map_cons, List.map_cons, String.intercalate_cons_cons, ← List.map_cons,
      String.toList_append, String.toList_append, ih]
    simp [listTail, canonicalText]

theorem readListText {tokens : List Token} {seqs : List (List Token)} {n : Nat} (source : String)
    (shaped : ∀ given ∈ tokens :: seqs, legible.IsSelector given)
    (first : c.opensSelector = true) (place : c.At (charsOf tokens ++ listTail seqs))
    (bound : 4 * c.rest.length + 4 ≤ n) :
    ∃ list, readList n c = .ok list ∧
      list.mapM (convert source) = .ok ((tokens :: seqs).map Selector.ofTokens) := by
  induction seqs generalizing tokens c n with
  | nil =>
    obtain ⟨n, rfl⟩ : ∃ m, n = m + 1 := ⟨n - 1, by omega⟩
    obtain ⟨compound, last, c', written, c'', read, looped, ok, reaches⟩ :=
      readSelectorText (n := n) (shaped tokens (by simp)) (listTailStops []) first place (by omega)
    obtain ⟨⟨start, peek⟩, _⟩ := atEnd reaches.place
    refine ⟨[written], ?_, ?_⟩
    · simp [readList, read, looped, peek, bind, Except.bind]
    · simp [convertTokens source ok, bind, Except.bind, pure, Except.pure]
  | cons tokens' seqs ih =>
    obtain ⟨n, rfl⟩ : ∃ m, n = m + 1 := ⟨n - 1, by omega⟩
    obtain ⟨shape, others⟩ := List.forall_mem_cons.mp shaped
    obtain ⟨compound, last, c', written, c'', read, looped, ok, reaches⟩ :=
      readSelectorText (n := n) shape (listTailStops _) first place (by omega)
    have begins : BeginsCompound (charsOf tokens' ++ listTail seqs) :=
      sequenceBegins outsideRead (others tokens' (by simp)) (stopsEnds (listTailStops seqs))
    obtain ⟨start, peek⟩ := (takesMark reaches.place (by decide)).peek
    obtain ⟨past, opens⟩ := commaText begins reaches.place
    have less := reaches.less
    have less' := past.less
    obtain ⟨list, read', converted⟩ := ih (n := n) others opens past.place (by omega)
    refine ⟨written :: list, ?_, ?_⟩
    · simp [readList, read, looped, peek, read', bind, Except.bind]
    · simp only [List.mapM_cons, convertTokens source ok, converted]
      rfl

theorem listNoNull {tokens : List Token} {seqs : List (List Token)}
    (shaped : ∀ given ∈ tokens :: seqs, written.IsSelector given) :
    HasNoNull (charsOf tokens ++ listTail seqs) := by
  induction seqs generalizing tokens with
  | nil => simp [listTail, selectorNoNull (shaped tokens (by simp))]
  | cons tokens' seqs ih =>
    obtain ⟨shape, others⟩ := List.forall_mem_cons.mp shaped
    exact noNullAppend.mpr ⟨selectorNoNull shape, by simpa [listTail] using ih others⟩

theorem callBoundEnough (c : Cursor) : 4 * c.rest.length + 4 ≤ callBound c := by
  unfold callBound
  omega

theorem parseListText {tokens : List Token} {seqs : List (List Token)}
    (shaped : ∀ given ∈ tokens :: seqs, legible.IsSelector given) :
    parseList (String.intercalate ", " ((tokens :: seqs).map canonicalText)) =
      .ok ((tokens :: seqs).map Selector.ofTokens) := by
  have whole := readableWhole (listNoNull (fun given member =>
    Vocabulary.selectorWithin legibleWritten (shaped given member)))
  have place : (Cursor.ofSource (charsOf tokens ++ listTail seqs)).At
      (charsOf tokens ++ listTail seqs) := ⟨0, by rw [ofSource, lexemes, whole]⟩
  obtain ⟨list, read, converted⟩ := readListText
    (String.intercalate ", " ((tokens :: seqs).map canonicalText)) shaped rfl place
    (callBoundEnough _)
  rw [parseList, listTailJoined, readSource, read]
  exact converted

/-- Parsing undoes printing. -/
theorem canonicalTextRead {seqs : List (List Token)} (some : seqs ≠ [])
    (shaped : ∀ tokens ∈ seqs, legible.IsSelector tokens) :
    parseList (String.intercalate ", " (seqs.map canonicalText)) =
      .ok (seqs.map Selector.ofTokens) := by
  cases seqs with
  | nil => contradiction
  | cons tokens seqs => exact parseListText shaped

theorem canonicalTextReadPair :
    let seqs : List (List Token) :=
      [[.usual (.id "--a"), .not [.usual (.className "1")], .combinator .child,
        .usual (.pseudoElement "before")], [.usual (.universal .any)]]
    seqs ≠ [] ∧ (∀ tokens ∈ seqs, legible.IsSelector tokens) ∧
      parseList (String.intercalate ", " (seqs.map canonicalText)) =
        .ok (seqs.map Selector.ofTokens) := by
  have id : legible.id "--a" := ⟨by decide, by decide, by decide⟩
  have digit : legible.name "1" := ⟨⟨by decide, by decide, by decide⟩, by decide⟩
  have before : legible.pseudoElement "before" := by unfold legible IsPlainIdent; decide
  have body : IsSequence legible.inside false [.usual (.className "1")] :=
    .compound (.headless (.className digit) (by simp))
  have first : IsCompound legible.outside true
      [.usual (.id "--a"), .not [.usual (.className "1")]] :=
    .headless (.simple (.id id)) (by simpa using .negation body)
  have ended : IsSequence legible.outside false ([] ++ [.usual (.pseudoElement "before")]) :=
    .ended (.inl rfl) (.pseudoElement before)
  have universal : legible.IsSelector [.usual (.universal .any)] :=
    .compound (.headed (.universal trivial (by simp)) (by simp))
  have shaped : ∀ tokens ∈ [[.usual (.id "--a"), .not [.usual (.className "1")],
      .combinator .child, .usual (.pseudoElement "before")], [.usual (.universal .any)]],
      legible.IsSelector tokens := by
    simpa using ⟨.combined first ended, universal⟩
  exact ⟨by simp, shaped, canonicalTextRead (by simp) shaped⟩

end SelectorRank
