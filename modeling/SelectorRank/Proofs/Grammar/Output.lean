import SelectorRank.Proofs.Grammar.Intake

/-! Selectors of any source. What is read is converted into tokens of the shape of a selector, or is
not converted. The readers call one another, so what holds of each with a bound on its calls is
stated together and follows from what holds of all of them with a smaller bound. -/
namespace SelectorRank
open Cursor

variable {x : Lexicon} {c c' : Cursor}

/-! Places by where a compound stands. -/

def Surrounding.places (v : Vocabulary) : Surrounding → Places
  | .free => v.endless
  | _ => v.inside

theorem placesApart (v : Vocabulary) (around : Surrounding) : (around.places v).Apart := by
  cases around with
  | free => exact endlessApart v
  | negation => exact insideApart v
  | options => exact insideApart v

theorem placesHead {v : Vocabulary} (around : Surrounding) {t : Token} (heads : v.Heads t) :
    (around.places v).head t := by
  cases around <;> exact heads

theorem placesPart {v : Vocabulary} (around : Surrounding) {opens : Bool} {t : Token}
    (qualifies : v.Qualifies opens t) : (around.places v).part opens t := by
  cases around with
  | free => exact .simple qualifies
  | negation => exact qualifies
  | options => exact qualifies

theorem simpleGives {around : Surrounding} {opens : Bool} {part : Part} {t : Token}
    (token : part.token = .ok t) (qualifies : x.vocabulary.Qualifies opens t) :
    part.Gives (around.places x.vocabulary) opens := by
  intro u same
  cases token.symm.trans same
  exact placesPart around qualifies

/-! Element tests. -/

theorem writtenSpecified (space : String) : Namespace.ofWritten (some space) ≠ .unspecified := by
  by_cases star : space = "*" <;> simp [Namespace.ofWritten, star]

theorem elementGrows {space name : Option String} (around : Surrounding) {opens : Bool}
    (spaced : ∀ s ∈ space, x.name s ∨ s = "*") (named : ∀ n ∈ name, x.name n)
    (bar : space = none → name = some "*" → x.bar) :
    (Compound.element space name).Grows (around.places x.vocabulary) opens := by
  intro tokens read
  cases read
  have given := spaceGiven spaced
  have headed : ∀ {t : Token}, x.vocabulary.Heads t →
      IsEnded (around.places x.vocabulary) opens [t] := fun heads =>
    .inr ⟨.headed (placesHead around heads) (by simp), by simpa using headsApart heads⟩
  cases name with
  | some name =>
    refine headed (.element given ⟨named name rfl, ?_⟩)
    intro none star
    cases space with
    | none => exact bar rfl (by rw [star])
    | some space => exact absurd none (writtenSpecified space)
  | none =>
    cases space with
    | none => exact .inl rfl
    | some space => exact headed (.universal given (writtenSpecified space))

theorem readElementTaken {element : Option Compound} (around : Surrounding) {opens : Bool}
    (holds : c.Holds x) (read : readElement c = .ok (element, c')) :
    element = none ∧ c' = c ∨ ∃ compound, element = some compound ∧
      compound.Grows (around.places x.vocabulary) opens ∧ c'.Within x := by
  obtain ⟨before, behind⟩ := holds
  obtain ⟨l, peek, read⟩ := bindOk read
  dsimp only at read
  split at read
  · next none =>
    cases read
    exact .inl ⟨rfl, rfl⟩
  · next first taken =>
    have given : (x.name first ∨ first = "*") ∧ c.advance.Within x := by
      split at taken
      · next shape =>
        cases taken
        obtain ⟨named, _, within⟩ := identTaken behind peek shape
        exact ⟨.inl named, within⟩
      · next shape =>
        cases taken
        exact ⟨.inr rfl, delimTaken ⟨_, behind⟩ peek shape (by decide)⟩
      · cases taken
    obtain ⟨named, within⟩ := given
    obtain ⟨bar, peekBar, read⟩ := bindOk read
    split at read
    · next shape =>
      obtain ⟨⟨name, c''⟩, readName, read⟩ := bindOk read
      cases read
      have after := delimTaken within.holds peekBar shape (by decide)
      obtain ⟨named', within'⟩ := readIdentOrStarTaken after.holds readName
      exact .inr ⟨_, rfl, elementGrows around (by simpa using named) named' (by simp), within'⟩
    · cases read
      refine .inr ⟨_, rfl, elementGrows around (by simp) ?_ ?_, within⟩
      · by_cases star : first = "*"
        · simp [star]
        · simpa [star] using named.resolve_right star
      · by_cases star : first = "*" <;> simp [star]

/-! Between compounds. -/

/-- A place behind a compound, in front of what ended it. -/
structure Cursor.Ends (x : Lexicon) (c : Cursor) : Prop where
  within : c.Within x
  peek : ∃ l, c.peek = .ok l ∧ l.shape.endsCompound = true

theorem signTaken {l : Lexeme} {d : Char} (holds : c.Holds x) (peek : c.peek = .ok l)
    (shape : l.shape = .delim d) (starts : startsCompound (some (.delim d)) = true) :
    c.advance.Starts x := by
  obtain ⟨before, behind⟩ := holds
  have after := advanceBehind behind peek (by simp [shape])
  rw [shape] at after
  exact ⟨_, starts, after⟩

theorem signShape {shape : Shape} {combinator : Combinator}
    (sign : shape.combinator? = some combinator) :
    ∃ d, shape = .delim d ∧ startsCompound (some (.delim d)) = true ∧ d ≠ ',' := by
  unfold Shape.combinator? at sign
  split at sign
  · exact ⟨'>', rfl, by decide, by decide⟩
  · exact ⟨'+', rfl, by decide, by decide⟩
  · exact ⟨'~', rfl, by decide, by decide⟩
  · cases sign

theorem blankBehind (ends : c.Ends x) {l : Lexeme} (peek : c.skipBlanks.peek = .ok l)
    (none : l.shape.combinator? = none) (stop : l.shape ≠ .stop) (comma : l.shape ≠ .delim ',')
    (close : l.shape ≠ .delim ')') : c.skipBlanks.Starts x := by
  obtain ⟨⟨⟨before, behind⟩, _⟩, first, peekFirst, inner⟩ := ends
  by_cases blank : first.shape = .blank
  · obtain ⟨passed, lexemes⟩ := c
    cases lexemes with
    | stop start => cases peekFirst; cases blank
    | fault f => cases peekFirst
    | next l' rest =>
      cases peekFirst
      obtain ⟨_, hold⟩ := behind
      rw [blank] at hold
      have skipped : afterBlanks (.next first rest) = afterBlanks rest := by
        simp [afterBlanks, blank]
      refine ⟨some .blank, rfl, ?_⟩
      rw [Behind, skipBlanks, skipped]
      exact (afterBlanksHold hold).elim id id
  · rw [peekSkip peekFirst blank, peekFirst] at peek
    cases peek
    unfold Shape.endsCompound at inner
    split at inner
    · contradiction
    · contradiction
    · next d shape =>
      simp only [shape, ne_eq, Shape.delim.injEq] at comma close
      simp only [Bool.or_eq_true, decide_eq_true_eq, comma, close, false_or, or_false] at inner
      rcases inner with (rfl | rfl) | rfl <;> simp [shape, Shape.combinator?] at none
    · cases inner

theorem combinatorTaken (ends : c.Ends x) {l : Lexeme} {combinator : Combinator}
    (peek : c.skipBlanks.peek = .ok l) (stop : l.shape ≠ .stop) (comma : l.shape ≠ .delim ',')
    (close : l.shape ≠ .delim ')') (passed : combinatorAt l c.skipBlanks = (combinator, c')) :
    c'.Starts x ∧ c'.opensSelector = false := by
  have skipped := skipWithin ends.within
  unfold combinatorAt at passed
  split at passed
  · next sign =>
    cases passed
    obtain ⟨d, shape, starts, other⟩ := signShape sign
    exact ⟨skipStarts (signTaken skipped.holds peek shape starts),
      (delimTaken skipped.holds peek shape other).closed⟩
  · next none =>
    cases passed
    exact ⟨blankBehind ends peek none stop comma close, skipped.closed⟩

/-! All readers, with a bound on their calls. -/

def PseudoElement.Taken (x : Lexicon) : PseudoElement → Prop
  | .plain name => x.name name ∧ x.colon name
  | .functional _ _ => True

def Colon.Taken (x : Lexicon) (around : Surrounding) (opens : Bool) : Colon → Prop
  | .part given => given.Gives (around.places x.vocabulary) opens
  | .pseudoElement e => e.Taken x

structure Outputs (x : Lexicon) (n : Nat) : Prop where
  compound {around c compound last c'} :
    c.Starts x → readCompound n around c = .ok (compound, last, c') →
    compound.Gives (around.places x.vocabulary) (around ≠ .options && c.opensSelector) ∧
      (∀ e ∈ last, e.Taken x) ∧ c'.Ends x
  parts {around opens started compound last c whole last' c'} :
    compound.Grows (around.places x.vocabulary) opens → (∀ e ∈ last, e.Taken x) →
    (started = true → c.Within x) → (started = false → c.Starts x) →
    readParts n around opens started compound last c = .ok (whole, last', c') →
    whole.Gives (around.places x.vocabulary) opens ∧ (∀ e ∈ last', e.Taken x) ∧ c'.Ends x
  colon {around opens c colon c'} :
    c.Behind x (some (.delim ':')) → readColon n around opens c = .ok (colon, c') →
    colon.Taken x around opens ∧ c'.Within x
  function {around opens name c part c'} :
    c.Starts x → c.opensSelector = false → x.Lowers name → isLegacyPseudoElement name = false →
    readFunction n around name c = .ok (part, c') →
    part.Gives (around.places x.vocabulary) opens ∧ c'.Within x
  negation {body last c body' c'} :
    body.Gives x.vocabulary.inside false → c.Ends x →
    readNegation n body last c = .ok (body', c') →
    body'.Gives x.vocabulary.inside false ∧ c'.Within x
  relation {c arguments c'} :
    c.Starts x → readRelation n c = .ok (arguments, c') → c'.Within x
  argument {argument last c argument' c'} :
    c.Ends x → readArgument n argument last c = .ok (argument', c') →
    c'.Holds x ∧ ∃ l, c'.peek = .ok l ∧ (l.shape = .delim ',' ∨ l.shape = .delim ')')
  options {c options c'} :
    c.Starts x → readOptions n c = .ok (options, c') → c'.Within x

section
variable {n : Nat} (outputs : Outputs x n)
include outputs

theorem compoundOutput {around : Surrounding} {compound : Compound} {last : Option PseudoElement}
    (starts : c.Starts x) (read : readCompound (n + 1) around c = .ok (compound, last, c')) :
    compound.Gives (around.places x.vocabulary) (around ≠ .options && c.opensSelector) ∧
      (∀ e ∈ last, e.Taken x) ∧ c'.Ends x := by
  have skipped := skipStarts starts
  rw [readCompound] at read
  obtain ⟨⟨element, c''⟩, readTest, read⟩ := bindOk read
  rcases readElementTaken around skipped.holds readTest with ⟨rfl, rfl⟩ | ⟨test, rfl, grows, within⟩
  · have grows : (Compound.element none none).Grows (around.places x.vocabulary)
        (around ≠ .options && c.opensSelector) :=
      elementGrows around (by simp) (by simp) (by simp)
    exact outputs.parts grows (by simp) (by simp) (fun _ => skipped) read
  · exact outputs.parts grows (by simp) (fun _ => within) (by simp) read

theorem partOutput {around : Surrounding} {opens : Bool} {compound whole : Compound} {part : Part}
    {last : Option PseudoElement} (grows : compound.Grows (around.places x.vocabulary) opens)
    (gives : part.Gives (around.places x.vocabulary) opens) (within : c.Within x)
    (read : readParts n around opens true (.qualified compound part) none c =
      .ok (whole, last, c')) :
    whole.Gives (around.places x.vocabulary) opens ∧ (∀ e ∈ last, e.Taken x) ∧ c'.Ends x :=
  outputs.parts (growsPart (placesApart _ around) grows gives) (by simp) (fun _ => within) (by simp)
    read

theorem partsOutput {around : Surrounding} {opens started : Bool} {compound whole : Compound}
    {last last' : Option PseudoElement} (grows : compound.Grows (around.places x.vocabulary) opens)
    (taken : ∀ e ∈ last, e.Taken x) (begun : started = true → c.Within x)
    (fresh : started = false → c.Starts x)
    (read : readParts (n + 1) around opens started compound last c = .ok (whole, last', c')) :
    whole.Gives (around.places x.vocabulary) opens ∧ (∀ e ∈ last', e.Taken x) ∧ c'.Ends x := by
  have holds : c.Holds x := by
    cases started with
    | false => exact (fresh rfl).holds
    | true => exact (begun rfl).holds
  rw [readParts] at read
  obtain ⟨l, peek, read⟩ := bindOk read
  dsimp only at read
  split at read
  · next inner =>
    split at read
    · next some =>
      cases read
      exact ⟨growsGives grows, taken, begun some, l, peek, inner⟩
    · cases read
  split at read
  · cases read
  split at read
  · next name shape =>
    obtain ⟨before, behind⟩ := holds
    have allowed := peekAllowed behind peek
    rw [shape] at allowed
    have within := advanceWithin ⟨_, behind⟩ peek (by simp [shape]) (by simp [shape])
      (by simp [shape])
    exact partOutput outputs grows (simpleGives rfl (.id allowed)) within read
  · next shape =>
    obtain ⟨⟨name, c''⟩, readName, read⟩ := bindOk read
    obtain ⟨before, after⟩ := (delimTaken holds peek shape (by decide)).holds
    obtain ⟨named, _, within⟩ := readIdentTaken after readName
    exact partOutput outputs grows (simpleGives rfl (.className named)) within read
  · next shape =>
    split at read
    · cases read
    · next none =>
      obtain ⟨before, starts, behind⟩ := fresh (by simpa using none)
      have allowed := peekAllowed behind peek
      rw [shape] at allowed
      have after := delimTaken ⟨_, behind⟩ peek shape (by decide)
      obtain ⟨⟨name, c''⟩, readName, read⟩ := bindOk read
      obtain ⟨named, within⟩ := readIdentOrStarTaken after.holds readName
      have grows : (Compound.element .none name).Grows (around.places x.vocabulary) opens :=
        elementGrows around (by simp) named (fun _ _ => allowed starts)
      exact outputs.parts grows (by simp) (fun _ => within) (by simp) read
  · next shape =>
    obtain ⟨⟨test, c''⟩, readTest, read⟩ := bindOk read
    have after := delimTaken holds peek shape (by decide)
    obtain ⟨given, within⟩ := readAttributeTaken after.holds readTest
    have gives : (Part.attribute test).Gives (around.places x.vocabulary) opens := by
      intro t token
      exact placesPart around (attributeGiven given token)
    exact partOutput outputs grows gives within read
  · next shape =>
    obtain ⟨⟨colon, c''⟩, readMore, read⟩ := bindOk read
    obtain ⟨before, behind⟩ := holds
    have after := advanceBehind behind peek (by simp [shape])
    rw [shape] at after
    obtain ⟨given, within⟩ := outputs.colon after readMore
    cases colon with
    | part part =>
      exact partOutput outputs grows given within read
    | pseudoElement e =>
      have taken : e.Taken x := given
      exact outputs.parts grows (by simpa using taken) (fun _ => within) (by simp) read
  · cases read

theorem colonOutput {around : Surrounding} {opens : Bool} {colon : Colon}
    (behind : c.Behind x (some (.delim ':')))
    (read : readColon (n + 1) around opens c = .ok (colon, c')) :
    colon.Taken x around opens ∧ c'.Within x := by
  rw [readColon] at read
  obtain ⟨l, peek, read⟩ := bindOk read
  dsimp only at read
  split at read
  · next shape =>
    have after := advanceBehind behind peek (by simp [shape])
    rw [shape] at after
    obtain ⟨⟨name, c''⟩, readName, read⟩ := bindOk read
    obtain ⟨named, lower, within⟩ := readIdentTaken after readName
    obtain ⟨next, peekNext, read⟩ := bindOk read
    split at read
    · next bracket =>
      obtain ⟨⟨words, c'''⟩, readMore, read⟩ := bindOk read
      cases read
      have after := delimTaken within.holds peekNext bracket (by decide)
      exact ⟨trivial, (readWordsTaken after.holds readMore).2⟩
    · cases read
      exact ⟨⟨named, lower rfl⟩, within⟩
  · obtain ⟨⟨name, c''⟩, readName, read⟩ := bindOk read
    obtain ⟨named, lower, within⟩ := readIdentTaken behind readName
    have lowers : x.Lowers (lowered name) := ⟨name, named, lower rfl, rfl⟩
    split at read
    · cases read
      exact ⟨⟨named, lower rfl⟩, within⟩
    · next usual =>
      have usual : isLegacyPseudoElement (lowered name) = false := by simpa using usual
      obtain ⟨next, peekNext, read⟩ := bindOk read
      split at read
      · next bracket =>
        obtain ⟨⟨part, c'''⟩, readMore, read⟩ := bindOk read
        cases read
        have after := delimTaken within.holds peekNext bracket (by decide)
        exact outputs.function (signTaken within.holds peekNext bracket (by decide))
          after.closed lowers usual readMore
      split at read
      · cases read
      · next scope =>
        cases read
        refine ⟨simpleGives rfl (.pseudoClass ⟨lowers, usual, fun same => ?_⟩), within⟩
        simpa [same] using scope

theorem functionOutput {around : Surrounding} {opens : Bool} {name : String} {part : Part}
    (starts : c.Starts x) (closed : c.opensSelector = false) (lowers : x.Lowers name)
    (usual : isLegacyPseudoElement name = false)
    (read : readFunction (n + 1) around name c = .ok (part, c')) :
    part.Gives (around.places x.vocabulary) opens ∧ c'.Within x := by
  have skipped := skipStarts starts
  rw [readFunction] at read
  obtain ⟨l, _, read⟩ := bindOk read
  dsimp only at read
  split at read
  · split at read
    · cases read
    · cases read
    · obtain ⟨⟨first, last, c''⟩, readFirst, read⟩ := bindOk read
      obtain ⟨⟨body, c'''⟩, readMore, read⟩ := bindOk read
      cases read
      obtain ⟨gives, _, ends⟩ := outputs.compound skipped readFirst
      have closed : c.skipBlanks.opensSelector = false := closed
      rw [closed, Bool.and_false] at gives
      obtain ⟨gives, within⟩ := outputs.negation (givesFirst gives) ends readMore
      refine ⟨?_, within⟩
      intro t token
      obtain ⟨tokens, converted, token⟩ := bindOk token
      cases token
      exact .negation (gives tokens converted)
  · next notNegation =>
    split at read
    · obtain ⟨⟨arguments, c''⟩, readMore, read⟩ := bindOk read
      cases read
      exact ⟨failsGives (by rw [Part.token]), outputs.relation skipped readMore⟩
    split at read
    · obtain ⟨⟨options, c''⟩, readMore, read⟩ := bindOk read
      cases read
      exact ⟨failsGives (by rw [Part.token]), outputs.options skipped readMore⟩
    split at read
    · obtain ⟨⟨options, c''⟩, readMore, read⟩ := bindOk read
      cases read
      exact ⟨failsGives (by rw [Part.token]), outputs.options skipped readMore⟩
    · obtain ⟨⟨words, c''⟩, readMore, read⟩ := bindOk read
      cases read
      obtain ⟨worded, within⟩ := readWordsTaken skipped.holds readMore
      refine ⟨?_, within⟩
      intro t token
      obtain ⟨argument, converted, token⟩ := bindOk token
      cases token
      refine placesPart around (.function ⟨lowers, usual, ?_⟩ (argumentGiven worded converted))
      simp_all [holdsSelectors]

theorem negationOutput {body body' : Complex} {last : Option PseudoElement}
    (gives : body.Gives x.vocabulary.inside false) (ends : c.Ends x)
    (read : readNegation (n + 1) body last c = .ok (body', c')) :
    body'.Gives x.vocabulary.inside false ∧ c'.Within x := by
  have skipped := skipWithin ends.within
  rw [readNegation] at read
  obtain ⟨l, peek, read⟩ := bindOk read
  dsimp only at read
  split at read
  · cases read
  split at read
  · next close =>
    cases read
    exact ⟨gives, delimTaken skipped.holds peek close (by decide)⟩
  split at read
  · cases read
  · next close more =>
    simp only [Bool.or_eq_true, decide_eq_true_eq, not_or] at more
    obtain ⟨⟨right, last, c''⟩, readNext, read⟩ := bindOk read
    obtain ⟨starts, closed⟩ := combinatorTaken ends peek more.1 more.2 close rfl
    obtain ⟨given, _, ends⟩ := outputs.compound starts readNext
    rw [closed, Bool.and_false] at given
    exact outputs.negation (givesCombined _ (insideApart _) gives given) ends read

theorem relationOutput {arguments : List (Combinator × Complex)} (starts : c.Starts x)
    (read : readRelation (n + 1) c = .ok (arguments, c')) : c'.Within x := by
  have skipped := skipStarts starts
  rw [readRelation] at read
  obtain ⟨l, peek, read⟩ := bindOk read
  dsimp only at read
  have begins : (combinatorAt l c.skipBlanks).2.Starts x := by
    unfold combinatorAt
    split
    · next sign =>
      obtain ⟨d, shape, signed, _⟩ := signShape sign
      exact skipStarts (signTaken skipped.holds peek shape signed)
    · exact skipped
  obtain ⟨⟨first, last, c1⟩, readFirst, read⟩ := bindOk read
  obtain ⟨_, _, ends⟩ := outputs.compound begins readFirst
  obtain ⟨⟨argument, c2⟩, readMore, read⟩ := bindOk read
  obtain ⟨holds, l', peek', closes⟩ := outputs.argument ends readMore
  obtain ⟨l'', peek'', read⟩ := bindOk read
  cases peek'.symm.trans peek''
  split at read
  · next comma =>
    obtain ⟨⟨rest, c3⟩, readRest, read⟩ := bindOk read
    cases read
    exact outputs.relation (signTaken holds peek' comma (by decide)) readRest
  · next other =>
    cases read
    exact delimTaken holds peek' (closes.resolve_left other) (by decide)

theorem argumentOutput {argument argument' : Complex} {last : Option PseudoElement}
    (ends : c.Ends x) (read : readArgument (n + 1) argument last c = .ok (argument', c')) :
    c'.Holds x ∧ ∃ l, c'.peek = .ok l ∧ (l.shape = .delim ',' ∨ l.shape = .delim ')') := by
  have skipped := skipWithin ends.within
  cases last with
  | some e => cases read
  | none =>
  rw [readArgument] at read
  obtain ⟨l, peek, read⟩ := bindOk read
  dsimp only at read
  split at read
  · next closes =>
    cases read
    simp only [Bool.or_eq_true, decide_eq_true_eq] at closes
    exact ⟨skipped.holds, l, peek, closes⟩
  split at read
  · cases read
  · next closes stop =>
    simp only [Bool.or_eq_true, decide_eq_true_eq, not_or] at closes
    obtain ⟨⟨right, last, c''⟩, readNext, read⟩ := bindOk read
    obtain ⟨starts, _⟩ := combinatorTaken ends peek stop closes.1 closes.2 rfl
    obtain ⟨_, _, ends⟩ := outputs.compound starts readNext
    exact outputs.argument ends read

theorem optionsOutput {options : List Compound} (starts : c.Starts x)
    (read : readOptions (n + 1) c = .ok (options, c')) : c'.Within x := by
  rw [readOptions] at read
  obtain ⟨⟨first, last, c''⟩, readFirst, read⟩ := bindOk read
  obtain ⟨_, _, ends⟩ := outputs.compound starts readFirst
  have skipped := skipWithin ends.within
  dsimp only at read
  split at read
  · cases read
  obtain ⟨l, peek, read⟩ := bindOk read
  split at read
  · next comma =>
    obtain ⟨⟨rest, c3⟩, readRest, read⟩ := bindOk read
    cases read
    exact outputs.options (skipStarts (signTaken skipped.holds peek comma (by decide))) readRest
  split at read
  · next close =>
    cases read
    exact delimTaken skipped.holds peek close (by decide)
  · cases read

end

theorem outputsNone (x : Lexicon) : Outputs x 0 where
  compound _ read := by
    rw [readCompound] at read
    obtain ⟨_, _, read⟩ := bindOk read
    obtain ⟨_, _, read⟩ := bindOk read
    cases read
  parts _ _ _ _ read := by
    rw [readParts] at read
    obtain ⟨_, _, read⟩ := bindOk read
    cases read
  colon _ read := by
    rw [readColon] at read
    obtain ⟨_, _, read⟩ := bindOk read
    cases read
  function _ _ _ _ read := by
    rw [readFunction] at read
    obtain ⟨_, _, read⟩ := bindOk read
    cases read
  negation _ _ read := by
    rw [readNegation] at read
    obtain ⟨_, _, read⟩ := bindOk read
    cases read
  relation _ read := by
    rw [readRelation] at read
    obtain ⟨_, _, read⟩ := bindOk read
    cases read
  argument {_ last _ _ _} _ read := by
    cases last with
    | some e => cases read
    | none =>
      rw [readArgument] at read
      obtain ⟨_, _, read⟩ := bindOk read
      cases read
  options _ read := by
    rw [readOptions] at read
    obtain ⟨_, _, read⟩ := bindOk read
    cases read

theorem outputs (x : Lexicon) (n : Nat) : Outputs x n := by
  induction n with
  | zero => exact outputsNone x
  | succ n ih =>
    exact ⟨compoundOutput ih, partsOutput ih, colonOutput ih, functionOutput ih, negationOutput ih,
      relationOutput ih, argumentOutput ih, optionsOutput ih⟩

/-! Lists. -/

theorem loweredFrom {e : PseudoElement} (taken : e.Taken x) : e.lowered.From x := by
  cases e with
  | plain name => exact ⟨name, taken.1, taken.2, rfl⟩
  | functional name words => trivial

theorem closeFails {n : Nat} {around : Surrounding} {l : Lexeme}
    {read : Compound × Option PseudoElement × Cursor} (peek : c.skipBlanks.peek = .ok l)
    (close : l.shape = .delim ')') : readCompound n around c ≠ .ok read := by
  have test : readElement c.skipBlanks = .ok (none, c.skipBlanks) := by
    simp [readElement, peek, close, bind, Except.bind]
  cases n with
  | zero => simp [readCompound, test, peek, bind, Except.bind]
  | succ n =>
    cases n with
    | zero => simp [readCompound, readParts, test, peek, bind, Except.bind]
    | succ n =>
      rw [readCompound]
      simp only [test, bind, Except.bind]
      rw [readParts]
      simp [peek, close, Shape.endsCompound, bind, Except.bind]

theorem readWrittenOutput {n : Nat} {opens : Bool} {body : Complex} {last : Option PseudoElement}
    {written : Written} (gives : body.Gives x.vocabulary.endless opens)
    (taken : ∀ e ∈ last, e.Taken x) (ends : c.Ends x)
    (read : readWritten n body last c = .ok (written, c')) :
    (∀ tokens, written.tokens = .ok tokens → IsSequence x.vocabulary.outside opens tokens) ∧
      c'.Holds x := by
  induction n generalizing body last c with
  | zero =>
    obtain ⟨_, _, read⟩ := bindOk read
    cases read
  | succ n ih =>
    rw [readWritten] at read
    obtain ⟨l, peek, read⟩ := bindOk read
    split at read
    · cases read
      refine ⟨fun tokens converted => writtenGives gives ?_ converted, skipHolds ends.within.holds⟩
      intro e member
      obtain ⟨given, same, rfl⟩ := Option.map_eq_some_iff.mp member
      exact loweredFrom (taken given same)
    · next closes =>
      simp only [Bool.or_eq_true, decide_eq_true_eq, not_or] at closes
      split at read
      · cases read
      · obtain ⟨⟨right, last, c''⟩, readNext, read⟩ := bindOk read
        have readNext : readCompound n .free (combinatorAt l c.skipBlanks).2 =
            .ok (right, last, c'') := readNext
        by_cases close : l.shape = .delim ')'
        · have unsigned : (combinatorAt l c.skipBlanks).2 = c.skipBlanks := by
            simp [combinatorAt, close, Shape.combinator?]
          rw [unsigned] at readNext
          rw [← skipBlanksTwice] at peek
          exact absurd readNext (closeFails peek close)
        · obtain ⟨starts, closed⟩ := combinatorTaken ends peek closes.1 closes.2 close rfl
          obtain ⟨given, taken, ends⟩ := (outputs x n).compound starts readNext
          rw [closed, Bool.and_false] at given
          exact ih (givesCombined _ (endlessApart _) gives given) taken ends read

theorem readListOutput {n : Nat} {list : List Written} (starts : c.Starts x)
    (first : c.opensSelector = true) (read : readList n c = .ok list) :
    list ≠ [] ∧ ∀ written ∈ list, ∀ tokens, written.tokens = .ok tokens →
      x.vocabulary.IsSelector tokens := by
  induction n generalizing c list with
  | zero =>
    obtain ⟨_, _, read⟩ := bindOk read
    cases read
  | succ n ih =>
    rw [readList] at read
    obtain ⟨⟨compound, last, c1⟩, readFirst, read⟩ := bindOk read
    obtain ⟨given, taken, ends⟩ := (outputs x n).compound starts readFirst
    obtain ⟨⟨written, c2⟩, readMore, read⟩ := bindOk read
    simp only [first, Bool.and_true] at given
    obtain ⟨gives, holds⟩ := readWrittenOutput (givesFirst given) taken ends readMore
    obtain ⟨l, peek, read⟩ := bindOk read
    split at read
    · next comma =>
      obtain ⟨rest, readRest, read⟩ := bindOk read
      cases read
      have opens : c2.advance.skipBlanks.opensSelector = true := by
        have passed := advancePassed peek (by simp [comma]) (by simp [comma])
        simp [opensSelector, skipBlanks, passed, comma]
      obtain ⟨_, others⟩ :=
        ih (skipStarts (signTaken holds peek comma (by decide))) opens readRest
      exact ⟨by simp, List.forall_mem_cons.mpr ⟨gives, others⟩⟩
    · cases read
      exact ⟨by simp, List.forall_mem_singleton.mpr gives⟩

end SelectorRank
