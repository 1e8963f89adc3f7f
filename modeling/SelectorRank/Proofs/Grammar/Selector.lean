import SelectorRank.Proofs.Grammar.Part

/-! Reading compounds and whole selectors. The reader goes from the text of one compound to the
text of the next; what it has read stands for the tokens that were written. -/
namespace SelectorRank
open Spelling Unescape Cursor

def BeginsPart (text : List Char) : Prop :=
  ∃ d cs, text = d :: cs ∧ d ∈ ['#', '.', '[', ':']

theorem qualifiesBegins {v : Vocabulary} {opens : Bool} {t : Token}
    (qualifies : v.Qualifies opens t) (rest : List Char) : BeginsPart (t.chars ++ rest) := by
  cases qualifies with
  | id => exact ⟨'#', _, rfl, by decide⟩
  | className => exact ⟨'.', _, rfl, by decide⟩
  | presence => exact ⟨'[', _, rfl, by decide⟩
  | comparison => exact ⟨'[', _, rfl, by decide⟩
  | pseudoClass => exact ⟨':', _, rfl, by decide⟩
  | function => exact ⟨':', _, rfl, by decide⟩

theorem partsBegins {v : Vocabulary} {opens : Bool} {t : Token} (part : v.Parts opens t)
    (rest : List Char) : BeginsPart (t.chars ++ rest) := by
  cases part with
  | simple qualifies => exact qualifiesBegins qualifies rest
  | negation _ => exact ⟨':', _, rfl, by decide⟩

variable {c : Cursor} {rest : List Char}

theorem peekPart (place : c.At rest) (begins : BeginsPart rest) :
    ∃ l, c.peek = .ok l ∧ l.shape.endsCompound = false ∧ l.shape ≠ .delim '*' ∧
      ∀ name, l.shape ≠ .ident name := by
  obtain ⟨d, cs, rfl, sign⟩ := begins
  have signs : ∀ d ∈ ['#', '.', '[', ':'], d ∈ ['#', '.', '[', ':', ' ', ')', ','] ∧ d ≠ ' ' ∧
      d ≠ '*' ∧ (Shape.delim d).endsCompound = false := by decide
  obtain ⟨follows, visible, star, inner⟩ := signs d sign
  obtain ⟨shape, n, scanned, delim, noName, noStop, blank⟩ := scanFollows cs follows
  obtain ⟨start, peek⟩ := peekFirst place scanned
  refine ⟨_, peek, ?_, fun same => star (delim _ same).symm, noName⟩
  cases shape with
  | blank => exact absurd (blank rfl) visible
  | stop => contradiction
  | delim e =>
    cases delim e rfl
    exact inner
  | _ => rfl

/-! Element tests. -/

theorem readElementNone {l : Lexeme} (peek : c.peek = .ok l) (star : l.shape ≠ .delim '*')
    (noName : ∀ name, l.shape ≠ .ident name) : readElement c = .ok (none, c) := by
  simp only [readElement, peek, bind, Except.bind]

theorem sideShapeInner (side : Option String) : (sideShape side).endsCompound = false := by
  cases side <;> rfl

theorem readElementBare {side : Option String} (noStar : side ≠ some "*") (follows : Follows rest)
    (next : c.Takes (sideShape side) rest) :
    readElement c = .ok (some (.element none side), c.advance) := by
  obtain ⟨start, peek⟩ := next.peek
  obtain ⟨l, after, delim, _⟩ := peekFollows next.reaches.place follows
  have noBar : l.shape ≠ .delim '|' := followsNoMark delim (by decide)
  cases side with
  | none => simp [readElement, peek, sideShape, after, noBar, bind, Except.bind]
  | some name =>
    have other : name ≠ "*" := fun same => noStar (congrArg some same)
    simp [readElement, peek, sideShape, after, noBar, other, bind, Except.bind]

theorem readElementSpaced {front side : Option String} {text text' : List Char}
    (first : c.Takes (sideShape front) text) (bar : c.advance.Takes (.delim '|') text')
    (second : c.advance.advance.Takes (sideShape side) rest) :
    readElement c =
      .ok (some (.element (some (front.getD "*")) side), c.advance.advance.advance) := by
  obtain ⟨start, peek⟩ := first.peek
  obtain ⟨start', peek'⟩ := bar.peek
  cases front <;>
    simp [readElement, peek, sideShape, peek', readSide second, bind, Except.bind]

theorem readElementTest {space : Namespace} {side : Option String}
    (spaced : legible.Spaces space)
    (named : ∀ n ∈ side, IsReadName n ∧ (space = .unspecified → n ≠ "*"))
    (follows : Follows rest) (place : c.At ((testToken space side).chars ++ rest)) :
    ∃ c', readElement c = .ok (some (.element space.read side), c') ∧ c.Reaches c' rest ∧
      ∃ l, c.peek = .ok l ∧ l.shape.endsCompound = false := by
  have ends := (followsEnds follows).1.1
  rw [testChars, spaceChars, List.append_assoc] at place
  cases front : space.front with
  | none =>
    have bare : space = .unspecified := by
      cases space <;> first | rfl | cases front
    rw [front] at place
    have next := takesSide place (fun n h => (named n h).1) ends
    have noStar : side ≠ some "*" := fun same => (named "*" same).2 bare rfl
    obtain ⟨start, peek⟩ := next.peek
    rw [show space.read = none from bare ▸ rfl]
    exact ⟨_, readElementBare noStar follows next, next.reaches, _, peek, sideShapeInner side⟩
  | some before =>
    rw [front, Option.elim_some, List.append_assoc] at place
    have first := takesSide place (frontNamed spaced front) (barEndsName _)
    have bar := takesMark first.reaches.place (by decide)
    have second := takesSide bar.reaches.place (fun n h => (named n h).1) ends
    obtain ⟨start, peek⟩ := first.peek
    rw [← frontRead front]
    exact ⟨_, readElementSpaced first bar second,
      first.reaches.trans (bar.reaches.trans second.reaches), _, peek, sideShapeInner before⟩

theorem elementStands {space : Namespace} (side : Option String) (spaced : legible.Spaces space) :
    (Compound.element space.read side).Stands [testToken space side] := by
  cases side <;>
    simp [Compound.Stands, Compound.tokens, elementTokens, readNamespace spaced, testToken]

theorem elementHolds {space : Namespace} {side : Option String} (spaced : legible.Spaces space)
    (known : space ≠ .unspecified ∨ side ≠ none) :
    (Compound.element space.read side).Holds [testToken space side] := by
  refine ⟨rfl, ?_⟩
  cases side with
  | some name => simp [Compound.tokens, elementTokens, readNamespace spaced, testToken]
  | none =>
    have spaceRead : space.read.isSome = true := by
      cases space with
      | unspecified => simp at known
      | named name => rfl
      | any => rfl
    simp [Compound.tokens, elementTokens, readNamespace spaced, testToken, spaceRead]

/-! Compounds. -/

structure Places.Read (p : Places) (around : Surrounding) : Prop where
  head {t} : p.head t → legible.Heads t
  parts : ReadsParts around p.part
  begins {opens t} (rest : List Char) : p.part opens t → BeginsPart (t.chars ++ rest)
  last {t} : p.last t → legible.Ends t

theorem beginsFollows {text : List Char} (begins : BeginsPart text) : Follows text := by
  obtain ⟨d, cs, rfl, sign⟩ := begins
  have each : ∀ d ∈ ['#', '.', '[', ':'], d ∈ ['#', '.', '[', ':', ' ', ')', ','] := by decide
  intro e head
  cases head
  exact each d sign

section
variable {p : Places} {around : Surrounding} (reads : p.Read around)
include reads

theorem partsFollow {opens : Bool} {parts : List Token} (all : ∀ t ∈ parts, p.part opens t)
    (follows : Follows rest) : Follows (charsOf parts ++ rest) := by
  cases parts with
  | nil => exact follows
  | cons t parts =>
    rw [charsOf, List.append_assoc]
    exact beginsFollows (reads.begins _ (all t (by simp)))

theorem readPartsRest {opens opens' : Bool} {parts before : List Token} {compound : Compound}
    {n : Nat} (all : ∀ t ∈ parts, p.part opens t) (first : opens = true → opens' = true)
    (follows : Follows rest) (place : c.At (charsOf parts ++ rest))
    (bound : 4 * c.rest.length + 1 ≤ n) (holds : compound.Holds before)
    (stands : compound.Stands before) :
    ∃ compound' c' m, readParts n around opens' true compound none c =
        readParts m around opens' true compound' none c' ∧
      compound'.Stands (before ++ parts) ∧ c'.At rest ∧ c'.rest.length ≤ c.rest.length ∧
      4 * c'.rest.length + 1 ≤ m := by
  -- The tokens of the compound so far are carried along.
  induction parts generalizing before compound n c with
  | nil =>
    rw [List.append_nil]
    exact ⟨compound, c, n, rfl, stands, place, Nat.le_refl _, bound⟩
  | cons t parts ih =>
    have later : ∀ u ∈ parts, p.part opens u := fun u member => all u (by simp [member])
    rw [charsOf, List.append_assoc] at place
    obtain ⟨n, rfl⟩ : ∃ m, n = m + 1 := ⟨n - 1, by omega⟩
    have enough : 4 * c.rest.length ≤ n := by omega
    obtain ⟨part, c', step, supported, token, reaches⟩ := reads.parts true compound
      (all t (by simp)) first (partsFollow reads later follows) place enough
    obtain ⟨holds, stands⟩ := holdsQualified holds supported token
    have less := reaches.less
    have enough : 4 * c'.rest.length + 1 ≤ n := by omega
    obtain ⟨compound', c'', m, rest, whole, ends, fewer, enough⟩ :=
      ih later reaches.place enough holds stands
    refine ⟨compound', c'', m, step.trans rest, ?_, ends, by omega, enough⟩
    rw [List.append_assoc] at whole
    exact whole

def ReadsTo (around : Surrounding) (n : Nat) (c : Cursor) (tokens : List Token)
    (rest : List Char) : Prop :=
  ∃ opens compound c' m, readCompound n around c = readParts m around opens true compound none c' ∧
    compound.Stands tokens ∧ c.Reaches c' rest ∧ 4 * c'.rest.length + 1 ≤ m

omit reads in
theorem readCompoundElement {n : Nat} {compound : Compound} {c' : Cursor} {l : Lexeme}
    (peek : c.peek = .ok l) (inner : l.shape.endsCompound = false)
    (read : readElement c = .ok (some compound, c')) :
    readCompound (n + 1) around c =
      readParts n around (around ≠ .options && c.opensSelector) true compound none c' := by
  have visible : l.shape ≠ .blank := by
    intro same
    rw [same] at inner
    cases inner
  rw [readCompound, peekSkip peek visible]
  simp [read, bind, Except.bind]

omit reads in
theorem readCompoundNoElement {n : Nat} (place : c.At rest) (begins : BeginsPart rest) :
    readCompound (n + 1) around c =
      readParts n around (around ≠ .options && c.opensSelector) false (.element none none) none
        c := by
  obtain ⟨l, peek, inner, star, noName⟩ := peekPart place begins
  have visible : l.shape ≠ .blank := by
    intro same
    rw [same] at inner
    cases inner
  rw [readCompound, peekSkip peek visible]
  simp [readElementNone peek star noName, bind, Except.bind]

omit reads in
theorem headsRead {t : Token} (heads : legible.Heads t) :
    ∃ space side, t = testToken space side ∧ legible.Spaces space ∧
      (∀ n ∈ side, IsReadName n ∧ (space = .unspecified → n ≠ "*")) ∧
      (space ≠ .unspecified ∨ side ≠ none) := by
  cases heads with
  | @universal space spaced known => exact ⟨space, none, rfl, spaced, by simp, .inl known⟩
  | @element name space spaced named =>
    exact ⟨space, some name, rfl, spaced, fun n h => Option.mem_some.mp h ▸ named, .inr (by simp)⟩

theorem readCompoundAll {opens : Bool} {tokens : List Token} {n : Nat}
    (whole : IsCompound p opens tokens) (free : around ≠ .options)
    (first : opens = true → c.opensSelector = true) (follows : Follows rest)
    (place : c.At (charsOf tokens ++ rest)) (bound : 4 * c.rest.length + 2 ≤ n) :
    ReadsTo around n c tokens rest := by
  have first : opens = true → (decide (around ≠ .options) && c.opensSelector) = true :=
    fun h => by simp [free, first h]
  obtain ⟨n, rfl⟩ : ∃ m, n = m + 1 := ⟨n - 1, by omega⟩
  cases whole with
  | bare =>
    have place : c.At ((testToken .unspecified none).chars ++ rest) := place
    have spaced : legible.Spaces .unspecified := trivial
    obtain ⟨c', read, reaches, l, peek, inner⟩ := readElementTest spaced (by simp) follows place
    have less := reaches.less
    exact ⟨_, _, c', n, readCompoundElement peek inner read, elementStands none spaced, reaches,
      by omega⟩
  | @headed head parts test all =>
    obtain ⟨space, side, rfl, spaced, named, known⟩ := headsRead (reads.head test)
    rw [charsOf, List.append_assoc] at place
    obtain ⟨c', read, reaches, l, peek, inner⟩ :=
      readElementTest spaced named (partsFollow reads all follows) place
    have less := reaches.less
    have enough : 4 * c'.rest.length + 1 ≤ n := by omega
    obtain ⟨compound, c'', m, rest, stands, ends, fewer, enough⟩ :=
      readPartsRest reads all first follows reaches.place enough (elementHolds spaced known)
        (elementStands side spaced)
    exact ⟨_, compound, c'', m, (readCompoundElement peek inner read).trans rest, stands,
      ⟨ends, by omega⟩, enough⟩
  | @headless part parts qualifies all =>
    rw [charsOf, List.append_assoc] at place
    have start : readCompound (n + 1) around c = _ :=
      readCompoundNoElement place (reads.begins (charsOf parts ++ rest) qualifies)
    obtain ⟨n, rfl⟩ : ∃ m, n = m + 1 := ⟨n - 1, by omega⟩
    have empty : (Compound.element none none).Holds [] :=
      ⟨rfl, by simp [Compound.tokens, elementTokens]⟩
    have enough : 4 * c.rest.length ≤ n := by omega
    obtain ⟨tree, c', step, supported, token, reaches⟩ := reads.parts false (.element none none)
      qualifies first (partsFollow reads all follows) place enough
    have less := reaches.less
    have enough : 4 * c'.rest.length + 1 ≤ n := by omega
    obtain ⟨holds, stands⟩ := holdsQualified empty supported token
    obtain ⟨compound, c'', m, rest, stands, ends, fewer, enough⟩ :=
      readPartsRest reads all first follows reaches.place enough holds stands
    exact ⟨_, compound, c'', m, start.trans (step.trans rest), stands, ⟨ends, by omega⟩, enough⟩

omit reads in
theorem readPartsEnd {opens : Bool} {compound : Compound} {last : Option PseudoElement} {n : Nat}
    (place : c.At rest) (ends : EndsCompound rest) :
    readParts (n + 1) around opens true compound last c = .ok (compound, last, c) := by
  obtain ⟨l, peek, outer⟩ := peekEnds place ends
  rw [readParts]
  simp [peek, outer, bind, Except.bind]

omit reads in
theorem readPartsLast {opens started : Bool} {compound : Compound} {n : Nat} {name : String}
    (plain : IsPlainIdent name) (ends : EndsCompound rest)
    (place : c.At (':' :: ':' :: (name.toList ++ rest))) (bound : 4 * c.rest.length + 1 ≤ n) :
    ∃ c', readParts n around opens started compound none c =
        .ok (compound, some (.plain name), c') ∧ c.Reaches c' rest := by
  have follows := endsFollows ends
  have next := takesMark place (by decide)
  have again := takesMark next.reaches.place (by decide)
  have word := takesPlain again.reaches.place plain (followsEnds follows).1.1
  have first := next.reaches.less
  obtain ⟨n, rfl⟩ : ∃ m, n = m + 2 := ⟨n - 2, by omega⟩
  obtain ⟨start, peek⟩ := next.peek
  obtain ⟨start', peek'⟩ := again.peek
  obtain ⟨l, after, delim, _⟩ := peekFollows word.reaches.place follows
  have noOpen : l.shape ≠ .delim '(' := followsNoMark delim (by decide)
  have colon : readColon (n + 1) around opens c.advance =
      .ok (.pseudoElement (.plain name), c.advance.advance.advance) := by
    rw [readColon]
    simp [peek', readIdentName word, after, noOpen, bind, Except.bind]
  refine ⟨_, ?_, next.reaches.trans (again.reaches.trans word.reaches)⟩
  rw [readParts]
  simp [peek, Shape.endsCompound, colon, readPartsEnd word.reaches.place ends, bind, Except.bind]

theorem readCompoundWhole {opens : Bool} {tokens : List Token} {n : Nat}
    (whole : IsCompound p opens tokens) (free : around ≠ .options)
    (first : opens = true → c.opensSelector = true) (ends : EndsCompound rest)
    (place : c.At (charsOf tokens ++ rest)) (bound : 4 * c.rest.length + 2 ≤ n) :
    ∃ compound c', readCompound n around c = .ok (compound, none, c') ∧
      compound.Stands tokens ∧ c.Reaches c' rest := by
  obtain ⟨opens, compound, c', m, read, stands, reaches, enough⟩ :=
    readCompoundAll reads whole free first (endsFollows ends) place bound
  obtain ⟨m, rfl⟩ : ∃ k, m = k + 1 := ⟨m - 1, by omega⟩
  exact ⟨compound, c', read.trans (readPartsEnd reaches.place ends), stands, reaches⟩

theorem readCompoundEnded {opens : Bool} {tokens : List Token} {n : Nat} {name : String}
    (front : IsEnded p opens tokens) (plain : IsPlainIdent name) (free : around ≠ .options)
    (first : opens = true → c.opensSelector = true) (ends : EndsCompound rest)
    (place : c.At (charsOf tokens ++ (':' :: ':' :: (name.toList ++ rest))))
    (bound : 4 * c.rest.length + 2 ≤ n) :
    ∃ compound c', readCompound n around c = .ok (compound, some (.plain name), c') ∧
      compound.Stands (if tokens = [] then [.usual (.universal .unspecified)] else tokens) ∧
      c.Reaches c' rest := by
  have begins : BeginsPart (':' :: ':' :: (name.toList ++ rest)) := ⟨':', _, rfl, by decide⟩
  rcases front with rfl | ⟨whole, other⟩
  · obtain ⟨n, rfl⟩ : ∃ m, n = m + 1 := ⟨n - 1, by omega⟩
    have enough : 4 * c.rest.length + 1 ≤ n := by omega
    obtain ⟨c', read, reaches⟩ := readPartsLast plain ends place enough
    refine ⟨.element none none, c', (readCompoundNoElement place begins).trans read, ?_, reaches⟩
    exact elementStands none (show legible.Spaces .unspecified from trivial)
  · obtain ⟨opens, compound, c', m, read, stands, reaches, enough⟩ :=
      readCompoundAll reads whole free first (beginsFollows begins) place bound
    obtain ⟨c'', read', reaches'⟩ := readPartsLast plain ends reaches.place enough
    have some : tokens ≠ [] := by
      rintro rfl
      cases whole
    rw [if_neg some]
    exact ⟨compound, c'', read.trans read', stands, reaches.trans reaches'⟩

end

/-! Combinators. -/

def BeginsCompound (text : List Char) : Prop :=
  ∀ c : Cursor, c.At text → ∃ l, c.peek = .ok l ∧ l.shape.endsCompound = false

theorem beginsNoSpace {text : List Char} (begins : BeginsCompound text) : EndsAt isSpace text := by
  intro d head
  cases text with
  | nil => cases head
  | cons e cs =>
    cases head
    cases space : isSpace d with
    | false => rfl
    | true =>
      have place : (Cursor.mk none (lexemesFrom 0 0 (d :: cs))).At (d :: cs) := ⟨0, rfl⟩
      have scanned : scan d cs = .lexeme .blank ((cs.takeWhile isSpace).length + 1) := by
        simp [scan, space]
      obtain ⟨start, peek⟩ := peekFirst place scanned
      obtain ⟨l, peek', inner⟩ := begins _ place
      cases peek.symm.trans peek'
      cases inner

theorem blankText {text : List Char} (ends : EndsAt isSpace text) (place : c.At (' ' :: text)) :
    c.Takes .blank text :=
  takes (show c.At ([' '] ++ text) from place) (cutBlank ends)

theorem innerVisible {l : Lexeme} (inner : l.shape.endsCompound = false) : l.shape ≠ .blank := by
  intro same
  rw [same] at inner
  cases inner

/-- One combinator and the blanks about it are passed over, to the compound behind it. -/
def Passes (c : Cursor) (combinator : Combinator) (text : List Char) : Prop :=
  ∃ l c', c.skipBlanks.peek = .ok l ∧ combinatorAt l c.skipBlanks = (combinator, c') ∧
    c.Reaches c' text ∧ l.shape ≠ .stop ∧ l.shape ≠ .delim ',' ∧ l.shape ≠ .delim ')'

theorem passesDescendant {text : List Char} (begins : BeginsCompound text)
    (place : c.At (' ' :: text)) : Passes c .descendant text := by
  have next := blankText (beginsNoSpace begins) place
  obtain ⟨l, peek, inner⟩ := begins _ next.reaches.place
  have skipped : c.skipBlanks = c.advance :=
    next.skipBlank.trans (peekSkip peek (innerVisible inner))
  have none : l.shape.combinator? = none := by
    unfold Shape.combinator?
    split
    · next same => rw [same] at inner; cases inner
    · next same => rw [same] at inner; cases inner
    · next same => rw [same] at inner; cases inner
    · rfl
  rw [Passes, skipped]
  refine ⟨l, c.advance, peek, by simp [combinatorAt, none], next.reaches, ?_, ?_, ?_⟩
  all_goals
    intro same
    rw [same] at inner
    cases inner

theorem passesSign {d : Char} {combinator : Combinator} {text : List Char}
    (begins : BeginsCompound text) (place : c.At (' ' :: d :: ' ' :: text))
    (cut : Cut [d] (.delim d) (' ' :: text)) (visible : isSpace d = false)
    (sign : (Shape.delim d).combinator? = some combinator) : Passes c combinator text := by
  have next := blankText (by intro e head; cases head; exact visible) place
  have mark : c.advance.Takes (.delim d) (' ' :: text) :=
    takes (show c.advance.At ([d] ++ ' ' :: text) from next.reaches.place) cut
  have again := blankText (beginsNoSpace begins) mark.reaches.place
  obtain ⟨l, peek, inner⟩ := begins _ again.reaches.place
  obtain ⟨start, peek'⟩ := mark.peek
  have skipped : c.skipBlanks = c.advance := next.skipBlank.trans (mark.skip (by simp))
  have skipped' : c.advance.advance.skipBlanks = c.advance.advance.advance :=
    again.skipBlank.trans (peekSkip peek (innerVisible inner))
  rw [Passes, skipped]
  refine ⟨_, _, peek', by simp [combinatorAt, sign, skipped'],
    next.reaches.trans (mark.reaches.trans again.reaches), by simp, ?_, ?_⟩
  all_goals
    intro same
    cases same
    cases sign

theorem combinatorText {combinator : Combinator} {text : List Char} (begins : BeginsCompound text)
    (place : c.At (combinator.chars ++ text)) : Passes c combinator text := by
  cases combinator with
  | descendant => exact passesDescendant begins place
  | child => exact passesSign begins place (cutMark _ (by decide)) rfl rfl
  | adjacent => exact passesSign begins place (cutPlus _) rfl rfl
  | sibling => exact passesSign begins place (cutMark _ (by decide)) rfl rfl

theorem compoundBegins {p : Places} {around : Surrounding} (reads : p.Read around) {opens : Bool}
    {tokens : List Token} (whole : IsCompound p opens tokens) (follows : Follows rest) :
    BeginsCompound (charsOf tokens ++ rest) := by
  intro c place
  cases whole with
  | bare =>
    have place : c.At ((testToken .unspecified none).chars ++ rest) := place
    have spaced : legible.Spaces .unspecified := trivial
    obtain ⟨_, _, _, l, peek, inner⟩ := readElementTest spaced (by simp) follows place
    exact ⟨l, peek, inner⟩
  | @headed head parts test all =>
    obtain ⟨space, side, rfl, spaced, named, known⟩ := headsRead (reads.head test)
    rw [charsOf, List.append_assoc] at place
    obtain ⟨_, _, _, l, peek, inner⟩ :=
      readElementTest spaced named (partsFollow reads all follows) place
    exact ⟨l, peek, inner⟩
  | @headless part parts qualifies all =>
    rw [charsOf, List.append_assoc] at place
    obtain ⟨l, peek, inner, _⟩ := peekPart place (reads.begins _ qualifies)
    exact ⟨l, peek, inner⟩

/-! Selectors. One loop reads the compounds after the first, for a whole selector as for the body
of a negation; the two differ in what ends them. -/

def Continues {α : Type} (around : Surrounding)
    (loop : Nat → Complex → Option PseudoElement → Cursor → Reading (α × Cursor)) : Prop :=
  ∀ {n : Nat} {body : Complex} {c c' : Cursor} {l : Lexeme} {combinator : Combinator},
    c.skipBlanks.peek = .ok l → combinatorAt l c.skipBlanks = (combinator, c') →
    l.shape ≠ .stop → l.shape ≠ .delim ',' → l.shape ≠ .delim ')' →
    loop (n + 1) body none c = readCompound n around c' >>= fun r =>
      loop n (.combined body combinator r.1) r.2.1 r.2.2

theorem writtenContinues : Continues .free readWritten := by
  intro n body c c' l combinator peek passed stop comma close
  simp [readWritten, peek, passed, stop, comma, bind, Except.bind]

theorem negationContinues : Continues .negation readNegation := by
  intro n body c c' l combinator peek passed stop comma close
  rw [readNegation]
  simp [peek, passed, stop, comma, close, bind, Except.bind]

structure Finished (p : Places) (body : Complex) (last : Option PseudoElement)
    (tokens : List Token) : Prop where
  tokens : Written.tokens ⟨body, last⟩ = .ok tokens
  last : last = none ∨ ∃ name, IsPlainIdent name ∧ p.last (.usual (.pseudoElement name)) ∧
    last = some (.plain name)

theorem finishedWhole {p : Places} {body : Complex} {tokens : List Token}
    (read : body.tokens = .ok tokens) : Finished p body none tokens :=
  ⟨by simp [Written.tokens, read, bind, Except.bind], .inl rfl⟩

def Adds (build : Compound → Complex) (before : List Token) : Prop :=
  ∀ {compound tokens}, compound.Stands tokens → (build compound).tokens = .ok (before ++ tokens)

theorem addsFirst : Adds .compound [] := by
  intro compound tokens stands
  rw [Complex.tokens]
  exact stands

theorem addsCombined {body : Complex} {before : List Token} (combinator : Combinator)
    (read : body.tokens = .ok before) :
    Adds (.combined body combinator) (before ++ [.combinator combinator]) := by
  intro compound tokens stands
  have right : compound.tokens true = .ok tokens := stands
  simp [Complex.tokens, read, right, bind, Except.bind]

section
variable {p : Places} {around : Surrounding} (reads : p.Read around)
include reads

theorem partNotBare {opens : Bool} {t : Token} (part : p.part opens t) :
    t ≠ .usual (.universal .unspecified) := by
  rintro rfl
  obtain ⟨d, cs, text, sign⟩ := reads.begins [] part
  cases text
  exact absurd sign (by decide)

theorem lastNotBare {opens : Bool} {tokens : List Token} (whole : IsCompound p opens tokens)
    (other : tokens ≠ [.usual (.universal .unspecified)]) :
    ∀ t ∈ tokens, t ≠ .usual (.universal .unspecified) := by
  intro t member
  cases whole with
  | bare => contradiction
  | headed test all =>
    rcases List.mem_cons.mp member with rfl | member
    · rintro rfl
      cases reads.head test with
      | universal _ known => exact known rfl
    · exact partNotBare reads (all t member)
  | headless qualifies all =>
    rcases List.mem_cons.mp member with rfl | member
    · exact partNotBare reads qualifies
    · exact partNotBare reads (all t member)

theorem finishedEnded {opens : Bool} {tokens before : List Token} {name : String}
    {build : Compound → Complex} {compound : Compound} (front : IsEnded p opens tokens)
    (closes : p.last (.usual (.pseudoElement name))) (plain : IsPlainIdent name)
    (adds : Adds build before) (stands : compound.Stands
      (if tokens = [] then [.usual (.universal .unspecified)] else tokens)) :
    Finished p (build compound) (some (.plain name))
      (before ++ (tokens ++ [.usual (.pseudoElement name)])) := by
  refine ⟨?_, .inr ⟨name, plain, closes, rfl⟩⟩
  have read := adds stands
  simp only [Written.tokens, read, bind, Except.bind]
  rcases front with rfl | ⟨whole, other⟩
  · simp [withPseudoElement]
  · cases tokens with
    | nil => cases whole
    | cons t tokens =>
      have last : (t :: tokens).getLast? ≠ some (.usual (.universal .unspecified)) :=
        fun same => lastNotBare reads whole other _ (List.mem_of_getLast? same) rfl
      simp [withPseudoElement, last]

theorem sequenceBegins {opens : Bool} {tokens : List Token} (sequence : IsSequence p opens tokens)
    (ends : EndsCompound rest) : BeginsCompound (charsOf tokens ++ rest) := by
  have pseudo : ∀ {t : Token} (rest : List Char), p.last t → BeginsPart (t.chars ++ rest) := by
    intro t rest last
    cases reads.last last with
    | pseudoElement _ => exact ⟨':', _, rfl, by decide⟩
  cases sequence with
  | compound whole => exact compoundBegins reads whole (endsFollows ends)
  | @ended _ tokens last front closes =>
    have begins : BeginsPart (charsOf [last] ++ rest) := by
      rw [charsOf, charsOf, List.append_nil]
      exact pseudo rest closes
    rw [charsOfAppend, List.append_assoc]
    rcases front with rfl | ⟨whole, _⟩
    · intro c place
      obtain ⟨l, peek, inner, _⟩ := peekPart place begins
      exact ⟨l, peek, inner⟩
    · exact compoundBegins reads whole (beginsFollows begins)
  | @combined _ tokens combinator next front _ =>
    rw [charsOfAppend, List.append_assoc, charsOf, List.append_assoc]
    exact compoundBegins reads front (combinatorFollows combinator _)

theorem readSequence {α : Type}
    {loop : Nat → Complex → Option PseudoElement → Cursor → Reading (α × Cursor)}
    (continues : Continues around loop) (free : around ≠ .options) {opens : Bool}
    {tokens before : List Token} {build : Compound → Complex} {n : Nat}
    (sequence : IsSequence p opens tokens) (ends : EndsCompound rest)
    (first : opens = true → c.opensSelector = true) (place : c.At (charsOf tokens ++ rest))
    (bound : 4 * c.rest.length + 3 ≤ n) (adds : Adds build before) :
    ∃ compound last c' body last' c'' m, readCompound n around c = .ok (compound, last, c') ∧
      loop n (build compound) last c' = loop (m + 1) body last' c'' ∧
      Finished p body last' (before ++ tokens) ∧ c.Reaches c'' rest := by
  -- The first compound is read, and then the loop goes round once for each combinator; what was
  -- read before is carried along.
  have enough : 4 * c.rest.length + 2 ≤ n := by omega
  induction sequence generalizing c n before build with
  | compound whole =>
    obtain ⟨compound, c', read, stands, reaches⟩ :=
      readCompoundWhole reads whole free first ends place enough
    obtain ⟨n, rfl⟩ : ∃ m, n = m + 1 := ⟨n - 1, by omega⟩
    exact ⟨compound, none, c', build compound, none, c', n, read, rfl,
      finishedWhole (adds stands), reaches⟩
  | @ended opens tokens last front closes =>
    cases reads.last closes with
    | @pseudoElement name plain =>
      rw [charsOfAppend, List.append_assoc, charsOf, charsOf, List.append_nil] at place
      obtain ⟨compound, c', read, stands, reaches⟩ :=
        readCompoundEnded reads front plain free first ends place enough
      obtain ⟨n, rfl⟩ : ∃ m, n = m + 1 := ⟨n - 1, by omega⟩
      exact ⟨compound, _, c', build compound, _, c', n, read, rfl,
        finishedEnded reads front closes plain adds stands, reaches⟩
  | @combined opens tokens combinator next front sequence ih =>
    rw [charsOfAppend, List.append_assoc, charsOf, List.append_assoc] at place
    have blank : EndsCompound (combinator.chars ++ (charsOf next ++ rest)) := by
      intro d head
      cases combinator <;> cases head <;> decide
    obtain ⟨compound, c', read, stands, reaches⟩ :=
      readCompoundWhole reads front free first blank place enough
    obtain ⟨l, c'', peek, passed, past, stop, comma, close⟩ :=
      combinatorText (sequenceBegins reads sequence ends) reaches.place
    obtain ⟨n, rfl⟩ : ∃ m, n = m + 1 := ⟨n - 1, by omega⟩
    have less := reaches.less
    have less' := past.less
    have bound : 4 * c''.rest.length + 3 ≤ n := by omega
    have enough : 4 * c''.rest.length + 2 ≤ n := by omega
    obtain ⟨compound', last', d, body, last'', e, m, read', looped, finished, reaches'⟩ :=
      ih (by simp) past.place bound (addsCombined combinator (adds stands)) enough
    refine ⟨compound, none, c', body, last'', e, m, read, ?_, ?_,
      reaches.trans (past.trans reaches')⟩
    · rw [continues peek passed stop comma close, read']
      exact looped
    · have tokensJoined : before ++ tokens ++ [Token.combinator combinator] ++ next =
          before ++ (tokens ++ .combinator combinator :: next) := by simp
      exact tokensJoined ▸ finished

end

/-! Negations. -/

theorem insideRead : legible.inside.Read .negation where
  head := id
  parts := readQualifies .negation
  begins := fun rest qualifies => qualifiesBegins qualifies rest
  last := False.elim

theorem closeEnds (rest : List Char) : EndsCompound (')' :: rest) := by
  intro d head
  cases head
  decide

theorem readNegationClose {n : Nat} {body : Complex} (next : c.Takes (.delim ')') rest) :
    readNegation (n + 1) body none c = .ok (body, c.advance) := by
  obtain ⟨start, peek⟩ := next.peek
  rw [readNegation, next.skip (by simp)]
  simp [peek, bind, Except.bind]

theorem readNegationBody {body : List Token} {n : Nat}
    (holds : IsSequence legible.inside false body) (place : c.At (charsOf body ++ ')' :: rest))
    (bound : 4 * c.rest.length + 3 ≤ n) :
    ∃ tree c', readFunction (n + 1) .free "not" c = .ok (.negation tree, c') ∧
      tree.tokens = .ok body ∧ c.Reaches c' rest := by
  obtain ⟨l, peek, inner⟩ := sequenceBegins insideRead holds (closeEnds rest) c place
  obtain ⟨compound, last, c', tree, last', c'', m, read, looped, finished, reaches⟩ :=
    readSequence insideRead negationContinues (by decide) holds (closeEnds rest) (by simp) place
      bound addsFirst
  have none : last' = none := by
    rcases finished.last with none | ⟨name, _, closes, _⟩
    · exact none
    · exact closes.elim
  subst none
  have close := takesMark reaches.place (by decide)
  refine ⟨tree, c''.advance, ?_, ?_, reaches.trans close.reaches⟩
  · rw [readFunction, peekSkip peek (innerVisible inner)]
    simp [peek, read, looped, readNegationClose close, bind, Except.bind]
  · obtain ⟨tokens, ok, same⟩ := bindOk finished.tokens
    cases same
    exact ok

theorem readNegationPart {opens started : Bool} {compound : Compound} {body : List Token}
    {n : Nat} (holds : IsSequence legible.inside false body)
    (place : c.At ((Token.not body).chars ++ rest)) (bound : 4 * c.rest.length ≤ n) :
    ∃ p c', readParts (n + 1) .free opens started compound none c =
        readParts n .free opens true (.qualified compound p) none c' ∧
      p.isSupported = true ∧ p.token = .ok (.not body) ∧ c.Reaches c' rest := by
  rw [notChars] at place
  have plain : IsPlainIdent "not" := by unfold IsPlainIdent; decide
  have next := takesMark place (by decide)
  have word := takesPlain next.reaches.place plain (by intro d head; cases head; decide)
  have opened := takesMark word.reaches.place (by decide)
  have colon := next.reaches.less
  have ident := word.reaches.less
  have bracket := opened.reaches.less
  obtain ⟨n, rfl⟩ : ∃ m, n = m + 2 := ⟨n - 2, by omega⟩
  have enough : 4 * c.advance.advance.advance.rest.length + 3 ≤ n := by omega
  obtain ⟨tree, c', read, tokens, reaches⟩ :=
    readNegationBody holds opened.reaches.place enough
  refine ⟨.negation tree, c', readColonPart next (readFunctionColon word plain (by decide) read),
    rfl, ?_, next.reaches.trans (word.reaches.trans (opened.reaches.trans reaches))⟩
  simp [Part.token, tokens, bind, Except.bind]

theorem outsideRead : legible.outside.Read .free where
  head := id
  parts := by
    intro opens opens' t c rest n started compound part first follows place bound
    cases part with
    | simple qualifies =>
      exact readQualifies .free started compound qualifies first follows place bound
    | negation holds => exact readNegationPart holds place bound
  begins := fun rest part => partsBegins part rest
  last := id

end SelectorRank
