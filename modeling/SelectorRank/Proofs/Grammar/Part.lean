import SelectorRank.Grammar.Conversion
import SelectorRank.Proofs.Grammar.Piece
import SelectorRank.Proofs.Outcome

/-! Reading the parts of a compound. Each part takes at least one lexeme and leaves the reader at
the next, with a larger compound that stands for one more token. -/
namespace SelectorRank
open Spelling Unescape Cursor

/-! Compounds in trees. -/

/-- A compound under construction stands for tokens, all of which have tokens. -/
structure Compound.Holds (compound : Compound) (tokens : List Token) : Prop where
  supported : compound.unsupported? = none
  tokens : compound.tokens false = .ok tokens

def Compound.Stands (compound : Compound) (tokens : List Token) : Prop :=
  compound.tokens true = .ok tokens

theorem holdsQualified {compound : Compound} {before : List Token} {part : Part} {t : Token}
    (holds : compound.Holds before) (supported : part.isSupported = true)
    (token : part.token = .ok t) :
    (Compound.qualified compound part).Holds (before ++ [t]) ∧
      (Compound.qualified compound part).Stands (before ++ [t]) := by
  have none : (Compound.qualified compound part).unsupported? = none := by
    simp [Compound.unsupported?, supported, holds.supported]
  refine ⟨⟨none, ?_⟩, ?_⟩
  · simp [Compound.tokens, holds.tokens, token, bind, Except.bind]
  · simp [Compound.Stands, Compound.tokens, none, holds.tokens, token, bind, Except.bind]

/-! What comes next at the end of a compound, or where another token follows. -/

def EndsCompound (rest : List Char) : Prop := ∀ d, rest.head? = some d → d ∈ [' ', ')', ',']

theorem endsFollows {rest : List Char} (ends : EndsCompound rest) : Follows rest := by
  have each : ∀ d ∈ [' ', ')', ','], d ∈ ['#', '.', '[', ':', ' ', ')', ','] := by decide
  exact fun d head => each d (ends d head)

variable {c : Cursor} {rest : List Char}

theorem peekFirst {d : Char} {cs : List Char} {shape : Shape} {n : Nat} (place : c.At (d :: cs))
    (scanned : scan d cs = .lexeme shape n) : ∃ start, c.peek = .ok ⟨shape, start⟩ := by
  obtain ⟨start, same⟩ := place
  exact ⟨start, by simp [peek, same, lexemesFrom, scanned]⟩

theorem peekEnds (place : c.At rest) (ends : EndsCompound rest) :
    ∃ l, c.peek = .ok l ∧ l.shape.endsCompound = true := by
  cases rest with
  | nil =>
    obtain ⟨⟨start, peek⟩, _⟩ := atEnd place
    exact ⟨_, peek, rfl⟩
  | cons d cs =>
    have member := ends d rfl
    simp only [List.mem_cons, List.not_mem_nil, or_false] at member
    rcases member with rfl | rfl | rfl
    · obtain ⟨start, peek⟩ := peekFirst place (n := (cs.takeWhile isSpace).length + 1) rfl
      exact ⟨_, peek, rfl⟩
    · obtain ⟨start, peek⟩ := (takesMark place (by decide)).peek
      exact ⟨_, peek, rfl⟩
    · obtain ⟨start, peek⟩ := (takesMark place (by decide)).peek
      exact ⟨_, peek, rfl⟩

theorem scanFollows {d : Char} (cs : List Char) (sign : d ∈ ['#', '.', '[', ':', ' ', ')', ',']) :
    ∃ shape n, scan d cs = .lexeme shape n ∧ (∀ e, shape = .delim e → e = d) ∧
      (∀ name, shape ≠ .ident name) ∧ shape ≠ .stop ∧ (shape = .blank → d = ' ') := by
  have mark : ∀ {d : Char}, scan d cs = .lexeme (.delim d) 1 → ∃ shape n,
      scan d cs = .lexeme shape n ∧ (∀ e, shape = .delim e → e = d) ∧
      (∀ name, shape ≠ .ident name) ∧ shape ≠ .stop ∧ (shape = .blank → d = ' ') := by
    intro d scanned
    exact ⟨_, _, scanned, fun e same => by cases same; rfl, by simp, by simp, by simp⟩
  simp only [List.mem_cons, List.not_mem_nil, or_false] at sign
  rcases sign with rfl | rfl | rfl | rfl | rfl | rfl | rfl
  · cases length : nameLength 0 cs with
    | zero =>
      apply mark
      have noName : identLength ('#' :: cs) = 0 := rfl
      unfold scan
      rw [noName, length]
      rfl
    | succ n => exact ⟨_, _, scanHash length, by simp, by simp, by simp, by simp⟩
  · cases length : numberLength ('.' :: cs) with
    | zero => exact mark (scanDelim rfl rfl (by decide) length)
    | succ n =>
      exact ⟨_, _, scanNumber rfl rfl (by decide) length, by simp, by simp, by simp, by simp⟩
  · exact mark rfl
  · exact mark rfl
  · exact ⟨.blank, _, rfl, by simp, by simp, by simp, by simp⟩
  · exact mark rfl
  · exact mark rfl

theorem peekFollows (place : c.At rest) (follows : Follows rest) :
    ∃ l, c.peek = .ok l ∧ (∀ d, l.shape = .delim d → d ∈ ['#', '.', '[', ':', ' ', ')', ',']) ∧
      (∀ name, l.shape ≠ .ident name) := by
  cases rest with
  | nil =>
    obtain ⟨⟨start, peek⟩, _⟩ := atEnd place
    exact ⟨_, peek, by simp, by simp⟩
  | cons d cs =>
    have sign := follows d rfl
    obtain ⟨shape, n, scanned, delim, noName, _⟩ := scanFollows cs sign
    obtain ⟨start, peek⟩ := peekFirst place scanned
    exact ⟨_, peek, fun e same => delim e same ▸ sign, noName⟩

theorem followsNoMark {l : Lexeme} {e : Char}
    (delim : ∀ d, l.shape = .delim d → d ∈ ['#', '.', '[', ':', ' ', ')', ','])
    (other : e ∉ ['#', '.', '[', ':', ' ', ')', ',']) : l.shape ≠ .delim e :=
  fun same => other (delim e same)

/-! One part. -/

def ReadsParts (around : Surrounding) (part : Bool → Token → Prop) : Prop :=
  ∀ {opens opens' : Bool} {t : Token} {c : Cursor} {rest : List Char} {n : Nat} (started : Bool)
    (compound : Compound), part opens t → (opens = true → opens' = true) → Follows rest →
    c.At (t.chars ++ rest) → 4 * c.rest.length ≤ n →
    ∃ p c', readParts (n + 1) around opens' started compound none c =
        readParts n around opens' true (.qualified compound p) none c' ∧
      p.isSupported = true ∧ p.token = .ok t ∧ c.Reaches c' rest

theorem readHash {around : Surrounding} {opens started : Bool} {compound : Compound} {n : Nat}
    {name : String} (next : c.Takes (.hash name) rest) :
    readParts (n + 1) around opens started compound none c =
      readParts n around opens true (.qualified compound (.id name)) none c.advance := by
  obtain ⟨start, peek⟩ := next.peek
  rw [readParts]
  simp [peek, Shape.endsCompound, bind, Except.bind]

theorem readClass {around : Surrounding} {opens started : Bool} {compound : Compound} {n : Nat}
    {name : String} {text : List Char} (next : c.Takes (.delim '.') text)
    (named : c.advance.Takes (.ident name) rest) :
    readParts (n + 1) around opens started compound none c =
      readParts n around opens true (.qualified compound (.className name)) none
        c.advance.advance := by
  obtain ⟨start, peek⟩ := next.peek
  rw [readParts]
  simp [peek, Shape.endsCompound, readIdentName named, bind, Except.bind]

theorem readBracket {around : Surrounding} {opens started : Bool} {compound : Compound} {n : Nat}
    {test : AttributeTest} {text : List Char} {c' : Cursor} (next : c.Takes (.delim '[') text)
    (read : readAttribute c.advance = .ok (test, c')) :
    readParts (n + 1) around opens started compound none c =
      readParts n around opens true (.qualified compound (.attribute test)) none c' := by
  obtain ⟨start, peek⟩ := next.peek
  rw [readParts]
  simp [peek, Shape.endsCompound, read, bind, Except.bind]

theorem readColonPart {around : Surrounding} {opens started : Bool} {compound : Compound}
    {n : Nat} {part : Part} {text : List Char} {c' : Cursor} (next : c.Takes (.delim ':') text)
    (read : readColon n around opens c.advance = .ok (.part part, c')) :
    readParts (n + 1) around opens started compound none c =
      readParts n around opens true (.qualified compound part) none c' := by
  obtain ⟨start, peek⟩ := next.peek
  rw [readParts]
  simp [peek, Shape.endsCompound, read, bind, Except.bind]

/-! After a colon. -/

theorem readPseudo {around : Surrounding} {opens opens' : Bool} {n : Nat} {name : String}
    (next : c.Takes (.ident name) rest) (follows : Follows rest)
    (named : legible.pseudoClass opens name) (first : opens = true → opens' = true) :
    readColon (n + 1) around opens' c = .ok (.part (.pseudo name), c.advance) := by
  obtain ⟨plain, notLegacy, scope⟩ := named
  obtain ⟨start, peek⟩ := next.peek
  obtain ⟨l, after, delim, _⟩ := peekFollows next.reaches.place follows
  have noOpen : l.shape ≠ .delim '(' := followsNoMark delim (by decide)
  have placed : ¬ (name = "scope" ∧ opens' = false) := by
    rintro ⟨same, out⟩
    rw [first (scope same)] at out
    cases out
  rw [readColon]
  simp [peek, readIdentName next, loweredPlain plain, notLegacy, after, noOpen, placed, bind,
    Except.bind]

theorem readFunctionColon {around : Surrounding} {opens : Bool} {n : Nat} {name : String}
    {part : Part} {text : List Char} {c' : Cursor} (next : c.Takes (.ident name) ('(' :: text))
    (plain : IsPlainIdent name) (notLegacy : isLegacyPseudoElement name = false)
    (read : readFunction n around name c.advance.advance = .ok (part, c')) :
    readColon (n + 1) around opens c = .ok (.part part, c') := by
  obtain ⟨start, peek⟩ := next.peek
  obtain ⟨start', after⟩ := (takesMark next.reaches.place (by decide)).peek
  rw [readColon]
  simp [peek, readIdentName next, loweredPlain plain, notLegacy, after, read, bind, Except.bind]

theorem readWordsPeek {n : Nat} {words : List Word} {c' : Cursor}
    (read : readWords n c = .ok (words, c')) : ∃ l, c.skipBlanks.peek = .ok l := by
  cases n with
  | zero =>
    rw [readWords] at read
    obtain ⟨l, _, fault⟩ := bindOk read
    cases fault
  | succ n =>
    rw [readWords] at read
    obtain ⟨l, peek, _⟩ := bindOk read
    exact ⟨l, peek⟩

theorem readWordsFunction {around : Surrounding} {n : Nat} {name : String} {words : List Word}
    {c' : Cursor} (plain : holdsSelectors name = false)
    (read : readWords n c = .ok (words, c')) :
    readFunction (n + 1) around name c = .ok (.function name words, c') := by
  obtain ⟨l, peek⟩ := readWordsPeek read
  have skipped : readWords n c.skipBlanks = .ok (words, c') := by
    rw [← read]
    cases n <;> simp only [readWords, skipBlanksTwice]
  simp only [holdsSelectors, Bool.or_eq_false_iff, decide_eq_false_iff_not] at plain
  rw [readFunction]
  simp [peek, plain, skipped, bind, Except.bind]

/-! All parts but negations. -/

section
variable {around : Surrounding} {opens : Bool} {n : Nat} (started : Bool) (compound : Compound)

theorem readBracketPart {name : String} {space : Namespace}
    (comparison : Option (AttributeOperator × String)) (spaced : legible.Spaces space)
    (named : IsReadName name) (valued : ∀ given ∈ comparison, legible.value given.2)
    (place : c.At ((attributeToken name space comparison).chars ++ rest)) :
    ∃ p c', readParts (n + 1) around opens started compound none c =
        readParts n around opens true (.qualified compound p) none c' ∧
      p.isSupported = true ∧ p.token = .ok (attributeToken name space comparison) ∧
      c.Reaches c' rest := by
  simp only [attributeChars, List.cons_append, List.append_assoc, List.nil_append] at place
  have next := takesMark place (by decide)
  obtain ⟨c', read, reaches⟩ := readAttributeText named valued spaced next.reaches.place
  exact ⟨_, c', readBracket next read, rfl, attributeTestToken comparison spaced,
    next.reaches.trans reaches⟩

theorem readFunctionPart {name : String} {argument : Argument} (named : legible.function name)
    (given : legible.Gives (isCounting name) argument) (bound : 4 * c.rest.length ≤ n)
    (place : c.At ((Token.usual (.pseudoClass name (some argument))).chars ++ rest)) :
    ∃ p c', readParts (n + 1) around opens started compound none c =
        readParts n around opens true (.qualified compound p) none c' ∧
      p.isSupported = true ∧ p.token = .ok (.usual (.pseudoClass name (some argument))) ∧
      c.Reaches c' rest := by
  simp only [pseudoClassChars, argumentChars, List.cons_append, List.append_assoc,
    List.nil_append] at place
  obtain ⟨plain, notLegacy, noSelectors⟩ := named
  have next := takesMark place (by decide)
  have word := takesPlain next.reaches.place plain (by intro d head; cases head; decide)
  have opened := takesMark word.reaches.place (by decide)
  have colon := next.reaches.less
  have ident := word.reaches.less
  have bracket := opened.reaches.less
  obtain ⟨n, rfl⟩ : ∃ m, n = m + 2 := ⟨n - 2, by omega⟩
  obtain ⟨words, c', read, reaches, converted⟩ :=
    readArgumentWords given opened.reaches.place (n := n) (by omega)
  refine ⟨.function name words, c', ?_, rfl, ?_, ?_⟩
  · exact readColonPart next
      (readFunctionColon word plain notLegacy (readWordsFunction noSelectors read))
  · simp [Part.token, converted, bind, Except.bind]
  · exact next.reaches.trans (word.reaches.trans (opened.reaches.trans reaches))

end

theorem readQualifies (around : Surrounding) : ReadsParts around legible.Qualifies := by
  intro opens opens' t c rest n started compound qualifies first follows place bound
  have ends := (followsEnds follows).1.1
  cases qualifies with
  | @id name named =>
    have cut := cutHash named ends
    rw [String.ofList_toList] at cut
    have next := takes place cut
    exact ⟨_, _, readHash next, rfl, rfl, next.reaches⟩
  | @className name named =>
    have next := takes (show c.At (['.'] ++ (identifier name.toList ++ rest)) from place)
      (cutPoint (identifierNoDigit _ named.1.visible named.1.some))
    have after := takesName next.reaches.place named ends
    exact ⟨_, _, readClass next after, rfl, rfl, next.reaches.trans after.reaches⟩
  | presence spaced named =>
    exact readBracketPart started compound none spaced named (by simp) place
  | comparison spaced named valued =>
    exact readBracketPart started compound (some (_, _)) spaced named
      (fun given member => Option.mem_some.mp member ▸ valued) place
  | @pseudoClass name named =>
    have next := takesMark place (by decide)
    have after := takesPlain next.reaches.place named.1 ends
    have less := next.reaches.less
    obtain ⟨n, rfl⟩ : ∃ m, n = m + 1 := ⟨n - 1, by omega⟩
    exact ⟨_, _, readColonPart next (readPseudo after follows named first), rfl, rfl,
      next.reaches.trans after.reaches⟩
  | function named given =>
    exact readFunctionPart started compound named given bound place

end SelectorRank
