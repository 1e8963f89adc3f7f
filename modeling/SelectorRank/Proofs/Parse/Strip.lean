import SelectorRank.CommandLine.Program
import SelectorRank.Diagnostic
import SelectorRank.Proofs.Grammar.Alike
import SelectorRank.Proofs.Grammar.Weight
import SelectorRank.Proofs.Lexeme.Edge
import SelectorRank.Proofs.Text.Lines
import SelectorRank.Proofs.Token.Tally

/-! Lines that are stripped before they are parsed. -/
namespace SelectorRank
open Text

/-! A number or a lone hyphen begins no selector. -/

inductive Shape.Numeric : Shape → Prop where
  | number {digits : String} : Numeric (.number digits)
  | delim {c : Char} : c.isDigit = true ∨ c = '-' → Numeric (.delim c)

theorem Shape.Numeric.other {shape : Shape} (numeric : shape.Numeric) {d : Char}
    (mark : d.isDigit = false ∧ d ≠ '-') : shape ≠ .delim d := by
  rintro rfl
  cases numeric with
  | delim first => simp [mark] at first

theorem Shape.Numeric.inner {shape : Shape} (numeric : shape.Numeric) :
    shape.endsCompound = false := by
  have other {d : Char} (mark : d.isDigit = false ∧ d ≠ '-') := numeric.other mark
  cases numeric with
  | number => rfl
  | @delim c first =>
    simp only [ne_eq, Shape.delim.injEq] at other
    simp [Shape.endsCompound, other]

section
variable {l : Lexeme} (numeric : l.shape.Numeric)
include numeric

theorem partsRejected (n : Nat) (around : Surrounding) (opens : Bool) (compound : Compound)
    {c : Cursor} (peek : c.peek = .ok l) :
    Gives (fun _ => False) (readParts n around opens false compound none c) := by
  cases n with
  | zero =>
    rw [readParts, peek]
    trivial
  | succ n =>
    rw [readParts, peek]
    change Gives _ (if l.shape.endsCompound = true then _ else _)
    rw [numeric.inner, if_neg Bool.false_ne_true]
    dsimp only
    split
    · next same => rw [same] at numeric; cases numeric
    · next same => exact absurd same (numeric.other (by decide))
    · next same => exact absurd same (numeric.other (by decide))
    · next same => exact absurd same (numeric.other (by decide))
    · next same => exact absurd same (numeric.other (by decide))
    · trivial

theorem elementAbsent {c : Cursor} (peek : c.peek = .ok l) : readElement c = .ok (none, c) := by
  rw [readElement, peek]
  dsimp only [bind, Except.bind]
  split
  · rfl
  · next first same =>
    split at same
    · next shape => rw [shape] at numeric; cases numeric
    · next shape => exact absurd shape (numeric.other (by decide))
    · cases same

theorem numericRejected (n : Nat) (passed : Option Shape) (rest : Lexemes) :
    Gives (fun _ => False) (readList n ⟨passed, .next l rest⟩) := by
  have visible : l.shape ≠ .blank := by
    intro blank
    rw [blank] at numeric
    cases numeric
  cases n with
  | zero => trivial
  | succ n =>
    have skipped : (Cursor.mk passed (.next l rest)).skipBlanks = ⟨passed, .next l rest⟩ := by
      rw [Cursor.skipBlanks, Cursor.afterBlanks, if_neg visible]
    refine Yields.bind ?_ fun _ => False.elim
    rw [readCompound, skipped, elementAbsent numeric rfl]
    cases n with
    | zero => trivial
    | succ n => exact partsRejected numeric n _ _ _ rfl

end

theorem scanNumeric {c : Char} {cs : List Char} (space : isSpace c = false)
    (first : c.isDigit = true ∨ c = '-') (noName : identLength (c :: cs) = 0) :
    ∃ shape length, scan c cs = .lexeme shape length ∧ shape.Numeric := by
  have other : c ∉ ['#', '\x27', '\x22', '/'] := by
    have marks : ∀ d ∈ ['#', '\x27', '\x22', '/'], d.isDigit = false ∧ d ≠ '-' := by decide
    intro member
    simp [marks c member] at first
  cases length : numberLength (c :: cs) with
  | zero => exact ⟨_, _, scanDelim space noName other length, .delim first⟩
  | succ n => exact ⟨_, _, scanNumber space noName other length, .number⟩

theorem readUnnumbered {source : List Char} {list : List Written}
    (read : readSource source = .ok list) {c : Char} {cs : List Char}
    (whole : source.map readable = c :: cs) (space : isSpace c = false) :
    Unnumbered (c :: cs) := by
  have accepted (first : c.isDigit = true ∨ c = '-')
      (noName : identLength (c :: cs) = 0) : False := by
    obtain ⟨shape, length, scanned, numeric⟩ := scanNumeric space first noName
    have rejected := numericRejected (l := ⟨shape, 0⟩) numeric (callBound (Cursor.ofSource source))
      none (lexemesFrom (length - 1) 1 cs)
    have cursor : Cursor.ofSource source =
        ⟨none, .next ⟨shape, 0⟩ (lexemesFrom (length - 1) 1 cs)⟩ := by
      rw [Cursor.ofSource, lexemes, whole, lexemesFirst, scanned]
      rfl
    rw [readSource, cursor] at read
    rw [cursor, read] at rejected
    exact rejected
  refine ⟨c, cs, rfl, ?_, ?_⟩
  · by_contra digit
    exact accepted (.inl (by simpa using digit)) (identLengthDigit (by simpa using digit) cs)
  · rintro rfl
    by_contra starts
    exact accepted (.inr rfl) (by rw [identLength, if_neg starts])

/-! What a parsed text weighs. -/

theorem convertedWeight {source : String} {list : List Written} {selectors : List Selector}
    (made : List.Forall₂ (fun w s => convert source w = .ok s) list selectors) (w : Weight) :
    (list.map (Written.weight w)).sum = ((selectors.map Selector.tokens).map w.tokens).sum := by
  induction made with
  | nil => rfl
  | cons converted _ ih =>
    obtain ⟨tokens, given, rfl⟩ := convertSource converted
    rw [List.map_cons, List.map_cons, List.map_cons, List.sum_cons, List.sum_cons, ih,
      ← writtenWeight w given]
    rfl

theorem parsedRead {source : String} {selectors : List Selector}
    (parsed : parseList source = .ok selectors) :
    ∃ list, readSource source.toList = .ok list ∧ list.mapM (convert source) = .ok selectors := by
  unfold parseList at parsed
  split at parsed
  · cases parsed
  · next list read => exact ⟨list, read, parsed⟩

theorem parsedWeight {source : String} {selectors : List Selector}
    (parsed : parseList source = .ok selectors) (w : Weight) :
    (lexemes source.toList).tally w 0 = ((selectors.map Selector.tokens).map w.tokens).sum ∧
      (lexemes source.toList).depth 0 = 0 := by
  obtain ⟨list, read, converted⟩ := parsedRead parsed
  have spends := readListSpends w (callBound (Cursor.ofSource source.toList))
    (c := Cursor.ofSource source.toList) (lexemesWhole 0 0 _)
  rw [readSource] at read
  rw [read] at spends
  exact ⟨spends.1.trans (convertedWeight (mapMPairs converted) w), spends.2⟩

theorem parsedSettled {source : String} {selectors : List Selector}
    (parsed : parseList source = .ok selectors) : Settled (lexemes source.toList) := by
  obtain ⟨tally, depth⟩ := parsedWeight parsed markWeight
  refine ⟨depth, tally.trans (List.sum_eq_zero_iff_forall_eq_nat.mpr fun m member => ?_)⟩
  obtain ⟨tokens, _, rfl⟩ := List.mem_map.mp member
  exact silentTokens markWeight (fun _ => rfl) tokens

/-! Agreement. -/

def Rejected (source : String) : Prop := ∃ f, parseList source = .error f

/-- Both sources are parsed to the same lists of tokens, or both are rejected. -/
inductive Agree (source source' : String) : Prop where
  | parsed {selectors selectors' : List Selector} : parseList source = .ok selectors →
      parseList source' = .ok selectors' →
      selectors.map Selector.tokens = selectors'.map Selector.tokens → Agree source source'
  | rejected : Rejected source → Rejected source' → Agree source source'

/-- The same lexemes, apart from blanks at both ends and the places at which they start. -/
def SameLexemes (source source' : String) : Prop :=
  (Cursor.afterBlanks (lexemes source.toList)).Alike (Cursor.afterBlanks (lexemes source'.toList))

theorem SameLexemes.parsed {source source' : String} (same : SameLexemes source source')
    {selectors : List Selector} (parsed : parseList source = .ok selectors) :
    parseList source' = .ok selectors := by
  obtain ⟨list, read, converted⟩ := parsedRead parsed
  have alike : (Cursor.ofSource source.toList).skipBlanks.Alike
    (Cursor.ofSource source'.toList).skipBlanks := ⟨rfl, same⟩
  have read' := readSourceAlike alike read
  unfold parseList
  rw [read']
  refine mapMKept (fun w s made => ?_) converted
  obtain ⟨tokens, given, rfl⟩ := convertSource made
  rw [convert, given]

theorem SameLexemes.agree {source source' : String} (same : SameLexemes source source') :
    Agree source source' := by
  have back : SameLexemes source' source := Lexemes.Alike.symm same
  cases parsed : parseList source with
  | ok selectors => exact .parsed parsed (same.parsed parsed) rfl
  | error f =>
    cases parsed' : parseList source' with
    | ok selectors => cases (back.parsed parsed').symm.trans parsed
    | error f' => exact .rejected ⟨f, parsed⟩ ⟨f', parsed'⟩

/-! Lines. -/

/-- The blanks at both ends of a line. -/
def stripped (cs : List Char) : List Char :=
  cs.takeWhile isBlank ++ ((trimLeft isBlank cs).reverse.takeWhile isBlank).reverse

theorem marginsRead {margins : List Char} (all : ∀ s ∈ margins, Margin s) :
    margins.map readable = margins := by
  refine readableWhole fun s member => ?_
  rintro rfl
  exact absurd (all _ member).blank (by decide)

theorem visibleRead {c : Char} (visible : isBlank c = false) : isSpace (readable c) = false := by
  unfold readable
  split
  · decide
  · rw [← Bool.not_eq_true] at visible ⊢
    rw [isSpaceNumber]
    simp only [isBlank, Bool.or_eq_true, Bool.and_eq_true, decide_eq_true_eq, beq_iff_eq] at visible
    omega

theorem readableMark {c : Char} (mark : readable c = '\\') : readable c = c := by
  unfold readable at mark ⊢
  split at mark
  · cases mark
  · next other => rw [if_neg other]

/-- A line among its lexemes: blanks, the text as it is read, and blanks again. -/
structure Strips (line : String) (lead text trail : List Char) : Prop where
  lexemes : lexemes line.toList = lexemesFrom 0 0 (lead ++ (text.map readable ++ trail))
  before : ∀ s ∈ lead, Margin s
  behind : ∀ s ∈ trail, Margin s
  visible {c rest} : text = c :: rest → isBlank c = false

theorem lineStrips (line : String) (single : ∀ c ∈ line.toList, isBreak c = false) :
    Strips line (line.toList.takeWhile isBlank) (trim isBlank line.toList)
      ((trimLeft isBlank line.toList).reverse.takeWhile isBlank).reverse := by
  have whole := trimParts isBlank line.toList
  have before : ∀ s ∈ line.toList.takeWhile isBlank, Margin s := fun s member =>
    ⟨List.mem_takeWhile_imp member, single s ((List.takeWhile_sublist _).subset member)⟩
  have behind : ∀ s ∈ ((trimLeft isBlank line.toList).reverse.takeWhile isBlank).reverse,
      Margin s := by
    intro s member
    refine ⟨List.mem_takeWhile_imp (List.mem_reverse.mp member), single s ?_⟩
    rw [whole]
    simp [List.mem_reverse.mp member]
  refine ⟨?_, before, behind, trimFirst⟩
  conv_lhs => rw [SelectorRank.lexemes, whole]
  rw [List.map_append, List.map_append, marginsRead before, marginsRead behind]

theorem lexemesText (text : List Char) :
    lexemes (String.ofList text).toList = lexemesFrom 0 0 (text.map readable) := by
  rw [String.toList_ofList, lexemes]

theorem strippedSame {line : String} {lead text trail : List Char}
    (strips : Strips line lead text trail) (some : text ≠ [])
    {selectors selectors' : List Selector} (parsed : parseList line = .ok selectors)
    (parsed' : parseList (String.ofList text) = .ok selectors')
    (same : selectors.map Selector.tokens = selectors'.map Selector.tokens) :
    SameLexemes line (String.ofList text) := by
  have settled := parsedSettled parsed'
  rw [lexemesText] at settled
  obtain ⟨list, read, _⟩ := parsedRead parsed'
  have unnumbered : Unnumbered (text.map readable) := by
    obtain ⟨c, rest, rfl⟩ := List.exists_cons_of_ne_nil some
    have visible := strips.visible rfl
    rw [String.toList_ofList] at read
    exact readUnnumbered read (List.map_cons ..) (visibleRead visible)
  rcases edgesGrow strips.before strips.behind settled unnumbered with alike | more
  · rw [SameLexemes, lexemesText, strips.lexemes]
    exact alike
  · have first := (parsedWeight parsed foreignWeight).1
    have second := (parsedWeight parsed' foreignWeight).1
    rw [strips.lexemes, same] at first
    rw [lexemesText, ← first] at second
    exact absurd second more.ne

/-- What is read from a line is what its text is parsed to, exactly as long as the blanks around it
belong to no lexeme; blanks of selector text that no backslash escapes never do. -/
theorem stripAgrees (line : String) (single : ∀ c ∈ line.toList, isBreak c = false)
    (shown : trim isBlank line.toList ≠ []) :
    let text := String.ofList (trim isBlank line.toList)
    CommandLine.sourcesOf line.toList = [text] ∧ (contentOf line.toList).text = text.toList ∧
    (Agree line text ↔ Rejected line ∧ Rejected text ∨ SameLexemes line text) ∧
    ((∀ c ∈ stripped line.toList, isSpace c = true) → text.toList.getLast? ≠ some '\\' →
      Agree line text) := by
  intro text
  have strips := lineStrips line single
  refine ⟨?_, String.toList_ofList.symm, ⟨fun agree => ?_, ?_⟩, fun plain unmarked => ?_⟩
  · have some : line.toList ≠ [] := by
      intro none
      rw [none] at shown
      exact shown rfl
    rw [CommandLine.sourcesOf, linesSingle single some]
    simp [shown, text]
  · cases agree with
    | parsed parsed parsed' same => exact .inr (strippedSame strips shown parsed parsed' same)
    | rejected left right => exact .inl ⟨left, right⟩
  · rintro (⟨left, right⟩ | same)
    · exact .rejected left right
    · exact same.agree
  · refine SameLexemes.agree ?_
    rw [SameLexemes, strips.lexemes, lexemesText]
    refine plainEdges (fun last => unmarked ?_) strips.behind plain
    rw [List.getLast?_map, Option.map_eq_some_iff] at last
    obtain ⟨c, last, mark⟩ := last
    rw [String.toList_ofList, last, ← mark, readableMark mark]

/-- The blank that a backslash escapes is stripped, and what is left of the line is rejected; other
blanks do no harm. -/
theorem stripAgreesEscape :
    let line := ".a\\ "
    CommandLine.sourcesOf line.toList = [".a\\"] ∧
      parseList line = .ok [.ofTokens [.usual (.className "a ")]] ∧ Rejected ".a\\" ∧
      ¬ Agree line ".a\\" ∧ ¬ SameLexemes line ".a\\" ∧ Agree "\t.a > b " ".a > b" := by
  intro line
  have parsed : parseList line = .ok [.ofTokens [.usual (.className "a ")]] := by decide +kernel
  have failed : parseList ".a\\" =
    .error (complainOf ".a\\" (.expected .selector ⟨.delim '\\', 2⟩)) := by decide +kernel
  obtain ⟨read, _, agrees, _⟩ := stripAgrees line (by decide) (by decide)
  have text : String.ofList (trim isBlank line.toList) = ".a\\" := by decide
  rw [text] at read agrees
  have differ : ¬ Agree line ".a\\" := by
    intro agree
    cases agree with
    | parsed _ parsed' => cases failed.symm.trans parsed'
    | rejected left =>
      obtain ⟨f, failed⟩ := left
      cases parsed.symm.trans failed
  have inner : String.ofList (trim isBlank "\t.a > b ".toList) = ".a > b" := by decide
  obtain ⟨_, _, _, harmless⟩ := stripAgrees "\t.a > b " (by decide) (by decide)
  rw [inner] at harmless
  exact ⟨read, parsed, ⟨_, failed⟩, differ, fun same => differ (agrees.mpr (.inr same)),
    harmless (by decide) (by decide)⟩

end SelectorRank
