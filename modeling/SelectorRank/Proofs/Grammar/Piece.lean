import SelectorRank.Proofs.Grammar.Vocabulary

/-! Reading the pieces of canonical text: names, arguments and attribute tests. -/
namespace SelectorRank
open Spelling Unescape Cursor

variable {c : Cursor} {rest : List Char}

/-! Names and marks come next. -/

theorem takesName {name : String} (place : c.At (identifier name.toList ++ rest))
    (named : IsReadName name) (ends : EndsName rest) : c.Takes (.ident name) rest := by
  have cut := cutIdent named.1 named.2 ends
  rw [String.ofList_toList] at cut
  exact takes place cut

theorem takesPlain {name : String} (place : c.At (name.toList ++ rest))
    (plain : IsPlainIdent name) (ends : EndsName rest) : c.Takes (.ident name) rest := by
  rw [← identifierPlain plain.1 plain.2] at place
  exact takesName place (plainReadName plain) ends

theorem takesString {value : String} (place : c.At (Spelling.string value.toList ++ rest))
    (valued : legible.value value) : c.Takes (.string value) rest := by
  have cut := cutString rest valued.1 valued.2
  rw [String.ofList_toList] at cut
  exact takes place cut

theorem takesMark {d : Char} (place : c.At (d :: rest)) (mark : d ∈ marks) :
    c.Takes (.delim d) rest :=
  takes (show c.At ([d] ++ rest) from place) (cutMark rest mark)

theorem readIdentName {name : String} (next : c.Takes (.ident name) rest) :
    readIdent c = .ok (name, c.advance) := by
  obtain ⟨start, peek⟩ := next.peek
  simp [readIdent, peek, bind, Except.bind]

def sideShape : Option String → Shape
  | none => .delim '*'
  | some name => .ident name

theorem takesSide {side : Option String} (place : c.At (sideChars side ++ rest))
    (named : ∀ n ∈ side, IsReadName n) (ends : EndsName rest) :
    c.Takes (sideShape side) rest := by
  cases side with
  | none => exact takesMark place (by decide)
  | some name => exact takesName place (named name rfl) ends

theorem readSide {side : Option String} (next : c.Takes (sideShape side) rest) :
    readIdentOrStar c = .ok (side, c.advance) := by
  obtain ⟨start, peek⟩ := next.peek
  cases side <;> simp [readIdentOrStar, peek, sideShape, bind, Except.bind]

/-! Words. -/

theorem readWordsClose {n : Nat} (next : c.Takes (.delim ')') rest) :
    readWords (n + 1) c = .ok ([], c.advance) := by
  obtain ⟨start, peek⟩ := next.peek
  simp [readWords, next.skip (by simp), peek, Shape.word?, bind, Except.bind]

theorem readWordsNext {n : Nat} {shape : Shape} {word : Word} {words : List Word} {c' : Cursor}
    (next : c.Takes shape rest) (worded : shape.word? = some word)
    (later : readWords n c.advance = .ok (words, c')) :
    readWords (n + 1) c = .ok (word :: words, c') := by
  obtain ⟨start, peek⟩ := next.peek
  have visible : shape ≠ .blank := by
    rintro rfl
    cases worded
  simp [readWords, next.skip visible, peek, worded, later, bind, Except.bind]

theorem seriesWord {shape : Shape} {front : List Char} (worded : IsSeriesWord shape front) :
    ∃ word, shape.word? = some word ∧ word.value.toList = front ∧ word.isString = false := by
  rcases worded with rfl | rfl | ⟨d, rfl | rfl, rfl, rfl⟩
  · exact ⟨.ident (String.ofList front), rfl, by simp [Word.value], rfl⟩
  · exact ⟨.number (String.ofList front), rfl, by simp [Word.value], rfl⟩
  · exact ⟨.plus, rfl, rfl, rfl⟩
  · exact ⟨.minus, rfl, rfl, rfl⟩

theorem readSeriesWords {t : List Char} {n : Nat} (chars : ∀ d ∈ t, Text.IsSeriesChar d)
    (place : c.At (t ++ ')' :: rest)) (bound : c.rest.length < n) :
    ∃ words c', readWords n c = .ok (words, c') ∧ c.Reaches c' rest ∧
      words.flatMap (fun w => w.value.toList) = t ∧ words.any Word.isString = false := by
  -- Each word takes a lexeme, so the induction is on the bound.
  induction n generalizing c t with
  | zero => omega
  | succ n ih =>
    by_cases some : t = []
    · subst some
      have next := takesMark place (by decide)
      exact ⟨[], c.advance, readWordsClose next, next.reaches, rfl, rfl⟩
    · obtain ⟨front, back, shape, rfl, _, worded, cut⟩ := cutSeries rest chars some
      obtain ⟨word, is, text, plain⟩ := seriesWord worded
      rw [List.append_assoc] at place
      have next := takes place cut
      have reaches := next.reaches
      obtain ⟨words, c', read, later, joined, none⟩ :=
        ih (fun d member => chars d (by simp [member])) reaches.place
          (by have := reaches.less; omega)
      refine ⟨word :: words, c', readWordsNext next is read, reaches.trans later, ?_, ?_⟩
      · rw [List.flatMap_cons, text, joined]
      · rw [List.any_cons, plain, none]
        rfl

theorem parityPlain (p : Parity) : IsPlainIdent p.word := by
  cases p <;> (unfold IsPlainIdent; decide)

theorem parityRead (p : Parity) : parityOf? [.ident p.word] = some p := by
  cases p <;> rfl

theorem seriesNoParity {s : Series} {words : List Word}
    (joined : words.flatMap (fun w => w.value.toList) = s.text) : parityOf? words = none := by
  unfold parityOf?
  split
  · next value =>
    have text : value.toList = s.text := by simpa [Word.value] using joined
    have whole : s.text.map Char.toLower = s.text := Series.textLowered s
    have lowered : lowered value = value := by
      rw [lowered, text, whole, ← text, String.ofList_toList]
    obtain ⟨odd, even⟩ := Series.textNoWord s
    have noOdd : value ≠ "odd" := fun same => odd (by rw [← text, same]; rfl)
    have noEven : value ≠ "even" := fun same => even (by rw [← text, same]; rfl)
    rw [lowered, Parity.ofWord?, if_neg noOdd, if_neg noEven]
  · rfl

theorem readWordAlone {n : Nat} {shape : Shape} {word : Word}
    (next : c.Takes shape (')' :: rest)) (worded : shape.word? = some word)
    (bound : c.rest.length < n) :
    ∃ c', readWords n c = .ok ([word], c') ∧ c.Reaches c' rest := by
  have reaches := next.reaches
  have close := takesMark reaches.place (by decide)
  have later := close.reaches
  obtain ⟨n, rfl⟩ : ∃ m, n = m + 2 := ⟨n - 2, by have := reaches.less; have := later.less; omega⟩
  exact ⟨_, readWordsNext next worded (readWordsClose close), reaches.trans later⟩

theorem readArgumentWords {name : String} {argument : Argument} {n : Nat}
    (given : legible.Gives (isCounting name) argument)
    (place : c.At (argument.chars ++ ')' :: rest)) (bound : c.rest.length < n) :
    ∃ words c', readWords n c = .ok (words, c') ∧ c.Reaches c' rest ∧
      argumentOf name words = .ok argument := by
  cases argument with
  | identifier value =>
    have next := takesName place given.2 (closeEndsName rest (.inl rfl))
    obtain ⟨c', read, reaches⟩ := readWordAlone next rfl bound
    exact ⟨_, c', read, reaches, by simp [argumentOf, given.1]⟩
  | string value =>
    have next := takesString place given.2
    obtain ⟨c', read, reaches⟩ := readWordAlone next rfl bound
    exact ⟨_, c', read, reaches, by simp [argumentOf, given.1]⟩
  | parity value =>
    have counting : isCounting name = true := given
    have next := takesPlain place (parityPlain value) (closeEndsName rest (.inl rfl))
    obtain ⟨c', read, reaches⟩ := readWordAlone next rfl bound
    exact ⟨_, c', read, reaches, by simp [argumentOf, counting, parityRead]⟩
  | series value =>
    obtain ⟨counting, short⟩ := given
    obtain ⟨words, c', read, reaches, joined, none⟩ :=
      readSeriesWords (Series.textChars value) place bound
    refine ⟨words, c', read, reaches, ?_⟩
    simp [argumentOf, counting, seriesNoParity joined, seriesOf?, none, joined,
      Series.ofTextRead short]

/-! Attribute tests. -/

theorem readFlagClose (next : c.Takes (.delim ']') rest) : readFlag c = .ok (none, c.advance) := by
  obtain ⟨start, peek⟩ := next.peek
  simp [readFlag, next.skip (by simp), peek, bind, Except.bind]

theorem readComparisonText (operator : String) {value : String}
    (place : c.At (Spelling.string value.toList ++ ']' :: rest)) (valued : legible.value value) :
    ∃ c', readComparison operator c = .ok (⟨operator, value, none⟩, c') ∧ c.Reaches c' rest := by
  have next := takesString place valued
  have close := takesMark next.reaches.place (by decide)
  obtain ⟨start, peek⟩ := next.peek
  refine ⟨_, ?_, next.reaches.trans close.reaches⟩
  simp [readComparison, next.skip (by simp), peek, readFlagClose close, bind, Except.bind]

def comparisonOf (comparison : Option (AttributeOperator × String)) : Option Comparison :=
  comparison.map (fun given => ⟨given.1.symbol, given.2, none⟩)

theorem readOperatorPair (space name : Option String) {d : Char} {value : String}
    (place : c.At (d :: '=' :: (Spelling.string value.toList ++ ']' :: rest)))
    (pair : d ∈ ['^', '$', '*', '~', '|']) (valued : legible.value value) :
    ∃ c', readOperator space name c =
      .ok (⟨space, name, some ⟨String.ofList [d, '='], value, none⟩⟩, c') ∧ c.Reaches c' rest := by
  have marked : ∀ d ∈ ['^', '$', '*', '~', '|'], d ∈ marks ∧ d ≠ ']' ∧ d ≠ '=' ∧
      (d = '^' || d = '$' || d = '*' || d = '~' || d = '|' || d = '!') = true := by decide
  obtain ⟨mark, close, equal, operator⟩ := marked d pair
  have next := takesMark place mark
  have equals := takesMark next.reaches.place (by decide)
  obtain ⟨c', read, reaches⟩ :=
    readComparisonText (String.singleton d ++ "=") equals.reaches.place valued
  obtain ⟨start, peek⟩ := next.peek
  obtain ⟨start', peek'⟩ := equals.peek
  refine ⟨c', ?_, next.reaches.trans (equals.reaches.trans reaches)⟩
  simp [readOperator, next.skip (by simp), peek, peek', read, operator, bind, Except.bind]

theorem readOperatorText (space name : Option String)
    {comparison : Option (AttributeOperator × String)}
    (place : c.At (comparisonChars comparison ++ ']' :: rest))
    (valued : ∀ given ∈ comparison, legible.value given.2) :
    ∃ c', readOperator space name c = .ok (⟨space, name, comparisonOf comparison⟩, c') ∧
      c.Reaches c' rest := by
  cases comparison with
  | none =>
    have next := takesMark place (by decide)
    obtain ⟨start, peek⟩ := next.peek
    refine ⟨_, ?_, next.reaches⟩
    simp [readOperator, next.skip (by simp), peek, comparisonOf, bind, Except.bind]
  | some given =>
    obtain ⟨operator, value⟩ := given
    have valued := valued _ rfl
    simp only [comparisonChars, List.append_assoc] at place
    cases operator with
    | equals =>
      have next : c.Takes (.delim '=') _ := takesMark place (by decide)
      obtain ⟨c', read, reaches⟩ := readComparisonText "=" next.reaches.place valued
      obtain ⟨start, peek⟩ := next.peek
      refine ⟨c', ?_, next.reaches.trans reaches⟩
      simp [readOperator, next.skip (by simp), peek, read, bind, Except.bind, comparisonOf,
        AttributeOperator.symbol]
    | _ => exact readOperatorPair space name place (by decide) valued

/-- A bar comes first in a comparison only as part of its operator. -/
theorem takesComparison {comparison : Option (AttributeOperator × String)}
    (place : c.At (comparisonChars comparison ++ ']' :: rest)) :
    (∃ value, comparison = some (.dashMatch, value) ∧
      c.Takes (.delim '|') ('=' :: (Spelling.string value.toList ++ ']' :: rest))) ∨
    ∃ d rest', d ≠ '|' ∧ c.Takes (.delim d) rest' := by
  cases comparison with
  | none => exact .inr ⟨']', rest, by decide, takesMark place (by decide)⟩
  | some given =>
    obtain ⟨operator, value⟩ := given
    simp only [comparisonChars, List.append_assoc] at place
    cases operator with
    | dashMatch => exact .inl ⟨value, rfl, takesMark place (by decide)⟩
    | equals => exact .inr ⟨'=', _, by decide, takesMark place (by decide)⟩
    | includes => exact .inr ⟨'~', _, by decide, takesMark place (by decide)⟩
    | prefixMatch => exact .inr ⟨'^', _, by decide, takesMark place (by decide)⟩
    | suffixMatch => exact .inr ⟨'$', _, by decide, takesMark place (by decide)⟩
    | substring => exact .inr ⟨'*', _, by decide, takesMark place (by decide)⟩

def Namespace.read : Namespace → Option String
  | .unspecified => none
  | .named name => some name
  | .any => some "*"

theorem readNamespace {space : Namespace} (spaced : legible.Spaces space) :
    Namespace.ofWritten space.read = space := by
  cases space with
  | unspecified => rfl
  | named name => simp [Namespace.ofWritten, Namespace.read, show name ≠ "*" from spaced.2]
  | any => rfl

theorem frontRead {space : Namespace} {side : Option String} (front : space.front = some side) :
    some (side.getD "*") = space.read := by
  cases space <;> cases front <;> rfl

theorem frontNamed {space : Namespace} {side : Option String} (spaced : legible.Spaces space)
    (front : space.front = some side) : ∀ n ∈ side, IsReadName n := by
  cases space with
  | unspecified => cases front
  | any =>
    cases front
    simp
  | named name =>
    cases front
    intro n member
    cases member
    exact spaced.1

section
variable {name : String} {comparison : Option (AttributeOperator × String)}
  (named : IsReadName name) (valued : ∀ given ∈ comparison, legible.value given.2)
include named valued

theorem readAttributeBare
    (place : c.At (sideChars (some name) ++ (comparisonChars comparison ++ ']' :: rest))) :
    ∃ c', readAttribute c = .ok (⟨none, some name, comparisonOf comparison⟩, c') ∧
      c.Reaches c' rest := by
  have names : ∀ n ∈ some name, IsReadName n := fun n member => Option.mem_some.mp member ▸ named
  have next := takesSide place names (comparisonEndsTest comparison rest).1
  have side := readSide next
  obtain ⟨start, peek⟩ := next.peek
  rcases takesComparison next.reaches.place with ⟨value, rfl, bar⟩ | ⟨d, rest', other, bar⟩
  · have equals := takesMark bar.reaches.place (by decide)
    obtain ⟨c', read, reaches⟩ := readComparisonText "|=" equals.reaches.place (valued _ rfl)
    obtain ⟨start', peek'⟩ := bar.peek
    obtain ⟨start'', peek''⟩ := equals.peek
    refine ⟨c', ?_, next.reaches.trans (bar.reaches.trans (equals.reaches.trans reaches))⟩
    simp [readAttribute, next.skip (by simp [sideShape]), peek, sideShape, side, peek', peek'',
      read, bind, Except.bind, comparisonOf, AttributeOperator.symbol]
  · obtain ⟨c', read, reaches⟩ := readOperatorText none (some name) next.reaches.place valued
    obtain ⟨start', peek'⟩ := bar.peek
    refine ⟨c', ?_, next.reaches.trans reaches⟩
    simp [readAttribute, next.skip (by simp [sideShape]), peek, sideShape, side, peek', other, read,
      bind, Except.bind]

theorem readAttributeSpaced {side : Option String} (sided : ∀ n ∈ side, IsReadName n)
    (place : c.At (sideChars side ++ ('|' :: (sideChars (some name) ++
      (comparisonChars comparison ++ ']' :: rest))))) :
    ∃ c', readAttribute c =
      .ok (⟨some (side.getD "*"), some name, comparisonOf comparison⟩, c') ∧
      c.Reaches c' rest := by
  have next := takesSide place sided (barEndsName _)
  have bar := takesMark next.reaches.place (by decide)
  have after := takesName bar.reaches.place named (comparisonEndsTest comparison rest).1
  obtain ⟨c', read, reaches⟩ :=
    readOperatorText (some (side.getD "*")) (some name) after.reaches.place valued
  have first := readSide next
  have second := readIdentName after
  obtain ⟨start, peek⟩ := next.peek
  obtain ⟨start', peek'⟩ := bar.peek
  obtain ⟨start'', peek''⟩ := after.peek
  have noBar : sideShape side ≠ .delim '|' := by cases side <;> simp [sideShape]
  have visible : sideShape side ≠ .blank := by cases side <;> simp [sideShape]
  refine ⟨c', ?_, next.reaches.trans (bar.reaches.trans (after.reaches.trans reaches))⟩
  simp [readAttribute, next.skip visible, peek, noBar, first, peek', peek'', second, read, bind,
    Except.bind]

theorem readAttributeText {space : Namespace} (spaced : legible.Spaces space)
    (place : c.At (space.chars ++ (sideChars (some name) ++
      (comparisonChars comparison ++ ']' :: rest)))) :
    ∃ c', readAttribute c = .ok (⟨space.read, some name, comparisonOf comparison⟩, c') ∧
      c.Reaches c' rest := by
  rw [spaceChars] at place
  cases front : space.front with
  | none =>
    have none : space.read = none := by
      cases space <;> first | rfl | cases front
    rw [front] at place
    rw [none]
    exact readAttributeBare named valued place
  | some side =>
    rw [front, Option.elim_some, List.append_assoc] at place
    rw [← frontRead front]
    exact readAttributeSpaced named valued (frontNamed spaced front) place

end

theorem attributeTestToken {name : String} {space : Namespace}
    (comparison : Option (AttributeOperator × String)) (spaced : legible.Spaces space) :
    AttributeTest.token ⟨space.read, some name, comparisonOf comparison⟩ =
      .ok (attributeToken name space comparison) := by
  cases comparison with
  | none => simp [AttributeTest.token, comparisonOf, readNamespace spaced]; rfl
  | some given =>
    simp [AttributeTest.token, comparisonOf, readNamespace spaced, ofSymbolSymbol]; rfl

end SelectorRank
