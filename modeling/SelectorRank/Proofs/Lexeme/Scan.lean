import SelectorRank.Proofs.Series
import SelectorRank.Proofs.Spelling

/-! Lexemes of canonical text. Each fragment is cut off as one lexeme, whatever comes after it, as
long as nothing there could go on with it. -/
namespace SelectorRank
open Spelling Unescape

/-- A text that is cut off as one lexeme before a rest. -/
def Cut (front : List Char) (shape : Shape) (rest : List Char) : Prop :=
  ∃ c cs, front = c :: cs ∧ scan c (cs ++ rest) = .lexeme shape (cs.length + 1)

theorem lexemesSkip (k start : Nat) (front rest : List Char) (size : front.length = k) :
    lexemesFrom k start (front ++ rest) = lexemesFrom 0 (start + k) rest := by
  induction front generalizing k start with
  | nil => subst size; rfl
  | cons c front ih =>
    subst size
    simp only [List.length_cons, List.cons_append, lexemesFrom, ih front.length (start + 1) rfl]
    congr 1
    omega

theorem cutLexemes {front rest : List Char} {shape : Shape} (cut : Cut front shape rest)
    (start : Nat) : lexemesFrom 0 start (front ++ rest) =
      .next ⟨shape, start⟩ (lexemesFrom 0 (start + front.length) rest) := by
  obtain ⟨c, cs, rfl, scanned⟩ := cut
  have skipped := lexemesSkip cs.length (start + 1) cs rest rfl
  rw [List.cons_append, lexemesFrom, scanned]
  simp only [Nat.add_sub_cancel, skipped, List.length_cons]
  congr 2
  omega

theorem readableWhole {text : List Char} (visible : HasNoNull text) : text.map readable = text := by
  conv_rhs => rw [← List.map_id text]
  apply List.map_congr_left
  intro c member
  simp [readable, visible c member]

/-! Names. -/

structure Legible (value : List Char) : Prop where
  visible : HasNoNull value
  some : value ≠ []
  clear : Clear value

theorem nameNoSpace {value : List Char} (visible : HasNoNull value) (some : value ≠ []) :
    ∃ c cs, identifier value = c :: cs ∧ isSpace c = false := by
  obtain ⟨c, cs, text, head⟩ := spellsHead (identifierSpells visible) some
  refine ⟨c, cs, text, ?_⟩
  rcases head with stands | rfl
  · have name := isNameCharsNumber.mp stands
    rw [← Bool.not_eq_true, isSpaceNumber]
    omega
  · decide

theorem identifierNoDigit {value : List Char} (rest : List Char) (visible : HasNoNull value)
    (some : value ≠ []) : EndsAt Char.isDigit (identifier value ++ rest) := by
  have front : ∀ {c : Char} {text : List Char}, c ≠ '\x00' →
      EndsAt Char.isDigit (identifierChar false c ++ text) := by
    intro c text visible d head
    unfold identifierChar at head
    rw [if_neg visible] at head
    split at head
    · cases head
      rfl
    split at head
    · next coded _ =>
      cases head
      simp only [Bool.not_false, Bool.and_true, Bool.or_eq_true, not_or, Bool.not_eq_true] at coded
      exact coded.2
    · cases head
      rfl
  intro d head
  unfold identifier at head
  split at head
  · contradiction
  · cases head
    rfl
  · cases head
    rfl
  · next c cs _ _ =>
    rw [List.append_assoc] at head
    exact front (noNullCons.mp visible).1 d head

theorem nameRead {value : List Char} (legible : Legible value) :
    ofName (identifier value) = value :=
  ofNameSpelled (by unfold StandsInName; decide) (identifierSpells legible.visible) legible.clear

theorem scanIdent {c : Char} {cs : List Char} {n : Nat} (space : isSpace c = false)
    (length : identLength (c :: cs) = n + 1) :
    scan c cs = .lexeme (.ident (String.ofList (ofName ((c :: cs).take (n + 1))))) (n + 1) := by
  unfold scan
  rw [space, length]
  rfl

theorem scanHash {cs : List Char} {n : Nat} (length : nameLength 0 cs = n + 1) :
    scan '#' cs = .lexeme (.hash (String.ofList (ofName (cs.take (n + 1))))) (n + 2) := by
  have noName : identLength ('#' :: cs) = 0 := rfl
  unfold scan
  rw [noName, length]
  rfl

theorem cutName {c : Char} {cs rest : List Char} (space : isSpace c = false)
    (length : identLength (c :: cs ++ rest) = (c :: cs).length) :
    Cut (c :: cs) (.ident (String.ofList (ofName (c :: cs)))) rest := by
  have whole : (c :: cs ++ rest).take (cs.length + 1) = c :: cs := List.take_left' rfl
  rw [List.cons_append] at length whole
  refine ⟨c, cs, rfl, ?_⟩
  rw [scanIdent space length, whole]

section
variable {value rest : List Char}

theorem cutIdentText (visible : HasNoNull value) (some : value ≠ []) (single : ¬ Doubled value)
    (ends : EndsName rest) :
    Cut (identifier value) (.ident (String.ofList (ofName (identifier value)))) rest := by
  obtain ⟨c, cs, text, space⟩ := nameNoSpace visible some
  have length := identLengthSpelled visible some single ends
  rw [text] at length ⊢
  exact cutName space length

theorem cutIdent (legible : Legible value) (single : ¬ Doubled value) (ends : EndsName rest) :
    Cut (identifier value) (.ident (String.ofList value)) rest := by
  have cut := cutIdentText legible.visible legible.some single ends
  rwa [nameRead legible] at cut

theorem cutHashText (visible : HasNoNull value) (some : value ≠ []) (ends : EndsName rest) :
    Cut ('#' :: identifier value) (.hash (String.ofList (ofName (identifier value)))) rest := by
  obtain ⟨c, cs, text, _⟩ := nameNoSpace visible some
  have size : (identifier value).length = cs.length + 1 := by rw [text, List.length_cons]
  have length := nameLengthSpelled (identifierSpells visible) ends
  refine ⟨'#', identifier value, rfl, ?_⟩
  rw [scanHash (length.trans size), List.take_left' size, size]

theorem cutHash (legible : Legible value) (ends : EndsName rest) :
    Cut ('#' :: identifier value) (.hash (String.ofList value)) rest := by
  have cut := cutHashText legible.visible legible.some ends
  rwa [nameRead legible] at cut

end

/-! Strings and marks. -/

theorem cutStringText {value : List Char} (rest : List Char) (visible : HasNoNull value) :
    Cut (Spelling.string value)
      (.string (String.ofList (ofString (value.flatMap stringChar)))) rest := by
  have length := bodyLengthSpelled rest (stringSpells visible)
  have noName : ∀ cs, identLength (Text.doubleQuote :: cs) = 0 := fun _ => rfl
  refine ⟨Text.doubleQuote, value.flatMap stringChar ++ [Text.doubleQuote], by
    rw [Spelling.string, List.cons_append], ?_⟩
  rw [List.append_assoc, List.singleton_append]
  have quoted : ∀ cs, scan Text.doubleQuote cs = scanString Text.doubleQuote cs := by
    intro cs
    unfold scan
    rw [noName]
    rfl
  rw [quoted, scanString, length, List.drop_left, List.take_left]
  simp

theorem cutString {value : List Char} (rest : List Char) (visible : HasNoNull value)
    (clear : Clear value) :
    Cut (Spelling.string value) (.string (String.ofList value)) rest := by
  have cut := cutStringText rest visible
  rwa [ofStringSpelled (stringSpells visible) clear] at cut

/-- Characters that are lexemes of their own wherever they stand. -/
def marks : List Char := ['*', '|', ':', '[', ']', '(', ')', ',', '=', '~', '^', '$', '>']

theorem cutMark {c : Char} (rest : List Char) (mark : c ∈ marks) : Cut [c] (.delim c) rest := by
  refine ⟨c, [], rfl, ?_⟩
  simp only [marks, List.mem_cons, List.not_mem_nil, or_false] at mark
  rcases mark with rfl | rfl | rfl | rfl | rfl | rfl | rfl | rfl | rfl | rfl | rfl | rfl | rfl <;>
  rfl

theorem pointNoNumber {rest : List Char} (ends : EndsAt Char.isDigit rest) :
    numberLength ('.' :: rest) = 0 := by
  have none : digitsLength rest = 0 := by
    rw [digitsLength, takeWhileEnd ends, List.length_nil]
  have whole : digitsLength ('.' :: rest) = 0 := rfl
  simp [numberLength, unsignedLength, whole, none]

theorem cutPoint {rest : List Char} (ends : EndsAt Char.isDigit rest) :
    Cut ['.'] (.delim '.') rest := by
  have noName : identLength ('.' :: rest) = 0 := rfl
  refine ⟨'.', [], rfl, ?_⟩
  unfold scan
  rw [List.nil_append, noName, pointNoNumber ends]
  rfl

theorem cutPlus (rest : List Char) : Cut ['+'] (.delim '+') (' ' :: rest) := ⟨'+', [], rfl, rfl⟩

theorem cutBlank {rest : List Char} (ends : EndsAt isSpace rest) : Cut [' '] .blank rest := by
  refine ⟨' ', [], rfl, ?_⟩
  have blank : isSpace ' ' = true := rfl
  unfold scan
  rw [blank, List.nil_append, takeWhileEnd ends]
  rfl

/-! Numbers and signs. -/

theorem startsNameDigit {c : Char} (digit : c.isDigit = true) (cs : List Char) :
    startsName (c :: cs) = false := by
  rw [isDigitNumber] at digit
  have start : isNameStart c = false := by
    rw [← Bool.not_eq_true, isNameStartNumber]
    omega
  have mark : c ≠ '\\' := by
    rintro rfl
    exact absurd digit (by decide)
  simp [startsName, start, mark]

theorem identLengthDigit {c : Char} (digit : c.isDigit = true) (cs : List Char) :
    identLength (c :: cs) = 0 := by
  have start := startsNameDigit digit cs
  unfold identLength
  split
  · next same => exact absurd (List.cons.inj same).1 (Text.digitNotSign digit).1
  · simp [start]

section
variable {c : Char} {cs : List Char} (space : isSpace c = false)
  (noName : identLength (c :: cs) = 0) (other : c ∉ ['#', '\x27', '\x22', '/'])
include space noName other

theorem scanNumber {n : Nat} (length : numberLength (c :: cs) = n + 1) : scan c cs =
    .lexeme (.number (String.ofList ((c :: cs).take (n + 1)))) (n + 1) := by
  simp only [List.mem_cons, List.not_mem_nil, or_false, not_or] at other
  unfold scan
  rw [space, noName]
  simp [other, Text.singleQuote, Text.doubleQuote, length]

theorem scanDelim (length : numberLength (c :: cs) = 0) : scan c cs = .lexeme (.delim c) 1 := by
  simp only [List.mem_cons, List.not_mem_nil, or_false, not_or] at other
  unfold scan
  rw [space, noName]
  simp [other, Text.singleQuote, Text.doubleQuote, length]

end

theorem takeCons (c : Char) (cs rest : List Char) :
    (c :: (cs ++ rest)).take (cs.length + 1) = c :: cs := by
  simp

section
variable {cs rest : List Char}

theorem spanJoined (p : Char → Bool) (cs rest : List Char) :
    cs.takeWhile p ++ (cs.dropWhile p ++ rest) = cs ++ rest := by
  rw [← List.append_assoc, List.takeWhile_append_dropWhile]

theorem unsignedWhole {digits tail : List Char} (all : ∀ c ∈ digits, c.isDigit = true)
    (ends : EndsAt Char.isDigit tail) (point : ∀ cs, tail = '.' :: cs → EndsAt Char.isDigit cs) :
    unsignedLength (digits ++ tail) = digits.length := by
  have whole : digitsLength (digits ++ tail) = digits.length := by
    rw [digitsLength, takeWhileFront all ends]
  unfold unsignedLength
  simp only [whole, List.drop_left]
  split
  · next cs =>
    have none : digitsLength cs = 0 := by
      rw [digitsLength, takeWhileEnd (point cs rfl), List.length_nil]
    simp [none]
  · rfl

theorem cutDigits {c : Char} (digit : c.isDigit = true)
    (unsigned : unsignedLength (c :: cs ++ rest) = ((c :: cs).takeWhile Char.isDigit).length) :
    Cut ((c :: cs).takeWhile Char.isDigit)
      (.number (String.ofList ((c :: cs).takeWhile Char.isDigit)))
      ((c :: cs).dropWhile Char.isDigit ++ rest) := by
  have number := isDigitNumber.mp digit
  have letter := Text.digitNotSign digit
  have space : isSpace c = false := by
    rw [← Bool.not_eq_true, isSpaceNumber]
    omega
  have other : c ∉ ['#', '\x27', '\x22', '/'] := by
    intro member
    simp only [List.mem_cons, List.not_mem_nil, or_false] at member
    rcases member with rfl | rfl | rfl | rfl <;> exact absurd digit (by decide)
  have noName := identLengthDigit digit (cs ++ rest)
  have front : (c :: cs).takeWhile Char.isDigit = c :: cs.takeWhile Char.isDigit := by
    simp [digit]
  have back : (c :: cs).dropWhile Char.isDigit = cs.dropWhile Char.isDigit := by simp [digit]
  have length : numberLength (c :: (cs ++ rest)) = (cs.takeWhile Char.isDigit).length + 1 := by
    rw [front] at unsigned
    simpa [numberLength, letter.1, letter.2.1] using unsigned
  rw [front, back]
  refine ⟨c, cs.takeWhile Char.isDigit, rfl, ?_⟩
  rw [spanJoined, scanNumber space noName other length, ← spanJoined Char.isDigit, takeCons]

theorem cutSign {c : Char} (sign : c = '+' ∨ c = '-')
    (noName : identLength (c :: (cs ++ rest)) = 0)
    (unsigned : unsignedLength (cs ++ rest) = (cs.takeWhile Char.isDigit).length) :
    Cut [c] (.delim c) (cs ++ rest) ∨
      Cut (c :: cs.takeWhile Char.isDigit)
        (.number (String.ofList (c :: cs.takeWhile Char.isDigit)))
        (cs.dropWhile Char.isDigit ++ rest) := by
  have space : isSpace c = false := by rcases sign with rfl | rfl <;> rfl
  have other : c ∉ ['#', '\x27', '\x22', '/'] := by rcases sign with rfl | rfl <;> decide
  cases size : (cs.takeWhile Char.isDigit).length with
  | zero =>
    have length : numberLength (c :: (cs ++ rest)) = 0 := by
      rw [numberLength, unsigned, size]
      rcases sign with rfl | rfl <;> rfl
    exact .inl ⟨c, [], rfl, scanDelim space noName other length⟩
  | succ n =>
    have length : numberLength (c :: (cs ++ rest)) = n + 2 := by
      rw [numberLength, unsigned, size]
      rcases sign with rfl | rfl <;> rfl
    refine .inr ⟨c, cs.takeWhile Char.isDigit, rfl, ?_⟩
    rw [spanJoined, scanNumber space noName other length, ← spanJoined Char.isDigit, ← size,
      takeCons]

end

/-! Words of a series. A text of digits, signs and letters is cut into words that join to it. -/

theorem nameWhole {front : List Char} (all : ∀ c ∈ front, isNameChars c = true) :
    Spells StandsInName false front front := by
  induction front with
  | nil => exact .nil
  | cons c front ih =>
    exact .plain (all c (by simp)) (ih (fun d member => all d (by simp [member])))

theorem nameUnmarked {front : List Char} (all : ∀ c ∈ front, isNameChars c = true) :
    '\\' ∉ front :=
  fun member => absurd (all '\\' member) (by decide)

theorem readWhole {front : List Char} (all : ∀ c ∈ front, isNameChars c = true) :
    ofName front = front :=
  ofNameSpelled (by unfold StandsInName; decide) (nameWhole all) (clearUnmarked (nameUnmarked all))

def IsSeriesWord (shape : Shape) (front : List Char) : Prop :=
  shape = .ident (String.ofList front) ∨ shape = .number (String.ofList front) ∨
    ∃ c, (c = '+' ∨ c = '-') ∧ shape = .delim c ∧ front = [c]

theorem seriesNoStart {c : Char} (char : Text.IsSeriesChar c) (letter : c ≠ 'n') (cs : List Char) :
    startsName (c :: cs) = false := by
  rcases char with digit | rfl | rfl | rfl
  · exact startsNameDigit digit cs
  · rfl
  · rfl
  · contradiction

theorem seriesEnds {t : List Char} {p : Char → Bool} (rest : List Char) (close : p ')' = false) :
    EndsAt p (t.dropWhile p ++ ')' :: rest) := by
  intro c head
  cases left : t.dropWhile p with
  | nil =>
    rw [left] at head
    cases head
    exact close
  | cons d ds =>
    rw [left] at head
    cases head
    have first := List.head_dropWhile_not p (l := t) (by simp [left])
    simpa [left] using first

section
variable {t : List Char} (rest : List Char) (chars : ∀ c ∈ t, Text.IsSeriesChar c)
include chars

theorem seriesDrop (p : Char → Bool) : ∀ c ∈ t.dropWhile p, Text.IsSeriesChar c :=
  fun c member => chars c ((List.dropWhile_sublist p).mem member)

theorem seriesHead {c : Char} (head : (t ++ ')' :: rest).head? = some c) :
    Text.IsSeriesChar c ∨ c = ')' := by
  cases t with
  | nil => exact .inr (by simpa using head.symm)
  | cons d t =>
    cases head
    exact .inl (chars c (by simp))

theorem unsignedSeries :
    unsignedLength (t ++ ')' :: rest) = (t.takeWhile Char.isDigit).length := by
  rw [← spanJoined Char.isDigit]
  refine unsignedWhole (fun c member => List.mem_takeWhile_imp member) (seriesEnds rest rfl) ?_
  intro cs same
  have head := seriesHead rest (seriesDrop chars Char.isDigit) (c := '.') (by rw [same]; rfl)
  exact absurd head (by unfold Text.IsSeriesChar; decide)

def opensName : List Char → Bool
  | 'n' :: _ => true
  | '-' :: 'n' :: _ => true
  | _ => false

theorem cutSeriesName (opens : opensName t = true) :
    t.takeWhile isNameChars ≠ [] ∧
      Cut (t.takeWhile isNameChars) (.ident (String.ofList (t.takeWhile isNameChars)))
        (t.dropWhile isNameChars ++ ')' :: rest) := by
  have all : ∀ c ∈ t.takeWhile isNameChars, isNameChars c = true :=
    fun c member => List.mem_takeWhile_imp member
  have ends : EndsName (t.dropWhile isNameChars ++ ')' :: rest) := by
    intro c head
    refine ⟨seriesEnds rest rfl c head, ?_⟩
    rintro rfl
    have char := seriesHead rest (seriesDrop chars isNameChars) head
    exact absurd char (by unfold Text.IsSeriesChar; decide)
  have length := nameLengthSpelled (nameWhole all) ends
  have begins : ∃ c cs, t = c :: cs ∧ isSpace c = false ∧ isNameChars c = true ∧
      ∀ rest, identLength (t ++ rest) = nameLength 0 (t ++ rest) := by
    unfold opensName at opens
    split at opens
    · next cs => exact ⟨'n', cs, rfl, rfl, rfl, fun _ => rfl⟩
    · next cs => exact ⟨'-', 'n' :: cs, rfl, rfl, rfl, fun _ => rfl⟩
    · cases opens
  obtain ⟨c, cs, rfl, space, stands, starts⟩ := begins
  have front : (c :: cs).takeWhile isNameChars = c :: cs.takeWhile isNameChars := by
    simp [stands]
  have joined : (c :: cs.takeWhile isNameChars) ++
      ((c :: cs).dropWhile isNameChars ++ ')' :: rest) = c :: cs ++ ')' :: rest := by
    rw [← front, ← List.append_assoc, List.takeWhile_append_dropWhile]
  rw [front] at length all ⊢
  refine ⟨by simp, c, cs.takeWhile isNameChars, rfl, ?_⟩
  rw [joined, ← starts, ← joined, List.cons_append, List.length_cons] at length
  rw [scanIdent space length, takeCons, readWhole all]

theorem cutSeriesSign {c : Char} {cs : List Char} (whole : t = c :: cs) (sign : c = '+' ∨ c = '-')
    (opens : opensName t = false) : ∃ front back shape, t = front ++ back ∧ front ≠ [] ∧
      IsSeriesWord shape front ∧ Cut front shape (back ++ ')' :: rest) := by
  subst whole
  have later : ∀ d ∈ cs, Text.IsSeriesChar d := fun d member => chars d (by simp [member])
  have noName : identLength (c :: (cs ++ ')' :: rest)) = 0 := by
    rcases sign with rfl | rfl
    · rfl
    · cases cs with
      | nil => rfl
      | cons d ds =>
        have letter : d ≠ 'n' := by
          rintro rfl
          cases opens
        have start := seriesNoStart (later d (by simp)) letter (ds ++ ')' :: rest)
        simp [identLength, start]
  rcases cutSign sign noName (unsignedSeries rest later) with cut | cut
  · exact ⟨[c], cs, .delim c, rfl, by simp, .inr (.inr ⟨c, sign, rfl, rfl⟩), cut⟩
  · exact ⟨_, cs.dropWhile Char.isDigit, _, by simp, by simp, .inr (.inl rfl), cut⟩

theorem cutSeries (some : t ≠ []) : ∃ front back shape, t = front ++ back ∧ front ≠ [] ∧
    IsSeriesWord shape front ∧ Cut front shape (back ++ ')' :: rest) := by
  cases opens : opensName t with
  | true =>
    obtain ⟨front, cut⟩ := cutSeriesName rest chars opens
    exact ⟨_, _, _, List.takeWhile_append_dropWhile.symm, front, .inl rfl, cut⟩
  | false =>
    cases whole : t with
    | nil => contradiction
    | cons c cs =>
      rw [← whole]
      rcases chars c (by simp [whole]) with digit | plus | minus | letter
      · have cut := cutDigits digit (whole ▸ unsignedSeries rest chars)
        rw [whole]
        exact ⟨_, _, _, List.takeWhile_append_dropWhile.symm, by simp [digit], .inr (.inl rfl), cut⟩
      · exact cutSeriesSign rest chars whole (.inl plus) opens
      · exact cutSeriesSign rest chars whole (.inr minus) opens
      · rw [whole, letter] at opens
        cases opens

end

end SelectorRank
