import SelectorRank.Proofs.Grammar.Conversion
import SelectorRank.Proofs.Grammar.Piece

/-! Lexemes of canonical text. A name or value is read from it as it was, or with fewer marks; a
name that begins with two hyphens is cut up. So the marks that the tokens may have and that the
lexemes of their text may have, where nothing comes back, go down. -/
namespace SelectorRank
open Spelling Unescape

/-- What tokens hold whose names and values come back, or have at most so many marks. A bare element
test may be an escaped star. -/
def returning (n : Nat) (star : Prop) : Lexicon where
  name := fun name => IsName name ∧
    (Clear name.toList ∧ ¬ Doubled name.toList ∨ markCount name.toList ≤ n)
  id := fun name => IsName name ∧ (Clear name.toList ∨ markCount name.toList ≤ n)
  value := fun value => HasNoNull value.toList ∧ (Clear value.toList ∨ markCount value.toList ≤ n)
  colon := IsPlainIdent
  bar := star

variable {y : Lexicon} {n : Nat} {rest : List Char}

structure Trails (y : Lexicon) (rest : List Char) : Prop where
  hold : ∀ before start, startsCompound before = false → before ≠ some (.delim ':') →
    (lexemesFrom 0 start rest).Hold y before
  ends : EndsName rest
  point : ∀ cs, rest = '.' :: cs → EndsAt Char.isDigit cs

theorem cutHold {front : List Char} {shape : Shape} {before : Option Shape} {start : Nat}
    (cut : Cut front shape rest) (allowed : y.Allows before shape)
    (after : ∀ start, (lexemesFrom 0 start rest).Hold y (some shape)) :
    (lexemesFrom 0 start (front ++ rest)).Hold y before := by
  rw [cutLexemes cut]
  exact ⟨allowed, after _⟩

/-! Names. -/

theorem spelledName {plain : Char → Prop} {front : Bool} {text value : List Char}
    (spells : Spells plain front text value) (visible : HasNoNull value) (some : text ≠ []) :
    IsName (String.ofList (ofName text)) := by
  exact nameAllowed some (spellsNoNull spells visible)

theorem spellsDrop {front : Bool} {pre text value : List Char} (marked : '\\' ∉ pre)
    (spells : Spells StandsInName front (pre ++ text) value) (visible : HasNoNull value) :
    ∃ rest, Spells StandsInName front text rest ∧ HasNoNull rest ∧
      markCount rest ≤ markCount value := by
  induction pre generalizing value with
  | nil => exact ⟨value, spells, visible, Nat.le_refl _⟩
  | cons c pre ih =>
    have other : c ≠ '\\' := fun same => marked (by simp [same])
    generalize whole : c :: pre ++ text = given at spells
    cases spells with
    | nil => cases whole
    | plain stands spells =>
      cases whole
      obtain ⟨rest, spells, shown, fewer⟩ :=
        ih (fun member => marked (by simp [member])) spells (noNullCons.mp visible).2
      refine ⟨rest, spells, shown, ?_⟩
      rw [markCountCons]
      omega
    | numbered _ _ _ => exact absurd (List.cons.inj whole).1 other
    | escaped _ _ _ => exact absurd (List.cons.inj whole).1 other

theorem digitsUnmarked (text : List Char) : '\\' ∉ text.takeWhile Char.isDigit :=
  fun member => absurd (List.mem_takeWhile_imp member) (by decide)

section
variable {front : Bool} {text value : List Char} (spells : Spells StandsInName front text value)
  (ends : EndsName rest) (point : ∀ cs, rest = '.' :: cs → EndsAt Char.isDigit cs)
include spells ends

theorem spelledHead {d : Char} {cs : List Char} (head : text ++ rest = d :: cs) :
    (isNameChars d = true ∨ d = '\\') ∨ text = [] ∧ isNameChars d = false := by
  cases text with
  | nil => exact .inr ⟨rfl, (ends d (by rw [show rest = d :: cs from head]; rfl)).1⟩
  | cons e text =>
    have some : value ≠ [] := by
      rintro rfl
      cases spells
    obtain ⟨d', cs', same, stands⟩ := spellsHead spells some
    cases same
    cases head
    exact .inl stands

include point

theorem spelledUnsigned (visible : HasNoNull value) :
    unsignedLength (text ++ rest) = (text.takeWhile Char.isDigit).length := by
  have split : text = text.takeWhile Char.isDigit ++ text.dropWhile Char.isDigit :=
    List.takeWhile_append_dropWhile.symm
  rw [split] at spells
  obtain ⟨inner, later, _, _⟩ := spellsDrop (digitsUnmarked text) spells visible
  have digit : ∀ {d : Char}, isNameChars d = false → d.isDigit = false := by
    intro d other
    rw [← Bool.not_eq_true, isNameCharsNumber] at other
    rw [← Bool.not_eq_true, isDigitNumber]
    omega
  have dropped : EndsAt Char.isDigit (text.dropWhile Char.isDigit ++ rest) := by
    intro d head
    cases left : text.dropWhile Char.isDigit with
    | nil =>
      rw [left] at head
      exact digit (ends d head).1
    | cons e es =>
      rw [left] at head
      cases head
      have first := List.head_dropWhile_not Char.isDigit (l := text) (by simp [left])
      simpa [left] using first
  have noPoint : ∀ cs, text.dropWhile Char.isDigit ++ rest = '.' :: cs →
      EndsAt Char.isDigit cs := by
    intro cs head
    rcases spelledHead later ends head with stands | ⟨empty, _⟩
    · exact absurd stands (by decide)
    · rw [empty] at head
      exact point cs head
  rw [← spanJoined Char.isDigit]
  exact unsignedWhole (fun c member => List.mem_takeWhile_imp member) dropped noPoint

end

def FirstCut (text rest : List Char) : Prop :=
  Cut text (.ident (String.ofList (ofName text))) rest ∨
    ∃ pre back shape, text = pre ++ back ∧ pre ≠ [] ∧ '\\' ∉ pre ∧
      (shape = .delim '-' ∨ ∃ digits, shape = .number digits) ∧ Cut pre shape (back ++ rest)

section
variable {front : Bool} {text value : List Char} (visible : HasNoNull value) (ends : EndsName rest)
  (point : ∀ cs, rest = '.' :: cs → EndsAt Char.isDigit cs)
include visible ends point

theorem firstHyphen (spells : Spells StandsInName front ('-' :: text) value) :
    FirstCut ('-' :: text) rest := by
  have length := nameLengthSpelled spells ends
  have joined : Spells StandsInName front (['-'] ++ text) value := spells
  obtain ⟨inner, spellsText, shown, _⟩ := spellsDrop (by decide) joined visible
  have unsigned := spelledUnsigned spellsText ends point shown
  cases opens : startsName (text ++ rest) with
  | true =>
    have stands : isNameChars '-' = true := by decide
    have named : identLength ('-' :: (text ++ rest)) = nameLength 0 (text ++ rest) + 1 := by
      simp [identLength, opens]
    have counted : nameLength 0 ('-' :: (text ++ rest)) = nameLength 0 (text ++ rest) + 1 := by
      simp [nameLength, stands]
    exact .inl (cutName rfl (named.trans (counted.symm.trans length)))
  | false =>
    have noName : identLength ('-' :: (text ++ rest)) = 0 := by simp [identLength, opens]
    rcases cutSign (.inr rfl) noName unsigned with cut | cut
    · exact .inr ⟨['-'], text, _, rfl, by simp, by decide, .inl rfl, cut⟩
    · refine .inr ⟨_, text.dropWhile Char.isDigit, _, by simp, by simp, ?_, .inr ⟨_, rfl⟩, cut⟩
      simpa using digitsUnmarked text

theorem firstDigit {c : Char} (spells : Spells StandsInName front (c :: text) value)
    (digit : c.isDigit = true) : FirstCut (c :: text) rest := by
  have cut := cutDigits digit (spelledUnsigned spells ends point visible)
  exact .inr ⟨_, _, _, List.takeWhile_append_dropWhile.symm, by simp [digit], digitsUnmarked _,
    .inr ⟨_, rfl⟩, cut⟩

theorem spelledFirst {c : Char} (spells : Spells StandsInName front (c :: text) value) :
    FirstCut (c :: text) rest := by
  have length := nameLengthSpelled spells ends
  have whole : c :: text ++ rest = c :: (text ++ rest) := rfl
  have head : isNameChars c = true ∨ c = '\\' :=
    (spelledHead spells ends whole).resolve_right (by simp)
  cases starts : startsName (c :: text ++ rest) with
  | true =>
    have space : isSpace c = false := by
      rcases head with stands | rfl
      · rw [isNameCharsNumber] at stands
        rw [← Bool.not_eq_true, isSpaceNumber]
        omega
      · decide
    exact .inl (cutName space ((identLengthStart starts).trans length))
  | false =>
    rcases head with stands | rfl
    · have letter : isNameStart c = false := by
        simp only [List.cons_append, startsName, Bool.or_eq_false_iff] at starts
        exact starts.1
      have kind : c = '-' ∨ c.isDigit = true := by
        rw [isNameCharsNumber] at stands
        rw [← Bool.not_eq_true, isNameStartNumber] at letter
        rw [eqNumber, isDigitNumber]
        have hyphen : '-'.toNat = 45 := rfl
        omega
      rcases kind with rfl | digit
      · exact firstHyphen visible ends point spells
      · exact firstDigit visible ends point spells digit
    · -- A backslash that begins no name would not be counted in one.
      have none : escapeLength (text ++ rest) = 0 := by
        simpa [startsName, show isNameStart '\\' = false by decide] using starts
      simp [nameLength, show isNameChars '\\' = false by decide, none] at length

end

variable {star : Prop}

theorem spelledHold {front : Bool} {text value : List Char}
    (spells : Spells StandsInName front text value) (visible : HasNoNull value)
    (few : markCount value ≤ n) (trails : Trails (returning n star) rest) (before : Option Shape)
    (start : Nat) (inner : startsCompound before = false) (colon : before ≠ some (.delim ':')) :
    (lexemesFrom 0 start (text ++ rest)).Hold (returning n star) before := by
  -- A number or a hyphen in front leaves the rest of the text to be cut.
  induction size : text.length using Nat.strong_induction_on
    generalizing text value before start with
  | h m ih =>
    cases text with
    | nil => exact trails.hold before start inner colon
    | cons c text =>
      rcases spelledFirst visible trails.ends trails.point spells with
        cut | ⟨pre, back, shape, split, some, marked, kind, cut⟩
      · have read : markCount (ofName (c :: text)) ≤ n :=
          Nat.le_trans (rereadBound standingName spells) few
        have named := spelledName spells visible (by simp)
        refine cutHold cut ⟨⟨named, .inr ?_⟩, fun same => absurd same colon⟩ ?_
        · rwa [String.toList_ofList]
        · exact fun start => trails.hold _ start rfl (by simp)
      · rw [split] at spells size ⊢
        obtain ⟨inner, spells, shown, fewer⟩ := spellsDrop marked spells visible
        have shorter : back.length < m := by
          have long := List.length_pos_of_ne_nil some
          simp only [List.length_append] at size
          omega
        rw [List.append_assoc]
        rcases kind with rfl | ⟨digits, rfl⟩
        · exact cutHold cut trivial (fun start => ih _ shorter spells shown
            (Nat.le_trans fewer few) _ start rfl (by simp) rfl)
        · exact cutHold cut trivial (fun start => ih _ shorter spells shown
            (Nat.le_trans fewer few) _ start rfl (by simp) rfl)

theorem rereadsFew {read value : List Char} (rereads : Rereads false read value)
    (whole : Clear value → read = value) (marks : Clear value ∨ markCount value ≤ n + 1) :
    read = value ∧ Clear value ∨ markCount read ≤ n := by
  rcases marks with clear | few
  · exact .inl ⟨whole clear, clear⟩
  · rcases rereads with fewer | same
    · exact .inr (by omega)
    · exact .inl ⟨same.1, same.2 rfl⟩

theorem identifierSome {value : List Char} (visible : HasNoNull value) (some : value ≠ []) :
    identifier value ≠ [] := by
  obtain ⟨c, cs, text, _⟩ := nameNoSpace visible some
  simp [text]

theorem identifierDoubled {value : List Char} (doubled : Doubled value) :
    ∃ cs, value = '-' :: '-' :: cs ∧
      identifier value = ['-'] ++ '-' :: cs.flatMap (identifierChar true) := by
  unfold Doubled at doubled
  split at doubled
  · next cs => exact ⟨cs, rfl, rfl⟩
  · contradiction

theorem nameHold {name : String} (named : (returning (n + 1) star).name name)
    (trails : Trails (returning n False) rest) (before : Option Shape) (start : Nat)
    (colon : before ≠ some (.delim ':')) :
    (lexemesFrom 0 start (identifier name.toList ++ rest)).Hold (returning n False) before := by
  -- Two hyphens in front are cut up behind the first, any other name is one lexeme.
  obtain ⟨⟨known, visible⟩, marks⟩ := named
  have some : name.toList ≠ [] := by simpa using known
  by_cases doubled : Doubled name.toList
  · have few : markCount name.toList ≤ n + 1 :=
      marks.resolve_left (fun clear => clear.2 doubled)
    obtain ⟨cs, value, text⟩ := identifierDoubled doubled
    rw [value] at visible few
    have fewer : markCount ('-' :: cs) ≤ n := by
      rw [markCountCons, show isMark '-' = true by decide] at few
      simpa using few
    have spells : Spells StandsInName false ('-' :: cs.flatMap (identifierChar true)) ('-' :: cs) :=
      .plain (by unfold StandsInName; decide)
        (identifierTailSpells (noNullCons.mp (noNullCons.mp visible).2).2)
    have cut : Cut ['-'] (.delim '-') ('-' :: cs.flatMap (identifierChar true) ++ rest) :=
      ⟨'-', [], rfl, scanDelim rfl rfl (by decide) rfl⟩
    rw [text, List.append_assoc]
    exact cutHold cut trivial (fun start =>
      spelledHold spells (noNullCons.mp visible).2 fewer trails _ start rfl (by simp))
  · have cut := cutIdentText visible some doubled trails.ends
    refine cutHold cut ⟨?_, fun same => absurd same colon⟩
      (fun start => trails.hold _ start rfl (by simp))
    refine ⟨spelledName (identifierSpells visible) visible (identifierSome visible some), ?_⟩
    rw [String.toList_ofList]
    rcases rereadsFew (rereadsIdentifier visible)
      (fun clear => nameRead ⟨visible, some, clear⟩) (marks.imp_left And.left) with
      ⟨read, clear⟩ | few
    · rw [read]
      exact .inl ⟨clear, doubled⟩
    · exact .inr few

end SelectorRank
