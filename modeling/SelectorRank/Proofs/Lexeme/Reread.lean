import SelectorRank.Proofs.Spelling

/-! Values that are read. They hold no null character and are not empty; the value of a spelled text
is the one that was spelled, or a value with fewer hexadecimal digits and hyphens. -/
namespace SelectorRank
open Spelling Unescape

/-! Any text. -/

theorem ofCodePointVisible (n : Nat) : ofCodePoint n ≠ '\x00' := by
  have replaced : Spelling.replacement ≠ '\x00' := by decide
  unfold ofCodePoint
  split
  · next valid =>
    simp only [Bool.and_eq_true, decide_eq_true_eq] at valid
    intro same
    have number : (Char.ofNat n).toNat = n := by
      rw [Char.ofNat, dif_pos valid.2]
      rfl
    rw [same] at number
    exact valid.1 number.symm
  · exact replaced

theorem readNumberedVisible {text : List Char} (k : Nat) (visible : HasNoNull text) :
    HasNoNull (readNumbered k text) := by
  induction text generalizing k with
  | nil => cases k <;> exact visible
  | cons c text ih =>
    obtain ⟨first, rest⟩ := noNullCons.mp visible
    cases k with
    | succ k => exact ih k rest
    | zero =>
      unfold readNumbered
      split
      · split
        · exact noNullCons.mpr ⟨first, ih 0 rest⟩
        · exact noNullCons.mpr ⟨ofCodePointVisible _, ih _ rest⟩
      · exact noNullCons.mpr ⟨first, ih 0 rest⟩

theorem dropBackslashesVisible {text : List Char} (visible : HasNoNull text) :
    HasNoNull (dropBackslashes text) := by
  fun_induction dropBackslashes text with
  | case1 => exact visible
  | case2 cs ih =>
    obtain ⟨mark, rest⟩ := noNullCons.mp visible
    obtain ⟨first, rest⟩ := noNullCons.mp rest
    exact noNullCons.mpr ⟨mark, noNullCons.mpr ⟨first, ih rest⟩⟩
  | case3 c cs line ih =>
    obtain ⟨first, rest⟩ := noNullCons.mp (noNullCons.mp visible).2
    exact noNullCons.mpr ⟨first, ih rest⟩
  | case4 c cs other ih =>
    obtain ⟨first, rest⟩ := noNullCons.mp visible
    exact noNullCons.mpr ⟨first, ih rest⟩

theorem joinLinesVisible {text : List Char} (k : Nat) (visible : HasNoNull text) :
    HasNoNull (joinLines k text) := by
  induction text generalizing k with
  | nil => cases k <;> exact visible
  | cons c text ih =>
    obtain ⟨first, rest⟩ := noNullCons.mp visible
    cases k with
    | succ k => exact ih k rest
    | zero =>
      unfold joinLines
      split
      · split
        · exact noNullCons.mpr ⟨first, ih 0 rest⟩
        · exact ih _ rest
      · exact noNullCons.mpr ⟨first, ih 0 rest⟩

theorem ofNameVisible {text : List Char} (visible : HasNoNull text) : HasNoNull (ofName text) :=
  dropBackslashesVisible (readNumberedVisible 0 visible)

theorem ofStringVisible {text : List Char} (visible : HasNoNull text) : HasNoNull (ofString text) :=
  ofNameVisible (joinLinesVisible 0 visible)

theorem ofNameSome {text : List Char} (some : text ≠ []) : ofName text ≠ [] := by
  have kept : ∀ {c : Char} {cs : List Char}, dropBackslashes (c :: cs) ≠ [] := by
    intro c cs
    unfold dropBackslashes
    split
    · contradiction
    · split <;> simp
    · simp
  cases text with
  | nil => contradiction
  | cons c text =>
    unfold ofName readNumbered
    split
    · split <;> exact kept
    · exact kept

/-! Spelled texts. A backslash of the value in front of a hexadecimal digit is read as a numbered
escape, which takes at least one digit and gives at most one back, and none for a single digit. -/

def isMark (c : Char) : Bool := isHex c || c == '-'

def markCount (value : List Char) : Nat := value.countP isMark

theorem markCountCons (c : Char) (value : List Char) :
    markCount (c :: value) = markCount value + if isMark c then 1 else 0 := List.countP_cons

theorem ofNamePlain {c : Char} {text : List Char} (other : c ≠ '\\') :
    ofName (c :: text) = c :: ofName text := by
  rw [ofName, readNumbered, if_neg other, dropBackslashesCons other, ofName]

theorem codedOther {c : Char} (coded : Coded c) : c ≠ '\\' := by
  rintro rfl
  exact absurd coded (by unfold Coded; decide)

theorem ofNameNumbered {c : Char} {text : List Char} (coded : Coded c) :
    ofName (codePoint c ++ text) = c :: ofName text := by
  rw [ofName, readNumberedEscape coded, dropBackslashesCons (codedOther coded), ofName]

theorem ofNameEscaped {c : Char} {text : List Char} (mark : isHex c = false)
    (visible : newlineLength [c] = 0) (other : c ≠ '\\') :
    ofName ('\\' :: c :: text) = c :: ofName text := by
  have noLine : c ≠ '\n' := by
    rintro rfl
    exact absurd visible (by decide)
  have kept : readNumbered 0 (c :: text) = c :: readNumbered 0 text := by
    rw [readNumbered, if_neg other]
  rw [ofName, readNumbered, if_pos rfl, numberedLengthZero mark]
  simp only [kept, dropBackslashes, if_neg noLine, ofName]

theorem ofNameBackslash {text : List Char} (none : numberedLength text = 0) :
    ofName ('\\' :: '\\' :: text) = '\\' :: ofName text := by
  have first : numberedLength ('\\' :: text) = 0 := numberedLengthZero (by decide)
  simp [ofName, readNumbered, first, none, dropBackslashes]

theorem readNumberedDrop (k : Nat) (text : List Char) :
    readNumbered k text = readNumbered 0 (text.drop k) := by
  induction text generalizing k with
  | nil => cases k <;> rfl
  | cons c text ih =>
    cases k with
    | zero => rfl
    | succ k => exact ih k

theorem ofNameDigits {text : List Char} {k : Nat} (length : numberedLength text = k + 1) :
    ofName ('\\' :: '\\' :: text) =
      (if numberedChar text = '\n' then ['\\', '\n'] else [numberedChar text]) ++
        ofName (text.drop (k + 1)) := by
  have first : numberedLength ('\\' :: text) = 0 := numberedLengthZero (by decide)
  simp only [ofName, readNumbered, first, length, readNumberedDrop (k + 1), if_true,
    dropBackslashes]
  split
  · next line => rw [line]; rfl
  · rfl

structure Standing (plain : Char → Prop) : Prop where
  marked : ¬ plain '\\'
  visible {c} : plain c → newlineLength [c] = 0

section
variable {plain : Char → Prop} {front : Bool} {text value : List Char}

theorem spellsPeel {k : Nat} (spells : Spells plain front text value)
    (size : k ≤ text.length) (hex : ∀ c ∈ text.take k, isHex c = true) :
    ∃ rest, Spells plain front (text.drop k) rest ∧ rest.length + k = value.length ∧
      markCount rest + k = markCount value := by
  have backslash : isHex '\\' = false := by decide
  induction spells generalizing k with
  | nil =>
    cases k with
    | zero => exact ⟨[], .nil, rfl, rfl⟩
    | succ k => simp at size
  | @plain c text value stands rest ih =>
    cases k with
    | zero => exact ⟨c :: value, .plain stands rest, rfl, rfl⟩
    | succ k =>
      obtain ⟨first, others⟩ := List.forall_mem_cons.mp hex
      obtain ⟨rest, spells, length, count⟩ := ih (by simpa using size) others
      refine ⟨rest, spells, by simp [← length]; omega, ?_⟩
      rw [markCountCons, ← count, isMark, first]
      simp
      omega
  | numbered coded place rest _ =>
    cases k with
    | zero => exact ⟨_, .numbered coded place rest, rfl, rfl⟩
    | succ k => exact absurd (hex '\\' (by simp [codePointText])) (by simp [backslash])
  | escaped mark visible rest _ =>
    cases k with
    | zero => exact ⟨_, .escaped mark visible rest, rfl, rfl⟩
    | succ k => exact absurd (hex '\\' (by simp)) (by simp [backslash])

theorem spellsClosing (standing : Standing plain) (spells : Spells plain front text value) :
    ∃ rest, Spells plain front (text.drop (closingLength text)) rest ∧
      rest.length ≤ value.length ∧ markCount rest ≤ markCount value := by
  cases spells with
  | nil => exact ⟨[], .nil, Nat.le_refl _, Nat.le_refl _⟩
  | @plain c text value stands rest =>
    have short : closingLength (c :: text) = 0 ∨ closingLength (c :: text) = 1 := by
      have noLine : newlineLength (c :: text) = 0 :=
        newlineLengthCons (standing.visible stands)
      unfold closingLength
      split <;> simp_all
    rcases short with none | one
    · exact ⟨c :: value, by simpa [none] using .plain stands rest, Nat.le_refl _, Nat.le_refl _⟩
    · refine ⟨value, by simpa [one] using rest, by simp, ?_⟩
      rw [markCountCons]
      omega
  | numbered coded place rest => exact ⟨_, .numbered coded place rest, Nat.le_refl _, Nat.le_refl _⟩
  | escaped mark visible rest => exact ⟨_, .escaped mark visible rest, Nat.le_refl _, Nat.le_refl _⟩

theorem digitNoMark {d : Char} {cs : List Char} (digits : hexDigits cs = [d]) :
    isMark (numberedChar cs) = false := by
  have small : ∀ n < 16, isMark (ofCodePoint n) = false := by decide
  have hex : isHex d = true := by
    have all := List.all_takeWhile (p := isHex) (l := cs.take 6)
    rw [show (cs.take 6).takeWhile isHex = [d] from digits] at all
    simpa using all
  have letter : 'a' ≤ d ↔ 97 ≤ d.toNat := UInt32.le_iff_toNat_le
  have value : hexValue d < 16 := by
    rw [isHexNumber] at hex
    simp only [hexValue, letter, isDigitNumber]
    split
    · omega
    split <;> omega
  rw [numberedChar, digits]
  exact small _ (by simpa using value)

theorem numberedDrop (standing : Standing plain) {k : Nat} (length : numberedLength text = k + 1)
    (spells : Spells plain front text value) :
    ∃ rest, Spells plain front (text.drop (k + 1)) rest ∧ rest.length < value.length ∧
      markCount rest + (if isMark (numberedChar text) then 1 else 0) < markCount value := by
  obtain ⟨m, size⟩ : ∃ m, (hexDigits text).length = m + 1 := by
    cases size : (hexDigits text).length with
    | zero => simp [numberedLength, size] at length
    | succ m => exact ⟨m, rfl⟩
  have span : numberedLength text = m + 1 + closingLength (text.drop (m + 1)) := by
    simp [numberedLength, size]
  have digits : text.take (m + 1) = hexDigits text := by
    have front := List.prefix_iff_eq_take.mp
      ((List.takeWhile_prefix isHex).trans (List.take_prefix 6 text))
    rw [← size]
    exact front.symm
  have hex : ∀ c ∈ text.take (m + 1), isHex c = true := by
    rw [digits]
    exact List.all_eq_true.mp List.all_takeWhile
  have enough : m + 1 ≤ text.length := by
    rw [← size, ← digits]
    exact List.length_take_le' _ _
  obtain ⟨inner, spells, shorter, fewer⟩ := spellsPeel spells enough hex
  obtain ⟨rest, spells, shorter', fewer'⟩ := spellsClosing standing spells
  refine ⟨rest, ?_, by omega, ?_⟩
  · rw [← length, span, ← List.drop_drop]
    exact spells
  · cases m with
    | succ m => split <;> omega
    | zero =>
      obtain ⟨d, single⟩ := List.length_eq_one_iff.mp size
      rw [digitNoMark single]
      simp
      omega

end

theorem clearCons {c : Char} {value : List Char} (other : c ≠ '\\') (clear : Clear value) :
    Clear (c :: value) := by
  cases value with
  | nil => exact .singleton c
  | cons d value => exact .cons_cons (fun mark => absurd mark other) clear

theorem clearBackslash {plain : Char → Prop} {text value : List Char}
    (spells : Spells plain false text value) (none : numberedLength text = 0)
    (clear : Clear value) : Clear ('\\' :: value) := by
  -- Digits that no number spells stand as they are, so a digit here would be read as a number.
  cases spells with
  | nil => exact .singleton _
  | @plain c text value _ _ =>
    refine .cons_cons (fun _ => ?_) clear
    cases hex : isHex c with
    | false => rfl
    | true => simp [numberedLength, hexDigits, hex] at none
  | @numbered c text value _ place _ =>
    refine .cons_cons (fun _ => ?_) clear
    have control := isControlNumber.mp (place.resolve_left (by simp))
    rw [← Bool.not_eq_true, isHexNumber]
    omega
  | escaped mark _ _ => exact .cons_cons (fun _ => mark) clear

/-- What is read has fewer marks than the value, or is the value. Digits at the front of a name are
spelled by their numbers, so the value of a whole name need not be clear. -/
def Rereads (front : Bool) (read value : List Char) : Prop :=
  markCount read < markCount value ∨ read = value ∧ (front = false → Clear value)

theorem rereadsCons {front : Bool} {c : Char} {read value : List Char} (other : c ≠ '\\')
    (rereads : Rereads front read value) : Rereads front (c :: read) (c :: value) := by
  rcases rereads with fewer | ⟨rfl, clear⟩
  · refine .inl ?_
    rw [markCountCons, markCountCons]
    omega
  · exact .inr ⟨rfl, fun inner => clearCons other (clear inner)⟩

section
variable {plain : Char → Prop} (standing : Standing plain) {front : Bool} {text value : List Char}
  (spells : Spells plain front text value)
include standing spells

/-- A backslash is spelled by two. What follows them is read with the second one where it begins
with digits. -/
theorem rereadsBackslash (shorter : ∀ {text' value' : List Char}, value'.length ≤ value.length →
      Spells plain front text' value' → Rereads front (ofName text') value') :
    Rereads front (ofName ('\\' :: '\\' :: text)) ('\\' :: value) := by
  have backslash : isMark '\\' = false := by decide
  have line : isMark '\n' = false := by decide
  cases length : numberedLength text with
  | zero =>
    rw [ofNameBackslash length]
    rcases shorter (Nat.le_refl _) spells with fewer | ⟨read, clear⟩
    · refine .inl ?_
      rw [markCountCons, markCountCons]
      omega
    · refine .inr ⟨by rw [read], ?_⟩
      rintro rfl
      exact clearBackslash spells length (clear rfl)
  | succ k =>
    obtain ⟨value', rest, less, fewer⟩ := numberedDrop standing length spells
    have atMost : markCount (ofName (text.drop (k + 1))) ≤ markCount value' := by
      rcases shorter (Nat.le_of_lt less) rest with below | ⟨read, _⟩
      · exact Nat.le_of_lt below
      · rw [read]
    refine .inl ?_
    rw [ofNameDigits length, markCountCons, backslash]
    split
    · simp only [List.cons_append, List.nil_append, markCountCons, backslash, line]
      simp
      omega
    · simp only [List.cons_append, List.nil_append, markCountCons]
      simp
      omega

theorem rereadSpelled : Rereads front (ofName text) value := by
  -- A numbered escape takes several characters at once, so the induction is on the length.
  induction size : value.length using Nat.strong_induction_on generalizing text value with
  | h n ih =>
    cases spells with
    | nil => exact .inr ⟨rfl, fun _ => .nil⟩
    | @plain c text value stands rest =>
      have other : c ≠ '\\' := fun h => standing.marked (h ▸ stands)
      rw [ofNamePlain other]
      exact rereadsCons other (ih _ (by simp [← size]) rest rfl)
    | numbered coded place rest =>
      rw [ofNameNumbered coded]
      exact rereadsCons (codedOther coded) (ih _ (by simp [← size]) rest rfl)
    | @escaped c text value mark visible rest =>
      by_cases other : c = '\\'
      · subst other
        refine rereadsBackslash standing rest (fun le spells => ih _ ?_ spells rfl)
        rw [← size, List.length_cons]
        exact Nat.lt_succ_of_le le
      · rw [ofNameEscaped mark visible other]
        exact rereadsCons other (ih _ (by simp [← size]) rest rfl)

end

/-! Identifiers and strings. -/

theorem standingName : Standing StandsInName where
  marked := by unfold StandsInName; decide
  visible stands := by
    have name := isNameCharsNumber.mp stands
    rw [newlineLengthNumber]
    omega

theorem standingString : Standing StandsInString where
  marked stands := stands.1 rfl
  visible stands := stands.2.2

theorem rereadBound {plain : Char → Prop} (standing : Standing plain) {front : Bool}
    {text value : List Char} (spells : Spells plain front text value) :
    markCount (ofName text) ≤ markCount value := by
  rcases rereadSpelled standing spells with fewer | ⟨read, _⟩
  · exact Nat.le_of_lt fewer
  · rw [read]

theorem rereadsFront {c : Char} {text value : List Char} (visible : c ≠ '\x00')
    (spells : Spells StandsInName false text value) :
    Rereads false (ofName (identifierChar false c ++ text)) (c :: value) := by
  cases digit : c.isDigit with
  | true =>
    have coded : identifierChar false c = codePoint c := by
      simp [identifierChar, visible, digit]
    rw [coded, ofNameNumbered (.inr digit)]
    exact rereadsCons (codedOther (.inr digit)) (rereadSpelled standingName spells)
  | false =>
    have inner : identifierChar false c = identifierChar true c := by
      simp [identifierChar, digit]
    rw [inner]
    exact rereadSpelled standingName (identifierCharSpells true (.inl rfl) visible spells)

theorem rereadsIdentifier {value : List Char} (visible : HasNoNull value) :
    Rereads false (ofName (identifier value)) value := by
  unfold identifier
  split
  · exact .inr ⟨rfl, fun _ => .nil⟩
  · exact .inr ⟨by decide, fun _ => .singleton _⟩
  · next c cs =>
    obtain ⟨first, rest⟩ := noNullCons.mp (noNullCons.mp visible).2
    rw [List.cons_append, ofNamePlain (by decide)]
    exact rereadsCons (by decide) (rereadsFront first (identifierTailSpells rest))
  · next c cs _ _ =>
    obtain ⟨first, rest⟩ := noNullCons.mp visible
    exact rereadsFront first (identifierTailSpells rest)

theorem rereadsString {value : List Char} (visible : HasNoNull value) :
    Rereads false (ofString (value.flatMap stringChar)) value := by
  have spells := stringSpells visible
  rw [ofString, joinLinesWhole (stringTextVisible spells)]
  exact rereadSpelled standingString spells

end SelectorRank
