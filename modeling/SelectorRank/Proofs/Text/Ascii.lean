import SelectorRank.Lexeme.Scan

/-! Classes of characters as ranges of their numbers, so that questions about them are questions of
arithmetic. -/
namespace SelectorRank
open Spelling Unescape

/-- The list is run through, where an instance for all characters would run through all of them. -/
instance everyCharDecidable {p : Char → Prop} [DecidablePred p] (cs : List Char) :
    Decidable (∀ c ∈ cs, p c) :=
  List.decidableBAll p cs

theorem eqNumber {c d : Char} : c = d ↔ c.toNat = d.toNat :=
  ⟨congrArg _, fun h => Char.ext (UInt32.toNat_inj.mp h)⟩

theorem isDigitNumber {c : Char} : c.isDigit = true ↔ 48 ≤ c.toNat ∧ c.toNat ≤ 57 := by
  simp only [Char.isDigit, Bool.and_eq_true, decide_eq_true_eq, UInt32.le_iff_toNat_le, ge_iff_le]
  rfl

theorem isAlphaNumber {c : Char} :
    c.isAlpha = true ↔ 65 ≤ c.toNat ∧ c.toNat ≤ 90 ∨ 97 ≤ c.toNat ∧ c.toNat ≤ 122 := by
  change (decide (c.val ≥ 'A'.val ∧ c.val ≤ 'Z'.val) ||
    c.val ≥ 'a'.val && c.val ≤ 'z'.val) = true ↔ _
  simp only [Bool.and_eq_true, Bool.or_eq_true, decide_eq_true_eq, UInt32.le_iff_toNat_le,
    ge_iff_le]
  rfl

theorem isHexNumber {c : Char} : isHex c = true ↔
    48 ≤ c.toNat ∧ c.toNat ≤ 57 ∨ 97 ≤ c.toNat ∧ c.toNat ≤ 102 ∨ 65 ≤ c.toNat ∧ c.toNat ≤ 70 := by
  simp only [isHex, Bool.or_eq_true, isDigitNumber, Bool.and_eq_true, decide_eq_true_eq,
    Char.le_def, UInt32.le_iff_toNat_le, or_assoc]
  rfl

theorem isNameCharNumber {c : Char} : isNameChar c = true ↔
    65 ≤ c.toNat ∧ c.toNat ≤ 90 ∨ 97 ≤ c.toNat ∧ c.toNat ≤ 122 ∨ 48 ≤ c.toNat ∧ c.toNat ≤ 57 ∨
      c.toNat = 45 ∨ c.toNat = 95 := by
  simp only [isNameChar, Char.isAlphanum, Bool.or_eq_true, isAlphaNumber, isDigitNumber, beq_iff_eq,
    eqNumber, or_assoc]
  rfl

theorem isNonAsciiNumber {c : Char} : isNonAscii c = true ↔ 128 ≤ c.toNat := by simp [isNonAscii]

theorem isControlNumber {c : Char} :
    isControl c = true ↔ 1 ≤ c.toNat ∧ c.toNat ≤ 31 ∨ c.toNat = 127 := by
  simp [isControl]

theorem isNameCharsNumber {c : Char} : isNameChars c = true ↔
    65 ≤ c.toNat ∧ c.toNat ≤ 90 ∨ 97 ≤ c.toNat ∧ c.toNat ≤ 122 ∨ 48 ≤ c.toNat ∧ c.toNat ≤ 57 ∨
      c.toNat = 45 ∨ c.toNat = 95 ∨ 128 ≤ c.toNat := by
  simp only [isNameChars, Bool.or_eq_true, isNameCharNumber, isNonAsciiNumber, or_assoc]

theorem isNameStartNumber {c : Char} : isNameStart c = true ↔
    65 ≤ c.toNat ∧ c.toNat ≤ 90 ∨ 97 ≤ c.toNat ∧ c.toNat ≤ 122 ∨ c.toNat = 95 ∨ 128 ≤ c.toNat := by
  simp only [isNameStart, Bool.or_eq_true, isAlphaNumber, beq_iff_eq, eqNumber, isNonAsciiNumber,
    or_assoc]
  rfl

theorem isSpaceNumber {c : Char} : isSpace c = true ↔
    c.toNat = 32 ∨ c.toNat = 9 ∨ c.toNat = 13 ∨ c.toNat = 10 ∨ c.toNat = 12 := by
  simp only [isSpace, Bool.or_eq_true, beq_iff_eq, eqNumber, or_assoc]
  rfl

theorem toLowerWhole {c : Char} (small : c.toNat < 65 ∨ 90 < c.toNat) : c.toLower = c := by
  have upper : ¬ (c.val ≥ 'A'.val ∧ c.val ≤ 'Z'.val) := by
    simp only [ge_iff_le, UInt32.le_iff_toNat_le]
    change ¬ (65 ≤ c.toNat ∧ c.toNat ≤ 90)
    omega
  exact dif_neg upper

theorem newlineLengthNumber {c : Char} :
    newlineLength [c] = 0 ↔ c.toNat ≠ 10 ∧ c.toNat ≠ 13 ∧ c.toNat ≠ 12 := by
  constructor
  · intro h
    refine ⟨?_, ?_, ?_⟩
    · intro n; cases eqNumber.mpr (show c.toNat = '\n'.toNat from n); simp [newlineLength] at h
    · intro n; cases eqNumber.mpr (show c.toNat = '\r'.toNat from n); simp [newlineLength] at h
    · intro n; cases eqNumber.mpr (show c.toNat = '\x0c'.toNat from n); simp [newlineLength] at h
  · intro ⟨n, r, f⟩
    unfold newlineLength
    split <;> simp_all

/-! Texts that are cut at the first character out of a class. -/

section
variable {p : Char → Bool} {front back rest rest' : List Char}

def EndsAt (p : Char → Bool) (rest : List Char) : Prop := ∀ c, rest.head? = some c → p c = false

theorem takeWhileEnd (ends : EndsAt p rest) : rest.takeWhile p = [] := by
  cases rest with
  | nil => rfl
  | cons c rest => simp [ends c rfl]

theorem takeWhileFront (all : ∀ c ∈ front, p c = true) (ends : EndsAt p rest) :
    (front ++ rest).takeWhile p = front := by
  rw [List.takeWhile_append_of_pos all, takeWhileEnd ends, List.append_nil]

theorem frontUnique (all : ∀ c ∈ front, p c = true) (all' : ∀ c ∈ back, p c = true)
    (ends : EndsAt p rest) (ends' : EndsAt p rest') (same : front ++ rest = back ++ rest') :
    front = back ∧ rest = rest' := by
  have fronts : front = back := by
    rw [← takeWhileFront all ends, same, takeWhileFront all' ends']
  subst fronts
  exact ⟨rfl, List.append_cancel_left same⟩

end

end SelectorRank
