import SelectorRank.Proofs.Datum.Render
import SelectorRank.Proofs.Series

/-! All spellings of a series, with leading zeros and signs and terms that could be left out. None
is shorter than the text that is written. -/
namespace SelectorRank
open Text

namespace Series

structure Numeral (ds : List Char) (n : Nat) : Prop where
  some : ds ≠ []
  each : ∀ c ∈ ds, c.isDigit = true
  value : Nat.ofDigitChars 10 ds 0 = n

/-- A coefficient that is left out is one. -/
inductive Coefficient : List Char → Nat → Prop where
  | unit : Coefficient [] 1
  | numeral {ds : List Char} {n : Nat} (number : Numeral ds n) : Coefficient ds n

/-- Numbers with or without a sign. -/
inductive Signed (Unsigned : List Char → Nat → Prop) : List Char → Int → Prop where
  | bare {ds : List Char} {n : Nat} (number : Unsigned ds n) : Signed Unsigned ds n
  | plus {ds : List Char} {n : Nat} (number : Unsigned ds n) : Signed Unsigned ('+' :: ds) n
  | minus {ds : List Char} {n : Nat} (number : Unsigned ds n) : Signed Unsigned ('-' :: ds) (-n)

/-- What follows the letter. A number has a sign there, and none means zero. -/
inductive Behind : List Char → Int → Prop where
  | zero : Behind [] 0
  | plus {ds : List Char} {n : Nat} (number : Numeral ds n) : Behind ('+' :: ds) n
  | minus {ds : List Char} {n : Nat} (number : Numeral ds n) : Behind ('-' :: ds) (-n)

inductive Denotes : List Char → Series → Prop where
  | constant {cs : List Char} {b : Int} (number : Signed Numeral cs b) : Denotes cs ⟨0, b⟩
  | stepped {front back : List Char} {a b : Int} (step : Signed Coefficient front a)
      (offset : Behind back b) : Denotes (front ++ 'n' :: back) ⟨a, b⟩

/-! The text is a spelling. -/

theorem naturalNumeral (n : Nat) : Numeral (natural n) n :=
  ⟨Nat.toDigits_ne_nil, naturalDigits n, Nat.ofDigitChars_ten_toDigits⟩

theorem signedNatural {Unsigned : List Char → Nat → Prop} {i : Int}
    (number : Unsigned (natural i.natAbs) i.natAbs) : Signed Unsigned (integer i) i := by
  by_cases negative : i < 0
  · have value : -(i.natAbs : Int) = i := by omega
    simpa only [integerNegative negative, value] using Signed.minus number
  · have value : (i.natAbs : Int) = i := by omega
    simpa only [integerPositive (Int.not_lt.mp negative), value] using Signed.bare number

theorem coefficientSigned (a : Int) : Signed Coefficient (coefficient a) a := by
  unfold coefficient
  split
  · next unit => exact unit ▸ .bare .unit
  split
  · next unit => exact unit ▸ .minus .unit
  · exact signedNatural (.numeral (naturalNumeral _))

theorem remainderBehind (b : Int) : Behind (remainder b) b := by
  have number := naturalNumeral b.natAbs
  rcases remainderCases b with ⟨rfl, text⟩ | ⟨positive, text⟩ | ⟨negative, text⟩
  · exact text ▸ .zero
  · have value : (b.natAbs : Int) = b := by omega
    simpa only [text, value] using Behind.plus number
  · have value : -(b.natAbs : Int) = b := by omega
    simpa only [text, value] using Behind.minus number

theorem textDenotes (s : Series) : Denotes s.text s := by
  obtain ⟨a, b⟩ := s
  by_cases none : a = 0
  · subst none
    rw [textStepless rfl]
    exact .constant (signedNatural (naturalNumeral _))
  · rw [textStepped none]
    exact .stepped (coefficientSigned a) (remainderBehind b)

/-! No spelling is shorter. -/

section
variable {cs ds front back : List Char} {n : Nat} {a b i : Int}

def unitless (n : Nat) : Nat := if n = 1 then 0 else (natural n).length

def signLength (i : Int) : Nat := if i < 0 then 1 else 0

theorem numeralLeast (number : Numeral ds n) : (natural n).length ≤ ds.length := by
  obtain ⟨some, each, rfl⟩ := number
  have small : ∀ d ∈ ds.map (fun c => c.toNat - 48), d < 10 := by
    intro d member
    obtain ⟨c, within, rfl⟩ := List.mem_map.mp member
    have digit := isDigitNumber.mp (each c within)
    omega
  have bound := ofDigitValuesSmall small
  rw [ofDigitValuesRead, List.length_map] at bound
  exact (Nat.length_toDigits_le_iff (by decide) (List.length_pos_iff.mpr some)).mpr bound

theorem coefficientLeast (number : Coefficient ds n) : unitless n ≤ ds.length := by
  cases number with
  | unit => exact Nat.le_refl 0
  | numeral number =>
    have short := numeralLeast number
    unfold unitless
    split <;> omega

theorem signedLeast {Unsigned : List Char → Nat → Prop} {least : Nat → Nat}
    (number : Signed Unsigned cs i) (short : ∀ ds n, Unsigned ds n → least n ≤ ds.length) :
    signLength i + least i.natAbs ≤ cs.length := by
  cases number with
  | bare number =>
    have bound := short _ _ number
    simp only [signLength, Int.natAbs_natCast]
    split <;> omega
  | plus number | minus number =>
    have bound := short _ _ number
    simp only [signLength, Int.natAbs_neg, Int.natAbs_natCast, List.length_cons]
    split <;> omega

theorem integerLength (i : Int) :
    (integer i).length = signLength i + (natural i.natAbs).length := by
  unfold integer signLength
  split
  · rw [List.length_cons, Nat.add_comm]
  · rw [Nat.zero_add]

theorem coefficientLength (a : Int) :
    (coefficient a).length = signLength a + unitless a.natAbs := by
  by_cases unit : a = 1
  · subst unit
    rfl
  by_cases negated : a = -1
  · subst negated
    rfl
  have other : a.natAbs ≠ 1 := by omega
  rw [coefficient, if_neg unit, if_neg negated, integerLength, unitless, if_neg other]

theorem remainderLength (b : Int) :
    (remainder b).length = if b = 0 then 0 else (natural b.natAbs).length + 1 := by
  rcases remainderCases b with ⟨rfl, text⟩ | ⟨sign, text⟩ | ⟨sign, text⟩
  · rfl
  · rw [text, List.length_cons, if_neg (by omega)]
  · rw [text, List.length_cons, if_neg (by omega)]

theorem behindLeast (offset : Behind back b) : (remainder b).length ≤ back.length := by
  rw [remainderLength]
  cases offset with
  | zero => exact Nat.le_refl 0
  | plus number | minus number =>
    have short := numeralLeast number
    simp only [Int.natAbs_neg, Int.natAbs_natCast, List.length_cons]
    split <;> omega

theorem integerRemainder (b : Int) : (integer b).length ≤ (remainder b).length + 1 := by
  rw [integerLength, remainderLength, signLength]
  by_cases zero : b = 0
  · subst zero
    decide
  · rw [if_neg zero]
    split <;> omega

theorem textLeast {s : Series} (denoted : Denotes cs s) : s.text.length ≤ cs.length := by
  cases denoted with
  | constant number =>
    rw [textStepless rfl, integerLength]
    exact signedLeast number fun _ _ => numeralLeast
  | @stepped front back a b step offset =>
    have first := signedLeast step fun _ _ => coefficientLeast
    have second := behindLeast offset
    rw [List.length_append, List.length_cons]
    by_cases none : a = 0
    · -- a step of zero takes a digit and the letter, and the text has neither
      subst none
      have digit : 1 ≤ front.length := first
      calc (text ⟨0, b⟩).length = (integer b).length := by rw [textStepless rfl]
        _ ≤ (remainder b).length + 1 := integerRemainder b
        _ ≤ front.length + (back.length + 1) := by omega
    · calc (text ⟨a, b⟩).length = (coefficient a).length + ((remainder b).length + 1) := by
            rw [textStepped none, List.length_append, List.length_cons]
        _ ≤ front.length + (back.length + 1) := by
            rw [coefficientLength]
            omega

end

/-- A series whose integers are short enough to be written is written as one of its spellings, and
as none that could be shorter. -/
theorem textShortest {s : Series} (short : s.isWritable = true) :
    Datum.seriesChars (.integer s.step) (.integer s.offset) = .ok s.text ∧
      Denotes s.text s ∧ ∀ cs, Denotes cs s → s.text.length ≤ cs.length := by
  obtain ⟨step, offset⟩ := Bool.and_eq_true_iff.mp short
  exact ⟨Datum.seriesCharsInteger step offset, textDenotes s, fun _ => textLeast⟩

theorem textShortestNegated :
    let s : Series := ⟨-1, 20⟩
    s.isWritable = true ∧
      Datum.seriesChars (.integer (-1)) (.integer 20) = .ok ['-', 'n', '+', '2', '0'] ∧
      Denotes ['-', 'n', '+', '2', '0'] s ∧ ∀ cs, Denotes cs s → 5 ≤ cs.length := by
  intro s
  have short : s.isWritable = true := by decide
  have text : s.text = ['-', 'n', '+', '2', '0'] := by decide
  obtain ⟨written, denoted, least⟩ := textShortest short
  rw [text] at written denoted least
  exact ⟨short, written, denoted, least⟩

end Series

end SelectorRank
