import Mathlib.Algebra.Group.Nat.Defs
import Mathlib.Data.List.TakeWhile
import SelectorRank.Proofs.Text.Ascii
import SelectorRank.Series

/-! The text of a series gives the series back. A letter stands in it exactly when there is a step,
and what comes before and after the letter are numerals whose units and zeros are left out. -/
namespace SelectorRank
open Text

namespace Text

theorem naturalDigits (n : Nat) : ∀ c ∈ natural n, c.isDigit = true :=
  fun _ member => Nat.isDigit_of_mem_toDigits (by decide) (by decide) member

theorem naturalSome (n : Nat) : ∃ c cs, natural n = c :: cs ∧ c.isDigit = true := by
  cases digits : natural n with
  | nil => exact absurd digits Nat.toDigits_ne_nil
  | cons c cs => exact ⟨c, cs, rfl, naturalDigits n c (by simp [digits])⟩

theorem naturalUnique {m n : Nat} (same : natural m = natural n) : m = n := by
  rw [← Nat.ofDigitChars_ten_toDigits (n := m), ← Nat.ofDigitChars_ten_toDigits (n := n)]
  exact congrArg (Nat.ofDigitChars 10 · 0) same

theorem digitNotSign {c : Char} (digit : c.isDigit = true) : c ≠ '-' ∧ c ≠ '+' ∧ c ≠ 'n' := by
  refine ⟨?_, ?_, ?_⟩ <;> (rintro rfl; exact absurd digit (by decide))

theorem integerNegative {i : Int} (negative : i < 0) :
    integer i = '-' :: natural i.natAbs := by
  simp [integer, negative]

theorem integerPositive {i : Int} (positive : 0 ≤ i) : integer i = natural i.natAbs := by
  simp [integer, Int.not_lt.mpr positive]

def IsSeriesChar (c : Char) : Prop := c.isDigit = true ∨ c = '+' ∨ c = '-' ∨ c = 'n'

theorem integerChars (i : Int) : ∀ c ∈ integer i, c.isDigit = true ∨ c = '-' := by
  intro c member
  unfold integer at member
  split at member
  · rcases List.mem_cons.mp member with rfl | member
    · exact .inr rfl
    · exact .inl (naturalDigits _ c member)
  · exact .inl (naturalDigits _ c member)

theorem integerUnique {i j : Int} (same : integer i = integer j) : i = j := by
  unfold integer at same
  split at same <;> split at same
  · next left right =>
    have := naturalUnique (List.cons.inj same).2
    omega
  · obtain ⟨c, cs, digits, digit⟩ := naturalSome j.natAbs
    rw [digits] at same
    exact absurd (List.cons.inj same).1.symm (digitNotSign digit).1
  · obtain ⟨c, cs, digits, digit⟩ := naturalSome i.natAbs
    rw [digits] at same
    exact absurd (List.cons.inj same).1 (digitNotSign digit).1
  · have := naturalUnique same
    omega

end Text

namespace Series

def coefficient (a : Int) : List Char :=
  if a = 1 then [] else if a = -1 then ['-'] else integer a

def remainder (b : Int) : List Char :=
  if b = 0 then [] else if 0 < b then '+' :: integer b else integer b

theorem textStepless {s : Series} (none : s.step = 0) : s.text = integer s.offset := by
  simp [text, stepText, none]

theorem stepTextLetter {a : Int} (some : a ≠ 0) : stepText a = coefficient a ++ ['n'] := by
  unfold stepText coefficient
  split
  · rfl
  split
  · rfl
  · rfl

theorem textStepped {s : Series} (some : s.step ≠ 0) :
    s.text = coefficient s.step ++ 'n' :: remainder s.offset := by
  have term : coefficient s.step ++ ['n'] ≠ [] := by simp
  unfold text remainder
  simp only [stepTextLetter some, if_neg term]
  split
  · rfl
  split
  · simp
  · simp

theorem coefficientChars (a : Int) : ∀ c ∈ coefficient a, c.isDigit = true ∨ c = '-' := by
  unfold coefficient
  split
  · simp
  split
  · simp
  · exact integerChars a

theorem remainderChars (b : Int) : ∀ c ∈ remainder b, c.isDigit = true ∨ c = '-' ∨ c = '+' := by
  have digits : ∀ c ∈ integer b, c.isDigit = true ∨ c = '-' ∨ c = '+' :=
    fun c member => (integerChars b c member).imp_right .inl
  unfold remainder
  split
  · simp
  split
  · intro c member
    rcases List.mem_cons.mp member with rfl | member
    · exact .inr (.inr rfl)
    · exact digits c member
  · exact digits

theorem coefficientUnit {a : Int} : coefficient a = [] ↔ a = 1 := by
  obtain ⟨c, cs, digits, _⟩ := naturalSome a.natAbs
  by_cases unit : a = 1
  · simp [coefficient, unit]
  · simp only [coefficient, unit, if_false, iff_false]
    split
    · simp
    · unfold integer
      split <;> simp [digits]

theorem coefficientNegated {a : Int} : coefficient a = ['-'] ↔ a = -1 := by
  obtain ⟨c, cs, digits, digit⟩ := naturalSome a.natAbs
  by_cases unit : a = -1
  · simp [coefficient, unit]
  · simp only [coefficient, unit, if_false, iff_false]
    split
    · simp
    · unfold integer
      split
      · simp [digits]
      · simp [digits, (digitNotSign digit).1]

theorem coefficientUnique {a b : Int} (same : coefficient a = coefficient b) : a = b := by
  by_cases unit : a = 1
  · rw [unit, coefficientUnit.mpr rfl] at same
    rw [unit, coefficientUnit.mp same.symm]
  by_cases negated : a = -1
  · rw [negated, coefficientNegated.mpr rfl] at same
    rw [negated, coefficientNegated.mp same.symm]
  have unit' : b ≠ 1 := fun h => unit (coefficientUnit.mp (same.trans (coefficientUnit.mpr h)))
  have negated' : b ≠ -1 :=
    fun h => negated (coefficientNegated.mp (same.trans (coefficientNegated.mpr h)))
  simp only [coefficient, unit, negated, unit', negated', if_false] at same
  exact integerUnique same

theorem remainderCases (b : Int) :
    b = 0 ∧ remainder b = [] ∨ 0 < b ∧ remainder b = '+' :: natural b.natAbs ∨
      b < 0 ∧ remainder b = '-' :: natural b.natAbs := by
  unfold remainder
  rcases Int.lt_trichotomy b 0 with negative | rfl | positive
  · refine .inr (.inr ⟨negative, ?_⟩)
    rw [if_neg (by omega), if_neg (by omega), integerNegative negative]
  · exact .inl ⟨rfl, rfl⟩
  · refine .inr (.inl ⟨positive, ?_⟩)
    rw [if_neg (by omega), if_pos positive, integerPositive (by omega)]

theorem remainderUnique {a b : Int} (same : remainder a = remainder b) : a = b := by
  rcases remainderCases a with ⟨signA, textA⟩ | ⟨signA, textA⟩ | ⟨signA, textA⟩ <;>
    rcases remainderCases b with ⟨signB, textB⟩ | ⟨signB, textB⟩ | ⟨signB, textB⟩ <;>
    rw [textA, textB] at same <;> simp at same
  · omega
  · have := naturalUnique same
    omega
  · have := naturalUnique same
    omega

theorem textUnique {s t : Series} (same : s.text = t.text) : s = t := by
  have noLetter : ∀ i : Int, 'n' ∉ integer i :=
    fun i member => absurd (integerChars i 'n' member) (by decide)
  have front : ∀ i : Int, ∀ c ∈ coefficient i, (c != 'n') = true := by
    intro i c member
    rcases coefficientChars i c member with digit | rfl
    · simpa using (digitNotSign digit).2.2
    · decide
  have both : s.step = t.step ∧ s.offset = t.offset := by
    by_cases none : s.step = 0 <;> by_cases none' : t.step = 0
    · rw [textStepless none, textStepless none'] at same
      exact ⟨none.trans none'.symm, integerUnique same⟩
    · rw [textStepless none, textStepped none'] at same
      exact absurd (same ▸ noLetter s.offset) (by simp)
    · rw [textStepped none, textStepless none'] at same
      exact absurd (same ▸ noLetter t.offset) (by simp)
    · rw [textStepped none, textStepped none'] at same
      obtain ⟨steps, rest⟩ := frontUnique (front s.step) (front t.step)
        (by simp [EndsAt]) (by simp [EndsAt]) same
      exact ⟨coefficientUnique steps, remainderUnique (List.cons.inj rest).2⟩
  cases s
  cases t
  cases both.1
  cases both.2
  rfl

/-! Reading. A numeral that is longer than the limit is not read. -/

/-- Both numerals are short enough to be read. -/
def Short (s : Series) : Prop :=
  (natural s.step.natAbs).length ≤ numeralLimit ∧ (natural s.offset.natAbs).length ≤ numeralLimit

/-! Only short numerals are read, so whatever series a text spells is short. -/

theorem digitValueSmall {c : Char} {d : Nat} (value : digitValue? c = some d) : d < 10 := by
  obtain ⟨first, found, rfl⟩ := Option.map_eq_some_iff.mp value
  have block := List.find?_some found
  simp only [Bool.and_eq_true, decide_eq_true_eq] at block
  omega

theorem groupedDigitsSmall {cs : List Char} {ds : List Nat} (read : groupedDigits cs = some ds) :
    ∀ d ∈ ds, d < 10 := by
  induction cs using groupedDigits.induct generalizing ds with
  | case1 => cases read
  | case2 c cs ih =>
    rw [groupedDigits] at read
    obtain ⟨d, value, more⟩ := Option.bind_eq_some_iff.mp read
    have first := digitValueSmall value
    split at more
    · cases more
      simpa using first
    · obtain ⟨others, rest, rfl⟩ := Option.map_eq_some_iff.mp more
      exact List.forall_mem_cons.mpr ⟨first, ih rest⟩
    · next none bar =>
      obtain ⟨others, rest, rfl⟩ := Option.map_eq_some_iff.mp more
      split at ih
      · cases rest
      · exact absurd rfl (bar _)
      · exact List.forall_mem_cons.mpr ⟨first, ih rest⟩

theorem ofDigitValuesSmall {ds : List Nat} (small : ∀ d ∈ ds, d < 10) :
    ofDigitValues ds < 10 ^ ds.length := by
  have grows : ∀ {ds : List Nat} (n : Nat), (∀ d ∈ ds, d < 10) →
      ds.foldl (fun n d => 10 * n + d) n < (n + 1) * 10 ^ ds.length := by
    intro ds
    induction ds with
    | nil => intro n _; simp
    | cons d ds ih =>
      intro n small
      obtain ⟨first, rest⟩ := List.forall_mem_cons.mp small
      calc ds.foldl (fun n d => 10 * n + d) (10 * n + d)
          < (10 * n + d + 1) * 10 ^ ds.length := ih _ rest
        _ ≤ (10 * (n + 1)) * 10 ^ ds.length := Nat.mul_le_mul_right _ (by omega)
        _ = (n + 1) * 10 ^ (d :: ds).length := by
          rw [List.length_cons, Nat.pow_succ, Nat.mul_comm 10, Nat.mul_assoc, Nat.mul_comm 10]
  simpa [ofDigitValues] using grows 0 small

theorem unsignedShort {cs : List Char} {n : Nat} (read : unsigned? cs = some n) :
    (natural n).length ≤ numeralLimit := by
  obtain ⟨ds, grouped, read⟩ := Option.bind_eq_some_iff.mp read
  split at read
  · next few =>
    cases read
    have limit : 0 < numeralLimit := by decide
    refine (Nat.length_toDigits_le_iff (by decide) limit).mpr ?_
    exact Nat.lt_of_lt_of_le (ofDigitValuesSmall (groupedDigitsSmall grouped))
      (Nat.pow_le_pow_right (by decide) few)
  · cases read

theorem integerShort {cs : List Char} {i : Int} (read : integer? cs = some i) :
    (natural i.natAbs).length ≤ numeralLimit := by
  unfold integer? at read
  split at read <;>
  · obtain ⟨n, number, rfl⟩ := Option.map_eq_some_iff.mp read
    simpa using unsignedShort number

theorem stepShort {cs : List Char} {a : Int} (read : step? cs = some a) :
    (natural a.natAbs).length ≤ numeralLimit := by
  unfold step? at read
  split at read
  · cases read; decide
  · cases read; decide
  · cases read; decide
  · exact integerShort read

theorem offsetShort {cs : List Char} {b : Int} (read : offset? cs = some b) :
    (natural b.natAbs).length ≤ numeralLimit := by
  unfold offset? at read
  split at read
  · cases read; decide
  · exact integerShort read

theorem ofTextShort {cs : List Char} {s : Series} (read : ofText? cs = some s) : s.Short := by
  unfold ofText? at read
  simp only at read
  split at read
  · cases read; exact ⟨by decide, by decide⟩
  split at read
  · cases read; exact ⟨by decide, by decide⟩
  split at read
  · obtain ⟨b, offset, rfl⟩ := Option.map_eq_some_iff.mp read
    have zero : (natural 0).length ≤ numeralLimit := by decide
    exact ⟨zero, integerShort offset⟩
  · obtain ⟨a, step, read⟩ := Option.bind_eq_some_iff.mp read
    obtain ⟨b, offset, read⟩ := Option.bind_eq_some_iff.mp read
    cases read
    exact ⟨stepShort step, offsetShort offset⟩

theorem digitValueAscii {c : Char} (digit : c.isDigit = true) :
    digitValue? c = some (c.toNat - 48) := by
  rw [isDigitNumber] at digit
  have first : c.toNat < 0x30 + 10 := by omega
  simp [digitValue?, digitZeros, digit.1, first]

theorem groupedDigitsRead {cs : List Char} (some : cs ≠ []) (digits : ∀ c ∈ cs, c.isDigit = true) :
    groupedDigits cs = Option.some (cs.map (fun c => c.toNat - 48)) := by
  induction cs with
  | nil => contradiction
  | cons c cs ih =>
    have value := digitValueAscii (digits c (by simp))
    cases cs with
    | nil => simp [groupedDigits, value]
    | cons d cs =>
      have noBar : d ≠ '_' := by
        rintro rfl
        exact absurd (digits '_' (by simp)) (by decide)
      have rest := ih (by simp) (fun e member => digits e (by simp [member]))
      simp [groupedDigits, value, noBar, rest]

theorem ofDigitValuesRead (cs : List Char) :
    ofDigitValues (cs.map (fun c => c.toNat - 48)) = Nat.ofDigitChars 10 cs 0 := by
  rw [ofDigitValues, List.foldl_map, Nat.ofDigitChars_eq_foldl]
  rfl

theorem unsignedRead {n : Nat} (short : (natural n).length ≤ numeralLimit) :
    unsigned? (natural n) = some n := by
  have digits := groupedDigitsRead (Nat.toDigits_ne_nil) (naturalDigits n)
  simp only [unsigned?, natural] at digits short ⊢
  simp [digits, short, ofDigitValuesRead]

theorem trimWhole {p : Char → Bool} {cs : List Char} (none : ∀ c ∈ cs, p c = false) :
    trim p cs = cs := by
  have whole : ∀ {ds : List Char}, (∀ c ∈ ds, p c = false) → ds.dropWhile p = ds := by
    intro ds none
    cases ds with
    | nil => rfl
    | cons d ds => simp [none d (by simp)]
  rw [trim, trimRight, trimLeft, whole none, whole (by simpa using none), List.reverse_reverse]

theorem seriesCharNumber {c : Char} (char : IsSeriesChar c) :
    48 ≤ c.toNat ∧ c.toNat ≤ 57 ∨ c.toNat = 43 ∨ c.toNat = 45 ∨ c.toNat = 110 := by
  rcases char with digit | rfl | rfl | rfl
  · exact .inl (isDigitNumber.mp digit)
  · decide
  · decide
  · decide

theorem seriesCharVisible {c : Char} (char : IsSeriesChar c) :
    isBlank c = false ∧ lower c = c := by
  have number := seriesCharNumber char
  constructor
  · simp only [isBlank, Bool.or_eq_false_iff, Bool.and_eq_false_iff, decide_eq_false_iff_not,
      beq_eq_false_iff_ne]
    omega
  · exact toLowerWhole (by omega)

theorem integerBlanks (i : Int) : ∀ c ∈ integer i, isNumeralBlank c = false := by
  intro c member
  have char : IsSeriesChar c := (integerChars i c member).imp_right (fun h => .inr (.inl h))
  simp [isNumeralBlank, (seriesCharVisible char).1]

theorem integerRead {i : Int} (short : (natural i.natAbs).length ≤ numeralLimit) :
    integer? (integer i) = some i := by
  rw [integer?, trimWhole (integerBlanks i)]
  by_cases negative : i < 0
  · rw [integerNegative negative]
    simp only [unsignedRead short, Option.map_some, Option.some.injEq, Int.ofNat_eq_natCast]
    omega
  · rw [integerPositive (by omega)]
    obtain ⟨c, cs, digits, digit⟩ := naturalSome i.natAbs
    have value := unsignedRead short
    rw [digits] at value ⊢
    simp [value, digitNotSign digit]
    omega

theorem stepRead {a : Int} (short : (natural a.natAbs).length ≤ numeralLimit) :
    step? (coefficient a) = some a := by
  by_cases unit : a = 1
  · subst unit
    rfl
  by_cases negated : a = -1
  · subst negated
    rfl
  have long : coefficient a ≠ [] := mt coefficientUnit.mp unit
  have signed : coefficient a ≠ ['-'] := mt coefficientNegated.mp negated
  have plus : coefficient a ≠ ['+'] := by
    intro same
    have := coefficientChars a '+' (by simp [same])
    exact absurd this (by decide)
  rw [step?.eq_4 _ long plus signed, coefficient, if_neg unit, if_neg negated, integerRead short]

theorem offsetRead {b : Int} (short : (natural b.natAbs).length ≤ numeralLimit) :
    offset? (remainder b) = some b := by
  rcases remainderCases b with ⟨rfl, text⟩ | ⟨sign, text⟩ | ⟨sign, text⟩
  · rfl
  · have blanks : ∀ c ∈ '+' :: natural b.natAbs, isNumeralBlank c = false := by
      intro c member
      rcases List.mem_cons.mp member with rfl | member
      · decide
      · exact integerBlanks b c (integerPositive (Int.le_of_lt sign) ▸ member)
    rw [text, offset?, integer?, trimWhole blanks]
    · simp [unsignedRead short]
      omega
    · simp
  · have read := integerRead short
    rw [integerNegative sign] at read
    rw [text, offset?, read]
    simp

theorem textChars (s : Series) : ∀ c ∈ s.text, IsSeriesChar c := by
  intro c member
  by_cases none : s.step = 0
  · rw [textStepless none] at member
    exact (integerChars _ c member).imp_right (fun h => .inr (.inl h))
  · rw [textStepped none, List.mem_append, List.mem_cons] at member
    rcases member with front | rfl | back
    · exact (coefficientChars s.step c front).imp_right (fun h => .inr (.inl h))
    · exact .inr (.inr (.inr rfl))
    · rcases remainderChars s.offset c back with digit | minus | plus
      · exact .inl digit
      · exact .inr (.inr (.inl minus))
      · exact .inr (.inl plus)

theorem textLowered (s : Series) : s.text.map lower = s.text :=
  (List.map_congr_left (fun c member => (seriesCharVisible (textChars s c member)).2)).trans
    (List.map_id s.text)

theorem textNoWord (s : Series) : s.text ≠ ['o', 'd', 'd'] ∧ s.text ≠ ['e', 'v', 'e', 'n'] := by
  constructor
  · intro same
    exact absurd (textChars s 'o' (by simp [same])) (by unfold IsSeriesChar; decide)
  · intro same
    exact absurd (textChars s 'v' (by simp [same])) (by unfold IsSeriesChar; decide)

theorem ofTextRead {s : Series} (short : s.Short) : ofText? s.text = some s := by
  have trimmed : trim isBlank s.text = s.text :=
    trimWhole (fun c member => (seriesCharVisible (textChars s c member)).1)
  simp only [ofText?, trimmed, textLowered s, textNoWord s, if_false]
  obtain ⟨a, b⟩ := s
  by_cases none : a = 0
  · subst none
    rw [textStepless rfl]
    have noLetter : (integer b).dropWhile (· ≠ 'n') = [] := by
      rw [List.dropWhile_eq_nil_iff]
      intro c member
      rcases integerChars b c member with digit | rfl
      · simpa using (digitNotSign digit).2.2
      · decide
    simp only [noLetter, integerRead short.2, Option.map_some]
  · have front : ∀ c ∈ coefficient a, decide (c ≠ 'n') = true := by
      intro c member
      rcases coefficientChars a c member with digit | rfl
      · simpa using (digitNotSign digit).2.2
      · decide
    rw [textStepped none, takeWhileFront front (by simp [EndsAt]),
      List.dropWhile_append_of_pos front]
    simp [stepRead short.1, offsetRead short.2]

end Series

end SelectorRank
