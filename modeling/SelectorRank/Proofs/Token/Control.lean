import SelectorRank.Proofs.Series
import SelectorRank.Proofs.Spelling
import SelectorRank.Specificity
import SelectorRank.Token.Text

/-! Control characters in canonical text. Names and values are spelled so that none of theirs is
left in the text, and no mark between them is one. Names of pseudo-classes and pseudo-elements stand
as they are, so the text holds the control characters of those names and no others. -/
namespace SelectorRank
open Spelling

def IsControl (c : Char) : Prop := c.toNat ≤ 0x1f ∨ c.toNat = 0x7f

instance : DecidablePred IsControl := fun _ => inferInstanceAs (Decidable (_ ∨ _))

def HasNoControl (cs : List Char) : Prop := ∀ c ∈ cs, ¬ IsControl c

instance : DecidablePred HasNoControl :=
  fun cs => inferInstanceAs (Decidable (∀ c ∈ cs, ¬ IsControl c))

@[simp] theorem noControlNil : HasNoControl [] := by simp [HasNoControl]

@[simp] theorem noControlCons {c : Char} {cs : List Char} :
    HasNoControl (c :: cs) ↔ ¬ IsControl c ∧ HasNoControl cs := List.forall_mem_cons

@[simp] theorem noControlAppend {front back : List Char} :
    HasNoControl (front ++ back) ↔ HasNoControl front ∧ HasNoControl back :=
  List.forall_mem_append

theorem noControlEach {f : Char → List Char} (each : ∀ c, HasNoControl (f c)) (cs : List Char) :
    HasNoControl (cs.flatMap f) := by
  intro c member
  obtain ⟨d, _, member⟩ := List.mem_flatMap.mp member
  exact each d c member

/-! Spelling. -/

theorem controlNumber {c : Char} : IsControl c ↔ c = '\x00' ∨ isControl c = true := by
  rw [IsControl, isControlNumber, eqNumber]
  change _ ↔ c.toNat = 0 ∨ _
  omega

theorem codePointNoControl {c : Char} (coded : Coded c) : HasNoControl (codePoint c) := by
  have digits : HasNoControl (Text.hex c.toNat) := by
    intro d member
    have hex := isHexNumber.mp ((hexShort coded).2.2.1 d member)
    rw [IsControl]
    omega
  simp only [codePoint, noControlCons, noControlAppend, List.cons_append]
  exact ⟨by decide, digits, by decide, noControlNil⟩

theorem markedNoControl {c : Char} (plain : ¬ IsControl c) : HasNoControl ['\\', c] := by
  simp only [noControlCons, plain, not_false_eq_true, noControlNil, and_true]
  decide

theorem identifierCharNoControl (digits : Bool) (c : Char) :
    HasNoControl (identifierChar digits c) := by
  unfold identifierChar
  split
  · decide
  · next visible =>
    split
    · next coded =>
      simp only [Bool.or_eq_true, Bool.and_eq_true] at coded
      exact codePointNoControl (coded.imp_right And.left)
    · next coded =>
      simp only [Bool.or_eq_true, not_or] at coded
      have plain : ¬ IsControl c := fun control =>
        (controlNumber.mp control).elim visible coded.1
      split
      · exact noControlCons.mpr ⟨plain, noControlNil⟩
      · exact markedNoControl plain

@[simp] theorem identifierNoControl (value : List Char) : HasNoControl (identifier value) := by
  have char := identifierCharNoControl
  have tail := noControlEach (char true)
  unfold identifier
  split
  · exact noControlNil
  · decide
  · next c cs => exact noControlCons.mpr ⟨by decide, noControlAppend.mpr ⟨char false c, tail cs⟩⟩
  · next c cs _ _ => exact noControlAppend.mpr ⟨char false c, tail cs⟩

theorem stringCharNoControl (c : Char) : HasNoControl (stringChar c) := by
  unfold stringChar
  split
  · decide
  · next visible =>
    split
    · next coded => exact codePointNoControl (.inl coded)
    · next coded =>
      have plain : ¬ IsControl c := fun control => (controlNumber.mp control).elim visible coded
      split
      · exact markedNoControl plain
      · exact noControlCons.mpr ⟨plain, noControlNil⟩

@[simp] theorem stringNoControl (value : List Char) : HasNoControl (Spelling.string value) := by
  have body := noControlEach stringCharNoControl value
  exact noControlAppend.mpr ⟨noControlCons.mpr ⟨by decide, body⟩, by decide⟩

/-! Numbers. -/

theorem digitNoControl {c : Char} (digit : c.isDigit = true) : ¬ IsControl c := by
  have number := isDigitNumber.mp digit
  rw [IsControl]
  omega

@[simp] theorem naturalNoControl (n : Nat) : HasNoControl (Text.natural n) :=
  fun c member => digitNoControl (Text.naturalDigits n c member)

@[simp] theorem integerNoControl (i : Int) : HasNoControl (Text.integer i) := by
  intro c member
  rcases Text.integerChars i c member with digit | rfl
  · exact digitNoControl digit
  · decide

@[simp] theorem specificityNoControl (x : Specificity) : HasNoControl x.text.toList := by
  have column (n : Nat) : HasNoControl (Nat.toDigits 10 n) := naturalNoControl n
  simp [Specificity.text, Specificity.columns, column, IsControl]

theorem seriesNoControl (s : Series) : HasNoControl s.text := by
  intro c member
  have number := Series.seriesCharNumber (s.textChars c member)
  rw [IsControl]
  omega

/-! Tokens. -/

@[simp] theorem spaceNoControl (space : Namespace) : HasNoControl space.chars := by
  cases space with
  | unspecified => decide
  | named name => exact noControlAppend.mpr ⟨identifierNoControl _, by decide⟩
  | any => decide

@[simp] theorem symbolNoControl (operator : AttributeOperator) :
    HasNoControl operator.symbol.toList := by
  cases operator <;> decide

@[simp] theorem argumentNoControl (argument : Argument) : HasNoControl argument.chars := by
  cases argument with
  | identifier value => exact identifierNoControl _
  | string value => exact stringNoControl _
  | parity value => cases value <;> decide
  | series value => exact seriesNoControl value

/-- The names that are written as they stand hold no control characters. -/
def Simple.HasPlainName : Simple → Prop
  | .pseudoElement name => HasNoControl name.toList
  | .pseudoClass name _ => HasNoControl name.toList
  | _ => True

theorem simpleNoControl {s : Simple} : HasNoControl s.chars ↔ s.HasPlainName := by
  cases s with
  | pseudoClass name argument =>
    cases argument <;> simp [Simple.chars, Simple.HasPlainName, IsControl]
  | _ => simp [Simple.chars, Simple.HasPlainName, IsControl]

mutual

def Token.HasPlainNames : Token → Prop
  | .simple s _ => s.HasPlainName
  | .negation _ body _ => HavePlainNames body
  | .combinator _ => True

def HavePlainNames : List Token → Prop
  | [] => True
  | t :: ts => t.HasPlainNames ∧ HavePlainNames ts

end

theorem tokensNoControl :
    (∀ t : Token, HasNoControl t.chars ↔ t.HasPlainNames) ∧
    ∀ tokens, HasNoControl (charsOf tokens) ↔ HavePlainNames tokens := by
  apply Token.chars.mutual_induct
  case case1 => exact fun s bucket => simpleNoControl
  case case2 =>
    intro form body bucket inner
    rw [Token.chars, Token.HasPlainNames, noControlAppend, noControlAppend, ← inner]
    exact ⟨fun h => h.1.2, fun h => ⟨⟨by decide, h⟩, by decide⟩⟩
  case case3 =>
    intro value
    refine iff_of_true ?_ trivial
    cases value <;> decide
  case case4 => exact iff_of_true noControlNil trivial
  case case5 =>
    intro t ts first rest
    rw [charsOf, noControlAppend, first, rest, HavePlainNames]

end SelectorRank
