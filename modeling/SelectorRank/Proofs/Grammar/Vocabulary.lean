import SelectorRank.Grammar.Selector
import SelectorRank.Proofs.Grammar.Cursor
import SelectorRank.Proofs.Token.Text

/-! Texts that are read back as they were written. A name that begins with two hyphens is no
identifier, a backslash before a hexadecimal digit is read as a numbered escape, and a star is
taken for the wildcard where it is a namespace or an element test without one. -/
namespace SelectorRank
open Spelling Unescape

def IsReadName (name : String) : Prop := Legible name.toList ∧ ¬ Doubled name.toList

def isPlainStart (c : Char) : Bool := c == '_' || ('a' ≤ c && c ≤ 'z') || isNonAscii c

def beginsPlain : List Char → Bool
  | '-' :: c :: _ => isPlainStart c
  | c :: _ => isPlainStart c
  | [] => false

/-- An identifier in lower case that needs no escape. -/
def IsPlainIdent (name : String) : Prop :=
  (∀ c ∈ name.toList, isPlainChar c = true) ∧ beginsPlain name.toList = true

/-- Pseudo-classes that hold selectors, and so no identifier or string. -/
def holdsSelectors (name : String) : Bool :=
  name = "not" || name = "has" || name = "is" || name = "matches" || name = "where"

def legible : Vocabulary where
  element := fun space name => IsReadName name ∧ (space = .unspecified → name ≠ "*")
  name := IsReadName
  id := fun name => Legible name.toList
  space := fun name => IsReadName name ∧ name ≠ "*"
  value := fun value => HasNoNull value.toList ∧ Clear value.toList
  series := Series.Short
  pseudoElement := IsPlainIdent
  pseudoClass := fun opens name =>
    IsPlainIdent name ∧ isLegacyPseudoElement name = false ∧ (name = "scope" → opens = true)
  function := fun name =>
    IsPlainIdent name ∧ isLegacyPseudoElement name = false ∧ holdsSelectors name = false

theorem isPlainCharNumber {c : Char} : isPlainChar c = true ↔
    c.toNat = 45 ∨ c.toNat = 95 ∨ 48 ≤ c.toNat ∧ c.toNat ≤ 57 ∨
      97 ≤ c.toNat ∧ c.toNat ≤ 122 ∨ 128 ≤ c.toNat := by
  simp only [isPlainChar, Bool.or_eq_true, beq_iff_eq, eqNumber, isDigitNumber, Bool.and_eq_true,
    decide_eq_true_eq, Char.le_def, UInt32.le_iff_toNat_le, isNonAsciiNumber, or_assoc]
  rfl

theorem isPlainStartNumber {c : Char} : isPlainStart c = true ↔
    c.toNat = 95 ∨ 97 ≤ c.toNat ∧ c.toNat ≤ 122 ∨ 128 ≤ c.toNat := by
  simp only [isPlainStart, Bool.or_eq_true, beq_iff_eq, eqNumber, Bool.and_eq_true,
    decide_eq_true_eq, Char.le_def, UInt32.le_iff_toNat_le, isNonAsciiNumber, or_assoc]
  rfl

theorem identifierCharPlain {c : Char} {digits : Bool} (plain : isPlainChar c = true)
    (start : (c.isDigit && !digits) = false) : identifierChar digits c = [c] := by
  rw [isPlainCharNumber] at plain
  have visible : c ≠ '\x00' := by
    rintro rfl
    have zero : '\x00'.toNat = 0 := rfl
    omega
  have control : isControl c = false := by
    rw [← Bool.not_eq_true, isControlNumber]
    omega
  have stands : (isNonAscii c || isNameChar c) = true := by
    rw [Bool.or_eq_true, isNonAsciiNumber, isNameCharNumber]
    omega
  simp [identifierChar, visible, control, start, stands]

theorem plainTail {cs : List Char} (all : ∀ c ∈ cs, isPlainChar c = true) :
    cs.flatMap (identifierChar true) = cs := by
  induction cs with
  | nil => rfl
  | cons c cs ih =>
    rw [List.flatMap_cons, identifierCharPlain (all c (by simp)) (by simp),
      ih (fun d member => all d (by simp [member]))]
    rfl

theorem plainStart {c : Char} (start : isPlainStart c = true) : c ≠ '-' ∧ c.isDigit = false := by
  rw [isPlainStartNumber] at start
  constructor
  · rintro rfl
    have hyphen : '-'.toNat = 45 := rfl
    omega
  · rw [← Bool.not_eq_true, isDigitNumber]
    omega

theorem identifierPlain {cs : List Char} (all : ∀ c ∈ cs, isPlainChar c = true)
    (begins : beginsPlain cs = true) : identifier cs = cs := by
  have tail : ∀ {c : Char} {cs : List Char}, isPlainStart c = true →
      (∀ d ∈ c :: cs, isPlainChar d = true) →
      identifierChar false c ++ cs.flatMap (identifierChar true) = c :: cs := by
    intro c cs start all
    rw [identifierCharPlain (all c (by simp)) (by simp [(plainStart start).2]),
      plainTail (fun d member => all d (by simp [member]))]
    rfl
  unfold beginsPlain at begins
  split at begins
  · next c cs =>
    have rest := tail begins (fun d member => all d (List.mem_cons_of_mem '-' member))
    rw [identifier, List.cons_append, rest]
  · next c cs _ =>
    rw [identifierCons (plainStart begins).1, tail begins all]
  · cases begins

theorem plainReadName {name : String} (plain : IsPlainIdent name) : IsReadName name := by
  obtain ⟨all, begins⟩ := plain
  have named : ∀ c ∈ name.toList, isNameChars c = true := by
    intro c member
    have number := isPlainCharNumber.mp (all c member)
    rw [isNameCharsNumber]
    omega
  have visible : HasNoNull name.toList := by
    rintro c member rfl
    exact absurd (named '\x00' member) (by decide)
  refine ⟨⟨visible, ?_, clearUnmarked (nameUnmarked named)⟩, ?_⟩
  · intro empty
    rw [empty] at begins
    cases begins
  · intro doubled
    unfold Doubled at doubled
    split at doubled
    · next cs same =>
      rw [same] at begins
      cases begins
    · exact doubled

theorem loweredPlain {name : String} (plain : IsPlainIdent name) : lowered name = name := by
  have whole : name.toList.map Char.toLower = name.toList := by
    conv_rhs => rw [← List.map_id name.toList]
    apply List.map_congr_left
    intro c member
    have number := isPlainCharNumber.mp (plain.1 c member)
    exact toLowerWhole (by omega)
  rw [lowered, whole, String.ofList_toList]

theorem plainKnown {name : String} (plain : IsPlainIdent name) : IsPlain name := by
  refine ⟨?_, plain.1⟩
  rintro rfl
  exact absurd plain.2 (by decide)

theorem functionNotNot {name : String} (plain : holdsSelectors name = false) : name ≠ "not" := by
  rintro rfl
  cases plain

theorem legibleWritten : legible.Within written where
  element named := ⟨by simpa using named.1.1.some, named.1.1.visible⟩
  name named := ⟨by simpa using named.1.some, named.1.visible⟩
  id named := ⟨by simpa using named.some, named.visible⟩
  space named := named.1.1.visible
  value valued := valued.1
  series _ := trivial
  pseudoElement := plainKnown
  pseudoClass named := plainKnown named.1
  function named := ⟨plainKnown named.1, functionNotNot named.2.2⟩

end SelectorRank
