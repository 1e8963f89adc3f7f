import Mathlib.Data.List.Chain
import SelectorRank.Proofs.Text.Ascii

/-! Texts that spell names and strings. Each character of the value stands as it is, as a numbered
escape, or behind a backslash; whatever the value holds, the place where its text ends can be seen.
Reading gives the value back unless a backslash in it stands before a hexadecimal digit. -/
namespace SelectorRank
open Spelling Unescape

/-- Characters that are spelled by their numbers, digits only at the front of a name. -/
def Coded (c : Char) : Prop := isControl c = true ∨ c.isDigit = true

inductive Spells (plain : Char → Prop) (front : Bool) : List Char → List Char → Prop where
  | nil : Spells plain front [] []
  | plain {c text value} (stands : plain c) (rest : Spells plain front text value) :
      Spells plain front (c :: text) (c :: value)
  | numbered {c text value} (coded : Coded c) (place : front = true ∨ isControl c = true)
      (rest : Spells plain front text value) : Spells plain front (codePoint c ++ text) (c :: value)
  | escaped {c text value} (mark : isHex c = false) (visible : newlineLength [c] = 0)
      (rest : Spells plain front text value) : Spells plain front ('\\' :: c :: text) (c :: value)

variable {plain : Char → Prop} {front : Bool}

def HasNoNull (cs : List Char) : Prop := ∀ c ∈ cs, c ≠ '\x00'

instance : DecidablePred HasNoNull :=
  fun cs => inferInstanceAs (Decidable (∀ c ∈ cs, c ≠ '\x00'))

@[simp] theorem noNullNil : HasNoNull [] := by simp [HasNoNull]

@[simp] theorem noNullCons {c : Char} {cs : List Char} :
    HasNoNull (c :: cs) ↔ c ≠ '\x00' ∧ HasNoNull cs := List.forall_mem_cons

@[simp] theorem noNullAppend {a b : List Char} :
    HasNoNull (a ++ b) ↔ HasNoNull a ∧ HasNoNull b := List.forall_mem_append

def IsName (name : String) : Prop := name ≠ "" ∧ HasNoNull name.toList

def StandsInName (c : Char) : Prop := isNameChars c = true

def StandsInString (c : Char) : Prop :=
  c ≠ '\\' ∧ c ≠ Text.doubleQuote ∧ newlineLength [c] = 0

theorem identifierCharSpells {c : Char} {text value : List Char} (digits : Bool)
    (place : digits = true ∨ front = true) (visible : c ≠ '\x00')
    (rest : Spells StandsInName front text value) :
    Spells StandsInName front (identifierChar digits c ++ text) (c :: value) := by
  unfold identifierChar
  rw [if_neg visible]
  split
  · next coded =>
    simp only [Bool.or_eq_true, Bool.and_eq_true, Bool.not_eq_true'] at coded
    refine .numbered (coded.imp_right And.left) ?_ rest
    rcases coded with control | ⟨_, digit⟩
    · exact .inr control
    · simp only [digit, Bool.false_eq_true, false_or] at place
      exact .inl place
  split
  · next stands =>
    refine .plain ?_ rest
    rw [StandsInName, isNameChars, Bool.or_comm]
    exact stands
  · next coded marked =>
    simp only [Bool.or_eq_true, not_or, Bool.not_eq_true] at coded marked
    refine .escaped ?_ ?_ rest
    · have plain := mt isNameCharNumber.mpr (Bool.not_eq_true _ ▸ marked.2)
      rw [← Bool.not_eq_true, isHexNumber]
      omega
    · have control := mt isControlNumber.mpr (Bool.not_eq_true _ ▸ coded.1)
      rw [newlineLengthNumber]
      omega

theorem identifierTailSpells {value : List Char} (visible : HasNoNull value) :
    Spells StandsInName false (value.flatMap (identifierChar true)) value := by
  induction value with
  | nil => exact .nil
  | cons c value ih =>
    exact identifierCharSpells true (.inl rfl) (visible c (by simp))
      (ih (fun d hd => visible d (by simp [hd])))

theorem spellsFront {text value : List Char}
    (spells : Spells plain false text value) : Spells plain true text value := by
  induction spells with
  | nil => exact .nil
  | plain stands _ ih => exact .plain stands ih
  | numbered coded _ _ ih => exact .numbered coded (.inl rfl) ih
  | escaped mark visible _ ih => exact .escaped mark visible ih

theorem identifierSpells {value : List Char} (visible : HasNoNull value) :
    Spells StandsInName true (identifier value) value := by
  unfold identifier
  split
  · exact .nil
  · exact .escaped (by decide) (by decide) .nil
  · next c cs =>
    refine .plain (by unfold StandsInName; decide) ?_
    exact identifierCharSpells false (.inr rfl) (visible c (by simp))
      (spellsFront (identifierTailSpells (fun d hd => visible d (by simp [hd]))))
  · next c cs _ _ =>
    exact identifierCharSpells false (.inr rfl) (visible c (by simp))
      (spellsFront (identifierTailSpells (fun d hd => visible d (by simp [hd]))))

theorem stringCharSpells {c : Char} {text value : List Char} (visible : c ≠ '\x00')
    (rest : Spells StandsInString false text value) :
    Spells StandsInString false (stringChar c ++ text) (c :: value) := by
  unfold stringChar
  rw [if_neg visible]
  split
  · next coded => exact .numbered (.inl coded) (.inr coded) rest
  split
  · next marked =>
    simp only [Bool.or_eq_true, decide_eq_true_eq] at marked
    rcases marked with rfl | rfl
    · exact .escaped (by decide) (by decide) rest
    · exact .escaped (by decide) (by decide) rest
  · next coded marked =>
    simp only [Bool.or_eq_true, decide_eq_true_eq, not_or] at marked
    have control := mt isControlNumber.mpr coded
    refine .plain ⟨marked.2, marked.1, ?_⟩ rest
    rw [newlineLengthNumber]
    omega

theorem stringSpells {value : List Char} (visible : HasNoNull value) :
    Spells StandsInString false (value.flatMap stringChar) value := by
  induction value with
  | nil => exact .nil
  | cons c value ih =>
    exact stringCharSpells (visible c (by simp)) (ih (fun d hd => visible d (by simp [hd])))

theorem hexShort {c : Char} (coded : Coded c) :
    Text.hex c.toNat ≠ [] ∧ (Text.hex c.toNat).length ≤ 2 ∧
      (∀ d ∈ Text.hex c.toNat, isHex d = true) ∧
      (Text.hex c.toNat).foldl (fun n d => 16 * n + hexValue d) 0 = c.toNat := by
  have small : c.toNat < 128 := by
    rw [Coded, isControlNumber, isDigitNumber] at coded
    omega
  have all : ∀ n < 128, Text.hex n ≠ [] ∧ (Text.hex n).length ≤ 2 ∧
      (∀ d ∈ Text.hex n, isHex d = true) ∧
      (Text.hex n).foldl (fun n d => 16 * n + hexValue d) 0 = n := by decide
  exact all c.toNat small

theorem spellsNoNull {text value : List Char}
    (spells : Spells plain front text value) (visible : HasNoNull value) : HasNoNull text := by
  induction spells with
  | nil => exact visible
  | plain _ _ ih =>
    obtain ⟨first, rest⟩ := noNullCons.mp visible
    exact noNullCons.mpr ⟨first, ih rest⟩
  | @numbered c text value coded _ _ ih =>
    have digits : HasNoNull (Text.hex c.toNat) := by
      rintro d member rfl
      exact absurd ((hexShort coded).2.2.1 _ member) (by decide)
    simp [codePoint, digits, ih (noNullCons.mp visible).2]
  | escaped _ _ _ ih =>
    obtain ⟨first, rest⟩ := noNullCons.mp visible
    simp [first, ih rest]

def numberText (c : Char) : List Char := Text.hex c.toNat ++ [' ']

theorem codePointText (c : Char) : codePoint c = '\\' :: numberText c := rfl

theorem hexDigitsRead {c : Char} (coded : Coded c) (text : List Char) :
    hexDigits (numberText c ++ text) = Text.hex c.toNat := by
  obtain ⟨some, short, hex, _⟩ := hexShort coded
  have blank : isHex ' ' = false := by decide
  rw [numberText]
  match digits : Text.hex c.toNat, some, short, hex with
  | [d], _, _, hex => simp [hexDigits, hex d, blank]
  | [d, e], _, _, hex => simp [hexDigits, hex d, hex e, blank]

theorem numberedCharRead {c : Char} (coded : Coded c) (text : List Char) :
    numberedChar (numberText c ++ text) = c := by
  obtain ⟨_, _, _, value⟩ := hexShort coded
  have visible : c.toNat ≠ 0 := by
    rw [Coded, isControlNumber, isDigitNumber] at coded
    omega
  have valid : c.toNat.isValidChar := c.valid
  rw [numberedChar, hexDigitsRead coded, value, ofCodePoint]
  simp [visible, valid, Char.ofNat_toNat]

theorem numberedLengthRead {c : Char} (coded : Coded c) (text : List Char) :
    numberedLength (numberText c ++ text) = (numberText c).length := by
  obtain ⟨some, _, _, _⟩ := hexShort coded
  unfold numberedLength
  rw [hexDigitsRead coded]
  cases digits : Text.hex c.toNat with
  | nil => exact absurd digits some
  | cons h t => simp [numberText, digits, closingLength]

theorem numberTextStart {c : Char} (coded : Coded c) :
    ∃ h t, numberText c = h :: t ∧ isHex h = true := by
  obtain ⟨some, _, hex, _⟩ := hexShort coded
  cases digits : Text.hex c.toNat with
  | nil => exact absurd digits some
  | cons h t => exact ⟨h, t ++ [' '], by simp [numberText, digits], hex h (by simp [digits])⟩

theorem numberedLengthZero {c : Char} {text : List Char} (mark : isHex c = false) :
    numberedLength (c :: text) = 0 := by
  simp [numberedLength, hexDigits, mark]

/-! Where a text ends. What follows it is told from it by its first character. -/

theorem nameLengthSkip (k : Nat) (front text : List Char) (size : front.length = k) :
    nameLength k (front ++ text) = k + nameLength 0 text := by
  induction front generalizing k with
  | nil => subst size; simp
  | cons c front ih =>
    subst size
    simp only [List.length_cons, List.cons_append, nameLength, ih front.length rfl]
    omega

theorem bodyLengthSkip (quote : Char) (k : Nat) (front text : List Char)
    (size : front.length = k) :
    bodyLength quote k (front ++ text) = k + bodyLength quote 0 text := by
  induction front generalizing k with
  | nil => subst size; simp
  | cons c front ih =>
    subst size
    simp only [List.length_cons, List.cons_append, bodyLength, ih front.length rfl]
    omega

theorem newlineLengthCons {c : Char} {text : List Char} (visible : newlineLength [c] = 0) :
    newlineLength (c :: text) = 0 := by
  rw [newlineLengthNumber] at visible
  unfold newlineLength
  split <;> simp_all

theorem newlineLengthHex {c : Char} {text : List Char} (hex : isHex c = true) :
    newlineLength (c :: text) = 0 := by
  apply newlineLengthCons
  rw [isHexNumber] at hex
  rw [newlineLengthNumber]
  omega

theorem escapeLengthNumbered {c : Char} (coded : Coded c) (text : List Char) :
    escapeLength (numberText c ++ text) = (numberText c).length := by
  obtain ⟨h, t, start, _⟩ := numberTextStart coded
  have length := numberedLengthRead coded text
  rw [start] at length ⊢
  rw [List.cons_append] at length ⊢
  simp only [escapeLength, length, List.length_cons]

theorem escapeLengthMark {c : Char} {text : List Char} (mark : isHex c = false)
    (visible : newlineLength [c] = 0) : escapeLength (c :: text) = 1 := by
  simp [escapeLength, numberedLengthZero mark, visible]

def EndsName (rest : List Char) : Prop :=
  ∀ c, rest.head? = some c → isNameChars c = false ∧ c ≠ '\\'

theorem nameLengthEnd {rest : List Char} (ends : EndsName rest) : nameLength 0 rest = 0 := by
  cases rest with
  | nil => rfl
  | cons c rest =>
    obtain ⟨stands, mark⟩ := ends c rfl
    simp [nameLength, stands, mark]

theorem nameLengthSpelled {text value rest : List Char}
    (spells : Spells StandsInName front text value) (ends : EndsName rest) :
    nameLength 0 (text ++ rest) = text.length := by
  have backslash : isNameChars '\\' = false := by decide
  induction spells with
  | nil => exact nameLengthEnd ends
  | plain stands _ ih => simp [nameLength, show isNameChars _ = true from stands, ih]
  | @numbered c text value coded _ _ ih =>
    obtain ⟨h, t, start, _⟩ := numberTextStart coded
    have length := escapeLengthNumbered coded (text ++ rest)
    have skipped := nameLengthSkip (numberText c).length (numberText c) (text ++ rest) rfl
    rw [codePointText, List.cons_append, List.cons_append, List.append_assoc, nameLength,
      if_neg (by simp [backslash]), if_pos rfl, length]
    rw [start, List.length_cons] at skipped ⊢
    simp only [skipped, ih, List.length_cons, List.length_append]
  | escaped mark visible _ ih =>
    simp [nameLength, backslash, escapeLengthMark mark visible, ih]

theorem bodyLengthSpelled {text value : List Char} (rest : List Char)
    (spells : Spells StandsInString front text value) :
    bodyLength Text.doubleQuote 0 (text ++ Text.doubleQuote :: rest) = text.length := by
  induction spells with
  | nil => rfl
  | plain stands _ ih => simp [bodyLength, stands.1, stands.2.1, stands.2.2, ih]
  | @numbered c text value coded _ _ ih =>
    obtain ⟨h, t, start, hex⟩ := numberTextStart coded
    have length := escapeLengthNumbered coded (text ++ Text.doubleQuote :: rest)
    have skipped :=
      bodyLengthSkip Text.doubleQuote _ (numberText c) (text ++ Text.doubleQuote :: rest) rfl
    have noLine : newlineLength (numberText c ++ (text ++ Text.doubleQuote :: rest)) = 0 := by
      rw [start]
      exact newlineLengthHex hex
    rw [codePointText, List.cons_append, List.cons_append, List.append_assoc, bodyLength,
      if_pos rfl, length, noLine]
    rw [start, List.length_cons] at skipped ⊢
    simp only [skipped, ih, List.length_cons, List.length_append]
  | @escaped c text value mark visible _ ih =>
    have noLine : newlineLength (c :: (text ++ Text.doubleQuote :: rest)) = 0 :=
      newlineLengthCons visible
    simp [bodyLength, noLine, escapeLengthMark mark visible, ih]

/-! One text spells one value. -/

theorem spellsHead {text value : List Char} (spells : Spells plain front text value)
    (some : value ≠ []) : ∃ c rest, text = c :: rest ∧ (plain c ∨ c = '\\') := by
  cases spells with
  | nil => contradiction
  | plain stands _ => exact ⟨_, _, rfl, .inl stands⟩
  | numbered _ _ _ => exact ⟨_, _, rfl, .inr rfl⟩
  | escaped _ _ _ => exact ⟨_, _, rfl, .inr rfl⟩

theorem numberTextUnique {c d : Char} {text other : List Char} (left : Coded c) (right : Coded d)
    (same : numberText c ++ text = numberText d ++ other) : c = d ∧ text = other := by
  have value : c = d := by
    rw [← numberedCharRead left text, same, numberedCharRead right]
  subst value
  exact ⟨rfl, List.append_cancel_left same⟩

theorem spellsUnique (marked : ¬ plain '\\') {text a b : List Char}
    (left : Spells plain front text a) (right : Spells plain front text b) : a = b := by
  induction left generalizing b with
  | nil => cases right; rfl
  | @plain c text value stands _ ih =>
    generalize whole : c :: text = given at right
    cases right with
    | nil => simp at whole
    | plain _ rest =>
      obtain ⟨rfl, rfl⟩ := List.cons.inj whole
      rw [ih rest]
    | numbered _ _ _ => exact absurd ((List.cons.inj whole).1 ▸ stands) marked
    | escaped _ _ _ => exact absurd ((List.cons.inj whole).1 ▸ stands) marked
  | @numbered c text value coded _ _ ih =>
    obtain ⟨h, t, start, hex⟩ := numberTextStart coded
    generalize whole : codePoint c ++ text = given at right
    rw [codePointText, List.cons_append] at whole
    cases right with
    | nil => simp at whole
    | plain stands _ => exact absurd ((List.cons.inj whole).1 ▸ stands) marked
    | numbered other _ rest =>
      obtain ⟨rfl, rfl⟩ := numberTextUnique coded other (List.cons.inj whole).2
      rw [ih rest]
    | escaped mark _ _ =>
      rw [start] at whole
      rw [List.cons_append] at whole
      have same := (List.cons.inj (List.cons.inj whole).2).1
      rw [same, mark] at hex
      cases hex
  | @escaped c text value mark _ _ ih =>
    generalize whole : '\\' :: c :: text = given at right
    cases right with
    | nil => simp at whole
    | plain stands _ => exact absurd ((List.cons.inj whole).1 ▸ stands) marked
    | @numbered d _ _ other _ _ =>
      obtain ⟨h, t, start, hex⟩ := numberTextStart other
      rw [codePointText, start] at whole
      rw [List.cons_append, List.cons_append] at whole
      have same := (List.cons.inj (List.cons.inj whole).2).1
      rw [← same, mark] at hex
      cases hex
    | escaped _ _ rest =>
      obtain ⟨rfl, rfl⟩ := List.cons.inj (List.cons.inj whole).2
      rw [ih rest]

/-! Reading. A backslash of the value that stands before a hexadecimal digit would be read again as
the start of a numbered escape, so only values without one come back as they were. -/

/-- No backslash stands before a hexadecimal digit. -/
def Clear (value : List Char) : Prop := value.IsChain (fun c d => c = '\\' → isHex d = false)

instance : DecidablePred Clear :=
  fun value => inferInstanceAs (Decidable (value.IsChain _))

theorem clearUnmarked {value : List Char} (unmarked : '\\' ∉ value) : Clear value := by
  induction value with
  | nil => exact .nil
  | cons c value ih =>
    have rest := ih (fun member => unmarked (List.mem_cons_of_mem c member))
    cases value with
    | nil => exact .singleton c
    | cons d value =>
      exact .cons_cons (fun mark => absurd (by simp [mark]) unmarked) rest

theorem readNumberedSkip (k : Nat) (front text : List Char) (size : front.length = k) :
    readNumbered k (front ++ text) = readNumbered 0 text := by
  induction front generalizing k with
  | nil => subst size; rfl
  | cons c front ih => subst size; exact ih front.length rfl

theorem readNumberedEscape {c : Char} (coded : Coded c) (text : List Char) :
    readNumbered 0 (codePoint c ++ text) = c :: readNumbered 0 text := by
  obtain ⟨h, t, start, _⟩ := numberTextStart coded
  have length := numberedLengthRead coded text
  have skipped := readNumberedSkip _ (numberText c) text rfl
  rw [codePointText, List.cons_append, readNumbered, if_pos rfl, length, numberedCharRead coded]
  rw [start, List.length_cons] at skipped ⊢
  exact congrArg _ skipped

theorem numberedLengthSpelled {text value : List Char}
    (spells : Spells plain front text value) (clear : Clear ('\\' :: value)) :
    numberedLength text = 0 := by
  cases spells with
  | nil => rfl
  | plain _ _ => exact numberedLengthZero (clear.rel rfl)
  | numbered _ _ _ => exact numberedLengthZero (by decide)
  | escaped _ _ _ => exact numberedLengthZero (by decide)

theorem dropBackslashesCons {c : Char} {cs : List Char} (marked : c ≠ '\\') :
    dropBackslashes (c :: cs) = c :: dropBackslashes cs := by
  simp [dropBackslashes, marked]

theorem ofNameSpelled (marked : ¬ plain '\\') {text value : List Char}
    (spells : Spells plain front text value) (clear : Clear value) : ofName text = value := by
  unfold ofName
  induction spells with
  | nil => rfl
  | @plain c text value stands _ ih =>
    have other : c ≠ '\\' := fun h => marked (h ▸ stands)
    rw [readNumbered, if_neg other, dropBackslashesCons other, ih clear.tail]
  | @numbered c text value coded _ _ ih =>
    have other : c ≠ '\\' := by
      rintro rfl
      exact absurd coded (by unfold Coded; decide)
    rw [readNumberedEscape coded, dropBackslashesCons other, ih clear.tail]
  | @escaped c text value mark visible rest ih =>
    have noLine : c ≠ '\n' := by
      rintro rfl
      exact absurd visible (by decide)
    have kept : readNumbered 0 (c :: text) = c :: readNumbered 0 text := by
      by_cases backslash : c = '\\'
      · subst backslash
        simp [readNumbered, numberedLengthSpelled rest clear]
      · simp [readNumbered, backslash]
    rw [readNumbered, if_pos rfl, numberedLengthZero mark]
    simp only [kept, dropBackslashes, if_neg noLine]
    rw [ih clear.tail]

theorem joinLinesWhole {text : List Char} (visible : ∀ c ∈ text, newlineLength [c] = 0) :
    joinLines 0 text = text := by
  induction text with
  | nil => rfl
  | cons c text ih =>
    have rest := ih (fun d hd => visible d (by simp [hd]))
    have noLine : newlineLength text = 0 := by
      cases text with
      | nil => rfl
      | cons d text => exact newlineLengthCons (visible d (by simp))
    simp [joinLines, noLine, rest]

theorem stringTextVisible {text value : List Char}
    (spells : Spells StandsInString front text value) :
    ∀ c ∈ text, newlineLength [c] = 0 := by
  induction spells with
  | nil => simp
  | plain stands _ ih => simpa using ⟨stands.2.2, ih⟩
  | @numbered c text value coded _ _ ih =>
    intro d member
    simp only [codePoint, List.cons_append, List.mem_cons, List.append_assoc, List.mem_append,
      List.nil_append] at member
    rcases member with rfl | hex | rfl | rest
    · decide
    · exact newlineLengthHex ((hexShort coded).2.2.1 d hex)
    · decide
    · exact ih d rest
  | escaped _ visible _ ih =>
    simp only [List.mem_cons, forall_eq_or_imp]
    exact ⟨by decide, visible, ih⟩

theorem ofStringSpelled {text value : List Char} (spells : Spells StandsInString front text value)
    (clear : Clear value) : ofString text = value := by
  rw [ofString, joinLinesWhole (stringTextVisible spells)]
  exact ofNameSpelled (fun stands => stands.1 rfl) spells clear

/-! Where an identifier begins. One that begins with two hyphens is not read as an identifier, and
only the sign of an id takes it. -/

theorem startsNameChar {c : Char} (text : List Char) (visible : c ≠ '\x00') (hyphen : c ≠ '-') :
    startsName (identifierChar false c ++ text) = true := by
  have backslash : isNameStart '\\' = false := by decide
  unfold identifierChar
  rw [if_neg visible]
  split
  · next coded =>
    have coded : Coded c := by
      simp only [Bool.or_eq_true, Bool.and_eq_true] at coded
      exact coded.imp_right And.left
    obtain ⟨h, t, start, _⟩ := numberTextStart coded
    have length := escapeLengthNumbered coded text
    rw [start, List.cons_append] at length
    simp [codePointText, startsName, backslash, length, start]
  split
  · next coded stands =>
    have first : isNameStart c = true := by
      simp only [Bool.or_eq_true, Bool.and_eq_true, not_or, Bool.not_false, and_true,
        isDigitNumber] at coded
      simp only [Bool.or_eq_true, isNonAsciiNumber, isNameCharNumber] at stands
      rw [isNameStartNumber]
      rw [ne_eq, eqNumber] at hyphen
      have : '-'.toNat = 45 := rfl
      omega
    simp [startsName, first]
  · next coded marked =>
    simp only [Bool.or_eq_true, not_or, Bool.not_eq_true, Bool.and_eq_true] at coded marked
    have mark : isHex c = false := by
      have plain := mt isNameCharNumber.mpr (Bool.not_eq_true _ ▸ marked.2)
      rw [← Bool.not_eq_true, isHexNumber]
      omega
    have noLine : newlineLength [c] = 0 := by
      have control := mt isControlNumber.mpr (Bool.not_eq_true _ ▸ coded.1)
      rw [newlineLengthNumber]
      omega
    simp [startsName, backslash, escapeLengthMark mark noLine]

def Doubled : List Char → Prop
  | '-' :: '-' :: _ => True
  | _ => False

theorem doubledTake (cs : List Char) : cs.take 2 = ['-', '-'] ↔ Doubled cs := by
  unfold Doubled
  split
  · simp
  · next other =>
    match cs with
    | [] => simp
    | [c] => simp
    | c :: d :: cs =>
      simp only [List.take_succ_cons, List.take_zero, List.cons.injEq, and_true, iff_false, not_and]
      rintro rfl rfl
      exact other cs rfl

instance : DecidablePred Doubled := fun cs => decidable_of_iff _ (doubledTake cs)

theorem identLengthStart {cs : List Char} (start : startsName cs = true) :
    identLength cs = nameLength 0 cs := by
  have hyphen : isNameStart '-' = false := by decide
  unfold identLength
  split
  · next rest => simp [startsName, hyphen] at start
  · rw [if_pos start]

theorem identifierCons {c : Char} {cs : List Char} (hyphen : c ≠ '-') :
    identifier (c :: cs) = identifierChar false c ++ cs.flatMap (identifierChar true) := by
  unfold identifier
  split <;> simp_all

theorem identLengthSpelled {value rest : List Char} (visible : HasNoNull value)
    (some : value ≠ []) (single : ¬ Doubled value) (ends : EndsName rest) :
    identLength (identifier value ++ rest) = (identifier value).length := by
  rw [← nameLengthSpelled (identifierSpells visible) ends]
  cases value with
  | nil => contradiction
  | cons c cs =>
  by_cases hyphen : c = '-'
  · subst hyphen
    cases cs with
    | nil => exact identLengthStart rfl
    | cons d cs =>
      have other : d ≠ '-' := by
        rintro rfl
        exact single trivial
      have stands : isNameChars '-' = true := by decide
      have start := startsNameChar (cs.flatMap (identifierChar true) ++ rest)
        (visible d (by simp)) other
      simp [identifier, identLength, start, nameLength, stands]
  · apply identLengthStart
    rw [identifierCons hyphen, List.append_assoc]
    exact startsNameChar _ (visible c (by simp)) hyphen

end SelectorRank
