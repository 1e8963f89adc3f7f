import Mathlib.Data.List.TakeWhile
import SelectorRank.Proofs.Lexeme.Reread

/-! One more blank at the end of a text. It may end a numbered escape or a blank, close nothing in
an open comment or string, and go on with a name when it lies beyond ASCII; before an open
backslash it is escaped. Everywhere else it is a lexeme of its own. -/
namespace SelectorRank
open Spelling Unescape

/-- A blank that ends no line. -/
structure Margin (s : Char) : Prop where
  blank : Text.isBlank s = true
  inner : Text.isBreak s = false

/-- Blanks of running text that are none of selector text. -/
def isForeign (c : Char) : Bool := Text.isBlank c && !isSpace c

theorem marginNumber {s : Char} (margin : Margin s) :
    s.toNat = 9 ∨ s.toNat = 31 ∨ s.toNat = 32 ∨ 160 ≤ s.toNat := by
  obtain ⟨blank, inner⟩ := margin
  simp [Text.isBlank] at blank
  simp [Text.isBreak] at inner
  omega

variable {s : Char} {cs : List Char}

namespace Margin

variable (margin : Margin s)
include margin

theorem noHex : isHex s = false := by
  have number := marginNumber margin
  rw [← Bool.not_eq_true, isHexNumber]
  omega

theorem noDigit : s.isDigit = false := by
  have number := marginNumber margin
  rw [← Bool.not_eq_true, isDigitNumber]
  omega

theorem other {c : Char} (visible : 33 ≤ c.toNat ∧ c.toNat < 160) : s ≠ c := by
  have number := marginNumber margin
  rintro rfl
  omega

theorem noLine : newlineLength [s] = 0 := by
  have number := marginNumber margin
  rw [newlineLengthNumber]
  omega

theorem foreign : isForeign s = !isSpace s := by rw [isForeign, margin.blank, Bool.true_and]

omit margin in
theorem foreignName (stands : isNameChars s = true) : isSpace s = false := by
  rw [isNameCharsNumber] at stands
  rw [← Bool.not_eq_true, isSpaceNumber]
  omega

theorem startsName : isNameStart s = isNameChars s := by
  have number := marginNumber margin
  rw [Bool.eq_iff_iff, isNameStartNumber, isNameCharsNumber]
  omega

theorem closing : closingLength [s] = if isSpace s then 1 else 0 := by
  have noLine := margin.noLine
  by_cases space : isSpace s
  · have number := marginNumber margin
    have plain : s = ' ' ∨ s = '\t' := by
      simp only [eqNumber]
      rw [isSpaceNumber] at space
      change s.toNat = 32 ∨ s.toNat = 9
      omega
    rcases plain with rfl | rfl <;> rfl
  · have first : s ≠ ' ' := by
      rintro rfl
      exact space rfl
    have second : s ≠ '\t' := by
      rintro rfl
      exact space rfl
    rw [if_neg space]
    unfold closingLength
    split <;> simp_all

end Margin

/-! A text before a character that neither ends a line nor is a digit of an escape. -/

section
variable {d : Char}

theorem newlineFirst {c : Char} (apart : c = '\r' → cs.head? ≠ some '\n') :
    newlineLength (c :: cs) = newlineLength [c] := by
  by_cases line : newlineLength [c] = 0
  · rw [line, newlineLengthCons line]
  · rw [newlineLengthNumber] at line
    unfold newlineLength
    split <;> simp_all

theorem newlineBefore (visible : newlineLength [d] = 0) (cs rest : List Char) :
    newlineLength (cs ++ d :: rest) = newlineLength cs := by
  rcases cs with _ | ⟨a, _ | ⟨b, cs⟩⟩
  · exact newlineLengthCons visible
  · have other : d ≠ '\n' := by
      rintro rfl
      simp [newlineLength] at visible
    exact newlineFirst fun _ same => other (by simpa using same)
  · by_cases pair : a = '\r' ∧ b = '\n'
    · obtain ⟨rfl, rfl⟩ := pair
      rfl
    · have apart (rest : List Char) : a = '\r' → (b :: rest).head? ≠ some '\n' := by
        simpa using pair
      exact (newlineFirst (apart (cs ++ d :: rest))).trans (newlineFirst (apart cs)).symm

theorem closingBefore (visible : newlineLength [d] = 0) (some : cs ≠ []) (rest : List Char) :
    closingLength (cs ++ d :: rest) = closingLength cs := by
  have line := newlineBefore visible cs rest
  obtain ⟨c, cs, rfl⟩ := List.exists_cons_of_ne_nil some
  rw [List.cons_append] at line ⊢
  unfold closingLength
  split <;> simp_all

theorem takeWhileBefore {p : Char → Bool} (ends : p d = false) (cs rest : List Char) :
    (cs ++ d :: rest).takeWhile p = cs.takeWhile p := by
  rw [List.takeWhile_append]
  split
  · next all =>
    have whole := (List.takeWhile_prefix p (l := cs)).eq_of_length all
    rw [List.takeWhile_cons_of_neg (by simp [ends]), List.append_nil, whole]
  · rfl

theorem hexDigitsBefore (noHex : isHex d = false) (cs rest : List Char) :
    hexDigits (cs ++ d :: rest) = hexDigits cs := by
  rw [hexDigits, hexDigits, List.take_append]
  cases 6 - cs.length with
  | zero => rw [List.take_zero, List.append_nil]
  | succ k => rw [List.take_succ_cons, takeWhileBefore noHex]

end

theorem hexDigitsPrefix (cs : List Char) : hexDigits cs <+: cs :=
  (List.takeWhile_prefix isHex).trans (List.take_prefix 6 cs)

def Digits (cs : List Char) : Prop := cs ≠ [] ∧ hexDigits cs = cs

theorem numberedDigits (digits : Digits cs) (rest : List Char)
    (none : hexDigits (cs ++ rest) = cs) :
    numberedLength (cs ++ rest) = cs.length + closingLength rest := by
  obtain ⟨some, _⟩ := digits
  obtain ⟨n, size⟩ := Nat.exists_eq_add_one.mpr (List.length_pos_iff.mpr some)
  rw [numberedLength, none, size]
  dsimp only
  rw [← size, List.drop_left]

theorem numberedWhole (digits : Digits cs) : numberedLength cs = cs.length := by
  have alone := numberedDigits digits [] (by rw [List.append_nil, digits.2])
  rwa [List.append_nil] at alone

/-- Only a numbered escape that is not closed yet looks at what follows. -/
theorem numberedBefore {d : Char} (noHex : isHex d = false) (visible : newlineLength [d] = 0)
    (rest : List Char) (closed : Digits cs → closingLength (d :: rest) = 0) :
    numberedLength (cs ++ d :: rest) = numberedLength cs := by
  have digits := hexDigitsBefore noHex cs rest
  by_cases whole : Digits cs
  · rw [numberedDigits whole _ (digits.trans whole.2), closed whole, numberedWhole whole]
    rfl
  · unfold numberedLength
    rw [digits]
    cases size : (hexDigits cs).length with
    | zero => rfl
    | succ n =>
      have within := (hexDigitsPrefix cs).length_le
      have more : cs.drop (n + 1) ≠ [] := by
        intro spent
        have all := (hexDigitsPrefix cs).eq_of_length_le (by simpa [size] using spent)
        refine whole ⟨?_, all⟩
        rintro rfl
        simp [hexDigits] at size
      dsimp only
      rw [List.drop_append_of_le_length (by omega), closingBefore visible more]

/-- A text whose end is the digits of a numbered escape. -/
def OpenDigits (cs : List Char) : Prop :=
  ∃ front digits, cs = front ++ '\\' :: digits ∧ Digits digits

/-- A length either stays as it is or was that of the whole text and goes on to the new end. -/
def Grows (whole : Prop) (length length' size : Nat) : Prop :=
  length' = length ∨ whole ∧ length = size ∧ length' = size + 1

theorem numberedGrows (margin : Margin s) (cs : List Char) :
    Grows (Digits cs ∧ isSpace s = true) (numberedLength cs) (numberedLength (cs ++ [s]))
      cs.length := by
  by_cases closes : Digits cs ∧ isSpace s = true
  · obtain ⟨whole, space⟩ := closes
    have closed := numberedDigits whole [s] ((hexDigitsBefore margin.noHex cs []).trans whole.2)
    rw [margin.closing, if_pos space] at closed
    exact .inr ⟨⟨whole, space⟩, numberedWhole whole, closed⟩
  · refine .inl (numberedBefore margin.noHex margin.noLine [] fun whole => ?_)
    rw [margin.closing, if_neg fun space => closes ⟨whole, space⟩]

theorem closingBound (cs : List Char) : closingLength cs ≤ cs.length := by
  unfold closingLength newlineLength
  split <;> try split
  all_goals simp

theorem numberedBound (cs : List Char) : numberedLength cs ≤ cs.length := by
  unfold numberedLength
  split
  · exact Nat.zero_le _
  · next n size =>
    have front := (hexDigitsPrefix cs).length_le
    have back := closingBound (cs.drop (n + 1))
    rw [List.length_drop] at back
    omega

theorem escapeBound (cs : List Char) : escapeLength cs ≤ cs.length := by
  have bound := numberedBound cs
  unfold escapeLength
  split
  · split <;> simp
  · exact bound

theorem escapeNumbered (numbered : numberedLength cs ≠ 0) :
    escapeLength cs = numberedLength cs := by
  unfold escapeLength
  split
  · next none => exact absurd none numbered
  · rfl

theorem escapeChar {c : Char} (none : numberedLength (c :: cs) = 0) :
    escapeLength (c :: cs) = if newlineLength [c] = 0 then 1 else 0 := by
  unfold escapeLength
  split <;> simp_all

theorem escapeGrows (margin : Margin s) (some : cs ≠ []) :
    Grows (Digits cs ∧ isSpace s = true) (escapeLength cs) (escapeLength (cs ++ [s]))
      cs.length := by
  obtain ⟨c, cs, rfl⟩ := List.exists_cons_of_ne_nil some
  rcases numberedGrows margin (c :: cs) with same | ⟨whole, length, length'⟩
  · refine .inl ?_
    by_cases none : numberedLength (c :: cs) = 0
    · rw [escapeChar none]
      exact escapeChar (same.trans none)
    · rw [escapeNumbered none, escapeNumbered (same ▸ none), same]
  · refine .inr ⟨whole, ?_, ?_⟩
    · rw [escapeNumbered (by simp [length]), length]
    · rw [escapeNumbered (by rw [length']; exact Nat.succ_ne_zero _), length']

theorem nameLengthAll {k : Nat} (enough : cs.length ≤ k) : nameLength k cs = cs.length := by
  induction cs generalizing k with
  | nil => cases k <;> rfl
  | cons c cs ih =>
    cases k with
    | zero => simp at enough
    | succ k => rw [nameLength, ih (by simpa using enough), List.length_cons]

theorem nameLengthBound (k : Nat) (cs : List Char) : nameLength k cs ≤ cs.length := by
  fun_induction nameLength k cs <;> simp_all

/-- A name ends where it did, or goes on over the new end, or has an open backslash before it. -/
inductive NameGrows (s : Char) (cs : List Char) (length length' : Nat) : Prop where
  | same : length' = length → NameGrows s cs length length'
  | digits : OpenDigits cs → isSpace s = true → length = cs.length → length' = cs.length + 1 →
      NameGrows s cs length length'
  | char : isNameChars s = true → length = cs.length → length' = cs.length + 1 →
      NameGrows s cs length length'
  | mark : length + 1 = cs.length → cs.getLast? = some '\\' → NameGrows s cs length length'

theorem getLastBehind {c d : Char} (last : cs.getLast? = some d) : (c :: cs).getLast? = some d := by
  rw [List.getLast?_cons, last, Option.getD_some]

theorem NameGrows.cons {length length' : Nat} (c : Char) (grows : NameGrows s cs length length') :
    NameGrows s (c :: cs) (length + 1) (length' + 1) := by
  cases grows with
  | same same => exact .same (by rw [same])
  | digits whole space length length' =>
    obtain ⟨front, digits, rfl, all⟩ := whole
    exact .digits ⟨c :: front, digits, rfl, all⟩ space (by simp [length]) (by simp [length'])
  | char stands length length' => exact .char stands (by simp [length]) (by simp [length'])
  | mark length last => exact .mark (by simp [← length]) (getLastBehind last)

theorem nameLengthGrows (margin : Margin s) {k : Nat} (within : k ≤ cs.length) :
    NameGrows s cs (nameLength k cs) (nameLength k (cs ++ [s])) := by
  have mark : s ≠ '\\' := margin.other (by decide)
  have noMark : isNameChars '\\' = false := by decide
  induction cs generalizing k with
  | nil =>
    obtain rfl := Nat.le_zero.mp within
    by_cases stands : isNameChars s
    · exact .char stands rfl (by simp [nameLength, stands])
    · exact .same (by simp [nameLength, stands, mark])
  | cons c cs ih =>
    cases k with
    | succ k => exact (ih (by simpa using within)).cons c
    | zero =>
      rw [List.cons_append, nameLength, nameLength]
      by_cases stands : isNameChars c
      · rw [if_pos stands, if_pos stands]
        exact (ih (Nat.zero_le _)).cons c
      rw [if_neg stands, if_neg stands]
      by_cases escape : c = '\\'
      · rw [if_pos escape, if_pos escape]
        by_cases some : cs = []
        · subst escape some
          exact .mark rfl rfl
        · have bound := escapeBound cs
          rcases escapeGrows margin some with same | ⟨⟨whole, space⟩, length, length'⟩
          · rw [same]
            cases length : escapeLength cs with
            | zero => exact .same rfl
            | succ n => exact (ih (by omega)).cons c
          · have unclosed : OpenDigits (c :: cs) := ⟨[], cs, by rw [escape]; rfl, whole⟩
            obtain ⟨n, size⟩ := Nat.exists_eq_add_one.mpr (List.length_pos_iff.mpr some)
            rw [length, length', size]
            dsimp only
            rw [nameLengthAll (by omega), nameLengthAll (by simp [size])]
            exact .digits unclosed space rfl (by simp)
      · rw [if_neg escape, if_neg escape]
        exact .same rfl

theorem startsNameSame (margin : Margin s) (some : cs ≠ [] ∧ cs ≠ ['\\']) :
    startsName (cs ++ [s]) = startsName cs := by
  obtain ⟨some, more⟩ := some
  obtain ⟨c, cs, rfl⟩ := List.exists_cons_of_ne_nil some
  rw [List.cons_append, startsName, startsName]
  by_cases escape : c = '\\'
  · have inner : cs ≠ [] := by
      rintro rfl
      exact more (by rw [escape])
    rcases escapeGrows margin inner with same | ⟨_, length, length'⟩
    · rw [same]
    · rw [length, length']
      simp [inner, escape]
  · have other : (c == '\\') = false := beq_false_of_ne escape
    rw [other, Bool.false_and, Bool.false_and]

theorem bodyLengthAll {quote : Char} {k : Nat} (enough : cs.length ≤ k) :
    bodyLength quote k cs = cs.length := by
  induction cs generalizing k with
  | nil => cases k <;> rfl
  | cons c cs ih =>
    cases k with
    | zero => simp at enough
    | succ k => rw [bodyLength, ih (by simpa using enough), List.length_cons]

theorem bodyLengthBound (quote : Char) (k : Nat) (cs : List Char) :
    bodyLength quote k cs ≤ cs.length := by
  fun_induction bodyLength quote k cs <;> simp_all

/-- What is read of an open string, an open backslash apart, is all of it. -/
def OpenBody (cs : List Char) (length length' : Nat) : Prop :=
  cs.length ≤ length' ∧ (cs.drop length = [] ∨ cs.drop length = ['\\'])

theorem bodyLengthGrows (margin : Margin s) (quote : Char) (k : Nat) (cs : List Char) :
    bodyLength quote k (cs ++ [s]) = bodyLength quote k cs ∨
      OpenBody cs (bodyLength quote k cs) (bodyLength quote k (cs ++ [s])) := by
  induction cs generalizing k with
  | nil => exact .inr ⟨Nat.zero_le _, .inl List.drop_nil⟩
  | cons c cs ih =>
    have step {l l' : Nat} (grows : l' = l ∨ OpenBody cs l l') :
        l' + 1 = l + 1 ∨ OpenBody (c :: cs) (l + 1) (l' + 1) :=
      grows.imp (congrArg (· + 1)) fun ⟨past, left⟩ => ⟨Nat.succ_le_succ past, left⟩
    cases k with
    | succ k => exact step (ih _)
    | zero =>
      rw [List.cons_append, bodyLength, bodyLength]
      by_cases escape : c = '\\'
      · rw [if_pos escape, if_pos escape, newlineBefore margin.noLine]
        by_cases some : cs = []
        · subst some
          have one : escapeLength [s] = 1 := escapeLengthMark margin.noHex margin.noLine
          rw [List.nil_append, one]
          exact .inr ⟨Nat.succ_le_succ (Nat.zero_le _), .inr (by rw [escape]; rfl)⟩
        · cases newlineLength cs with
          | succ n => exact step (ih _)
          | zero =>
            rcases escapeGrows margin some with same | ⟨_, length, length'⟩
            · rw [same]
              cases escapeLength cs with
              | zero => exact .inl rfl
              | succ n => exact step (ih _)
            · obtain ⟨n, size⟩ :=
                Nat.exists_eq_add_one.mpr (List.length_pos_iff.mpr some)
              rw [length, length', size]
              dsimp only
              rw [bodyLengthAll (by simp [size]), bodyLengthAll (by omega)]
              exact step (.inr ⟨by simp, .inl (List.drop_length)⟩)
      · rw [if_neg escape, if_neg escape]
        split
        · exact .inl rfl
        · exact step (ih _)

theorem digitsSame (margin : Margin s) (cs : List Char) :
    digitsLength (cs ++ [s]) = digitsLength cs := by
  rw [digitsLength, takeWhileBefore margin.noDigit, digitsLength]

theorem unsignedSame (margin : Margin s) (cs : List Char) :
    unsignedLength (cs ++ [s]) = unsignedLength cs := by
  have point : s ≠ '.' := margin.other (by decide)
  have within : digitsLength cs ≤ cs.length := (List.takeWhile_prefix _).length_le
  unfold unsignedLength
  rw [digitsSame margin]
  dsimp only
  rw [List.drop_append_of_le_length within]
  cases cs.drop (digitsLength cs) with
  | nil =>
    rw [List.nil_append]
    split
    · next same => exact absurd (List.cons.inj same).1 point
    · rfl
  | cons c rest =>
    by_cases dot : c = '.'
    · subst dot
      simp only [List.cons_append, digitsSame margin]
    · rw [List.cons_append]
      split
      · next same => exact absurd (List.cons.inj same).1 dot
      · split
        · next same => exact absurd (List.cons.inj same).1 dot
        · rfl

theorem unsignedBound (cs : List Char) : unsignedLength cs ≤ cs.length := by
  have within : digitsLength cs ≤ cs.length := (List.takeWhile_prefix _).length_le
  unfold unsignedLength
  dsimp only
  split
  · next rest left =>
    have size := congrArg List.length left
    have more : digitsLength rest ≤ rest.length := (List.takeWhile_prefix _).length_le
    rw [List.length_drop, List.length_cons] at size
    split <;> omega
  · exact within

theorem numberBound (cs : List Char) : numberLength cs ≤ cs.length := by
  unfold numberLength
  split
  · exact Nat.zero_le _
  · next c cs =>
    have bound := unsignedBound cs
    split
    · split
      · exact Nat.zero_le _
      · rw [List.length_cons]
        omega
    · exact unsignedBound (c :: cs)

theorem numberSame (margin : Margin s) (c : Char) (cs : List Char) :
    numberLength (c :: (cs ++ [s])) = numberLength (c :: cs) := by
  rw [numberLength, numberLength, unsignedSame margin, ← List.cons_append, unsignedSame margin]

theorem commentGrows (margin : Margin s) (cs : List Char) :
    Grows True (commentLength cs) (commentLength (cs ++ [s])) cs.length := by
  have slash : s ≠ '/' := margin.other (by decide)
  fun_induction commentLength cs with
  | case1 => exact .inr ⟨trivial, rfl, by simp [commentLength]⟩
  | case2 cs => exact .inl rfl
  | case3 c cs apart ih =>
    have next : commentLength (c :: (cs ++ [s])) = commentLength (cs ++ [s]) + 1 := by
      rw [commentLength]
      rintro rest rfl same
      cases cs with
      | nil => exact slash (List.cons.inj same).1
      | cons d cs =>
        obtain ⟨rfl, _⟩ := List.cons.inj same
        exact apart cs rfl rfl
    rw [List.cons_append, next]
    rcases ih with same | ⟨_, length, length'⟩
    · exact .inl (by rw [same])
    · exact .inr ⟨trivial, by rw [length, List.length_cons], by rw [length', List.length_cons]⟩

/-! What a name means with one more character. -/

theorem readNumberedAll {k : Nat} (enough : cs.length ≤ k) : readNumbered k cs = [] := by
  rw [readNumberedDrop, List.drop_eq_nil_of_le enough]
  rfl

theorem numberedMark (front rest : List Char) :
    numberedLength (front ++ '\\' :: rest) = numberedLength front :=
  numberedBefore (by decide) (by decide) rest fun _ => rfl

theorem readNumberedMore {front rest rest' : List Char}
    (same : readNumbered 0 ('\\' :: rest) = readNumbered 0 ('\\' :: rest')) {k : Nat}
    (within : k ≤ front.length) :
    readNumbered k (front ++ '\\' :: rest) = readNumbered k (front ++ '\\' :: rest') := by
  induction front generalizing k with
  | nil =>
    obtain rfl := Nat.le_zero.mp within
    exact same
  | cons c front ih =>
    cases k with
    | succ k => exact ih (by simpa using within)
    | zero =>
      rw [List.cons_append, List.cons_append, readNumbered, readNumbered, numberedMark,
        numberedMark, ih (Nat.zero_le _)]
      have bound := numberedBound front
      cases length : numberedLength front with
      | zero => rfl
      | succ n =>
        have char : numberedChar (front ++ '\\' :: rest) =
            numberedChar (front ++ '\\' :: rest') := by
          rw [numberedChar, numberedChar, hexDigitsBefore (by decide), hexDigitsBefore (by decide)]
        dsimp only
        rw [ih (by omega), char]

theorem ofNameClosed (margin : Margin s) (space : isSpace s = true) (unclosed : OpenDigits cs) :
    ofName (cs ++ [s]) = ofName cs := by
  obtain ⟨front, digits, rfl, whole⟩ := unclosed
  have digitsAlone := hexDigitsBefore margin.noHex digits []
  have closed := numberedDigits whole [s] (digitsAlone.trans whole.2)
  rw [margin.closing, if_pos space] at closed
  obtain ⟨n, size⟩ := Nat.exists_eq_add_one.mpr (List.length_pos_iff.mpr whole.1)
  have last : readNumbered 0 ('\\' :: (digits ++ [s])) = readNumbered 0 ('\\' :: digits) := by
    have char : numberedChar (digits ++ [s]) = numberedChar digits := by
      rw [numberedChar, digitsAlone, numberedChar]
    rw [readNumbered, readNumbered, if_pos rfl, if_pos rfl, closed, numberedWhole whole, size, char]
    dsimp only
    rw [readNumberedAll (by simp [size]), readNumberedAll (by omega)]
  have joined : front ++ '\\' :: digits ++ [s] = front ++ '\\' :: (digits ++ [s]) := by simp
  rw [ofName, joined, readNumberedMore last (Nat.zero_le _), ofName]

theorem foreignUnmarked (cs : List Char) :
    (dropBackslashes cs).countP isForeign = cs.countP isForeign := by
  have mark : isForeign '\\' = false := by decide
  fun_induction dropBackslashes cs with
  | case1 => rfl
  | case2 cs ih => rw [List.countP_cons, List.countP_cons, ih, List.countP_cons, List.countP_cons]
  | case3 c cs _ ih => simp [List.countP_cons, ih, mark]
  | case4 c cs _ ih => rw [List.countP_cons, ih, List.countP_cons]

theorem readNumberedForeign (margin : Margin s) (foreign : isSpace s = false) {k : Nat}
    (within : k ≤ cs.length) : readNumbered k (cs ++ [s]) = readNumbered k cs ++ [s] := by
  have mark : s ≠ '\\' := margin.other (by decide)
  have closing : closingLength [s] = 0 := by
    rw [margin.closing, foreign]
    rfl
  induction cs generalizing k with
  | nil =>
    obtain rfl := Nat.le_zero.mp within
    simp [readNumbered, mark]
  | cons c cs ih =>
    cases k with
    | succ k => exact ih (by simpa using within)
    | zero =>
      have bound := numberedBound cs
      have digits : numberedChar (cs ++ [s]) = numberedChar cs := by
        rw [numberedChar, hexDigitsBefore margin.noHex, numberedChar]
      rw [List.cons_append, readNumbered, readNumbered, digits,
        numberedBefore margin.noHex margin.noLine [] fun _ => closing]
      split
      · split
        · rw [ih (Nat.zero_le _), List.cons_append]
        · rw [ih (by omega), List.cons_append]
      · rw [ih (Nat.zero_le _), List.cons_append]

theorem ofNameForeign (margin : Margin s) (foreign : isSpace s = false) (cs : List Char) :
    (ofName (cs ++ [s])).countP isForeign = (ofName cs).countP isForeign + 1 := by
  have counted : isForeign s = true := by rw [margin.foreign, foreign, Bool.not_false]
  rw [ofName, foreignUnmarked, readNumberedForeign margin foreign (Nat.zero_le _),
    List.countP_append, List.countP_singleton, if_pos counted, ofName, foreignUnmarked]

/-! Identifiers. -/

inductive IdentGrows (s : Char) (cs : List Char) (length length' : Nat) : Prop where
  | name : NameGrows s cs length length' → IdentGrows s cs length length'
  | hyphen : cs = ['-'] → isNameChars s = true → length = 0 → length' = 2 →
      IdentGrows s cs length length'
  | hyphenMark : cs = ['-', '\\'] → length = 0 → IdentGrows s cs length length'

theorem identOther {c : Char} (other : c ≠ '-') (cs : List Char) :
    identLength (c :: cs) = if startsName (c :: cs) then nameLength 0 (c :: cs) else 0 := by
  rw [identLength]
  rintro rest same
  exact other (List.cons.inj same).1

theorem startsMark : startsName ['\\'] = false := by decide

theorem identGrows (margin : Margin s) (c : Char) (cs : List Char) :
    IdentGrows s (c :: cs) (identLength (c :: cs)) (identLength (c :: (cs ++ [s]))) := by
  have mark : s ≠ '\\' := margin.other (by decide)
  by_cases hyphen : c = '-'
  · subst hyphen
    rw [identLength, identLength]
    by_cases none : cs = []
    · subst none
      have start : startsName [s] = isNameChars s := by
        simp [startsName, margin.startsName, mark]
      rw [List.nil_append, start]
      by_cases stands : isNameChars s
      · exact .hyphen rfl stands rfl (by simp [stands, nameLength])
      · exact .name (.same (by simp [stands, startsName]))
    by_cases alone : cs = ['\\']
    · subst alone
      exact .hyphenMark rfl (by rw [startsMark]; rfl)
    rw [startsNameSame margin ⟨none, alone⟩]
    split
    · exact .name ((nameLengthGrows margin (Nat.zero_le _)).cons '-')
    · exact .name (.same rfl)
  · rw [identOther hyphen, identOther hyphen]
    by_cases alone : c :: cs = ['\\']
    · refine .name (.mark ?_ (by rw [alone]; rfl))
      rw [alone, startsMark]
      rfl
    rw [← List.cons_append, startsNameSame margin ⟨List.cons_ne_nil _ _, alone⟩]
    split
    · exact .name (nameLengthGrows margin (Nat.zero_le _))
    · exact .name (.same rfl)

end SelectorRank
