import SelectorRank.Grammar.Selector
import SelectorRank.Proofs.Outcome

/-! Texts with the same lexemes at other places. Only the shapes of lexemes decide what the readers
read, and blanks at the end do not count, so what is read from one text is read from any other with
these shapes, whatever bounds the readers have for it. -/
namespace SelectorRank

variable {α β ε : Type}

/-! Lexemes that agree in shape. -/

inductive Lexemes.Alike : Lexemes → Lexemes → Prop where
  | next {shape : Shape} {start start' : Nat} {rest rest' : Lexemes} : Alike rest rest' →
      Alike (.next ⟨shape, start⟩ rest) (.next ⟨shape, start'⟩ rest')
  | ended {ls ls' : Lexemes} {start start' : Nat} : Cursor.afterBlanks ls = .stop start →
      Cursor.afterBlanks ls' = .stop start' → Alike ls ls'
  | fault {f f' : LexicalFault} : Alike (.fault f) (.fault f')

theorem Lexemes.Alike.symm {ls ls' : Lexemes} (alike : ls.Alike ls') : ls'.Alike ls := by
  induction alike with
  | next _ ih => exact .next ih
  | ended left right => exact .ended right left
  | fault => exact .fault

theorem Lexemes.Alike.skip {ls ls' : Lexemes} (alike : ls.Alike ls') :
    (Cursor.afterBlanks ls).Alike (Cursor.afterBlanks ls') := by
  induction alike with
  | @next shape start start' rest rest' alike ih =>
    by_cases blank : shape = .blank
    · simpa [Cursor.afterBlanks, blank] using ih
    · simpa [Cursor.afterBlanks, blank] using alike.next
  | ended left right =>
    rw [left, right]
    exact .ended rfl rfl
  | fault => exact .fault

def Shape.IsOuter (shape : Shape) : Prop := shape = .blank ∨ shape = .stop

namespace Cursor

structure Alike (c c' : Cursor) : Prop where
  passed : c'.passed = c.passed
  rest : c.rest.Alike c'.rest

variable {c c' : Cursor}

theorem Alike.symm (alike : c.Alike c') : c'.Alike c := ⟨alike.passed.symm, alike.rest.symm⟩

theorem Alike.skip (alike : c.Alike c') : c.skipBlanks.Alike c'.skipBlanks :=
  ⟨alike.passed, alike.rest.skip⟩

theorem afterBlanksShorter (ls : Lexemes) : (afterBlanks ls).length ≤ ls.length := by
  induction ls with
  | stop start => exact Nat.le_refl _
  | fault f => exact Nat.le_refl _
  | next l rest ih =>
    rw [afterBlanks]
    split
    · exact Nat.le_succ_of_le ih
    · exact Nat.le_refl _

theorem skipShorter (c : Cursor) : c.skipBlanks.rest.length ≤ c.rest.length :=
  afterBlanksShorter c.rest

theorem advanceShorter (c : Cursor) : c.advance.rest.length ≤ c.rest.length := by
  unfold advance
  split
  · next same => simp [same, Lexemes.length]
  · exact Nat.le_refl _

theorem afterBlanksAdvance (passed : Option Shape) {ls : Lexemes} {start : Nat}
    (ended : afterBlanks ls = .stop start) :
    (Cursor.mk passed ls).advance.passed = passed ∧
      afterBlanks (Cursor.mk passed ls).advance.rest = .stop start := by
  cases ls with
  | stop start => exact ⟨rfl, ended⟩
  | fault f => exact ⟨rfl, ended⟩
  | next l rest =>
    rw [afterBlanks] at ended
    split at ended
    · next blank => exact ⟨by simp [advance, blank], ended⟩
    · cases ended

theorem Alike.advance (alike : c.Alike c') : c.advance.Alike c'.advance := by
  obtain ⟨passed, ls⟩ := c
  obtain ⟨passed', ls'⟩ := c'
  obtain ⟨rfl, rest⟩ := alike
  cases rest with
  | next rest => exact ⟨rfl, rest⟩
  | ended left right =>
    obtain ⟨first, left⟩ := afterBlanksAdvance passed' left
    obtain ⟨second, right⟩ := afterBlanksAdvance passed' right
    exact ⟨second.trans first.symm, .ended left right⟩
  | fault => exact ⟨rfl, .fault⟩

end Cursor

/-! Steps that are repeated. -/

/-- What one step gives, another one gives too, up to a relation. -/
def Repeats (same : α → β → Prop) (x : Except ε α) (y : Except ε β) : Prop :=
  ∀ out, x = .ok out → ∃ out', y = .ok out' ∧ same out out'

namespace Repeats

variable {same : α → β → Prop} {x : Except ε α} {y : Except ε β}

theorem ok {out : α} {out' : β} (holds : same out out') :
    Repeats same (.ok out : Except ε α) (.ok out' : Except ε β) :=
  fun _ given => ⟨out', rfl, Except.ok.inj given ▸ holds⟩

theorem error {e : ε} : Repeats same (.error e) y := nofun

theorem bind {γ δ : Type} {next : γ → δ → Prop} {f : α → Except ε γ} {g : β → Except ε δ}
    (first : Repeats same x y) (rest : ∀ out out', same out out' → Repeats next (f out) (g out')) :
    Repeats next (x >>= f) (y >>= g) := by
  intro last given
  obtain ⟨out, given, later⟩ := bindOk given
  obtain ⟨out', given', holds⟩ := first out given
  obtain ⟨last', later', done⟩ := rest out out' holds last later
  exact ⟨last', by rw [given']; exact later', done⟩

theorem fails {γ : Type} {z : Except ε γ} {f : γ → Except ε α}
    (none : ∀ a out, f a ≠ .ok out) : Repeats same (z >>= f) y := by
  intro out given
  obtain ⟨a, _, later⟩ := bindOk given
  exact absurd later (none a out)

end Repeats

/-- The same value is read, and what is left is alike and shorter than a bound. -/
structure Goes (value : α → β) (place : α → Cursor) (size : Nat) (out out' : α) : Prop where
  same : value out' = value out
  alike : (place out).Alike (place out')
  less : (place out').rest.length < size

abbrev Steps (size : Nat) : α × Cursor → α × Cursor → Prop := Goes (·.1) (·.2) size

abbrev StepsOn (size : Nat) : α × β × Cursor → α × β × Cursor → Prop :=
  Goes (fun out => (out.1, out.2.1)) (·.2.2) size

namespace Repeats

variable {γ δ : Type} {next : γ → δ → Prop} {size size' : Nat} {d d' : Cursor}

theorem shorter {value : α → β} {place : α → Cursor} {x y : Except ε α}
    (repeats : Repeats (Goes value place size) x y) (less : size ≤ size') :
    Repeats (Goes value place size') x y := by
  intro out given
  obtain ⟨out', given', goes⟩ := repeats out given
  exact ⟨out', given', goes.same, goes.alike, Nat.lt_of_lt_of_le goes.less less⟩

theorem here {a : α} (alike : d.Alike d') (less : d'.rest.length < size) :
    Repeats (Steps size) (.ok (a, d) : Except ε _) (.ok (a, d') : Except ε _) :=
  .ok ⟨rfl, alike, less⟩

theorem step {x y : Except ε (α × Cursor)} {f : α × Cursor → Except ε γ}
    {g : α × Cursor → Except ε δ} (first : Repeats (Steps size) x y)
    (rest : ∀ a d d', d.Alike d' → d'.rest.length < size → Repeats next (f (a, d)) (g (a, d'))) :
    Repeats next (x >>= f) (y >>= g) := by
  refine first.bind fun (a, d) (a', d') goes => ?_
  obtain ⟨rfl, alike, less⟩ := goes
  exact rest a' d d' alike less

theorem stepOn {x y : Except ε (α × β × Cursor)} {f : α × β × Cursor → Except ε γ}
    {g : α × β × Cursor → Except ε δ} (first : Repeats (StepsOn size) x y)
    (rest : ∀ a b d d', d.Alike d' → d'.rest.length < size →
      Repeats next (f (a, b, d)) (g (a, b, d'))) :
    Repeats next (x >>= f) (y >>= g) := by
  refine first.bind fun (a, b, d) (a', b', d') goes => ?_
  obtain ⟨same, alike, less⟩ := goes
  cases same
  exact rest a b d d' alike less

end Repeats

variable {c c' : Cursor} {m : Nat}

structure Fits (c' : Cursor) (l l' : Lexeme) : Prop where
  shape : l'.shape = l.shape ∨ l.shape.IsOuter ∧ l'.shape.IsOuter
  less : l'.shape ≠ .stop → c'.advance.rest.length < c'.rest.length

theorem Fits.delim {l l' : Lexeme} (fits : Fits c' l l') (d : Char) :
    l'.shape = .delim d ↔ l.shape = .delim d := by
  rcases fits.shape with same | ⟨outer | outer, outer' | outer'⟩
  · rw [same]
  all_goals simp [outer, outer']

theorem Fits.endsCompound {l l' : Lexeme} (fits : Fits c' l l') :
    l'.shape.endsCompound = l.shape.endsCompound := by
  rcases fits.shape with same | ⟨outer | outer, outer' | outer'⟩
  · rw [same]
  all_goals simp [outer, outer', Shape.endsCompound]

theorem Fits.inner {l l' : Lexeme} (fits : Fits c' l l') (inner : l.shape.endsCompound = false) :
    l'.shape = l.shape := by
  rcases fits.shape with same | ⟨outer | outer, _⟩
  · exact same
  all_goals
    rw [outer] at inner
    cases inner

theorem endedPeek {ls : Lexemes} {start : Nat} (ended : Cursor.afterBlanks ls = .stop start)
    (passed : Option Shape) : ∃ l, (Cursor.mk passed ls).peek = .ok l ∧ l.shape.IsOuter := by
  cases ls with
  | stop start => exact ⟨_, rfl, .inr rfl⟩
  | fault f => cases ended
  | next l rest =>
    rw [Cursor.afterBlanks] at ended
    split at ended
    · next blank => exact ⟨l, rfl, .inl blank⟩
    · cases ended

theorem advanceLess {l : Lexeme} (peek : c.peek = .ok l) (more : l.shape ≠ .stop) :
    c.advance.rest.length < c.rest.length := by
  obtain ⟨passed, ls⟩ := c
  cases ls with
  | stop start =>
    cases peek
    contradiction
  | fault f => cases peek
  | next l rest => exact Nat.lt_succ_self _

theorem skipVisible {l : Lexeme} (peek : c.skipBlanks.peek = .ok l) : l.shape ≠ .blank := by
  obtain ⟨passed, ls⟩ := c
  induction ls with
  | stop start =>
    cases peek
    nofun
  | fault f => cases peek
  | next first rest ih =>
    rw [Cursor.skipBlanks, Cursor.afterBlanks] at peek
    split at peek
    · exact ih peek
    · next other =>
      cases peek
      exact other

theorem peekRepeats (alike : c.Alike c') : Repeats (Fits c') c.peek c'.peek := by
  obtain ⟨passed, ls⟩ := c
  obtain ⟨passed', ls'⟩ := c'
  obtain ⟨rfl, rest⟩ := alike
  cases rest with
  | next rest => exact .ok ⟨.inl rfl, advanceLess rfl⟩
  | ended left right =>
    obtain ⟨l, peek, outer⟩ := endedPeek left passed'
    obtain ⟨l', peek', outer'⟩ := endedPeek right passed'
    rw [peek, peek']
    exact .ok ⟨.inr ⟨outer, outer'⟩, advanceLess peek'⟩
  | fault => exact .error

/-- Behind blanks the shapes are the same, and no blank. -/
theorem peekSkipRepeats (alike : c.Alike c') :
    Repeats (fun l l' => l'.shape = l.shape ∧ (l.shape ≠ .stop →
      c'.skipBlanks.advance.rest.length < c'.rest.length))
      c.skipBlanks.peek c'.skipBlanks.peek := by
  intro l peek
  obtain ⟨l', peek', fits⟩ := peekRepeats alike.skip l peek
  have same : l'.shape = l.shape := by
    rcases fits.shape with same | ⟨outer, outer'⟩
    · exact same
    · rw [outer.resolve_left (skipVisible peek), outer'.resolve_left (skipVisible peek')]
  exact ⟨l', peek', same, fun more =>
    Nat.lt_of_lt_of_le (fits.less (same ▸ more)) (Cursor.skipShorter c')⟩

theorem combinatorAlike {l l' : Lexeme} (same : l'.shape = l.shape) (alike : c.Alike c') :
    (combinatorAt l' c').1 = (combinatorAt l c).1 ∧
      (combinatorAt l c).2.Alike (combinatorAt l' c').2 ∧
      (combinatorAt l' c').2.rest.length ≤ c'.rest.length := by
  unfold combinatorAt
  rw [same]
  split
  · exact ⟨rfl, alike.advance.skip,
      Nat.le_trans (Cursor.skipShorter _) (Cursor.advanceShorter c')⟩
  · exact ⟨rfl, alike, Nat.le_refl _⟩

/-! Flat pieces. -/

theorem readIdentRepeats (alike : c.Alike c') :
    Repeats (Steps c'.rest.length) (readIdent c) (readIdent c') := by
  refine (peekRepeats alike).bind fun l l' fits => ?_
  rcases fits.shape with same | ⟨outer | outer, _⟩
  · rw [same]
    split
    · next name shape => exact .here alike.advance (fits.less (by simp [same, shape]))
    · exact .error
  · rw [outer]
    exact .error
  · rw [outer]
    exact .error

theorem readIdentOrStarRepeats (alike : c.Alike c') :
    Repeats (Steps c'.rest.length) (readIdentOrStar c) (readIdentOrStar c') := by
  refine (peekRepeats alike).bind fun l l' fits => ?_
  rcases fits.shape with same | ⟨outer | outer, _⟩
  · rw [same]
    split
    · next name shape => exact .here alike.advance (fits.less (by simp [same, shape]))
    · next shape => exact .here alike.advance (fits.less (by simp [same, shape]))
    · exact .error
  · rw [outer]
    exact .error
  · rw [outer]
    exact .error

theorem readWordsRepeats (n : Nat) (alike : c.Alike c') (bound : c'.rest.length < m) :
    Repeats (Steps c'.rest.length) (readWords n c) (readWords m c') := by
  induction n generalizing c c' m with
  | zero =>
    rw [readWords]
    exact .fails fun _ _ => nofun
  | succ n ih =>
    obtain ⟨m, rfl⟩ := Nat.exists_eq_add_one_of_ne_zero (Nat.ne_zero_of_lt bound)
    refine (peekSkipRepeats alike).bind fun l l' ⟨same, less⟩ => ?_
    rw [same]
    split
    · next word shape =>
      have shorter := less (by rintro stop; simp [stop, Shape.word?] at shape)
      refine (ih alike.skip.advance (by omega)).step fun words d d' alike smaller => ?_
      exact .here alike (by omega)
    · split
      · next close => exact .here alike.skip.advance (less (by simp [close]))
      · exact .error

theorem readFlagRepeats (alike : c.Alike c') :
    Repeats (Steps c'.rest.length) (readFlag c) (readFlag c') := by
  refine (peekSkipRepeats alike).bind fun l l' ⟨same, less⟩ => ?_
  rw [same]
  split
  · next shape => exact .here alike.skip.advance (less (by simp [shape]))
  · next name shape =>
    have shorter := less (by simp [shape])
    split
    · split
      · refine (peekSkipRepeats alike.skip.advance).bind fun close close' ⟨same, less⟩ => ?_
        rw [same]
        split
        · next shape' =>
          have smaller := less (by simp [shape'])
          exact .here alike.skip.advance.skip.advance (by omega)
        · exact .error
      · exact .error
    · exact .error
  · exact .error

theorem readComparisonRepeats (operator : String) (alike : c.Alike c') :
    Repeats (Steps c'.rest.length) (readComparison operator c) (readComparison operator c') := by
  refine (peekSkipRepeats alike).bind fun l l' ⟨same, less⟩ => ?_
  rw [same]
  split
  · next value shape =>
    have shorter := less (by simp [shape])
    refine (readFlagRepeats alike.skip.advance).step fun flag d d' alike smaller => ?_
    exact .here alike (by omega)
  · next value shape =>
    have shorter := less (by simp [shape])
    refine (readFlagRepeats alike.skip.advance).step fun flag d d' alike smaller => ?_
    exact .here alike (by omega)
  · exact .error

theorem readOperatorRepeats (space name : Option String) (alike : c.Alike c') :
    Repeats (Steps c'.rest.length) (readOperator space name c) (readOperator space name c') := by
  refine (peekSkipRepeats alike).bind fun l l' ⟨same, less⟩ => ?_
  rw [same]
  split
  · next shape => exact .here alike.skip.advance (less (by simp [shape]))
  · next shape =>
    have shorter := less (by simp [shape])
    refine (readComparisonRepeats "=" alike.skip.advance).step fun test d d' alike smaller => ?_
    exact .here alike (by omega)
  · next mark shape =>
    have shorter := less (by simp [shape])
    split
    · refine (peekRepeats alike.skip.advance).bind fun equals equals' fits => ?_
      simp only [fits.delim]
      split
      · have second := Cursor.advanceShorter c'.skipBlanks.advance
        refine (readComparisonRepeats _ alike.skip.advance.advance).step
          fun test d d' alike smaller => ?_
        exact .here alike (Nat.lt_trans smaller (by omega))
      · exact .error
    · exact .error
  · exact .error

theorem readAttributeRepeats (alike : c.Alike c') :
    Repeats (Steps c'.rest.length) (readAttribute c) (readAttribute c') := by
  refine (peekSkipRepeats alike).bind fun l l' ⟨same, less⟩ => ?_
  have skipped := Cursor.skipShorter c'
  rw [same]
  split
  · next shape =>
    have first := less (by simp [shape])
    refine (readIdentRepeats alike.skip.advance).step fun name d d' alike second => ?_
    exact (readOperatorRepeats none (some name) alike).shorter (by omega)
  · refine (readIdentOrStarRepeats alike.skip).step fun name d d' alike first => ?_
    refine (peekRepeats alike).bind fun bar bar' fits => ?_
    simp only [fits.delim]
    split
    · refine (peekRepeats alike.advance).bind fun after after' fits => ?_
      have second := Cursor.advanceShorter d'
      simp only [fits.delim]
      split
      · have third := Cursor.advanceShorter d'.advance
        refine (readComparisonRepeats "|=" alike.advance.advance).step
          fun test e e' alike fourth => ?_
        exact .here alike (Nat.lt_trans fourth (by omega))
      · refine (readIdentRepeats alike.advance).step fun inner e e' alike third => ?_
        exact (readOperatorRepeats _ (some inner) alike).shorter (by omega)
    · split
      · exact .error
      · exact (readOperatorRepeats none name alike).shorter (by omega)

theorem readElementRepeats (alike : c.Alike c') :
    Repeats (fun out out' =>
      Goes (·.1) (·.2) (c'.rest.length + if out.1 = none then 1 else 0) out out')
      (readElement c) (readElement c') := by
  refine (peekRepeats alike).bind fun l l' fits => ?_
  have none : Repeats (fun out out' : Option Compound × Cursor =>
      Goes (·.1) (·.2) (c'.rest.length + if out.1 = none then 1 else 0) out out')
      (.ok (none, c) : Reading (Option Compound × Cursor)) (.ok (none, c')) :=
    .ok ⟨rfl, alike, Nat.lt_succ_self _⟩
  rcases fits.shape with same | ⟨outer, outer'⟩
  · rw [same]
    dsimp only
    split
    · exact none
    · next first found =>
      have shorter := fits.less (by rintro stop; simp [← same, stop] at found)
      refine (peekRepeats alike.advance).bind fun bar bar' fits => ?_
      simp only [fits.delim]
      split
      · have second := Cursor.advanceShorter c'.advance
        refine (readIdentOrStarRepeats alike.advance.advance).step fun name d d' alike third => ?_
        exact .ok ⟨rfl, alike, by simp; omega⟩
      · exact .ok ⟨rfl, alike.advance, by simp; omega⟩
  · rcases outer with outer | outer <;> rcases outer' with outer' | outer' <;>
      (rw [outer, outer']; exact none)

/-! All readers, with bounds on their calls. The first text was read with the bound given; for the
other text any bound will do that is large enough for what is left of it. -/

theorem callsLeft {k m : Nat} (bound : k + 1 ≤ m) : ∃ m', m = m' + 1 :=
  Nat.exists_eq_add_one.mpr (Nat.lt_of_lt_of_le k.succ_pos bound)

structure AllRepeat (n : Nat) : Prop where
  compound {c c' : Cursor} {m : Nat} (around : Surrounding) :
    c.skipBlanks.Alike c'.skipBlanks → 4 * c'.rest.length + 2 ≤ m →
    Repeats (StepsOn c'.rest.length) (readCompound n around c) (readCompound m around c')
  parts {c c' : Cursor} {m : Nat} (around : Surrounding) (opens started : Bool)
    (compound : Compound) (last : Option PseudoElement) :
    c.Alike c' → 4 * c'.rest.length + 1 ≤ m →
    Repeats (StepsOn (c'.rest.length + if started then 1 else 0))
      (readParts n around opens started compound last c)
      (readParts m around opens started compound last c')
  colon {c c' : Cursor} {m : Nat} (around : Surrounding) (opens : Bool) :
    c.Alike c' → 4 * c'.rest.length + 4 ≤ m →
    Repeats (Steps c'.rest.length) (readColon n around opens c) (readColon m around opens c')
  function {c c' : Cursor} {m : Nat} (around : Surrounding) (name : String) :
    c.Alike c' → 4 * c'.rest.length + 4 ≤ m →
    Repeats (Steps c'.rest.length) (readFunction n around name c) (readFunction m around name c')
  negation {c c' : Cursor} {m : Nat} (body : Complex) (last : Option PseudoElement) :
    c.Alike c' → 4 * c'.rest.length + 3 ≤ m →
    Repeats (Steps c'.rest.length) (readNegation n body last c) (readNegation m body last c')
  relation {c c' : Cursor} {m : Nat} : c.Alike c' → 4 * c'.rest.length + 3 ≤ m →
    Repeats (Steps c'.rest.length) (readRelation n c) (readRelation m c')
  argument {c c' : Cursor} {m : Nat} (argument : Complex) (last : Option PseudoElement) :
    c.Alike c' → 4 * c'.rest.length + 3 ≤ m →
    Repeats (Steps (c'.rest.length + 1)) (readArgument n argument last c)
      (readArgument m argument last c')
  options {c c' : Cursor} {m : Nat} : c.Alike c' → 4 * c'.rest.length + 3 ≤ m →
    Repeats (Steps c'.rest.length) (readOptions n c) (readOptions m c')

section
variable {n : Nat} (read : AllRepeat n)
include read

theorem compoundRepeats (around : Surrounding) (alike : c.skipBlanks.Alike c'.skipBlanks)
    (bound : 4 * c'.rest.length + 2 ≤ m) :
    Repeats (StepsOn c'.rest.length) (readCompound (n + 1) around c)
      (readCompound m around c') := by
  obtain ⟨m, rfl⟩ := callsLeft bound
  have skipped := Cursor.skipShorter c'
  have opens : c'.skipBlanks.opensSelector = c.skipBlanks.opensSelector := by
    simp [Cursor.opensSelector, alike.passed]
  rw [readCompound, readCompound]
  refine (readElementRepeats alike).bind fun (element, d) (element', d') goes => ?_
  obtain ⟨rfl, alike, less⟩ := goes
  dsimp only at alike less ⊢
  rw [opens]
  cases element' with
  | some compound =>
    exact (read.parts _ _ _ _ _ alike (by simp at less; omega)).shorter (by simp at less ⊢; omega)
  | none =>
    exact (read.parts _ _ _ _ _ alike (by simp at less; omega)).shorter (by simp at less ⊢; omega)

theorem partsRepeats (around : Surrounding) (opens started : Bool) (compound : Compound)
    (last : Option PseudoElement) (alike : c.Alike c') (bound : 4 * c'.rest.length + 1 ≤ m) :
    Repeats (StepsOn (c'.rest.length + if started then 1 else 0))
      (readParts (n + 1) around opens started compound last c)
      (readParts m around opens started compound last c') := by
  obtain ⟨m, rfl⟩ := callsLeft bound
  have room : c'.rest.length ≤ c'.rest.length + if started then 1 else 0 := Nat.le_add_right _ _
  have spare : started = true → c'.rest.length < c'.rest.length + if started then 1 else 0 := by
    rintro rfl
    exact Nat.lt_succ_self _
  generalize (c'.rest.length + if started then 1 else 0) = size at room spare ⊢
  rw [readParts, readParts]
  refine (peekRepeats alike).bind fun l l' fits => ?_
  dsimp only
  rw [fits.endsCompound]
  split
  · split
    · next some => exact .ok ⟨rfl, alike, spare some⟩
    · exact .error
  next inner =>
  have same := fits.inner (by simpa using inner)
  have shorter := fits.less (by rintro stop; simp [← same, stop, Shape.endsCompound] at inner)
  rw [same]
  cases last with
  | some e => exact .error
  | none =>
  dsimp only
  split
  · exact (read.parts _ _ _ _ _ alike.advance (by omega)).shorter (by simp; omega)
  · refine (readIdentRepeats alike.advance).step fun name d d' alike less => ?_
    exact (read.parts _ _ _ _ _ alike (by omega)).shorter (by simp; omega)
  · split
    · exact .error
    · refine (readIdentOrStarRepeats alike.advance).step fun name d d' alike less => ?_
      exact (read.parts _ _ _ _ _ alike (by omega)).shorter (by simp; omega)
  · refine (readAttributeRepeats alike.advance).step fun test d d' alike less => ?_
    exact (read.parts _ _ _ _ _ alike (by omega)).shorter (by simp; omega)
  · refine (read.colon around opens alike.advance (by omega)).step fun colon d d' alike less => ?_
    cases colon with
    | part part => exact (read.parts _ _ _ _ _ alike (by omega)).shorter (by simp; omega)
    | pseudoElement e => exact (read.parts _ _ _ _ _ alike (by omega)).shorter (by simp; omega)
  · exact .error

theorem colonRepeats (around : Surrounding) (opens : Bool) (alike : c.Alike c')
    (bound : 4 * c'.rest.length + 4 ≤ m) :
    Repeats (Steps c'.rest.length) (readColon (n + 1) around opens c)
      (readColon m around opens c') := by
  obtain ⟨m, rfl⟩ := callsLeft bound
  rw [readColon, readColon]
  refine (peekRepeats alike).bind fun l l' fits => ?_
  simp only [fits.delim]
  split
  · next shape =>
    have first := fits.less (by simp [(fits.delim ':').mpr shape])
    refine (readIdentRepeats alike.advance).step fun name d d' alike second => ?_
    refine (peekRepeats alike).bind fun bracket bracket' fits => ?_
    simp only [fits.delim]
    split
    · have third := Cursor.advanceShorter d'
      refine (readWordsRepeats n alike.advance (by omega)).step fun words e e' alike fourth => ?_
      exact .here alike (Nat.lt_trans fourth (by omega))
    · exact .here alike (Nat.lt_trans second first)
  · refine (readIdentRepeats alike).step fun name d d' alike first => ?_
    dsimp only
    split
    · exact .here alike first
    refine (peekRepeats alike).bind fun bracket bracket' fits => ?_
    simp only [fits.delim]
    split
    · next shape =>
      have second := fits.less (by simp [(fits.delim '(').mpr shape])
      refine (read.function around _ alike.advance (by omega)).step fun part e e' alike third => ?_
      exact .here alike (Nat.lt_trans third (by omega))
    split
    · exact .error
    · exact .here alike first

theorem functionRepeats (around : Surrounding) (name : String) (alike : c.Alike c')
    (bound : 4 * c'.rest.length + 4 ≤ m) :
    Repeats (Steps c'.rest.length) (readFunction (n + 1) around name c)
      (readFunction m around name c') := by
  obtain ⟨m, rfl⟩ := callsLeft bound
  have skipped := Cursor.skipShorter c'
  rw [readFunction, readFunction]
  refine (peekSkipRepeats alike).bind fun l l' _ => ?_
  dsimp only
  split
  · cases around with
    | options => exact .error
    | negation => exact .error
    | free =>
      refine (read.compound .negation alike.skip.skip (by omega)).stepOn
        fun first last d d' alike less => ?_
      refine (read.negation _ _ alike (by omega)).step fun body e e' alike smaller => ?_
      exact .here alike (Nat.lt_trans smaller (by omega))
  split
  · refine (read.relation alike.skip (by omega)).step fun arguments d d' alike less => ?_
    exact .here alike (Nat.lt_of_lt_of_le less skipped)
  split
  · refine (read.options alike.skip (by omega)).step fun options d d' alike less => ?_
    exact .here alike (Nat.lt_of_lt_of_le less skipped)
  split
  · refine (read.options alike.skip (by omega)).step fun options d d' alike less => ?_
    exact .here alike (Nat.lt_of_lt_of_le less skipped)
  · refine (readWordsRepeats n alike.skip (by omega)).step fun words d d' alike less => ?_
    exact .here alike (Nat.lt_of_lt_of_le less skipped)

theorem negationRepeats (body : Complex) (last : Option PseudoElement) (alike : c.Alike c')
    (bound : 4 * c'.rest.length + 3 ≤ m) :
    Repeats (Steps c'.rest.length) (readNegation (n + 1) body last c)
      (readNegation m body last c') := by
  obtain ⟨m, rfl⟩ := callsLeft bound
  have skipped := Cursor.skipShorter c'
  rw [readNegation, readNegation]
  refine (peekSkipRepeats alike).bind fun l l' ⟨same, less⟩ => ?_
  dsimp only
  rw [same]
  cases last with
  | some e => exact .error
  | none =>
  dsimp only
  split
  · next close => exact .here alike.skip.advance (less (by simp [close]))
  split
  · exact .error
  · obtain ⟨combinator, alike, shorter⟩ := combinatorAlike same alike.skip
    rw [combinator]
    refine (read.compound .negation alike.skip (by omega)).stepOn
      fun right last d d' alike smaller => ?_
    exact (read.negation _ _ alike (by omega)).shorter (by omega)

theorem argumentRepeats (argument : Complex) (last : Option PseudoElement) (alike : c.Alike c')
    (bound : 4 * c'.rest.length + 3 ≤ m) :
    Repeats (Steps (c'.rest.length + 1)) (readArgument (n + 1) argument last c)
      (readArgument m argument last c') := by
  obtain ⟨m, rfl⟩ := callsLeft bound
  have skipped := Cursor.skipShorter c'
  cases last with
  | some e => exact .error
  | none =>
  rw [readArgument, readArgument]
  refine (peekSkipRepeats alike).bind fun l l' ⟨same, _⟩ => ?_
  dsimp only
  rw [same]
  split
  · exact .here alike.skip (Nat.lt_succ_of_le skipped)
  split
  · exact .error
  · obtain ⟨combinator, alike, shorter⟩ := combinatorAlike same alike.skip
    rw [combinator]
    refine (read.compound .free alike.skip (by omega)).stepOn
      fun right last d d' alike smaller => ?_
    exact (read.argument _ _ alike (by omega)).shorter (by omega)

theorem relationRepeats (alike : c.Alike c') (bound : 4 * c'.rest.length + 3 ≤ m) :
    Repeats (Steps c'.rest.length) (readRelation (n + 1) c) (readRelation m c') := by
  obtain ⟨m, rfl⟩ := callsLeft bound
  have skipped := Cursor.skipShorter c'
  rw [readRelation, readRelation]
  refine (peekSkipRepeats alike).bind fun l l' ⟨same, _⟩ => ?_
  obtain ⟨combinator, alike, shorter⟩ := combinatorAlike same alike.skip
  dsimp only
  rw [combinator]
  refine (read.compound .free alike.skip (by omega)).stepOn fun first last d d' alike less => ?_
  refine (read.argument _ _ alike (by omega)).step fun argument e e' alike smaller => ?_
  refine (peekRepeats alike).bind fun comma comma' fits => ?_
  have after := Cursor.advanceShorter e'
  simp only [fits.delim]
  split
  · refine (read.relation alike.advance (by omega)).step fun rest f f' alike left => ?_
    exact .here alike (Nat.lt_trans left (by omega))
  · exact .here alike.advance (by omega)

theorem optionsRepeats (alike : c.Alike c') (bound : 4 * c'.rest.length + 3 ≤ m) :
    Repeats (Steps c'.rest.length) (readOptions (n + 1) c) (readOptions m c') := by
  obtain ⟨m, rfl⟩ := callsLeft bound
  rw [readOptions, readOptions]
  refine (read.compound .options alike.skip (by omega)).stepOn fun first last d d' alike less => ?_
  dsimp only
  cases last with
  | some e => exact .error
  | none =>
  refine (peekSkipRepeats alike).bind fun l l' ⟨same, less⟩ => ?_
  have after := Cursor.skipShorter d'.skipBlanks.advance
  rw [same]
  split
  · next comma =>
    have shorter := less (by simp [comma])
    refine (read.options alike.skip.advance.skip (by omega)).step fun rest e e' alike left => ?_
    exact .here alike (Nat.lt_trans left (by omega))
  split
  · next close => exact .here alike.skip.advance (Nat.lt_trans (less (by simp [close])) (by omega))
  · exact .error

end

theorem allRepeatNone : AllRepeat 0 where
  compound _ _ _ := by
    rw [readCompound]
    refine .fails fun _ _ read => ?_
    obtain ⟨_, _, read⟩ := bindOk read
    cases read
  parts _ _ _ _ _ _ _ := by
    rw [readParts]
    exact .fails fun _ _ => nofun
  colon _ _ _ _ := by
    rw [readColon]
    exact .fails fun _ _ => nofun
  function _ _ _ _ := by
    rw [readFunction]
    exact .fails fun _ _ => nofun
  negation _ _ _ _ := by
    rw [readNegation]
    exact .fails fun _ _ => nofun
  relation _ _ := by
    rw [readRelation]
    exact .fails fun _ _ => nofun
  argument _ last _ _ := by
    cases last with
    | some e => exact .error
    | none =>
      rw [readArgument]
      exact .fails fun _ _ => nofun
  options _ _ := by
    rw [readOptions]
    exact .fails fun _ _ => nofun

theorem allRepeat (n : Nat) : AllRepeat n := by
  induction n with
  | zero => exact allRepeatNone
  | succ n ih =>
    exact ⟨compoundRepeats ih, partsRepeats ih, colonRepeats ih, functionRepeats ih,
      negationRepeats ih, relationRepeats ih, argumentRepeats ih, optionsRepeats ih⟩

/-! Lists. -/

theorem readWrittenRepeats (n : Nat) (selector : Complex) (last : Option PseudoElement)
    (alike : c.Alike c') (bound : 4 * c'.rest.length + 3 ≤ m) :
    Repeats (Steps (c'.rest.length + 1)) (readWritten n selector last c)
      (readWritten m selector last c') := by
  induction n generalizing selector last c c' m with
  | zero =>
    rw [readWritten]
    exact .fails fun _ _ => nofun
  | succ n ih =>
    obtain ⟨m, rfl⟩ := callsLeft bound
    have skipped := Cursor.skipShorter c'
    rw [readWritten, readWritten]
    refine (peekSkipRepeats alike).bind fun l l' ⟨same, _⟩ => ?_
    dsimp only
    rw [same]
    split
    · exact .here alike.skip (Nat.lt_succ_of_le skipped)
    cases last with
    | some e => exact .error
    | none =>
    obtain ⟨combinator, alike, shorter⟩ := combinatorAlike same alike.skip
    dsimp only
    rw [combinator]
    refine ((allRepeat n).compound .free alike.skip (by omega)).stepOn
      fun right last d d' alike smaller => ?_
    exact (ih _ _ alike (by omega)).shorter (by omega)

theorem readListRepeats (n : Nat) (alike : c.skipBlanks.Alike c'.skipBlanks)
    (bound : 4 * c'.rest.length + 4 ≤ m) : Repeats Eq (readList n c) (readList m c') := by
  induction n generalizing c c' m with
  | zero =>
    rw [readList]
    exact .fails fun _ _ => nofun
  | succ n ih =>
    obtain ⟨m, rfl⟩ := callsLeft bound
    rw [readList, readList]
    refine ((allRepeat n).compound .free alike (by omega)).stepOn
      fun first last d d' alike less => ?_
    refine (readWrittenRepeats n _ _ alike (by omega)).step fun written e e' alike smaller => ?_
    refine (peekRepeats alike).bind fun l l' fits => ?_
    have after := Cursor.advanceShorter e'
    have behind := Cursor.skipShorter e'.advance
    simp only [fits.delim]
    split
    · refine (ih alike.advance.skip.skip (by omega)).bind fun rest rest' same => ?_
      rw [same]
      exact .ok rfl
    · exact .ok rfl

/-- Sources with the same lexemes, but for the blanks around them, are read as the same list. -/
theorem readSourceAlike {source source' : List Char} {list : List Written}
    (alike : (Cursor.ofSource source).skipBlanks.Alike (Cursor.ofSource source').skipBlanks)
    (read : readSource source = .ok list) : readSource source' = .ok list := by
  obtain ⟨list', read', same⟩ := readListRepeats (callBound (Cursor.ofSource source)) alike
    (by simp [callBound] : _ ≤ callBound (Cursor.ofSource source')) list read
  exact read'.trans (congrArg _ same.symm)

end SelectorRank
