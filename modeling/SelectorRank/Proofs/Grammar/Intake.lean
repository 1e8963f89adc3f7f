import SelectorRank.Proofs.Grammar.Conversion

/-! Pieces of any source. A reader that succeeds has taken its names and values from lexemes of the
source, and stands behind the last of them. -/
namespace SelectorRank
open Cursor

variable {x : Lexicon} {c c' : Cursor} {before : Option Shape}

/-! Names. -/

theorem identTaken {l : Lexeme} {name : String} (behind : c.Behind x before)
    (peek : c.peek = .ok l) (shape : l.shape = .ident name) :
    x.name name ∧ (before = some (.delim ':') → x.colon name) ∧ c.advance.Within x := by
  have allowed := peekAllowed behind peek
  rw [shape] at allowed
  exact ⟨allowed.1, allowed.2,
    advanceWithin ⟨_, behind⟩ peek (by simp [shape]) (by simp [shape]) (by simp [shape])⟩

theorem readIdentTaken {name : String} (behind : c.Behind x before)
    (read : readIdent c = .ok (name, c')) :
    x.name name ∧ (before = some (.delim ':') → x.colon name) ∧ c'.Within x := by
  obtain ⟨l, peek, read⟩ := bindOk read
  split at read
  · next shape =>
    cases read
    exact identTaken behind peek shape
  · cases read

theorem readIdentOrStarTaken {name : Option String} (holds : c.Holds x)
    (read : readIdentOrStar c = .ok (name, c')) : (∀ n ∈ name, x.name n) ∧ c'.Within x := by
  obtain ⟨before, behind⟩ := holds
  obtain ⟨l, peek, read⟩ := bindOk read
  split at read
  · next shape =>
    cases read
    obtain ⟨named, _, within⟩ := identTaken behind peek shape
    exact ⟨by simpa using named, within⟩
  · next shape =>
    cases read
    exact ⟨by simp, advanceWithin ⟨_, behind⟩ peek (by simp [shape]) (by simp [shape])
      (by simp [shape])⟩
  · cases read

theorem delimTaken {l : Lexeme} {d : Char} (holds : c.Holds x) (peek : c.peek = .ok l)
    (shape : l.shape = .delim d) (comma : d ≠ ',') : c.advance.Within x :=
  advanceWithin holds peek (by simp [shape]) (by simp [shape]) (by simp [shape, comma])

/-! Words. -/

theorem wordTaken {l : Lexeme} {word : Word} (holds : c.Holds x) (peek : c.peek = .ok l)
    (worded : l.shape.word? = some word) : word.From x ∧ c.advance.Within x := by
  obtain ⟨before, behind⟩ := holds
  have allowed := peekAllowed behind peek
  unfold Shape.word? at worded
  split at worded
  · next shape =>
    cases worded
    obtain ⟨named, _, within⟩ := identTaken behind peek shape
    exact ⟨named, within⟩
  · next shape =>
    cases worded
    rw [shape] at allowed
    exact ⟨allowed, advanceWithin ⟨_, behind⟩ peek (by simp [shape]) (by simp [shape])
      (by simp [shape])⟩
  · next shape =>
    cases worded
    exact ⟨trivial, advanceWithin ⟨_, behind⟩ peek (by simp [shape]) (by simp [shape])
      (by simp [shape])⟩
  · next shape =>
    cases worded
    exact ⟨trivial, delimTaken ⟨_, behind⟩ peek shape (by decide)⟩
  · next shape =>
    cases worded
    exact ⟨trivial, delimTaken ⟨_, behind⟩ peek shape (by decide)⟩
  · cases worded

theorem readWordsTaken {n : Nat} {words : List Word} (holds : c.Holds x)
    (read : readWords n c = .ok (words, c')) : (∀ w ∈ words, w.From x) ∧ c'.Within x := by
  induction n generalizing c words with
  | zero =>
    obtain ⟨l, _, read⟩ := bindOk read
    cases read
  | succ n ih =>
    have skipped := skipHolds holds
    obtain ⟨l, peek, read⟩ := bindOk read
    split at read
    · next word worded =>
      obtain ⟨taken, within⟩ := wordTaken skipped peek worded
      obtain ⟨⟨rest, c''⟩, readRest, read⟩ := bindOk read
      cases read
      obtain ⟨others, within⟩ := ih within.holds readRest
      exact ⟨List.forall_mem_cons.mpr ⟨taken, others⟩, within⟩
    · split at read
      · next close =>
        cases read
        exact ⟨by simp, delimTaken skipped peek close (by decide)⟩
      · cases read

/-! Attribute tests. -/

theorem readFlagTaken {flag : Option Char} (holds : c.Holds x)
    (read : readFlag c = .ok (flag, c')) : c'.Within x := by
  have skipped := skipHolds holds
  obtain ⟨l, peek, read⟩ := bindOk read
  split at read
  · next close =>
    cases read
    exact delimTaken skipped peek close (by decide)
  · next shape =>
    obtain ⟨before, behind⟩ := skipped
    obtain ⟨_, _, within⟩ := identTaken behind peek shape
    split at read
    · split at read
      · obtain ⟨close, peekClose, read⟩ := bindOk read
        split at read
        · next bracket =>
          cases read
          exact delimTaken (skipHolds within.holds) peekClose bracket (by decide)
        · cases read
      · cases read
    · cases read
  · cases read

theorem readComparisonTaken {operator : String} {comparison : Comparison} (holds : c.Holds x)
    (read : readComparison operator c = .ok (comparison, c')) :
    (x.name comparison.value ∨ x.value comparison.value) ∧ c'.Within x := by
  obtain ⟨before, behind⟩ := skipHolds holds
  obtain ⟨l, peek, read⟩ := bindOk read
  have allowed := peekAllowed behind peek
  dsimp only at read
  split at read
  · next value shape =>
    obtain ⟨_, valued, read⟩ := bindOk read
    cases valued
    obtain ⟨⟨flag, c''⟩, readMore, same⟩ := bindOk read
    cases same
    obtain ⟨named, _, within⟩ := identTaken behind peek shape
    exact ⟨.inl named, readFlagTaken within.holds readMore⟩
  · next value shape =>
    obtain ⟨_, valued, read⟩ := bindOk read
    cases valued
    obtain ⟨⟨flag, c''⟩, readMore, same⟩ := bindOk read
    cases same
    rw [shape] at allowed
    have after := advanceBehind behind peek (by simp [shape])
    exact ⟨.inr allowed, readFlagTaken ⟨_, after⟩ readMore⟩
  · cases read

section
variable {space name : Option String} {test : AttributeTest}
  (spaced : ∀ s ∈ space, x.name s ∨ s = "*") (named : ∀ n ∈ name, x.name n)
include spaced named

theorem comparisonTaken {operator : String} {comparison : Comparison} (holds : c.Holds x)
    (read : readComparison operator c = .ok (comparison, c')) :
    (AttributeTest.mk space name (some comparison)).From x ∧ c'.Within x := by
  obtain ⟨valued, within⟩ := readComparisonTaken holds read
  exact ⟨⟨spaced, named, by simpa using valued⟩, within⟩

theorem readOperatorTaken (holds : c.Holds x)
    (read : readOperator space name c = .ok (test, c')) : test.From x ∧ c'.Within x := by
  have skipped := skipHolds holds
  obtain ⟨l, peek, read⟩ := bindOk read
  split at read
  · next close =>
    cases read
    exact ⟨⟨spaced, named, by simp⟩, delimTaken skipped peek close (by decide)⟩
  · next equals =>
    obtain ⟨⟨comparison, c''⟩, readMore, read⟩ := bindOk read
    cases read
    have after := delimTaken skipped peek equals (by decide)
    exact comparisonTaken spaced named after.holds readMore
  · next d _ _ shape =>
    split at read
    · next sign =>
      have after := delimTaken skipped peek shape (by rintro rfl; exact absurd sign (by decide))
      obtain ⟨equals, peekEquals, read⟩ := bindOk read
      split at read
      · next shape' =>
        obtain ⟨⟨comparison, c''⟩, readMore, read⟩ := bindOk read
        cases read
        have after := delimTaken after.holds peekEquals shape' (by decide)
        exact comparisonTaken spaced named after.holds readMore
      · cases read
    · cases read
  · cases read

end

theorem readAttributeTaken {test : AttributeTest} (holds : c.Holds x)
    (read : readAttribute c = .ok (test, c')) : test.From x ∧ c'.Within x := by
  have skipped := skipHolds holds
  obtain ⟨l, peek, read⟩ := bindOk read
  split at read
  · next bar =>
    obtain ⟨⟨name, c''⟩, readName, read⟩ := bindOk read
    obtain ⟨before, after⟩ := (delimTaken skipped peek bar (by decide)).holds
    obtain ⟨named, _, within⟩ := readIdentTaken after readName
    exact readOperatorTaken (by simp) (by simpa using named) within.holds read
  · obtain ⟨⟨first, c''⟩, readFirst, read⟩ := bindOk read
    obtain ⟨named, within⟩ := readIdentOrStarTaken skipped readFirst
    obtain ⟨bar, peekBar, read⟩ := bindOk read
    split at read
    · next shape =>
      have after := delimTaken within.holds peekBar shape (by decide)
      obtain ⟨l', peek', read⟩ := bindOk read
      split at read
      · next equals =>
        obtain ⟨⟨comparison, c'''⟩, readMore, read⟩ := bindOk read
        cases read
        have after := delimTaken after.holds peek' equals (by decide)
        exact comparisonTaken (by simp) named after.holds readMore
      · obtain ⟨⟨name, c'''⟩, readName, read⟩ := bindOk read
        obtain ⟨before, behind⟩ := after.holds
        obtain ⟨named', _, within'⟩ := readIdentTaken behind readName
        refine readOperatorTaken ?_ (by simpa using named') within'.holds read
        cases first with
        | none => simp
        | some space => simpa using .inl (named space rfl)
    · split at read
      · cases read
      · exact readOperatorTaken (by simp) named within.holds read

end SelectorRank
