import SelectorRank.Grammar.Cursor
import SelectorRank.Proofs.Lexeme.Scan

/-! Cursors by the text that is still to be read, wherever in the source that text stands. -/
namespace SelectorRank
namespace Cursor

def At (c : Cursor) (text : List Char) : Prop := ∃ start, c.rest = lexemesFrom 0 start text

def Takes (c : Cursor) (shape : Shape) (rest : List Char) : Prop :=
  ∃ start later, c.rest = .next ⟨shape, start⟩ (lexemesFrom 0 later rest)

structure Reaches (c c' : Cursor) (rest : List Char) : Prop where
  place : c'.At rest
  less : c'.rest.length < c.rest.length

variable {c c' c'' : Cursor} {shape : Shape} {front rest rest' : List Char}

theorem takes (place : c.At (front ++ rest)) (cut : Cut front shape rest) :
    c.Takes shape rest := by
  obtain ⟨start, same⟩ := place
  exact ⟨start, start + front.length, same.trans (cutLexemes cut start)⟩

theorem Takes.peek (takes : c.Takes shape rest) : ∃ start, c.peek = .ok ⟨shape, start⟩ := by
  obtain ⟨start, later, same⟩ := takes
  exact ⟨start, by simp [Cursor.peek, same]⟩

theorem Takes.reaches (takes : c.Takes shape rest) : c.Reaches c.advance rest := by
  obtain ⟨start, later, same⟩ := takes
  exact ⟨⟨later, by simp [advance, same]⟩, by simp [advance, same, Lexemes.length]⟩

theorem Takes.passed (takes : c.Takes shape rest) (visible : shape ≠ .blank) :
    c.advance.passed = some shape := by
  obtain ⟨start, later, same⟩ := takes
  simp [advance, same, visible]

theorem Takes.passedBlank (takes : c.Takes .blank rest) : c.advance.passed = c.passed := by
  obtain ⟨start, later, same⟩ := takes
  simp [advance, same]

theorem peekSkip {l : Lexeme} (peek : c.peek = .ok l) (visible : l.shape ≠ .blank) :
    c.skipBlanks = c := by
  obtain ⟨passed, lexemes⟩ := c
  cases lexemes with
  | stop start => rfl
  | fault f => rfl
  | next l' rest =>
    cases peek
    simp [skipBlanks, afterBlanks, visible]

theorem afterBlanksTwice (ls : Lexemes) : afterBlanks (afterBlanks ls) = afterBlanks ls := by
  induction ls with
  | stop start => rfl
  | fault f => rfl
  | next l rest ih =>
    by_cases blank : l.shape = .blank <;> simp [afterBlanks, blank, ih]

theorem skipBlanksTwice (c : Cursor) : c.skipBlanks.skipBlanks = c.skipBlanks := by
  simp [skipBlanks, afterBlanksTwice]

theorem Takes.skip (takes : c.Takes shape rest) (visible : shape ≠ .blank) :
    c.skipBlanks = c := by
  obtain ⟨start, peek⟩ := takes.peek
  exact peekSkip peek visible

theorem Takes.skipBlank (takes : c.Takes .blank rest) : c.skipBlanks = c.advance.skipBlanks := by
  obtain ⟨start, later, same⟩ := takes
  simp [skipBlanks, advance, same, afterBlanks]

theorem atEnd (place : c.At []) : (∃ start, c.peek = .ok ⟨.stop, start⟩) ∧ c.skipBlanks = c := by
  obtain ⟨start, same⟩ := place
  obtain ⟨passed, lexemes⟩ := c
  cases same
  exact ⟨⟨start, rfl⟩, rfl⟩

theorem Reaches.trans (left : c.Reaches c' rest) (right : c'.Reaches c'' rest') :
    c.Reaches c'' rest' :=
  ⟨right.place, Nat.lt_trans right.less left.less⟩

end Cursor

end SelectorRank
