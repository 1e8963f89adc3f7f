import SelectorRank.Grammar.Fault
import SelectorRank.Lexeme.Scan

/-! A place in a sequence of lexemes. A lexical fault counts only once the reader has come to it. -/
namespace SelectorRank

structure Cursor where
  passed : Option Shape
  rest : Lexemes
  deriving DecidableEq, Repr

namespace Cursor

def ofSource (source : List Char) : Cursor := ⟨none, lexemes source⟩

def peek (c : Cursor) : Except GrammarFault Lexeme :=
  match c.rest with
  | .stop start => .ok ⟨.stop, start⟩
  | .fault f => .error (.lexical f)
  | .next l _ => .ok l

def advance (c : Cursor) : Cursor :=
  match c.rest with
  | .next l rest => ⟨if l.shape = .blank then c.passed else some l.shape, rest⟩
  | _ => c

def afterBlanks : Lexemes → Lexemes
  | .next l rest => if l.shape = .blank then afterBlanks rest else .next l rest
  | last => last

def skipBlanks (c : Cursor) : Cursor := ⟨c.passed, afterBlanks c.rest⟩

def opensSelector (c : Cursor) : Bool := c.passed = none || c.passed = some (.delim ',')

end Cursor

abbrev Reading := Except GrammarFault

end SelectorRank
