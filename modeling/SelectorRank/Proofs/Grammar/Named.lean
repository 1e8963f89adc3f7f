import SelectorRank.Grammar.Selector
import SelectorRank.Proofs.Lexeme.Place
import SelectorRank.Proofs.Outcome

/-! Lexemes that faults name. The readers only go forward, so a fault that they end with names one
of the lexemes they were given, at the place where it stands in the source. -/
namespace SelectorRank

variable {α : Type} {all : Lexemes} {c : Cursor}

def GrammarFault.Within (all : Lexemes) : GrammarFault → Prop
  | .lexical f => all.Tail (.fault f)
  | .expected _ got => all.Has got
  | .pseudoElementInNegation _ start => ∃ shape, all.Has ⟨shape, start⟩
  | _ => True

/-- A reader comes to a place behind some of the lexemes, or fails at one of them. -/
abbrev Advances (all : Lexemes) (place : α → Cursor) : Reading α → Prop :=
  Yields (fun out => all.Tail (place out).rest) (GrammarFault.Within all)

theorem peekHas (left : all.Tail c.rest) : Yields all.Has (GrammarFault.Within all) c.peek := by
  unfold Cursor.peek
  split
  · next same => exact .stop (same ▸ left)
  · next same =>
    rw [same] at left
    exact left
  · next same => exact .next (same ▸ left)

theorem advanceLeft (left : all.Tail c.rest) : all.Tail c.advance.rest := by
  unfold Cursor.advance
  split
  · next same => exact .rest (same ▸ left)
  · exact left

theorem afterBlanksLeft {ls : Lexemes} (left : all.Tail ls) :
    all.Tail (Cursor.afterBlanks ls) := by
  induction ls with
  | stop start => exact left
  | fault f => exact left
  | next l rest ih =>
    rw [Cursor.afterBlanks]
    split
    · exact ih left.rest
    · exact left

theorem skipLeft (left : all.Tail c.rest) : all.Tail c.skipBlanks.rest := afterBlanksLeft left

theorem combinatorLeft (l : Lexeme) (left : all.Tail c.rest) :
    all.Tail (combinatorAt l c).2.rest := by
  unfold combinatorAt
  split
  · exact skipLeft (advanceLeft left)
  · exact left

/-! Flat pieces. -/

theorem readIdentAdvances (left : all.Tail c.rest) : Advances all (·.2) (readIdent c) := by
  refine (peekHas left).bind fun l given => ?_
  split
  · exact advanceLeft left
  · exact given

theorem readIdentOrStarAdvances (left : all.Tail c.rest) :
    Advances all (·.2) (readIdentOrStar c) := by
  refine (peekHas left).bind fun l given => ?_
  split
  · exact advanceLeft left
  · exact advanceLeft left
  · exact given

theorem readWordsAdvances (n : Nat) (left : all.Tail c.rest) :
    Advances all (·.2) (readWords n c) := by
  induction n generalizing c with
  | zero => exact (peekHas (skipLeft left)).bind fun l given => given
  | succ n ih =>
    refine (peekHas (skipLeft left)).bind fun l given => ?_
    have after := advanceLeft (skipLeft left)
    split
    · exact (ih after).bind fun _ left => left
    · split
      · exact after
      · exact given

theorem readFlagAdvances (left : all.Tail c.rest) : Advances all (·.2) (readFlag c) := by
  refine (peekHas (skipLeft left)).bind fun l given => ?_
  have after := advanceLeft (skipLeft left)
  split
  · exact after
  · split
    · split
      · refine (peekHas (skipLeft after)).bind fun close given => ?_
        split
        · exact advanceLeft (skipLeft after)
        · exact given
      · exact given
    · exact given
  · exact given

theorem readComparisonAdvances (operator : String) (left : all.Tail c.rest) :
    Advances all (·.2) (readComparison operator c) := by
  refine (peekHas (skipLeft left)).bind fun l given => ?_
  have after := advanceLeft (skipLeft left)
  split
  · exact (readFlagAdvances after).bind fun _ left => left
  · exact (readFlagAdvances after).bind fun _ left => left
  · exact given

theorem readOperatorAdvances (space name : Option String) (left : all.Tail c.rest) :
    Advances all (·.2) (readOperator space name c) := by
  refine (peekHas (skipLeft left)).bind fun l given => ?_
  have after := advanceLeft (skipLeft left)
  split
  · exact after
  · exact (readComparisonAdvances "=" after).bind fun _ left => left
  · split
    · refine (peekHas after).bind fun equals _ => ?_
      split
      · exact (readComparisonAdvances _ (advanceLeft after)).bind fun _ left => left
      · exact given
    · exact given
  · exact given

theorem readAttributeAdvances (left : all.Tail c.rest) : Advances all (·.2) (readAttribute c) := by
  have skipped := skipLeft left
  refine (peekHas skipped).bind fun l _ => ?_
  split
  · exact (readIdentAdvances (advanceLeft skipped)).bind fun _ left => readOperatorAdvances _ _ left
  · refine (readIdentOrStarAdvances skipped).bind fun _ left => ?_
    refine (peekHas left).bind fun bar given => ?_
    split
    · have after := advanceLeft left
      refine (peekHas after).bind fun _ _ => ?_
      split
      · exact (readComparisonAdvances "|=" (advanceLeft after)).bind fun _ left => left
      · exact (readIdentAdvances after).bind fun _ left => readOperatorAdvances _ _ left
    · split
      · exact given
      · exact readOperatorAdvances _ _ left

theorem readElementAdvances (left : all.Tail c.rest) : Advances all (·.2) (readElement c) := by
  refine (peekHas left).bind fun l _ => ?_
  have after := advanceLeft left
  dsimp only
  split
  · exact left
  · refine (peekHas after).bind fun bar _ => ?_
    split
    · exact (readIdentOrStarAdvances (advanceLeft after)).bind fun _ left => left
    · exact after

/-! All readers, with a bound on their calls. Whatever they call has a smaller bound, so what holds
of all readers together goes from one bound to the next. -/

structure AllRead (all : Lexemes) (n : Nat) : Prop where
  compound {c : Cursor} (around : Surrounding) :
    all.Tail c.rest → Advances all (·.2.2) (readCompound n around c)
  parts {c : Cursor} (around : Surrounding) (opens started : Bool) (compound : Compound)
    (last : Option PseudoElement) :
    all.Tail c.rest → Advances all (·.2.2) (readParts n around opens started compound last c)
  colon {c : Cursor} (around : Surrounding) (opens : Bool) :
    all.Tail c.rest → Advances all (·.2) (readColon n around opens c)
  function {c : Cursor} (around : Surrounding) (name : String) :
    all.Tail c.rest → Advances all (·.2) (readFunction n around name c)
  negation {c : Cursor} (body : Complex) (last : Option PseudoElement) :
    all.Tail c.rest → Advances all (·.2) (readNegation n body last c)
  relation {c : Cursor} : all.Tail c.rest → Advances all (·.2) (readRelation n c)
  argument {c : Cursor} (argument : Complex) (last : Option PseudoElement) :
    all.Tail c.rest → Advances all (·.2) (readArgument n argument last c)
  options {c : Cursor} : all.Tail c.rest → Advances all (·.2) (readOptions n c)

section
variable {n : Nat} (read : AllRead all n)
include read

theorem compoundAdvances (around : Surrounding) (left : all.Tail c.rest) :
    Advances all (·.2.2) (readCompound (n + 1) around c) := by
  rw [readCompound]
  refine (readElementAdvances (skipLeft left)).bind fun (element, c') left => ?_
  cases element with
  | some compound => exact read.parts _ _ _ _ _ left
  | none => exact read.parts _ _ _ _ _ left

theorem partsAdvances (around : Surrounding) (opens started : Bool) (compound : Compound)
    (last : Option PseudoElement) (left : all.Tail c.rest) :
    Advances all (·.2.2) (readParts (n + 1) around opens started compound last c) := by
  rw [readParts]
  refine (peekHas left).bind fun l given => ?_
  have after := advanceLeft left
  dsimp only
  split
  · split
    · exact left
    · exact given
  split
  · trivial
  split
  · exact read.parts _ _ _ _ _ after
  · exact (readIdentAdvances after).bind fun _ left => read.parts _ _ _ _ _ left
  · split
    · exact given
    · exact (readIdentOrStarAdvances after).bind fun _ left => read.parts _ _ _ _ _ left
  · exact (readAttributeAdvances after).bind fun _ left => read.parts _ _ _ _ _ left
  · refine (read.colon around opens after).bind fun (colon, c') left => ?_
    cases colon with
    | part part => exact read.parts _ _ _ _ _ left
    | pseudoElement e => exact read.parts _ _ _ _ _ left
  · exact given

theorem colonAdvances (around : Surrounding) (opens : Bool) (left : all.Tail c.rest) :
    Advances all (·.2) (readColon (n + 1) around opens c) := by
  rw [readColon]
  refine (peekHas left).bind fun l _ => ?_
  dsimp only
  split
  · refine (readIdentAdvances (advanceLeft left)).bind fun _ left => ?_
    refine (peekHas left).bind fun bracket _ => ?_
    split
    · exact (readWordsAdvances n (advanceLeft left)).bind fun _ left => left
    · exact left
  · refine (readIdentAdvances left).bind fun _ left => ?_
    split
    · exact left
    refine (peekHas left).bind fun bracket _ => ?_
    split
    · exact (read.function around _ (advanceLeft left)).bind fun _ left => left
    split
    · trivial
    · exact left

theorem functionAdvances (around : Surrounding) (name : String) (left : all.Tail c.rest) :
    Advances all (·.2) (readFunction (n + 1) around name c) := by
  rw [readFunction]
  have skipped := skipLeft left
  refine (peekHas skipped).bind fun l _ => ?_
  dsimp only
  split
  · split
    · trivial
    · trivial
    · refine (read.compound .negation skipped).bind fun _ left => ?_
      exact (read.negation _ _ left).bind fun _ left => left
  split
  · exact (read.relation skipped).bind fun _ left => left
  split
  · exact (read.options skipped).bind fun _ left => left
  split
  · exact (read.options skipped).bind fun _ left => left
  · exact (readWordsAdvances n skipped).bind fun _ left => left

theorem negationAdvances (body : Complex) (last : Option PseudoElement) (left : all.Tail c.rest) :
    Advances all (·.2) (readNegation (n + 1) body last c) := by
  rw [readNegation]
  have skipped := skipLeft left
  refine (peekHas skipped).bind fun l given => ?_
  dsimp only
  split
  · exact ⟨l.shape, given⟩
  split
  · exact advanceLeft skipped
  split
  · exact given
  · refine (read.compound .negation (combinatorLeft l skipped)).bind fun _ left => ?_
    exact read.negation _ _ left

theorem relationAdvances (left : all.Tail c.rest) :
    Advances all (·.2) (readRelation (n + 1) c) := by
  rw [readRelation]
  have skipped := skipLeft left
  refine (peekHas skipped).bind fun l _ => ?_
  refine (read.compound .free (combinatorLeft l skipped)).bind fun _ left => ?_
  refine (read.argument _ _ left).bind fun _ left => ?_
  refine (peekHas left).bind fun comma _ => ?_
  split
  · exact (read.relation (advanceLeft left)).bind fun _ left => left
  · exact advanceLeft left

theorem argumentAdvances (argument : Complex) (last : Option PseudoElement)
    (left : all.Tail c.rest) : Advances all (·.2) (readArgument (n + 1) argument last c) := by
  cases last with
  | some e => trivial
  | none =>
  rw [readArgument]
  have skipped := skipLeft left
  refine (peekHas skipped).bind fun l given => ?_
  dsimp only
  split
  · exact skipped
  split
  · exact given
  · refine (read.compound .free (combinatorLeft l skipped)).bind fun _ left => ?_
    exact read.argument _ _ left

theorem optionsAdvances (left : all.Tail c.rest) : Advances all (·.2) (readOptions (n + 1) c) := by
  rw [readOptions]
  refine (read.compound .options left).bind fun (first, last, c') left => ?_
  dsimp only
  split
  · trivial
  have skipped := skipLeft left
  refine (peekHas skipped).bind fun l given => ?_
  split
  · exact (read.options (skipLeft (advanceLeft skipped))).bind fun _ left => left
  split
  · exact advanceLeft skipped
  · exact given

end

theorem allReadNone (all : Lexemes) : AllRead all 0 where
  compound around left := by
    rw [readCompound]
    refine (readElementAdvances (skipLeft left)).bind fun _ left => ?_
    exact (peekHas left).bind fun _ given => given
  parts around opens started compound last left := by
    rw [readParts]
    exact (peekHas left).bind fun _ given => given
  colon around opens left := by
    rw [readColon]
    exact (peekHas left).bind fun _ given => given
  function around name left := by
    rw [readFunction]
    exact (peekHas (skipLeft left)).bind fun _ given => given
  negation body last left := by
    rw [readNegation]
    exact (peekHas (skipLeft left)).bind fun _ given => given
  relation left := by
    rw [readRelation]
    exact (peekHas (skipLeft left)).bind fun _ given => given
  argument argument last left := by
    cases last with
    | some e => trivial
    | none =>
      rw [readArgument]
      exact (peekHas (skipLeft left)).bind fun _ given => given
  options left := by
    rw [readOptions]
    exact (peekHas left).bind fun _ given => given

theorem allRead (all : Lexemes) (n : Nat) : AllRead all n := by
  induction n with
  | zero => exact allReadNone all
  | succ n ih =>
    exact ⟨compoundAdvances ih, partsAdvances ih, colonAdvances ih, functionAdvances ih,
      negationAdvances ih, relationAdvances ih, argumentAdvances ih, optionsAdvances ih⟩

/-! Lists. -/

theorem readWrittenAdvances (n : Nat) (selector : Complex) (last : Option PseudoElement)
    (left : all.Tail c.rest) : Advances all (·.2) (readWritten n selector last c) := by
  induction n generalizing selector last c with
  | zero => exact (peekHas (skipLeft left)).bind fun _ given => given
  | succ n ih =>
    have skipped := skipLeft left
    refine (peekHas skipped).bind fun l _ => ?_
    dsimp only
    split
    · exact skipped
    split
    · trivial
    · refine ((allRead all n).compound .free (combinatorLeft l skipped)).bind fun _ left => ?_
      exact ih _ _ left

theorem readListAdvances (n : Nat) (left : all.Tail c.rest) :
    Yields (fun _ => True) (GrammarFault.Within all) (readList n c) := by
  induction n generalizing c with
  | zero => exact (peekHas left).bind fun _ given => given
  | succ n ih =>
    refine ((allRead all n).compound .free left).bind fun _ left => ?_
    refine (readWrittenAdvances n _ _ left).bind fun _ left => ?_
    refine (peekHas left).bind fun l _ => ?_
    split
    · exact (ih (skipLeft (advanceLeft left))).bind fun _ _ => trivial
    · trivial

theorem readSourceWithin {source : List Char} {f : GrammarFault}
    (rejects : readSource source = .error f) : f.Within (lexemes source) := by
  have reads : Yields (fun _ => True) (GrammarFault.Within (lexemes source)) (readSource source) :=
    readListAdvances (callBound (Cursor.ofSource source)) .whole
  rwa [rejects] at reads

end SelectorRank
