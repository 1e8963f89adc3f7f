import Mathlib.Algebra.GroupWithZero.Nat
import SelectorRank.Grammar.Selector
import SelectorRank.Proofs.Outcome

/-! A tally over lexemes outside of all brackets. What the readers take is closed again, and what
they build weighs as much as the lexemes taken outside of brackets, so a source that is read weighs
as much as the list it is read as. -/
namespace SelectorRank

/-! Weights of names and marks. Words and marks that the readers drop weigh nothing. -/

def keywords : List String := ["not", "has", "is", "matches", "where"]

def grammarMarks : List Char := ['*', '|', '.', '[', ']', ':', '(', ')', ',', '+', '>', '~']

structure Weight where
  name : String → Nat
  shape : Shape → Nat
  ident (n : String) : shape (.ident n) = name n
  hash (n : String) : shape (.hash n) = name n
  blank : shape .blank = 0
  stop : shape .stop = 0
  star : name "*" = 0
  lowered (n : String) : name (lowered n) = name n
  keyword {n : String} : n ∈ keywords → name n = 0
  mark {d : Char} : d ∈ grammarMarks → shape (.delim d) = 0

def Weight.none : Weight :=
  ⟨fun _ => 0, fun _ => 0, fun _ => rfl, fun _ => rfl, rfl, rfl, rfl, fun _ => rfl, fun _ => rfl,
    fun _ => rfl⟩

/-- Counts open backslashes. -/
def markWeight : Weight where
  name _ := 0
  shape shape := if shape = .delim '\\' then 1 else 0
  ident _ := rfl
  hash _ := rfl
  blank := rfl
  stop := rfl
  star := rfl
  lowered _ := rfl
  keyword _ := rfl
  mark {d} := (by decide : ∀ d ∈ grammarMarks, (if Shape.delim d = .delim '\\' then 1 else 0) = 0) d

/-- What counts inside of so many brackets. -/
def Weight.at (w : Weight) : Nat → Weight
  | 0 => w
  | _ + 1 => .none

def Shape.depth (d : Nat) : Shape → Nat
  | .delim c => if c = '(' || c = '[' then d + 1 else if c = ')' || c = ']' then d - 1 else d
  | _ => d

namespace Lexemes

def tally (w : Weight) : Nat → Lexemes → Nat
  | d, .next l rest => (w.at d).shape l.shape + rest.tally w (l.shape.depth d)
  | _, _ => 0

def depth : Nat → Lexemes → Nat
  | d, .next l rest => rest.depth (l.shape.depth d)
  | d, _ => d

def Whole : Lexemes → Prop
  | .next l rest => l.shape ≠ .stop ∧ rest.Whole
  | _ => True

end Lexemes

variable {α : Type} {w : Weight} {d d' d'' m m' : Nat} {c c' c'' : Cursor}

/-- What is passed between two places weighs so much. -/
structure Spends (w : Weight) (d d' m : Nat) (c c' : Cursor) : Prop where
  tally : c.rest.tally w d = m + c'.rest.tally w d'
  depth : c.rest.depth d = c'.rest.depth d'
  whole : c.rest.Whole → c'.rest.Whole

theorem Spends.rfl : Spends w d d 0 c c := ⟨(Nat.zero_add _).symm, Eq.refl _, id⟩

theorem Spends.trans (first : Spends w d d' m c c') (second : Spends w d' d'' m' c' c'') :
    Spends w d d'' (m + m') c c'' where
  tally := by rw [first.tally, second.tally, Nat.add_assoc]
  depth := first.depth.trans second.depth
  whole := second.whole ∘ first.whole

theorem Spends.of (spends : Spends w d d' m c c') (same : m = m') : Spends w d d' m' c c' :=
  same ▸ spends

theorem afterBlanksTally (ls : Lexemes) (d : Nat) :
    (Cursor.afterBlanks ls).tally w d = ls.tally w d ∧
      (Cursor.afterBlanks ls).depth d = ls.depth d ∧
      (ls.Whole → (Cursor.afterBlanks ls).Whole) := by
  induction ls with
  | stop start => exact ⟨rfl, rfl, id⟩
  | fault f => exact ⟨rfl, rfl, id⟩
  | next l rest ih =>
    rw [Cursor.afterBlanks]
    split
    · next blank =>
      have same : l.shape.depth d = d := by rw [blank]; rfl
      rw [Lexemes.tally, Lexemes.depth, blank, (w.at d).blank, Nat.zero_add]
      exact ⟨ih.1, ih.2.1, fun whole => ih.2.2 whole.2⟩
    · exact ⟨rfl, rfl, id⟩

theorem skipSpends : Spends w d d 0 c c.skipBlanks := by
  obtain ⟨tally, depth, whole⟩ := afterBlanksTally (w := w) c.rest d
  exact ⟨by rw [Nat.zero_add]; exact tally.symm, depth.symm, whole⟩

/-- The lexeme at a place weighs what passing it costs. -/
structure Shows (w : Weight) (c : Cursor) (l : Lexeme) : Prop where
  peek : c.peek = .ok l
  passes (d : Nat) : Spends w d (l.shape.depth d) ((w.at d).shape l.shape) c c.advance
  ends : l.shape = .stop → c.rest.Whole → ∃ start, c.rest = .stop start

abbrev Gives (post : α → Prop) : Reading α → Prop := Yields post fun _ => True

theorem peekShows (w : Weight) : Gives (Shows w c) c.peek := by
  rcases same : c.rest with start | f | ⟨l, rest⟩
  · have peek : c.peek = .ok ⟨.stop, start⟩ := by simp [Cursor.peek, same]
    rw [peek]
    refine ⟨peek, fun d => ?_, fun _ _ => ⟨start, same⟩⟩
    have still : c.advance = c := by simp [Cursor.advance, same]
    rw [still, (w.at d).stop]
    exact .rfl
  · simp [Cursor.peek, same, Yields]
  · have peek : c.peek = .ok l := by simp [Cursor.peek, same]
    have after : c.advance.rest = rest := by simp [Cursor.advance, same]
    rw [peek]
    refine ⟨peek, fun d => ⟨?_, ?_, ?_⟩, fun stop whole => ?_⟩
    · rw [after, same, Lexemes.tally]
    · rw [after, same, Lexemes.depth]
    · rw [after, same]
      exact fun whole => whole.2
    · rw [same] at whole
      exact absurd stop whole.1

section
variable {l : Lexeme} (shows : Shows w c l)
include shows

theorem Shows.flat {e : Char} (mark : l.shape = .delim e) (free : (w.at d).shape (.delim e) = 0)
    (flat : e ∉ ['(', '[', ')', ']']) : Spends w d d 0 c c.advance := by
  have passes := shows.passes d
  simp only [List.mem_cons, List.not_mem_nil, or_false, not_or] at flat
  rwa [mark, free, Shape.depth, if_neg (by simp [flat]), if_neg (by simp [flat])] at passes

theorem Shows.opens {e : Char} (mark : l.shape = .delim e) (opens : e ∈ ['(', '[']) :
    Spends w d (d + 1) 0 c c.advance := by
  have passes := shows.passes d
  have known : ∀ e ∈ ['(', '['], e ∈ grammarMarks ∧ (e = '(' || e = '[') = true := by decide
  obtain ⟨grammar, bracket⟩ := known e opens
  rwa [mark, (w.at d).mark grammar, Shape.depth, if_pos bracket] at passes

theorem Shows.closes {e : Char} (mark : l.shape = .delim e) (closes : e ∈ [')', ']']) :
    Spends w (d + 1) d 0 c c.advance := by
  have passes := shows.passes (d + 1)
  have known : ∀ e ∈ [')', ']'], e ∈ grammarMarks ∧ (e = '(' || e = '[') = false ∧
      (e = ')' || e = ']') = true := by decide
  obtain ⟨grammar, other, bracket⟩ := known e closes
  rwa [mark, (w.at (d + 1)).mark grammar, Shape.depth, other, if_neg Bool.false_ne_true,
    if_pos bracket, Nat.add_sub_cancel] at passes

theorem Shows.named {name : String} (ident : l.shape = .ident name) :
    Spends w d d ((w.at d).name name) c c.advance := by
  have passes := shows.passes d
  rwa [ident, (w.at d).ident] at passes

theorem Shows.inner (still : l.shape.depth (d + 1) = d + 1) :
    Spends w (d + 1) (d + 1) 0 c c.advance := by
  have passes := shows.passes (d + 1)
  rwa [still] at passes

end

/-! Weights of what is built. Bodies of functions stand between brackets. -/

def Weight.side (x : Weight) (side : Option String) : Nat := side.elim 0 x.name

def Part.weight (x : Weight) : Part → Nat
  | .id name => x.name name
  | .className name => x.name name
  | .pseudo name => x.name name
  | .function name _ => x.name name
  | _ => 0

def Compound.weight (x : Weight) : Compound → Nat
  | .element space name => x.side space + x.side name
  | .qualified base part => base.weight x + part.weight x

def Complex.weight (x : Weight) : Complex → Nat
  | .compound c => c.weight x
  | .combined left _ right => left.weight x + right.weight x

def PseudoElement.weight (x : Weight) : PseudoElement → Nat
  | .plain name => x.name name
  | .functional name _ => x.name name

def Weight.last (x : Weight) (last : Option PseudoElement) : Nat := last.elim 0 (·.weight x)

def Written.weight (x : Weight) (written : Written) : Nat :=
  written.selector.weight x + x.last written.pseudoElement

def Colon.weight (x : Weight) : Colon → Nat
  | .part p => p.weight x
  | .pseudoElement e => e.weight x

theorem weightNone (c : Compound) (last : Option PseudoElement) :
    c.weight .none + Weight.none.last last = 0 := by
  have compound : c.weight .none = 0 := by
    induction c using Compound.weight.induct with
    | case1 space name => cases space <;> cases name <;> rfl
    | case2 base part ih =>
      rw [Compound.weight, ih]
      cases part <;> rfl
  rw [compound]
  cases last with
  | none => rfl
  | some e => cases e <;> rfl

/-! Flat pieces. -/

theorem readIdentSpends (w : Weight) :
    Gives (fun out => ∀ d, Spends w d d ((w.at d).name out.1) c out.2) (readIdent c) := by
  refine (peekShows w).bind fun l shows => ?_
  split
  · next name shape => exact fun d => shows.named shape
  · trivial

theorem readIdentOrStarSpends (w : Weight) :
    Gives (fun out => ∀ d, Spends w d d ((w.at d).side out.1) c out.2) (readIdentOrStar c) := by
  refine (peekShows w).bind fun l shows => ?_
  split
  · next name shape => exact fun d => shows.named shape
  · next shape => exact fun d => shows.flat shape ((w.at d).mark (by decide)) (by decide)
  · trivial

theorem wordStill {shape : Shape} {word : Word} (given : shape.word? = some word) :
    shape.depth d = d := by
  unfold Shape.word? at given
  split at given <;> first | rfl | cases given

theorem readWordsSpends (w : Weight) (n : Nat) :
    Gives (fun out => ∀ d, Spends w (d + 1) d 0 c out.2) (readWords n c) := by
  induction n generalizing c with
  | zero => exact (peekShows w).bind fun _ _ => trivial
  | succ n ih =>
    refine (peekShows w).bind fun l shows => ?_
    split
    · next word given =>
      refine ih.bind fun (words, c') spends d => ?_
      exact (skipSpends.trans (shows.inner (wordStill given))).trans (spends d)
    · split
      · next close => exact fun d => skipSpends.trans (shows.closes close (by decide))
      · trivial

theorem readFlagSpends (w : Weight) :
    Gives (fun out => ∀ d, Spends w (d + 1) d 0 c out.2) (readFlag c) := by
  refine (peekShows w).bind fun l shows => ?_
  split
  · next close => exact fun d => skipSpends.trans (shows.closes close (by decide))
  · next name shape =>
    split
    · split
      · refine (peekShows w).bind fun close shows' => ?_
        split
        · next bracket =>
          intro d
          have first := skipSpends.trans (shows.inner (d := d) (by rw [shape]; rfl))
          exact (first.trans skipSpends).trans (shows'.closes bracket (by decide))
        · trivial
      · trivial
    · trivial
  · trivial

theorem readComparisonSpends (w : Weight) (operator : String) :
    Gives (fun out => ∀ d, Spends w (d + 1) d 0 c out.2) (readComparison operator c) := by
  refine (peekShows w).bind fun l shows => ?_
  split
  · next value shape =>
    refine (readFlagSpends w).bind fun (flag, c') spends d => ?_
    exact (skipSpends.trans (shows.inner (by rw [shape]; rfl))).trans (spends d)
  · next value shape =>
    refine (readFlagSpends w).bind fun (flag, c') spends d => ?_
    exact (skipSpends.trans (shows.inner (by rw [shape]; rfl))).trans (spends d)
  · trivial

theorem readOperatorSpends (w : Weight) (space name : Option String) :
    Gives (fun out => ∀ d, Spends w (d + 1) d 0 c out.2) (readOperator space name c) := by
  refine (peekShows w).bind fun l shows => ?_
  split
  · next close => exact fun d => skipSpends.trans (shows.closes close (by decide))
  · next shape =>
    refine (readComparisonSpends w "=").bind fun (test, c') spends d => ?_
    exact (skipSpends.trans (shows.inner (by rw [shape]; rfl))).trans (spends d)
  · next mark shape =>
    split
    · next operator =>
      have still (d : Nat) : l.shape.depth d = d := by
        rw [shape]
        simp only [Bool.or_eq_true, decide_eq_true_eq, or_assoc] at operator
        rcases operator with rfl | rfl | rfl | rfl | rfl | rfl <;> rfl
      refine (peekShows w).bind fun equals shows' => ?_
      split
      · next sign =>
        refine (readComparisonSpends w _).bind fun (test, c') spends d => ?_
        have first := skipSpends.trans (shows.inner (d := d) (still _))
        exact (first.trans (shows'.inner (by rw [sign]; rfl))).trans (spends d)
      · trivial
    · trivial
  · trivial

theorem readAttributeSpends (w : Weight) :
    Gives (fun out => ∀ d, Spends w (d + 1) d 0 c out.2) (readAttribute c) := by
  refine (peekShows w).bind fun l shows => ?_
  split
  · next bar =>
    refine (readIdentSpends w).bind fun (name, c') named => ?_
    refine (readOperatorSpends w none (some name)).imp fun out spends d => ?_
    have first := skipSpends.trans (shows.inner (d := d) (by rw [bar]; rfl))
    exact (first.trans (named (d + 1))).trans (spends d)
  · refine (readIdentOrStarSpends w).bind fun (name, c') named => ?_
    have before (d : Nat) : Spends w (d + 1) (d + 1) 0 c c' :=
      (skipSpends.trans (named (d + 1))).of (by cases name <;> rfl)
    refine (peekShows w).bind fun bar shows' => ?_
    split
    · next sign =>
      have bar (d : Nat) := (before d).trans (shows'.inner (by rw [sign]; rfl))
      refine (peekShows w).bind fun after shows'' => ?_
      split
      · next sign =>
        refine (readComparisonSpends w "|=").bind fun (test, c'') spends d => ?_
        exact ((bar d).trans (shows''.inner (by rw [sign]; rfl))).trans (spends d)
      · refine (readIdentSpends w).bind fun (inner, c'') named => ?_
        refine (readOperatorSpends w _ (some inner)).imp fun out spends d => ?_
        exact ((bar d).trans (named (d + 1))).trans (spends d)
    · split
      · trivial
      · exact (readOperatorSpends w none name).imp fun out spends d => (before d).trans (spends d)

theorem readElementSpends (w : Weight) :
    Gives (fun out => ∀ d, Spends w d d (out.1.elim 0 (·.weight (w.at d))) c out.2)
      (readElement c) := by
  refine (peekShows w).bind fun l shows => ?_
  dsimp only
  split
  · exact fun d => .rfl
  · next first found =>
    have before (d : Nat) : Spends w d d ((w.at d).name first) c c.advance := by
      split at found
      · next name shape =>
        cases found
        exact shows.named shape
      · next shape =>
        cases found
        exact (shows.flat shape ((w.at d).mark (by decide)) (by decide)).of (w.at d).star.symm
      · cases found
    refine (peekShows w).bind fun bar shows' => ?_
    split
    · next sign =>
      refine (readIdentOrStarSpends w).bind fun (name, c') named d => ?_
      have bar := (before d).trans (shows'.flat sign ((w.at d).mark (by decide)) (by decide))
      exact bar.trans (named d)
    · refine fun d => (before d).of ?_
      dsimp only
      split
      · next star =>
        rw [star, (w.at d).star]
        rfl
      · exact (Nat.zero_add _).symm

/-! All readers, with a bound on their calls. -/

def PartsSpend (w : Weight) (compound : Compound) (last : Option PseudoElement) (c : Cursor)
    (out : Compound × Option PseudoElement × Cursor) : Prop :=
  ∀ d, ∃ m, out.1.weight (w.at d) + (w.at d).last out.2.1 =
    compound.weight (w.at d) + (w.at d).last last + m ∧ Spends w d d m c out.2.2

structure AllSpend (w : Weight) (n : Nat) : Prop where
  compound {c : Cursor} (around : Surrounding) :
    Gives (fun out => ∀ d, Spends w d d (out.1.weight (w.at d) + (w.at d).last out.2.1) c out.2.2)
      (readCompound n around c)
  parts {c : Cursor} (around : Surrounding) (opens started : Bool) {compound : Compound}
    (last : Option PseudoElement) : (started = false → compound = .element none none) →
    Gives (PartsSpend w compound last c) (readParts n around opens started compound last c)
  colon {c : Cursor} (around : Surrounding) (opens : Bool) :
    Gives (fun out => ∀ d, Spends w d d (out.1.weight (w.at d)) c out.2)
      (readColon n around opens c)
  function {c : Cursor} (around : Surrounding) (name : String) :
    Gives (fun out => ∀ d, out.1.weight (w.at d) = (w.at d).name name ∧
      Spends w (d + 1) d 0 c out.2) (readFunction n around name c)
  negation {c : Cursor} (body : Complex) (last : Option PseudoElement) :
    Gives (fun out => ∀ d, Spends w (d + 1) d 0 c out.2) (readNegation n body last c)
  relation {c : Cursor} :
    Gives (fun out => ∀ d, Spends w (d + 1) d 0 c out.2) (readRelation n c)
  argument {c : Cursor} (argument : Complex) (last : Option PseudoElement) :
    Gives (fun out => (∀ d, Spends w (d + 1) (d + 1) 0 c out.2) ∧
      ∃ l, out.2.peek = .ok l ∧ (l.shape = .delim ',' ∨ l.shape = .delim ')'))
      (readArgument n argument last c)
  options {c : Cursor} :
    Gives (fun out => ∀ d, Spends w (d + 1) d 0 c out.2) (readOptions n c)

theorem Spends.hidden {compound : Compound} {last : Option PseudoElement}
    (spends : Spends w (d + 1) (d + 1)
      (compound.weight (w.at (d + 1)) + (w.at (d + 1)).last last) c c') :
    Spends w (d + 1) (d + 1) 0 c c' :=
  spends.of (weightNone compound last)

theorem combinatorSpends {l : Lexeme} (shows : Shows w c l) :
    Spends w d d 0 c (combinatorAt l c).2 := by
  unfold combinatorAt
  split
  · next combinator found =>
    have flat : Spends w d d 0 c c.advance := by
      unfold Shape.combinator? at found
      split at found
      · next shape => exact shows.flat shape ((w.at d).mark (by decide)) (by decide)
      · next shape => exact shows.flat shape ((w.at d).mark (by decide)) (by decide)
      · next shape => exact shows.flat shape ((w.at d).mark (by decide)) (by decide)
      · cases found
    exact flat.trans skipSpends
  · exact .rfl

section
variable {n : Nat} (read : AllSpend w n)
include read

theorem compoundSpends (around : Surrounding) :
    Gives (fun out => ∀ d, Spends w d d (out.1.weight (w.at d) + (w.at d).last out.2.1) c out.2.2)
      (readCompound (n + 1) around c) := by
  rw [readCompound]
  refine (readElementSpends w).bind fun (element, c') before => ?_
  cases element with
  | some compound =>
    refine (read.parts _ _ true none nofun).imp fun out spends d => ?_
    obtain ⟨m, total, spends⟩ := spends d
    exact (skipSpends.trans ((before d).trans spends)).of (by rw [total, Nat.zero_add]; rfl)
  | none =>
    refine (read.parts _ _ false none fun _ => rfl).imp fun out spends d => ?_
    obtain ⟨m, total, spends⟩ := spends d
    exact (skipSpends.trans ((before d).trans spends)).of (by rw [total, Nat.zero_add]; rfl)

theorem partsNext (around : Surrounding) (opens : Bool) {compound compound' : Compound}
    {last : Option PseudoElement} {c' : Cursor}
    (grown : ∀ d, ∃ m, compound'.weight (w.at d) + (w.at d).last last =
      compound.weight (w.at d) + m ∧ Spends w d d m c c') :
    Gives (PartsSpend w compound none c) (readParts n around opens true compound' last c') := by
  refine (read.parts around opens true last nofun).imp fun out spends d => ?_
  obtain ⟨m, heavier, before⟩ := grown d
  obtain ⟨m', total, after⟩ := spends d
  exact ⟨m + m', by rw [total, heavier, Nat.add_assoc]; rfl, before.trans after⟩

theorem partsSpends (around : Surrounding) (opens started : Bool) {compound : Compound}
    (last : Option PseudoElement) (fresh : started = false → compound = .element none none) :
    Gives (PartsSpend w compound last c)
      (readParts (n + 1) around opens started compound last c) := by
  rw [readParts]
  refine (peekShows w).bind fun l shows => ?_
  dsimp only
  split
  · split
    · exact fun d => ⟨0, rfl, .rfl⟩
    · trivial
  cases last with
  | some e => trivial
  | none =>
  have free {e : Char} (mark : l.shape = .delim e) (grammar : e ∈ ['.', '|', ':']) (d : Nat) :
      Spends w d d 0 c c.advance := by
    have known : ∀ e ∈ ['.', '|', ':'], e ∈ grammarMarks ∧ e ∉ ['(', '[', ')', ']'] := by decide
    exact shows.flat mark ((w.at d).mark (known e grammar).1) (known e grammar).2
  dsimp only
  split
  · next name shape =>
    refine partsNext read around opens fun d => ⟨_, rfl, ?_⟩
    have passes := shows.passes d
    rw [shape, (w.at d).hash] at passes
    exact passes
  · next point =>
    refine (readIdentSpends w).bind fun (name, c') named => ?_
    exact partsNext read around opens fun d =>
      ⟨_, rfl, ((free point (by decide) d).trans (named d)).of (Nat.zero_add _)⟩
  · next bar =>
    split
    · trivial
    · next first =>
      obtain rfl := fresh (by simpa using first)
      refine (readIdentOrStarSpends w).bind fun (name, c') named => ?_
      refine partsNext read around opens fun d => ⟨(w.at d).side name, rfl, ?_⟩
      exact ((free bar (by decide) d).trans (named d)).of (Nat.zero_add _)
  · next bracket =>
    refine (readAttributeSpends w).bind fun (test, c') spends => ?_
    exact partsNext read around opens fun d =>
      ⟨0, rfl, (shows.opens bracket (by decide)).trans (spends d)⟩
  · next colon =>
    refine (read.colon around opens).bind fun (built, c') spends => ?_
    have before (d : Nat) := (free colon (by decide) d).trans (spends d)
    cases built with
    | part part =>
      exact partsNext read around opens fun d => ⟨_, rfl, (before d).of (Nat.zero_add _)⟩
    | pseudoElement e =>
      exact partsNext read around opens fun d => ⟨_, rfl, (before d).of (Nat.zero_add _)⟩
  · trivial

theorem colonSpends (around : Surrounding) (opens : Bool) :
    Gives (fun out => ∀ d, Spends w d d (out.1.weight (w.at d)) c out.2)
      (readColon (n + 1) around opens c) := by
  rw [readColon]
  refine (peekShows w).bind fun l shows => ?_
  dsimp only
  split
  · next colon =>
    refine (readIdentSpends w).bind fun (name, c') named => ?_
    have before (d : Nat) : Spends w d d ((w.at d).name name) c c' :=
      ((shows.flat colon ((w.at d).mark (by decide)) (by decide)).trans (named d)).of
        (Nat.zero_add _)
    refine (peekShows w).bind fun bracket shows' => ?_
    split
    · next paren =>
      refine (readWordsSpends w n).bind fun (words, c'') spends d => ?_
      refine (((before d).trans (shows'.opens paren (by decide))).trans (spends d)).of ?_
      exact ((w.at d).lowered name).symm
    · exact before
  · refine (readIdentSpends w).bind fun (name, c') named => ?_
    dsimp only
    split
    · exact named
    refine (peekShows w).bind fun bracket shows' => ?_
    split
    · next paren =>
      refine (read.function around _).bind fun (part, c'') spends d => ?_
      obtain ⟨weight, spends⟩ := spends d
      refine (((named d).trans (shows'.opens paren (by decide))).trans spends).of ?_
      exact (weight.trans ((w.at d).lowered name)).symm
    split
    · trivial
    · exact fun d => (named d).of ((w.at d).lowered name).symm

theorem functionSpends (around : Surrounding) (name : String) :
    Gives (fun out => ∀ d, out.1.weight (w.at d) = (w.at d).name name ∧
      Spends w (d + 1) d 0 c out.2) (readFunction (n + 1) around name c) := by
  have silent {k : String} (keyword : k ∈ keywords) (d : Nat) : 0 = (w.at d).name k :=
    ((w.at d).keyword keyword).symm
  rw [readFunction]
  refine (peekShows w).bind fun l _ => ?_
  dsimp only
  split
  · next same =>
    cases around with
    | options => trivial
    | negation => trivial
    | free =>
      refine (read.compound .negation).bind fun (first, last, c') spends => ?_
      refine (read.negation _ _).bind fun (body, c'') closes d => ?_
      exact ⟨same ▸ silent (by decide) d,
        (skipSpends.trans (spends (d + 1)).hidden).trans (closes d)⟩
  split
  · next same =>
    refine read.relation.bind fun (arguments, c') closes d => ?_
    exact ⟨same ▸ silent (by decide) d, skipSpends.trans (closes d)⟩
  split
  · next same =>
    refine read.options.bind fun (options, c') closes d => ⟨?_, skipSpends.trans (closes d)⟩
    simp only [Bool.or_eq_true, decide_eq_true_eq] at same
    rcases same with rfl | rfl
    · exact silent (by decide) d
    · exact silent (by decide) d
  split
  · next same =>
    refine read.options.bind fun (options, c') closes d => ?_
    exact ⟨same ▸ silent (by decide) d, skipSpends.trans (closes d)⟩
  · refine (readWordsSpends w n).bind fun (words, c') closes d => ?_
    exact ⟨rfl, skipSpends.trans (closes d)⟩

theorem negationSpends (body : Complex) (last : Option PseudoElement) :
    Gives (fun out => ∀ d, Spends w (d + 1) d 0 c out.2) (readNegation (n + 1) body last c) := by
  rw [readNegation]
  refine (peekShows w).bind fun l shows => ?_
  dsimp only
  cases last with
  | some e => trivial
  | none =>
  dsimp only
  split
  · next close => exact fun d => skipSpends.trans (shows.closes close (by decide))
  split
  · trivial
  · refine (read.compound .negation).bind fun (right, last, c') spends => ?_
    refine (read.negation _ _).imp fun out closes d => ?_
    have before := skipSpends.trans (combinatorSpends shows (d := d + 1))
    exact (before.trans (spends (d + 1)).hidden).trans (closes d)

theorem argumentSpends (argument : Complex) (last : Option PseudoElement) :
    Gives (fun out => (∀ d, Spends w (d + 1) (d + 1) 0 c out.2) ∧
      ∃ l, out.2.peek = .ok l ∧ (l.shape = .delim ',' ∨ l.shape = .delim ')'))
      (readArgument (n + 1) argument last c) := by
  cases last with
  | some e => trivial
  | none =>
  rw [readArgument]
  refine (peekShows w).bind fun l shows => ?_
  dsimp only
  split
  · next ends =>
    exact ⟨fun d => skipSpends, l, shows.peek, by simpa using ends⟩
  split
  · trivial
  · refine (read.compound .free).bind fun (right, last, c') spends => ?_
    refine (read.argument _ _).imp fun out ⟨more, ends⟩ => ⟨fun d => ?_, ends⟩
    have before := skipSpends.trans (combinatorSpends shows (d := d + 1))
    exact (before.trans (spends (d + 1)).hidden).trans (more d)

theorem relationSpends :
    Gives (fun out => ∀ d, Spends w (d + 1) d 0 c out.2) (readRelation (n + 1) c) := by
  rw [readRelation]
  refine (peekShows w).bind fun l shows => ?_
  refine (read.compound .free).bind fun (first, last, c') spends => ?_
  refine (read.argument _ _).bind fun (argument, c'') ⟨more, l', peek, ends⟩ => ?_
  have before (d : Nat) : Spends w (d + 1) (d + 1) 0 c c'' :=
    ((skipSpends.trans (combinatorSpends shows)).trans (spends (d + 1)).hidden).trans (more d)
  refine (peekShows w).bind fun comma shows' => ?_
  obtain rfl := Except.ok.inj (peek.symm.trans shows'.peek)
  split
  · next shape =>
    refine read.relation.bind fun out closes d => ?_
    exact ((before d).trans (shows'.inner (by rw [shape]; rfl))).trans (closes d)
  · next other =>
    exact fun d => (before d).trans (shows'.closes (ends.resolve_left other) (by decide))

theorem optionsSpends :
    Gives (fun out => ∀ d, Spends w (d + 1) d 0 c out.2) (readOptions (n + 1) c) := by
  rw [readOptions]
  refine (read.compound .options).bind fun (first, last, c') spends => ?_
  dsimp only
  cases last with
  | some e => trivial
  | none =>
  have before (d : Nat) : Spends w (d + 1) (d + 1) 0 c c'.skipBlanks :=
    (spends (d + 1)).hidden.trans skipSpends
  refine (peekShows w).bind fun l shows => ?_
  split
  · next comma =>
    refine read.options.bind fun (rest, c'') closes d => ?_
    have inner := (before d).trans (shows.inner (by rw [comma]; rfl))
    exact (inner.trans skipSpends).trans (closes d)
  split
  · next close => exact fun d => (before d).trans (shows.closes close (by decide))
  · trivial

end

theorem allSpendNone (w : Weight) : AllSpend w 0 where
  compound around := by
    rw [readCompound]
    exact (readElementSpends w).bind fun _ _ => (peekShows w).bind fun _ _ => trivial
  parts around opens started compound last _ := by
    rw [readParts]
    exact (peekShows w).bind fun _ _ => trivial
  colon around opens := by
    rw [readColon]
    exact (peekShows w).bind fun _ _ => trivial
  function around name := by
    rw [readFunction]
    exact (peekShows w).bind fun _ _ => trivial
  negation body last := by
    rw [readNegation]
    exact (peekShows w).bind fun _ _ => trivial
  relation {c} := by
    rw [readRelation]
    exact (peekShows w).bind fun _ _ => trivial
  argument argument last := by
    cases last with
    | some e => trivial
    | none =>
      rw [readArgument]
      exact (peekShows w).bind fun _ _ => trivial
  options {c} := by
    rw [readOptions]
    exact (peekShows w).bind fun _ _ => trivial

theorem allSpend (w : Weight) (n : Nat) : AllSpend w n := by
  induction n with
  | zero => exact allSpendNone w
  | succ n ih =>
    exact ⟨compoundSpends ih, partsSpends ih, colonSpends ih, functionSpends ih,
      negationSpends ih, relationSpends ih, argumentSpends ih, optionsSpends ih⟩

/-! Lists. -/

theorem lastLowered (x : Weight) (last : Option PseudoElement) :
    x.last (last.map PseudoElement.lowered) = x.last last := by
  cases last with
  | none => rfl
  | some e =>
    cases e with
    | plain name => exact x.lowered name
    | functional name words => rfl

/-- A selector weighs what its first compound weighs and what follows costs, and ends where the
text ends or another selector follows. -/
theorem readWrittenSpends (w : Weight) (n : Nat) (selector : Complex)
    (last : Option PseudoElement) :
    Gives (fun out => (∃ m, out.1.weight w = selector.weight w + w.last last + m ∧
        Spends w 0 0 m c out.2) ∧
      ∃ l, out.2.peek = .ok l ∧ (l.shape = .stop ∨ l.shape = .delim ','))
      (readWritten n selector last c) := by
  induction n generalizing selector last c with
  | zero => exact (peekShows w).bind fun _ _ => trivial
  | succ n ih =>
    refine (peekShows w).bind fun l shows => ?_
    dsimp only
    split
    · next ends =>
      refine ⟨⟨0, ?_, skipSpends⟩, l, shows.peek, by simpa using ends⟩
      rw [Written.weight, lastLowered, Nat.add_zero]
    cases last with
    | some e => trivial
    | none =>
    refine ((allSpend w n).compound .free).bind fun (right, last, c') spends => ?_
    refine (ih _ last).imp fun out ⟨⟨m, total, more⟩, ends⟩ =>
      ⟨⟨right.weight w + w.last last + m, ?_, ?_⟩, ends⟩
    · rw [total, Complex.weight]
      simp only [Weight.last, Option.elim_none]
      omega
    · have before := skipSpends.trans (combinatorSpends shows (d := 0))
      exact ((before.trans (spends 0)).trans more).of (by rw [Nat.zero_add]; rfl)

theorem readListSpends (w : Weight) (n : Nat) (whole : c.rest.Whole) :
    Gives (fun list => c.rest.tally w 0 = (list.map (Written.weight w)).sum ∧ c.rest.depth 0 = 0)
      (readList n c) := by
  induction n generalizing c with
  | zero => exact (peekShows w).bind fun _ _ => trivial
  | succ n ih =>
    refine ((allSpend w n).compound .free).bind fun (first, last, c') spends => ?_
    refine (readWrittenSpends w n _ _).bind fun out ⟨⟨m, total, more⟩, l', peek, ends⟩ => ?_
    have before := ((spends 0).trans more).of total.symm
    refine (peekShows w).bind fun l shows => ?_
    obtain rfl := Except.ok.inj (peek.symm.trans shows.peek)
    split
    · next comma =>
      have past := before.trans
        ((shows.flat comma ((w.at 0).mark (by decide)) (by decide)).trans skipSpends)
      refine (ih (past.whole whole)).bind fun rest ⟨tally, depth⟩ => ⟨?_, ?_⟩
      · rw [past.tally, tally, List.map_cons, List.sum_cons]
        rfl
      · exact past.depth.trans depth
    · next other =>
      obtain ⟨start, stop⟩ := shows.ends (ends.resolve_right other) (before.whole whole)
      refine ⟨?_, ?_⟩
      · rw [before.tally, stop]
        simp [Lexemes.tally]
      · rw [before.depth, stop]
        rfl

end SelectorRank
