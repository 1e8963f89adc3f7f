import SelectorRank.Grammar.Cursor
import SelectorRank.Proofs.Lexeme.Reread

/-! What the lexemes of a source may hold, as the reader comes to them. An identifier is told apart
by whether a colon stands directly before it, a bar by whether a compound may begin there. -/
namespace SelectorRank
open Spelling Unescape

structure Lexicon where
  name : String → Prop
  id : String → Prop
  value : String → Prop
  colon : String → Prop
  bar : Prop

/-- The lexeme before a compound, if there is one. -/
def startsCompound : Option Shape → Bool
  | none => true
  | some .blank => true
  | some (.delim c) => c = ',' || c = '(' || c = '>' || c = '+' || c = '~'
  | _ => false

def Lexicon.Allows (x : Lexicon) (before : Option Shape) : Shape → Prop
  | .ident name => x.name name ∧ (before = some (.delim ':') → x.colon name)
  | .hash name => x.id name
  | .string value => x.value value
  | .delim '|' => startsCompound before = true → x.bar
  | _ => True

def Lexemes.Hold (x : Lexicon) : Option Shape → Lexemes → Prop
  | before, .next l rest => x.Allows before l.shape ∧ Lexemes.Hold x (some l.shape) rest
  | _, _ => True

/-! A wider lexicon allows every lexeme of a narrower one. -/

structure Lexicon.Within (x y : Lexicon) : Prop where
  name {name} : x.name name → y.name name
  id {name} : x.id name → y.id name
  value {value} : x.value value → y.value value
  colon {name} : x.colon name → y.colon name
  bar : x.bar → y.bar

theorem allowsWithin {x y : Lexicon} (within : x.Within y) {before : Option Shape} {shape : Shape}
    (allowed : x.Allows before shape) : y.Allows before shape := by
  unfold Lexicon.Allows at allowed ⊢
  split
  · exact ⟨within.name allowed.1, fun colon => within.colon (allowed.2 colon)⟩
  · exact within.id allowed
  · exact within.value allowed
  · exact fun starts => within.bar (allowed starts)
  · trivial

theorem holdWithin {x y : Lexicon} (within : x.Within y) {before : Option Shape} {ls : Lexemes}
    (hold : ls.Hold x before) : ls.Hold y before := by
  induction ls generalizing before with
  | stop start => trivial
  | fault f => trivial
  | next l rest ih => exact ⟨allowsWithin within hold.1, ih hold.2⟩

namespace Cursor

def Behind (x : Lexicon) (before : Option Shape) (c : Cursor) : Prop := c.rest.Hold x before

def Holds (x : Lexicon) (c : Cursor) : Prop := ∃ before, c.Behind x before

def Starts (x : Lexicon) (c : Cursor) : Prop :=
  ∃ before, startsCompound before = true ∧ c.Behind x before

/-- A place behind a lexeme that is not a comma. -/
structure Within (x : Lexicon) (c : Cursor) : Prop where
  holds : c.Holds x
  closed : c.opensSelector = false

variable {x : Lexicon} {c : Cursor} {l : Lexeme} {before : Option Shape}

theorem Starts.holds (starts : c.Starts x) : c.Holds x := by
  obtain ⟨before, _, behind⟩ := starts
  exact ⟨before, behind⟩

theorem peekAllowed (behind : c.Behind x before) (peek : c.peek = .ok l) :
    x.Allows before l.shape := by
  obtain ⟨passed, lexemes⟩ := c
  cases lexemes with
  | stop start => cases peek; trivial
  | fault f => cases peek
  | next l' rest => cases peek; exact behind.1

theorem advanceBehind (behind : c.Behind x before) (peek : c.peek = .ok l)
    (more : l.shape ≠ .stop) : c.advance.Behind x (some l.shape) := by
  obtain ⟨passed, lexemes⟩ := c
  cases lexemes with
  | stop start => cases peek; contradiction
  | fault f => cases peek
  | next l' rest => cases peek; exact behind.2

theorem advancePassed (peek : c.peek = .ok l) (more : l.shape ≠ .stop)
    (visible : l.shape ≠ .blank) : c.advance.passed = some l.shape := by
  obtain ⟨passed, lexemes⟩ := c
  cases lexemes with
  | stop start => cases peek; contradiction
  | fault f => cases peek
  | next l' rest => cases peek; simp [advance, visible]

theorem advanceWithin (holds : c.Holds x) (peek : c.peek = .ok l) (more : l.shape ≠ .stop)
    (visible : l.shape ≠ .blank) (comma : l.shape ≠ .delim ',') : c.advance.Within x := by
  obtain ⟨before, behind⟩ := holds
  refine ⟨⟨_, advanceBehind behind peek more⟩, ?_⟩
  simp [opensSelector, advancePassed peek more visible, comma]

theorem afterBlanksHold {ls : Lexemes} (hold : ls.Hold x before) :
    (afterBlanks ls).Hold x before ∨ (afterBlanks ls).Hold x (some .blank) := by
  induction ls generalizing before with
  | stop start => exact .inl hold
  | fault f => exact .inl hold
  | next l rest ih =>
    unfold afterBlanks
    split
    · next blank =>
      obtain ⟨_, after⟩ := hold
      rw [blank] at after
      exact .inr ((ih after).elim id id)
    · exact .inl hold

theorem skipHolds (holds : c.Holds x) : c.skipBlanks.Holds x := by
  obtain ⟨before, behind⟩ := holds
  exact (afterBlanksHold behind).elim (fun hold => ⟨_, hold⟩) (fun hold => ⟨_, hold⟩)

theorem skipStarts (starts : c.Starts x) : c.skipBlanks.Starts x := by
  obtain ⟨before, first, behind⟩ := starts
  exact (afterBlanksHold behind).elim (fun hold => ⟨_, first, hold⟩) (fun hold => ⟨_, rfl, hold⟩)

theorem skipWithin (within : c.Within x) : c.skipBlanks.Within x :=
  ⟨skipHolds within.holds, within.closed⟩

end Cursor

/-! Any source. Names and values hold no null character, and names are not empty. -/

def lexicon : Lexicon where
  name := IsName
  id := IsName
  value := fun value => HasNoNull value.toList
  colon := fun _ => True
  bar := True

theorem nameAllowed {text : List Char} (some : text ≠ []) (visible : HasNoNull text) :
    IsName (String.ofList (ofName text)) := by
  rw [IsName, String.toList_ofList]
  refine ⟨?_, ofNameVisible visible⟩
  intro empty
  have nil := congrArg String.toList empty
  rw [String.toList_ofList] at nil
  exact ofNameSome some nil

theorem takeVisible {text : List Char} (n : Nat) (visible : HasNoNull text) :
    HasNoNull (text.take n) := fun c member => visible c (List.mem_of_mem_take member)

theorem delimAllowed (before : Option Shape) (d : Char) : lexicon.Allows before (.delim d) := by
  unfold Lexicon.Allows
  split <;> first | contradiction | trivial | exact fun _ => trivial

theorem scanStringAllowed {quote : Char} {cs : List Char} {shape : Shape} {n : Nat}
    (visible : HasNoNull cs) (scanned : scanString quote cs = .lexeme shape n)
    (before : Option Shape) : lexicon.Allows before shape := by
  unfold scanString at scanned
  simp only at scanned
  split at scanned
  · cases scanned
  split at scanned
  · cases scanned
    have value := ofStringVisible (takeVisible (bodyLength quote 0 cs) visible)
    simpa [Lexicon.Allows, lexicon] using value
  · cases scanned

theorem scanAllowed {d : Char} {cs : List Char} {shape : Shape} {n : Nat}
    (visible : HasNoNull (d :: cs)) (scanned : scan d cs = .lexeme shape n)
    (before : Option Shape) : lexicon.Allows before shape := by
  have rest := (noNullCons.mp visible).2
  unfold scan at scanned
  split at scanned
  · cases scanned; trivial
  split at scanned
  · cases scanned
    exact ⟨nameAllowed (by simp) (takeVisible _ visible), fun _ => trivial⟩
  split at scanned
  · cases scanned
    refine nameAllowed ?_ (takeVisible _ rest)
    cases cs with
    | nil => simp_all [nameLength]
    | cons e cs => simp
  split at scanned
  · exact scanStringAllowed rest scanned before
  split at scanned
  · cases scanned; trivial
  split at scanned
  · cases scanned
  · cases scanned
    exact delimAllowed before _

theorem lexemesAllowed {text : List Char} (skip start : Nat) (visible : HasNoNull text)
    (before : Option Shape) : (lexemesFrom skip start text).Hold lexicon before := by
  induction text generalizing skip start before with
  | nil => cases skip <;> trivial
  | cons d cs ih =>
    have rest := (noNullCons.mp visible).2
    cases skip with
    | succ skip => exact ih skip _ rest before
    | zero =>
      unfold lexemesFrom
      split
      · next shape length scanned => exact ⟨scanAllowed visible scanned before, ih _ _ rest _⟩
      · exact ih _ _ rest before
      · trivial
      · trivial

theorem readableVisible (source : List Char) : HasNoNull (source.map readable) := by
  intro c member
  obtain ⟨d, _, rfl⟩ := List.mem_map.mp member
  have replaced : replacement ≠ '\x00' := by decide
  unfold readable
  split
  · exact replaced
  · assumption

theorem sourceStarts (source : List Char) : (Cursor.ofSource source).Starts lexicon :=
  ⟨none, rfl, lexemesAllowed 0 0 (readableVisible source) none⟩

end SelectorRank
