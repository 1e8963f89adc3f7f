import SelectorRank.Proofs.Grammar.Tally
import SelectorRank.Proofs.Lexeme.Trail

/-! What blanks at both ends of a text add to its lexemes. A foreign blank counts, so a text that is
read with it is read as something else; any other blank leaves the lexemes as they are. -/
namespace SelectorRank
open Spelling Unescape

variable {w : Weight} {c s : Char} {cs : List Char} {ls ls' ls'' : Lexemes}

/-! Lexemes of texts that begin elsewhere. -/

theorem startsAlike (skip start start' : Nat) (cs : List Char) :
    (lexemesFrom skip start cs).Alike (lexemesFrom skip start' cs) := by
  induction cs generalizing skip start start' with
  | nil => cases skip <;> exact stopsAlike
  | cons c cs ih =>
    cases skip with
    | succ skip => exact ih skip (start + 1) (start' + 1)
    | zero =>
      rw [lexemesFirst, lexemesFirst]
      cases scan c cs with
      | lexeme shape length => exact (ih _ _ _).next
      | comment length => exact ih _ _ _
      | unclosed => exact .fault
      | invalid => exact .fault

theorem scanStringOpen {quote : Char} {n : Nat} : scanString quote cs ≠ .lexeme .stop n := by
  unfold scanString
  dsimp only
  split
  · nofun
  · split <;> nofun

theorem scanOpen {n : Nat} : scan c cs ≠ .lexeme .stop n := by
  unfold scan
  split
  · nofun
  split
  · nofun
  split
  · nofun
  split
  · exact scanStringOpen
  split
  · nofun
  · split <;> nofun

theorem lexemesWhole (skip start : Nat) (cs : List Char) : (lexemesFrom skip start cs).Whole := by
  induction cs generalizing skip start with
  | nil => cases skip <;> trivial
  | cons c cs ih =>
    cases skip with
    | succ skip => exact ih skip (start + 1)
    | zero =>
      rw [lexemesFirst]
      cases scanned : scan c cs with
      | lexeme shape length =>
        refine ⟨?_, ih _ _⟩
        rintro rfl
        exact scanOpen scanned
      | comment length => exact ih _ _
      | unclosed => trivial
      | invalid => trivial

/-! Lexemes that are alike weigh the same. -/

theorem endedTally {start : Nat} (ended : Cursor.afterBlanks ls = .stop start) (d : Nat) :
    ls.tally w d = 0 ∧ ls.depth d = d := by
  obtain ⟨tally, depth, _⟩ := afterBlanksTally (w := w) ls d
  rw [ended] at tally depth
  exact ⟨tally.symm, depth.symm⟩

theorem Lexemes.Alike.tally (alike : ls.Alike ls') (w : Weight) (d : Nat) :
    ls'.tally w d = ls.tally w d ∧ ls'.depth d = ls.depth d := by
  induction alike generalizing d with
  | next alike ih =>
    rw [Lexemes.tally, Lexemes.tally, Lexemes.depth, Lexemes.depth, (ih _).1, (ih _).2]
    exact ⟨rfl, rfl⟩
  | ended left right =>
    obtain ⟨tally, depth⟩ := endedTally (w := w) left d
    obtain ⟨tally', depth'⟩ := endedTally (w := w) right d
    exact ⟨tally'.trans tally.symm, depth'.trans depth.symm⟩
  | fault => exact ⟨rfl, rfl⟩

theorem endedAlike {start : Nat} (ended : Cursor.afterBlanks ls = .stop start)
    (alike : ls.Alike ls') :
    ∃ start', Cursor.afterBlanks ls' = .stop start' := by
  induction alike with
  | next _ ih =>
    rw [Cursor.afterBlanks] at ended ⊢
    split at ended
    · next blank =>
      rw [if_pos blank]
      exact ih ended
    · cases ended
  | ended _ right => exact ⟨_, right⟩
  | fault => cases ended

theorem Lexemes.Alike.trans (first : ls.Alike ls') (second : ls'.Alike ls'') : ls.Alike ls'' := by
  induction first generalizing ls'' with
  | next first ih =>
    cases second with
    | next second => exact (ih second).next
    | ended left right =>
      obtain ⟨start, ended⟩ := endedAlike left first.next.symm
      exact .ended ended right
  | ended left right =>
    obtain ⟨start, ended⟩ := endedAlike right second
    exact .ended left ended
  | fault =>
    cases second with
    | ended left _ => cases left
    | fault => exact .fault

/-! Foreign blanks, and open backslashes. -/

def foreignBlanks (name : String) : Nat := name.toList.countP isForeign

theorem foreignLowered (name : String) : foreignBlanks (lowered name) = foreignBlanks name := by
  have small (c : Char) : isForeign c.toLower = isForeign c := by
    by_cases upper : c.toNat < 65 ∨ 90 < c.toNat
    · rw [toLowerWhole upper]
    · have letters : ∀ n < 91, 65 ≤ n →
          isForeign (Char.ofNat n).toLower = isForeign (Char.ofNat n) := by decide
      rw [← Char.ofNat_toNat c]
      exact letters _ (by omega) (by omega)
  rw [foreignBlanks, foreignBlanks, lowered, String.toList_ofList, List.countP_map]
  exact List.countP_congr fun c _ => by simp [small]

def foreignWeight : Weight where
  name := foreignBlanks
  shape := Shape.foreign
  ident _ := rfl
  hash _ := rfl
  blank := by decide
  stop := by decide
  star := by decide
  lowered := foreignLowered
  keyword {n} := (by decide : ∀ n ∈ keywords, foreignBlanks n = 0) n
  mark {d} := (by decide : ∀ d ∈ grammarMarks, Shape.foreign (.delim d) = 0) d

theorem Shape.IsFlat.depth {shape : Shape} (flat : shape.IsFlat) (d : Nat) : shape.depth d = d := by
  unfold Shape.depth
  split
  · next c =>
    have other {e : Char} (bracket : e ∈ brackets) : c ≠ e :=
      fun same => flat e bracket (by rw [same])
    simp [other (e := '(') (by decide), other (e := ')') (by decide), other (e := '[') (by decide),
      other (e := ']') (by decide)]
  · rfl

theorem Lexemes.Gains.tally {d : Nat} (gains : ls.Gains ls') (closed : ls.depth d = 0) :
    ls'.tally foreignWeight d = ls.tally foreignWeight d + 1 ∧ ls'.depth d = 0 := by
  induction gains generalizing d with
  | next _ ih =>
    obtain ⟨tally, depth⟩ := ih closed
    rw [Lexemes.tally, Lexemes.tally, tally, ← Nat.add_assoc]
    exact ⟨rfl, depth⟩
  | last more flat flat' =>
    rw [Lexemes.depth, flat.depth] at closed
    obtain rfl : d = 0 := closed
    rw [Lexemes.tally, Lexemes.tally, Lexemes.depth, flat'.depth]
    exact ⟨more, rfl⟩
  | fresh one flat =>
    obtain rfl : d = 0 := closed
    rw [Lexemes.tally, Lexemes.depth, flat.depth]
    exact ⟨one, rfl⟩

theorem markedTally {d : Nat} (marked : ls.EndsMarked) (closed : ls.depth d = 0) :
    0 < ls.tally markWeight d := by
  induction marked generalizing d with
  | last =>
    obtain rfl : d = 0 := closed
    exact Nat.one_pos
  | next _ ih => exact Nat.lt_of_lt_of_le (ih closed) (Nat.le_add_left _ _)

/-! Blanks behind a text that is read. -/

/-- A text closes its brackets, and ends in no open backslash. -/
structure Settled (ls : Lexemes) : Prop where
  closed : ls.depth 0 = 0
  unmarked : ls.tally markWeight 0 = 0

/-- Lexemes stay as they are, or have more foreign blanks than before. -/
def Outgrows (ls ls' : Lexemes) : Prop :=
  ls.Alike ls' ∨ ls.tally foreignWeight 0 < ls'.tally foreignWeight 0 ∧ ls'.depth 0 = 0

theorem lastMark {text trail : List Char} (margins : ∀ s ∈ trail, Margin s)
    (last : (text ++ trail).getLast? = some '\\') : trail = [] := by
  rcases List.eq_nil_or_concat trail with none | ⟨front, d, rfl⟩
  · exact none
  · rw [List.concat_eq_append, ← List.append_assoc, List.getLast?_concat] at last
    exact absurd (Option.some.inj last) ((margins d (by simp)).other (by decide))

theorem trailGrows {text trail : List Char} (settled : Settled (lexemesFrom 0 0 text))
    (margins : ∀ s ∈ trail, Margin s) :
    Outgrows (lexemesFrom 0 0 text) (lexemesFrom 0 0 (text ++ trail)) := by
  induction trail using List.reverseRecOn with
  | nil => exact .inl (by rw [List.append_nil]; exact startsAlike _ _ _ _)
  | append_singleton trail s ih =>
    have before := ih fun s member => margins s (List.mem_append_left _ member)
    have grows := lexemesGrow (margins s (by simp)) (text ++ trail) 0 0 0
    rw [List.append_assoc] at grows
    have closed : (lexemesFrom 0 0 (text ++ trail)).depth 0 = 0 := by
      rcases before with alike | ⟨_, depth⟩
      · exact (alike.tally markWeight 0).2.trans settled.closed
      · exact depth
    cases grows with
    | alike alike =>
      rcases before with first | ⟨more, _⟩
      · exact .inl (first.trans alike)
      · obtain ⟨tally, depth⟩ := alike.tally foreignWeight 0
        exact .inr ⟨tally ▸ more, depth.trans closed⟩
    | gains _ gains =>
      obtain ⟨tally, depth⟩ := gains.tally closed
      refine .inr ⟨?_, depth⟩
      rcases before with first | ⟨more, _⟩
      · rw [tally, (first.tally foreignWeight 0).1]
        exact Nat.lt_succ_self _
      · omega
    | marked last marked =>
      -- Only the text itself can end in a backslash, and it is settled.
      obtain rfl := lastMark (fun s member => margins s (by simp [member])) last
      rw [List.append_nil] at marked
      exact absurd settled.unmarked (markedTally marked settled.closed).ne'

/-! Blanks in front of a text. -/

/-- No number and no lone hyphen comes first, so a name at the start is an identifier. -/
def Unnumbered (cs : List Char) : Prop :=
  ∃ c rest, cs = c :: rest ∧ c.isDigit = false ∧ (c = '-' → startsName rest = true)

def Startable (cs : List Char) : Prop := identLength cs = nameLength 0 cs

theorem Unnumbered.append {trail : List Char} (unnumbered : Unnumbered cs)
    (margins : ∀ s ∈ trail, Margin s) : Unnumbered (cs ++ trail) := by
  induction trail using List.reverseRecOn with
  | nil => rwa [List.append_nil]
  | append_singleton trail s ih =>
    have margin := margins s (by simp)
    obtain ⟨c, rest, same, noDigit, hyphen⟩ := ih fun s member => margins s (by simp [member])
    rw [← List.append_assoc, same]
    refine ⟨c, rest ++ [s], rfl, noDigit, fun first => ?_⟩
    have starts := hyphen first
    have some : rest ≠ [] ∧ rest ≠ ['\\'] :=
      ⟨fun none => by simp [none, startsName] at starts,
        fun mark => by rw [mark, startsMark] at starts; cases starts⟩
    rw [startsNameSame margin some, starts]

theorem nameNoStart (noStart : startsName (c :: cs) = false) (noDigit : c.isDigit = false)
    (noHyphen : c ≠ '-') : nameLength 0 (c :: cs) = 0 := by
  rw [startsName, Bool.or_eq_false_iff] at noStart
  obtain ⟨noStart, noEscape⟩ := noStart
  have noName : isNameChars c = false := by
    rw [← Bool.not_eq_true] at noStart noDigit ⊢
    rw [isNameStartNumber] at noStart
    rw [isDigitNumber] at noDigit
    rw [isNameCharsNumber]
    have hyphen : c.toNat ≠ '-'.toNat := mt eqNumber.mpr noHyphen
    change c.toNat ≠ 45 at hyphen
    omega
  rw [nameLength, if_neg (by simp [noName])]
  split
  · next mark =>
    have none : escapeLength cs = 0 := by simpa [mark] using noEscape
    rw [none]
  · rfl

theorem Unnumbered.startable (unnumbered : Unnumbered cs) : Startable cs := by
  obtain ⟨c, rest, rfl, noDigit, hyphen⟩ := unnumbered
  by_cases first : c = '-'
  · subst first
    rw [Startable, identLength, if_pos (hyphen rfl), nameLength, if_pos (by decide)]
  · rw [Startable, identOther first]
    split
    · rfl
    · next noStart => exact (nameNoStart (by simpa using noStart) noDigit first).symm

theorem spacesAhead (start : Nat) (cs : List Char) : ∃ start',
    Cursor.afterBlanks (lexemesFrom 0 start cs) =
      Cursor.afterBlanks (lexemesFrom 0 start' (cs.dropWhile isSpace)) := by
  cases cs with
  | nil => exact ⟨start, rfl⟩
  | cons c cs =>
    by_cases space : isSpace c
    · have skipped := lexemesSkip (cs.takeWhile isSpace).length (start + 1) (cs.takeWhile isSpace)
        (cs.dropWhile isSpace) rfl
      rw [List.takeWhile_append_dropWhile] at skipped
      rw [List.dropWhile_cons_of_pos space, lexemesFirst, scanBlank space, Scanned.follow,
        Cursor.afterBlanks, if_pos rfl, Nat.add_sub_cancel, skipped]
      exact ⟨_, rfl⟩
    · exact ⟨start, by rw [List.dropWhile_cons_of_neg space]⟩

theorem spaceLeads (space : isSpace s = true) (start start' : Nat) (cs : List Char) :
    (Cursor.afterBlanks (lexemesFrom 0 start (s :: cs))).Alike
      (Cursor.afterBlanks (lexemesFrom 0 start' cs)) := by
  obtain ⟨first, ahead⟩ := spacesAhead start (s :: cs)
  obtain ⟨second, behind⟩ := spacesAhead start' cs
  rw [ahead, behind, List.dropWhile_cons_of_pos space]
  exact (startsAlike _ _ _ _).skip

theorem spacesLead {lead : List Char} (spaces : ∀ s ∈ lead, isSpace s = true) (cs : List Char) :
    (Cursor.afterBlanks (lexemesFrom 0 0 (lead ++ cs))).Alike
      (Cursor.afterBlanks (lexemesFrom 0 0 cs)) := by
  induction lead with
  | nil => exact (startsAlike _ _ _ _).skip
  | cons s lead ih =>
    exact (spaceLeads (spaces s (by simp)) 0 0 _).trans
      (ih fun s member => spaces s (by simp [member]))

theorem marginStartable (margin : Margin s) (cs : List Char) : Startable (s :: cs) := by
  have mark : s ≠ '\\' := margin.other (by decide)
  rw [Startable, marginIdent margin, nameLength, if_neg mark]

theorem flatTally {shape : Shape} (flat : shape.IsFlat) (start : Nat) (ls : Lexemes) :
    (Lexemes.next ⟨shape, start⟩ ls).tally foreignWeight 0 =
      shape.foreign + ls.tally foreignWeight 0 := by
  rw [Lexemes.tally, flat.depth]
  rfl

theorem nameTally (name : List Char) (start : Nat) (ls : Lexemes) :
    (Lexemes.next ⟨.ident (String.ofList name), start⟩ ls).tally foreignWeight 0 =
      name.countP isForeign + ls.tally foreignWeight 0 := by
  rw [flatTally (nameFlat _).1, Shape.foreign, Shape.value, String.toList_ofList]

theorem spaceNoName (space : isSpace c = true) : nameLength 0 (c :: cs) = 0 := by
  rw [isSpaceNumber] at space
  have noName : isNameChars c = false := by
    rw [← Bool.not_eq_true, isNameCharsNumber]
    omega
  have mark : c ≠ '\\' := by
    rintro rfl
    exact absurd space (by decide)
  rw [nameLength, if_neg (by simp [noName]), if_neg mark]

theorem nameAhead (startable : Startable cs) (start start' : Nat) :
    (lexemesFrom 0 start cs).tally foreignWeight 0 =
      (ofName (cs.take (nameLength 0 cs))).countP isForeign +
        (lexemesFrom (nameLength 0 cs) start' cs).tally foreignWeight 0 := by
  cases length : nameLength 0 cs with
  | zero =>
    rw [List.take_zero]
    exact ((startsAlike _ _ _ _).tally _ _).1.trans (Nat.zero_add _).symm
  | succ n =>
    cases cs with
    | nil => cases length
    | cons c cs =>
      have space : isSpace c = false := by
        by_contra blank
        rw [spaceNoName (by simpa using blank)] at length
        cases length
      rw [lexemesFirst, scanIdent space (startable.trans length), Scanned.follow, nameTally,
        Nat.add_sub_cancel, lexemesFrom, ((startsAlike _ _ (start' + 1) _).tally _ _).1]

/-- A foreign blank becomes a part of the name behind it, or a lexeme of its own. -/
theorem foreignLeads (margin : Margin s) (foreign : isSpace s = false) (startable : Startable cs)
    (start start' : Nat) : (lexemesFrom 0 start (s :: cs)).tally foreignWeight 0 =
      (lexemesFrom 0 start' cs).tally foreignWeight 0 + 1 := by
  rw [lexemesFirst, scanForeign margin foreign]
  split
  · have counted : isForeign s = true := by rw [margin.foreign, foreign, Bool.not_false]
    rw [Scanned.follow, nameTally, Nat.add_sub_cancel, nameAhead startable start' (start + 1),
      List.countP_cons_of_pos counted]
    omega
  · rw [Scanned.follow, flatTally (marginFlat margin), foreignDelim margin foreign, Nat.sub_self,
      ((startsAlike 0 start' (start + 1) cs).tally _ _).1, Nat.add_comm]

theorem leadTally {lead : List Char} (margins : ∀ s ∈ lead, Margin s) (startable : Startable cs) :
    (lexemesFrom 0 0 (lead ++ cs)).tally foreignWeight 0 =
      (lexemesFrom 0 0 cs).tally foreignWeight 0 + lead.countP isForeign := by
  induction lead with
  | nil => rfl
  | cons s lead ih =>
    have margin := margins s (by simp)
    have others : ∀ s ∈ lead, Margin s := fun s member => margins s (by simp [member])
    have startable' : Startable (lead ++ cs) := by
      cases lead with
      | nil => exact startable
      | cons s lead => exact marginStartable (others s (by simp)) _
    rw [List.countP_cons, ← Nat.add_assoc, ← ih others, List.cons_append]
    by_cases foreign : isSpace s
    · have plain : isForeign s = false := by rw [margin.foreign, foreign, Bool.not_true]
      rw [plain, if_neg Bool.false_ne_true, Nat.add_zero]
      have alike := (spaceLeads foreign 0 0 (lead ++ cs)).tally foreignWeight 0
      rw [(afterBlanksTally _ 0).1, (afterBlanksTally _ 0).1] at alike
      exact alike.1.symm
    · have space : isSpace s = false := by simpa using foreign
      rw [margin.foreign, space]
      exact foreignLeads margin space startable' 0 0

/-! Blanks on both sides. -/

theorem spacesOnly {lead : List Char} (margins : ∀ s ∈ lead, Margin s)
    (none : lead.countP isForeign = 0) : ∀ s ∈ lead, isSpace s = true := by
  intro s member
  have plain := List.countP_eq_zero.mp none s member
  rwa [(margins s member).foreign, Bool.not_eq_true, Bool.not_eq_false'] at plain

/-- A text that may be read keeps its lexemes among blanks, or has more foreign blanks there. -/
theorem edgesGrow {lead text trail : List Char} (before : ∀ s ∈ lead, Margin s)
    (behind : ∀ s ∈ trail, Margin s) (settled : Settled (lexemesFrom 0 0 text))
    (unnumbered : Unnumbered text) :
    (Cursor.afterBlanks (lexemesFrom 0 0 (lead ++ (text ++ trail)))).Alike
        (Cursor.afterBlanks (lexemesFrom 0 0 text)) ∨
      (lexemesFrom 0 0 text).tally foreignWeight 0 <
        (lexemesFrom 0 0 (lead ++ (text ++ trail))).tally foreignWeight 0 := by
  have total := leadTally before (unnumbered.append behind).startable
  rcases trailGrows settled behind with alike | ⟨more, _⟩
  · cases foreign : lead.countP isForeign with
    | zero => exact .inl ((spacesLead (spacesOnly before foreign) _).trans alike.symm.skip)
    | succ n =>
      right
      rw [total, (alike.tally foreignWeight 0).1, foreign]
      exact Nat.lt_add_of_pos_right n.succ_pos
  · exact .inr (total ▸ Nat.lt_of_lt_of_le more (Nat.le_add_right _ _))

theorem plainTrail {text trail : List Char} (unmarked : text.getLast? ≠ some '\\')
    (margins : ∀ s ∈ trail, Margin s) (spaces : ∀ s ∈ trail, isSpace s = true) :
    (lexemesFrom 0 0 text).Alike (lexemesFrom 0 0 (text ++ trail)) := by
  induction trail using List.reverseRecOn with
  | nil => rw [List.append_nil]; exact startsAlike _ _ _ _
  | append_singleton trail s ih =>
    have before := ih (fun s member => margins s (by simp [member]))
      fun s member => spaces s (by simp [member])
    have grows := lexemesGrow (margins s (by simp)) (text ++ trail) 0 0 0
    rw [List.append_assoc] at grows
    cases grows with
    | alike alike => exact before.trans alike
    | gains foreign _ => exact absurd (spaces s (by simp)) (by simp [foreign])
    | marked last _ =>
      obtain rfl := lastMark (fun s member => margins s (by simp [member])) last
      exact absurd (by rwa [List.append_nil] at last) unmarked

theorem plainEdges {lead text trail : List Char} (unmarked : text.getLast? ≠ some '\\')
    (margins : ∀ s ∈ trail, Margin s) (spaces : ∀ s ∈ lead ++ trail, isSpace s = true) :
    (Cursor.afterBlanks (lexemesFrom 0 0 (lead ++ (text ++ trail)))).Alike
      (Cursor.afterBlanks (lexemesFrom 0 0 text)) :=
  (spacesLead (fun s member => spaces s (by simp [member])) _).trans
    (plainTrail unmarked margins fun s member => spaces s (by simp [member])).symm.skip

end SelectorRank
