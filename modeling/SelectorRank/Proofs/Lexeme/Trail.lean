import SelectorRank.Proofs.Grammar.Alike
import SelectorRank.Proofs.Lexeme.Margin
import SelectorRank.Proofs.Lexeme.Scan

/-! Lexemes of a text with one more blank at its end. They agree in shape with those of the text, or
the last one has a foreign blank more, or the text ends in an open backslash. -/
namespace SelectorRank
open Spelling Unescape

def Shape.foreign (shape : Shape) : Nat := shape.value.toList.countP isForeign

def brackets : List Char := ['(', ')', '[', ']']

def Shape.IsFlat (shape : Shape) : Prop := ∀ d ∈ brackets, shape ≠ .delim d

namespace Lexemes

/-- The last lexeme has one more foreign blank, or there is one more lexeme that has one. -/
inductive Gains : Lexemes → Lexemes → Prop where
  | next {shape : Shape} {start start' : Nat} {rest rest' : Lexemes} : Gains rest rest' →
      Gains (.next ⟨shape, start⟩ rest) (.next ⟨shape, start'⟩ rest')
  | last {shape shape' : Shape} {start start' stop stop' : Nat} :
      shape'.foreign = shape.foreign + 1 → shape.IsFlat → shape'.IsFlat →
      Gains (.next ⟨shape, start⟩ (.stop stop)) (.next ⟨shape', start'⟩ (.stop stop'))
  | fresh {shape : Shape} {start start' stop : Nat} : shape.foreign = 1 → shape.IsFlat →
      Gains (.stop stop) (.next ⟨shape, start⟩ (.stop start'))

inductive EndsMarked : Lexemes → Prop where
  | last {start stop : Nat} : EndsMarked (.next ⟨.delim '\\', start⟩ (.stop stop))
  | next {l : Lexeme} {rest : Lexemes} : EndsMarked rest → EndsMarked (.next l rest)

end Lexemes

variable {s c : Char} {cs : List Char}

/-- The first lexeme of a text, and of the text with one more blank. -/
inductive ScanGrows (s c : Char) (cs : List Char) : Scanned → Scanned → Prop where
  | same {scanned : Scanned} : ScanGrows s c cs scanned scanned
  | whole {shape : Shape} :
      ScanGrows s c cs (.lexeme shape (cs.length + 1)) (.lexeme shape (cs.length + 2))
  | comment : ScanGrows s c cs (.comment (cs.length + 1)) (.comment (cs.length + 2))
  | fault {scanned scanned' : Scanned} : scanned ∈ [.unclosed, .invalid] →
      scanned' ∈ [.unclosed, .invalid] → ScanGrows s c cs scanned scanned'
  | gains {shape shape' : Shape} : isSpace s = false → shape'.foreign = shape.foreign + 1 →
      shape.IsFlat → shape'.IsFlat →
      ScanGrows s c cs (.lexeme shape (cs.length + 1)) (.lexeme shape' (cs.length + 2))
  | marked {scanned scanned' : Scanned} : (c :: cs).getLast? = some '\\' →
      (∀ start, (lexemesFrom 0 start (c :: cs)).EndsMarked) → ScanGrows s c cs scanned scanned'

theorem scanBlank (space : isSpace c = true) :
    scan c cs = .lexeme .blank ((cs.takeWhile isSpace).length + 1) := by
  unfold scan
  rw [space]
  rfl

theorem scanQuote (quote : c = Text.singleQuote ∨ c = Text.doubleQuote) :
    scan c cs = scanString c cs := by
  rcases quote with rfl | rfl <;> rfl

theorem scanHashAlone (none : nameLength 0 cs = 0) : scan '#' cs = .lexeme (.delim '#') 1 := by
  have noName : identLength ('#' :: cs) = 0 := rfl
  unfold scan
  rw [noName, none]
  rfl

theorem scanComment (cs : List Char) : scan '/' ('*' :: cs) = .comment (commentLength cs + 2) := rfl

theorem scanSlash (other : cs.head? ≠ some '*') : scan '/' cs = .lexeme (.delim '/') 1 := by
  cases cs with
  | nil => rfl
  | cons d cs =>
    have noStar : d ≠ '*' := by simpa using other
    have noName : identLength ('/' :: d :: cs) = 0 := rfl
    have noNumber : numberLength ('/' :: d :: cs) = 0 := rfl
    unfold scan
    simp [isSpace, noName, noNumber, Text.singleQuote, Text.doubleQuote, noStar]

theorem nameFlat (name : String) : (Shape.ident name).IsFlat ∧ (Shape.hash name).IsFlat :=
  ⟨fun _ _ => nofun, fun _ _ => nofun⟩

theorem identBound (cs : List Char) : identLength cs ≤ cs.length := by
  unfold identLength
  split
  · next cs =>
    have bound := nameLengthBound 0 cs
    split <;> simp [bound]
  · have bound := nameLengthBound 0 cs
    split <;> simp [bound]

theorem takeSame {n : Nat} (within : n ≤ cs.length) : (cs ++ [s]).take n = cs.take n :=
  List.take_append_of_le_length within

theorem scanMark : scan '\\' [] = .lexeme (.delim '\\') 1 := by decide

theorem marksBehind {n : Nat} {shape : Shape} (scanned : scan c cs = .lexeme shape (n + 1))
    (left : cs.drop n = ['\\']) (start : Nat) : (lexemesFrom 0 start (c :: cs)).EndsMarked := by
  have within : n ≤ cs.length := by
    by_contra past
    simp [List.drop_eq_nil_of_le (Nat.le_of_not_le past)] at left
  have skipped := lexemesSkip n (start + 1) (cs.take n) (cs.drop n) (List.length_take_of_le within)
  rw [List.take_append_drop, left] at skipped
  rw [lexemesFrom, scanned]
  dsimp only
  rw [Nat.add_sub_cancel, skipped, lexemesFrom, scanMark]
  exact .next .last

theorem dropMark {n : Nat} (length : n + 1 = cs.length) (last : cs.getLast? = some '\\') :
    cs.drop n = ['\\'] := by
  obtain ⟨front, rfl⟩ := List.getLast?_eq_some_iff.mp last
  obtain rfl : n = front.length := by simpa using length
  exact List.drop_left

theorem scanIdentGrows (margin : Margin s) (space : isSpace c = false) :
    ScanGrows s c cs (scan c cs) (scan c (cs ++ [s])) ∨
      identLength (c :: cs) = 0 ∧ identLength (c :: (cs ++ [s])) = 0 := by
  have bound := identBound (c :: cs)
  rcases identGrows margin c cs with grows | ⟨alone, stands, none, two⟩ | ⟨alone, none⟩
  · rcases grows with
      same | ⟨unclosed, closes, length, length'⟩ | ⟨stands, length, length'⟩ | ⟨length, last⟩
    · cases length : identLength (c :: cs) with
      | zero => exact .inr ⟨rfl, same.trans length⟩
      | succ n =>
        left
        rw [scanIdent space length, scanIdent space (same.trans length), ← List.cons_append,
          takeSame (by omega)]
        exact .same
    · left
      rw [scanIdent space length, scanIdent space length', List.take_of_length_le (by simp),
        List.take_of_length_le (by simp), ← List.cons_append, ofNameClosed margin closes unclosed]
      exact .whole
    · left
      have foreign := Margin.foreignName stands
      rw [scanIdent space length, scanIdent space length', List.take_of_length_le (by simp),
        List.take_of_length_le (by simp), ← List.cons_append]
      refine .gains foreign ?_ (nameFlat _).1 (nameFlat _).1
      simpa [Shape.foreign, Shape.value] using ofNameForeign margin foreign (c :: cs)
    · left
      refine .marked last fun start => ?_
      cases named : identLength (c :: cs) with
      | succ n =>
        rw [named] at length
        exact marksBehind (scanIdent space named) (by simpa using dropMark length last) start
      | zero =>
        obtain rfl : cs = [] := by simpa [named] using length.symm
        obtain rfl : c = '\\' := by simpa using last
        rw [lexemesFrom, scanMark]
        exact .last
  · obtain ⟨rfl, rfl⟩ := List.cons.inj alone
    left
    have foreign := Margin.foreignName stands
    have alone : scan '-' [] = .lexeme (.delim '-') 1 := by decide
    rw [alone, scanIdent rfl two]
    refine .gains foreign ?_ (by unfold Shape.IsFlat; decide) (nameFlat _).1
    have gained := ofNameForeign margin foreign ['-']
    rw [show ofName ['-'] = ['-'] by decide] at gained
    simpa [Shape.foreign, Shape.value] using gained
  · obtain ⟨rfl, rfl⟩ := List.cons.inj alone
    left
    have first : scan '-' ['\\'] = .lexeme (.delim '-') (0 + 1) := by decide
    exact .marked rfl fun start => marksBehind first rfl start

theorem scanHashGrows (margin : Margin s) :
    ScanGrows s '#' cs (scan '#' cs) (scan '#' (cs ++ [s])) := by
  have bound := nameLengthBound 0 cs
  -- The name ends before the blank, in a numbered escape, at the end of the text, or at a backslash.
  rcases nameLengthGrows margin (Nat.zero_le cs.length) with
    same | ⟨unclosed, closes, length, length'⟩ | ⟨stands, length, length'⟩ | ⟨length, last⟩
  · cases length : nameLength 0 cs with
    | zero =>
      rw [scanHashAlone length, scanHashAlone (same.trans length)]
      exact .same
    | succ n =>
      rw [scanHash length, scanHash (same.trans length), takeSame (by omega)]
      exact .same
  · obtain ⟨n, size⟩ : ∃ n, cs.length = n + 1 := by
      obtain ⟨front, digits, rfl, _⟩ := unclosed
      exact ⟨front.length + digits.length, by simp; omega⟩
    rw [size] at length length'
    rw [scanHash length, scanHash length', List.take_of_length_le (by omega),
      List.take_of_length_le (by simp [size]), ofNameClosed margin closes unclosed, ← size,
      show n + 2 = cs.length + 1 by omega]
    exact .whole
  · have foreign := Margin.foreignName stands
    have gained := ofNameForeign margin foreign cs
    rw [scanHash length', List.take_of_length_le (by simp)]
    cases size : cs.length with
    | zero =>
      obtain rfl := List.length_eq_zero_iff.mp size
      rw [scanHashAlone length]
      refine .gains foreign ?_ (by unfold Shape.IsFlat; decide) (nameFlat _).2
      have mark : isForeign '#' = false := by decide
      have alone : (ofName [s]).countP isForeign = 1 := gained
      simpa [Shape.foreign, Shape.value, mark] using alone
    | succ n =>
      rw [size] at length
      rw [scanHash length, List.take_of_length_le (by omega), ← size,
        show n + 2 = cs.length + 1 by omega]
      refine .gains foreign ?_ (nameFlat _).2 (nameFlat _).2
      simpa [Shape.foreign, Shape.value] using gained
  · refine .marked (getLastBehind last) fun start => ?_
    cases named : nameLength 0 cs with
    | zero =>
      rw [named] at length
      exact marksBehind (scanHashAlone named) (dropMark length last) start
    | succ n =>
      rw [named] at length
      exact marksBehind (scanHash named) (dropMark length last) start

section
variable {quote d : Char} {rest : List Char}

theorem stringUnclosed (spent : cs.drop (bodyLength quote 0 cs) = []) :
    scanString quote cs = .unclosed := by
  rw [scanString, spent]

theorem stringInvalid (apart : d ≠ quote) (left : cs.drop (bodyLength quote 0 cs) = d :: rest) :
    scanString quote cs = .invalid := by
  rw [scanString, left]
  exact if_neg apart

theorem stringClosed (left : cs.drop (bodyLength quote 0 cs) = quote :: rest) :
    scanString quote cs = .lexeme
      (.string (String.ofList (ofString (cs.take (bodyLength quote 0 cs)))))
      (bodyLength quote 0 cs + 2) := by
  rw [scanString, left]
  exact if_pos rfl

theorem stringOpen (other : s ≠ quote)
    (past : cs.length ≤ bodyLength quote 0 (cs ++ [s])) :
    scanString quote (cs ++ [s]) ∈ [.unclosed, .invalid] := by
  cases left : (cs ++ [s]).drop (bodyLength quote 0 (cs ++ [s])) with
  | nil => simp [stringUnclosed left]
  | cons d rest =>
    have behind := left
    rw [List.drop_append, List.drop_eq_nil_of_le past, List.nil_append] at behind
    have member : d ∈ [s] := (List.drop_sublist _ _).subset (behind ▸ List.mem_cons_self)
    obtain rfl := List.mem_singleton.mp member
    simp [stringInvalid other left]

theorem scanStringGrows (margin : Margin s)
    (mark : quote = Text.singleQuote ∨ quote = Text.doubleQuote) :
    ScanGrows s quote cs (scanString quote cs) (scanString quote (cs ++ [s])) := by
  have visible : (33 ≤ quote.toNat ∧ quote.toNat < 160) ∧ '\\' ≠ quote := by
    rcases mark with rfl | rfl <;> decide
  obtain ⟨visible, noMark⟩ := visible
  have other : s ≠ quote := margin.other visible
  have bound := bodyLengthBound quote 0 cs
  rcases bodyLengthGrows margin quote 0 cs with same | ⟨past, left⟩
  · have dropped : (cs ++ [s]).drop (bodyLength quote 0 (cs ++ [s])) =
        cs.drop (bodyLength quote 0 cs) ++ [s] := by
      rw [same, List.drop_append_of_le_length bound]
    cases left : cs.drop (bodyLength quote 0 cs) with
    | nil =>
      rw [left] at dropped
      exact .fault (by simp [stringUnclosed left]) (by simp [stringInvalid other dropped])
    | cons d rest =>
      rw [left] at dropped
      by_cases closes : d = quote
      · subst closes
        rw [stringClosed left, stringClosed dropped, same, takeSame bound]
        exact .same
      · exact .fault (by simp [stringInvalid closes left])
          (by simp [stringInvalid closes dropped])
  · refine .fault ?_ (stringOpen other past)
    rcases left with left | left
    · simp [stringUnclosed left]
    · simp [stringInvalid noMark left]

end

theorem scanBlankGrows (blank : isSpace c = true) :
    ScanGrows s c cs (scan c cs) (scan c (cs ++ [s])) := by
  rw [scanBlank blank, scanBlank blank]
  by_cases space : isSpace s
  · rw [List.takeWhile_append]
    split
    · next all =>
      rw [List.takeWhile_cons_of_pos space, all]
      simpa using .whole
    · exact .same
  · rw [takeWhileBefore (by simpa using space)]
    exact .same

theorem scanSlashGrows (margin : Margin s) :
    ScanGrows s '/' cs (scan '/' cs) (scan '/' (cs ++ [s])) := by
  by_cases star : cs.head? = some '*'
  · obtain ⟨rest, rfl⟩ := List.head?_eq_some_iff.mp star
    rw [List.cons_append, scanComment, scanComment]
    rcases commentGrows margin rest with same | ⟨_, length, length'⟩
    · rw [same]
      exact .same
    · rw [length, length']
      exact .comment
  · have star' : (cs ++ [s]).head? ≠ some '*' := by
      cases cs with
      | nil => simpa using margin.other (by decide)
      | cons d cs => exact star
    rw [scanSlash star, scanSlash star']
    exact .same

theorem scanOtherGrows (margin : Margin s) (space : isSpace c = false)
    (other : c ∉ ['#', '\x27', '\x22', '/']) (none : identLength (c :: cs) = 0)
    (none' : identLength (c :: (cs ++ [s])) = 0) :
    ScanGrows s c cs (scan c cs) (scan c (cs ++ [s])) := by
  have same := numberSame margin c cs
  cases length : numberLength (c :: cs) with
  | zero =>
    rw [scanDelim space none other length, scanDelim space none' other (same.trans length)]
    exact .same
  | succ n =>
    have bound := numberBound (c :: cs)
    rw [scanNumber space none other length, scanNumber space none' other (same.trans length),
      ← List.cons_append, takeSame (by omega)]
    exact .same

theorem scanGrows (margin : Margin s) (c : Char) (cs : List Char) :
    ScanGrows s c cs (scan c cs) (scan c (cs ++ [s])) := by
  by_cases blank : isSpace c
  · exact scanBlankGrows blank
  have space : isSpace c = false := by simpa using blank
  rcases scanIdentGrows margin space with grows | ⟨none, none'⟩
  · exact grows
  by_cases hash : c = '#'
  · subst hash
    exact scanHashGrows margin
  by_cases quote : c = Text.singleQuote ∨ c = Text.doubleQuote
  · rw [scanQuote quote, scanQuote quote]
    exact scanStringGrows margin quote
  by_cases slash : c = '/'
  · subst slash
    exact scanSlashGrows margin
  · refine scanOtherGrows margin space ?_ none none'
    simpa [hash, slash, Text.singleQuote, Text.doubleQuote] using quote

/-! Lexemes. -/

inductive LexemesGrow (s : Char) (cs : List Char) (ls ls' : Lexemes) : Prop where
  | alike : ls.Alike ls' → LexemesGrow s cs ls ls'
  | gains : isSpace s = false → ls.Gains ls' → LexemesGrow s cs ls ls'
  | marked : cs.getLast? = some '\\' → ls.EndsMarked → LexemesGrow s cs ls ls'

theorem LexemesGrow.next {shape : Shape} {start start' : Nat} {ls ls' : Lexemes}
    (grows : LexemesGrow s cs ls ls') :
    LexemesGrow s (c :: cs) (.next ⟨shape, start⟩ ls) (.next ⟨shape, start'⟩ ls') := by
  cases grows with
  | alike alike => exact .alike alike.next
  | gains foreign gains => exact .gains foreign gains.next
  | marked last marked => exact .marked (getLastBehind last) marked.next

theorem LexemesGrow.cons {ls ls' : Lexemes} (grows : LexemesGrow s cs ls ls') :
    LexemesGrow s (c :: cs) ls ls' := by
  cases grows with
  | alike alike => exact .alike alike
  | gains foreign gains => exact .gains foreign gains
  | marked last marked => exact .marked (getLastBehind last) marked

def Scanned.follow (start : Nat) (cs : List Char) : Scanned → Lexemes
  | .lexeme shape length => .next ⟨shape, start⟩ (lexemesFrom (length - 1) (start + 1) cs)
  | .comment length => lexemesFrom (length - 1) (start + 1) cs
  | .unclosed => .fault (.unclosedString start)
  | .invalid => .fault (.invalidString start)

theorem lexemesFirst {start : Nat} :
    lexemesFrom 0 start (c :: cs) = (scan c cs).follow start cs := by
  rw [lexemesFrom]
  cases scan c cs <;> rfl

theorem lexemesPast {skip start : Nat} (past : cs.length ≤ skip) :
    lexemesFrom skip start cs = .stop (start + cs.length) := by
  induction cs generalizing skip start with
  | nil => cases skip <;> rfl
  | cons c cs ih =>
    cases skip with
    | zero => simp at past
    | succ skip =>
      rw [lexemesFrom, ih (by simpa using past), List.length_cons]
      congr 1
      omega

theorem stopsAlike {start start' : Nat} : (Lexemes.stop start).Alike (.stop start') := .ended rfl rfl

theorem marginIdent (margin : Margin s) (cs : List Char) :
    identLength (s :: cs) = if isNameChars s then nameLength 0 cs + 1 else 0 := by
  have mark : s ≠ '\\' := margin.other (by decide)
  rw [identOther (margin.other (by decide)), startsName, margin.startsName, nameLength]
  split <;> simp_all

theorem marginFlat (margin : Margin s) : (Shape.delim s).IsFlat := by
  intro d member same
  have visible : ∀ d ∈ brackets, 33 ≤ d.toNat ∧ d.toNat < 160 := by decide
  exact margin.other (visible d member) (Shape.delim.inj same)

theorem foreignDelim (margin : Margin s) (foreign : isSpace s = false) :
    (Shape.delim s).foreign = 1 := by
  simp [Shape.foreign, Shape.value, margin.foreign, foreign]

theorem scanForeign (margin : Margin s) (foreign : isSpace s = false) (cs : List Char) :
    scan s cs = if isNameChars s then
      .lexeme (.ident (String.ofList (s :: ofName (cs.take (nameLength 0 cs)))))
        (nameLength 0 cs + 1)
    else .lexeme (.delim s) 1 := by
  have other {d : Char} (visible : 33 ≤ d.toNat ∧ d.toNat < 160) : s ≠ d := margin.other visible
  have length := marginIdent margin cs
  split
  · next stands =>
    rw [if_pos stands] at length
    rw [scanIdent foreign length, List.take_succ_cons, ofNamePlain (other (by decide))]
  · next stands =>
    rw [if_neg stands] at length
    have marks : s ∉ ['#', '\x27', '\x22', '/'] := by
      simp only [List.mem_cons, List.not_mem_nil, or_false, not_or]
      exact ⟨other (by decide), other (by decide), other (by decide), other (by decide)⟩
    refine scanDelim foreign length marks ?_
    simp [numberLength, unsignedLength, digitsLength, margin.noDigit,
      other (d := '+') (by decide), other (d := '-') (by decide), other (d := '.') (by decide)]

theorem lexemesAlone (margin : Margin s) (start start' : Nat) :
    LexemesGrow s [] (.stop start) (lexemesFrom 0 start' [s]) := by
  by_cases blank : isSpace s
  · rw [lexemesFrom, scanBlank blank]
    exact .alike (.ended rfl rfl)
  have space : isSpace s = false := by simpa using blank
  rw [lexemesFirst, scanForeign margin space]
  split
  · refine .gains space (.fresh ?_ (nameFlat _).1)
    have none : ofName [] = [] := by decide
    simp [Shape.foreign, Shape.value, margin.foreign, space, none]
  · exact .gains space (.fresh (foreignDelim margin space) (marginFlat margin))

theorem lexemesGrow (margin : Margin s) (cs : List Char) (skip start start' : Nat) :
    LexemesGrow s cs (lexemesFrom skip start cs) (lexemesFrom skip start' (cs ++ [s])) := by
  induction cs generalizing skip start start' with
  | nil =>
    cases skip with
    | zero => exact lexemesAlone margin start start'
    | succ skip =>
      rw [lexemesPast (by simp), lexemesPast (by simp)]
      exact .alike stopsAlike
  | cons c cs ih =>
    cases skip with
    | succ skip => exact (ih skip (start + 1) (start' + 1)).cons
    | zero =>
      have grows := scanGrows margin c cs
      have first : lexemesFrom 0 start (c :: cs) = (scan c cs).follow start cs := lexemesFirst
      have second : lexemesFrom 0 start' (c :: cs ++ [s]) =
        (scan c (cs ++ [s])).follow start' (cs ++ [s]) := lexemesFirst
      generalize scan c cs = scanned at grows first
      generalize scan c (cs ++ [s]) = scanned' at grows second
      cases grows with
      | same =>
        rw [first, second]
        cases scanned with
        | lexeme shape length => exact (ih _ _ _).next
        | comment length => exact (ih _ _ _).cons
        | unclosed => exact .alike .fault
        | invalid => exact .alike .fault
      | whole =>
        rw [first, second]
        rw [Scanned.follow, Scanned.follow, lexemesPast (by simp), lexemesPast (by simp)]
        exact .alike stopsAlike.next
      | comment =>
        rw [first, second]
        rw [Scanned.follow, Scanned.follow, lexemesPast (by simp), lexemesPast (by simp)]
        exact .alike stopsAlike
      | gains foreign gained flat flat' =>
        rw [first, second]
        rw [Scanned.follow, Scanned.follow, lexemesPast (by simp), lexemesPast (by simp)]
        exact .gains foreign (.last gained flat flat')
      | marked last marked => exact .marked last (marked start)
      | fault left right =>
        rw [first, second]
        simp only [List.mem_cons, List.not_mem_nil, or_false] at left right
        rcases left with rfl | rfl <;> rcases right with rfl | rfl <;> exact .alike .fault

end SelectorRank
