import SelectorRank.Proofs.Token.Fragment

/-! Canonical text tells selectors apart. Two equal texts are cut into the texts of their tokens at
the same places, since what may follow a token is told from it by its first character. -/
namespace SelectorRank
open Spelling Unescape

/-- Nothing, or the sign of a part, of a combinator or of an end. -/
def Follows (rest : List Char) : Prop :=
  ∀ c, rest.head? = some c → c ∈ ['#', '.', '[', ':', ' ', ')', ',']

def Opens (rest : List Char) : Prop := ∀ c, rest.head? = some c → c ∉ [' ', '>', '+', '~']

def Token.Precedes : Token → List Char → Prop
  | .combinator _, rest => Opens rest
  | _, rest => Follows rest

def signOf (cs : List Char) : Option Char :=
  cs.head?.filter (fun c => c ∈ ['#', '.', '[', ':', ' '])

def testToken (space : Namespace) : Option String → Token
  | none => .usual (.universal space)
  | some name => .usual (.element name space)

def attributeToken (name : String) (space : Namespace) :
    Option (AttributeOperator × String) → Token
  | none => .usual (.attribute name space)
  | some (operator, value) => .usual (.attributeValue name operator value space)

def argumentChars : Option Argument → List Char
  | none => []
  | some argument => '(' :: argument.chars ++ [')']

/-- Tokens that canonical text tells apart, with the bodies that negations may have. -/
inductive Known (body : List Token → Prop) : Token → Prop where
  | test {space side} (spaced : written.Spaces space) (named : ∀ n ∈ side, IsName n) :
      Known body (testToken space side)
  | id {name} (named : IsName name) : Known body (.usual (.id name))
  | className {name} (named : IsName name) : Known body (.usual (.className name))
  | bracket {name space comparison} (spaced : written.Spaces space) (named : IsName name)
      (valued : ∀ given ∈ comparison, HasNoNull given.2.toList) :
      Known body (attributeToken name space comparison)
  | pseudoElement {name} (named : IsPlain name) : Known body (.usual (.pseudoElement name))
  | pseudoClass {name argument} (named : IsPlain name)
      (given : ∀ a ∈ argument, name ≠ "not" ∧ written.Gives (isCounting name) a) :
      Known body (.usual (.pseudoClass name argument))
  | negation {tokens} (holds : body tokens) : Known body (.not tokens)
  | combinator {combinator} : Known body (.combinator combinator)

theorem testChars (space : Namespace) (side : Option String) :
    (testToken space side).chars = space.chars ++ sideChars side := by
  cases side <;> rfl

theorem attributeChars (name : String) (space : Namespace)
    (comparison : Option (AttributeOperator × String)) :
    (attributeToken name space comparison).chars =
      '[' :: (space.chars ++ (sideChars (some name) ++ (comparisonChars comparison ++ [']']))) := by
  cases comparison with
  | none =>
    simp [attributeToken, Token.usual, Token.chars, Simple.chars, sideChars, comparisonChars]
  | some given =>
    simp [attributeToken, Token.usual, Token.chars, Simple.chars, sideChars, comparisonChars]

theorem pseudoClassChars (name : String) (argument : Option Argument) :
    (Token.usual (.pseudoClass name argument)).chars =
      ':' :: (name.toList ++ argumentChars argument) := by
  cases argument <;> simp [Token.usual, Token.chars, Simple.chars, argumentChars]

def BeginsTest (c : Char) : Prop := isNameChars c = true ∨ c = '\\' ∨ c = '*' ∨ c = '|'

theorem sideBegins {side : Option String} {rest : List Char} (named : IsSide side rest) :
    ∃ c cs, sideChars side ++ rest = c :: cs ∧ BeginsTest c := by
  rcases sideHead named with ⟨rfl, bar⟩ | rfl | ⟨c, cs, text, head⟩
  · cases rest with
    | nil => cases bar
    | cons c rest => exact ⟨c, rest, rfl, .inr (.inr (.inr (by simpa using bar)))⟩
  · exact ⟨'*', rest, rfl, .inr (.inr (.inl rfl))⟩
  · exact ⟨c, cs ++ rest, by rw [text, List.cons_append], head.imp_right .inl⟩

theorem testBegins {space : Namespace} {side : Option String} (rest : List Char)
    (spaced : written.Spaces space) (named : ∀ n ∈ side, IsName n) :
    ∃ c cs, (testToken space side).chars ++ rest = c :: cs ∧ BeginsTest c := by
  rw [testChars, spaceChars]
  cases front : space.front with
  | none =>
    exact sideBegins (fun n h => ⟨(named n h).2, fun e => absurd e (named n h).1⟩)
  | some before =>
    rw [Option.elim_some, List.append_assoc, List.append_assoc]
    exact sideBegins (frontSide spaced front)

theorem beginsTestOther {c : Char} (begins : BeginsTest c) :
    c ∉ ['#', '.', '[', ':', ' ', '>', '+', '~', ')', ','] := by
  have signs : ∀ d ∈ ['#', '.', '[', ':', ' ', '>', '+', '~', ')', ','],
      isNameChars d = false ∧ d ≠ '\\' ∧ d ≠ '*' ∧ d ≠ '|' := by decide
  intro member
  obtain ⟨stands, mark, star, bar⟩ := signs c member
  rcases begins with stands' | mark' | star' | bar'
  · rw [stands] at stands'
    cases stands'
  · exact mark mark'
  · exact star star'
  · exact bar bar'

theorem testSign {space : Namespace} {side : Option String} (rest : List Char)
    (spaced : written.Spaces space) (named : ∀ n ∈ side, IsName n) :
    signOf ((testToken space side).chars ++ rest) = none := by
  obtain ⟨c, cs, text, begins⟩ := testBegins rest spaced named
  have other := beginsTestOther begins
  simp only [List.mem_cons, not_or] at other
  simp [text, signOf, other]

theorem followsEnds {rest : List Char} (follows : Follows rest) :
    EndsTest rest ∧ EndsAt isPlainChar rest ∧ rest.head? ≠ some '(' := by
  have signs : ∀ c ∈ ['#', '.', '[', ':', ' ', ')', ','], (isNameChars c = false ∧ c ≠ '\\') ∧
      c ≠ '|' ∧ isPlainChar c = false ∧ c ≠ '(' := by decide
  refine ⟨⟨?_, ?_⟩, ?_, ?_⟩
  · intro c head
    exact (signs c (follows c head)).1
  · rintro cs rfl
    exact absurd rfl (signs '|' (follows '|' rfl)).2.1
  · intro c head
    exact (signs c (follows c head)).2.2.1
  · intro head
    exact absurd rfl (signs '(' (follows '(' head)).2.2.2

def Simple.sign : Simple → Option Char
  | .universal _ => none
  | .element .. => none
  | .id _ => some '#'
  | .className _ => some '.'
  | .attribute .. => some '['
  | .attributeValue .. => some '['
  | .pseudoElement _ => some ':'
  | .pseudoClass .. => some ':'

def Token.sign : Token → Option Char
  | .simple selector _ => selector.sign
  | .negation .. => some ':'
  | .combinator _ => some ' '

@[simp] theorem usualSign (selector : Simple) : (Token.usual selector).sign = selector.sign := rfl

@[simp] theorem notSign (body : List Token) : (Token.not body).sign = some ':' := rfl

@[simp] theorem combinatorSign (combinator : Combinator) :
    (Token.combinator combinator).sign = some ' ' := rfl

@[simp] theorem testTokenSign (space : Namespace) (side : Option String) :
    (testToken space side).sign = none := by
  cases side <;> rfl

@[simp] theorem attributeTokenSign (name : String) (space : Namespace)
    (comparison : Option (AttributeOperator × String)) :
    (attributeToken name space comparison).sign = some '[' := by
  cases comparison <;> rfl

theorem knownSign {body : List Token → Prop} {t : Token} (known : Known body t)
    (rest : List Char) : signOf (t.chars ++ rest) = t.sign := by
  cases known with
  | test spaced named => rw [testSign rest spaced named, testTokenSign]
  | bracket => rw [attributeChars, attributeTokenSign]; rfl
  | pseudoClass => rw [pseudoClassChars]; rfl
  | @combinator combinator => cases combinator <;> rfl
  | _ => rfl

theorem combinatorUnique {x y : Combinator} {r s : List Char} (opens : Opens r) (opens' : Opens s)
    (same : x.chars ++ r = y.chars ++ s) : x = y ∧ r = s := by
  have marked : ∀ {c : Char} {cs : List Char}, c ∈ [' ', '>', '+', '~'] → ¬ Opens (c :: cs) :=
    fun member opens => opens _ rfl member
  cases x <;> cases y <;> simp [Combinator.chars] at same ⊢
  case descendant.descendant => exact same
  all_goals first
    | exact same
    | exact absurd opens (same ▸ marked (by decide))
    | exact absurd opens' (same ▸ marked (by decide))

theorem argumentCharsUnique {name : String} {x y : Option Argument} {r s : List Char}
    (left : ∀ a ∈ x, written.Gives (isCounting name) a)
    (right : ∀ a ∈ y, written.Gives (isCounting name) a) (follows : Follows r)
    (follows' : Follows s) (same : argumentChars x ++ r = argumentChars y ++ s) :
    x = y ∧ r = s := by
  cases x with
  | none =>
    cases y with
    | none => exact ⟨rfl, same⟩
    | some b =>
      simp only [argumentChars, List.nil_append, List.cons_append] at same
      exact absurd (by simp [same]) (followsEnds follows).2.2
  | some a =>
    cases y with
    | none =>
      simp only [argumentChars, List.nil_append, List.cons_append] at same
      exact absurd (by simp [← same]) (followsEnds follows').2.2
    | some b =>
      simp only [argumentChars, List.cons_append, List.append_assoc, List.nil_append] at same
      obtain ⟨arguments, rests⟩ :=
        argumentUnique (left a rfl) (right b rfl) (List.cons.inj same).2
      exact ⟨congrArg some arguments, rests⟩

theorem testPrecedes {space : Namespace} {side : Option String} {rest : List Char}
    (before : (testToken space side).Precedes rest) : Follows rest := by
  cases side <;> exact before

theorem plainNoColon {name : String} {r s : List Char} (named : IsPlain name) :
    name.toList ++ r ≠ ':' :: s := by
  intro same
  cases text : name.toList with
  | nil => exact named.1 (by simpa using text)
  | cons c cs =>
    rw [text] at same
    cases (List.cons.inj same).1
    exact absurd (named.2 ':' (by simp [text])) (by decide)

theorem argumentCharsEnds (argument : Option Argument) {rest : List Char} (follows : Follows rest) :
    EndsAt isPlainChar (argumentChars argument ++ rest) := by
  cases argument with
  | none => exact (followsEnds follows).2.1
  | some a =>
    intro c head
    cases head
    decide

theorem notNoClass {name : String} {argument : Option Argument} {r s : List Char}
    (named : IsPlain name)
    (given : ∀ a ∈ argument, name ≠ "not" ∧ written.Gives (isCounting name) a)
    (follows : Follows r) :
    name.toList ++ (argumentChars argument ++ r) ≠ "not".toList ++ '(' :: s := by
  intro same
  have open' : EndsAt isPlainChar ('(' :: s) := by
    intro c head
    cases head
    decide
  obtain ⟨names, rests⟩ := plainUnique named (show IsPlain "not" by unfold IsPlain; decide)
    (argumentCharsEnds argument follows) open' same
  cases argument with
  | none =>
    exact (followsEnds follows).2.2 (by simpa [argumentChars] using congrArg List.head? rests)
  | some a => exact (given a rfl).1 names

theorem notChars (body : List Token) (rest : List Char) : (Token.not body).chars ++ rest =
    ':' :: ("not".toList ++ '(' :: (charsOf body ++ ')' :: rest)) := by
  simp [Token.not, Token.chars]

theorem pseudoClassUnique {m n : String} {x y : Option Argument} {r s : List Char}
    (named : IsPlain m) (named' : IsPlain n)
    (given : ∀ a ∈ x, written.Gives (isCounting m) a)
    (given' : ∀ a ∈ y, written.Gives (isCounting n) a) (follows : Follows r) (follows' : Follows s)
    (same : m.toList ++ (argumentChars x ++ r) = n.toList ++ (argumentChars y ++ s)) :
    m = n ∧ x = y ∧ r = s := by
  obtain ⟨rfl, rests⟩ := plainUnique named named' (argumentCharsEnds _ follows)
    (argumentCharsEnds _ follows') same
  exact ⟨rfl, argumentCharsUnique given given' follows follows' rests⟩

section
variable {body : List Token → Prop}
  (bodyUnique : ∀ {a b : List Token} {r s : List Char}, body a → body b →
    charsOf a ++ ')' :: r = charsOf b ++ ')' :: s → a = b ∧ r = s)
  {t u : Token} {r s : List Char} (left : Known body t) (right : Known body u)
  (before : t.Precedes r) (before' : u.Precedes s) (same : t.chars ++ r = u.chars ++ s)
include bodyUnique left right before before' same

theorem colonUnique (colon : t.sign = some ':') (colon' : u.sign = some ':') : t = u ∧ r = s := by
  cases left with
  | pseudoElement named =>
    cases right with
    | pseudoElement named' =>
      obtain ⟨names, rests⟩ := plainUnique named named' (followsEnds before).2.1
        (followsEnds before').2.1 (List.cons.inj (List.cons.inj same).2).2
      cases names
      exact ⟨rfl, rests⟩
    | pseudoClass named' _ =>
      rw [pseudoClassChars, List.cons_append, List.append_assoc] at same
      exact absurd (List.cons.inj same).2.symm (plainNoColon named')
    | negation _ => cases same
    | _ => simp [Simple.sign] at colon'
  | pseudoClass named given =>
    rw [pseudoClassChars, List.cons_append, List.append_assoc] at same
    cases right with
    | pseudoElement _ => exact absurd (List.cons.inj same).2 (plainNoColon named)
    | pseudoClass named' given' =>
      rw [pseudoClassChars, List.cons_append, List.append_assoc] at same
      obtain ⟨rfl, rfl, rests⟩ := pseudoClassUnique named named' (fun a h => (given a h).2)
        (fun a h => (given' a h).2) before before' (List.cons.inj same).2
      exact ⟨rfl, rests⟩
    | negation _ =>
      rw [notChars] at same
      exact absurd (List.cons.inj same).2 (notNoClass named given before)
    | _ => simp [Simple.sign] at colon'
  | negation holds =>
    cases right with
    | pseudoElement _ => cases same
    | pseudoClass named' given' =>
      rw [notChars, pseudoClassChars, List.cons_append, List.append_assoc] at same
      exact absurd (List.cons.inj same).2.symm (notNoClass named' given' before')
    | negation holds' =>
      rw [notChars, notChars] at same
      obtain ⟨bodies, rests⟩ := bodyUnique holds holds'
        (List.cons.inj (List.append_cancel_left (List.cons.inj same).2)).2
      cases bodies
      exact ⟨rfl, rests⟩
    | _ => simp [Simple.sign] at colon'
  | _ => simp [Simple.sign] at colon

theorem tokenUnique : t = u ∧ r = s := by
  have signs : t.sign = u.sign := by
    rw [← knownSign left r, same, knownSign right s]
  by_cases colon : t.sign = some ':'
  · exact colonUnique bodyUnique left right before before' same colon (signs ▸ colon)
  cases left with
  | test spaced named =>
    cases right with
    | test spaced' named' =>
      rw [testChars, testChars, List.append_assoc, List.append_assoc] at same
      obtain ⟨rfl, rfl, rests⟩ := spacedUnique spaced spaced' named named'
        (followsEnds (testPrecedes before)).1 (followsEnds (testPrecedes before')).1 same
      exact ⟨rfl, rests⟩
    | _ => simp [Simple.sign] at signs
  | id named =>
    cases right with
    | id named' =>
      obtain ⟨names, rests⟩ := identifierUnique named.2 named'.2
        (followsEnds before).1.1 (followsEnds before').1.1 (List.cons.inj same).2
      cases String.toList_inj.mp names
      exact ⟨rfl, rests⟩
    | _ => simp [Simple.sign] at signs
  | className named =>
    cases right with
    | className named' =>
      obtain ⟨names, rests⟩ := identifierUnique named.2 named'.2
        (followsEnds before).1.1 (followsEnds before').1.1 (List.cons.inj same).2
      cases String.toList_inj.mp names
      exact ⟨rfl, rests⟩
    | _ => simp [Simple.sign] at signs
  | bracket spaced named valued =>
    cases right with
    | bracket spaced' named' valued' =>
      simp only [attributeChars, List.cons_append, List.append_assoc, List.nil_append] at same
      obtain ⟨rfl, names, rests⟩ := spacedUnique spaced spaced'
        (fun n h => Option.mem_some.mp h ▸ named) (fun n h => Option.mem_some.mp h ▸ named')
        (comparisonEndsTest _ _) (comparisonEndsTest _ _) (List.cons.inj same).2
      obtain ⟨comparisons, closes⟩ := comparisonUnique valued valued' rests
      cases names
      cases comparisons
      exact ⟨rfl, closes⟩
    | _ => simp [Simple.sign] at signs
  | combinator =>
    cases right with
    | combinator =>
      obtain ⟨rfl, rests⟩ := combinatorUnique before before' same
      exact ⟨rfl, rests⟩
    | _ => simp [Simple.sign] at signs
  | _ => exact absurd rfl colon

end

/-! Sequences. -/

theorem charsOfAppend (ts us : List Token) : charsOf (ts ++ us) = charsOf ts ++ charsOf us := by
  induction ts with
  | nil => rfl
  | cons t ts ih => simp [charsOf, ih]

/-- Tokens one after another, each followed by what shows where it ends. -/
def Laid (body : List Token → Prop) : List Token → List Char → Prop
  | [], _ => True
  | t :: ts, rest => Known body t ∧ t.Precedes (charsOf ts ++ rest) ∧ Laid body ts rest

theorem laidAppend {body : List Token → Prop} {ts us : List Token} {rest : List Char}
    (left : Laid body ts (charsOf us ++ rest)) (right : Laid body us rest) :
    Laid body (ts ++ us) rest := by
  induction ts with
  | nil => exact right
  | cons t ts ih =>
    obtain ⟨known, before, next⟩ := left
    refine ⟨known, ?_, ih next⟩
    have whole : charsOf (ts ++ us) ++ rest = charsOf ts ++ (charsOf us ++ rest) := by
      rw [charsOfAppend, List.append_assoc]
    exact whole ▸ before

def Closes (rest : List Char) : Prop := ∀ c, rest.head? = some c → c = ')' ∨ c = ','

theorem knownNotClosed {body : List Token → Prop} {t : Token} (known : Known body t)
    (rest : List Char) : ¬ Closes (t.chars ++ rest) := by
  intro closes
  cases known with
  | test spaced named =>
    obtain ⟨c, cs, text, begins⟩ := testBegins rest spaced named
    rw [text] at closes
    rcases closes c rfl with rfl | rfl
    · exact beginsTestOther begins (by decide)
    · exact beginsTestOther begins (by decide)
  | bracket =>
    rw [attributeChars] at closes
    exact absurd (closes '[' rfl) (by decide)
  | pseudoClass =>
    rw [pseudoClassChars] at closes
    exact absurd (closes ':' rfl) (by decide)
  | @combinator combinator =>
    cases combinator <;> exact absurd (closes ' ' rfl) (by decide)
  | id => exact absurd (closes '#' rfl) (by decide)
  | className => exact absurd (closes '.' rfl) (by decide)
  | _ => exact absurd (closes ':' rfl) (by decide)

theorem laidUnique {body : List Token → Prop}
    (bodyUnique : ∀ {a b : List Token} {r s : List Char}, body a → body b →
      charsOf a ++ ')' :: r = charsOf b ++ ')' :: s → a = b ∧ r = s)
    {ts us : List Token} {r s : List Char} (left : Laid body ts r) (right : Laid body us s)
    (closes : Closes r) (closes' : Closes s) (same : charsOf ts ++ r = charsOf us ++ s) :
    ts = us ∧ r = s := by
  induction ts generalizing us with
  | nil =>
    cases us with
    | nil => exact ⟨rfl, same⟩
    | cons u us =>
      rw [charsOf, charsOf, List.nil_append, List.append_assoc] at same
      exact absurd (same ▸ closes) (knownNotClosed right.1 _)
  | cons t ts ih =>
    cases us with
    | nil =>
      rw [charsOf, charsOf, List.nil_append, List.append_assoc] at same
      exact absurd (same ▸ closes') (knownNotClosed left.1 _)
    | cons u us =>
      rw [charsOf, charsOf, List.append_assoc, List.append_assoc] at same
      obtain ⟨tokens, texts⟩ := tokenUnique bodyUnique left.1 right.1 left.2.1 right.2.1 same
      obtain ⟨rest, ends⟩ := ih left.2.2 right.2.2 texts
      exact ⟨by rw [tokens, rest], ends⟩

/-! Selectors are laid out so that they can be told apart. -/

/-- Begins with a sign, so that it may come after other tokens of its compound. -/
def Token.IsSigned (t : Token) : Prop := ∃ c ∈ ['#', '.', '[', ':'], t.sign = some c

def IsTest (t : Token) : Prop :=
  ∃ space side, t = testToken space side ∧ written.Spaces space ∧ ∀ n ∈ side, IsName n

structure Places.Tells (p : Places) (body : List Token → Prop) : Prop where
  head {t} : p.head t → IsTest t
  part {opens t} : p.part opens t → Known body t ∧ t.IsSigned
  last {t} : p.last t → Known body t ∧ t.IsSigned

theorem signedPrecedes {t : Token} {rest : List Char} (signed : t.IsSigned)
    (follows : Follows rest) : t.Precedes rest := by
  obtain ⟨c, member, sign⟩ := signed
  cases t with
  | simple selector bucket => exact follows
  | negation form body bucket => exact follows
  | combinator combinator =>
    cases sign
    exact absurd member (by decide)

theorem signedText {body : List Token → Prop} {t : Token} (rest : List Char)
    (known : Known body t) (signed : t.IsSigned) :
    Follows (t.chars ++ rest) ∧ Opens (t.chars ++ rest) := by
  have signs : ∀ c ∈ ['#', '.', '[', ':'],
      c ∈ ['#', '.', '[', ':', ' ', ')', ','] ∧ c ∉ [' ', '>', '+', '~'] := by decide
  obtain ⟨c, member, sign⟩ := signed
  have head := (knownSign known rest).trans sign
  have first : (t.chars ++ rest).head? = some c := (Option.filter_eq_some_iff.mp head).1
  constructor
  · intro d same
    cases first.symm.trans same
    exact (signs c member).1
  · intro d same
    cases first.symm.trans same
    exact (signs c member).2

theorem testOpens {t : Token} (rest : List Char) (test : IsTest t) : Opens (t.chars ++ rest) := by
  obtain ⟨space, side, rfl, spaced, named⟩ := test
  obtain ⟨c, cs, text, begins⟩ := testBegins rest spaced named
  have other := beginsTestOther begins
  intro d head
  rw [text] at head
  cases head
  simp only [List.mem_cons, not_or] at other ⊢
  simp [other]

theorem testKnown {body : List Token → Prop} {t : Token} {rest : List Char} (test : IsTest t)
    (follows : Follows rest) : Known body t ∧ t.Precedes rest := by
  obtain ⟨space, side, rfl, spaced, named⟩ := test
  refine ⟨.test spaced named, ?_⟩
  cases side <;> exact follows

theorem closesFollows {rest : List Char} (closes : Closes rest) : Follows rest := by
  intro c head
  rcases closes c head with rfl | rfl <;> decide

theorem combinatorFollows (combinator : Combinator) (rest : List Char) :
    Follows (combinator.chars ++ rest) := by
  intro c head
  cases combinator <;> cases head <;> decide

section
variable {p : Places} {body : List Token → Prop} (tells : p.Tells body)
include tells

theorem laidParts {opens : Bool} {parts : List Token} {rest : List Char}
    (all : ∀ t ∈ parts, p.part opens t) (follows : Follows rest) :
    Laid body parts rest ∧ Follows (charsOf parts ++ rest) := by
  induction parts with
  | nil => exact ⟨trivial, follows⟩
  | cons t parts ih =>
    obtain ⟨laid, next⟩ := ih (fun u member => all u (by simp [member]))
    obtain ⟨known, signed⟩ := tells.part (all t (by simp))
    refine ⟨⟨known, signedPrecedes signed next, laid⟩, ?_⟩
    rw [charsOf, List.append_assoc]
    exact (signedText _ known signed).1

theorem laidCompound {opens : Bool} {tokens : List Token} {rest : List Char}
    (whole : IsCompound p opens tokens) (follows : Follows rest) :
    Laid body tokens rest ∧ Opens (charsOf tokens ++ rest) := by
  cases whole with
  | bare =>
    have test : IsTest (.usual (.universal .unspecified)) :=
      ⟨.unspecified, none, rfl, trivial, by simp⟩
    have ⟨known, before⟩ : Known body _ ∧ _ := testKnown test follows
    refine ⟨⟨known, before, trivial⟩, ?_⟩
    rw [charsOf, charsOf, List.append_nil]
    exact testOpens rest test
  | headed first parts =>
    obtain ⟨laid, next⟩ := laidParts tells parts follows
    obtain ⟨known, before⟩ := testKnown (tells.head first) next
    refine ⟨⟨known, before, laid⟩, ?_⟩
    rw [charsOf, List.append_assoc]
    exact testOpens _ (tells.head first)
  | headless first parts =>
    obtain ⟨laid, next⟩ := laidParts tells parts follows
    obtain ⟨known, signed⟩ := tells.part first
    refine ⟨⟨known, signedPrecedes signed next, laid⟩, ?_⟩
    rw [charsOf, List.append_assoc]
    exact (signedText _ known signed).2

theorem laidSequence {opens : Bool} {tokens : List Token} {rest : List Char}
    (sequence : IsSequence p opens tokens) (closes : Closes rest) :
    Laid body tokens rest ∧ Opens (charsOf tokens ++ rest) := by
  induction sequence with
  | compound whole => exact laidCompound tells whole (closesFollows closes)
  | @ended opens tokens last front ends =>
    obtain ⟨known, signed⟩ := tells.last ends
    have alone : Laid body [last] rest :=
      ⟨known, signedPrecedes signed (closesFollows closes), trivial⟩
    have text : charsOf [last] ++ rest = last.chars ++ rest := by
      rw [charsOf, charsOf, List.append_nil]
    have sign := signedText rest known signed
    rw [← text] at sign
    rcases front with rfl | ⟨whole, _⟩
    · exact ⟨alone, sign.2⟩
    · obtain ⟨laid, opening⟩ := laidCompound tells whole sign.1
      refine ⟨laidAppend laid alone, ?_⟩
      rw [charsOfAppend, List.append_assoc]
      exact opening
  | @combined opens tokens combinator next front _ ih =>
    obtain ⟨laidNext, opening⟩ := ih
    have laid : Laid body (.combinator combinator :: next) rest := ⟨.combinator, opening, laidNext⟩
    have follows : Follows (charsOf (.combinator combinator :: next) ++ rest) := by
      rw [charsOf, List.append_assoc]
      exact combinatorFollows combinator _
    obtain ⟨laidFront, first⟩ := laidCompound tells front follows
    refine ⟨laidAppend laidFront laid, ?_⟩
    rw [charsOfAppend, List.append_assoc]
    exact first

end

theorem headsTest {t : Token} (heads : written.Heads t) : IsTest t := by
  cases heads with
  | universal spaced _ => exact ⟨_, none, rfl, spaced, by simp⟩
  | @element name space spaced named =>
    exact ⟨space, some name, rfl, spaced, fun n h => Option.mem_some.mp h ▸ named⟩

theorem qualifiesKnown {body : List Token → Prop} {opens : Bool} {t : Token}
    (qualifies : written.Qualifies opens t) : Known body t ∧ t.IsSigned := by
  cases qualifies with
  | id named => exact ⟨.id named, '#', by decide, rfl⟩
  | className named => exact ⟨.className named, '.', by decide, rfl⟩
  | @presence name space spaced named =>
    have known : Known body (attributeToken name space none) := .bracket spaced named (by simp)
    exact ⟨known, '[', by decide, rfl⟩
  | @comparison name operator value space spaced named valued =>
    have known : Known body (attributeToken name space (some (operator, value))) :=
      .bracket spaced named (fun given member => Option.mem_some.mp member ▸ valued)
    exact ⟨known, '[', by decide, rfl⟩
  | pseudoClass named => exact ⟨.pseudoClass named (by simp), ':', by decide, rfl⟩
  | function named given =>
    exact ⟨.pseudoClass named.1 (by simpa using ⟨named.2, given⟩), ':', by decide, rfl⟩

theorem insideTells : written.inside.Tells (fun _ => False) where
  head := headsTest
  part := qualifiesKnown
  last := False.elim

theorem insideUnique {a b : List Token} {r s : List Char} (left : IsSequence written.inside false a)
    (right : IsSequence written.inside false b)
    (same : charsOf a ++ ')' :: r = charsOf b ++ ')' :: s) : a = b ∧ r = s := by
  have closes : ∀ {cs : List Char}, Closes (')' :: cs) := by
    intro cs c head
    cases head
    exact .inl rfl
  obtain ⟨bodies, rests⟩ := laidUnique (fun holds => holds.elim)
    (laidSequence insideTells left closes).1 (laidSequence insideTells right closes).1
    closes closes same
  exact ⟨bodies, (List.cons.inj rests).2⟩

theorem outsideTells : written.outside.Tells (IsSequence written.inside false) where
  head := headsTest
  part := by
    intro opens t part
    cases part with
    | simple qualifies => exact qualifiesKnown qualifies
    | negation holds => exact ⟨.negation holds, ':', by decide, rfl⟩
  last := by
    intro t ends
    cases ends with
    | pseudoElement named => exact ⟨.pseudoElement named, ':', by decide, rfl⟩

theorem charsOfUnique {ts us : List Token} (left : written.IsSelector ts)
    (right : written.IsSelector us) (same : charsOf ts = charsOf us) : ts = us := by
  have closes : Closes [] := by simp [Closes]
  have laid := (laidSequence outsideTells left closes).1
  have laid' := (laidSequence outsideTells right closes).1
  exact (laidUnique insideUnique laid laid' closes closes (congrArg (· ++ []) same)).1

/-- Selectors have the same canonical text only if they are the same. -/
theorem canonicalTextUnique {ts us : List Token} (left : written.IsSelector ts)
    (right : written.IsSelector us) : canonicalText ts = canonicalText us ↔ ts = us := by
  constructor
  · intro same
    exact charsOfUnique left right (String.ofList_injective same)
  · exact congrArg canonicalText

/-- A namespace that is named by a star is not the wildcard. -/
theorem canonicalTextUniqueStar :
    written.IsSelector [.usual (.element "--a" (.named "*"))] ∧
      written.IsSelector [.usual (.element "--a" .any)] ∧
      canonicalText [.usual (.element "--a" (.named "*"))] ≠
        canonicalText [.usual (.element "--a" .any)] := by
  have named : IsName "--a" := by unfold IsName HasNoNull; decide
  have starred : written.Spaces (.named "*") := by
    change HasNoNull _
    unfold HasNoNull
    decide
  have left : written.IsSelector [.usual (.element "--a" (.named "*"))] :=
    .compound (.headed (.element starred named) (by simp))
  have right : written.IsSelector [.usual (.element "--a" .any)] :=
    .compound (.headed (.element trivial named) (by simp))
  exact ⟨left, right, mt (canonicalTextUnique left right).mp (by decide)⟩

end SelectorRank
