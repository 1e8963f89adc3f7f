import SelectorRank.Proofs.Series
import SelectorRank.Proofs.Token.Shape
import SelectorRank.Token.Text

/-! Fragments of canonical text. Each shows where it ends by what may follow it, so two equal texts
split into fragments at the same places. -/
namespace SelectorRank
open Spelling Unescape

/-! Names, strings and plain names, each with what follows it. -/

section
variable {a b r s : List Char}

theorem identifierUnique (left : HasNoNull a) (right : HasNoNull b) (ends : EndsName r)
    (ends' : EndsName s) (same : identifier a ++ r = identifier b ++ s) : a = b ∧ r = s := by
  have spells := identifierSpells left
  have spells' := identifierSpells right
  have size : (identifier a).length = (identifier b).length := by
    rw [← nameLengthSpelled spells ends, same, nameLengthSpelled spells' ends']
  obtain ⟨texts, rests⟩ := List.append_inj same size
  rw [← texts] at spells'
  exact ⟨spellsUnique (by unfold StandsInName; decide) spells spells', rests⟩

theorem stringUnique (left : HasNoNull a) (right : HasNoNull b)
    (same : Spelling.string a ++ r = Spelling.string b ++ s) : a = b ∧ r = s := by
  have spells := stringSpells left
  have spells' := stringSpells right
  simp only [Spelling.string, List.cons_append, List.append_assoc, List.nil_append] at same
  have same := (List.cons.inj same).2
  have size : (a.flatMap stringChar).length = (b.flatMap stringChar).length := by
    rw [← bodyLengthSpelled r spells, same, bodyLengthSpelled s spells']
  obtain ⟨texts, rests⟩ := List.append_inj same size
  rw [← texts] at spells'
  exact ⟨spellsUnique (fun stands => stands.1 rfl) spells spells', (List.cons.inj rests).2⟩

end

def isPlainChar (c : Char) : Bool :=
  c == '-' || c == '_' || c.isDigit || ('a' ≤ c && c ≤ 'z') || isNonAscii c

/-- Names that need no escape. -/
def IsPlain (name : String) : Prop := name ≠ "" ∧ ∀ c ∈ name.toList, isPlainChar c = true

theorem plainUnique {m n : String} {r s : List Char} (left : IsPlain m) (right : IsPlain n)
    (ends : EndsAt isPlainChar r) (ends' : EndsAt isPlainChar s)
    (same : m.toList ++ r = n.toList ++ s) : m = n ∧ r = s := by
  obtain ⟨names, rests⟩ := frontUnique left.2 right.2 ends ends' same
  exact ⟨String.toList_inj.mp names, rests⟩

theorem identifierHead {name : String} (named : IsName name) :
    ∃ c cs, identifier name.toList = c :: cs ∧ (isNameChars c = true ∨ c = '\\') :=
  spellsHead (identifierSpells named.2) (by simpa using named.1)

/-- Texts that selectors may hold when they are written and told apart. -/
def written : Vocabulary where
  element := fun _ => IsName
  name := IsName
  id := IsName
  space := fun name => HasNoNull name.toList
  value := fun value => HasNoNull value.toList
  series := fun _ => True
  pseudoElement := IsPlain
  pseudoClass := fun _ => IsPlain
  function := fun name => IsPlain name ∧ name ≠ "not"

/-! Namespaces. A bar belongs to the operator when an equals sign follows it. -/

def EndsTest (rest : List Char) : Prop :=
  EndsName rest ∧ ∀ cs, rest = '|' :: cs → ∃ ds, cs = '=' :: ds

def sideChars : Option String → List Char
  | none => ['*']
  | some name => identifier name.toList

/-- A side that may be empty only in front of a bar. -/
def IsSide (side : Option String) (rest : List Char) : Prop :=
  ∀ name ∈ side, HasNoNull name.toList ∧ (name = "" → rest.head? = some '|')

theorem sideHead {side : Option String} {rest : List Char} (named : IsSide side rest) :
    side = some "" ∧ rest.head? = some '|' ∨ side = none ∨
      ∃ c cs, sideChars side = c :: cs ∧ (isNameChars c = true ∨ c = '\\') := by
  cases side with
  | none => exact .inr (.inl rfl)
  | some name =>
    obtain ⟨visible, bar⟩ := named name rfl
    by_cases empty : name = ""
    · exact .inl ⟨by rw [empty], bar empty⟩
    · exact .inr (.inr (identifierHead ⟨empty, visible⟩))

theorem starNoSide {side : Option String} {r s : List Char} (named : IsSide side r)
    (same : sideChars side ++ r = '*' :: s) : side = none ∧ r = s := by
  rcases sideHead named with ⟨rfl, bar⟩ | rfl | ⟨c, cs, text, head⟩
  · cases r with
    | nil => simp at bar
    | cons d r =>
      have star : d = '*' := (List.cons.inj same).1
      subst star
      simp at bar
  · exact ⟨rfl, (List.cons.inj same).2⟩
  · rw [text] at same
    cases (List.cons.inj same).1
    exact absurd head (by decide)

theorem sideUnique {side side' : Option String} {r s : List Char} (named : IsSide side r)
    (named' : IsSide side' s) (ends : EndsName r) (ends' : EndsName s)
    (same : sideChars side ++ r = sideChars side' ++ s) : side = side' ∧ r = s := by
  cases side with
  | none =>
    obtain ⟨star, rests⟩ := starNoSide named' same.symm
    exact ⟨star.symm, rests.symm⟩
  | some name =>
    cases side' with
    | none => exact starNoSide named same
    | some name' =>
      obtain ⟨names, rests⟩ :=
        identifierUnique (named name rfl).1 (named' name' rfl).1 ends ends' same
      exact ⟨congrArg some (String.toList_inj.mp names), rests⟩

def Namespace.front : Namespace → Option (Option String)
  | .unspecified => none
  | .named name => some (some name)
  | .any => some none

theorem namespaceUnique {space space' : Namespace} (same : space.front = space'.front) :
    space = space' := by
  cases space <;> cases space' <;> cases same <;> rfl

theorem spaceChars (space : Namespace) :
    space.chars = space.front.elim [] (fun side => sideChars side ++ ['|']) := by
  cases space <;> rfl

theorem frontSide {space : Namespace} {side : Option String} {rest : List Char}
    (spaced : written.Spaces space) (front : space.front = some side) :
    IsSide side ('|' :: rest) := by
  intro name named
  cases space with
  | unspecified => cases front
  | any => cases front; cases named
  | named m =>
    cases front
    cases named
    exact ⟨spaced, fun _ => rfl⟩

theorem barEndsName (rest : List Char) : EndsName ('|' :: rest) := by
  intro c head
  cases head
  decide

theorem testBarEquals {side : Option String} {r s : List Char} (ends : EndsTest r)
    (named : IsSide side s) (same : r = '|' :: (sideChars side ++ s)) : side = some "" := by
  obtain ⟨ds, equals⟩ := ends.2 _ same
  rcases sideHead named with ⟨empty, _⟩ | rfl | ⟨c, cs, text, head⟩
  · exact empty
  · exact absurd (List.cons.inj equals).1 (by decide)
  · rw [text] at equals
    cases (List.cons.inj equals).1
    exact absurd head (by decide)

theorem spacedUnique {space space' : Namespace} {side side' : Option String} {r s : List Char}
    (left : written.Spaces space) (right : written.Spaces space')
    (named : ∀ n ∈ side, IsName n) (named' : ∀ n ∈ side', IsName n)
    (ends : EndsTest r) (ends' : EndsTest s)
    (same : space.chars ++ (sideChars side ++ r) = space'.chars ++ (sideChars side' ++ s)) :
    space = space' ∧ side = side' ∧ r = s := by
  have whole : IsSide side r := fun n h => ⟨(named n h).2, fun e => absurd e (named n h).1⟩
  have whole' : IsSide side' s := fun n h => ⟨(named' n h).2, fun e => absurd e (named' n h).1⟩
  have long : side ≠ some "" := fun h => (named _ (by simp [h])).1 rfl
  have long' : side' ≠ some "" := fun h => (named' _ (by simp [h])).1 rfl
  rw [spaceChars, spaceChars] at same
  cases front : space.front with
  | none =>
    cases front' : space'.front with
    | none =>
      rw [front, front'] at same
      obtain ⟨sides, rests⟩ := sideUnique whole whole' ends.1 ends'.1 same
      exact ⟨namespaceUnique (front.trans front'.symm), sides, rests⟩
    | some before =>
      simp only [front, front', Option.elim_none, Option.elim_some, List.nil_append,
        List.append_assoc, List.cons_append] at same
      obtain ⟨_, rests⟩ :=
        sideUnique whole (frontSide right front') ends.1 (barEndsName _) same
      exact absurd (testBarEquals ends whole' rests) long'
  | some before =>
    cases front' : space'.front with
    | none =>
      simp only [front, front', Option.elim_none, Option.elim_some, List.nil_append,
        List.append_assoc, List.cons_append] at same
      obtain ⟨_, rests⟩ :=
        sideUnique (frontSide left front) whole' (barEndsName _) ends'.1 same
      exact absurd (testBarEquals ends' whole rests.symm) long
    | some before' =>
      simp only [front, front', Option.elim_some, List.nil_append,
        List.append_assoc, List.cons_append] at same
      obtain ⟨fronts, rests⟩ := sideUnique (frontSide left front) (frontSide right front')
        (barEndsName _) (barEndsName _) same
      obtain ⟨sides, rests⟩ :=
        sideUnique whole whole' ends.1 ends'.1 (List.cons.inj rests).2
      subst fronts
      exact ⟨namespaceUnique (front.trans front'.symm), sides, rests⟩

/-! Arguments and comparisons, each up to the bracket that closes it. -/

theorem closeEndsName {c : Char} (rest : List Char) (close : c = ')' ∨ c = ']') :
    EndsName (c :: rest) := by
  intro d head
  cases head
  rcases close with rfl | rfl <;> decide

theorem countingChars {a : Argument} (given : written.Gives true a) :
    ∀ c ∈ a.chars, (c != ')') = true := by
  cases a with
  | identifier _ => cases given.1
  | string _ => cases given.1
  | parity value => cases value <;> decide
  | series value =>
    intro c member
    rcases Series.textChars value c member with digit | rfl | rfl | rfl
    · simp only [bne_iff_ne, ne_eq]
      rintro rfl
      exact absurd digit (by decide)
    all_goals decide

theorem countingUnique {a b : Argument} (left : written.Gives true a) (right : written.Gives true b)
    (same : a.chars = b.chars) : a = b := by
  have noWord : ∀ {p : Parity} {s : Series}, s.text ≠ p.word.toList := by
    intro p s
    cases p
    · exact (Series.textNoWord s).1
    · exact (Series.textNoWord s).2
  cases a with
  | identifier _ => cases left.1
  | string _ => cases left.1
  | parity x =>
    cases b with
    | identifier _ => cases right.1
    | string _ => cases right.1
    | parity y => cases x <;> cases y <;> first | rfl | exact absurd same (by decide)
    | series _ => exact absurd same.symm noWord
  | series x =>
    cases b with
    | identifier _ => cases right.1
    | string _ => cases right.1
    | parity _ => exact absurd same noWord
    | series y => exact congrArg _ (Series.textUnique same)

theorem quotedNoName {name value : String} {r s : List Char} (named : IsName name) :
    identifier name.toList ++ r ≠ Spelling.string value.toList ++ s := by
  intro same
  obtain ⟨c, cs, text, head⟩ := identifierHead named
  rw [text] at same
  cases (List.cons.inj same).1
  exact absurd head (by decide)

theorem valueUnique {a b : Argument} {r s : List Char} (left : written.Gives false a)
    (right : written.Gives false b) (same : a.chars ++ ')' :: r = b.chars ++ ')' :: s) :
    a = b ∧ r = s := by
  cases a with
  | identifier x =>
    cases b with
    | identifier y =>
      obtain ⟨values, rests⟩ := identifierUnique left.2.2 right.2.2
        (closeEndsName r (.inl rfl)) (closeEndsName s (.inl rfl)) same
      exact ⟨congrArg _ (String.toList_inj.mp values), (List.cons.inj rests).2⟩
    | string _ => exact absurd same (quotedNoName left.2)
    | parity _ => cases right
    | series _ => cases right.1
  | string x =>
    cases b with
    | identifier _ => exact absurd same.symm (quotedNoName right.2)
    | string y =>
      obtain ⟨values, rests⟩ := stringUnique left.2 right.2 same
      exact ⟨congrArg _ (String.toList_inj.mp values), (List.cons.inj rests).2⟩
    | parity _ => cases right
    | series _ => cases right.1
  | parity _ => cases left
  | series _ => cases left.1

theorem argumentUnique {counting : Bool} {a b : Argument} {r s : List Char}
    (left : written.Gives counting a) (right : written.Gives counting b)
    (same : a.chars ++ ')' :: r = b.chars ++ ')' :: s) : a = b ∧ r = s := by
  cases counting with
  | false => exact valueUnique left right same
  | true =>
    have close : ∀ {cs : List Char}, EndsAt (· != ')') (')' :: cs) := by
      intro cs c head
      cases head
      rfl
    obtain ⟨texts, rests⟩ :=
      frontUnique (countingChars left) (countingChars right) close close same
    exact ⟨countingUnique left right texts, (List.cons.inj rests).2⟩

def comparisonChars : Option (AttributeOperator × String) → List Char
  | none => []
  | some (operator, value) => operator.symbol.toList ++ Spelling.string value.toList

theorem comparisonEndsTest (comparison : Option (AttributeOperator × String)) (rest : List Char) :
    EndsTest (comparisonChars comparison ++ ']' :: rest) := by
  cases comparison with
  | none => exact ⟨closeEndsName rest (.inr rfl), by simp [comparisonChars]⟩
  | some given =>
    obtain ⟨operator, value⟩ := given
    constructor
    · intro c head
      cases operator <;> cases head <;> decide
    · intro cs same
      cases operator <;> cases same
      exact ⟨_, rfl⟩

theorem symbolUnique {o o' : AttributeOperator} {r s : List Char}
    (same : o.symbol.toList ++ r = o'.symbol.toList ++ s) : o = o' ∧ r = s := by
  cases o <;> cases o' <;> simp_all [AttributeOperator.symbol]

theorem comparisonUnique {x y : Option (AttributeOperator × String)} {r s : List Char}
    (left : ∀ given ∈ x, HasNoNull given.2.toList) (right : ∀ given ∈ y, HasNoNull given.2.toList)
    (same : comparisonChars x ++ ']' :: r = comparisonChars y ++ ']' :: s) : x = y ∧ r = s := by
  cases x with
  | none =>
    cases y with
    | none => exact ⟨rfl, (List.cons.inj same).2⟩
    | some given =>
      obtain ⟨operator, value⟩ := given
      cases operator <;> cases same
  | some given =>
    obtain ⟨operator, value⟩ := given
    cases y with
    | none => cases operator <;> cases same
    | some given' =>
      obtain ⟨operator', value'⟩ := given'
      simp only [comparisonChars, List.append_assoc] at same
      obtain ⟨symbols, strings⟩ := symbolUnique same
      cases symbols
      obtain ⟨values, rests⟩ :=
        stringUnique (left (operator, value) rfl) (right (operator, value') rfl) strings
      cases String.toList_inj.mp values
      exact ⟨rfl, (List.cons.inj rests).2⟩

end SelectorRank
