import SelectorRank.Grammar.Conversion
import SelectorRank.Proofs.Spelling

/-! The shape of selectors: compounds with one combinator between two of them, an element test
first in its compound if at all, a bare universal selector alone in its compound, and a
pseudo-element last of all. What the texts in the tokens may be is a parameter, so that one shape
serves selectors as they are read and selectors as they are written. -/
namespace SelectorRank

/-- What the texts of tokens may be, by the fields that hold them. The first compound of a selector
may hold pseudo-classes that the others may not. -/
structure Vocabulary where
  element : Namespace → String → Prop
  name : String → Prop
  id : String → Prop
  space : String → Prop
  value : String → Prop
  series : Series → Prop
  pseudoElement : String → Prop
  pseudoClass : (opens : Bool) → String → Prop
  function : String → Prop

/-- Tokens by the places in a selector at which they may stand. -/
structure Places where
  head : Token → Prop
  part : (opens : Bool) → Token → Prop
  last : Token → Prop

inductive IsCompound (p : Places) (opens : Bool) : List Token → Prop where
  | bare : IsCompound p opens [.usual (.universal .unspecified)]
  | headed {head parts} (first : p.head head) (rest : ∀ t ∈ parts, p.part opens t) :
      IsCompound p opens (head :: parts)
  | headless {part parts} (first : p.part opens part) (rest : ∀ t ∈ parts, p.part opens t) :
      IsCompound p opens (part :: parts)

/-- A compound that may go on with a pseudo-element; the bare universal selector may not. -/
def IsEnded (p : Places) (opens : Bool) (tokens : List Token) : Prop :=
  tokens = [] ∨ IsCompound p opens tokens ∧ tokens ≠ [.usual (.universal .unspecified)]

inductive IsSequence (p : Places) : (opens : Bool) → List Token → Prop where
  | compound {opens tokens} (whole : IsCompound p opens tokens) : IsSequence p opens tokens
  | ended {opens tokens last} (front : IsEnded p opens tokens) (closes : p.last last) :
      IsSequence p opens (tokens ++ [last])
  | combined {opens tokens combinator rest} (front : IsCompound p opens tokens)
      (next : IsSequence p false rest) :
      IsSequence p opens (tokens ++ .combinator combinator :: rest)

theorem compoundTokens {p : Places} {opens : Bool} {tokens : List Token}
    (whole : IsCompound p opens tokens) {t : Token} (member : t ∈ tokens) :
    p.head t ∨ p.part opens t ∨ t = .usual (.universal .unspecified) := by
  cases whole with
  | bare => exact .inr (.inr (List.mem_singleton.mp member))
  | headed first rest =>
    rcases List.mem_cons.mp member with rfl | member
    · exact .inl first
    · exact .inr (.inl (rest t member))
  | headless first rest =>
    rcases List.mem_cons.mp member with rfl | member
    · exact .inr (.inl first)
    · exact .inr (.inl (rest t member))

theorem sequenceTokens {p : Places} {holds : Token → Prop} (head : ∀ {t}, p.head t → holds t)
    (part : ∀ {opens t}, p.part opens t → holds t) (last : ∀ {t}, p.last t → holds t)
    (bare : holds (.usual (.universal .unspecified)))
    (combinator : ∀ combinator, holds (.combinator combinator)) {opens : Bool}
    {tokens : List Token} (sequence : IsSequence p opens tokens) : ∀ t ∈ tokens, holds t := by
  have compound : ∀ {opens tokens}, IsCompound p opens tokens → ∀ t ∈ tokens, holds t := by
    intro opens tokens whole t member
    rcases compoundTokens whole member with test | qualifies | rfl
    · exact head test
    · exact part qualifies
    · exact bare
  induction sequence with
  | compound whole => exact compound whole
  | ended front closes =>
    refine List.forall_mem_append.mpr ⟨?_, List.forall_mem_singleton.mpr (last closes)⟩
    rcases front with rfl | ⟨whole, _⟩
    · simp
    · exact compound whole
  | combined front _ ih =>
    exact List.forall_mem_append.mpr ⟨compound front, List.forall_mem_cons.mpr ⟨combinator _, ih⟩⟩

namespace Vocabulary

def Spaces (v : Vocabulary) : Namespace → Prop
  | .named name => v.space name
  | _ => True

def Gives (v : Vocabulary) (counting : Bool) : Argument → Prop
  | .identifier value => counting = false ∧ v.name value
  | .string value => counting = false ∧ v.value value
  | .parity _ => counting = true
  | .series value => counting = true ∧ v.series value

inductive Heads (v : Vocabulary) : Token → Prop where
  | universal {space} (spaced : v.Spaces space) (some : space ≠ .unspecified) :
      Heads v (.usual (.universal space))
  | element {name space} (spaced : v.Spaces space) (named : v.element space name) :
      Heads v (.usual (.element name space))

inductive Qualifies (v : Vocabulary) (opens : Bool) : Token → Prop where
  | id {name} (named : v.id name) : Qualifies v opens (.usual (.id name))
  | className {name} (named : v.name name) : Qualifies v opens (.usual (.className name))
  | presence {name space} (spaced : v.Spaces space) (named : v.name name) :
      Qualifies v opens (.usual (.attribute name space))
  | comparison {name operator value space} (spaced : v.Spaces space) (named : v.name name)
      (valued : v.value value) :
      Qualifies v opens (.usual (.attributeValue name operator value space))
  | pseudoClass {name} (named : v.pseudoClass opens name) :
      Qualifies v opens (.usual (.pseudoClass name none))
  | function {name argument} (named : v.function name)
      (given : v.Gives (isCounting name) argument) :
      Qualifies v opens (.usual (.pseudoClass name (some argument)))

def inside (v : Vocabulary) : Places := ⟨v.Heads, v.Qualifies, fun _ => False⟩

inductive Parts (v : Vocabulary) (opens : Bool) : Token → Prop where
  | simple {t} (qualifies : v.Qualifies opens t) : Parts v opens t
  | negation {body} (holds : IsSequence v.inside false body) : Parts v opens (.not body)

inductive Ends (v : Vocabulary) : Token → Prop where
  | pseudoElement {name} (named : v.pseudoElement name) : Ends v (.usual (.pseudoElement name))

def outside (v : Vocabulary) : Places := ⟨v.Heads, v.Parts, v.Ends⟩

/-- The whole shape. Negations may hold more than one compound. -/
def IsSelector (v : Vocabulary) (tokens : List Token) : Prop := IsSequence v.outside true tokens

end Vocabulary

/-! A wider vocabulary has every selector of a narrower one. -/

structure Places.Within (p q : Places) : Prop where
  head {t} : p.head t → q.head t
  part {opens t} : p.part opens t → q.part opens t
  last {t} : p.last t → q.last t

theorem compoundWithin {p q : Places} (within : p.Within q) {opens : Bool} {tokens : List Token}
    (whole : IsCompound p opens tokens) : IsCompound q opens tokens := by
  cases whole with
  | bare => exact .bare
  | headed first rest =>
    exact .headed (within.head first) (fun t member => within.part (rest t member))
  | headless first rest =>
    exact .headless (within.part first) (fun t member => within.part (rest t member))

theorem sequenceWithin {p q : Places} (within : p.Within q) {opens : Bool} {tokens : List Token}
    (sequence : IsSequence p opens tokens) : IsSequence q opens tokens := by
  induction sequence with
  | compound whole => exact .compound (compoundWithin within whole)
  | ended front closes =>
    exact .ended (front.imp_right (And.imp_left (compoundWithin within))) (within.last closes)
  | combined front _ ih => exact .combined (compoundWithin within front) ih

/-! Where all tokens of a selector have a property, those at each place have it. -/

def Places.having (p : Places) (holds : Token → Prop) : Places where
  head := fun t => p.head t ∧ holds t
  part := fun opens t => p.part opens t ∧ holds t
  last := fun t => p.last t ∧ holds t

section
variable {p : Places} {holds : Token → Prop} {opens : Bool} {tokens : List Token}

theorem compoundHaving (whole : IsCompound p opens tokens) (all : ∀ t ∈ tokens, holds t) :
    IsCompound (p.having holds) opens tokens := by
  cases whole with
  | bare => exact .bare
  | headed first rest =>
    obtain ⟨head, parts⟩ := List.forall_mem_cons.mp all
    exact .headed ⟨first, head⟩ (fun t member => ⟨rest t member, parts t member⟩)
  | headless first rest =>
    obtain ⟨part, parts⟩ := List.forall_mem_cons.mp all
    exact .headless ⟨first, part⟩ (fun t member => ⟨rest t member, parts t member⟩)

theorem sequenceHaving (sequence : IsSequence p opens tokens) (all : ∀ t ∈ tokens, holds t) :
    IsSequence (p.having holds) opens tokens := by
  induction sequence with
  | compound whole => exact .compound (compoundHaving whole all)
  | ended front closes =>
    obtain ⟨inner, last⟩ := List.forall_mem_append.mp all
    refine .ended ?_ ⟨closes, List.forall_mem_singleton.mp last⟩
    exact front.imp_right (And.imp_left (compoundHaving · inner))
  | combined front _ ih =>
    obtain ⟨inner, rest⟩ := List.forall_mem_append.mp all
    exact .combined (compoundHaving front inner) (ih (List.forall_mem_cons.mp rest).2)

end

namespace Vocabulary

structure Within (v w : Vocabulary) : Prop where
  element {space name} : v.element space name → w.element space name
  name {name} : v.name name → w.name name
  id {name} : v.id name → w.id name
  space {name} : v.space name → w.space name
  value {value} : v.value value → w.value value
  series {series} : v.series series → w.series series
  pseudoElement {name} : v.pseudoElement name → w.pseudoElement name
  pseudoClass {opens name} : v.pseudoClass opens name → w.pseudoClass opens name
  function {name} : v.function name → w.function name

variable {v w : Vocabulary} (within : v.Within w)
include within

theorem spacesWithin {space : Namespace} (spaced : v.Spaces space) : w.Spaces space := by
  cases space with
  | named name => exact within.space spaced
  | unspecified => trivial
  | any => trivial

theorem givesWithin {counting : Bool} {argument : Argument} (given : v.Gives counting argument) :
    w.Gives counting argument := by
  cases argument with
  | identifier value => exact given.imp_right within.name
  | string value => exact given.imp_right within.value
  | parity value => exact given
  | series value => exact given.imp_right within.series

theorem insideWithin : v.inside.Within w.inside where
  head heads := by
    cases heads with
    | universal spaced known => exact .universal (spacesWithin within spaced) known
    | element spaced named => exact .element (spacesWithin within spaced) (within.element named)
  part qualifies := by
    cases qualifies with
    | id named => exact .id (within.id named)
    | className named => exact .className (within.name named)
    | presence spaced named => exact .presence (spacesWithin within spaced) (within.name named)
    | comparison spaced named valued =>
      exact .comparison (spacesWithin within spaced) (within.name named) (within.value valued)
    | pseudoClass named => exact .pseudoClass (within.pseudoClass named)
    | function named given => exact .function (within.function named) (givesWithin within given)
  last := False.elim

theorem outsideWithin : v.outside.Within w.outside where
  head := (insideWithin within).head
  part part := by
    cases part with
    | simple qualifies => exact .simple ((insideWithin within).part qualifies)
    | negation holds => exact .negation (sequenceWithin (insideWithin within) holds)
  last ends := by
    cases ends with
    | pseudoElement named => exact .pseudoElement (within.pseudoElement named)

theorem selectorWithin {tokens : List Token} (shape : v.IsSelector tokens) : w.IsSelector tokens :=
  sequenceWithin (outsideWithin within) shape

end Vocabulary

end SelectorRank
