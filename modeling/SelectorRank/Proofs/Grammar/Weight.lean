import Mathlib.Data.List.Forall2
import SelectorRank.Proofs.Grammar.Conversion
import SelectorRank.Proofs.Specificity

/-! Weight of what is written. A conversion keeps the nodes of a tree in their order, one token for
each, and a token counts in the column of its node. Only an element test without a name counts
nowhere, so it does not matter where its token is left out. -/
namespace SelectorRank

/-- What stands at a node of a tree, and what a token stands for. -/
inductive Kind where
  | element | id | className | attribute | pseudo | function | negation | unsupported
  | pseudoElement | combinator
  deriving DecidableEq, Repr

/-! Nodes, from left to right through both sides of a combinator and all of a negation. An element
test without a name is no node here. -/

mutual

def Complex.kinds : Complex → List Kind
  | .compound c => c.kinds
  | .combined left _ right => left.kinds ++ .combinator :: right.kinds

def Compound.kinds : Compound → List Kind
  | .element _ name => if name.isSome then [.element] else []
  | .qualified base part => base.kinds ++ part.kinds

def Part.kinds : Part → List Kind
  | .id _ => [.id]
  | .className _ => [.className]
  | .attribute _ => [.attribute]
  | .pseudo _ => [.pseudo]
  | .function .. => [.function]
  | .negation body => .negation :: body.kinds
  | _ => [.unsupported]

end

def Written.kinds (w : Written) : List Kind :=
  w.selector.kinds ++ if w.pseudoElement.isSome then [.pseudoElement] else []

/-! Tokens, in the same order. -/

def Simple.kinds : Simple → List Kind
  | .universal _ => []
  | .element .. => [.element]
  | .id _ => [.id]
  | .className _ => [.className]
  | .attribute .. => [.attribute]
  | .attributeValue .. => [.attribute]
  | .pseudoElement _ => [.pseudoElement]
  | .pseudoClass _ none => [.pseudo]
  | .pseudoClass _ (some _) => [.function]

mutual

def Token.kinds : Token → List Kind
  | .simple selector _ => selector.kinds
  | .negation _ body _ => .negation :: kindsOf body
  | .combinator _ => [.combinator]

def kindsOf : List Token → List Kind
  | [] => []
  | t :: ts => t.kinds ++ kindsOf ts

end

/-- Columns that kinds count in. A negation counts nowhere itself. -/
def weigh (kinds : List Kind) : Specificity where
  a := 0
  b := kinds.count .id
  c := kinds.count .className + kinds.count .attribute + kinds.count .pseudo + kinds.count .function
  d := kinds.count .element + kinds.count .pseudoElement

/-- Tokens that stand for these nodes and weigh as much. -/
structure Stands (kinds : List Kind) (tokens : List Token) : Prop where
  order : kindsOf tokens = kinds
  weight : specificityOf tokens = weigh kinds

theorem kindsAppend (xs ys : List Token) : kindsOf (xs ++ ys) = kindsOf xs ++ kindsOf ys := by
  induction xs with
  | nil => rfl
  | cons x xs ih => simp [kindsOf, ih]

theorem weighAppend (xs ys : List Kind) : weigh (xs ++ ys) = (weigh xs).add (weigh ys) := by
  simp only [weigh, Specificity.add, List.count_append, Specificity.mk.injEq, true_and]
  exact ⟨by omega, by omega⟩

section
variable {kinds more : List Kind} {tokens others : List Token}

theorem Stands.append (front : Stands kinds tokens) (back : Stands more others) :
    Stands (kinds ++ more) (tokens ++ others) where
  order := by rw [kindsAppend, front.order, back.order]
  weight := by rw [specificityAppend, weighAppend, front.weight, back.weight]

theorem standsSingle {t : Token} (order : t.kinds = kinds) (weight : t.specificity = weigh kinds) :
    Stands kinds [t] where
  order := by simp [kindsOf, order]
  weight := by simp [specificityOf, weight, Specificity.add, Specificity.zero]

theorem standsNone : Stands [] [] := ⟨rfl, rfl⟩

theorem standsUsual (s : Simple) : Stands s.kinds [.usual s] := by
  refine standsSingle rfl ?_
  cases s with
  | pseudoClass name argument => cases argument <;> rfl
  | _ => rfl

theorem standsNot (body : Stands kinds tokens) : Stands (.negation :: kinds) [.not tokens] := by
  refine standsSingle (congrArg _ body.order) ?_
  have same : weigh (.negation :: kinds) = weigh kinds := by simp [weigh]
  rw [same, ← body.weight]
  rfl

theorem standsCombinator (combinator : Combinator) : Stands [.combinator] [.combinator combinator] :=
  standsSingle rfl rfl

end

/-! Pieces of a tree. -/

theorem testStands (whole : Bool) (space name : Option String) :
    Stands (Compound.element space name).kinds (elementTokens whole space name) := by
  cases name with
  | some name => exact standsUsual (.element name (.ofWritten space))
  | none =>
    simp only [elementTokens]
    split
    · exact standsUsual (.universal (.ofWritten space))
    · exact standsNone

theorem attributeStands {test : AttributeTest} {t : Token} (given : test.token = .ok t) :
    Stands [.attribute] [t] := by
  obtain ⟨space, name, comparison⟩ := test
  cases name with
  | none => cases given
  | some name =>
    cases comparison with
    | none =>
      cases given
      exact standsUsual (.attribute name (.ofWritten space))
    | some c =>
      simp only [AttributeTest.token] at given
      split at given
      · cases given
        exact standsUsual (.attributeValue name _ c.value (.ofWritten space))
      · cases given

mutual

theorem complexStands (s : Complex) {tokens : List Token} (given : s.tokens = .ok tokens) :
    Stands s.kinds tokens := by
  cases s with
  | compound c =>
    rw [Complex.tokens] at given
    exact compoundStands c given
  | combined left combinator right =>
    rw [Complex.tokens] at given
    obtain ⟨before, front, given⟩ := bindOk given
    obtain ⟨after, back, given⟩ := bindOk given
    cases given
    have right := (standsCombinator combinator).append (compoundStands right back)
    exact (complexStands left front).append right

theorem compoundStands (c : Compound) {whole : Bool} {tokens : List Token}
    (given : c.tokens whole = .ok tokens) : Stands c.kinds tokens := by
  cases c with
  | element space name =>
    rw [Compound.tokens] at given
    cases given
    exact testStands whole space name
  | qualified base part =>
    rw [Compound.tokens] at given
    split at given
    · cases given
    · obtain ⟨before, front, given⟩ := bindOk given
      obtain ⟨t, last, given⟩ := bindOk given
      cases given
      exact (compoundStands base front).append (partStands part last)

theorem partStands (p : Part) {t : Token} (given : p.token = .ok t) : Stands p.kinds [t] := by
  match p, given with
  | .id name, given =>
    cases given
    exact standsUsual (.id name)
  | .className name, given =>
    cases given
    exact standsUsual (.className name)
  | .attribute test, given =>
    rw [Part.token] at given
    exact attributeStands given
  | .pseudo name, given =>
    cases given
    exact standsUsual (.pseudoClass name none)
  | .function name words, given =>
    rw [Part.token] at given
    obtain ⟨argument, _, given⟩ := bindOk given
    cases given
    exact standsUsual (.pseudoClass name (some argument))
  | .negation body, given =>
    rw [Part.token] at given
    obtain ⟨tokens, inner, given⟩ := bindOk given
    cases given
    exact standsNot (complexStands body inner)

end

/-! Whole selectors. -/

theorem pseudoElementStands {kinds : List Kind} {tokens : List Token} (name : String)
    (stands : Stands kinds tokens) :
    Stands (kinds ++ [.pseudoElement]) (withPseudoElement tokens name) := by
  have last := standsUsual (.pseudoElement name)
  unfold withPseudoElement
  split
  · next bare =>
    -- The universal selector that is left out stands for no node and weighs nothing.
    obtain ⟨front, rfl⟩ := List.getLast?_eq_some_iff.mp bare
    rw [List.dropLast_concat]
    refine Stands.append ⟨?_, ?_⟩ last
    · rw [← stands.order, kindsAppend]
      simp [kindsOf, Token.kinds, Simple.kinds, Token.usual]
    · rw [← stands.weight, specificityAppend]
      rfl
  · exact stands.append last

theorem writtenStands {w : Written} {tokens : List Token} (given : w.tokens = .ok tokens) :
    Stands w.kinds tokens := by
  obtain ⟨selector, pseudoElement⟩ := w
  rw [Written.tokens] at given
  obtain ⟨inner, front, given⟩ := bindOk given
  have stands := complexStands selector front
  cases pseudoElement with
  | none =>
    cases given
    simpa [Written.kinds] using stands
  | some e =>
    cases e with
    | plain name =>
      cases given
      exact pseudoElementStands name stands
    | functional name words => cases given

mutual

theorem complexNotLast (s : Complex) : .pseudoElement ∉ s.kinds := by
  cases s with
  | compound c => exact compoundNotLast c
  | combined left combinator right =>
    simp [Complex.kinds, complexNotLast left, compoundNotLast right]

theorem compoundNotLast (c : Compound) : .pseudoElement ∉ c.kinds := by
  cases c with
  | element space name => cases name <;> simp [Compound.kinds]
  | qualified base part => simp [Compound.kinds, compoundNotLast base, partNotLast part]

theorem partNotLast (p : Part) : .pseudoElement ∉ p.kinds := by
  cases p <;> simp [Part.kinds, complexNotLast]

end

theorem weighWritten (w : Written) : weigh w.kinds = ⟨0, w.selector.kinds.count .id,
    w.selector.kinds.count .className + w.selector.kinds.count .attribute +
      w.selector.kinds.count .pseudo + w.selector.kinds.count .function,
    w.selector.kinds.count .element + if w.pseudoElement.isSome then 1 else 0⟩ := by
  have none := List.count_eq_zero.mpr (complexNotLast w.selector)
  rw [Written.kinds, weighAppend]
  split <;> simp [weigh, none, Specificity.add]

/-- A selector and the tree that it is made from: the same nodes in the same order, each counted
once in its column. -/
structure MadeFrom (w : Written) (s : Selector) : Prop where
  order : kindsOf s.tokens = w.kinds
  specificity : s.specificity = ⟨0, w.selector.kinds.count .id,
    w.selector.kinds.count .className + w.selector.kinds.count .attribute +
      w.selector.kinds.count .pseudo + w.selector.kinds.count .function,
    w.selector.kinds.count .element + if w.pseudoElement.isSome then 1 else 0⟩
  combinators : (kindsOf s.tokens).count .combinator = w.selector.kinds.count .combinator

theorem convertMade {source : String} {w : Written} {s : Selector}
    (converted : convert source w = .ok s) : MadeFrom w s := by
  obtain ⟨tokens, given, rfl⟩ := convertSource converted
  have stands := writtenStands given
  refine ⟨stands.order, stands.weight.trans (weighWritten w), ?_⟩
  rw [show (Selector.ofTokens tokens).tokens = tokens from rfl, stands.order, Written.kinds]
  split <;> simp

theorem mapMPairs {α β ε : Type} {f : α → Except ε β} {xs : List α} {out : List β}
    (ok : xs.mapM f = .ok out) : List.Forall₂ (fun x y => f x = .ok y) xs out := by
  induction xs generalizing out with
  | nil =>
    cases ok
    exact .nil
  | cons x xs ih =>
    obtain ⟨y, rest, made, others, rfl⟩ := mapMCons ok
    exact .cons made (ih others)

/-- Whatever tree is converted, the selector has its nodes and weighs what they weigh; so have all
selectors of a source the nodes of the trees that the source is read as. -/
theorem conversionWeighs (source : String) :
    (∀ w s, convert source w = .ok s → MadeFrom w s) ∧
    ∀ selectors, parseList source = .ok selectors →
      ∃ list, readSource source.toList = .ok list ∧ List.Forall₂ MadeFrom list selectors := by
  refine ⟨fun w s => convertMade, fun selectors parsed => ?_⟩
  unfold parseList at parsed
  split at parsed
  · cases parsed
  · next list read => exact ⟨list, read, (mapMPairs parsed).imp fun w s => convertMade⟩

/-- A bare star in front of a pseudo-element is left out and changes nothing. -/
theorem conversionWeighsStar :
    let source := "a:not(b > .c#d) *::before"
    ∃ w s, parseList source = .ok [s] ∧ readSource source.toList = .ok [w] ∧ MadeFrom w s ∧
      s.specificity = ⟨0, 1, 1, 3⟩ ∧ w.kinds = [.element, .negation, .element, .combinator,
        .className, .id, .combinator, .pseudoElement] := by
  intro source
  have parsed : parseList source = .ok [.ofTokens [.usual (.element "a" .unspecified),
      .not [.usual (.element "b" .unspecified), .combinator .child, .usual (.className "c"),
        .usual (.id "d")], .combinator .descendant, .usual (.pseudoElement "before")]] := by
    decide +kernel
  obtain ⟨list, read, made⟩ := (conversionWeighs source).2 _ parsed
  cases made with
  | cons first rest =>
    cases rest
    exact ⟨_, _, parsed, read, first, by decide, first.order.symm.trans (by decide)⟩

end SelectorRank
