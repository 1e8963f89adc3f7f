import SelectorRank.Proofs.Grammar.Conversion
import SelectorRank.Proofs.Grammar.Tally

/-! Tokens weigh as much as the tree that they are made from. -/
namespace SelectorRank

variable (x : Weight)

def Namespace.weight : Namespace → Nat
  | .named name => x.name name
  | _ => 0

def Simple.weight : Simple → Nat
  | .universal space => space.weight x
  | .element name space => space.weight x + x.name name
  | .id name => x.name name
  | .className name => x.name name
  | .pseudoElement name => x.name name
  | .pseudoClass name _ => x.name name
  | _ => 0

def Token.weight : Token → Nat
  | .simple selector _ => selector.weight x
  | _ => 0

def Weight.tokens (tokens : List Token) : Nat := (tokens.map (·.weight x)).sum

theorem tokensAppend (front back : List Token) :
    x.tokens (front ++ back) = x.tokens front + x.tokens back := by simp [Weight.tokens]

theorem tokensSingle (t : Token) : x.tokens [t] = t.weight x := by simp [Weight.tokens]

theorem silentTokens (silent : ∀ name, x.name name = 0) (tokens : List Token) :
    x.tokens tokens = 0 := by
  refine List.sum_eq_zero_iff_forall_eq_nat.mpr fun m member => ?_
  obtain ⟨t, _, rfl⟩ := List.mem_map.mp member
  have space (space : Namespace) : space.weight x = 0 := by
    cases space <;> simp [Namespace.weight, silent]
  cases t with
  | simple selector => cases selector <;> simp [Token.weight, Simple.weight, silent, space]
  | negation => rfl
  | combinator => rfl

theorem spaceWeight (space : Option String) :
    (Namespace.ofWritten space).weight x = x.side space := by
  cases space with
  | none => rfl
  | some name =>
    rw [Namespace.ofWritten]
    split
    · next star => exact star ▸ x.star.symm
    · rfl

theorem testWeight (whole : Bool) (space name : Option String) :
    x.tokens (elementTokens whole space name) = x.side space + x.side name := by
  cases name with
  | some name => exact (tokensSingle x _).trans (congrArg (· + x.name name) (spaceWeight x space))
  | none =>
    rw [elementTokens]
    split
    · exact (tokensSingle x _).trans (spaceWeight x space)
    · next hidden =>
      have none : space = none := by
        cases space with
        | none => rfl
        | some name => simp at hidden
      rw [none]
      rfl

theorem attributeWeight {test : AttributeTest} {t : Token} (given : test.token = .ok t) :
    t.weight x = 0 := by
  obtain ⟨space, name, comparison⟩ := test
  cases name with
  | none => cases given
  | some name =>
    cases comparison with
    | none =>
      cases given
      rfl
    | some c =>
      simp only [AttributeTest.token] at given
      split at given <;> cases given
      rfl

theorem partWeight {part : Part} {t : Token} (given : part.token = .ok t) :
    t.weight x = part.weight x := by
  match part, given with
  | .id name, given =>
    cases given
    rfl
  | .className name, given =>
    cases given
    rfl
  | .pseudo name, given =>
    cases given
    rfl
  | .attribute test, given =>
    rw [Part.token] at given
    exact attributeWeight x given
  | .function name words, given =>
    rw [Part.token] at given
    obtain ⟨argument, _, given⟩ := bindOk given
    cases given
    rfl
  | .negation body, given =>
    rw [Part.token] at given
    obtain ⟨tokens, _, given⟩ := bindOk given
    cases given
    rfl

theorem compoundWeight {c : Compound} {whole : Bool} {tokens : List Token}
    (given : c.tokens whole = .ok tokens) : x.tokens tokens = c.weight x := by
  induction c using Compound.weight.induct generalizing whole tokens with
  | case1 space name =>
    rw [Compound.tokens] at given
    cases given
    exact testWeight x whole space name
  | case2 base part ih =>
    rw [Compound.tokens] at given
    split at given
    · cases given
    · obtain ⟨before, front, given⟩ := bindOk given
      obtain ⟨t, last, given⟩ := bindOk given
      cases given
      rw [tokensAppend, ih front, tokensSingle, partWeight x last, Compound.weight]

theorem complexWeight {s : Complex} {tokens : List Token} (given : s.tokens = .ok tokens) :
    x.tokens tokens = s.weight x := by
  induction s using Complex.weight.induct generalizing tokens with
  | case1 c =>
    rw [Complex.tokens] at given
    exact compoundWeight x given
  | case2 left combinator right ih =>
    rw [Complex.tokens] at given
    obtain ⟨before, front, given⟩ := bindOk given
    obtain ⟨after, back, given⟩ := bindOk given
    cases given
    rw [tokensAppend, ih front, Complex.weight, ← compoundWeight x back]
    exact congrArg _ (Nat.zero_add _)

/-- The universal selector that is left out before a pseudo-element weighs nothing. -/
theorem lastWeight (tokens : List Token) (name : String) :
    x.tokens (withPseudoElement tokens name) = x.tokens tokens + x.name name := by
  rw [withPseudoElement, tokensAppend, tokensSingle]
  split
  · next bare =>
    obtain ⟨front, rfl⟩ := List.getLast?_eq_some_iff.mp bare
    rw [List.dropLast_concat, tokensAppend, tokensSingle]
    rfl
  · rfl

theorem writtenWeight {written : Written} {tokens : List Token}
    (given : written.tokens = .ok tokens) : x.tokens tokens = written.weight x := by
  obtain ⟨selector, last⟩ := written
  rw [Written.tokens] at given
  obtain ⟨inner, front, given⟩ := bindOk given
  have weight := complexWeight x front
  cases last with
  | none =>
    cases given
    exact weight
  | some e =>
    cases e with
    | plain name =>
      cases given
      exact (lastWeight x inner name).trans (congrArg (· + x.name name) weight)
    | functional name words => cases given

end SelectorRank
