import SelectorRank.Token

/-! Specificity of token sequences. A negation that states no column passes its body on. -/
namespace SelectorRank

structure Specificity where
  a : Nat
  b : Nat
  c : Nat
  d : Nat
  deriving DecidableEq, Repr

namespace Specificity

def zero : Specificity := ⟨0, 0, 0, 0⟩

def ofBucket : Bucket → Specificity
  | .a => ⟨1, 0, 0, 0⟩
  | .b => ⟨0, 1, 0, 0⟩
  | .c => ⟨0, 0, 1, 0⟩
  | .d => ⟨0, 0, 0, 1⟩

def add (x y : Specificity) : Specificity := ⟨x.a + y.a, x.b + y.b, x.c + y.c, x.d + y.d⟩

def column (x : Specificity) : Bucket → Nat
  | .a => x.a
  | .b => x.b
  | .c => x.c
  | .d => x.d

def ofOption : Option Bucket → Specificity
  | none => zero
  | some bucket => ofBucket bucket

def columns (x : Specificity) : List Nat := [x.a, x.b, x.c, x.d]

def inline : Specificity := ⟨1, 0, 0, 0⟩

def text (x : Specificity) : String := String.intercalate "," (x.columns.map toString)

def outranks (x y : Specificity) : Prop :=
  x.a > y.a ∨ x.a = y.a ∧ (x.b > y.b ∨ x.b = y.b ∧ (x.c > y.c ∨ x.c = y.c ∧ x.d > y.d))

instance (x y : Specificity) : Decidable (x.outranks y) := by unfold outranks; infer_instance

end Specificity

mutual

def Token.specificity : Token → Specificity
  | .simple _ bucket => Specificity.ofOption bucket
  | .negation _ _ (some bucket) => Specificity.ofBucket bucket
  | .negation _ body none => specificityOf body
  | .combinator _ => .zero

def specificityOf : List Token → Specificity
  | [] => .zero
  | t :: ts => t.specificity.add (specificityOf ts)

end

end SelectorRank
