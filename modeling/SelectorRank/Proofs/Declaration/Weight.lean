import SelectorRank.Proofs.Datum.Render
import SelectorRank.Proofs.Declaration.Order
import SelectorRank.Proofs.Specificity

/-! Weight of declarations. A style sheet declaration weighs what the tokens of its selector count
for; tokens behind those of another selector never make a declaration lose to it, and make it win
unless none of them counts in a column. -/
namespace SelectorRank

namespace Declaration

/-- A declaration of a style sheet, by what it is compared for. -/
structure Sheet (origin : Origin) (important : Bool) (tokens : List Token) (d : Declaration) :
    Prop where
  sheet : origin ≠ .inline
  origin : d.origin = .known origin
  important : d.isImportant = important
  matched : ∃ s, d.matched = .selector s ∧ s.tokens = tokens ∧ s.specificity = specificityOf tokens

variable {origin : Origin} {important : Bool} {tokens xs ys : List Token} {d x y : Declaration}

theorem sheetSpecificity (h : Sheet origin important tokens d) :
    d.specificity = .ok (specificityOf tokens) := by
  obtain ⟨sheet, known, _, s, matched, _, weight⟩ := h
  rw [specificity, known, matched, ← weight]
  cases origin with
  | inline => exact absurd rfl sheet
  | author | user | userAgent => rfl

theorem sheetPrecedence (hx : Sheet origin important xs x) (hy : Sheet origin important ys y) :
    ∃ level, x.precedence = .ok level ∧ y.precedence = .ok level := by
  have same : y.precedence = x.precedence := by
    rw [precedence, precedence, hx.origin, hy.origin, hx.important, hy.important]
  rw [same, precedence, hx.origin]
  cases origin <;> exact ⟨_, rfl, rfl⟩

theorem outranksAdd (s : Specificity) {t : Specificity} (some : t ≠ .zero) :
    (s.add t).outranks s := by
  obtain ⟨a, b, c, d⟩ := t
  simp only [ne_eq, Specificity.zero, Specificity.mk.injEq] at some
  simp only [Specificity.add, Specificity.outranks]
  omega

theorem compareMore (hx : Sheet origin important (xs ++ ys) x) (hy : Sheet origin important xs y) :
    x.compare y = .ok (if specificityOf ys = .zero then .eq else .lt) := by
  obtain ⟨level, left, right⟩ := sheetPrecedence hx hy
  have weight := specificityAppend xs ys
  refine compareFromSource (.level left right rfl (sheetSpecificity hx) (sheetSpecificity hy) ?_)
  split
  · next none =>
    refine .inr (.inr ⟨rfl, ?_⟩)
    rw [weight, none, addComm, zeroAdd]
  · next some => exact .inl ⟨rfl, weight ▸ outranksAdd _ some⟩

/-- The specificity of tokens that were checked has in each column the number of places where a
token counts in it. So it is added up over sequences that are joined, does not change when tokens
change places at any depth or are wrapped in a negation that states no column, and is no less for
more tokens. It is the same exactly if no token that counts among the added ones states a column. -/
theorem specificityCounts :
    (∀ (raw : Datum) tokens, raw.check = .ok tokens →
      raw.tally = .ok (specificityOf tokens)) ∧
    (∀ bucket tokens, (countedIn bucket tokens).encard = (specificityOf tokens).column bucket) ∧
    (∀ xs ys, specificityOf (xs ++ ys) = (specificityOf xs).add (specificityOf ys)) ∧
    (∀ xs ys, Rearranged xs ys → specificityOf xs = specificityOf ys) ∧
    (∀ form front body back, specificityOf (front ++ .negation form body none :: back) =
      specificityOf (front ++ body ++ back)) ∧
    ∀ origin important xs ys x y, Sheet origin important (xs ++ ys) x → Sheet origin important xs y →
      ∃ o, x.compare y = .ok o ∧ o.isLE ∧
        (o = .eq ↔ ∀ path t, countedAt? ys path = some t → t.bucket = none) := by
  refine ⟨fun raw tokens ok => Datum.tallyListed (Datum.checkSource ok),
    fun bucket => (columnCounts bucket).2, specificityAppend, fun _ _ => specificityRearranged,
    specificityWrapped, ?_⟩
  intro origin important xs ys x y hx hy
  refine ⟨_, compareMore hx hy, ?_, ?_⟩
  · split <;> rfl
  · rw [← specificityZero]
    split
    · next none => simp [none]
    · next some => simp [some]

theorem specificityCountsNested :
    let body : List Token := [.usual (.id "b"), .usual (.className "c")]
    let xs : List Token := [.usual (.element "a" .unspecified)]
    let ys : List Token := [.combinator .child, .not body]
    let turned : List Token := [.combinator .child, .not body.reverse]
    let raw : Datum := .list (tokenData (xs ++ ys))
    let x : Declaration := ⟨.known .user, .integer 1, .selector (.ofTokens (xs ++ ys))⟩
    let y : Declaration := ⟨.known .user, .bool false, .selector (.ofTokens xs)⟩
    raw.check = .ok (xs ++ ys) ∧ raw.tally = .ok ⟨0, 1, 1, 1⟩ ∧
      Rearranged ys turned ∧ specificityOf ys = specificityOf turned ∧
      Sheet .user false (xs ++ ys) x ∧ Sheet .user false xs y ∧ x.compare y = .ok .lt := by
  intro body xs ys turned raw x y
  obtain ⟨weighs, _, _, turns, _, compares⟩ := specificityCounts
  have ok : raw.check = .ok (xs ++ ys) := rfl
  have same : Rearranged ys turned := .inside [.combinator .child] [] (.perm (List.reverse_perm _).symm)
  have hx : Sheet .user false (xs ++ ys) x := ⟨by decide, rfl, rfl, _, rfl, rfl, rfl⟩
  have hy : Sheet .user false xs y := ⟨by decide, rfl, rfl, _, rfl, rfl, rfl⟩
  obtain ⟨o, compared, notBehind, tie⟩ := compares .user false xs ys x y hx hy
  have counts : o ≠ .eq := fun none => nomatch tie.mp none [1, 0] _ rfl
  have wins : o = .lt := by
    cases o with
    | lt => rfl
    | eq => exact absurd rfl counts
    | gt => cases notBehind
  exact ⟨ok, weighs raw _ ok, same, turns ys turned same, hx, hy, wins ▸ compared⟩

/-- A universal selector stands at the top but states no column, so it makes no declaration win. -/
theorem universalTies :
    let xs : List Token := [.usual (.className "a")]
    let ys : List Token := [.combinator .descendant, .usual (.universal .unspecified)]
    let x : Declaration := ⟨.known .author, .bool false, .selector (.ofTokens (xs ++ ys))⟩
    let y : Declaration := ⟨.known .author, .bool false, .selector (.ofTokens xs)⟩
    (Datum.list (tokenData (xs ++ ys))).check = .ok (xs ++ ys) ∧ Sheet .author false (xs ++ ys) x ∧
      Sheet .author false xs y ∧
      ¬ (x.compare y = .ok .eq ↔ ∀ path, countedAt? ys path = none) := by
  intro xs ys x y
  refine ⟨rfl, ⟨by decide, rfl, rfl, _, rfl, rfl, rfl⟩, ⟨by decide, rfl, rfl, _, rfl, rfl, rfl⟩, ?_⟩
  intro tie
  have counted : countedAt? ys [1] = some (.usual (.universal .unspecified)) := rfl
  cases counted.symm.trans (tie.mp rfl [1])

end Declaration

end SelectorRank
