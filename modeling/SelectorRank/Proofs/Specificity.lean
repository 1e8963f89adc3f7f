import Mathlib.Data.Set.Card
import SelectorRank.Specificity

/-! Specificity as a count. A token counts where it stands at the top or inside negations that state
no column, and each column of a specificity is the number of places where a token counts in it. -/
namespace SelectorRank

def Token.bucket : Token → Option Bucket
  | .simple _ bucket => bucket
  | .negation _ _ bucket => bucket
  | .combinator _ => none

/-- The token that counts at a place, which is given by the numbers that lead to it from the top. -/
def countedAt? (tokens : List Token) : List Nat → Option Token
  | [] => none
  | [i] => tokens[i]?
  | i :: path =>
      match tokens[i]? with
      | some (.negation _ body none) => countedAt? body path
      | _ => none

/-- Places of the tokens that count in a column. -/
def countedIn (bucket : Bucket) (tokens : List Token) : Set (List Nat) :=
  {path | ∃ t, countedAt? tokens path = some t ∧ t.bucket = some bucket}

/-! Places from a token on. -/

/-- Places of the tokens that count in a column, as they are seen from one token. -/
def Token.countedIn (bucket : Bucket) (t : Token) : Set (List Nat) :=
  {path | path = [] ∧ t.bucket = some bucket ∨
    ∃ form body, t = .negation form body none ∧ path ∈ SelectorRank.countedIn bucket body}

variable {bucket : Bucket} {t : Token} {ts xs ys : List Token}

def nextPlace : List Nat → List Nat
  | [] => []
  | i :: path => (i + 1) :: path

theorem nextPlaceInjective : Function.Injective nextPlace := by
  intro p q same
  match p, q with
  | [], [] => rfl
  | [], j :: q => cases same
  | i :: p, [] => cases same
  | i :: p, j :: q => simpa [nextPlace] using same

theorem countedNowhere (bucket : Bucket) : countedIn bucket [] = ∅ := by
  refine Set.eq_empty_of_forall_notMem fun path => ?_
  rintro ⟨t, found, _⟩
  match path with
  | [] => cases found
  | [i] => simp [countedAt?] at found
  | i :: j :: path => simp [countedAt?] at found

theorem countedFirst {path : List Nat} :
    0 :: path ∈ countedIn bucket (t :: ts) ↔ path ∈ t.countedIn bucket := by
  cases path with
  | nil => simp [countedIn, Token.countedIn, countedAt?]
  | cons i path =>
    constructor
    · rintro ⟨u, found, column⟩
      simp only [countedAt?, List.getElem?_cons_zero] at found
      split at found
      · next form body same =>
        exact .inr ⟨form, body, Option.some.inj same, u, found, column⟩
      · cases found
    · rintro (⟨none, _⟩ | ⟨form, body, rfl, u, found, column⟩)
      · cases none
      · exact ⟨u, found, column⟩

theorem countedLater {i : Nat} {path : List Nat} :
    (i + 1) :: path ∈ countedIn bucket (t :: ts) ↔ i :: path ∈ countedIn bucket ts := by
  cases path <;> rfl

theorem countedCons (bucket : Bucket) (t : Token) (ts : List Token) :
    countedIn bucket (t :: ts) =
      (0 :: ·) '' t.countedIn bucket ∪ nextPlace '' countedIn bucket ts := by
  ext path
  constructor
  · intro counted
    match path, counted with
    | [], ⟨_, found, _⟩ => cases found
    | 0 :: path, counted => exact .inl ⟨path, countedFirst.mp counted, rfl⟩
    | (i + 1) :: path, counted => exact .inr ⟨i :: path, countedLater.mp counted, rfl⟩
  · rintro (⟨path, counted, rfl⟩ | ⟨path, counted, rfl⟩)
    · exact countedFirst.mpr counted
    · match path, counted with
      | [], ⟨_, found, _⟩ => cases found
      | i :: path, counted => exact countedLater.mpr counted

theorem countedApart {path : List Nat} (first : path ∈ (0 :: ·) '' t.countedIn bucket) :
    path ∉ nextPlace '' countedIn bucket ts := by
  rintro ⟨later, _, same⟩
  obtain ⟨path, _, rfl⟩ := first
  cases later with
  | nil => cases same
  | cons i later => simp [nextPlace] at same

/-! Counting. -/

theorem columnAdd (x y : Specificity) (bucket : Bucket) :
    (x.add y).column bucket = x.column bucket + y.column bucket := by
  cases bucket <;> rfl

theorem columnZero (bucket : Bucket) : Specificity.zero.column bucket = 0 := by
  cases bucket <;> rfl

theorem columnOption (column : Option Bucket) (bucket : Bucket) :
    (Specificity.ofOption column).column bucket = if column = some bucket then 1 else 0 := by
  cases column with
  | none => cases bucket <;> rfl
  | some other => cases other <;> cases bucket <;> rfl

theorem closedCount (closed : ∀ form body, t ≠ .negation form body none) :
    (t.countedIn bucket).encard = (Specificity.ofOption t.bucket).column bucket := by
  have alone : t.countedIn bucket = {path | path = [] ∧ t.bucket = some bucket} := by
    ext path
    refine ⟨?_, .inl⟩
    rintro (here | ⟨form, body, same, _⟩)
    · exact here
    · exact absurd same (closed form body)
  rw [alone, columnOption]
  split
  · next states => simp [states]
  · next silent => simp [silent]

theorem openCount (form : BodyForm) (body : List Token) (bucket : Bucket) :
    (Token.negation form body none).countedIn bucket = countedIn bucket body := by
  ext path
  constructor
  · rintro (⟨_, states⟩ | ⟨_, _, same, counted⟩)
    · cases states
    · cases same
      exact counted
  · intro counted
    exact .inr ⟨form, body, rfl, counted⟩

theorem columnCounts (bucket : Bucket) :
    (∀ t : Token, (t.countedIn bucket).encard = t.specificity.column bucket) ∧
    ∀ tokens, (countedIn bucket tokens).encard = (specificityOf tokens).column bucket := by
  apply Token.specificity.mutual_induct
  case case1 => exact fun _ _ => closedCount nofun
  case case2 => exact fun _ _ _ => closedCount nofun
  case case3 =>
    intro form body counts
    rw [openCount, counts, Token.specificity]
  case case4 => exact fun _ => closedCount nofun
  case case5 => simp [countedNowhere, specificityOf, columnZero]
  case case6 =>
    intro t ts first rest
    have front : Function.Injective (List.cons 0 : List Nat → List Nat) :=
      fun _ _ same => List.tail_eq_of_cons_eq same
    rw [countedCons, Set.encard_union_eq (Set.disjoint_left.mpr fun _ => countedApart), front.encard_image,
      nextPlaceInjective.encard_image, first, rest, specificityOf, columnAdd, Nat.cast_add]

/-! Sums. -/

theorem addComm (x y : Specificity) : x.add y = y.add x := by
  simp [Specificity.add, Nat.add_comm]

theorem addAssoc (x y z : Specificity) : (x.add y).add z = x.add (y.add z) := by
  simp [Specificity.add, Nat.add_assoc]

theorem zeroAdd (x : Specificity) : Specificity.zero.add x = x := by
  simp [Specificity.add, Specificity.zero]

theorem specificityAppend (xs ys : List Token) :
    specificityOf (xs ++ ys) = (specificityOf xs).add (specificityOf ys) := by
  induction xs with
  | nil => exact (zeroAdd _).symm
  | cons x xs ih => rw [List.cons_append, specificityOf, specificityOf, ih, addAssoc]

theorem specificityPerm (same : xs.Perm ys) : specificityOf xs = specificityOf ys := by
  induction same with
  | nil => rfl
  | cons x _ ih => rw [specificityOf, specificityOf, ih]
  | swap x y xs =>
    rw [specificityOf, specificityOf, specificityOf, specificityOf, ← addAssoc, addComm y.specificity,
      addAssoc]
  | trans _ _ first second => exact first.trans second

/-- Tokens in another order, at the top or in the body of a negation at any depth. -/
inductive Rearranged : List Token → List Token → Prop where
  | perm {before after} (same : before.Perm after) : Rearranged before after
  | inside {form before after bucket} (front back : List Token) (inner : Rearranged before after) :
      Rearranged (front ++ .negation form before bucket :: back)
        (front ++ .negation form after bucket :: back)
  | trans {before between after} (first : Rearranged before between)
      (second : Rearranged between after) : Rearranged before after

theorem specificityRearranged (same : Rearranged xs ys) : specificityOf xs = specificityOf ys := by
  induction same with
  | perm same => exact specificityPerm same
  | @inside form before after bucket front back _ ih =>
    have body : (Token.negation form before bucket).specificity =
        (Token.negation form after bucket).specificity := by
      cases bucket with
      | none => exact ih
      | some bucket => rfl
    rw [specificityAppend, specificityAppend, specificityOf, specificityOf, body]
  | trans _ _ first second => exact first.trans second

theorem specificityWrapped (form : BodyForm) (front body back : List Token) :
    specificityOf (front ++ .negation form body none :: back) =
      specificityOf (front ++ body ++ back) := by
  rw [List.append_assoc, specificityAppend, specificityAppend front, specificityAppend body]
  rfl

theorem zeroColumns {x : Specificity} : x = .zero ↔ ∀ bucket, x.column bucket = 0 := by
  refine ⟨fun none bucket => none ▸ columnZero bucket, fun none => ?_⟩
  obtain ⟨a, b, c, d⟩ := x
  simp only [Specificity.zero, Specificity.mk.injEq]
  exact ⟨none .a, none .b, none .c, none .d⟩

theorem specificityZero {tokens : List Token} :
    specificityOf tokens = .zero ↔
      ∀ path t, countedAt? tokens path = some t → t.bucket = none := by
  have column (bucket : Bucket) :
      (specificityOf tokens).column bucket = 0 ↔ countedIn bucket tokens = ∅ := by
    rw [← Set.encard_eq_zero, (columnCounts bucket).2, Nat.cast_eq_zero]
  simp only [zeroColumns, column, Set.eq_empty_iff_forall_notMem]
  constructor
  · intro silent path t found
    refine Option.eq_none_iff_forall_ne_some.mpr fun bucket states => ?_
    exact silent bucket path ⟨t, found, states⟩
  · rintro silent bucket path ⟨t, found, states⟩
    cases (silent path t found).symm.trans states

end SelectorRank
