import SelectorRank.Datum.Check
import SelectorRank.Proofs.Outcome

/-! Tokens that pass the check. What the check gives passes it again and comes out as it is, so no
token that was checked once can be refused later. -/
namespace SelectorRank

def Argument.IsNamed : Argument → Prop
  | .identifier value => value ≠ ""
  | _ => True

def Simple.IsNamed : Simple → Prop
  | .universal _ => True
  | .element name _ => name ≠ ""
  | .id name => name ≠ ""
  | .className name => name ≠ ""
  | .attribute name _ => name ≠ ""
  | .attributeValue name _ _ _ => name ≠ ""
  | .pseudoElement name => name ≠ ""
  | .pseudoClass name argument => name ≠ "" ∧ ∀ a ∈ argument, a.IsNamed

namespace Datum

/-! Fields. -/

@[simp] theorem checkBucketDatum (token : Datum) (bucket : Option Bucket) :
    checkBucket token (Bucket.datum? bucket) = .ok bucket := by
  cases bucket <;> rfl

@[simp] theorem checkNamespaceDatum (token : Datum) (space : Namespace) :
    checkNamespace token space.datum = .ok space := by
  cases space <;> rfl

theorem checkNameDatum {name : String} (token : Datum) (some : name ≠ "") :
    checkName token (.text name) = .ok name := if_neg some

theorem checkNameSome {token d : Datum} {name : String} (ok : checkName token d = .ok name) :
    name ≠ "" := by
  unfold checkName at ok
  split at ok
  · split at ok
    · cases ok
    · next some => cases ok; exact some
  · cases ok

theorem checkArgumentDatum {argument : Option Argument} (named : ∀ a ∈ argument, a.IsNamed) :
    checkArgument (Argument.datum? argument) = .ok argument := by
  cases argument with
  | none => rfl
  | some a =>
    cases a with
    | identifier value => exact if_neg (named _ rfl)
    | string value => rfl
    | parity value => cases value <;> rfl
    | series value => rfl

theorem checkArgumentNamed {d : Datum} {argument : Option Argument}
    (ok : checkArgument d = .ok argument) : ∀ a ∈ argument, a.IsNamed := by
  unfold checkArgument at ok
  split at ok
  · cases ok; simp
  · cases ok; simp [Argument.IsNamed]
  · cases ok
  · obtain ⟨parity, _, rfl⟩ := mapOk ok
    simp [Argument.IsNamed]
  · split at ok
    · cases ok
    · next some => cases ok; simpa [Argument.IsNamed] using some
  · cases ok; simp [Argument.IsNamed]
  · cases ok
  · cases ok
  · cases ok

/-! What a field holds that passes. -/

theorem checkBucketSource {token d : Datum} {bucket : Option Bucket}
    (ok : checkBucket token d = .ok bucket) : d = Bucket.datum? bucket := by
  unfold checkBucket at ok
  split at ok <;> cases ok <;> rfl

theorem checkNameSource {token d : Datum} {name : String} (ok : checkName token d = .ok name) :
    d = .text name := by
  unfold checkName at ok
  split at ok
  · split at ok <;> cases ok
    rfl
  · cases ok

theorem checkNamespaceSource {token d : Datum} {space : Namespace}
    (ok : checkNamespace token d = .ok space) : d = space.datum := by
  unfold checkNamespace at ok
  split at ok <;> cases ok <;> rfl

theorem checkOperatorSource {d : Datum} {operator : AttributeOperator}
    (ok : checkOperator d = .ok operator) : d = .operatorMember operator := by
  unfold checkOperator at ok
  split at ok <;> cases ok
  rfl

theorem checkValueSource {d : Datum} {value : String} (ok : checkValue d = .ok value) :
    d = .text value := by
  unfold checkValue at ok
  split at ok <;> cases ok
  rfl

theorem ofWordParity {word : String} {parity : Parity} (found : Parity.ofWord? word = some parity) :
    word = parity.word := by
  unfold Parity.ofWord? at found
  split at found
  · next odd => cases found; exact odd
  split at found
  · next even => cases found; exact even
  · cases found

theorem checkParitySource {d : Datum} {parity : Parity} (ok : checkParity d = .ok parity) :
    d = .text parity.word := by
  unfold checkParity at ok
  split at ok
  · cases ok
  split at ok
  · split at ok
    · next found => cases ok; rw [ofWordParity found]
    · cases ok
  · cases ok

theorem checkArgumentSource {d : Datum} {argument : Option Argument}
    (ok : checkArgument d = .ok argument) : d = Argument.datum? argument := by
  unfold checkArgument at ok
  split at ok
  · cases ok; rfl
  · cases ok; rfl
  · cases ok
  · obtain ⟨parity, given, rfl⟩ := mapOk ok
    rw [checkParitySource given]
    rfl
  · split at ok <;> cases ok
    rfl
  · cases ok; rfl
  · cases ok
  · cases ok
  · cases ok

/-! Tokens. -/

theorem checkSimpleDatum {s : Simple} (named : s.IsNamed) (bucket : Option Bucket) :
    checkSimple (s.datum bucket) = .ok (.simple s bucket) := by
  cases s <;> simp_all [Simple.datum, Simple.IsNamed, checkSimple, checkNameDatum,
    checkArgumentDatum, checkOperator, checkValue, bind, Except.bind]

/-- What the check asks of tokens: names are not empty, nor are negations. -/
inductive Checked : Token → Prop where
  | simple {s bucket} (named : s.IsNamed) : Checked (.simple s bucket)
  | negation {form body bucket} (some : body ≠ []) (each : ∀ t ∈ body, Checked t) :
      Checked (.negation form body bucket)
  | combinator {value} : Checked (.combinator value)

theorem checkSimpleGiven {d : Datum} {t : Token} (ok : checkSimple d = .ok t) :
    d = t.datum ∧ Checked t := by
  unfold checkSimple at ok
  split at ok
  · obtain ⟨bucket, column, ok⟩ := bindOk ok
    obtain ⟨space, spaced, ok⟩ := bindOk ok
    cases ok
    rw [checkBucketSource column, checkNamespaceSource spaced]
    exact ⟨rfl, .simple trivial⟩
  · obtain ⟨bucket, column, ok⟩ := bindOk ok
    obtain ⟨name, named, ok⟩ := bindOk ok
    obtain ⟨space, spaced, ok⟩ := bindOk ok
    cases ok
    rw [checkBucketSource column, checkNameSource named, checkNamespaceSource spaced]
    exact ⟨rfl, .simple (checkNameSome named)⟩
  · obtain ⟨bucket, column, ok⟩ := bindOk ok
    obtain ⟨name, named, ok⟩ := bindOk ok
    cases ok
    rw [checkBucketSource column, checkNameSource named]
    exact ⟨rfl, .simple (checkNameSome named)⟩
  · obtain ⟨bucket, column, ok⟩ := bindOk ok
    obtain ⟨name, named, ok⟩ := bindOk ok
    cases ok
    rw [checkBucketSource column, checkNameSource named]
    exact ⟨rfl, .simple (checkNameSome named)⟩
  · obtain ⟨bucket, column, ok⟩ := bindOk ok
    obtain ⟨name, named, ok⟩ := bindOk ok
    obtain ⟨space, spaced, ok⟩ := bindOk ok
    cases ok
    rw [checkBucketSource column, checkNameSource named, checkNamespaceSource spaced]
    exact ⟨rfl, .simple (checkNameSome named)⟩
  · obtain ⟨bucket, column, ok⟩ := bindOk ok
    obtain ⟨name, named, ok⟩ := bindOk ok
    obtain ⟨space, spaced, ok⟩ := bindOk ok
    obtain ⟨operator, compared, ok⟩ := bindOk ok
    obtain ⟨value, valued, ok⟩ := bindOk ok
    cases ok
    rw [checkBucketSource column, checkNameSource named, checkNamespaceSource spaced,
      checkOperatorSource compared, checkValueSource valued]
    exact ⟨rfl, .simple (checkNameSome named)⟩
  · obtain ⟨bucket, column, ok⟩ := bindOk ok
    obtain ⟨name, named, ok⟩ := bindOk ok
    cases ok
    rw [checkBucketSource column, checkNameSource named]
    exact ⟨rfl, .simple (checkNameSome named)⟩
  · obtain ⟨bucket, column, ok⟩ := bindOk ok
    obtain ⟨name, named, ok⟩ := bindOk ok
    obtain ⟨argument, given, ok⟩ := bindOk ok
    cases ok
    rw [checkBucketSource column, checkNameSource named, checkArgumentSource given]
    exact ⟨rfl, .simple ⟨checkNameSome named, checkArgumentNamed given⟩⟩
  · cases ok
    exact ⟨rfl, .combinator⟩
  · cases ok

theorem checkAllSome {items : List Datum} {tokens : List Token} (ok : checkAll items = .ok tokens)
    (some : ¬ items.isEmpty = true) : tokens ≠ [] := by
  cases items with
  | nil => exact absurd rfl some
  | cons d ds =>
    obtain ⟨t, _, ok⟩ := bindOk ok
    obtain ⟨ts, _, ok⟩ := bindOk ok
    cases ok
    simp

theorem checkedStages :
    (∀ d t, checkToken d = .ok t → d = t.datum ∧ Checked t) ∧
    (∀ d form tokens, checkBody d = .ok (form, tokens) →
      d = form.datum (tokenData tokens) ∧ tokens ≠ [] ∧ ∀ t ∈ tokens, Checked t) ∧
    (∀ items tokens, checkAll items = .ok tokens →
      items = tokenData tokens ∧ ∀ t ∈ tokens, Checked t) := by
  apply checkToken.mutual_induct
  case case1 =>
    intro body bucket inner t ok
    obtain ⟨column, counted, ok⟩ := bindOk ok
    obtain ⟨⟨form, tokens⟩, checked, ok⟩ := bindOk ok
    cases ok
    obtain ⟨same, some, each⟩ := inner form tokens checked
    rw [checkBucketSource counted, same]
    exact ⟨rfl, .negation some each⟩
  case case2 =>
    intro other simple t ok
    rw [checkToken.eq_2 _ simple] at ok
    exact checkSimpleGiven ok
  case case3 | case5 =>
    intro items none form tokens ok
    simp [checkBody, none] at ok
  case case4 | case6 =>
    intro items some each form tokens ok
    rw [checkBody, if_neg some] at ok
    obtain ⟨tokens, checked, ok⟩ := bindOk ok
    cases ok
    obtain ⟨same, each⟩ := each tokens checked
    exact ⟨by rw [same]; rfl, checkAllSome checked some, each⟩
  case case7 =>
    intro other list tuple form tokens ok
    rw [checkBody.eq_3 _ list tuple] at ok
    cases ok
  case case8 =>
    intro tokens ok
    cases ok
    exact ⟨rfl, by simp⟩
  case case9 =>
    intro d ds first rest tokens ok
    obtain ⟨t, checked, ok⟩ := bindOk ok
    obtain ⟨ts, others, ok⟩ := bindOk ok
    cases ok
    obtain ⟨same, given⟩ := first t checked
    obtain ⟨same', givens⟩ := rest ts others
    exact ⟨by rw [same, same']; rfl, List.forall_mem_cons.mpr ⟨given, givens⟩⟩

theorem checkChecked {d : Datum} {tokens : List Token} (ok : d.check = .ok tokens) :
    tokens ≠ [] ∧ ∀ t ∈ tokens, Checked t := by
  obtain ⟨⟨form, tokens⟩, checked, rfl⟩ := mapOk ok
  exact (checkedStages.2.1 d form tokens checked).2

/-- Data that is given as a sequence, in either form. -/
def IsListed (d : Datum) (items : List Datum) : Prop := d = .list items ∨ d = .tuple items

theorem checkSource {d : Datum} {tokens : List Token} (ok : d.check = .ok tokens) :
    IsListed d (tokenData tokens) := by
  obtain ⟨⟨form, tokens⟩, checked, rfl⟩ := mapOk ok
  have source := (checkedStages.2.1 d form tokens checked).1
  cases form with
  | tuple => exact .inr source
  | list => exact .inl source

/-! Checking again. -/

theorem checkAllDatum {tokens : List Token} (each : ∀ t ∈ tokens, checkToken t.datum = .ok t) :
    checkAll (tokenData tokens) = .ok tokens := by
  induction tokens with
  | nil => rfl
  | cons t ts ih =>
    obtain ⟨first, rest⟩ := List.forall_mem_cons.mp each
    rw [tokenData, checkAll, first, ih rest]
    rfl

theorem checkBodyDatum (form : BodyForm) {tokens : List Token} (some : tokens ≠ [])
    (each : ∀ t ∈ tokens, checkToken t.datum = .ok t) :
    checkBody (form.datum (tokenData tokens)) = .ok (form, tokens) := by
  cases tokens with
  | nil => exact absurd rfl some
  | cons t ts =>
    have all := checkAllDatum each
    cases form <;>
      simp only [BodyForm.datum, checkBody, tokenData, List.isEmpty_cons] at all ⊢ <;>
      rw [all] <;> rfl

theorem checkTokenDatum {t : Token} (checked : Checked t) : checkToken t.datum = .ok t := by
  induction checked with
  | simple named =>
    rw [Token.datum, checkToken.eq_2, checkSimpleDatum named]
    intro body bucket same
    rename_i s _
    cases s <;> cases same
  | negation some _ ih =>
    rw [Token.datum, checkToken, checkBucketDatum, checkBodyDatum _ some ih]
    rfl
  | combinator => rfl

theorem checkDatum {tokens : List Token} (some : tokens ≠ []) (each : ∀ t ∈ tokens, Checked t) :
    (Datum.list (tokenData tokens)).check = .ok tokens := by
  have body := checkBodyDatum .list some (fun t member => checkTokenDatum (each t member))
  exact congrArg (Except.map _) body

theorem checkAgain {d : Datum} {tokens : List Token} (ok : d.check = .ok tokens) :
    (Datum.list (tokenData tokens)).check = .ok tokens := by
  obtain ⟨some, each⟩ := checkChecked ok
  exact checkDatum some each

end Datum

end SelectorRank
