import SelectorRank.Proofs.Datum.Check

/-! How data is refused. Whatever is wrong with it is told as a fault of the data, but for one
thing: the word of a parity is looked up before it is known to be a text, and a container that can
change cannot be looked up. -/
namespace SelectorRank

/-- A fault that is told of the data. The other one is told of the look-up. -/
@[simp] def TokenFault.IsInput : TokenFault → Bool
  | .mutableKey _ => false
  | _ => true

namespace Datum

/-! Steps that fail for what the data is. -/

def AsInput {α : Type} : Except TokenFault α → Prop :=
  Yields (fun _ => True) (fun f => f.IsInput = true)

section
variable {α β : Type} {x : Except TokenFault α}

@[simp] theorem asInputOk (a : α) : AsInput (.ok a) := trivial

@[simp] theorem asInputError {f : TokenFault} :
    AsInput (.error f : Except TokenFault α) ↔ f.IsInput = true := Iff.rfl

theorem asInputBind {f : α → Except TokenFault β} (first : AsInput x)
    (rest : ∀ a, AsInput (f a)) : AsInput (x >>= f) :=
  Yields.bind first fun a _ => rest a

theorem asInputKey {kind : String} (told : AsInput x) : x ≠ .error (.mutableKey kind) := by
  rintro rfl
  cases told

theorem endedBy {post : α → Prop} {stalls : String → Prop} (given : ∀ a, x = .ok a → post a)
    (key : ∀ kind, x = .error (.mutableKey kind) ↔ stalls kind) :
    (∃ a, x = .ok a ∧ post a) ∨ (∃ f, x = .error f ∧ f.IsInput = true) ∨
      ∃ kind, x = .error (.mutableKey kind) ∧ stalls kind := by
  cases x with
  | ok a => exact .inl ⟨a, rfl, given a rfl⟩
  | error f =>
    cases f with
    | mutableKey kind => exact .inr (.inr ⟨kind, rfl, (key kind).mp rfl⟩)
    | _ => exact .inr (.inl ⟨_, rfl, rfl⟩)

end

/-! Fields of a token. -/

theorem asInputBucket (token d : Datum) : AsInput (checkBucket token d) := by
  unfold checkBucket
  split <;> simp

theorem asInputName (token d : Datum) : AsInput (checkName token d) := by
  unfold checkName
  split
  · split <;> simp
  · simp

theorem asInputNamespace (token d : Datum) : AsInput (checkNamespace token d) := by
  unfold checkNamespace
  split <;> simp

theorem asInputOperator (d : Datum) : AsInput (checkOperator d) := by
  unfold checkOperator
  split <;> simp

theorem asInputValue (d : Datum) : AsInput (checkValue d) := by
  unfold checkValue
  split <;> simp

theorem checkParityKey {d : Datum} {kind : String} :
    checkParity d = .error (.mutableKey kind) ↔ d.mutableKind? = some kind := by
  unfold checkParity
  constructor
  · intro failed
    split at failed
    · next mutable => cases failed; exact mutable
    split at failed
    · split at failed <;> cases failed
    · cases failed
  · intro mutable
    rw [mutable]

theorem checkArgumentKey {d : Datum} {kind : String}
    (failed : checkArgument d = .error (.mutableKey kind)) :
    ∃ value, d = .parityArgument value ∧ value.mutableKind? = some kind := by
  unfold checkArgument at failed
  split at failed
  · cases failed
  · cases failed
  · cases failed
  · exact ⟨_, rfl, checkParityKey.mp (mapFails failed)⟩
  · split at failed <;> cases failed
  all_goals cases failed

/-! Tokens. -/

/-- What holds up the check of a token, all before it being as it should. -/
inductive Stalls (kind : String) : Datum → Prop where
  | argument {name value} {bucket : Option Bucket} (named : name ≠ "")
      (mutable : value.mutableKind? = some kind) :
      Stalls kind (.pseudoClass (.text name) (.parityArgument value) (Bucket.datum? bucket))
  | negation {body items after d tokens} {bucket : Option Bucket} (listed : IsListed body items)
      (split : items = tokenData tokens ++ d :: after) (checked : ∀ t ∈ tokens, Checked t)
      (stalls : Stalls kind d) : Stalls kind (.negation body (Bucket.datum? bucket))

def StallsAmong (kind : String) (items : List Datum) : Prop :=
  ∃ tokens d after, items = tokenData tokens ++ d :: after ∧ (∀ t ∈ tokens, Checked t) ∧
    Stalls kind d

def StallsIn (kind : String) (d : Datum) : Prop :=
  ∃ items, IsListed d items ∧ StallsAmong kind items

theorem checkSimpleStalls {d : Datum} {kind : String}
    (failed : checkSimple d = .error (.mutableKey kind)) : Stalls kind d := by
  have column (token d : Datum) {α : Type} {f : Option Bucket → Except TokenFault α}
      (rest : ∀ bucket, AsInput (f bucket)) : AsInput (checkBucket token d >>= f) :=
    asInputBind (asInputBucket token d) rest
  have name (token d : Datum) {α : Type} {f : String → Except TokenFault α}
      (rest : ∀ name, AsInput (f name)) : AsInput (checkName token d >>= f) :=
    asInputBind (asInputName token d) rest
  have space (token d : Datum) {α : Type} {f : Namespace → Except TokenFault α}
      (rest : ∀ space, AsInput (f space)) : AsInput (checkNamespace token d >>= f) :=
    asInputBind (asInputNamespace token d) rest
  -- Only the argument of a pseudo-class can stall, every other step fails for what the data is.
  unfold checkSimple at failed
  split at failed
  case h_8 =>
    rcases bindFails failed with failed | ⟨bucket, counted, failed⟩
    · exact absurd failed (asInputKey (asInputBucket _ _))
    rcases bindFails failed with failed | ⟨name, named, failed⟩
    · exact absurd failed (asInputKey (asInputName _ _))
    rcases bindFails failed with failed | ⟨_, _, failed⟩
    · obtain ⟨value, rfl, mutable⟩ := checkArgumentKey failed
      rw [checkBucketSource counted, checkNameSource named]
      exact .argument (checkNameSome named) mutable
    · cases failed
  case h_6 =>
    refine absurd failed (asInputKey (column _ _ fun _ => name _ _ fun _ => space _ _ fun _ => ?_))
    exact asInputBind (asInputOperator _) fun _ =>
      asInputBind (asInputValue _) fun _ => asInputOk _
  case h_1 => exact absurd failed (asInputKey (column _ _ fun _ => space _ _ fun _ => asInputOk _))
  case h_2 | h_5 =>
    exact absurd failed
      (asInputKey (column _ _ fun _ => name _ _ fun _ => space _ _ fun _ => asInputOk _))
  case h_3 | h_4 | h_7 =>
    exact absurd failed (asInputKey (column _ _ fun _ => name _ _ fun _ => asInputOk _))
  case h_9 | h_10 => cases failed

theorem checkStalls (kind : String) :
    (∀ d, checkToken d = .error (.mutableKey kind) → Stalls kind d) ∧
    (∀ d, checkBody d = .error (.mutableKey kind) → StallsIn kind d) ∧
    (∀ items, checkAll items = .error (.mutableKey kind) → StallsAmong kind items) := by
  apply checkToken.mutual_induct
  case case1 =>
    intro body bucket inner failed
    rcases bindFails failed with failed | ⟨column, counted, failed⟩
    · exact absurd failed (asInputKey (asInputBucket _ _))
    rcases bindFails failed with failed | ⟨_, _, failed⟩
    · obtain ⟨items, listed, tokens, d, after, split, checked, stalls⟩ := inner failed
      rw [checkBucketSource counted]
      exact .negation listed split checked stalls
    · cases failed
  case case2 =>
    intro other simple failed
    rw [checkToken.eq_2 _ simple] at failed
    exact checkSimpleStalls failed
  case case3 | case5 =>
    intro items none failed
    simp [checkBody, none] at failed
  case case4 =>
    intro items some among failed
    rw [checkBody, if_neg some] at failed
    rcases bindFails failed with failed | ⟨_, _, failed⟩
    · exact ⟨items, .inl rfl, among failed⟩
    · cases failed
  case case6 =>
    intro items some among failed
    rw [checkBody, if_neg some] at failed
    rcases bindFails failed with failed | ⟨_, _, failed⟩
    · exact ⟨items, .inr rfl, among failed⟩
    · cases failed
  case case7 =>
    intro other list tuple failed
    rw [checkBody.eq_3 _ list tuple] at failed
    cases failed
  case case8 =>
    intro failed
    cases failed
  case case9 =>
    intro d ds first rest failed
    rcases bindFails failed with failed | ⟨t, given, failed⟩
    · exact ⟨[], d, ds, rfl, by simp, first failed⟩
    rcases bindFails failed with failed | ⟨_, _, failed⟩
    · obtain ⟨tokens, e, after, rfl, checked, stalls⟩ := rest failed
      -- A token in front of the one that stalls has passed, so it is the data of what it gave.
      obtain ⟨rfl, head⟩ := checkedStages.1 d t given
      exact ⟨t :: tokens, e, after, rfl, List.forall_mem_cons.mpr ⟨head, checked⟩, stalls⟩
    · cases failed

theorem checkAllStops {tokens : List Token} {d : Datum} {after : List Datum} {f : TokenFault}
    (checked : ∀ t ∈ tokens, Checked t) (failed : checkToken d = .error f) :
    checkAll (tokenData tokens ++ d :: after) = .error f := by
  induction tokens with
  | nil =>
    rw [tokenData, List.nil_append, checkAll, failed]
    rfl
  | cons t ts ih =>
    obtain ⟨first, rest⟩ := List.forall_mem_cons.mp checked
    rw [tokenData, List.cons_append, checkAll, checkTokenDatum first, ih rest]
    rfl

theorem checkBodyStops {body : Datum} {items : List Datum} {f : TokenFault}
    (listed : IsListed body items) (some : items ≠ []) (failed : checkAll items = .error f) :
    checkBody body = .error f := by
  have some : ¬ items.isEmpty = true := by simpa using some
  rcases listed with rfl | rfl <;> rw [checkBody, if_neg some, failed] <;> rfl

theorem stallsToken {d : Datum} {kind : String} (stalls : Stalls kind d) :
    checkToken d = .error (.mutableKey kind) := by
  induction stalls with
  | @argument name value bucket named mutable =>
    have argument : checkArgument (.parityArgument value) = .error (.mutableKey kind) := by
      rw [checkArgument, checkParityKey.mpr mutable]
      rfl
    rw [checkToken.eq_2 _ (by simp), checkSimple]
    simp only [checkBucketDatum, checkNameDatum _ named, argument, bind, Except.bind]
  | negation listed split checked _ ih =>
    have body := checkBodyStops listed (by simp [split])
      (split ▸ checkAllStops checked ih)
    rw [checkToken, checkBucketDatum, body]
    rfl

theorem checkKeyIff {d : Datum} {kind : String} :
    d.check = .error (.mutableKey kind) ↔ StallsIn kind d := by
  constructor
  · intro failed
    exact (checkStalls kind).2.1 d (mapFails failed)
  · rintro ⟨items, listed, tokens, e, after, split, checked, stalls⟩
    have body := checkBodyStops listed (by simp [split])
      (split ▸ checkAllStops checked (stallsToken stalls))
    rw [check, body]
    rfl

end Datum

end SelectorRank
