import SelectorRank.Datum.Load
import SelectorRank.Proofs.Datum.Lookup

/-! How plain data is loaded. It gives tokens that pass the check, or is refused for what it is, or
holds the word of a parity that cannot be looked up. -/
namespace SelectorRank
namespace Datum

/-! Fields of a mapping. -/

theorem asInputRequired (tag key : String) (item : List (String × Datum)) :
    AsInput (required tag key item) := by
  unfold required
  split <;> simp

theorem asInputLoadBucket (usual : Option Bucket) (item : List (String × Datum)) :
    AsInput (loadBucket usual item) := by
  unfold loadBucket
  split
  · simp
  · simp
  · split <;> simp
  · simp
  · simp

theorem asInputLoadNamespace (item : List (String × Datum)) : AsInput (loadNamespace item) := by
  unfold loadNamespace
  split <;> simp

theorem asInputLoadOperator (d : Datum) : AsInput (loadOperator d) := by
  unfold loadOperator
  split
  · split <;> simp
  · simp
  · simp

theorem asInputLoadSeries (value : Datum) : AsInput (loadSeries value) := by
  unfold loadSeries
  split <;> simp

theorem asInputLoadArgument (d : Datum) : AsInput (loadArgument d) := by
  unfold loadArgument
  split
  · simp
  · dsimp only
    split
    · simp
    · simp
    · simp
    · exact asInputLoadSeries _
    · simp
  · simp

theorem asInputLoadSimple (tag : String) (bucket : Datum) (item : List (String × Datum)) :
    AsInput (loadSimple tag bucket item) := by
  have name := asInputRequired tag "name" item
  have space := asInputLoadNamespace item
  unfold loadSimple
  split
  · exact asInputBind space fun _ => asInputOk _
  · exact asInputBind name fun _ => asInputBind space fun _ => asInputOk _
  · exact asInputBind name fun _ => asInputOk _
  · exact asInputBind name fun _ => asInputOk _
  · exact asInputBind name fun _ => asInputBind space fun _ => asInputOk _
  · exact asInputBind (asInputRequired _ _ _) fun _ => asInputBind (asInputLoadOperator _) fun _ =>
      asInputBind name fun _ => asInputBind (asInputRequired _ _ _) fun _ =>
        asInputBind space fun _ => asInputOk _
  · exact asInputBind name fun _ => asInputOk _
  · exact asInputBind name fun _ => asInputBind (asInputLoadArgument _) fun _ => asInputOk _
  · simp

/-! Sequences. -/

/-- What holds up the loading of a sequence: the body of a negation, which is loaded on its own, or
a token of the whole when all of it has been built. -/
inductive LoadStalls (kind : String) : Datum → Prop where
  | body {data before item after tokens bucket}
      (listed : IsListed data (before ++ .mapping item :: after))
      (loaded : loadAll before = .ok tokens)
      (tag : fieldOr "type" item = .text "negationSelector")
      (column : loadBucket none item = .ok bucket)
      (stalls : LoadStalls kind (fieldOr "tokens" item)) : LoadStalls kind data
  | token {data items tokens} (listed : IsListed data items) (loaded : loadAll items = .ok tokens)
      (stalls : StallsAmong kind tokens) : LoadStalls kind data

def BuildStalls (kind : String) (items : List Datum) : Prop :=
  ∃ before item after tokens bucket, items = before ++ .mapping item :: after ∧
    loadAll before = .ok tokens ∧ fieldOr "type" item = .text "negationSelector" ∧
    loadBucket none item = .ok bucket ∧ LoadStalls kind (fieldOr "tokens" item)

theorem fieldOrHere (key : String) (value : Datum) (rest : List (String × Datum)) :
    fieldOr key ((key, value) :: rest) = value := by
  simp [fieldOr, field?]

theorem fieldOrLater {key other : String} (value : Datum) (rest : List (String × Datum))
    (differs : other ≠ key) : fieldOr key ((other, value) :: rest) = fieldOr key rest := by
  have skipped : (key == other) = false := by simpa using differs.symm
  simp [fieldOr, field?, List.lookup_cons, skipped]

theorem loadBodyField (item : List (String × Datum)) :
    loadBody item = load (fieldOr "tokens" item) := by
  induction item with
  | nil => rfl
  | cons entry rest ih =>
    obtain ⟨key, value⟩ := entry
    rw [loadBody]
    split
    · next here => rw [here, fieldOrHere]
    · next later => rw [ih, fieldOrLater value rest later]

theorem loadListed {data : Datum} {items : List Datum} (listed : IsListed data items) :
    load data = if items.isEmpty then .error .noMappings else
      (do check (.list (← loadAll items))) := by
  rcases listed with rfl | rfl <;> rw [load]

theorem loadNegation {item : List (String × Datum)} {bucket : Datum}
    (tag : fieldOr "type" item = .text "negationSelector")
    (column : loadBucket none item = .ok bucket) :
    loadToken (.mapping item) = (do
      let body ← load (fieldOr "tokens" item)
      .ok (.negation (.tuple (tokenData body)) bucket)) := by
  have plain : combinatorOfTag? "negationSelector" = none := rfl
  have usual : (usualBucket? "negationSelector").getD none = none := rfl
  rw [loadToken, tag]
  simp only [plain, usual, column, loadBodyField, if_true]
  rfl

theorem loadTokenStalls {kind : String} {item : List (String × Datum)}
    (body : load (fieldOr "tokens" item) = .error (.mutableKey kind) →
      LoadStalls kind (fieldOr "tokens" item))
    (failed : loadToken (.mapping item) = .error (.mutableKey kind)) :
    BuildStalls kind [.mapping item] := by
  unfold loadToken at failed
  split at failed
  · next tag tagged =>
    split at failed
    · cases failed
    rcases bindFails failed with failed | ⟨bucket, column, failed⟩
    · exact absurd failed (asInputKey (asInputLoadBucket _ _))
    split at failed
    · next negation =>
      rcases bindFails failed with failed | ⟨_, _, failed⟩
      · rw [negation] at tagged column
        rw [loadBodyField] at failed
        exact ⟨[], item, [], [], bucket, rfl, rfl, tagged, column, body failed⟩
      · cases failed
    · exact absurd failed (asInputKey (asInputLoadSimple _ _ _))
  · cases failed

theorem loadStalls {kind : String} {data : Datum} {items : List Datum}
    (listed : IsListed data items)
    (builds : loadAll items = .error (.mutableKey kind) → BuildStalls kind items)
    (failed : load data = .error (.mutableKey kind)) : LoadStalls kind data := by
  rw [loadListed listed] at failed
  split at failed
  · cases failed
  rcases bindFails failed with failed | ⟨tokens, loaded, failed⟩
  · obtain ⟨before, item, after, tokens, bucket, rfl, loaded, tag, column, stalls⟩ := builds failed
    exact .body listed loaded tag column stalls
  · obtain ⟨_, same | same, among⟩ := checkKeyIff.mp failed <;> cases same
    exact .token listed loaded among

theorem loadStages (kind : String) :
    (∀ data, load data = .error (.mutableKey kind) → LoadStalls kind data) ∧
    (∀ items, loadAll items = .error (.mutableKey kind) → BuildStalls kind items) ∧
    (∀ d, loadToken d = .error (.mutableKey kind) → BuildStalls kind [d]) ∧
    (∀ item, loadBody item = .error (.mutableKey kind) →
      LoadStalls kind (fieldOr "tokens" item)) := by
  simp only [loadBodyField]
  -- A body is loaded where its field stands, so the last statement is about that field alone.
  apply load.mutual_induct
  case case1 | case3 =>
    intro items none failed
    simp [load, none] at failed
  case case2 => exact fun items _ builds failed => loadStalls (.inl rfl) builds failed
  case case4 => exact fun items _ builds failed => loadStalls (.inr rfl) builds failed
  case case5 =>
    intro other list tuple failed
    rw [load.eq_3 _ list tuple] at failed
    cases failed
  case case6 =>
    intro item tag tagged value combinator failed
    simp [loadToken, tagged, combinator] at failed
  case case7 => exact fun item _ _ _ body failed => loadTokenStalls body failed
  case case8 =>
    intro item untagged failed
    rw [loadToken] at failed
    split at failed
    · next tag tagged => exact (untagged tag tagged).elim
    · cases failed
  case case9 =>
    intro other mapping failed
    rw [loadToken.eq_2 _ mapping] at failed
    cases failed
  case case10 =>
    intro failed
    cases failed
  case case11 =>
    intro d ds first rest failed
    rcases bindFails failed with failed | ⟨t, built, failed⟩
    · obtain ⟨before, item, after, tokens, bucket, same, loaded, tag, column, stalls⟩ :=
        first failed
      cases before with
      | nil =>
        obtain ⟨rfl, _⟩ := List.cons.inj same
        exact ⟨[], item, ds, [], bucket, rfl, rfl, tag, column, stalls⟩
      | cons e before => simp at same
    rcases bindFails failed with failed | ⟨_, _, failed⟩
    · obtain ⟨before, item, after, tokens, bucket, rfl, loaded, tag, column, stalls⟩ := rest failed
      refine ⟨d :: before, item, after, t :: tokens, bucket, rfl, ?_, tag, column, stalls⟩
      rw [loadAll, built, loaded]
      rfl
    · cases failed
  case case12 =>
    intro failed
    cases failed
  case case13 =>
    intro value rest stalls
    rwa [fieldOrHere]
  case case14 =>
    intro key value rest other stalls
    rwa [fieldOrLater value rest other]

theorem loadAllStops {before after : List Datum} {d : Datum} {tokens : List Datum} {f : TokenFault}
    (loaded : loadAll before = .ok tokens) (failed : loadToken d = .error f) :
    loadAll (before ++ d :: after) = .error f := by
  induction before generalizing tokens with
  | nil =>
    rw [List.nil_append, loadAll, failed]
    rfl
  | cons e before ih =>
    obtain ⟨first, built, loaded⟩ := bindOk loaded
    obtain ⟨rest, others, _⟩ := bindOk loaded
    rw [List.cons_append, loadAll, built, ih others]
    rfl

theorem loadStopped {kind : String} {data : Datum} (stalls : LoadStalls kind data) :
    load data = .error (.mutableKey kind) := by
  induction stalls with
  | body listed loaded tag column _ ih =>
    rw [loadListed listed, loadAllStops loaded (by rw [loadNegation tag column, ih]; rfl)]
    simp [bind, Except.bind]
  | @token data items tokens listed loaded stalls =>
    have some : items.isEmpty = false := by
      cases items with
      | nil =>
        cases loaded
        obtain ⟨tokens, d, after, split, _⟩ := stalls
        simp at split
      | cons d ds => rfl
    have failed := checkKeyIff.mpr ⟨tokens, .inl rfl, stalls⟩
    rw [loadListed listed, some, loaded]
    exact failed

theorem loadKeyIff {data : Datum} {kind : String} :
    load data = .error (.mutableKey kind) ↔ LoadStalls kind data :=
  ⟨(loadStages kind).1 data, loadStopped⟩

theorem loadChecked {data : Datum} {tokens : List Token} (ok : load data = .ok tokens) :
    (Datum.list (tokenData tokens)).check = .ok tokens := by
  unfold load at ok
  split at ok
  · split at ok
    · cases ok
    · obtain ⟨built, _, ok⟩ := bindOk ok
      exact checkAgain ok
  · split at ok
    · cases ok
    · obtain ⟨built, _, ok⟩ := bindOk ok
      exact checkAgain ok
  · cases ok

/-- Data that is loaded gives tokens that pass the check, which gives tokens back just as they are.
What fails is told of the data, except exactly where the word of a parity cannot be looked up. -/
theorem loadRefusal (data raw : Datum) :
    ((∃ tokens, data.load = .ok tokens ∧ (Datum.list (tokenData tokens)).check = .ok tokens) ∨
      (∃ f, data.load = .error f ∧ f.IsInput = true) ∨
      ∃ kind, data.load = .error (.mutableKey kind) ∧ LoadStalls kind data) ∧
    ((∃ tokens, raw.check = .ok tokens ∧ IsListed raw (tokenData tokens)) ∨
      (∃ f, raw.check = .error f ∧ f.IsInput = true) ∨
      ∃ kind, raw.check = .error (.mutableKey kind) ∧ StallsIn kind raw) ∧
    (∀ kind, LoadStalls kind data → data.load = .error (.mutableKey kind)) ∧
    ∀ kind, StallsIn kind raw → raw.check = .error (.mutableKey kind) := by
  exact ⟨endedBy (fun _ => loadChecked) fun _ => loadKeyIff,
    endedBy (fun _ => checkSource) fun _ => checkKeyIff, fun _ => loadStopped,
    fun _ => checkKeyIff.mpr⟩

/-- The word of a parity is a list, which no set can be searched for. -/
example : (Datum.list [.mapping [("type", .text "pseudoClassSelector"), ("name", .text "a"),
    ("expression", .mapping [("kind", .text "nthKeyword"), ("parsed", .list [])])]]).load =
      .error (.mutableKey "list") := rfl

end Datum

end SelectorRank
