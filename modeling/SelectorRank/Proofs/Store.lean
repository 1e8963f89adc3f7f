import SelectorRank.Proofs.Datum.Check
import SelectorRank.Session

/-! What a store tells. The specificity and the text that a selector keeps are those of its tokens
after any operation, so an answer never shows whether something was kept or what else was asked. -/
namespace SelectorRank

/-! Selectors. -/

namespace Selector

structure Sound (s : Selector) : Prop where
  weighed : s.specificity = specificityOf s.tokens
  checked : (Datum.list (tokenData s.tokens)).check = .ok s.tokens
  kept : s.cached = none ∨ s.cached = writeTokens s.tokens

/-- A selector of the same tokens for which nothing is kept. -/
def fresh (s : Selector) : Selector := .ofTokens s.tokens

variable {s : Selector}

theorem constructedSound {data : Datum} {tokens : List Token} (ok : data.check = .ok tokens) :
    (ofTokens tokens).Sound := ⟨rfl, Datum.checkAgain ok, .inl rfl⟩

theorem Sound.text (sound : s.Sound) : s.text? = writeTokens s.tokens := by
  unfold text?
  split
  · next text same =>
    rcases sound.kept with none | kept
    · cases same.symm.trans none
    · exact same.symm.trans kept
  · rfl

theorem keptSound (sound : s.Sound) : s.kept.Sound :=
  ⟨sound.weighed, sound.checked, .inr sound.text⟩

theorem freshText (sound : s.Sound) : s.fresh.text? = s.text? := sound.text.symm

theorem freshShown (sound : s.Sound) : s.fresh.shown? = s.shown? := by
  rw [shown?, shown?, freshText sound]

theorem freshSpecificity (sound : s.Sound) : s.fresh.specificity = s.specificity :=
  sound.weighed.symm

theorem freshWritten (sound : s.Sound) : s.fresh.text = s.text := by
  have canonical : s.fresh.text = canonicalText s.tokens := rfl
  rw [canonical, text]
  rcases sound.kept with none | kept
  · rw [none]
    rfl
  · rw [kept, writeTokens]
    split <;> rfl

theorem freshUnkept (sound : s.Sound) : s.fresh = { s with cached := none } := by
  rw [fresh, ofTokens, ← sound.weighed]

end Selector

/-! Declarations. -/

def Match.fresh : Match → Match
  | .nothing => .nothing
  | .selector s => .selector s.fresh
  | .other kind => .other kind

namespace Declaration

def fresh (d : Declaration) : Declaration := { d with matched := d.matched.fresh }

def Sound (d : Declaration) : Prop := ∀ s, d.matched = .selector s → s.Sound

variable {d x y : Declaration}

theorem freshSpecificity (sound : d.Sound) : d.fresh.specificity = d.specificity := by
  obtain ⟨origin, important, matched⟩ := d
  cases matched with
  | nothing => rfl
  | other kind => rfl
  | selector s =>
    have same := Selector.freshSpecificity (sound s rfl)
    cases origin with
    | unknown given => rfl
    | object text => rfl
    | known origin =>
      cases origin with
      | inline => rfl
      | author => exact congrArg Except.ok same
      | user => exact congrArg Except.ok same
      | userAgent => exact congrArg Except.ok same

theorem freshCompare (left : x.Sound) (right : y.Sound) :
    x.fresh.compare y.fresh = x.compare y := by
  unfold compare
  rw [freshSpecificity left, freshSpecificity right]
  rfl

theorem freshShown (sound : d.Sound) : d.fresh.shown = d.shown := by
  obtain ⟨origin, important, matched⟩ := d
  cases matched with
  | nothing => rfl
  | other kind => rfl
  | selector s =>
    simp only [shown, fresh, Match.fresh, Selector.freshText (sound s rfl)]
    rfl

end Declaration

def Item.fresh : Item → Item
  | .declaration d => .declaration d.fresh
  | .selector s => .selector s.fresh
  | .config options => .config options
  | .other d => .other d

theorem Item.freshCompare {p q : Item} (left : ∀ d, p = .declaration d → d.Sound)
    (right : ∀ d, q = .declaration d → d.Sound) : p.fresh.compare q.fresh = p.compare q := by
  cases p with
  | declaration x =>
    cases q with
    | declaration y =>
      exact congrArg (Except.mapError _) (Declaration.freshCompare (left x rfl) (right y rfl))
    | _ => rfl
  | _ => cases q <;> rfl

/-! Stores. -/

namespace Store

def Sound (s : Store) : Prop := ∀ x ∈ s.selectors, x.Sound

/-- A store of the same tokens for which nothing is kept. -/
def fresh (s : Store) : Store := { s with selectors := s.selectors.map Selector.fresh }

/-- What operations give; those that only ask give nothing. -/
def give (s : Store) : Operation → Store
  | .construct data =>
      match s.construct data with
      | .ok (after, _) => after
      | .error _ => s
  | .setTokens number data =>
      match s.setTokens number data with
      | .ok after => after
      | .error _ => s
  | .declare entry => (s.declare entry).1
  | _ => s

/-- The selector that an operation is about. -/
def touched? (s : Store) : Operation → Option Nat
  | .setTokens number _ => some number
  | .write number => some number
  | .show h => s.written? h
  | _ => none

variable {s : Store}

/-! One step. -/

theorem keepSound (sound : s.Sound) (number : Nat) : (s.keep number).Sound := by
  intro x member
  obtain ⟨k, found⟩ := List.mem_iff_getElem?.mp member
  rw [keep, List.getElem?_modify] at found
  obtain ⟨y, old, rfl⟩ := Option.map_eq_some_iff.mp found
  have sound := sound y (List.mem_of_getElem? old)
  split
  · exact Selector.keptSound sound
  · exact sound

theorem keepFresh (s : Store) (number : Nat) : (s.keep number).fresh = s.fresh := by
  have same : (s.selectors.modify number Selector.kept).map Selector.fresh =
      s.selectors.map Selector.fresh := by
    refine List.ext_getElem? fun k => ?_
    rw [List.getElem?_map, List.getElem?_map, List.getElem?_modify]
    cases s.selectors[k]? with
    | none => rfl
    | some x => split <;> rfl
  rw [fresh, keep, same]
  rfl

theorem keepShownSound (sound : s.Sound) (h : Handle) : (s.keepShown h).Sound := by
  unfold keepShown
  split
  · exact keepSound sound _
  · exact sound

theorem keepShownFresh (s : Store) (h : Handle) : (s.keepShown h).fresh = s.fresh := by
  unfold keepShown
  split
  · exact keepFresh s _
  · rfl

section
variable {data : Datum} {tokens : List Token} {f : TokenFault} {number : Nat}

theorem constructChecked (s : Store) (ok : data.check = .ok tokens) :
    s.construct data = .ok ({ s with selectors := s.selectors ++ [.ofTokens tokens] },
      .selector s.selectors.length) := by
  rw [construct, ok]
  rfl

theorem constructRefused (s : Store) (failed : data.check = .error f) :
    s.construct data = .error f := by
  rw [construct, failed]
  rfl

theorem setChecked (s : Store) (ok : data.check = .ok tokens) :
    s.setTokens number data =
      .ok { s with selectors := s.selectors.set number (.ofTokens tokens) } := by
  rw [setTokens, ok]
  rfl

theorem setRefused (s : Store) (failed : data.check = .error f) :
    s.setTokens number data = .error f := by
  rw [setTokens, failed]
  rfl

end

theorem stepSound (sound : s.Sound) (op : Operation) : (s.step op).1.Sound := by
  cases op with
  | construct data =>
    cases checked : data.check with
    | error f => simpa only [step, constructRefused s checked] using sound
    | ok tokens =>
      simp only [step, constructChecked s checked]
      exact List.forall_mem_append.mpr ⟨sound,
        List.forall_mem_singleton.mpr (Selector.constructedSound checked)⟩
  | setTokens number data =>
    cases checked : data.check with
    | error f => simpa only [step, setRefused s checked] using sound
    | ok tokens =>
      simp only [step, setChecked s checked]
      intro x member
      rcases List.mem_or_eq_of_mem_set member with old | rfl
      · exact sound x old
      · exact Selector.constructedSound checked
  | declare entry => exact sound
  | write number => exact keepSound sound number
  | «show» h => exact keepShownSound sound h
  | _ => exact sound

theorem stepFresh (s : Store) (op : Operation) : (s.step op).1.fresh = s.fresh.give op := by
  cases op with
  | construct data =>
    cases checked : data.check with
    | error f => simp only [step, give, constructRefused _ checked]
    | ok tokens => simp [step, give, constructChecked _ checked, fresh, Selector.fresh, Selector.ofTokens]
  | setTokens number data =>
    cases checked : data.check with
    | error f => simp only [step, give, setRefused _ checked]
    | ok tokens =>
      simp [step, give, setChecked _ checked, fresh, List.map_set, Selector.fresh, Selector.ofTokens]
  | declare entry => rfl
  | write number => exact keepFresh s number
  | «show» h => exact keepShownFresh s h
  | _ => rfl

/-! Answers. -/

theorem freshFind (s : Store) (number : Nat) :
    s.fresh.selectors[number]? = s.selectors[number]?.map Selector.fresh := List.getElem?_map ..

theorem soundFind (sound : s.Sound) {number : Nat} {x : Selector}
    (found : s.selectors[number]? = some x) : x.Sound := sound x (List.mem_of_getElem? found)

theorem freshAsk (sound : s.Sound) {α : Type} {ask : Selector → α} (number : Nat)
    (alike : ∀ {x : Selector}, x.Sound → ask x.fresh = ask x) :
    s.fresh.selectors[number]?.map ask = s.selectors[number]?.map ask := by
  rw [freshFind, Option.map_map]
  cases found : s.selectors[number]? with
  | none => rfl
  | some x => exact congrArg some (alike (soundFind sound found))

theorem freshMatched (s : Store) (reference : Option Handle) :
    s.fresh.matchedBy reference = (s.matchedBy reference).fresh := by
  unfold matchedBy
  split
  · rfl
  · next number =>
    rw [freshFind]
    cases s.selectors[number]? <;> rfl
  · rfl

theorem freshResolve (s : Store) (e : Entry) : s.fresh.resolve e = (s.resolve e).fresh := by
  rw [resolve, freshMatched]
  rfl

theorem matchedSound (sound : s.Sound) {reference : Option Handle} {x : Selector}
    (same : s.matchedBy reference = .selector x) : x.Sound := by
  unfold matchedBy at same
  split at same
  · cases same
  · split at same
    · next found =>
      cases same
      exact soundFind sound found
    · cases same
  · cases same

theorem resolveSound (sound : s.Sound) (e : Entry) : (s.resolve e).Sound :=
  fun _ same => matchedSound sound same

theorem freshAskEntry (sound : s.Sound) {α : Type} {ask : Declaration → α} (number : Nat)
    (alike : ∀ {d : Declaration}, d.Sound → ask d.fresh = ask d) :
    s.fresh.entries[number]?.map (fun e => ask (s.fresh.resolve e)) =
      s.entries[number]?.map (fun e => ask (s.resolve e)) := by
  have same : (fun e => ask (s.fresh.resolve e)) = fun e => ask (s.resolve e) := by
    funext e
    rw [freshResolve, alike (resolveSound sound e)]
  rw [same]
  rfl

theorem freshShown (sound : s.Sound) (h : Handle) : s.fresh.shown h = s.shown h := by
  cases h with
  | selector number =>
    exact freshAsk sound number fun sound => congrArg Observation.text (Selector.freshShown sound)
  | declaration number =>
    refine freshAskEntry sound number fun {d} sound => ?_
    rw [Observation.ofShown, Declaration.freshShown sound, Observation.ofShown]

theorem freshWeight (sound : s.Sound) (h : Handle) : s.fresh.weight h = s.weight h := by
  cases h with
  | selector number =>
    exact freshAsk sound number fun sound =>
      congrArg Observation.weight (Selector.freshSpecificity sound)
  | declaration number =>
    refine freshAskEntry sound number fun {d} sound => ?_
    rw [Observation.ofWeight, Declaration.freshSpecificity sound, Observation.ofWeight]

theorem freshLevel (sound : s.Sound) (number : Nat) : s.fresh.level number = s.level number :=
  freshAskEntry sound number fun _ => rfl

theorem freshEqual (sound : s.Sound) (x y : Handle) :
    s.fresh.equalHandles x y = s.equalHandles x y := by
  have tokens : ∀ number, s.fresh.selectors[number]?.map Selector.tokens =
      s.selectors[number]?.map Selector.tokens := fun number => freshAsk sound number fun _ => rfl
  cases x <;> cases y <;> simp only [equalHandles, tokens]

theorem freshItem (s : Store) (h : Handle) : s.fresh.item? h = (s.item? h).map Item.fresh := by
  cases h with
  | selector number =>
    simp only [item?, freshFind, Option.map_map]
    rfl
  | declaration number =>
    simp only [item?, freshResolve, Option.map_map]
    rfl

theorem itemSound (sound : s.Sound) {h : Handle} {d : Declaration}
    (found : s.item? h = some (.declaration d)) : d.Sound := by
  cases h with
  | selector number =>
    obtain ⟨_, _, same⟩ := Option.map_eq_some_iff.mp found
    cases same
  | declaration number =>
    obtain ⟨e, _, same⟩ := Option.map_eq_some_iff.mp found
    cases same
    exact resolveSound sound e

theorem freshCompared (sound : s.Sound) (x y : Handle) :
    s.fresh.compared x y = s.compared x y := by
  simp only [compared, freshItem]
  cases left : s.item? x with
  | none => rfl
  | some p =>
    cases right : s.item? y with
    | none => rfl
    | some q =>
      have same : p.fresh.compare q.fresh = p.compare q :=
        Item.freshCompare (fun d same => itemSound sound (same ▸ left))
          (fun d same => itemSound sound (same ▸ right))
      simp [same]

theorem freshWeighed (sound : s.Sound) (e : Entry) : s.fresh.weighed e = s.weighed e := by
  rw [weighed, weighed, freshMatched]
  cases same : s.matchedBy e.selector with
  | nothing => rfl
  | other kind => rfl
  | selector x => simp only [Match.fresh, Selector.freshUnkept (matchedSound sound same)]

theorem freshSorted (sound : s.Sound) (items : List Handle) :
    s.fresh.sorted items = s.sorted items := by
  have entries : s.fresh.entry? = s.entry? := by
    funext h
    cases h <;> rfl
  have weighed : s.fresh.weighed = s.weighed := funext (freshWeighed sound)
  simp only [sorted, rank, entries, weighed]

theorem stepSame (sound : s.Sound) (op : Operation) : (s.fresh.step op).2 = (s.step op).2 := by
  cases op with
  | construct data =>
    cases checked : data.check with
    | error f => simp only [step, constructRefused _ checked]
    | ok tokens => simp [step, constructChecked _ checked, fresh]
  | setTokens number data =>
    cases checked : data.check with
    | error f => simp only [step, setRefused _ checked]
    | ok tokens => simp only [step, setChecked _ checked]
  | declare entry => rfl
  | tokens number => exact congrArg Observation.ofOption (freshAsk sound number fun _ => rfl)
  | write number =>
    exact congrArg Observation.ofOption
      (freshAsk sound number fun sound => congrArg Observation.text (Selector.freshText sound))
  | «show» h => exact congrArg Observation.ofOption (freshShown sound h)
  | weigh h => exact congrArg Observation.ofOption (freshWeight sound h)
  | level number => exact congrArg Observation.ofOption (freshLevel sound number)
  | equal x y => exact congrArg Observation.truth (freshEqual sound x y)
  | compare x y => exact congrArg Observation.ofOption (freshCompared sound x y)
  | sort items => exact congrArg Observation.ofOption (freshSorted sound items)

theorem stepOther {op : Operation} {number : Nat} (other : s.touched? op ≠ some number)
    (known : number < s.selectors.length) :
    (s.step op).1.selectors[number]? = s.selectors[number]? := by
  have keepOther : ∀ {k}, k ≠ number →
      (s.keep k).selectors[number]? = s.selectors[number]? := by
    intro k differs
    simp [keep, differs]
  cases op with
  | construct data =>
    cases checked : data.check with
    | error f => simp only [step, constructRefused _ checked]
    | ok tokens =>
      simp only [step, constructChecked _ checked]
      exact List.getElem?_append_left known
  | setTokens k data =>
    have differs : k ≠ number := fun same => other (congrArg some same)
    cases checked : data.check with
    | error f => simp only [step, setRefused _ checked]
    | ok tokens =>
      simp only [step, setChecked _ checked]
      exact List.getElem?_set_ne differs
  | write k => exact keepOther fun same => other (congrArg some same)
  | «show» h =>
    simp only [step, keepShown]
    split
    · next k written => exact keepOther fun same => other (same ▸ written)
    · rfl
  | _ => rfl

/-! Runs. -/

theorem afterSound (sound : s.Sound) (ops : List Operation) : (s.after ops).Sound := by
  induction ops generalizing s with
  | nil => exact sound
  | cons op ops ih => exact ih (stepSound sound op)

theorem afterFresh (s : Store) (ops : List Operation) :
    (s.after ops).fresh = ops.foldl give s.fresh := by
  induction ops generalizing s with
  | nil => rfl
  | cons op ops ih => exact (ih (s.step op).1).trans (by rw [stepFresh]; rfl)

/-- A declaration sees the tokens that its selector is given later, but not those that are refused. -/
example :
    let id : Datum := .list [.id (.text "a") (.bucketMember .b)]
    let named : Datum := .tuple [.className (.text "c") (.bucketMember .c)]
    empty.observe [.construct id, .declare ⟨.known .author, .bool false, some (.selector 0)⟩,
      .weigh (.declaration 0), .setTokens 0 named, .setTokens 0 (.list []),
      .weigh (.declaration 0)] =
    [.made (.selector 0), .made (.declaration 0), .weight ⟨0, 1, 0, 0⟩, .done, .refused .noTokens,
      .weight ⟨0, 0, 1, 0⟩] := by
  rfl

theorem afterAppend (s : Store) (first second : List Operation) :
    s.after (first ++ second) = (s.after first).after second := List.foldl_append ..

end Store

/-! Sessions. Each step of a session is some operations on its store. -/

namespace Session

def after (s : Session) (steps : List Step) : Session := steps.foldl (fun s x => (s.step x).1) s

/-- A session whose store operations lead to from another one. -/
def Follows (s next : Session) : Prop := ∃ ops, next.store = s.store.after ops

variable {s next : Session}

theorem followsSelf (same : next.store = s.store) : s.Follows next := ⟨[], same⟩

theorem followsThen {last : Session} (first : s.Follows next) (second : next.Follows last) :
    s.Follows last := by
  obtain ⟨ops, same⟩ := first
  obtain ⟨more, same'⟩ := second
  exact ⟨ops ++ more, by rw [same', same, Store.afterAppend]⟩

theorem replyFollows (s : Session) (h : Handle) (name : String) (f : View → Reply) :
    s.Follows (s.reply h name f).1 := by
  unfold reply
  split
  · exact ⟨[.show h], rfl⟩
  · exact followsSelf rfl

theorem declareFollows (s : Session) (name : String) (entry : Entry) (f : View → Reply) :
    s.Follows (s.declare name entry f).1 := by
  have first : s.Follows { s with store := (s.store.declare entry).1 } := ⟨[.declare entry], rfl⟩
  exact followsThen first (replyFollows _ _ _ _)

theorem stepFollows (s : Session) (x : Step) : s.Follows (s.step x).1 := by
  cases x with
  | create name source =>
    simp only [step]
    split
    · exact followsSelf rfl
    · next data read =>
      split
      · exact followsSelf rfl
      · next store h made =>
        have first : s.Follows { s with store } := ⟨[.construct data], by
          simp only [Store.after, List.foldl_cons, List.foldl_nil, Store.step, made]⟩
        exact followsThen first (replyFollows _ _ _ _)
  | replace name source =>
    simp only [step]
    split
    · next number _ =>
      split
      · exact replyFollows s _ _ _
      · next data read =>
        split
        · exact replyFollows s _ _ _
        · next store given =>
          have first : s.Follows { s with store } := ⟨[.setTokens number data], by
            simp only [Store.after, List.foldl_cons, List.foldl_nil, Store.step, given]⟩
          exact followsThen first (replyFollows _ _ _ _)
    · exact followsSelf rfl
  | declare name origin important selector =>
    simp only [step]
    split
    · exact followsSelf rfl
    · exact declareFollows s _ _ _
  | coerce name source =>
    simp only [step]
    split
    · exact followsSelf rfl
    · exact replyFollows _ _ _ _
    · exact declareFollows s _ _ _
  | «show» name =>
    simp only [step]
    split
    · exact followsSelf rfl
    · exact replyFollows s _ _ _
  | equal x y =>
    simp only [step]
    split <;> exact followsSelf rfl
  | compare x y =>
    simp only [step]
    split
    · exact followsSelf rfl
    · exact followsSelf rfl
    · split <;> exact followsSelf rfl
  | sort names =>
    simp only [step]
    split <;> exact followsSelf rfl

theorem afterFollows (s : Session) (steps : List Step) : s.Follows (s.after steps) := by
  induction steps generalizing s with
  | nil => exact followsSelf rfl
  | cons x steps ih => exact followsThen (stepFollows s x) (ih (s.step x).1)

theorem sessionSound (steps : List Step) : (start.after steps).store.Sound := by
  obtain ⟨ops, same⟩ := afterFollows start steps
  rw [same]
  exact Store.afterSound (by simp [Store.Sound, start, Store.empty]) ops

end Session

end SelectorRank
