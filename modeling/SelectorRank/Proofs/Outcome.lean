import SelectorRank.Failure

/-! Steps that may fail. A whole that succeeded has parts that did; what holds of the parts is put
together to what holds of the whole. -/
namespace SelectorRank

variable {α β ε : Type}

theorem bindOk {x : Except ε α} {f : α → Except ε β} {out : β} (h : x >>= f = .ok out) :
    ∃ value, x = .ok value ∧ f value = .ok out := by
  cases x with
  | error fault => simp [bind, Except.bind] at h
  | ok value => exact ⟨value, rfl, h⟩

theorem bindFails {x : Except ε α} {f : α → Except ε β} {e : ε} (h : x >>= f = .error e) :
    x = .error e ∨ ∃ value, x = .ok value ∧ f value = .error e := by
  cases x with
  | error fault => exact .inl (by simpa [bind, Except.bind] using h)
  | ok value => exact .inr ⟨value, rfl, h⟩

theorem mapFails {x : Except ε α} {f : α → β} {e : ε} (h : x.map f = .error e) : x = .error e := by
  cases x with
  | error fault => simpa [Except.map] using h
  | ok value => simp [Except.map] at h

theorem mapOk {x : Except ε α} {f : α → β} {out : β} (h : x.map f = .ok out) :
    ∃ value, x = .ok value ∧ f value = out := by
  cases x with
  | error fault => simp [Except.map] at h
  | ok value => exact ⟨value, rfl, by simpa [Except.map] using h⟩

/-! Steps taken for each of several items. -/

section
variable {ε' : Type} {f : α → Except ε β} {xs ys : List α} {out : List β}

theorem mapMCons {x : α} (ok : (x :: xs).mapM f = .ok out) :
    ∃ y rest, f x = .ok y ∧ xs.mapM f = .ok rest ∧ out = y :: rest := by
  rw [List.mapM_cons] at ok
  obtain ⟨y, made, ok⟩ := bindOk ok
  obtain ⟨rest, others, ok⟩ := bindOk ok
  cases ok
  exact ⟨y, rest, made, others, rfl⟩

theorem mapMLength (ok : xs.mapM f = .ok out) : out.length = xs.length := by
  induction xs generalizing out with
  | nil =>
    cases ok
    rfl
  | cons x xs ih =>
    obtain ⟨y, rest, _, others, rfl⟩ := mapMCons ok
    rw [List.length_cons, List.length_cons, ih others]

theorem mapMAt {i : Nat} {y : β} (ok : xs.mapM f = .ok out) (found : out[i]? = some y) :
    ∃ x, xs[i]? = some x ∧ f x = .ok y := by
  induction xs generalizing i out with
  | nil =>
    cases ok
    cases found
  | cons x xs ih =>
    obtain ⟨y', rest, made, others, rfl⟩ := mapMCons ok
    cases i with
    | zero =>
      cases found
      exact ⟨x, rfl, made⟩
    | succ i => exact ih others found

theorem mapMPerm (same : ys.Perm xs) (ok : xs.mapM f = .ok out) :
    ∃ moved, ys.mapM f = .ok moved ∧ moved.Perm out := by
  induction same generalizing out with
  | nil => exact ⟨out, ok, .refl _⟩
  | cons x same ih =>
    obtain ⟨y, rest, made, others, rfl⟩ := mapMCons ok
    obtain ⟨moved, done, same⟩ := ih others
    exact ⟨y :: moved, by rw [List.mapM_cons, made, done]; rfl, same.cons y⟩
  | swap x x' xs =>
    obtain ⟨y, _, made, others, rfl⟩ := mapMCons ok
    obtain ⟨y', rest, made', last, rfl⟩ := mapMCons others
    refine ⟨y' :: y :: rest, ?_, .swap ..⟩
    rw [List.mapM_cons, List.mapM_cons, made', made, last]
    rfl
  | trans _ _ first second =>
    obtain ⟨middle, done, same⟩ := second ok
    obtain ⟨moved, done, nearer⟩ := first done
    exact ⟨moved, done, nearer.trans same⟩

theorem mapMError {g : α → Except ε' β} {h : ε → ε'} (same : ∀ x ∈ xs, g x = (f x).mapError h) :
    xs.mapM g = (xs.mapM f).mapError h := by
  induction xs with
  | nil => rfl
  | cons x xs ih =>
    obtain ⟨first, rest⟩ := List.forall_mem_cons.mp same
    rw [List.mapM_cons, List.mapM_cons, first, ih rest]
    cases f x with
    | error e => rfl
    | ok y => cases xs.mapM f <;> rfl

theorem mapMStops {x : α} {after : List α} {e : ε} (made : xs.mapM f = .ok out)
    (failed : f x = .error e) : (xs ++ x :: after).mapM f = .error e := by
  rw [List.mapM_append, made, List.mapM_cons, failed]
  rfl

theorem mapMSplit {e : ε} (failed : xs.mapM f = .error e) :
    ∃ before x after made, xs = before ++ x :: after ∧ before.mapM f = .ok made ∧ f x = .error e := by
  induction xs with
  | nil => cases failed
  | cons x xs ih =>
    rw [List.mapM_cons] at failed
    cases first : f x with
    | error e' =>
      rw [first] at failed
      cases failed
      exact ⟨[], x, xs, [], rfl, rfl, first⟩
    | ok y =>
      rw [first] at failed
      cases rest : xs.mapM f with
      | error e' =>
        rw [rest] at failed
        cases failed
        obtain ⟨before, x', after, made, rfl, others, found⟩ := ih rest
        refine ⟨x :: before, x', after, y :: made, rfl, ?_, found⟩
        rw [List.mapM_cons, first, others]
        rfl
      | ok ys =>
        rw [rest] at failed
        cases failed

theorem mapMFails {e : ε} (failed : xs.mapM f = .error e) : ∃ x ∈ xs, f x = .error e := by
  obtain ⟨before, x, after, _, rfl, _, found⟩ := mapMSplit failed
  exact ⟨x, by simp, found⟩

theorem mapMEach (ok : xs.mapM f = .ok out) : ∀ x ∈ xs, ∃ y, f x = .ok y := by
  induction xs generalizing out with
  | nil => simp
  | cons x xs ih =>
    obtain ⟨y, rest, made, others, _⟩ := mapMCons ok
    exact List.forall_mem_cons.mpr ⟨⟨y, made⟩, ih others⟩

theorem mapMKept {g : α → Except ε β} (kept : ∀ x y, f x = .ok y → g x = .ok y)
    (ok : xs.mapM f = .ok out) : xs.mapM g = .ok out := by
  induction xs generalizing out with
  | nil => exact ok
  | cons x xs ih =>
    obtain ⟨y, rest, made, others, rfl⟩ := mapMCons ok
    rw [List.mapM_cons, kept x y made, ih others]
    rfl

theorem mapMGiven (each : ∀ x ∈ xs, ∃ y, f x = .ok y) : ∃ ys, xs.mapM f = .ok ys := by
  cases whole : xs.mapM f with
  | ok ys => exact ⟨ys, rfl⟩
  | error e =>
    obtain ⟨x, member, failed⟩ := mapMFails whole
    obtain ⟨y, made⟩ := each x member
    cases failed.symm.trans made

end

/-- What a step gives has one property, and what it fails with has another. -/
def Yields (post : α → Prop) (bad : ε → Prop) : Except ε α → Prop
  | .ok out => post out
  | .error e => bad e

namespace Yields

variable {post : α → Prop} {next : β → Prop} {bad : ε → Prop} {x : Except ε α}

theorem ok {out : α} (holds : post out) : Yields post bad (.ok out) := holds

theorem bind {f : α → Except ε β} (first : Yields post bad x)
    (rest : ∀ out, post out → Yields next bad (f out)) : Yields next bad (x >>= f) := by
  cases x with
  | error e => exact first
  | ok out => exact rest out first

theorem imp {wider : α → Prop} (yields : Yields post bad x)
    (within : ∀ out, post out → wider out) : Yields wider bad x := by
  cases x with
  | error e => exact yields
  | ok out => exact within out yields

theorem right {out : α} (yields : Yields post bad x) (same : x = .ok out) : post out := by
  subst same
  exact yields

theorem fails {e : ε} (yields : Yields post bad x) (same : x = .error e) : bad e := by
  subst same
  exact yields

theorem given (yields : Yields post bad x) (none : ∀ e, ¬ bad e) : ∃ out, x = .ok out := by
  cases x with
  | error e => exact absurd yields (none e)
  | ok out => exact ⟨out, rfl⟩

end Yields

end SelectorRank
