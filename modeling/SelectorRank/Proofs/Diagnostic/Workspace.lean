import Mathlib.Data.List.Induction
import SelectorRank.Diagnostic
import SelectorRank.Proofs.Outcome

/-! Runs of a workspace. A name stands for the text that was last put under it, whatever is put under
other names, and what a step publishes is the diagnosis of that text. -/
namespace SelectorRank.Workspace

variable {name other text : String} {steps : List (String × String)}

/-! Steps. -/

theorem putText (w : Workspace) (name text : String) :
    (w.put name text).documents.lookup name = some text := by
  simp [put]

theorem filterLookup (apart : other ≠ name) (documents : List (String × String)) :
    (documents.filter (fun d => d.1 ≠ name)).lookup other = documents.lookup other := by
  induction documents with
  | nil => rfl
  | cons d documents ih =>
    by_cases same : d.1 = name
    · have missed : (other == d.1) = false := by simpa [same] using apart
      rw [List.filter_cons_of_neg (by simpa using same), ih, List.lookup_cons, missed]
    · rw [List.filter_cons_of_pos (by simpa using same), List.lookup_cons, List.lookup_cons, ih]

theorem putOther (apart : other ≠ name) (w : Workspace) (text : String) :
    (w.put name text).documents.lookup other = w.documents.lookup other := by
  have missed : (other == name) = false := by simpa using apart
  rw [put, List.lookup_cons, missed]
  exact filterLookup apart w.documents

theorem publishPut (w : Workspace) (name text : String) :
    (w.put name text).publish name = diagnose text := by
  rw [publish, putText]
  rfl

/-! Runs. -/

def after (w : Workspace) (steps : List (String × String)) : Workspace :=
  steps.foldl (fun w step => w.put step.1 step.2) w

def lastText? (steps : List (String × String)) (name : String) : Option String :=
  steps.reverse.lookup name

theorem afterText (w : Workspace) (steps : List (String × String)) (name : String) :
    (w.after steps).documents.lookup name = (lastText? steps name).or (w.documents.lookup name) := by
  induction steps using List.reverseRecOn with
  | nil => rfl
  | append_singleton steps step ih =>
    obtain ⟨other, text⟩ := step
    rw [after, List.foldl_append, lastText?, List.reverse_append]
    by_cases same : name = other
    · subst same
      simp [putText]
    · have missed : (name == other) = false := by simpa using same
      simp only [List.foldl_cons, List.foldl_nil, List.reverse_singleton, List.singleton_append,
        List.lookup_cons, missed]
      rw [putOther same]
      exact ih

/-- What was in the workspace before has no part in what a run publishes. -/
theorem runEach (w : Workspace) (steps : List (String × String)) :
    w.run steps = steps.mapM fun step => (diagnose step.2).map (step.1, ·) := by
  induction steps generalizing w with
  | nil => rfl
  | cons step steps ih =>
    rw [run, List.mapM_cons, publishPut, ih]
    cases diagnose step.2 <;> rfl

/-- A run publishes once for each step, and each time the diagnosis of the text that was put last under
the name of the step; it does so where all texts have a diagnosis. -/
theorem runPublishes (w : Workspace) (steps : List (String × String)) :
    ((∃ told, w.run steps = .ok told) ↔ ∀ step ∈ steps, ∃ found, diagnose step.2 = .ok found) ∧
    ∀ told, w.run steps = .ok told → told.length = steps.length ∧
      ∀ n name found, told[n]? = some (name, found) →
        (w.after (steps.take (n + 1))).publish name = .ok found ∧
        ∃ text, lastText? (steps.take (n + 1)) name = some text ∧ diagnose text = .ok found := by
  rw [runEach]
  refine ⟨⟨?_, ?_⟩, ?_⟩
  · rintro ⟨told, ran⟩ step member
    obtain ⟨y, made⟩ := mapMEach ran step member
    obtain ⟨found, diagnosed, _⟩ := mapOk made
    exact ⟨found, diagnosed⟩
  · intro each
    refine mapMGiven fun step member => ?_
    obtain ⟨found, diagnosed⟩ := each step member
    exact ⟨(step.1, found), by rw [diagnosed]; rfl⟩
  · intro told ran
    refine ⟨mapMLength ran, fun n name found published => ?_⟩
    obtain ⟨⟨given, text⟩, step, made⟩ := mapMAt ran published
    obtain ⟨_, diagnosed, same⟩ := mapOk made
    obtain ⟨rfl, rfl⟩ := Prod.mk.inj same
    have last : lastText? (steps.take (n + 1)) given = some text := by
      simp [lastText?, List.take_add_one, step]
    refine ⟨?_, text, last, diagnosed⟩
    rw [publish, afterText, last]
    exact diagnosed

end SelectorRank.Workspace
