import SelectorRank.CommandLine.Request
import SelectorRank.CommandLine.Settings
import SelectorRank.Proofs.Outcome

/-! Settings are what is in effect: a flag if it was given, else what the settings document says, else
what is usual, each of which has to be valid. -/
namespace SelectorRank.CommandLine
open Toml (Table Value)

/-! Origins that a command line asks for are those of style sheets. -/

def Given.AsksSheet (g : Given) : Prop := ∀ o, g.origin = .value o → o ∈ sheetOrigins

section
variable {g g' : Given} {p q : Progress}

theorem setAsksSheet {flag : Flag} {value : String} (asks : g.AsksSheet)
    (ok : g.set flag value = .ok g') : g'.AsksSheet := by
  unfold Given.set at ok
  split at ok
  case h_3 =>
    split at ok
    · next origin found =>
      cases ok
      intro o same
      cases same
      exact List.mem_of_find?_eq_some found
    · cases ok
  case h_4 =>
    split at ok <;> cases ok
    exact asks
  all_goals
    cases ok
    exact asks

theorem blankAsksSheet (flag : Flag) (asks : g.AsksSheet) : (g.blank flag).AsksSheet := by
  cases flag with
  | origin => intro o same; cases same
  | _ => exact asks

theorem assignAsksSheet {flag : Flag} {value : String} (asks : p.given.AsksSheet)
    (ok : p.assign flag value = .ok q) : q.given.AsksSheet := by
  obtain ⟨given, assigned, ok⟩ := bindOk ok
  cases ok
  unfold Given.assign at assigned
  split at assigned
  · cases assigned
    exact blankAsksSheet flag asks
  · cases made : p.given.set flag value with
    | error fault => rw [made] at assigned; cases assigned
    | ok given' =>
      rw [made] at assigned
      cases assigned
      exact setAsksSheet asks made

theorem switchAsksSheet {flag : Flag} (asks : p.given.AsksSheet) (ok : p.switch flag = .ok q) :
    q.given.AsksSheet := by
  unfold Progress.switch at ok
  split at ok
  · cases ok
  · cases ok
    cases flag <;> exact asks

theorem plainAsksSheet (word : String) (asks : p.given.AsksSheet) : (p.plain word).given.AsksSheet := by
  unfold Progress.plain
  split <;> exact asks

theorem separatorAsksSheet (word : String) (asks : p.given.AsksSheet) :
    (p.separator word).given.AsksSheet := by
  unfold Progress.separator
  split <;> exact asks

theorem readFromAsksSheet {awaited : Option Flag} {words : List (String × Word)}
    (asks : p.given.AsksSheet) (ok : readFrom p awaited words = .ok q) : q.given.AsksSheet := by
  fun_induction readFrom p awaited words with
  | case1 =>
    cases ok
    exact asks
  | case5 p word rest ih => exact ih (plainAsksSheet word asks) ok
  | case6 p word rest ih => exact ih (separatorAsksSheet word asks) ok
  | case7 p word rest ih => exact ih asks ok
  | case8 p word rest flag _ ih => exact ih asks ok
  | case9 p word rest flag _ ih =>
    obtain ⟨next, switched, ok⟩ := bindOk ok
    exact ih next (switchAsksSheet asks switched) ok
  | case3 p flag word rest ih | case10 p _ rest flag word _ ih | case12 p _ rest flag word _ ih =>
    obtain ⟨next, assigned, ok⟩ := bindOk ok
    exact ih next (assignAsksSheet asks assigned) ok
  | _ => cases ok

theorem readAsksSheet {words : List String} (accepted : Given.read words = .ok g) : g.AsksSheet := by
  obtain ⟨kinds, _, accepted⟩ := bindOk accepted
  obtain ⟨p, done, accepted⟩ := bindOk accepted
  have asks : p.given.AsksSheet := readFromAsksSheet (fun _ same => by cases same) done
  split at accepted
  · cases accepted
    exact asks
  · cases accepted

end

/-! What is in effect. -/

/-- What was chosen, as it would be set. -/
def Choice.effective {α : Type} (word : α → String) (choice : Choice α) (set : Value) : Value :=
  match choice with
  | .value a => .text (word a)
  | .blank => .array []
  | .absent => set

def effectiveTruth (asked : Option Bool) (set : Value) : Value :=
  match asked with
  | some value => .boolean value
  | none => set

namespace Given

def originValue (g : Given) (t : Table) : Value :=
  g.origin.effective Origin.word (settingOr t "origin" (.text "author"))

def formatValue (g : Given) (t : Table) : Value :=
  g.format.effective Format.word (settingOr t "format" (.text "text"))

def importantValue (g : Given) (t : Table) : Value :=
  effectiveTruth g.important (settingOr t "important" (.boolean false))

def sortValue (g : Given) (t : Table) : Value :=
  effectiveTruth g.sort (settingOr t "sort" (.boolean false))

end Given

def ValidOrigin (v : Value) : Prop := ∃ o ∈ sheetOrigins, v = .text o.word

def ValidFormat (v : Value) : Prop := ∃ f : Format, v = .text f.word

def ValidTruth (v : Value) : Prop := ∃ b, v = .boolean b

structure ValidOptions (g : Given) (t : Table) : Prop where
  origin : ValidOrigin (g.originValue t)
  format : ValidFormat (g.formatValue t)
  important : ValidTruth (g.importantValue t)
  sort : ValidTruth (g.sortValue t)

structure Effective (g : Given) (t : Table) (s : Settings) : Prop where
  origin : g.originValue t = .text s.origin.word
  sheet : s.origin ∈ sheetOrigins
  format : g.formatValue t = .text s.format.word
  important : g.importantValue t = .boolean s.important
  sort : g.sortValue t = .boolean s.sort
  selectors : s.selectors = g.selectors
  files : s.files = g.files
  debug : s.debug = g.debug

/-! Values, read. -/

section
variable {v : Value}

theorem ofWordIff {word : String} {o : Origin} : Origin.ofWord? word = some o ↔ word = o.word := by
  constructor
  · intro found
    unfold Origin.ofWord? at found
    split at found <;> cases found <;> rfl
  · rintro rfl
    cases o <;> rfl

theorem originOfIff {o : Origin} : originOf v = .ok o ↔ o ∈ sheetOrigins ∧ v = .text o.word := by
  constructor
  · intro ok
    unfold originOf at ok
    split at ok
    · next word =>
      split at ok
      · cases ok
      · cases ok
      · next origin other found =>
        cases ok
        refine ⟨?_, congrArg Value.text (ofWordIff.mp found)⟩
        cases o with
        | inline => exact absurd rfl other
        | _ => simp [sheetOrigins]
    · cases ok
  · rintro ⟨sheet, rfl⟩
    simp only [sheetOrigins, List.mem_cons, List.not_mem_nil, or_false] at sheet
    rcases sheet with rfl | rfl | rfl <;> rfl

theorem formatOfIff {f : Format} : formatOf v = .ok f ↔ v = .text f.word := by
  constructor
  · intro ok
    unfold formatOf at ok
    split at ok
    · next word =>
      split at ok
      · next format found =>
        cases ok
        have same : f.word = word := by simpa using List.find?_some found
        rw [same]
      · cases ok
    · cases ok
  · rintro rfl
    cases f <;> rfl

theorem truthOfIff {b : Bool} : truthOf v = .ok b ↔ v = .boolean b := by
  cases v <;> simp [truthOf]

theorem originOfFault {f : SettingFault} (failed : originOf v = .error f) :
    ¬ ValidOrigin v ∧ f.isShowable = !v.isOverlong := by
  constructor
  · rintro ⟨o, sheet, same⟩
    cases failed.symm.trans (originOfIff.mpr ⟨sheet, same⟩)
  · unfold originOf at failed
    split at failed
    · split at failed <;> cases failed <;> rfl
    · cases failed
      rfl

theorem formatOfFault {f : SettingFault} (failed : formatOf v = .error f) :
    ¬ ValidFormat v ∧ f.isShowable = !v.isOverlong := by
  constructor
  · rintro ⟨o, same⟩
    cases failed.symm.trans (formatOfIff.mpr same)
  · unfold formatOf at failed
    split at failed
    · split at failed <;> cases failed
      rfl
    · cases failed
      rfl

theorem truthOfFault {f : SettingFault} (failed : truthOf v = .error f) :
    ¬ ValidTruth v ∧ f.isShowable = true := by
  constructor
  · rintro ⟨b, same⟩
    cases failed.symm.trans (truthOfIff.mpr same)
  · unfold truthOf at failed
    split at failed <;> cases failed
    rfl

end

/-! Settings, read. -/

section
variable {g : Given} {t : Table} {s : Settings}

/-- The first option that is not valid is one whose value cannot be shown. -/
def Overlong (g : Given) (t : Table) : Prop :=
  (g.originValue t).isOverlong ∨ ValidOrigin (g.originValue t) ∧ (g.formatValue t).isOverlong

theorem orReadEffective {α : Type} {word : α → String} {read : Value → Except SettingFault α}
    (choice : Choice α) (set : Value)
    (reads : ∀ a, choice = .value a → read (.text (word a)) = .ok a) :
    choice.orRead read set = read (choice.effective word set) := by
  cases choice with
  | value a => exact (reads a rfl).symm
  | blank => rfl
  | absent => rfl

theorem orSettingEffective (asked : Option Bool) (set : Value) :
    orSetting asked (truthOf set) = truthOf (effectiveTruth asked set) := by
  cases asked <;> rfl

theorem settleEffective (asks : g.AsksSheet) : g.settle t = (do
    let origin ← originOf (g.originValue t)
    let format ← formatOf (g.formatValue t)
    let important ← truthOf (g.importantValue t)
    let sort ← truthOf (g.sortValue t)
    .ok ⟨g.selectors, g.files, origin, important, sort, format, g.debug⟩) := by
  have origin := orReadEffective g.origin (settingOr t "origin" (.text "author"))
    fun o asked => originOfIff.mpr ⟨asks o asked, rfl⟩
  have format := orReadEffective g.format (settingOr t "format" (.text "text"))
    fun f _ => formatOfIff.mpr rfl
  rw [Given.settle, origin, format, orSettingEffective, orSettingEffective]
  rfl

theorem settleIff (asks : g.AsksSheet) : g.settle t = .ok s ↔ Effective g t s := by
  rw [settleEffective asks]
  constructor
  · intro ok
    obtain ⟨origin, ho, ok⟩ := bindOk ok
    obtain ⟨format, hf, ok⟩ := bindOk ok
    obtain ⟨important, hi, ok⟩ := bindOk ok
    obtain ⟨sort, hs, ok⟩ := bindOk ok
    cases ok
    obtain ⟨sheet, origin⟩ := originOfIff.mp ho
    exact ⟨origin, sheet, formatOfIff.mp hf, truthOfIff.mp hi, truthOfIff.mp hs, rfl, rfl, rfl⟩
  · intro h
    obtain ⟨selectors, files, origin, important, sort, format, debug⟩ := s
    obtain ⟨ho, sheet, hf, hi, hs, rfl, rfl, rfl⟩ := h
    simp [originOfIff.mpr ⟨sheet, ho⟩, formatOfIff.mpr hf, truthOfIff.mpr hi, truthOfIff.mpr hs,
      bind, Except.bind]

theorem effectiveValid (h : Effective g t s) : ValidOptions g t :=
  ⟨⟨_, h.sheet, h.origin⟩, ⟨_, h.format⟩, ⟨_, h.important⟩, ⟨_, h.sort⟩⟩

theorem overlongInvalid (overlong : Overlong g t) : ¬ ValidOptions g t := by
  intro valid
  rcases overlong with long | ⟨_, long⟩
  · obtain ⟨o, _, text⟩ := valid.origin
    rw [text] at long
    cases long
  · obtain ⟨f, text⟩ := valid.format
    rw [text] at long
    cases long

theorem truthsFault {f : SettingFault} {make : Bool → Bool → Settings}
    (failed : (do
      let important ← truthOf (g.importantValue t)
      let sort ← truthOf (g.sortValue t)
      .ok (make important sort)) = .error f) : ¬ ValidOptions g t ∧ f.isShowable = true := by
  cases hi : truthOf (g.importantValue t) with
  | error fault =>
    rw [hi] at failed
    cases failed
    obtain ⟨invalid, showable⟩ := truthOfFault hi
    exact ⟨fun valid => invalid valid.important, showable⟩
  | ok important =>
    cases hs : truthOf (g.sortValue t) with
    | error fault =>
      rw [hi, hs] at failed
      cases failed
      obtain ⟨invalid, showable⟩ := truthOfFault hs
      exact ⟨fun valid => invalid valid.sort, showable⟩
    | ok sort =>
      rw [hi, hs] at failed
      cases failed

theorem settleFault {f : SettingFault} (asks : g.AsksSheet) (failed : g.settle t = .error f) :
    ¬ ValidOptions g t ∧ (f.isShowable = false ↔ Overlong g t) := by
  rw [settleEffective asks] at failed
  unfold Overlong
  cases ho : originOf (g.originValue t) with
  | error fault =>
    rw [ho] at failed
    cases failed
    obtain ⟨invalid, showable⟩ := originOfFault ho
    exact ⟨fun valid => invalid valid.origin, by simp [showable, invalid]⟩
  | ok o =>
  obtain ⟨sheet, origin⟩ := originOfIff.mp ho
  have short : (g.originValue t).isOverlong = false := by
    rw [origin]
    rfl
  cases hf : formatOf (g.formatValue t) with
  | error fault =>
    rw [ho, hf] at failed
    cases failed
    obtain ⟨invalid, showable⟩ := formatOfFault hf
    have valid : ValidOrigin (g.originValue t) := ⟨o, sheet, origin⟩
    exact ⟨fun valid => invalid valid.format, by simp [showable, short, valid]⟩
  | ok format =>
  have short' : (g.formatValue t).isOverlong = false := by
    rw [formatOfIff.mp hf]
    rfl
  rw [ho, hf] at failed
  have truth : ¬ ValidOptions g t ∧ f.isShowable = true := truthsFault failed
  exact ⟨truth.1, by simp [truth.2, short, short']⟩

end

end SelectorRank.CommandLine
