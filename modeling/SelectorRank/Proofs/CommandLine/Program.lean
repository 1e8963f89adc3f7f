import SelectorRank.CommandLine.Program
import SelectorRank.Proofs.CommandLine.Settings
import SelectorRank.Proofs.Declaration.Comparable

/-! How a run ends. What the settings and the files make impossible is told before any source is
read; of the sources the first that is rejected decides, and only if none is there is a report. -/
namespace SelectorRank.CommandLine
open Text
open Toml (Table Value)

/-! What a run starts from. -/

inductive Configured (files : Files) (g : Given) : Table → Prop where
  | document {bytes cs t} (found : files g.configName = .ok bytes) (text : decode bytes = .ok cs)
      (read : Toml.read cs = .ok t) : Configured files g t
  | missing {fault} (missing : files g.configName = .error fault) : Configured files g []

def Settled (files : Files) (g : Given) (s : Settings) : Prop :=
  ∃ t, Configured files g t ∧ Effective g t s

/-- What keeps a run from reading sources: the document of settings, an option or a file. -/
inductive Unfit (files : Files) (g : Given) : Prop where
  | document {bytes cs message} (found : files g.configName = .ok bytes)
      (text : decode bytes = .ok cs) (malformed : Toml.read cs = .error (.rejected message))
  | option {t} (configured : Configured files g t) (invalid : ¬ ValidOptions g t)
  | file {name fault} (named : some name ∈ g.files)
      (unreadable : files (.ofText name) = .error fault)

def fileText? (files : Files) (name : String) : Option (List Char) :=
  match files (.ofText name) with
  | .ok bytes => (decode bytes).toOption
  | .error _ => none

def fileSources (files : Files) : Option String → List String
  | some name => ((fileText? files name).map sourcesOf).getD []
  | none => []

def Given.sources (files : Files) (g : Given) : List String :=
  g.selectors ++ g.files.flatMap (fileSources files)

/-! How it ends. -/

def dumped (g : Given) (selectors : List Selector) : String :=
  if g.debug then outlines selectors else ""

inductive Ends (files : Files) (g : Given) : Outcome → Prop where
  | unfit {told} (unfit : Unfit files g) : Ends files g ⟨2, "", told⟩
  | rejected {before source after lists c} (fit : ¬ Unfit files g)
      (split : g.sources files = before ++ source :: after) (read : before.mapM parseList = .ok lists)
      (failed : parseList source = .error (.rejected c)) :
      Ends files g ⟨1, "", dumped g lists.flatten ++ c.report unnamedSource ++ "\n"⟩
  | reported {s lists ordered told} (fit : ¬ Unfit files g) (settled : Settled files g s)
      (read : (g.sources files).mapM parseList = .ok lists)
      (sorted : (if s.sort then sortItems ((lists.flatten.map s.declaration).map .declaration)
        else .ok (lists.flatten.map s.declaration)) = .ok ordered)
      (rows : ordered.mapM Row.of = .ok told) :
      Ends files g ⟨0, report s.format told, dumped g lists.flatten⟩

def Reads (files : Files) (name : Option String) : Prop :=
  ∃ text cs, name = some text ∧ fileText? files text = some cs

structure Loaded (files : Files) (g : Given) (t : Table) : Prop where
  configured : Configured files g t
  short : files g.configName ≠ .error .longName

/-- What cuts a run off, with what is told then. Each case holds all that brings a run so far. -/
inductive Interrupts (files : Files) (g : Given) : Abort → Prop where
  | configName (long : files g.configName = .error .longName) :
      Interrupts files g (.longName g.configName)
  | configBytes {bytes fault} (found : files g.configName = .ok bytes)
      (garbled : decode bytes = .error fault) : Interrupts files g (.undecodable fault)
  | configNumeral {bytes cs digits} (found : files g.configName = .ok bytes)
      (text : decode bytes = .ok cs) (long : Toml.read cs = .error (.longNumeral digits)) :
      Interrupts files g (.longNumeral digits)
  | option {t} (loaded : Loaded files g t) (overlong : Overlong g t) :
      Interrupts files g .longInteger
  | nameless {t s} (loaded : Loaded files g t) (effective : Effective g t s)
      (nameless : none ∈ g.files) : Interrupts files g .namelessFile
  | fileName {t s before name after} (loaded : Loaded files g t) (effective : Effective g t s)
      (named : none ∉ g.files) (split : g.files = before ++ some name :: after)
      (read : ∀ other ∈ before, Reads files other)
      (null : files (.ofText name) = .error .nulInName) : Interrupts files g .nulInName
  | fileBytes {t s before name after bytes fault} (loaded : Loaded files g t)
      (effective : Effective g t s) (named : none ∉ g.files)
      (split : g.files = before ++ some name :: after) (read : ∀ other ∈ before, Reads files other)
      (found : files (.ofText name) = .ok bytes) (garbled : decode bytes = .error fault) :
      Interrupts files g (.undecodable fault)
  | source {t s before source after lists digits} (loaded : Loaded files g t)
      (effective : Effective g t s) (read : ∀ name ∈ g.files, Reads files name)
      (split : g.sources files = before ++ source :: after)
      (parsed : before.mapM parseList = .ok lists)
      (failed : parseList source = .error (.longOffset digits)) :
      Interrupts files g (.longNumeral digits)

def CutOff (files : Files) (g : Given) : Prop := ∃ abort, Interrupts files g abort

inductive Finishes (files : Files) (g : Given) : Except Abort Outcome → Prop where
  | ended {outcome} (ends : Ends files g outcome) : Finishes files g (.ok outcome)
  | aborted {abort} (interrupts : Interrupts files g abort) : Finishes files g (.error abort)

section
variable {files : Files} {g : Given} {s : Settings} {t t' : Table} {stop : Stop}

theorem configuredUnique (first : Configured files g t) (second : Configured files g t') : t = t' := by
  cases first with
  | document found text read =>
    cases second with
    | document found' text' read' =>
      cases found.symm.trans found'
      cases text.symm.trans text'
      exact Except.ok.inj (read.symm.trans read')
    | missing none => cases found.symm.trans none
  | missing none =>
    cases second with
    | document found _ _ => cases none.symm.trans found
    | missing _ => rfl

theorem settledFit (settled : Settled files g s) (read : ∀ name ∈ g.files, Reads files name) :
    ¬ Unfit files g := by
  obtain ⟨t, configured, effective⟩ := settled
  intro unfit
  cases unfit with
  | document found text malformed =>
    cases configured with
    | document found' text' read' =>
      cases found.symm.trans found'
      cases text.symm.trans text'
      cases malformed.symm.trans read'
    | missing none => cases found.symm.trans none
  | option configured' invalid =>
    cases configuredUnique configured configured'
    exact invalid (effectiveValid effective)
  | file named unreadable =>
    obtain ⟨text, cs, same, text?⟩ := read _ named
    cases same
    simp [fileText?, unreadable] at text?

end

/-- A step of a run, which goes on with what has a property or stops where the run finishes. -/
inductive Goes {α : Type} (files : Files) (g : Given) (post : α → Prop) : Except Stop α → Prop where
  | on {a} (holds : post a) : Goes files g post (.ok a)
  | stops {stop} (finishes : Finishes files g stop.outcome) : Goes files g post (.error stop)

section
variable {files : Files} {g : Given} {s : Settings} {t : Table}

theorem goesBind {α β : Type} {post : α → Prop} {next : β → Prop} {x : Except Stop α}
    {f : α → Except Stop β} (first : Goes files g post x)
    (rest : ∀ a, post a → Goes files g next (f a)) : Goes files g next (x >>= f) := by
  cases first with
  | on holds => exact rest _ holds
  | stops finishes => exact .stops finishes

theorem goesAborted {α : Type} {post : α → Prop} {abort : Abort}
    (interrupts : Interrupts files g abort) : Goes files g post (.error (.abort abort)) :=
  .stops (.aborted interrupts)

/-! Settings. -/

theorem decodedText {bytes : List UInt8} {cs : List Char} (text : decode bytes = .ok cs) :
    decoded bytes = .ok cs := by
  rw [decoded, text]
  rfl

theorem decodedGarbled {bytes : List UInt8} {fault : Utf8Fault}
    (garbled : decode bytes = .error fault) :
    decoded bytes = .error (.abort (.undecodable fault)) := by
  rw [decoded, garbled]
  rfl

theorem loadTableFound {name : FileName} {bytes : List UInt8} (found : files name = .ok bytes) :
    loadTable files name = (do readTable (← decoded bytes)) := by
  rw [loadTable, found]

theorem readTableGoes {bytes : List UInt8} {cs : List Char}
    (found : files g.configName = .ok bytes) (text : decode bytes = .ok cs) :
    Goes files g (Loaded files g) (readTable cs) := by
  unfold readTable
  split
  · next read => exact .on ⟨.document found text read, by simp [found]⟩
  · next malformed => exact .stops (.ended (.unfit (.document found text malformed)))
  · next long => exact goesAborted (.configNumeral found text long)

theorem loadTableGoes : Goes files g (Loaded files g) (loadTable files g.configName) := by
  unfold loadTable
  split
  · next bytes found =>
    cases text : decode bytes with
    | error fault =>
      rw [decodedGarbled text]
      exact goesAborted (.configBytes found text)
    | ok cs =>
      rw [decodedText text]
      exact readTableGoes found text
  · next long => exact goesAborted (.configName long)
  · next fault short missing =>
    exact .on ⟨.missing missing, fun long => short (Except.error.inj (missing.symm.trans long))⟩

def Ready (files : Files) (g : Given) (s : Settings) : Prop :=
  ∃ t, Loaded files g t ∧ Effective g t s

theorem loadSettingsGoes (asks : g.AsksSheet) :
    Goes files g (Ready files g) (loadSettings files g) := by
  refine goesBind loadTableGoes fun t loaded => ?_
  split
  · next settings settled => exact .on ⟨t, loaded, (settleIff asks).mp settled⟩
  · next fault failed =>
    obtain ⟨invalid, unshowable⟩ := settleFault asks failed
    cases showable : fault.isShowable with
    | true => exact .stops (.ended (.unfit (.option loaded.configured invalid)))
    | false => exact goesAborted (.option loaded (unshowable.mp showable))

/-! Files. -/

theorem readFileText {name : String} {cs : List Char} :
    readFile files (.ofText name) = .ok cs ↔ fileText? files name = some cs := by
  unfold readFile fileText?
  split
  · next bytes found =>
    simp only [found, decoded]
    cases decode bytes <;> simp [Except.mapError, Except.toOption]
  · next null => simp [null]
  · next fault _ missing => simp [missing]

theorem readFileStops {name : String} {stop : Stop}
    (failed : readFile files (.ofText name) = .error stop) :
    (∃ fault, files (.ofText name) = .error fault ∧ stop = .file (.ofText name) fault) ∨
      files (.ofText name) = .error .nulInName ∧ stop = .abort .nulInName ∨
      ∃ bytes fault, files (.ofText name) = .ok bytes ∧ decode bytes = .error fault ∧
        stop = .abort (.undecodable fault) := by
  unfold readFile at failed
  split at failed
  · next bytes found =>
    cases text : decode bytes with
    | ok cs => cases (decodedText text).symm.trans failed
    | error fault =>
      cases (decodedGarbled text).symm.trans failed
      exact .inr (.inr ⟨bytes, fault, found, text, rfl⟩)
  · next null =>
    cases failed
    exact .inr (.inl ⟨null, rfl⟩)
  · next fault _ missing =>
    cases failed
    exact .inl ⟨fault, missing, rfl⟩

theorem allNamed {names : List (Option String)} (named : none ∉ names) :
    ∃ texts, names = texts.map some ∧ names.mapM id = some texts := by
  induction names with
  | nil => exact ⟨[], rfl, rfl⟩
  | cons name names ih =>
    rw [List.mem_cons, not_or] at named
    obtain ⟨texts, rfl, done⟩ := ih named.2
    cases name with
    | none => exact absurd rfl named.1
    | some text => exact ⟨text :: texts, rfl, by simp [List.mapM_cons, done]⟩

theorem notNamed {names : List (Option String)} (nameless : none ∈ names) :
    names.mapM id = none := by
  induction names with
  | nil => cases nameless
  | cons name names ih =>
    rcases List.mem_cons.mp nameless with rfl | member
    · rfl
    · cases name <;> simp [List.mapM_cons, ih member]

theorem readsSources {names : List String} {texts : List (List Char)}
    (read : names.mapM (fun name => readFile files (.ofText name)) = .ok texts) :
    (∀ name ∈ names.map some, Reads files name) ∧
      (names.map some).flatMap (fileSources files) = texts.flatMap sourcesOf := by
  induction names generalizing texts with
  | nil =>
    cases read
    exact ⟨by simp, rfl⟩
  | cons name names ih =>
    obtain ⟨cs, rest, first, others, rfl⟩ := mapMCons read
    obtain ⟨reads, same⟩ := ih others
    have text := readFileText.mp first
    refine ⟨List.forall_mem_cons.mpr ⟨⟨name, cs, rfl, text⟩, reads⟩, ?_⟩
    rw [List.map_cons, List.flatMap_cons, List.flatMap_cons, same, fileSources, text]
    rfl

theorem readsGiven {names : List String} (reads : ∀ name ∈ names.map some, Reads files name) :
    ∃ texts, names.mapM (fun name => readFile files (.ofText name)) = .ok texts := by
  refine mapMGiven fun name member => ?_
  obtain ⟨text, cs, same, read⟩ := reads _ (List.mem_map_of_mem member)
  cases same
  exact ⟨cs, readFileText.mpr read⟩

theorem loadSourcesNameless (effective : Effective g t s) (nameless : none ∈ g.files) :
    loadSources files s = .error (.abort .namelessFile) := by
  rw [loadSources, Settings.fileNames, effective.files, notNamed nameless]
  rfl

theorem loadSourcesNamed (files : Files) (effective : Effective g t s)
    (named : none ∉ g.files) :
    ∃ names : List String, g.files = names.map some ∧ loadSources files s = (do
      let texts ← names.mapM fun name => readFile files (.ofText name)
      .ok (g.selectors ++ texts.flatMap sourcesOf)) := by
  obtain ⟨names, given, done⟩ := allNamed named
  refine ⟨names, given, ?_⟩
  rw [loadSources, Settings.fileNames, effective.files, effective.selectors, done]
  simp only [bind, Except.bind, List.mapM_map, Function.comp_def]

theorem loadSourcesRead (effective : Effective g t s) (read : ∀ name ∈ g.files, Reads files name) :
    loadSources files s = .ok (g.sources files) := by
  have named : none ∉ g.files := fun nameless => by
    obtain ⟨_, _, same, _⟩ := read _ nameless
    cases same
  obtain ⟨names, given, loads⟩ := loadSourcesNamed files effective named
  obtain ⟨texts, made⟩ := readsGiven (given ▸ read)
  rw [loads, made, Given.sources, given, (readsSources made).2]
  rfl

theorem loadSourcesGoes (loaded : Loaded files g t) (effective : Effective g t s) :
    Goes files g (fun sources => sources = g.sources files ∧ ∀ name ∈ g.files, Reads files name)
      (loadSources files s) := by
  by_cases nameless : none ∈ g.files
  · rw [loadSourcesNameless effective nameless]
    exact goesAborted (.nameless loaded effective nameless)
  obtain ⟨names, given, loads⟩ := loadSourcesNamed files effective nameless
  cases read : names.mapM fun name => readFile files (.ofText name) with
  | ok texts =>
    have reads : ∀ name ∈ g.files, Reads files name := given ▸ (readsSources read).1
    rw [loadSourcesRead effective reads]
    exact .on ⟨rfl, reads⟩
  | error stop =>
    -- The first file that fails decides: one that is not there is told, a garbled one cuts off.
    rw [loads, read]
    obtain ⟨before, name, after, texts, rfl, first, failed⟩ := mapMSplit read
    have split : g.files = before.map some ++ some name :: after.map some := by simp [given]
    have before := (readsSources first).1
    rcases readFileStops failed with ⟨fault, unreadable, rfl⟩ | ⟨null, rfl⟩ |
      ⟨bytes, fault, found, garbled, rfl⟩
    · exact .stops (.ended (.unfit (.file (by simp [given]) unreadable)))
    · exact goesAborted (.fileName loaded effective nameless split before null)
    · exact goesAborted (.fileBytes loaded effective nameless split before found garbled)

/-! Sources. -/

theorem dumpAppend (first rest : List Selector) :
    s.dump (first ++ rest) = s.dump first ++ s.dump rest := by
  unfold Settings.dump outlines
  split
  · rw [List.map_append, String.join_append]
  · rfl

theorem analyseAfter {before rest : List String} {lists : List (List Selector)} (dumped : String)
    (read : before.mapM parseList = .ok lists) : analyse s dumped (before ++ rest) = (do
      let (others, dumped) ← analyse s (dumped ++ s.dump lists.flatten) rest
      .ok (lists.flatten ++ others, dumped)) := by
  induction before generalizing lists dumped with
  | nil =>
    obtain rfl : [] = lists := Except.ok.inj read
    have nothing : s.dump [] = "" := by simp [Settings.dump, outlines]
    rw [List.flatten_nil, nothing, String.append_empty, List.nil_append]
    cases analyse s dumped rest <;> rfl
  | cons source before ih =>
    obtain ⟨selectors, others, first, later, rfl⟩ := mapMCons read
    rw [List.cons_append, analyse, first]
    simp only [ih _ later, List.flatten_cons, dumpAppend, String.append_assoc]
    cases analyse s (dumped ++ (s.dump selectors ++ s.dump others.flatten)) rest <;>
      simp [bind, Except.bind]

theorem analyseRead {sources : List String} {lists : List (List Selector)}
    (read : sources.mapM parseList = .ok lists) :
    analyse s "" sources = .ok (lists.flatten, s.dump lists.flatten) := by
  have whole : analyse s "" (sources ++ []) = _ := analyseAfter "" read
  rw [List.append_nil] at whole
  rw [whole]
  simp [analyse, bind, Except.bind]

def stopAt (dumped : String) : ParseFailure → Stop
  | .rejected c => .selector dumped c
  | .longOffset digits => .abort (.longNumeral digits)

theorem analyseStops {before after : List String} {source : String} {lists : List (List Selector)}
    {failure : ParseFailure} (read : before.mapM parseList = .ok lists)
    (failed : parseList source = .error failure) :
    analyse s "" (before ++ source :: after) = .error (stopAt (s.dump lists.flatten) failure) := by
  rw [analyseAfter "" read, analyse, failed, String.empty_append]
  cases failure <;> rfl

theorem dumpGiven (effective : Effective g t s) (selectors : List Selector) :
    s.dump selectors = dumped g selectors := by
  rw [Settings.dump, effective.debug, dumped]

theorem analyseGoes (loaded : Loaded files g t) (effective : Effective g t s)
    (read : ∀ name ∈ g.files, Reads files name) :
    Goes files g (fun analysed => ∃ lists, (g.sources files).mapM parseList = .ok lists ∧
      analysed = (lists.flatten, dumped g lists.flatten)) (analyse s "" (g.sources files)) := by
  cases parsed : (g.sources files).mapM parseList with
  | ok lists =>
    rw [analyseRead parsed, dumpGiven effective]
    exact .on ⟨lists, rfl, rfl⟩
  | error failure =>
    obtain ⟨before, source, after, lists, split, first, failed⟩ := mapMSplit parsed
    rw [split, analyseStops first failed, dumpGiven effective]
    cases failure with
    | rejected c =>
      have settled : Settled files g s := ⟨t, loaded.configured, effective⟩
      exact .stops (.ended (.rejected (settledFit settled read) split first failed))
    | longOffset digits => exact goesAborted (.source loaded effective read split first failed)

/-! Rows. -/

def Weighable (d : Declaration) : Prop :=
  (∃ p, d.precedence = .ok p) ∧ ∃ w, d.specificity = .ok w

theorem weighableGiven (sheet : s.origin ∈ sheetOrigins) (selectors : List Selector) :
    ∀ d ∈ selectors.map s.declaration, Weighable d := by
  refine List.forall_mem_map.mpr fun selector _ => ?_
  simp only [sheetOrigins, List.mem_cons, List.not_mem_nil, or_false] at sheet
  rcases sheet with origin | origin | origin <;>
    simp [Weighable, Settings.declaration, Declaration.precedence, Declaration.specificity, origin]

theorem weighableSorted {ds : List Declaration} (each : ∀ d ∈ ds, Weighable d) :
    ∃ out, sortDeclarations ds = .ok out ∧ out.Perm ds := by
  have weighed : Weighed (fun d => d.precedence.toOption.getD .userAgent)
      (fun d => d.specificity.toOption.getD .zero) ds := by
    intro d member
    obtain ⟨⟨p, level⟩, w, weight⟩ := each d member
    simp [level, weight, Except.toOption]
  exact ⟨_, weighedSorted weighed, (List.mergeSort_perm _ _).trans (List.reverse_perm ds)⟩

theorem weighableRows {ds ordered : List Declaration} (each : ∀ d ∈ ds, Weighable d)
    (same : ordered.Perm ds) : ∃ rows, ordered.mapM Row.of = .ok rows := by
  refine mapMGiven fun d member => ?_
  obtain ⟨⟨p, level⟩, w, weight⟩ := each d (same.mem_iff.mp member)
  exact ⟨_, by rw [Row.of, level, weight]; rfl⟩

theorem declarationsCoerced (ds : List Declaration) :
    (ds.map Item.declaration).mapM Item.coerce = .ok ds := by
  induction ds with
  | nil => rfl
  | cons d ds ih =>
    rw [List.map_cons, List.mapM_cons, ih]
    rfl

theorem rowsGiven (sheet : s.origin ∈ sheetOrigins) (selectors : List Selector) :
    ∃ ordered rows, (if s.sort then sortItems ((selectors.map s.declaration).map .declaration)
        else .ok (selectors.map s.declaration)) = .ok ordered ∧
      ordered.mapM Row.of = .ok rows ∧ s.rows selectors = .ok rows := by
  have each := weighableGiven sheet selectors
  cases sort : s.sort with
  | false =>
    obtain ⟨rows, made⟩ := weighableRows each (.refl _)
    refine ⟨_, rows, rfl, made, ?_⟩
    rw [Settings.rows, sort]
    exact made
  | true =>
    obtain ⟨ordered, sorted, same⟩ := weighableSorted each
    obtain ⟨rows, made⟩ := weighableRows each same
    refine ⟨ordered, rows, ?_, made, ?_⟩
    · rw [if_pos rfl, sortItemsCoerced (declarationsCoerced _), sorted]
      rfl
    · rw [Settings.rows, sort, if_pos rfl, sorted]
      exact made

/-! Runs. -/

theorem readyRunGoes (ready : Ready files g s) : Goes files g (Ends files g) (s.run files) := by
  obtain ⟨t, loaded, effective⟩ := ready
  have settled : Settled files g s := ⟨t, loaded.configured, effective⟩
  refine goesBind (loadSourcesGoes loaded effective) ?_
  rintro _ ⟨rfl, read⟩
  refine goesBind (analyseGoes loaded effective read) ?_
  rintro _ ⟨lists, parsed, rfl⟩
  obtain ⟨ordered, rows, sorted, made, told⟩ := rowsGiven effective.sheet lists.flatten
  simp only [told, Except.mapError]
  exact .on (.reported (settledFit settled read) settled parsed sorted made)

theorem runGoes (asks : g.AsksSheet) : Goes files g (Ends files g) (g.run files) :=
  goesBind (loadSettingsGoes asks) fun _ ready => readyRunGoes ready

theorem runFinishes {words : List String} (accepted : Given.read words = .ok g) :
    Finishes files g (run files words) := by
  have goes : Goes files g (Ends files g) (g.run files) := runGoes (readAsksSheet accepted)
  simp only [run, accepted]
  generalize g.run files = ran at goes
  cases goes with
  | on ends => exact .ended ends
  | stops finishes => exact finishes

/-! Runs that are cut off. -/

theorem stopBind {α β : Type} {x : Except Stop α} {f : α → Except Stop β} {stop : Stop}
    (stopped : x = .error stop) : x >>= f = .error stop := by
  rw [stopped]
  rfl

theorem loadTableLoaded (loaded : Loaded files g t) : loadTable files g.configName = .ok t := by
  obtain ⟨configured, short⟩ := loaded
  cases configured with
  | document found text read =>
    rw [loadTableFound found, decodedText text]
    simp only [bind, Except.bind, readTable, read]
  | missing missing =>
    rw [loadTable, missing]
    split
    · next found => cases found
    · next long => exact absurd (missing.trans long) short
    · rfl

theorem loadSettingsLoaded (asks : g.AsksSheet) (loaded : Loaded files g t)
    (effective : Effective g t s) : loadSettings files g = .ok s := by
  rw [loadSettings, loadTableLoaded loaded]
  simp only [bind, Except.bind, (settleIff asks).mpr effective]

theorem loadSettingsOverlong (asks : g.AsksSheet) (loaded : Loaded files g t)
    (overlong : Overlong g t) : loadSettings files g = .error (.abort .longInteger) := by
  rw [loadSettings, loadTableLoaded loaded]
  cases settled : g.settle t with
  | ok s => exact absurd (effectiveValid ((settleIff asks).mp settled)) (overlongInvalid overlong)
  | error fault =>
    have unshowable : fault.isShowable = false := (settleFault asks settled).2.mpr overlong
    simp [unshowable, bind, Except.bind, settled]

theorem filesInterrupted {before after : List (Option String)} {name : String} {abort : Abort}
    (effective : Effective g t s) (named : none ∉ g.files)
    (split : g.files = before ++ some name :: after) (read : ∀ other ∈ before, Reads files other)
    (garbled : readFile files (.ofText name) = .error (.abort abort)) :
    loadSources files s = .error (.abort abort) := by
  obtain ⟨names, given, loads⟩ := loadSourcesNamed files effective named
  obtain ⟨first, rest, rfl, rfl, others⟩ := List.map_eq_append_iff.mp (given.symm.trans split)
  obtain ⟨name', last, rfl, same, _⟩ := List.map_eq_cons_iff.mp others
  cases same
  obtain ⟨texts, made⟩ := readsGiven read
  rw [loads]
  exact stopBind (mapMStops made garbled)

theorem sourcesInterrupted {before after : List String} {source : String}
    {lists : List (List Selector)} {digits : Nat} (effective : Effective g t s)
    (read : ∀ name ∈ g.files, Reads files name)
    (split : g.sources files = before ++ source :: after)
    (parsed : before.mapM parseList = .ok lists)
    (failed : parseList source = .error (.longOffset digits)) :
    s.run files = .error (.abort (.longNumeral digits)) := by
  have stopped : analyse s "" (g.sources files) = .error (.abort (.longNumeral digits)) := by
    rw [split, analyseStops parsed failed]
    rfl
  rw [Settings.run, loadSourcesRead effective read]
  simp only [bind, Except.bind, stopped]

theorem settingsInterrupted {abort : Abort} (asks : g.AsksSheet) (loaded : Loaded files g t)
    (effective : Effective g t s) (stopped : s.run files = .error (.abort abort)) :
    g.run files = .error (.abort abort) := by
  rw [Given.run, loadSettingsLoaded asks loaded effective]
  exact stopped

theorem interrupted {abort : Abort} (asks : g.AsksSheet) (interrupts : Interrupts files g abort) :
    g.run files = .error (.abort abort) := by
  cases interrupts with
  | configName long => exact stopBind (stopBind (by rw [loadTable, long]))
  | configBytes found garbled =>
    refine stopBind (stopBind ?_)
    rw [loadTableFound found, decodedGarbled garbled]
    rfl
  | configNumeral found text long =>
    refine stopBind (stopBind ?_)
    rw [loadTableFound found, decodedText text]
    simp only [bind, Except.bind, readTable, long]
  | option loaded overlong => exact stopBind (loadSettingsOverlong asks loaded overlong)
  | nameless loaded effective nameless =>
    exact settingsInterrupted asks loaded effective
      (stopBind (loadSourcesNameless effective nameless))
  | fileName loaded effective named split read null =>
    refine settingsInterrupted asks loaded effective
      (stopBind (filesInterrupted effective named split read ?_))
    rw [readFile, null]
  | fileBytes loaded effective named split read found garbled =>
    refine settingsInterrupted asks loaded effective
      (stopBind (filesInterrupted effective named split read ?_))
    rw [readFile, found]
    exact decodedGarbled garbled
  | source loaded effective read split parsed failed =>
    exact settingsInterrupted asks loaded effective
      (sourcesInterrupted effective read split parsed failed)

theorem runAborts {words : List String} {abort : Abort} (accepted : Given.read words = .ok g) :
    run files words = .error abort ↔ Interrupts files g abort := by
  constructor
  · intro same
    have finishes : Finishes files g (run files words) := runFinishes accepted
    rw [same] at finishes
    cases finishes with
    | aborted interrupts => exact interrupts
  · intro interrupts
    simp only [run, accepted, interrupted (readAsksSheet accepted) interrupts, Stop.outcome]

theorem runEnds {words : List String} {outcome : Outcome} (accepted : Given.read words = .ok g)
    (same : run files words = .ok outcome) : Ends files g outcome := by
  have finishes : Finishes files g (run files words) := runFinishes accepted
  rw [same] at finishes
  cases finishes with
  | ended ends => exact ends

/-- A run that is not cut off ends as its settings, its files and its sources make it end. -/
theorem runOutcome {words : List String} (accepted : Given.read words = .ok g) :
    (∀ outcome, run files words = .ok outcome → Ends files g outcome) ∧
      ((∃ abort, run files words = .error abort) ↔ CutOff files g) :=
  ⟨fun _ => runEnds accepted, exists_congr fun _ => runAborts accepted⟩

theorem runOutcomeRejected :
    let files : Files := fun name =>
      if name = .ofText "r" then .ok [10, 32, 98, 32, 62, 10] else .error .missing
    let words := ["a", "-f", "r", "--debug"]
    let g : Given := ⟨["a"], [some "r"], .absent, none, none, .absent, none, true⟩
    let told := "Selector \x27a\x27 specificity=0,0,0,1\n  TypeSelector \x27a\x27 [d]\n" ++
      "error: Expected selector, got <EOF at 3>\n  --> <selector>:1:4\n  |\n1 | b >\n  |    ^\n"
    Given.read words = .ok g ∧ run files words = .ok ⟨1, "", told⟩ ∧ Ends files g ⟨1, "", told⟩ ∧
      ¬ CutOff files g := by
  intro files words g told
  have accepted : Given.read words = .ok g := by decide +kernel
  have ran : run files words = .ok ⟨1, "", told⟩ := by decide +kernel
  have ⟨ends, aborts⟩ : (∀ outcome, run files words = .ok outcome → Ends files g outcome) ∧
      ((∃ abort, run files words = .error abort) ↔ CutOff files g) := runOutcome accepted
  refine ⟨accepted, ran, ends _ ran, fun cut => ?_⟩
  obtain ⟨abort, aborted⟩ := aborts.mpr cut
  cases ran.symm.trans aborted

/-- Every run returns one of three exit codes or is cut off, and what cuts it off decides what is
told. -/
theorem runInterruption {words : List String} (accepted : Given.read words = .ok g) :
    (∀ outcome, run files words = .ok outcome → outcome.exit ∈ [0, 1, 2]) ∧
      ∀ abort, run files words = .error abort ↔ Interrupts files g abort := by
  refine ⟨fun outcome same => ?_, fun abort => runAborts accepted⟩
  cases runEnds accepted same <;> simp

theorem runInterruptionGarbled :
    let files : Files := fun name =>
      if name = .ofText "r" then .ok [0x61, 0xff] else .error .missing
    let words := ["-f", "r"]
    let g : Given := ⟨[], [some "r"], .absent, none, none, .absent, none, false⟩
    let abort : Abort := .undecodable ⟨.badStart, 1, 1, 0xff⟩
    Given.read words = .ok g ∧ run files words = .error abort ∧ Interrupts files g abort := by
  intro files words g abort
  have accepted : Given.read words = .ok g := by decide +kernel
  have ran : run files words = .error abort := by decide +kernel
  exact ⟨accepted, ran, ((runInterruption accepted).2 abort).mp ran⟩

example : run (fun _ => .error .missing) ["-f--"] = .error .namelessFile := by decide +kernel

end

end SelectorRank.CommandLine
