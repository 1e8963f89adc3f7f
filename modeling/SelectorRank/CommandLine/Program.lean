import SelectorRank.CommandLine.Report
import SelectorRank.CommandLine.Request
import SelectorRank.CommandLine.Settings
import SelectorRank.CommandLine.Usage
import SelectorRank.Declaration.Order
import SelectorRank.Failure
import SelectorRank.Files.FileName
import SelectorRank.Outline
import SelectorRank.Text.Utf8
import SelectorRank.Toml.Document

/-! A run of the program. Settings are settled first, then all files are read, then the selector
lists are parsed in order; the first thing that fails decides how the run ends. -/
namespace SelectorRank.CommandLine
open Text

structure Outcome where
  exit : Nat
  out : String
  err : String
  deriving DecidableEq, Repr

inductive Abort where
  | undecodable (f : Utf8Fault)
  | longNumeral (digits : Nat)
  | longInteger
  | nulInName
  | namelessFile
  | longName (name : FileName)
  | weight (f : WeightFault)
  deriving DecidableEq, Repr

def Abort.message : Abort → String
  | .undecodable f => f.message
  | .longNumeral digits => SelectorRank.longNumeral digits
  | .longInteger => numeralFault
  | .nulInName => FileFault.nulInName.message ⟨"", []⟩
  | .namelessFile => "expected str, bytes or os.PathLike object, not list"
  | .longName name => FileFault.longName.message name
  | .weight f => f.message

inductive Stop where
  | document (message : String)
  | setting (f : SettingFault)
  | file (name : FileName) (f : FileFault)
  | selector (dumped : String) (c : Complaint)
  | abort (a : Abort)

def errorLine (message : String) : String := "error: " ++ message ++ "\n"

def Stop.outcome : Stop → Except Abort Outcome
  | .document message => .ok ⟨2, "", errorLine message⟩
  | .setting f => .ok ⟨2, "", errorLine f.message⟩
  | .file name f => .ok ⟨2, "", errorLine (f.message name)⟩
  | .selector dumped c => .ok ⟨1, "", dumped ++ c.report unnamedSource ++ "\n"⟩
  | .abort a => .error a

def decoded (bytes : List UInt8) : Except Stop (List Char) :=
  (decode bytes).mapError (fun f => .abort (.undecodable f))

def usualConfig : String := "csscascade.toml"

def Given.configName (g : Given) : FileName :=
  match g.config with
  | none => .ofText usualConfig
  | some name => .ofText (if name = "" then usualConfig else name)

def readTable (cs : List Char) : Except Stop Toml.Table :=
  match Toml.read cs with
  | .ok t => .ok t
  | .error (.rejected message) => .error (.document message)
  | .error (.longNumeral digits) => .error (.abort (.longNumeral digits))

def loadTable (files : Files) (name : FileName) : Except Stop Toml.Table :=
  match files name with
  | .ok bytes => do readTable (← decoded bytes)
  | .error .longName => .error (.abort (.longName name))
  | .error _ => .ok []

def loadSettings (files : Files) (g : Given) : Except Stop Settings := do
  let table ← loadTable files g.configName
  match g.settle table with
  | .ok settings => .ok settings
  | .error f => .error (if f.isShowable then .setting f else .abort .longInteger)

def sourcesOf (cs : List Char) : List String :=
  (((lines cs).map (fun l => trim isBlank l.body)).filter (· ≠ [])).map String.ofList

def readFile (files : Files) (name : FileName) : Except Stop (List Char) :=
  match files name with
  | .ok bytes => decoded bytes
  | .error .nulInName => .error (.abort .nulInName)
  | .error f => .error (.file name f)

def Settings.fileNames (s : Settings) : Except Stop (List FileName) :=
  match s.files.mapM id with
  | some names => .ok (names.map .ofText)
  | none => .error (.abort .namelessFile)

def loadSources (files : Files) (s : Settings) : Except Stop (List String) := do
  let names ← s.fileNames
  let texts ← names.mapM (readFile files)
  .ok (s.selectors ++ texts.flatMap sourcesOf)

def Settings.dump (s : Settings) (selectors : List Selector) : String :=
  if s.debug then outlines selectors else ""

def analyse (s : Settings) (dumped : String) : List String → Except Stop (List Selector × String)
  | [] => .ok ([], dumped)
  | source :: sources =>
      match parseList source with
      | .error (.rejected c) => .error (.selector dumped c)
      | .error (.longOffset digits) => .error (.abort (.longNumeral digits))
      | .ok selectors => do
          let (others, dumped) ← analyse s (dumped ++ s.dump selectors) sources
          .ok (selectors ++ others, dumped)

def Settings.declaration (s : Settings) (selector : Selector) : Declaration :=
  ⟨.known s.origin, .bool s.important, .selector selector⟩

def Settings.rows (s : Settings) (selectors : List Selector) : Except WeightFault (List Row) := do
  let declarations := selectors.map s.declaration
  let ordered ← if s.sort then sortDeclarations declarations else .ok declarations
  ordered.mapM Row.of

def Settings.run (files : Files) (s : Settings) : Except Stop Outcome := do
  let sources ← loadSources files s
  let (selectors, dumped) ← analyse s "" sources
  let rows ← (s.rows selectors).mapError (fun f => .abort (.weight f))
  .ok ⟨0, report s.format rows, dumped⟩

def Given.run (files : Files) (g : Given) : Except Stop Outcome := do
  (← loadSettings files g).run files

def run (files : Files) (words : List String) : Except Abort Outcome :=
  match Given.read words with
  | .error .help => .ok ⟨0, helpText, ""⟩
  | .error (.fault f) => .ok ⟨2, "", f.report⟩
  | .ok given =>
      match given.run files with
      | .ok outcome => .ok outcome
      | .error stop => stop.outcome

end SelectorRank.CommandLine
