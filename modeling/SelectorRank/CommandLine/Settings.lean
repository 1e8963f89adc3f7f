import SelectorRank.CommandLine.Flag
import SelectorRank.Toml.Table

/-! Settings of a run. The document is looked at only where the command line is silent. -/
namespace SelectorRank.CommandLine
open Toml (Table Value)

structure Settings where
  selectors : List String
  files : List (Option String)
  origin : Origin
  important : Bool
  sort : Bool
  format : Format
  debug : Bool
  deriving DecidableEq, Repr

inductive SettingFault where
  | unknownOrigin (given : Value)
  | inlineOrigin
  | unknownFormat (given : Value)
  | notTruthValues

def SettingFault.message : SettingFault → String
  | .unknownOrigin given => "invalid origin in config: " ++ given.shown
  | .inlineOrigin => "inline declarations have no selector"
  | .unknownFormat given => "invalid output format in config: " ++ given.shown
  | .notTruthValues => "config options \x27important\x27 and \x27sort\x27 must be booleans"

def SettingFault.isShowable : SettingFault → Bool
  | .unknownOrigin given => !given.isOverlong
  | .unknownFormat given => !given.isOverlong
  | _ => true

def settingOr (t : Table) (key : String) (usual : Value) : Value := (t.get? key).getD usual

def originOf (value : Value) : Except SettingFault Origin :=
  match value with
  | .text word =>
      match Origin.ofWord? word with
      | none => .error (.unknownOrigin value)
      | some .inline => .error .inlineOrigin
      | some origin => .ok origin
  | _ => .error (.unknownOrigin value)

def formatOf (value : Value) : Except SettingFault Format :=
  match value with
  | .text word =>
      match Format.ofWord? word with
      | some format => .ok format
      | none => .error (.unknownFormat value)
  | _ => .error (.unknownFormat value)

def truthOf : Value → Except SettingFault Bool
  | .boolean value => .ok value
  | _ => .error .notTruthValues

def orSetting {α : Type} (asked : Option α) (read : Except SettingFault α) :
    Except SettingFault α :=
  match asked with
  | some value => .ok value
  | none => read

/-- A choice of no value in particular is read as an array with nothing in it. -/
def Choice.orRead {α : Type} (choice : Choice α) (read : Value → Except SettingFault α)
    (set : Value) : Except SettingFault α :=
  match choice with
  | .value a => .ok a
  | .blank => read (.array [])
  | .absent => read set

def Given.settle (g : Given) (t : Table) : Except SettingFault Settings := do
  let origin ← g.origin.orRead originOf (settingOr t "origin" (.text "author"))
  let format ← g.format.orRead formatOf (settingOr t "format" (.text "text"))
  let important ← orSetting g.important (truthOf (settingOr t "important" (.boolean false)))
  let sort ← orSetting g.sort (truthOf (settingOr t "sort" (.boolean false)))
  .ok ⟨g.selectors, g.files, origin, important, sort, format, g.debug⟩

end SelectorRank.CommandLine
