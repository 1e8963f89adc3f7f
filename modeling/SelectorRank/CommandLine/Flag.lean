import SelectorRank.Declaration

/-! Flags of the command line and what they set. -/
namespace SelectorRank.CommandLine

inductive Format where
  | text | json
  deriving DecidableEq, Repr

def Format.word : Format → String
  | .text => "text"
  | .json => "json"

def Format.all : List Format := [.text, .json]

def Format.ofWord? (word : String) : Option Format := Format.all.find? (fun f => f.word = word)

def sheetOrigins : List Origin := [.author, .user, .userAgent]

def sheetOrigin? (word : String) : Option Origin := sheetOrigins.find? (fun o => o.word = word)

inductive Flag where
  | help
  | file
  | origin
  | important (on : Bool)
  | sort (on : Bool)
  | format
  | config
  | debug
  deriving DecidableEq, Repr

def spellings : List (String × Flag) := [
  ("-h", .help), ("--help", .help), ("-f", .file), ("--file", .file), ("--origin", .origin),
  ("--important", .important true), ("--no-important", .important false),
  ("--sort", .sort true), ("--no-sort", .sort false), ("--format", .format),
  ("--config", .config), ("--debug", .debug)]

namespace Flag

def takesValue : Flag → Bool
  | .file => true
  | .origin => true
  | .format => true
  | .config => true
  | _ => false

def title : Flag → String
  | .help => "-h/--help"
  | .file => "-f/--file"
  | .origin => "--origin"
  | .important _ => "--important/--no-important"
  | .sort _ => "--sort/--no-sort"
  | .format => "--format"
  | .config => "--config"
  | .debug => "--debug"

end Flag

/-- No word after this one is a flag. In the place of a value it stands for none. -/
def separator : String := "--"

inductive Choice (α : Type) where
  | absent
  | blank
  | value (a : α)
  deriving DecidableEq, Repr

structure Given where
  selectors : List String
  files : List (Option String)
  origin : Choice Origin
  important : Option Bool
  sort : Option Bool
  format : Choice Format
  config : Option String
  debug : Bool
  deriving DecidableEq, Repr

def Given.nothing : Given := ⟨[], [], .absent, none, none, .absent, none, false⟩

inductive UsageFault where
  | ambiguous (given : String) (candidates : List String)
  | missingValue (flag : Flag)
  | unwantedValue (flag : Flag) (value : String)
  | unknownChoice (flag : Flag) (value : String) (choices : List String)
  | unrecognized (arguments : List String)
  deriving DecidableEq, Repr

def about (flag : Flag) (phrase : String) : String :=
  "argument " ++ flag.title ++ ": " ++ phrase

def UsageFault.message : UsageFault → String
  | .ambiguous given candidates =>
      "ambiguous option: " ++ given ++ " could match " ++ String.intercalate ", " candidates
  | .missingValue flag => about flag "expected one argument"
  | .unwantedValue flag value =>
      about flag ("ignored explicit argument " ++ Text.quoted value)
  | .unknownChoice flag value choices =>
      about flag ("invalid choice: " ++ Text.quoted value ++ " (choose from " ++
        String.intercalate ", " (choices.map Text.quoted) ++ ")")
  | .unrecognized arguments =>
      "unrecognized arguments: " ++ String.intercalate " " arguments

def Given.blank (g : Given) : Flag → Given
  | .file => { g with files := g.files ++ [none] }
  | .config => { g with config := none }
  | .origin => { g with origin := .blank }
  | .format => { g with format := .blank }
  | _ => g

def Given.set (g : Given) (flag : Flag) (value : String) : Except UsageFault Given :=
  match flag with
  | .file => .ok { g with files := g.files ++ [some value] }
  | .config => .ok { g with config := some value }
  | .origin =>
      match sheetOrigin? value with
      | some origin => .ok { g with origin := .value origin }
      | none => .error (.unknownChoice flag value (sheetOrigins.map Origin.word))
  | .format =>
      match Format.ofWord? value with
      | some format => .ok { g with format := .value format }
      | none => .error (.unknownChoice flag value (Format.all.map Format.word))
  | _ => .ok g

def Given.assign (g : Given) (flag : Flag) (value : String) : Except UsageFault Given :=
  if value = separator then .ok (g.blank flag) else g.set flag value

def Given.switch (g : Given) : Flag → Given
  | .important on => { g with important := some on }
  | .sort on => { g with sort := some on }
  | .debug => { g with debug := true }
  | _ => g

end SelectorRank.CommandLine
