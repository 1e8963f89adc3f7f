import SelectorRank.CommandLine.Word

/-! Reading a command line. Plain words are selectors as long as they stand in one run. -/
namespace SelectorRank.CommandLine

inductive Run where
  | ahead | inside | over
  deriving DecidableEq, Repr

structure Progress where
  given : Given
  run : Run
  unrecognized : List String
  deriving DecidableEq, Repr

inductive Halt where
  | help
  | fault (f : UsageFault)
  deriving DecidableEq, Repr

namespace Progress

def start : Progress := ⟨.nothing, .ahead, []⟩

def reject (p : Progress) (word : String) : Progress :=
  { p with unrecognized := p.unrecognized ++ [word] }

def closeRun (p : Progress) : Progress :=
  { p with run := if p.run = .ahead then .ahead else .over }

def plain (p : Progress) (word : String) : Progress :=
  if p.run = .over then p.reject word
  else { p with run := .inside, given.selectors := p.given.selectors ++ [word] }

def separator (p : Progress) (word : String) : Progress :=
  if p.run = .over then p.reject word else { p with run := .inside }

def assign (p : Progress) (flag : Flag) (value : String) : Except Halt Progress := do
  let given ← (p.given.assign flag value).mapError .fault
  .ok { p.closeRun with given := given }

def switch (p : Progress) (flag : Flag) : Except Halt Progress :=
  if flag = .help then .error .help
  else .ok { p.closeRun with given := p.given.switch flag }

end Progress

/-- Each letter is a flag, until one takes a value. `hasNext` tells whether a plain word follows. -/
def readLetters (hasNext : Bool) (flag : Flag) : List Char → Halt
  | [] => .fault (.unwantedValue flag "")
  | c :: cs =>
      match spellings.lookup (String.ofList ['-', c]), cs with
      | none, _ => .fault (.unwantedValue flag (String.ofList (c :: cs)))
      | some next, [] => if next.takesValue && !hasNext then .fault (.missingValue next) else .help
      | some next, cs => if next.takesValue then .help else readLetters hasNext next cs

def startsPlain : List (String × Word) → Bool
  | (_, .plain) :: _ => true
  | _ => false

def readFrom (p : Progress) : Option Flag → List (String × Word) → Except Halt Progress
  | none, [] => .ok p
  | some flag, [] => .error (.fault (.missingValue flag))
  | some flag, (word, kind) :: rest =>
      if kind = .plain then do readFrom (← p.assign flag word) none rest
      else .error (.fault (.missingValue flag))
  | none, (word, kind) :: rest =>
      match kind with
      | .plain => readFrom (p.plain word) none rest
      | .separator => readFrom (p.separator word) none rest
      | .unknown => readFrom (p.closeRun.reject word) none rest
      | .flag flag .nothing =>
          if flag.takesValue then readFrom p (some flag) rest
          else do readFrom (← p.switch flag) none rest
      | .flag flag (.assigned value) =>
          if flag.takesValue then do readFrom (← p.assign flag value) none rest
          else .error (.fault (.unwantedValue flag value))
      | .flag flag (.joined value) =>
          if flag.takesValue then do readFrom (← p.assign flag value) none rest
          else .error (readLetters (startsPlain rest) flag value.toList)

def Given.read (words : List String) : Except Halt Given := do
  let kinds ← (classifyAll words).mapError .fault
  let p ← readFrom .start none kinds
  match p.unrecognized with
  | [] => .ok p.given
  | arguments => .error (.fault (.unrecognized arguments))

end SelectorRank.CommandLine
