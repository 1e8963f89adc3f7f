import SelectorRank.CommandLine.Program

/-! The program. All files are read before the run, which is then a matter of their contents
alone. -/
open SelectorRank
open SelectorRank.CommandLine

def faultOf : IO.Error → FileFault
  | .inappropriateType _ code _ => if code = 21 then .isDirectory else .notDirectory
  | .invalidArgument _ code _ => if code = 36 then .longName else .missing
  | _ => .missing

def readNamed (name : FileName) : IO (Except FileFault (List UInt8)) := do
  if name.text.contains '\x00' then return .error .nulInName
  try
    let bytes ← IO.FS.readBinFile name.text
    return .ok bytes.toList
  catch e => return .error (faultOf e)

def namesFor (words : List String) : List FileName :=
  match Given.read words with
  | .ok given => given.configName :: given.files.filterMap (·.map FileName.ofText)
  | .error _ => []

def main (words : List String) : IO UInt32 := do
  let names := namesFor words
  let contents ← names.mapM readNamed
  let known := names.zip contents
  let files : Files := fun name => (known.lookup name).getD (.error .missing)
  match run files words with
  | .ok outcome =>
      IO.eprint outcome.err
      IO.print outcome.out
      return outcome.exit.toUInt32
  | .error abort =>
      IO.eprintln abort.message
      return 1
