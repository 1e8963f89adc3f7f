import SelectorRank.CommandLine.Flag

/-! Words of the command line. A flag with two dashes may be cut short where that leaves no
doubt. -/
namespace SelectorRank.CommandLine
open Text

inductive Attached where
  | nothing
  | assigned (value : String)
  | joined (value : String)
  deriving DecidableEq, Repr

inductive Word where
  | plain
  | separator
  | unknown
  | flag (flag : Flag) (attached : Attached)
  deriving DecidableEq, Repr

def cutAtEquals? (cs : List Char) : Option (List Char × List Char) :=
  match cs.dropWhile (· ≠ '=') with
  | [] => none
  | _ :: after => some (cs.takeWhile (· ≠ '='), after)

def isUnsignedNumber (cs : List Char) : Bool :=
  let body := if cs.getLast? = some '\n' then cs.dropLast else cs
  match body.dropWhile isDigit with
  | [] => !body.isEmpty
  | '.' :: after => !after.isEmpty && after.all isDigit
  | _ => false

def Attached.afterEquals (start value : List Char) : Attached :=
  if start.take 2 = ['-', '-'] then .assigned (String.ofList value)
  else .joined (String.ofList value)

def candidates (word : List Char) : List (String × Flag × Attached) :=
  match word with
  | '-' :: '-' :: _ =>
      let (start, attached) := match cutAtEquals? word with
        | some (start, value) => (start, Attached.afterEquals start value)
        | none => (word, .nothing)
      (spellings.filter (fun s => start.isPrefixOf s.1.toList)).map (fun s => (s.1, s.2, attached))
  | _ =>
      (spellings.filter (fun s => s.1.toList = word.take 2)).map
        (fun s => (s.1, s.2, .joined (String.ofList (word.drop 2))))

def classifyDashed (word : String) : Except UsageFault Word :=
  match candidates word.toList with
  | [(_, flag, attached)] => .ok (.flag flag attached)
  | [] =>
      if isUnsignedNumber (word.toList.drop 1) || word.toList.contains ' ' then .ok .plain
      else .ok .unknown
  | several => .error (.ambiguous word (several.map (·.1)))

def classify (word : String) : Except UsageFault Word :=
  match word.toList with
  | '-' :: rest =>
      match spellings.lookup word, cutAtEquals? word.toList with
      | some flag, _ => .ok (.flag flag .nothing)
      | none, none => if rest.isEmpty then .ok .plain else classifyDashed word
      | none, some (start, value) =>
          match spellings.lookup (String.ofList start) with
          | some flag => .ok (.flag flag (.afterEquals start value))
          | none => classifyDashed word
  | _ => .ok .plain

def classifyAll : List String → Except UsageFault (List (String × Word))
  | [] => .ok []
  | word :: rest =>
      if word = separator then .ok ((word, .separator) :: rest.map (·, .plain))
      else do
        let kind ← classify word
        let others ← classifyAll rest
        .ok ((word, kind) :: others)

end SelectorRank.CommandLine
