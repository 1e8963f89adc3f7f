import SelectorRank.Parse

/-! Diagnostics of documents that hold one selector list on each line. -/
namespace SelectorRank
open Text

inductive Severity where
  | error | warning
  deriving DecidableEq, Repr

/-- A message about characters of one line, the last one excluded; all count from zero. -/
structure Diagnostic where
  line : Nat
  first : Nat
  last : Nat
  severity : Severity
  message : String
  deriving DecidableEq, Repr

abbrev FirstLines := List (String × Nat)

structure Content where
  indent : Nat
  text : List Char
  deriving DecidableEq, Repr

def contentOf (body : List Char) : Content :=
  ⟨(body.takeWhile isBlank).length, trim isBlank body⟩

def rejection (line : Nat) (content : Content) (c : Complaint) : Diagnostic :=
  match c.position with
  | none => ⟨line, content.indent, content.indent + content.text.length, .error, c.detail⟩
  | some p =>
      ⟨line, content.indent + p.offset.toNat, content.indent + p.offset.toNat + 1, .error, c.detail⟩

def repetition (line first : Nat) (content : Content) (text : String) : Diagnostic :=
  ⟨line, content.indent, content.indent + content.text.length, .warning,
    "duplicate selector " ++ quoted text ++ " (first on line " ++
      String.ofList (natural (first + 1)) ++ ")"⟩

def repetitions (line : Nat) (content : Content) :
    FirstLines → List String → List Diagnostic × FirstLines
  | seen, [] => ([], seen)
  | seen, text :: rest =>
      match seen.lookup text with
      | none => repetitions line content ((text, line) :: seen) rest
      | some first =>
          let (found, seen) := repetitions line content seen rest
          (if first = line then found else repetition line first content text :: found, seen)

def diagnoseLine (line : Nat) (body : List Char) (seen : FirstLines) :
    Except ParseFailure (List Diagnostic × FirstLines) :=
  let content := contentOf body
  if content.text = [] then .ok ([], seen)
  else match parseList (String.ofList content.text) with
    | .ok selectors => .ok (repetitions line content seen (selectors.map Selector.text))
    | .error (.rejected c) => .ok ([rejection line content c], seen)
    | .error failure => .error failure

def diagnoseFrom (line : Nat) (seen : FirstLines) :
    List Line → Except ParseFailure (List Diagnostic)
  | [] => .ok []
  | l :: ls => do
      let (found, seen) ← diagnoseLine line l.body seen
      let rest ← diagnoseFrom (line + 1) seen ls
      .ok (found ++ rest)

def diagnose (document : String) : Except ParseFailure (List Diagnostic) :=
  diagnoseFrom 0 [] (lines document.toList)

structure Workspace where
  documents : List (String × String)
  deriving DecidableEq, Repr

def Workspace.put (w : Workspace) (name text : String) : Workspace :=
  ⟨(name, text) :: w.documents.filter (fun d => d.1 ≠ name)⟩

def Workspace.publish (w : Workspace) (name : String) : Except ParseFailure (List Diagnostic) :=
  diagnose ((w.documents.lookup name).getD "")

def Workspace.run (w : Workspace) :
    List (String × String) → Except ParseFailure (List (String × List Diagnostic))
  | [] => .ok []
  | (name, text) :: rest => do
      let after := w.put name text
      let found ← after.publish name
      let others ← after.run rest
      .ok ((name, found) :: others)

end SelectorRank
