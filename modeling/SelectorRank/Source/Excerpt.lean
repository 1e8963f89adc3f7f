import SelectorRank.Source.Position
import SelectorRank.Text.Blank
import SelectorRank.Text.Digit

/-! A complaint about a source text, shown with the line it is about and a caret under the place. -/
namespace SelectorRank

structure Complaint where
  detail : String
  source : String
  position : Option Position
  deriving DecidableEq, Repr

def excerptLine (source : List Char) (line : Int) : List Char :=
  if line < 1 then []
  else match (Text.lines source)[(line - 1).toNat]? with
    | some l => Text.trimRight (· = '\r') (Text.trimRight (· = '\n') l.whole)
    | none => []

def Complaint.report (c : Complaint) (name : String) : String :=
  match c.position with
  | none => "error: " ++ c.detail ++ "\n  --> " ++ name ++ "\n   | " ++ c.source
  | some p =>
      let number := String.ofList (Text.integer p.line)
      let margin := String.ofList (List.replicate (number.length + 1) ' ')
      let pad := String.ofList (List.replicate (p.column - 1).toNat ' ')
      "error: " ++ c.detail ++ "\n" ++
        margin ++ "--> " ++ name ++ ":" ++ number ++ ":" ++
          String.ofList (Text.integer p.column) ++ "\n" ++
        margin ++ "|\n" ++
        number ++ " | " ++ String.ofList (excerptLine c.source.toList p.line) ++ "\n" ++
        margin ++ "| " ++ pad ++ "^"

def unnamedSource : String := "<selector>"

end SelectorRank
