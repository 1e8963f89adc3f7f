import SelectorRank.Text.Digit
import SelectorRank.Text.Quoted

/-! Names of files. Empty parts and parts that stay where they are do not count. -/
namespace SelectorRank
open Text

structure FileName where
  root : String
  parts : List String
  deriving DecidableEq, Repr

def splitSlashes : List Char → List (List Char)
  | [] => [[]]
  | c :: cs =>
      if c = '/' then [] :: splitSlashes cs
      else match splitSlashes cs with
        | [] => [[c]]
        | part :: parts => (c :: part) :: parts

/-- Exactly two slashes at the start are a root of their own. -/
def rootOf (cs : List Char) : String :=
  match (cs.takeWhile (· = '/')).length with
  | 0 => ""
  | 2 => "//"
  | _ => "/"

def FileName.ofText (text : String) : FileName :=
  ⟨rootOf text.toList,
    ((splitSlashes text.toList).map String.ofList).filter (fun part => part ≠ "" && part ≠ ".")⟩

def FileName.text (f : FileName) : String :=
  if f.root = "" && f.parts.isEmpty then "." else f.root ++ String.intercalate "/" f.parts

inductive FileFault where
  | missing
  | notDirectory
  | isDirectory
  | longName
  | nulInName
  deriving DecidableEq, Repr

def systemFault (number : Nat) (phrase : String) (name : FileName) : String :=
  "[Errno " ++ String.ofList (natural number) ++ "] " ++ phrase ++ ": " ++ quoted name.text

def FileFault.message (name : FileName) : FileFault → String
  | .missing => systemFault 2 "No such file or directory" name
  | .notDirectory => systemFault 20 "Not a directory" name
  | .isDirectory => systemFault 21 "Is a directory" name
  | .longName => systemFault 36 "File name too long" name
  | .nulInName => "embedded null byte"

abbrev Files := FileName → Except FileFault (List UInt8)

end SelectorRank
