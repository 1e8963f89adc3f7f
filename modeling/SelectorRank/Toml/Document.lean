import SelectorRank.Toml.Item

/-! Reading settings documents, line by line. -/
namespace SelectorRank.Toml
open Text (singleQuote doubleQuote)

structure Document where
  root : Table
  heading : Path
  marks : Marks

namespace Document

def start : Document := ⟨[], [], .none⟩

def throughPaths (heading : Path) : Path → List Path
  | [] => []
  | part :: parts => (heading ++ [part]) :: throughPaths (heading ++ [part]) parts

def pass (rest : List Char) : List Path → Marks → Reading Marks
  | [], m => .ok m
  | path :: paths, m =>
      if m.isDeclared path then reject (.redefined path) rest
      else pass rest paths (m.await path)

def addEntry (d : Document) (path : Path) (key : String) (value : Value) (rest : List Char) :
    Reading Document := do
  let marks ← pass rest (throughPaths d.heading path) d.marks
  let whole := d.heading ++ path
  if marks.isSealed whole then reject (.sealedPath whole) rest
  else do
    let root ← placed rest (d.root.within true (Table.add key value .occupied) whole)
    .ok ⟨root, d.heading, marks.sealValue (whole ++ [key]) value⟩

def openTable (d : Document) (path : Path) (rest : List Char) : Reading Document := do
  if d.marks.isDeclared path || d.marks.isSealed path then reject (.declaredTwice path) rest
  else do
    let root ← placed rest (d.root.within true .ok path)
    .ok ⟨root, path, d.marks.declare path⟩

def openNext (d : Document) (path : Path) (key : String) (rest : List Char) :
    Reading Document := do
  let whole := path ++ [key]
  if d.marks.isSealed whole then reject (.sealedPath whole) rest
  else do
    let root ← placed rest (d.root.within true (Table.extend key) path)
    .ok ⟨root, whole, (d.marks.release whole).declare whole⟩

def readHeading (d : Document) : List Char → Reading (Document × List Char)
  | '[' :: cs => do
      let ((path, key), rest) ← readKey (skipSpaces cs)
      let d ← d.openNext path key rest
      match rest with
      | ']' :: ']' :: rest => .ok (d, rest)
      | rest => reject .arrayTableEnd rest
  | cs => do
      let ((path, key), rest) ← readKey (skipSpaces cs)
      let d ← d.openTable (path ++ [key]) rest
      match rest with
      | ']' :: rest => .ok (d, rest)
      | rest => reject .tableEnd rest

def readStatement (d : Document) : List Char → Reading (Document × List Char)
  | [] => .ok (d, [])
  | c :: cs =>
      if c = '[' then ({ d with marks := d.marks.settle } : Document).readHeading cs
      else if isBareKeyChar c || c = singleQuote || c = doubleQuote then do
        let ((path, key), value, rest) ← readPair (2 * cs.length + 4) (c :: cs)
        let d ← d.addEntry path key value rest
        .ok (d, rest)
      else if c = '#' || c = '\n' then .ok (d, c :: cs)
      else reject .statement (c :: cs)

def readLines (d : Document) : Nat → List Char → Reading Document
  | 0, _ => .ok d
  | n + 1, cs => do
      let (d, rest) ← d.readStatement (skipSpaces cs)
      let rest ← skipComment (skipSpaces rest)
      match rest with
      | [] => .ok d
      | '\n' :: rest => d.readLines n rest
      | rest => reject .lineEnd rest

end Document

def unifyLineEnds : List Char → List Char
  | '\r' :: '\n' :: cs => '\n' :: unifyLineEnds cs
  | c :: cs => c :: unifyLineEnds cs
  | [] => []

inductive Failure where
  | rejected (message : String)
  | longNumeral (digits : Nat)
  deriving DecidableEq, Repr

def read (document : List Char) : Except Failure Table :=
  let cs := unifyLineEnds document
  match Document.start.readLines (cs.length + 1) cs with
  | .ok d => .ok d.root
  | .error (.rejected fault left) => .error (.rejected (fault.message cs left))
  | .error (.longNumeral digits) => .error (.longNumeral digits)

end SelectorRank.Toml
