import SelectorRank.Toml.Fault
import SelectorRank.Toml.Value

/-! Growing tables entry by entry. Entries are never replaced. -/
namespace SelectorRank.Toml

def Table.get? (t : Table) (key : String) : Option Value := t.lookup key

def Table.put (key : String) (value : Value) : Table → Table
  | [] => [(key, value)]
  | (k, v) :: rest => if k = key then (k, value) :: rest else (k, v) :: Table.put key value rest

def Table.within (throughArrays : Bool) (change : Table → Except Fault Table) :
    Path → Table → Except Fault Table
  | [], t => change t
  | key :: path, t =>
      match t.get? key with
      | none => do
          let inner ← Table.within throughArrays change path []
          .ok (t.put key (.table inner))
      | some (.table inner) => do
          let inner ← Table.within throughArrays change path inner
          .ok (t.put key (.table inner))
      | some (.array items) =>
          match throughArrays, items.getLast? with
          | true, some (.table inner) => do
              let inner ← Table.within throughArrays change path inner
              .ok (t.put key (.array (items.dropLast ++ [.table inner])))
          | _, _ => .error .occupied
      | some _ => .error .occupied

def Table.add (key : String) (value : Value) (repeated : Fault) (t : Table) :
    Except Fault Table :=
  match t.get? key with
  | none => .ok (t.put key value)
  | some _ => .error repeated

def Table.extend (key : String) (t : Table) : Except Fault Table :=
  match t.get? key with
  | none => .ok (t.put key (.array [.table []]))
  | some (.array items) => .ok (t.put key (.array (items ++ [.table []])))
  | some _ => .error .occupied

/-- Paths that are declared cannot be declared again; paths that are sealed, and those that go on
from them, cannot be added to. -/
structure Marks where
  declared : List Path
  sealedPaths : List Path
  pending : List Path
  deriving DecidableEq, Repr

namespace Marks

def none : Marks := ⟨[], [], []⟩

def isDeclared (m : Marks) (path : Path) : Bool := path ≠ [] && m.declared.contains path

def isSealed (m : Marks) (path : Path) : Bool := m.sealedPaths.any (fun p => p.isPrefixOf path)

def declare (m : Marks) (path : Path) : Marks := { m with declared := path :: m.declared }

def sealPath (m : Marks) (path : Path) : Marks := { m with sealedPaths := path :: m.sealedPaths }

def await (m : Marks) (path : Path) : Marks := { m with pending := path :: m.pending }

def settle (m : Marks) : Marks := ⟨m.pending ++ m.declared, m.sealedPaths, []⟩

def release (m : Marks) (path : Path) : Marks :=
  let keep := fun p : Path => !path.isPrefixOf p
  ⟨m.declared.filter keep, m.sealedPaths.filter keep, m.pending⟩

def sealValue (m : Marks) (path : Path) (value : Value) : Marks :=
  if value.isContainer then m.sealPath path else m

end Marks

end SelectorRank.Toml
