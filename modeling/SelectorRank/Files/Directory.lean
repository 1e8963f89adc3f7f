import SelectorRank.Files.FileName

/-! Files that are given with their contents, in a directory where nothing else is. -/
namespace SelectorRank

structure Directory where
  files : List (List String × List UInt8)
  folders : List (List String)
  isRoot : Bool
  deriving DecidableEq, Repr

namespace Directory

def ofNames (files : List (String × List UInt8)) : Directory :=
  ⟨files.map (fun f => ((FileName.ofText f.1).parts, f.2)), [], false⟩

def system : Directory :=
  ⟨[(["dev", "null"], [])],
    ["bin", "dev", "etc", "home", "lib", "opt", "proc", "root", "run", "sbin", "sys", "tmp", "usr",
      "var"].map (fun name => [name]), true⟩

def maxPartSize : Nat := 255

def maxNameSize : Nat := 4095

def holdsFolder (d : Directory) (path : List String) : Bool :=
  d.folders.contains path || d.files.any (fun f => path.isPrefixOf f.1 && f.1 ≠ path)

def walkOutside : List String → Except FileFault (List UInt8)
  | [] => .error .isDirectory
  | part :: parts =>
      if part = ".." then walkOutside parts
      else if maxPartSize < part.utf8ByteSize then .error .longName
      else .error .missing

def walk (d : Directory) : List String → List String → Except FileFault (List UInt8)
  | _, [] => .error .isDirectory
  | here, part :: parts =>
      if part = ".." then
        match here with
        | [] => if d.isRoot then d.walk [] parts else walkOutside parts
        | _ :: above => d.walk above parts
      else if maxPartSize < part.utf8ByteSize then .error .longName
      else
        let path := (part :: here).reverse
        match d.files.lookup path with
        | some bytes => if parts.isEmpty then .ok bytes else .error .notDirectory
        | none => if d.holdsFolder path then d.walk (part :: here) parts else .error .missing

def read (d : Directory) : Files := fun name =>
  if name.text.contains '\x00' then .error .nulInName
  else if maxNameSize < name.text.utf8ByteSize then .error .longName
  else if name.root = "" then d.walk [] name.parts
  else system.walk [] name.parts

end Directory

end SelectorRank
