import SelectorRank.Toml.Number
import SelectorRank.Toml.Quote
import SelectorRank.Toml.Table

/-! Reading values. Every second call takes a character, so a bound of twice the length of the text
is never met. -/
namespace SelectorRank.Toml
open Text (singleQuote doubleQuote)

def readPlain (cs : List Char) : Reading (Value × List Char) :=
  match readMoment? cs with
  | some (moment, rest) =>
      if moment.inCalendar then .ok (.moment moment, rest) else reject .calendar cs
  | none =>
      match readNumber? cs with
      | some (.integer value, rest) => .ok (.integer value, rest)
      | some (.float value, rest) => .ok (.float value, rest)
      | some (.overlong digits, _) => .error (.longNumeral digits)
      | none => reject .value cs

def placed {α : Type} (rest : List Char) : Except Fault α → Reading α
  | .ok value => .ok value
  | .error fault => reject fault rest

structure Growing where
  table : Table
  marks : Marks

def Growing.empty : Growing := ⟨[], .none⟩

def Growing.add (g : Growing) (path : Path) (key : String) (value : Value) (rest : List Char) :
    Reading Growing :=
  if g.marks.isSealed (path ++ [key]) then reject (.sealedPath (path ++ [key])) rest
  else do
    let change := Table.add key value (.repeatedKey key)
    let table ← placed rest (g.table.within false change path)
    .ok ⟨table, g.marks.sealValue (path ++ [key]) value⟩

mutual

def readValue (n : Nat) (cs : List Char) : Reading (Value × List Char) :=
  match n with
  | 0 => reject .value cs
  | n + 1 =>
    match cs with
    | 't' :: 'r' :: 'u' :: 'e' :: rest => .ok (.boolean true, rest)
    | 'f' :: 'a' :: 'l' :: 's' :: 'e' :: rest => .ok (.boolean false, rest)
    | '[' :: rest => do
        let rest ← skipFiller false rest
        let (items, rest) ← readItems n rest
        .ok (.array items, rest)
    | '{' :: rest =>
        match skipSpaces rest with
        | '}' :: rest => .ok (.table [], rest)
        | rest => do
            let (table, rest) ← readEntries n .empty rest
            .ok (.table table, rest)
    | c :: rest =>
        if c = singleQuote || c = doubleQuote then do
          let (body, rest) ← readString c (c :: rest)
          .ok (.text (String.ofList body), rest)
        else readPlain (c :: rest)
    | [] => reject .value []
termination_by structural n

def readItems (n : Nat) (cs : List Char) : Reading (List Value × List Char) :=
  match n with
  | 0 => reject .arrayEnd cs
  | n + 1 =>
    match cs with
    | ']' :: rest => .ok ([], rest)
    | cs => do
        let (first, rest) ← readValue n cs
        let rest ← skipFiller false rest
        match rest with
        | ']' :: rest => .ok ([first], rest)
        | ',' :: rest => do
            let rest ← skipFiller false rest
            let (others, rest) ← readItems n rest
            .ok (first :: others, rest)
        | rest => reject .arrayEnd rest
termination_by structural n

def readPair (n : Nat) (cs : List Char) : Reading ((Path × String) × Value × List Char) := do
  let (key, rest) ← readKey cs
  match n with
  | 0 => reject .equalsSign rest
  | n + 1 =>
    match rest with
    | '=' :: rest => do
        let (value, rest) ← readValue n (skipSpaces rest)
        .ok (key, value, rest)
    | rest => reject .equalsSign rest
termination_by structural n

def readEntries (n : Nat) (g : Growing) (cs : List Char) : Reading (Table × List Char) := do
  match n with
  | 0 => reject .inlineTableEnd cs
  | n + 1 => do
    let ((path, key), value, rest) ← readPair n cs
    let g ← g.add path key value rest
    match skipSpaces rest with
    | '}' :: rest => .ok (g.table, rest)
    | ',' :: rest => readEntries n g (skipSpaces rest)
    | rest => reject .inlineTableEnd rest
termination_by structural n

end

end SelectorRank.Toml
