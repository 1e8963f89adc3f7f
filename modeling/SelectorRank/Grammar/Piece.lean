import SelectorRank.Grammar.Cursor

/-! Reading the flat pieces of a selector: names, the words of a function, attribute tests. -/
namespace SelectorRank

def readIdent (c : Cursor) : Reading (String × Cursor) := do
  let l ← c.peek
  match l.shape with
  | .ident name => .ok (name, c.advance)
  | _ => .error (.expected .ident l)

def readIdentOrStar (c : Cursor) : Reading (Option String × Cursor) := do
  let l ← c.peek
  match l.shape with
  | .ident name => .ok (some name, c.advance)
  | .delim '*' => .ok (none, c.advance)
  | _ => .error (.expected .identOrStar l)

def Shape.word? : Shape → Option Word
  | .ident value => some (.ident value)
  | .string value => some (.string value)
  | .number digits => some (.number digits)
  | .delim '+' => some .plus
  | .delim '-' => some .minus
  | _ => none

def readWords : Nat → Cursor → Reading (List Word × Cursor)
  | 0, c => do .error (.expected .argument (← c.skipBlanks.peek))
  | n + 1, c => do
      let c := c.skipBlanks
      let l ← c.peek
      match l.shape.word? with
      | some word => do
          let (words, c) ← readWords n c.advance
          .ok (word :: words, c)
      | none =>
          if l.shape = .delim ')' then .ok ([], c.advance) else .error (.expected .argument l)

def readFlag (c : Cursor) : Reading (Option Char × Cursor) := do
  let c := c.skipBlanks
  let l ← c.peek
  match l.shape with
  | .delim ']' => .ok (none, c.advance)
  | .ident name =>
      match name.toList.map Char.toLower with
      | [flag] =>
          if flag = 'i' || flag = 's' then do
            let c := c.advance.skipBlanks
            let close ← c.peek
            if close.shape = .delim ']' then .ok (some flag, c.advance)
            else .error (.expected .closeBracket close)
          else .error (.expected .closeBracket l)
      | _ => .error (.expected .closeBracket l)
  | _ => .error (.expected .closeBracket l)

def readComparison (operator : String) (c : Cursor) : Reading (Comparison × Cursor) := do
  let c := c.skipBlanks
  let l ← c.peek
  let value ← match l.shape with
    | .ident value => .ok value
    | .string value => .ok value
    | _ => .error (.expected .value l)
  let (flag, c) ← readFlag c.advance
  .ok (⟨operator, value, flag⟩, c)

def readOperator (space name : Option String) (c : Cursor) : Reading (AttributeTest × Cursor) := do
  let c := c.skipBlanks
  let l ← c.peek
  match l.shape with
  | .delim ']' => .ok (⟨space, name, none⟩, c.advance)
  | .delim '=' => do
      let (comparison, c) ← readComparison "=" c.advance
      .ok (⟨space, name, some comparison⟩, c)
  | .delim d =>
      if d = '^' || d = '$' || d = '*' || d = '~' || d = '|' || d = '!' then do
        let equals ← c.advance.peek
        if equals.shape = .delim '=' then do
          let (comparison, c) ← readComparison (String.ofList [d, '=']) c.advance.advance
          .ok (⟨space, name, some comparison⟩, c)
        else .error (.expected .operator l)
      else .error (.expected .operator l)
  | _ => .error (.expected .operator l)

/-- A bar directly before an equals sign belongs to the operator, any other bar ends a namespace. -/
def readAttribute (c : Cursor) : Reading (AttributeTest × Cursor) := do
  let c := c.skipBlanks
  let l ← c.peek
  if l.shape = .delim '|' then do
    let (name, c) ← readIdent c.advance
    readOperator none (some name) c
  else do
    let (first, c) ← readIdentOrStar c
    let bar ← c.peek
    if bar.shape = .delim '|' then do
      let after ← c.advance.peek
      if after.shape = .delim '=' then do
        let (comparison, c) ← readComparison "|=" c.advance.advance
        .ok (⟨none, first, some comparison⟩, c)
      else do
        let (name, c) ← readIdent c.advance
        readOperator (some (first.getD "*")) (some name) c
    else if first = none then .error (.expected .bar bar)
    else readOperator none first c

end SelectorRank
