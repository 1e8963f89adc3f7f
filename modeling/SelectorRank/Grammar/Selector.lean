import SelectorRank.Grammar.Piece

/-! Reading selector lists. The readers call one another, so each carries a bound on the calls still
allowed, which no text meets. -/
namespace SelectorRank

inductive Surrounding where
  | free | negation | options
  deriving DecidableEq, Repr

def Shape.combinator? : Shape → Option Combinator
  | .delim '>' => some .child
  | .delim '+' => some .adjacent
  | .delim '~' => some .sibling
  | _ => none

def Shape.endsCompound : Shape → Bool
  | .blank => true
  | .stop => true
  | .delim c => c = ',' || c = '+' || c = '>' || c = '~' || c = ')'
  | _ => false

def combinatorAt (l : Lexeme) (c : Cursor) : Combinator × Cursor :=
  match l.shape.combinator? with
  | some combinator => (combinator, c.advance.skipBlanks)
  | none => (.descendant, c)

def lowered (s : String) : String := String.ofList (s.toList.map Char.toLower)

def isLegacyPseudoElement (name : String) : Bool :=
  name = "first-line" || name = "first-letter" || name = "before" || name = "after"

def readElement (c : Cursor) : Reading (Option Compound × Cursor) := do
  let l ← c.peek
  let first := match l.shape with
    | .ident name => some name
    | .delim '*' => some "*"
    | _ => none
  match first with
  | none => .ok (none, c)
  | some first => do
      let c := c.advance
      let bar ← c.peek
      if bar.shape = .delim '|' then do
        let (name, c) ← readIdentOrStar c.advance
        .ok (some (.element (some first) name), c)
      else .ok (some (.element none (if first = "*" then none else some first)), c)

inductive Colon where
  | part (p : Part)
  | pseudoElement (p : PseudoElement)

mutual

def readCompound (n : Nat) (around : Surrounding) (c : Cursor) :
    Reading (Compound × Option PseudoElement × Cursor) := do
  let c := c.skipBlanks
  let opens := around ≠ .options && c.opensSelector
  let (element, c') ← readElement c
  match n with
  | 0 => .error (.expected .selector (← c'.peek))
  | n + 1 =>
    match element with
    | some compound => readParts n around opens true compound none c'
    | none => readParts n around opens false (.element none none) none c'
termination_by structural n

def readParts (n : Nat) (around : Surrounding) (opens started : Bool) (compound : Compound)
    (pseudoElement : Option PseudoElement) (c : Cursor) :
    Reading (Compound × Option PseudoElement × Cursor) := do
  let l ← c.peek
  match n with
  | 0 => .error (.expected .selector l)
  | n + 1 =>
    if l.shape.endsCompound then
      if started then .ok (compound, pseudoElement, c) else .error (.expected .selector l)
    else match pseudoElement with
    | some p => .error (.misplacedPseudoElement p)
    | none =>
      match l.shape with
      | .hash name =>
          readParts n around opens true (.qualified compound (.id name)) none c.advance
      | .delim '.' => do
          let (name, c) ← readIdent c.advance
          readParts n around opens true (.qualified compound (.className name)) none c
      | .delim '|' =>
          if started then .error (.expected .selector l)
          else do
            let (name, c) ← readIdentOrStar c.advance
            readParts n around opens true (.element none name) none c
      | .delim '[' => do
          let (test, c) ← readAttribute c.advance
          readParts n around opens true (.qualified compound (.attribute test)) none c
      | .delim ':' => do
          let (colon, c) ← readColon n around opens c.advance
          match colon with
          | .part part => readParts n around opens true (.qualified compound part) none c
          | .pseudoElement p => readParts n around opens true compound (some p) c
      | _ => .error (.expected .selector l)
termination_by structural n

def readColon (n : Nat) (around : Surrounding) (opens : Bool) (c : Cursor) :
    Reading (Colon × Cursor) := do
  let l ← c.peek
  match n with
  | 0 => .error (.expected .ident l)
  | n + 1 =>
    if l.shape = .delim ':' then do
      let (name, c) ← readIdent c.advance
      let after ← c.peek
      if after.shape = .delim '(' then do
        let (words, c) ← readWords n c.advance
        .ok (.pseudoElement (.functional (lowered name) words), c)
      else .ok (.pseudoElement (.plain name), c)
    else do
      let (name, c) ← readIdent c
      if isLegacyPseudoElement (lowered name) then .ok (.pseudoElement (.plain name), c)
      else do
        let after ← c.peek
        if after.shape = .delim '(' then do
          let (part, c) ← readFunction n around (lowered name) c.advance
          .ok (.part part, c)
        else if lowered name = "scope" && !opens then .error .misplacedScope
        else .ok (.part (.pseudo (lowered name)), c)
termination_by structural n

def readFunction (n : Nat) (around : Surrounding) (name : String) (c : Cursor) :
    Reading (Part × Cursor) := do
  let c := c.skipBlanks
  let l ← c.peek
  match n with
  | 0 => .error (.expected .argument l)
  | n + 1 =>
    if name = "not" then
      match around with
      | .options => .error .negationInList
      | .negation => .error .nestedNegation
      | .free => do
          let (first, p, c) ← readCompound n .negation c
          let (body, c) ← readNegation n (.compound first) p c
          .ok (.negation body, c)
    else if name = "has" then do
      let (arguments, c) ← readRelation n c
      .ok (.relation arguments, c)
    else if name = "is" || name = "matches" then do
      let (options, c) ← readOptions n c
      .ok (.matching options, c)
    else if name = "where" then do
      let (options, c) ← readOptions n c
      .ok (.adjustment options, c)
    else do
      let (words, c) ← readWords n c
      .ok (.function name words, c)
termination_by structural n

def readNegation (n : Nat) (body : Complex) (pseudoElement : Option PseudoElement)
    (c : Cursor) : Reading (Complex × Cursor) := do
  let c := c.skipBlanks
  let l ← c.peek
  match n with
  | 0 => .error (.expected .closeParen l)
  | n + 1 =>
    match pseudoElement with
    | some p => .error (.pseudoElementInNegation p l.start)
    | none =>
      if l.shape = .delim ')' then .ok (body, c.advance)
      else if l.shape = .stop || l.shape = .delim ',' then .error (.expected .closeParen l)
      else do
        let (combinator, c) := combinatorAt l c
        let (right, p, c) ← readCompound n .negation c
        readNegation n (.combined body combinator right) p c
termination_by structural n

def readRelation (n : Nat) (c : Cursor) : Reading (List (Combinator × Complex) × Cursor) := do
  let c := c.skipBlanks
  let l ← c.peek
  match n with
  | 0 => .error (.expected .closeParen l)
  | n + 1 => do
    let (leading, c) := combinatorAt l c
    let (first, p, c) ← readCompound n .free c
    let (argument, c) ← readArgument n (.compound first) p c
    let l ← c.peek
    if l.shape = .delim ',' then do
      let (rest, c) ← readRelation n c.advance
      .ok ((leading, argument) :: rest, c)
    else .ok ([(leading, argument)], c.advance)
termination_by structural n

def readArgument (n : Nat) (argument : Complex) (pseudoElement : Option PseudoElement)
    (c : Cursor) : Reading (Complex × Cursor) :=
  match pseudoElement with
  | some p => .error (.pseudoElementInFunction p)
  | none => do
    let c := c.skipBlanks
    let l ← c.peek
    match n with
    | 0 => .error (.expected .closeParen l)
    | n + 1 =>
      if l.shape = .delim ',' || l.shape = .delim ')' then .ok (argument, c)
      else if l.shape = .stop then .error (.expected .closeParen l)
      else do
        let (combinator, c) := combinatorAt l c
        let (right, p, c) ← readCompound n .free c
        readArgument n (.combined argument combinator right) p c
termination_by structural n

def readOptions (n : Nat) (c : Cursor) : Reading (List Compound × Cursor) := do
  match n with
  | 0 => .error (.expected .argument (← c.peek))
  | n + 1 => do
    let (first, p, c) ← readCompound n .options c
    match p with
    | some p => .error (.pseudoElementInFunction p)
    | none => do
      let c := c.skipBlanks
      let l ← c.peek
      if l.shape = .delim ',' then do
        let (rest, c) ← readOptions n c.advance.skipBlanks
        .ok (first :: rest, c)
      else if l.shape = .delim ')' then .ok ([first], c.advance)
      else .error (.expected .argument l)
termination_by structural n

end

def PseudoElement.lowered : PseudoElement → PseudoElement
  | .plain name => .plain (SelectorRank.lowered name)
  | .functional name words => .functional name words

def readWritten : Nat → Complex → Option PseudoElement → Cursor → Reading (Written × Cursor)
  | 0, _, _, c => do .error (.expected .selector (← c.skipBlanks.peek))
  | n + 1, selector, pseudoElement, c => do
      let c := c.skipBlanks
      let l ← c.peek
      if l.shape = .stop || l.shape = .delim ',' then
        .ok (⟨selector, pseudoElement.map PseudoElement.lowered⟩, c)
      else match pseudoElement with
      | some p => .error (.misplacedPseudoElement p)
      | none => do
        let (combinator, c) := combinatorAt l c
        let (right, p, c) ← readCompound n .free c
        readWritten n (.combined selector combinator right) p c

def readList : Nat → Cursor → Reading (List Written)
  | 0, c => do .error (.expected .selector (← c.peek))
  | n + 1, c => do
      let (first, p, c) ← readCompound n .free c
      let (written, c) ← readWritten n (.compound first) p c
      let l ← c.peek
      if l.shape = .delim ',' then do
        let rest ← readList n c.advance.skipBlanks
        .ok (written :: rest)
      else .ok [written]

def callBound (c : Cursor) : Nat := 4 * c.rest.length + 8

def readSource (source : List Char) : Reading (List Written) :=
  let c := Cursor.ofSource source
  readList (callBound c) c

end SelectorRank
