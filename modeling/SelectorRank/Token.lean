import SelectorRank.Series

/-! Selectors as flat sequences of tokens. A token states the specificity column that it counts in,
if any. -/
namespace SelectorRank

inductive Bucket where
  | a | b | c | d
  deriving DecidableEq, Repr

def Bucket.letter : Bucket → String
  | .a => "a"
  | .b => "b"
  | .c => "c"
  | .d => "d"

def Bucket.all : List Bucket := [.a, .b, .c, .d]

inductive Combinator where
  | descendant | child | adjacent | sibling
  deriving DecidableEq, Repr

inductive AttributeOperator where
  | equals | includes | dashMatch | prefixMatch | suffixMatch | substring
  deriving DecidableEq, Repr

def AttributeOperator.symbol : AttributeOperator → String
  | .equals => "="
  | .includes => "~="
  | .dashMatch => "|="
  | .prefixMatch => "^="
  | .suffixMatch => "$="
  | .substring => "*="

def AttributeOperator.all : List AttributeOperator :=
  [.equals, .includes, .dashMatch, .prefixMatch, .suffixMatch, .substring]

def AttributeOperator.ofSymbol? (s : String) : Option AttributeOperator :=
  all.find? (·.symbol = s)

theorem ofSymbolSymbol (o : AttributeOperator) : AttributeOperator.ofSymbol? o.symbol = some o := by
  cases o <;> rfl

def Bucket.ofLetter? (s : String) : Option Bucket := all.find? (·.letter = s)

theorem ofLetterLetter (bucket : Bucket) :
    Bucket.ofLetter? bucket.letter = some bucket := by
  cases bucket <;> rfl

inductive Namespace where
  | unspecified
  | named (name : String)
  | any
  deriving DecidableEq, Repr

inductive Parity where
  | odd | even
  deriving DecidableEq, Repr

def Parity.word : Parity → String
  | .odd => "odd"
  | .even => "even"

def Parity.ofWord? (s : String) : Option Parity :=
  if s = "odd" then some .odd else if s = "even" then some .even else none

inductive Argument where
  | identifier (value : String)
  | string (value : String)
  | parity (value : Parity)
  | series (value : Series)
  deriving DecidableEq, Repr

inductive Simple where
  | universal (space : Namespace)
  | element (name : String) (space : Namespace)
  | id (name : String)
  | className (name : String)
  | attribute (name : String) (space : Namespace)
  | attributeValue (name : String) (operator : AttributeOperator) (value : String)
      (space : Namespace)
  | pseudoElement (name : String)
  | pseudoClass (name : String) (argument : Option Argument)
  deriving DecidableEq, Repr

def Simple.bucket : Simple → Option Bucket
  | .universal _ => none
  | .element .. => some .d
  | .id _ => some .b
  | .className _ => some .c
  | .attribute .. => some .c
  | .attributeValue .. => some .c
  | .pseudoElement _ => some .d
  | .pseudoClass .. => some .c

/-- How the body of a negation was given. Bodies of different forms are different bodies. -/
inductive BodyForm where
  | tuple | list
  deriving DecidableEq, Repr

inductive Token where
  | simple (selector : Simple) (bucket : Option Bucket)
  | negation (form : BodyForm) (body : List Token) (bucket : Option Bucket)
  | combinator (combinator : Combinator)
  deriving Repr

mutual

def Token.decEq : (s t : Token) → Decidable (s = t)
  | .simple x p, .simple y q =>
      if h : x = y ∧ p = q then .isTrue (by rw [h.1, h.2]) else .isFalse (by simpa using h)
  | .negation f xs p, .negation g ys q =>
      match Token.decEqList xs ys with
      | .isTrue same =>
          if h : f = g ∧ p = q then .isTrue (by rw [h.1, h.2, same])
          else .isFalse (by intro e; cases e; exact h ⟨rfl, rfl⟩)
      | .isFalse differ => .isFalse (by intro e; cases e; exact differ rfl)
  | .combinator x, .combinator y =>
      if h : x = y then .isTrue (by rw [h]) else .isFalse (by simpa using h)
  | .simple .., .negation .. => .isFalse nofun
  | .simple .., .combinator .. => .isFalse nofun
  | .negation .., .simple .. => .isFalse nofun
  | .negation .., .combinator .. => .isFalse nofun
  | .combinator .., .simple .. => .isFalse nofun
  | .combinator .., .negation .. => .isFalse nofun

def Token.decEqList : (ss ts : List Token) → Decidable (ss = ts)
  | [], [] => .isTrue rfl
  | [], _ :: _ => .isFalse nofun
  | _ :: _, [] => .isFalse nofun
  | s :: ss, t :: ts =>
      match Token.decEq s t, Token.decEqList ss ts with
      | .isTrue h, .isTrue hs => .isTrue (by rw [h, hs])
      | .isFalse h, _ => .isFalse (by intro e; cases e; exact h rfl)
      | _, .isFalse hs => .isFalse (by intro e; cases e; exact hs rfl)

end

instance : DecidableEq Token := Token.decEq

def Token.usual (s : Simple) : Token := .simple s s.bucket

def Token.not (body : List Token) : Token := .negation .tuple body none

end SelectorRank
