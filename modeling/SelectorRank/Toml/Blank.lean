import SelectorRank.Toml.Fault

/-! What separates the parts of a settings document: blanks, line feeds and comments. -/
namespace SelectorRank.Toml

def isSpace (c : Char) : Bool := c = ' ' || c = '\t'

def skipSpaces (cs : List Char) : List Char := cs.dropWhile isSpace

def isSpaceOrLineFeed (c : Char) : Bool := isSpace c || c = '\n'

/-- Controls that a document may hold nowhere. The line feed counts among them where a text has to
stay on its line. -/
def isForbidden (oneLine : Bool) (c : Char) : Bool :=
  (c.toNat < 32 && c ≠ '\t' && (oneLine || c ≠ '\n')) || c.toNat = 127

def skipCommentBody : List Char → Reading (List Char)
  | [] => .ok []
  | c :: cs =>
      if c = '\n' then .ok (c :: cs)
      else if isForbidden true c then reject (.strayChar c) (c :: cs)
      else skipCommentBody cs

def skipComment : List Char → Reading (List Char)
  | '#' :: cs => skipCommentBody cs
  | cs => .ok cs

def skipFiller (inside : Bool) : List Char → Reading (List Char)
  | [] => .ok []
  | c :: cs =>
      if c = '\n' then skipFiller false cs
      else if inside then
        if isForbidden true c then reject (.strayChar c) (c :: cs) else skipFiller true cs
      else if isSpace c then skipFiller false cs
      else if c = '#' then skipFiller true cs
      else .ok (c :: cs)

end SelectorRank.Toml
