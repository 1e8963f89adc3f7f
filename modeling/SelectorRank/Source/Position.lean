/-! Places in a source text, in characters. A line feed is the only line break here. -/
namespace SelectorRank

structure Position where
  line : Int
  column : Int
  offset : Int
  deriving DecidableEq, Repr

def sinceLineFeed (cs : List Char) : Nat := (cs.reverse.takeWhile (· ≠ '\n')).length

/-- An offset outside the text stands for the nearer end of it. -/
def clampOffset (source : List Char) (offset : Int) : Nat := min offset.toNat source.length

def Position.ofOffset (source : List Char) (offset : Int) : Position :=
  let k := clampOffset source offset
  let before := source.take k
  ⟨before.count '\n' + 1, sinceLineFeed before + 1, k⟩

theorem ofOffsetOffset (source : List Char) (offset : Int) :
    (Position.ofOffset source offset).offset = clampOffset source offset := rfl

end SelectorRank
