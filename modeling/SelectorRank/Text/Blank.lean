/-! Blank characters and line breaks of running text. -/
namespace SelectorRank.Text

def isBlank (c : Char) : Bool :=
  let n := c.toNat
  (0x09 ≤ n && n ≤ 0x0d) || (0x1c ≤ n && n ≤ 0x20) || n == 0x85 || n == 0xa0 || n == 0x1680 ||
    (0x2000 ≤ n && n ≤ 0x200a) || n == 0x2028 || n == 0x2029 || n == 0x202f || n == 0x205f ||
    n == 0x3000

def trimLeft (p : Char → Bool) (cs : List Char) : List Char := cs.dropWhile p

def trimRight (p : Char → Bool) (cs : List Char) : List Char := (cs.reverse.dropWhile p).reverse

def trim (p : Char → Bool) (cs : List Char) : List Char := trimRight p (trimLeft p cs)

def isBreak (c : Char) : Bool :=
  let n := c.toNat
  (0x0a ≤ n && n ≤ 0x0d) || (0x1c ≤ n && n ≤ 0x1e) || n == 0x85 || n == 0x2028 || n == 0x2029

structure Line where
  body : List Char
  ending : List Char
  deriving DecidableEq, Repr

def Line.whole (l : Line) : List Char := l.body ++ l.ending

def lines : List Char → List Line
  | [] => []
  | '\r' :: '\n' :: cs => ⟨[], ['\r', '\n']⟩ :: lines cs
  | c :: cs =>
      if isBreak c then ⟨[], [c]⟩ :: lines cs
      else match lines cs with
        | [] => [⟨[c], []⟩]
        | l :: ls => ⟨c :: l.body, l.ending⟩ :: ls

theorem linesWhole (cs : List Char) : (lines cs).flatMap Line.whole = cs := by
  fun_induction lines cs with
  | case1 => rfl
  | case2 cs ih => simp [Line.whole, ih]
  | case3 c cs _ _ ih => simp [Line.whole, ih]
  | case4 c cs _ _ h ih => simp [h] at ih; simp [Line.whole, ← ih]
  | case5 c cs _ _ l ls h ih => simp [h] at ih; simp [Line.whole, ← ih]

end SelectorRank.Text
