import Mathlib.Algebra.GroupWithZero.Nat
import SelectorRank.Proofs.Datum.Outline
import SelectorRank.Proofs.Store
import SelectorRank.Proofs.Text.Quoted

/-! Outlines, read back. A line feed ends each line and stands nowhere else, and blanks in front of a
line tell its depth, so the lines of an outline give back what is inside what, whatever texts the
tokens hold. -/
namespace SelectorRank

/-! Trees of kinds, and their rows from the root down. -/

inductive KindTree where
  | node (kind : String) (inner : List KindTree)

structure OutlineRow where
  depth : Nat
  kind : String
  deriving DecidableEq, Repr

mutual

def KindTree.rows (depth : Nat) : KindTree → List OutlineRow
  | .node kind inner => ⟨depth, kind⟩ :: forestRows (depth + 1) inner

def forestRows (depth : Nat) : List KindTree → List OutlineRow
  | [] => []
  | t :: ts => t.rows depth ++ forestRows depth ts

end

/-- Trees of rows. What follows a row and is deeper is inside. -/
def forestOf : List OutlineRow → List KindTree
  | [] => []
  | r :: rows =>
      .node r.kind (forestOf (rows.takeWhile (r.depth < ·.depth))) ::
        forestOf (rows.dropWhile (r.depth < ·.depth))
termination_by rows => rows.length
decreasing_by
  · exact Nat.lt_succ_of_le (List.takeWhile_sublist _).length_le
  · exact Nat.lt_succ_of_le (List.dropWhile_sublist _).length_le

theorem forestDeep :
    (∀ depth (t : KindTree), ∀ r ∈ t.rows depth, depth ≤ r.depth) ∧
    ∀ depth ts, ∀ r ∈ forestRows depth ts, depth ≤ r.depth := by
  apply KindTree.rows.mutual_induct
  case case1 =>
    intro depth kind inner ih
    rw [KindTree.rows, List.forall_mem_cons]
    exact ⟨Nat.le_refl depth, fun r member => Nat.le_of_succ_le (ih r member)⟩
  case case2 => simp [forestRows]
  case case3 =>
    intro depth t ts first rest
    rw [forestRows]
    exact List.forall_mem_append.mpr ⟨first, rest⟩

theorem forestHead {depth : Nat} {ts : List KindTree} {r : OutlineRow}
    (head : (forestRows depth ts).head? = some r) : r.depth = depth := by
  cases ts with
  | nil => simp [forestRows] at head
  | cons t ts =>
    obtain ⟨kind, inner⟩ := t
    rw [forestRows, KindTree.rows] at head
    exact (congrArg OutlineRow.depth (Option.some.inj head)).symm

theorem forestOfInner {r : OutlineRow} {inner rest : List OutlineRow}
    (deeper : ∀ x ∈ inner, r.depth < x.depth) (ends : ∀ x, rest.head? = some x → x.depth ≤ r.depth) :
    forestOf (r :: (inner ++ rest)) = .node r.kind (forestOf inner) :: forestOf rest := by
  have deeper : ∀ x ∈ inner, decide (r.depth < x.depth) = true :=
    fun x member => decide_eq_true (deeper x member)
  have here : rest.takeWhile (r.depth < ·.depth) = [] ∧
      rest.dropWhile (r.depth < ·.depth) = rest := by
    cases rest with
    | nil => exact ⟨rfl, rfl⟩
    | cons x rest => simp [Nat.not_lt.mpr (ends x rfl)]
  rw [forestOf, List.takeWhile_append_of_pos deeper, List.dropWhile_append_of_pos deeper, here.1,
    here.2, List.append_nil]

theorem forestOfRows :
    (∀ depth (t : KindTree), ∀ rest : List OutlineRow,
      (∀ x, rest.head? = some x → x.depth ≤ depth) →
        forestOf (t.rows depth ++ rest) = t :: forestOf rest) ∧
    ∀ depth ts, forestOf (forestRows depth ts) = ts := by
  apply KindTree.rows.mutual_induct
  case case1 =>
    -- the rows of a tree end where the next row is not deeper than its root
    intro depth kind inner ih rest ends
    rw [KindTree.rows, List.cons_append, forestOfInner (forestDeep.2 (depth + 1) inner) ends, ih]
  case case2 =>
    intro depth
    rw [forestRows, forestOf]
  case case3 =>
    intro depth t ts first rest
    rw [forestRows, first _ (fun x head => Nat.le_of_eq (forestHead head)), rest]

/-! Kinds of tokens. -/

mutual

def Token.kindTree : Token → KindTree
  | .simple s bucket => .node (s.datum bucket).kind []
  | .negation _ body _ => .node "NegationSelector" (kindTrees body)
  | .combinator value => .node (Datum.combinator value).kind []

def kindTrees : List Token → List KindTree
  | [] => []
  | t :: ts => t.kindTree :: kindTrees ts

end

def Selector.kindTree (s : Selector) : KindTree := .node "Selector" (kindTrees s.tokens)

mutual

/-- A token and all tokens inside. -/
def Token.count : Token → Nat
  | .simple .. => 1
  | .negation _ body _ => 1 + countOf body
  | .combinator _ => 1

def countOf : List Token → Nat
  | [] => 0
  | t :: ts => t.count + countOf ts

end

theorem rowsCount :
    (∀ t : Token, ∀ depth, (t.kindTree.rows depth).length = t.count) ∧
    ∀ tokens depth, (forestRows depth (kindTrees tokens)).length = countOf tokens := by
  apply Token.kindTree.mutual_induct
  case case1 => exact fun _ _ _ => rfl
  case case2 =>
    intro form body bucket inner depth
    rw [Token.kindTree, KindTree.rows, List.length_cons, inner, Token.count, Nat.add_comm]
  case case3 => exact fun _ _ => rfl
  case case4 => exact fun _ => rfl
  case case5 =>
    intro t ts first rest depth
    rw [kindTrees, forestRows, List.length_append, first, rest, countOf]

theorem selectorRowsCount (selectors : List Selector) :
    (forestRows 0 (selectors.map Selector.kindTree)).length =
      (selectors.map (fun s => 1 + countOf s.tokens)).sum := by
  induction selectors with
  | nil => rfl
  | cons s selectors ih =>
    rw [List.map_cons, forestRows, List.length_append, ih, Selector.kindTree, KindTree.rows,
      List.length_cons, rowsCount.2, List.map_cons, List.sum_cons, Nat.add_comm (countOf _)]

/-! Lines. -/

/-- Kinds are words, so they end at the first blank. -/
def IsWord (kind : String) : Prop :=
  kind.toList ≠ [] ∧ ∀ c ∈ kind.toList, c ≠ ' ' ∧ ¬ IsControl c

instance : DecidablePred IsWord := fun _ => inferInstanceAs (Decidable (_ ∧ _))

/-- A line starts with two blanks for each step of its depth, then the kind. -/
structure OutlineRow.Heads (r : OutlineRow) (line : List Char) : Prop where
  word : IsWord r.kind
  front : ∃ rest, line = List.replicate (2 * r.depth) ' ' ++ (r.kind.toList ++ rest) ∧
    (rest = [] ∨ rest.head? = some ' ')
  single : '\n' ∉ line

def readRow (line : List Char) : OutlineRow :=
  ⟨(line.takeWhile (· = ' ')).length / 2,
    String.ofList ((line.dropWhile (· = ' ')).takeWhile (· ≠ ' '))⟩

theorem readHeads {r : OutlineRow} {line : List Char} (heads : r.Heads line) : readRow line = r := by
  obtain ⟨⟨some, word⟩, ⟨rest, rfl, ends⟩, _⟩ := heads
  have blanks : ∀ c ∈ List.replicate (2 * r.depth) ' ', decide (c = ' ') = true :=
    fun c member => decide_eq_true (List.eq_of_mem_replicate member)
  have visible : ∀ c ∈ r.kind.toList, decide (c ≠ ' ') = true :=
    fun c member => decide_eq_true (word c member).1
  -- a word holds no blank, so the blanks in front end where the kind starts
  have starts : EndsAt (· = ' ') (r.kind.toList ++ rest) := by
    intro c head
    rw [List.head?_append_of_ne_nil _ some] at head
    exact decide_eq_false (word c (List.mem_of_mem_head? head)).1
  have stops : EndsAt (· ≠ ' ') rest := by
    rintro c head
    rcases ends with rfl | blank
    · cases head
    · obtain rfl := Option.some.inj (head.symm.trans blank)
      rfl
  have dropped : (r.kind.toList ++ rest).dropWhile (· = ' ') = r.kind.toList ++ rest := by
    have cut := List.takeWhile_append_dropWhile (p := (· = ' ')) (l := r.kind.toList ++ rest)
    rwa [takeWhileEnd starts, List.nil_append] at cut
  rw [readRow, takeWhileFront blanks starts, List.dropWhile_append_of_pos blanks, dropped,
    takeWhileFront visible stops, List.length_replicate, Nat.mul_div_cancel_left _ (by decide),
    String.ofList_toList]

theorem spacedChars (d : String) (ds : List String) :
    (String.intercalate " " (d :: ds)).toList = d.toList ++ ds.flatMap (fun d => ' ' :: d.toList) := by
  induction ds generalizing d with
  | nil => simp
  | cons e ds ih =>
    rw [String.intercalate_cons_cons, String.toList_append, ih, List.flatMap_cons]
    simp

theorem spacedNoControl {ds : List String} (clean : ∀ d ∈ ds, HasNoControl d.toList) :
    HasNoControl (ds.flatMap (fun d => ' ' :: d.toList)) := by
  intro c member
  obtain ⟨d, within, member⟩ := List.mem_flatMap.mp member
  have blank : ¬ IsControl ' ' := by decide
  exact noControlCons.mpr ⟨blank, clean d within⟩ c member

theorem headsWord {depth : Nat} {kind : String} {rest : List Char} (word : IsWord kind)
    (clean : HasNoControl rest) (ends : rest = [] ∨ rest.head? = some ' ') :
    OutlineRow.Heads ⟨depth, kind⟩
      (List.replicate (2 * depth) ' ' ++ (kind.toList ++ rest)) := by
  refine ⟨word, ⟨rest, rfl, ends⟩, fun feed => ?_⟩
  have control : IsControl '\n' := by decide
  rcases List.mem_append.mp feed with blank | feed
  · cases List.eq_of_mem_replicate blank
  rcases List.mem_append.mp feed with feed | feed
  · exact (word.2 _ feed).2 control
  · exact clean _ feed control

theorem outlineLineHeads (depth : Nat) {kind : String} {details : List String} (word : IsWord kind)
    (clean : ∀ d ∈ details, HasNoControl d.toList) :
    ∃ line, (outlineLine depth kind details).toList = line ++ ['\n'] ∧
      OutlineRow.Heads ⟨depth, kind⟩ line := by
  have ends : details.flatMap (fun d => ' ' :: d.toList) = [] ∨
      (details.flatMap (fun d => ' ' :: d.toList)).head? = some ' ' := by
    cases details with
    | nil => exact .inl rfl
    | cons d ds => exact .inr rfl
  have feed : "\n".toList = ['\n'] := by decide
  refine ⟨_, ?_, headsWord word (spacedNoControl clean) ends⟩
  rw [outlineLine, String.toList_append, spacedChars, String.toList_append, indent,
    String.toList_ofList, feed, List.append_assoc (List.replicate _ _)]

/-! Texts of lines. -/

inductive IsOutline : List Char → List OutlineRow → Prop where
  | nil : IsOutline [] []
  | cons {line text : List Char} {r : OutlineRow} {rows : List OutlineRow} (heads : r.Heads line)
      (rest : IsOutline text rows) : IsOutline (line ++ '\n' :: text) (r :: rows)

section
variable {text more : List Char} {rows others : List OutlineRow}

theorem IsOutline.append (outlined : IsOutline text rows) (rest : IsOutline more others) :
    IsOutline (text ++ more) (rows ++ others) := by
  induction outlined with
  | nil => exact rest
  | cons heads _ ih =>
    rw [List.append_assoc, List.cons_append]
    exact .cons heads ih

theorem IsOutline.single {line : List Char} {r : OutlineRow} (heads : r.Heads line) :
    IsOutline (line ++ ['\n']) [r] := .cons heads .nil

theorem IsOutline.count (outlined : IsOutline text rows) : text.count '\n' = rows.length := by
  induction outlined with
  | nil => rfl
  | cons heads _ ih =>
    rw [List.count_append, List.count_cons_self, ih, List.count_eq_zero.mpr heads.single,
      Nat.zero_add, List.length_cons]

/-- Lines of an outline, which the last line feed ends. -/
def readOutline (text : List Char) : List KindTree :=
  forestOf ((text.splitOn '\n').dropLast.map readRow)

theorem IsOutline.read (outlined : IsOutline text rows) :
    (text.splitOn '\n').dropLast.map readRow = rows := by
  induction outlined with
  | nil => rfl
  | cons heads _ ih =>
    rw [List.splitOn_append_cons_self_of_not_mem heads.single,
      List.dropLast_cons_of_ne_nil (List.splitOn_ne_nil _ _), List.map_cons, readHeads heads, ih]

end

/-! Details. -/

theorem spaceDetailsNoControl (space : Namespace) : ∀ d ∈ space.details, HasNoControl d.toList := by
  cases space <;> simp [Namespace.details, IsControl]

theorem bucketDetailsNoControl (bucket : Option Bucket) :
    ∀ d ∈ Bucket.details bucket, HasNoControl d.toList := by
  cases bucket with
  | none => simp [Bucket.details]
  | some bucket => cases bucket <;> decide

theorem argumentShownNoControl (a : Argument) : HasNoControl a.datum.shown.toList := by
  cases a <;> simp [Argument.datum, Datum.shown, Datum.fields, IsControl]

theorem detailsNoControl (s : Simple) : ∀ d ∈ s.details, HasNoControl d.toList := by
  cases s with
  | universal space => exact spaceDetailsNoControl space
  | element name space | «attribute» name space =>
    exact List.forall_mem_append.mpr ⟨spaceDetailsNoControl space, by simp⟩
  | attributeValue name operator value space =>
    exact List.forall_mem_append.mpr ⟨spaceDetailsNoControl space, by simp [IsControl]⟩
  | id name | className name | pseudoElement name => simp [Simple.details]
  | pseudoClass name argument =>
    cases argument <;> simp [Simple.details, argumentShownNoControl]

theorem simpleWord (s : Simple) (bucket : Option Bucket) : IsWord (s.datum bucket).kind := by
  cases s <;> simp only [Simple.datum, Datum.kind] <;> decide

theorem combinatorWord (value : Combinator) : IsWord (Datum.combinator value).kind := by
  cases value <;> decide

/-! Outlines. -/

theorem tokensOutlined :
    (∀ t : Token, ∀ depth, IsOutline (t.outline depth).toList (t.kindTree.rows depth)) ∧
    ∀ tokens depth, IsOutline (outlineAll depth tokens).toList
      (forestRows depth (kindTrees tokens)) := by
  apply Token.kindTree.mutual_induct
  case case1 =>
    intro s bucket depth
    have clean := List.forall_mem_append.mpr ⟨detailsNoControl s, bucketDetailsNoControl bucket⟩
    obtain ⟨line, text, heads⟩ := outlineLineHeads depth (simpleWord s bucket) clean
    rw [Token.outline, text]
    exact .single heads
  case case2 =>
    intro form body bucket inner depth
    have word : IsWord "NegationSelector" := by decide
    obtain ⟨line, text, heads⟩ := outlineLineHeads depth word (bucketDetailsNoControl bucket)
    rw [Token.outline, String.toList_append, text]
    exact (IsOutline.single heads).append (inner (depth + 1))
  case case3 =>
    intro value depth
    have none : ∀ d ∈ ([] : List String), HasNoControl d.toList := by simp
    obtain ⟨line, text, heads⟩ := outlineLineHeads depth (combinatorWord value) none
    rw [Token.outline, text]
    exact .single heads
  case case4 => exact fun _ => .nil
  case case5 =>
    intro t ts first rest depth
    rw [outlineAll, String.toList_append]
    exact (first depth).append (rest depth)

theorem selectorOutlined (s : Selector) : IsOutline s.outline.toList (s.kindTree.rows 0) := by
  have word : IsWord "Selector" := by decide
  let rest := ' ' :: ((Text.quoted s.text).toList ++
    (" specificity=".toList ++ s.specificity.text.toList))
  have clean : HasNoControl rest := by simp [rest, IsControl]
  have heads : OutlineRow.Heads ⟨0, "Selector"⟩ ([] ++ ("Selector".toList ++ rest)) :=
    headsWord word clean (.inr rfl)
  have text : s.outline.toList =
      ([] ++ ("Selector".toList ++ rest)) ++ '\n' :: (outlineAll 1 s.tokens).toList := by
    simp [Selector.outline, rest]
  rw [text]
  exact .cons heads (tokensOutlined.2 s.tokens 1)

theorem selectorsOutlined (selectors : List Selector) :
    IsOutline (outlines selectors).toList (forestRows 0 (selectors.map Selector.kindTree)) := by
  rw [outlines, String.toList_join, List.flatMap_map]
  induction selectors with
  | nil => exact .nil
  | cons s selectors ih =>
    rw [List.flatMap_cons, List.map_cons, forestRows]
    exact (selectorOutlined s).append ih

/-! Selectors that are kept. Their texts and their tokens are written only if all integers are short
enough. -/

def Selector.outline? (s : Selector) : Except RenderFault String := do
  let text ← s.text?.elim (.error .longInteger) .ok
  let lines ← Datum.allOutlines 1 (tokenData s.tokens)
  .ok ("Selector " ++ Text.quoted text ++ " specificity=" ++ s.specificity.text ++ "\n" ++ lines)

def outlines? (selectors : List Selector) : Except RenderFault String :=
  (selectors.mapM Selector.outline?).map String.join

theorem selectorOutline {s : Selector} (sound : s.Sound) (short : areWritable s.tokens = true) :
    s.outline? = .ok s.outline := by
  have kept : s.text? = some (canonicalText s.tokens) := sound.text.trans (if_pos short)
  have text : s.text = canonicalText s.tokens := (Selector.freshWritten sound).symm
  rw [Selector.outline?, kept, Datum.outlineTokens.2 s.tokens 1 short, Selector.outline, text]
  rfl

theorem selectorsOutline {selectors : List Selector}
    (given : ∀ s ∈ selectors, s.Sound ∧ areWritable s.tokens = true) :
    outlines? selectors = .ok (outlines selectors) := by
  have all : selectors.mapM Selector.outline? = .ok (selectors.map Selector.outline) := by
    induction selectors with
    | nil => rfl
    | cons s selectors ih =>
      obtain ⟨⟨sound, short⟩, rest⟩ := List.forall_mem_cons.mp given
      rw [List.mapM_cons, selectorOutline sound short, ih rest]
      rfl
  rw [outlines?, all]
  rfl

/-- Selectors that passed the check and can be written are outlined, one line each and one for each
token, at any depth. A line for each row of the trees of their kinds, in order, starts with two
blanks for each step of its depth and the kind, and so the text gives the trees back. -/
theorem outlineReadBack {selectors : List Selector}
    (given : ∀ s ∈ selectors, s.Sound ∧ areWritable s.tokens = true) :
    outlines? selectors = .ok (outlines selectors) ∧
      IsOutline (outlines selectors).toList (forestRows 0 (selectors.map Selector.kindTree)) ∧
      (outlines selectors).toList.count '\n' =
        (selectors.map (fun s => 1 + countOf s.tokens)).sum ∧
      readOutline (outlines selectors).toList = selectors.map Selector.kindTree := by
  have outlined := selectorsOutlined selectors
  refine ⟨selectorsOutline given, outlined, ?_, ?_⟩
  · rw [outlined.count, selectorRowsCount]
  · rw [readOutline, outlined.read, forestOfRows.2]

/-- A line feed in a name does not make a line of its own. -/
theorem outlineReadBackBroken :
    let tokens : List Token := [.usual (.element "a\n  b" .any), .combinator .child,
      .negation .list [.usual (.id "c"), .not [.usual (.className "\n")]] none]
    let s : Selector := (Selector.ofTokens tokens).kept
    (s.Sound ∧ areWritable s.tokens = true) ∧
      outlines? [s, s] = .ok (outlines [s, s]) ∧ (outlines [s, s]).toList.count '\n' = 14 ∧
      readOutline (outlines [s, s]).toList = [s.kindTree, s.kindTree] := by
  intro tokens s
  have checked : (Datum.tuple (tokenData tokens)).check = .ok tokens := rfl
  have given : s.Sound ∧ areWritable s.tokens = true :=
    ⟨Selector.keptSound (Selector.constructedSound checked), rfl⟩
  have all : ∀ x ∈ [s, s], x.Sound ∧ areWritable x.tokens = true := by simp [given]
  obtain ⟨written, _, count, read⟩ := outlineReadBack all
  exact ⟨given, written, count, read⟩

end SelectorRank
