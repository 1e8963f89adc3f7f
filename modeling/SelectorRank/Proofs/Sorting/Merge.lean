import SelectorRank.Proofs.Sorting.Insertion
import SelectorRank.Sorting.Merge

/-! Merging of ordered runs. In the direction of a merge both runs are ordered and what is merged goes
before all that is left; each leap and each single step keeps that. The merge fails only where two
items of different runs cannot be compared. -/
namespace SelectorRank.Sorting

variable {α ε : Type} {less : α → α → Except ε Bool} {bad : ε → Prop}

/-! Directions. -/

def Ahead (less : α → α → Except ε Bool) (d : Direction) (x y : α) : Prop :=
  match d with
  | .forward => Before less x y
  | .backward => Before less y x

theorem aheadTrans (trans : Transitive less) {d : Direction} {x y z : α} (xy : Ahead less d x y)
    (yz : Ahead less d y z) : Ahead less d x z := by
  cases d with
  | forward => exact trans xy yz
  | backward => exact trans yz xy

theorem aheadAll (trans : Transitive less) {d : Direction} {x y : α} {ys : List α}
    (first : Ahead less d x y) (ordered : (y :: ys).Pairwise (Ahead less d)) :
    ∀ z ∈ y :: ys, Ahead less d x z :=
  List.forall_mem_cons.mpr
    ⟨first, fun z later => aheadTrans trans first ((List.pairwise_cons.mp ordered).1 z later)⟩

theorem takesLeftYields {d : Direction} {x y : α} (told : Told less bad x y) :
    Yields (fun goes => if goes then Ahead less d x y else Ahead less d y x) bad
      (takesLeft less d x y) := by
  refine told.2.bind fun falls answer => .ok ?_
  cases d <;> cases falls <;> exact answer

theorem takesRightYields {d : Direction} {x y : α} (told : Told less bad x y) :
    Yields (fun goes => if goes then Ahead less d y x else Ahead less d x y) bad
      (do .ok (!(← takesLeft less d x y))) :=
  (takesLeftYields told).bind fun goes ahead => .ok (by cases goes <;> exact ahead)

/-! Counting. -/

theorem middleWithin {d : Direction} {low high : Nat} (less : low < high) :
    low ≤ d.middle low high ∧ d.middle low high < high := by
  cases d <;> simp only [Direction.middle] <;> omega

section
variable {test : α → Except ε Bool} {yes no : α → Prop} {xs : List α}

def Passes (yes : α → Prop) (xs : List α) (place : Nat) : Prop := ∃ x, xs[place]? = some x ∧ yes x

def Fails (no : α → Prop) (xs : List α) (place : Nat) : Prop := ∀ x, xs[place]? = some x → no x

/-- The place where passing ends: the item before it passes, and the one at it does not. -/
structure Boundary (yes no : α → Prop) (xs : List α) (place : Nat) : Prop where
  bound : place ≤ xs.length
  passes : ∀ k, place = k + 1 → Passes yes xs k
  fails : Fails no xs place

theorem passesSmall {place : Nat} (passes : Passes yes xs place) : place < xs.length := by
  obtain ⟨x, found, _⟩ := passes
  exact (List.getElem?_eq_some_iff.mp found).1

variable (tested : ∀ x ∈ xs, Yields (fun goes => if goes then yes x else no x) bad (test x))
include tested

theorem testAtYields (place : Nat) :
    Yields (fun goes => if goes then Passes yes xs place else Fails no xs place) bad
      (testAt test xs place) := by
  unfold testAt
  split
  · next x found =>
    refine (tested x (List.mem_of_getElem? found)).imp fun goes answer => ?_
    cases goes with
    | true => exact ⟨x, found, answer⟩
    | false => exact fun y same => Option.some.inj (found.symm.trans same) ▸ answer
  · next none => exact .ok (fun x found => by rw [none] at found; cases found)

theorem bisectYields (d : Direction) {steps low high : Nat} (enough : high ≤ low + steps)
    (range : low ≤ high) (bound : high ≤ xs.length) (passes : ∀ k, low = k + 1 → Passes yes xs k)
    (fails : Fails no xs high) :
    Yields (Boundary yes no xs) bad (bisect d test xs steps low high) := by
  induction steps generalizing low high with
  | zero =>
    cases Nat.le_antisymm range enough
    exact .ok ⟨bound, passes, fails⟩
  | succ steps ih =>
    unfold bisect
    split
    · next less =>
      obtain ⟨above, below⟩ := middleWithin (d := d) less
      refine (testAtYields tested _).bind ?_
      intro goes tried
      cases goes with
      | true =>
        refine ih (by omega) (by omega) bound ?_ fails
        intro k same
        cases Nat.succ.inj same
        exact tried
      | false => exact ih (by omega) above (by omega) passes tried
    · next same =>
      cases Nat.le_antisymm range (Nat.le_of_not_lt same)
      exact .ok ⟨bound, passes, fails⟩

theorem strideYields {steps last next : Nat} (enough : xs.length ≤ next + steps)
    (passes : Passes yes xs last) (later : last < next) :
    Yields (fun found => Passes yes xs found.1 ∧ found.1 < found.2 ∧
      found.2 ≤ xs.length ∧ Fails no xs found.2) bad (stride test xs steps last next) := by
  have small := passesSmall passes
  have beyond : Fails no xs xs.length := fun x found => by simp at found
  induction steps generalizing last next with
  | zero =>
    refine .ok ⟨passes, ?_⟩
    rw [Nat.min_eq_right (by omega)]
    exact ⟨small, Nat.le_refl _, beyond⟩
  | succ steps ih =>
    unfold stride
    split
    · next inside =>
      refine (testAtYields tested next).bind ?_
      intro goes tried
      cases goes with
      | true => exact ih (by omega) tried (by omega) inside
      | false => exact .ok ⟨passes, later, by omega, tried⟩
    · exact .ok ⟨passes, small, Nat.le_refl _, beyond⟩

theorem countPassingYields (d : Direction) :
    Yields (Boundary yes no xs) bad (countPassing d test xs) := by
  refine (testAtYields tested 0).bind ?_
  intro goes tried
  cases goes with
  | false => exact .ok ⟨Nat.zero_le _, by simp, tried⟩
  | true =>
    refine (strideYields tested (by omega) tried (by omega)).bind ?_
    rintro ⟨last, next⟩ ⟨passes, later, bound, fails⟩
    refine bisectYields tested d (by omega) later bound ?_ fails
    intro k same
    cases Nat.succ.inj same
    exact passes

end

/-- Items before a place are ahead of a bound, those from it on are behind. -/
structure Splits (less : α → α → Except ε Bool) (d : Direction) (xs : List α) (y : α)
    (place : Nat) : Prop where
  ahead : ∀ z ∈ xs.take place, Ahead less d z y
  behind : ∀ z ∈ xs.drop place, Ahead less d y z

section
variable (trans : Transitive less) {d : Direction} {xs : List α} (ordered : xs.Pairwise (Ahead less d))
include trans ordered

theorem boundarySplits {y : α} {place : Nat}
    (boundary : Boundary (Ahead less d · y) (Ahead less d y ·) xs place) :
    Splits less d xs y place where
  ahead := by
    cases place with
    | zero => simp
    | succ k =>
      obtain ⟨x, found, last⟩ := boundary.passes k rfl
      have front := ordered.sublist (List.take_sublist (k + 1) xs)
      rw [List.take_add_one, found] at front ⊢
      refine List.forall_mem_append.mpr ⟨?_, by simpa using last⟩
      intro z early
      exact aheadTrans trans ((List.pairwise_append.mp front).2.2 z early x (by simp)) last
  behind := by
    cases tail : xs.drop place with
    | nil => simp
    | cons z zs =>
      have found : xs[place]? = some z := by
        rw [← List.head?_drop, tail]
        rfl
      have back := ordered.sublist (List.drop_sublist place xs)
      rw [tail] at back
      exact aheadAll trans (boundary.fails z found) back

theorem countLeftYields {y : α} (told : ∀ x ∈ xs, Told less bad x y) :
    Yields (Splits less d xs y) bad (countPassing d (fun x => takesLeft less d x y) xs) :=
  (countPassingYields (fun x member => takesLeftYields (told x member)) d).imp
    fun _ => boundarySplits trans ordered

theorem countRightYields {x : α} (told : ∀ y ∈ xs, Told less bad x y) :
    Yields (Splits less d xs x) bad
      (countPassing d (fun y => do .ok (!(← takesLeft less d x y))) xs) :=
  (countPassingYields (fun y member => takesRightYields (told y member)) d).imp
    fun _ => boundarySplits trans ordered

end

/-! What is merged and what is left. -/

section
variable {R : α → α → Prop} {front run other : List α} (own : (front ++ run).Pairwise R)
  (across : (front ++ other).Pairwise R)
include own across

theorem takenOrdered {n : Nat} (first : ∀ x ∈ run.take n, ∀ y ∈ other, R x y) :
    (front ++ run.take n ++ run.drop n).Pairwise R ∧ (front ++ run.take n ++ other).Pairwise R := by
  have whole : (front ++ run.take n ++ run.drop n).Pairwise R := by
    rwa [List.append_assoc, List.take_append_drop]
  obtain ⟨_, behind, before⟩ := List.pairwise_append.mp across
  refine ⟨whole, List.pairwise_append.mpr ⟨(List.pairwise_append.mp whole).1, behind, ?_⟩⟩
  intro x member y later
  rcases List.mem_append.mp member with old | taken
  · exact before x old y later
  · exact first x taken y later

theorem settledOrdered (settled : other.length ≤ 1 ∨ run = [])
    (closes : ∀ z ∈ other.getLast?, ∀ y ∈ run, R y z) : (front ++ run ++ other).Pairwise R := by
  rcases settled with short | rfl
  · match other, short with
    | [], _ => rwa [List.append_nil]
    | [z], _ =>
      refine List.pairwise_append.mpr ⟨own, by simp, ?_⟩
      intro x member y single
      rw [List.mem_singleton.mp single]
      rcases List.mem_append.mp member with old | later
      · exact (List.pairwise_append.mp across).2.2 x old z (by simp)
      · exact closes z rfl x later
  · rwa [List.append_nil]

end

namespace Merging

variable {d : Direction} {m : Merging α}

def items (m : Merging α) : List α := m.merged ++ (m.left ++ m.right)

def size (m : Merging α) : Nat := m.left.length + m.right.length

/-- The outermost item of one run goes after all of the other one. -/
def Closes (less : α → α → Except ε Bool) (d : Direction) (m : Merging α) : Prop :=
  match d with
  | .forward => ∀ z ∈ m.left.getLast?, ∀ y ∈ m.right, Ahead less d y z
  | .backward => ∀ z ∈ m.right.getLast?, ∀ x ∈ m.left, Ahead less d x z

structure Sound (less : α → α → Except ε Bool) (bad : ε → Prop) (d : Direction)
    (m : Merging α) : Prop where
  left : (m.merged.reverse ++ m.left).Pairwise (Ahead less d)
  right : (m.merged.reverse ++ m.right).Pairwise (Ahead less d)
  told : ∀ x ∈ m.left, ∀ y ∈ m.right, Told less bad x y
  closes : m.Closes less d

theorem lastOfDrop {xs : List α} {n : Nat} {z : α} (last : z ∈ (xs.drop n).getLast?) :
    z ∈ xs.getLast? := by
  rw [List.getLast?_drop] at last
  split at last
  · cases last
  · exact last

section
variable (sound : m.Sound less bad d) {n : Nat}
include sound

theorem Sound.leftOrdered : m.left.Pairwise (Ahead less d) :=
  (List.pairwise_append.mp sound.left).2.1

theorem Sound.rightOrdered : m.right.Pairwise (Ahead less d) :=
  (List.pairwise_append.mp sound.right).2.1

theorem takeLeftSound (first : ∀ x ∈ m.left.take n, ∀ y ∈ m.right, Ahead less d x y) :
    (m.takeLeft n).Sound less bad d := by
  obtain ⟨left, right⟩ := takenOrdered sound.left sound.right first
  refine ⟨by simpa [takeLeft] using left, by simpa [takeLeft] using right,
    fun x member => sound.told x (List.mem_of_mem_drop member), ?_⟩
  cases d with
  | forward => exact fun z last => sound.closes z (lastOfDrop last)
  | backward => exact fun z last x member => sound.closes z last x (List.mem_of_mem_drop member)

theorem takeRightSound (first : ∀ y ∈ m.right.take n, ∀ x ∈ m.left, Ahead less d y x) :
    (m.takeRight n).Sound less bad d := by
  obtain ⟨right, left⟩ := takenOrdered sound.right sound.left first
  refine ⟨by simpa [takeRight] using left, by simpa [takeRight] using right,
    fun x member y later => sound.told x member y (List.mem_of_mem_drop later), ?_⟩
  cases d with
  | forward => exact fun z last y member => sound.closes z last y (List.mem_of_mem_drop member)
  | backward => exact fun z last => sound.closes z (lastOfDrop last)

theorem resultOrdered (settled : m.isSettled d = true) : (m.result d).Pairwise (Before less) := by
  cases d with
  | forward =>
    have settled : m.left.length ≤ 1 ∨ m.right = [] := by simpa [isSettled] using settled
    exact settledOrdered sound.right sound.left settled sound.closes
  | backward =>
    have settled : m.left = [] ∨ m.right.length ≤ 1 := by simpa [isSettled] using settled
    exact List.pairwise_reverse.mpr
      (settledOrdered sound.left sound.right settled.symm sound.closes)

end

theorem takeLeftSame (m : Merging α) (n : Nat) : (m.takeLeft n).items.Perm m.items := by
  have back : ((m.left.take n).reverse ++ m.merged ++ (m.left.drop n ++ m.right)).Perm
      (m.merged ++ (m.left.take n ++ (m.left.drop n ++ m.right))) := by
    rw [← List.append_assoc m.merged]
    exact ((List.perm_append_comm).trans
      ((List.reverse_perm _).append_left _)).append_right _
  rwa [← List.append_assoc (m.left.take n), List.take_append_drop] at back

theorem takeRightSame (m : Merging α) (n : Nat) : (m.takeRight n).items.Perm m.items := by
  have swap : ∀ m : Merging α, m.items.Perm (Merging.mk m.merged m.right m.left).items :=
    fun m => List.perm_append_comm.append_left m.merged
  exact (swap _).trans ((takeLeftSame ⟨m.merged, m.right, m.left⟩ n).trans (swap _).symm)

theorem resultSame (m : Merging α) (d : Direction) : (m.result d).Perm m.items := by
  have front : (m.merged.reverse ++ (m.left ++ m.right)).Perm m.items :=
    (List.reverse_perm _).append_right _
  cases d with
  | forward =>
    rw [result, List.append_assoc]
    exact (List.perm_append_comm.append_left _).trans front
  | backward =>
    rw [result, List.append_assoc]
    exact (List.reverse_perm _).trans front

/-- A merge that goes on, with nothing lost; it is settled or has come nearer to it. -/
structure Follows (less : α → α → Except ε Bool) (bad : ε → Prop) (d : Direction)
    (m next : Merging α) : Prop where
  sound : next.Sound less bad d
  same : next.items.Perm m.items
  nearer : next.isSettled d = true ∨ next.size < m.size

theorem takeLeftSize (m : Merging α) (n : Nat) : (m.takeLeft n).size ≤ m.size := by
  simp [size, takeLeft]

theorem takeRightSize (m : Merging α) (n : Nat) : (m.takeRight n).size ≤ m.size := by
  simp [size, takeRight]

theorem unsettledSome (unsettled : m.isSettled d = false) : m.left ≠ [] ∧ m.right ≠ [] := by
  constructor <;> intro none <;> cases d <;> simp [isSettled, none] at unsettled

variable (trans : Transitive less)
include trans

theorem leapYields (sound : m.Sound less bad d) (unsettled : m.isSettled d = false) :
    Yields (fun leapt => m.Follows less bad d leapt.2) bad (m.leap less d) := by
  obtain ⟨merged, left, right⟩ := m
  cases right with
  | nil => exact absurd rfl (unsettledSome unsettled).2
  | cons y ys =>
  have told : ∀ x ∈ left, Told less bad x y := fun x member => sound.told x member y (by simp)
  refine (countLeftYields trans sound.leftOrdered told).bind ?_
  intro lefts splits
  have first := takeLeftSound sound (n := lefts) (fun x member =>
    aheadAll trans (splits.ahead x member) sound.rightOrdered)
  have firstSame := takeLeftSame ⟨merged, left, y :: ys⟩ lefts
  dsimp only
  split
  · next settled => exact .ok ⟨first, firstSame, .inl settled⟩
  have second := takeRightSound first (n := 1) (fun z member x later => by
    rw [List.mem_singleton.mp member]
    exact splits.behind x later)
  have secondSame := (takeRightSame _ 1).trans firstSame
  have nearer : (((Merging.mk merged left (y :: ys)).takeLeft lefts).takeRight 1).size <
      (Merging.mk merged left (y :: ys)).size := by
    simp [size, takeLeft, takeRight]
    omega
  generalize ((Merging.mk merged left (y :: ys)).takeLeft lefts).takeRight 1 = m
    at second secondSame nearer ⊢
  split
  · next x rest unsettled run =>
    have told : ∀ z ∈ m.right, Told less bad x z := fun z member =>
      second.told x (by simp [run]) z member
    refine (countRightYields trans second.rightOrdered told).bind ?_
    intro rights splits
    have ordered := second.leftOrdered
    rw [run] at ordered
    have third := takeRightSound second (n := rights) (fun z member => by
      rw [run]
      exact aheadAll trans (splits.ahead z member) ordered)
    have thirdSame := (takeRightSame m rights).trans secondSame
    have thirdNearer := Nat.lt_of_le_of_lt (takeRightSize m rights) nearer
    refine .ok ?_
    split
    · exact ⟨third, thirdSame, .inr thirdNearer⟩
    · refine ⟨takeLeftSound third ?_, (takeLeftSame _ 1).trans thirdSame,
        .inr (Nat.lt_of_le_of_lt (takeLeftSize _ 1) thirdNearer)⟩
      intro z member
      have same : z = x := by simpa [takeRight, run] using member
      rw [same]
      exact splits.behind
  · exact .ok ⟨second, secondSame, .inr nearer⟩

theorem mergeFromYields {steps patience : Nat} {pace : Pace} (sound : m.Sound less bad d)
    (enough : m.size ≤ steps) :
    Yields (Sorts less m.items ·.2) bad (mergeFrom less d steps patience pace m) := by
  have done : ∀ {m : Merging α} {patience : Nat}, m.Sound less bad d → m.isSettled d = true →
      Yields (Sorts less m.items ·.2) bad (.ok (patience, m.result d)) :=
    fun sound settled => .ok ⟨resultOrdered sound settled, resultSame _ d⟩
  induction steps generalizing patience pace m with
  | zero =>
    refine done sound ?_
    have none : m.left = [] ∧ m.right = [] := by simpa [size] using enough
    cases d <;> simp [isSettled, none]
  | succ steps ih =>
    have goes : ∀ {next : Merging α} {patience : Nat} {pace : Pace}, next.Sound less bad d →
        next.items.Perm m.items → next.size < m.size →
        Yields (Sorts less m.items ·.2) bad (mergeFrom less d steps patience pace next) := by
      intro next patience pace sound same nearer
      exact (ih sound (by omega)).imp fun _ sorts => sorts.perm same
    unfold mergeFrom
    split
    · next settled => exact done sound settled
    · next unsettled =>
      have unsettled : m.isSettled d = false := by simpa using unsettled
      split
      · split
        · next x xs y ys leftRun rightRun =>
          refine (takesLeftYields (sound.told x (by simp [leftRun]) y (by simp [rightRun]))).bind ?_
          intro taken ahead
          have left := sound.leftOrdered
          have right := sound.rightOrdered
          rw [leftRun] at left
          rw [rightRun] at right
          cases taken with
          | true =>
            refine goes (takeLeftSound sound (n := 1) ?_) (takeLeftSame m 1) ?_
            · rw [leftRun, rightRun]
              simpa using aheadAll trans ahead right
            · simp [size, takeLeft, leftRun]
          | false =>
            refine goes (takeRightSound sound (n := 1) ?_) (takeRightSame m 1) ?_
            · rw [leftRun, rightRun]
              simpa using aheadAll trans ahead left
            · simp [size, takeRight, rightRun]
        · next some =>
          obtain ⟨left, right⟩ := unsettledSome unsettled
          obtain ⟨x, xs, leftRun⟩ := List.exists_cons_of_ne_nil left
          obtain ⟨y, ys, rightRun⟩ := List.exists_cons_of_ne_nil right
          exact absurd rightRun (some x xs y ys leftRun)
      · refine (leapYields trans sound unsettled).bind ?_
        rintro ⟨longest, next⟩ follows
        dsimp only
        split
        · next settled =>
          exact .ok ⟨resultOrdered follows.sound settled, (resultSame _ d).trans follows.same⟩
        · next going =>
          have nearer := follows.nearer.resolve_left going
          split
          · exact goes follows.sound follows.same nearer
          · exact goes follows.sound follows.same nearer

end Merging

/-! Whole runs. -/

theorem headOfTake {xs : List α} {z : α} (member : z ∈ xs.take 1) : z ∈ xs.head? := by
  cases xs with
  | nil => simp at member
  | cons x xs => simpa [eq_comm] using member

theorem beforeLast {xs : List α} {x : α} (ordered : xs.Pairwise (Before less))
    (last : xs.getLast? = some x) : ∀ z ∈ xs, z = x ∨ Before less z x := by
  obtain ⟨front, rfl⟩ := List.getLast?_eq_some_iff.mp last
  intro z member
  rcases List.mem_append.mp member with early | single
  · exact .inr ((List.pairwise_append.mp ordered).2.2 z early x (by simp))
  · exact .inl (List.mem_singleton.mp single)

section
variable (trans : Transitive less) {left right : List α} {patience : Nat}
  (leftOrdered : left.Pairwise (Before less)) (rightOrdered : right.Pairwise (Before less))
  (told : ∀ x ∈ left, ∀ y ∈ right, Told less bad x y)
include trans leftOrdered rightOrdered told

theorem mergeTrimmedYields (first : ∀ y ∈ right.head?, ∀ x ∈ left, Before less y x)
    (last : ∀ x ∈ left.getLast?, ∀ y ∈ right, Before less y x) :
    Yields (Sorts less (left ++ right) ·.2) bad (mergeTrimmed less patience left right) := by
  unfold mergeTrimmed
  dsimp only
  split
  · have sound : (Merging.start .forward left right).Sound less bad .forward :=
      ⟨leftOrdered, rightOrdered, told, last⟩
    have trimmed := Merging.takeRightSound sound (n := 1) (fun y member => first y (headOfTake member))
    exact (Merging.mergeFromYields trans trimmed (Merging.takeRightSize _ 1)).imp
      fun _ sorts => sorts.perm (Merging.takeRightSame _ 1)
  · have sound : (Merging.start .backward left right).Sound less bad .backward :=
      ⟨List.pairwise_reverse.mpr leftOrdered, List.pairwise_reverse.mpr rightOrdered,
        by simpa [Merging.start] using told, by simpa [Merging.start, Merging.Closes, Ahead] using first⟩
    have trimmed := Merging.takeLeftSound sound (n := 1) (fun x member => by
      have outermost := headOfTake member
      rw [Merging.start, List.head?_reverse] at outermost
      simpa [Merging.start, Ahead] using last x outermost)
    have small := Merging.takeLeftSize (.start .backward left right) 1
    have same : (Merging.start .backward left right).items.Perm (left ++ right) :=
      (List.reverse_perm left).append (List.reverse_perm right)
    exact (Merging.mergeFromYields trans trimmed (by simpa [Merging.start, Merging.size] using small)).imp
      fun _ sorts => sorts.perm ((Merging.takeLeftSame _ 1).trans same)

theorem mergeRunsYields :
    Yields (Sorts less (left ++ right) ·.2) bad (mergeRuns less patience left right) := by
  cases right with
  | nil => exact .ok ⟨leftOrdered, by simp⟩
  | cons y ys =>
  have toldFirst : ∀ x ∈ left, Told less bad x y := fun x member => told x member y (by simp)
  refine (countLeftYields (d := .forward) trans leftOrdered toldFirst).bind ?_
  rintro ahead ⟨before, after⟩
  -- what the count leaves in place goes before all of the right run
  have frontRight : ∀ z ∈ left.take ahead, ∀ w ∈ y :: ys, Before less z w := fun z member =>
    aheadAll (d := .forward) trans (before z member) rightOrdered
  have whole := List.take_append_drop ahead left
  generalize left.take ahead = front at whole before frontRight ⊢
  generalize left.drop ahead = back at whole after ⊢
  subst left
  obtain ⟨frontOrdered, backOrdered, frontBack⟩ := List.pairwise_append.mp leftOrdered
  split
  · next none =>
    rw [List.getLast?_eq_none_iff.mp none, List.append_nil]
    exact .ok ⟨List.pairwise_append.mpr ⟨frontOrdered, rightOrdered, frontRight⟩, .refl _⟩
  next x last =>
  have toldLast : ∀ w ∈ y :: ys, Told less bad x w :=
    told x (List.mem_append_right _ (List.mem_of_getLast? last))
  refine (countRightYields (d := .backward) trans (List.pairwise_reverse.mpr rightOrdered)
    (fun w member => toldLast w (List.mem_reverse.mp member))).bind ?_
  rintro behind ⟨above, below⟩
  rw [List.take_reverse] at above
  rw [List.drop_reverse] at below
  dsimp only
  generalize (y :: ys).length - behind = mixed at above below ⊢
  -- the items behind were counted against the last one of the left run, which goes after the others
  have backAbove : ∀ z ∈ back, ∀ w ∈ (y :: ys).drop mixed, Before less z w := by
    intro z member w later
    have next : Before less x w := above w (List.mem_reverse.mpr later)
    rcases beforeLast backOrdered last z member with rfl | early
    · exact next
    · exact trans early next
  split
  · next none =>
    subst none
    refine .ok ⟨List.pairwise_append.mpr ⟨leftOrdered, rightOrdered, ?_⟩, .refl _⟩
    intro z member
    exact (List.mem_append.mp member).elim (frontRight z) (backAbove z)
  · next some =>
    have middleOrdered := rightOrdered.sublist (List.take_sublist mixed (y :: ys))
    have rightWhole := List.take_append_drop mixed (y :: ys)
    rw [← rightWhole] at rightOrdered
    obtain ⟨_, restOrdered, middleRest⟩ := List.pairwise_append.mp rightOrdered
    refine (mergeTrimmedYields trans backOrdered middleOrdered
      (fun z member w early =>
        told z (List.mem_append_right _ member) w (List.mem_of_mem_take early))
      (fun w outermost z member => ?_) (fun z outermost w early => ?_)).bind ?_
    · rw [List.head?_take, if_neg some] at outermost
      cases outermost
      exact after z member
    · cases last.symm.trans outermost
      exact below w (List.mem_reverse.mpr early)
    · rintro ⟨patience, merged⟩ sorts
      have middle := (orderedSorts frontOrdered).append sorts fun z member w later =>
        (List.mem_append.mp later).elim (frontBack z member w)
          (fun early => frontRight z member w (List.mem_of_mem_take early))
      have all := middle.append (orderedSorts restOrdered) fun z member w later => by
        rcases List.mem_append.mp member with front | inside
        · exact frontRight z front w (List.mem_of_mem_drop later)
        · exact (List.mem_append.mp inside).elim (fun inside => backAbove z inside w later)
            (fun inside => middleRest z inside w later)
      rw [← List.append_assoc, List.append_assoc, rightWhole] at all
      exact .ok all

end

end SelectorRank.Sorting
