import SelectorRank.Datum.Check
import SelectorRank.Declaration.Order

/-! Selectors and declarations that are kept and shared. A declaration refers to its selector, so it
sees every later change of it. -/
namespace SelectorRank
open Text

def Selector.kept (s : Selector) : Selector := { s with cached := s.text? }

inductive Handle where
  | selector (number : Nat)
  | declaration (number : Nat)
  deriving DecidableEq, Repr

structure Entry where
  origin : GivenOrigin
  important : Datum
  selector : Option Handle

structure Store where
  selectors : List Selector
  entries : List Entry

namespace Store

def empty : Store := ⟨[], []⟩

def construct (s : Store) (data : Datum) : Except TokenFault (Store × Handle) := do
  let tokens ← data.check
  .ok ({ s with selectors := s.selectors ++ [.ofTokens tokens] }, .selector s.selectors.length)

def setTokens (s : Store) (number : Nat) (data : Datum) : Except TokenFault Store := do
  let tokens ← data.check
  .ok { s with selectors := s.selectors.set number (.ofTokens tokens) }

def declare (s : Store) (entry : Entry) : Store × Handle :=
  ({ s with entries := s.entries ++ [entry] }, .declaration s.entries.length)

def keep (s : Store) (number : Nat) : Store :=
  { s with selectors := s.selectors.modify number Selector.kept }

def written? (s : Store) : Handle → Option Nat
  | .selector number => some number
  | .declaration number =>
      match (s.entries[number]?.filter (·.origin.name?.isSome)).bind (·.selector) with
      | some (.selector n) => some n
      | _ => none

def keepShown (s : Store) (h : Handle) : Store :=
  match s.written? h with
  | some number => s.keep number
  | none => s

def matchedBy (s : Store) (reference : Option Handle) : Match :=
  match reference with
  | none => .nothing
  | some (.selector number) =>
      match s.selectors[number]? with
      | some selector => .selector selector
      | none => .nothing
  | some (.declaration _) => .other declarationKind

def resolve (s : Store) (e : Entry) : Declaration :=
  ⟨e.origin, e.important, s.matchedBy e.selector⟩

def item? (s : Store) : Handle → Option Item
  | .selector number => s.selectors[number]?.map .selector
  | .declaration number => s.entries[number]?.map (fun e => .declaration (s.resolve e))

def entry? (s : Store) : Handle → Option Entry
  | .selector number => some ⟨.known .author, .bool false, some (.selector number)⟩
  | .declaration number => s.entries[number]?

/-- What a declaration is ranked by. Kept texts have no part in it. -/
def weighed (s : Store) (e : Entry) : Declaration :=
  match s.matchedBy e.selector with
  | .selector selector => ⟨e.origin, e.important, .selector { selector with cached := none }⟩
  | other => ⟨e.origin, e.important, other⟩

def rank (s : Store) (entries : List Entry) : Except WeightFault (List Nat) :=
  (rankDeclarations (entries.map s.weighed)).map (List.map Prod.fst)

def equalHandles (s : Store) : Handle → Handle → Bool
  | .selector x, .selector y => (s.selectors[x]?.map (·.tokens)) = (s.selectors[y]?.map (·.tokens))
  | .declaration x, .declaration y => x = y
  | _, _ => false

end Store

inductive Operation where
  | construct (data : Datum)
  | setTokens (number : Nat) (data : Datum)
  | declare (entry : Entry)
  | tokens (number : Nat)
  | write (number : Nat)
  | show (h : Handle)
  | weigh (h : Handle)
  | level (number : Nat)
  | equal (x y : Handle)
  | compare (x y : Handle)
  | sort (items : List Handle)

inductive Observation where
  | made (h : Handle)
  | done
  | refused (f : TokenFault)
  | tokens (list : List Token)
  | text (written : Option String)
  | weight (s : Specificity)
  | level (p : Precedence)
  | truth (value : Bool)
  | order (o : Ordering)
  | places (list : List Nat)
  | failed (f : Failure)
  | unknown

namespace Observation

def ofOption (o : Option Observation) : Observation := o.getD .unknown

def ofExcept {α : Type} (tell : α → Observation) : Except Failure α → Observation
  | .ok value => tell value
  | .error f => .failed f

def ofShown (d : Declaration) : Observation :=
  ofExcept (fun text => .text (some text)) (d.shown.mapError .text)

def ofWeight (d : Declaration) : Observation :=
  ofExcept .weight (d.specificity.mapError WeightFault.failure)

def ofLevel (d : Declaration) : Observation :=
  ofExcept .level (d.precedence.mapError WeightFault.failure)

end Observation

namespace Store

def shown (s : Store) : Handle → Option Observation
  | .selector number => s.selectors[number]?.map (fun x => .text x.shown?)
  | .declaration number => s.entries[number]?.map (fun e => .ofShown (s.resolve e))

def weight (s : Store) : Handle → Option Observation
  | .selector number => s.selectors[number]?.map (fun x => .weight x.specificity)
  | .declaration number => s.entries[number]?.map (fun e => .ofWeight (s.resolve e))

def level (s : Store) (number : Nat) : Option Observation :=
  s.entries[number]?.map (fun e => .ofLevel (s.resolve e))

def compared (s : Store) (x y : Handle) : Option Observation := do
  let p ← s.item? x
  let q ← s.item? y
  some (.ofExcept .order (p.compare q))

def sorted (s : Store) (items : List Handle) : Option Observation := do
  let entries ← items.mapM s.entry?
  some (.ofExcept .places ((s.rank entries).mapError WeightFault.failure))

def step (s : Store) : Operation → Store × Observation
  | .construct data =>
      match s.construct data with
      | .ok (after, h) => (after, .made h)
      | .error f => (s, .refused f)
  | .setTokens number data =>
      match s.setTokens number data with
      | .ok after => (after, .done)
      | .error f => (s, .refused f)
  | .declare entry =>
      let (after, h) := s.declare entry
      (after, .made h)
  | .tokens number => (s, .ofOption (s.selectors[number]?.map (fun x => .tokens x.tokens)))
  | .write number => (s.keep number, .ofOption (s.selectors[number]?.map (fun x => .text x.text?)))
  | .show h => (s.keepShown h, .ofOption (s.shown h))
  | .weigh h => (s, .ofOption (s.weight h))
  | .level number => (s, .ofOption (s.level number))
  | .equal x y => (s, .truth (s.equalHandles x y))
  | .compare x y => (s, .ofOption (s.compared x y))
  | .sort items => (s, .ofOption (s.sorted items))

def after (s : Store) (ops : List Operation) : Store := ops.foldl (fun s op => (s.step op).1) s

def observe (s : Store) : List Operation → List Observation
  | [] => []
  | op :: ops => (s.step op).2 :: (s.step op).1.observe ops

end Store

end SelectorRank
