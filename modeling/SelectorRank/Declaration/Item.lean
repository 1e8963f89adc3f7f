import SelectorRank.Failure

/-! What may be given where a declaration is wanted. -/
namespace SelectorRank

/-- Values of options. Of an object that is no datum it is known whether it holds, and its text and
how it is shown, if they can be written. -/
inductive OptionValue where
  | origin (o : Origin)
  | selector (s : Selector)
  | datum (d : Datum)
  | object (holds : Bool) (text shown : Option String)

namespace OptionValue

def givenOrigin : OptionValue → GivenOrigin
  | .origin o => .known o
  | .selector s => .object s.text?
  | .datum d => .ofDatum d
  | .object _ text _ => .object text

/-- No object is a truth value, but a number holds where the object does. -/
def importance : OptionValue → Datum
  | .origin _ => .integer 1
  | .selector _ => .integer 1
  | .datum d => d
  | .object holds _ _ => .integer (if holds then 1 else 0)

def shown? : OptionValue → Option String
  | .origin o => some (Datum.member "Origin" o.memberName o.word)
  | .selector s => s.shown?
  | .datum d => if d.isShowable then some d.shown else none
  | .object _ _ shown => shown

end OptionValue

inductive Item where
  | declaration (d : Declaration)
  | selector (s : Selector)
  | config (options : List (String × OptionValue))
  | other (d : Datum)

def declarationKind : String := "PropertyTest"

def Item.kind : Item → String
  | .declaration _ => declarationKind
  | .selector _ => "Selector"
  | .config _ => "dict"
  | .other d => d.kind

def optionNames : List String := ["origin", "important", "selector"]

def unknownOptions (options : List (String × OptionValue)) : List String :=
  ((options.map (·.1)).filter (fun name => !optionNames.contains name)).mergeSort (· ≤ ·)

def matchOf : Option OptionValue → Except Failure Match
  | none => .ok .nothing
  | some (.selector s) => .ok (.selector s)
  | some (.datum .null) => .ok .nothing
  | some (.datum (.text source)) => (parseSingle source).map .selector
  | some value =>
      .error (match value.shown? with
        | some shown => .notSelector shown
        | none => .render .longInteger)

def Declaration.ofOptions (options : List (String × OptionValue)) :
    Except Failure Declaration := do
  match unknownOptions options with
  | [] =>
      let matched ← matchOf (options.lookup "selector")
      let origin := ((options.lookup "origin").map (·.givenOrigin)).getD (.known .inline)
      let important := ((options.lookup "important").map (·.importance)).getD (.bool false)
      .ok ⟨origin, important, matched⟩
  | names => .error (.state (.unknownOptions names))

def Item.coerce : Item → Except Failure Declaration
  | .declaration d => .ok d
  | .selector s => .ok (.ofSelector s)
  | .config options => Declaration.ofOptions options
  | .other (.mapping entries) =>
      Declaration.ofOptions (entries.map (fun e => (e.1, .datum e.2)))
  | .other d => .error (.notDeclaration d.kind)

def Item.compare : Item → Item → Except Failure Ordering
  | .declaration x, .declaration y => (x.compare y).mapError WeightFault.failure
  | x, y => .error (.incomparable x.kind y.kind)

end SelectorRank
