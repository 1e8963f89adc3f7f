import SelectorRank.Datum.Render
import SelectorRank.Parse

/-! Declarations as the cascade sees them. Those that make no sense are told only when their weight
is asked for. -/
namespace SelectorRank

inductive Origin where
  | inline | author | user | userAgent
  deriving DecidableEq, Repr

def Origin.word : Origin → String
  | .inline => "inline"
  | .author => "author"
  | .user => "user"
  | .userAgent => "userAgent"

def Origin.memberName : Origin → String
  | .inline => "INLINE"
  | .author => "AUTHOR"
  | .user => "USER"
  | .userAgent => "USER_AGENT"

def Origin.ofWord? : String → Option Origin
  | "inline" => some .inline
  | "author" => some .author
  | "user" => some .user
  | "userAgent" => some .userAgent
  | _ => none

/-- Origins, and all else that may be given for one. Of an object that is no datum only its text is
known, if it has one that can be written. -/
inductive GivenOrigin where
  | known (origin : Origin)
  | unknown (given : Datum)
  | object (text : Option String)

def GivenOrigin.ofDatum (d : Datum) : GivenOrigin :=
  match d with
  | .text word =>
      match Origin.ofWord? word with
      | some origin => .known origin
      | none => .unknown d
  | _ => .unknown d

def GivenOrigin.name? : GivenOrigin → Option String
  | .known origin => some origin.word
  | .unknown given => if given.isShowable then some given.asText else none
  | .object text => text

inductive Match where
  | nothing
  | selector (s : Selector)
  | other (kind : String)

def Match.isNothing : Match → Bool
  | .nothing => true
  | _ => false

structure Declaration where
  origin : GivenOrigin
  important : Datum
  matched : Match

inductive Precedence where
  | userImportant | authorImportant | authorNormal | userNormal | userAgent
  deriving DecidableEq, Repr

def Precedence.rank : Precedence → Nat
  | .userImportant => 0
  | .authorImportant => 1
  | .authorNormal => 2
  | .userNormal => 3
  | .userAgent => 4

inductive StateFault where
  | unknownOptions (names : List String)
  | inconsistent (origin : String) (selector : Bool)
  | unknownOrigin (origin : String)
  deriving DecidableEq, Repr

def StateFault.message : StateFault → String
  | .unknownOptions names =>
      "unknown property test options: " ++ String.intercalate ", " names
  | .inconsistent origin selector =>
      "invalid property test: origin " ++ Text.quoted origin ++
        (if selector then " with" else " without") ++ " a selector"
  | .unknownOrigin origin => "invalid origin type: " ++ Text.quoted origin

inductive WeightFault where
  | state (f : StateFault)
  | longInteger
  deriving DecidableEq, Repr

def WeightFault.message : WeightFault → String
  | .state f => f.message
  | .longInteger => Text.numeralFault

def GivenOrigin.fault (origin : GivenOrigin) (tell : String → StateFault) : WeightFault :=
  match origin.name? with
  | some name => .state (tell name)
  | none => .longInteger

inductive TextFault where
  | noText (kind : String)
  | longInteger
  deriving DecidableEq, Repr

def TextFault.message : TextFault → String
  | .noText kind => Text.quoted kind ++ " object has no attribute \x27to_string\x27"
  | .longInteger => Text.numeralFault

def Datum.isTruthy : Datum → Bool
  | .null => false
  | .bool value => value
  | .integer value => value ≠ 0
  | .float value => !(value == 0)
  | .text value => value ≠ ""
  | .list items => !items.isEmpty
  | .tuple items => !items.isEmpty
  | .mapping entries => !entries.isEmpty
  | _ => true

namespace Declaration

def isImportant (d : Declaration) : Bool :=
  match d.important with
  | .bool value => value
  | _ => false

def specificity (d : Declaration) : Except WeightFault Specificity :=
  match d.origin, d.matched with
  | .known .inline, .nothing => .ok .inline
  | .known .author, .selector s => .ok s.specificity
  | .known .user, .selector s => .ok s.specificity
  | .known .userAgent, .selector s => .ok s.specificity
  | origin, matched => .error (origin.fault (.inconsistent · (!matched.isNothing)))

def precedence (d : Declaration) : Except WeightFault Precedence :=
  match d.origin with
  | .known .userAgent => .ok .userAgent
  | .known .inline => .ok (if d.isImportant then .authorImportant else .authorNormal)
  | .known .author => .ok (if d.isImportant then .authorImportant else .authorNormal)
  | .known .user => .ok (if d.isImportant then .userImportant else .userNormal)
  | origin => .error (origin.fault .unknownOrigin)

/-- Less means that the first declaration wins. -/
def compare (x y : Declaration) : Except WeightFault Ordering := do
  let xLevel ← x.precedence
  let yLevel ← y.precedence
  if xLevel.rank < yLevel.rank then .ok .lt
  else if yLevel.rank < xLevel.rank then .ok .gt
  else do
    let xWeight ← x.specificity
    let yWeight ← y.specificity
    if xWeight.outranks yWeight then .ok .lt
    else if yWeight.outranks xWeight then .ok .gt
    else .ok .eq

def ofSelector (s : Selector) : Declaration := ⟨.known .author, .bool false, .selector s⟩

def writable {α : Type} (written : Option α) : Except TextFault α :=
  written.elim (.error .longInteger) .ok

def shown (d : Declaration) : Except TextFault String := do
  let origin ← writable d.origin.name?
  let important := if d.important.isTruthy then ", important=True" else ""
  let selector ← match d.matched with
    | .nothing => .ok ""
    | .selector s => (writable s.text?).map (fun text => ", selector=" ++ Text.quoted text)
    | .other kind => .error (.noText kind)
  .ok ("PropertyTest(origin=" ++ Text.quoted origin ++ important ++ selector ++ ")")

end Declaration

end SelectorRank
