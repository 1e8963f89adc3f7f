import SelectorRank.Datum.Fault
import SelectorRank.Datum.Render
import SelectorRank.Declaration

/-! All that can go wrong when selectors and declarations are made, compared and written. -/
namespace SelectorRank

inductive Failure where
  | parse (f : ParseFailure)
  | token (f : TokenFault)
  | render (f : RenderFault)
  | state (f : StateFault)
  | text (f : TextFault)
  | notSingle (count : Nat) (source : String)
  | notSelector (given : String)
  | notDeclaration (kind : String)
  | incomparable (left right : String)

def longNumeral (digits : Nat) : String :=
  "Exceeds the limit (4300 digits) for integer string conversion: value has " ++
    String.ofList (Text.natural digits) ++
    " digits; use sys.set_int_max_str_digits() to increase the limit"

def ParseFailure.message : ParseFailure → String
  | .rejected c => c.report unnamedSource
  | .longOffset digits => longNumeral digits

def Failure.message : Failure → String
  | .parse f => f.message
  | .token f => f.message
  | .render f => f.message
  | .state f => f.message
  | .text f => f.message
  | .notSingle count source =>
      "expected a single selector, got " ++ String.ofList (Text.natural count) ++ ": " ++
        Text.quoted source
  | .notSelector given => "selector must be a Selector or text, got " ++ given
  | .notDeclaration kind => "expected PropertyTest, Selector, or mapping, got " ++ kind
  | .incomparable left right =>
      "compare() expects two PropertyTest objects, got " ++ left ++ " and " ++ right

def WeightFault.failure : WeightFault → Failure
  | .state f => .state f
  | .longInteger => .render .longInteger

def parseSingle (source : String) : Except Failure Selector :=
  match parseList source with
  | .error f => .error (.parse f)
  | .ok [s] => .ok s
  | .ok list => .error (.notSingle list.length source)

end SelectorRank
