import SelectorRank.Decimal.Shortest
import SelectorRank.Text.Quoted
import SelectorRank.Token

/-! Data that nobody has checked yet: plain values, and tokens whose fields may hold anything. -/
namespace SelectorRank

inductive Datum where
  | null
  | bool (value : Bool)
  | integer (value : Int)
  | float (value : Float)
  | text (value : String)
  | list (items : List Datum)
  | tuple (items : List Datum)
  | mapping (entries : List (String × Datum))
  | bucketMember (value : Bucket)
  | operatorMember (value : AttributeOperator)
  | anyNamespace
  | universal (space bucket : Datum)
  | element (name space bucket : Datum)
  | id (name bucket : Datum)
  | className (name bucket : Datum)
  | attribute (name space bucket : Datum)
  | attributeValue (name operator value space bucket : Datum)
  | pseudoElement (name bucket : Datum)
  | pseudoClass (name argument bucket : Datum)
  | negation (body bucket : Datum)
  | combinator (value : Combinator)
  | identifierArgument (value : Datum)
  | stringArgument (value : Datum)
  | parityArgument (value : Datum)
  | seriesArgument (step offset : Datum)

namespace Datum

def insertEntry (key : String) (value : Datum) : List (String × Datum) → List (String × Datum)
  | [] => [(key, value)]
  | (k, v) :: rest =>
      if k = key then (k, value) :: rest else (k, v) :: insertEntry key value rest

def ofEntries (entries : List (String × Datum)) : Datum :=
  .mapping (entries.foldl (fun m e => insertEntry e.1 e.2 m) [])

def kind : Datum → String
  | .null => "NoneType"
  | .bool _ => "bool"
  | .integer _ => "int"
  | .float _ => "float"
  | .text _ => "str"
  | .list _ => "list"
  | .tuple _ => "tuple"
  | .mapping _ => "dict"
  | .bucketMember _ => "SpecificityType"
  | .operatorMember _ => "AttributeOperator"
  | .anyNamespace => "Wildcard"
  | .universal .. => "UniversalSelector"
  | .element .. => "TypeSelector"
  | .id .. => "IdSelector"
  | .className .. => "ClassSelector"
  | .attribute .. => "AttributePresenceSelector"
  | .attributeValue .. => "AttributeValueSelector"
  | .pseudoElement .. => "PseudoElementSelector"
  | .pseudoClass .. => "PseudoClassSelector"
  | .negation .. => "NegationSelector"
  | .combinator .descendant => "DescendantCombinator"
  | .combinator .child => "ChildCombinator"
  | .combinator .adjacent => "AdjacentSiblingCombinator"
  | .combinator .sibling => "GeneralSiblingCombinator"
  | .identifierArgument _ => "Identity"
  | .stringArgument _ => "StringValue"
  | .parityArgument _ => "NthKeyword"
  | .seriesArgument .. => "NthFormula"

def memberName : AttributeOperator → String
  | .equals => "EQUALS"
  | .includes => "INCLUDES"
  | .dashMatch => "DASH_MATCH"
  | .prefixMatch => "PREFIX"
  | .suffixMatch => "SUFFIX"
  | .substring => "SUBSTRING"

def member (set name value : String) : String :=
  "<" ++ set ++ "." ++ name ++ ": " ++ Text.quoted value ++ ">"

def fields (kind : String) (shown : List (String × String)) : String :=
  kind ++ "(" ++ String.intercalate ", " (shown.map (fun f => f.1 ++ "=" ++ f.2)) ++ ")"

mutual

def shown : Datum → String
  | .null => "None"
  | .bool true => "True"
  | .bool false => "False"
  | .integer value => String.ofList (Text.integer value)
  | .float value => Decimal.float value
  | .text value => Text.quoted value
  | .list items => Text.listed (shownAll items)
  | .tuple items => Text.tupled (shownAll items)
  | .mapping entries => Text.braced (shownEntries entries)
  | .bucketMember value => member "SpecificityType" value.letter.capitalize value.letter
  | .operatorMember value => member "AttributeOperator" (memberName value) value.symbol
  | .anyNamespace => member "Wildcard" "ANY" "*"
  | .universal space bucket =>
      fields "UniversalSelector" [("namespace", space.shown), ("specificity_type", bucket.shown)]
  | .element name space bucket =>
      fields "TypeSelector" [("name", name.shown), ("namespace", space.shown),
        ("specificity_type", bucket.shown)]
  | .id name bucket =>
      fields "IdSelector" [("name", name.shown), ("specificity_type", bucket.shown)]
  | .className name bucket =>
      fields "ClassSelector" [("name", name.shown), ("specificity_type", bucket.shown)]
  | .attribute name space bucket =>
      fields "AttributePresenceSelector" [("name", name.shown), ("namespace", space.shown),
        ("specificity_type", bucket.shown)]
  | .attributeValue name operator value space bucket =>
      fields "AttributeValueSelector" [("name", name.shown), ("operator", operator.shown),
        ("value", value.shown), ("namespace", space.shown), ("specificity_type", bucket.shown)]
  | .pseudoElement name bucket =>
      fields "PseudoElementSelector" [("name", name.shown), ("specificity_type", bucket.shown)]
  | .pseudoClass name argument bucket =>
      fields "PseudoClassSelector" [("name", name.shown), ("expression", argument.shown),
        ("specificity_type", bucket.shown)]
  | .negation body bucket =>
      fields "NegationSelector" [("tokens", body.shown), ("specificity_type", bucket.shown)]
  | .combinator value => fields (Datum.combinator value).kind []
  | .identifierArgument value => fields "Identity" [("value", value.shown)]
  | .stringArgument value => fields "StringValue" [("value", value.shown)]
  | .parityArgument value => fields "NthKeyword" [("value", value.shown)]
  | .seriesArgument step offset => fields "NthFormula" [("a", step.shown), ("b", offset.shown)]

def shownAll : List Datum → List String
  | [] => []
  | d :: ds => d.shown :: shownAll ds

def shownEntries : List (String × Datum) → List (String × String)
  | [] => []
  | (key, value) :: rest => (key, value.shown) :: shownEntries rest

end

/-- A text stands for itself, a member of a closed set for its full name, and all else is shown. -/
def asText : Datum → String
  | .text value => value
  | .bucketMember value => "SpecificityType." ++ value.letter.capitalize
  | .operatorMember value => "AttributeOperator." ++ memberName value
  | .anyNamespace => "Wildcard.ANY"
  | d => d.shown

def field? (key : String) (entries : List (String × Datum)) : Option Datum := entries.lookup key

def fieldOr (key : String) (entries : List (String × Datum)) : Datum :=
  (field? key entries).getD .null

end Datum

def Bucket.datum? : Option Bucket → Datum
  | none => .null
  | some value => .bucketMember value

def Namespace.datum : Namespace → Datum
  | .unspecified => .null
  | .named name => .text name
  | .any => .anyNamespace

def Argument.datum : Argument → Datum
  | .identifier value => .identifierArgument (.text value)
  | .string value => .stringArgument (.text value)
  | .parity value => .parityArgument (.text value.word)
  | .series value => .seriesArgument (.integer value.step) (.integer value.offset)

def Argument.datum? : Option Argument → Datum
  | none => .null
  | some argument => argument.datum

def Simple.datum (bucket : Option Bucket) : Simple → Datum
  | .universal space => .universal space.datum (Bucket.datum? bucket)
  | .element name space => .element (.text name) space.datum (Bucket.datum? bucket)
  | .id name => .id (.text name) (Bucket.datum? bucket)
  | .className name => .className (.text name) (Bucket.datum? bucket)
  | .attribute name space => .attribute (.text name) space.datum (Bucket.datum? bucket)
  | .attributeValue name operator value space =>
      .attributeValue (.text name) (.operatorMember operator) (.text value) space.datum
        (Bucket.datum? bucket)
  | .pseudoElement name => .pseudoElement (.text name) (Bucket.datum? bucket)
  | .pseudoClass name argument =>
      .pseudoClass (.text name) (Argument.datum? argument) (Bucket.datum? bucket)

def BodyForm.datum : BodyForm → List Datum → Datum
  | .tuple, items => .tuple items
  | .list, items => .list items

mutual

def Token.datum : Token → Datum
  | .simple selector bucket => selector.datum bucket
  | .negation form body bucket => .negation (form.datum (tokenData body)) (Bucket.datum? bucket)
  | .combinator value => .combinator value

def tokenData : List Token → List Datum
  | [] => []
  | t :: ts => t.datum :: tokenData ts

end

end SelectorRank
