import SelectorRank.Datum.Check

/-! Loading tokens from plain data. A token is built with its fields as they are given, then
checked. -/
namespace SelectorRank
namespace Datum

def combinatorOfTag? : String → Option Combinator
  | "descendantCombinator" => some .descendant
  | "childCombinator" => some .child
  | "adjacentSiblingCombinator" => some .adjacent
  | "generalSiblingCombinator" => some .sibling
  | _ => none

def required (tag key : String) (item : List (String × Datum)) : Except TokenFault Datum :=
  match fieldOr key item with
  | .null => .error (.missingField tag key)
  | value => .ok value

/-- The stated column, or the usual one. A stated null means no column. -/
def loadBucket (usual : Option Bucket) (item : List (String × Datum)) :
    Except TokenFault Datum :=
  match field? "specificityType" item with
  | none => .ok (Bucket.datum? usual)
  | some .null => .ok .null
  | some (.text letter) =>
      match Bucket.ofLetter? letter with
      | some bucket => .ok (.bucketMember bucket)
      | none => .error (.unknownBucket (.text letter))
  | some (.bucketMember bucket) => .ok (.bucketMember bucket)
  | some other => .error (.unknownBucket other)

def loadNamespace (item : List (String × Datum)) : Except TokenFault Datum :=
  match fieldOr "namespace" item with
  | .null => .ok .null
  | .bool true => .ok .anyNamespace
  | .text name => .ok (if name = "*" then .anyNamespace else .text name)
  | other => .error (.unknownNamespace other)

def loadOperator (d : Datum) : Except TokenFault Datum :=
  match d with
  | .text symbol =>
      match AttributeOperator.ofSymbol? symbol with
      | some operator => .ok (.operatorMember operator)
      | none => .error (.unknownOperator d)
  | .operatorMember operator => .ok (.operatorMember operator)
  | _ => .error (.unknownOperator d)

def loadSeries (value : Datum) : Except TokenFault Datum :=
  match value with
  | .mapping entries => .ok (.seriesArgument (fieldOr "a" entries) (fieldOr "b" entries))
  | .list [step, offset] => .ok (.seriesArgument step offset)
  | .tuple [step, offset] => .ok (.seriesArgument step offset)
  | _ => .error (.malformedSeries value)

def loadArgument (d : Datum) : Except TokenFault Datum :=
  match d with
  | .null => .ok .null
  | .mapping entries =>
      let value := fieldOr "parsed" entries
      match fieldOr "kind" entries with
      | .text "identity" => .ok (.identifierArgument value)
      | .text "string" => .ok (.stringArgument value)
      | .text "nthKeyword" => .ok (.parityArgument value)
      | .text "nthFormula" => loadSeries value
      | kind => .error (.unknownArgumentKind kind)
  | _ => .error (.argumentNotMapping d)

def usualBucket? : String → Option (Option Bucket)
  | "universalSelector" => some none
  | "typeSelector" => some (some .d)
  | "idSelector" => some (some .b)
  | "classSelector" => some (some .c)
  | "attributePresenceSelector" => some (some .c)
  | "attributeValueSelector" => some (some .c)
  | "pseudoElementSelector" => some (some .d)
  | "pseudoClassSelector" => some (some .c)
  | "negationSelector" => some none
  | _ => none

def loadSimple (tag : String) (bucket : Datum) (item : List (String × Datum)) :
    Except TokenFault Datum :=
  match tag with
  | "universalSelector" => do
      let space ← loadNamespace item
      .ok (.universal space bucket)
  | "typeSelector" => do
      let name ← required tag "name" item
      let space ← loadNamespace item
      .ok (.element name space bucket)
  | "idSelector" => do
      let name ← required tag "name" item
      .ok (.id name bucket)
  | "classSelector" => do
      let name ← required tag "name" item
      .ok (.className name bucket)
  | "attributePresenceSelector" => do
      let name ← required tag "name" item
      let space ← loadNamespace item
      .ok (.attribute name space bucket)
  | "attributeValueSelector" => do
      let operator ← required tag "operator" item
      let operator ← loadOperator operator
      let name ← required tag "name" item
      let value ← required tag "value" item
      let space ← loadNamespace item
      .ok (.attributeValue name operator value space bucket)
  | "pseudoElementSelector" => do
      let name ← required tag "name" item
      .ok (.pseudoElement name bucket)
  | "pseudoClassSelector" => do
      let name ← required tag "name" item
      let argument ← loadArgument (fieldOr "expression" item)
      .ok (.pseudoClass name argument bucket)
  | _ => .error (.unknownTag tag)

mutual

def load : Datum → Except TokenFault (List Token)
  | .list items =>
      if items.isEmpty then .error .noMappings else do
        let tokens ← loadAll items
        check (.list tokens)
  | .tuple items =>
      if items.isEmpty then .error .noMappings else do
        let tokens ← loadAll items
        check (.list tokens)
  | _ => .error .noMappings

def loadAll : List Datum → Except TokenFault (List Datum)
  | [] => .ok []
  | d :: ds => do
      let token ← loadToken d
      let tokens ← loadAll ds
      .ok (token :: tokens)

/-- The column is read before the tag is known to be one. -/
def loadToken : Datum → Except TokenFault Datum
  | .mapping item =>
      match fieldOr "type" item with
      | .text tag =>
          match combinatorOfTag? tag with
          | some value => .ok (.combinator value)
          | none => do
              let bucket ← loadBucket ((usualBucket? tag).getD none) item
              if tag = "negationSelector" then do
                let body ← loadBody item
                .ok (.negation (.tuple (tokenData body)) bucket)
              else loadSimple tag bucket item
      | _ => .error (.missingTag (.mapping item))
  | other => .error (.notMapping other)

def loadBody : List (String × Datum) → Except TokenFault (List Token)
  | [] => .error .noMappings
  | (key, value) :: rest => if key = "tokens" then load value else loadBody rest

end

end Datum

end SelectorRank
