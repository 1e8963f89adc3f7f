import SelectorRank.Datum.Render
import SelectorRank.Outline

/-! Outlines of tokens that were never checked. -/
namespace SelectorRank
namespace Datum

def display (d : Datum) : Except RenderFault String := d.ifShowable (.ok d.shown)

def spaceDetails : Datum → Except RenderFault (List String)
  | .null => .ok []
  | .anyNamespace => .ok ["ns=" ++ Text.quoted "*"]
  | space => do
      let shown ← space.display
      .ok ["ns=" ++ shown]

def nameDetails (name : Datum) : Except RenderFault (List String) := name.display.map ([·])

def valueDetails (operator value : Datum) : Except RenderFault (List String) := do
  let symbol ← operator.symbol
  let shown ← value.display
  .ok [String.ofList symbol ++ " " ++ shown]

def argumentDetails : Datum → Except RenderFault (List String)
  | .null => .ok []
  | argument => argument.display.map ([·])

def bucketDetails : Datum → Except RenderFault (List String)
  | .null => .ok []
  | bucket => do
      let letter ← bucket.symbol
      .ok ["[" ++ String.ofList letter ++ "]"]

def details : Datum → Except RenderFault (List String)
  | .universal space _ => space.spaceDetails
  | .element name space _ => do
      let space ← space.spaceDetails
      let name ← name.nameDetails
      .ok (space ++ name)
  | .id name _ => name.nameDetails
  | .className name _ => name.nameDetails
  | .attribute name space _ => do
      let space ← space.spaceDetails
      let name ← name.nameDetails
      .ok (space ++ name)
  | .attributeValue name operator value space _ => do
      let space ← space.spaceDetails
      let name ← name.nameDetails
      let comparison ← valueDetails operator value
      .ok (space ++ name ++ comparison)
  | .pseudoElement name _ => name.nameDetails
  | .pseudoClass name argument _ => do
      let name ← name.nameDetails
      let argument ← argument.argumentDetails
      .ok (name ++ argument)
  | .negation _ _ => .ok []
  | other => .error (.noColumn other.kind)

def strippedLine (depth : Nat) (kind : String) (details : List String) : String :=
  let line := indent depth ++ kind ++ " " ++ String.intercalate " " details
  String.ofList (Text.trimRight Text.isBlank line.toList) ++ "\n"

def tokenLine (depth : Nat) (token : Datum) : Except RenderFault String :=
  match token with
  | .combinator _ => .ok (indent depth ++ token.kind ++ "\n")
  | _ => do
      let details ← token.details
      let column ← token.statedBucket.bucketDetails
      .ok (strippedLine depth token.kind (details ++ column))

mutual

def tokenOutline (depth : Nat) : Datum → Except RenderFault String
  | .negation body bucket => do
      let line ← tokenLine depth (.negation body bucket)
      let inner ← sequenceOutline (depth + 1) body
      .ok (line ++ inner)
  | other => tokenLine depth other

def sequenceOutline (depth : Nat) : Datum → Except RenderFault String
  | .list items => allOutlines depth items
  | .tuple items => allOutlines depth items
  | .text value => if value = "" then .ok "" else .error (.noColumn (Datum.text value).kind)
  | .mapping entries =>
      if entries.isEmpty then .ok "" else .error (.noColumn (Datum.text "").kind)
  | other => .error (.notSequence other.kind)

def allOutlines (depth : Nat) : List Datum → Except RenderFault String
  | [] => .ok ""
  | d :: ds => do
      let first ← tokenOutline depth d
      let rest ← allOutlines depth ds
      .ok (first ++ rest)

end

def outline (tokens : Datum) : Except RenderFault String := do
  let specificity ← tokens.tally
  let text ← tokens.render
  let lines ← tokens.sequenceOutline 1
  .ok ("Selector " ++ Text.quoted text ++ " specificity=" ++ specificity.text ++ "\n" ++ lines)

end Datum

end SelectorRank
