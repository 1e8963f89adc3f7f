import SelectorRank.Datum
import SelectorRank.Parse

/-! Outlines of selectors: a heading, then one line for each token, indented by its depth. -/
namespace SelectorRank

def indent (depth : Nat) : String := String.ofList (List.replicate (2 * depth) ' ')

def Namespace.details : Namespace → List String
  | .unspecified => []
  | .named name => ["ns=" ++ Text.quoted name]
  | .any => ["ns=" ++ Text.quoted "*"]

def Bucket.details : Option Bucket → List String
  | none => []
  | some bucket => ["[" ++ bucket.letter ++ "]"]

def Simple.details : Simple → List String
  | .universal space => space.details
  | .element name space => space.details ++ [Text.quoted name]
  | .id name => [Text.quoted name]
  | .className name => [Text.quoted name]
  | .attribute name space => space.details ++ [Text.quoted name]
  | .attributeValue name operator value space =>
      space.details ++ [Text.quoted name, operator.symbol ++ " " ++ Text.quoted value]
  | .pseudoElement name => [Text.quoted name]
  | .pseudoClass name none => [Text.quoted name]
  | .pseudoClass name (some argument) => [Text.quoted name, argument.datum.shown]

def outlineLine (depth : Nat) (kind : String) (details : List String) : String :=
  String.intercalate " " ((indent depth ++ kind) :: details) ++ "\n"

mutual

def Token.outline (depth : Nat) : Token → String
  | .combinator value => outlineLine depth (Datum.combinator value).kind []
  | .simple selector bucket =>
      outlineLine depth (selector.datum bucket).kind (selector.details ++ Bucket.details bucket)
  | .negation _ body bucket =>
      outlineLine depth "NegationSelector" (Bucket.details bucket) ++ outlineAll (depth + 1) body

def outlineAll (depth : Nat) : List Token → String
  | [] => ""
  | t :: ts => t.outline depth ++ outlineAll depth ts

end

def Selector.outline (s : Selector) : String :=
  "Selector " ++ Text.quoted s.text ++ " specificity=" ++ s.specificity.text ++ "\n" ++
    outlineAll 1 s.tokens

def outlines (selectors : List Selector) : String := String.join (selectors.map Selector.outline)

end SelectorRank
