import SelectorRank.Datum.Fault

/-! Checking tokens. The first fault in the order of the fields is the one that is told. -/
namespace SelectorRank
namespace Datum

mutual

/-- The kind of the first container that can change, which bars a datum from look-ups. -/
def mutableKind? : Datum → Option String
  | .list _ => some "list"
  | .mapping _ => some "dict"
  | .tuple items => mutableAmong? items
  | .universal space bucket => space.mutableKind? <|> bucket.mutableKind?
  | .element name space bucket =>
      name.mutableKind? <|> space.mutableKind? <|> bucket.mutableKind?
  | .id name bucket => name.mutableKind? <|> bucket.mutableKind?
  | .className name bucket => name.mutableKind? <|> bucket.mutableKind?
  | .attribute name space bucket =>
      name.mutableKind? <|> space.mutableKind? <|> bucket.mutableKind?
  | .attributeValue name operator value space bucket =>
      name.mutableKind? <|> operator.mutableKind? <|> value.mutableKind? <|>
        space.mutableKind? <|> bucket.mutableKind?
  | .pseudoElement name bucket => name.mutableKind? <|> bucket.mutableKind?
  | .pseudoClass name argument bucket =>
      name.mutableKind? <|> argument.mutableKind? <|> bucket.mutableKind?
  | .negation body bucket => body.mutableKind? <|> bucket.mutableKind?
  | .identifierArgument value => value.mutableKind?
  | .stringArgument value => value.mutableKind?
  | .parityArgument value => value.mutableKind?
  | .seriesArgument step offset => step.mutableKind? <|> offset.mutableKind?
  | _ => none

def mutableAmong? : List Datum → Option String
  | [] => none
  | d :: ds => d.mutableKind? <|> mutableAmong? ds

end

def checkBucket (token : Datum) : Datum → Except TokenFault (Option Bucket)
  | .null => .ok none
  | .bucketMember bucket => .ok (some bucket)
  | other => .error (.badBucket other token)

def checkName (token : Datum) : Datum → Except TokenFault String
  | .text name => if name = "" then .error (.missingName token.kind) else .ok name
  | _ => .error (.missingName token.kind)

def checkNamespace (token : Datum) : Datum → Except TokenFault Namespace
  | .null => .ok .unspecified
  | .text name => .ok (.named name)
  | .anyNamespace => .ok .any
  | other => .error (.badNamespace other token)

def checkOperator : Datum → Except TokenFault AttributeOperator
  | .operatorMember operator => .ok operator
  | other => .error (.badOperator other)

def checkValue : Datum → Except TokenFault String
  | .text value => .ok value
  | other => .error (.badValue other)

def checkParity (value : Datum) : Except TokenFault Parity :=
  match value.mutableKind? with
  | some kind => .error (.mutableKey kind)
  | none =>
    match value with
    | .text word =>
        match Parity.ofWord? word with
        | some parity => .ok parity
        | none => .error (.unknownParity value)
    | _ => .error (.unknownParity value)

def checkArgument : Datum → Except TokenFault (Option Argument)
  | .null => .ok none
  | .seriesArgument (.integer step) (.integer offset) => .ok (some (.series ⟨step, offset⟩))
  | .seriesArgument step offset => .error (.badSeries (.seriesArgument step offset))
  | .parityArgument value => (checkParity value).map (some ∘ .parity)
  | .identifierArgument (.text value) =>
      if value = "" then .error .emptyIdentifier else .ok (some (.identifier value))
  | .stringArgument (.text value) => .ok (some (.string value))
  | .identifierArgument value => .error (.badArgumentValue (.identifierArgument value))
  | .stringArgument value => .error (.badArgumentValue (.stringArgument value))
  | other => .error (.unknownArgument other)

def checkSimple (token : Datum) : Except TokenFault Token :=
  match token with
  | .universal space bucket => do
      let bucket ← checkBucket token bucket
      let space ← checkNamespace token space
      .ok (.simple (.universal space) bucket)
  | .element name space bucket => do
      let bucket ← checkBucket token bucket
      let name ← checkName token name
      let space ← checkNamespace token space
      .ok (.simple (.element name space) bucket)
  | .id name bucket => do
      let bucket ← checkBucket token bucket
      let name ← checkName token name
      .ok (.simple (.id name) bucket)
  | .className name bucket => do
      let bucket ← checkBucket token bucket
      let name ← checkName token name
      .ok (.simple (.className name) bucket)
  | .attribute name space bucket => do
      let bucket ← checkBucket token bucket
      let name ← checkName token name
      let space ← checkNamespace token space
      .ok (.simple (.attribute name space) bucket)
  | .attributeValue name operator value space bucket => do
      let bucket ← checkBucket token bucket
      let name ← checkName token name
      let space ← checkNamespace token space
      let operator ← checkOperator operator
      let value ← checkValue value
      .ok (.simple (.attributeValue name operator value space) bucket)
  | .pseudoElement name bucket => do
      let bucket ← checkBucket token bucket
      let name ← checkName token name
      .ok (.simple (.pseudoElement name) bucket)
  | .pseudoClass name argument bucket => do
      let bucket ← checkBucket token bucket
      let name ← checkName token name
      let argument ← checkArgument argument
      .ok (.simple (.pseudoClass name argument) bucket)
  | .combinator value => .ok (.combinator value)
  | other => .error (.unknownToken other)

mutual

def checkToken : Datum → Except TokenFault Token
  | .negation body bucket => do
      let column ← checkBucket (.negation body bucket) bucket
      let (form, tokens) ← checkBody body
      .ok (.negation form tokens column)
  | other => checkSimple other

def checkBody : Datum → Except TokenFault (BodyForm × List Token)
  | .list items =>
      if items.isEmpty then .error .noTokens else do
        let tokens ← checkAll items
        .ok (.list, tokens)
  | .tuple items =>
      if items.isEmpty then .error .noTokens else do
        let tokens ← checkAll items
        .ok (.tuple, tokens)
  | _ => .error .noTokens

def checkAll : List Datum → Except TokenFault (List Token)
  | [] => .ok []
  | d :: ds => do
      let token ← checkToken d
      let tokens ← checkAll ds
      .ok (token :: tokens)

end

def check (d : Datum) : Except TokenFault (List Token) := (checkBody d).map (·.2)

end Datum

end SelectorRank
