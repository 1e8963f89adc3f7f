import SelectorRank.Grammar.Selector
import SelectorRank.Series

/-! Flattening written selectors into tokens. The universal selector is written out only where
nothing else stands in its compound or it has a namespace. -/
namespace SelectorRank

def Namespace.ofWritten : Option String → Namespace
  | none => .unspecified
  | some name => if name = "*" then .any else .named name

def isCounting (name : String) : Bool :=
  name = "nth-child" || name = "nth-last-child" || name = "nth-of-type" ||
    name = "nth-last-of-type"

def Word.isString : Word → Bool
  | .string _ => true
  | _ => false

def seriesOf? (words : List Word) : Option Series :=
  if words.any Word.isString then none
  else Series.ofText? (words.flatMap (fun w => w.value.toList))

def parityOf? : List Word → Option Parity
  | [.ident value] => Parity.ofWord? (lowered value)
  | _ => none

def argumentOf (name : String) (words : List Word) : Except ConversionFault Argument :=
  if isCounting name then
    match parityOf? words with
    | some parity => .ok (.parity parity)
    | none =>
      match seriesOf? words with
      | some series => .ok (.series series)
      | none => .error (.series name words)
  else match words with
    | [.ident value] => .ok (.identifier value)
    | [.string value] => .ok (.string value)
    | _ => .error (.arguments name)

def AttributeTest.token (t : AttributeTest) : Except ConversionFault Token :=
  match t.name with
  | none => .error .namelessAttribute
  | some name =>
    let space := Namespace.ofWritten t.space
    match t.comparison with
    | none => .ok (.usual (.attribute name space))
    | some c =>
      match AttributeOperator.ofSymbol? c.operator with
      | some operator => .ok (.usual (.attributeValue name operator c.value space))
      | none => .error (.operator c.operator)

def Part.isSupported : Part → Bool
  | .matching _ => false
  | .adjustment _ => false
  | .relation _ => false
  | _ => true

def Compound.unsupported? : Compound → Option Compound
  | .element .. => none
  | .qualified base part =>
      if part.isSupported then base.unsupported? else some (.qualified base part)

def elementTokens (alone : Bool) (space name : Option String) : List Token :=
  match name with
  | some name => [.usual (.element name (.ofWritten space))]
  | none =>
      if alone || space.isSome then [.usual (.universal (.ofWritten space))] else []

mutual

def Complex.tokens : Complex → Except ConversionFault (List Token)
  | .compound c => c.tokens true
  | .combined left combinator right => do
      let before ← left.tokens
      let after ← right.tokens true
      .ok (before ++ .combinator combinator :: after)

def Compound.tokens (whole : Bool) : Compound → Except ConversionFault (List Token)
  | .element space name => .ok (elementTokens whole space name)
  | .qualified base part =>
      match if whole then (Compound.qualified base part).unsupported? else none with
      | some c => .error (.construct c)
      | none => do
          let before ← base.tokens false
          let token ← part.token
          .ok (before ++ [token])

def Part.token : Part → Except ConversionFault Token
  | .id name => .ok (.usual (.id name))
  | .className name => .ok (.usual (.className name))
  | .attribute test => test.token
  | .pseudo name => .ok (.usual (.pseudoClass name none))
  | .function name words => do
      let argument ← argumentOf name words
      .ok (.usual (.pseudoClass name (some argument)))
  | .negation body => do
      let tokens ← body.tokens
      .ok (.not tokens)
  | .matching options => .error (.construct (.qualified (.element none none) (.matching options)))
  | .adjustment options =>
      .error (.construct (.qualified (.element none none) (.adjustment options)))
  | .relation arguments =>
      .error (.construct (.qualified (.element none none) (.relation arguments)))

end

def withPseudoElement (tokens : List Token) (name : String) : List Token :=
  (if tokens.getLast? = some (.usual (.universal .unspecified)) then tokens.dropLast else tokens) ++
    [.usual (.pseudoElement name)]

def Written.tokens (w : Written) : Except ConversionFault (List Token) := do
  let tokens ← w.selector.tokens
  match w.pseudoElement with
  | none => .ok tokens
  | some (.plain name) => .ok (withPseudoElement tokens name)
  | some (.functional name _) => .error (.functionalPseudoElement name)

end SelectorRank
