import SelectorRank.Datum.Check
import SelectorRank.Specificity
import SelectorRank.Token.Text

/-! Canonical text and specificity of tokens that were never checked. Fields of a wrong kind are
written as running text where they can be. -/
namespace SelectorRank

inductive RenderFault where
  | unknownToken (token : Datum)
  | unknownArgument (argument : Datum)
  | notSequence (kind : String)
  | notText (kind : String)
  | notOrdered (kind : String)
  | mutableKey (kind : String)
  | noSymbol (kind : String)
  | noColumn (kind : String)
  | unknownColumn (bucket : Datum)
  | longInteger

def RenderFault.message : RenderFault → String
  | .unknownToken token => "cannot serialize unknown selector token: " ++ token.shown
  | .unknownArgument argument => "cannot serialize pseudo-class expression: " ++ argument.shown
  | .notSequence kind => Text.quoted kind ++ " object is not iterable"
  | .notText kind => "can only concatenate str (not \"" ++ kind ++ "\") to str"
  | .notOrdered kind =>
      "\x27>\x27 not supported between instances of " ++ Text.quoted kind ++ " and \x27int\x27"
  | .mutableKey kind => "unhashable type: " ++ Text.quoted kind
  | .noSymbol kind => Text.quoted kind ++ " object has no attribute \x27value\x27"
  | .noColumn kind => Text.quoted kind ++ " object has no attribute \x27specificity_type\x27"
  | .unknownColumn bucket => bucket.shown
  | .longInteger => Text.numeralFault

namespace Datum

mutual

/-- Whether all integers of a datum can be written. -/
def isShowable : Datum → Bool
  | .integer value => (Text.natural value.natAbs).length ≤ Text.numeralLimit
  | .list items => areShowable items
  | .tuple items => areShowable items
  | .mapping entries => entriesShowable entries
  | .universal space bucket => space.isShowable && bucket.isShowable
  | .element name space bucket => name.isShowable && space.isShowable && bucket.isShowable
  | .id name bucket => name.isShowable && bucket.isShowable
  | .className name bucket => name.isShowable && bucket.isShowable
  | .attribute name space bucket => name.isShowable && space.isShowable && bucket.isShowable
  | .attributeValue name operator value space bucket =>
      name.isShowable && operator.isShowable && value.isShowable && space.isShowable &&
        bucket.isShowable
  | .pseudoElement name bucket => name.isShowable && bucket.isShowable
  | .pseudoClass name argument bucket =>
      name.isShowable && argument.isShowable && bucket.isShowable
  | .negation body bucket => body.isShowable && bucket.isShowable
  | .identifierArgument value => value.isShowable
  | .stringArgument value => value.isShowable
  | .parityArgument value => value.isShowable
  | .seriesArgument step offset => step.isShowable && offset.isShowable
  | _ => true

def areShowable : List Datum → Bool
  | [] => true
  | d :: ds => d.isShowable && areShowable ds

def entriesShowable : List (String × Datum) → Bool
  | [] => true
  | (_, value) :: rest => value.isShowable && entriesShowable rest

end

def ifShowable {α : Type} (d : Datum) (result : Except RenderFault α) : Except RenderFault α :=
  if d.isShowable then result else .error .longInteger

def running (d : Datum) : Except RenderFault (List Char) := d.ifShowable (.ok d.asText.toList)

def spelled (d : Datum) : List Char := Spelling.identifier d.asText.toList

def spelledString (d : Datum) : List Char := Spelling.string d.asText.toList

def spacePrefix : Datum → List Char
  | .anyNamespace => ['*', '|']
  | .text name => Spelling.identifier name.toList ++ ['|']
  | _ => []

def symbol : Datum → Except RenderFault (List Char)
  | .operatorMember operator => .ok operator.symbol.toList
  | .bucketMember bucket => .ok bucket.letter.toList
  | .anyNamespace => .ok ['*']
  | .identifierArgument value => value.running
  | .stringArgument value => value.running
  | .parityArgument value => value.running
  | .attributeValue _ _ value _ _ => value.running
  | other => .error (.noSymbol other.kind)

def equalsInteger (d : Datum) (k : Int) : Bool :=
  match d with
  | .integer value => value = k
  | .bool value => (if value then 1 else 0) = k
  | .float value => value == Float.ofInt k
  | _ => false

def isPositive : Datum → Except RenderFault Bool
  | .integer value => .ok (0 < value)
  | .bool value => .ok value
  | .float value => .ok (0 < value)
  | other => .error (.notOrdered other.kind)

def stepChars (d : Datum) : Except RenderFault (List Char) :=
  if d.equalsInteger 1 then .ok ['n']
  else if d.equalsInteger (-1) then .ok ['-', 'n']
  else if d.equalsInteger 0 then .ok []
  else d.running.map (· ++ ['n'])

def seriesChars (step offset : Datum) : Except RenderFault (List Char) := do
  let term ← step.stepChars
  if offset.equalsInteger 0 && term ≠ [] then .ok term
  else do
    let positive ← offset.isPositive
    let rest ← offset.running
    if positive && term ≠ [] then .ok (term ++ '+' :: rest)
    else .ok (term ++ rest)

def argumentChars : Datum → Except RenderFault (List Char)
  | .identifierArgument value => value.ifShowable (.ok value.spelled)
  | .stringArgument value => value.ifShowable (.ok value.spelledString)
  | .parityArgument value => value.running
  | .seriesArgument step offset => seriesChars step offset
  | other => other.ifShowable (.error (.unknownArgument other))

def nameChars : Datum → Except RenderFault (List Char)
  | .text name => .ok name.toList
  | other => .error (.notText other.kind)

def simpleChars : Datum → Except RenderFault (List Char)
  | .combinator value => .ok value.chars
  | .universal space _ => .ok (space.spacePrefix ++ ['*'])
  | .element name space _ => do
      let name ← name.ifShowable (.ok name.spelled)
      .ok (space.spacePrefix ++ name)
  | .id name _ => do
      let name ← name.ifShowable (.ok name.spelled)
      .ok ('#' :: name)
  | .className name _ => do
      let name ← name.ifShowable (.ok name.spelled)
      .ok ('.' :: name)
  | .attribute name space _ => do
      let name ← name.ifShowable (.ok name.spelled)
      .ok ('[' :: space.spacePrefix ++ name ++ [']'])
  | .attributeValue name operator value space _ => do
      let name ← name.ifShowable (.ok name.spelled)
      let symbol ← operator.symbol
      let value ← value.ifShowable (.ok value.spelledString)
      .ok ('[' :: space.spacePrefix ++ name ++ symbol ++ value ++ [']'])
  | .pseudoElement name _ => do
      let name ← name.nameChars
      .ok (':' :: ':' :: name)
  | .pseudoClass name .null _ => do
      let name ← name.nameChars
      .ok (':' :: name)
  | .pseudoClass name argument _ => do
      let name ← name.running
      let argument ← argument.argumentChars
      .ok (':' :: name ++ '(' :: argument ++ [')'])
  | other => other.ifShowable (.error (.unknownToken other))

mutual

def tokenChars : Datum → Except RenderFault (List Char)
  | .negation body _ => do
      let inner ← sequenceChars body
      .ok ([':', 'n', 'o', 't', '('] ++ inner ++ [')'])
  | other => simpleChars other

def sequenceChars : Datum → Except RenderFault (List Char)
  | .list items => allChars items
  | .tuple items => allChars items
  | .text value =>
      match value.toList with
      | [] => .ok []
      | c :: _ => .error (.unknownToken (.text (String.singleton c)))
  | .mapping [] => .ok []
  | .mapping ((key, _) :: _) => .error (.unknownToken (.text key))
  | other => .error (.notSequence other.kind)

def allChars : List Datum → Except RenderFault (List Char)
  | [] => .ok []
  | d :: ds => do
      let first ← tokenChars d
      let rest ← allChars ds
      .ok (first ++ rest)

end

def render (d : Datum) : Except RenderFault String := (sequenceChars d).map String.ofList

def statedBucket : Datum → Datum
  | .universal _ bucket => bucket
  | .element _ _ bucket => bucket
  | .id _ bucket => bucket
  | .className _ bucket => bucket
  | .attribute _ _ bucket => bucket
  | .attributeValue _ _ _ _ bucket => bucket
  | .pseudoElement _ bucket => bucket
  | .pseudoClass _ _ bucket => bucket
  | .negation _ bucket => bucket
  | _ => .null

def counted (bucket : Datum) : Except RenderFault Specificity :=
  match bucket.mutableKind? with
  | some kind => .error (.mutableKey kind)
  | none =>
    match bucket with
    | .bucketMember value => .ok (.ofBucket value)
    | other => .error (.unknownColumn other)

mutual

def tallyToken : Datum → Except RenderFault Specificity
  | .negation body .null => tally body
  | d =>
      match d.statedBucket with
      | .null => .ok .zero
      | bucket => counted bucket

def tally : Datum → Except RenderFault Specificity
  | .list items => tallyAll items
  | .tuple items => tallyAll items
  | .text _ => .ok .zero
  | .mapping _ => .ok .zero
  | other => .error (.notSequence other.kind)

def tallyAll : List Datum → Except RenderFault Specificity
  | [] => .ok .zero
  | d :: ds => do
      let first ← tallyToken d
      let rest ← tallyAll ds
      .ok (first.add rest)

end

end Datum

end SelectorRank
