import SelectorRank.Spelling
import SelectorRank.Token

/-! Canonical text of token sequences. Names of pseudo-classes and pseudo-elements are written as
they stand; every other name and value is spelled with escapes. -/
namespace SelectorRank

def Combinator.chars : Combinator → List Char
  | .descendant => [' ']
  | .child => [' ', '>', ' ']
  | .adjacent => [' ', '+', ' ']
  | .sibling => [' ', '~', ' ']

def Namespace.chars : Namespace → List Char
  | .unspecified => []
  | .named name => Spelling.identifier name.toList ++ ['|']
  | .any => ['*', '|']

def Argument.chars : Argument → List Char
  | .identifier value => Spelling.identifier value.toList
  | .string value => Spelling.string value.toList
  | .parity value => value.word.toList
  | .series value => value.text

def Simple.chars : Simple → List Char
  | .universal space => space.chars ++ ['*']
  | .element name space => space.chars ++ Spelling.identifier name.toList
  | .id name => '#' :: Spelling.identifier name.toList
  | .className name => '.' :: Spelling.identifier name.toList
  | .attribute name space => '[' :: space.chars ++ Spelling.identifier name.toList ++ [']']
  | .attributeValue name operator value space =>
      '[' :: space.chars ++ Spelling.identifier name.toList ++ operator.symbol.toList ++
        Spelling.string value.toList ++ [']']
  | .pseudoElement name => ':' :: ':' :: name.toList
  | .pseudoClass name none => ':' :: name.toList
  | .pseudoClass name (some argument) => ':' :: name.toList ++ '(' :: argument.chars ++ [')']

mutual

def Token.chars : Token → List Char
  | .simple selector _ => selector.chars
  | .negation _ body _ => [':', 'n', 'o', 't', '('] ++ charsOf body ++ [')']
  | .combinator combinator => combinator.chars

def charsOf : List Token → List Char
  | [] => []
  | t :: ts => t.chars ++ charsOf ts

end

def canonicalText (tokens : List Token) : String := String.ofList (charsOf tokens)

def Simple.isWritable : Simple → Bool
  | .pseudoClass _ (some (.series value)) => value.isWritable
  | _ => true

mutual

def Token.isWritable : Token → Bool
  | .simple selector _ => selector.isWritable
  | .negation _ body _ => areWritable body
  | .combinator _ => true

def areWritable : List Token → Bool
  | [] => true
  | t :: ts => t.isWritable && areWritable ts

end

def writeTokens (tokens : List Token) : Option String :=
  if areWritable tokens then some (canonicalText tokens) else none

end SelectorRank
