import SelectorRank.Grammar.Tree

/-! Reasons to reject selector text. The place of a fault is read back from its message. -/
namespace SelectorRank

inductive Expected where
  | selector
  | ident
  | identOrStar
  | bar
  | operator
  | value
  | closeBracket
  | closeParen
  | argument
  deriving DecidableEq, Repr

def Expected.phrase : Expected → String
  | .selector => "Expected selector"
  | .ident => "Expected ident"
  | .identOrStar => "Expected ident or \x27*\x27"
  | .bar => "Expected \x27|\x27"
  | .operator => "Operator expected"
  | .value => "Expected string or ident"
  | .closeBracket => "Expected \x27]\x27"
  | .closeParen => "Expected \x27)\x27"
  | .argument => "Expected an argument"

inductive GrammarFault where
  | lexical (f : LexicalFault)
  | expected (what : Expected) (got : Lexeme)
  | misplacedPseudoElement (p : PseudoElement)
  | pseudoElementInNegation (p : PseudoElement) (start : Nat)
  | pseudoElementInFunction (p : PseudoElement)
  | misplacedScope
  | negationInList
  | nestedNegation
  deriving DecidableEq, Repr

def GrammarFault.message : GrammarFault → String
  | .lexical f => f.message
  | .expected what got => what.phrase ++ ", got " ++ got.text
  | .misplacedPseudoElement p =>
      "Got pseudo-element ::" ++ p.text ++ " not at the end of a selector"
  | .pseudoElementInNegation p start =>
      "Got pseudo-element ::" ++ p.text ++ " inside :not() at " ++
        String.ofList (Text.natural start)
  | .pseudoElementInFunction p => "Got pseudo-element ::" ++ p.text ++ " inside function"
  | .misplacedScope => "Got pseudo-class \":scope\" not at the start of a selector"
  | .negationInList => ":not() is not supported inside :is(), :where() and :matches()"
  | .nestedNegation => "Got nested :not()"

inductive ConversionFault where
  | functionalPseudoElement (name : String)
  | construct (c : Compound)
  | namelessAttribute
  | operator (symbol : String)
  | series (name : String) (words : List Word)
  | arguments (name : String)

def ConversionFault.message : ConversionFault → String
  | .functionalPseudoElement name => "unsupported functional pseudo-element ::" ++ name ++ "()"
  | .construct c => "unsupported selector construct: " ++ c.text
  | .namelessAttribute => "attribute selector is missing its name"
  | .operator symbol => "unsupported attribute operator " ++ Text.quoted symbol
  | .series name words =>
      "invalid :" ++ name ++ "() argument " ++ Text.quoted (String.join (words.map Word.value))
  | .arguments name => "unsupported argument to :" ++ name ++ "()"

end SelectorRank
