import SelectorRank.Datum

/-! Reasons to reject data that should describe tokens. -/
namespace SelectorRank

inductive TokenFault where
  | noTokens
  | unknownToken (token : Datum)
  | badBucket (bucket token : Datum)
  | missingName (kind : String)
  | badNamespace (space token : Datum)
  | badOperator (operator : Datum)
  | badValue (value : Datum)
  | badSeries (argument : Datum)
  | unknownParity (value : Datum)
  | badArgumentValue (argument : Datum)
  | emptyIdentifier
  | unknownArgument (argument : Datum)
  | mutableKey (kind : String)
  | noMappings
  | notMapping (item : Datum)
  | missingTag (item : Datum)
  | unknownTag (tag : String)
  | missingField (tag key : String)
  | unknownOperator (operator : Datum)
  | unknownBucket (bucket : Datum)
  | unknownNamespace (space : Datum)
  | argumentNotMapping (argument : Datum)
  | malformedSeries (value : Datum)
  | unknownArgumentKind (kind : Datum)

def TokenFault.message : TokenFault → String
  | .noTokens => "expected a non-empty sequence of selector tokens"
  | .unknownToken token => "unknown selector token: " ++ token.shown
  | .badBucket bucket token =>
      "invalid specificity type " ++ bucket.shown ++ " on " ++ token.shown
  | .missingName kind => "missing name on " ++ kind
  | .badNamespace space token => "invalid namespace " ++ space.shown ++ " on " ++ token.shown
  | .badOperator operator => "invalid attribute operator " ++ operator.shown
  | .badValue value => "attribute value must be a string, got " ++ value.shown
  | .badSeries argument => "nth formula coefficients must be integers: " ++ argument.shown
  | .unknownParity value => "unknown nth keyword: " ++ value.shown
  | .badArgumentValue argument => "expression value must be a string: " ++ argument.shown
  | .emptyIdentifier => "identifier expression must not be empty"
  | .unknownArgument argument => "unknown pseudo-class expression: " ++ argument.shown
  | .mutableKey kind => "unhashable type: " ++ Text.quoted kind
  | .noMappings => "expected a non-empty list of token mappings"
  | .notMapping item => "token must be a mapping, got " ++ item.shown
  | .missingTag item => "token is missing its type tag: " ++ item.shown
  | .unknownTag tag => "unknown token type: " ++ Text.quoted tag
  | .missingField tag key => tag ++ " token is missing required field " ++ Text.quoted key
  | .unknownOperator operator => "unknown attribute operator: " ++ operator.shown
  | .unknownBucket bucket => "unknown specificity type: " ++ bucket.shown
  | .unknownNamespace space => "invalid namespace: " ++ space.shown
  | .argumentNotMapping argument =>
      "pseudo-class expression must be a mapping, got " ++ argument.shown
  | .malformedSeries value => "nth formula must be \x7ba, b\x7d, got " ++ value.shown
  | .unknownArgumentKind kind => "unknown pseudo-class expression kind: " ++ kind.shown

end SelectorRank
