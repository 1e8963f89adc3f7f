import SelectorRank.Grammar.Conversion
import SelectorRank.Source.Excerpt
import SelectorRank.Specificity
import SelectorRank.Token.Text

/-! Selectors from text. The whole list is read before any of it is converted. -/
namespace SelectorRank
open Text

structure Selector where
  tokens : List Token
  specificity : Specificity
  cached : Option String
  deriving DecidableEq, Repr

def Selector.ofTokens (tokens : List Token) : Selector := ⟨tokens, specificityOf tokens, none⟩

def Selector.text (s : Selector) : String := s.cached.getD (canonicalText s.tokens)

def Selector.text? (s : Selector) : Option String :=
  match s.cached with
  | some text => some text
  | none => writeTokens s.tokens

def Selector.shown? (s : Selector) : Option String :=
  s.text?.map (fun text => "Selector(" ++ quoted text ++ ")")

def placeDigits? (cs : List Char) : Option (List Nat) :=
  match cs.dropWhile isDigit with
  | '>' :: _ =>
      match (cs.takeWhile isDigit).filterMap digitValue? with
      | [] => none
      | ds => some ds
  | _ => none

/-- The first place that a message names, wherever in the message it stands. -/
def findPlace? : List Char → Option (List Nat)
  | [] => none
  | c :: cs =>
      let here := match c :: cs with
        | ' ' :: 'a' :: 't' :: ' ' :: rest => placeDigits? rest
        | _ => none
      match here with
      | some ds => some ds
      | none => findPlace? cs

inductive ParseFailure where
  | rejected (c : Complaint)
  | longOffset (digits : Nat)
  deriving DecidableEq, Repr

def complainOf (source : String) (f : GrammarFault) : ParseFailure :=
  match findPlace? f.message.toList with
  | none => .rejected ⟨f.message, source, none⟩
  | some ds =>
      if ds.length ≤ numeralLimit then
        .rejected ⟨f.message, source,
          some (Position.ofOffset source.toList (ofDigitValues ds))⟩
      else .longOffset ds.length

def convert (source : String) (w : Written) : Except ParseFailure Selector :=
  match w.tokens with
  | .ok tokens => .ok (.ofTokens tokens)
  | .error f => .error (.rejected ⟨f.message, source, none⟩)

def parseList (source : String) : Except ParseFailure (List Selector) :=
  match readSource source.toList with
  | .error f => .error (complainOf source f)
  | .ok list => list.mapM (convert source)

def isValid (source : String) : Except ParseFailure Bool :=
  match parseList source with
  | .ok _ => .ok true
  | .error (.rejected _) => .ok false
  | .error failure => .error failure

def joinTexts (selectors : List Selector) : String :=
  String.intercalate ", " (selectors.map Selector.text)

def normalize (source : String) : Except ParseFailure String :=
  (parseList source).map joinTexts

end SelectorRank
