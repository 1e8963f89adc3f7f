import SelectorRank.Lexeme
import SelectorRank.Spelling
import SelectorRank.Text.Quoted
import SelectorRank.Token

/-! Selectors as they are written. -/
namespace SelectorRank

inductive Word where
  | ident (value : String)
  | string (value : String)
  | number (digits : String)
  | plus
  | minus
  deriving DecidableEq, Repr

def Word.value : Word → String
  | .ident value => value
  | .string value => value
  | .number digits => digits
  | .plus => "+"
  | .minus => "-"

structure Comparison where
  operator : String
  value : String
  flag : Option Char
  deriving DecidableEq, Repr

/-- The name is missing when a bar was read as part of the operator. -/
structure AttributeTest where
  space : Option String
  name : Option String
  comparison : Option Comparison
  deriving DecidableEq, Repr

inductive PseudoElement where
  | plain (name : String)
  | functional (name : String) (words : List Word)
  deriving DecidableEq, Repr

mutual

inductive Complex where
  | compound (c : Compound)
  | combined (left : Complex) (combinator : Combinator) (right : Compound)

inductive Compound where
  | element (space name : Option String)
  | qualified (base : Compound) (part : Part)

inductive Part where
  | id (name : String)
  | className (name : String)
  | attribute (test : AttributeTest)
  | pseudo (name : String)
  | function (name : String) (words : List Word)
  | negation (body : Complex)
  | matching (options : List Compound)
  | adjustment (options : List Compound)
  | relation (arguments : List (Combinator × Complex))

end

structure Written where
  selector : Complex
  pseudoElement : Option PseudoElement

def wordsText (words : List Word) : String := Text.listed (words.map (fun w => Text.quoted w.value))

def PseudoElement.text : PseudoElement → String
  | .plain name => name
  | .functional name words =>
      "FunctionalPseudoElement[::" ++ name ++ "(" ++ wordsText words ++ ")]"

/-- Two leading hyphens count as one that would stand alone. -/
def treeIdentifier (s : String) : String :=
  match s.toList with
  | '-' :: '-' :: cs => "\\-" ++ String.ofList ('-' :: cs.flatMap (Spelling.identifierChar true))
  | cs => String.ofList (Spelling.identifier cs)

def elementText (space name : Option String) : String :=
  let local? := match name with
    | none => "*"
    | some n => treeIdentifier n
  match space with
  | none => local?
  | some "*" => "*|" ++ local?
  | some s => treeIdentifier s ++ "|" ++ local?

def AttributeTest.text (t : AttributeTest) : String :=
  let name := t.name.getD "None"
  let full := match t.space with
    | none => name
    | some s => s ++ "|" ++ name
  match t.comparison with
  | none => full
  | some c =>
      full ++ " " ++ c.operator ++ " " ++ Text.quoted c.value ++
        (match c.flag with
        | none => ""
        | some f => " " ++ String.singleton f)

def Combinator.mark : Combinator → String
  | .descendant => "<followed>"
  | .child => ">"
  | .adjacent => "+"
  | .sibling => "~"

mutual

def Complex.text : Complex → String
  | .compound c => c.text
  | .combined left combinator right =>
      "CombinedSelector[" ++ left.text ++ " " ++ combinator.mark ++ " " ++ right.text ++ "]"

def Compound.text : Compound → String
  | .element space name => "Element[" ++ elementText space name ++ "]"
  | .qualified base part => part.around base.text

def Part.around : Part → String → String
  | .id name, base => "Hash[" ++ base ++ "#" ++ name ++ "]"
  | .className name, base => "Class[" ++ base ++ "." ++ name ++ "]"
  | .attribute test, base => "Attrib[" ++ base ++ "[" ++ test.text ++ "]]"
  | .pseudo name, base => "Pseudo[" ++ base ++ ":" ++ name ++ "]"
  | .function name words, base =>
      "Function[" ++ base ++ ":" ++ name ++ "(" ++ wordsText words ++ ")]"
  | .negation body, base => "Negation[" ++ base ++ ":not(" ++ body.text ++ ")]"
  | .matching options, base =>
      "Matching[" ++ base ++ ":is(" ++ String.intercalate ", " (optionTexts options) ++ ")]"
  | .adjustment options, base =>
      "SpecificityAdjustment[" ++ base ++ ":where(" ++
        String.intercalate ", " (optionTexts options) ++ ")]"
  | .relation arguments, base =>
      "Relation[" ++ base ++ ":has(" ++ String.intercalate ", " (argumentTexts arguments) ++ ")]"

def optionTexts : List Compound → List String
  | [] => []
  | c :: cs => c.text :: optionTexts cs

def argumentTexts : List (Combinator × Complex) → List String
  | [] => []
  | (combinator, c) :: rest =>
      ((match combinator with
        | .descendant => ""
        | other => other.mark ++ " ") ++ "Selector[" ++ c.text ++ "]") :: argumentTexts rest

end

end SelectorRank
