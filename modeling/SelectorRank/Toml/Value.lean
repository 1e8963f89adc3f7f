import SelectorRank.Decimal.Shortest
import SelectorRank.Toml.Moment

/-! Values of settings documents. Tables keep their entries in the order in which they came. -/
namespace SelectorRank.Toml
open Text

inductive Value where
  | text (value : String)
  | integer (value : Int)
  | float (value : Float)
  | boolean (value : Bool)
  | moment (value : Moment)
  | array (items : List Value)
  | table (entries : List (String × Value))

abbrev Table := List (String × Value)

def Value.isContainer : Value → Bool
  | .array _ => true
  | .table _ => true
  | _ => false

mutual

def Value.shown : Value → String
  | .text value => quoted value
  | .integer value => String.ofList (Text.integer value)
  | .float value => Decimal.float value
  | .boolean value => if value then "True" else "False"
  | .moment value => value.shown
  | .array items => listed (shownItems items)
  | .table entries => braced (shownEntries entries)

def shownItems : List Value → List String
  | [] => []
  | v :: vs => v.shown :: shownItems vs

def shownEntries : Table → List (String × String)
  | [] => []
  | (key, value) :: rest => (key, value.shown) :: shownEntries rest

end

mutual

/-- Integers with more digits than a numeral may have can be written in other bases than ten, but
they cannot be shown. -/
def Value.isOverlong : Value → Bool
  | .integer value => numeralLimit < (natural value.natAbs).length
  | .array items => anyOverlong items
  | .table entries => anyEntryOverlong entries
  | _ => false

def anyOverlong : List Value → Bool
  | [] => false
  | v :: vs => v.isOverlong || anyOverlong vs

def anyEntryOverlong : Table → Bool
  | [] => false
  | (_, value) :: rest => value.isOverlong || anyEntryOverlong rest

end

end SelectorRank.Toml
