import Cadence.Decimal.Basic
import Cadence.Fields
/-!
JSON values. Integers of 64 bits stay integers; all other numbers are doubles, kept as their
shortest decimals, since nothing here computes with them.
-/

namespace Cadence

/-- A JSON value. The entries of an object that was read are in key order. -/
inductive Json where
  | null
  | bool (value : Bool)
  | int (value : Int)
  | decimal (value : Decimal)
  | str (text : String)
  | arr (items : List Json)
  | obj (entries : List (String × Json))
  deriving Inhabited

end Cadence
