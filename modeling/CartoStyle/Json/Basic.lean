import CartoStyle.Binary64.Rounding

/-!
# JSON values

A complete JSON document. The members of an object are kept in their order, repeated names included.
A number remembers whether it was spelled as a whole number, since messages tell the two apart.
-/

namespace CartoStyle.Json

/-- A number as a document spells it. -/
inductive Number where
  /-- A whole number that fits into sixty-four bits. -/
  | whole (value : Int)
  | fraction (value : Binary64)
deriving DecidableEq

/-- The value of a number. -/
def Number.value : Number → Binary64
  | .whole value => .ofInt value
  | .fraction value => value

inductive Value where
  | null
  | bool (value : Bool)
  | number (value : Number)
  | string (value : String)
  | array (items : List Value)
  | object (members : List (String × Value))

instance : Inhabited Value := ⟨.null⟩

end CartoStyle.Json
