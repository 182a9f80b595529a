import CartoStyle.Proofs.Json.Number

/-!
# Numbers and depth of a value

What reading a document depends on: which numbers stand in a value, and how deep its arrays and
objects nest. Other numbers can be put in the place of the fractions of a value, which stays the
same exactly if its numbers do (`Value.mapNumbers_eq_self_iff`).
-/

namespace CartoStyle.Json.Value

mutual

/-- The numbers of a value. -/
def numbers : Value → List Number
  | .number spelled => [spelled]
  | .array items => itemNumbers items
  | .object members => memberNumbers members
  | _ => []

def itemNumbers : List Value → List Number
  | [] => []
  | item :: others => numbers item ++ itemNumbers others

def memberNumbers : List (String × Value) → List Number
  | [] => []
  | (_, value) :: others => numbers value ++ memberNumbers others

end

mutual

/-- How many arrays and objects are open at once in a value. -/
def depth : Value → Nat
  | .array items => itemDepth items + 1
  | .object members => memberDepth members + 1
  | _ => 0

def itemDepth : List Value → Nat
  | [] => 0
  | item :: others => max (depth item) (itemDepth others)

def memberDepth : List (String × Value) → Nat
  | [] => 0
  | (_, value) :: others => max (depth value) (memberDepth others)

end

mutual

/-- A value with other fractions in the place of its own. -/
def mapNumbers (change : Binary64 → Binary64) : Value → Value
  | .number spelled => .number (spelled.onFraction change)
  | .array items => .array (mapItems change items)
  | .object members => .object (mapMembers change members)
  | other => other

def mapItems (change : Binary64 → Binary64) : List Value → List Value
  | [] => []
  | item :: others => mapNumbers change item :: mapItems change others

def mapMembers (change : Binary64 → Binary64) : List (String × Value) → List (String × Value)
  | [] => []
  | (name, value) :: others => (name, mapNumbers change value) :: mapMembers change others

end

variable {levels : Nat}

theorem mem_itemNumbers {items : List Value} {number : Number} :
    number ∈ itemNumbers items ↔ ∃ item ∈ items, number ∈ item.numbers := by
  induction items with
  | nil => simp [itemNumbers]
  | cons item others ih => simp [itemNumbers, ih]

theorem mem_memberNumbers {members : List (String × Value)} {number : Number} :
    number ∈ memberNumbers members ↔ ∃ member ∈ members, number ∈ member.2.numbers := by
  induction members with
  | nil => simp [memberNumbers]
  | cons member others ih => simp [memberNumbers, ih]

theorem itemDepth_le_iff {items : List Value} :
    itemDepth items ≤ levels ↔ ∀ item ∈ items, item.depth ≤ levels := by
  induction items with
  | nil => simp [itemDepth]
  | cons item others ih => simp [itemDepth, ih]

theorem memberDepth_le_iff {members : List (String × Value)} :
    memberDepth members ≤ levels ↔ ∀ member ∈ members, member.2.depth ≤ levels := by
  induction members with
  | nil => simp [memberDepth]
  | cons member others ih => simp [memberDepth, ih]

theorem mapItems_eq_map (change : Binary64 → Binary64) (items : List Value) :
    mapItems change items = items.map (mapNumbers change) := by
  induction items with
  | nil => rfl
  | cons item others ih => rw [mapItems, ih, List.map_cons]

theorem mapMembers_eq_map (change : Binary64 → Binary64) (members : List (String × Value)) :
    mapMembers change members =
      members.map fun (name, value) => (name, mapNumbers change value) := by
  induction members with
  | nil => rfl
  | cons member others ih => rw [mapMembers, ih, List.map_cons]

theorem mapMembers_append (change : Binary64 → Binary64) (members others : List (String × Value)) :
    mapMembers change (members ++ others) =
      mapMembers change members ++ mapMembers change others := by
  simp only [mapMembers_eq_map, List.map_append]

mutual

/-- A value stays the same if its numbers do. -/
theorem mapNumbers_eq_self_iff (change : Binary64 → Binary64) (value : Value) :
    value.mapNumbers change = value ↔
      ∀ number ∈ value.numbers, number.onFraction change = number := by
  match value with
  | .null | .bool _ | .string _ => simp [mapNumbers, numbers]
  | .number spelled => simp [mapNumbers, numbers]
  | .array items => simp [mapNumbers, numbers, mapItems_eq_self_iff change items]
  | .object members => simp [mapNumbers, numbers, mapMembers_eq_self_iff change members]

theorem mapItems_eq_self_iff (change : Binary64 → Binary64) (items : List Value) :
    mapItems change items = items ↔
      ∀ number ∈ itemNumbers items, number.onFraction change = number := by
  match items with
  | [] => simp [mapItems, itemNumbers]
  | item :: others =>
    simp [mapItems, itemNumbers, mapNumbers_eq_self_iff change item,
      mapItems_eq_self_iff change others, or_imp, forall_and]

theorem mapMembers_eq_self_iff (change : Binary64 → Binary64) (members : List (String × Value)) :
    mapMembers change members = members ↔
      ∀ number ∈ memberNumbers members, number.onFraction change = number := by
  match members with
  | [] => simp [mapMembers, memberNumbers]
  | (name, value) :: others =>
    simp [mapMembers, memberNumbers, mapNumbers_eq_self_iff change value,
      mapMembers_eq_self_iff change others, or_imp, forall_and]

end

/-! ## Fractions -/

/-- Whether all numbers of a value are fractions. -/
def isFractional (value : Value) : Bool := value.numbers.all Number.isFraction

theorem isFractional_array {items : List Value} (each : ∀ item ∈ items, item.isFractional) :
    (Value.array items).isFractional := by
  rw [isFractional, List.all_eq_true]
  intro number present
  obtain ⟨item, member, inside⟩ := mem_itemNumbers.mp present
  exact List.all_eq_true.mp (each item member) number inside

theorem isFractional_object {members : List (String × Value)}
    (each : ∀ member ∈ members, member.2.isFractional) : (Value.object members).isFractional := by
  rw [isFractional, List.all_eq_true]
  intro number present
  obtain ⟨member, given, inside⟩ := mem_memberNumbers.mp present
  exact List.all_eq_true.mp (each member given) number inside

end CartoStyle.Json.Value
