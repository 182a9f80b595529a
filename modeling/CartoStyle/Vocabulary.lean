/-!
# Vocabularies

A vocabulary is a closed set of values that documents name by keywords. No two values share a
keyword, so looking a keyword up undoes naming a value (`ofKeyword?_keyword`), and only keywords are
found (`ofKeyword?_eq_some_iff`).
-/

namespace CartoStyle

/-- A closed set of values in a fixed order, each with a keyword of its own. -/
class Vocabulary (α : Type) where
  all : List α
  keyword : α → String
  mem_all (a : α) : a ∈ all
  keyword_injective {a b : α} (same : keyword a = keyword b) : a = b

export Vocabulary (keyword)

namespace Vocabulary

variable {α : Type} [Vocabulary α]

/-- The value that a keyword names. -/
def ofKeyword? (word : String) : Option α :=
  all.find? fun a => keyword a == word

@[simp] theorem ofKeyword?_eq_some_iff {word : String} {a : α} :
    ofKeyword? word = some a ↔ keyword a = word := by
  constructor
  · intro found
    simpa using List.find?_some found
  · rintro rfl
    unfold ofKeyword?
    cases found : (all : List α).find? fun b => keyword b == keyword a with
    | none => exact absurd (beq_self_eq_true _) (List.find?_eq_none.mp found a (mem_all a))
    | some b => exact congrArg some (keyword_injective (by simpa using List.find?_some found))

theorem ofKeyword?_keyword (a : α) : ofKeyword? (keyword a) = some a := by simp

/-- The keywords in the order of their values. -/
def keywords (α : Type) [Vocabulary α] : List String := (all : List α).map keyword

/-- The place of a value in the order. -/
def index [BEq α] (a : α) : Nat := all.idxOf a

end Vocabulary

end CartoStyle
