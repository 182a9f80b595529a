import CartoStyle.Stylesheet.Problem
import CartoStyle.Stylesheet.Tag
import CartoStyle.Text.Unprintable

/-!
# Notes along the way

Writing and reading a stylesheet leave notes of what they pass over and of what they have done. A
`Traced` computation has a list of notes and a result; the notes before a problem stay. The result
of a sequence depends on the results of its parts only (`result_bind`).
-/

namespace CartoStyle.Stylesheet

/-- How much a note matters. -/
inductive Level where
  | warning
  | detail
  | trace
deriving DecidableEq, Repr

def Level.shown : Level → String
  | .warning => "WARN"
  | .detail => "DEBUG"
  | .trace => "TRACE"

inductive Note where
  /-- An attribute that its element does not have a use for. -/
  | ignoredAttribute (attributeName element : String)
  /-- A child of a style that is no rule. -/
  | skippedElement (element : String)
  /-- An attribute that is configured and computed. -/
  | keptComputed (element attributeName : String)
  | built (style : String) (rules : Nat)
  | read (style : String) (rules : Nat)
  /-- Alignments that no anchor has. -/
  | noAnchor (vertical horizontal : Option String)
  /-- The text of a label that is more than one property. -/
  | notAProperty (text : String)
  | repeatedFilter
  | moreStyles (count : Nat)
deriving DecidableEq

namespace Note

def level : Note → Level
  | .ignoredAttribute .. | .skippedElement _ => .trace
  | .repeatedFilter | .moreStyles _ => .warning
  | _ => .detail

/-- A text that may be absent in a note. -/
def shownOption : Option String → String
  | none => "None"
  | some text => s!"Some({Text.shown text})"

def message : Note → String
  | .ignoredAttribute attributeName element =>
    s!"ignoring attribute '{attributeName}' on <{element}>"
  | .skippedElement element => s!"skipping <{element}> inside <{styleTag}>"
  | .keptComputed element attributeName =>
    s!"<{element}> keeps computed '{attributeName}' over configured value"
  | .built style rules => s!"built style '{style}' with {rules} rules"
  | .read style rules => s!"read style '{style}' with {rules} rules"
  | .noAnchor vertical horizontal =>
    s!"no anchor for alignment {shownOption vertical}/{shownOption horizontal}"
  | .notAProperty text => s!"text expression '{text}' is not a single property"
  | .repeatedFilter => s!"rule has more than one <{filterTag}>; using the first"
  | .moreStyles count => s!"map holds {count} more styles; only the first is read"

/-- A note as a line. -/
def line (note : Note) : String := s!"{note.level.shown} {note.message}"

end Note

/-- A result together with the notes on the way to it. -/
structure Traced (α : Type) where
  notes : List Note
  result : Except Problem α

namespace Traced

variable {α β : Type}

/-- A sequence: a problem in the first part is the end of it. -/
protected def bind (first : Traced α) (next : α → Traced β) : Traced β :=
  match first.result with
  | .ok value => ⟨first.notes ++ (next value).notes, (next value).result⟩
  | .error problem => ⟨first.notes, .error problem⟩

instance : Monad Traced where
  pure value := ⟨[], .ok value⟩
  bind := Traced.bind

/-- A result without notes. -/
def ofExcept (result : Except Problem α) : Traced α := ⟨[], result⟩

/-- A note and nothing else. -/
def note (entry : Note) : Traced Unit := ⟨[entry], .ok ()⟩

/-- Several notes and nothing else. -/
def noteAll (entries : List Note) : Traced Unit := ⟨entries, .ok ()⟩

/-- The same notes, and another problem in the place of a problem. -/
def mapProblem (context : Problem → Problem) (traced : Traced α) : Traced α :=
  ⟨traced.notes, traced.result.mapError context⟩

@[simp] theorem result_pure (value : α) : (pure value : Traced α).result = .ok value := rfl

@[simp] theorem result_bind (first : Traced α) (next : α → Traced β) :
    (first >>= next).result = first.result >>= fun value => (next value).result := by
  change (Traced.bind first next).result = _
  unfold Traced.bind
  cases first.result <;> rfl

@[simp] theorem result_ofExcept (result : Except Problem α) :
    (ofExcept result).result = result := rfl

@[simp] theorem result_note (entry : Note) : (note entry).result = .ok () := rfl

@[simp] theorem result_noteAll (entries : List Note) : (noteAll entries).result = .ok () := rfl

@[simp] theorem result_mapProblem (context : Problem → Problem) (traced : Traced α) :
    (traced.mapProblem context).result = traced.result.mapError context := rfl

end Traced

end CartoStyle.Stylesheet
