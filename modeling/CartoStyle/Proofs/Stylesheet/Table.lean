import CartoStyle.Proofs.Stylesheet.Carriage

/-!
# The records of symbolizers read back

An element that shows a record by one of the tables of symbolizers is read as that record, with its
strings settled. Numbers need not be finite, but dash lengths and rotations must be, and no list of
dash lengths may be empty.
-/

namespace CartoStyle

open Stylesheet
open Text (isVisible)
open Xml (AttrValue Element)

/-! ## Conditions -/

/-- Dash lengths that can be read back. -/
def soundDashes (dashes : Option (List Binary64)) : Bool :=
  dashes.all fun lengths => !lengths.isEmpty && lengths.all Binary64.isFinite

theorem soundDashes_iff {dashes : Option (List Binary64)} :
    soundDashes dashes = true ↔
      ∀ lengths ∈ dashes, lengths ≠ [] ∧ ∀ length ∈ lengths, length.isFinite := by
  cases dashes <;> simp [soundDashes]

/-- A rotation that can be read back. -/
def soundRotation (rotation : Option Binary64) : Bool := rotation.all Binary64.isFinite

theorem soundRotation_iff {rotation : Option Binary64} :
    soundRotation rotation = true ↔ ∀ degrees ∈ rotation, degrees.isFinite := by
  cases rotation <;> simp [soundRotation]

theorem isVisible_lineCap (cap : LineCap) : ∀ c ∈ (keyword cap).toList, isVisible c := by
  cases cap <;> decide

theorem isVisible_lineJoin (join : LineJoin) : ∀ c ∈ (keyword join).toList, isVisible c := by
  cases join <;> decide

theorem isVisible_justification (side : Justification) :
    ∀ c ∈ (keyword side).toList, isVisible c := by
  cases side <;> decide

theorem isVisible_letterCase (letters : LetterCase) :
    ∀ c ∈ (keyword letters).toList, isVisible c := by
  cases letters <;> decide

/-! ## Tables -/

section Tables

variable {way : Carriage} {element : Element}

open AttrField (Shows readAll)

theorem Fill.readAll_of_shows {area : Fill} (shows : Shows way.value element table area) :
    readAll element table {} =
      .ok { color := area.color.map way.settled
            opacity := area.opacity
            antialias := area.antialias } := by
  refine shows.readAll_put (way.arrives_text _) (fun v f => { f with color := v })
    (fun _ => rfl) rfl fun shows => ?_
  refine shows.readAll_put (way.arrives_number _) (fun v f => { f with opacity := v })
    (fun _ => rfl) rfl fun shows => ?_
  refine shows.readAll_put (way.arrives_switch _) (fun v f => { f with antialias := v })
    (fun _ => rfl) rfl fun shows => ?_
  rfl

theorem Line.readAll_of_shows {stroke : Line} (sound : soundDashes stroke.dasharray)
    (shows : Shows way.value element table stroke) :
    readAll element table {} =
      .ok { color := stroke.color.map way.settled
            opacity := stroke.opacity
            width := stroke.width
            cap := stroke.cap
            join := stroke.join
            dasharray := stroke.dasharray } := by
  have dashes := soundDashes_iff.mp sound
  refine shows.readAll_put (way.arrives_text _) (fun v l => { l with color := v })
    (fun _ => rfl) rfl fun shows => ?_
  refine shows.readAll_put (way.arrives_number _) (fun v l => { l with opacity := v })
    (fun _ => rfl) rfl fun shows => ?_
  refine shows.readAll_put (way.arrives_number _) (fun v l => { l with width := v })
    (fun _ => rfl) rfl fun shows => ?_
  refine shows.readAll_put (way.arrives_keyword isVisible_lineCap _)
    (fun v l => { l with cap := v })
    (fun _ => rfl) rfl fun shows => ?_
  refine shows.readAll_put (way.arrives_keyword isVisible_lineJoin _)
    (fun v l => { l with join := v })
    (fun _ => rfl) rfl fun shows => ?_
  refine shows.readAll_put (way.arrives_numbers dashes) (fun v l => { l with dasharray := v })
    (fun _ => rfl) rfl fun shows => ?_
  rfl

/-- The height of a mark is its width once more. -/
theorem Mark.withHeight_of_mem {symbol : Mark} {height : Binary64}
    (given : height ∈ symbol.radius) :
    { symbol with radius := some (symbol.radius.getD height) } = symbol := by
  rw [Option.mem_def.mp given, Option.getD_some, ← Option.mem_def.mp given]

theorem Mark.readAll_of_shows {symbol : Mark} (sound : soundRotation symbol.rotate)
    (shows : Shows way.value element table symbol) (name : Option String) :
    readAll element table { wellKnownName := name } =
      .ok { symbol with
            wellKnownName := name
            color := symbol.color.map way.settled
            strokeColor := symbol.strokeColor.map way.settled
            visibility := none } := by
  have degrees := soundRotation_iff.mp sound
  refine shows.readAll_put (way.arrives_number _) (fun v m => { m with fillOpacity := v })
    (fun _ => rfl) rfl fun shows => ?_
  refine shows.readAll_put (way.arrives_text _) (fun v m => { m with strokeColor := v })
    (fun _ => rfl) rfl fun shows => ?_
  refine shows.readAll_put (way.arrives_number _) (fun v m => { m with strokeWidth := v })
    (fun _ => rfl) rfl fun shows => ?_
  refine shows.readAll_put (way.arrives_number _) (fun v m => { m with strokeOpacity := v })
    (fun _ => rfl) rfl fun shows => ?_
  refine shows.readAll_put (way.arrives_number _) (fun v m => { m with radius := v })
    (fun _ => rfl) rfl fun shows => ?_
  refine shows.readAll_cons (way.arrives_number _) id
    (fun _ given => Mark.withHeight_of_mem given) (fun _ => rfl) fun shows => ?_
  refine shows.readAll_put (way.arrives_text _) (fun v m => { m with color := v })
    (fun _ => rfl) rfl fun shows => ?_
  refine shows.readAll_put (way.arrives_flag _) (fun v m => { m with avoidEdges := v })
    (fun _ => rfl) rfl fun shows => ?_
  refine shows.readAll_put (way.arrives_rotation degrees) (fun v m => { m with rotate := v })
    (fun _ => rfl) rfl fun shows => ?_
  rfl

/-- The height of an icon is its width once more. -/
theorem Icon.withHeight_of_mem {image : Icon} {height : Binary64} (given : height ∈ image.size) :
    { image with size := some (image.size.getD height) } = image := by
  rw [Option.mem_def.mp given, Option.getD_some, ← Option.mem_def.mp given]

theorem Icon.readAll_of_shows {image : Icon} (sound : soundRotation image.rotate)
    (shows : Shows way.value element table image) :
    readAll element table {} =
      .ok { image with
            image := image.image.map way.settled
            color := image.color.map way.settled
            visibility := none } := by
  have degrees := soundRotation_iff.mp sound
  refine shows.readAll_put (way.arrives_number _) (fun v i => { i with opacity := v })
    (fun _ => rfl) rfl fun shows => ?_
  refine shows.readAll_put (way.arrives_number _) (fun v i => { i with size := v })
    (fun _ => rfl) rfl fun shows => ?_
  refine shows.readAll_cons (way.arrives_number _) id
    (fun _ given => Icon.withHeight_of_mem given) (fun _ => rfl) fun shows => ?_
  refine shows.readAll_put (way.arrives_text _) (fun v i => { i with color := v })
    (fun _ => rfl) rfl fun shows => ?_
  refine shows.readAll_put (way.arrives_flag _) (fun v i => { i with allowOverlap := v })
    (fun _ => rfl) rfl fun shows => ?_
  refine shows.readAll_put (way.arrives_flag _) (fun v i => { i with avoidEdges := v })
    (fun _ => rfl) rfl fun shows => ?_
  refine shows.readAll_put (way.arrives_rotation degrees) (fun v i => { i with rotate := v })
    (fun _ => rfl) rfl fun shows => ?_
  refine shows.readAll_put (way.arrives_text _) (fun v i => { i with image := v })
    (fun _ => rfl) rfl fun shows => ?_
  rfl

theorem Raster.readAll_of_shows {cover : Raster} (shows : Shows way.value element table cover) :
    readAll element table {} = .ok { opacity := cover.opacity } := by
  refine shows.readAll_put (way.arrives_number _) (fun v r => { r with opacity := v })
    (fun _ => rfl) rfl fun shows => ?_
  rfl

/-- A second coordinate completes an offset of which the first one is there. -/
theorem Label.withOffset_of_mem {label read : Label} {dy : Binary64}
    (first : read.offset = (label.offset.map Prod.fst).map fun dx => (dx, .zero))
    (second : dy ∈ label.offset.map Prod.snd) :
    { read with offset := some ((read.offset.map Prod.fst).getD .zero, dy) } =
      { read with offset := label.offset } := by
  obtain ⟨offset, whole, rfl⟩ := Option.map_eq_some_iff.mp second
  rw [first, whole]
  rfl

theorem Label.withOffset_of_none {label read : Label}
    (first : read.offset = (label.offset.map Prod.fst).map fun dx => (dx, .zero))
    (second : label.offset.map Prod.snd = none) : read = { read with offset := label.offset } := by
  have absent := Option.map_eq_none_iff.mp second
  have apart : read.offset = none := by rw [first, absent]; rfl
  rw [absent, ← apart]

theorem Label.readAll_of_shows {label : Label} (shows : Shows way.value element table label)
    (property : Option String) :
    readAll element table { property } =
      .ok { label with
            property
            color := label.color.map way.settled
            font := label.font.map way.names
            haloColor := label.haloColor.map way.settled
            anchor := none
            visibility := none } := by
  refine shows.readAll_put (way.arrives_number _) (fun v t => { t with opacity := v })
    (fun _ => rfl) rfl fun shows => ?_
  refine shows.readAll_put (way.arrives_flag _) (fun v t => { t with allowOverlap := v })
    (fun _ => rfl) rfl fun shows => ?_
  refine shows.readAll_put (way.arrives_flag _) (fun v t => { t with avoidEdges := v })
    (fun _ => rfl) rfl fun shows => ?_
  refine shows.readAll_put (way.arrives_text _) (fun v t => { t with color := v })
    (fun _ => rfl) rfl fun shows => ?_
  refine shows.readAll_put (way.arrives_names _) (fun v t => { t with font := v })
    (fun _ => rfl) rfl fun shows => ?_
  refine shows.readAll_put (way.arrives_number _) (fun v t => { t with size := v })
    (fun _ => rfl) rfl fun shows => ?_
  refine shows.readAll_put (way.arrives_text _) (fun v t => { t with haloColor := v })
    (fun _ => rfl) rfl fun shows => ?_
  refine shows.readAll_put (way.arrives_number _) (fun v t => { t with haloWidth := v })
    (fun _ => rfl) rfl fun shows => ?_
  refine shows.readAll_put (way.arrives_keyword isVisible_justification _)
    (fun v t => { t with justify := v })
    (fun _ => rfl) rfl fun shows => ?_
  refine shows.readAll_put (way.arrives_number _) (fun v t => { t with letterSpacing := v })
    (fun _ => rfl) rfl fun shows => ?_
  refine shows.readAll_put (way.arrives_number _) (fun v t => { t with lineHeight := v })
    (fun _ => rfl) rfl fun shows => ?_
  refine shows.readAll_put (way.arrives_number _) (fun v t => { t with padding := v })
    (fun _ => rfl) rfl fun shows => ?_
  refine shows.readAll_put (way.arrives_keyword isVisible_letterCase _)
    (fun v t => { t with transform := v })
    (fun _ => rfl) rfl fun shows => ?_
  refine shows.readAll_put (way.arrives_number _) (fun v t => { t with maxAngle := v })
    (fun _ => rfl) rfl fun shows => ?_
  refine shows.readAll_put (way.arrives_flag _) (fun _ t => t) (fun _ => rfl) rfl fun shows => ?_
  refine shows.readAll_put (way.arrives_number _) (fun v t => { t with maxWidth := v })
    (fun _ => rfl) rfl fun shows => ?_
  refine shows.readAll_put (way.arrives_flag _) (fun _ t => t) (fun _ => rfl) rfl fun shows => ?_
  refine shows.readAll_put (way.arrives_number _) (fun v t => { t with rotate := v })
    (fun _ => rfl) rfl fun shows => ?_
  refine shows.readAll_put (way.arrives_number _)
    (fun v t => { t with offset := v.map fun dx => (dx, .zero) })
    (fun _ => rfl) rfl fun shows => ?_
  -- The second coordinate completes the offset.
  refine shows.readAll_cons (way.arrives_number _) (fun t => { t with offset := label.offset })
    (fun _ given => withOffset_of_mem rfl given) (withOffset_of_none rfl) fun shows => ?_
  rfl

end Tables

end CartoStyle
