import CartoStyle.Proofs.Dictionary
import CartoStyle.Proofs.Stylesheet.Symbolizers
import CartoStyle.Stylesheet.Options

/-!
# Trees on the way to the reader

Between the writer and the reader stand the options, which add attributes, and a document. A tree
arrives with the same names and the same children (`Carriage.Arrival`). What the options add makes
no difference to the reader where an element has the attribute or the reader does not look for it
(`Options.leaves`).
-/

namespace CartoStyle.Stylesheet

open Xml (AttrValue Attributes Element)

/-- Nothing is added to an element that the reader looks up in it. -/
def Options.leaves (options : Options) (element : Element) : Bool :=
  (consulted element).all fun name =>
    (element.attribute? name).isSome || ((options.configured element.name).get? name).isNone

/-- Trees arrive with all that is in them and the configured attributes. -/
structure Carriage.Arrival (way : Carriage) (options : Options) (arrive : Element → Element) :
    Prop where
  name_eq (element : Element) : (arrive element).name = element.name
  text_eq (element : Element) : (arrive element).text = way.content element.text
  children_eq (element : Element) : (arrive element).children = element.children.map arrive
  attribute?_eq (element : Element) (name : String) : (arrive element).attribute? name =
    ((element.attribute? name).or ((options.configured element.name).get? name)).map way.value

namespace Carriage.Arrival

variable {way : Carriage} {options : Options} {arrive : Element → Element} {element : Element}

/-- An element arrives with what the reader looks up in it. -/
theorem carries (arrival : way.Arrival options arrive) (left : options.leaves element) :
    way.Carries element (arrive element) where
  name_eq := arrival.name_eq element
  text_eq := arrival.text_eq element
  attribute?_eq name looked := by
    rw [arrival.attribute?_eq]
    have kept := List.all_eq_true.mp left name looked
    cases has : element.attribute? name with
    | some value => rfl
    | none =>
      have absent : (options.configured element.name).get? name = none := by simpa [has] using kept
      rw [absent]
      rfl

/-- A text among the attributes arrives settled where nothing is added for it. -/
theorem attributeText?_eq (arrival : way.Arrival options arrive) {name : String}
    {text : Option String}
    (has : element.attribute? name = text.map .text)
    (kept : text.isSome ∨ (options.configured element.name).get? name = none) :
    (arrive element).attributeText? name = text.map way.settled := by
  rw [Element.attributeText?, arrival.attribute?_eq, has]
  cases text with
  | some text => exact congrArg some (way.shown_text text)
  | none =>
    rw [kept.resolve_left (by simp)]
    rfl

theorem childrenNamed_eq (arrival : way.Arrival options arrive) (element : Element)
    (name : String) :
    (arrive element).childrenNamed name = (element.childrenNamed name).map arrive := by
  simp [Element.childrenNamed, arrival.children_eq, List.filter_map, Function.comp_def,
    arrival.name_eq]

theorem firstChild?_eq (arrival : way.Arrival options arrive) (element : Element) (name : String) :
    (arrive element).firstChild? name = (element.firstChild? name).map arrive := by
  rw [Element.firstChild?_eq_head?, arrival.childrenNamed_eq, List.head?_map,
    ← Element.firstChild?_eq_head?]

end Carriage.Arrival

theorem Options.overlayAll_eq_map (options : Options) (elements : List Element) :
    options.overlayAll elements = elements.map options.overlay := by
  induction elements with
  | nil => rfl
  | cons first others ih => rw [overlayAll, ih, List.map_cons]

theorem Options.attribute?_overlay (options : Options) (element : Element) (name : String) :
    (options.overlay element).attribute? name =
      (element.attribute? name).or ((options.configured element.name).get? name) := by
  obtain ⟨tag, attributes, text, children⟩ := element
  exact Dictionary.get?_addMissing attributes (options.configured tag) name

theorem arrival_overlay (options : Options) : Carriage.direct.Arrival options options.overlay where
  name_eq element := by cases element; rfl
  text_eq element := by cases element; rfl
  children_eq element := by
    obtain ⟨name, attributes, text, children⟩ := element
    exact options.overlayAll_eq_map children
  attribute?_eq element name := by
    rw [options.attribute?_overlay]
    exact Option.map_id'.symm

/-- A tree as it is read from the document that is written for it. -/
def Options.reread (options : Options) (element : Element) : Element :=
  (options.overlay element).reread

theorem arrival_reread (options : Options) : Carriage.document.Arrival options options.reread where
  name_eq element := by cases element; rfl
  text_eq element := by cases element; rfl
  children_eq element := by
    obtain ⟨name, attributes, text, children⟩ := element
    rw [Options.reread, Options.overlay, Element.reread, Element.rereadAll_eq_map,
      options.overlayAll_eq_map, List.map_map]
    rfl
  attribute?_eq element name := by
    rw [← options.attribute?_overlay, Options.reread]
    cases options.overlay element
    exact Dictionary.get?_mapValues _ _ _

end CartoStyle.Stylesheet
