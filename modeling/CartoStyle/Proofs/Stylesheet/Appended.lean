import CartoStyle.Proofs.Dictionary.FollowedBy
import CartoStyle.Proofs.Stylesheet.Arrival

/-!
# What options add to a tree

Options leave the shape of a tree alone. At every place in it, an element keeps its attributes as
they are, and what is configured for its name comes behind them as far as it is new
(`Options.Appended`). Once is enough, and options laid over a tree one after another are the same as
one set of options in which the first ones go before the later ones (`Options.overlay_appends`).
-/

namespace CartoStyle

open Stylesheet
open Xml (AttrValue Attributes Element)

/-! ## Places in a tree -/

namespace Xml.Element

/-- The element at a place in a tree. The place is told by indices of children, from the root down.
-/
def at? : Element → List Nat → Option Element
  | element, [] => some element
  | element, index :: place => (element.children[index]?).bind fun child => child.at? place

end Xml.Element

namespace Stylesheet.Options

/-! ## What is configured -/

/-- What is configured for elements of a name: the options of maps and of styles, and those of
elements that draw; nothing for others. -/
inductive Configures (options : Options) : String → List (String × AttrValue) → Prop
  | map : Configures options mapTag options.mapOptions.entries
  | style : Configures options styleTag options.styleOptions.entries
  | drawing (tag : DrawingTag) (attributes : Attributes)
      (given : options.symbolizerOptions.get? tag = some attributes) :
      Configures options (keyword tag) attributes.entries
  | absent (tag : DrawingTag) (given : options.symbolizerOptions.get? tag = none) :
      Configures options (keyword tag) []
  | other (name : String) (map : name ≠ mapTag) (style : name ≠ styleTag)
      (foreign : ∀ tag : DrawingTag, name ≠ keyword tag) : Configures options name []

variable {options first second : Options} {element : Element}

theorem configured_keyword (options : Options) (tag : DrawingTag) :
    options.configured (keyword tag) = (options.symbolizerOptions.get? tag).getD .empty := by
  have apart : keyword tag ≠ mapTag ∧ keyword tag ≠ styleTag := by cases tag <;> decide
  simp only [configured, if_neg apart.1, if_neg apart.2, Vocabulary.ofKeyword?_keyword]

theorem configured_of_foreign {name : String} (map : name ≠ mapTag) (style : name ≠ styleTag)
    (foreign : ∀ tag : DrawingTag, name ≠ keyword tag) : options.configured name = .empty := by
  have unknown : (Vocabulary.ofKeyword? name : Option DrawingTag) = none := by
    cases known : (Vocabulary.ofKeyword? name : Option DrawingTag) with
    | none => rfl
    | some tag => exact absurd (Vocabulary.ofKeyword?_eq_some_iff.mp known).symm (foreign tag)
  simp only [configured, if_neg map, if_neg style, unknown]

/-- Exactly one list of attributes is configured for a name. -/
theorem configures_iff {name : String} {additions : List (String × AttrValue)} :
    options.Configures name additions ↔ additions = (options.configured name).entries := by
  constructor
  · intro configures
    cases configures with
    | map => rfl
    | style => rfl
    | drawing tag attributes given => rw [configured_keyword, given, Option.getD_some]
    | absent tag given => rw [configured_keyword, given]; rfl
    | other _ map style foreign => rw [configured_of_foreign map style foreign]; rfl
  · rintro rfl
    by_cases map : name = mapTag
    · exact map ▸ .map
    · by_cases style : name = styleTag
      · exact style ▸ .style
      · cases known : (Vocabulary.ofKeyword? name : Option DrawingTag) with
        | some tag =>
          obtain rfl := Vocabulary.ofKeyword?_eq_some_iff.mp known
          rw [configured_keyword]
          cases given : options.symbolizerOptions.get? tag with
          | some attributes => exact .drawing tag attributes given
          | none => exact .absent tag given
        | none =>
          have foreign : ∀ tag : DrawingTag, name ≠ keyword tag := by
            rintro tag rfl
            rw [Vocabulary.ofKeyword?_keyword] at known
            cases known
          rw [configured_of_foreign map style foreign]
          exact .other name map style foreign

/-! ## One element -/

/-- An element has the shape of another one and its attributes, and behind them what is configured
for it as far as it is new. -/
structure Appended (options : Options) (element overlaid : Element) : Prop where
  name : overlaid.name = element.name
  text : overlaid.text = element.text
  children : overlaid.children.length = element.children.length
  attributes : ∃ additions, options.Configures element.name additions ∧
    overlaid.attributes.entries = element.attributes.entries ++
      additions.filter fun entry => entry.1 ∉ element.attributes.keys
  distinct : overlaid.attributes.keys.Nodup

theorem attributes_overlay (options : Options) (element : Element) :
    (options.overlay element).attributes =
      element.attributes.followedBy (options.configured element.name) := by
  cases element
  exact Dictionary.addMissing_entries _ _

theorem children_overlay (options : Options) (element : Element) :
    (options.overlay element).children = element.children.map options.overlay :=
  (arrival_overlay options).children_eq element

theorem appended_overlay (options : Options) (element : Element) :
    options.Appended element (options.overlay element) where
  name := (arrival_overlay options).name_eq element
  text := (arrival_overlay options).text_eq element
  children := by rw [children_overlay, List.length_map]
  attributes := ⟨_, configures_iff.mpr rfl, by rw [attributes_overlay]; rfl⟩
  distinct := (options.overlay element).attributes.distinct

/-- Places in a tree are those in the tree with the configured attributes. -/
theorem at?_overlay (options : Options) (root : Element) (place : List Nat) :
    (options.overlay root).at? place = (root.at? place).map options.overlay := by
  induction place generalizing root with
  | nil => rfl
  | cons index place ih =>
    rw [Element.at?, Element.at?, children_overlay, List.getElem?_map]
    cases root.children[index]? with
    | none => rfl
    | some child => exact ih child

/-! ## Options one after another -/

/-- Options whose attributes go before those of later ones. -/
def followedBy (first second : Options) : Options :=
  { first with
    mapOptions := first.mapOptions.followedBy second.mapOptions
    styleOptions := first.styleOptions.followedBy second.styleOptions
    symbolizerOptions := (first.symbolizerOptions.mapEntries fun tag attributes =>
      attributes.followedBy ((second.symbolizerOptions.get? tag).getD .empty)).followedBy
        second.symbolizerOptions }

theorem configured_followedBy (first second : Options) (name : String) :
    (first.followedBy second).configured name =
      (first.configured name).followedBy (second.configured name) := by
  by_cases map : name = mapTag
  · subst map
    rfl
  · by_cases style : name = styleTag
    · subst style
      rfl
    · simp only [configured, if_neg map, if_neg style]
      cases (Vocabulary.ofKeyword? name : Option DrawingTag) with
      | none => exact (Dictionary.followedBy_self _).symm
      | some tag =>
        simp only [followedBy, Dictionary.get?_followedBy, Dictionary.get?_mapEntries]
        cases first.symbolizerOptions.get? tag with
        | some attributes => rfl
        | none => exact (Dictionary.empty_followedBy _).symm

/-- What is added hangs on what is configured. -/
theorem overlay_congr (same : ∀ name, first.configured name = second.configured name)
    (element : Element) : first.overlay element = second.overlay element := by
  refine @Element.rec (fun element => first.overlay element = second.overlay element)
    (fun elements => elements.map first.overlay = elements.map second.overlay) ?_ rfl ?_ element
  · intro name attributes text children below
    rw [overlay, overlay, overlayAll_eq_map, overlayAll_eq_map, below, same]
  · intro child others here there
    rw [List.map_cons, List.map_cons, here, there]

theorem overlay_followedBy (first second : Options) (element : Element) :
    (first.followedBy second).overlay element = second.overlay (first.overlay element) := by
  refine @Element.rec
    (fun element => (first.followedBy second).overlay element =
      second.overlay (first.overlay element))
    (fun elements => elements.map (first.followedBy second).overlay =
      (elements.map first.overlay).map second.overlay) ?_ rfl ?_ element
  · intro name attributes text children below
    simp only [overlay, overlayAll_eq_map, below, Dictionary.addMissing_entries,
      configured_followedBy, Dictionary.followedBy_assoc]
  · intro child others here there
    rw [List.map_cons, List.map_cons, List.map_cons, here, there]

theorem overlay_overlay (options : Options) (element : Element) :
    options.overlay (options.overlay element) = options.overlay element := by
  rw [← overlay_followedBy]
  have again : ∀ name, (options.followedBy options).configured name = options.configured name :=
    fun name => by rw [configured_followedBy, Dictionary.followedBy_self]
  exact overlay_congr again element

/-- Options leave the places of a tree as they are and add to the element at each of them what is
configured for it and new. Added once more, nothing changes, and added after others, they are the
later ones of one set of options. -/
theorem overlay_appends (options : Options) (root : Element) :
    (∀ place, Option.Rel options.Appended (root.at? place)
      ((options.overlay root).at? place)) ∧
    options.overlay (options.overlay root) = options.overlay root ∧
    ∀ later : Options,
      later.overlay (options.overlay root) = (options.followedBy later).overlay root := by
  refine ⟨fun place => ?_, options.overlay_overlay root, fun later => ?_⟩
  · rw [at?_overlay]
    cases root.at? place with
    | none => exact .none
    | some element => exact .some (options.appended_overlay element)
  · exact (overlay_followedBy options later root).symm

end Stylesheet.Options

end CartoStyle
