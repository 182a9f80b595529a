import CartoStyle.Proofs.Stylesheet.Rewritten

/-!
# Attributes that are ignored

What is read from an element hangs on the attributes that the reader looks up in it, and not on
their order (`Symbolizer.result_ofElement_congr`). When it has read a symbolizer, it leaves a note
for every attribute that is not among those by which such a symbolizer is read
(`SymbolizerKind.readBy`, `Symbolizer.readFrom_of_ofElement`). So attributes with a note may be
taken away or changed, and every other one is looked up (`Symbolizer.result_ofElement_ignoring`).
-/

namespace CartoStyle

open Stylesheet
open Xml (AttrValue Attributes Element)

/-! ## Notes of a sequence -/

namespace Stylesheet.Traced

variable {α β : Type}

theorem notes_ofExcept (result : Except Problem α) : (ofExcept result).notes = [] := rfl

theorem notes_bind_of_ok {first : Traced α} {value : α} (done : first.result = .ok value)
    (next : α → Traced β) : (first >>= next).notes = first.notes ++ (next value).notes := by
  change (Traced.bind first next).notes = _
  rw [Traced.bind, done]

theorem notes_noteAll_return (entries : List Note) (value : α) :
    (do noteAll entries; return value : Traced α).notes = entries := List.append_nil entries

/-- What is made of a value in the end leaves no more notes. -/
theorem notes_wrap {traced : Traced α} {value : α} (done : traced.result = .ok value)
    (wrap : α → β) : (do return wrap (← traced) : Traced β).notes = traced.notes := by
  rw [notes_bind_of_ok done]
  exact List.append_nil _

end Stylesheet.Traced

/-- A note for an attribute tells one that neither the table nor the other names account for. -/
theorem Stylesheet.AttrField.ignoredAttribute_mem_ignored {σ : Type} {element : Element}
    {table : List (AttrField σ)} {extra : List String} {name tag : String} :
    .ignoredAttribute name tag ∈ ignored element table extra ↔
      tag = element.name ∧ name ∈ element.attributes.keys ∧ name ∉ extra ++ names table := by
  have known : knows table extra name ↔ name ∈ extra ++ names table := by
    simp [knows, names]
  rw [← known, ignored, List.mem_map]
  constructor
  · rintro ⟨key, kept, same⟩
    cases same
    obtain ⟨present, unknown⟩ := List.mem_filter.mp kept
    exact ⟨rfl, present, by simpa using unknown⟩
  · rintro ⟨rfl, present, unknown⟩
    exact ⟨name, List.mem_filter.mpr ⟨present, by simpa using unknown⟩, rfl⟩

/-! ## What a reading hangs on -/

/-- Markers are known by what is looked up in them. -/
theorem Stylesheet.drawsIcon_congr {element element' : Element} (same : ∀ key ∈
    consultedBy element .markers, element'.attribute? key = element.attribute? key) :
    drawsIcon element' = drawsIcon element := by
  have file := same _ (file_mem_consultedBy element)
  rw [drawsIcon, drawsIcon, Element.attributeText?, Element.attributeText?, file]
  cases absent : element.attribute? fileAttribute with
  | some path => rfl
  | none => simp only [Option.map_none, same _ (allowOverlap_mem_consultedBy absent)]

namespace Symbolizer

/-- Elements of one name are read alike that have the same in all that the reader looks up. -/
theorem result_ofElement_congr {element element' : Element} (name : element'.name = element.name)
    (text : element'.text = element.text)
    (same : ∀ key ∈ consulted element, element'.attribute? key = element.attribute? key) :
    (ofElement element').result = (ofElement element).result := by
  rw [ofElement, ofElement, name]
  cases known : (Vocabulary.ofKeyword? element.name : Option DrawingTag) with
  | none => rfl
  | some tag =>
    have tagged := (Vocabulary.ofKeyword?_eq_some_iff.mp known).symm
    rw [consulted_of_name tagged] at same
    -- A table is among the attributes that are looked up.
    have reads {σ : Type} (table : List (AttrField σ)) (record : σ)
        (among : ∀ key ∈ AttrField.names table, key ∈ consultedBy element tag) :
        AttrField.readAll element' table record = AttrField.readAll element table record :=
      AttrField.readAll_congr name
        (fun field member => same _ (among _ (List.mem_map_of_mem member))) record
    cases tag with
    | polygon | polygonPattern =>
      simp only [Fill.ofElement, Traced.result_bind, Traced.result_ofExcept, Traced.result_noteAll,
        Element.attributeText?, same fileAttribute (List.mem_cons_self ..),
        reads Fill.table {} fun _ listed => List.mem_cons_of_mem _ listed]
    | line | linePattern =>
      simp only [Line.ofElement, Traced.result_bind, Traced.result_ofExcept, Traced.result_noteAll,
        Element.attributeText?, same fileAttribute (List.mem_cons_self ..), name,
        reads Line.table {} fun _ listed => List.mem_cons_of_mem _ listed]
    | markers =>
      have file := same _ (file_mem_consultedBy element)
      simp only [markerOfElement, drawsIcon_congr same, Element.attributeText?, file]
      split
      · rename_i icon
        have among : ∀ key ∈ AttrField.names Icon.table, key ∈ consultedBy element .markers := by
          rw [consultedBy, if_pos icon]
          exact fun _ listed => listed
        simp only [Traced.result_bind, Traced.result_ofExcept, Traced.result_noteAll,
          reads Icon.table {} among]
      · rename_i mark
        have among : ∀ key ∈ AttrField.names Mark.table, key ∈ consultedBy element .markers := by
          intro key listed
          rw [consultedBy, if_neg mark]
          split <;> simp [listed]
        simp only [Traced.result_bind, Traced.result_ofExcept, Traced.result_noteAll,
          reads Mark.table _ among]
    | raster =>
      simp only [Raster.ofElement, Traced.result_bind, Traced.result_ofExcept,
        Traced.result_noteAll, reads Raster.table {} fun _ listed => listed]
    | text =>
      have vertical := same Anchor.verticalAttribute (List.mem_cons_self ..)
      have horizontal := same Anchor.horizontalAttribute
        (List.mem_cons_of_mem _ (List.mem_cons_self ..))
      simp only [Traced.result_bind, Label.result_ofElement, Label.anchorOf, Element.attributeText?,
        vertical, horizontal, text, reads Label.table _ fun _ listed =>
          List.mem_cons_of_mem _ (List.mem_cons_of_mem _ listed)]

end Symbolizer

/-! ## What a symbolizer is read by -/

/-- The attributes by which symbolizers of some kind are read: those of a table, and the path or the
alignments where the table does not have them. -/
def SymbolizerKind.readBy : SymbolizerKind → List String
  | .fill => fileAttribute :: AttrField.names Fill.table
  | .line => fileAttribute :: AttrField.names Line.table
  | .mark => fileAttribute :: AttrField.names Mark.table
  | .icon => AttrField.names Icon.table
  | .raster => AttrField.names Raster.table
  | .text => [Anchor.verticalAttribute, Anchor.horizontalAttribute] ++ AttrField.names Label.table

namespace Stylesheet

/-- The kinds of symbolizers that are read from elements of a name. -/
def DrawingTag.kinds : DrawingTag → List SymbolizerKind
  | .polygon | .polygonPattern => [.fill]
  | .line | .linePattern => [.line]
  | .markers => [.mark, .icon]
  | .raster => [.raster]
  | .text => [.text]

/-- The reader looks an attribute up where it reads a symbolizer of some kind from elements of some
name: there is one of which it makes something else as soon as this attribute is another. -/
def LooksUp (tag : String) (kind : SymbolizerKind) (name : String) : Prop :=
  ∃ (element : Element) (symbolizer : Symbolizer) (attributes : Attributes),
    element.name = tag ∧ symbolizer.kind = kind ∧
    (Symbolizer.ofElement element).result = .ok symbolizer ∧
    (∀ other, other ≠ name → attributes.get? other = element.attribute? other) ∧
    (Symbolizer.ofElement { element with attributes }).result ≠ .ok symbolizer

/-- An element from which a symbolizer of some kind is read. -/
def plainElement (tag : DrawingTag) (kind : SymbolizerKind) : Element where
  name := keyword tag
  attributes :=
    if kind = .icon then Dictionary.empty.insert "allow-overlap" (.text "true") else .empty

/-- A value that is refused or makes a difference under every name. -/
def strangeValue (name : String) : AttrValue :=
  if name = Anchor.verticalAttribute then .text "top"
  else if name = Anchor.horizontalAttribute then .text "left"
  else .text "?"

theorem looksUp_of_mem {tag : DrawingTag} {kind : SymbolizerKind} (drawn : kind ∈ tag.kinds)
    {name : String} (member : name ∈ kind.readBy) : LooksUp (keyword tag) kind name := by
  have plain : ∀ tag ∈ (Vocabulary.all : List DrawingTag), ∀ kind ∈ tag.kinds,
      (Symbolizer.ofElement (plainElement tag kind)).result.toOption.map Symbolizer.kind =
        some kind := by
    decide +kernel
  have strange : ∀ tag ∈ (Vocabulary.all : List DrawingTag), ∀ kind ∈ tag.kinds,
      ∀ name ∈ kind.readBy,
        (Symbolizer.ofElement
          ((plainElement tag kind).withAttribute name (strangeValue name))).result.toOption ≠
        (Symbolizer.ofElement (plainElement tag kind)).result.toOption := by
    decide +kernel
  obtain ⟨symbolizer, read, same⟩ := Option.map_eq_some_iff.mp
    (plain tag (Vocabulary.mem_all tag) kind drawn)
  have differs := strange tag (Vocabulary.mem_all tag) kind drawn name member
  refine ⟨plainElement tag kind, symbolizer,
    (plainElement tag kind).attributes.insert name (strangeValue name), rfl, same,
    Expression.eq_ok_of_toOption read, ?_, ?_⟩
  · exact fun other different => Dictionary.get?_insert_of_ne _ (Ne.symm different) _
  · intro again
    rw [read] at differs
    exact differs (congrArg Except.toOption again)

end Stylesheet

/-! ## Notes for attributes -/

section Notes

variable {element : Element}

open Traced (notes_ofExcept notes_bind_of_ok notes_noteAll_return)

/-- A reader that goes through a table leaves the notes that stand behind the table. -/
theorem Stylesheet.AttrField.notes_readAll {σ τ : Type} {table : List (AttrField σ)}
    {record part : σ} (fields : readAll element table record = .ok part) (entries : List Note)
    (finish : σ → τ) :
    (do
      let part ← Traced.ofExcept (readAll element table record)
      Traced.noteAll entries
      return finish part : Traced τ).notes = entries := by
  have tabled : (Traced.ofExcept (readAll element table record)).result = .ok part := fields
  rw [notes_bind_of_ok tabled, notes_ofExcept, notes_noteAll_return, List.nil_append]

theorem Fill.notes_ofElement {area : Fill} (read : (ofElement element).result = .ok area) :
    (ofElement element).notes = AttrField.ignored element table [fileAttribute] := by
  simp only [ofElement, Traced.result_bind, Traced.result_ofExcept] at read
  obtain ⟨plain, fields, -⟩ := bind_eq_ok_iff.mp read
  exact AttrField.notes_readAll fields _ _

theorem Line.notes_ofElement {stroke : Line} (read : (ofElement element).result = .ok stroke) :
    (ofElement element).notes = AttrField.ignored element table [fileAttribute] := by
  simp only [ofElement, Traced.result_bind, Traced.result_ofExcept] at read
  obtain ⟨plain, fields, -⟩ := bind_eq_ok_iff.mp read
  exact AttrField.notes_readAll fields _ _

theorem Raster.notes_ofElement {cover : Raster} (read : (ofElement element).result = .ok cover) :
    (ofElement element).notes = AttrField.ignored element table [] := by
  simp only [ofElement, Traced.result_bind, Traced.result_ofExcept] at read
  obtain ⟨plain, fields, -⟩ := bind_eq_ok_iff.mp read
  exact AttrField.notes_readAll fields _ _

theorem Stylesheet.notes_markerOfElement {symbolizer : Symbolizer}
    (read : (markerOfElement element).result = .ok symbolizer) :
    (markerOfElement element).notes =
      if drawsIcon element then AttrField.ignored element Icon.table []
      else AttrField.ignored element Mark.table [fileAttribute] := by
  have kinds := markerOfElement_cases read
  rw [markerOfElement]
  split at kinds
  · rename_i icon
    obtain ⟨image, fields, -⟩ := kinds
    simp only [if_pos icon]
    exact AttrField.notes_readAll fields _ _
  · rename_i mark
    obtain ⟨symbol, fields, -⟩ := kinds
    simp only [if_neg mark]
    exact AttrField.notes_readAll fields _ _

/-- Notes about the text and the anchor of a label are not about attributes as such. -/
theorem Label.ignoredAttribute_not_mem_propertyOf (text name tag : String) :
    .ignoredAttribute name tag ∉ (propertyOf text).notes := by
  rw [propertyOf]
  split
  · exact List.not_mem_nil
  · split
    · rintro (_ | ⟨_, ⟨⟩⟩)
    · exact List.not_mem_nil

theorem Label.ignoredAttribute_not_mem_anchorOf (element : Element) (name tag : String) :
    .ignoredAttribute name tag ∉ (anchorOf element).notes := by
  rw [anchorOf]
  split
  · exact List.not_mem_nil
  · split
    · exact List.not_mem_nil
    · rintro (_ | ⟨_, ⟨⟩⟩)

theorem Label.ignoredAttribute_mem_notes_iff {label : Label}
    (read : (ofElement element).result = .ok label) {name tag : String} :
    .ignoredAttribute name tag ∈ (ofElement element).notes ↔ .ignoredAttribute name tag ∈
      AttrField.ignored element table [Anchor.verticalAttribute, Anchor.horizontalAttribute] := by
  rw [result_ofElement] at read
  obtain ⟨plain, fields, anchored⟩ := bind_eq_ok_iff.mp read
  obtain ⟨anchor, aligned, -⟩ := bind_eq_ok_iff.mp anchored
  have tabled : (Traced.ofExcept (AttrField.readAll element table
      { property := readProperty? element.text })).result = .ok plain := fields
  have behind (property : Traced (Option String))
      (done : property.result = .ok (readProperty? element.text))
      (apart : .ignoredAttribute name tag ∉ property.notes) (entries : List Note) :
      .ignoredAttribute name tag ∈ (do
        let property ← property
        let label ← Traced.ofExcept (AttrField.readAll element table { property })
        let anchor ← anchorOf element
        Traced.noteAll entries
        return { label with anchor } : Traced Label).notes ↔
          .ignoredAttribute name tag ∈ entries := by
    rw [notes_bind_of_ok done, notes_bind_of_ok tabled, notes_bind_of_ok aligned, notes_ofExcept,
      notes_noteAll_return, List.nil_append, List.mem_append, List.mem_append, or_iff_right apart,
      or_iff_right (ignoredAttribute_not_mem_anchorOf element name tag)]
  rw [ofElement]
  cases given : element.text with
  | none =>
    rw [given] at behind
    exact behind (pure none) rfl List.not_mem_nil _
  | some text =>
    rw [given] at behind
    exact behind (propertyOf text) (result_propertyOf text)
      (ignoredAttribute_not_mem_propertyOf text name tag) _

end Notes

/-! ## What is read, and what is ignored -/

/-- What a symbolizer tells of the element that it was read from: the name of the element goes with
its kind, all that was looked up and found is among what such symbolizers are read by, and there are
notes for all other attributes. -/
structure Symbolizer.ReadFrom (element : Element) (symbolizer : Symbolizer) : Prop where
  tag : ∃ tag : DrawingTag, element.name = keyword tag ∧ symbolizer.kind ∈ tag.kinds
  consulted : ∀ name ∈ consulted element,
    name ∈ symbolizer.kind.readBy ∨ element.attribute? name = none
  noted : ∀ name tag, .ignoredAttribute name tag ∈ (ofElement element).notes ↔
    tag = element.name ∧ name ∈ element.attributes.keys ∧ name ∉ symbolizer.kind.readBy

/-- Marks are known by an attribute of icons only where it is absent. -/
theorem SymbolizerKind.mem_readBy_mark {element : Element} (mark : ¬drawsIcon element)
    {name : String} (looked : name ∈ consultedBy element .markers) :
    name ∈ readBy .mark ∨ element.attribute? name = none := by
  rw [consultedBy, if_neg mark] at looked
  split at looked
  · exact .inl looked
  · rename_i file
    have absent : element.attribute? fileAttribute = none := Option.not_isSome_iff_eq_none.mp file
    rcases List.mem_cons.mp looked with rfl | listed
    · exact .inl (List.mem_cons_self ..)
    rcases List.mem_cons.mp listed with rfl | listed
    · rw [drawsIcon, Element.attributeText?, absent] at mark
      exact .inr (Option.not_isSome_iff_eq_none.mp mark)
    · exact .inl (List.mem_cons_of_mem _ listed)

/-- It is enough that the notes are those that stand behind a table. -/
theorem Symbolizer.ReadFrom.of_table {σ : Type} (table : List (AttrField σ)) (extra : List String)
    {element : Element} {symbolizer : Symbolizer} {tag : DrawingTag}
    (name : element.name = keyword tag) (drawn : symbolizer.kind ∈ tag.kinds)
    (looked : ∀ name ∈ consultedBy element tag,
      name ∈ symbolizer.kind.readBy ∨ element.attribute? name = none)
    (readBy : extra ++ AttrField.names table = symbolizer.kind.readBy)
    (noted : ∀ name tag, .ignoredAttribute name tag ∈ (ofElement element).notes ↔
      .ignoredAttribute name tag ∈ AttrField.ignored element table extra) :
    symbolizer.ReadFrom element where
  tag := ⟨tag, name, drawn⟩
  consulted := consulted_of_name name ▸ looked
  noted := fun name tag => by
    rw [noted, AttrField.ignoredAttribute_mem_ignored, readBy]

theorem Symbolizer.readFrom_of_ofElement {element : Element} {symbolizer : Symbolizer}
    (read : (ofElement element).result = .ok symbolizer) : symbolizer.ReadFrom element := by
  cases known : (Vocabulary.ofKeyword? element.name : Option DrawingTag) with
  | none =>
    rw [ofElement, known] at read
    cases read
  | some tag =>
    have name := (Vocabulary.ofKeyword?_eq_some_iff.mp known).symm
    have reading := ofElement.eq_1 element
    rw [known] at reading
    rw [reading] at read
    cases tag with
    | polygon | polygonPattern =>
      obtain ⟨area, done, same⟩ := bind_eq_ok_iff.mp (by simpa only [Traced.result_bind] using read)
      obtain rfl := Except.ok.inj same
      refine .of_table Fill.table [fileAttribute] name (List.mem_singleton_self _)
        (fun _ looked => .inl looked) rfl fun key tag => ?_
      rw [reading, Traced.notes_wrap done, Fill.notes_ofElement done]
    | line | linePattern =>
      obtain ⟨stroke, done, same⟩ :=
        bind_eq_ok_iff.mp (by simpa only [Traced.result_bind] using read)
      obtain rfl := Except.ok.inj same
      refine .of_table Line.table [fileAttribute] name (List.mem_singleton_self _)
        (fun _ looked => .inl looked) rfl fun key tag => ?_
      rw [reading, Traced.notes_wrap done, Line.notes_ofElement done]
    | raster =>
      obtain ⟨cover, done, same⟩ :=
        bind_eq_ok_iff.mp (by simpa only [Traced.result_bind] using read)
      obtain rfl := Except.ok.inj same
      refine .of_table Raster.table [] name (List.mem_singleton_self _)
        (fun _ looked => .inl looked) rfl fun key tag => ?_
      rw [reading, Traced.notes_wrap done, Raster.notes_ofElement done]
    | text =>
      obtain ⟨label, done, same⟩ :=
        bind_eq_ok_iff.mp (by simpa only [Traced.result_bind] using read)
      obtain rfl := Except.ok.inj same
      refine .of_table Label.table [Anchor.verticalAttribute, Anchor.horizontalAttribute] name
        (List.mem_singleton_self _) (fun _ looked => .inl looked) rfl fun key tag => ?_
      rw [reading, Traced.notes_wrap done, Label.ignoredAttribute_mem_notes_iff done]
    | markers =>
      have notes := notes_markerOfElement read
      have kinds := markerOfElement_cases read
      split at kinds
      · rename_i icon
        obtain ⟨image, -, rfl⟩ := kinds
        refine .of_table Icon.table [] name (List.mem_cons_of_mem _ (List.mem_singleton_self _))
          (fun _ looked => .inl ?_) rfl fun key tag => ?_
        · rwa [consultedBy, if_pos icon] at looked
        · rw [reading, notes, if_pos icon]
      · rename_i mark
        obtain ⟨symbol, -, rfl⟩ := kinds
        refine .of_table Mark.table [fileAttribute] name (List.mem_cons_self ..)
          (fun key looked => ?_) rfl fun key tag => ?_
        · exact SymbolizerKind.mem_readBy_mark mark looked
        · rw [reading, notes, if_neg mark]

/-- What the element has under names without a note is all that its symbolizer hangs on. -/
theorem Symbolizer.ReadFrom.result_eq {element : Element} {symbolizer : Symbolizer}
    (tells : symbolizer.ReadFrom element) {attributes : Attributes}
    (same : ∀ name, .ignoredAttribute name element.name ∉ (ofElement element).notes →
      attributes.get? name = element.attribute? name) :
    (ofElement { element with attributes }).result = (ofElement element).result := by
  refine result_ofElement_congr rfl rfl fun key looked => same key fun noted => ?_
  obtain ⟨-, present, unread⟩ := (tells.noted key element.name).mp noted
  rcases tells.consulted key looked with known | absent
  · exact unread known
  · exact Dictionary.get?_eq_none_iff.mp absent present

/-- The order of attributes does not matter to what is read from an element. Where a symbolizer is
read, attributes with a note may be missing or be others, all at once. The ones without are those by
which symbolizers of this kind are read, and are looked up. -/
theorem Symbolizer.result_ofElement_ignoring (element : Element) :
    (∀ attributes : Attributes, attributes.entries.Perm element.attributes.entries →
      (ofElement { element with attributes }).result = (ofElement element).result) ∧
    ∀ symbolizer, (ofElement element).result = .ok symbolizer →
      (∀ attributes : Attributes,
        (∀ name, .ignoredAttribute name element.name ∉ (ofElement element).notes →
          attributes.get? name = element.attribute? name) →
        (ofElement { element with attributes }).result = .ok symbolizer) ∧
      ∀ name ∈ element.attributes.keys,
        (.ignoredAttribute name element.name ∉ (ofElement element).notes ↔
          name ∈ symbolizer.kind.readBy) ∧
        (name ∈ symbolizer.kind.readBy → LooksUp element.name symbolizer.kind name) := by
  constructor
  · intro attributes reordered
    exact result_ofElement_congr rfl rfl fun key _ => Dictionary.get?_of_perm reordered key
  · intro symbolizer read
    have tells := readFrom_of_ofElement read
    refine ⟨fun attributes same => (tells.result_eq same).trans read, fun name present => ⟨?_, ?_⟩⟩
    · rw [tells.noted]
      simp only [true_and, present, not_not]
    · intro member
      obtain ⟨tag, tagged, drawn⟩ := tells.tag
      rw [tagged]
      exact looksUp_of_mem drawn member

/-- Markers for a star, with two attributes that marks do not have. -/
def Symbolizer.flaggedStar : Element where
  name := "MarkersSymbolizer"
  attributes := .ofList [("clip", .text "false"), ("file", .text "star.svg"),
    ("allow-overlap", .text "true"), ("width", .text "1")]

theorem Symbolizer.result_ofElement_flaggedStar :
    let star : Symbolizer := .mark { wellKnownName := some "Star", radius := some .one }
    let turned : Attributes := .ofList [("width", .text "1"), ("allow-overlap", .text "true"),
      ("file", .text "star.svg"), ("clip", .text "false")]
    let unclipped : Attributes :=
      .ofList [("width", .text "1"), ("file", .text "star.svg"), ("clip", .text "?")]
    (ofElement flaggedStar).result = .ok star ∧
    turned.entries.Perm flaggedStar.attributes.entries ∧
    (ofElement { flaggedStar with attributes := turned }).result = .ok star ∧
    (∀ name, .ignoredAttribute name flaggedStar.name ∉ (ofElement flaggedStar).notes →
      unclipped.get? name = flaggedStar.attribute? name) ∧
    (ofElement { flaggedStar with attributes := unclipped }).result = .ok star ∧
    "width" ∈ flaggedStar.attributes.keys ∧ "width" ∈ star.kind.readBy ∧
    LooksUp "MarkersSymbolizer" .mark "width" := by
  intro star turned unclipped
  have read : (ofElement flaggedStar).result = .ok star :=
    Expression.eq_ok_of_toOption (by decide +kernel)
  have reordered : turned.entries.Perm flaggedStar.attributes.entries :=
    List.reverse_perm flaggedStar.attributes.entries
  have notes : (ofElement flaggedStar).notes =
      ["clip", "allow-overlap"].map (Note.ignoredAttribute · "MarkersSymbolizer") := by
    decide +kernel
  have unchanged : ∀ name, .ignoredAttribute name flaggedStar.name ∉ (ofElement flaggedStar).notes →
      unclipped.get? name = flaggedStar.attribute? name := by
    have there : ∀ name ∈ flaggedStar.attributes.keys,
        .ignoredAttribute name "MarkersSymbolizer" ∉
          ["clip", "allow-overlap"].map (Note.ignoredAttribute · "MarkersSymbolizer") →
        unclipped.get? name = flaggedStar.attribute? name := by
      decide
    have fewer : unclipped.keys ⊆ flaggedStar.attributes.keys := by decide
    intro name unnoted
    by_cases present : name ∈ flaggedStar.attributes.keys
    · exact there name present (notes ▸ unnoted)
    · exact (Dictionary.get?_eq_none_iff.mpr fun more => present (fewer more)).trans
        (Dictionary.get?_eq_none_iff.mpr present).symm
  obtain ⟨orderless, reads⟩ := result_ofElement_ignoring flaggedStar
  obtain ⟨ignores, looks⟩ := reads star read
  have present : "width" ∈ flaggedStar.attributes.keys := by decide
  have member : "width" ∈ star.kind.readBy := by decide
  exact ⟨read, reordered, (orderless turned reordered).trans read, unchanged,
    ignores unclipped unchanged, present, member, (looks "width" present).2 member⟩

end CartoStyle
