import CartoStyle.Proofs.Filter.Expressible
import CartoStyle.Proofs.Json.Codec
import CartoStyle.Style.Json

/-!
# Numbers of a style

A style with other numbers in the place of its own has the same JSON, but for these numbers
(`Style.toJson_mapNumbers`), all of which are fractions (`Style.isFractional_toJson`). Both follow
from the entries of a table of fields, and from the operands of a filter.
-/

namespace CartoStyle

open Json

/-! ## Numbers of the parts of a style -/

section Definitions

variable (change : Binary64 → Binary64)

def Mark.mapNumbers (symbol : Mark) : Mark :=
  { symbol with
    fillOpacity := symbol.fillOpacity.map change
    strokeWidth := symbol.strokeWidth.map change
    strokeOpacity := symbol.strokeOpacity.map change
    radius := symbol.radius.map change
    rotate := symbol.rotate.map change }

def Icon.mapNumbers (image : Icon) : Icon :=
  { image with
    opacity := image.opacity.map change
    size := image.size.map change
    rotate := image.rotate.map change }

def Raster.mapNumbers (cover : Raster) : Raster :=
  { cover with opacity := cover.opacity.map change }

def Graphic.mapNumbers : Graphic → Graphic
  | .mark symbol => .mark (symbol.mapNumbers change)
  | .icon image => .icon (image.mapNumbers change)

def Fill.mapNumbers (area : Fill) : Fill :=
  { area with
    opacity := area.opacity.map change
    graphicFill := area.graphicFill.map (Graphic.mapNumbers change)
    outlineOpacity := area.outlineOpacity.map change
    outlineWidth := area.outlineWidth.map change
    outlineDasharray := area.outlineDasharray.map (List.map change) }

def Line.mapNumbers (stroke : Line) : Line :=
  { stroke with
    opacity := stroke.opacity.map change
    width := stroke.width.map change
    dasharray := stroke.dasharray.map (List.map change)
    graphicStroke := stroke.graphicStroke.map (Graphic.mapNumbers change)
    graphicFill := stroke.graphicFill.map (Graphic.mapNumbers change) }

def Label.mapNumbers (label : Label) : Label :=
  { label with
    opacity := label.opacity.map change
    size := label.size.map change
    haloWidth := label.haloWidth.map change
    letterSpacing := label.letterSpacing.map change
    lineHeight := label.lineHeight.map change
    padding := label.padding.map change
    maxAngle := label.maxAngle.map change
    maxWidth := label.maxWidth.map change
    rotate := label.rotate.map change
    offset := label.offset.map (Prod.map change change) }

def Symbolizer.mapNumbers : Symbolizer → Symbolizer
  | .fill area => .fill (area.mapNumbers change)
  | .line stroke => .line (stroke.mapNumbers change)
  | .mark symbol => .mark (symbol.mapNumbers change)
  | .icon image => .icon (image.mapNumbers change)
  | .raster cover => .raster (cover.mapNumbers change)
  | .text label => .text (label.mapNumbers change)

def FilterValue.mapNumbers : FilterValue → FilterValue
  | .number value => .number (change value)
  | other => other

namespace Filter

mutual

def mapNumbers : Filter → Filter
  | .comparison operator property value => .comparison operator property (value.mapNumbers change)
  | .combination operator operands => .combination operator (mapNumbersList operands)
  | .negation operand => .negation (mapNumbers operand)

def mapNumbersList : List Filter → List Filter
  | [] => []
  | filter :: others => mapNumbers filter :: mapNumbersList others

end

end Filter

def ScaleRange.mapNumbers (range : ScaleRange) : ScaleRange :=
  { min := range.min.map change, max := range.max.map change }

def Rule.mapNumbers (rule : Rule) : Rule :=
  { rule with
    filter := rule.filter.map (Filter.mapNumbers change)
    scaleDenominator := rule.scaleDenominator.map (ScaleRange.mapNumbers change)
    symbolizers := rule.symbolizers.map (Symbolizer.mapNumbers change) }

/-- A style with other numbers in the place of its own. -/
def Style.mapNumbers (style : Style) : Style :=
  { style with rules := style.rules.map (Rule.mapNumbers change) }

end Definitions

/-! ## Their JSON -/

section Tables

variable {change : Binary64 → Binary64}

theorem Mark.writeAll_mapNumbers (symbol : Mark) :
    Entry.writeAll entries (symbol.mapNumbers change) =
      Value.mapMembers change (Entry.writeAll entries symbol) := by
  apply Entry.writeAll_mapNumbers
  simp [entries, mapNumbers, Entry.write_of, Function.comp_def]

theorem Icon.writeAll_mapNumbers (image : Icon) :
    Entry.writeAll entries (image.mapNumbers change) =
      Value.mapMembers change (Entry.writeAll entries image) := by
  apply Entry.writeAll_mapNumbers
  simp [entries, mapNumbers, Entry.write_of, Function.comp_def]

theorem Graphic.toJson_mapNumbers (graphic : Graphic) :
    (graphic.mapNumbers change).toJson = graphic.toJson.mapNumbers change := by
  cases graphic with
  | mark symbol =>
    rw [mapNumbers, toJson, toJson, symbol.writeAll_mapNumbers, mapNumbers_taggedValue]
  | icon image =>
    rw [mapNumbers, toJson, toJson, image.writeAll_mapNumbers, mapNumbers_taggedValue]

@[simp] theorem mapNumbers_writeGraphic (graphic : Graphic) :
    (Graphic.codec.write graphic).mapNumbers change =
      Graphic.codec.write (graphic.mapNumbers change) := graphic.toJson_mapNumbers.symm

theorem Symbolizer.fields_mapNumbers (symbolizer : Symbolizer) :
    (symbolizer.mapNumbers change).fields = Value.mapMembers change symbolizer.fields := by
  cases symbolizer with
  | fill area =>
    apply Entry.writeAll_mapNumbers
    simp [Fill.entries, Fill.mapNumbers, Entry.write_of, Function.comp_def]
  | line stroke =>
    apply Entry.writeAll_mapNumbers
    simp [Line.entries, Line.mapNumbers, Entry.write_of, Function.comp_def]
  | mark symbol => exact symbol.writeAll_mapNumbers
  | icon image => exact image.writeAll_mapNumbers
  | raster cover =>
    apply Entry.writeAll_mapNumbers
    simp [Raster.entries, Raster.mapNumbers, Entry.write_of, Function.comp_def]
  | text label =>
    apply Entry.writeAll_mapNumbers
    simp [Label.entries, Label.mapNumbers, Entry.write_of, Function.comp_def]

theorem Symbolizer.toJson_mapNumbers (symbolizer : Symbolizer) :
    (symbolizer.mapNumbers change).toJson = symbolizer.toJson.mapNumbers change := by
  have kind : (symbolizer.mapNumbers change).kind = symbolizer.kind := by cases symbolizer <;> rfl
  rw [toJson, toJson, kind, fields_mapNumbers, mapNumbers_taggedValue]

end Tables

section Trees

variable (change : Binary64 → Binary64)

theorem FilterValue.toJson_mapNumbers (value : FilterValue) :
    (value.mapNumbers change).toJson = value.toJson.mapNumbers change := by
  cases value <;> rfl

namespace Filter

mutual

theorem toJson_mapNumbers (filter : Filter) :
    (filter.mapNumbers change).toJson = filter.toJson.mapNumbers change := by
  match filter with
  | .comparison operator property value =>
    rw [mapNumbers, toJson, value.toJson_mapNumbers]
    rfl
  | .combination operator operands =>
    rw [mapNumbers, toJson, toJsonList_mapNumbers operands]
    rfl
  | .negation operand =>
    rw [mapNumbers, toJson, toJson_mapNumbers operand]
    rfl

theorem toJsonList_mapNumbers (filters : List Filter) :
    toJsonList (mapNumbersList change filters) = Value.mapItems change (toJsonList filters) := by
  match filters with
  | [] => rfl
  | filter :: others =>
    rw [mapNumbersList, toJsonList, toJson_mapNumbers filter, toJsonList_mapNumbers others]
    rfl

end

theorem mapNumbersList_eq_map (filters : List Filter) :
    mapNumbersList change filters = filters.map (mapNumbers change) := by
  induction filters with
  | nil => rfl
  | cons filter others ih => rw [mapNumbersList, ih, List.map_cons]

mutual

/-- Other numbers do not change how many operands there are. -/
theorem isPaired_mapNumbers (filter : Filter) :
    (filter.mapNumbers change).isPaired = filter.isPaired := by
  match filter with
  | .comparison operator property value => rfl
  | .combination operator operands =>
    rw [mapNumbers, isPaired, isPaired, arePaired_mapNumbers operands, mapNumbersList_eq_map,
      List.length_map]
  | .negation operand => exact isPaired_mapNumbers operand

theorem arePaired_mapNumbers (filters : List Filter) :
    arePaired (mapNumbersList change filters) = arePaired filters := by
  match filters with
  | [] => rfl
  | filter :: others =>
    rw [mapNumbersList, arePaired, arePaired, isPaired_mapNumbers filter,
      arePaired_mapNumbers others]

end

end Filter

/-- A part that may be left out is changed where it is given. -/
theorem mapMembers_optionalMember {β : Type} {name : String} {write : β → Value} {other : β → β}
    (same : ∀ b, write (other b) = (write b).mapNumbers change) (part : Option β) :
    Value.mapMembers change (optionalMember name (part.map write)) =
      optionalMember name ((part.map other).map write) := by
  cases part with
  | none => rfl
  | some b =>
    rw [Option.map_some, Option.map_some, Option.map_some, same]
    rfl

theorem ScaleRange.toJson_mapNumbers (range : ScaleRange) :
    (range.mapNumbers change).toJson = range.toJson.mapNumbers change := by
  have bound (x : Binary64) : Codec.number.write (change x) =
      (Codec.number.write x).mapNumbers change := rfl
  rw [toJson, toJson, Value.mapNumbers, Value.mapMembers_append,
    mapMembers_optionalMember change bound, mapMembers_optionalMember change bound]
  rfl

theorem Rule.toJson_mapNumbers (rule : Rule) :
    (rule.mapNumbers change).toJson = rule.toJson.mapNumbers change := by
  have name : Value.mapMembers change (optionalMember "name" (rule.name.map .string)) =
      optionalMember "name" (rule.name.map .string) := by
    cases rule.name <;> rfl
  rw [toJson, toJson, Value.mapNumbers, Value.mapMembers_append, Value.mapMembers_append,
    Value.mapMembers_append, name,
    mapMembers_optionalMember change fun filter => filter.toJson_mapNumbers change,
    mapMembers_optionalMember change fun range => range.toJson_mapNumbers change]
  rw [Value.mapMembers, Value.mapMembers,
    mapNumbers_array Symbolizer.toJson fun symbolizer => symbolizer.toJson_mapNumbers]
  rfl

theorem Style.toJson_mapNumbers (style : Style) :
    (style.mapNumbers change).toJson = style.toJson.mapNumbers change := by
  rw [toJson, toJson, Value.mapNumbers, Value.mapMembers, Value.mapMembers, Value.mapMembers,
    mapNumbers_array Rule.toJson fun rule => rule.toJson_mapNumbers change]
  rfl

end Trees

/-! ## Fractions -/

section Fractions

open Json.Value (isFractional isFractional_array isFractional_object)

theorem Graphic.isFractional_toJson (graphic : Graphic) : graphic.toJson.isFractional := by
  cases graphic with
  | mark symbol =>
    exact isFractional_taggedValue _ (by simp [Mark.entries, Entry.isFractional_of])
  | icon image =>
    exact isFractional_taggedValue _ (by simp [Icon.entries, Entry.isFractional_of])

instance : Graphic.codec.Fractional := ⟨Graphic.isFractional_toJson⟩

theorem Symbolizer.isFractional_toJson (symbolizer : Symbolizer) :
    symbolizer.toJson.isFractional := by
  cases symbolizer with
  | fill area => exact isFractional_taggedValue _ (by simp [Fill.entries, Entry.isFractional_of])
  | line stroke => exact isFractional_taggedValue _ (by simp [Line.entries, Entry.isFractional_of])
  | mark symbol => exact isFractional_taggedValue _ (by simp [Mark.entries, Entry.isFractional_of])
  | icon image => exact isFractional_taggedValue _ (by simp [Icon.entries, Entry.isFractional_of])
  | raster cover =>
    exact isFractional_taggedValue _ (by simp [Raster.entries, Entry.isFractional_of])
  | text label => exact isFractional_taggedValue _ (by simp [Label.entries, Entry.isFractional_of])

namespace Filter

mutual

theorem isFractional_toJson (filter : Filter) : filter.toJson.isFractional := by
  match filter with
  | .comparison operator property value =>
    rw [toJson]
    cases value <;> rfl
  | .combination operator operands =>
    rw [toJson]
    refine isFractional_array fun item member => ?_
    rcases List.mem_cons.mp member with rfl | operand
    · rfl
    · exact isFractional_toJsonList operands item operand
  | .negation operand =>
    rw [toJson]
    refine isFractional_array fun item member => ?_
    rcases List.mem_cons.mp member with rfl | inside
    · rfl
    · rw [List.mem_singleton.mp inside]
      exact isFractional_toJson operand

theorem isFractional_toJsonList (filters : List Filter) :
    ∀ item ∈ toJsonList filters, item.isFractional := by
  match filters with
  | [] => nofun
  | filter :: others =>
    intro item member
    rw [toJsonList] at member
    rcases List.mem_cons.mp member with rfl | later
    · exact isFractional_toJson filter
    · exact isFractional_toJsonList others item later

end

end Filter

theorem isFractional_of_mem_optionalMember {β : Type} {name : String} {write : β → Value}
    {part : Option β} (each : ∀ b, (write b).isFractional) :
    ∀ member ∈ optionalMember name (part.map write), member.2.isFractional := by
  cases part with
  | none => nofun
  | some b =>
    intro member given
    rw [List.mem_singleton.mp given]
    exact each b

theorem ScaleRange.isFractional_toJson (range : ScaleRange) : range.toJson.isFractional := by
  refine isFractional_object fun member given => ?_
  rcases List.mem_append.mp given with least | most
  · exact isFractional_of_mem_optionalMember (fun _ => rfl) member least
  · exact isFractional_of_mem_optionalMember (fun _ => rfl) member most

theorem Rule.isFractional_toJson (rule : Rule) : rule.toJson.isFractional := by
  refine isFractional_object fun member given => ?_
  simp only [List.mem_append, List.mem_singleton] at given
  rcases given with ((name | filter) | range) | rfl
  · exact isFractional_of_mem_optionalMember (fun _ => rfl) member name
  · exact isFractional_of_mem_optionalMember Filter.isFractional_toJson member filter
  · exact isFractional_of_mem_optionalMember ScaleRange.isFractional_toJson member range
  · exact isFractional_list Symbolizer.isFractional_toJson

theorem Style.isFractional_toJson (style : Style) : style.toJson.isFractional := by
  refine isFractional_object fun member given => ?_
  rcases List.mem_cons.mp given with rfl | rest
  · rfl
  · rw [List.mem_singleton.mp rest]
    exact isFractional_list Rule.isFractional_toJson

end Fractions

end CartoStyle
