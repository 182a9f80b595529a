import CartoStyle.Filter.Json
import CartoStyle.Json.Codec
import CartoStyle.Style.Basic

/-!
# Styles in JSON

Each kind of symbolizer has one table of fields for both directions. Fields that are absent are not
written, except the name of a style, its rules and the symbolizers of a rule. A symbolizer and a
graphic are choices: the member `kind` comes first.
-/

namespace CartoStyle

open Json

/-! ## Fields -/

def Mark.entries : List (Entry Mark) := [
  .of "wellKnownName" .text Mark.wellKnownName fun v m => { m with wellKnownName := some v },
  .of "color" .text Mark.color fun v m => { m with color := some v },
  .of "fillOpacity" .number Mark.fillOpacity fun v m => { m with fillOpacity := some v },
  .of "strokeColor" .text Mark.strokeColor fun v m => { m with strokeColor := some v },
  .of "strokeWidth" .number Mark.strokeWidth fun v m => { m with strokeWidth := some v },
  .of "strokeOpacity" .number Mark.strokeOpacity fun v m => { m with strokeOpacity := some v },
  .of "radius" .number Mark.radius fun v m => { m with radius := some v },
  .of "avoidEdges" .flag Mark.avoidEdges fun v m => { m with avoidEdges := some v },
  .of "rotate" .number Mark.rotate fun v m => { m with rotate := some v },
  .of "visibility" .flag Mark.visibility fun v m => { m with visibility := some v }]

def Icon.entries : List (Entry Icon) := [
  .of "image" .text Icon.image fun v i => { i with image := some v },
  .of "color" .text Icon.color fun v i => { i with color := some v },
  .of "opacity" .number Icon.opacity fun v i => { i with opacity := some v },
  .of "size" .number Icon.size fun v i => { i with size := some v },
  .of "allowOverlap" .flag Icon.allowOverlap fun v i => { i with allowOverlap := some v },
  .of "avoidEdges" .flag Icon.avoidEdges fun v i => { i with avoidEdges := some v },
  .of "rotate" .number Icon.rotate fun v i => { i with rotate := some v },
  .of "visibility" .flag Icon.visibility fun v i => { i with visibility := some v }]

def Raster.entries : List (Entry Raster) := [
  .of "opacity" .number Raster.opacity fun v r => { r with opacity := some v },
  .of "visibility" .flag Raster.visibility fun v r => { r with visibility := some v }]

def Graphic.toJson : Graphic → Value
  | .mark symbol => taggedValue (keyword GraphicKind.mark) (Entry.writeAll Mark.entries symbol)
  | .icon image => taggedValue (keyword GraphicKind.icon) (Entry.writeAll Icon.entries image)

def Graphic.ofJson (value : Value) : Except Mismatch Graphic := do
  let (kind, fields) ← value.tagged "Graphic" GraphicKind
  match kind with
  | .mark => (Entry.readRecord "MarkSymbolizer" Mark.entries {} fields).map .mark
  | .icon => (Entry.readRecord "IconSymbolizer" Icon.entries {} fields).map .icon

def Graphic.codec : Codec Graphic := ⟨Graphic.toJson, Graphic.ofJson⟩

def Fill.entries : List (Entry Fill) := [
  .of "color" .text Fill.color fun v f => { f with color := some v },
  .of "opacity" .number Fill.opacity fun v f => { f with opacity := some v },
  .of "antialias" .flag Fill.antialias fun v f => { f with antialias := some v },
  .of "graphicFill" Graphic.codec Fill.graphicFill fun v f => { f with graphicFill := some v },
  .of "outlineColor" .text Fill.outlineColor fun v f => { f with outlineColor := some v },
  .of "outlineOpacity" .number Fill.outlineOpacity fun v f => { f with outlineOpacity := some v },
  .of "outlineWidth" .number Fill.outlineWidth fun v f => { f with outlineWidth := some v },
  .of "outlineDasharray" (.list .number) Fill.outlineDasharray
    fun v f => { f with outlineDasharray := some v },
  .of "visibility" .flag Fill.visibility fun v f => { f with visibility := some v }]

def Line.entries : List (Entry Line) := [
  .of "color" .text Line.color fun v l => { l with color := some v },
  .of "opacity" .number Line.opacity fun v l => { l with opacity := some v },
  .of "width" .number Line.width fun v l => { l with width := some v },
  .of "cap" (.keyword LineCap) Line.cap fun v l => { l with cap := some v },
  .of "join" (.keyword LineJoin) Line.join fun v l => { l with join := some v },
  .of "dasharray" (.list .number) Line.dasharray fun v l => { l with dasharray := some v },
  .of "graphicStroke" Graphic.codec Line.graphicStroke
    fun v l => { l with graphicStroke := some v },
  .of "graphicFill" Graphic.codec Line.graphicFill fun v l => { l with graphicFill := some v },
  .of "visibility" .flag Line.visibility fun v l => { l with visibility := some v }]

def Label.entries : List (Entry Label) := [
  .of "label" .text Label.property fun v t => { t with property := some v },
  .of "color" .text Label.color fun v t => { t with color := some v },
  .of "opacity" .number Label.opacity fun v t => { t with opacity := some v },
  .of "font" (.list .text) Label.font fun v t => { t with font := some v },
  .of "size" .number Label.size fun v t => { t with size := some v },
  .of "haloColor" .text Label.haloColor fun v t => { t with haloColor := some v },
  .of "haloWidth" .number Label.haloWidth fun v t => { t with haloWidth := some v },
  .of "justify" (.keyword Justification) Label.justify fun v t => { t with justify := some v },
  .of "letterSpacing" .number Label.letterSpacing fun v t => { t with letterSpacing := some v },
  .of "lineHeight" .number Label.lineHeight fun v t => { t with lineHeight := some v },
  .of "padding" .number Label.padding fun v t => { t with padding := some v },
  .of "transform" (.keyword LetterCase) Label.transform fun v t => { t with transform := some v },
  .of "maxAngle" .number Label.maxAngle fun v t => { t with maxAngle := some v },
  .of "maxWidth" .number Label.maxWidth fun v t => { t with maxWidth := some v },
  .of "rotate" .number Label.rotate fun v t => { t with rotate := some v },
  .of "offset" (.pair .number) Label.offset fun v t => { t with offset := some v },
  .of "anchor" (.keyword Anchor) Label.anchor fun v t => { t with anchor := some v },
  .of "allowOverlap" .flag Label.allowOverlap fun v t => { t with allowOverlap := some v },
  .of "avoidEdges" .flag Label.avoidEdges fun v t => { t with avoidEdges := some v },
  .of "visibility" .flag Label.visibility fun v t => { t with visibility := some v }]

/-! ## Symbolizers -/

def Symbolizer.fields : Symbolizer → List (String × Value)
  | .fill area => Entry.writeAll Fill.entries area
  | .line stroke => Entry.writeAll Line.entries stroke
  | .mark symbol => Entry.writeAll Mark.entries symbol
  | .icon image => Entry.writeAll Icon.entries image
  | .raster cover => Entry.writeAll Raster.entries cover
  | .text label => Entry.writeAll Label.entries label

def Symbolizer.toJson (symbolizer : Symbolizer) : Value :=
  taggedValue (keyword symbolizer.kind) symbolizer.fields

/-- The symbolizer of a kind with given fields. -/
def Symbolizer.ofFields (kind : SymbolizerKind) (fields : Value) : Except Mismatch Symbolizer :=
  match kind with
  | .fill => (Entry.readRecord "FillSymbolizer" Fill.entries {} fields).map .fill
  | .line => (Entry.readRecord "LineSymbolizer" Line.entries {} fields).map .line
  | .mark => (Entry.readRecord "MarkSymbolizer" Mark.entries {} fields).map .mark
  | .icon => (Entry.readRecord "IconSymbolizer" Icon.entries {} fields).map .icon
  | .raster => (Entry.readRecord "RasterSymbolizer" Raster.entries {} fields).map .raster
  | .text => (Entry.readRecord "TextSymbolizer" Label.entries {} fields).map .text

def Symbolizer.ofDraft (levels : Nat) (draft : Draft) : Except Problem Symbolizer := do
  let (kind, fields) ← draft.tagged "Symbolizer" SymbolizerKind levels
  liftMismatch (Symbolizer.ofFields kind fields)

/-! ## Scale ranges, rules and styles -/

/-- A member that is written where there is something to write. -/
def optionalMember (name : String) (value : Option Value) : List (String × Value) :=
  value.toList.map fun value => (name, value)

def ScaleRange.toJson (range : ScaleRange) : Value :=
  .object (optionalMember "min" (range.min.map Codec.number.write) ++
    optionalMember "max" (range.max.map Codec.number.write))

def ScaleRange.fields : List (Json.Field ScaleRange) := [
  ⟨"min", [], fun _ draft range =>
    (draft.optional Draft.binary64).map fun v => { range with min := v }⟩,
  ⟨"max", [], fun _ draft range =>
    (draft.optional Draft.binary64).map fun v => { range with max := v }⟩]

def ScaleRange.ofDraft : Nat → Draft → Except Problem ScaleRange :=
  Draft.record "ScaleDenominator" ScaleRange.fields {}

def Rule.toJson (rule : Rule) : Value :=
  .object (optionalMember "name" (rule.name.map .string) ++
    optionalMember "filter" (rule.filter.map Filter.toJson) ++
    optionalMember "scaleDenominator" (rule.scaleDenominator.map ScaleRange.toJson) ++
    [("symbolizers", .array (rule.symbolizers.map Symbolizer.toJson))])

def Rule.fields : List (Json.Field Rule) := [
  ⟨"name", [], fun _ draft rule =>
    (draft.optional Draft.text).map fun v => { rule with name := v }⟩,
  ⟨"filter", [], fun levels draft rule =>
    (draft.optional (Filter.ofDraft levels)).map fun v => { rule with filter := v }⟩,
  ⟨"scaleDenominator", [], fun levels draft rule =>
    (draft.optional (ScaleRange.ofDraft levels)).map fun v => { rule with scaleDenominator := v }⟩,
  ⟨"symbolizers", [], fun levels draft rule =>
    (draft.list Symbolizer.ofDraft levels).map fun v => { rule with symbolizers := v }⟩]

def Rule.ofDraft : Nat → Draft → Except Problem Rule := Draft.record "Rule" Rule.fields {}

def Style.toJson (style : Style) : Value :=
  .object [("name", .string style.name), ("rules", .array (style.rules.map Rule.toJson))]

def Style.fields : List (Json.Field Style) := [
  ⟨"name", [], fun _ draft style => draft.text.map fun v => { style with name := v }⟩,
  ⟨"rules", [], fun levels draft style =>
    (draft.list Rule.ofDraft levels).map fun v => { style with rules := v }⟩]

def Style.ofDraft : Nat → Draft → Except Problem Style := Draft.record "Style" Style.fields {}

/-- The style that a JSON document holds. -/
def Style.ofJsonText (text : String) : Except Problem Style := decode Style.ofDraft text

/-- The JSON document of a style, one item to a line. -/
def Style.jsonText (style : Style) : String := style.toJson.pretty

end CartoStyle
