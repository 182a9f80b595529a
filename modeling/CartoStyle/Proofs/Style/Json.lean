import CartoStyle.Proofs.Filter.Codec
import CartoStyle.Proofs.Json.Codec
import CartoStyle.Style.Json

/-!
# Styles read back from JSON

Each symbolizer is read back through the table of its fields: the fields are read one after another
into a record that is empty at first, and where the last one has been read the record is the written
one. Rules and styles have parts that may be left out or that nest, and are read part by part. A
document that says the value of a style is read as the style (`Style.ofDraft_of_complete`), if every
combination of its filters has two operands; and the document of the style says so
(`Style.ofJsonText_jsonText`), if its numbers are kept and it does not nest too deep.
-/

namespace CartoStyle

open Json

/-! ## Tables -/

section Tables

open Entry (Carries passes_of)

theorem Mark.carries (symbol : Mark) : Carries symbol entries {} symbol := by
  refine ⟨_, passes_of (fun v m => { m with wellKnownName := v }) rfl fun _ => rfl, ?_⟩
  refine ⟨_, passes_of (fun v m => { m with color := v }) rfl fun _ => rfl, ?_⟩
  refine ⟨_, passes_of (fun v m => { m with fillOpacity := v }) rfl fun _ => rfl, ?_⟩
  refine ⟨_, passes_of (fun v m => { m with strokeColor := v }) rfl fun _ => rfl, ?_⟩
  refine ⟨_, passes_of (fun v m => { m with strokeWidth := v }) rfl fun _ => rfl, ?_⟩
  refine ⟨_, passes_of (fun v m => { m with strokeOpacity := v }) rfl fun _ => rfl, ?_⟩
  refine ⟨_, passes_of (fun v m => { m with radius := v }) rfl fun _ => rfl, ?_⟩
  refine ⟨_, passes_of (fun v m => { m with avoidEdges := v }) rfl fun _ => rfl, ?_⟩
  refine ⟨_, passes_of (fun v m => { m with rotate := v }) rfl fun _ => rfl, ?_⟩
  refine ⟨_, passes_of (fun v m => { m with visibility := v }) rfl fun _ => rfl, ?_⟩
  rfl

theorem Icon.carries (image : Icon) : Carries image entries {} image := by
  refine ⟨_, passes_of (fun v i => { i with image := v }) rfl fun _ => rfl, ?_⟩
  refine ⟨_, passes_of (fun v i => { i with color := v }) rfl fun _ => rfl, ?_⟩
  refine ⟨_, passes_of (fun v i => { i with opacity := v }) rfl fun _ => rfl, ?_⟩
  refine ⟨_, passes_of (fun v i => { i with size := v }) rfl fun _ => rfl, ?_⟩
  refine ⟨_, passes_of (fun v i => { i with allowOverlap := v }) rfl fun _ => rfl, ?_⟩
  refine ⟨_, passes_of (fun v i => { i with avoidEdges := v }) rfl fun _ => rfl, ?_⟩
  refine ⟨_, passes_of (fun v i => { i with rotate := v }) rfl fun _ => rfl, ?_⟩
  refine ⟨_, passes_of (fun v i => { i with visibility := v }) rfl fun _ => rfl, ?_⟩
  rfl

theorem Raster.carries (cover : Raster) : Carries cover entries {} cover := by
  refine ⟨_, passes_of (fun v r => { r with opacity := v }) rfl fun _ => rfl, ?_⟩
  refine ⟨_, passes_of (fun v r => { r with visibility := v }) rfl fun _ => rfl, ?_⟩
  rfl

/-- A graphic is read back from its own value. -/
theorem Graphic.ofJson_toJson (graphic : Graphic) : ofJson graphic.toJson = .ok graphic := by
  cases graphic with
  | mark symbol =>
    rw [toJson, ofJson, Value.tagged_taggedValue _ _ (isUntagged_of_mem_writeAll (by decide)),
      ok_bind]
    simp only [Entry.readRecord_writeAll _ (by decide) symbol.carries]
    rfl
  | icon image =>
    rw [toJson, ofJson, Value.tagged_taggedValue _ _ (isUntagged_of_mem_writeAll (by decide)),
      ok_bind]
    simp only [Entry.readRecord_writeAll _ (by decide) image.carries]
    rfl

instance : Graphic.codec.Lawful where
  read_write := Graphic.ofJson_toJson
  write_ne_null graphic := by cases graphic <;> nofun

theorem Fill.carries (area : Fill) : Carries area entries {} area := by
  refine ⟨_, passes_of (fun v f => { f with color := v }) rfl fun _ => rfl, ?_⟩
  refine ⟨_, passes_of (fun v f => { f with opacity := v }) rfl fun _ => rfl, ?_⟩
  refine ⟨_, passes_of (fun v f => { f with antialias := v }) rfl fun _ => rfl, ?_⟩
  refine ⟨_, passes_of (fun v f => { f with graphicFill := v }) rfl fun _ => rfl, ?_⟩
  refine ⟨_, passes_of (fun v f => { f with outlineColor := v }) rfl fun _ => rfl, ?_⟩
  refine ⟨_, passes_of (fun v f => { f with outlineOpacity := v }) rfl fun _ => rfl, ?_⟩
  refine ⟨_, passes_of (fun v f => { f with outlineWidth := v }) rfl fun _ => rfl, ?_⟩
  refine ⟨_, passes_of (fun v f => { f with outlineDasharray := v }) rfl fun _ => rfl, ?_⟩
  refine ⟨_, passes_of (fun v f => { f with visibility := v }) rfl fun _ => rfl, ?_⟩
  rfl

theorem Line.carries (stroke : Line) : Carries stroke entries {} stroke := by
  refine ⟨_, passes_of (fun v l => { l with color := v }) rfl fun _ => rfl, ?_⟩
  refine ⟨_, passes_of (fun v l => { l with opacity := v }) rfl fun _ => rfl, ?_⟩
  refine ⟨_, passes_of (fun v l => { l with width := v }) rfl fun _ => rfl, ?_⟩
  refine ⟨_, passes_of (fun v l => { l with cap := v }) rfl fun _ => rfl, ?_⟩
  refine ⟨_, passes_of (fun v l => { l with join := v }) rfl fun _ => rfl, ?_⟩
  refine ⟨_, passes_of (fun v l => { l with dasharray := v }) rfl fun _ => rfl, ?_⟩
  refine ⟨_, passes_of (fun v l => { l with graphicStroke := v }) rfl fun _ => rfl, ?_⟩
  refine ⟨_, passes_of (fun v l => { l with graphicFill := v }) rfl fun _ => rfl, ?_⟩
  refine ⟨_, passes_of (fun v l => { l with visibility := v }) rfl fun _ => rfl, ?_⟩
  rfl

theorem Label.carries (label : Label) : Carries label entries {} label := by
  refine ⟨_, passes_of (fun v t => { t with property := v }) rfl fun _ => rfl, ?_⟩
  refine ⟨_, passes_of (fun v t => { t with color := v }) rfl fun _ => rfl, ?_⟩
  refine ⟨_, passes_of (fun v t => { t with opacity := v }) rfl fun _ => rfl, ?_⟩
  refine ⟨_, passes_of (fun v t => { t with font := v }) rfl fun _ => rfl, ?_⟩
  refine ⟨_, passes_of (fun v t => { t with size := v }) rfl fun _ => rfl, ?_⟩
  refine ⟨_, passes_of (fun v t => { t with haloColor := v }) rfl fun _ => rfl, ?_⟩
  refine ⟨_, passes_of (fun v t => { t with haloWidth := v }) rfl fun _ => rfl, ?_⟩
  refine ⟨_, passes_of (fun v t => { t with justify := v }) rfl fun _ => rfl, ?_⟩
  refine ⟨_, passes_of (fun v t => { t with letterSpacing := v }) rfl fun _ => rfl, ?_⟩
  refine ⟨_, passes_of (fun v t => { t with lineHeight := v }) rfl fun _ => rfl, ?_⟩
  refine ⟨_, passes_of (fun v t => { t with padding := v }) rfl fun _ => rfl, ?_⟩
  refine ⟨_, passes_of (fun v t => { t with transform := v }) rfl fun _ => rfl, ?_⟩
  refine ⟨_, passes_of (fun v t => { t with maxAngle := v }) rfl fun _ => rfl, ?_⟩
  refine ⟨_, passes_of (fun v t => { t with maxWidth := v }) rfl fun _ => rfl, ?_⟩
  refine ⟨_, passes_of (fun v t => { t with rotate := v }) rfl fun _ => rfl, ?_⟩
  refine ⟨_, passes_of (fun v t => { t with offset := v }) rfl fun _ => rfl, ?_⟩
  refine ⟨_, passes_of (fun v t => { t with anchor := v }) rfl fun _ => rfl, ?_⟩
  refine ⟨_, passes_of (fun v t => { t with allowOverlap := v }) rfl fun _ => rfl, ?_⟩
  refine ⟨_, passes_of (fun v t => { t with avoidEdges := v }) rfl fun _ => rfl, ?_⟩
  refine ⟨_, passes_of (fun v t => { t with visibility := v }) rfl fun _ => rfl, ?_⟩
  rfl

end Tables

/-! ## Symbolizers -/

namespace Symbolizer

theorem isUntagged_of_mem_fields (symbolizer : Symbolizer) :
    ∀ member ∈ symbolizer.fields, isUntagged member := by
  cases symbolizer <;> exact isUntagged_of_mem_writeAll (by decide)

theorem ofFields_fields (symbolizer : Symbolizer) :
    ofFields symbolizer.kind (.object symbolizer.fields) = .ok symbolizer := by
  cases symbolizer with
  | fill area =>
    exact map_eq_ok_iff.mpr ⟨area, Entry.readRecord_writeAll _ (by decide) area.carries, rfl⟩
  | line stroke =>
    exact map_eq_ok_iff.mpr ⟨stroke, Entry.readRecord_writeAll _ (by decide) stroke.carries, rfl⟩
  | mark symbol =>
    exact map_eq_ok_iff.mpr ⟨symbol, Entry.readRecord_writeAll _ (by decide) symbol.carries, rfl⟩
  | icon image =>
    exact map_eq_ok_iff.mpr ⟨image, Entry.readRecord_writeAll _ (by decide) image.carries, rfl⟩
  | raster cover =>
    exact map_eq_ok_iff.mpr ⟨cover, Entry.readRecord_writeAll _ (by decide) cover.carries, rfl⟩
  | text label =>
    exact map_eq_ok_iff.mpr ⟨label, Entry.readRecord_writeAll _ (by decide) label.carries, rfl⟩

/-- A draft that says the value of a symbolizer is read as the symbolizer. -/
theorem ofDraft_of_complete {symbolizer : Symbolizer} {levels : Nat} {draft : Draft}
    (said : draft.complete levels = .ok symbolizer.toJson) :
    ofDraft levels draft = .ok symbolizer := by
  rw [ofDraft, Draft.tagged_of_complete _ _ said symbolizer.isUntagged_of_mem_fields, ok_bind]
  simp only [ofFields_fields]
  rfl

end Symbolizer

/-! ## Scale ranges, rules and styles -/

/-- A part of a record is read where it is written. The fields that come later have not been read
before, nor are they now. -/
theorem record_optionalMember {σ β : Type} {fields : List (Json.Field σ)} {field : Json.Field σ}
    {levels : Nat} {members : Members} {seen : List String} {name : String} {part : Option β}
    {write : β → Value} {others : List (String × Value)} {start result : σ} (later : List String)
    {read : Draft → Except Problem β} (put : Option β → σ → σ)
    (said : members.complete levels =
      .ok (optionalMember name (part.map write) ++ others))
    (found : fields.find? (·.answersTo name) = some field)
    (new : ∀ other ∈ field.name :: later, other ∉ seen) (once : field.name ∉ later)
    (absent : put none start = start)
    (reads : ∀ draft, field.read levels draft start =
      (draft.optional read).map fun v => put v start)
    (each : ∀ b ∈ part, ∀ draft : Draft, draft.complete levels = .ok (write b) →
      draft.optional read = .ok (some b))
    (rest : ∀ (members : Members) (seen : List String), members.complete levels = .ok others →
      (∀ other ∈ later, other ∉ seen) →
      members.record fields levels seen (put part start) = .ok result) :
    members.record fields levels seen start = .ok result := by
  cases part with
  | none =>
    rw [absent] at rest
    exact rest members seen said fun other member => new other (List.mem_cons_of_mem _ member)
  | some b =>
    have here (draft : Draft) (part : draft.complete levels = .ok (write b)) :
        field.read levels draft start = .ok (put (some b) start) := by
      rw [reads, each b rfl draft part]
      rfl
    refine Members.record_of_complete _ said found (new _ (List.mem_cons_self ..)) here
      fun others there => rest others _ there fun other member => ?_
    rw [List.mem_cons, not_or]
    exact ⟨fun same => once (same ▸ member), new other (List.mem_cons_of_mem _ member)⟩

/-- A bound is read where there is one. -/
theorem optional_binary64_of_complete {x : Binary64} {levels : Nat} {draft : Draft}
    (said : draft.complete levels = .ok (Codec.number.write x)) :
    draft.optional Draft.binary64 = .ok (some x) :=
  Draft.optional_of_complete said nofun (Draft.binary64_of_complete said)

/-- A draft that says the value of a scale range is read as the range. -/
theorem ScaleRange.ofDraft_of_complete {range : ScaleRange} {levels : Nat} {draft : Draft}
    (said : draft.complete levels = .ok range.toJson) : ofDraft levels draft = .ok range := by
  obtain ⟨left, members, rfl, inside⟩ := Draft.complete_eq_ok_iff.mp said
  rw [← List.append_nil (optionalMember "max" _)] at inside
  rw [ofDraft, Draft.record, if_neg left]
  refine record_optionalMember ["max"] (fun v r => { r with min := v }) inside rfl (by simp)
    (by decide) rfl (fun _ => rfl) (fun x _ draft => optional_binary64_of_complete)
    fun members seen inside new => ?_
  refine record_optionalMember [] (fun v r => { r with max := v }) inside rfl new (by decide) rfl
    (fun _ => rfl) (fun x _ draft => optional_binary64_of_complete)
    fun members seen inside new => ?_
  rw [Members.complete_eq_nil_iff.mp inside]
  rfl

/-- A draft that says the value of a rule is read as the rule, if its filter can be. -/
theorem Rule.ofDraft_of_complete {rule : Rule} {levels : Nat} {draft : Draft}
    (paired : ∀ filter ∈ rule.filter, filter.isPaired)
    (said : draft.complete levels = .ok rule.toJson) : ofDraft levels draft = .ok rule := by
  obtain ⟨left, members, rfl, inside⟩ := Draft.complete_eq_ok_iff.mp said
  rw [List.append_assoc, List.append_assoc] at inside
  rw [ofDraft, Draft.record, if_neg left]
  refine record_optionalMember ["filter", "scaleDenominator", "symbolizers"]
    (fun v r => { r with name := v }) inside rfl (by simp) (by decide) rfl (fun _ => rfl)
    (fun text _ draft here => ?name) fun members seen inside new => ?_
  case name => exact Draft.optional_of_complete here nofun (Draft.word_of_complete _ here)
  refine record_optionalMember ["scaleDenominator", "symbolizers"]
    (fun v r => { r with filter := v }) inside rfl new (by decide) rfl (fun _ => rfl)
    (fun filter given draft here => ?filter) fun members seen inside new => ?_
  case filter =>
    exact Draft.optional_of_complete here filter.toJson_ne_null
      (filter.ofDraft_of_complete (paired filter given) here)
  refine record_optionalMember ["symbolizers"] (fun v r => { r with scaleDenominator := v }) inside
    rfl new (by decide) rfl (fun _ => rfl) (fun range _ draft here => ?range)
    fun members seen inside new => ?_
  case range =>
    exact Draft.optional_of_complete here nofun (ScaleRange.ofDraft_of_complete here)
  refine Members.record_of_complete rule inside rfl (new _ (List.mem_singleton_self _))
    (fun draft here => ?symbolizers) fun others there => ?_
  case symbolizers =>
    have symbolizers : draft.list Symbolizer.ofDraft (levels - 1) = .ok rule.symbolizers :=
      Draft.list_of_complete here fun _ _ _ part => Symbolizer.ofDraft_of_complete part
    exact map_eq_ok_iff.mpr ⟨_, symbolizers, rfl⟩
  rw [Members.complete_eq_nil_iff.mp there]
  rfl

/-- A draft that says the value of a style is read as the style, if the filters of its rules can be.
-/
theorem Style.ofDraft_of_complete {style : Style} {levels : Nat} {draft : Draft}
    (paired : ∀ rule ∈ style.rules, ∀ filter ∈ rule.filter, filter.isPaired)
    (said : draft.complete levels = .ok style.toJson) : ofDraft levels draft = .ok style := by
  obtain ⟨left, members, rfl, inside⟩ := Draft.complete_eq_ok_iff.mp said
  rw [ofDraft, Draft.record, if_neg left]
  refine Members.record_of_complete { name := style.name } inside rfl List.not_mem_nil
    (fun draft here => ?name) fun members inside => ?_
  case name => exact map_eq_ok_iff.mpr ⟨_, Draft.word_of_complete _ here, rfl⟩
  refine Members.record_of_complete style inside rfl (by decide) (fun draft here => ?rules)
    fun members inside => ?_
  case rules =>
    have rules : draft.list Rule.ofDraft (levels - 1) = .ok style.rules :=
      Draft.list_of_complete here fun rule member _ part =>
        Rule.ofDraft_of_complete (paired rule member) part
    exact map_eq_ok_iff.mpr ⟨_, rules, rfl⟩
  rw [Members.complete_eq_nil_iff.mp inside]
  rfl

/-- A style is read back from its own document. -/
theorem Style.ofJsonText_jsonText {style : Style}
    (paired : ∀ rule ∈ style.rules, ∀ filter ∈ rule.filter, filter.isPaired)
    (fits : style.toJson.Fits levelLimit) : ofJsonText style.jsonText = .ok style :=
  decode_pretty (ofDraft_of_complete paired (Value.complete_draft_of_fits fits))

end CartoStyle
