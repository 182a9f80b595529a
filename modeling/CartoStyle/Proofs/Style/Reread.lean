import CartoStyle.Proofs.Conversion
import CartoStyle.Proofs.Json.Readable
import CartoStyle.Proofs.Style.Numbers

/-!
# Styles that are written and read

A style that is written as JSON is read again whenever its numbers are finite, its filters can be
read, and its document does not nest too deep. What is read is the style, with each number as its
own literal is read (`Style.ofJsonText_jsonText_of_isFinite`): all names, texts and words, all parts
that are given or left out, and the order of rules, symbolizers and operands are kept. Numbers with
short literals are kept too (`Number.isKept_of_isShort`), but not every number is
(`Style.ofJsonText_deepWater_ne`).
-/

namespace CartoStyle

open Json

namespace Style

variable {style : Style}

/-- A style is read with each number as its own literal is read. -/
theorem ofJsonText_jsonText_of_isReadable
    (paired : ∀ rule ∈ style.rules, ∀ filter ∈ rule.filter, filter.isPaired)
    (readable : style.toJson.IsReadable levelLimit) :
    ofJsonText style.jsonText = .ok (style.mapNumbers reread) := by
  have said := style.toJson.complete_draft readable
  rw [← toJson_mapNumbers] at said
  refine decode_pretty (ofDraft_of_complete ?_ said)
  intro rule member filter given
  obtain ⟨rule', member', rfl⟩ := List.mem_map.mp member
  obtain ⟨filter', given', rfl⟩ := Option.mem_map.mp given
  rw [Filter.isPaired_mapNumbers]
  exact paired rule' member' filter' given'

/-- A style is read back from its own document, each number as its own literal is read. So it is
the same style exactly if each number is kept. -/
theorem ofJsonText_jsonText_of_isFinite
    (paired : ∀ rule ∈ style.rules, ∀ filter ∈ rule.filter, filter.isPaired)
    (finite : ∀ number ∈ style.toJson.numbers, number.value.isFinite)
    (shallow : style.toJson.depth ≤ levelLimit) :
    ofJsonText style.jsonText = .ok (style.mapNumbers reread) ∧
      (ofJsonText style.jsonText = .ok style ↔
        ∀ number ∈ style.toJson.numbers, number.isKept) := by
  have readable := Value.isReadable_of_isFractional style.isFractional_toJson finite
  have read := ofJsonText_jsonText_of_isReadable paired ⟨readable, shallow⟩
  refine ⟨read, fun back => ?_, fun kept => ofJsonText_jsonText paired ⟨kept, shallow⟩⟩
  -- the style has not changed, so neither has its value, nor then any number of it
  have same : style.mapNumbers reread = style := Except.ok.inj (read.symm.trans back)
  apply (Value.mapNumbers_reread_eq_self_iff readable).mp
  rw [← toJson_mapNumbers, same]

end Style

/-- A rule for deep water, with a pattern of symbols in its area and a label beside it. -/
def deepWater (depth : Binary64) : Style where
  name := "water\x01"
  rules := [{
    filter := some (.combination .and [.negation (.comparison .equal "kind" .null),
      .comparison .greaterThan "depth" (.number depth)])
    scaleDenominator := some {}
    symbolizers := [
      .fill { graphicFill := some (.mark { radius := some .one }), outlineDasharray := some [] },
      .text { offset := some (.finite true .zero, .one) }] }]

namespace Style

theorem isPaired_deepWater :
    ∀ rule ∈ (deepWater faint).rules, ∀ filter ∈ rule.filter, filter.isPaired := by decide

theorem isFinite_deepWater :
    ∀ number ∈ (deepWater faint).toJson.numbers, number.value.isFinite := by decide

theorem depth_deepWater : (deepWater faint).toJson.depth ≤ levelLimit := by decide

theorem ofJsonText_deepWater :
    (∀ rule ∈ (deepWater faint).rules, ∀ filter ∈ rule.filter, filter.isPaired) ∧
    (∀ number ∈ (deepWater faint).toJson.numbers, number.value.isFinite) ∧
    (deepWater faint).toJson.depth ≤ levelLimit ∧
    ofJsonText (deepWater faint).jsonText = .ok ((deepWater faint).mapNumbers reread) ∧
    (ofJsonText (deepWater faint).jsonText = .ok (deepWater faint) ↔
      ∀ number ∈ (deepWater faint).toJson.numbers, number.isKept) :=
  ⟨isPaired_deepWater, isFinite_deepWater, depth_deepWater,
    ofJsonText_jsonText_of_isFinite isPaired_deepWater isFinite_deepWater depth_deepWater⟩

/-- The number in the filter comes back as its neighbour, all else as it was. -/
theorem ofJsonText_deepWater_ne :
    (∀ rule ∈ (deepWater faint).rules, ∀ filter ∈ rule.filter, filter.isPaired) ∧
    (∀ number ∈ (deepWater faint).toJson.numbers, number.value.isFinite) ∧
    (deepWater faint).toJson.depth ≤ levelLimit ∧
    ofJsonText (deepWater faint).jsonText = .ok (deepWater aboveFaint) ∧
    deepWater aboveFaint ≠ deepWater faint := by
  have depth : reread faint = aboveFaint := by decide +kernel
  have radius : reread .one = .one := by decide +kernel
  have shift : reread (.finite true .zero) = .finite true .zero := by decide +kernel
  have changed : (deepWater faint).mapNumbers reread = deepWater aboveFaint := by
    simp [deepWater, mapNumbers, Rule.mapNumbers, Filter.mapNumbers, Filter.mapNumbersList,
      FilterValue.mapNumbers, ScaleRange.mapNumbers, Symbolizer.mapNumbers, Fill.mapNumbers,
      Graphic.mapNumbers, Mark.mapNumbers, Label.mapNumbers, depth, radius, shift]
  refine ⟨isPaired_deepWater, isFinite_deepWater, depth_deepWater, ?_, fun same => ?_⟩
  · rw [← changed]
    exact ofJsonText_jsonText_of_isReadable isPaired_deepWater
      ⟨Value.isReadable_of_isFractional (isFractional_toJson _) isFinite_deepWater, depth_deepWater⟩
  · have numbers := congrArg (fun style => style.toJson.numbers) same
    exact absurd numbers (by decide)

end Style

end CartoStyle
