import CartoStyle.Conversion
import CartoStyle.Proofs.Filter.Parsed
import CartoStyle.Proofs.Json.Kept
import CartoStyle.Proofs.Style.Json
import CartoStyle.Proofs.Stylesheet.Document

/-!
# Stylesheets converted to JSON

Each rule of a style that is read from a stylesheet comes from an element of its own, and its filter
from an expression, so that its combinations have two operands. The style is then read back from its
JSON document if each of its numbers is, and if the document does not nest too deep
(`ofJsonText_readStylesheet`).

Not every number is. One without digits is `null` in JSON, and that leaves a part out; and of some
with seventeen digits it is a neighbour that is read (`ofJsonText_readStylesheet_faint`).
-/

namespace CartoStyle

open Json Stylesheet
open Xml (Element)

namespace Rule

/-- The filter of a rule comes from an expression. -/
theorem exists_parse_of_filterOfText {text : String} {filter : Filter}
    (read : filterOfText text = .ok (some filter)) :
    ∃ expression, Expression.parse expression = .ok filter := by
  simp only [filterOfText] at read
  split at read
  · cases read
  · split at read
    · rename_i parsed
      cases read
      exact ⟨_, parsed⟩
    · cases read

theorem exists_parse_of_ofElement {element : Element} {rule : Rule}
    (read : (ofElement element).result = .ok rule) {filter : Filter}
    (given : filter ∈ rule.filter) :
    ∃ expression, Expression.parse expression = .ok filter := by
  rw [result_ofElement_eq] at read
  obtain ⟨found, here, read⟩ := bind_eq_ok_iff.mp read
  obtain ⟨symbolizers, -, read⟩ := bind_eq_ok_iff.mp read
  obtain ⟨range, -, read⟩ := bind_eq_ok_iff.mp read
  cases read
  obtain rfl : found = some filter := given
  split at here
  · exact exists_parse_of_filterOfText here
  · cases here

end Rule

namespace Style

theorem exists_ofElement_of_rulesOf {index : Nat} {elements : List Element} {rules : List Rule}
    (read : (rulesOf index elements).result = .ok rules) {rule : Rule} (member : rule ∈ rules) :
    ∃ element, (Rule.ofElement element).result = .ok rule := by
  induction elements generalizing index rules with
  | nil =>
    cases read
    cases member
  | cons child others ih =>
    rw [rulesOf] at read
    split at read
    · simp only [Traced.result_bind, Traced.result_mapProblem, Traced.result_pure] at read
      obtain ⟨first, here, read⟩ := bind_eq_ok_iff.mp read
      obtain ⟨rest, there, read⟩ := bind_eq_ok_iff.mp read
      cases read
      rcases List.mem_cons.mp member with rfl | later
      · exact ⟨child, mapError_eq_ok_iff.mp here⟩
      · exact ih there later
    · simp only [Traced.result_bind, Traced.result_note, ok_bind] at read
      exact ih read member

/-- The rules of a style that is read come from elements. -/
theorem exists_ofElement_of_ofXml {source : String} {style : Style}
    (read : (ofXml source).result = .ok style) {rule : Rule} (member : rule ∈ style.rules) :
    ∃ element, (Rule.ofElement element).result = .ok rule := by
  rw [ofXml] at read
  split at read
  · simp only [ofElement, Traced.result_bind, Traced.result_note, Traced.result_pure,
      ok_bind] at read
    obtain ⟨element, -, read⟩ := bind_eq_ok_iff.mp read
    obtain ⟨rules, here, read⟩ := bind_eq_ok_iff.mp read
    cases read
    exact exists_ofElement_of_rulesOf here member
  · cases read

theorem isPaired_of_ofXml {source : String} {style : Style}
    (read : (ofXml source).result = .ok style) :
    ∀ rule ∈ style.rules, ∀ filter ∈ rule.filter, filter.isPaired := by
  intro rule member filter given
  obtain ⟨element, here⟩ := exists_ofElement_of_ofXml read member
  obtain ⟨expression, parsed⟩ := Rule.exists_parse_of_ofElement here given
  exact (Expression.isWritable_of_parse parsed).1

end Style

theorem readStylesheet_of_ofXml {source : String} {style : Style}
    (read : (Style.ofXml source).result = .ok style) :
    readStylesheet source = .ok style.jsonText := by
  rw [readStylesheet, read]
  rfl

/-- A stylesheet is converted to a document that is read as the same style, if each number of the
document is read back and the document does not nest too deep. -/
theorem ofJsonText_readStylesheet {source : String} {style : Style}
    (read : (Style.ofXml source).result = .ok style)
    (kept : ∀ number ∈ style.toJson.numbers, number.isKept)
    (shallow : style.toJson.depth ≤ levelLimit) :
    ∃ json, readStylesheet source = .ok json ∧ Style.ofJsonText json = .ok style :=
  ⟨_, readStylesheet_of_ofXml read,
    Style.ofJsonText_jsonText (Style.isPaired_of_ofXml read) ⟨kept, shallow⟩⟩

/-- Hidden rivers: a filter, a range of scales and a dashed line. -/
def rivers : Style where
  name := "rivers"
  rules := [{
    filter := some (.combination .and [.negation (.comparison .equal "class" (.text "dry")),
      .comparison .lessThan "width" (.number .one)])
    scaleDenominator := some { max := some .one }
    symbolizers := [.line { opacity := some .zero, dasharray := some [.one, .zero] }] }]

theorem ofJsonText_readStylesheet_rivers : ∃ source json, (Style.ofXml source).result = .ok rivers ∧
    (∀ number ∈ rivers.toJson.numbers, number.isKept) ∧ rivers.toJson.depth ≤ levelLimit ∧
    readStylesheet source = .ok json ∧ Style.ofJsonText json = .ok rivers := by
  obtain ⟨source, -, read⟩ := @Style.exists_toXml_of_isSound {} rivers (by decide) (by decide)
    (by decide) (fun _ _ _ _ child _ => Style.leaves_of_areBare rfl child) (by decide) ⟨_, rfl⟩
  have kept : ∀ number ∈ rivers.toJson.numbers, number.isKept :=
    Value.isKept_of_all_isShort (by decide +kernel)
  have shallow : rivers.toJson.depth ≤ levelLimit := by decide +kernel
  obtain ⟨json, converted, back⟩ := ofJsonText_readStylesheet read kept shallow
  exact ⟨source, json, read, kept, shallow, converted, back⟩

/-- A cover of the map. -/
def cover (opacity : Binary64) : Style where
  rules := [{ symbolizers := [.raster { opacity := some opacity }] }]

theorem exists_toXml_cover (opacity : Binary64) :
    ∃ text, ((cover opacity).toXml {}).result = .ok text ∧
      (Style.ofXml text).result = .ok (cover opacity) :=
  @Style.exists_toXml_of_isSound {} (cover opacity) rfl rfl rfl
    (fun _ _ _ _ child _ => Style.leaves_of_areBare rfl child) rfl ⟨_, rfl⟩

/-- The number that `0.9424502837770503` is nearest to. -/
def faint : Binary64 :=
  .finite false ⟨8488837493667084, 1021, by decide, by decide, .inr (by decide)⟩

/-- The number next above it. -/
def aboveFaint : Binary64 :=
  .finite false ⟨8488837493667085, 1021, by decide, by decide, .inr (by decide)⟩

/-- Reading rounds the digits of a document and then their quotient by a power of ten, so that a
number can come back as its neighbour. -/
theorem ofJsonText_readStylesheet_faint : ∃ source json,
    (Style.ofXml source).result = .ok (cover faint) ∧ readStylesheet source = .ok json ∧
    ∃ read, Style.ofJsonText json = .ok read ∧ read ≠ cover faint := by
  obtain ⟨source, -, read⟩ := exists_toXml_cover faint
  have back : (Style.ofDraft levelLimit (cover faint).toJson.draft).map
      (fun style => style.rules.map Rule.symbolizers) =
        .ok [[.raster { opacity := some aboveFaint }]] := by
    decide +kernel
  obtain ⟨style, decoded, drawn⟩ := map_eq_ok_iff.mp back
  refine ⟨source, _, read, readStylesheet_of_ofXml read, style, decode_pretty decoded, ?_⟩
  rintro rfl
  exact absurd drawn (by decide)

end CartoStyle
