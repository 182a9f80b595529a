import CartoStyle.Proofs.Conversion
import CartoStyle.Proofs.Filter.Json
import CartoStyle.Proofs.Json.Parts
import CartoStyle.Proofs.Json.Readable
import CartoStyle.Proofs.Style.Numbers

/-!
# Arrays of filters

Which documents are filters can be said without a word on how they are read (`IsFilterArray`). A
document is read as a filter exactly if it holds such an array, and the filter is written as the
same array again, its numbers being fractions: nothing of the array is passed over. The filters that
are read so are those of `Filter.isDecoded`, and each of them is read from every document that says
its own array. Only where the digits of a number are read as another number does a filter not come
back from its document (`Filter.decode_ofDraft`).
-/

namespace CartoStyle

open Json

/-! ## Arrays that are filters -/

namespace Json.Value

mutual

/-- A value with each number as a fraction. -/
def fractions : Value → Value
  | .number spelled => .number (.fraction spelled.value)
  | .array items => .array (itemFractions items)
  | .object members => .object (memberFractions members)
  | other => other

def itemFractions : List Value → List Value
  | [] => []
  | item :: others => fractions item :: itemFractions others

def memberFractions : List (String × Value) → List (String × Value)
  | [] => []
  | (name, value) :: others => (name, fractions value) :: memberFractions others

end

/-- Nothing, a number or a text: what a property can be compared with. -/
def isComparable : Value → Bool
  | .null | .number _ | .string _ => true
  | _ => false

theorem itemFractions_eq_map (items : List Value) : itemFractions items = items.map fractions := by
  induction items with
  | nil => rfl
  | cons item others ih => rw [itemFractions, ih, List.map_cons]

end Json.Value

/-- The arrays of filters: three items for a comparison, an operator and two operands or more for a
combination, two items for a negation. -/
inductive IsFilterArray : Value → Prop
  | comparison (operator : ComparisonOperator) (property : String) {value : Value}
      (comparable : value.isComparable) :
      IsFilterArray (.array [.string operator.symbol, .string property, value])
  | combination (operator : CombinationOperator) {operands : List Value}
      (several : 2 ≤ operands.length) (each : ∀ operand ∈ operands, IsFilterArray operand) :
      IsFilterArray (.array (.string operator.symbol :: operands))
  | negation {operand : Value} (inside : IsFilterArray operand) :
      IsFilterArray (.array [.string negationSymbol, operand])

namespace FilterValue

theorem exists_ofJson {json : Value} (comparable : json.isComparable) :
    ∃ value, ofJson json = .ok value := by
  cases json with
  | null | number | string => exact ⟨_, rfl⟩
  | _ => cases comparable

theorem toJson_of_ofJson {json : Value} {value : FilterValue} (read : ofJson json = .ok value) :
    json.isComparable ∧ value.toJson = json.fractions := by
  cases json with
  | null | number | string =>
    cases read
    exact ⟨rfl, rfl⟩
  | _ => cases read

end FilterValue

/-- A word is what the draft of a string says. -/
theorem Json.Draft.complete_of_text {levels : Nat} {draft : Draft} {text : String}
    (read : draft.text = .ok text) : draft.complete levels = .ok (.string text) := by
  cases draft with
  | string pieces => exact map_eq_ok_iff.mpr ⟨text, read, rfl⟩
  | _ => cases read

namespace Filter

/-! ## What is read -/

theorem toJsonList_eq_map (filters : List Filter) : toJsonList filters = filters.map toJson := by
  induction filters with
  | nil => rfl
  | cons filter others ih => rw [toJsonList, ih, List.map_cons]

/-- The array that a filter was read from, behind its first item. -/
theorem complete_of_comparisonOfItems {levels : Nat} {operator : ComparisonOperator} {items : Items}
    {filter : Filter} (read : comparisonOfItems levels operator items = .ok filter) :
    ∃ values, items.complete levels = .ok values ∧
      IsFilterArray (.array (.string operator.symbol :: values)) ∧
      filter.toJson = (Value.array (.string operator.symbol :: values)).fractions := by
  obtain ⟨name, draft, property, json, value, rfl, spelled, complete, ofJson, rfl⟩ :=
    comparisonOfItems_cases read
  obtain ⟨comparable, same⟩ := FilterValue.toJson_of_ofJson ofJson
  refine ⟨[.string property, json], ?_, .comparison operator property comparable, ?_⟩
  · simp only [Items.complete, Draft.complete_of_text spelled, complete, ok_bind]
    rfl
  · rw [toJson, same]
    rfl

mutual

/-- What is read as a filter is the array of one, and is written as the same array. -/
theorem complete_of_ofDraft {levels : Nat} {draft : Draft} {filter : Filter}
    (read : ofDraft levels draft = .ok filter) :
    ∃ value, draft.complete levels = .ok value ∧ IsFilterArray value ∧
      filter.toJson = value.fractions := by
  cases draft with
  | array items =>
    rw [ofDraft] at read
    split at read
    · cases read
    · rename_i left
      obtain ⟨values, inside, accepted, same⟩ := complete_of_ofItems read
      refine ⟨.array values, ?_, accepted, same⟩
      rw [Draft.complete, if_neg left, inside]
      rfl
  | _ => cases read

theorem complete_of_ofItems {levels : Nat} {items : Items} {filter : Filter}
    (read : ofItems levels items = .ok filter) :
    ∃ values, items.complete levels = .ok values ∧ IsFilterArray (.array values) ∧
      filter.toJson = (Value.array values).fractions := by
  cases items with
  | item first others =>
    obtain ⟨word, spelled, comparison | combination | ⟨rfl, negation⟩⟩ := ofItems_item_cases read
    · obtain ⟨operator, known, compared⟩ := comparison
      obtain rfl := Vocabulary.ofKeyword?_eq_some_iff.mp known
      obtain ⟨values, inside, accepted, same⟩ := complete_of_comparisonOfItems compared
      refine ⟨_, ?_, accepted, same⟩
      rw [Items.complete, Draft.complete_of_text spelled, ok_bind, inside]
      rfl
    · obtain ⟨operator, operands, known, inside, several, rfl⟩ := combination
      obtain rfl := Vocabulary.ofKeyword?_eq_some_iff.mp known
      obtain ⟨values, there, each, same⟩ := complete_of_operandsOfItems inside
      have lengths := congrArg List.length same
      rw [toJsonList_eq_map, Value.itemFractions_eq_map, List.length_map, List.length_map]
        at lengths
      refine ⟨_, ?_, .combination operator (by omega) each, ?_⟩
      · rw [Items.complete, Draft.complete_of_text spelled, ok_bind, there]
        rfl
      · rw [toJson, same]
        rfl
    · obtain ⟨values, inside, accepted, same⟩ := complete_of_negationOfItems negation
      refine ⟨_, ?_, accepted, same⟩
      rw [Items.complete, Draft.complete_of_text spelled, ok_bind, inside]
      rfl
  | _ => cases read

theorem complete_of_operandsOfItems {levels : Nat} {items : Items} {filters : List Filter}
    (read : operandsOfItems levels items = .ok filters) :
    ∃ values, items.complete levels = .ok values ∧ (∀ value ∈ values, IsFilterArray value) ∧
      toJsonList filters = Value.itemFractions values := by
  cases items with
  | closed =>
    cases read
    exact ⟨[], rfl, nofun, rfl⟩
  | broken fault => cases read
  | item first others =>
    rw [operandsOfItems] at read
    obtain ⟨operand, here, read⟩ := bind_eq_ok_iff.mp read
    obtain ⟨operands, there, read⟩ := bind_eq_ok_iff.mp read
    cases read
    obtain ⟨value, complete, accepted, same⟩ := complete_of_ofDraft here
    obtain ⟨values, complete', each, same'⟩ := complete_of_operandsOfItems there
    refine ⟨value :: values, ?_, List.forall_mem_cons.mpr ⟨accepted, each⟩, ?_⟩
    · rw [Items.complete, complete, ok_bind, complete']
      rfl
    · rw [toJsonList, same, same', Value.itemFractions]

theorem complete_of_negationOfItems {levels : Nat} {items : Items} {filter : Filter}
    (read : negationOfItems levels items = .ok filter) :
    ∃ values, items.complete levels = .ok values ∧
      IsFilterArray (.array (.string negationSymbol :: values)) ∧
      filter.toJson = (Value.array (.string negationSymbol :: values)).fractions := by
  cases items with
  | item first others =>
    obtain ⟨operand, rfl, inside, rfl⟩ := negationOfItems_cases read
    obtain ⟨value, complete, accepted, same⟩ := complete_of_ofDraft inside
    refine ⟨[value], ?_, .negation accepted, ?_⟩
    · rw [Items.complete, complete]
      rfl
    · rw [toJson, same]
      rfl
  | _ => cases read

end

/-- Operands are read if each of them is. -/
theorem exists_operandsOfItems {levels : Nat} {items : Items} {values : List Value}
    (said : items.complete levels = .ok values)
    (each : ∀ value ∈ values, ∀ draft : Draft, draft.complete levels = .ok value →
      ∃ filter, ofDraft levels draft = .ok filter) :
    ∃ filters, operandsOfItems levels items = .ok filters ∧ filters.length = values.length := by
  induction values generalizing items with
  | nil =>
    rw [Items.complete_eq_nil_iff.mp said]
    exact ⟨[], rfl, rfl⟩
  | cons value values ih =>
    obtain ⟨first, others, rfl, here, there⟩ := Items.complete_eq_cons_iff.mp said
    obtain ⟨filter, read⟩ := each value (List.mem_cons_self ..) first here
    obtain ⟨filters, rest, same⟩ := ih there fun value member =>
      each value (List.mem_cons_of_mem _ member)
    refine ⟨filter :: filters, ?_, by rw [List.length_cons, same, List.length_cons]⟩
    rw [operandsOfItems, read, ok_bind, rest]
    rfl

/-- The array of a filter is read. -/
theorem exists_ofDraft {value : Value} (accepted : IsFilterArray value) {levels : Nat}
    {draft : Draft} (said : draft.complete levels = .ok value) :
    ∃ filter, ofDraft levels draft = .ok filter := by
  induction accepted generalizing levels draft with
  | comparison operator property comparable =>
    obtain ⟨left, items, rfl, inside⟩ := Draft.complete_eq_ok_iff.mp said
    obtain ⟨first, _, rfl, symbol, inside⟩ := Items.complete_eq_cons_iff.mp inside
    obtain ⟨second, _, rfl, name, inside⟩ := Items.complete_eq_cons_iff.mp inside
    obtain ⟨third, _, rfl, whole, inside⟩ := Items.complete_eq_cons_iff.mp inside
    obtain ⟨value, read⟩ := FilterValue.exists_ofJson comparable
    rw [ofDraft, if_neg left, Items.complete_eq_nil_iff.mp inside]
    exact ⟨_, ofItems_comparison symbol name whole read⟩
  | combination operator several each ih =>
    obtain ⟨left, items, rfl, inside⟩ := Draft.complete_eq_ok_iff.mp said
    obtain ⟨first, others, rfl, symbol, inside⟩ := Items.complete_eq_cons_iff.mp inside
    obtain ⟨filters, read, same⟩ := exists_operandsOfItems inside
      fun value member draft complete => ih value member complete
    rw [ofDraft, if_neg left]
    exact ⟨_, ofItems_combination symbol read (by omega)⟩
  | negation accepted ih =>
    obtain ⟨left, items, rfl, inside⟩ := Draft.complete_eq_ok_iff.mp said
    obtain ⟨first, _, rfl, symbol, inside⟩ := Items.complete_eq_cons_iff.mp inside
    obtain ⟨second, _, rfl, whole, inside⟩ := Items.complete_eq_cons_iff.mp inside
    obtain ⟨operand, read⟩ := ih whole
    rw [ofDraft, if_neg left, Items.complete_eq_nil_iff.mp inside]
    exact ⟨_, ofItems_negation symbol read⟩

/-! ## What is written -/

/-- The numbers of a filter are finite if those of its comparisons are. -/
theorem isFinite_of_mem_numbers {filter : Filter} (measured : filter.every isMeasured) :
    ∀ number ∈ filter.toJson.numbers, number.value.isFinite := by
  intro number present
  induction filter using inductionOn with
  | comparison operator property value =>
    cases value with
    | number x =>
      obtain rfl : number = .fraction x := by
        simpa [toJson, FilterValue.toJson, Value.numbers, Value.itemNumbers] using present
      exact measured
    | null | text => simp [toJson, FilterValue.toJson, Value.numbers, Value.itemNumbers] at present
  | combination operator operands ih =>
    rw [toJson, toJsonList_eq_map, Value.numbers, Value.mem_itemNumbers] at present
    obtain ⟨item, member, inside⟩ := present
    rcases List.mem_cons.mp member with rfl | member
    · simp [Value.numbers] at inside
    · obtain ⟨operand, known, rfl⟩ := List.mem_map.mp member
      exact ih operand known (everyOperand_iff.mp measured operand known) inside
  | negation operand ih =>
    apply ih measured
    simpa [toJson, Value.numbers, Value.itemNumbers] using present

section Documents

variable {filter : Filter}

/-- A filter is read from its own document with each number as its own literal is read. So it is
the same filter exactly if each number is kept. -/
theorem decode_chars_toJson (decoded : filter.isDecoded)
    (shallow : filter.toJson.depth ≤ levelLimit) (level : Option Nat) :
    decode ofDraft (String.ofList (filter.toJson.chars level)) = .ok (filter.mapNumbers reread) ∧
      (decode ofDraft (String.ofList (filter.toJson.chars level)) = .ok filter ↔
        ∀ number ∈ filter.toJson.numbers, number.isKept) := by
  obtain ⟨paired, measured⟩ := Bool.and_eq_true_iff.mp decoded
  have readable := Value.isReadable_of_isFractional filter.isFractional_toJson
    (isFinite_of_mem_numbers measured)
  have said := filter.toJson.complete_draft ⟨readable, shallow⟩
  rw [← toJson_mapNumbers] at said
  have read := decode_chars level
    (ofDraft_of_complete (filter.mapNumbers reread) (by rwa [isPaired_mapNumbers]) said)
  refine ⟨read, fun back => ?_, fun kept => ?_⟩
  · have same : filter.mapNumbers reread = filter := Except.ok.inj (read.symm.trans back)
    apply (Value.mapNumbers_reread_eq_self_iff readable).mp
    rw [← toJson_mapNumbers, same]
  · exact decode_chars level
      (ofDraft_of_complete filter paired (Value.complete_draft_of_fits ⟨kept, shallow⟩))

/-- What is decoded as a filter is a document, and it holds the array of the filter. -/
theorem complete_of_decode {text : String} (found : decode ofDraft text = .ok filter) :
    ∃ value, decode Draft.complete text = .ok value ∧ IsFilterArray value ∧
      filter.toJson = value.fractions := by
  obtain ⟨read, ended⟩ := decode_eq_ok_iff.mp found
  obtain ⟨value, said, accepted, same⟩ := complete_of_ofDraft read
  exact ⟨value, decode_eq_ok_iff.mpr ⟨said, ended⟩, accepted, same⟩

/-- The documents that are read as filters are those that hold the array of one. The filter is
written as this array, whose numbers have become fractions. And a filter with operands enough and
finite numbers is read from whatever says its own array; from the document that is written of it, it
is read with each number as its own literal is read. -/
theorem decode_ofDraft (text : String) (filter : Filter) :
    (∀ value, decode Draft.complete text = .ok value →
      ((∃ filter, decode ofDraft text = .ok filter) ↔ IsFilterArray value) ∧
      (decode ofDraft text = .ok filter → filter.toJson = value.fractions)) ∧
    (decode ofDraft text = .ok filter → ∃ value, decode Draft.complete text = .ok value) ∧
    (filter.isDecoded → filter.toJson.depth ≤ levelLimit →
      (decode Draft.complete text = .ok filter.toJson → decode ofDraft text = .ok filter) ∧
      ∀ level,
        decode ofDraft (String.ofList (filter.toJson.chars level)) =
          .ok (filter.mapNumbers reread) ∧
        (decode ofDraft (String.ofList (filter.toJson.chars level)) = .ok filter ↔
          ∀ number ∈ filter.toJson.numbers, number.isKept)) := by
  refine ⟨fun value said => ⟨⟨?_, fun accepted => ?_⟩, fun found => ?_⟩, fun found => ?_,
    fun decoded shallow => ⟨fun said => ?_, decode_chars_toJson decoded shallow⟩⟩
  · rintro ⟨filter', found⟩
    obtain ⟨value', said', accepted, -⟩ := complete_of_decode found
    cases said.symm.trans said'
    exact accepted
  · obtain ⟨said, ended⟩ := decode_eq_ok_iff.mp said
    obtain ⟨filter', read⟩ := exists_ofDraft accepted said
    exact ⟨filter', decode_eq_ok_iff.mpr ⟨read, ended⟩⟩
  · obtain ⟨value', said', -, same⟩ := complete_of_decode found
    cases said.symm.trans said'
    exact same
  · obtain ⟨value, said, -, -⟩ := complete_of_decode found
    exact ⟨value, said⟩
  · obtain ⟨said, ended⟩ := decode_eq_ok_iff.mp said
    obtain ⟨paired, -⟩ := Bool.and_eq_true_iff.mp decoded
    exact decode_eq_ok_iff.mpr ⟨ofDraft_of_complete filter paired said, ended⟩

end Documents

/-- The array of roads that have some lanes and a name. -/
def namedRoads (lanes : Number) : Value :=
  .array [.string "&&", .array [.string "==", .string "lanes", .number lanes],
    .array [.string "!", .array [.string "==", .string "name", .null]]]

/-- The filter of water that is deeper than something. -/
def deeperThan (depth : Binary64) : Filter := .comparison .greaterThan "depth" (.number depth)

theorem decode_ofDraft_namedRoads :
    decode Draft.complete (namedRoads (.whole 2)).compact = .ok (namedRoads (.whole 2)) ∧
    (∃ filter, decode ofDraft (namedRoads (.whole 2)).compact = .ok filter ∧
      filter.toJson = namedRoads (.fraction (.ofInt 2))) ∧
    (deeperThan .one).isDecoded ∧ (deeperThan .one).toJson.depth ≤ levelLimit ∧
    decode ofDraft (deeperThan .one).toJson.compact = .ok (deeperThan .one) := by
  have fits : (namedRoads (.whole 2)).Fits levelLimit :=
    ⟨Value.isKept_of_all_isShort (by decide +kernel), by decide⟩
  have said := decode_chars none (Value.complete_draft_of_fits fits)
  have accepted : IsFilterArray (namedRoads (.whole 2)) :=
    .combination .and (by decide) (List.forall_mem_cons.mpr ⟨.comparison .equal "lanes" rfl,
      List.forall_mem_singleton.mpr (.negation (.comparison .equal "name" rfl))⟩)
  obtain ⟨filter, found⟩ := (((decode_ofDraft _ (deeperThan .one)).1 _ said).1).mpr accepted
  have written := ((decode_ofDraft _ filter).1 _ said).2 found
  have decoded : (deeperThan .one).isDecoded := by decide
  have shallow : (deeperThan .one).toJson.depth ≤ levelLimit := by decide
  have own := ((decode_ofDraft "" (deeperThan .one)).2.2 decoded shallow).2 none
  have kept : ∀ number ∈ (deeperThan .one).toJson.numbers, number.isKept :=
    Value.isKept_of_all_isShort (by decide +kernel)
  exact ⟨said, ⟨filter, found, written⟩, decoded, shallow, own.2.mpr kept⟩

/-- A number can be read from the document of a filter as its neighbour. -/
theorem decode_deeperThan_faint :
    (deeperThan faint).isDecoded ∧ (deeperThan faint).toJson.depth ≤ levelLimit ∧
    decode ofDraft (deeperThan faint).toJson.compact = .ok (deeperThan aboveFaint) ∧
    deeperThan aboveFaint ≠ deeperThan faint := by
  have decoded : (deeperThan faint).isDecoded := by decide
  have shallow : (deeperThan faint).toJson.depth ≤ levelLimit := by decide
  have neighbour : reread faint = aboveFaint := by decide +kernel
  refine ⟨decoded, shallow, ?_, fun same => ?_⟩
  · have read := (decode_chars_toJson decoded shallow none).1
    rwa [deeperThan, mapNumbers, FilterValue.mapNumbers, neighbour] at read
  · have numbers := congrArg (fun filter => filter.toJson.numbers) same
    exact absurd numbers (by decide)

end Filter

end CartoStyle
