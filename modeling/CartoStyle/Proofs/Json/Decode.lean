import CartoStyle.Json.Decode
import CartoStyle.Proofs.Json.Numbers
import CartoStyle.Proofs.Json.Written
import CartoStyle.Proofs.Outcome

/-!
# What drafts say

A draft says what it is completed to, however its strings and numbers are spelled. What it is made
of follows from that (`Draft.complete_eq_ok_iff`), so that a reader finds the parts that it asks
for: items are read one by one (`Draft.list_of_complete`), and members as the fields of a record
(`Members.record_of_complete`).

The draft of a value says the value itself, but for the numbers that are not kept
(`Value.complete_draft`), if the numbers are readable and arrays and objects do not nest deeper than
the levels that are left. What is read from the draft is decoded from the document
(`decode_pretty`).
-/

namespace CartoStyle.Json

/-! ## Parts of a draft -/

section Parts

variable {levels : Nat} {draft : Draft}

theorem Draft.ofPieces_pieces (text : String) : Draft.ofPieces (pieces text) = .ok text := by
  rw [Draft.ofPieces, stringOf?_pieces]

/-- What a draft is made of if it is completed to a value. -/
def Draft.Holds (levels : Nat) (draft : Draft) : Value → Prop
  | .null => draft = .null
  | .bool value => draft = .bool value
  | .number value => ∃ literal, draft = .number literal ∧ literal.number? = some value
  | .string text => ∃ pieces, draft = .string pieces ∧ Draft.ofPieces pieces = .ok text
  | .array values =>
    levels ≠ 0 ∧ ∃ items, draft = .array items ∧ items.complete (levels - 1) = .ok values
  | .object values =>
    levels ≠ 0 ∧ ∃ members, draft = .object members ∧ members.complete (levels - 1) = .ok values

theorem Draft.holds_of_complete {value : Value} (said : draft.complete levels = .ok value) :
    draft.Holds levels value := by
  cases draft with
  | null | bool _ =>
    cases said
    rfl
  | number literal =>
    rw [complete] at said
    split at said
    · cases said
      exact ⟨literal, rfl, ‹_›⟩
    · cases said
  | string pieces =>
    obtain ⟨text, spelled, rfl⟩ := map_eq_ok_iff.mp said
    exact ⟨pieces, rfl, spelled⟩
  | array items =>
    rw [complete] at said
    split at said
    · cases said
    · obtain ⟨values, inside, rfl⟩ := map_eq_ok_iff.mp said
      exact ⟨‹_›, items, rfl, inside⟩
  | object members =>
    rw [complete] at said
    split at said
    · cases said
    · obtain ⟨values, inside, rfl⟩ := map_eq_ok_iff.mp said
      exact ⟨‹_›, members, rfl, inside⟩
  | broken read skipped => cases said

theorem Draft.complete_of_holds {value : Value} (holds : draft.Holds levels value) :
    draft.complete levels = .ok value := by
  cases value with
  | null | bool _ =>
    cases holds
    rfl
  | number value =>
    obtain ⟨literal, rfl, read⟩ := holds
    rw [complete, read]
  | string text =>
    obtain ⟨pieces, rfl, spelled⟩ := holds
    exact map_eq_ok_iff.mpr ⟨text, spelled, rfl⟩
  | array values =>
    obtain ⟨left, items, rfl, inside⟩ := holds
    rw [complete, if_neg left, inside]
    rfl
  | object values =>
    obtain ⟨left, members, rfl, inside⟩ := holds
    rw [complete, if_neg left, inside]
    rfl

theorem Draft.complete_eq_ok_iff {value : Value} :
    draft.complete levels = .ok value ↔ draft.Holds levels value :=
  ⟨holds_of_complete, complete_of_holds⟩

theorem Items.complete_eq_nil_iff {items : Items} :
    items.complete levels = .ok [] ↔ items = .closed := by
  cases items with
  | closed => exact iff_of_true rfl rfl
  | broken fault => exact iff_of_false nofun nofun
  | item first others =>
    refine iff_of_false (fun said => ?_) nofun
    obtain ⟨value, -, said⟩ := bind_eq_ok_iff.mp said
    obtain ⟨values, -, said⟩ := bind_eq_ok_iff.mp said
    cases said

theorem Items.complete_eq_cons_iff {items : Items} {value : Value} {values : List Value} :
    items.complete levels = .ok (value :: values) ↔ ∃ first others, items = .item first others ∧
      first.complete levels = .ok value ∧ others.complete levels = .ok values := by
  constructor
  · intro said
    cases items with
    | closed | broken _ => cases said
    | item first others =>
      obtain ⟨value', here, said⟩ := bind_eq_ok_iff.mp said
      obtain ⟨values', there, said⟩ := bind_eq_ok_iff.mp said
      cases said
      exact ⟨first, others, rfl, here, there⟩
  · rintro ⟨first, others, rfl, here, there⟩
    rw [complete, here, there]
    rfl

theorem Members.complete_eq_nil_iff {members : Members} :
    members.complete levels = .ok [] ↔ members = .closed := by
  cases members with
  | closed => exact iff_of_true rfl rfl
  | broken read skipped => exact iff_of_false nofun nofun
  | member name value others =>
    refine iff_of_false (fun said => ?_) nofun
    obtain ⟨name, -, said⟩ := bind_eq_ok_iff.mp said
    obtain ⟨value, -, said⟩ := bind_eq_ok_iff.mp said
    obtain ⟨values, -, said⟩ := bind_eq_ok_iff.mp said
    cases said

theorem Members.complete_eq_cons_iff {members : Members} {name : String} {value : Value}
    {values : List (String × Value)} :
    members.complete levels = .ok ((name, value) :: values) ↔
      ∃ pieces first others, members = .member pieces first others ∧
        Draft.ofPieces pieces = .ok name ∧ first.complete levels = .ok value ∧
        others.complete levels = .ok values := by
  constructor
  · intro said
    cases members with
    | closed | broken _ _ => cases said
    | member pieces first others =>
      obtain ⟨name', spelled, said⟩ := bind_eq_ok_iff.mp said
      obtain ⟨value', here, said⟩ := bind_eq_ok_iff.mp said
      obtain ⟨values', there, said⟩ := bind_eq_ok_iff.mp said
      cases said
      exact ⟨pieces, first, others, rfl, spelled, here, there⟩
  · rintro ⟨pieces, first, others, rfl, spelled, here, there⟩
    rw [complete, spelled, here, there]
    rfl

end Parts

/-! ## Reading what a draft says -/

section Reading

variable {α σ : Type} {levels : Nat} {draft : Draft}

theorem Draft.word_of_complete {text : String} (expected : String)
    (said : draft.complete levels = .ok (.string text)) : draft.word expected = .ok text := by
  obtain ⟨pieces, rfl, spelled⟩ := complete_eq_ok_iff.mp said
  exact spelled

theorem Draft.binary64_of_complete {number : Number}
    (said : draft.complete levels = .ok (.number number)) : draft.binary64 = .ok number.value := by
  obtain ⟨literal, rfl, read⟩ := complete_eq_ok_iff.mp said
  rw [binary64, read]

/-- A value other than `null` is read as something that is there. -/
theorem Draft.optional_of_complete {value : Value} {a : α} {read : Draft → Except Problem α}
    (said : draft.complete levels = .ok value) (visible : value ≠ .null)
    (found : read draft = .ok a) : draft.optional read = .ok (some a) := by
  cases draft with
  | null =>
    cases said
    exact absurd rfl visible
  | _ =>
    rw [optional, found]
    · rfl
    · nofun

theorem Items.list_of_complete {write : α → Value} {read : Draft → Except Problem α}
    {items : Items} {values : List α} (said : items.complete levels = .ok (values.map write))
    (each : ∀ a ∈ values, ∀ item : Draft, item.complete levels = .ok (write a) →
      read item = .ok a) : items.list read = .ok values := by
  induction values generalizing items with
  | nil =>
    rw [complete_eq_nil_iff.mp said]
    rfl
  | cons a values ih =>
    obtain ⟨first, others, rfl, here, there⟩ := complete_eq_cons_iff.mp said
    have rest := ih there fun a member => each a (List.mem_cons_of_mem _ member)
    rw [list, each a (List.mem_cons_self ..) first here, ok_bind, rest]
    rfl

/-- A list is read if its items are. -/
theorem Draft.list_of_complete {write : α → Value} {read : Nat → Draft → Except Problem α}
    {values : List α} (said : draft.complete levels = .ok (.array (values.map write)))
    (each : ∀ a ∈ values, ∀ item : Draft, item.complete (levels - 1) = .ok (write a) →
      read (levels - 1) item = .ok a) : draft.list read levels = .ok values := by
  obtain ⟨left, items, rfl, inside⟩ := complete_eq_ok_iff.mp said
  rw [list, if_neg left, Items.list_of_complete inside each]

/-- The first member is read as the field of its name, and the others after it. -/
theorem Members.record_of_complete {fields : List (Field σ)} {field : Field σ} {members : Members}
    {seen : List String} {name : String} {value : Value} {values : List (String × Value)}
    {start result : σ} (middle : σ) (said : members.complete levels = .ok ((name, value) :: values))
    (found : fields.find? (·.answersTo name) = some field) (new : field.name ∉ seen)
    (read : ∀ draft : Draft, draft.complete levels = .ok value →
      field.read levels draft start = .ok middle)
    (rest : ∀ others : Members, others.complete levels = .ok values →
      others.record fields levels (field.name :: seen) middle = .ok result) :
    members.record fields levels seen start = .ok result := by
  obtain ⟨pieces, first, others, rfl, spelled, here, there⟩ := complete_eq_cons_iff.mp said
  rw [record, spelled, ok_bind, found]
  simp only [List.contains_iff_mem, new, if_false, read first here, ok_bind]
  exact rest others there

end Reading

/-! ## Written values -/

namespace Value

variable {levels : Nat}

/-- A value whose draft can be completed where some levels are left. -/
structure IsReadable (value : Value) (levels : Nat) : Prop where
  readable : ∀ number ∈ value.numbers, number.isReadable
  shallow : value.depth ≤ levels

theorem isReadable_array_iff {items : List Value} : (Value.array items).IsReadable levels ↔
    levels ≠ 0 ∧ ∀ item ∈ items, item.IsReadable (levels - 1) := by
  constructor
  · rintro ⟨readable, shallow⟩
    rw [depth] at shallow
    have inside := itemDepth_le_iff.mp (show itemDepth items ≤ levels - 1 by omega)
    exact ⟨by omega, fun item member =>
      ⟨fun n present => readable n (mem_itemNumbers.mpr ⟨item, member, present⟩),
        inside item member⟩⟩
  · rintro ⟨left, each⟩
    have inside := itemDepth_le_iff.mpr fun item member => (each item member).shallow
    refine ⟨fun n present => ?_, by rw [depth]; omega⟩
    obtain ⟨item, member, present⟩ := mem_itemNumbers.mp present
    exact (each item member).readable n present

theorem isReadable_object_iff {members : List (String × Value)} :
    (Value.object members).IsReadable levels ↔
      levels ≠ 0 ∧ ∀ member ∈ members, member.2.IsReadable (levels - 1) := by
  constructor
  · rintro ⟨readable, shallow⟩
    rw [depth] at shallow
    have inside := memberDepth_le_iff.mp (show memberDepth members ≤ levels - 1 by omega)
    exact ⟨by omega, fun member given =>
      ⟨fun n present => readable n (mem_memberNumbers.mpr ⟨member, given, present⟩),
        inside member given⟩⟩
  · rintro ⟨left, each⟩
    have inside := memberDepth_le_iff.mpr fun member given => (each member given).shallow
    refine ⟨fun n present => ?_, by rw [depth]; omega⟩
    obtain ⟨member, given, present⟩ := mem_memberNumbers.mp present
    exact (each member given).readable n present

theorem isReadable_number_iff {number : Number} :
    (Value.number number).IsReadable levels ↔ number.isReadable := by
  constructor
  · intro readable
    exact readable.readable number (List.mem_singleton_self _)
  · intro readable
    refine ⟨fun n present => ?_, Nat.zero_le _⟩
    rwa [List.mem_singleton.mp present]

mutual

/-- The draft of a value says the value, with each number as it is read from its literal. -/
theorem complete_draft (value : Value) {levels : Nat} (readable : value.IsReadable levels) :
    value.draft.complete levels = .ok (value.mapNumbers reread) := by
  match value with
  | .null | .bool _ => rfl
  | .number spelling =>
    obtain ⟨literal, spelled, read⟩ :=
      Number.exists_literal? (isReadable_number_iff.mp readable)
    rw [draft, spelled, Option.elim_some, Draft.complete, read]
    rfl
  | .string text => exact map_eq_ok_iff.mpr ⟨text, Draft.ofPieces_pieces text, rfl⟩
  | .array items =>
    obtain ⟨left, each⟩ := isReadable_array_iff.mp readable
    rw [draft, Draft.complete, if_neg left, complete_itemDrafts items each]
    rfl
  | .object members =>
    obtain ⟨left, each⟩ := isReadable_object_iff.mp readable
    rw [draft, Draft.complete, if_neg left, complete_memberDrafts members each]
    rfl

theorem complete_itemDrafts (items : List Value) {levels : Nat}
    (each : ∀ item ∈ items, item.IsReadable levels) :
    (itemDrafts items).complete levels = .ok (mapItems reread items) := by
  match items with
  | [] => rfl
  | item :: others =>
    have here := complete_draft item (each item (List.mem_cons_self ..))
    have there :=
      complete_itemDrafts others fun item member => each item (List.mem_cons_of_mem _ member)
    rw [itemDrafts, Items.complete, here, there]
    rfl

theorem complete_memberDrafts (members : List (String × Value)) {levels : Nat}
    (each : ∀ member ∈ members, member.2.IsReadable levels) :
    (memberDrafts members).complete levels = .ok (mapMembers reread members) := by
  match members with
  | [] => rfl
  | (name, value) :: others =>
    have here := complete_draft value (each (name, value) (List.mem_cons_self ..))
    have there := complete_memberDrafts others
      fun member given => each member (List.mem_cons_of_mem _ given)
    rw [memberDrafts, Members.complete, Draft.ofPieces_pieces, here, there]
    rfl

end

/-- A readable value is read as itself if its numbers are kept. -/
theorem mapNumbers_reread_eq_self_iff {value : Value}
    (readable : ∀ number ∈ value.numbers, number.isReadable) :
    value.mapNumbers reread = value ↔ ∀ number ∈ value.numbers, number.isKept := by
  rw [mapNumbers_eq_self_iff]
  exact forall₂_congr fun number member =>
    (Number.isKept_iff_of_isReadable (readable number member)).symm

/-- A value that is read back where some levels are left. -/
structure Fits (value : Value) (levels : Nat) : Prop where
  kept : ∀ number ∈ value.numbers, number.isKept
  shallow : value.depth ≤ levels

/-- The draft of a value that fits says the value. -/
theorem complete_draft_of_fits {value : Value} (fits : value.Fits levels) :
    value.draft.complete levels = .ok value := by
  have readable (number : Number) (member : number ∈ value.numbers) : number.isReadable :=
    Number.isReadable_of_isKept (fits.kept number member)
  rw [complete_draft value ⟨readable, fits.shallow⟩,
    (mapNumbers_reread_eq_self_iff readable).mpr fits.kept]

end Value

/-- What can be read from the draft of a value is decoded from its document. -/
theorem decode_chars {α : Type} {read : Nat → Draft → Except Problem α} {value : Value} {a : α}
    (level : Option Nat) (found : read levelLimit value.draft = .ok a) :
    decode read (String.ofList (value.chars level)) = .ok a := by
  simp only [decode, Document.ofText_chars, found]
  rfl

theorem decode_pretty {α : Type} {read : Nat → Draft → Except Problem α} {value : Value} {a : α}
    (found : read levelLimit value.draft = .ok a) : decode read value.pretty = .ok a :=
  decode_chars (some 0) found

end CartoStyle.Json
