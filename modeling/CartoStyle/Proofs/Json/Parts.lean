import CartoStyle.Json.Decode
import CartoStyle.Proofs.Outcome

/-!
# What has been read

Whatever document a record comes from, each of its fields is as it was at first or as its reader
has made it. So what all readers of fields keep holds of every record that is read
(`Draft.record_keeps`), and each value of a list has been read from an item
(`Draft.exists_of_mem_list`).
-/

namespace CartoStyle.Json

variable {α σ : Type} {P : σ → Prop} {fields : List (Field σ)} {levels : Nat} {start result : σ}

/-- What holds of a record at first, and of what each field makes of such a record, holds of the
record that is read from members. -/
theorem Members.record_keeps {members : Members} {seen : List String}
    (keeps : ∀ field ∈ fields, ∀ draft before after, P before →
      field.read levels draft before = .ok after → P after)
    (holds : P start) (read : members.record fields levels seen start = .ok result) :
    P result := by
  fun_induction Members.record fields levels seen members start with
  | case1 =>
    cases read
    exact holds
  | case2 => cases read
  | case3 seen pieces value others record skipped known =>
    obtain ⟨name, -, read⟩ := bind_eq_ok_iff.mp read
    split at read
    · obtain ⟨_, -, read⟩ := bind_eq_ok_iff.mp read
      exact skipped holds read
    · rename_i field found
      split at read
      · cases read
      · obtain ⟨after, here, read⟩ := bind_eq_ok_iff.mp read
        have present := List.mem_of_find?_eq_some found
        exact known field after (keeps field present value record after holds here) read

/-- What holds of a record at first, and of what each field makes of such a record, holds of the
record that is read from items. -/
theorem Items.record_keeps {items : Items}
    (keeps : ∀ field ∈ fields, ∀ draft before after, P before →
      field.read levels draft before = .ok after → P after)
    (holds : P start) (read : items.record levels fields start = .ok result) : P result := by
  fun_induction Items.record levels fields items start with
  | case1 =>
    cases read
    exact holds
  | case2 | case3 => cases read
  | case4 field fields first others record rest =>
    obtain ⟨after, here, read⟩ := bind_eq_ok_iff.mp read
    exact rest after (fun other present => keeps other (List.mem_cons_of_mem _ present))
      (keeps field (List.mem_cons_self ..) first record after holds here) read

/-- What holds of a record at first, and of what each field makes of such a record one level down,
holds of the record that is read. -/
theorem Draft.record_keeps {type : String} {draft : Draft}
    (keeps : ∀ field ∈ fields, ∀ draft before after, P before →
      field.read (levels - 1) draft before = .ok after → P after)
    (holds : P start) (read : draft.record type fields start levels = .ok result) : P result := by
  cases draft with
  | object members =>
    rw [Draft.record] at read
    split at read
    · cases read
    · exact Members.record_keeps keeps holds read
  | array items =>
    rw [Draft.record] at read
    split at read
    · cases read
    · exact Items.record_keeps keeps holds read
  | _ => cases read

theorem Items.exists_of_mem_list {read : Draft → Except Problem α} {items : Items} {values : List α}
    (each : items.list read = .ok values) : ∀ value ∈ values, ∃ draft, read draft = .ok value := by
  fun_induction Items.list read items generalizing values with
  | case1 =>
    cases each
    exact fun _ member => nomatch member
  | case2 => cases each
  | case3 first others rest =>
    obtain ⟨value, here, each⟩ := bind_eq_ok_iff.mp each
    obtain ⟨values, there, each⟩ := bind_eq_ok_iff.mp each
    cases each
    exact List.forall_mem_cons.mpr ⟨⟨first, here⟩, rest there⟩

/-- Each value of a list has been read one level down. -/
theorem Draft.exists_of_mem_list {read : Nat → Draft → Except Problem α} {draft : Draft}
    {values : List α} (each : draft.list read levels = .ok values) :
    ∀ value ∈ values, ∃ item, read (levels - 1) item = .ok value := by
  cases draft with
  | array items =>
    rw [Draft.list] at each
    split at each
    · cases each
    · exact Items.exists_of_mem_list each
  | _ => cases each

theorem Draft.read_of_optional {read : Draft → Except Problem α} {draft : Draft} {value : α}
    (present : draft.optional read = .ok (some value)) : read draft = .ok value := by
  cases draft with
  | null => cases present
  | _ =>
    obtain ⟨_, here, ⟨⟩⟩ := map_eq_ok_iff.mp present
    exact here

/-- What is decoded from a text is read from its draft, and nothing follows it. -/
theorem decode_eq_ok_iff {read : Nat → Draft → Except Problem α} {text : String} {value : α} :
    decode read text = .ok value ↔ read levelLimit (Document.ofText text).draft = .ok value ∧
      (Document.ofText text).trailing = false := by
  simp only [decode]
  split
  · rename_i found
    cases trailing : (Document.ofText text).trailing <;> simp [found]
  · rename_i failed
    simp [failed]

theorem exists_of_decode {read : Nat → Draft → Except Problem α} {text : String} {value : α}
    (decoded : decode read text = .ok value) : ∃ draft, read levelLimit draft = .ok value :=
  ⟨_, (decode_eq_ok_iff.mp decoded).1⟩

end CartoStyle.Json
