import CartoStyle.Json.Codec
import CartoStyle.Proofs.Json.Decode
import Mathlib.Data.List.Nodup

/-!
# Codecs that lose nothing

A codec is lawful if it reads back what it writes; so does a table of fields, one field after
another (`Entry.Carries`), if no two of them share a name, and so does a choice, where no field has
the name of the tag.

Where a record has other numbers, so has what is written of it, and nothing else is changed
(`Entry.writeAll_mapNumbers`).
-/

namespace CartoStyle.Json

/-! ## Lawful codecs -/

/-- A codec that reads back what it writes, which is never `null`. -/
class Codec.Lawful {α : Type} (codec : Codec α) : Prop where
  read_write (a : α) : codec.read (codec.write a) = .ok a
  write_ne_null (a : α) : codec.write a ≠ .null

namespace Codec

instance : text.Lawful := ⟨fun _ => rfl, nofun⟩

instance : number.Lawful := ⟨fun _ => rfl, nofun⟩

instance : flag.Lawful := ⟨fun _ => rfl, nofun⟩

section Items

variable {α : Type} (codec : Codec α) [codec.Lawful]

theorem mapM_read (values : List α) : (values.map codec.write).mapM codec.read = .ok values := by
  induction values with
  | nil => rfl
  | cons value others ih => rw [List.map_cons, List.mapM_cons, Lawful.read_write, ih]; rfl

instance : (list codec).Lawful := ⟨mapM_read codec, nofun⟩

instance : (pair codec).Lawful where
  read_write values := by
    simp only [pair, Lawful.read_write]
    rfl
  write_ne_null := nofun

end Items

theorem readKeyword_keyword {α : Type} [Vocabulary α] (a : α) :
    readKeyword α (Vocabulary.keyword a) = .ok a := by
  rw [readKeyword, Vocabulary.ofKeyword?_keyword]

instance {α : Type} [Vocabulary α] : (Codec.keyword α).Lawful := ⟨readKeyword_keyword, nofun⟩

end Codec

/-! ## Tables of fields -/

section Tables

variable {σ α : Type}

/-- What the field of a record says is read into another record, which becomes a third one. -/
def Entry.Passes (entry : Entry σ) (record start result : σ) : Prop :=
  (entry.write record).elim (start = result) fun value => entry.read value start = .ok result

/-- What the fields of a record say is read into another record, which becomes a third one. -/
def Entry.Carries (record : σ) : List (Entry σ) → σ → σ → Prop
  | [], start, result => start = result
  | entry :: entries, start, result =>
    ∃ middle, entry.Passes record start middle ∧ Carries record entries middle result

theorem Entry.write_of (name : String) (codec : Codec α) (get : σ → Option α) (set : α → σ → σ)
    (record : σ) : (Entry.of name codec get set).write record = (get record).map codec.write := rfl

theorem Entry.read_of (name : String) (codec : Codec α) (get : σ → Option α) (set : α → σ → σ)
    {value : Value} (visible : value ≠ .null) (record : σ) :
    (Entry.of name codec get set).read value record =
      (codec.read value).map fun part => set part record := by
  cases value with
  | null => exact absurd rfl visible
  | _ => rfl

/-- A part of a record is read where it is set, and left out where it is absent. -/
theorem Entry.passes_of {codec : Codec α} [codec.Lawful] {name : String} {get : σ → Option α}
    {set : α → σ → σ} {record start : σ} (put : Option α → σ → σ) (absent : put none start = start)
    (present : ∀ a, put (some a) start = set a start) :
    (Entry.of name codec get set).Passes record start (put (get record) start) := by
  rw [Passes, write_of]
  cases get record with
  | none => exact absent.symm
  | some a =>
    rw [Option.map_some, Option.elim_some, read_of _ _ _ _ (Codec.Lawful.write_ne_null a),
      Codec.Lawful.read_write, present]
    rfl

/-- In a table without repeated names, a field is found by its name. -/
theorem Entry.find?_name {entries : List (Entry σ)} (distinct : (entries.map Entry.name).Nodup)
    {entry : Entry σ} (member : entry ∈ entries) :
    entries.find? (fun other => other.name == entry.name) = some entry := by
  cases found : entries.find? fun other => other.name == entry.name with
  | none => exact absurd (beq_self_eq_true _) (List.find?_eq_none.mp found entry member)
  | some other =>
    have same : other.name = entry.name := by simpa using List.find?_some found
    rw [List.inj_on_of_nodup_map distinct (List.mem_of_find?_eq_some found) member same]

/-- What is written by the rest of a table is read as its fields say. -/
theorem Entry.readMembers_of_carries {entries tail : List (Entry σ)} {record start result : σ}
    {seen : List String} (distinct : (entries.map Entry.name).Nodup)
    (suffix : tail <:+ entries) (new : ∀ entry ∈ tail, entry.name ∉ seen)
    (carries : Carries record tail start result) :
    readMembers entries seen (writeAll tail record) start = .ok result := by
  induction tail generalizing start seen with
  | nil =>
    cases carries
    rfl
  | cons entry tail ih =>
    obtain ⟨middle, here, there⟩ := carries
    have rest := (List.suffix_cons entry tail).trans suffix
    have fresh := fun other member => new other (List.mem_cons_of_mem _ member)
    rw [Passes] at here
    cases written : entry.write record with
    | none =>
      rw [written] at here
      cases here
      have same : writeAll (entry :: tail) record = writeAll tail record := by
        simp [writeAll, written]
      rw [same]
      exact ih rest fresh there
    | some value =>
      rw [written, Option.elim_some] at here
      have same :
          writeAll (entry :: tail) record = (entry.name, value) :: writeAll tail record := by
        simp [writeAll, written]
      have unseen := new entry (List.mem_cons_self ..)
      have found := find?_name distinct (suffix.subset (List.mem_cons_self ..))
      have names := (suffix.map Entry.name).sublist.nodup distinct
      rw [same, readMembers, found]
      simp only [List.contains_iff_mem, unseen, if_false, here]
      refine ih rest ?_ there
      intro other member
      rw [List.mem_cons, not_or]
      refine ⟨?_, fresh other member⟩
      intro repeated
      exact (List.nodup_cons.mp names).1 (repeated ▸ List.mem_map_of_mem member)

/-- A record is read back from its own fields, if they carry all of it. -/
theorem Entry.readRecord_writeAll {entries : List (Entry σ)} {record default : σ} (type : String)
    (distinct : (entries.map Entry.name).Nodup) (carries : Carries record entries default record) :
    readRecord type entries default (.object (writeAll entries record)) = .ok record :=
  readMembers_of_carries distinct List.suffix_rfl (fun _ _ => List.not_mem_nil) carries

end Tables

/-! ## Lawful choices -/

section Choices

variable {κ : Type} [Vocabulary κ] {fields : List (String × Value)}

/-- Whether a member has another name than the tag. -/
def isUntagged (member : String × Value) : Bool := member.1 != tagName

theorem isUntagged_of_mem_writeAll {σ : Type} {entries : List (Entry σ)} {record : σ}
    (free : tagName ∉ entries.map Entry.name) :
    ∀ member ∈ Entry.writeAll entries record, isUntagged member := by
  intro member written
  obtain ⟨entry, present, part⟩ := List.mem_filterMap.mp written
  obtain ⟨value, -, rfl⟩ := Option.map_eq_some_iff.mp part
  rw [isUntagged, bne_iff_ne]
  intro tagged
  exact free (tagged ▸ List.mem_map_of_mem present)

theorem splitTag_of_untagged (tag : κ) (untagged : ∀ member ∈ fields, isUntagged member) :
    splitTag (some tag) fields = .ok (tag, fields) := by
  induction fields with
  | nil => rfl
  | cons member fields ih =>
    obtain ⟨name, value⟩ := member
    have other : name ≠ tagName := by simpa [isUntagged] using untagged _ (List.mem_cons_self ..)
    have rest := ih fun member later => untagged member (List.mem_cons_of_mem _ later)
    rw [splitTag, if_neg other, rest]
    rfl

/-- A tagged value is taken apart into its tag and its fields. -/
theorem Value.tagged_taggedValue (type : String) (tag : κ)
    (untagged : ∀ member ∈ fields, isUntagged member) :
    (taggedValue (keyword tag) fields).tagged type κ = .ok (tag, .object fields) := by
  rw [taggedValue, Value.tagged, splitTag, if_pos rfl, readTag, Codec.readKeyword_keyword, ok_bind,
    splitTag_of_untagged tag untagged]
  rfl

theorem Members.splitTag_of_untagged {levels : Nat} {members : Members} (tag : κ)
    (said : members.complete levels = .ok fields)
    (untagged : ∀ member ∈ fields, isUntagged member) :
    members.splitTag levels (some tag) = .ok (tag, fields) := by
  induction fields generalizing members with
  | nil =>
    rw [complete_eq_nil_iff.mp said]
    rfl
  | cons member fields ih =>
    obtain ⟨name, value⟩ := member
    obtain ⟨pieces, first, others, rfl, spelled, here, there⟩ := complete_eq_cons_iff.mp said
    have other : name ≠ tagName := by simpa [isUntagged] using untagged _ (List.mem_cons_self ..)
    have rest := ih there fun member later => untagged member (List.mem_cons_of_mem _ later)
    rw [splitTag, spelled, ok_bind, if_neg other, here, ok_bind, rest]
    rfl

/-- A draft that says a tagged value is taken apart into its tag and its fields. -/
theorem Draft.tagged_of_complete {levels : Nat} {draft : Draft} (type : String) (tag : κ)
    (said : draft.complete levels = .ok (taggedValue (keyword tag) fields))
    (untagged : ∀ member ∈ fields, isUntagged member) :
    draft.tagged type κ levels = .ok (tag, .object fields) := by
  obtain ⟨left, members, rfl, inside⟩ := complete_eq_ok_iff.mp said
  obtain ⟨pieces, first, others, rfl, spelled, here, there⟩ :=
    Members.complete_eq_cons_iff.mp inside
  have named : first.tag κ = .ok tag := by
    rw [Draft.tag, word_of_complete _ here, ok_bind, Codec.readKeyword_keyword]
    rfl
  rw [tagged, if_neg left, Members.splitTag, spelled, ok_bind, if_pos rfl]
  simp only [named, ok_bind, Members.splitTag_of_untagged tag there untagged]
  rfl

end Choices

/-! ## Numbers of written values -/

section Numbers

variable {σ α : Type} {change : Binary64 → Binary64}

@[simp] theorem mapNumbers_writeText (text : String) :
    (Codec.text.write text).mapNumbers change = Codec.text.write text := rfl

@[simp] theorem mapNumbers_writeFlag (value : Bool) :
    (Codec.flag.write value).mapNumbers change = Codec.flag.write value := rfl

@[simp] theorem mapNumbers_writeKeyword [Vocabulary α] (value : α) :
    ((Codec.keyword α).write value).mapNumbers change = (Codec.keyword α).write value := rfl

@[simp] theorem mapNumbers_writeNumber (x : Binary64) :
    (Codec.number.write x).mapNumbers change = Codec.number.write (change x) := rfl

/-- A list is changed item by item. -/
theorem mapNumbers_array (write : α → Value) {other : α → α}
    (same : ∀ a, write (other a) = (write a).mapNumbers change) (items : List α) :
    (Value.array (items.map write)).mapNumbers change =
      .array ((items.map other).map write) := by
  rw [Value.mapNumbers, Value.mapItems_eq_map, List.map_map, List.map_map]
  exact congrArg Value.array (List.map_congr_left fun a _ => (same a).symm)

@[simp] theorem mapNumbers_writeNumbers (lengths : List Binary64) :
    ((Codec.list .number).write lengths).mapNumbers change =
      (Codec.list .number).write (lengths.map change) :=
  mapNumbers_array Codec.number.write (fun _ => rfl) lengths

@[simp] theorem mapNumbers_writeTexts (texts : List String) :
    ((Codec.list .text).write texts).mapNumbers change = (Codec.list .text).write texts := by
  have each (text : String) :
      Codec.text.write (id text) = (Codec.text.write text).mapNumbers change := rfl
  have same := mapNumbers_array Codec.text.write each texts
  rwa [List.map_id] at same

@[simp] theorem mapNumbers_writePair (lengths : Binary64 × Binary64) :
    ((Codec.pair .number).write lengths).mapNumbers change =
      (Codec.pair .number).write (lengths.map change change) := rfl

theorem mapNumbers_taggedValue (tag : String) (fields : List (String × Value)) :
    (taggedValue tag fields).mapNumbers change =
      taggedValue tag (Value.mapMembers change fields) := rfl

/-- The fields of a record are changed if each of them is. -/
theorem Entry.writeAll_mapNumbers {entries : List (Entry σ)} {record changed : σ}
    (each : ∀ entry ∈ entries,
      entry.write changed = (entry.write record).map (Value.mapNumbers change)) :
    writeAll entries changed = Value.mapMembers change (writeAll entries record) := by
  induction entries with
  | nil => rfl
  | cons entry entries ih =>
    have here := each entry (List.mem_cons_self ..)
    have rest := ih fun other member => each other (List.mem_cons_of_mem _ member)
    simp only [writeAll, List.filterMap_cons] at rest ⊢
    rw [here, rest]
    cases entry.write record <;> rfl

theorem isFractional_list {write : α → Value} {items : List α}
    (each : ∀ a, (write a).isFractional) : (Value.array (items.map write)).isFractional :=
  Value.isFractional_array fun item member => by
    obtain ⟨a, -, rfl⟩ := List.mem_map.mp member
    exact each a

/-- A codec that writes no whole numbers. -/
class Codec.Fractional (codec : Codec α) : Prop where
  isFractional_write (a : α) : (codec.write a).isFractional

namespace Codec

instance : text.Fractional := ⟨fun _ => rfl⟩

instance : number.Fractional := ⟨fun _ => rfl⟩

instance : flag.Fractional := ⟨fun _ => rfl⟩

instance [Vocabulary α] : (Codec.keyword α).Fractional := ⟨fun _ => rfl⟩

instance (codec : Codec α) [codec.Fractional] : (list codec).Fractional where
  isFractional_write _ := isFractional_list Fractional.isFractional_write

instance (codec : Codec α) [codec.Fractional] : (pair codec).Fractional where
  isFractional_write values := Value.isFractional_array <| by
    simp [Fractional.isFractional_write]

end Codec

theorem Entry.isFractional_of {codec : Codec α} [codec.Fractional] {name : String}
    {get : σ → Option α} {set : α → σ → σ} {record : σ} :
    ((Entry.of name codec get set).write record).all Value.isFractional := by
  rw [write_of]
  cases get record with
  | none => rfl
  | some a => exact Codec.Fractional.isFractional_write a

/-- A choice has no whole numbers if its fields have none. -/
theorem isFractional_taggedValue {entries : List (Entry σ)} {record : σ} (tag : String)
    (each : ∀ entry ∈ entries, (entry.write record).all Value.isFractional) :
    (taggedValue tag (Entry.writeAll entries record)).isFractional := by
  refine Value.isFractional_object fun member given => ?_
  rcases List.mem_cons.mp given with rfl | written
  · rfl
  · obtain ⟨entry, present, part⟩ := List.mem_filterMap.mp written
    obtain ⟨value, spelled, rfl⟩ := Option.map_eq_some_iff.mp part
    have fractional := each entry present
    rwa [spelled] at fractional

end Numbers

end CartoStyle.Json
