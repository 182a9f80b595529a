import CartoStyle.Proofs.Dictionary
import CartoStyle.Proofs.Text.Span
import CartoStyle.Stylesheet.Table

/-!
# Tables of fields, written and read

A record that is written by a table is found again under the names of the table
(`attribute?_withFields_of_mem`). An element shows a record if it has, under these names, what is
written for the record, as it arrives at the reader (`AttrField.Shows`); the table then takes in one
part after another (`Shows.readAll_cons`), so the reading of a whole table follows its rows.
-/

namespace CartoStyle.Stylesheet

open Xml (AttrValue Attributes Element)

/-! ## Lists of names -/

section Names

/-- A text cut at a separator, if there is none in the first piece. -/
theorem splitAt_append {separator : Char} {piece : List Char} (absent : separator ∉ piece)
    (rest : List Char) :
    Text.splitAt separator (piece ++ separator :: rest) = piece :: Text.splitAt separator rest := by
  induction piece with
  | nil => simp [Text.splitAt]
  | cons c piece ih =>
    have other : (c == separator) = false := by
      rw [beq_eq_false_iff_ne]
      rintro rfl
      exact absent (List.mem_cons_self ..)
    have inner := ih fun member => absent (List.mem_cons_of_mem _ member)
    simp [Text.splitAt, other, inner]

theorem splitAt_of_not_mem {separator : Char} {piece : List Char} (absent : separator ∉ piece) :
    Text.splitAt separator piece = [piece] := by
  induction piece with
  | nil => rfl
  | cons c piece ih =>
    have other : (c == separator) = false := by
      rw [beq_eq_false_iff_ne]
      rintro rfl
      exact absent (List.mem_cons_self ..)
    have inner := ih fun member => absent (List.mem_cons_of_mem _ member)
    simp [Text.splitAt, other, inner]

theorem not_mem_of_mem_splitAt {separator : Char} {text piece : List Char}
    (member : piece ∈ Text.splitAt separator text) : separator ∉ piece := by
  induction text generalizing piece with
  | nil =>
    rw [List.mem_singleton.mp member]
    simp
  | cons c text ih =>
    rw [Text.splitAt] at member
    split at member
    · rcases List.mem_cons.mp member with rfl | later
      · simp
      · exact ih later
    · rename_i other
      obtain ⟨first, pieces, shape⟩ :=
        List.exists_cons_of_ne_nil (Text.splitAt_ne_nil separator text)
      rw [shape] at member ih
      rcases List.mem_cons.mp member with rfl | later
      · intro inside
        rcases List.mem_cons.mp inside with rfl | inside
        · exact other (beq_self_eq_true _)
        · exact ih (List.mem_cons_self ..) inside
      · exact ih (List.mem_cons_of_mem _ later)

theorem mem_of_mem_splitAt {separator c : Char} {text piece : List Char}
    (member : piece ∈ Text.splitAt separator text) (inside : c ∈ piece) : c ∈ text := by
  induction text generalizing piece with
  | nil =>
    rw [List.mem_singleton.mp member] at inside
    cases inside
  | cons d text ih =>
    rw [Text.splitAt] at member
    split at member
    · rcases List.mem_cons.mp member with rfl | later
      · cases inside
      · exact List.mem_cons_of_mem _ (ih later inside)
    · obtain ⟨first, pieces, shape⟩ :=
        List.exists_cons_of_ne_nil (Text.splitAt_ne_nil separator text)
      rw [shape] at member ih
      rcases List.mem_cons.mp member with rfl | later
      · rcases List.mem_cons.mp inside with rfl | inside
        · exact List.mem_cons_self ..
        · exact List.mem_cons_of_mem _ (ih (List.mem_cons_self ..) inside)
      · exact List.mem_cons_of_mem _ (ih (List.mem_cons_of_mem _ later) inside)

/-- A name that a list may hold: it is not empty, has no blanks at its ends and no comma. -/
def isListed (name : String) : Bool :=
  name != "" && Text.trimmed name == name && !name.toList.contains ','

theorem isListed_iff {name : String} :
    isListed name = true ↔ name ≠ "" ∧ Text.trim name.toList = name.toList ∧ ',' ∉ name.toList := by
  have same : Text.trimmed name = name ↔ Text.trim name.toList = name.toList := by
    rw [Text.trimmed]
    constructor
    · intro equal
      rw [← String.toList_ofList (l := Text.trim name.toList), equal]
    · intro equal
      rw [equal, String.ofList_toList]
  simp [isListed, same, and_assoc]

theorem isListed_of_mem_namesOf {text name : String} (member : name ∈ AttrForm.namesOf text) :
    isListed name := by
  obtain ⟨piece, present, kept⟩ := List.mem_filterMap.mp member
  obtain ⟨part, split, rfl⟩ := List.mem_map.mp present
  split at kept
  · cases kept
  · rename_i nonempty
    cases kept
    rw [isListed_iff, String.toList_ofList]
    refine ⟨?_, Text.trim_trim part, ?_⟩
    · intro empty
      exact nonempty (by simpa using congrArg String.toList empty)
    · intro comma
      exact not_mem_of_mem_splitAt split (Text.mem_of_mem_trim comma)

theorem mem_of_mem_namesOf {text name : String} (member : name ∈ AttrForm.namesOf text) {c : Char}
    (inside : c ∈ name.toList) : c ∈ text.toList := by
  obtain ⟨piece, present, kept⟩ := List.mem_filterMap.mp member
  obtain ⟨part, split, rfl⟩ := List.mem_map.mp present
  split at kept
  · cases kept
  · cases kept
    rw [String.toList_ofList] at inside
    exact mem_of_mem_splitAt split (Text.mem_of_mem_trim inside)

/-- The pieces of a list at its commas, each without the space in front of it. -/
theorem map_trim_splitAt {names : List String} (nonempty : names ≠ [])
    (listed : ∀ name ∈ names, isListed name) {blanks : List Char} (blank : ∀ c ∈ blanks, c = ' ') :
    (Text.splitAt ',' (blanks ++ ", ".toList.intercalate (names.map String.toList))).map Text.trim =
      names.map String.toList := by
  induction names generalizing blanks with
  | nil => exact absurd rfl nonempty
  | cons name others ih =>
    obtain ⟨_, trimmed, comma⟩ := isListed_iff.mp (listed name (List.mem_cons_self ..))
    have absent : ',' ∉ blanks ++ name.toList := by
      intro member
      rcases List.mem_append.mp member with space | inside
      · cases blank _ space
      · exact comma inside
    have spaces : ∀ c ∈ blanks, Text.isBlank c := by
      intro c member
      rw [blank c member]
      decide
    have front : Text.trim (blanks ++ name.toList) = name.toList := by
      rw [Text.trim_blank_append spaces, trimmed]
    cases others with
    | nil =>
      rw [List.map_singleton, List.intercalate_singleton, splitAt_of_not_mem absent,
        List.map_singleton, front]
    | cons second others =>
      have rest : (Text.splitAt ',' ([' '] ++ _)).map Text.trim = _ :=
        ih (by simp) (fun other member => listed other (List.mem_cons_of_mem _ member)) (by simp)
      have shape :
          blanks ++ ", ".toList.intercalate ((name :: second :: others).map String.toList) =
          (blanks ++ name.toList) ++
            ',' :: ([' '] ++ ", ".toList.intercalate ((second :: others).map String.toList)) := by
        rw [List.map_cons, List.map_cons, List.intercalate_cons_cons, ← List.map_cons]
        simp
      rw [shape, splitAt_append absent, List.map_cons, front, rest]
      rfl

/-- Names that are not empty stay when empty ones are left out. -/
theorem filterMap_toList {names : List String} (nonempty : ∀ name ∈ names, name ≠ "") :
    (names.map String.toList).filterMap (fun name =>
      if name.isEmpty then none else some (String.ofList name)) = names := by
  induction names with
  | nil => rfl
  | cons name others ih =>
    have here := nonempty name (List.mem_cons_self ..)
    have rest := ih fun other member => nonempty other (List.mem_cons_of_mem _ member)
    rw [List.map_cons, List.filterMap_cons, rest]
    simp [here]

/-- Names that a list may hold are read back from it. -/
theorem namesOf_intercalate {names : List String} (listed : ∀ name ∈ names, isListed name) :
    AttrForm.namesOf (", ".intercalate names) = names := by
  by_cases empty : names = []
  · subst empty
    rfl
  · have pieces : (Text.splitAt ',' ([] ++ _)).map Text.trim = _ :=
      map_trim_splitAt empty listed (by simp)
    have kept := filterMap_toList fun name member => (isListed_iff.mp (listed name member)).1
    rw [AttrForm.namesOf, String.toList_intercalate, ← List.nil_append (List.intercalate _ _),
      pieces, kept]

end Names

/-! ## Writing a table -/

namespace AttrField

variable {σ α : Type}

/-- The names of the attributes of a table. -/
def names (table : List (AttrField σ)) : List String := table.map AttrField.attributeName

/-- The attributes once one field is written. -/
def writeOne (field : AttrField σ) (record : σ) (attributes : Attributes) : Attributes :=
  match field.write record with
  | some value => attributes.insert field.attributeName value
  | none => attributes

theorem writeAll_cons (field : AttrField σ) (table : List (AttrField σ)) (record : σ)
    (attributes : Attributes) :
    writeAll (field :: table) record attributes =
      writeAll table record (writeOne field record attributes) := by
  rw [writeAll, List.foldl_cons, writeOne]
  rfl

theorem get?_writeOne (field : AttrField σ) (record : σ) (attributes : Attributes) (name : String) :
    (writeOne field record attributes).get? name =
      if field.attributeName = name then (field.write record).or (attributes.get? name)
      else attributes.get? name := by
  rw [writeOne]
  cases field.write record with
  | none => simp
  | some value => simp [Dictionary.get?_insert]

theorem get?_writeAll_of_not_mem {table : List (AttrField σ)} {name : String}
    (absent : name ∉ names table) (record : σ) (attributes : Attributes) :
    (writeAll table record attributes).get? name = attributes.get? name := by
  induction table generalizing attributes with
  | nil => rfl
  | cons first table ih =>
    have other : first.attributeName ≠ name := fun same => absent (same ▸ List.mem_cons_self ..)
    have rest : name ∉ names table := fun member => absent (List.mem_cons_of_mem _ member)
    rw [writeAll_cons, ih rest, get?_writeOne, if_neg other]

theorem get?_writeAll_of_mem {table : List (AttrField σ)} (distinct : (names table).Nodup)
    {field : AttrField σ} (member : field ∈ table) (record : σ) (attributes : Attributes) :
    (writeAll table record attributes).get? field.attributeName =
      (field.write record).or (attributes.get? field.attributeName) := by
  induction table generalizing attributes with
  | nil => cases member
  | cons first table ih =>
    obtain ⟨new, distinct⟩ := List.nodup_cons.mp distinct
    rw [writeAll_cons]
    rcases List.mem_cons.mp member with rfl | later
    · rw [get?_writeAll_of_not_mem new, get?_writeOne, if_pos rfl]
    · have other : first.attributeName ≠ field.attributeName := by
        intro same
        exact new (same ▸ List.mem_map_of_mem later)
      rw [ih distinct later, get?_writeOne, if_neg other]

/-- What stands among attributes after a table is written is from the table or was there before. -/
theorem mem_entries_writeAll {table : List (AttrField σ)} {record : σ} {attributes : Attributes}
    {entry : String × AttrValue} (member : entry ∈ (writeAll table record attributes).entries) :
    (∃ field ∈ table, field.attributeName = entry.1 ∧ field.write record = some entry.2) ∨
      entry ∈ attributes.entries := by
  induction table generalizing attributes with
  | nil => exact .inr member
  | cons first table ih =>
    rw [writeAll_cons] at member
    rcases ih member with ⟨field, present, written⟩ | old
    · exact .inl ⟨field, List.mem_cons_of_mem _ present, written⟩
    · rw [writeOne] at old
      split at old
      · rename_i value written
        rcases Dictionary.mem_entries_insert old with rfl | old
        · exact .inl ⟨first, List.mem_cons_self .., rfl, written⟩
        · exact .inr old
      · exact .inr old

/-! ## Reading a table -/

/-- Every attribute of a table could be interpreted if the table was read. -/
theorem exists_read_of_readAll {element : Element} {table : List (AttrField σ)} {record result : σ}
    (read : readAll element table record = .ok result) {field : AttrField σ}
    (member : field ∈ table) {value : AttrValue}
    (found : element.attribute? field.attributeName = some value) :
    ∃ before after, field.read value before = some after := by
  induction table generalizing record with
  | nil => cases member
  | cons first table ih =>
    rw [readAll] at read
    rcases List.mem_cons.mp member with rfl | later
    · rw [found] at read
      simp only at read
      split at read
      · cases read
      · rename_i after said
        exact ⟨record, after, said⟩
    · split at read
      · exact ih read later
      · split at read
        · cases read
        · exact ih read later

/-- A table is read alike from elements of one name that have the same under the names of the table.
-/
theorem readAll_congr {element element' : Element} (name : element'.name = element.name)
    {table : List (AttrField σ)} (given : ∀ field ∈ table,
      element'.attribute? field.attributeName = element.attribute? field.attributeName)
    (record : σ) : readAll element' table record = readAll element table record := by
  induction table generalizing record with
  | nil => rfl
  | cons field table ih =>
    obtain ⟨here, there⟩ := List.forall_mem_cons.mp given
    simp only [readAll, here, invalid, name, ih there]

/-- An element has, under the names of a table, what is written for a record, as it arrives. -/
def Shows (carry : AttrValue → AttrValue) (element : Element) (table : List (AttrField σ))
    (record : σ) : Prop :=
  ∀ field ∈ table, element.attribute? field.attributeName = (field.write record).map carry

end AttrField

/-- What an optional part becomes when it is written, carried and read. -/
def AttrForm.Arrives {α : Type} (form : AttrForm α) (carry : AttrValue → AttrValue) :
    Option α → Option α → Prop
  | none, arrived => arrived = none
  | some part, arrived =>
    ∃ read, arrived = some read ∧ form.read (carry (form.write part)) = some read

namespace AttrField

variable {σ α : Type} {carry : AttrValue → AttrValue} {element : Element}
  {table : List (AttrField σ)}

/-- A table is read field by field, and a part that arrives is taken into the record. -/
theorem Shows.readAll_cons {name : String} {form : AttrForm α} {get : σ → Option α}
    {set : α → σ → σ} {source record result : σ} {arrived : Option α}
    (shows : Shows carry element (.of name form get set :: table) source)
    (arrives : form.Arrives carry (get source) arrived) (change : σ → σ)
    (present : ∀ part ∈ arrived, set part record = change record)
    (absent : arrived = none → record = change record)
    (rest : Shows carry element table source →
      readAll element table (change record) = .ok result) :
    readAll element (.of name form get set :: table) record = .ok result := by
  have others := rest fun field member => shows field (List.mem_cons_of_mem _ member)
  have here := shows _ (List.mem_cons_self ..)
  simp only [of] at here
  rw [readAll]
  simp only [of, here]
  cases written : get source with
  | none =>
    rw [written] at arrives
    rw [← absent arrives] at others
    exact others
  | some part =>
    rw [written] at arrives
    obtain ⟨read, rfl, said⟩ := arrives
    rw [← present read rfl] at others
    simp only [Option.map_some, said]
    exact others

/-- A part that arrives is put where there was none before. -/
theorem Shows.readAll_put {name : String} {form : AttrForm α} {get : σ → Option α}
    {set : α → σ → σ} {source record result : σ} {arrived : Option α}
    (shows : Shows carry element (.of name form get set :: table) source)
    (arrives : form.Arrives carry (get source) arrived) (put : Option α → σ → σ)
    (present : ∀ part, set part record = put (some part) record) (absent : record = put none record)
    (rest : Shows carry element table source →
      readAll element table (put arrived record) = .ok result) :
    readAll element (.of name form get set :: table) record = .ok result := by
  apply shows.readAll_cons arrives (put arrived)
  · rintro part rfl
    exact present part
  · rintro rfl
    exact absent
  · exact rest

end AttrField

end CartoStyle.Stylesheet
