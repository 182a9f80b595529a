import CartoStyle.Dictionary

/-!
 # Laws of dictionaries

What a dictionary holds under a key once its values are changed (`mapEntries`, `mapValues`), once
entries are put into it one after another, and once missing ones are added. A list of entries with
distinct keys is a dictionary as it stands (`entries_ofList`).
-/

namespace CartoStyle.Dictionary

variable {κ α β : Type}

/-- The same keys with values that are made of the key and of the old value. -/
def mapEntries (change : κ → α → β) (dictionary : Dictionary κ α) : Dictionary κ β where
  entries := dictionary.entries.map fun entry => (entry.1, change entry.1 entry.2)
  distinct := by simpa [Function.comp_def] using dictionary.distinct

/-- The same keys with other values. -/
def mapValues (change : α → β) (dictionary : Dictionary κ α) : Dictionary κ β where
  entries := dictionary.entries.map fun entry => (entry.1, change entry.2)
  distinct := by simpa [Function.comp_def] using dictionary.distinct

variable [DecidableEq κ]

@[simp] theorem get?_empty (key : κ) : (empty : Dictionary κ α).get? key = none := rfl

theorem get?_mapEntries (change : κ → α → β) (dictionary : Dictionary κ α) (key : κ) :
    (dictionary.mapEntries change).get? key = (dictionary.get? key).map (change key) := by
  simp only [get?, mapEntries]
  induction dictionary.entries with
  | nil => rfl
  | cons entry entries ih =>
    by_cases same : entry.1 = key
    · simp [same]
    · simpa [same] using ih

theorem get?_mapValues (change : α → β) (dictionary : Dictionary κ α) (key : κ) :
    (dictionary.mapValues change).get? key = (dictionary.get? key).map change :=
  get?_mapEntries (fun _ => change) dictionary key

theorem get?_insert (dictionary : Dictionary κ α) (key other : κ) (value : α) :
    (dictionary.insert key value).get? other =
      if key = other then some value else dictionary.get? other := by
  by_cases same : key = other
  · subst same
    simp
  · rw [get?_insert_of_ne _ same, if_neg same]

theorem entries_insertAll {dictionary : Dictionary κ α} {entries : List (κ × α)}
    (distinct : (dictionary.keys ++ entries.map Prod.fst).Nodup) :
    (dictionary.insertAll entries).entries = dictionary.entries ++ entries := by
  induction entries generalizing dictionary with
  | nil => simp [insertAll]
  | cons entry entries ih =>
    have new : entry.1 ∉ dictionary.keys := by
      intro present
      rw [List.map_cons, List.nodup_append] at distinct
      exact distinct.2.2 _ present _ (List.mem_cons_self ..) rfl
    have grown := entries_insert_of_not_mem dictionary new entry.2
    have keys : (dictionary.insert entry.1 entry.2).keys = dictionary.keys ++ [entry.1] := by
      simp [Dictionary.keys, grown]
    have rest : ((dictionary.insert entry.1 entry.2).insertAll entries).entries =
        (dictionary.insert entry.1 entry.2).entries ++ entries :=
      ih (by simpa [keys] using distinct)
    rw [insertAll, List.foldl_cons]
    rw [insertAll] at rest
    rw [rest, grown, List.append_assoc]
    rfl

theorem entries_ofList {entries : List (κ × α)} (distinct : (entries.map Prod.fst).Nodup) :
    (ofList entries).entries = entries := by
  have all : (empty.insertAll entries).entries = empty.entries ++ entries :=
    entries_insertAll (by simpa [keys, empty] using distinct)
  rw [ofList, all]
  rfl

/-- An entry after an insertion is the one put in or an old one. -/
theorem mem_entries_insert {dictionary : Dictionary κ α} {key : κ} {value : α} {entry : κ × α}
    (member : entry ∈ (dictionary.insert key value).entries) :
    entry = (key, value) ∨ entry ∈ dictionary.entries := by
  have inside : ∀ entries : List (κ × α), entry ∈ insertEntry key value entries →
      entry = (key, value) ∨ entry ∈ entries := by
    intro entries
    induction entries with
    | nil => exact fun found => .inl (List.mem_singleton.mp found)
    | cons first others ih =>
      intro found
      rw [insertEntry] at found
      split at found
      · rcases List.mem_cons.mp found with here | later
        · exact .inl here
        · exact .inr (List.mem_cons_of_mem _ later)
      · rcases List.mem_cons.mp found with here | later
        · exact .inr (here ▸ List.mem_cons_self ..)
        · exact (ih later).imp_right (List.mem_cons_of_mem _)
  exact inside _ member

theorem mem_entries_of_get? {dictionary : Dictionary κ α} {key : κ} {value : α}
    (found : dictionary.get? key = some value) : (key, value) ∈ dictionary.entries := by
  obtain ⟨entry, first, rfl⟩ := Option.map_eq_some_iff.mp found
  have same : entry.1 = key := by simpa using List.find?_some first
  rw [← same]
  exact List.mem_of_find?_eq_some first

theorem get?_of_mem_entries {dictionary : Dictionary κ α} {key : κ} {value : α}
    (member : (key, value) ∈ dictionary.entries) : dictionary.get? key = some value := by
  obtain ⟨entries, distinct⟩ := dictionary
  simp only [get?] at member ⊢
  induction entries with
  | nil => cases member
  | cons entry entries ih =>
    obtain ⟨new, distinct⟩ := List.nodup_cons.mp distinct
    rcases List.mem_cons.mp member with rfl | later
    · simp
    · have other : entry.1 ≠ key := fun same => new (same ▸ List.mem_map.mpr ⟨_, later, rfl⟩)
      simpa [other] using ih distinct later

/-- The order of the entries makes no difference to what is under a key. -/
theorem get?_of_perm {first second : Dictionary κ α} (perm : first.entries.Perm second.entries)
    (key : κ) : first.get? key = second.get? key := by
  apply Option.ext
  intro value
  constructor
  · exact fun found => get?_of_mem_entries (perm.subset (mem_entries_of_get? found))
  · exact fun found => get?_of_mem_entries (perm.symm.subset (mem_entries_of_get? found))

/-- A key that is there has one entry. -/
theorem filter_entries_of_get? {dictionary : Dictionary κ α} {key : κ} {value : α}
    (found : dictionary.get? key = some value) :
    dictionary.entries.filter (fun entry => entry.1 = key) = [(key, value)] := by
  have member := mem_entries_of_get? found
  obtain ⟨entries, distinct⟩ := dictionary
  simp only at member ⊢
  clear found
  induction entries with
  | nil => cases member
  | cons entry entries ih =>
    obtain ⟨new, distinct⟩ := List.nodup_cons.mp distinct
    rcases List.mem_cons.mp member with rfl | later
    · have others : entries.filter (fun entry => entry.1 = key) = [] := by
        refine List.filter_eq_nil_iff.mpr fun entry later same => new ?_
        exact List.mem_map.mpr ⟨entry, later, of_decide_eq_true same⟩
      rw [List.filter_cons_of_pos (by simp), others]
    · have other : entry.1 ≠ key := fun same => new (same ▸ List.mem_map.mpr ⟨_, later, rfl⟩)
      rw [List.filter_cons_of_neg (by simpa using other), ih distinct later]

/-- Where a condition depends on the keys, a value that is put under a key has to do with the
entries that meet it only if the key does. -/
theorem filter_insertEntry {condition : κ × α → Bool} {key : κ} {value : α}
    (stays : ∀ old, condition (key, old) = condition (key, value)) (entries : List (κ × α)) :
    (insertEntry key value entries).filter condition =
      if condition (key, value) then insertEntry key value (entries.filter condition)
      else entries.filter condition := by
  induction entries with
  | nil => cases met : condition (key, value) <;> simp [insertEntry, met]
  | cons entry entries ih =>
    obtain ⟨first, old⟩ := entry
    by_cases same : first = key
    · subst same
      cases met : condition (first, value) <;> simp [insertEntry, stays, met]
    · cases met : condition (key, value) <;> cases here : condition (first, old) <;>
        simp [insertEntry, same, met, here, ih]

theorem get?_eq_none_iff {dictionary : Dictionary κ α} {key : κ} :
    dictionary.get? key = none ↔ key ∉ dictionary.keys := by
  rw [← contains_iff, contains, Bool.not_eq_true, Option.isSome_eq_false_iff,
    Option.isNone_iff_eq_none]

theorem get?_insertIfNew (dictionary : Dictionary κ α) (key other : κ) (value : α) :
    (dictionary.insertIfNew key value).get? other =
      (dictionary.get? other).or (if key = other then some value else none) := by
  rw [insertIfNew, contains]
  cases present : dictionary.get? key with
  | some old =>
    by_cases same : key = other
    · subst same
      simp [present]
    · simp [same]
  | none =>
    by_cases same : key = other
    · subst same
      simp [present]
    · simp [get?_insert, same]

/-- Missing entries are found where there were none before. -/
theorem get?_addMissing (dictionary additions : Dictionary κ α) (key : κ) :
    (dictionary.addMissing additions.entries).get? key =
      (dictionary.get? key).or (additions.get? key) := by
  have all : ∀ (entries : List (κ × α)) (dictionary : Dictionary κ α),
      (dictionary.addMissing entries).get? key = (dictionary.get? key).or
        ((entries.find? fun entry => entry.1 = key).map Prod.snd) := by
    intro entries
    induction entries with
    | nil => simp [addMissing]
    | cons entry entries ih =>
      intro dictionary
      have rest := ih (dictionary.insertIfNew entry.1 entry.2)
      rw [addMissing, List.foldl_cons]
      rw [addMissing, get?_insertIfNew] at rest
      rw [rest, Option.or_assoc]
      by_cases same : entry.1 = key <;> simp [same]
  exact all additions.entries dictionary

theorem mem_entries_addMissing {dictionary : Dictionary κ α} {additions : List (κ × α)}
    {entry : κ × α} (member : entry ∈ (dictionary.addMissing additions).entries) :
    entry ∈ dictionary.entries ∨ entry ∈ additions := by
  induction additions generalizing dictionary with
  | nil => exact .inl member
  | cons first others ih =>
    rw [addMissing, List.foldl_cons] at member
    rcases ih member with old | later
    · rw [insertIfNew] at old
      split at old
      · exact .inl old
      · rcases mem_entries_insert old with rfl | old
        · exact .inr (List.mem_cons_self ..)
        · exact .inl old
    · exact .inr (List.mem_cons_of_mem _ later)

theorem all_entries_addMissing {p : κ × α → Bool} {dictionary : Dictionary κ α}
    {additions : List (κ × α)} (old : dictionary.entries.all p) (new : additions.all p) :
    (dictionary.addMissing additions).entries.all p := by
  apply List.all_eq_true.mpr
  intro entry member
  rcases mem_entries_addMissing member with own | added
  · exact List.all_eq_true.mp old entry own
  · exact List.all_eq_true.mp new entry added

@[simp] theorem addMissing_nil (dictionary : Dictionary κ α) :
    dictionary.addMissing [] = dictionary := rfl

end CartoStyle.Dictionary
