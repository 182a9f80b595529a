/-!
# Dictionaries

A dictionary holds values under distinct keys, in the order in which the keys were first given. A
value given for a key that is there takes the place of the old one (`get?_insert_self`,
`map_fst_insertEntry_of_mem`); a new key goes to the end (`entries_insert_of_not_mem`).
-/

namespace CartoStyle

/-- Values under distinct keys, in the order of their first insertion. -/
structure Dictionary (κ α : Type) where
  entries : List (κ × α)
  distinct : (entries.map Prod.fst).Nodup

namespace Dictionary

variable {κ α : Type}

/-- No values at all. -/
def empty : Dictionary κ α := ⟨[], .nil⟩

instance : Inhabited (Dictionary κ α) := ⟨empty⟩

/-- Two dictionaries with the same entries are the same. -/
@[ext] theorem ext {first second : Dictionary κ α} (same : first.entries = second.entries) :
    first = second := by
  cases first; cases second; cases same; rfl

instance [DecidableEq κ] [DecidableEq α] : DecidableEq (Dictionary κ α) := fun first second =>
  decidable_of_iff (first.entries = second.entries) ⟨ext, fun same => same ▸ rfl⟩

/-- The keys in their order. -/
def keys (dictionary : Dictionary κ α) : List κ := dictionary.entries.map Prod.fst

theorem nodup_keys (dictionary : Dictionary κ α) : dictionary.keys.Nodup := dictionary.distinct

variable [DecidableEq κ]

/-- The value under a key. -/
def get? (dictionary : Dictionary κ α) (key : κ) : Option α :=
  (dictionary.entries.find? fun entry => entry.1 = key).map Prod.snd

/-- Entries with a value put under a key. -/
def insertEntry (key : κ) (value : α) : List (κ × α) → List (κ × α)
  | [] => [(key, value)]
  | entry :: rest =>
    if entry.1 = key then (key, value) :: rest else entry :: insertEntry key value rest

theorem insertEntry_of_not_mem {key : κ} {entries : List (κ × α)} (new : key ∉ entries.map Prod.fst)
    (value : α) : insertEntry key value entries = entries ++ [(key, value)] := by
  induction entries with
  | nil => rfl
  | cons entry rest ih =>
    simp only [List.map_cons, List.mem_cons, not_or] at new
    simp [insertEntry, Ne.symm new.1, ih new.2]

theorem map_fst_insertEntry_of_mem {key : κ} {entries : List (κ × α)}
    (present : key ∈ entries.map Prod.fst) (value : α) :
    (insertEntry key value entries).map Prod.fst = entries.map Prod.fst := by
  induction entries with
  | nil => simp at present
  | cons entry rest ih =>
    by_cases same : entry.1 = key
    · simp [insertEntry, same]
    · have := ih (by simpa [Ne.symm same] using present)
      simp [insertEntry, same, this]

theorem nodup_insertEntry {entries : List (κ × α)} (distinct : (entries.map Prod.fst).Nodup)
    (key : κ) (value : α) : ((insertEntry key value entries).map Prod.fst).Nodup := by
  by_cases present : key ∈ entries.map Prod.fst
  · rwa [map_fst_insertEntry_of_mem present]
  · rw [insertEntry_of_not_mem present]
    simp only [List.map_append, List.map_cons, List.map_nil, List.nodup_append, distinct, true_and]
    refine ⟨by simp, fun old member new same => ?_⟩
    simp only [List.mem_singleton] at same
    exact fun equal => present (same ▸ equal ▸ member)

/-- Puts a value under a key, in the place of the old value if there is one. -/
def insert (dictionary : Dictionary κ α) (key : κ) (value : α) : Dictionary κ α where
  entries := insertEntry key value dictionary.entries
  distinct := nodup_insertEntry dictionary.distinct key value

/-- Whether a key has a value. -/
def contains (dictionary : Dictionary κ α) (key : κ) : Bool := (dictionary.get? key).isSome

theorem contains_iff (dictionary : Dictionary κ α) (key : κ) :
    dictionary.contains key = true ↔ key ∈ dictionary.keys := by
  simp [contains, get?, keys, List.find?_isSome]

theorem get?_insertEntry (key other : κ) (value : α) (entries : List (κ × α)) :
    ((insertEntry key value entries).find? fun entry => entry.1 = other).map Prod.snd =
      if key = other then some value
      else (entries.find? fun entry => entry.1 = other).map Prod.snd := by
  induction entries with
  | nil => by_cases same : key = other <;> simp [insertEntry, same]
  | cons entry rest ih =>
    by_cases here : entry.1 = key
    · by_cases same : key = other
      · simp [insertEntry, here, same]
      · simp [insertEntry, here, same]
    · by_cases there : entry.1 = other
      · have : ¬ key = other := fun same => here (there.trans same.symm)
        simp [insertEntry, there, this, Ne.symm this]
      · simp [insertEntry, here, there, ih]

@[simp] theorem get?_insert_self (dictionary : Dictionary κ α) (key : κ) (value : α) :
    (dictionary.insert key value).get? key = some value := by
  simp [get?, insert, get?_insertEntry]

theorem get?_insert_of_ne (dictionary : Dictionary κ α) {key other : κ} (different : key ≠ other)
    (value : α) : (dictionary.insert key value).get? other = dictionary.get? other := by
  simp [get?, insert, get?_insertEntry, different]

theorem entries_insert_of_not_mem (dictionary : Dictionary κ α) {key : κ}
    (new : key ∉ dictionary.keys) (value : α) :
    (dictionary.insert key value).entries = dictionary.entries ++ [(key, value)] :=
  insertEntry_of_not_mem new value

/-- Puts entries one after another. -/
def insertAll (dictionary : Dictionary κ α) (entries : List (κ × α)) : Dictionary κ α :=
  entries.foldl (fun result entry => result.insert entry.1 entry.2) dictionary

/-- Puts a value under a key that has none. -/
def insertIfNew (dictionary : Dictionary κ α) (key : κ) (value : α) : Dictionary κ α :=
  if dictionary.contains key then dictionary else dictionary.insert key value

/-- Puts those of some entries whose keys have no value. -/
def addMissing (dictionary : Dictionary κ α) (entries : List (κ × α)) : Dictionary κ α :=
  entries.foldl (fun result entry => result.insertIfNew entry.1 entry.2) dictionary

/-- The dictionary of some entries. Of a repeated key the first place and the last value count. -/
def ofList (entries : List (κ × α)) : Dictionary κ α := insertAll empty entries

end Dictionary

end CartoStyle
