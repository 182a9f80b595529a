import CartoStyle.Proofs.Dictionary

/-!
# Dictionaries behind one another

A dictionary followed by another one has its own entries first, then those of the other whose keys
are new, so that its own values win. This is what adding missing entries comes to
(`addMissing_entries`). Followed by the same dictionary again, it stays as it is
(`followedBy_self`), and of three dictionaries the first two or the last two may be put together
first (`followedBy_assoc`).
-/

namespace CartoStyle.Dictionary

variable {κ α : Type} [DecidableEq κ]

/-- The entries of a dictionary, then those of another one whose keys are new. -/
def followedBy (first second : Dictionary κ α) : Dictionary κ α where
  entries := first.entries ++ second.entries.filter fun entry => entry.1 ∉ first.keys
  distinct := by
    rw [List.map_append, List.nodup_append]
    refine ⟨first.distinct, (List.filter_sublist.map Prod.fst).nodup second.distinct, ?_⟩
    rintro key here other there rfl
    obtain ⟨entry, kept, rfl⟩ := List.mem_map.mp there
    exact of_decide_eq_true (List.mem_filter.mp kept).2 here

variable {first second third : Dictionary κ α} {key : κ}

theorem entries_followedBy (first second : Dictionary κ α) : (first.followedBy second).entries =
    first.entries ++ second.entries.filter fun entry => entry.1 ∉ first.keys := rfl

theorem mem_keys_followedBy :
    key ∈ (first.followedBy second).keys ↔ key ∈ first.keys ∨ key ∈ second.keys := by
  rw [keys, entries_followedBy, List.map_append, List.mem_append]
  by_cases own : key ∈ first.keys
  · exact iff_of_true (.inl own) (.inl own)
  · refine or_congr Iff.rfl ?_
    constructor
    · intro member
      obtain ⟨entry, kept, rfl⟩ := List.mem_map.mp member
      exact List.mem_map_of_mem (List.mem_filter.mp kept).1
    · intro member
      obtain ⟨entry, present, rfl⟩ := List.mem_map.mp member
      exact List.mem_map_of_mem (List.mem_filter.mpr ⟨present, decide_eq_true own⟩)

/-- Entries with distinct keys are added behind the old ones, if their keys are new. -/
theorem entries_addMissing {dictionary : Dictionary κ α} {additions : List (κ × α)}
    (distinct : (additions.map Prod.fst).Nodup) : (dictionary.addMissing additions).entries =
      dictionary.entries ++ additions.filter fun entry => entry.1 ∉ dictionary.keys := by
  induction additions generalizing dictionary with
  | nil => rw [addMissing_nil, List.filter_nil, List.append_nil]
  | cons entry others ih =>
    obtain ⟨apart, distinct⟩ := List.nodup_cons.mp distinct
    have step : dictionary.addMissing (entry :: others) =
        (dictionary.insertIfNew entry.1 entry.2).addMissing others := rfl
    rw [step, ih distinct, insertIfNew]
    by_cases present : entry.1 ∈ dictionary.keys
    · rw [if_pos ((dictionary.contains_iff entry.1).mpr present)]
      simp [present]
    · rw [if_neg fun found => present ((dictionary.contains_iff entry.1).mp found)]
      have grown := entries_insert_of_not_mem dictionary present entry.2
      have keys : (dictionary.insert entry.1 entry.2).keys = dictionary.keys ++ [entry.1] := by
        simp [Dictionary.keys, grown]
      -- No other entry has the key that has just come in.
      have others_ : others.filter (fun other => other.1 ∉ dictionary.keys ++ [entry.1]) =
          others.filter fun other => other.1 ∉ dictionary.keys := by
        apply List.filter_congr
        intro other member
        have different : other.1 ≠ entry.1 := fun same => apart (same ▸ List.mem_map_of_mem member)
        simp [different]
      rw [grown, keys, others_, List.filter_cons_of_pos (by simpa using present), List.append_assoc]
      rfl

theorem addMissing_entries (first second : Dictionary κ α) :
    first.addMissing second.entries = first.followedBy second :=
  Dictionary.ext (entries_addMissing second.distinct)

theorem get?_followedBy (first second : Dictionary κ α) (key : κ) :
    (first.followedBy second).get? key = (first.get? key).or (second.get? key) := by
  rw [← addMissing_entries, get?_addMissing]

@[simp] theorem empty_followedBy (second : Dictionary κ α) : empty.followedBy second = second :=
  Dictionary.ext (List.filter_eq_self.mpr fun _ _ => rfl)

@[simp] theorem followedBy_self (first : Dictionary κ α) : first.followedBy first = first := by
  apply Dictionary.ext
  have none_ : first.entries.filter (fun entry => entry.1 ∉ first.keys) = [] := by
    apply List.filter_eq_nil_iff.mpr
    intro entry member
    have own : entry.1 ∈ first.keys := List.mem_map_of_mem member
    simp [own]
  rw [entries_followedBy, none_, List.append_nil]

theorem followedBy_assoc (first second third : Dictionary κ α) :
    (first.followedBy second).followedBy third = first.followedBy (second.followedBy third) := by
  apply Dictionary.ext
  -- What is new to both is new to the second one, and then to the first one.
  have last : third.entries.filter (fun entry => entry.1 ∉ (first.followedBy second).keys) =
      (third.entries.filter fun entry => entry.1 ∉ second.keys).filter
        fun entry => entry.1 ∉ first.keys := by
    rw [List.filter_filter]
    apply List.filter_congr
    intro entry _
    simp only [mem_keys_followedBy, not_or, Bool.decide_and]
  rw [entries_followedBy, last, entries_followedBy, entries_followedBy, entries_followedBy,
    List.filter_append, List.append_assoc]

end CartoStyle.Dictionary
