/-!
# `Keyed` — what is found in lists of entries under keys

Attributes, cached copies and held units are kept as lists of entries, each under a key. What such a
list means is what is found under each key, and the laws here say how that changes.

## Contents
- `lookup_cons_eq`, `lookup_eq_none`: finding, entry by entry.
- `lookup_mapAt`, `lookup_filter_ne`, `lookup_append_single`: finding after an entry was changed,
  entries were taken out, an entry was added at the end.
-/

namespace MetadataStore.Keyed

variable {α : Type}

theorem lookup_cons_eq (key : String) (entry : String × α) (entries : List (String × α)) :
    (entry :: entries).lookup key = if key = entry.1 then some entry.2 else entries.lookup key := by
  obtain ⟨k, a⟩ := entry
  by_cases h : key = k
  · simp [h]
  · have hb : (key == k) = false := by simpa using h
    simp [List.lookup_cons, h, hb]

/-- Nothing is found under a key that no entry has. -/
theorem lookup_eq_none {entries : List (String × α)} {key : String} :
    entries.lookup key = none ↔ ∀ entry ∈ entries, entry.1 ≠ key := by
  induction entries with
  | nil => simp
  | cons entry rest ih =>
    rw [lookup_cons_eq]
    by_cases h : key = entry.1
    · simp [h]
    · have h' : ¬ entry.1 = key := fun e => h e.symm
      simp [h, h', ih]

theorem mem_of_lookup {entries : List (String × α)} {key : String} {a : α}
    (h : entries.lookup key = some a) : (key, a) ∈ entries := by
  induction entries with
  | nil => cases h
  | cons entry rest ih =>
    rw [lookup_cons_eq] at h
    split at h
    · rename_i hkey
      cases h
      exact List.mem_cons.2 (Or.inl (by rw [hkey]))
    · exact List.mem_cons_of_mem _ (ih h)

/-- A change under one key changes what is found there and nothing else. -/
theorem lookup_mapAt (entries : List (String × α)) (key other : String) (f : α → α) :
    (entries.map fun entry => if entry.1 == key then (key, f entry.2) else entry).lookup other =
      if other = key then (entries.lookup key).map f else entries.lookup other := by
  induction entries with
  | nil => simp
  | cons entry rest ih =>
    rw [List.map_cons, lookup_cons_eq, lookup_cons_eq, lookup_cons_eq, ih]
    by_cases hk : entry.1 = key <;> by_cases ho : other = key
    · simp [hk, ho]
    · simp [hk, ho]
    · subst ho
      have : ¬ other = entry.1 := fun e => hk e.symm
      simp [hk, this]
    · simp [hk, ho]

/-- Nothing is found under a key whose entries were taken out, and nothing else changes. -/
theorem lookup_filter_ne (entries : List (String × α)) (key other : String) :
    (entries.filter fun entry => entry.1 != key).lookup other =
      if other = key then none else entries.lookup other := by
  induction entries with
  | nil => simp
  | cons entry rest ih =>
    rw [List.filter_cons]
    by_cases hk : entry.1 = key
    · have hb : (entry.1 != key) = false := by simp [hk]
      rw [hb, lookup_cons_eq]
      by_cases ho : other = key
      · simpa [ho] using ih
      · have : ¬ other = entry.1 := fun e => ho (e.trans hk)
        simpa [ho, this] using ih
    · have hb : (entry.1 != key) = true := by simp [hk]
      rw [hb]
      simp only [if_true, lookup_cons_eq, ih]
      by_cases ho : other = key
      · subst ho
        have : ¬ other = entry.1 := fun e => hk e.symm
        simp [this]
      · simp [ho]

/-- An entry added at the end under a key that was free is found there. -/
theorem lookup_append_single {entries : List (String × α)} {key : String}
    (hfree : entries.lookup key = none) (other : String) (a : α) :
    (entries ++ [(key, a)]).lookup other = if other = key then some a else entries.lookup other := by
  induction entries with
  | nil => simp [lookup_cons_eq]
  | cons entry rest ih =>
    rw [lookup_cons_eq] at hfree
    split at hfree
    · cases hfree
    · rename_i hne
      rw [List.cons_append, lookup_cons_eq, ih hfree, lookup_cons_eq]
      by_cases ho : other = key
      · subst ho
        simp [hne]
      · simp [ho]

end MetadataStore.Keyed
