import CloudPlatform.Core.Python

/-!
# Dictionaries

A Python dictionary as the list of its entries in the order of their insertion. An assignment to a key
that exists changes its value in place; `lookup_assign` says what it leaves, and `lookup_ofEntries` that
the last value given to a key is the one that is found.
-/

namespace CloudPlatform.Dictionaries

variable {κ α : Type} [DecidableEq κ]

/-- `entries[key] = value`. -/
def assign : List (κ × α) → κ → α → List (κ × α)
  | [], key, value => [(key, value)]
  | entry :: rest, key, value =>
    if entry.1 = key then (key, value) :: rest else entry :: assign rest key value

/-- The dictionary that assignments one after the other build. -/
def ofEntries (entries : List (κ × α)) : List (κ × α) :=
  entries.foldl (fun dictionary entry ↦ assign dictionary entry.1 entry.2) []

theorem lookup_cons_eq_ite (entry : κ × α) (rest : List (κ × α)) (key : κ) :
    (entry :: rest).lookup key = if key = entry.1 then some entry.2 else rest.lookup key := by
  rw [List.lookup_cons]
  by_cases hkey : key = entry.1
  · rw [if_pos hkey, beq_iff_eq.mpr hkey]
  · rw [if_neg hkey, beq_eq_false_iff_ne.mpr hkey]

/-- An assignment changes the value of its key only. -/
theorem lookup_assign (entries : List (κ × α)) (key other : κ) (value : α) :
    (assign entries key value).lookup other =
      if other = key then some value else entries.lookup other := by
  induction entries with
  | nil => exact lookup_cons_eq_ite (key, value) [] other
  | cons entry rest ih =>
    rw [assign]
    by_cases hentry : entry.1 = key
    · rw [if_pos hentry, lookup_cons_eq_ite, lookup_cons_eq_ite, hentry]
      split_ifs <;> rfl
    · rw [if_neg hentry, lookup_cons_eq_ite, lookup_cons_eq_ite, ih]
      by_cases hother : other = entry.1
      · rw [if_pos hother, if_pos hother, if_neg (hother ▸ hentry)]
      · rw [if_neg hother, if_neg hother]

theorem keys_assign (entries : List (κ × α)) (key : κ) (value : α) :
    (assign entries key value).map (·.1) =
      if key ∈ entries.map (·.1) then entries.map (·.1) else entries.map (·.1) ++ [key] := by
  induction entries with
  | nil => rfl
  | cons entry rest ih =>
    rw [assign]
    by_cases hentry : entry.1 = key
    · simp [hentry]
    · rw [if_neg hentry, List.map_cons, ih, List.map_cons]
      by_cases hrest : key ∈ rest.map (·.1)
      · rw [if_pos hrest, if_pos (List.mem_cons_of_mem _ hrest)]
      · have hnew : key ∉ entry.1 :: rest.map (·.1) :=
          List.not_mem_cons_of_ne_of_not_mem (Ne.symm hentry) hrest
        rw [if_neg hrest, if_neg hnew, List.cons_append]

variable {entries : List (κ × α)}

theorem nodup_keys_assign (h : (entries.map (·.1)).Nodup) (key : κ) (value : α) :
    ((assign entries key value).map (·.1)).Nodup := by
  rw [keys_assign]
  split_ifs with hkey
  · exact h
  · exact List.nodup_append.mpr ⟨h, List.pairwise_singleton _ key, fun first hfirst last hlast ↦ by
      rw [List.mem_singleton.mp hlast]
      rintro rfl
      exact hkey hfirst⟩

theorem mem_keys_iff {key : κ} : key ∈ entries.map (·.1) ↔ (entries.lookup key).isSome := by
  induction entries with
  | nil => simp
  | cons entry rest ih =>
    rw [List.map_cons, List.mem_cons, ih, lookup_cons_eq_ite]
    split_ifs with hkey
    · simp [hkey]
    · simp [hkey]

theorem lookup_of_mem (h : (entries.map (·.1)).Nodup) {entry : κ × α} (hentry : entry ∈ entries) :
    entries.lookup entry.1 = some entry.2 := by
  induction entries with
  | nil => cases hentry
  | cons first rest ih =>
    rw [List.map_cons, List.nodup_cons] at h
    rw [lookup_cons_eq_ite]
    rcases List.mem_cons.mp hentry with rfl | hrest
    · rw [if_pos rfl]
    · have hother : entry.1 ≠ first.1 := by
        intro heq
        exact h.1 (heq ▸ List.mem_map_of_mem hrest)
      rw [if_neg hother]
      exact ih h.2 hrest

/-- An entry of a dictionary whose values are converted one by one. -/
theorem lookup_mapM {β : Type} {f : κ × α → Result (κ × β)}
    (hkey : ∀ entry result, f entry = .ok result → result.1 = entry.1) :
    ∀ {entries : List (κ × α)} {results : List (κ × β)}, entries.mapM f = .ok results →
      ∀ key, match entries.lookup key with
        | none => results.lookup key = none
        | some value => ∃ result, f (key, value) = .ok (key, result) ∧
            results.lookup key = some result := by
  intro entries
  induction entries with
  | nil =>
    intro results h key
    rw [List.mapM_nil, pure_eq_ok] at h
    subst h
    rfl
  | cons entry rest ih =>
    intro results h key
    rw [List.mapM_cons] at h
    obtain ⟨first, hfirst, h⟩ := bind_eq_ok.mp h
    obtain ⟨others, hothers, h⟩ := bind_eq_ok.mp h
    obtain rfl := pure_eq_ok.mp h
    have hsame := hkey entry first hfirst
    rw [lookup_cons_eq_ite]
    by_cases hentry : key = entry.1
    · subst hentry
      rw [if_pos rfl]
      dsimp only
      refine ⟨first.2, by rw [hfirst, ← hsame], ?_⟩
      rw [lookup_cons_eq_ite, if_pos hsame.symm]
    · have hrest := ih hothers key
      have hother : (first :: others).lookup key = others.lookup key := by
        rw [lookup_cons_eq_ite, if_neg (hsame ▸ hentry)]
      rw [if_neg hentry, hother]
      exact hrest

theorem lookup_foldl_assign (entries dictionary : List (κ × α)) (key : κ) :
    (entries.foldl (fun dictionary entry ↦ assign dictionary entry.1 entry.2) dictionary).lookup key =
      (((entries.filter (·.1 = key)).getLast?).map (·.2)).or (dictionary.lookup key) := by
  induction entries generalizing dictionary with
  | nil => rfl
  | cons entry rest ih =>
    rw [List.foldl_cons, ih, lookup_assign, List.filter_cons]
    by_cases hentry : entry.1 = key
    · rw [if_pos (decide_eq_true hentry), if_pos hentry.symm, List.getLast?_cons]
      cases (rest.filter (·.1 = key)).getLast? with
      | none => rfl
      | some last => rfl
    · rw [if_neg (Ne.symm hentry), if_neg (by simpa using hentry)]

/-- The last value given to a key is found. -/
theorem lookup_ofEntries (entries : List (κ × α)) (key : κ) :
    (ofEntries entries).lookup key = ((entries.filter (·.1 = key)).getLast?).map (·.2) :=
  (lookup_foldl_assign entries [] key).trans Option.or_none

end CloudPlatform.Dictionaries
