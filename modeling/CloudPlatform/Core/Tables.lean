import Mathlib.Data.List.Basic
import Mathlib.Data.List.Nodup

/-!
# Tables with a unique key

A table whose unique constraint holds: its rows have distinct keys. `get` reads the row of a key,
`put` replaces it or adds it, `erase` removes it, and `update` changes rows in place. What `get` reads
afterwards is `get_put` and `get_update`; a row is in the table exactly if `get` reads it at its key. Of a
plain list of rows, `find?_replace` says what a query finds after an update that keeps what the query
looks at.
-/

namespace Rows

variable {ρ κ : Type} [DecidableEq κ]

/-- The rows of a table, with distinct keys. -/
structure Table (key : ρ → κ) where
  rows : List ρ
  unique : (rows.map key).Nodup

namespace Table

variable {key : ρ → κ}

/-- The row of a key. -/
def get (t : Table key) (k : κ) : Option ρ :=
  t.rows.find? (key · = k)

variable {t : Table key} {k : κ} {row : ρ}

theorem key_of_get (h : t.get k = some row) : key row = k := by
  simpa using List.find?_some h

theorem mem_of_get (h : t.get k = some row) : row ∈ t.rows :=
  List.mem_of_find?_eq_some h

/-- The rows of a key in a list with distinct keys are those of `find?`. -/
theorem filter_eq_toList {rows : List ρ} (hunique : (rows.map key).Nodup) (k : κ) :
    rows.filter (key · = k) = (rows.find? (key · = k)).toList := by
  induction rows with
  | nil => rfl
  | cons row rest ih =>
    rw [List.map_cons, List.nodup_cons] at hunique
    by_cases hkey : key row = k
    · have hrest : rest.filter (key · = k) = [] := by
        refine List.filter_eq_nil_iff.mpr fun other hother ↦ ?_
        have hne : key other ≠ k := fun h ↦
          hunique.1 (List.mem_map.mpr ⟨other, hother, h.trans hkey.symm⟩)
        simpa using hne
      rw [List.filter_cons_of_pos (by simpa using hkey),
        List.find?_cons_of_pos (by simpa using hkey), hrest]
      rfl
    · rw [List.filter_cons_of_neg (by simpa using hkey),
        List.find?_cons_of_neg (by simpa using hkey), ih hunique.2]

/-- The rows that a query by key returns. -/
theorem filter_eq (t : Table key) (k : κ) : t.rows.filter (key · = k) = (t.get k).toList :=
  filter_eq_toList t.unique k

theorem mem_iff_get : row ∈ t.rows ↔ t.get (key row) = some row := by
  rw [← Option.mem_toList, ← filter_eq, List.mem_filter, decide_eq_true_iff, and_iff_left rfl]

theorem get_eq_none : t.get k = none ↔ ∀ row ∈ t.rows, key row ≠ k := by
  rw [get, List.find?_eq_none]
  simp

/-! ### Changes in place -/

/-- The table with its rows changed, each keeping its key. -/
def update (t : Table key) (f : ρ → ρ) (hkey : ∀ row, key (f row) = key row) : Table key where
  rows := t.rows.map f
  unique := by
    have hkeys : (t.rows.map f).map key = t.rows.map key := by
      rw [List.map_map]
      exact List.map_congr_left fun row _ ↦ hkey row
    rw [hkeys]
    exact t.unique

variable {f : ρ → ρ} {hkey : ∀ row, key (f row) = key row}

theorem get_update (t : Table key) (k : κ) : (t.update f hkey).get k = (t.get k).map f := by
  rw [get, get, update, List.find?_map]
  congr 1
  exact congrArg (t.rows.find? ·) (funext fun row ↦ by rw [Function.comp_apply, hkey])

omit [DecidableEq κ] in
variable {t : Table key} {row : ρ}

theorem mem_update : row ∈ (t.update f hkey).rows ↔ ∃ before ∈ t.rows, f before = row :=
  List.mem_map

/-! ### Upserts -/

/-- The row replaces the one of its key. -/
def replaceRow (key : ρ → κ) (changed row : ρ) : ρ :=
  if key row = key changed then changed else row

theorem key_replaceRow (changed row : ρ) : key (replaceRow key changed row) = key row := by
  by_cases h : key row = key changed
  · rw [replaceRow, if_pos h, h]
  · rw [replaceRow, if_neg h]

/-- `INSERT`, or `UPDATE` of the row with the key. -/
def put (t : Table key) (row : ρ) : Table key :=
  if h : t.get (key row) = none then {
    rows := t.rows ++ [row]
    unique := by
      rw [List.map_append, List.map_cons, List.map_nil]
      refine List.Nodup.append t.unique (List.nodup_singleton _) ?_
      rw [List.disjoint_singleton]
      intro hmem
      obtain ⟨other, hother, heq⟩ := List.mem_map.mp hmem
      exact get_eq_none.mp h other hother heq }
  else t.update (replaceRow key row) (key_replaceRow row)

/-- What a key reads after an upsert. -/
theorem get_put (t : Table key) (row : ρ) (k : κ) :
    (t.put row).get k = if key row = k then some row else t.get k := by
  rw [put]
  by_cases hnone : t.get (key row) = none
  · rw [dif_pos hnone, get, List.find?_append]
    by_cases hk : key row = k
    · subst hk
      rw [if_pos rfl, show t.rows.find? (key · = key row) = none from hnone]
      simp
    · rw [if_neg hk, List.find?_cons_of_neg (by simpa using hk)]
      simp [get]
  · rw [dif_neg hnone, get_update]
    by_cases hk : key row = k
    · subst hk
      obtain ⟨before, hbefore⟩ := Option.ne_none_iff_exists'.mp hnone
      rw [if_pos rfl, hbefore, Option.map_some, replaceRow, if_pos (key_of_get hbefore)]
    · rw [if_neg hk]
      cases hget : t.get k with
      | none => rfl
      | some other =>
        have hne : key other ≠ key row := by
          rw [key_of_get hget]
          exact Ne.symm hk
        rw [Option.map_some, replaceRow, if_neg hne]

@[simp] theorem get_put_self (t : Table key) (row : ρ) : (t.put row).get (key row) = some row := by
  rw [get_put, if_pos rfl]

theorem get_put_of_ne (t : Table key) {k : κ} (h : key row ≠ k) : (t.put row).get k = t.get k := by
  rw [get_put, if_neg h]

theorem mem_put {row other : ρ} :
    other ∈ (t.put row).rows ↔ other = row ∨ other ∈ t.rows ∧ key other ≠ key row := by
  rw [mem_iff_get, get_put]
  by_cases h : key row = key other
  · rw [if_pos h, Option.some_inj]
    constructor
    · intro heq
      exact Or.inl heq.symm
    · rintro (heq | ⟨-, hne⟩)
      · exact heq.symm
      · exact absurd h.symm hne
  · rw [if_neg h, ← mem_iff_get]
    constructor
    · intro hmem
      exact Or.inr ⟨hmem, Ne.symm h⟩
    · rintro (rfl | ⟨hmem, -⟩)
      · exact absurd rfl h
      · exact hmem

/-- An upsert of a row that is there changes nothing. -/
theorem put_of_get (h : t.get (key row) = some row) : t.put row = t := by
  have hsome : t.get (key row) ≠ none := by
    rw [h]
    exact Option.some_ne_none row
  have hrows : t.rows.map (replaceRow key row) = t.rows := by
    refine (List.map_congr_left fun other hother ↦ ?_).trans (List.map_id t.rows)
    by_cases hkey : key other = key row
    · have hsame : some other = some row := by rw [← mem_iff_get.mp hother, hkey, h]
      rw [replaceRow, if_pos hkey]
      exact (Option.some.inj hsame).symm
    · rw [replaceRow, if_neg hkey]
      rfl
  rw [put, dif_neg hsome, update]
  cases t with
  | mk rows unique => simpa only [mk.injEq] using hrows

/-- An upsert of a row whose key is there replaces that row. -/
theorem rows_put_of_get [DecidableEq ρ] {row before : ρ} (h : t.get (key row) = some before) :
    (t.put row).rows = t.rows.map fun other ↦ if other = before then row else other := by
  have hsome : t.get (key row) ≠ none := by
    rw [h]
    exact Option.some_ne_none before
  rw [put, dif_neg hsome]
  refine List.map_congr_left fun other hother ↦ ?_
  by_cases hkey : key other = key row
  · have hsame : some other = some before := by rw [← mem_iff_get.mp hother, hkey, h]
    rw [replaceRow, if_pos hkey, if_pos (Option.some.inj hsame)]
  · have hne : other ≠ before := by
      rintro rfl
      exact hkey (key_of_get h)
    rw [replaceRow, if_neg hkey, if_neg hne]

/-! ### Deletions -/

/-- The table without the row of a key. -/
def erase (t : Table key) (k : κ) : Table key where
  rows := t.rows.filter (key · ≠ k)
  unique := t.unique.sublist (List.filter_sublist.map key)

theorem mem_erase {k : κ} : row ∈ (t.erase k).rows ↔ row ∈ t.rows ∧ key row ≠ k := by
  rw [erase, List.mem_filter, decide_eq_true_iff]

/-! ### Loops of keyed changes -/

section Loops

variable {α : Type} {keyOf : α → κ} {change : Table key → α → Table key}
  {effect : α → Option ρ → Option ρ} {steps : List α}

/-- Changes that each touch the row of one key: what a key reads after them is what its own changes
make of it. -/
theorem get_foldl_filter (hstep : ∀ step ∈ steps, ∀ (t : Table key) (k : κ),
      (change t step).get k = if keyOf step = k then effect step (t.get k) else t.get k)
    (k : κ) (t : Table key) : (steps.foldl change t).get k =
      (steps.filter (keyOf · = k)).foldl (fun row step ↦ effect step row) (t.get k) := by
  induction steps generalizing t with
  | nil => rfl
  | cons step rest ih =>
    obtain ⟨hfirst, hrest⟩ := List.forall_mem_cons.mp hstep
    rw [List.foldl_cons, ih hrest, hfirst]
    by_cases hk : keyOf step = k
    · rw [if_pos hk, List.filter_cons_of_pos (by simpa using hk), List.foldl_cons]
    · rw [if_neg hk, List.filter_cons_of_neg (by simpa using hk)]

/-- The same for changes of distinct keys. -/
theorem get_foldl (hnodup : (steps.map keyOf).Nodup)
    (hstep : ∀ step ∈ steps, ∀ (t : Table key) (k : κ),
      (change t step).get k = if keyOf step = k then effect step (t.get k) else t.get k)
    (k : κ) (t : Table key) : (steps.foldl change t).get k =
      (steps.find? (keyOf · = k)).elim (t.get k) (effect · (t.get k)) := by
  rw [get_foldl_filter hstep, filter_eq_toList hnodup]
  cases steps.find? (keyOf · = k) <;> rfl

end Loops

end Table

/-! ### Rows without a constraint -/

variable {ρ κ : Type} [DecidableEq κ]

/-- The rows with those of a key replaced. -/
def replace (key : ρ → κ) (changed : ρ) (rows : List ρ) : List ρ :=
  rows.map fun row ↦ if key row = key changed then changed else row

/-- A query after an update of a row that it finds, or that it does not look at. -/
theorem find?_replace (key : ρ → κ) {changed : ρ} {query : ρ → Bool} {rows : List ρ}
    (hsame : ∀ row ∈ rows, key row = key changed → query row = query changed) :
    (replace key changed rows).find? query =
      (rows.find? query).map fun row ↦ if key row = key changed then changed else row := by
  induction rows with
  | nil => rfl
  | cons row rest ih =>
    have hrest := ih fun other hother ↦ hsame other (List.mem_cons_of_mem _ hother)
    have hquery : query (if key row = key changed then changed else row) = query row := by
      by_cases hkey : key row = key changed
      · rw [if_pos hkey, hsame row List.mem_cons_self hkey]
      · rw [if_neg hkey]
    rw [replace] at hrest ⊢
    rw [List.map_cons, List.find?_cons, List.find?_cons, hquery]
    cases query row with
    | true => rfl
    | false => exact hrest

/-- A query by key after an update. -/
theorem find?_replace_key (key : ρ → κ) (changed : ρ) (rows : List ρ) (k : κ) :
    (replace key changed rows).find? (key · = k) =
      (rows.find? (key · = k)).map fun row ↦ if key row = key changed then changed else row :=
  find?_replace key fun row _ hkey ↦ by rw [hkey]

/-- The row of a key after it is replaced. -/
theorem find?_replace_self {key : ρ → κ} (changed : ρ) {row : ρ} {rows : List ρ} {k : κ}
    (hrow : rows.find? (key · = k) = some row) (hkey : key changed = k) :
    (replace key changed rows).find? (key · = k) = some changed := by
  have hrowKey : key row = k := by simpa using List.find?_some hrow
  rw [find?_replace_key, hrow, Option.map_some, if_pos (hrowKey.trans hkey.symm)]

end Rows
