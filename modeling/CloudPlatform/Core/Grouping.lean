import Mathlib.Data.List.Basic
import Mathlib.Data.List.Induction
import Mathlib.Data.List.Nodup
import Mathlib.Algebra.Order.Group.Nat
import Mathlib.Tactic.Ring

/-!
# Groups and pages of a list

`groupBy` collects the elements of a list in buckets by a key, the way a dictionary with
`setdefault(key, []).append(row)` does: `mem_groupBy` says which buckets there are. `pageOf` is one
page of a list; `flatMap_pageOf` says that the pages make up the list.
-/

namespace CloudPlatform

/-! ### Groups -/

section GroupBy

variable {α κ : Type} [DecidableEq κ]

/-- `buckets.setdefault(k, []).append(row)`. -/
def appendTo (k : κ) (row : α) : List (κ × List α) → List (κ × List α)
  | [] => [(k, [row])]
  | bucket :: buckets =>
    if bucket.1 = k then (k, bucket.2 ++ [row]) :: buckets else bucket :: appendTo k row buckets

/-- The rows in buckets by their key, in the order in which the keys are met. -/
def groupBy (key : α → κ) (rows : List α) : List (κ × List α) :=
  rows.foldl (fun buckets row ↦ appendTo (key row) row buckets) []

theorem groupBy_append (key : α → κ) (rows : List α) (row : α) :
    groupBy key (rows ++ [row]) = appendTo (key row) row (groupBy key rows) := by
  rw [groupBy, List.foldl_append]
  rfl

variable {row : α} {buckets : List (κ × List α)} {k : κ}

theorem mem_keys_appendTo {k other : κ} : other ∈ (appendTo k row buckets).map Prod.fst ↔
      other = k ∨ other ∈ buckets.map Prod.fst := by
  induction buckets with
  | nil => simp [appendTo]
  | cons bucket buckets ih =>
    by_cases hkey : bucket.1 = k
    · simp [appendTo, hkey]
    · rw [appendTo, if_neg hkey, List.map_cons, List.mem_cons, ih, List.map_cons, List.mem_cons]
      exact or_left_comm

theorem nodup_keys_appendTo (h : (buckets.map Prod.fst).Nodup) :
    ((appendTo k row buckets).map Prod.fst).Nodup := by
  induction buckets with
  | nil => simp [appendTo]
  | cons bucket buckets ih =>
    rw [List.map_cons, List.nodup_cons] at h
    by_cases hkey : bucket.1 = k
    · rw [appendTo, if_pos hkey, List.map_cons, List.nodup_cons]
      exact ⟨hkey ▸ h.1, h.2⟩
    · rw [appendTo, if_neg hkey, List.map_cons, List.nodup_cons]
      refine ⟨fun hmem ↦ ?_, ih h.2⟩
      rcases mem_keys_appendTo.mp hmem with hsame | hearlier
      · exact hkey hsame
      · exact h.1 hearlier

/-- The buckets have distinct keys. -/
theorem nodup_keys_groupBy (key : α → κ) (rows : List α) :
    ((groupBy key rows).map Prod.fst).Nodup := by
  induction rows using List.reverseRecOn with
  | nil => exact List.nodup_nil
  | append_singleton rows row ih =>
    rw [groupBy_append]
    exact nodup_keys_appendTo ih

/-- One row more: its bucket grows or is opened, the others stay. -/
theorem mem_appendTo (h : (buckets.map Prod.fst).Nodup) {other : κ} {bucket : List α} :
    (other, bucket) ∈ appendTo k row buckets ↔ other ≠ k ∧ (other, bucket) ∈ buckets ∨
        other = k ∧ (k ∉ buckets.map Prod.fst ∧ bucket = [row] ∨
          ∃ earlier, (k, earlier) ∈ buckets ∧ bucket = earlier ++ [row]) := by
  induction buckets with
  | nil => simp [appendTo]
  | cons first buckets ih =>
    obtain ⟨firstKey, firstRows⟩ := first
    rw [List.map_cons, List.nodup_cons] at h
    by_cases hkey : firstKey = k
    · subst hkey
      have hnot : ∀ earlier, (firstKey, earlier) ∉ buckets :=
        fun earlier hmem ↦ h.1 (List.mem_map.mpr ⟨_, hmem, rfl⟩)
      simp only [appendTo, if_true, List.mem_cons, Prod.mk.injEq, List.map_cons, true_or,
        not_true_eq_false, false_and, false_or, true_and, hnot, or_false]
      constructor
      · rintro (⟨rfl, rfl⟩ | hmem)
        · exact Or.inr ⟨rfl, firstRows, rfl, rfl⟩
        · have hne : other ≠ firstKey := by
            rintro rfl
            exact hnot _ hmem
          exact Or.inl ⟨hne, .inr hmem⟩
      · rintro (⟨hne, ⟨hsame, -⟩ | hmem⟩ | ⟨rfl, earlier, rfl, rfl⟩)
        · exact absurd hsame hne
        · exact Or.inr hmem
        · exact Or.inl ⟨rfl, rfl⟩
    · rw [appendTo, if_neg hkey, List.mem_cons, ih h.2]
      simp only [List.mem_cons, Prod.mk.injEq, List.map_cons, Ne.symm hkey, false_and, false_or]
      constructor
      · rintro (⟨rfl, rfl⟩ | ⟨hne, hmem⟩ | hsame)
        · exact Or.inl ⟨hkey, .inl ⟨rfl, rfl⟩⟩
        · exact Or.inl ⟨hne, .inr hmem⟩
        · exact Or.inr hsame
      · rintro (⟨hne, ⟨rfl, rfl⟩ | hmem⟩ | hsame)
        · exact Or.inl ⟨rfl, rfl⟩
        · exact Or.inr (.inl ⟨hne, hmem⟩)
        · exact Or.inr (.inr hsame)

/-- The buckets are the rows of every key that a row has, in order. -/
theorem mem_groupBy {key : α → κ} {rows : List α} {bucket : List α} :
    (k, bucket) ∈ groupBy key rows ↔ bucket = rows.filter (key · = k) ∧ bucket ≠ [] := by
  induction rows using List.reverseRecOn generalizing k bucket with
  | nil =>
    refine iff_of_false (fun h ↦ absurd h List.not_mem_nil) ?_
    rintro ⟨rfl, hne⟩
    exact hne rfl
  | append_singleton rows row ih =>
    have hkeys : ∀ k, k ∈ (groupBy key rows).map Prod.fst ↔ rows.filter (key · = k) ≠ [] := by
      intro k
      constructor
      · intro hmem
        obtain ⟨⟨_, earlier⟩, hearlier, rfl⟩ := List.mem_map.mp hmem
        obtain ⟨rfl, hne⟩ := ih.mp hearlier
        exact hne
      · intro hne
        exact List.mem_map.mpr ⟨(k, _), ih.mpr ⟨rfl, hne⟩, rfl⟩
    rw [groupBy_append, mem_appendTo (nodup_keys_groupBy key rows), List.filter_append]
    by_cases hkey : key row = k
    · rw [List.filter_singleton, decide_eq_true hkey, cond_true, hkeys]
      constructor
      · rintro (⟨hne, -⟩ | ⟨-, ⟨hnew, rfl⟩ | ⟨earlier, hearlier, rfl⟩⟩)
        · exact absurd hkey.symm hne
        · rw [← hkey, not_not.mp hnew]
          exact ⟨rfl, List.cons_ne_nil _ _⟩
        · rw [hkey] at hearlier
          have hne := List.append_ne_nil_of_right_ne_nil earlier (List.cons_ne_nil row [])
          exact ⟨by rw [(ih.mp hearlier).1], hne⟩
      · rintro ⟨rfl, -⟩
        refine Or.inr ⟨hkey.symm, ?_⟩
        rw [hkey]
        by_cases hempty : rows.filter (key · = k) = []
        · exact Or.inl ⟨not_not.mpr hempty, by rw [hempty, List.nil_append]⟩
        · exact Or.inr ⟨_, ih.mpr ⟨rfl, hempty⟩, rfl⟩
    · rw [List.filter_singleton, decide_eq_false hkey, cond_false, List.append_nil, ih]
      constructor
      · rintro (⟨-, hmem⟩ | ⟨rfl, -⟩)
        · exact hmem
        · exact absurd rfl hkey
      · exact fun hmem ↦ Or.inl ⟨Ne.symm hkey, hmem⟩

end GroupBy

/-! ### Pages -/

section Pages

variable {α : Type}

/-- `max(1, -(-total // size))`: the number of pages. -/
def pageCount (size total : ℕ) : ℕ :=
  max 1 ((total + size - 1) / size)

/-- `rows[(page - 1) * size : page * size]`. -/
def pageOf (size page : ℕ) (rows : List α) : List α :=
  (rows.drop ((page - 1) * size)).take size

/-- The pages hold every row. -/
theorem le_pageCount_mul {size : ℕ} (hsize : 0 < size) (total : ℕ) :
    total ≤ pageCount size total * size := by
  have hdiv := Nat.lt_div_mul_add hsize (a := total + size - 1)
  have hmax : (total + size - 1) / size ≤ pageCount size total := le_max_right _ _
  have hmul := Nat.mul_le_mul_right size hmax
  omega

/-- The first pages are the first rows. -/
theorem flatMap_pageOf_take (size : ℕ) (rows : List α) (count : ℕ) :
    (List.range' 1 count).flatMap (pageOf size · rows) = rows.take (count * size) := by
  induction count with
  | zero => simp
  | succ count ih =>
    have hrows : rows.take ((count + 1) * size) =
        rows.take (count * size) ++ (rows.drop (count * size)).take size := by
      rw [Nat.succ_mul, List.take_add]
    rw [List.range'_concat, List.flatMap_append, ih, hrows]
    simp [pageOf]

/-- The pages, one after the other, are the rows. -/
theorem flatMap_pageOf {size : ℕ} (hsize : 0 < size) (rows : List α) :
    (List.range' 1 (pageCount size rows.length)).flatMap (pageOf size · rows) = rows := by
  rw [flatMap_pageOf_take]
  exact List.take_of_length_le (le_pageCount_mul hsize rows.length)

/-- No page of a list with rows is empty. -/
theorem pageOf_ne_nil {size page : ℕ} {rows : List α} (hsize : 0 < size) (hrows : rows ≠ [])
    (hfirst : 1 ≤ page) (hlast : page ≤ pageCount size rows.length) :
    pageOf size page rows ≠ [] := by
  have hlength : 0 < rows.length := List.length_pos_iff.mpr hrows
  have hbefore : (page - 1) * size < rows.length := by
    by_cases hone : page = 1
    · rw [hone]
      omega
    · have hle : page ≤ (rows.length + size - 1) / size := by
        rcases le_max_iff.mp hlast with hle | hle
        · omega
        · exact hle
      have hmul := (Nat.le_div_iff_mul_le hsize).mp hle
      rw [Nat.sub_mul, Nat.one_mul]
      omega
  rw [← List.length_pos_iff, pageOf, List.length_take, List.length_drop]
  exact lt_min hsize (by omega)

end Pages

end CloudPlatform
