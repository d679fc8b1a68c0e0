import CloudPlatform.Core.Python
import Mathlib.Data.List.Dedup
import Mathlib.Data.List.Find
import Mathlib.Data.List.Perm.Basic
import Mathlib.Data.List.Sort
import Mathlib.Data.Prod.Lex

/-!
# Loops over lists

What a `for` loop with a raising body computes, when raising does not depend on the state, and which
elements of an ordered list come before the first that fails a test. Insertion sort by a total preorder is
stable, and its result does not depend on the order of the input exactly where no two elements tie.
-/

namespace CloudPlatform

variable {α β σ : Type}

/-- A loop whose body raises at some elements and acts at the others. -/
theorem foldlM_eq {step : σ → α → Result σ} {raises : α → Option Raised} {act : σ → α → σ}
    (hstep : ∀ s x, step s x = match raises x with
      | some raised => .error raised
      | none => .ok (act s x)) (xs : List α) :
    ∀ s, xs.foldlM step s = match xs.findSome? raises with
      | some raised => .error raised
      | none => .ok (xs.foldl act s) := by
  induction xs with
  | nil => intro s; rfl
  | cons x rest ih =>
    intro s
    rw [List.foldlM_cons, hstep, List.findSome?_cons]
    cases hraises : raises x with
    | some raised => rfl
    | none => exact (ok_bind (act s x) _).trans (ih (act s x))

variable {f : α → Result β} {xs : List α} {x : α}

/-- What a list comprehension with a raising body collects. -/
theorem mem_of_mapM_eq_ok {ys : List β} (h : xs.mapM f = .ok ys) {y : β} :
    y ∈ ys ↔ ∃ x ∈ xs, f x = .ok y := by
  induction xs generalizing ys with
  | nil =>
    rw [List.mapM_nil, pure_eq_ok] at h
    subst h
    simp
  | cons x rest ih =>
    rw [List.mapM_cons] at h
    obtain ⟨first, hfirst, hmap⟩ := bind_eq_ok.mp h
    obtain ⟨others, hothers, hys⟩ := bind_eq_ok.mp hmap
    obtain rfl := pure_eq_ok.mp hys
    rw [List.mem_cons, ih hothers]
    constructor
    · rintro (rfl | ⟨other, hother, hy⟩)
      · exact ⟨x, List.mem_cons_self, hfirst⟩
      · exact ⟨other, List.mem_cons_of_mem _ hother, hy⟩
    · rintro ⟨other, hother, hy⟩
      cases List.mem_cons.mp hother with
      | inl heq =>
        rw [heq, hfirst] at hy
        exact Or.inl (Except.ok.inj hy).symm
      | inr htail => exact Or.inr ⟨other, htail, hy⟩

theorem exists_of_mapM_eq_ok {ys : List β} (h : xs.mapM f = .ok ys) (hx : x ∈ xs) :
    ∃ y, f x = .ok y := by
  induction xs generalizing ys with
  | nil => cases hx
  | cons first rest ih =>
    rw [List.mapM_cons] at h
    obtain ⟨y, hfirst, hmap⟩ := bind_eq_ok.mp h
    obtain ⟨others, hothers, -⟩ := bind_eq_ok.mp hmap
    cases List.mem_cons.mp hx with
    | inl heq => exact ⟨y, heq ▸ hfirst⟩
    | inr htail => exact ih hothers htail

theorem mapM_eq_ok_of_forall (h : ∀ x ∈ xs, ∃ y, f x = .ok y) : ∃ ys, xs.mapM f = .ok ys := by
  induction xs with
  | nil => exact ⟨[], by rw [List.mapM_nil]; rfl⟩
  | cons x rest ih =>
    obtain ⟨y, hy⟩ := h x List.mem_cons_self
    obtain ⟨ys, hys⟩ := ih fun other hother ↦ h other (List.mem_cons_of_mem x hother)
    exact ⟨y :: ys, by rw [List.mapM_cons, hy, hys]; rfl⟩

/-- What a column of the collected values is, when each value tells it of its element. -/
theorem map_of_mapM_eq_ok {γ : Type} {column : β → γ} {value : α → γ}
    (hf : ∀ x ∈ xs, ∀ y, f x = .ok y → column y = value x) :
    ∀ {ys : List β}, xs.mapM f = .ok ys → ys.map column = xs.map value := by
  induction xs with
  | nil =>
    intro ys h
    rw [List.mapM_nil, pure_eq_ok] at h
    rw [← h, List.map_nil, List.map_nil]
  | cons x rest ih =>
    intro ys h
    rw [List.mapM_cons] at h
    obtain ⟨y, hfirst, hmap⟩ := bind_eq_ok.mp h
    obtain ⟨others, hothers, hys⟩ := bind_eq_ok.mp hmap
    rw [← pure_eq_ok.mp hys, List.map_cons, List.map_cons, hf x List.mem_cons_self y hfirst,
      ih (fun other hother ↦ hf other (List.mem_cons_of_mem x hother)) hothers]

/-- A loop of checks passes when each of them does. -/
theorem forM_eq_ok {f : α → Result Unit} : xs.forM f = .ok () ↔ ∀ x ∈ xs, f x = .ok () := by
  induction xs with
  | nil => exact ⟨fun _ x hx ↦ (List.not_mem_nil hx).elim, fun _ ↦ rfl⟩
  | cons x rest ih =>
    rw [List.forall_mem_cons, ← ih]
    refine bind_eq_ok.trans ⟨?_, fun h ↦ ⟨(), h⟩⟩
    rintro ⟨⟨⟩, hfirst, hrest⟩
    exact ⟨hfirst, hrest⟩

/-- In a strictly ordered list, the elements before the first that fails the test are those up to
which every element passes it. -/
theorem mem_takeWhile_of_pairwise [LinearOrder β] {rank : α → β} {test : α → Bool} :
    ∀ {xs : List α}, xs.Pairwise (fun first second ↦ rank first < rank second) →
      (x ∈ xs.takeWhile test ↔ x ∈ xs ∧ ∀ y ∈ xs, rank y ≤ rank x → test y = true) := by
  intro xs
  induction xs with
  | nil => intro _; simp
  | cons first rest ih =>
    intro hsorted
    obtain ⟨hfirst, hrest⟩ := List.pairwise_cons.mp hsorted
    by_cases htest : test first = true
    · rw [List.takeWhile_cons_of_pos htest, List.mem_cons, List.mem_cons, ih hrest]
      constructor
      · rintro (rfl | ⟨hmem, hall⟩)
        · refine ⟨Or.inl rfl, List.forall_mem_cons.mpr ⟨fun _ ↦ htest, fun y hy hle ↦ ?_⟩⟩
          exact absurd (hfirst y hy) (not_lt.mpr hle)
        · exact ⟨Or.inr hmem, List.forall_mem_cons.mpr ⟨fun _ ↦ htest, hall⟩⟩
      · rintro ⟨rfl | hmem, hall⟩
        · exact Or.inl rfl
        · exact Or.inr ⟨hmem, (List.forall_mem_cons.mp hall).2⟩
    · rw [List.takeWhile_cons_of_neg htest]
      constructor
      · intro hmem
        cases hmem
      · rintro ⟨hmem, hall⟩
        have hle : rank first ≤ rank x := by
          cases List.mem_cons.mp hmem with
          | inl heq => rw [heq]
          | inr htail => exact (hfirst x htail).le
        exact absurd (hall first List.mem_cons_self hle) htest

/-- The distinct elements of a list, sorted, are strictly ordered. -/
theorem pairwise_lt_sorted_dedup [DecidableEq α] [LinearOrder β] {rank : α → β}
    (hrank : Function.Injective rank) (xs : List α) :
    (xs.dedup.insertionSort fun first second ↦ rank first ≤ rank second).Pairwise
      fun first second ↦ rank first < rank second := by
  have : Std.Total fun first second : α ↦ rank first ≤ rank second :=
    ⟨fun first second ↦ le_total (rank first) (rank second)⟩
  have : IsTrans α fun first second ↦ rank first ≤ rank second := ⟨fun _ _ _ ↦ le_trans⟩
  have hsorted := List.pairwise_insertionSort (fun first second ↦ rank first ≤ rank second) xs.dedup
  have hnodup : (xs.dedup.insertionSort fun first second ↦ rank first ≤ rank second).Nodup :=
    (List.perm_insertionSort _ _).nodup_iff.mpr xs.nodup_dedup
  refine (hsorted.and hnodup).imp ?_
  intro first second h
  exact lt_of_le_of_ne h.1 fun heq ↦ h.2 (hrank heq)

/-- The first element that passes a test comes before every other that does. -/
theorem eq_or_rel_of_find?_eq_some {R : α → α → Prop} {test : α → Bool} {x y : α}
    (hordered : xs.Pairwise R) (hfind : xs.find? test = some x) (hy : y ∈ xs)
    (htest : test y = true) : x = y ∨ R x y := by
  induction xs with
  | nil => cases hy
  | cons first rest ih =>
    obtain ⟨hfirst, hrest⟩ := List.pairwise_cons.mp hordered
    by_cases hpasses : test first = true
    · rw [List.find?_cons_of_pos hpasses, Option.some_inj] at hfind
      subst hfind
      cases List.mem_cons.mp hy with
      | inl heq => exact Or.inl heq.symm
      | inr htail => exact Or.inr (hfirst y htail)
    · rw [List.find?_cons_of_neg hpasses] at hfind
      cases List.mem_cons.mp hy with
      | inl heq =>
        rw [heq] at htest
        exact absurd htest hpasses
      | inr htail => exact ih hrest hfind htail

/-- Of elements with distinct keys, of which only one contributes, a `flatMap` is that one's. -/
theorem flatMap_eq_of_mem {γ : Type} {key : α → β} {f : α → List γ} (hnodup : (xs.map key).Nodup)
    (hx : x ∈ xs) (hf : ∀ y ∈ xs, key y ≠ key x → f y = []) : xs.flatMap f = f x := by
  induction xs with
  | nil => cases hx
  | cons first rest ih =>
    rw [List.map_cons, List.nodup_cons] at hnodup
    obtain ⟨hfirst, hrest⟩ := List.forall_mem_cons.mp hf
    rw [List.flatMap_cons]
    cases List.mem_cons.mp hx with
    | inl heq =>
      have hnil : rest.flatMap f = [] := by
        refine List.flatMap_eq_nil_iff.mpr fun y hy ↦ hrest y hy fun hkey ↦ hnodup.1 ?_
        rw [← heq, ← hkey]
        exact List.mem_map_of_mem hy
      rw [hnil, List.append_nil, heq]
    | inr htail =>
      have hne : key first ≠ key x := by
        intro hkey
        rw [hkey] at hnodup
        exact hnodup.1 (List.mem_map_of_mem htail)
      rw [hfirst hne, List.nil_append, ih hnodup.2 htail hrest]

/-! ### First elements -/

/-- The first element of every key, in order. -/
def firstBy [DecidableEq β] (key : α → β) (xs : List α) : List α :=
  xs.eraseDupsBy fun x y ↦ key x = key y

section FirstBy

variable [DecidableEq β] {key : α → β}

@[simp] theorem firstBy_nil : firstBy key [] = [] :=
  rfl

theorem firstBy_cons (x : α) (xs : List α) :
    firstBy key (x :: xs) = x :: firstBy key (xs.filter fun y ↦ key y ≠ key x) := by
  rw [firstBy, List.eraseDupsBy_cons]
  refine congrArg (fun ys ↦ x :: List.eraseDupsBy _ ys) (List.filter_congr fun y _ ↦ ?_)
  simp

variable {x : α} {xs : List α}

/-- An element is kept exactly if it is the first of its key. -/
theorem mem_firstBy : x ∈ firstBy key xs ↔ xs.find? (key · = key x) = some x := by
  induction hlength : xs.length using Nat.strong_induction_on generalizing xs with
  | _ length ih =>
    cases xs with
    | nil => simp
    | cons first rest =>
      have hshorter : (rest.filter fun y ↦ key y ≠ key first).length < length := by
        rw [← hlength, List.length_cons]
        exact Nat.lt_succ_of_le (List.length_filter_le _ _)
      rw [firstBy_cons, List.mem_cons, ih _ hshorter rfl]
      by_cases hkey : key first = key x
      · rw [List.find?_cons_of_pos (by simpa using hkey), Option.some_inj]
        constructor
        · rintro (heq | hrest)
          · exact heq.symm
          · have hne := (List.mem_filter.mp (List.mem_of_find?_eq_some hrest)).2
            rw [hkey] at hne
            simp at hne
        · intro heq
          exact Or.inl heq.symm
      · have hrest : (rest.filter fun y ↦ key y ≠ key first).find? (key · = key x) =
            rest.find? (key · = key x) := by
          rw [List.find?_filter]
          refine List.find?_congr fun y _ ↦ ?_
          by_cases hy : key y = key x
          · simp [hy, Ne.symm hkey]
          · simp [hy]
        rw [List.find?_cons_of_neg (by simpa using hkey), hrest]
        constructor
        · rintro (rfl | hfound)
          · exact absurd rfl hkey
          · exact hfound
        · intro hfound
          exact Or.inr hfound

theorem mem_of_mem_firstBy (h : x ∈ firstBy key xs) : x ∈ xs :=
  List.mem_of_find?_eq_some (mem_firstBy.mp h)

/-- Every key of the list has a first element. -/
theorem exists_mem_firstBy (h : x ∈ xs) : ∃ y ∈ firstBy key xs, key y = key x := by
  cases hfind : xs.find? (key · = key x) with
  | none => exact absurd (decide_eq_true rfl) (List.find?_eq_none.mp hfind x h)
  | some y =>
    have hkey : key y = key x := by simpa using List.find?_some hfind
    refine ⟨y, mem_firstBy.mpr ?_, hkey⟩
    rw [hkey, hfind]

theorem nodup_map_firstBy (xs : List α) : ((firstBy key xs).map key).Nodup := by
  induction hlength : xs.length using Nat.strong_induction_on generalizing xs with
  | _ length ih =>
    cases xs with
    | nil => exact List.nodup_nil
    | cons first rest =>
      have hshorter : (rest.filter fun y ↦ key y ≠ key first).length < length := by
        rw [← hlength, List.length_cons]
        exact Nat.lt_succ_of_le (List.length_filter_le _ _)
      rw [firstBy_cons, List.map_cons, List.nodup_cons]
      refine ⟨fun hmem ↦ ?_, ih _ hshorter _ rfl⟩
      obtain ⟨other, hother, hkey⟩ := List.mem_map.mp hmem
      have hfiltered := (List.mem_filter.mp (mem_of_mem_firstBy hother)).2
      rw [hkey] at hfiltered
      simp at hfiltered

theorem nodup_eraseDups [DecidableEq α] (xs : List α) : xs.eraseDups.Nodup := by
  have hnodup : ((firstBy id xs).map id).Nodup := nodup_map_firstBy xs
  rwa [List.map_id] at hnodup

end FirstBy

end CloudPlatform

/-! ### Stable sorting -/

namespace StableSort

variable {α : Type} {r : α → α → Prop} [DecidableRel r]

/-- Elements that are pairwise related either way stay in their order. -/
theorem filter_insertionSort {p : α → Bool} (hp : ∀ x y, p x = true → p y = true → r x y)
    (xs : List α) : (xs.insertionSort r).filter p = xs.filter p := by
  have hordered : (xs.filter p).Pairwise r := by
    refine List.pairwise_of_forall_mem_list fun x hx y hy ↦ ?_
    exact hp x y (List.mem_filter.mp hx).2 (List.mem_filter.mp hy).2
  have hsub : (xs.filter p).Sublist (xs.insertionSort r) :=
    List.sublist_insertionSort hordered List.filter_sublist
  have hfilter := hsub.filter p
  simp only [List.filter_filter, Bool.and_self] at hfilter
  refine (hfilter.eq_of_length ?_).symm
  exact ((List.perm_insertionSort r xs).filter p).length_eq.symm

/-- A list whose elements the order tells apart has one sorted form. -/
theorem insertionSort_eq_of_perm [Std.Total r] [IsTrans α r] {xs ys : List α} (h : xs.Perm ys)
    (hdistinct : ∀ x ∈ xs, ∀ y ∈ xs, r x y → r y x → x = y) :
    xs.insertionSort r = ys.insertionSort r := by
  have hperm : (xs.insertionSort r).Perm (ys.insertionSort r) :=
    (List.perm_insertionSort r xs).trans (h.trans (List.perm_insertionSort r ys).symm)
  have hanti : ∀ x y, x ∈ xs.insertionSort r → y ∈ ys.insertionSort r → r x y → r y x → x = y := by
    intro x y hx hy hxy hyx
    have hxs := (List.perm_insertionSort r xs).mem_iff.mp hx
    have hys := h.mem_iff.mpr ((List.perm_insertionSort r ys).mem_iff.mp hy)
    exact hdistinct x hxs y hys hxy hyx
  exact hperm.eq_of_pairwise hanti (List.pairwise_insertionSort r xs)
    (List.pairwise_insertionSort r ys)

end StableSort
