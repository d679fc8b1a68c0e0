import Mathlib.Data.List.Basic
import Mathlib.Tactic.Common
import Mathlib.Tactic.Ring

/-!
# Reading a list page by page

A list is served by offset, in windows of one size. `gather` is a bounded reader: it stops at an empty
window, and after a window that does not announce another one. `gather_eq_drop` says when that is all
of the list.
-/

namespace Paging

variable {α : Type}

/-- The elements from an offset on, as many as a page holds. -/
def window (size offset : ℕ) (xs : List α) : List α :=
  (xs.drop offset).take size

/-- The elements that a reader of so many pages at most gets. -/
def gather (size : ℕ) (announces : ℕ → Bool) (xs : List α) : ℕ → ℕ → List α
  | 0, _ => []
  | pages + 1, offset =>
    let page := window size offset xs
    if page.isEmpty then []
    else if announces offset then
      page ++ gather size announces xs pages (offset + page.length)
    else page

section

variable {size offset : ℕ} {announces : ℕ → Bool} {xs : List α}

theorem length_window (size offset : ℕ) (xs : List α) :
    (window size offset xs).length = min size (xs.length - offset) := by
  rw [window, List.length_take, List.length_drop]

theorem window_append_drop (size offset : ℕ) (xs : List α) :
    window size offset xs ++ xs.drop (offset + (window size offset xs).length) =
      xs.drop offset := by
  have hdrop : xs.drop (offset + (window size offset xs).length) =
      (xs.drop offset).drop size := by
    rw [length_window, List.drop_drop]
    rcases Nat.le_total size (xs.length - offset) with hle | hle
    · rw [min_eq_left hle]
    · rw [min_eq_right hle, List.drop_eq_nil_of_le (by omega), List.drop_eq_nil_of_le (by omega)]
  rw [hdrop, window, List.take_append_drop]

theorem take_append_window (size offset : ℕ) (xs : List α) :
    xs.take offset ++ window size offset xs = xs.take (offset + size) := by
  rw [window, List.take_add]

theorem take_append_page (size offset : ℕ) (xs : List α) : xs.take offset ++ window size offset xs =
      xs.take (offset + (window size offset xs).length) := by
  have hlength := length_window size offset xs
  rw [take_append_window]
  rcases Nat.le_total size (xs.length - offset) with hle | hle
  · rw [hlength, min_eq_left hle]
  · rw [List.take_of_length_le (by omega), List.take_of_length_le (by omega)]

theorem window_eq_drop (h : xs.length ≤ offset + size) : window size offset xs = xs.drop offset := by
  rw [window, List.take_of_length_le (by rw [List.length_drop]; omega)]

theorem window_ne_drop (h : offset + size < xs.length) : window size offset xs ≠ xs.drop offset := by
  intro heq
  have hlength := congrArg List.length heq
  rw [length_window, List.length_drop] at hlength
  omega

theorem window_eq_nil_iff : window size offset xs = [] ↔ size = 0 ∨ xs.length ≤ offset := by
  rw [← List.length_eq_zero_iff, length_window]
  omega

theorem gather_of_length_le (h : xs.length ≤ offset) (pages : ℕ) :
    gather size announces xs pages offset = [] := by
  cases pages with
  | zero => rfl
  | succ pages => simp [gather, window_eq_nil_iff.mpr (.inr h)]

/-- The reader gets what is left of the list exactly if the pages are enough and every page before
the last one announces another. -/
theorem gather_eq_drop : ∀ (pages offset : ℕ),
    gather size announces xs pages offset = xs.drop offset ↔ xs.length - offset ≤ pages * size ∧
        ∀ page, offset + (page + 1) * size < xs.length → announces (offset + page * size) := by
  intro pages
  induction pages with
  | zero =>
    intro offset
    rw [gather, eq_comm, List.drop_eq_nil_iff, Nat.zero_mul]
    constructor
    · intro h
      exact ⟨by omega, fun page hpage ↦ absurd hpage (by omega)⟩
    · rintro ⟨h, -⟩
      omega
  | succ pages ih =>
    intro offset
    rcases le_or_gt xs.length offset with hend | hleft
    · rw [gather_of_length_le hend, List.drop_eq_nil_of_le hend]
      exact iff_of_true rfl ⟨by omega, fun page hpage ↦ absurd hpage (by omega)⟩
    rcases Nat.eq_zero_or_pos size with rfl | hsize
    · have hempty : window 0 offset xs = [] := window_eq_nil_iff.mpr (.inl rfl)
      have hgather : gather 0 announces xs (pages + 1) offset = [] := by simp [gather, hempty]
      rw [hgather]
      refine iff_of_false ?_ fun h ↦ absurd h.1 (by omega)
      rw [eq_comm, List.drop_eq_nil_iff]
      omega
    have hpage : (window size offset xs).isEmpty = false := by
      rw [List.isEmpty_eq_false_iff, ne_eq, window_eq_nil_iff]
      omega
    rw [gather, hpage, if_neg Bool.false_ne_true]
    rcases le_or_gt xs.length (offset + size) with hlast | hmore
    · have hnone : ∀ page, ¬ offset + (page + 1) * size < xs.length := by
        intro page
        have : size ≤ (page + 1) * size := Nat.le_mul_of_pos_left _ (Nat.succ_pos page)
        omega
      have hpages : xs.length - offset ≤ (pages + 1) * size := by
        have : size ≤ (pages + 1) * size := Nat.le_mul_of_pos_left _ (Nat.succ_pos pages)
        omega
      refine iff_of_true ?_ ⟨hpages, fun page h ↦ absurd h (hnone page)⟩
      have hrest : xs.length ≤ offset + (window size offset xs).length := by
        rw [length_window]
        omega
      rw [gather_of_length_le hrest, List.append_nil, ite_self, window_eq_drop hlast]
    · have hlength : (window size offset xs).length = size := by
        rw [length_window]
        omega
      split_ifs with hannounces
      · have hdrop := window_append_drop size offset xs
        rw [hlength] at hdrop ⊢
        rw [← hdrop, List.append_cancel_left_eq, ih (offset + size)]
        have hcount : xs.length - (offset + size) ≤ pages * size ↔
            xs.length - offset ≤ (pages + 1) * size := by
          rw [Nat.add_mul]
          omega
        rw [hcount]
        refine and_congr_right fun _ ↦ ⟨?_, ?_⟩
        · intro h page hpage
          cases page with
          | zero => simpa using hannounces
          | succ page =>
            have hnext := h page (by rw [Nat.add_mul, Nat.add_mul] at *; omega)
            rwa [Nat.add_mul, Nat.one_mul, Nat.add_comm (page * size), ← Nat.add_assoc]
        · intro h page hpage
          have hnext := h (page + 1) (by rw [Nat.add_mul, Nat.add_mul] at *; omega)
          rwa [Nat.add_mul, Nat.one_mul, Nat.add_comm (page * size), ← Nat.add_assoc] at hnext
      · refine iff_of_false (window_ne_drop hmore) fun h ↦ hannounces ?_
        simpa using h.2 0 (by omega)

end

end Paging
