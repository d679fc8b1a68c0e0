import Mathlib.Data.Int.ConditionallyCompleteOrder
import Mathlib.Data.Int.Interval
import Mathlib.Tactic.Linarith
import Mathlib.Tactic.Ring

/-!
# Windows cut at the multiples of a length

A half-open window of integers, cut at every multiple of a length inside it. The pieces follow each
other without a gap (`Cut.tiles`), each of them lies in one cell of the grid, and a window has as many
pieces as cells that it meets (`Cut.length_eq_card`). Two windows that meet on the grid have together
the pieces of the whole (`Cut.append`).
-/

namespace CloudPlatform.Cells

/-- Pieces that are not empty and lead from one end to the other without a gap. -/
def Tiles : ℤ → List (ℤ × ℤ) → ℤ → Prop
  | start, [], finish => start = finish
  | start, piece :: rest, finish => piece.1 = start ∧ start < piece.2 ∧ Tiles piece.2 rest finish

/-- The least multiple of the length above a point. -/
def next (length a : ℤ) : ℤ :=
  (a / length + 1) * length

/-- The least multiple of the length that is not below a point. -/
def atLeast (length a : ℤ) : ℤ :=
  -(-a / length) * length

/-- The pieces of a window that is not empty. -/
inductive Cut (length : ℤ) : ℤ → ℤ → List (ℤ × ℤ) → Prop
  | last {start finish : ℤ} (hlt : start < finish) (hle : finish ≤ next length start) :
    Cut length start finish [(start, finish)]
  | step {start finish : ℤ} {rest : List (ℤ × ℤ)} (hlt : next length start < finish)
    (hrest : Cut length (next length start) finish rest) :
    Cut length start finish ((start, next length start) :: rest)

variable {length : ℤ}

theorem dvd_next (length a : ℤ) : length ∣ next length a :=
  Dvd.intro_left _ rfl

theorem dvd_atLeast (length a : ℤ) : length ∣ atLeast length a :=
  Dvd.intro_left _ rfl

theorem next_of_dvd {a : ℤ} (h : length ∣ a) : next length a = a + length := by
  rw [next, add_mul, one_mul, Int.ediv_mul_cancel h]

section Multiples

variable (hlength : 0 < length)

include hlength

theorem lt_next (a : ℤ) : a < next length a :=
  Int.lt_ediv_add_one_mul_self a hlength

theorem next_le_of_dvd {a b : ℤ} (hb : length ∣ b) (h : a < b) : next length a ≤ b := by
  obtain ⟨k, rfl⟩ := hb
  have hquotient : a / length < k := Int.ediv_lt_of_lt_mul hlength (by rwa [mul_comm] at h)
  rw [next, mul_comm length k]
  exact mul_le_mul_of_nonneg_right hquotient hlength.le

theorem le_atLeast (a : ℤ) : a ≤ atLeast length a := by
  have hmul := Int.ediv_mul_le (-a) hlength.ne'
  rw [atLeast, neg_mul]
  omega

/-- Of a window that ends in the cell of its start, the next multiple is the one after its end. -/
theorem atLeast_eq_next {start finish : ℤ} (hlt : start < finish) (hle : finish ≤ next length start) :
    atLeast length finish = next length start := by
  apply le_antisymm
  · rw [atLeast, next]
    apply mul_le_mul_of_nonneg_right _ hlength.le
    rw [neg_le, Int.le_ediv_iff_mul_le hlength, neg_mul]
    exact neg_le_neg hle
  · exact next_le_of_dvd hlength (dvd_atLeast _ finish) (hlt.trans_le (le_atLeast hlength finish))

theorem atLeast_of_dvd {a : ℤ} (h : length ∣ a) : atLeast length a = a := by
  obtain ⟨k, rfl⟩ := h
  rw [atLeast, ← mul_neg, Int.mul_ediv_cancel_left _ hlength.ne', neg_neg, mul_comm]

theorem next_le_add (a : ℤ) : next length a ≤ a + length := by
  have hmul := Int.ediv_mul_le a hlength.ne'
  rw [next, add_mul, one_mul]
  exact Int.add_le_add_right hmul length

theorem next_ediv (a : ℤ) : next length a / length = a / length + 1 :=
  Int.mul_ediv_cancel _ hlength.ne'

/-- The cells that a window meets are those from the cell of its first point to the one of its last. -/
theorem image_ediv {start finish : ℤ} (h : start < finish) :
    (Finset.Ico start finish).image (· / length) =
      Finset.Icc (start / length) ((finish - 1) / length) := by
  ext cell
  rw [Finset.mem_image, Finset.mem_Icc]
  constructor
  · rintro ⟨t, ht, rfl⟩
    obtain ⟨hstart, hfinish⟩ := Finset.mem_Ico.mp ht
    exact ⟨Int.ediv_le_ediv hlength hstart, Int.ediv_le_ediv hlength (by omega)⟩
  · rintro ⟨hstart, hfinish⟩
    -- The first point of the cell, or that of the window.
    have hcell : cell * length ≤ finish - 1 :=
      (mul_le_mul_of_nonneg_right hfinish hlength.le).trans (Int.ediv_mul_le _ hlength.ne')
    refine ⟨max start (cell * length), Finset.mem_Ico.mpr ⟨le_max_left _ _, ?_⟩, ?_⟩
    · exact max_lt h (by omega)
    · apply le_antisymm
      · rw [← Int.lt_add_one_iff, Int.ediv_lt_iff_lt_mul hlength]
        apply max_lt
        · exact (Int.lt_ediv_add_one_mul_self start hlength).trans_le
            (mul_le_mul_of_nonneg_right (by omega) hlength.le)
        · exact mul_lt_mul_of_pos_right (by omega) hlength
      · exact (Int.le_ediv_iff_mul_le hlength).mpr (le_max_right _ _)

end Multiples

namespace Cut

variable {start finish : ℤ} {pieces : List (ℤ × ℤ)}

theorem tiles (hlength : 0 < length) (h : Cut length start finish pieces) :
    Tiles start pieces finish := by
  induction h with
  | last hlt hle => exact ⟨rfl, hlt, rfl⟩
  | step hlt hrest ih => exact ⟨rfl, lt_next hlength _, ih⟩

theorem lt (hlength : 0 < length) (h : Cut length start finish pieces) : start < finish := by
  induction h with
  | last hlt hle => exact hlt
  | step hlt hrest ih => exact (lt_next hlength _).trans hlt

/-- A window is cut in one way only. -/
theorem unique {other : List (ℤ × ℤ)} (h : Cut length start finish pieces)
    (hother : Cut length start finish other) : pieces = other := by
  induction h generalizing other with
  | last hlt hle =>
    cases hother with
    | last => rfl
    | step hlt' => exact absurd hlt' (not_lt.mpr hle)
  | step hlt hrest ih =>
    cases hother with
    | last hlt' hle' => exact absurd hlt (not_lt.mpr hle')
    | step hlt' hrest' => rw [ih hrest']

/-- Every end of a piece is one of the window or a multiple of the length. -/
theorem grid (h : Cut length start finish pieces) : ∀ piece ∈ pieces,
    (piece.1 = start ∨ length ∣ piece.1) ∧ (piece.2 = finish ∨ length ∣ piece.2) := by
  induction h with
  | last hlt hle =>
    intro piece hpiece
    rw [List.mem_singleton.mp hpiece]
    exact ⟨.inl rfl, .inl rfl⟩
  | step hlt hrest ih =>
    intro piece hpiece
    cases List.mem_cons.mp hpiece with
    | inl hfirst =>
      rw [hfirst]
      exact ⟨.inl rfl, .inr (dvd_next _ _)⟩
    | inr hmem =>
      obtain ⟨hleft, hright⟩ := ih piece hmem
      refine ⟨.inr ?_, hright⟩
      cases hleft with
      | inl heq => exact heq ▸ dvd_next _ _
      | inr hdvd => exact hdvd

/-- A piece is not empty, not longer than a cell, and within the window. -/
theorem bounds (hlength : 0 < length) (h : Cut length start finish pieces) : ∀ piece ∈ pieces,
    piece.1 < piece.2 ∧ piece.2 - piece.1 ≤ length ∧ start ≤ piece.1 ∧ piece.2 ≤ finish := by
  induction h with
  | @last start finish hlt hle =>
    intro piece hpiece
    rw [List.mem_singleton.mp hpiece]
    exact ⟨hlt, sub_left_le_of_le_add (hle.trans (next_le_add hlength start)), le_rfl, le_rfl⟩
  | step hlt hrest ih =>
    intro piece hpiece
    cases List.mem_cons.mp hpiece with
    | inl hfirst =>
      rw [hfirst]
      exact ⟨lt_next hlength _, sub_left_le_of_le_add (next_le_add hlength _), le_rfl, hlt.le⟩
    | inr hmem =>
      obtain ⟨hproper, hshort, hleft, hright⟩ := ih piece hmem
      exact ⟨hproper, hshort, (lt_next hlength _).le.trans hleft, hright⟩

/-- Windows that meet on the grid have together the pieces of the whole. -/
theorem append {middle : ℤ} {before after : List (ℤ × ℤ)} (hlength : 0 < length)
    (hmiddle : length ∣ middle) (hbefore : Cut length start middle before)
    (hafter : Cut length middle finish after) : Cut length start finish (before ++ after) := by
  induction hbefore with
  | last hlt hle =>
    obtain rfl := le_antisymm hle (next_le_of_dvd hlength hmiddle hlt)
    exact .step (hafter.lt hlength) hafter
  | step hlt hrest ih => exact .step (hlt.trans (hafter.lt hlength)) (ih hmiddle hafter)

/-- The start of the window, and every multiple in it, begins a piece. -/
theorem exists_start (hlength : 0 < length) (h : Cut length start finish pieces) {a : ℤ}
    (hgrid : a = start ∨ length ∣ a) (hstart : start ≤ a) (hfinish : a < finish) :
    ∃ piece ∈ pieces, piece.1 = a := by
  induction h with
  | last hlt hle =>
    cases hgrid with
    | inl heq => exact ⟨_, List.mem_singleton.mpr rfl, heq.symm⟩
    | inr hdvd =>
      rcases hstart.eq_or_lt with heq | hlt'
      · exact ⟨_, List.mem_singleton.mpr rfl, heq⟩
      · exact absurd hfinish (not_lt.mpr (hle.trans (next_le_of_dvd hlength hdvd hlt')))
  | step hlt hrest ih =>
    rcases hstart.eq_or_lt with heq | hlt'
    · exact ⟨_, List.mem_cons_self, heq⟩
    · have hdvd : length ∣ a := hgrid.resolve_left hlt'.ne'
      obtain ⟨piece, hpiece, heq⟩ := ih (.inr hdvd) (next_le_of_dvd hlength hdvd hlt') hfinish
      exact ⟨piece, List.mem_cons_of_mem _ hpiece, heq⟩

theorem length_eq (hlength : 0 < length) (h : Cut length start finish pieces) :
    (pieces.length : ℤ) = (finish - 1) / length + 1 - start / length := by
  induction h with
  | @last start finish hlt hle =>
    have hcell : (finish - 1) / length = start / length := by
      apply le_antisymm
      · rw [← Int.lt_add_one_iff, Int.ediv_lt_iff_lt_mul hlength]
        exact (Int.sub_one_lt_of_le le_rfl).trans_le hle
      · exact Int.ediv_le_ediv hlength (by omega)
    rw [hcell, List.length_singleton]
    push_cast
    ring
  | step hlt hrest ih =>
    rw [List.length_cons, Nat.cast_succ, ih, next_ediv hlength]
    ring

/-- A window has as many pieces as cells that it meets. -/
theorem length_eq_card (hlength : 0 < length) (h : Cut length start finish pieces) :
    pieces.length = ((Finset.Ico start finish).image (· / length)).card := by
  have hcells : start / length ≤ (finish - 1) / length :=
    Int.ediv_le_ediv hlength (by have := h.lt hlength; omega)
  have hcount := h.length_eq hlength
  rw [image_ediv hlength (h.lt hlength), Int.card_Icc]
  omega

/-- A window meets at most one cell more than it is long. -/
theorem length_le (hlength : 0 < length) (h : Cut length start finish pieces) :
    (pieces.length : ℤ) ≤ -(-(finish - start) / length) + 1 := by
  rw [h.length_eq hlength]
  have hceil : finish - start ≤ -(-(finish - start) / length) * length := by
    have hmul := Int.ediv_mul_le (-(finish - start)) hlength.ne'
    linarith
  generalize -(-(finish - start) / length) = quanta at hceil
  have hlast : (finish - 1) / length < start / length + 1 + quanta := by
    rw [Int.ediv_lt_iff_lt_mul hlength, add_mul]
    have hstart := Int.lt_ediv_add_one_mul_self start hlength
    linarith
  omega

end Cut

end CloudPlatform.Cells
