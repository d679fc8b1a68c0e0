import CloudPlatform.Core.Paging
import CloudPlatform.Leaseweb.ListReads
import Mathlib.Data.List.Forall2

/-!
# Which list reads are complete

A provider that serves a fixed list by offset, with a cap on the size of a page and a total count that
is true where it is there. Every reader gets the pages of `Paging.gather`, up to the first one that it
takes for the last. `list_reads_iff` says for each of them when that is the whole list.
-/

namespace CloudPlatform.Leaseweb

open Paging
open Transition

/-! ### Lists that are served by offset -/

/-- A list that the provider serves by offset: its rows, the cap on a page, the key of the list in the
answer, if it is no bare list, and the metadata of the page at an offset. -/
structure Listing (Row : Type) (keys : List String) where
  rows : List Row
  cap : ℕ
  key : Option String
  metadata : ℕ → Option JsonObject
  key_known : ∀ name ∈ key, name ∈ keys
  truthful : ∀ offset, ∀ fields ∈ metadata offset, fields.get "totalCount" = none ∨
    fields.get "totalCount" = some (.number rows.length)

namespace Listing

variable {Row : Type} {keys : List String} (listing : Listing Row keys)

/-- The size of a page, for a limit. -/
def size (limit : ℕ) : ℕ :=
  min listing.cap limit

/-- The page at an offset has the total count. -/
def counted (offset : ℕ) : Bool :=
  listing.key.isSome && (listing.metadata offset).any fun fields ↦ (fields.get "totalCount").isSome

/-- What the provider answers. -/
def answer (limit offset : ℕ) : Result (ListPayload Row) :=
  let items := (window (listing.size limit) offset listing.rows).map some
  match listing.key with
  | none => .ok (.bare items)
  | some name =>
    .ok (.keyed [(name, items)] ((listing.metadata offset).elim .absent .mapping))

/-- The pages go on to the end: every page but the last has the total count. -/
def Announced (limit : ℕ) : Prop :=
  listing.rows = [] ∨ 0 < listing.size limit ∧
    ∀ page, (page + 1) * listing.size limit < listing.rows.length →
      listing.counted (page * listing.size limit)

theorem answer_eq (limit offset : ℕ) : ∃ payload, listing.answer limit offset = .ok payload ∧
    payload.asList keys = (window (listing.size limit) offset listing.rows).map some ∧
    payload.metadata.walkTotal =
      .ok (if listing.counted offset then some (listing.rows.length : ℤ) else none) ∧
    payload.metadata.censusTotal =
      if listing.counted offset then some (listing.rows.length : ℤ) else none := by
  unfold answer counted
  cases hkey : listing.key with
  | none => exact ⟨_, rfl, rfl, rfl, rfl⟩
  | some name =>
    refine ⟨_, rfl, ?_, ?_⟩
    · have hknown := listing.key_known name hkey
      have hfound : ∀ others : List String, name ∈ others →
          others.findSome? (fun key ↦ [(name, (window (listing.size limit) offset
            listing.rows).map some)].lookup key) =
              some ((window (listing.size limit) offset listing.rows).map some) := by
        intro others hmem
        induction others with
        | nil => cases hmem
        | cons other others ih =>
          rw [List.findSome?_cons]
          by_cases hother : other = name
          · simp [hother]
          · have hrest := ih ((List.mem_cons.mp hmem).resolve_left (Ne.symm hother))
            have hnone : (other == name) = false := beq_false_of_ne hother
            simp only [List.lookup_cons, hnone, List.lookup_nil]
            exact hrest
      simp only [ListPayload.asList, hfound keys hknown, Option.getD_some]
    · cases hmetadata : listing.metadata offset with
      | none => exact ⟨rfl, rfl⟩
      | some fields =>
        rcases listing.truthful offset fields hmetadata with hnone | htotal
        · simp [ListPayload.metadata, Envelope.walkTotal, Envelope.censusTotal, hnone]
        · simp [ListPayload.metadata, Envelope.walkTotal, Envelope.censusTotal, htotal]

end Listing

/-! ### Rows and what is parsed from them -/

/-- Every row was parsed to one value, in order. -/
def EveryRow {Row α : Type} (parse : Row → Result (Option α)) (rows : List Row) (found : List α) :
    Prop :=
  List.Forall₂ (fun row value ↦ parse row = .ok (some value)) rows found

namespace EveryRow

variable {Row α : Type} {parse : Row → Result (Option α)} {rows : List Row} {found other : List α}

theorem exists_of_forall (h : ∀ row ∈ rows, ∃ value, parse row = .ok (some value)) :
    ∃ found, EveryRow parse rows found := by
  induction rows with
  | nil => exact ⟨[], .nil⟩
  | cons row rest ih =>
    obtain ⟨value, hvalue⟩ := h row List.mem_cons_self
    obtain ⟨found, hfound⟩ := ih fun other hother ↦ h other (List.mem_cons_of_mem row hother)
    exact ⟨value :: found, .cons hvalue hfound⟩

theorem unique (h : EveryRow parse rows found) (hother : EveryRow parse rows other) :
    found = other := by
  induction h generalizing other with
  | nil => cases hother; rfl
  | cons hvalue _ ih =>
    cases hother with
    | cons hother hrest =>
      have heq := Option.some.inj (Except.ok.inj (hvalue.symm.trans hother))
      rw [heq, ih hrest]

theorem window (h : EveryRow parse rows found) (size offset : ℕ) :
    EveryRow parse (window size offset rows) (window size offset found) :=
  List.forall₂_take size (List.forall₂_drop offset h)

theorem collect (h : EveryRow parse rows found) : collect parse (rows.map some) = .ok found := by
  have hmap : rows.mapM parse = .ok (found.map some) := by
    induction h with
    | nil => rfl
    | cons hvalue _ ih =>
      rw [List.mapM_cons, hvalue, ok_bind, ih]
      rfl
  have hrows : (rows.map some).filterMap id = rows := by simp
  have hfound : (found.map some).filterMap id = found := by simp
  rw [Leaseweb.collect, hrows, hmap, ok_bind, hfound]
  rfl

theorem filterMap {parse : Row → Option α} (h : EveryRow (fun row ↦ .ok (parse row)) rows found) :
    rows.filterMap parse = found := by
  induction h with
  | nil => rfl
  | cons hvalue _ ih =>
    rw [List.filterMap_cons_some (Except.ok.inj hvalue), ih]

end EveryRow

/-! ### Reads to the total count -/

section Walks

variable {Row α : Type} {keys : List String} {listing : Listing Row keys}
  {parse : Row → Result (Option α)} {found : List α}

theorem walkPage_answer (h : EveryRow parse listing.rows found) (round : ℕ) (walk : Walk α) :
    walkPage keys parse listing.answer round walk =
      let page := window (listing.size 100) walk.offset found
      let collected := walk.collected ++ page
      if listing.counted walk.offset = true ∧ collected.length < found.length ∧ page ≠ [] then
        .again ⟨collected, walk.offset + page.length⟩
      else .stop (.ok collected) := by
  obtain ⟨payload, hanswer, hlist, htotal, -⟩ := listing.answer_eq 100 walk.offset
  have hcollect := (h.window (listing.size 100) walk.offset).collect
  have hlength : (window (listing.size 100) walk.offset listing.rows).length =
      (window (listing.size 100) walk.offset found).length :=
    (h.window (listing.size 100) walk.offset).length_eq
  have hrows : listing.rows.length = found.length := h.length_eq
  unfold walkPage
  rw [hanswer, ok_bind, hlist, hcollect, ok_bind, htotal, ok_bind, List.length_map, hlength, hrows]
  cases listing.counted walk.offset with
  | false => simp [pure, Except.pure]
  | true =>
    simp only [pure, Except.pure, if_true, true_and]
    by_cases hstop : (found.length : ℤ) ≤
        (walk.collected ++ window (listing.size 100) walk.offset found).length ∨
          (window (listing.size 100) walk.offset found).length = 0
    · rw [if_pos hstop, if_neg]
      rintro ⟨hmore, hpage⟩
      rcases hstop with hall | hempty
      · exact absurd (Int.ofNat_le.mp hall) (not_le.mpr hmore)
      · exact hpage (List.length_eq_zero_iff.mp hempty)
    · rw [if_neg hstop, if_pos]
      rw [not_or, not_le, Int.ofNat_lt] at hstop
      exact ⟨hstop.1, fun hempty ↦ hstop.2 (List.length_eq_zero_iff.mpr hempty)⟩

/-- The walk gets the pages up to the first one without the total count. -/
theorem walk_eq_gather (h : EveryRow parse listing.rows found) :
    ∀ (pages round offset : ℕ), found.length - offset < pages →
      loop (walkPage keys parse listing.answer) pages round ⟨found.take offset, offset⟩ =
        some (.ok (found.take offset ++
          gather (listing.size 100) listing.counted found pages offset)) := by
  intro pages
  induction pages with
  | zero => intro round offset hpages; exact absurd hpages (Nat.not_lt_zero _)
  | succ pages ih =>
    intro round offset hpages
    rw [loop, walkPage_answer h, gather]
    dsimp only
    by_cases hempty : window (listing.size 100) offset found = []
    · rw [if_neg fun hcondition ↦ hcondition.2.2 hempty, hempty]
      rfl
    · have hpage : (window (listing.size 100) offset found).isEmpty = false :=
        List.isEmpty_eq_false_iff.mpr hempty
      have hleft := hempty
      rw [window_eq_nil_iff, not_or, not_le] at hleft
      have hlength : (found.take offset ++ window (listing.size 100) offset found).length =
          offset + (window (listing.size 100) offset found).length := by
        rw [List.length_append, List.length_take, min_eq_left hleft.2.le]
      rw [hpage, if_neg Bool.false_ne_true, hlength]
      cases hcounted : listing.counted offset with
      | false => simp
      | true =>
        by_cases hmore : offset + (window (listing.size 100) offset found).length < found.length
        · have hwindow : (window (listing.size 100) offset found).length = listing.size 100 := by
            rw [length_window] at hmore ⊢
            omega
          have hnext := ih (round + 1) (offset + listing.size 100) (by omega)
          rw [← take_append_window] at hnext
          rw [if_pos ⟨rfl, hmore, hempty⟩, if_pos rfl, hwindow]
          dsimp only
          rw [hnext, List.append_assoc]
        · have hend : gather (listing.size 100) listing.counted found pages
              (offset + (window (listing.size 100) offset found).length) = [] :=
            gather_of_length_le (not_lt.mp hmore) pages
          rw [if_neg fun hcondition ↦ hmore hcondition.2.1, if_pos rfl, hend, List.append_nil]

/-- A read that ends, with every row once and in order, or with an exception. -/
def ReadsAll (parse : Row → Result (Option α)) (rows : List Row)
    (read : ℕ → Option (Result (List α))) : Prop :=
  ∃ pages result, read pages = some result ∧ ∀ values, result = .ok values →
    EveryRow parse rows values

theorem gather_eq_all {size : ℕ} {announces : ℕ → Bool} {pages : ℕ} :
    gather size announces found pages 0 = found ↔ found.length ≤ pages * size ∧
      ∀ page, (page + 1) * size < found.length → announces (page * size) := by
  have hdrop : gather size announces found pages 0 = found.drop 0 ↔ _ := gather_eq_drop pages 0
  simpa using hdrop

theorem readsAll_iff (hrows : ∀ row ∈ listing.rows, ∃ value, parse row = .ok (some value)) :
    ReadsAll parse listing.rows (fun pages ↦ loop (walkPage keys parse listing.answer) pages 0 {}) ↔
      listing.Announced 100 := by
  obtain ⟨found, hfound⟩ := EveryRow.exists_of_forall hrows
  have hlength : listing.rows.length = found.length := hfound.length_eq
  have hrun : loop (walkPage keys parse listing.answer) (found.length + 1) 0 {} = some
      (.ok (gather (listing.size 100) listing.counted found (found.length + 1) 0)) :=
    walk_eq_gather hfound (found.length + 1) 0 0 (by omega)
  have hall : gather (listing.size 100) listing.counted found (found.length + 1) 0 = found ↔ _ :=
    gather_eq_all
  have hpages : found.length ≤ (found.length + 1) * listing.size 100 ↔
      listing.rows = [] ∨ 0 < listing.size 100 := by
    rw [← List.length_eq_zero_iff, hlength]
    constructor
    · intro h
      by_contra hneither
      rw [not_or, not_lt, Nat.le_zero] at hneither
      rw [hneither.2, Nat.mul_zero] at h
      omega
    · rintro (hzero | hpos)
      · omega
      · have := Nat.mul_le_mul_left (found.length + 1) hpos
        omega
  have hannounced : listing.Announced 100 ↔
      gather (listing.size 100) listing.counted found (found.length + 1) 0 = found := by
    rw [hall, hpages, Listing.Announced, hlength]
    constructor
    · rintro (hnil | ⟨hpos, hpages⟩)
      · refine ⟨.inl hnil, fun page hpage ↦ absurd hpage ?_⟩
        rw [← hlength, hnil]
        exact Nat.not_lt_zero _
      · exact ⟨.inr hpos, hpages⟩
    · rintro ⟨hnil | hpos, hpages⟩
      · exact .inl hnil
      · exact .inr ⟨hpos, hpages⟩
  rw [hannounced]
  constructor
  · rintro ⟨pages, result, hresult, hread⟩
    obtain rfl := loop_unique _ _ _ _ hrun hresult
    exact (hread _ rfl).unique hfound
  · intro hgather
    refine ⟨found.length + 1, _, hrun, ?_⟩
    rintro values hvalues
    obtain rfl := Except.ok.inj hvalues
    rw [hgather]
    exact hfound

end Walks

/-! ### The census -/

section Census

variable {listing : Listing InstanceRow instanceKeys} {found : List CloudInstance}

/-- One page of the census: it ends the read, or the read goes on behind it. -/
theorem readInstancePages_succ
    (h : EveryRow (fun row ↦ .ok (parseInstance row)) listing.rows found) (pages : ℕ)
    (read : CloudInstancesRead) (offset : ℕ) :
    readInstancePages listing.answer (pages + 1) read offset =
      let page := window (listing.size inventoryPageSize) offset found
      let totalCount := if listing.counted offset then some (found.length : ℤ) else read.totalCount
      let next : CloudInstancesRead :=
        { instances := read.instances ++ page, rawItems := read.rawItems + page.length,
          totalCount := totalCount, complete := false }
      if page = [] then .ok { read with totalCount := totalCount, complete := true }
      else if totalCount.elim (decide (page.length < inventoryPageSize)) (· ≤ next.rawItems) then
        .ok { next with complete := true }
      else readInstancePages listing.answer pages next (offset + page.length) := by
  obtain ⟨payload, hanswer, hlist, -, htotal⟩ := listing.answer_eq inventoryPageSize offset
  have hpage := h.window (listing.size inventoryPageSize) offset
  have hparsed := hpage.filterMap
  have hlength := hpage.length_eq
  have hrows : listing.rows.length = found.length := h.length_eq
  have hempty : (window (listing.size inventoryPageSize) offset listing.rows).isEmpty ↔
      window (listing.size inventoryPageSize) offset found = [] := by
    rw [List.isEmpty_iff_length_eq_zero, hlength, List.length_eq_zero_iff]
  have hitems : ((window (listing.size inventoryPageSize) offset listing.rows).map some).filterMap
      id = window (listing.size inventoryPageSize) offset listing.rows := by simp
  have hor : (if listing.counted offset then some (found.length : ℤ) else none).or read.totalCount =
      if listing.counted offset then some (found.length : ℤ) else read.totalCount := by
    cases listing.counted offset <;> rfl
  rw [readInstancePages, hanswer, ok_bind]
  dsimp only
  rw [hlist, hitems, htotal, hrows, hor, hparsed, hlength]
  by_cases hnil : window (listing.size inventoryPageSize) offset found = []
  · rw [if_pos (hempty.mpr hnil), if_pos hnil]
    rfl
  · rw [if_neg (mt hempty.mp hnil), if_neg hnil]
    cases (if listing.counted offset then some (found.length : ℤ) else read.totalCount) with
    | none => simp [pure, Except.pure]
    | some total => simp [pure, Except.pure]

/-- What the census keeps while it reads a list to the end. -/
structure Counting (listing : Listing InstanceRow instanceKeys) (found : List CloudInstance)
    (read : CloudInstancesRead) (offset : ℕ) : Prop where
  instances : read.instances = found.take offset
  rawItems : read.rawItems = offset
  total : read.totalCount = some (found.length : ℤ) ∨ read.totalCount = none ∧
    (listing.size inventoryPageSize = inventoryPageSize ∨ listing.counted offset = true ∨
      found.length ≤ offset + listing.size inventoryPageSize)

/-- The total count that is known after a page. -/
theorem Counting.known {read : CloudInstancesRead} {offset : ℕ}
    (hcounting : Counting listing found read offset) :
    (if listing.counted offset then some (found.length : ℤ) else read.totalCount) =
        some (found.length : ℤ) ∨
      (if listing.counted offset then some (found.length : ℤ) else read.totalCount) = none ∧
        (listing.size inventoryPageSize = inventoryPageSize ∨
          found.length ≤ offset + listing.size inventoryPageSize) := by
  cases hcounted : listing.counted offset with
  | true => exact .inl rfl
  | false =>
    rcases hcounting.total with htotal | ⟨htotal, hfull | hmarked | hlast⟩
    · exact .inl htotal
    · exact .inr ⟨htotal, .inl hfull⟩
    · rw [hcounted] at hmarked
      cases hmarked
    · exact .inr ⟨htotal, .inr hlast⟩

theorem complete_of_counting (h : EveryRow (fun row ↦ .ok (parseInstance row)) listing.rows found)
    (hsize : 0 < listing.size inventoryPageSize ∨ found = []) :
    ∀ (pages : ℕ) (read result : CloudInstancesRead) (offset : ℕ),
      Counting listing found read offset → read.complete = false →
        readInstancePages listing.answer pages read offset = .ok result → result.complete = true →
          result.instances = found := by
  intro pages
  induction pages with
  | zero =>
    intro read result offset _ hopen hresult hcomplete
    cases hresult
    rw [hopen] at hcomplete
    cases hcomplete
  | succ pages ih =>
    intro read result offset hcounting hopen hresult hcomplete
    rw [readInstancePages_succ h] at hresult
    dsimp only at hresult
    have hlength := length_window (listing.size inventoryPageSize) offset found
    have hlimit : listing.size inventoryPageSize ≤ inventoryPageSize := min_le_right _ _
    have hinstances : read.instances ++ window (listing.size inventoryPageSize) offset found =
        found.take (offset + listing.size inventoryPageSize) := by
      rw [hcounting.instances, take_append_window]
    have hnext : read.instances ++ window (listing.size inventoryPageSize) offset found =
        found.take (offset + (window (listing.size inventoryPageSize) offset found).length) := by
      rw [hcounting.instances, take_append_page]
    by_cases hnil : window (listing.size inventoryPageSize) offset found = []
    · rw [if_pos hnil] at hresult
      obtain rfl := Except.ok.inj hresult
      refine hcounting.instances.trans (List.take_of_length_le ?_)
      rcases window_eq_nil_iff.mp hnil with hzero | hend
      · rw [hsize.resolve_left (by omega)]
        exact Nat.zero_le _
      · exact hend
    · rw [if_neg hnil] at hresult
      rw [window_eq_nil_iff, not_or, not_le] at hnil
      rcases hcounting.known with hknown | ⟨hknown, hrest⟩
      · rw [hknown, Option.elim_some, hcounting.rawItems] at hresult
        split_ifs at hresult with hstop
        · obtain rfl := Except.ok.inj hresult
          refine hinstances.trans (List.take_of_length_le ?_)
          rw [decide_eq_true_eq, Int.ofNat_le] at hstop
          omega
        · exact ih _ result _ ⟨hnext, rfl, .inl rfl⟩ rfl hresult hcomplete
      · rw [hknown, Option.elim_none, hcounting.rawItems] at hresult
        split_ifs at hresult with hstop
        · obtain rfl := Except.ok.inj hresult
          refine hinstances.trans (List.take_of_length_le ?_)
          rw [decide_eq_true_eq] at hstop
          omega
        · rw [decide_eq_true_eq, not_lt] at hstop
          exact ih _ result _ ⟨hnext, rfl, .inr ⟨rfl, .inl (by omega)⟩⟩ rfl hresult hcomplete

/-- The list is on the first page, or its pages are full, or the first one has the total count. -/
def Listing.Counts (listing : Listing InstanceRow instanceKeys) : Prop :=
  listing.rows.length ≤ listing.size inventoryPageSize ∨ 0 < listing.size inventoryPageSize ∧
    (inventoryPageSize ≤ listing.cap ∨ listing.counted 0)

theorem census_iff (hrows : ∀ row ∈ listing.rows, ∃ value, parseInstance row = some value) :
    (∀ read, readAllInstances listing.answer = .ok read → read.complete = true →
        EveryRow (fun row ↦ .ok (parseInstance row)) listing.rows read.instances) ↔
      listing.Counts := by
  obtain ⟨found, hfound⟩ : ∃ found, EveryRow (fun row ↦ .ok (parseInstance row)) listing.rows found := by
    refine EveryRow.exists_of_forall fun row hrow ↦ ?_
    obtain ⟨value, hvalue⟩ := hrows row hrow
    exact ⟨value, congrArg _ hvalue⟩
  have hlength : listing.rows.length = found.length := hfound.length_eq
  have hlimit : listing.size inventoryPageSize = min listing.cap inventoryPageSize := rfl
  rw [Listing.Counts, hlength]
  constructor
  · intro hread
    by_contra hcounts
    rw [not_or, not_le, not_and_or, not_lt, Nat.le_zero] at hcounts
    obtain ⟨hmore, hshort⟩ := hcounts
    have hpartial : window (listing.size inventoryPageSize) 0 found ≠ found :=
      window_ne_drop (by omega)
    have hfirst : ∃ read, readAllInstances listing.answer = .ok read ∧ read.complete = true ∧
        read.instances = window (listing.size inventoryPageSize) 0 found := by
      have hpages := readInstancePages_succ hfound 49 { complete := false } 0
      dsimp only at hpages
      by_cases hnil : window (listing.size inventoryPageSize) 0 found = []
      · rw [if_pos hnil] at hpages
        exact ⟨_, hpages, rfl, hnil.symm⟩
      · have hsize : ¬ (listing.size inventoryPageSize = 0 ∨ found.length ≤ 0) :=
          mt window_eq_nil_iff.mpr hnil
        obtain ⟨hcap, huncounted⟩ := not_or.mp (hshort.resolve_left (by omega))
        have hpage := length_window (listing.size inventoryPageSize) 0 found
        rw [if_neg hnil, if_neg huncounted, Option.elim_none, if_pos (by simp; omega)] at hpages
        exact ⟨_, hpages, rfl, List.nil_append _⟩
    obtain ⟨read, hresult, hcomplete, hinstances⟩ := hfirst
    have hall := (hread read hresult hcomplete).unique hfound
    exact hpartial (hinstances.symm.trans hall)
  · intro hcounts read hresult hcomplete
    have hinstances : read.instances = found := by
      refine complete_of_counting hfound ?_ inventoryMaxPages { complete := false } read 0
        ⟨rfl, rfl, .inr ⟨rfl, ?_⟩⟩ rfl hresult hcomplete
      · rcases hcounts with hall | ⟨hpos, -⟩
        · rcases Nat.eq_zero_or_pos (listing.size inventoryPageSize) with hzero | hpos
          · exact .inr (List.length_eq_zero_iff.mp (by omega))
          · exact .inl hpos
        · exact .inl hpos
      · rcases hcounts with hall | ⟨-, hfull | hmarked⟩
        · exact .inr (.inr (by omega))
        · exact .inl (by omega)
        · exact .inr (.inl hmarked)
    rw [hinstances]
    exact hfound

end Census

/-! ### One region -/

/-- One of the rows is an instance with the reference. -/
def Listed (reference : String) (rows : List InstanceRow) : Prop :=
  ∃ row ∈ rows, ∃ value, parseInstance row = some value ∧ value.reference = reference

theorem findByReference_iff (listing : Listing InstanceRow instanceKeys) (reference : String) :
    (∃ value, findByReference listing.answer reference = .ok (some value) ∧
      value.reference = reference) ↔ Listed reference (listing.rows.take (listing.size 100)) := by
  obtain ⟨payload, hanswer, hlist, -, -⟩ := listing.answer_eq 100 0
  have hitems : ((window (listing.size 100) 0 listing.rows).map some).filterMap id =
      listing.rows.take (listing.size 100) := by simp [window]
  have hread : listInstances listing.answer =
      .ok ((listing.rows.take (listing.size 100)).filterMap parseInstance) := by
    rw [listInstances, hanswer, ok_bind, hlist, hitems]
    rfl
  rw [findByReference, hread]
  dsimp only
  constructor
  · rintro ⟨value, hvalue, hreference⟩
    have hmem := List.mem_of_find?_eq_some (Except.ok.inj hvalue)
    obtain ⟨row, hrow, hparsed⟩ := List.mem_filterMap.mp hmem
    exact ⟨row, hrow, value, hparsed, hreference⟩
  · rintro ⟨row, hrow, value, hparsed, hreference⟩
    have hmem : value ∈ (listing.rows.take (listing.size 100)).filterMap parseInstance :=
      List.mem_filterMap.mpr ⟨row, hrow, hparsed⟩
    cases hfind : ((listing.rows.take (listing.size 100)).filterMap parseInstance).find?
        (·.reference = reference) with
    | none => exact absurd (decide_eq_true hreference) (List.find?_eq_none.mp hfind value hmem)
    | some other => exact ⟨other, rfl, by simpa using List.find?_some hfind⟩

/-! ### Typed pages -/

/-- A typed list that is served by offset, with the metadata of the page at an offset; a total count
that is absent is read as zero. -/
structure TypedListing (α : Type) where
  rows : List α
  cap : ℕ
  metadata : ℕ → Option PaginationMetadata
  truthful : ∀ offset, ∀ reported ∈ metadata offset,
    reported.totalCount = 0 ∨ reported.totalCount = rows.length

namespace TypedListing

variable {α : Type} (listing : TypedListing α)

/-- The page that the provider answers with. -/
def fetch (pageSize offset : ℕ) : Result (LeasewebPage α) :=
  .ok { items := window (min listing.cap pageSize) offset listing.rows
        metadata := listing.metadata offset }

/-- The pages are enough, and the metadata of every page but the last puts its end, by the limit that it
reports or else by its rows, below the total count. -/
def Announced (pageSize maxPages : ℕ) : Prop :=
  listing.rows.length ≤ maxPages * min listing.cap pageSize ∧
    ∀ page, (page + 1) * min listing.cap pageSize < listing.rows.length →
      ∃ reported ∈ listing.metadata (page * min listing.cap pageSize),
        reported.offset + (if reported.limit = 0 then ((min listing.cap pageSize : ℕ) : ℤ)
          else reported.limit) < reported.totalCount

theorem paginate_fetch (pageSize : ℕ) : ∀ (maxPages offset : ℕ),
    paginate listing.fetch pageSize maxPages offset =
      .ok (gather (min listing.cap pageSize) (fun offset ↦ LeasewebPage.hasMore
        { items := window (min listing.cap pageSize) offset listing.rows,
          metadata := listing.metadata offset }) listing.rows maxPages offset) := by
  intro maxPages
  induction maxPages with
  | zero => intro offset; rfl
  | succ maxPages ih =>
    intro offset
    rw [paginate, fetch, ok_bind, gather, ih]
    dsimp only
    split_ifs <;> rfl

theorem collectPages_iff (pageSize maxPages : ℕ) :
    (∀ found, collectPages listing.fetch pageSize 0 maxPages = .ok found → found = listing.rows) ↔
      listing.Announced pageSize maxPages := by
  have hcollected : (∀ found, collectPages listing.fetch pageSize 0 maxPages = .ok found →
      found = listing.rows) ↔ gather (min listing.cap pageSize) (fun offset ↦ LeasewebPage.hasMore
        { items := window (min listing.cap pageSize) offset listing.rows,
          metadata := listing.metadata offset }) listing.rows maxPages 0 = listing.rows := by
    rw [collectPages, paginate_fetch]
    constructor
    · intro h
      exact h _ rfl
    · rintro h found hfound
      exact (Except.ok.inj hfound).symm.trans h
  rw [hcollected, gather_eq_all, Announced]
  refine and_congr_right fun _ ↦ forall_congr' fun page ↦ imp_congr_right fun hpage ↦ ?_
  have hlength : (window (min listing.cap pageSize) (page * min listing.cap pageSize)
      listing.rows).length = min listing.cap pageSize := by
    rw [length_window]
    rw [Nat.add_mul, Nat.one_mul] at hpage
    omega
  unfold LeasewebPage.hasMore PaginationMetadata.hasMore
  dsimp only
  rw [hlength]
  cases listing.metadata (page * min listing.cap pageSize) with
  | none => simp
  | some reported => simp

end TypedListing

/-! ### The readers -/

/-- When each reader has the whole of a list that the provider serves: the reads to the total count, when
every page but the last has it; the census, when its pages are full or the first has it; the typed
iterator, when every page but the last announces the next and the pages are enough; the lookup of a
reference, when the reference is on the first page. -/
theorem list_reads_iff {α : Type} (intOf : String → Result ℤ) (location : String)
    (products : Listing ProductPayload productKeys)
    (servers : Listing VpsRow serverKeys)
    (instances region : Listing InstanceRow instanceKeys) (typed : TypedListing α)
    (pageSize maxPages : ℕ)
    (hproducts : ∀ row ∈ products.rows, ∃ product,
      parseListed intOf location row = .ok (some product))
    (hinstances : ∀ row ∈ instances.rows, ∃ value, parseInstance row = some value) :
    (ReadsAll (parseListed intOf location) products.rows
        (listProducts intOf location products.answer) ↔ products.Announced 100) ∧
      (ReadsAll (fun row ↦ .ok (some (mapVps row))) servers.rows (listServers servers.answer) ↔
        servers.Announced 100) ∧
      ((∀ read, readAllInstances instances.answer = .ok read → read.complete = true →
          EveryRow (fun row ↦ .ok (parseInstance row)) instances.rows read.instances) ↔
        instances.Counts) ∧
      ((∀ found, collectPages typed.fetch pageSize 0 maxPages = .ok found → found = typed.rows) ↔
        typed.Announced pageSize maxPages) ∧
      ∀ reference,
        (Listed reference region.rows →
          ∃ value, findByReference region.answer reference = .ok (some value) ∧
            value.reference = reference) ↔
        (Listed reference region.rows →
          Listed reference (region.rows.take (region.size 100))) := by
  refine ⟨readsAll_iff hproducts, readsAll_iff fun row _ ↦ ⟨mapVps row, rfl⟩,
    census_iff hinstances, typed.collectPages_iff pageSize maxPages, fun reference ↦ ?_⟩
  rw [findByReference_iff region reference]

/-! ### Two rows on pages of one -/

/-- A list with the given rows on pages of one row, without a total count. -/
def singlePages {Row : Type} {keys : List String} (key : String) (h : key ∈ keys)
    (rows : List Row) : Listing Row keys where
  rows := rows
  cap := 1
  key := some key
  metadata := fun _ ↦ none
  key_known := by
    intro name hname
    cases hname
    exact h
  truthful := by
    intro offset fields hfields
    cases hfields

def vpsRows : List VpsRow :=
  [{ fields := [("id", .text "4711")] }, { fields := [("id", .text "4712")] }]

def instanceRows : List InstanceRow :=
  [{ fields := [("id", .text "i-1"), ("reference", .text "first")] },
    { fields := [("id", .text "i-2"), ("reference", .text "second")] }]

def productRows : List ProductPayload :=
  [{ fields := [("id", .text "VPS_1")] }, { fields := [("id", .text "VPS_2")] }]

def typedRows : TypedListing ℕ where
  rows := [1, 2]
  cap := 1
  metadata := fun _ ↦ none
  truthful := by
    intro offset reported hreported
    cases hreported

theorem list_reads_single_pages :
    (∀ found, collectPages typedRows.fetch 100 0 50 = .ok found → found = typedRows.rows) ↔
      typedRows.Announced 100 50 :=
  (list_reads_iff (fun _ ↦ .ok 0) "AMS-01" (singlePages "vpss" (by decide) productRows)
    (singlePages "vps" (by decide) vpsRows) (singlePages "instances" (by decide) instanceRows)
    (singlePages "instances" (by decide) instanceRows) typedRows 100 50
    (by
      intro row hrow
      rcases List.mem_pair.mp hrow with rfl | rfl
      · exact ⟨_, rfl⟩
      · exact ⟨_, rfl⟩)
    (by
      intro row hrow
      rcases List.mem_pair.mp hrow with rfl | rfl
      · exact ⟨_, rfl⟩
      · exact ⟨_, rfl⟩)).2.2.2.1

/-- Of two rows on pages of one, without a total count, the readers return the first; the census calls
that complete, and the second reference is not found. -/
theorem first_rows_only :
    listProducts (fun _ ↦ .ok 0) "AMS-01"
        (singlePages "vpss" (by decide) productRows : Listing _ productKeys).answer 2 =
      some ((parseListed (fun _ ↦ .ok 0) "AMS-01" productRows[0]).map Option.toList) ∧
    listServers (singlePages "vps" (by decide) vpsRows : Listing _ serverKeys).answer 2 =
      some (.ok [mapVps vpsRows[0]]) ∧
    (readAllInstances
        (singlePages "instances" (by decide) instanceRows : Listing _ instanceKeys).answer).map
        (fun read ↦ (read.complete, read.instances.map (·.reference))) = .ok (true, ["first"]) ∧
    collectPages typedRows.fetch 100 0 50 = .ok [1] ∧
    (Listed "second" instanceRows ∧ findByReference
      (singlePages "instances" (by decide) instanceRows : Listing _ instanceKeys).answer "second" =
        .ok none) := by
  refine ⟨?_, ?_, ?_, ?_, ⟨_, List.mem_cons_of_mem _ List.mem_cons_self, _, rfl, ?_⟩, ?_⟩ <;>
    decide +kernel

end CloudPlatform.Leaseweb
