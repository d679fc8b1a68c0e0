import CloudPlatform.Offers.Catalog
import Mathlib.Data.List.Dedup

/-!
# What an upsert does to the catalog

An upsert changes the row of its own reference alone, and what it makes of that row depends on
nothing else in the table. An observation of a credential account re-pins a row that a credential
account already owns; the row then belongs to the account of the observation, casefolded.
-/

namespace CloudPlatform.Offers

variable {offers : OfferTable} {update : OfferSpecUpdate} {key : OfferKey} {row : OfferRow}
  {account : String} {accountId : Option String}

@[simp] theorem storedAccount_strip (account : String) :
    storedAccount (strip account) = storedAccount account := by
  rw [storedAccount, strip_strip, storedAccount]

theorem storedAccount_ne_empty (h : strip account ≠ "") : storedAccount account ≠ "" := by
  intro hempty
  have hchars := congrArg String.toList hempty
  rw [storedAccount, casefold, String.toList_ofList] at hchars
  exact h (String.toList_eq_nil_iff.mp (List.map_eq_nil_iff.mp hchars))

@[simp] theorem key_refresh : (row.refresh update accountId).key = row.key :=
  rfl

@[simp] theorem key_newRow : (update.newRow key accountId).key = key :=
  rfl

variable {candidates : List OfferRow}

/-- The target of an upsert is a row of its reference. -/
theorem mem_of_targetRow {target : Option OfferRow}
    (h : targetRow candidates accountId = .ok target) : ∀ row ∈ target, row ∈ candidates := by
  intro row hrow
  cases accountId with
  | none =>
    simp only [targetRow, unscopedTarget, rejectIf_bind_eq_ok, pure_eq_ok] at h
    rw [← h.2.2] at hrow
    exact List.mem_of_mem_head? hrow
  | some account =>
    simp only [targetRow, scopedTarget, rejectIf_bind_eq_ok] at h
    have hchosen := h.2.2
    unfold accountTarget at hchosen
    split at hchosen
    · rename_i found rest _ hmatching
      obtain rfl := Option.some.inj ((Except.ok.inj hchosen).trans hrow)
      exact List.mem_of_mem_filter (hmatching ▸ List.mem_cons_self)
    · obtain rfl := Option.some.inj ((Except.ok.inj hchosen).trans hrow)
      exact List.mem_cons_self
    · cases (Except.ok.inj hchosen).trans hrow
    · exact absurd hchosen raise_ne_ok

/-- An upsert writes at its own reference. -/
theorem key_of_observedRow {providerAccountId : Option String}
    (hcandidates : ∀ row ∈ candidates, row.key = key)
    (h : observedRow candidates key update providerAccountId = .ok row) : row.key = key := by
  rw [observedRow, rejectIf_bind_eq_ok] at h
  obtain ⟨accountId, -, hrest⟩ := bind_eq_ok.mp h.2
  obtain ⟨target, htarget, hrow⟩ := bind_eq_ok.mp hrest
  obtain rfl := pure_eq_ok.mp hrow
  cases target with
  | none => rfl
  | some found => exact hcandidates found (mem_of_targetRow htarget found rfl)

/-- What an upsert leaves at its reference. -/
def landed (before : Option OfferRow) (key : OfferKey) (update : OfferSpecUpdate)
    (providerAccountId : Option String) : Option OfferRow :=
  match observedRow before.toList key update providerAccountId with
  | .ok row => some row
  | .error _ => before

variable (offers : OfferTable)

/-- What the catalog reads at a reference after an upsert. -/
theorem get_upsertFromProvider (providerKey productId locationId : String)
    (update : OfferSpecUpdate) (providerAccountId : Option String) (k : OfferKey) :
    (upsertFromProvider offers providerKey productId locationId update providerAccountId).2.get k =
      if update.key providerKey productId locationId = k then
        landed (offers.get k) k update providerAccountId else offers.get k := by
  unfold upsertFromProvider
  dsimp only
  rw [Rows.Table.filter_eq]
  generalize update.key providerKey productId locationId = key
  have hkeys : ∀ row ∈ (offers.get key).toList, row.key = key := fun row hrow ↦
    Rows.Table.key_of_get (Option.mem_toList.mp hrow)
  by_cases hk : key = k
  · subst hk
    rw [if_pos rfl, landed]
    cases hrow : observedRow (offers.get key).toList key update providerAccountId with
    | error raised => rfl
    | ok row =>
      have hkey := key_of_observedRow hkeys hrow
      change (offers.put row).get key = some row
      rw [Rows.Table.get_put, if_pos hkey]
  · rw [if_neg hk]
    cases hrow : observedRow (offers.get key).toList key update providerAccountId with
    | error raised => rfl
    | ok row =>
      have hkey := key_of_observedRow hkeys hrow
      exact Rows.Table.get_put_of_ne offers (by rw [hkey]; exact hk)

/-- What an upsert answers depends on the row of its reference alone. -/
theorem fst_upsertFromProvider (providerKey productId locationId : String)
    (update : OfferSpecUpdate) (providerAccountId : Option String) :
    (upsertFromProvider offers providerKey productId locationId update providerAccountId).1 =
      (observedRow (offers.get (update.key providerKey productId locationId)).toList
        (update.key providerKey productId locationId) update providerAccountId >>=
          OfferRow.toDomain) := by
  unfold upsertFromProvider
  dsimp only
  rw [Rows.Table.filter_eq]
  cases observedRow (offers.get (update.key providerKey productId locationId)).toList
    (update.key providerKey productId locationId) update providerAccountId <;> rfl

/-! ### Observations of a credential account -/

/-- Account arguments that agree. -/
theorem suppliedAccount_agreeing (h : strip account ≠ "") :
    suppliedAccount (some account) (some (strip account)) = .ok (some (storedAccount account)) := by
  have hnonempty : ([account, strip account].any fun text ↦ strip text = "") = false := by
    simp [h]
  have hagree : decide (2 ≤ ([account, strip account].map storedAccount).dedup.length) = false := by
    rw [List.map_cons, List.map_cons, storedAccount_strip, List.dedup_cons_of_mem (by simp)]
    rfl
  rw [suppliedAccount]
  exact (rejectIf_bind hnonempty _).trans (rejectIf_bind hagree _)

/-- An observation of an account re-pins the row of its reference that an account owns. -/
theorem landed_owned (hcurrency : upper (strip update.providerCostCurrency) ≠ "")
    (haccount : update.providerAccountId = some (strip account)) (hne : strip account ≠ "")
    (howned : row.providerAccountId.isSome = true) : landed (some row) key update (some account) =
      some (row.refresh update (some (storedAccount account))) := by
  have htarget : scopedTarget [row] (storedAccount account) = .ok (some row) := by
    have hscoped : ([row].any (·.providerAccountId.isNone)) = false := by
      simp [howned]
    rw [scopedTarget, rejectIf_bind hscoped]
    by_cases hmatch : storedAccount row.account = storedAccount account
    · rw [List.filter_cons_of_pos (by simpa using hmatch)]
      rfl
    · rw [List.filter_cons_of_neg (by simpa using hmatch)]
      rfl
  have hrow : observedRow [row] key update (some account) =
      .ok (row.refresh update (some (storedAccount account))) := by
    rw [observedRow, rejectIf_bind (decide_eq_false hcurrency), haccount,
      suppliedAccount_agreeing hne, ok_bind]
    change (scopedTarget [row] (storedAccount account) >>= _) = _
    rw [htarget]
    rfl
  rw [landed, Option.toList_some, hrow]

theorem account_refresh (h : strip account ≠ "") :
    (row.refresh update (some (storedAccount account))).account = storedAccount account := by
  have htruthy : truthy (some (storedAccount account)) = true := by
    simpa using storedAccount_ne_empty h
  rw [OfferRow.account, OfferRow.refresh, if_pos htruthy]
  rfl

/-- A conclusive observation of an account that the catalog takes is stored under the account,
casefolded. -/
theorem exists_of_observedRow_eq_ok (h : observedRow candidates key update (some account) = .ok row)
    (haccount : update.providerAccountId = some (strip account)) (hne : strip account ≠ "")
    (hconclusive : update.providerObservationInconclusive = false) :
    row.providerAccountId = some (storedAccount account) ∧
      row.providerAvailable = update.providerAvailable := by
  rw [observedRow, rejectIf_bind_eq_ok, haccount, suppliedAccount_agreeing hne, ok_bind] at h
  obtain ⟨target, -, hrow⟩ := bind_eq_ok.mp h.2
  obtain rfl := pure_eq_ok.mp hrow
  have htruthy : truthy (some (storedAccount account)) = true := by
    simpa using storedAccount_ne_empty hne
  generalize storedAccount account = stored at htruthy
  cases target with
  | none =>
    refine ⟨rfl, ?_⟩
    change (!update.providerObservationInconclusive && update.providerAvailable) = _
    rw [hconclusive]
    rfl
  | some found =>
    refine ⟨if_pos htruthy, ?_⟩
    change (if update.providerObservationInconclusive then found.providerAvailable
      else update.providerAvailable) = _
    rw [hconclusive]
    rfl

/-! ### Lookups -/

/-- What `get_by_ref` returns: the row of the reference, if it is of the account. -/
theorem getByRef_eq (providerKey productId locationId : String) (accountId : Option String)
    (billingModel : String) :
    getByRef offers providerKey productId locationId accountId billingModel =
      match (offers.get ⟨providerKey, productId, locationId, billingModel⟩).filter
        (·.providerAccountId = accountId) with
      | none => .ok none
      | some row => row.toDomain.map some := by
  have hrows : (offers.rows.filter fun row ↦
      row.key = ⟨providerKey, productId, locationId, billingModel⟩ ∧
        row.providerAccountId = accountId) =
      ((offers.get ⟨providerKey, productId, locationId, billingModel⟩).filter
        (·.providerAccountId = accountId)).toList := by
    rw [Option.toList_filter, ← Rows.Table.filter_eq, List.filter_filter]
    refine List.filter_congr fun row _ ↦ ?_
    rw [Bool.decide_and, Bool.and_comm]
  unfold getByRef
  rw [hrows]
  cases (offers.get ⟨providerKey, productId, locationId, billingModel⟩).filter
    (·.providerAccountId = accountId) with
  | none => rfl
  | some row =>
    rw [rejectIf_bind (by simp)]
    dsimp only [Option.toList_some, List.head?_cons]
    cases row.toDomain <;> rfl

end CloudPlatform.Offers
