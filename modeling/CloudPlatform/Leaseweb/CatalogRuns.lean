import CloudPlatform.Leaseweb.SyncRuns
import CloudPlatform.Offers.Upserts

/-!
# What a sync leaves in the catalog

The row of a pair after a run: what the one upsert of the pair makes of the row before, when the run
calls it and the store takes it, and otherwise the row before; a retirement pass at the end changes
availability alone.
-/

namespace CloudPlatform.Leaseweb

open Offers
open Rows (Table)

/-- The reference of a pair's hourly offer. -/
def hourlyKey (pair : Pair) : OfferKey :=
  ⟨providerKey, pair.1, pair.2, billingModelHourly⟩

/-! ### Observations that fit -/

/-- What is known of the update of an item. -/
structure SpecOf (item : CloudInstanceType) (publishable : Bool) (accountId : String)
    (update : OfferSpecUpdate) : Prop where
  billingModel : update.billingModel = some billingModelHourly
  available : update.providerAvailable = publishable
  account : update.providerAccountId = some (strip accountId)
  account_ne : strip accountId ≠ ""
  conclusive : update.providerObservationInconclusive = false
  name : update.name = item.name
  cost : update.providerCostMinor = item.hourlyCostMinor
  cost_fits : 0 ≤ item.hourlyCostMinor ∧ item.hourlyCostMinor ≤ maxBigint
  currency : update.providerCostCurrency = upper (strip item.currency)
  audited : upper (strip item.currency) ∈ auditedCurrencies

theorem specOf_of_eq_ok {item : CloudInstanceType} {regionId accountId : String}
    {publishable : Bool} {update : OfferSpecUpdate}
    (h : offerSpecFromItem item regionId publishable accountId = .ok update) :
    SpecOf item publishable accountId update := by
  simp only [offerSpecFromItem, OfferSpecUpdate.construct, checkInteger, rejectIf_bind_eq_ok,
    pure_eq_ok] at h
  obtain ⟨-, -, -, hcost, -, haccount, hcurrency, rfl⟩ := h
  have hcosts : 0 ≤ item.hourlyCostMinor ∧ item.hourlyCostMinor ≤ maxBigint := by
    simpa using hcost
  exact ⟨rfl, rfl, rfl, by simpa using haccount, rfl, rfl, rfl, hcosts, rfl,
    by simpa using hcurrency⟩

theorem SpecOf.key_eq {item : CloudInstanceType} {publishable : Bool} {accountId : String}
    {update : OfferSpecUpdate} (h : SpecOf item publishable accountId update) (pair : Pair) :
    update.key providerKey pair.1 pair.2 = hourlyKey pair := by
  have htruthy : truthy (some billingModelHourly) = true := by decide
  rw [OfferSpecUpdate.key, h.billingModel, if_pos htruthy]
  rfl

/-- The normal form of an audited currency is not empty. -/
theorem auditedCurrencies_ne {currency : String} (h : currency ∈ auditedCurrencies) :
    upper (strip currency) ≠ "" := by
  revert currency
  decide +kernel

/-! ### The row of a pair -/

/-- A write whose item is of its pair, with an hourly update. -/
structure HourlyWrite.WellFormed (write : HourlyWrite) : Prop where
  item : write.choice.item.id = write.pair.1
  spec : SpecOf write.choice.item write.choice.published write.choice.accountId write.update

/-- What the upsert of a write leaves at the reference of its pair. -/
def HourlyWrite.lands (write : HourlyWrite) (fault : Option Raised) (before : Option OfferRow) :
    Option OfferRow :=
  if fault.isSome then before
  else landed before (hourlyKey write.pair) write.update (some write.choice.accountId)

theorem hourlyKey_injective : Function.Injective hourlyKey := by
  intro first second h
  injection h with _ hproduct hlocation
  exact Prod.ext hproduct hlocation

theorem get_upsert {write : HourlyWrite} (hwrite : write.WellFormed) (fault : Option Raised)
    (offers : OfferTable) (key : OfferKey) : (write.upsert fault offers).2.get key =
      if hourlyKey write.pair = key then write.lands fault (offers.get key)
      else offers.get key := by
  cases fault with
  | some raised => exact (ite_self _).symm
  | none =>
    change Table.get (upsertFromProvider offers providerKey write.choice.item.id write.pair.2
      write.update (some write.choice.accountId)).2 key = _
    rw [get_upsertFromProvider, hwrite.item, hwrite.spec.key_eq]
    by_cases hkey : hourlyKey write.pair = key
    · subst hkey
      rw [if_pos rfl, if_pos rfl, HourlyWrite.lands]
      exact (if_neg Bool.false_ne_true).symm
    · rw [if_neg hkey, if_neg hkey]

/-- The row of a pair after writes of distinct pairs. -/
theorem get_foldl_record (stores : SyncStores) {writes : List HourlyWrite}
    (hwrites : ∀ write ∈ writes, write.WellFormed) (hnodup : (writes.map (·.pair)).Nodup)
    (pair : Pair) (run : HourlyRun) :
    (writes.foldl (HourlyRun.record stores) run).offers.get (hourlyKey pair) =
      (writes.find? (·.pair = pair)).elim (run.offers.get (hourlyKey pair)) fun write ↦
        write.lands (stores.upsertFault write.pair) (run.offers.get (hourlyKey pair)) := by
  have hoffers : (writes.foldl (HourlyRun.record stores) run).offers =
      writes.foldl (fun offers write ↦ (write.upsert (stores.upsertFault write.pair) offers).2)
        run.offers :=
    (List.foldl_hom HourlyRun.offers fun _ _ ↦ offers_record.symm).symm
  have hkeys : (writes.map fun write ↦ hourlyKey write.pair).Nodup := by
    have hmap := hnodup.map hourlyKey_injective
    rwa [List.map_map] at hmap
  have hget := Table.get_foldl hkeys (fun write hwrite offers key ↦
    get_upsert (hwrites write hwrite) (stores.upsertFault write.pair) offers key) (hourlyKey pair)
      run.offers
  have hfind : writes.find? (fun write ↦ hourlyKey write.pair = hourlyKey pair) =
      writes.find? (·.pair = pair) :=
    congrArg (List.find? · writes)
      (funext fun write ↦ decide_eq_decide.mpr hourlyKey_injective.eq_iff)
  rw [hfind] at hget
  rw [hoffers]
  exact hget

/-! ### The catalog after a run -/

section Outcomes

variable {syncer : LeasewebHourlyCloudSyncer} {stores : SyncStores} {offers : OfferTable}
  {pair : Pair} {write : HourlyWrite}

/-- The item of a planned write is of the type of its pair. -/
theorem item_of_plan (h : syncer.plan stores offers pair = some write) :
    write.choice.item.id = pair.1 := by
  obtain ⟨entry, hentry⟩ := selectHourlyOwner_cases (plannedWrite_eq_some.mp h).2.1
  obtain ⟨observation, -, hpair, hobservation⟩ := mem_rankedOf.mp hentry.mem
  rw [hentry.entry_eq.2.2, ← hobservation, ← hpair]
  rfl

theorem wellFormed_of_plan (h : syncer.plan stores offers pair = some write) :
    write.WellFormed := by
  refine ⟨?_, specOf_of_eq_ok (plannedWrite_eq_some.mp h).2.2⟩
  rw [item_of_plan h, (plannedWrite_eq_some.mp h).1]

theorem nodup_writesOf (syncer : LeasewebHourlyCloudSyncer) (stores : SyncStores)
    (offers : OfferTable) : ((syncer.writesOf stores offers).map (·.pair)).Nodup := by
  have hpairs : ∀ pairs : List Pair, ((pairs.filterMap (syncer.plan stores offers)).map
      (·.pair)).Sublist pairs := by
    intro pairs
    induction pairs with
    | nil => exact List.Sublist.slnil
    | cons pair rest ih =>
      cases hplan : syncer.plan stores offers pair with
      | none =>
        rw [List.filterMap_cons_none hplan]
        exact ih.cons pair
      | some write =>
        rw [List.filterMap_cons_some hplan, List.map_cons, (plannedWrite_eq_some.mp hplan).1]
        exact ih.cons_cons pair
  have hobserved : (observedPairs syncer.listed).Nodup :=
    (pairwise_observedPairs syncer.listed).imp fun hlt heq ↦ hlt.ne (congrArg toLex heq)
  exact ((hpairs _).trans (List.takeWhile_sublist _)).nodup hobserved

/-- The row of a pair after the writes of a run. -/
def LeasewebHourlyCloudSyncer.rowAfterWrites (syncer : LeasewebHourlyCloudSyncer)
    (stores : SyncStores) (offers : OfferTable) (pair : Pair) : Option OfferRow :=
  ((syncer.syncAll stores offers).writes.find? (·.pair = pair)).elim (offers.get (hourlyKey pair))
    fun write ↦ write.lands (stores.upsertFault write.pair) (offers.get (hourlyKey pair))

/-- A retirement pass leaves a row's account. -/
@[simp] theorem account_retire (row : OfferRow) (available : List AccountOffer)
    (billingModel accountId : Option String) :
    (row.retire providerKey available billingModel accountId).account = row.account := by
  unfold OfferRow.retire
  split <;> rfl

theorem get_finish (run : HourlyRun) (errors : List String) (key : OfferKey) :
    (run.finish stores errors).offers.get key = (run.offers.get key).map fun row ↦
      if run.mayRetire ∧ stores.markFault = none then
        row.retire providerKey run.available (some billingModelHourly) none else row := by
  unfold HourlyRun.finish
  cases hretire : run.mayRetire with
  | false => simp
  | true =>
    cases hfault : stores.markFault with
    | some raised => simp
    | none =>
      simp only [if_true, and_self]
      exact Table.get_update run.offers key

theorem get_published (collected : Collected) :
    (syncer.published stores offers collected).offers.get (hourlyKey pair) =
      ((syncer.writesOf stores offers).find? (·.pair = pair)).elim (offers.get (hourlyKey pair))
        fun write ↦ write.lands (stores.upsertFault write.pair) (offers.get (hourlyKey pair)) := by
  refine get_foldl_record stores (fun write hwrite ↦ ?_)
    (nodup_writesOf syncer stores offers) pair _
  exact wellFormed_of_plan (mem_plannedWrites.mp hwrite).1

/-- The account of a pair's row after a run. -/
theorem account_get_syncAll (syncer : LeasewebHourlyCloudSyncer) (stores : SyncStores)
    (offers : OfferTable) (pair : Pair) :
    ((syncer.syncAll stores offers).offers.get (hourlyKey pair)).map OfferRow.account =
      (syncer.rowAfterWrites stores offers pair).map OfferRow.account := by
  unfold LeasewebHourlyCloudSyncer.rowAfterWrites
  have hsynced := syncer.syncAll_cases stores offers
  generalize syncer.syncAll stores offers = outcome at hsynced
  cases hsynced with
  | interrupted raised _ => rfl
  | unfit raised collected _ _ =>
    rw [LeasewebHourlyCloudSyncer.writes_published]
    exact congrArg _ (get_published collected)
  | finished collected _ _ =>
    rw [get_finish, writes_finish, LeasewebHourlyCloudSyncer.writes_published,
      ← get_published collected, Option.map_map]
    refine congrArg (Option.map · _) (funext fun row ↦ ?_)
    rw [Function.comp_apply]
    split
    · exact account_retire row _ _ _
    · rfl

end Outcomes

end CloudPlatform.Leaseweb
