import CloudPlatform.Leaseweb.CatalogRuns

/-!
# Through which accounts a sync publishes

An account may sell a pair when it accepts new orders, is not at its provider limit and listed the
pair in this run with images that are usable or unknown. A run publishes only through such accounts,
and each pair that has one, exactly if no pair is published through a draining account and the run
gets as far as every pair that can be sold.
-/

namespace CloudPlatform.Leaseweb

open Offers

variable {syncer : LeasewebHourlyCloudSyncer} {stores : SyncStores} {offers : OfferTable}
  {pair : Pair} {accountId : String}

/-- The account may sell the pair. -/
structure Sellable (syncer : LeasewebHourlyCloudSyncer) (stores : SyncStores) (pair : Pair)
    (accountId : String) : Prop where
  accepts : syncer.stateOf accountId = .active
  unlimited : accountId ∉ stores.limitReachedAccounts
  listed : ∃ observation ∈ syncer.listed, observation.accountId = accountId ∧
    observation.pair = pair ∧ observation.imagesState ∉ unpublishableImageStates

/-- The run wrote the pair under the owner it is known to have, and no account that may take new
orders proved it. -/
structure KeptInconclusively (syncer : LeasewebHourlyCloudSyncer) (stores : SyncStores)
    (offers : OfferTable) (pair : Pair) : Prop where
  owner : ∃ write ∈ (syncer.syncAll stores offers).writes, write.pair = pair ∧
    stores.currentOwners offers pair = some write.choice.accountId
  inconclusive : ∀ observation ∈ syncer.listed, observation.pair = pair →
    observation.accountId ∉ stores.limitReachedAccounts → observation.imagesState ≠ .ok

/-- The run publishes through accounts that may sell, and every pair that has one unless its owner
was kept. -/
structure PublishesSellable (syncer : LeasewebHourlyCloudSyncer) (stores : SyncStores)
    (offers : OfferTable) : Prop where
  published : ∀ write ∈ (syncer.syncAll stores offers).writes,
    write.update.providerAvailable = true →
      Sellable syncer stores write.pair write.choice.accountId
  verified : ∀ result, (syncer.syncAll stores offers).result = .ok result →
    ∀ triple ∈ result.verifiedAccounts,
      Sellable syncer stores (triple.productId, triple.locationId) triple.accountId
  unpublished : ∀ pair accountId, Sellable syncer stores pair accountId →
    (∃ write ∈ (syncer.syncAll stores offers).writes, write.pair = pair ∧
      write.update.providerAvailable = true) ∨ KeptInconclusively syncer stores offers pair

/-! ### Writes and their entries -/

variable {write : HourlyWrite}

/-- The entry that a planned write is made of. -/
theorem exists_entry (h : syncer.plan stores offers pair = some write) :
    ∃ entry, ChosenAs (rankedOf syncer.listed pair) (stores.currentOwners offers pair)
      stores.limitReachedAccounts entry write.choice :=
  selectHourlyOwner_cases (plannedWrite_eq_some.mp h).2.1

/-- A planned write is available exactly if its choice is published. -/
theorem providerAvailable_of_plan (h : syncer.plan stores offers pair = some write) :
    write.update.providerAvailable = write.choice.published :=
  (wellFormed_of_plan h).spec.available

/-- A published write is of an account that may sell the pair, if that account is not draining. -/
theorem sellable_of_published (hplan : syncer.plan stores offers pair = some write)
    (hpublished : write.choice.published = true)
    (hstate : syncer.stateOf write.choice.accountId ≠ .draining) :
    Sellable syncer stores pair write.choice.accountId := by
  obtain ⟨entry, hentry⟩ := exists_entry hplan
  obtain ⟨observation, hlisted, hpair, rfl⟩ := mem_rankedOf.mp hentry.mem
  obtain ⟨hunlimited, himages⟩ := candidate_eq_true.mp (hentry.published_iff.mp hpublished)
  have hid : write.choice.accountId = observation.accountId := hentry.entry_eq.1
  rw [hid] at hstate ⊢
  refine ⟨?_, hunlimited, observation, hlisted, rfl, hpair, ?_⟩
  · have hread := LeasewebHourlyCloudSyncer.stateOf_of_mem_listed hlisted
    revert hstate hread
    cases syncer.stateOf observation.accountId <;> simp
  · have hstates : observation.imagesState = .ok ∨ observation.imagesState = .unknown := himages
    cases hstates with
    | inl hok => rw [hok]; decide
    | inr hunknown => rw [hunknown]; decide

/-- A pair that the run reaches and does not publish has no account that may sell it, or its owner
was kept. -/
theorem kept_of_unpublished (hmem : write ∈ (syncer.syncAll stores offers).writes)
    (hpair : write.pair = pair) (hunpublished : write.choice.published = false)
    (hsellable : Sellable syncer stores pair accountId) :
    KeptInconclusively syncer stores offers pair := by
  subst hpair
  obtain ⟨hplan, -⟩ := mem_writes_syncAll.mp hmem
  obtain ⟨entry, hentry⟩ := exists_entry hplan
  obtain ⟨observation, hlisted, haccount, hpair, himages⟩ := hsellable.listed
  have hranked : observation.entry ∈ rankedOf syncer.listed write.pair :=
    mem_rankedOf.mpr ⟨observation, hlisted, hpair, rfl⟩
  have hcandidate : observation.entry.candidate stores.limitReachedAccounts = true := by
    have hopen : observation.entry.accountId ∉ stores.limitReachedAccounts := by
      change observation.accountId ∉ _
      rw [haccount]
      exact hsellable.unlimited
    have hmay : observation.entry.imagesState ∉ unpublishableImageStates := himages
    simpa [RankedEntry.candidate, hopen] using hmay
  generalize hchoice : write.choice = choice at hentry hunpublished
  cases hentry with
  | proved _ _ _ => cases hunpublished
  | fallback _ _ _ => cases hunpublished
  | left _ hnone _ =>
    rw [hnone observation.entry hranked] at hcandidate
    cases hcandidate
  | kept howner hunproven =>
    refine ⟨⟨write, hmem, rfl, ?_⟩, ?_⟩
    · have howned := List.find?_some howner
      rw [hchoice]
      exact (of_decide_eq_true howned).symm
    · intro other hother hotherPair hotherOpen hok
      have hproven : other.entry.proven stores.limitReachedAccounts = true :=
        proven_eq_true.mpr ⟨hotherOpen, hok⟩
      rw [hunproven other.entry (mem_rankedOf.mpr ⟨other, hother, hotherPair, rfl⟩)] at hproven
      cases hproven

/-- A verified triple is that of a published write of the run. -/
theorem exists_write_of_verified {result : CloudSyncResult} {triple : AccountOffer}
    (hresult : (syncer.syncAll stores offers).result = .ok result)
    (hmem : triple ∈ result.verifiedAccounts) :
    ∃ write ∈ (syncer.syncAll stores offers).writes, triple = write.triple ∧
      write.choice.published = true := by
  have hsynced := syncer.syncAll_cases stores offers
  generalize syncer.syncAll stores offers = outcome at hsynced hresult
  cases hsynced with
  | interrupted raised _ => cases hresult
  | unfit raised collected _ _ => cases hresult
  | finished collected _ _ =>
    rw [verifiedAccounts_of_finish hresult] at hmem
    rw [writes_finish, LeasewebHourlyCloudSyncer.writes_published]
    rcases mem_verifiedAccounts_foldl hmem with hbefore | ⟨write, hwrite, htriple, hpublished, -⟩
    · cases hbefore
    · exact ⟨write, hwrite, htriple, hpublished⟩

/-! ### When a run publishes what can be sold -/

/-- A run publishes only through accounts that may sell, and every pair that has one, exactly if no
pair that it reaches is led by a draining account and it reaches every pair that can be sold. -/
theorem publishesSellable_iff (syncer : LeasewebHourlyCloudSyncer) (stores : SyncStores)
    (offers : OfferTable) :
    PublishesSellable syncer stores offers ↔
      (∀ pair, Reached syncer stores offers pair → ∀ entry,
        Leads (rankedOf syncer.listed pair) (stores.currentOwners offers pair)
          stores.limitReachedAccounts entry → syncer.stateOf entry.accountId ≠ .draining) ∧
      ∀ pair accountId, Sellable syncer stores pair accountId →
        Reached syncer stores offers pair := by
  constructor
  · intro h
    refine ⟨fun pair hreached entry hleads hdraining ↦ ?_, fun pair accountId hsellable ↦ ?_⟩
    · obtain ⟨choice, hchoice, hpublished, haccount⟩ := hleads.chosen
      obtain ⟨chosen, hchosen⟩ := selectHourlyOwner_cases hchoice
      obtain ⟨observation, hlisted, hpair, -⟩ := mem_rankedOf.mp hchosen.mem
      obtain ⟨write, hplan⟩ := Option.isSome_iff_exists.mp
        (hreached.fits pair (mem_observedPairs.mpr ⟨observation, hlisted, hpair⟩) le_rfl)
      have hwrite := (plannedWrite_eq_some.mp hplan).1
      have hsame : write.choice = choice :=
        Option.some.inj ((plannedWrite_eq_some.mp hplan).2.1.symm.trans hchoice)
      have hmem : write ∈ (syncer.syncAll stores offers).writes :=
        mem_writes_syncAll.mpr (by rw [hwrite]; exact ⟨hplan, hreached⟩)
      have havailable : write.update.providerAvailable = true := by
        rw [providerAvailable_of_plan hplan, hsame, hpublished]
      have haccepts := (h.published write hmem havailable).accepts
      rw [hsame, haccount, hdraining] at haccepts
      cases haccepts
    · rcases h.unpublished pair accountId hsellable with ⟨write, hmem, rfl, -⟩ | hkept
      · exact (mem_writes_syncAll.mp hmem).2
      · obtain ⟨write, hmem, rfl, -⟩ := hkept.owner
        exact (mem_writes_syncAll.mp hmem).2
  · rintro ⟨hdraining, hreaches⟩
    have hsold : ∀ write ∈ (syncer.syncAll stores offers).writes, write.choice.published = true →
        Sellable syncer stores write.pair write.choice.accountId := by
      intro write hmem hpublished
      obtain ⟨hplan, hreached⟩ := mem_writes_syncAll.mp hmem
      obtain ⟨entry, hentry⟩ := exists_entry hplan
      refine sellable_of_published hplan hpublished ?_
      rw [hentry.entry_eq.1]
      exact hdraining write.pair hreached entry (hentry.leads hpublished)
    refine ⟨fun write hmem havailable ↦ ?_, fun result hresult triple htriple ↦ ?_,
      fun pair accountId hsellable ↦ ?_⟩
    · rw [providerAvailable_of_plan (mem_writes_syncAll.mp hmem).1] at havailable
      exact hsold write hmem havailable
    · obtain ⟨write, hmem, rfl, hpublished⟩ := exists_write_of_verified hresult htriple
      have hitem := item_of_plan (mem_writes_syncAll.mp hmem).1
      have hpair : (write.triple.productId, write.triple.locationId) = write.pair :=
        Prod.ext hitem rfl
      rw [hpair]
      exact hsold write hmem hpublished
    · have hreached := hreaches pair accountId hsellable
      obtain ⟨observation, hlisted, -, hpair, -⟩ := hsellable.listed
      obtain ⟨write, hplan⟩ := Option.isSome_iff_exists.mp
        (hreached.fits pair (mem_observedPairs.mpr ⟨observation, hlisted, hpair⟩) le_rfl)
      have hwrite := (plannedWrite_eq_some.mp hplan).1
      have hmem : write ∈ (syncer.syncAll stores offers).writes :=
        mem_writes_syncAll.mpr (by rw [hwrite]; exact ⟨hplan, hreached⟩)
      cases hpublished : write.choice.published with
      | true =>
        refine Or.inl ⟨write, hmem, hwrite, ?_⟩
        rw [providerAvailable_of_plan hplan, hpublished]
      | false => exact Or.inr (kept_of_unpublished hmem hwrite hpublished hsellable)

/-! ### A draining account that publishes -/

def smallType : CloudInstanceType where
  id := "lsw.c3.large"
  name := "C3 large"
  vcpu := 2
  ramGb := 4
  diskGb := 40
  hourlyCostMinor := 2
  currency := "EUR"
  hourlyRateExact := "0.0165"

/-- One account, which is draining, lists one type with usable images. -/
def drainingOnly : LeasewebHourlyCloudSyncer where
  accounts := [⟨"main", .ok [⟨"eu-west-3", .ok [smallType], .ok ["ubuntu-24.04"]⟩]⟩]
  accountStates := fun _ ↦ some .draining

theorem drainingOnly_published : ∃ write ∈ (drainingOnly.syncAll {} ⟨[], List.nodup_nil⟩).writes,
      write.update.providerAvailable = true ∧ write.choice.accountId = "main" := by
  decide +kernel

/-- The draining account's pair is published, though the account takes no new orders. -/
theorem drainingOnly_not_publishesSellable :
    ¬ PublishesSellable drainingOnly {} ⟨[], List.nodup_nil⟩ := by
  intro h
  obtain ⟨write, hmem, havailable, haccount⟩ := drainingOnly_published
  have haccepts := (h.published write hmem havailable).accepts
  rw [haccount] at haccepts
  cases haccepts

end CloudPlatform.Leaseweb
