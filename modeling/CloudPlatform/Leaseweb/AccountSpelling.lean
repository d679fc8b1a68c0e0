import CloudPlatform.Leaseweb.CatalogRuns
import CloudPlatform.Leaseweb.OrderingRuns

/-!
# Spellings of account ids

The configuration accepts account ids with upper-case letters. The catalog stores an account
casefolded, while both syncs report it, retire by it and have it looked up as it is configured. What
a run without write failures put on sale is therefore still on sale, and found under the account
that the run reports, exactly if no account that it sells through has an upper-case letter in its
id.
-/

namespace CloudPlatform.Leaseweb

open Offers ProviderRoutes
open Rows (Table)

/-- `_ACCOUNT_ID_PATTERN`. -/
def acceptedAccountId (accountId : String) : Bool :=
  match accountId.toList with
  | [] => false
  | first :: rest => first.isAlphanum && rest.length ≤ 62 &&
      rest.all fun c ↦ c.isAlphanum || c ∈ ['.', '_', '-']

/-- What a run put on sale is still on sale, and found under an account that the run reports. -/
structure KeptAndFound (offers : OfferTable) (verified : List AccountOffer) (pair : Pair)
    (billingModel : String) : Prop where
  kept : ∃ row, offers.get ⟨providerKey, pair.1, pair.2, billingModel⟩ = some row ∧
    row.providerAvailable = true
  found : ∃ accountId, (⟨accountId, pair.1, pair.2⟩ : AccountOffer) ∈ verified ∧
    ∃ row, getByRef offers providerKey pair.1 pair.2 (some accountId) billingModel = .ok (some row)

/-! ### Accepted ids -/

section Ids

variable {accountId : String}

theorem isSpace_of_isAlphanum {c : Char} (h : c.isAlphanum = true) : isSpace c = false := by
  change ((decide (c.val ≥ 'A'.val ∧ c.val ≤ 'Z'.val) ||
    (decide (c.val ≥ 'a'.val) && decide (c.val ≤ 'z'.val))) ||
      (decide (c.val ≥ '0'.val) && decide (c.val ≤ '9'.val))) = true at h
  simp only [Bool.or_eq_true, Bool.and_eq_true, decide_eq_true_eq, UInt32.le_iff_toNat_le,
    ge_iff_le] at h
  change ((65 ≤ c.toNat ∧ c.toNat ≤ 90) ∨ (97 ≤ c.toNat ∧ c.toNat ≤ 122)) ∨
    (48 ≤ c.toNat ∧ c.toNat ≤ 57) at h
  simp only [isSpace, List.mem_cons, List.not_mem_nil, or_false, decide_eq_false_iff_not]
  omega

/-- An accepted id has no white space. -/
theorem strip_of_accepted (h : acceptedAccountId accountId = true) :
    strip accountId = accountId := by
  have hspaces : ∀ c ∈ accountId.toList, isSpace c = false := by
    unfold acceptedAccountId at h
    intro c hc
    cases hchars : accountId.toList with
    | nil =>
      rw [hchars] at hc
      cases hc
    | cons first rest =>
      rw [hchars] at h hc
      simp only [Bool.and_eq_true] at h
      cases List.mem_cons.mp hc with
      | inl heq => exact heq ▸ isSpace_of_isAlphanum h.1.1
      | inr hrest =>
        have hallowed := List.all_eq_true.mp h.2 c hrest
        rw [Bool.or_eq_true, decide_eq_true_iff] at hallowed
        rcases hallowed with halphanum | hother
        · exact isSpace_of_isAlphanum halphanum
        · have hpunctuation : ∀ other ∈ ['.', '_', '-'], isSpace other = false :=
            forall_mem_of_all (by decide)
          exact hpunctuation c hother
  refine strip_eq_self (fun c hc ↦ ?_) fun c hc ↦ ?_
  · exact hspaces c (List.mem_of_mem_head? hc)
  · exact hspaces c (List.mem_of_mem_getLast? hc)

end Ids

/-! ### What a lookup finds -/

/-- A row that an account's observation left, and that no retirement of others' triples changed, is
kept and found exactly if the id is its own casefolded spelling. -/
theorem keptAndFound_iff {offers : OfferTable} {verified : List AccountOffer} {pair : Pair}
    {billingModel accountId : String} {row : OfferRow} (observed : List AccountOffer)
    (hkey : row.key = ⟨providerKey, pair.1, pair.2, billingModel⟩)
    (haccount : row.providerAccountId = some (storedAccount accountId))
    (havailable : row.providerAvailable = true) (hdomain : ∃ read, row.toDomain = .ok read)
    (hget : offers.get ⟨providerKey, pair.1, pair.2, billingModel⟩ = some row ∨
      offers.get ⟨providerKey, pair.1, pair.2, billingModel⟩ =
        some (row.retire providerKey observed (some billingModel) none))
    (hverified : ∀ other, (⟨other, pair.1, pair.2⟩ : AccountOffer) ∈ verified ↔ other = accountId)
    (hobserved : ⟨accountId, pair.1, pair.2⟩ ∈ observed) :
    KeptAndFound offers verified pair billingModel ↔ storedAccount accountId = accountId := by
  constructor
  · rintro ⟨-, reported, hreported, found, hfound⟩
    obtain rfl := (hverified reported).mp hreported
    rw [getByRef_eq] at hfound
    have hstored : ∀ after, offers.get ⟨providerKey, pair.1, pair.2, billingModel⟩ = some after →
        after.providerAccountId = some (storedAccount reported) := by
      intro after hafter
      rcases hget with hsame | hretired
      · rw [hsame] at hafter
        rw [← Option.some.inj hafter, haccount]
      · rw [hretired] at hafter
        rw [← Option.some.inj hafter, ← haccount]
        unfold OfferRow.retire
        split <;> rfl
    cases hrow : offers.get ⟨providerKey, pair.1, pair.2, billingModel⟩ with
    | none =>
      rw [hrow] at hfound
      cases hfound
    | some after =>
      by_contra hne
      have hother : after.providerAccountId ≠ some reported := by
        rw [hstored after hrow]
        exact fun h ↦ hne (Option.some.inj h)
      rw [hrow, Option.filter_some, if_neg (by simpa using hother)] at hfound
      cases hfound
  · intro hspelled
    have hkept : row.retire providerKey observed (some billingModel) none = row := by
      have htriple : row.triple = ⟨accountId, pair.1, pair.2⟩ := by
        rw [OfferRow.key, OfferKey.mk.injEq] at hkey
        rw [OfferRow.triple, OfferRow.account, haccount, hspelled, hkey.2.1, hkey.2.2.1]
        rfl
      unfold OfferRow.retire
      rw [htriple]
      simp [hobserved]
    have hrow : offers.get ⟨providerKey, pair.1, pair.2, billingModel⟩ = some row := by
      rcases hget with hsame | hretired
      · exact hsame
      · rw [hretired, hkept]
    refine ⟨⟨row, hrow, havailable⟩, accountId, (hverified accountId).mpr rfl, ?_⟩
    obtain ⟨read, hread⟩ := hdomain
    refine ⟨read, ?_⟩
    rw [getByRef_eq, hrow, Option.filter_some, haccount, hspelled, if_pos (by simp)]
    dsimp only
    rw [hread]
    rfl

/-! ### Hourly runs -/

section Hourly

variable {syncer : LeasewebHourlyCloudSyncer} {stores : SyncStores} {offers : OfferTable}
  {run : HourlyRun} {write : HourlyWrite} {writes : List HourlyWrite}

/-- What a record adds when the run has no write failure after it. -/
theorem record_of_stored (h : (run.record stores write).persistenceFailures = []) :
    run.persistenceFailures = [] ∧
      (∃ read, (write.upsert (stores.upsertFault write.pair) run.offers).1 = .ok read) ∧
      (run.record stores write).available = run.available ++ [write.triple] ∧
      (run.record stores write).verifiedAccounts =
        if write.choice.imagesState ∉ unpublishableImageStates && write.choice.published then
          run.verifiedAccounts ++ [write.triple] else run.verifiedAccounts := by
  unfold HourlyRun.record at h ⊢
  dsimp only at h ⊢
  cases hupsert : (write.upsert (stores.upsertFault write.pair) run.offers).1 with
  | error raised =>
    rw [hupsert] at h
    exact absurd h (by simp)
  | ok read =>
    rw [hupsert] at h
    exact ⟨h, ⟨read, rfl⟩, rfl, rfl⟩

/-- The answer of an upsert depends on the row of its pair alone. -/
theorem fst_upsert_congr (hwrite : write.WellFormed) (fault : Option Raised)
    {first second : OfferTable}
    (h : first.get (hourlyKey write.pair) = second.get (hourlyKey write.pair)) :
    (write.upsert fault first).1 = (write.upsert fault second).1 := by
  cases fault with
  | some raised => rfl
  | none =>
    change (upsertFromProvider first providerKey write.choice.item.id write.pair.2 write.update
      (some write.choice.accountId)).1 = (upsertFromProvider second providerKey
        write.choice.item.id write.pair.2 write.update (some write.choice.accountId)).1
    rw [fst_upsertFromProvider, fst_upsertFromProvider, hwrite.item, hwrite.spec.key_eq, h]

/-- What is known of the run after writes of distinct pairs, when it has no write failure. -/
structure StoredAll (stores : SyncStores) (run : HourlyRun) (writes : List HourlyWrite)
    (after : HourlyRun) : Prop where
  start : run.persistenceFailures = []
  available : ∀ triple, triple ∈ after.available ↔ triple ∈ run.available ∨
    ∃ write ∈ writes, write.triple = triple
  verified : ∀ triple, triple ∈ after.verifiedAccounts ↔ triple ∈ run.verifiedAccounts ∨
    ∃ write ∈ writes, write.triple = triple ∧
      (write.choice.imagesState ∉ unpublishableImageStates && write.choice.published) = true
  upserts : ∀ write ∈ writes,
    ∃ read, (write.upsert (stores.upsertFault write.pair) run.offers).1 = .ok read

theorem storedAll_foldl (hwrites : ∀ write ∈ writes, write.WellFormed)
    (hnodup : (writes.map (·.pair)).Nodup)
    (h : (writes.foldl (HourlyRun.record stores) run).persistenceFailures = []) :
    StoredAll stores run writes (writes.foldl (HourlyRun.record stores) run) := by
  induction writes generalizing run with
  | nil =>
    exact ⟨h, by simp, by simp, fun write hmem ↦ absurd hmem List.not_mem_nil⟩
  | cons write rest ih =>
    obtain ⟨hwrite, hrest⟩ := List.forall_mem_cons.mp hwrites
    rw [List.map_cons, List.nodup_cons] at hnodup
    rw [List.foldl_cons] at h ⊢
    have hafter := ih hrest hnodup.2 h
    obtain ⟨hstart, hread, havailable, hverified⟩ := record_of_stored hafter.start
    refine ⟨hstart, fun triple ↦ ?_, fun triple ↦ ?_, List.forall_mem_cons.mpr ⟨hread, ?_⟩⟩
    · rw [hafter.available, havailable, List.mem_append, List.mem_singleton, or_assoc,
        List.exists_mem_cons_iff, eq_comm]
    · rw [hafter.verified, hverified, List.exists_mem_cons_iff, ← or_assoc]
      refine or_congr_left ?_
      split
      · rename_i hproved
        rw [List.mem_append, List.mem_singleton, eq_comm, and_iff_left hproved]
      · rename_i hunproved
        exact (or_iff_left fun hboth ↦ hunproved hboth.2).symm
    · -- The later writes are of other pairs, whose rows this one leaves.
      intro later hlater
      obtain ⟨read, hlaterRead⟩ := hafter.upserts later hlater
      refine ⟨read, ?_⟩
      rw [← hlaterRead]
      refine fst_upsert_congr (hrest later hlater) _ ?_
      rw [offers_record, get_upsert hwrite, if_neg]
      intro heq
      refine hnodup.1 ?_
      rw [hourlyKey_injective heq]
      exact List.mem_map_of_mem hlater

/-- Every listed account is configured. -/
theorem exists_account_of_mem_listed {observation : Observation} (h : observation ∈ syncer.listed) :
    ∃ account ∈ syncer.accounts, account.accountId = observation.accountId := by
  obtain ⟨read, hread, hobservation⟩ := List.mem_flatMap.mp h
  have hmem := (List.takeWhile_prefix _).subset hread
  obtain ⟨account, haccount, hregion⟩ := List.mem_flatMap.mp hmem
  obtain ⟨region, -, rfl⟩ := List.mem_map.mp hregion
  refine ⟨account, ?_, ?_⟩
  · exact List.mem_insertionSort _ |>.mp (List.mem_of_mem_filter haccount)
  · rcases region with ⟨regionId, raised | types, images⟩
    · cases hobservation
    · obtain ⟨item, -, rfl⟩ := List.mem_map.mp hobservation
      rfl

/-- What the end of a run without write failures says of its writes. -/
theorem stored_of_finish {errors : List String} {result : CloudSyncResult}
    (hresult : (run.finish stores errors).result = .ok result)
    (hstored : result.persistenceFailures = []) : run.persistenceFailures = [] := by
  unfold HourlyRun.finish at hresult
  dsimp only at hresult
  split at hresult
  · split at hresult
    · rw [← Except.ok.inj hresult] at hstored
      exact (List.append_eq_nil_iff.mp hstored).1
    · rw [← Except.ok.inj hresult] at hstored
      exact hstored
  · rw [← Except.ok.inj hresult] at hstored
    exact hstored

/-- An hourly run of accepted accounts without a write failure. -/
structure HourlyClean (syncer : LeasewebHourlyCloudSyncer) (stores : SyncStores)
    (offers : OfferTable) : Prop where
  accepted : ∀ account ∈ syncer.accounts, acceptedAccountId account.accountId = true
  stored : ∃ result, (syncer.syncAll stores offers).result = .ok result ∧
    result.persistenceFailures = []

/-- Every offer that an hourly run put on sale is still on sale after it, and found under an account
that the run reports. -/
def HourlyRoundTrips (syncer : LeasewebHourlyCloudSyncer) (stores : SyncStores)
    (offers : OfferTable) : Prop :=
  ∀ result, (syncer.syncAll stores offers).result = .ok result →
    ∀ write ∈ (syncer.syncAll stores offers).writes, write.update.providerAvailable = true →
      KeptAndFound (syncer.syncAll stores offers).offers result.verifiedAccounts write.pair
        billingModelHourly

/-- No account that an hourly run publishes a pair through has an upper-case letter in its id. -/
def HourlySpelled (syncer : LeasewebHourlyCloudSyncer) (stores : SyncStores)
    (offers : OfferTable) : Prop :=
  ∀ pair entry, Leads (rankedOf syncer.listed pair) (stores.currentOwners offers pair)
    stores.limitReachedAccounts entry → casefold entry.accountId = entry.accountId

/-- The row that a taken upsert leaves. -/
theorem exists_row_of_upsert (hwrite : write.WellFormed) {fault : Option Raised} {read : OfferRow}
    (hread : (write.upsert fault offers).1 = .ok read) :
    ∃ row, write.lands fault (offers.get (hourlyKey write.pair)) = some row ∧
      row.key = hourlyKey write.pair ∧
      row.providerAccountId = some (storedAccount write.choice.accountId) ∧
      row.providerAvailable = write.update.providerAvailable ∧ row.toDomain = .ok read := by
  cases fault with
  | some raised => cases hread
  | none =>
    change (upsertFromProvider offers providerKey write.choice.item.id write.pair.2 write.update
      (some write.choice.accountId)).1 = .ok read at hread
    rw [fst_upsertFromProvider, hwrite.item, hwrite.spec.key_eq] at hread
    obtain ⟨row, hrow, hdomain⟩ := bind_eq_ok.mp hread
    obtain ⟨haccount, havailable⟩ := exists_of_observedRow_eq_ok hrow hwrite.spec.account
      hwrite.spec.account_ne hwrite.spec.conclusive
    refine ⟨row, ?_, ?_, haccount, havailable, hdomain⟩
    · rw [HourlyWrite.lands, if_neg (by simp), landed, hrow]
    · exact key_of_observedRow (fun found hfound ↦
        Table.key_of_get (Option.mem_toList.mp hfound)) hrow

/-- A published write of a clean run is kept and found exactly if its account's id is its own
casefolded spelling. -/
theorem keptAndFound_iff_of_published (h : HourlyClean syncer stores offers)
    {result : CloudSyncResult} (hresult : (syncer.syncAll stores offers).result = .ok result)
    (hwrite : write ∈ (syncer.syncAll stores offers).writes)
    (hpublished : write.update.providerAvailable = true) :
    KeptAndFound (syncer.syncAll stores offers).offers result.verifiedAccounts write.pair
      billingModelHourly ↔ casefold write.choice.accountId = write.choice.accountId := by
  have hplan := (mem_writes_syncAll.mp hwrite).1
  have hformed := wellFormed_of_plan hplan
  obtain ⟨entry, hentry⟩ := selectHourlyOwner_cases (plannedWrite_eq_some.mp hplan).2.1
  obtain ⟨observation, hlisted, -, hobservation⟩ := mem_rankedOf.mp hentry.mem
  obtain ⟨account, haccount, hid⟩ := exists_account_of_mem_listed hlisted
  have haccepted : acceptedAccountId write.choice.accountId = true := by
    have hconfigured := h.accepted account haccount
    rw [hid] at hconfigured
    rw [hentry.entry_eq.1, ← hobservation]
    exact hconfigured
  have hcasefold : storedAccount write.choice.accountId = casefold write.choice.accountId := by
    rw [storedAccount, strip_of_accepted haccepted]
  have hproved : (write.choice.imagesState ∉ unpublishableImageStates &&
      write.choice.published) = true := by
    have hchoice : write.choice.published = true := by
      rw [← hformed.spec.available]
      exact hpublished
    have himages := (candidate_eq_true.mp (hentry.published_iff.mp hchoice)).2
    rw [← hentry.entry_eq.2.1] at himages
    rw [hchoice, Bool.and_true, decide_eq_true_iff]
    rcases himages with hok | hunknown
    · rw [hok]
      decide
    · rw [hunknown]
      decide
  obtain ⟨sameResult, hsame, hstored⟩ := h.stored
  obtain rfl := Except.ok.inj (hresult.symm.trans hsame)
  have hsynced := syncer.syncAll_cases stores offers
  generalize syncer.syncAll stores offers = outcome at hsynced hresult hwrite
  cases hsynced with
  | interrupted raised _ => cases hresult
  | unfit raised collected _ _ => cases hresult
  | finished collected _ _ =>
    rw [writes_finish, LeasewebHourlyCloudSyncer.writes_published] at hwrite
    have hplans : ∀ other ∈ syncer.writesOf stores offers,
        syncer.plan stores offers other.pair = some other :=
      fun other hother ↦ (mem_plannedWrites.mp hother).1
    have hall : StoredAll stores _ _ (syncer.published stores offers collected) := storedAll_foldl
      (fun other hother ↦ wellFormed_of_plan (hplans other hother))
      (nodup_writesOf syncer stores offers) (stored_of_finish hresult hstored)
    obtain ⟨read, hread⟩ := hall.upserts write hwrite
    obtain ⟨row, hlands, hkey, hrowAccount, hrowAvailable, hdomain⟩ :=
      exists_row_of_upsert hformed hread
    have hfind : (syncer.writesOf stores offers).find? (·.pair = write.pair) = some write := by
      cases hfound : (syncer.writesOf stores offers).find? (·.pair = write.pair) with
      | none => exact absurd (decide_eq_true rfl) (List.find?_eq_none.mp hfound write hwrite)
      | some other =>
        have hpair : other.pair = write.pair := by simpa using List.find?_some hfound
        have hother := hplans other (List.mem_of_find?_eq_some hfound)
        rw [hpair, hplan] at hother
        exact hother.symm
    have hafter : (syncer.published stores offers collected).offers.get (hourlyKey write.pair) =
        some row := by
      rw [get_published, hfind]
      exact hlands
    have hitem := item_of_plan hplan
    rw [← hcasefold]
    refine keptAndFound_iff (syncer.published stores offers collected).available hkey hrowAccount
      (hrowAvailable.trans hpublished) ⟨read, hdomain⟩ ?_ (fun other ↦ ?_) ?_
    · have hretired : Table.get ((syncer.published stores offers collected).finish stores
          collected.errors).offers (hourlyKey write.pair) = _ := get_finish _ _ _
      rw [hafter, Option.map_some] at hretired
      split at hretired
      · exact Or.inr hretired
      · exact Or.inl hretired
    · rw [verifiedAccounts_of_finish hresult]
      constructor
      · intro hmem
        rcases (hall.verified _).mp hmem with hnone | ⟨found, hfound, htriple, -⟩
        · cases hnone
        · have hfoundPlan := hplans found hfound
          rw [HourlyWrite.triple, item_of_plan hfoundPlan, AccountOffer.mk.injEq] at htriple
          have hpair : found.pair = write.pair := Prod.ext htriple.2.1 htriple.2.2
          rw [hpair, hplan] at hfoundPlan
          rw [← htriple.1, Option.some.inj hfoundPlan]
      · rintro rfl
        refine (hall.verified _).mpr (Or.inr ⟨write, hwrite, ?_, hproved⟩)
        rw [HourlyWrite.triple, hitem]
    · refine (hall.available _).mpr (Or.inr ⟨write, hwrite, ?_⟩)
      rw [HourlyWrite.triple, hitem]

theorem hourlyRoundTrips_iff (h : HourlyClean syncer stores offers) :
    HourlyRoundTrips syncer stores offers ↔ HourlySpelled syncer stores offers := by
  obtain ⟨result, hresult, -⟩ := h.stored
  constructor
  · intro hround pair entry hleads
    obtain ⟨choice, hchoice, hpublished, haccount⟩ := hleads.chosen
    obtain ⟨chosen, hchosen⟩ := selectHourlyOwner_cases hchoice
    obtain ⟨observation, hlisted, hpair, -⟩ := mem_rankedOf.mp hchosen.mem
    obtain ⟨huninterrupted, hfits⟩ : syncer.interrupted = none ∧ syncer.AllFit stores offers := by
      have hsynced := syncer.syncAll_cases stores offers
      generalize syncer.syncAll stores offers = outcome at hsynced hresult
      cases hsynced with
      | interrupted raised _ => cases hresult
      | unfit raised collected _ _ => cases hresult
      | finished collected hcollect hfits =>
        exact ⟨(LeasewebHourlyCloudSyncer.collect_eq_ok hcollect).1, hfits⟩
    obtain ⟨write, hplan⟩ := Option.isSome_iff_exists.mp
      (hfits pair (mem_observedPairs.mpr ⟨observation, hlisted, hpair⟩))
    have hwritePair := (plannedWrite_eq_some.mp hplan).1
    have hsame : write.choice = choice :=
      Option.some.inj ((plannedWrite_eq_some.mp hplan).2.1.symm.trans hchoice)
    have hmem : write ∈ (syncer.syncAll stores offers).writes := by
      refine mem_writes_syncAll.mpr ⟨by rw [hwritePair]; exact hplan, huninterrupted, ?_⟩
      exact fun other hother _ ↦ hfits other hother
    have havailable : write.update.providerAvailable = true := by
      rw [(wellFormed_of_plan hplan).spec.available, hsame, hpublished]
    rw [← haccount, ← hsame]
    exact (keptAndFound_iff_of_published h hresult hmem havailable).mp
      (hround result hresult write hmem havailable)
  · intro hspelled same hsame write hwrite havailable
    refine (keptAndFound_iff_of_published h hsame hwrite havailable).mpr ?_
    have hplan := (mem_writes_syncAll.mp hwrite).1
    obtain ⟨entry, hentry⟩ := selectHourlyOwner_cases (plannedWrite_eq_some.mp hplan).2.1
    rw [hentry.entry_eq.1]
    refine hspelled write.pair entry (hentry.leads ?_)
    rw [← (wellFormed_of_plan hplan).spec.available]
    exact havailable

end Hourly

/-! ### Monthly runs -/

section Monthly

variable {syncer : LeaseWebOrderingCatalogSyncer} {stores : OrderingStores} {offers : OfferTable}
  {routes : RouteTable} {write : OrderingWrite}

/-- A monthly run of accepted accounts without a write failure. -/
structure OrderingClean (syncer : LeaseWebOrderingCatalogSyncer) (stores : OrderingStores)
    (offers : OfferTable) (routes : RouteTable) : Prop where
  accepted : ∀ account ∈ syncer.accounts, acceptedAccountId account.accountId = true
  stored : ∃ result, (syncer.syncProducts stores offers routes).result = .ok result ∧
    result.persistenceFailures = []

/-- Every offer that a monthly run put on sale is still on sale after it, and found under an account
that the run reports. -/
def OrderingRoundTrips (syncer : LeaseWebOrderingCatalogSyncer) (stores : OrderingStores)
    (offers : OfferTable) (routes : RouteTable) : Prop :=
  ∀ result, (syncer.syncProducts stores offers routes).result = .ok result →
    ∀ write ∈ (syncer.syncProducts stores offers routes).writes,
      write.update.providerAvailable = true →
      KeptAndFound (syncer.syncProducts stores offers routes).offers result.verifiedAccounts
        write.supply.pair billingModelMonthly

/-- No account that supplies a monthly offer has an upper-case letter in its id. -/
def OrderingSpelled (syncer : LeaseWebOrderingCatalogSyncer) (stores : OrderingStores)
    (routes : RouteTable) : Prop :=
  ∀ supply ∈ syncer.chosen (stores.priorRoutes routes) (syncer.discoveries stores routes),
    supply.gone = false → casefold supply.account.accountId = supply.account.accountId

/-- The row that a taken supply leaves. -/
theorem exists_row_of_storedIn (hupdate : write.supply.update = .ok write.update)
    (hstored : write.supply.storedIn stores offers = true) :
    ∃ row, write.lands (stores.upsertFault write.supply.pair)
        (offers.get (monthlyKey write.supply.pair)) = some row ∧
      row.key = monthlyKey write.supply.pair ∧
      row.providerAccountId = some (storedAccount write.supply.account.accountId) ∧
      row.providerAvailable = write.update.providerAvailable ∧ ∃ read, row.toDomain = .ok read := by
  have hspec := Supply.specOf_of_update hupdate
  rw [Supply.storedIn, accepted_eq hupdate, Bool.and_eq_true] at hstored
  obtain ⟨hfault, hok⟩ := hstored
  obtain ⟨read, hread⟩ : ∃ read, (observedRow (offers.get (monthlyKey write.supply.pair)).toList
      (monthlyKey write.supply.pair) write.update (some write.supply.account.accountId) >>=
        OfferRow.toDomain) = .ok read := by
    revert hok
    cases observedRow (offers.get (monthlyKey write.supply.pair)).toList
      (monthlyKey write.supply.pair) write.update (some write.supply.account.accountId) >>=
        OfferRow.toDomain with
    | error raised => exact fun h ↦ by cases h
    | ok read => exact fun _ ↦ ⟨read, rfl⟩
  obtain ⟨row, hrow, hdomain⟩ := bind_eq_ok.mp hread
  obtain ⟨haccount, havailable⟩ := exists_of_observedRow_eq_ok hrow hspec.account
    hspec.account_ne hspec.conclusive
  refine ⟨row, ?_, ?_, haccount, havailable, read, hdomain⟩
  · rw [OrderingWrite.lands, Option.isNone_iff_eq_none.mp hfault, if_neg (by simp), landed, hrow]
  · exact key_of_observedRow (fun found hfound ↦
      Table.key_of_get (Option.mem_toList.mp hfound)) hrow

/-- A write of a clean run that put an offer on sale is kept and found exactly if its account's id
is its own casefolded spelling. -/
theorem keptAndFound_iff_of_sold (h : OrderingClean syncer stores offers routes)
    {result : SyncResult} (hresult : (syncer.syncProducts stores offers routes).result = .ok result)
    (hwrite : write ∈ (syncer.syncProducts stores offers routes).writes)
    (havailable : write.update.providerAvailable = true) :
    KeptAndFound (syncer.syncProducts stores offers routes).offers result.verifiedAccounts
      write.supply.pair billingModelMonthly ↔
        casefold write.supply.account.accountId = write.supply.account.accountId := by
  obtain ⟨sameResult, hsame, hstored⟩ := h.stored
  obtain rfl := Except.ok.inj (hresult.symm.trans hsame)
  have hsynced := syncer.syncProducts_cases stores offers routes
  generalize syncer.syncProducts stores offers routes = outcome at hsynced hresult hwrite
  cases hsynced with
  | interrupted raised _ => cases hresult
  | finished hends hrecorded =>
    have hend := syncer.endsAs_finish stores (stores.currentRows offers)
      (stores.priorRoutes routes) (syncer.discoveries stores routes)
      (syncer.aggregated stores offers routes).1 routes
    generalize syncer.finish stores (stores.currentRows offers) (stores.priorRoutes routes)
      (syncer.discoveries stores routes) (syncer.aggregated stores offers routes).1 routes
        = outcome at hend hresult hwrite
    obtain ⟨sameResult, hsame, hverified, hfailures⟩ := hend.result
    obtain rfl := Except.ok.inj (hresult.symm.trans hsame)
    obtain ⟨hrunStored, -, hmarked⟩ := hfailures.mp hstored
    rw [hend.writes] at hwrite
    obtain ⟨hchosen, hupdate⟩ :=
      ((hrecorded.writes write).mp hwrite).resolve_left List.not_mem_nil
    have htaken := (hrecorded.failures.mp hrunStored).2 write.supply hchosen
    have hsold : write.supply.gone = false := by
      rw [(Supply.specOf_of_update hupdate).available] at havailable
      simpa using havailable
    obtain ⟨row, hlands, hkey, haccount, hrowAvailable, hdomain⟩ :=
      exists_row_of_storedIn hupdate htaken
    have hafter : (syncer.aggregated stores offers routes).1.offers.get
        (monthlyKey write.supply.pair) = some row := by
      rw [hrecorded.lands write.supply hchosen write.update hupdate]
      exact hlands
    have haccepted : acceptedAccountId write.supply.account.accountId = true :=
      h.accepted _ (LeaseWebOrderingCatalogSyncer.account_mem_of_mem_chosen hchosen)
    have hcasefold : storedAccount write.supply.account.accountId =
        casefold write.supply.account.accountId := by
      rw [storedAccount, strip_of_accepted haccepted]
    have htriple (other : String) :
        (⟨other, write.supply.pair.1, write.supply.pair.2⟩ : AccountOffer) ∈
            (syncer.aggregated stores offers routes).1.verifiedAccounts ↔
          other = write.supply.account.accountId := by
      rw [hrecorded.verified, List.nil_append, List.mem_map]
      constructor
      · rintro ⟨supply, hsupply, htriple⟩
        rw [Supply.triple, AccountOffer.mk.injEq] at htriple
        have hsame : supply = write.supply := List.inj_on_of_nodup_map
          (LeaseWebOrderingCatalogSyncer.nodup_chosen syncer _ _)
          (List.mem_of_mem_filter hsupply) hchosen (Prod.ext htriple.2.1 htriple.2.2)
        rw [← htriple.1, hsame]
      · rintro rfl
        refine ⟨write.supply, List.mem_filter.mpr ⟨hchosen, ?_⟩, rfl⟩
        have hnotGone : (!write.supply.gone) = true := by rw [hsold]; rfl
        exact Bool.and_eq_true_iff.mpr ⟨htaken, hnotGone⟩
    rw [← hcasefold]
    refine keptAndFound_iff ((syncer.aggregated stores offers routes).1.verifiedAccounts ++
      preservedTriples ((stores.currentRows offers).getD [])
        (syncer.resolved (stores.priorRoutes routes) (syncer.discoveries stores routes)))
      hkey haccount (hrowAvailable.trans havailable) hdomain ?_ (fun other ↦ ?_)
      (List.mem_append_left _ ((htriple _).mpr rfl))
    · by_cases hmay : syncer.MayRetire stores (stores.currentRows offers)
          (syncer.discoveries stores routes) (syncer.aggregated stores offers routes).1 routes
      · have hretired := hend.retired hmay (hmarked hmay) (monthlyKey write.supply.pair)
        rw [hafter, Option.map_some] at hretired
        exact Or.inr hretired
      · rw [hend.kept fun hboth ↦ hmay hboth.1]
        exact Or.inl hafter
    · rw [hverified]
      exact htriple other

theorem orderingRoundTrips_iff (h : OrderingClean syncer stores offers routes) :
    OrderingRoundTrips syncer stores offers routes ↔ OrderingSpelled syncer stores routes := by
  obtain ⟨result, hresult, -⟩ := h.stored
  have hreturned := LeaseWebOrderingCatalogSyncer.returned_of_result hresult
  constructor
  · intro hround supply hchosen hsold
    obtain ⟨update, hupdate⟩ := exists_update (hreturned.aggregates.fits supply hchosen)
    have hmem := (hreturned.writes ⟨supply, update⟩).mpr ⟨hchosen, hupdate⟩
    have havailable : update.providerAvailable = true := by
      rw [(Supply.specOf_of_update hupdate).available, hsold]
      rfl
    exact (keptAndFound_iff_of_sold h hresult hmem havailable).mp
      (hround result hresult _ hmem havailable)
  · intro hspelled same hsame write hwrite havailable
    refine (keptAndFound_iff_of_sold h hsame hwrite havailable).mpr ?_
    obtain ⟨hchosen, hupdate⟩ := (hreturned.writes write).mp hwrite
    refine hspelled write.supply hchosen ?_
    rw [(Supply.specOf_of_update hupdate).available] at havailable
    simpa using havailable

end Monthly

/-! ### Both syncs -/

/-- Clean runs of both syncs keep and find what they put on sale exactly if the ids of the accounts
that they sell through have no upper-case letter. -/
theorem roundTrips_iff {hourly : LeasewebHourlyCloudSyncer} {hourlyStores : SyncStores}
    {monthly : LeaseWebOrderingCatalogSyncer} {stores : OrderingStores} {offers : OfferTable}
    {routes : RouteTable} (hhourly : HourlyClean hourly hourlyStores offers)
    (hmonthly : OrderingClean monthly stores offers routes) :
    (HourlyRoundTrips hourly hourlyStores offers ↔ HourlySpelled hourly hourlyStores offers) ∧
      (OrderingRoundTrips monthly stores offers routes ↔ OrderingSpelled monthly stores routes) :=
  ⟨hourlyRoundTrips_iff hhourly, orderingRoundTrips_iff hmonthly⟩

/-! ### An upper-case id -/

def mediumType : CloudInstanceType where
  id := "lsw.c3.large"
  name := "C3 large"
  vcpu := 2
  ramGb := 4
  diskGb := 40
  hourlyCostMinor := 2
  currency := "EUR"
  hourlyRateExact := "0.0165"

/-- One account, by its id, which lists one hourly type with usable images. -/
def hourlyOf (accountId : String) : LeasewebHourlyCloudSyncer where
  accounts := [⟨accountId, .ok [⟨"eu-west-3", .ok [mediumType], .ok ["ubuntu-24.04"]⟩]⟩]

def mediumProduct : LeasewebProduct where
  id := "vps-medium"
  name := "VPS Medium"
  location := "FRA-01"
  vcpu := 2
  ramGb := 4
  diskGb := 40
  currency := "EUR"
  monthlyPriceMinor := 899

/-- One account, by its id, which sells one monthly product at FRA-01. -/
def orderingAccountOf (accountId : String) : OrderingAccount where
  accountId := accountId
  probeLocation := fun location ↦
    .ok { eligibility := if location = "FRA-01" then .eligibleAvailable else .ineligibleAccount
          products := if location = "FRA-01" then [mediumProduct] else [] }
  getProduct := fun _ _ ↦ .error .other
  reach := []
  announces := fun location probe h ↦ by
    obtain rfl := Except.ok.inj h
    exact fun _ hextra ↦ nomatch hextra
  sells := fun _ _ _ h ↦ nomatch h

def monthlyOf (accountId : String) (hspelled : strip accountId = accountId)
    (hne : accountId ≠ "") : LeaseWebOrderingCatalogSyncer where
  accounts := [orderingAccountOf accountId]
  ordered := List.pairwise_singleton _ _
  spelled := List.forall_mem_singleton.mpr ⟨hspelled, hne⟩

def noOffers : OfferTable := ⟨[], List.nodup_nil⟩

def noRoutes : RouteTable := ⟨[], List.nodup_nil⟩

theorem exists_of_toOption_map {α β : Type} {x : Result α} {f : α → β} {value : β}
    (h : x.toOption.map f = some value) : ∃ result, x = .ok result ∧ f result = value := by
  cases x with
  | error raised => cases h
  | ok result => exact ⟨result, rfl, Option.some.inj h⟩

theorem hourlyClean_north : HourlyClean (hourlyOf "north") {} noOffers :=
  ⟨by decide +kernel, exists_of_toOption_map (by decide +kernel)⟩

def northMonthly : LeaseWebOrderingCatalogSyncer :=
  monthlyOf "north" (by decide +kernel) (by decide)

theorem orderingClean_north : OrderingClean northMonthly {} noOffers noRoutes :=
  ⟨by decide +kernel, exists_of_toOption_map (by decide +kernel)⟩

/-- The runs of one account with a lower-case id. -/
theorem roundTrips_north :
    (HourlyRoundTrips (hourlyOf "north") {} noOffers ↔
        HourlySpelled (hourlyOf "north") {} noOffers) ∧
      (OrderingRoundTrips northMonthly {} noOffers noRoutes ↔
        OrderingSpelled northMonthly {} noRoutes) :=
  roundTrips_iff hourlyClean_north orderingClean_north

theorem hourlyClean_upperCase : HourlyClean (hourlyOf "North") {} noOffers :=
  ⟨by decide +kernel, exists_of_toOption_map (by decide +kernel)⟩

def upperMonthly : LeaseWebOrderingCatalogSyncer :=
  monthlyOf "North" (by decide +kernel) (by decide)

theorem orderingClean_upperCase : OrderingClean upperMonthly {} noOffers noRoutes :=
  ⟨by decide +kernel, exists_of_toOption_map (by decide +kernel)⟩

/-- The clean runs of one account with an upper-case id retire what they put on sale. -/
theorem upperCase_lost :
    (HourlyClean (hourlyOf "North") {} noOffers ∧
        ¬ HourlyRoundTrips (hourlyOf "North") {} noOffers) ∧
      OrderingClean upperMonthly {} noOffers noRoutes ∧
        ¬ OrderingRoundTrips upperMonthly {} noOffers noRoutes := by
  refine ⟨⟨hourlyClean_upperCase, ?_⟩, orderingClean_upperCase, ?_⟩
  · intro h
    obtain ⟨result, hresult, -⟩ := hourlyClean_upperCase.stored
    have hsold : ∃ write ∈ ((hourlyOf "North").syncAll {} noOffers).writes,
        write.update.providerAvailable = true ∧
          ∀ row ∈ ((hourlyOf "North").syncAll {} noOffers).offers.get (hourlyKey write.pair),
            row.providerAvailable = false := by
      decide +kernel
    obtain ⟨write, hmem, havailable, hretired⟩ := hsold
    obtain ⟨row, hrow, hkept⟩ := (h result hresult write hmem havailable).kept
    rw [hretired row hrow] at hkept
    cases hkept
  · intro h
    obtain ⟨result, hresult, -⟩ := orderingClean_upperCase.stored
    have hsold : ∃ write ∈ (upperMonthly.syncProducts {} noOffers noRoutes).writes,
        write.update.providerAvailable = true ∧
          ∀ row ∈ (upperMonthly.syncProducts {} noOffers noRoutes).offers.get
            (monthlyKey write.supply.pair), row.providerAvailable = false := by
      decide +kernel
    obtain ⟨write, hmem, havailable, hretired⟩ := hsold
    obtain ⟨row, hrow, hkept⟩ := (h result hresult write hmem havailable).kept
    rw [hretired row hrow] at hkept
    cases hkept

end CloudPlatform.Leaseweb
