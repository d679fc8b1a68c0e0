import CloudPlatform.Core.Lists
import CloudPlatform.Leaseweb.OrderingSync
import CloudPlatform.Offers.Upserts

/-!
# Runs of the ordering sync

What a run of `sync_products` comes to. Its upserts are a ledger that the catalog replays, also when
an exception ends it. A run that comes to its end has written the first supply of every product at
every probed location, and what it notes of each depends on the row of that product alone.
-/

namespace CloudPlatform.Leaseweb

open Offers ProviderRoutes
open Rows (Table)

/-- The reference of a pair's monthly offer. -/
def monthlyKey (pair : Pair) : OfferKey :=
  ⟨providerKey, pair.1, pair.2, billingModelMonthly⟩

theorem monthlyKey_injective : Function.Injective monthlyKey := by
  intro first second h
  injection h with _ hproduct hlocation
  exact Prod.ext hproduct hlocation

/-! ### Updates of supplies -/

namespace Supply

variable {supply : Supply} {update : OfferSpecUpdate}

/-- What is known of the update of a supply. -/
structure SpecOf (supply : Supply) (update : OfferSpecUpdate) : Prop where
  billingModel : update.billingModel = none
  available : update.providerAvailable = !supply.gone
  account : update.providerAccountId = some (strip supply.account.accountId)
  account_ne : strip supply.account.accountId ≠ ""
  conclusive : update.providerObservationInconclusive = false
  currency : update.providerCostCurrency ∈ auditedCurrencies

theorem specOf_of_update (h : supply.update = .ok update) : supply.SpecOf update := by
  unfold Supply.update at h
  by_cases hgone : supply.gone = true
  · simp only [if_pos hgone, goneUpdate, OfferSpecUpdate.construct, checkInteger,
      rejectIf_bind_eq_ok, pure_eq_ok] at h
    obtain ⟨-, -, -, -, -, haccount, hcurrency, rfl⟩ := h
    exact ⟨rfl, by simp [hgone], rfl, by simpa using haccount, rfl, by simpa using hcurrency⟩
  · simp only [if_neg hgone, soldUpdate, OfferSpecUpdate.construct, checkInteger,
      rejectIf_bind_eq_ok, pure_eq_ok] at h
    obtain ⟨-, -, -, -, -, haccount, hcurrency, rfl⟩ := h
    exact ⟨rfl, by simp [hgone], rfl, by simpa using haccount, rfl, by simpa using hcurrency⟩

theorem SpecOf.key_eq (h : supply.SpecOf update) :
    update.key providerKey supply.product.id supply.location = monthlyKey supply.pair := by
  rw [OfferSpecUpdate.key, h.billingModel]
  rfl

/-- An audited currency is never blank. -/
theorem SpecOf.currency_ne (h : supply.SpecOf update) : strip update.providerCostCurrency ≠ "" := by
  have hcurrency := h.currency
  revert hcurrency
  generalize update.providerCostCurrency = currency
  revert currency
  decide +kernel

end Supply

/-! ### The ledger of a run -/

/-- What the upsert of a write leaves at the reference of its pair. -/
def OrderingWrite.lands (write : OrderingWrite) (fault : Option Raised) (before : Option OfferRow) :
    Option OfferRow :=
  if fault.isSome then before
  else landed before (monthlyKey write.supply.pair) write.update
    (some write.supply.account.accountId)

theorem OrderingWrite.get_upsert {write : OrderingWrite}
    (hwrite : write.supply.update = .ok write.update) (fault : Option Raised) (offers : OfferTable)
    (key : OfferKey) : (write.upsert fault offers).2.get key =
      if monthlyKey write.supply.pair = key then write.lands fault (offers.get key)
      else offers.get key := by
  cases fault with
  | some raised => exact (ite_self _).symm
  | none =>
    change Table.get (upsertFromProvider offers providerKey write.supply.product.id
      write.supply.location write.update (some write.supply.account.accountId)).2 key = _
    rw [get_upsertFromProvider, (Supply.specOf_of_update hwrite).key_eq]
    by_cases hkey : monthlyKey write.supply.pair = key
    · subst hkey
      rw [if_pos rfl, if_pos rfl, OrderingWrite.lands]
      exact (if_neg Bool.false_ne_true).symm
    · rw [if_neg hkey, if_neg hkey]

/-- The catalog after a list of writes. -/
def replay (stores : OrderingStores) (offers : OfferTable) (writes : List OrderingWrite) :
    OfferTable :=
  writes.foldl (fun table write ↦
    (write.upsert (stores.upsertFault write.supply.pair) table).2) offers

/-- The writes of a run are its ledger: the catalog is what they make of the one before, and each is
of the update of its supply. -/
structure Ledger (stores : OrderingStores) (offers : OfferTable) (run : OrderingRun) : Prop where
  offers_eq : run.offers = replay stores offers run.writes
  updates : ∀ write ∈ run.writes, write.supply.update = .ok write.update

section Ledger

variable {stores : OrderingStores} {offers : OfferTable} {run : OrderingRun}

/-- A write whose update has a currency is called. -/
theorem called_writeOffer (stores : OrderingStores) (run : OrderingRun) {write : OrderingWrite}
    (hwrite : write.supply.update = .ok write.update) :
    (run.writeOffer stores write).writes = run.writes ++ [write] ∧
      (run.writeOffer stores write).offers =
        (write.upsert (stores.upsertFault write.supply.pair) run.offers).2 ∧
      (run.writeOffer stores write).available = run.available := by
  unfold OrderingRun.writeOffer
  rw [if_neg (Supply.specOf_of_update hwrite).currency_ne]
  dsimp only
  split
  · exact ⟨rfl, rfl, rfl⟩
  · split <;> exact ⟨rfl, rfl, rfl⟩

theorem Ledger.start (stores : OrderingStores) (offers : OfferTable) :
    Ledger stores offers { offers := offers } :=
  ⟨rfl, fun _ h ↦ nomatch h⟩

theorem Ledger.supply (h : Ledger stores offers run) (supply : Supply) :
    Ledger stores offers (run.supply stores supply).1 := by
  unfold OrderingRun.supply
  by_cases hsupplied : supply.pair ∈ run.available
  · rw [if_pos hsupplied]
    exact h
  · rw [if_neg hsupplied]
    cases hupdate : supply.update with
    | error raised => exact ⟨h.offers_eq, h.updates⟩
    | ok update =>
      let write : OrderingWrite := ⟨supply, update⟩
      have hwrite : write.supply.update = .ok write.update := hupdate
      obtain ⟨hwrites, hoffers, -⟩ := called_writeOffer stores
        { run with available := run.available ++ [supply.pair] } hwrite
      constructor
      · rw [hoffers, hwrites, replay, List.foldl_append]
        change _ = ((⟨supply, update⟩ : OrderingWrite).upsert _ (replay stores offers run.writes)).2
        rw [← h.offers_eq]
      · rw [hwrites]
        exact List.forall_mem_append.mpr ⟨h.updates, List.forall_mem_singleton.mpr hwrite⟩

theorem Ledger.supplyAll (supplies : List Supply) {run : OrderingRun}
    (h : Ledger stores offers run) : Ledger stores offers (run.supplyAll stores supplies).1 := by
  induction supplies generalizing run with
  | nil => exact h
  | cons supply rest ih =>
    have hfirst := h.supply supply
    rw [OrderingRun.supplyAll]
    generalize run.supply stores supply = supplied at hfirst
    obtain ⟨after, _ | raised⟩ := supplied
    · exact ih hfirst
    · exact hfirst

theorem Ledger.aggregate (syncer : LeaseWebOrderingCatalogSyncer) (prior : List ProviderRoute)
    (discoveries : List Discovered) (locations : List String) {run : OrderingRun}
    (h : Ledger stores offers run) :
    Ledger stores offers (syncer.aggregate stores prior discoveries run locations).1 := by
  induction locations generalizing run with
  | nil => exact h
  | cons location rest ih =>
    have hfirst := h.supplyAll (syncer.suppliesAt prior discoveries location)
    rw [LeaseWebOrderingCatalogSyncer.aggregate]
    generalize run.supplyAll stores (syncer.suppliesAt prior discoveries location) = supplied
      at hfirst
    obtain ⟨after, _ | raised⟩ := supplied
    · dsimp only
      split
      · exact ih hfirst
      · exact hfirst
    · exact hfirst

/-- What a reference reads after a list of writes. -/
theorem get_replay {writes : List OrderingWrite}
    (hwrites : ∀ write ∈ writes, write.supply.update = .ok write.update) (pair : Pair)
    (offers : OfferTable) : (replay stores offers writes).get (monthlyKey pair) =
      (writes.filter (·.supply.pair = pair)).foldl
        (fun row write ↦ write.lands (stores.upsertFault write.supply.pair) row)
        (offers.get (monthlyKey pair)) := by
  have hget := Table.get_foldl_filter (fun write hwrite table key ↦
    OrderingWrite.get_upsert (hwrites write hwrite) (stores.upsertFault write.supply.pair) table
      key) (monthlyKey pair) offers
  have hfilter : (writes.filter fun write ↦ monthlyKey write.supply.pair = monthlyKey pair) =
      writes.filter (·.supply.pair = pair) :=
    congrArg (List.filter · writes)
      (funext fun write ↦ decide_eq_decide.mpr monthlyKey_injective.eq_iff)
  rw [hfilter] at hget
  exact hget

end Ledger

/-! ### Runs that come to their end -/

/-- The exception of the update of a supply. -/
def Supply.unfit (supply : Supply) : Option Raised :=
  match supply.update with
  | .error raised => some raised
  | .ok _ => none

/-- The run after a supply that no earlier account made. -/
def OrderingRun.record (stores : OrderingStores) (run : OrderingRun) (supply : Supply) :
    OrderingRun :=
  let noted := { run with available := run.available ++ [supply.pair] }
  match supply.update with
  | .error _ => noted
  | .ok update => noted.writeOffer stores ⟨supply, update⟩

section Recording

variable {run : OrderingRun} {supply : Supply} {supplies : List Supply}

variable (stores : OrderingStores)

theorem supply_eq (run : OrderingRun) (supply : Supply) :
    run.supply stores supply = if supply.pair ∈ run.available then (run, none)
      else (run.record stores supply, supply.unfit) := by
  unfold OrderingRun.supply OrderingRun.record Supply.unfit
  cases supply.update <;> rfl

theorem available_record (run : OrderingRun) (supply : Supply) :
    (run.record stores supply).available = run.available ++ [supply.pair] := by
  unfold OrderingRun.record
  cases hupdate : supply.update with
  | error raised => rfl
  | ok update =>
    let write : OrderingWrite := ⟨supply, update⟩
    have hwrite : write.supply.update = .ok write.update := hupdate
    exact (called_writeOffer stores { run with available := run.available ++ [supply.pair] }
      hwrite).2.2

theorem available_foldl_record (supplies : List Supply) (run : OrderingRun) :
    (supplies.foldl (OrderingRun.record stores) run).available =
      run.available ++ supplies.map Supply.pair := by
  induction supplies generalizing run with
  | nil => exact (List.append_nil _).symm
  | cons supply rest ih =>
    rw [List.foldl_cons, ih, available_record, List.append_assoc]
    rfl

/-- The supplies that a run takes of a list: the first of every pair that it has not yet. -/
def OrderingRun.taken (run : OrderingRun) (supplies : List Supply) : List Supply :=
  firstBy Supply.pair (supplies.filter (·.pair ∉ run.available))

theorem taken_cons_of_mem {rest : List Supply} (h : supply.pair ∈ run.available) :
    run.taken (supply :: rest) = run.taken rest := by
  rw [OrderingRun.taken, List.filter_cons_of_neg (by simpa using h), OrderingRun.taken]

theorem taken_cons_of_notMem {rest : List Supply} (h : supply.pair ∉ run.available) :
    run.taken (supply :: rest) = supply :: (run.record stores supply).taken rest := by
  rw [OrderingRun.taken, List.filter_cons_of_pos (by simpa using h), firstBy_cons,
    List.filter_filter, OrderingRun.taken, available_record]
  refine congrArg (fun kept ↦ supply :: firstBy Supply.pair kept) (List.filter_congr ?_)
  intro other _
  rw [Bool.eq_iff_iff]
  simp only [ne_eq, Bool.and_eq_true, decide_eq_true_eq, List.mem_append, List.mem_singleton]
  tauto

/-- The supplies of a location in closed form. -/
theorem supplyAll_eq (supplies : List Supply) (run : OrderingRun) :
    ((run.supplyAll stores supplies).2 = none ↔
        ∀ supply ∈ run.taken supplies, supply.unfit = none) ∧
      ((run.supplyAll stores supplies).2 = none → (run.supplyAll stores supplies).1 =
        (run.taken supplies).foldl (OrderingRun.record stores) run) := by
  induction supplies generalizing run with
  | nil => exact ⟨by simp [OrderingRun.supplyAll, OrderingRun.taken], fun _ ↦ rfl⟩
  | cons supply rest ih =>
    rw [OrderingRun.supplyAll, supply_eq]
    by_cases hsupplied : supply.pair ∈ run.available
    · rw [if_pos hsupplied, taken_cons_of_mem hsupplied]
      exact ih run
    · rw [if_neg hsupplied, taken_cons_of_notMem stores hsupplied]
      cases hunfit : supply.unfit with
      | some raised => exact ⟨by simp [hunfit], fun h ↦ by cases h⟩
      | none =>
        dsimp only
        rw [List.forall_mem_cons, and_iff_right hunfit, List.foldl_cons]
        exact ih (run.record stores supply)

end Recording

/-! ### What a run notes of its supplies -/

/-- The store takes the upsert of a supply, given the row of its pair. -/
def Supply.accepted (supply : Supply) (stores : OrderingStores) (before : Option OfferRow) : Bool :=
  match supply.update with
  | .error _ => false
  | .ok update => (stores.upsertFault supply.pair).isNone &&
      (observedRow before.toList (monthlyKey supply.pair) update (some supply.account.accountId) >>=
        OfferRow.toDomain).isOk

/-- The catalog takes the upsert of a supply. -/
def Supply.storedIn (supply : Supply) (stores : OrderingStores) (offers : OfferTable) : Bool :=
  supply.accepted stores (offers.get (monthlyKey supply.pair))

/-- The catalog takes the upsert of a supply that is sold. -/
def Supply.verifiedIn (supply : Supply) (stores : OrderingStores) (offers : OfferTable) : Bool :=
  supply.storedIn stores offers && !supply.gone

/-- What is known of the run after a supply. -/
structure Recorded (stores : OrderingStores) (run : OrderingRun) (supply : Supply)
    (update : OfferSpecUpdate) (after : OrderingRun) : Prop where
  writes : after.writes = run.writes ++ [⟨supply, update⟩]
  failures : after.persistenceFailures = [] ↔
    run.persistenceFailures = [] ∧ supply.storedIn stores run.offers = true
  verified : after.verifiedAccounts = run.verifiedAccounts ++
    if supply.verifiedIn stores run.offers then [supply.triple] else []
  lands : after.offers.get (monthlyKey supply.pair) =
    (⟨supply, update⟩ : OrderingWrite).lands (stores.upsertFault supply.pair)
      (run.offers.get (monthlyKey supply.pair))
  others : ∀ key, monthlyKey supply.pair ≠ key → after.offers.get key = run.offers.get key

/-- What is known of the run after supplies of distinct pairs, all of which fit. -/
structure RecordedAll (stores : OrderingStores) (run : OrderingRun) (supplies : List Supply)
    (after : OrderingRun) : Prop where
  writes : ∀ write, write ∈ after.writes ↔ write ∈ run.writes ∨
    write.supply ∈ supplies ∧ write.supply.update = .ok write.update
  failures : after.persistenceFailures = [] ↔ run.persistenceFailures = [] ∧
    ∀ supply ∈ supplies, supply.storedIn stores run.offers = true
  verified : after.verifiedAccounts = run.verifiedAccounts ++
    (supplies.filter (·.verifiedIn stores run.offers)).map Supply.triple
  lands : ∀ supply ∈ supplies, ∀ update, supply.update = .ok update →
    after.offers.get (monthlyKey supply.pair) =
      (⟨supply, update⟩ : OrderingWrite).lands (stores.upsertFault supply.pair)
        (run.offers.get (monthlyKey supply.pair))
  others : ∀ key, (∀ supply ∈ supplies, monthlyKey supply.pair ≠ key) →
    after.offers.get key = run.offers.get key

section Notes

variable {stores : OrderingStores} {run : OrderingRun} {supply : Supply} {update : OfferSpecUpdate}

theorem accepted_eq (hupdate : supply.update = .ok update) (before : Option OfferRow) :
    supply.accepted stores before = ((stores.upsertFault supply.pair).isNone &&
      (observedRow before.toList (monthlyKey supply.pair) update (some supply.account.accountId) >>=
        OfferRow.toDomain).isOk) := by
  rw [Supply.accepted, hupdate]

theorem isOk_upsert (hupdate : supply.update = .ok update) (offers : OfferTable) :
    ((⟨supply, update⟩ : OrderingWrite).upsert (stores.upsertFault supply.pair) offers).1.isOk =
      supply.storedIn stores offers := by
  rw [Supply.storedIn, accepted_eq hupdate]
  cases stores.upsertFault supply.pair with
  | some raised => exact (Bool.false_and _).symm
  | none =>
    have hfirst := fst_upsertFromProvider offers providerKey supply.product.id supply.location
      update (some supply.account.accountId)
    rw [(Supply.specOf_of_update hupdate).key_eq] at hfirst
    rw [Option.isNone_none, Bool.true_and, ← hfirst]
    rfl

variable (stores : OrderingStores)

/-- What a called write adds to the notes. -/
theorem noted_writeOffer (run : OrderingRun) {write : OrderingWrite}
    (hwrite : write.supply.update = .ok write.update) :
    let accepted := (write.upsert (stores.upsertFault write.supply.pair) run.offers).1.isOk
    ((run.writeOffer stores write).persistenceFailures = [] ↔
        run.persistenceFailures = [] ∧ accepted = true) ∧
      (run.writeOffer stores write).verifiedAccounts = run.verifiedAccounts ++
        if accepted && !write.supply.gone then [write.supply.triple] else [] := by
  unfold OrderingRun.writeOffer
  rw [if_neg (Supply.specOf_of_update hwrite).currency_ne]
  dsimp only
  split
  · rename_i raised hraised
    rw [hraised]
    simp [Except.isOk, Except.toBool]
  · rename_i row hrow
    rw [hrow]
    by_cases hgone : write.supply.gone = true
    · simp [hgone, Except.isOk, Except.toBool]
    · simp [hgone, Except.isOk, Except.toBool]

theorem recorded_record (run : OrderingRun) (hupdate : supply.update = .ok update) :
    Recorded stores run supply update (run.record stores supply) := by
  let write : OrderingWrite := ⟨supply, update⟩
  have hwrite : write.supply.update = .ok write.update := hupdate
  let noted := { run with available := run.available ++ [supply.pair] }
  have hrecord : run.record stores supply = noted.writeOffer stores write := by
    rw [OrderingRun.record, hupdate]
  obtain ⟨hwrites, hoffers, -⟩ := called_writeOffer stores noted hwrite
  obtain ⟨hfailures, hverified⟩ := noted_writeOffer stores noted hwrite
  rw [isOk_upsert hupdate] at hfailures hverified
  rw [hrecord]
  refine ⟨hwrites, hfailures, hverified, ?_, fun key hkey ↦ ?_⟩
  · rw [hoffers, OrderingWrite.get_upsert hwrite, if_pos rfl]
  · rw [hoffers, OrderingWrite.get_upsert hwrite, if_neg hkey]

theorem exists_update (hfits : supply.unfit = none) : ∃ update, supply.update = .ok update := by
  unfold Supply.unfit at hfits
  cases hupdate : supply.update with
  | ok update => exact ⟨update, rfl⟩
  | error raised =>
    rw [hupdate] at hfits
    cases hfits

theorem recordedAll_foldl {supplies : List Supply} (hnodup : (supplies.map Supply.pair).Nodup)
    (hfits : ∀ supply ∈ supplies, supply.unfit = none) (run : OrderingRun) :
    RecordedAll stores run supplies (supplies.foldl (OrderingRun.record stores) run) := by
  induction supplies generalizing run with
  | nil =>
    exact ⟨by simp, by simp, (List.append_nil _).symm,
      fun supply hsupply ↦ absurd hsupply List.not_mem_nil, fun _ _ ↦ rfl⟩
  | cons supply rest ih =>
    obtain ⟨hfirst, hrest⟩ := List.forall_mem_cons.mp hfits
    rw [List.map_cons, List.nodup_cons] at hnodup
    obtain ⟨update, hupdate⟩ := exists_update hfirst
    have hrecorded := recorded_record stores run hupdate
    -- The later supplies are of other pairs, whose rows this one leaves.
    have hkeys (other : Supply) (hother : other ∈ rest) :
        monthlyKey supply.pair ≠ monthlyKey other.pair := by
      intro heq
      refine hnodup.1 ?_
      rw [monthlyKey_injective heq]
      exact List.mem_map_of_mem hother
    have hstored (other : Supply) (hother : other ∈ rest) :
        other.storedIn stores (run.record stores supply).offers =
          other.storedIn stores run.offers := by
      rw [Supply.storedIn, Supply.storedIn, hrecorded.others _ (hkeys other hother)]
    have hverified (other : Supply) (hother : other ∈ rest) :
        other.verifiedIn stores (run.record stores supply).offers =
          other.verifiedIn stores run.offers := by
      rw [Supply.verifiedIn, Supply.verifiedIn, hstored other hother]
    have hafter := ih hnodup.2 hrest (run.record stores supply)
    rw [List.foldl_cons]
    refine ⟨fun write ↦ ?_, ?_, ?_, List.forall_mem_cons.mpr ⟨?_, ?_⟩, fun key hkey ↦ ?_⟩
    · have hhead : write = ⟨supply, update⟩ ↔
          write.supply = supply ∧ write.supply.update = .ok write.update := by
        constructor
        · rintro rfl
          exact ⟨rfl, hupdate⟩
        · rintro ⟨rfl, hwrite⟩
          rw [Except.ok.inj (hupdate.symm.trans hwrite)]
      rw [hafter.writes, hrecorded.writes, List.mem_append, List.mem_singleton, hhead,
        List.mem_cons, or_assoc, or_and_right]
    · rw [hafter.failures, hrecorded.failures, List.forall_mem_cons, and_assoc]
      refine and_congr_right fun _ ↦ and_congr_right fun _ ↦ ?_
      exact forall₂_congr fun other hother ↦ by rw [hstored other hother]
    · rw [hafter.verified, hrecorded.verified, List.append_assoc,
        List.filter_congr hverified, List.filter_cons]
      refine congrArg (run.verifiedAccounts ++ ·) ?_
      by_cases hnoted : supply.verifiedIn stores run.offers = true
      · rw [if_pos hnoted, if_pos hnoted]
        rfl
      · rw [if_neg hnoted, if_neg hnoted]
        rfl
    · intro same hsame
      obtain rfl := Except.ok.inj (hupdate.symm.trans hsame)
      rw [hafter.others _ fun other hother ↦ (hkeys other hother).symm, hrecorded.lands]
    · intro other hother otherUpdate hotherUpdate
      rw [hafter.lands other hother otherUpdate hotherUpdate,
        hrecorded.others _ (hkeys other hother)]
    · obtain ⟨hhead, htail⟩ := List.forall_mem_cons.mp hkey
      rw [hafter.others key htail, hrecorded.others key hhead]

end Notes

/-! ### The supplies that a run takes -/

namespace LeaseWebOrderingCatalogSyncer

variable (syncer : LeaseWebOrderingCatalogSyncer) (prior : List ProviderRoute)
  (discoveries : List Discovered)

/-- The first supply of every product at a location. -/
def chosenAt (location : String) : List Supply :=
  firstBy Supply.pair (syncer.suppliesAt prior discoveries location)

/-- The supplies that a run takes at its locations. -/
def chosen : List Supply :=
  (candidateLocations discoveries).flatMap (syncer.chosenAt prior discoveries)

/-- The aggregation comes to its end: every supply fits, and every announced location was probed by
some account. -/
structure Aggregates : Prop where
  fits : ∀ supply ∈ syncer.chosen prior discoveries, supply.unfit = none
  announced : ∀ location ∈ candidateLocations discoveries,
    ∀ extra ∈ discoveredExtras discoveries location, extra ∈ candidateLocations discoveries

variable {syncer prior discoveries} {location : String} {supply : Supply}

theorem location_of_mem_suppliesAt (h : supply ∈ syncer.suppliesAt prior discoveries location) :
    supply.location = location := by
  obtain ⟨discovered, -, hproduct⟩ := List.mem_flatMap.mp h
  obtain ⟨product, -, rfl⟩ := List.mem_map.mp hproduct
  rfl

theorem mem_chosenAt_of_mem_chosen (h : supply ∈ syncer.chosen prior discoveries) :
    supply ∈ syncer.chosenAt prior discoveries supply.location := by
  obtain ⟨location, -, hchosen⟩ := List.mem_flatMap.mp h
  rwa [location_of_mem_suppliesAt (mem_of_mem_firstBy hchosen)]

/-- The aggregation over locations that are not supplied yet, in closed form. -/
theorem aggregate_eq (stores : OrderingStores) {locations : List String} (hnodup : locations.Nodup)
    {run : OrderingRun} (hfresh : ∀ pair ∈ run.available, pair.2 ∉ locations) :
    ((syncer.aggregate stores prior discoveries run locations).2 = none ↔ ∀ location ∈ locations,
          (∀ supply ∈ syncer.chosenAt prior discoveries location, supply.unfit = none) ∧
          ∀ extra ∈ discoveredExtras discoveries location, extra ∈ candidateLocations discoveries) ∧
      ((syncer.aggregate stores prior discoveries run locations).2 = none →
        (syncer.aggregate stores prior discoveries run locations).1 =
          (locations.flatMap (syncer.chosenAt prior discoveries)).foldl
            (OrderingRun.record stores) run) := by
  induction locations generalizing run with
  | nil => exact ⟨by simp [aggregate], fun _ ↦ rfl⟩
  | cons location rest ih =>
    obtain ⟨hlocation, hrest⟩ := List.nodup_cons.mp hnodup
    have htaken : run.taken (syncer.suppliesAt prior discoveries location) =
        syncer.chosenAt prior discoveries location := by
      rw [OrderingRun.taken, List.filter_eq_self.mpr fun supply hsupply ↦ ?_, chosenAt]
      rw [decide_eq_true_iff]
      intro hmem
      refine hfresh supply.pair hmem ?_
      rw [Supply.pair, location_of_mem_suppliesAt hsupply]
      exact List.mem_cons_self
    obtain ⟨hend, hrun⟩ :=
      supplyAll_eq stores (syncer.suppliesAt prior discoveries location) run
    rw [htaken] at hend hrun
    rw [List.forall_mem_cons, and_assoc, aggregate]
    generalize run.supplyAll stores (syncer.suppliesAt prior discoveries location) = supplied
      at hend hrun
    obtain ⟨after, _ | raised⟩ := supplied
    · obtain rfl := hrun rfl
      rw [and_iff_right (hend.mp rfl)]
      dsimp only
      split
      · rename_i hannounced
        have hall : ∀ extra ∈ discoveredExtras discoveries location,
            extra ∈ candidateLocations discoveries := by simpa using hannounced
        rw [and_iff_right hall, List.flatMap_cons, List.foldl_append]
        refine ih hrest fun pair hpair hmem ↦ ?_
        rw [available_foldl_record, List.mem_append, List.mem_map] at hpair
        rcases hpair with hbefore | ⟨supply, hsupply, rfl⟩
        · exact hfresh pair hbefore (List.mem_cons_of_mem _ hmem)
        · rw [Supply.pair, location_of_mem_suppliesAt (mem_of_mem_firstBy hsupply)] at hmem
          exact hlocation hmem
      · rename_i hannounced
        exact ⟨⟨nofun, fun h ↦ absurd (by simpa using h.1) hannounced⟩, nofun⟩
    · exact ⟨⟨nofun, fun h ↦ nomatch hend.mpr h.1⟩, nofun⟩

theorem nodup_candidateLocations (discoveries : List Discovered) :
    (candidateLocations discoveries).Nodup :=
  nodup_eraseDups _

theorem nodup_chosen (syncer : LeaseWebOrderingCatalogSyncer) (prior : List ProviderRoute)
    (discoveries : List Discovered) :
    ((syncer.chosen prior discoveries).map Supply.pair).Nodup := by
  rw [chosen, List.map_flatMap, List.nodup_flatMap]
  refine ⟨fun location _ ↦ nodup_map_firstBy _, ?_⟩
  refine (nodup_candidateLocations discoveries).imp fun hne ↦ ?_
  rw [Function.onFun, List.disjoint_left]
  intro pair hfirst hsecond
  obtain ⟨supply, hsupply, rfl⟩ := List.mem_map.mp hfirst
  obtain ⟨other, hother, hpair⟩ := List.mem_map.mp hsecond
  refine hne ?_
  rw [← location_of_mem_suppliesAt (mem_of_mem_firstBy hsupply),
    ← location_of_mem_suppliesAt (mem_of_mem_firstBy hother)]
  exact (congrArg Prod.snd hpair).symm

/-! ### Probed locations -/

section Locations

variable {prior : List ProviderRoute} {discoveries : List Discovered} {location : String}

theorem probeAt_eq_none {discovery : AccountDiscovery} :
    discovery.probeAt location = none ↔ ∀ probe ∈ discovery.probes, probe.1 ≠ location := by
  rw [AccountDiscovery.probeAt, Option.map_eq_none_iff, List.find?_eq_none]
  simp

theorem mem_candidateLocations : location ∈ candidateLocations discoveries ↔
    ∃ discovered ∈ discoveries, discovered.discovery.probeAt location ≠ none := by
  rw [candidateLocations, List.mem_eraseDups, List.mem_flatMap]
  refine exists_congr fun discovered ↦ and_congr_right fun _ ↦ ?_
  rw [ne_eq, probeAt_eq_none, List.mem_map]
  simp

theorem mem_suppliesAt {supply : Supply} : supply ∈ syncer.suppliesAt prior discoveries location ↔
      ∃ discovered ∈ syncer.serving prior discoveries location,
        ∃ probe, discovered.discovery.probeAt location = some probe ∧
          ∃ product ∈ probe.products, supply = ⟨discovered.account, location, product⟩ := by
  rw [suppliesAt, List.mem_flatMap]
  refine exists_congr fun discovered ↦ and_congr_right fun _ ↦ ?_
  rw [List.mem_map]
  cases discovered.discovery.probeAt location with
  | none => simp
  | some probe => simp [eq_comm]

/-- The pairs that a run takes are those that some serving account supplies. -/
theorem exists_chosen_iff {pair : Pair} :
    (∃ supply ∈ syncer.chosen prior discoveries, supply.pair = pair) ↔
      ∃ supply ∈ syncer.suppliesAt prior discoveries pair.2, supply.product.id = pair.1 := by
  constructor
  · rintro ⟨supply, hsupply, rfl⟩
    exact ⟨supply, mem_of_mem_firstBy (mem_chosenAt_of_mem_chosen hsupply), rfl⟩
  · rintro ⟨supply, hsupply, hproduct⟩
    have hpair : supply.pair = pair :=
      Prod.ext hproduct (location_of_mem_suppliesAt hsupply)
    obtain ⟨first, hfirst, hkey⟩ :
        ∃ first ∈ syncer.chosenAt prior discoveries pair.2, first.pair = supply.pair :=
      exists_mem_firstBy hsupply
    obtain ⟨discovered, hserving, probe, hprobe, -⟩ := mem_suppliesAt.mp hsupply
    refine ⟨first, List.mem_flatMap.mpr ⟨pair.2, ?_, hfirst⟩, hkey.trans hpair⟩
    refine mem_candidateLocations.mpr ⟨discovered, List.mem_of_mem_filter hserving, ?_⟩
    rw [hprobe]
    exact Option.some_ne_none probe

end Locations

/-- Every account has one discovery, in the order of the accounts. -/
theorem map_account_discoverAll (stores : OrderingStores) (prior : List ProviderRoute)
    (rows : List String) (accounts : List OrderingAccount) :
    (discoverAll stores prior rows accounts).map Discovered.account = accounts := by
  induction accounts generalizing rows with
  | nil => rfl
  | cons account rest ih =>
    rw [discoverAll, List.map_cons, ih]

theorem account_mem_of_mem_discoveries {stores : OrderingStores} {routes : RouteTable}
    {discovered : Discovered} (h : discovered ∈ syncer.discoveries stores routes) :
    discovered.account ∈ syncer.accounts := by
  have hmem := List.mem_map_of_mem (f := Discovered.account) h
  rwa [discoveries, map_account_discoverAll] at hmem

theorem account_mem_of_mem_chosen {stores : OrderingStores} {routes : RouteTable} {supply : Supply}
    (h : supply ∈ syncer.chosen prior (syncer.discoveries stores routes)) :
    supply.account ∈ syncer.accounts := by
  obtain ⟨discovered, hserving, -, -, product, -, hsupply⟩ :=
    mem_suppliesAt.mp (mem_of_mem_firstBy (mem_chosenAt_of_mem_chosen h))
  rw [hsupply]
  exact account_mem_of_mem_discoveries (List.mem_of_mem_filter hserving)

/-! ### Outcomes -/

/-- The aggregation of a run. -/
def aggregated (syncer : LeaseWebOrderingCatalogSyncer) (stores : OrderingStores)
    (offers : OfferTable) (routes : RouteTable) : OrderingRun × Option Raised :=
  syncer.aggregate stores (stores.priorRoutes routes) (syncer.discoveries stores routes)
    { offers := offers } (candidateLocations (syncer.discoveries stores routes))

/-- The two ways of a run: an exception ends it, or it comes to its end. -/
inductive OrderedAs (syncer : LeaseWebOrderingCatalogSyncer) (stores : OrderingStores)
    (offers : OfferTable) (routes : RouteTable) : OrderingOutcome → Prop
  | interrupted (raised : Raised)
      (ends : ¬ syncer.Aggregates (stores.priorRoutes routes) (syncer.discoveries stores routes)) :
      OrderedAs syncer stores offers routes
        ⟨.error raised, (syncer.aggregated stores offers routes).1.offers, routes,
          (syncer.aggregated stores offers routes).1.writes⟩
  | finished
      (ends : syncer.Aggregates (stores.priorRoutes routes) (syncer.discoveries stores routes))
      (recorded : RecordedAll stores { offers := offers }
        (syncer.chosen (stores.priorRoutes routes) (syncer.discoveries stores routes))
        (syncer.aggregated stores offers routes).1) :
      OrderedAs syncer stores offers routes
        (syncer.finish stores (stores.currentRows offers) (stores.priorRoutes routes)
          (syncer.discoveries stores routes) (syncer.aggregated stores offers routes).1 routes)

variable (syncer : LeaseWebOrderingCatalogSyncer)

/-- The aggregation of a run in closed form. -/
theorem aggregated_eq (stores : OrderingStores) (offers : OfferTable) (routes : RouteTable) :
    ((syncer.aggregated stores offers routes).2 = none ↔
        syncer.Aggregates (stores.priorRoutes routes) (syncer.discoveries stores routes)) ∧
      ((syncer.aggregated stores offers routes).2 = none →
        (syncer.aggregated stores offers routes).1 =
          (syncer.chosen (stores.priorRoutes routes) (syncer.discoveries stores routes)).foldl
            (OrderingRun.record stores) { offers := offers }) := by
  have hfresh : ∀ pair ∈ ({ offers := offers } : OrderingRun).available,
      pair.2 ∉ candidateLocations (syncer.discoveries stores routes) := fun _ h ↦ nomatch h
  obtain ⟨hend, hrun⟩ := aggregate_eq stores (nodup_candidateLocations _) hfresh
  refine ⟨hend.trans ⟨fun h ↦ ⟨?_, fun location hlocation ↦ (h location hlocation).2⟩, ?_⟩, hrun⟩
  · intro supply hsupply
    obtain ⟨location, hlocation, hchosen⟩ := List.mem_flatMap.mp hsupply
    exact (h location hlocation).1 supply hchosen
  · intro h location hlocation
    refine ⟨fun supply hsupply ↦ ?_, h.announced location hlocation⟩
    exact h.fits supply (List.mem_flatMap.mpr ⟨location, hlocation, hsupply⟩)

theorem syncProducts_cases (stores : OrderingStores) (offers : OfferTable) (routes : RouteTable) :
    OrderedAs syncer stores offers routes (syncer.syncProducts stores offers routes) := by
  obtain ⟨hend, hrun⟩ := syncer.aggregated_eq stores offers routes
  have hsynced : syncer.syncProducts stores offers routes =
      (syncer.aggregated stores offers routes).2.elim
        (syncer.finish stores (stores.currentRows offers) (stores.priorRoutes routes)
          (syncer.discoveries stores routes) (syncer.aggregated stores offers routes).1 routes)
        fun raised ↦ ⟨.error raised, (syncer.aggregated stores offers routes).1.offers, routes,
          (syncer.aggregated stores offers routes).1.writes⟩ := by
    unfold LeaseWebOrderingCatalogSyncer.syncProducts
    dsimp only
    split
    · rename_i raised hraised
      rw [show (syncer.aggregated stores offers routes).2 = some raised from hraised]
      rfl
    · rename_i hnone
      rw [show (syncer.aggregated stores offers routes).2 = none from hnone]
      rfl
  rw [hsynced]
  cases haggregated : (syncer.aggregated stores offers routes).2 with
  | some raised =>
    refine .interrupted raised fun h ↦ ?_
    rw [hend.mpr h] at haggregated
    cases haggregated
  | none =>
    have hends := hend.mp haggregated
    refine .finished hends ?_
    rw [hrun haggregated]
    exact recordedAll_foldl stores (nodup_chosen syncer _ _) hends.fits _

theorem ledger_aggregated (stores : OrderingStores) (offers : OfferTable) (routes : RouteTable) :
    Ledger stores offers (syncer.aggregated stores offers routes).1 :=
  (Ledger.start stores offers).aggregate syncer _ _ _

/-! ### The end of a run -/

section Ends

variable {stores : OrderingStores} {current : Option (List OfferRow)} {run : OrderingRun}
  {routes : RouteTable}

/-- The routes that a run persists, and the exception that stopped it. -/
def persisted (syncer : LeaseWebOrderingCatalogSyncer) (stores : OrderingStores)
    (discoveries : List Discovered) (routes : RouteTable) : RouteTable × Option Raised :=
  upsertObservations providerKey syncer.priorityOf syncer.stateOf stores.routeFault routes
    (routeObservations discoveries)

/-- Nothing keeps the end of a run from its retirement. -/
structure MayRetire (syncer : LeaseWebOrderingCatalogSyncer) (stores : OrderingStores)
    (current : Option (List OfferRow)) (discoveries : List Discovered) (run : OrderingRun)
    (routes : RouteTable) : Prop where
  probed : ∃ discovered ∈ discoveries, discovered.discovery.probes ≠ []
  readable : current.isSome = true
  stored : run.persistenceFailures = []
  routed : (syncer.persisted stores discoveries routes).2 = none

/-- What is known of the end of a run. -/
structure EndsAs (syncer : LeaseWebOrderingCatalogSyncer) (stores : OrderingStores)
    (current : Option (List OfferRow)) (prior : List ProviderRoute)
    (discoveries : List Discovered) (run : OrderingRun) (routes : RouteTable)
    (outcome : OrderingOutcome) : Prop where
  writes : outcome.writes = run.writes
  persists : outcome.routes = (syncer.persisted stores discoveries routes).1
  result : ∃ result, outcome.result = .ok result ∧
    result.verifiedAccounts = run.verifiedAccounts ∧
    (result.persistenceFailures = [] ↔ run.persistenceFailures = [] ∧
      (syncer.persisted stores discoveries routes).2 = none ∧
      (syncer.MayRetire stores current discoveries run routes → stores.markFault = none))
  retired : syncer.MayRetire stores current discoveries run routes → stores.markFault = none →
    ∀ key, outcome.offers.get key = (run.offers.get key).map fun row ↦
      row.retire providerKey
        (run.verifiedAccounts ++
          preservedTriples (current.getD []) (syncer.resolved prior discoveries))
        (some billingModelMonthly) none
  kept : ¬ (syncer.MayRetire stores current discoveries run routes ∧ stores.markFault = none) →
    outcome.offers = run.offers

theorem failures_eq_nil {failures : List String} {raised : Option Raised} :
    failures ++ (raised.map fun raised ↦
        s!"provider routes write failed: {raised.message}").toList = [] ↔
      failures = [] ∧ raised = none := by
  rw [List.append_eq_nil_iff, Option.toList_eq_nil_iff, Option.map_eq_none_iff]

/-- An end without a retirement. -/
theorem endsAs_of_not_mayRetire {syncer : LeaseWebOrderingCatalogSyncer}
    {prior : List ProviderRoute} {discoveries : List Discovered} {result : SyncResult}
    (hnot : ¬ syncer.MayRetire stores current discoveries run routes)
    (hverified : result.verifiedAccounts = run.verifiedAccounts)
    (hfailures : result.persistenceFailures = [] ↔ run.persistenceFailures = [] ∧
      (syncer.persisted stores discoveries routes).2 = none) :
    EndsAs syncer stores current prior discoveries run routes
      ⟨.ok result, run.offers, (syncer.persisted stores discoveries routes).1, run.writes⟩ := by
  refine ⟨rfl, rfl, ⟨result, rfl, hverified, hfailures.trans ?_⟩, fun h ↦ absurd h hnot,
    fun _ ↦ rfl⟩
  exact ⟨fun h ↦ ⟨h.1, h.2, fun hmay ↦ absurd hmay hnot⟩, fun h ↦ ⟨h.1, h.2.1⟩⟩

theorem endsAs_finish (syncer : LeaseWebOrderingCatalogSyncer) (stores : OrderingStores)
    (current : Option (List OfferRow)) (prior : List ProviderRoute)
    (discoveries : List Discovered) (run : OrderingRun) (routes : RouteTable) :
    EndsAs syncer stores current prior discoveries run routes
      (syncer.finish stores current prior discoveries run routes) := by
  unfold finish
  dsimp only
  split
  · rename_i hempty
    refine endsAs_of_not_mayRetire (fun h ↦ ?_) rfl failures_eq_nil
    obtain ⟨discovered, hmem, hprobes⟩ := h.probed
    exact hprobes (List.isEmpty_iff.mp (List.all_eq_true.mp hempty discovered hmem))
  · rename_i hprobed
    split
    · exact endsAs_of_not_mayRetire (fun h ↦ nomatch h.readable) rfl failures_eq_nil
    · rename_i rows
      split
      · rename_i hfailures
        obtain ⟨hstored, hnone⟩ := failures_eq_nil.mp (List.isEmpty_iff.mp hfailures)
        have hrouted : (syncer.persisted stores discoveries routes).2 = none := hnone
        have hmay : syncer.MayRetire stores (some rows) discoveries run routes :=
          ⟨by simpa using hprobed, rfl, hstored, hrouted⟩
        cases hfault : stores.markFault with
        | some raised =>
          refine ⟨rfl, rfl, ⟨_, rfl, rfl, ?_⟩, fun _ hnone ↦ ?_, fun _ ↦ ?_⟩
          · simp [retireMonthly, hfault, hmay]
          · rw [hfault] at hnone
            cases hnone
          · simp [retireMonthly, hfault]
        | none =>
          refine ⟨rfl, rfl, ⟨_, rfl, rfl, ?_⟩, fun _ _ key ↦ ?_, fun hnot ↦ ?_⟩
          · simp [retireMonthly, hfault, hstored, hrouted]
          · simp only [retireMonthly, hfault]
            exact Table.get_update run.offers key
          · exact absurd ⟨hmay, hfault⟩ hnot
      · rename_i hfailures
        refine endsAs_of_not_mayRetire (fun h ↦ ?_) rfl failures_eq_nil
        exact hfailures (List.isEmpty_iff.mpr (failures_eq_nil.mpr ⟨h.stored, h.routed⟩))

end Ends

/-- What a run that returns has done. -/
structure Returned (syncer : LeaseWebOrderingCatalogSyncer) (stores : OrderingStores)
    (routes : RouteTable) (result : SyncResult) (outcome : OrderingOutcome) : Prop where
  aggregates : syncer.Aggregates (stores.priorRoutes routes) (syncer.discoveries stores routes)
  writes : ∀ write, write ∈ outcome.writes ↔
    write.supply ∈ syncer.chosen (stores.priorRoutes routes) (syncer.discoveries stores routes) ∧
      write.supply.update = .ok write.update
  persists : outcome.routes =
    (syncer.persisted stores (syncer.discoveries stores routes) routes).1
  routed : result.persistenceFailures = [] →
    (syncer.persisted stores (syncer.discoveries stores routes) routes).2 = none

theorem returned_of_result {syncer : LeaseWebOrderingCatalogSyncer} {stores : OrderingStores}
    {offers : OfferTable} {routes : RouteTable} {result : SyncResult}
    (hresult : (syncer.syncProducts stores offers routes).result = .ok result) :
    Returned syncer stores routes result (syncer.syncProducts stores offers routes) := by
  have hsynced := syncer.syncProducts_cases stores offers routes
  generalize syncer.syncProducts stores offers routes = outcome at hsynced hresult
  cases hsynced with
  | interrupted raised _ => cases hresult
  | finished hends hrecorded =>
    have hend := syncer.endsAs_finish stores (stores.currentRows offers)
      (stores.priorRoutes routes) (syncer.discoveries stores routes)
      (syncer.aggregated stores offers routes).1 routes
    obtain ⟨same, hsame, -, hfailures⟩ := hend.result
    obtain rfl := Except.ok.inj (hresult.symm.trans hsame)
    refine ⟨hends, fun write ↦ ?_, hend.persists, fun hnone ↦ (hfailures.mp hnone).2.1⟩
    rw [hend.writes, hrecorded.writes, or_iff_right List.not_mem_nil]

end LeaseWebOrderingCatalogSyncer

end CloudPlatform.Leaseweb
