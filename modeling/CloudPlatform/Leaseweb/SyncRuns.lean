import CloudPlatform.Core.Lists
import CloudPlatform.Leaseweb.CloudSync

/-!
# Runs of the hourly catalog sync

A run of `sync_all` in closed form: what its reads list, the write that it plans for each observed
pair, and the upserts that it calls, which are those of the pairs up to the first whose observation
does not fit its columns.
-/

namespace CloudPlatform.Leaseweb

open Offers Providers

/-! ### Reads -/

/-- The exception of an instance-types read that ends the run. -/
def RegionRead.interrupts (region : RegionRead) : Option Raised :=
  match region.types with
  | .error raised => if isProviderError raised.kind then none else some raised
  | .ok _ => none

/-- What an account lists at a region. -/
def RegionRead.observations (accountId : String) (region : RegionRead) : List Observation :=
  match region.types with
  | .error _ => []
  | .ok types => types.map fun item ↦
      ⟨accountId, region.regionId, imagesStateOf region.images, item⟩

/-- The regions that an account lists. -/
def AccountRead.listedRegions (account : AccountRead) : List RegionRead :=
  match account.regions with
  | .error _ => []
  | .ok regions => regions

def AccountRead.interrupts (account : AccountRead) : Option Raised :=
  account.listedRegions.findSome? RegionRead.interrupts

def AccountRead.observations (account : AccountRead) : List Observation :=
  account.listedRegions.flatMap (·.observations account.accountId)

namespace LeasewebHourlyCloudSyncer

/-- The regions that the run would read, each with its account, in order. -/
def regionReads (syncer : LeasewebHourlyCloudSyncer) : List (String × RegionRead) :=
  syncer.readAccounts.flatMap fun account ↦ account.listedRegions.map (account.accountId, ·)

/-- What the accounts list before a read ends the run. -/
def listed (syncer : LeasewebHourlyCloudSyncer) : List Observation :=
  (syncer.regionReads.takeWhile (·.2.interrupts.isNone)).flatMap fun read ↦
    read.2.observations read.1

/-- The exception of the read that ends the run. -/
def interrupted (syncer : LeasewebHourlyCloudSyncer) : Option Raised :=
  syncer.regionReads.findSome? (·.2.interrupts)

end LeasewebHourlyCloudSyncer

/-- What a region read adds when it does not end the run. -/
def Collected.addRegion (accountId : String) (collected : Collected) (region : RegionRead) :
    Collected :=
  match region.types with
  | .error raised => { collected with
      reports := collected.reports.put ⟨region.regionId, 0, some (typeName raised.kind)⟩
      accountFailed := true }
  | .ok _ => { collected with
      observations := collected.observations ++ region.observations accountId }

def Collected.addAccount (collected : Collected) (account : AccountRead) : Collected :=
  match account.regions with
  | .error raised => { collected with
      errors := collected.errors ++ [s!"regions[{account.accountId}]: {typeName raised.kind}"]
      accountFailed := true }
  | .ok regions => regions.foldl (Collected.addRegion account.accountId) collected

theorem readRegion_eq (accountId : String) (collected : Collected) (region : RegionRead) :
    collected.readRegion accountId region = match region.interrupts with
      | some raised => .error raised
      | none => .ok (collected.addRegion accountId region) := by
  rcases region with ⟨regionId, types | types, images⟩
  · by_cases hkind : isProviderError types.kind = true
    · simp [Collected.readRegion, RegionRead.interrupts, Collected.addRegion, hkind]
    · simp [Collected.readRegion, RegionRead.interrupts, hkind]
  · rfl

theorem readAccount_eq (collected : Collected) (account : AccountRead) :
    collected.readAccount account = match account.interrupts with
      | some raised => .error raised
      | none => .ok (collected.addAccount account) := by
  rcases account with ⟨accountId, raised | regions⟩
  · rfl
  · exact foldlM_eq (readRegion_eq accountId) regions collected

theorem observations_addRegion (accountId : String) (collected : Collected) (region : RegionRead) :
    (collected.addRegion accountId region).observations =
      collected.observations ++ region.observations accountId := by
  rcases region with ⟨regionId, types | types, images⟩
  · exact (List.append_nil _).symm
  · rfl

theorem observations_addAccount (collected : Collected) (account : AccountRead) :
    (collected.addAccount account).observations =
      collected.observations ++ account.observations := by
  rcases account with ⟨accountId, raised | regions⟩
  · exact (List.append_nil _).symm
  · change (regions.foldl (Collected.addRegion accountId) collected).observations =
      collected.observations ++ regions.flatMap (·.observations accountId)
    induction regions generalizing collected with
    | nil => exact (List.append_nil _).symm
    | cons region rest ih =>
      rw [List.foldl_cons, ih, observations_addRegion, List.flatMap_cons, List.append_assoc]

namespace LeasewebHourlyCloudSyncer

variable {syncer : LeasewebHourlyCloudSyncer}

theorem interrupted_eq :
    syncer.interrupted = syncer.readAccounts.findSome? AccountRead.interrupts := by
  rw [interrupted, regionReads]
  induction syncer.readAccounts with
  | nil => rfl
  | cons account rest ih =>
    rw [List.flatMap_cons, List.findSome?_append, ih, List.findSome?_map, List.findSome?_cons]
    change (account.interrupts.or _) = _
    cases account.interrupts <;> rfl

/-- Without an interruption the accounts' lists are the accounts', one after the other. -/
theorem listed_eq (h : syncer.interrupted = none) :
    syncer.listed = syncer.readAccounts.flatMap AccountRead.observations := by
  have hall : syncer.regionReads.takeWhile (·.2.interrupts.isNone) = syncer.regionReads := by
    refine List.takeWhile_eq_self_iff.mpr fun read hread ↦ ?_
    rw [List.findSome?_eq_none_iff.mp h read hread]
    rfl
  rw [listed, hall, regionReads, List.flatMap_assoc]
  refine congrArg (fun f ↦ List.flatMap f syncer.readAccounts) (funext fun account ↦ ?_)
  rw [AccountRead.observations, List.flatMap_map]

theorem collect_eq_error {raised : Raised} (h : syncer.collect = .error raised) :
    syncer.interrupted = some raised := by
  rw [collect, foldlM_eq readAccount_eq, ← interrupted_eq] at h
  cases hinterrupted : syncer.interrupted with
  | some other =>
    rw [hinterrupted] at h
    exact congrArg some (Except.error.inj h)
  | none =>
    rw [hinterrupted] at h
    cases h

theorem collect_eq_ok {collected : Collected} (h : syncer.collect = .ok collected) :
    syncer.interrupted = none ∧ collected.observations = syncer.listed := by
  rw [collect, foldlM_eq readAccount_eq, ← interrupted_eq] at h
  cases hinterrupted : syncer.interrupted with
  | some other =>
    rw [hinterrupted] at h
    cases h
  | none =>
    rw [hinterrupted] at h
    refine ⟨rfl, ?_⟩
    rw [listed_eq hinterrupted, ← Except.ok.inj h]
    have hfold : ∀ (accounts : List AccountRead) (start : Collected),
        (accounts.foldl Collected.addAccount start).observations =
          start.observations ++ accounts.flatMap AccountRead.observations := by
      intro accounts
      induction accounts with
      | nil => intro start; exact (List.append_nil _).symm
      | cons account rest ih =>
        intro start
        rw [List.foldl_cons, ih, observations_addAccount, List.flatMap_cons, List.append_assoc]
    exact hfold syncer.readAccounts {}

/-- Every observation is of an account that is not disabled. -/
theorem stateOf_of_mem_listed {observation : Observation} (h : observation ∈ syncer.listed) :
    syncer.stateOf observation.accountId ≠ .disabled := by
  obtain ⟨read, hread, hobservation⟩ := List.mem_flatMap.mp h
  have hmem := (List.takeWhile_prefix _).subset hread
  obtain ⟨account, haccount, hregion⟩ := List.mem_flatMap.mp hmem
  obtain ⟨region, -, rfl⟩ := List.mem_map.mp hregion
  have hid : observation.accountId = account.accountId := by
    rcases region with ⟨regionId, raised | types, images⟩
    · cases hobservation
    · obtain ⟨item, -, rfl⟩ := List.mem_map.mp hobservation
      rfl
  rw [hid]
  simpa [readAccounts] using (List.mem_filter.mp haccount).2

end LeasewebHourlyCloudSyncer

/-! ### Writes -/

section Publishing

variable {observations : List Observation} {owners : Pair → Option String}
  {limitReached : List String} {pair : Pair}

theorem mem_rankedOf {entry : RankedEntry} : entry ∈ rankedOf observations pair ↔
    ∃ observation ∈ observations, observation.pair = pair ∧ observation.entry = entry := by
  simp [rankedOf, and_assoc]

theorem mem_observedPairs : pair ∈ observedPairs observations ↔
    ∃ observation ∈ observations, observation.pair = pair := by
  rw [observedPairs, List.mem_insertionSort, List.mem_dedup, List.mem_map]

theorem pairwise_observedPairs (observations : List Observation) :
    (observedPairs observations).Pairwise fun first second ↦ toLex first < toLex second :=
  pairwise_lt_sorted_dedup toLex.injective _

/-- The upsert that the run plans for a pair; there is none when the observation does not fit. -/
def plannedWrite (observations : List Observation) (owners : Pair → Option String)
    (limitReached : List String) (pair : Pair) : Option HourlyWrite :=
  (selectHourlyOwner (rankedOf observations pair) (owners pair) limitReached).bind fun choice ↦
    match offerSpecFromItem choice.item pair.2 choice.published choice.accountId with
    | .error _ => none
    | .ok update => some ⟨pair, choice, update⟩

variable {write : HourlyWrite}

/-- What a planned write carries. -/
theorem plannedWrite_eq_some : plannedWrite observations owners limitReached pair = some write ↔
      write.pair = pair ∧
        selectHourlyOwner (rankedOf observations pair) (owners pair) limitReached =
          some write.choice ∧
        offerSpecFromItem write.choice.item pair.2 write.choice.published write.choice.accountId =
          .ok write.update := by
  rw [plannedWrite, Option.bind_eq_some_iff]
  constructor
  · rintro ⟨choice, hchoice, hplan⟩
    cases hspec : offerSpecFromItem choice.item pair.2 choice.published choice.accountId with
    | error raised =>
      rw [hspec] at hplan
      cases hplan
    | ok update =>
      rw [hspec] at hplan
      obtain rfl := Option.some.inj hplan
      exact ⟨rfl, hchoice, hspec⟩
  · rintro ⟨hpair, hchoice, hspec⟩
    refine ⟨write.choice, hchoice, ?_⟩
    rw [hspec, ← hpair]

/-- An observed pair has a choice. -/
theorem exists_choice (owners : Pair → Option String) (limitReached : List String)
    (h : pair ∈ observedPairs observations) :
    ∃ choice, selectHourlyOwner (rankedOf observations pair) (owners pair) limitReached =
      some choice := by
  obtain ⟨observation, hmem, hpair⟩ := mem_observedPairs.mp h
  refine Option.isSome_iff_exists.mp (selectHourlyOwner_isSome fun hempty ↦ ?_)
  have hentry := mem_rankedOf.mpr ⟨observation, hmem, hpair, rfl⟩
  rw [hempty] at hentry
  cases hentry

/-- The upserts of the second phase, in order. -/
def plannedWrites (observations : List Observation) (owners : Pair → Option String)
    (limitReached : List String) (pairs : List Pair) : List HourlyWrite :=
  (pairs.takeWhile fun pair ↦ (plannedWrite observations owners limitReached pair).isSome).filterMap
    (plannedWrite observations owners limitReached)

theorem plannedWrites_cons {rest : List Pair}
    (h : plannedWrite observations owners limitReached pair = some write) :
    plannedWrites observations owners limitReached (pair :: rest) =
      write :: plannedWrites observations owners limitReached rest := by
  rw [plannedWrites, List.takeWhile_cons_of_pos (by rw [h]; rfl), List.filterMap_cons_some h]
  rfl

/-- The second phase in closed form: it records the planned writes, and ends in an exception
exactly if some pair has none. -/
theorem publishPairs_eq (stores : SyncStores) (owners : Pair → Option String)
    (limitReached : List String) {pairs : List Pair}
    (hpairs : ∀ pair ∈ pairs, pair ∈ observedPairs observations) (run : HourlyRun) :
    (publishPairs stores observations owners limitReached run pairs).1 =
        (plannedWrites observations owners limitReached pairs).foldl (HourlyRun.record stores) run ∧
      ((publishPairs stores observations owners limitReached run pairs).2 = none ↔
        ∀ pair ∈ pairs, (plannedWrite observations owners limitReached pair).isSome) := by
  induction pairs generalizing run with
  | nil => exact ⟨rfl, by simp [publishPairs]⟩
  | cons pair rest ih =>
    obtain ⟨hpair, hrest⟩ := List.forall_mem_cons.mp hpairs
    obtain ⟨choice, hchoice⟩ := exists_choice owners limitReached hpair
    rw [publishPairs]
    simp only [hchoice]
    cases hspec : offerSpecFromItem choice.item pair.2 choice.published choice.accountId with
    | error raised =>
      have hplan : plannedWrite observations owners limitReached pair = none := by
        rw [plannedWrite, hchoice, Option.bind_some, hspec]
      refine ⟨?_, ?_⟩
      · rw [plannedWrites, List.takeWhile_cons_of_neg (by rw [hplan]; exact Bool.false_ne_true)]
        rfl
      · simp [hplan]
    | ok update =>
      have hplan : plannedWrite observations owners limitReached pair =
          some ⟨pair, choice, update⟩ := plannedWrite_eq_some.mpr ⟨rfl, hchoice, hspec⟩
      obtain ⟨hrun, hend⟩ := ih hrest (run.record stores ⟨pair, choice, update⟩)
      refine ⟨?_, ?_⟩
      · rw [hrun, plannedWrites_cons hplan, List.foldl_cons]
      · rw [hend, List.forall_mem_cons, hplan]
        simp

/-- Which writes the second phase calls. -/
theorem mem_plannedWrites :
    write ∈ plannedWrites observations owners limitReached (observedPairs observations) ↔
      plannedWrite observations owners limitReached write.pair = some write ∧
        ∀ other ∈ observedPairs observations, toLex other ≤ toLex write.pair →
          (plannedWrite observations owners limitReached other).isSome := by
  rw [plannedWrites, List.mem_filterMap]
  constructor
  · rintro ⟨pair, hmem, hplan⟩
    obtain rfl := (plannedWrite_eq_some.mp hplan).1
    exact ⟨hplan, ((mem_takeWhile_of_pairwise (pairwise_observedPairs observations)).mp hmem).2⟩
  · rintro ⟨hplan, hbefore⟩
    refine ⟨write.pair, (mem_takeWhile_of_pairwise (pairwise_observedPairs observations)).mpr
      ⟨?_, hbefore⟩, hplan⟩
    obtain ⟨entry, hentry⟩ := selectHourlyOwner_cases (plannedWrite_eq_some.mp hplan).2.1
    obtain ⟨observation, hobservation, hpair, -⟩ := mem_rankedOf.mp hentry.mem
    exact mem_observedPairs.mpr ⟨observation, hobservation, hpair⟩

end Publishing

/-! ### What a record keeps -/

section Records

variable {stores : SyncStores} {run : HourlyRun} {write : HourlyWrite}

@[simp] theorem writes_record : (run.record stores write).writes = run.writes ++ [write] := by
  unfold HourlyRun.record
  dsimp only
  split <;> rfl

@[simp] theorem offers_record : (run.record stores write).offers =
    (write.upsert (stores.upsertFault write.pair) run.offers).2 := by
  unfold HourlyRun.record
  dsimp only
  split <;> rfl

theorem writes_foldl_record (writes : List HourlyWrite) (run : HourlyRun) :
    (writes.foldl (HourlyRun.record stores) run).writes = run.writes ++ writes := by
  induction writes generalizing run with
  | nil => exact (List.append_nil _).symm
  | cons write rest ih => rw [List.foldl_cons, ih, writes_record, List.append_assoc]; rfl

/-- A verified triple is that of a published write through usable or unknown images. -/
theorem mem_verifiedAccounts_foldl {triple : AccountOffer} {writes : List HourlyWrite} :
    ∀ {run : HourlyRun}, triple ∈ (writes.foldl (HourlyRun.record stores) run).verifiedAccounts →
      triple ∈ run.verifiedAccounts ∨ ∃ write ∈ writes, triple = write.triple ∧
        write.choice.published = true ∧ write.choice.imagesState ∉ unpublishableImageStates := by
  induction writes with
  | nil => intro run h; exact Or.inl h
  | cons write rest ih =>
    intro run h
    rw [List.foldl_cons] at h
    rcases ih h with hrun | ⟨later, hlater, hfacts⟩
    · unfold HourlyRun.record at hrun
      dsimp only at hrun
      split at hrun
      · exact Or.inl hrun
      · dsimp only at hrun
        split_ifs at hrun with hproved
        · rcases List.mem_append.mp hrun with hbefore | hnow
          · exact Or.inl hbefore
          · rw [Bool.and_eq_true, decide_eq_true_iff] at hproved
            exact Or.inr ⟨write, List.mem_cons_self, List.mem_singleton.mp hnow, hproved.2,
              hproved.1⟩
        · exact Or.inl hrun
    · exact Or.inr ⟨later, List.mem_cons_of_mem _ hlater, hfacts⟩

end Records

/-! ### Outcomes -/

section Outcomes

variable {syncer : LeasewebHourlyCloudSyncer} {stores : SyncStores} {offers : OfferTable}

@[simp] theorem writes_finish (run : HourlyRun) (errors : List String) :
    (run.finish stores errors).writes = run.writes := by
  unfold HourlyRun.finish
  dsimp only
  split
  · split <;> rfl
  · rfl

theorem verifiedAccounts_of_finish {run : HourlyRun} {errors : List String}
    {result : CloudSyncResult} (h : (run.finish stores errors).result = .ok result) :
    result.verifiedAccounts = run.verifiedAccounts := by
  unfold HourlyRun.finish at h
  dsimp only at h
  split at h
  · split at h <;> exact congrArg CloudSyncResult.verifiedAccounts (Except.ok.inj h).symm
  · exact congrArg CloudSyncResult.verifiedAccounts (Except.ok.inj h).symm

namespace LeasewebHourlyCloudSyncer

/-- The write that the run plans for a pair. -/
def plan (syncer : LeasewebHourlyCloudSyncer) (stores : SyncStores) (offers : OfferTable)
    (pair : Pair) : Option HourlyWrite :=
  plannedWrite syncer.listed (stores.currentOwners offers) stores.limitReachedAccounts pair

/-- The writes of a run whose reads did not end it. -/
def writesOf (syncer : LeasewebHourlyCloudSyncer) (stores : SyncStores) (offers : OfferTable) :
    List HourlyWrite :=
  plannedWrites syncer.listed (stores.currentOwners offers) stores.limitReachedAccounts
    (observedPairs syncer.listed)

/-- The run after its writes. -/
def published (syncer : LeasewebHourlyCloudSyncer) (stores : SyncStores) (offers : OfferTable)
    (collected : Collected) : HourlyRun :=
  (syncer.writesOf stores offers).foldl (HourlyRun.record stores)
    { offers := offers, reports := collected.reports, accountFailed := collected.accountFailed }

/-- Every observed pair has a write. -/
def AllFit (syncer : LeasewebHourlyCloudSyncer) (stores : SyncStores) (offers : OfferTable) :
    Prop :=
  ∀ pair ∈ observedPairs syncer.listed, (syncer.plan stores offers pair).isSome

/-- The three ways of a run: a read ends it, an observation that does not fit ends it, or it comes
to its end. -/
inductive SyncedAs (syncer : LeasewebHourlyCloudSyncer) (stores : SyncStores)
    (offers : OfferTable) : HourlyOutcome → Prop
  | interrupted (raised : Raised) (interrupted : syncer.interrupted = some raised) :
      SyncedAs syncer stores offers ⟨.error raised, offers, []⟩
  | unfit (raised : Raised) (collected : Collected) (collects : syncer.collect = .ok collected)
      (unfit : ¬ syncer.AllFit stores offers) :
      SyncedAs syncer stores offers
        ⟨.error raised, (syncer.published stores offers collected).offers,
          (syncer.published stores offers collected).writes⟩
  | finished (collected : Collected) (collects : syncer.collect = .ok collected)
      (fits : syncer.AllFit stores offers) :
      SyncedAs syncer stores offers
        ((syncer.published stores offers collected).finish stores collected.errors)

theorem syncAll_cases (syncer : LeasewebHourlyCloudSyncer) (stores : SyncStores)
    (offers : OfferTable) : SyncedAs syncer stores offers (syncer.syncAll stores offers) := by
  unfold syncAll
  cases hcollect : syncer.collect with
  | error raised => exact .interrupted raised (collect_eq_error hcollect)
  | ok collected =>
    have hlisted := (collect_eq_ok hcollect).2
    obtain ⟨hrun, hend⟩ := publishPairs_eq stores (stores.currentOwners offers)
      stores.limitReachedAccounts
      (fun pair (h : pair ∈ observedPairs collected.observations) ↦ h)
      { offers := offers, reports := collected.reports, accountFailed := collected.accountFailed }
    rw [hlisted] at hrun hend
    change _ = syncer.published stores offers collected at hrun
    change _ ↔ syncer.AllFit stores offers at hend
    dsimp only
    rw [hlisted, hrun]
    split
    · rename_i raised hraised
      refine .unfit raised collected hcollect fun hfits ↦ ?_
      rw [hend.mpr hfits] at hraised
      cases hraised
    · rename_i hnone
      exact .finished collected hcollect (hend.mp hnone)

theorem writes_published (syncer : LeasewebHourlyCloudSyncer) (stores : SyncStores)
    (offers : OfferTable) (collected : Collected) :
    (syncer.published stores offers collected).writes = syncer.writesOf stores offers :=
  writes_foldl_record _ _

end LeasewebHourlyCloudSyncer

/-- The run gets as far as the pair: no read ended it, and the observations up to the pair fit. -/
structure Reached (syncer : LeasewebHourlyCloudSyncer) (stores : SyncStores) (offers : OfferTable)
    (pair : Pair) : Prop where
  uninterrupted : syncer.interrupted = none
  fits : ∀ other ∈ observedPairs syncer.listed, toLex other ≤ toLex pair →
    (syncer.plan stores offers other).isSome

/-- A run calls the upserts of the pairs that it reaches. -/
theorem mem_writes_syncAll {write : HourlyWrite} : write ∈ (syncer.syncAll stores offers).writes ↔
      syncer.plan stores offers write.pair = some write ∧
        Reached syncer stores offers write.pair := by
  have hplanned (collected : Collected) (hcollect : syncer.collect = .ok collected) :
      write ∈ (syncer.published stores offers collected).writes ↔
        syncer.plan stores offers write.pair = some write ∧
          Reached syncer stores offers write.pair := by
    rw [LeasewebHourlyCloudSyncer.writes_published, LeasewebHourlyCloudSyncer.writesOf,
      mem_plannedWrites]
    refine and_congr_right fun _ ↦ ?_
    exact ⟨fun hfits ↦ ⟨(LeasewebHourlyCloudSyncer.collect_eq_ok hcollect).1, hfits⟩,
      fun hreached ↦ hreached.fits⟩
  have hsynced := syncer.syncAll_cases stores offers
  generalize syncer.syncAll stores offers = outcome at hsynced
  cases hsynced with
  | interrupted raised hinterrupted =>
    constructor
    · intro hmem
      cases hmem
    · rintro ⟨-, hreached⟩
      rw [hreached.uninterrupted] at hinterrupted
      cases hinterrupted
  | unfit raised collected hcollect _ => exact hplanned collected hcollect
  | finished collected hcollect _ =>
    rw [writes_finish]
    exact hplanned collected hcollect

end Outcomes

end CloudPlatform.Leaseweb
