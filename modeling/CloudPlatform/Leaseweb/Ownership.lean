import CloudPlatform.Leaseweb.CapacityRepublish

/-!
# When a pair changes hands

A pair that an account publishes is re-pinned by a sync or by a republication after a capacity
refusal. Both re-pin it to an account without usable images exactly when no account that they may
choose proved the pair: the sync if its reads miss the owner, the republication if an image read was
inconclusive.
-/

namespace CloudPlatform.Leaseweb

open Offers
open Rows (Table)

/-! ### Re-pinned pairs -/

/-- The spellings of an owner: the one that is stored, and its normal form. -/
def spellings (row : OfferRow) : List String :=
  [row.account, storedAccount row.account]

/-- The pair had an owner, and belongs to another account now. -/
structure Repinned (before after : OfferTable) (pair : Pair) (account : String) : Prop where
  moved : ∃ row, before.get (hourlyKey pair) = some row ∧ strip row.account ≠ "" ∧
    (after.get (hourlyKey pair)).map (·.account) = some account ∧
    account ∉ spellings row

/-- A row with an owner has an account. -/
theorem isSome_of_account_ne {row : OfferRow} (h : strip row.account ≠ "") :
    row.providerAccountId.isSome = true := by
  cases haccount : row.providerAccountId with
  | some account => rfl
  | none =>
    refine absurd ?_ h
    rw [OfferRow.account, haccount]
    decide

/-- An upsert of an account re-pins an owned row to it. -/
theorem landed_account {item : CloudInstanceType} {publishable : Bool} {accountId : String}
    {update : OfferSpecUpdate} {row : OfferRow} {key : OfferKey}
    (hspec : SpecOf item publishable accountId update) (howned : strip row.account ≠ "") :
    (landed (some row) key update (some accountId)).map (·.account) =
      some (storedAccount accountId) := by
  have hcurrency : upper (strip update.providerCostCurrency) ≠ "" := by
    rw [hspec.currency]
    exact auditedCurrencies_ne hspec.audited
  rw [landed_owned hcurrency hspec.account hspec.account_ne (isSome_of_account_ne howned),
    Option.map_some, account_refresh hspec.account_ne]

/-! ### The sync -/

section Sync

variable {syncer : LeasewebHourlyCloudSyncer} {stores : SyncStores} {offers : OfferTable}
  {pair : Pair}

/-- Every pair that a sync re-pins goes to an account that read usable images in the run. -/
def SyncMovesOnProof (syncer : LeasewebHourlyCloudSyncer) (stores : SyncStores)
    (offers : OfferTable) : Prop :=
  ∀ pair account, Repinned offers (syncer.syncAll stores offers).offers pair account →
    ∃ observation ∈ syncer.listed, observation.pair = pair ∧
      storedAccount observation.accountId = account ∧ observation.imagesState = .ok

/-- The entry that a pair falls to when no account proved it and its owner is not listed. -/
def fallsTo (ranked : List RankedEntry) (limited : List String) : Option RankedEntry :=
  (ranked.find? (·.candidate limited)).or ranked.head?

/-- Whatever a pair falls to, it is its owner or an account with usable images. -/
def FallsSafely (ranked : List RankedEntry) (limited : List String) (row : OfferRow) : Prop :=
  ∀ entry ∈ fallsTo ranked limited, storedAccount entry.accountId ∈ spellings row ∨
    ∃ other ∈ ranked, storedAccount other.accountId = storedAccount entry.accountId ∧
      other.imagesState = .ok

/-- The owner that a sync knows is the account of the pair's row. -/
theorem account_of_owner {row : OfferRow} {account : String}
    (hrow : offers.get (hourlyKey pair) = some row)
    (h : stores.currentOwners offers pair = some account) : account = strip row.account := by
  unfold SyncStores.currentOwners at h
  split at h
  · cases h
  · change ((offers.get (hourlyKey pair)).map fun row ↦ strip row.account).filter (· ≠ "") =
      some account at h
    rw [hrow, Option.map_some] at h
    exact (Option.some.inj (Option.filter_eq_some_iff.mp h).1).symm

/-- The account of an owned pair's row after a run that reaches the pair. -/
theorem account_of_reached {row : OfferRow} {write : HourlyWrite}
    (hrow : offers.get (hourlyKey pair) = some row) (howned : strip row.account ≠ "")
    (hplan : syncer.plan stores offers pair = some write)
    (hreached : Reached syncer stores offers pair) (hfault : stores.upsertFault pair = none) :
    ((syncer.syncAll stores offers).offers.get (hourlyKey pair)).map (·.account) =
      some (storedAccount write.choice.accountId) := by
  have hpair := (plannedWrite_eq_some.mp hplan).1
  have hmem : write ∈ (syncer.syncAll stores offers).writes :=
    mem_writes_syncAll.mpr (by rw [hpair]; exact ⟨hplan, hreached⟩)
  -- The run has one write of the pair.
  have hfind : (syncer.syncAll stores offers).writes.find? (·.pair = pair) = some write := by
    cases hfound : (syncer.syncAll stores offers).writes.find? (·.pair = pair) with
    | none => exact absurd (by simpa using hpair) (List.find?_eq_none.mp hfound write hmem)
    | some other =>
      have hother : other.pair = pair := by simpa using List.find?_some hfound
      have hplanned := (mem_writes_syncAll.mp (List.mem_of_find?_eq_some hfound)).1
      rw [hother, hplan] at hplanned
      rw [Option.some.inj hplanned]
  rw [account_get_syncAll, LeasewebHourlyCloudSyncer.rowAfterWrites, hfind, Option.elim_some, hpair,
    hfault, hrow, HourlyWrite.lands, if_neg (by simp)]
  exact landed_account (wellFormed_of_plan hplan).spec howned

/-- A re-pinned pair was reached, and its upsert taken. -/
theorem reached_of_repinned {account : String}
    (h : Repinned offers (syncer.syncAll stores offers).offers pair account) :
    ∃ write, syncer.plan stores offers pair = some write ∧ Reached syncer stores offers pair ∧
      stores.upsertFault pair = none := by
  obtain ⟨row, hrow, howned, hafter, hmoved⟩ := h.moved
  rw [account_get_syncAll, LeasewebHourlyCloudSyncer.rowAfterWrites, hrow] at hafter
  have hstill : ∀ other : Option OfferRow, other = some row →
      other.map (·.account) = some account → False := by
    intro other hother haccount
    rw [hother] at haccount
    exact hmoved (by rw [← Option.some.inj haccount]; exact List.mem_cons_self)
  cases hfind : (syncer.syncAll stores offers).writes.find? (·.pair = pair) with
  | none =>
    rw [hfind] at hafter
    exact (hstill _ rfl hafter).elim
  | some write =>
    have hpair : write.pair = pair := by simpa using List.find?_some hfind
    obtain ⟨hplan, hreached⟩ := mem_writes_syncAll.mp (List.mem_of_find?_eq_some hfind)
    rw [hpair] at hplan hreached
    refine ⟨write, hplan, hreached, ?_⟩
    cases hfault : stores.upsertFault pair with
    | none => rfl
    | some raised =>
      rw [hfind, Option.elim_some, hpair, hfault] at hafter
      exact (hstill _ rfl hafter).elim

/-- What a pair falls to is what is chosen for it. -/
theorem ChosenAs.fallsTo {ranked : List RankedEntry} {owner : Option String}
    {limited : List String} {entry : RankedEntry} {choice : OwnerChoice}
    (h : ChosenAs ranked owner limited entry choice)
    (hunowned : ∀ other ∈ ranked, other.ownedBy owner = false)
    (hunproven : ∀ other ∈ ranked, other.proven limited = false) :
    Leaseweb.fallsTo ranked limited = some entry := by
  cases h with
  | proved hmem hproven _ =>
    rw [hunproven entry hmem] at hproven
    cases hproven
  | kept howner _ =>
    have howned := List.find?_some howner
    rw [hunowned entry (List.mem_of_find?_eq_some howner)] at howned
    cases howned
  | fallback _ _ hfirst => rw [Leaseweb.fallsTo, hfirst, Option.some_or]
  | left _ hnone hfirst =>
    have hcandidate : ranked.find? (·.candidate limited) = none :=
      List.find?_eq_none.mpr (by simpa using hnone)
    rw [Leaseweb.fallsTo, hcandidate, Option.none_or, hfirst]

/-- Every owned pair that the run reaches, and whose upsert the store takes, is listed by its owner,
or proved by an account that may take new orders, or falls safely. -/
def OwnersListed (syncer : LeasewebHourlyCloudSyncer) (stores : SyncStores) (offers : OfferTable) :
    Prop :=
  ∀ pair row, offers.get (hourlyKey pair) = some row → strip row.account ≠ "" →
    Reached syncer stores offers pair → stores.upsertFault pair = none →
    (∃ entry ∈ rankedOf syncer.listed pair,
      entry.ownedBy (stores.currentOwners offers pair) = true) ∨
    (∃ entry ∈ rankedOf syncer.listed pair,
      entry.proven stores.limitReachedAccounts = true) ∨
    FallsSafely (rankedOf syncer.listed pair) stores.limitReachedAccounts row

/-- A sync moves pairs on proof exactly if its reads miss no owner whose pair nobody proves. -/
theorem syncMovesOnProof_iff (syncer : LeasewebHourlyCloudSyncer) (stores : SyncStores)
    (offers : OfferTable) :
    SyncMovesOnProof syncer stores offers ↔ OwnersListed syncer stores offers := by
  constructor
  · intro h pair row hrow howned hreached hfault
    by_cases hlisted : ∃ entry ∈ rankedOf syncer.listed pair,
        entry.ownedBy (stores.currentOwners offers pair) = true
    · exact Or.inl hlisted
    by_cases hproved : ∃ entry ∈ rankedOf syncer.listed pair,
        entry.proven stores.limitReachedAccounts = true
    · exact Or.inr (Or.inl hproved)
    refine Or.inr (Or.inr fun entry hfalls ↦ ?_)
    by_cases hspelling : storedAccount entry.accountId ∈ spellings row
    · exact Or.inl hspelling
    have hranked : entry ∈ rankedOf syncer.listed pair := by
      rcases Option.or_eq_some_iff.mp hfalls with hfirst | ⟨-, hhead⟩
      · exact List.mem_of_find?_eq_some hfirst
      · exact List.mem_of_mem_head? hhead
    obtain ⟨observation, hobserved, hpair, -⟩ := mem_rankedOf.mp hranked
    obtain ⟨write, hplan⟩ := Option.isSome_iff_exists.mp
      (hreached.fits pair (mem_observedPairs.mpr ⟨observation, hobserved, hpair⟩) le_rfl)
    obtain ⟨chosen, hchosen⟩ := selectHourlyOwner_cases (plannedWrite_eq_some.mp hplan).2.1
    have hchosenFalls := hchosen.fallsTo (by simpa using hlisted) (by simpa using hproved)
    obtain rfl : chosen = entry := Option.some.inj (hchosenFalls.symm.trans hfalls)
    have hafter := account_of_reached hrow howned hplan hreached hfault
    rw [hchosen.entry_eq.1] at hafter
    obtain ⟨other, hother, hotherPair, haccount, hok⟩ :=
      h pair _ ⟨row, hrow, howned, hafter, hspelling⟩
    exact Or.inr ⟨other.entry, mem_rankedOf.mpr ⟨other, hother, hotherPair, rfl⟩, haccount, hok⟩
  · intro h pair account hrepinned
    obtain ⟨write, hplan, hreached, hfault⟩ := reached_of_repinned hrepinned
    obtain ⟨row, hrow, howned, hafter, hmoved⟩ := hrepinned.moved
    obtain ⟨entry, hentry⟩ := selectHourlyOwner_cases (plannedWrite_eq_some.mp hplan).2.1
    rw [account_of_reached hrow howned hplan hreached hfault, hentry.entry_eq.1] at hafter
    obtain rfl := Option.some.inj hafter
    -- An entry with usable images is the observation that is asked for.
    have hobserved : ∀ other ∈ rankedOf syncer.listed pair,
        storedAccount other.accountId = storedAccount entry.accountId → other.imagesState = .ok →
        ∃ observation ∈ syncer.listed, observation.pair = pair ∧
          storedAccount observation.accountId = storedAccount entry.accountId ∧
          observation.imagesState = .ok := by
      intro other hother haccount hok
      obtain ⟨observation, hlisted, hpair, rfl⟩ := mem_rankedOf.mp hother
      exact ⟨observation, hlisted, hpair, haccount, hok⟩
    by_cases hproven : entry.proven stores.limitReachedAccounts = true
    · exact hobserved entry hentry.mem rfl (proven_eq_true.mp hproven).2
    have hunproven : ∀ other ∈ rankedOf syncer.listed pair,
        other.proven stores.limitReachedAccounts = false := by
      generalize write.choice = choice at hentry
      cases hentry with
      | proved _ hentryProven _ => exact absurd hentryProven hproven
      | kept _ hnone => exact hnone
      | fallback _ hnone _ => exact hnone
      | left _ hnone _ =>
        intro other hother
        by_contra hother'
        have hcandidate := candidate_of_proven (Bool.eq_true_of_not_eq_false hother')
        rw [hnone other hother] at hcandidate
        cases hcandidate
    by_cases hlisted : ∃ other ∈ rankedOf syncer.listed pair,
        other.ownedBy (stores.currentOwners offers pair) = true
    · obtain ⟨other, hmem, hotherOwned⟩ := hlisted
      have hfound : (rankedOf syncer.listed pair).find?
          (·.ownedBy (stores.currentOwners offers pair)) ≠ none :=
        fun hnone ↦ List.find?_eq_none.mp hnone other hmem hotherOwned
      generalize write.choice = choice at hentry
      cases hentry with
      | proved _ hentryProven _ => exact absurd hentryProven hproven
      | fallback hunowned _ _ => exact absurd hunowned hfound
      | left hunowned _ _ => exact absurd hunowned hfound
      | kept howner _ =>
        have howned := List.find?_some howner
        refine absurd ?_ hmoved
        rw [account_of_owner hrow (of_decide_eq_true howned).symm, storedAccount_strip]
        exact List.mem_cons_of_mem _ List.mem_cons_self
    · have hfalls := hentry.fallsTo (by simpa using hlisted) hunproven
      rcases h pair row hrow howned hreached hfault with hother | hother | hsafe
      · exact absurd hother hlisted
      · obtain ⟨other, hmem, hotherProven⟩ := hother
        rw [hunproven other hmem] at hotherProven
        cases hotherProven
      · rcases hsafe entry hfalls with hspelling | ⟨other, hmem, haccount, hok⟩
        · exact absurd hspelling hmoved
        · exact hobserved other hmem haccount hok

end Sync

/-! ### The republication -/

section Republication

variable {republisher : LeasewebCapacityRepublisher} {offers : OfferTable} {pair : Pair}
  {account provider : String} {credentialAccountId : Option String}

/-- The rankings of a republication, pair after pair: its reads do not depend on its writes. -/
def rankings (candidates : List RouterAccount) : List Pair → KnownRegions →
    List (Pair × List RankedEntry)
  | [], _ => []
  | pair :: rest, known =>
    let reads := rankPair pair candidates known
    (pair, reads.ranked) :: rankings candidates rest reads.known

/-- The rankings of a call for an account. -/
def LeasewebCapacityRepublisher.rankingsOf (republisher : LeasewebCapacityRepublisher)
    (offers : OfferTable) (account : String) : List (Pair × List RankedEntry) :=
  rankings (republisher.candidates account)
    (LeasewebCapacityRepublisher.pairsOf offers account) fun _ ↦ none

/-- What a call re-pins goes to an account that read usable images in the call. -/
def RefusalMovesOnProof (republisher : LeasewebCapacityRepublisher) (offers : OfferTable)
    (provider : String) (credentialAccountId : Option String) : Prop :=
  ∀ pair account, Repinned offers
      (republisher.afterCapacityRefusal offers provider credentialAccountId).2 pair account →
    ∃ ranked, (pair, ranked) ∈ republisher.rankingsOf offers (strip (textOf credentialAccountId)) ∧
      ∃ entry ∈ ranked, storedAccount entry.accountId = account ∧ entry.imagesState = .ok

/-! #### Reads -/

theorem fst_rankings (candidates : List RouterAccount) (pairs : List Pair) :
    ∀ known, (rankings candidates pairs known).map Prod.fst = pairs := by
  induction pairs with
  | nil => intro known; rfl
  | cons pair rest ih =>
    intro known
    rw [rankings, List.map_cons, ih]

variable {entry : RankedEntry}

/-- An account proves a pair as itself. -/
theorem accountId_of_provePair {candidate : RouterAccount} {known : KnownRegions}
    (h : entry ∈ (candidate.provePair pair known).ranked) :
    entry.accountId = candidate.accountId := by
  have hat : ∀ (known : KnownRegions) (regions : List String),
      entry ∈ (candidate.proveAt pair known regions).ranked →
        entry.accountId = candidate.accountId := by
    intro known regions hmem
    unfold RouterAccount.proveAt at hmem
    split at hmem
    · cases hmem
    · split at hmem
      · cases hmem
      · obtain ⟨item, -, rfl⟩ := Option.map_eq_some_iff.mp (Option.mem_toList.mp hmem)
        rfl
  unfold RouterAccount.provePair at h
  split at h
  · cases h
  · split at h
    · exact hat _ _ h
    · split at h
      · cases h
      · exact hat _ _ h

theorem exists_of_mem_rankPair {candidates : List RouterAccount} :
    ∀ {known : KnownRegions}, entry ∈ (rankPair pair candidates known).ranked →
      ∃ candidate ∈ candidates, entry.accountId = candidate.accountId := by
  induction candidates with
  | nil => intro known h; cases h
  | cons candidate rest ih =>
    intro known h
    rcases List.mem_append.mp h with hfirst | hrest
    · exact ⟨candidate, List.mem_cons_self, accountId_of_provePair hfirst⟩
    · obtain ⟨other, hother, haccount⟩ := ih hrest
      exact ⟨other, List.mem_cons_of_mem _ hother, haccount⟩

/-- Every entry of a ranking is of one of the accounts that are asked. -/
theorem exists_of_mem_rankings {candidates : List RouterAccount} {pairs : List Pair}
    {ranked : List RankedEntry} :
    ∀ {known : KnownRegions}, (pair, ranked) ∈ rankings candidates pairs known → entry ∈ ranked →
      ∃ candidate ∈ candidates, entry.accountId = candidate.accountId := by
  induction pairs with
  | nil => intro known h; cases h
  | cons first rest ih =>
    intro known h hentry
    rcases List.mem_cons.mp h with heq | hrest
    · obtain ⟨rfl, rfl⟩ := Prod.mk.inj heq
      exact exists_of_mem_rankPair hentry
    · exact ih hrest hentry

/-- The accounts that are asked are neither the refused one nor limited. -/
theorem unlimited_of_mem_rankings {ranked : List RankedEntry}
    (h : (pair, ranked) ∈ republisher.rankingsOf offers account) (hentry : entry ∈ ranked) :
    entry.accountId ∉ account :: republisher.limitedAccounts account := by
  obtain ⟨candidate, hmem, haccount⟩ := exists_of_mem_rankings h hentry
  have hcandidate := (List.mem_filter.mp hmem).2
  rw [haccount, List.mem_cons, not_or]
  simp only [Bool.and_eq_true, decide_eq_true_eq] at hcandidate
  exact ⟨hcandidate.1.2, hcandidate.2⟩

/-! #### Writes -/

/-- What the settlement of a pair leaves at its reference. -/
def settledRow (fault : Option Raised) (account : String) (limited : List String)
    (pair : Pair) (ranked : List RankedEntry) (before : Option OfferRow) : Option OfferRow :=
  match selectHourlyOwner ranked (some account) (account :: limited) with
  | none => before
  | some choice =>
    if choice.accountId = account ∨ choice.published = false then before
    else match offerSpecFromItem choice.item pair.2 true choice.accountId with
      | .error _ => before
      | .ok update =>
        if fault.isSome then before
        else landed before (hourlyKey pair) update (some choice.accountId)

variable (fault : Option Raised)

theorem get_reassign (offers : OfferTable) (pair : Pair) (choice : OwnerChoice) (key : OfferKey) :
    (reassign fault offers pair choice).2.get key =
      if hourlyKey pair = key then
        match offerSpecFromItem choice.item pair.2 true choice.accountId with
        | .error _ => offers.get key
        | .ok update =>
          if fault.isSome then offers.get key
          else landed (offers.get key) (hourlyKey pair) update (some choice.accountId)
      else offers.get key := by
  unfold reassign
  cases hspec : offerSpecFromItem choice.item pair.2 true choice.accountId with
  | error raised => exact (ite_self _).symm
  | ok update =>
    cases fault with
    | some raised => exact (ite_self _).symm
    | none =>
      dsimp only
      rw [get_upsertFromProvider, (specOf_of_eq_ok hspec).key_eq]
      by_cases hkey : hourlyKey pair = key
      · rw [if_pos hkey, if_pos hkey, if_neg (by simp), hkey]
      · rw [if_neg hkey, if_neg hkey]

theorem get_settle (account : String) (limited : List String) (run : RepublishRun) (pair : Pair)
    (ranked : List RankedEntry) (key : OfferKey) :
    (run.settle fault account limited pair ranked).offers.get key = if hourlyKey pair = key then
        settledRow fault account limited pair ranked (run.offers.get key)
      else run.offers.get key := by
  unfold RepublishRun.settle settledRow
  cases hchoice : selectHourlyOwner ranked (some account) (account :: limited) with
  | none => exact (ite_self _).symm
  | some choice =>
    dsimp only
    by_cases hstays : choice.accountId = account ∨ choice.published = false
    · rw [if_pos hstays, if_pos hstays]
      exact (ite_self _).symm
    · rw [if_neg hstays, if_neg hstays, ← get_reassign]
      cases (reassign fault run.offers pair choice).1 <;> rfl

theorem known_settle (account : String) (limited : List String) (run : RepublishRun) (pair : Pair)
    (ranked : List RankedEntry) :
    (run.settle fault account limited pair ranked).known = run.known := by
  unfold RepublishRun.settle
  split
  · rfl
  · split
    · rfl
    · dsimp only
      split <;> rfl

/-- The row of a pair after the loop over the pairs. -/
theorem get_settlePairs (republisher : LeasewebCapacityRepublisher) {pairs : List Pair}
    (hnodup : pairs.Nodup) (account : String) (pair : Pair) (run : RepublishRun) :
    (pairs.foldl (republisher.settlePair account) run).offers.get (hourlyKey pair) =
      ((rankings (republisher.candidates account) pairs run.known).find? (·.1 = pair)).elim
        (run.offers.get (hourlyKey pair)) fun ranking ↦
          settledRow (republisher.upsertFault ranking.1) account
            (republisher.limitedAccounts account) ranking.1 ranking.2
            (run.offers.get (hourlyKey pair)) := by
  induction pairs generalizing run with
  | nil => rfl
  | cons first rest ih =>
    rw [List.nodup_cons] at hnodup
    have hknown : (republisher.settlePair account run first).known =
        (rankPair first (republisher.candidates account) run.known).known :=
      known_settle _ _ _ _ _ _
    rw [List.foldl_cons, ih hnodup.2, hknown, rankings]
    have hoffers := get_settle (republisher.upsertFault first) account
      (republisher.limitedAccounts account)
      { run with
        known := (rankPair first (republisher.candidates account) run.known).known
        errors := run.errors ++
          (rankPair first (republisher.candidates account) run.known).errors }
      first (rankPair first (republisher.candidates account) run.known).ranked (hourlyKey pair)
    change (republisher.settlePair account run first).offers.get (hourlyKey pair) = _ at hoffers
    rw [hoffers]
    by_cases hpair : first = pair
    · have hnone : (rankings (republisher.candidates account) rest
          (rankPair first (republisher.candidates account) run.known).known).find?
            (·.1 = pair) = none := by
        refine List.find?_eq_none.mpr fun ranking hmem heq ↦ hnodup.1 ?_
        rw [hpair, ← of_decide_eq_true heq,
          ← fst_rankings (republisher.candidates account) rest
            (rankPair first (republisher.candidates account) run.known).known]
        exact List.mem_map_of_mem hmem
      dsimp only
      rw [hnone, if_pos (by rw [hpair]), List.find?_cons_of_pos (by simpa using hpair)]
      rfl
    · dsimp only
      rw [if_neg fun h ↦ hpair (hourlyKey_injective h),
        List.find?_cons_of_neg (by simpa using hpair)]

theorem nodup_pairsOf (offers : OfferTable) (account : String) :
    (LeasewebCapacityRepublisher.pairsOf offers account).Nodup := by
  unfold LeasewebCapacityRepublisher.pairsOf
  refine (List.perm_insertionSort _ _).nodup_iff.mpr ?_
  have hrows := (List.Nodup.of_map _ offers.unique).filter fun row ↦
    decide (row.providerKey = providerKey ∧ row.billingModel = billingModelHourly ∧
      strip row.account ≠ "" ∧ strip row.account = account)
  refine hrows.map_on fun first hfirst second hsecond heq ↦ ?_
  rw [List.mem_filter, decide_eq_true_iff] at hfirst hsecond
  have hkey : first.key = second.key := by
    obtain ⟨hproduct, hlocation⟩ := Prod.mk.inj heq
    rw [OfferRow.key, OfferRow.key, hfirst.2.1, hfirst.2.2.1, hsecond.2.1, hsecond.2.2.1,
      hproduct, hlocation]
  have hget := Table.mem_iff_get.mp hfirst.1
  rw [hkey, Table.mem_iff_get.mp hsecond.1] at hget
  exact (Option.some.inj hget).symm

/-- The pairs of a call are those of the rows that the account publishes. -/
theorem mem_pairsOf {row : OfferRow} (hrow : offers.get (hourlyKey pair) = some row) :
    pair ∈ LeasewebCapacityRepublisher.pairsOf offers account ↔
      strip row.account ≠ "" ∧ strip row.account = account := by
  have hkey : row.key = hourlyKey pair := Table.key_of_get hrow
  have hfields : row.providerKey = providerKey ∧ row.productId = pair.1 ∧
      row.locationId = pair.2 ∧ row.billingModel = billingModelHourly := by
    injection hkey with hprovider hproduct hlocation hmodel
    exact ⟨hprovider, hproduct, hlocation, hmodel⟩
  rw [LeasewebCapacityRepublisher.pairsOf, List.mem_insertionSort, List.mem_map]
  constructor
  · rintro ⟨other, hmem, rfl⟩
    rw [List.mem_filter, decide_eq_true_iff] at hmem
    have hother : offers.get (hourlyKey (other.productId, other.locationId)) = some other := by
      rw [← Table.mem_iff_get.mp hmem.1, OfferRow.key, hmem.2.1, hmem.2.2.1]
      rfl
    obtain rfl := Option.some.inj (hother.symm.trans hrow)
    exact hmem.2.2.2
  · intro howned
    refine ⟨row, ?_, Prod.ext hfields.2.1 hfields.2.2.1⟩
    rw [List.mem_filter, decide_eq_true_iff]
    exact ⟨Table.mem_of_get hrow, hfields.1, hfields.2.2.2, howned⟩

/-- The catalog after a call that reads its pairs. -/
theorem offers_afterCapacityRefusal (hprovider : provider = providerKey)
    (howners : republisher.ownersFault = none) (hpairs :
      LeasewebCapacityRepublisher.pairsOf offers (strip (textOf credentialAccountId)) ≠ []) :
    (republisher.afterCapacityRefusal offers provider credentialAccountId).2 =
      let run := (LeasewebCapacityRepublisher.pairsOf offers
        (strip (textOf credentialAccountId))).foldl
          (republisher.settlePair (strip (textOf credentialAccountId))) { offers := offers }
      if republisher.markFault.isSome then run.offers
      else markUnavailable run.offers providerKey [] (some billingModelHourly)
        (some (strip (textOf credentialAccountId))) := by
  unfold LeasewebCapacityRepublisher.afterCapacityRefusal
  generalize strip (textOf credentialAccountId) = account at hpairs ⊢
  have haccount : account ≠ "" := by
    obtain ⟨pair, hmem⟩ := List.exists_mem_of_ne_nil _ hpairs
    obtain ⟨row, hrow, rfl⟩ := List.mem_map.mp
      ((List.mem_insertionSort fun first second ↦ toLex first ≤ toLex second).mp hmem)
    have hfields := of_decide_eq_true (List.mem_filter.mp hrow).2
    rw [← hfields.2.2.2]
    exact hfields.2.2.1
  dsimp only
  rw [if_neg (by simp [hprovider, haccount]), if_neg (by simp [howners]),
    if_neg (by simpa using hpairs)]
  cases republisher.markFault <;> rfl

/-- A call that does not read its pairs leaves the catalog. -/
theorem offers_of_idle (h : provider ≠ providerKey ∨ republisher.ownersFault ≠ none ∨
      LeasewebCapacityRepublisher.pairsOf offers (strip (textOf credentialAccountId)) = []) :
    (republisher.afterCapacityRefusal offers provider credentialAccountId).2 = offers := by
  unfold LeasewebCapacityRepublisher.afterCapacityRefusal
  dsimp only
  by_cases hinput : provider ≠ providerKey ∨ strip (textOf credentialAccountId) = ""
  · rw [if_pos hinput]
  rw [if_neg hinput]
  by_cases howners : republisher.ownersFault.isSome = true
  · rw [if_pos howners]
  rw [if_neg howners, if_pos]
  rw [List.isEmpty_iff]
  rcases h with hprovider | hfault | hpairs
  · exact absurd (Or.inl hprovider) hinput
  · exact absurd (Option.isSome_iff_ne_none.mpr hfault) howners
  · exact hpairs

/-- The account of a pair's row after a call that reads its pairs. -/
theorem account_afterCapacityRefusal (hprovider : provider = providerKey)
    (howners : republisher.ownersFault = none) (pair : Pair) :
    ((republisher.afterCapacityRefusal offers provider credentialAccountId).2.get
        (hourlyKey pair)).map (·.account) =
      (((republisher.rankingsOf offers (strip (textOf credentialAccountId))).find?
        (·.1 = pair)).elim (offers.get (hourlyKey pair)) fun ranking ↦
          settledRow (republisher.upsertFault ranking.1) (strip (textOf credentialAccountId))
            (republisher.limitedAccounts (strip (textOf credentialAccountId))) ranking.1
            ranking.2 (offers.get (hourlyKey pair))).map (·.account) := by
  by_cases hpairs :
      LeasewebCapacityRepublisher.pairsOf offers (strip (textOf credentialAccountId)) = []
  · rw [offers_of_idle (Or.inr (Or.inr hpairs)), LeasewebCapacityRepublisher.rankingsOf, hpairs]
    rfl
  · rw [offers_afterCapacityRefusal hprovider howners hpairs,
      LeasewebCapacityRepublisher.rankingsOf]
    have hrow := get_settlePairs republisher
      (nodup_pairsOf offers (strip (textOf credentialAccountId)))
      (strip (textOf credentialAccountId)) pair { offers := offers }
    dsimp only at hrow ⊢
    rw [← hrow]
    split
    · rfl
    · rw [markUnavailable, Table.get_update, Option.map_map]
      exact congrArg (Option.map · _) (funext fun row ↦ account_retire row _ _ _)

/-! #### Choices -/

section Choices

variable {ranked : List RankedEntry} {limited : List String} {entry : RankedEntry}

/-- Among accounts that may take orders, the first that may serve the pair is, when none proved it,
the first whose read was inconclusive. -/
theorem find?_candidate (hopen : ∀ entry ∈ ranked, entry.accountId ∉ limited)
    (hunproven : ∀ entry ∈ ranked, entry.imagesState ≠ .ok) :
    ranked.find? (·.candidate limited) = ranked.find? (·.imagesState = .unknown) := by
  refine List.find?_congr fun entry hentry ↦ ?_
  rw [Bool.eq_iff_iff, candidate_eq_true, decide_eq_true_iff]
  constructor
  · rintro ⟨-, hok | hunknown⟩
    · exact absurd hok (hunproven entry hentry)
    · exact hunknown
  · intro hunknown
    exact ⟨hopen entry hentry, Or.inr hunknown⟩

/-- What a republication publishes: a proof, or without any the first inconclusive account. -/
theorem exists_of_published {choice : OwnerChoice}
    (hopen : ∀ entry ∈ ranked, entry.accountId ∉ account :: limited)
    (hchoice : selectHourlyOwner ranked (some account) (account :: limited) = some choice)
    (hpublished : choice.published = true) :
    ∃ entry ∈ ranked, choice.accountId = entry.accountId ∧ choice.item = entry.item ∧
      (entry.imagesState = .ok ∨ (∀ other ∈ ranked, other.imagesState ≠ .ok) ∧
        ranked.find? (·.imagesState = .unknown) = some entry) := by
  obtain ⟨entry, hentry⟩ := selectHourlyOwner_cases hchoice
  refine ⟨entry, hentry.mem, hentry.entry_eq.1, hentry.entry_eq.2.2, ?_⟩
  cases hentry with
  | proved _ hproven _ => exact Or.inl (proven_eq_true.mp hproven).2
  | kept howner _ =>
    have howned := List.find?_some howner
    have haccount : entry.accountId = account := Option.some.inj (of_decide_eq_true howned)
    exact absurd (haccount ▸ List.mem_cons_self)
      (hopen entry (List.mem_of_find?_eq_some howner))
  | fallback _ hunproven hfirst =>
    have hnone : ∀ other ∈ ranked, other.imagesState ≠ .ok := by
      intro other hother hok
      have hproven := proven_eq_true.mpr ⟨hopen other hother, hok⟩
      rw [hunproven other hother] at hproven
      cases hproven
    rw [find?_candidate hopen hnone] at hfirst
    exact Or.inr ⟨hnone, hfirst⟩
  | left _ _ _ => cases hpublished

/-- Without a proof the first inconclusive account is published. -/
theorem exists_choice_of_inconclusive
    (hopen : ∀ entry ∈ ranked, entry.accountId ∉ account :: limited)
    (hunproven : ∀ other ∈ ranked, other.imagesState ≠ .ok)
    (hfirst : ranked.find? (·.imagesState = .unknown) = some entry) :
    ∃ choice, selectHourlyOwner ranked (some account) (account :: limited) = some choice ∧
      choice.published = true ∧ choice.accountId = entry.accountId ∧ choice.item = entry.item := by
  have hunowned : ranked.find? (·.ownedBy (some account)) = none := by
    refine List.find?_eq_none.mpr fun other hother howned ↦ hopen other hother ?_
    rw [Option.some.inj (of_decide_eq_true howned)]
    exact List.mem_cons_self
  have hnone : ∀ other ∈ ranked, other.proven (account :: limited) = false := by
    intro other hother
    by_contra hproven
    exact hunproven other hother (proven_eq_true.mp (Bool.eq_true_of_not_eq_false hproven)).2
  have hleads : Leads ranked (some account) (account :: limited) entry :=
    .first hunowned hnone (by rw [find?_candidate hopen hunproven, hfirst])
  obtain ⟨choice, hchoice, hpublished, haccount⟩ := hleads.chosen
  obtain ⟨other, hother, -, hitem, hcases⟩ := exists_of_published hopen hchoice hpublished
  refine ⟨choice, hchoice, hpublished, haccount, ?_⟩
  cases hcases with
  | inl hok => exact absurd hok (hunproven other hother)
  | inr hother => rw [hitem, Option.some.inj (hother.2.symm.trans hfirst)]

end Choices

/-- A pair whose row a settlement gives to another account: its choice was published, and its
upsert taken. -/
theorem exists_of_settledRow {fault : Option Raised} {limited : List String}
    {ranked : List RankedEntry} {row : OfferRow} {refused : String}
    (howned : strip row.account ≠ "")
    (hafter : (settledRow fault refused limited pair ranked (some row)).map (·.account) =
      some account) (hmoved : account ∉ spellings row) :
    ∃ choice update, selectHourlyOwner ranked (some refused) (refused :: limited) = some choice ∧
      choice.published = true ∧ fault = none ∧ account = storedAccount choice.accountId ∧
      offerSpecFromItem choice.item pair.2 true choice.accountId = .ok update := by
  have hstill : some row.account ≠ some account := fun heq ↦
    hmoved (by rw [← Option.some.inj heq]; exact List.mem_cons_self)
  unfold settledRow at hafter
  split at hafter
  · exact absurd hafter hstill
  rename_i choice hchoice
  split at hafter
  · exact absurd hafter hstill
  rename_i hmoves
  split at hafter
  · exact absurd hafter hstill
  rename_i update hspec
  split at hafter
  · exact absurd hafter hstill
  rename_i hfault
  rw [landed_account (specOf_of_eq_ok hspec) howned] at hafter
  refine ⟨choice, update, hchoice, ?_, ?_, (Option.some.inj hafter).symm, hspec⟩
  · exact Bool.eq_true_of_not_eq_false fun hfalse ↦ hmoves (Or.inr hfalse)
  · exact Option.not_isSome_iff_eq_none.mp hfault

/-- A pair is ranked once. -/
theorem rankingsOf_unique {first second : List RankedEntry}
    (hfirst : (pair, first) ∈ republisher.rankingsOf offers account)
    (hsecond : (pair, second) ∈ republisher.rankingsOf offers account) : first = second := by
  have hnodup : ((republisher.rankingsOf offers account).map Prod.fst).Nodup := by
    rw [LeasewebCapacityRepublisher.rankingsOf, fst_rankings]
    exact nodup_pairsOf offers account
  exact congrArg Prod.snd (List.inj_on_of_nodup_map hnodup hfirst hsecond rfl)

theorem find?_rankingsOf {ranked : List RankedEntry}
    (h : (pair, ranked) ∈ republisher.rankingsOf offers account) :
    (republisher.rankingsOf offers account).find? (·.1 = pair) = some (pair, ranked) := by
  cases hfound : (republisher.rankingsOf offers account).find? (·.1 = pair) with
  | none => exact absurd (decide_eq_true rfl) (List.find?_eq_none.mp hfound _ h)
  | some found =>
    obtain ⟨other, otherRanked⟩ := found
    obtain rfl : other = pair := by simpa using List.find?_some hfound
    rw [rankingsOf_unique h (List.mem_of_find?_eq_some hfound)]

/-- Every pair that a call may move is proved by some account, or the first account whose image read
was inconclusive is the owner under another spelling, or listed a type that does not fit. -/
def NoInconclusiveMoves (republisher : LeasewebCapacityRepublisher) (offers : OfferTable)
    (provider : String) (credentialAccountId : Option String) : Prop :=
  ∀ pair ranked row, provider = providerKey → republisher.ownersFault = none →
    (pair, ranked) ∈ republisher.rankingsOf offers (strip (textOf credentialAccountId)) →
    offers.get (hourlyKey pair) = some row → republisher.upsertFault pair = none →
    (∃ entry ∈ ranked, entry.imagesState = .ok) ∨
    ∀ entry ∈ ranked.find? (·.imagesState = .unknown),
      storedAccount entry.accountId ∈ spellings row ∨
      ∀ update, offerSpecFromItem entry.item pair.2 true entry.accountId ≠ .ok update

/-- A call moves pairs on proof exactly if no inconclusive read moves one. -/
theorem refusalMovesOnProof_iff (republisher : LeasewebCapacityRepublisher) (offers : OfferTable)
    (provider : String) (credentialAccountId : Option String) :
    RefusalMovesOnProof republisher offers provider credentialAccountId ↔
      NoInconclusiveMoves republisher offers provider credentialAccountId := by
  unfold RefusalMovesOnProof
  constructor
  · intro h pair ranked row hprovider howners hranked hrow hfault
    by_cases hproved : ∃ entry ∈ ranked, entry.imagesState = .ok
    · exact Or.inl hproved
    have hunproven : ∀ other ∈ ranked, other.imagesState ≠ .ok := by simpa using hproved
    refine Or.inr fun entry hfirst ↦ ?_
    by_cases hspelling : storedAccount entry.accountId ∈ spellings row
    · exact Or.inl hspelling
    refine Or.inr fun update hspec ↦ ?_
    have hopen : ∀ entry ∈ ranked, entry.accountId ∉ strip (textOf credentialAccountId) ::
        republisher.limitedAccounts (strip (textOf credentialAccountId)) :=
      fun entry hentry ↦ unlimited_of_mem_rankings hranked hentry
    have hpair : pair ∈ LeasewebCapacityRepublisher.pairsOf offers
        (strip (textOf credentialAccountId)) := by
      rw [← fst_rankings (republisher.candidates (strip (textOf credentialAccountId)))
        (LeasewebCapacityRepublisher.pairsOf offers (strip (textOf credentialAccountId)))
        fun _ ↦ none]
      exact List.mem_map_of_mem hranked
    have howned := ((mem_pairsOf hrow).mp hpair).1
    obtain ⟨choice, hchoice, hpublished, haccount, hitem⟩ :=
      exists_choice_of_inconclusive hopen hunproven hfirst
    have hother : choice.accountId ≠ strip (textOf credentialAccountId) := by
      rw [haccount]
      exact fun heq ↦ hopen entry (List.mem_of_find?_eq_some hfirst) (heq ▸ List.mem_cons_self)
    have hafter : ((republisher.afterCapacityRefusal offers provider credentialAccountId).2.get
        (hourlyKey pair)).map (·.account) = some (storedAccount entry.accountId) := by
      rw [account_afterCapacityRefusal hprovider howners, find?_rankingsOf hranked,
        Option.elim_some, settledRow]
      simp only [hchoice]
      rw [if_neg (by simp [hother, hpublished]), hitem, haccount]
      simp only [hspec]
      rw [hfault, if_neg (by simp), hrow]
      exact landed_account (specOf_of_eq_ok hspec) howned
    obtain ⟨others, hothers, other, hmem, hsame, hok⟩ :=
      h pair _ ⟨row, hrow, howned, hafter, hspelling⟩
    rw [← rankingsOf_unique hranked hothers] at hmem
    exact hunproven other hmem hok
  · intro h pair account hrepinned
    obtain ⟨row, hrow, howned, hafter, hmoved⟩ := hrepinned.moved
    have hstill : (offers.get (hourlyKey pair)).map (·.account) ≠ some account := by
      rw [hrow, Option.map_some]
      exact fun heq ↦ hmoved (by rw [← Option.some.inj heq]; exact List.mem_cons_self)
    by_cases hreads : provider = providerKey ∧ republisher.ownersFault = none
    swap
    · rw [offers_of_idle (by
        by_cases hprovider : provider = providerKey
        · exact Or.inr (Or.inl fun hnone ↦ hreads ⟨hprovider, hnone⟩)
        · exact Or.inl hprovider)] at hafter
      exact absurd hafter hstill
    obtain ⟨hprovider, howners⟩ := hreads
    rw [account_afterCapacityRefusal hprovider howners] at hafter
    cases hfound : (republisher.rankingsOf offers (strip (textOf credentialAccountId))).find?
        (·.1 = pair) with
    | none =>
      rw [hfound] at hafter
      exact absurd hafter hstill
    | some found =>
      obtain ⟨other, ranked⟩ := found
      obtain rfl : other = pair := by simpa using List.find?_some hfound
      have hranked := List.mem_of_find?_eq_some hfound
      rw [hfound, Option.elim_some, hrow] at hafter
      obtain ⟨choice, update, hchoice, hpublished, hfault, rfl, hspec⟩ :=
        exists_of_settledRow howned hafter hmoved
      obtain ⟨entry, hentry, haccount, hitem, hcases⟩ := exists_of_published
        (fun entry hentry ↦ unlimited_of_mem_rankings hranked hentry) hchoice hpublished
      refine ⟨ranked, hranked, ?_⟩
      rcases hcases with hok | ⟨hunproven, hfirst⟩
      · exact ⟨entry, hentry, by rw [haccount], hok⟩
      rcases h other ranked row hprovider howners hranked hrow hfault with hproved | hsafe
      · obtain ⟨proof, hmem, hok⟩ := hproved
        exact absurd hok (hunproven proof hmem)
      · rcases hsafe entry hfirst with hspelling | hunfit
        · rw [← haccount] at hspelling
          exact absurd hspelling hmoved
        · rw [hitem, haccount] at hspec
          exact absurd hspec (hunfit update)

end Republication

/-! ### Both callers -/

def largeType : CloudInstanceType where
  id := "lsw.c3.large"
  name := "C3 large"
  vcpu := 2
  ramGb := 4
  diskGb := 40
  hourlyCostMinor := 2
  currency := "EUR"
  hourlyRateExact := "0.0165"

/-- The hourly offer of the account `north`. -/
def northRow : OfferRow where
  providerKey := "leaseweb"
  productId := "lsw.c3.large"
  locationId := "eu-west-3"
  billingModel := "hourly"
  name := "C3 large"
  vcpu := 2
  ramGb := 4
  diskGb := 40
  traffic := none
  providerCostMinor := 2
  providerCostCurrency := "EUR"
  sellingCurrency := "EUR"
  providerAvailable := true
  providerAccountId := some "north"

def northOnly : OfferTable := ⟨[northRow], List.nodup_singleton _⟩

def timeout : Raised := ⟨.providerUnavailable, "timeout"⟩

/-- The types read of `north` and the image read of `south` time out. -/
def timeoutsOfBoth : LeasewebHourlyCloudSyncer where
  accounts := [⟨"north", .ok [⟨"eu-west-3", .error timeout, .ok []⟩]⟩,
    ⟨"south", .ok [⟨"eu-west-3", .ok [largeType], .error timeout⟩]⟩]

/-- The image read of `south` times out. -/
def timeoutOfSouth : LeasewebCapacityRepublisher where
  accounts := [{
    accountId := "south"
    regions := fun _ ↦ .ok ["eu-west-3"]
    types := fun _ ↦ .ok [largeType]
    images := fun _ ↦ .error timeout }]

end CloudPlatform.Leaseweb
