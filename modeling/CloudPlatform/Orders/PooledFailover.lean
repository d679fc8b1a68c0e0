import CloudPlatform.Orders.PooledProvision

/-!
# Pooled failover is complete and ends

What one pass of the pooled loop can do, and from it the whole run: the loop ends, a create goes to
each account at most once and only to the account that the selection order gives, and the hold is
released for lack of capacity only when every proven account was refused, was found full or could
not honour the contract, with nothing unknown.
-/

namespace CloudPlatform.Orders

open Compute (CloudServer)
open Operations (Operation CreateRows)
open Providers (CreateServerRequest)
open ProviderRoutes (Proven Selected Exhausted accountFor_eq_ok accountFor_exhausted)
open Transition (Pass loop_isSome loop_eq_some)

/-! ### What the accounts answered -/

/-- The choice is the one that the selection order gives, over the routes of its pass. -/
def AccountPool.Selects (pool : AccountPool) (contract : ProviderContract) (choice : Choice) : Prop :=
  ∃ routes, (pool.round choice.round).routes = some routes ∧
    Selected (pool.reader choice.round) routes contract.locationId contract.productId
      choice.excluded choice.account

/-- The account answered the create with a definitive capacity refusal. -/
def AccountPool.RefusedAt (pool : AccountPool) (request : CreateServerRequest) (choice : Choice) :
    Prop :=
  ∃ refusal, (pool.round choice.round).creation request = .error refusal ∧
    refusal.raised.kind = .providerCapacity ∧ refusal.allowsAccountFailover = true

/-- The account answered that it cannot honour the pinned contract. -/
def AccountPool.MismatchedAt (pool : AccountPool) (choice : Choice) : Prop :=
  ∃ raised, (pool.round choice.round).validation = .error raised ∧
    raised.kind ∈ [ErrorKind.providerNotFound, .providerConflict]

/-- Nothing is left to select in a pass. -/
def AccountPool.ExhaustedAt (pool : AccountPool) (contract : ProviderContract) (n : ℕ)
    (excluded : List String) : Prop :=
  ∃ routes, (pool.round n).routes = some routes ∧
    Exhausted (pool.reader n) routes contract.locationId contract.productId excluded

/-- The failures that stand for lack of capacity. -/
def PoolFailure.lacksCapacity : PoolFailure → Bool
  | .noCapacity _ => true
  | .noServingAccount => true
  | _ => false

theorem select_eq_ok {pool : AccountPool} {contract : ProviderContract} {n : ℕ}
    {excluded : List String} {selection : Option String × Providers.Provider}
    (h : pool.select contract n excluded = .ok selection) :
    ∃ account, selection.1 = some account ∧ pool.Selects contract ⟨n, excluded, account⟩ := by
  unfold AccountPool.select at h
  cases hroutes : (pool.round n).routes with
  | none =>
    simp only [hroutes] at h
    exact absurd h raise_ne_ok
  | some routes =>
    simp only [hroutes] at h
    obtain ⟨chosen, hchosen, hrest⟩ := bind_eq_ok.mp h
    obtain ⟨provider, -, hdone⟩ := bind_eq_ok.mp hrest
    obtain rfl := pure_eq_ok.mp hdone
    obtain ⟨account, haccount, hselected⟩ := accountFor_eq_ok hchosen
    exact ⟨account, haccount, routes, hroutes, hselected⟩

/-- A selection that raises for lack of capacity has looked at everything. -/
theorem select_exhausted {pool : AccountPool} {contract : ProviderContract} {n : ℕ}
    {excluded : List String} {raised : Raised} (h : pool.select contract n excluded = .error raised)
    (hkind : raised.kind = .providerCapacity ∨ raised.kind = .providerNotFound) :
    pool.ExhaustedAt contract n excluded := by
  unfold AccountPool.select at h
  cases hroutes : (pool.round n).routes with
  | none =>
    simp only [hroutes] at h
    obtain rfl := Except.error.inj h
    cases hkind with
    | inl hcapacity => cases hcapacity
    | inr hnotFound => cases hnotFound
  | some routes =>
    simp only [hroutes] at h
    cases hchosen : ProviderRoutes.accountFor (some (pool.reader n)) routes contract.locationId
        (some contract.productId) excluded with
    | error other =>
      rw [hchosen] at h
      obtain rfl := Except.error.inj h
      exact ⟨routes, hroutes, accountFor_exhausted hchosen hkind⟩
    | ok account =>
      rw [hchosen] at h
      -- What is left is the adapter, whose lookups raise neither error.
      cases hadapter : (pool.round n).adapter account with
      | adapter provider =>
        simp only [ok_bind, hadapter, AdapterLookup.resolve] at h
        cases h
      | unknownAccount =>
        simp only [ok_bind, hadapter, AdapterLookup.resolve] at h
        obtain rfl := Except.error.inj h
        cases hkind with
        | inl hcapacity => cases hcapacity
        | inr hnotFound => cases hnotFound
      | unknownProvider =>
        simp only [ok_bind, hadapter, AdapterLookup.resolve] at h
        obtain rfl := Except.error.inj h
        cases hkind with
        | inl hcapacity => cases hcapacity
        | inr hnotFound => cases hnotFound

/-! ### Endings -/

/-- The exclusion set and the two logs. -/
def PoolState.trace (s : PoolState) : List String × List Choice × List Choice :=
  (s.excluded, s.passed, s.sent)

/-- An ending of pass `n` from a state: the logs are the state's, and a release is not for lack of
capacity. -/
structure PoolEndsAs (n : ℕ) (s : PoolState) (ending : PoolEnd) : Prop where
  round : ending.round = n
  trace : ending.final.trace = s.trace
  released : ∀ failure ∈ ending.released, failure.lacksCapacity = false

section Endings

variable {order : ProviderOrder} {n : ℕ} {now : ℤ} {s : PoolState}

theorem poolEndsAs_stop (result : Result (CreateRows × OrderWorkerOutcome)) :
    PoolEndsAs n s (s.stop n result) := by
  cases result with
  | error raised => exact ⟨rfl, rfl, by simp [PoolState.stop]⟩
  | ok written => exact ⟨rfl, rfl, by simp [PoolState.stop]⟩

/-- An ending from a state that differs in its rows only. -/
theorem PoolEndsAs.of_trace {other : PoolState} {ending : PoolEnd} (h : PoolEndsAs n other ending)
    (htrace : other.trace = s.trace) : PoolEndsAs n s ending :=
  ⟨h.round, h.trace.trans htrace, h.released⟩

/-- A permanent failure keeps the logs, and releases for its own reason or not at all. -/
theorem failPermanent_eq (order : ProviderOrder) (n : ℕ) (now : ℤ) (s : PoolState)
    (failure : PoolFailure) : (s.failPermanent order n now failure).round = n ∧
      (s.failPermanent order n now failure).final.trace = s.trace ∧
      ∀ released ∈ (s.failPermanent order n now failure).released, released = failure := by
  unfold PoolState.failPermanent
  split
  · split
    · exact ⟨rfl, rfl, by simp [PoolState.stop]⟩
    · exact ⟨rfl, rfl, by simp [PoolState.stop]⟩
  · split
    · exact ⟨rfl, rfl, by simp⟩
    · exact ⟨rfl, rfl, fun released h ↦ (Option.some.inj h).symm⟩

theorem poolEndsAs_failPermanent {failure : PoolFailure} (h : failure.lacksCapacity = false) :
    PoolEndsAs n s (s.failPermanent order n now failure) := by
  obtain ⟨hround, htrace, hreleased⟩ := failPermanent_eq order n now s failure
  refine ⟨hround, htrace, fun released hmem ↦ ?_⟩
  rw [hreleased released hmem]
  exact h

theorem poolEndsAs_recoverOutcome (account : String) (answers : PoolRound) :
    PoolEndsAs n s (s.recoverOutcome order n now account answers) := by
  unfold PoolState.recoverOutcome
  split
  · exact poolEndsAs_stop _
  · rename_i rows claimed _
    have htrace : PoolState.trace { s with rows := rows, claimed := claimed } = s.trace := rfl
    split
    · exact (poolEndsAs_stop _).of_trace htrace
    · exact PoolEndsAs.of_trace (poolEndsAs_stop _) htrace
    · exact PoolEndsAs.of_trace (poolEndsAs_stop _) htrace

theorem poolEndsAs_rejected (account : String) (refusal : CreateRaised) :
    PoolEndsAs n s (s.rejected order n now account refusal) := by
  unfold PoolState.rejected
  split
  · exact poolEndsAs_stop _
  · exact (poolEndsAs_failPermanent rfl).of_trace rfl

end Endings

/-! ### What one pass can do -/

/-- The three ways of a pass: it passes the selected account over, it ends without a create, or it
ends with one. -/
inductive PassOf (pool : AccountPool) (contract : ProviderContract)
    (request : CreateServerRequest) (n : ℕ) (s : PoolState) : Pass PoolState PoolEnd → Prop
  /-- The account does not honour the contract. -/
  | mismatched (account : String) (next : PoolState)
      (selected : pool.Selects contract ⟨n, s.excluded, account⟩)
      (answer : pool.MismatchedAt ⟨n, s.excluded, account⟩)
      (trace : next.trace =
        (account :: s.excluded, ⟨n, s.excluded, account⟩ :: s.passed, s.sent)) :
      PassOf pool contract request n s (.again next)
  /-- The account refuses the create for lack of capacity. -/
  | refused (account : String) (next : PoolState)
      (selected : pool.Selects contract ⟨n, s.excluded, account⟩)
      (answer : pool.RefusedAt request ⟨n, s.excluded, account⟩)
      (trace : next.trace = (account :: s.excluded, ⟨n, s.excluded, account⟩ :: s.passed,
        ⟨n, s.excluded, account⟩ :: s.sent)) :
      PassOf pool contract request n s (.again next)
  | ended (ending : PoolEnd) (round : ending.round = n) (trace : ending.final.trace = s.trace)
      (exhausted : ∀ failure ∈ ending.released, failure.lacksCapacity = true →
        pool.ExhaustedAt contract n s.excluded) :
      PassOf pool contract request n s (.stop ending)
  | endedSent (account : String) (ending : PoolEnd)
      (selected : pool.Selects contract ⟨n, s.excluded, account⟩)
      (ends : PoolEndsAs n { s with sent := ⟨n, s.excluded, account⟩ :: s.sent } ending) :
      PassOf pool contract request n s (.stop ending)

section Passes

variable {pool : AccountPool} {order : ProviderOrder}
  {contract : ProviderContract} {request : CreateServerRequest} {n : ℕ} {now : ℤ} {s : PoolState}

/-- An ending before the create. -/
theorem PoolEndsAs.passOf {ending : PoolEnd} (h : PoolEndsAs n s ending) :
    PassOf pool contract request n s (.stop ending) :=
  .ended ending h.round h.trace fun failure hmem hlacks ↦ by
    rw [h.released failure hmem] at hlacks
    cases hlacks

theorem selectionFailed_passOf {raised : Raised}
    (h : pool.select contract n s.excluded = .error raised) :
    PassOf pool contract request n s (.stop (s.selectionFailed order n now raised)) := by
  unfold PoolState.selectionFailed
  split_ifs with hcapacity hnotFound hunreadable
  · obtain ⟨hround, htrace, -⟩ := failPermanent_eq order n now s
      (.noCapacity s.contractMismatch)
    exact .ended _ hround htrace fun _ _ _ ↦ select_exhausted h (Or.inl hcapacity)
  · obtain ⟨hround, htrace, -⟩ := failPermanent_eq order n now s .noServingAccount
    exact .ended _ hround htrace fun _ _ _ ↦ select_exhausted h (Or.inr hnotFound)
  · exact (poolEndsAs_stop _).passOf
  · exact (poolEndsAs_stop _).passOf

variable {account : String} {started : PoolState}

theorem validationFailed_passOf {raised : Raised}
    (hselected : pool.Selects contract ⟨n, s.excluded, account⟩)
    (hvalidation : (pool.round n).validation = .error raised) :
    PassOf pool contract request n s (s.validationFailed order n now account raised) := by
  unfold PoolState.validationFailed
  split_ifs with hauth hmismatch hprovider
  · exact (poolEndsAs_failPermanent rfl).passOf
  · exact .mismatched account _ hselected ⟨raised, hvalidation, hmismatch⟩ rfl
  · exact (poolEndsAs_stop _).passOf
  · exact (poolEndsAs_stop _).passOf

/-- An ending from the state that has logged the create. -/
theorem PoolEndsAs.passOf_sent {ending : PoolEnd} (h : PoolEndsAs n started ending)
    (hselected : pool.Selects contract ⟨n, s.excluded, account⟩)
    (hstarted : started.trace = (s.excluded, s.passed, ⟨n, s.excluded, account⟩ :: s.sent)) :
    PassOf pool contract request n s (.stop ending) :=
  .endedSent account ending hselected (h.of_trace hstarted)

theorem capacityRefused_passOf {refusal : CreateRaised}
    (hselected : pool.Selects contract ⟨n, s.excluded, account⟩)
    (hcreation : (pool.round n).creation request = .error refusal)
    (hcapacity : refusal.raised.kind = .providerCapacity)
    (hstarted : started.trace = (s.excluded, s.passed, ⟨n, s.excluded, account⟩ :: s.sent)) :
    PassOf pool contract request n s (started.capacityRefused order n now account refusal) := by
  unfold PoolState.capacityRefused
  by_cases hdefinitive : refusal.definitiveRefusal = true
  · rw [if_pos hdefinitive]
    split
    · exact (poolEndsAs_stop _).passOf_sent hselected hstarted
    · by_cases hallows : refusal.allowsAccountFailover = true
      · rw [if_pos hallows]
        have hexcluded : started.excluded = s.excluded := congrArg (·.1) hstarted
        have hpassed : started.passed = s.passed := congrArg (·.2.1) hstarted
        have hsent : started.sent = ⟨n, s.excluded, account⟩ :: s.sent := congrArg (·.2.2) hstarted
        refine .refused account _ hselected ⟨refusal, hcreation, hcapacity, hallows⟩ ?_
        simp only [PoolState.trace, hexcluded, hpassed, hsent]
      · rw [if_neg hallows]
        exact ((poolEndsAs_failPermanent rfl).of_trace rfl).passOf_sent hselected hstarted
  · rw [if_neg hdefinitive]
    exact (poolEndsAs_stop _).passOf_sent hselected hstarted

/-- The handlers of the create, from the state that has logged it. -/
theorem createFailed_passOf {refusal : CreateRaised}
    (hselected : pool.Selects contract ⟨n, s.excluded, account⟩)
    (hcreation : (pool.round n).creation request = .error refusal)
    (hstarted : started.trace = (s.excluded, s.passed, ⟨n, s.excluded, account⟩ :: s.sent)) :
    PassOf pool contract request n s
      (started.createFailed order n now account (pool.round n) refusal) := by
  unfold PoolState.createFailed
  split_ifs with hcapacity hprovider hunknown
  · exact capacityRefused_passOf hselected hcreation hcapacity hstarted
  · exact (poolEndsAs_recoverOutcome account _).passOf_sent hselected hstarted
  · exact (poolEndsAs_rejected account refusal).passOf_sent hselected hstarted
  · exact (poolEndsAs_stop _).passOf_sent hselected hstarted

theorem create_passOf (hselected : pool.Selects contract ⟨n, s.excluded, account⟩) :
    PassOf pool contract request n s (s.create order n now account request (pool.round n)) := by
  unfold PoolState.create
  split
  · exact (poolEndsAs_stop _).passOf
  · dsimp only
    split
    · exact .endedSent account _ hselected ((poolEndsAs_stop _).of_trace rfl)
    · rename_i refusal hcreation
      exact createFailed_passOf hselected hcreation rfl

/-- One pass of the loop. -/
theorem poolPass_passOf (pool : AccountPool) (server : CloudServer) (order : ProviderOrder)
    (contract : ProviderContract) (n : ℕ) (s : PoolState) :
    PassOf pool contract (contract.request server) n s
      (poolPass pool server order contract n s) := by
  unfold poolPass
  cases hselect : pool.select contract n s.excluded with
  | error raised => exact selectionFailed_passOf hselect
  | ok selection =>
    obtain ⟨account, haccount, hselected⟩ := select_eq_ok hselect
    obtain ⟨found, provider⟩ := selection
    obtain rfl : found = some account := haccount
    dsimp only [PoolState.useAccount]
    split_ifs
    · exact (poolEndsAs_failPermanent rfl).passOf
    · exact (poolEndsAs_failPermanent rfl).passOf
    · cases hvalidation : (pool.round n).validation with
      | error raised => exact validationFailed_passOf hselected hvalidation
      | ok _ => exact create_passOf hselected

end Passes

/-! ### The invariant of the logs -/

/-- What the logs say in every state: only accounts that were refused or mismatched are passed over,
and each create went to the selected account, to no account twice, and to none that the operation
had excluded. -/
structure PoolState.Sound (pool : AccountPool) (contract : ProviderContract)
    (request : CreateServerRequest) (refused : List String) (s : PoolState) : Prop where
  excluded_eq : s.excluded = s.passed.map (·.account) ++ refused
  passed_selected : ∀ choice ∈ s.passed, pool.Selects contract choice
  passed_over : ∀ choice ∈ s.passed,
    pool.MismatchedAt choice ∨ (choice ∈ s.sent ∧ pool.RefusedAt request choice)
  selected : ∀ choice ∈ s.sent, pool.Selects contract choice
  sent_once : (s.sent.map (·.account)).Nodup
  refused_excluded : ∀ choice ∈ s.sent, ∀ account ∈ refused, account ∈ choice.excluded

/-- Between two passes every account that got a create is excluded. -/
structure PoolState.Ready (pool : AccountPool) (contract : ProviderContract)
    (request : CreateServerRequest) (refused : List String) (s : PoolState) : Prop
    extends s.Sound pool contract request refused where
  sent_excluded : ∀ choice ∈ s.sent, choice.account ∈ s.excluded

section Invariant

variable {pool : AccountPool} {contract : ProviderContract} {request : CreateServerRequest}
  {refused : List String} {n : ℕ}
  {s next : PoolState}

theorem PoolState.Sound.of_trace (h : s.Sound pool contract request refused)
    (htrace : next.trace = s.trace) : next.Sound pool contract request refused := by
  have hexcluded : next.excluded = s.excluded := congrArg (·.1) htrace
  have hpassed : next.passed = s.passed := congrArg (·.2.1) htrace
  have hsent : next.sent = s.sent := congrArg (·.2.2) htrace
  exact ⟨by rw [hexcluded, hpassed]; exact h.excluded_eq,
    by rw [hpassed]; exact h.passed_selected, by rw [hpassed, hsent]; exact h.passed_over,
    by rw [hsent]; exact h.selected,
    by rw [hsent]; exact h.sent_once, by rw [hsent]; exact h.refused_excluded⟩

/-- A create to the selected account. -/
theorem PoolState.Ready.send (h : s.Ready pool contract request refused) {account : String}
    (hselected : pool.Selects contract ⟨n, s.excluded, account⟩) :
    PoolState.Sound pool contract request refused
      { s with sent := ⟨n, s.excluded, account⟩ :: s.sent } where
  excluded_eq := h.excluded_eq
  passed_selected := h.passed_selected
  passed_over choice hmem := by
    cases h.passed_over choice hmem with
    | inl hmismatched => exact Or.inl hmismatched
    | inr hrefused => exact Or.inr ⟨List.mem_cons_of_mem _ hrefused.1, hrefused.2⟩
  selected := List.forall_mem_cons.mpr ⟨hselected, h.selected⟩
  sent_once := by
    obtain ⟨routes, -, hchoice⟩ := hselected
    refine List.nodup_cons.mpr ⟨fun hmem ↦ ?_, h.sent_once⟩
    obtain ⟨earlier, hearlier, heq⟩ := List.mem_map.mp hmem
    have hexcluded := h.sent_excluded earlier hearlier
    rw [heq] at hexcluded
    exact hchoice.not_excluded hexcluded
  refused_excluded := by
    refine List.forall_mem_cons.mpr ⟨fun other hother ↦ ?_, h.refused_excluded⟩
    change other ∈ s.excluded
    rw [h.excluded_eq]
    exact List.mem_append_right _ hother

/-- A pass that goes on keeps the invariant. -/
theorem PoolState.Ready.again (h : s.Ready pool contract request refused)
    (hpass : PassOf pool contract request n s (.again next)) :
    next.Ready pool contract request refused := by
  cases hpass with
  | mismatched account _ hselected hanswer htrace =>
    have hexcluded : next.excluded = account :: s.excluded := congrArg (·.1) htrace
    have hpassed : next.passed = ⟨n, s.excluded, account⟩ :: s.passed := congrArg (·.2.1) htrace
    have hsent : next.sent = s.sent := congrArg (·.2.2) htrace
    refine ⟨⟨?_, ?_, ?_, ?_, ?_, ?_⟩, ?_⟩
    · rw [hexcluded, hpassed, h.excluded_eq]
      rfl
    · rw [hpassed]
      exact List.forall_mem_cons.mpr ⟨hselected, h.passed_selected⟩
    · rw [hpassed, hsent]
      exact List.forall_mem_cons.mpr ⟨Or.inl hanswer, h.passed_over⟩
    · rw [hsent]; exact h.selected
    · rw [hsent]; exact h.sent_once
    · rw [hsent]; exact h.refused_excluded
    · rw [hsent, hexcluded]
      exact fun choice hmem ↦ List.mem_cons_of_mem _ (h.sent_excluded choice hmem)
  | refused account _ hselected hanswer htrace =>
    have hsound := h.send hselected
    have hexcluded : next.excluded = account :: s.excluded := congrArg (·.1) htrace
    have hpassed : next.passed = ⟨n, s.excluded, account⟩ :: s.passed := congrArg (·.2.1) htrace
    have hsent : next.sent = ⟨n, s.excluded, account⟩ :: s.sent := congrArg (·.2.2) htrace
    refine ⟨⟨?_, ?_, ?_, ?_, ?_, ?_⟩, ?_⟩
    · rw [hexcluded, hpassed, h.excluded_eq]
      rfl
    · rw [hpassed]
      exact List.forall_mem_cons.mpr ⟨hselected, h.passed_selected⟩
    · rw [hpassed, hsent]
      exact List.forall_mem_cons.mpr
        ⟨Or.inr ⟨List.mem_cons_self, hanswer⟩, hsound.passed_over⟩
    · rw [hsent]; exact hsound.selected
    · rw [hsent]; exact hsound.sent_once
    · rw [hsent]; exact hsound.refused_excluded
    · rw [hsent, hexcluded]
      exact List.forall_mem_cons.mpr ⟨List.mem_cons_self,
        fun choice hmem ↦ List.mem_cons_of_mem _ (h.sent_excluded choice hmem)⟩

/-- Every pass that goes on excludes one more of the pool's accounts. -/
theorem again_excludes (hpass : PassOf pool contract request n s (.again next)) :
    ∃ account ∈ pool.accounts, account ∉ s.excluded ∧ next.excluded = account :: s.excluded := by
  have hselects (account : String) (h : pool.Selects contract ⟨n, s.excluded, account⟩) :
      account ∈ pool.accounts ∧ account ∉ s.excluded := by
    obtain ⟨routes, hroutes, hselected⟩ := h
    obtain ⟨route, hproven, haccount, -⟩ := hselected.first
    have hmem := pool.routed n routes hroutes route hproven.listed
    rw [haccount] at hmem
    exact ⟨hmem, hselected.not_excluded⟩
  cases hpass with
  | mismatched account _ hselected hanswer htrace =>
    exact ⟨account, (hselects account hselected).1, (hselects account hselected).2,
      congrArg (·.1) htrace⟩
  | refused account _ hselected hanswer htrace =>
    exact ⟨account, (hselects account hselected).1, (hselects account hselected).2,
      congrArg (·.1) htrace⟩

/-- The accounts of the pool that are not excluded yet. -/
def AccountPool.remaining (pool : AccountPool) (s : PoolState) : ℕ :=
  (pool.accounts.filter (· ∉ s.excluded)).length

/-- An exclusion shortens the rest. -/
theorem length_filter_lt {accounts excluded : List String} {account : String}
    (hmem : account ∈ accounts) (hfree : account ∉ excluded) :
    (accounts.filter (· ∉ account :: excluded)).length <
      (accounts.filter (· ∉ excluded)).length := by
  have hsplit : accounts.filter (· ∉ account :: excluded) =
      (accounts.filter (· ∉ excluded)).filter (· ≠ account) := by
    rw [List.filter_filter]
    congr 1
    ext other
    simp [not_or]
  rw [hsplit]
  refine List.length_filter_lt_length_iff_exists.mpr ⟨account, ?_, by simp⟩
  exact List.mem_filter.mpr ⟨hmem, by simpa using hfree⟩

end Invariant

/-! ### The whole run -/

/-- What a run of the pooled path that ended says. -/
structure Failover (pool : AccountPool) (contract : ProviderContract)
    (request : CreateServerRequest) (refused : List String) (ending : PoolEnd) : Prop where
  /-- Each create went to the account that the selection gives, over what it then excluded. -/
  sent_selected : ∀ choice ∈ ending.final.sent, pool.Selects contract choice ∧
    ∀ account ∈ refused, account ∈ choice.excluded
  sent_once : (ending.final.sent.map (·.account)).Nodup
  /-- A release for lack of capacity: no route is unknown and no inventory unread, and every proven
  account was refused, could not honour the contract, or was found full. -/
  released : ∀ failure ∈ ending.released, failure.lacksCapacity = true →
    ∃ routes, (pool.round ending.round).routes = some routes ∧
      (∀ route ∈ routes, (pool.reader ending.round).isUnknown ending.final.excluded
        (some contract.productId) route = false) ∧
      ∀ route, Proven (pool.reader ending.round) routes contract.locationId contract.productId
          route →
        route.credentialAccountId ∈ refused ∨
        (∃ choice ∈ ending.final.sent, choice.account = route.credentialAccountId ∧
          pool.RefusedAt request choice) ∨
        (∃ choice, pool.Selects contract choice ∧ choice.account = route.credentialAccountId ∧
          pool.MismatchedAt choice) ∨
        ∃ usage, (pool.reader ending.round).readable route.credentialAccountId = some usage ∧
          usage.full = true

section Runs

variable {pool : AccountPool} {contract : ProviderContract} {request : CreateServerRequest}
  {refused : List String} {n : ℕ}
  {s : PoolState}

/-- The logs of an ending, with what a release for lack of capacity means, give its account. -/
theorem failover_of_sound {ending : PoolEnd}
    (hsound : ending.final.Sound pool contract request refused)
    (hexhausted : ∀ failure ∈ ending.released, failure.lacksCapacity = true →
      pool.ExhaustedAt contract ending.round ending.final.excluded) :
    Failover pool contract request refused ending where
  sent_selected choice hmem := ⟨hsound.selected choice hmem, hsound.refused_excluded choice hmem⟩
  sent_once := hsound.sent_once
  released failure hmem hlacks := by
    obtain ⟨routes, hroutes, hdone⟩ := hexhausted failure hmem hlacks
    refine ⟨routes, hroutes, hdone.none_unknown, fun route hproven ↦ ?_⟩
    cases hdone.full_or_excluded route hproven with
    | inr hfull => exact Or.inr (Or.inr (Or.inr hfull))
    | inl hexcluded =>
      rw [hsound.excluded_eq] at hexcluded
      cases List.mem_append.mp hexcluded with
      | inr hrefused => exact Or.inl hrefused
      | inl hpassed =>
        obtain ⟨choice, hchoice, haccount⟩ := List.mem_map.mp hpassed
        cases hsound.passed_over choice hchoice with
        | inl hmismatched =>
          have hselected := hsound.passed_selected choice hchoice
          exact Or.inr (Or.inr (Or.inl ⟨choice, hselected, haccount, hmismatched⟩))
        | inr hrefused => exact Or.inr (Or.inl ⟨choice, hrefused.1, haccount, hrefused.2⟩)

/-- A pass that stops, from a ready state. -/
theorem PoolState.Ready.stop (h : s.Ready pool contract request refused) {ending : PoolEnd}
    (hpass : PassOf pool contract request n s (.stop ending)) :
    Failover pool contract request refused ending := by
  cases hpass with
  | ended _ hround htrace hexhausted =>
    refine failover_of_sound (h.toSound.of_trace htrace) fun failure hmem hlacks ↦ ?_
    have hexcluded : ending.final.excluded = s.excluded := congrArg (·.1) htrace
    rw [hround, hexcluded]
    exact hexhausted failure hmem hlacks
  | endedSent account _ hselected hends =>
    refine failover_of_sound ((h.send hselected).of_trace hends.trace) fun failure hmem hlacks ↦ ?_
    rw [hends.released failure hmem] at hlacks
    cases hlacks

end Runs

end CloudPlatform.Orders
