import CloudPlatform.Operations.CreateAttemptsRepository

/-!
# What the create attempt methods write

Every method reads its rows through `bundle` and commits a changed bundle. `Wrote` lists what a
successful call changes in the part of the rows that the safety of a create depends on: the status,
the attempts, and the provider identities of the server, the order and the correlation. One lemma
per method brings it under one of these five cases, with the guards it passed.
-/

namespace CloudPlatform.Operations

open Compute (CloudServer)
open Orders (ProviderOrder)

/-! ### The rows behind a bundle -/

/-- The order row of an order create; a server create has none. -/
def CreateRows.activeOrder (rows : CreateRows) : Option ProviderOrder :=
  if rows.operation.operationType = .orderCreate then rows.order else none

/-- The bundle holds the rows' own operation, server and order. -/
structure Locks (rows : CreateRows) (b : Bundle) : Prop where
  operation_eq : b.operation = rows.operation
  server_eq : rows.server = some b.server
  order_eq : b.order = rows.activeOrder

theorem filter_eq_some {α : Type} {p : α → Bool} {found : Option α} {value : α}
    (h : found.filter p = some value) : found = some value := by
  cases found with
  | none => cases h
  | some other =>
    rw [Option.filter_some] at h
    split at h
    · exact h
    · cases h

variable {orderId : Option Uuid} {operationId : Uuid} {b written : Bundle} {operation : Operation}
  {generation : ℕ} {receipt : CreateRoutingReceipt} {now : ℤ} {rows after : CreateRows}
  {accountId text : String}

variable {rows : CreateRows} {b : Bundle}

/-- The order id that a binding hands on is given exactly for an order create. -/
theorem bound_eq_ok {binding : Option Uuid × Option Uuid} (h : bound rows orderId = .ok binding) :
    binding.1.isSome = decide (rows.operation.operationType = .orderCreate) := by
  unfold bound at h
  cases htype : rows.operation.operationType
  case orderCreate =>
    simp only [htype] at h
    obtain ⟨-, hrest⟩ := conflictIf_bind_eq_ok.mp h
    obtain ⟨-, hdone⟩ := conflictIf_bind_eq_ok.mp hrest
    obtain rfl := pure_eq_ok.mp hdone
    rfl
  case serverCreate =>
    simp only [htype] at h
    obtain ⟨-, hrest⟩ := conflictIf_bind_eq_ok.mp h
    obtain ⟨-, hdone⟩ := conflictIf_bind_eq_ok.mp hrest
    obtain rfl := pure_eq_ok.mp hdone
    rfl
  all_goals
    simp only [htype] at h
    exact absurd h raise_ne_ok

theorem boundOrder_eq_ok {server : CloudServer} {order : Option ProviderOrder}
    (h : boundOrder rows server orderId = .ok order) :
    order = if orderId.isSome then rows.order else none := by
  cases orderId with
  | none => exact (Except.ok.inj h).symm
  | some orderId =>
    simp only [boundOrder] at h
    split at h
    · exact absurd h raise_ne_ok
    · rename_i found hfound
      obtain rfl := Except.ok.inj h
      exact (filter_eq_some hfound).symm

/-- A bundle that was read holds the rows. -/
theorem bundle_eq_ok {serverId orderId : Option Uuid}
    (h : bundle rows operationId serverId orderId = .ok b) : Locks rows b := by
  obtain ⟨-, hbound⟩ := conflictIf_bind_eq_ok.mp h
  obtain ⟨⟨foundOrder, boundServer⟩, hbinding, hserver⟩ := bind_eq_ok.mp hbound
  obtain ⟨-, hfound⟩ := conflictIf_bind_eq_ok.mp hserver
  split at hfound
  · exact absurd hfound raise_ne_ok
  · rename_i server hfilter
    obtain ⟨-, hprovider⟩ := conflictIf_bind_eq_ok.mp hfound
    obtain ⟨order, horder, hpins⟩ := bind_eq_ok.mp hprovider
    obtain ⟨-, -, hdone⟩ := bind_eq_ok.mp hpins
    obtain rfl := pure_eq_ok.mp hdone
    refine ⟨rfl, filter_eq_some hfilter, ?_⟩
    rw [boundOrder_eq_ok horder, bound_eq_ok hbinding]
    simp [CreateRows.activeOrder]

/-- Committing a bundle of the same kind of create gives rows that hold it. -/
theorem commit_locks (h : Locks rows b) (now : ℤ)
    (htype : written.operation.operationType = b.operation.operationType)
    (horder : written.order.isSome = b.order.isSome) : Locks (rows.commit written now)
      { written with operation := { written.operation with updatedAt := some now } } := by
  refine ⟨rfl, rfl, ?_⟩
  change written.order = (rows.commit written now).activeOrder
  have hactive := h.order_eq
  unfold CreateRows.activeOrder at hactive ⊢
  change _ = if written.operation.operationType = .orderCreate then _ else none
  rw [htype, h.operation_eq]
  split
  · rename_i hcreate
    rw [if_pos hcreate] at hactive
    change written.order = (written.order <|> rows.order)
    cases hwritten : written.order with
    | some order => rfl
    | none =>
      rw [hwritten, hactive] at horder
      have hnone : rows.order = none := by simpa using horder.symm
      rw [hnone]
      rfl
  · rename_i hcreate
    rw [if_neg hcreate] at hactive
    rw [hactive] at horder
    simpa using horder

/-! ### The guards -/

/-- Neither the server nor the order carries a provider identity. -/
structure NoIdentity (b : Bundle) : Prop where
  server : truthy b.server.providerServerId = false
  order : ∀ order ∈ b.order, truthy order.providerOrderId = false

theorem unaccepted_eq_ok {u : Unit} (h : unaccepted b.server b.order = .ok u) : NoIdentity b := by
  obtain ⟨hserver, hrest⟩ := conflictIf_bind_eq_ok.mp h
  have horder := conflictIf_eq_ok.mp hrest
  refine ⟨(Bool.or_eq_false_iff.mp hserver).1, fun order hmem ↦ ?_⟩
  rw [Option.mem_def] at hmem
  rw [hmem] at horder
  exact (Bool.or_eq_false_iff.mp horder).1

theorem claimMatches_eq_ok {recovery : Bool}
    (h : claimMatches operation generation recovery = .ok receipt) :
    operation.response.createRouting = some receipt ∧
      (operation.status = .inFlight ∨ (recovery = true ∧ operation.status = .outcomeUnknown)) := by
  obtain ⟨hguard, hrest⟩ := conflictIf_bind_eq_ok.mp h
  obtain ⟨found, hfound, hdone⟩ := bind_eq_ok.mp hrest
  have hstored := createRouting_eq_ok hfound
  cases found with
  | none => exact absurd hdone raise_ne_ok
  | some other =>
    obtain rfl := pure_eq_ok.mp hdone
    refine ⟨hstored.symm, ?_⟩
    simp only [Bool.or_eq_false_iff, decide_eq_false_iff_not, not_not] at hguard
    cases recovery with
    | false => exact Or.inl (by simpa using hguard.2)
    | true => simpa using hguard.2

theorem attemptHistory_of_receipt (h : operation.response.createRouting = some receipt) :
    operation.attemptHistory = receipt.attempts := by
  simp [Operation.attemptHistory, h]

theorem sentAttempt_eq_ok {account message : String} {attempt : CreateRoutingAttempt}
    (h : sentAttempt receipt account message = .ok attempt) :
    receipt.attempts.getLast? = some attempt ∧ attempt.phase = .sent := by
  unfold sentAttempt at h
  split at h
  · exact absurd h raise_ne_ok
  · rename_i last hlast
    obtain ⟨hguard, hdone⟩ := conflictIf_bind_eq_ok.mp h
    obtain rfl := pure_eq_ok.mp hdone
    simp only [Bool.or_eq_false_iff, decide_eq_false_iff_not, not_not] at hguard
    exact ⟨hlast, hguard.1⟩

/-! ### What a call writes -/

/-- The identities stay, except that the correlation may take the server's. -/
structure SameIdentities (b written : Bundle) : Prop where
  server : written.server.providerServerId = b.server.providerServerId
  order : written.order.map (·.providerOrderId) = b.order.map (·.providerOrderId)
  facts : ∀ key ∈ identityKeys,
    written.operation.response.facts.get key = b.operation.response.facts.get key ∨
      written.operation.response.facts.get key = .ofOption b.server.providerServerId

/-- A capacity refusal with documented evidence. -/
def DocumentedRefusal (attempt : CreateRoutingAttempt) : Prop :=
  attempt.phase = .capacityRefused ∧ attempt.errorCode ∈ definitiveCapacityRefusalCodes.map some

instance (attempt : CreateRoutingAttempt) : Decidable (DocumentedRefusal attempt) :=
  inferInstanceAs (Decidable (_ ∧ _))

/-- What the attempts and the identities must be for an operation to take a status without a change
of its attempts. -/
def Settles (b : Bundle) : OperationStatus → Prop
  | .pending => ReadyToSend b.operation
  | .inFlight => b.operation.status = .inFlight ∨
      ∃ attempt ∈ b.operation.attemptHistory.getLast?, attempt.phase = .refused
  | .completed => ∃ attempt ∈ b.operation.attemptHistory.getLast?, attempt.phase = .accepted
  | .failed => NoIdentity b ∧ ∀ attempt ∈ b.operation.attemptHistory.getLast?,
      attempt.phase ∈ [Phase.capacityRefused, .refused]
  | .outcomeUnknown => ∃ attempt ∈ b.operation.attemptHistory.getLast?,
      attempt.phase ∈ [Phase.sent, .outcomeUnknown, .accepted]

/-- What a POST's recorded outcome makes of the SENT attempt and of the status. -/
def RecordsOutcome (b written : Bundle) (attempt : CreateRoutingAttempt) : Prop :=
  (b.operation.status = .inFlight ∧ written.operation.status = .inFlight ∧
    (DocumentedRefusal attempt ∨ attempt.phase = .refused)) ∨
  (written.operation.status = .outcomeUnknown ∧ attempt.phase = .outcomeUnknown)

/-- What a successful call changes, with the accounts it lets its caller POST to. -/
inductive Wrote (b written : Bundle) : List String → Prop
  /-- A claim: the status, and an empty receipt where there was none. -/
  | claimed (pending : b.operation.status = .pending) (none_recorded : NoIdentity b)
      (status : written.operation.status = .inFlight)
      (history : written.operation.attemptHistory = b.operation.attemptHistory)
      (identities : SameIdentities b written)
      (fresh : b.operation.response.createRouting = none → b.operation.attemptHistory = [] ∧
        ∀ key ∈ identityKeys, (b.operation.response.facts.get key).truthy = false) :
      Wrote b written []
  /-- An attempt is recorded as SENT. -/
  | started (live : b.operation.status = .inFlight)
      (status : written.operation.status = .inFlight)
      (ready : ReadyToSend b.operation) (attempt : CreateRoutingAttempt)
      (sent : attempt.phase = .sent) (identity : attempt.providerServerId = none)
      (unused : attempt.accountId ∉ b.operation.attemptHistory.map (·.accountId))
      (history : written.operation.attemptHistory = b.operation.attemptHistory ++ [attempt])
      (identities : SameIdentities b written) : Wrote b written [attempt.accountId]
  /-- The last attempt takes the outcome of its POST. -/
  | recorded (live : b.operation.status = .inFlight ∨ b.operation.status = .outcomeUnknown)
      (last attempt : CreateRoutingAttempt)
      (before : b.operation.attemptHistory.getLast? = some last)
      (account : attempt.accountId = last.accountId)
      (identity : attempt.providerServerId = last.providerServerId)
      (history : written.operation.attemptHistory = b.operation.attemptHistory.dropLast ++ [attempt])
      (outcome : RecordsOutcome b written attempt)
      (identities : SameIdentities b written) : Wrote b written []
  /-- The last attempt is accepted, and its identity goes to every row. -/
  | accepted (live : b.operation.status = .inFlight ∨ b.operation.status = .outcomeUnknown)
      (status : written.operation.status = b.operation.status)
      (last attempt : CreateRoutingAttempt) (providerServerId : String)
      (nonempty : providerServerId ≠ "")
      (before : b.operation.attemptHistory.getLast? = some last)
      (uncertain : last.phase ∈ [Phase.sent, .outcomeUnknown, .accepted])
      (account : attempt.accountId = last.accountId) (phase : attempt.phase = .accepted)
      (identity : attempt.providerServerId = some providerServerId)
      (kept : truthy last.providerServerId → last.providerServerId = some providerServerId)
      (history : written.operation.attemptHistory = b.operation.attemptHistory.dropLast ++ [attempt])
      (server_kept : truthy b.server.providerServerId →
        b.server.providerServerId = some providerServerId)
      (server : written.server.providerServerId = some providerServerId)
      (order_kept : ∀ order ∈ b.order, truthy order.providerOrderId →
        order.providerOrderId = some providerServerId)
      (order : written.order.map (·.providerOrderId) =
        b.order.map fun _ ↦ some providerServerId)
      (fact_kept : (b.operation.response.facts.get "provider_server_id").truthy →
        b.operation.response.facts.get "provider_server_id" = .text providerServerId)
      (facts : written.operation.response.facts =
        ("provider_server_id", .text providerServerId) :: b.operation.response.facts) :
      Wrote b written []
  /-- The status is settled; the attempts stay. -/
  | settled (live : b.operation.status = .inFlight ∨ b.operation.status = .outcomeUnknown)
      (justified : Settles b written.operation.status)
      (history : written.operation.attemptHistory = b.operation.attemptHistory)
      (identities : SameIdentities b written) : Wrote b written []

/-- A successful call read a bundle, wrote one of the same kind, and the rows after it hold that. -/
def Writes (rows after : CreateRows) (sent : List String) : Prop :=
  ∃ b written, Locks rows b ∧ Locks after written ∧ Wrote b written sent

theorem writes_commit {sent : List String} (hlocks : Locks rows b)
    (htype : written.operation.operationType = b.operation.operationType)
    (horder : written.order.isSome = b.order.isSome)
    (hwrote : Wrote b
      { written with operation := { written.operation with updatedAt := some now } } sent) :
    Writes rows (rows.commit written now) sent :=
  ⟨b, _, hlocks, commit_locks hlocks now htype horder, hwrote⟩

/-- A write that leaves the server's identity, the order's and the flat facts. -/
theorem sameIdentities_of_eq (hserver : written.server.providerServerId = b.server.providerServerId)
    (horder : written.order.map (·.providerOrderId) = b.order.map (·.providerOrderId))
    (hfacts : written.operation.response.facts = b.operation.response.facts) :
    SameIdentities b written :=
  ⟨hserver, horder, fun _ _ ↦ Or.inl (by rw [hfacts])⟩

/-! ### The methods -/

/-- The receipt that a claim stores keeps the attempts; where there was none, no identity is
recorded. -/
theorem claimReceipt_eq_ok {catalogAccountId : Option String}
    (h : claimReceipt b.operation b.order catalogAccountId = .ok receipt) :
    receipt.attempts = b.operation.attemptHistory ∧
      (b.operation.response.createRouting = none → b.operation.attemptHistory = [] ∧
        ∀ key ∈ identityKeys, (b.operation.response.facts.get key).truthy = false) := by
  obtain ⟨found, hfound, hrest⟩ := bind_eq_ok.mp h
  have hstored := createRouting_eq_ok hfound
  cases found with
  | none =>
    obtain ⟨-, hidentity⟩ := conflictIf_bind_eq_ok.mp hrest
    obtain ⟨hguard, hdone⟩ := conflictIf_bind_eq_ok.mp hidentity
    obtain rfl := pure_eq_ok.mp hdone
    have hempty : b.operation.attemptHistory = [] := by
      simp [Operation.attemptHistory, ← hstored]
    exact ⟨hempty.symm, fun _ ↦ ⟨hempty, by simpa using hguard⟩⟩
  | some stored =>
    obtain ⟨safe, -, hsafe⟩ := bind_eq_ok.mp hrest
    obtain ⟨-, hdone⟩ := conflictIf_bind_eq_ok.mp hsafe
    obtain rfl := pure_eq_ok.mp hdone
    refine ⟨(attemptHistory_of_receipt hstored.symm).symm, fun hnone ↦ ?_⟩
    rw [hnone] at hstored
    cases hstored

theorem claimCreate_eq_ok {operationId serverId : Uuid} {catalogAccountId : Option String}
    {claimed : Option Operation}
    (h : claimCreate rows operationId serverId orderId catalogAccountId now = .ok (after, claimed)) :
    after = rows ∨ Writes rows after [] := by
  obtain ⟨b, hbundle, hrest⟩ := bind_eq_ok.mp h
  split at hrest
  · obtain ⟨rfl, -⟩ := Prod.mk.inj (pure_eq_ok.mp hrest)
    exact Or.inl rfl
  · rename_i hpending
    obtain ⟨_, hunaccepted, howned⟩ := bind_eq_ok.mp hrest
    obtain ⟨_, -, hfingerprint⟩ := bind_eq_ok.mp howned
    obtain ⟨-, hprovenance⟩ := conflictIf_bind_eq_ok.mp hfingerprint
    obtain ⟨-, hcatalog⟩ := conflictIf_bind_eq_ok.mp hprovenance
    obtain ⟨-, hreceipt⟩ := conflictIf_bind_eq_ok.mp hcatalog
    obtain ⟨receipt, hclaim, hchanged⟩ := bind_eq_ok.mp hreceipt
    obtain ⟨-, hdone⟩ := conflictIf_bind_eq_ok.mp hchanged
    obtain ⟨rfl, -⟩ := Prod.mk.inj (pure_eq_ok.mp hdone)
    obtain ⟨hattempts, hfresh⟩ := claimReceipt_eq_ok hclaim
    exact Or.inr (writes_commit (bundle_eq_ok hbundle) rfl rfl
      (.claimed (not_not.mp hpending) (unaccepted_eq_ok hunaccepted) rfl hattempts
        (sameIdentities_of_eq rfl rfl rfl) hfresh))

theorem freezeRequest_eq_ok {server frozen : CloudServer}
    {requestFacts : Option (List (String × String))}
    (h : freezeRequest server requestFacts = .ok frozen) :
    frozen.providerServerId = server.providerServerId := by
  cases requestFacts with
  | none => rw [Except.ok.inj h]
  | some facts =>
    simp only [freezeRequest] at h
    split at h
    · exact absurd h raise_ne_ok
    · obtain ⟨-, hfrozen⟩ := conflictIf_bind_eq_ok.mp h
      obtain ⟨-, hdone⟩ := conflictIf_bind_eq_ok.mp hfrozen
      obtain rfl := pure_eq_ok.mp hdone
      rfl

theorem startAttempt_eq_ok {requestFacts : Option (List (String × String))}
    (h : startAttempt rows operationId generation accountId requestFacts now =
      .ok (after, operation)) :
    ReadyToSend rows.operation ∧ Writes rows after [normalizeAccountId (some accountId)] := by
  obtain ⟨b, hbundle, hclaim⟩ := bind_eq_ok.mp h
  obtain ⟨receipt, hmatches, hunaccepted⟩ := bind_eq_ok.mp hclaim
  obtain ⟨_, -, hsafe⟩ := bind_eq_ok.mp hunaccepted
  obtain ⟨safe, hprePost, hguard⟩ := bind_eq_ok.mp hsafe
  obtain ⟨hyes, howned⟩ := conflictIf_bind_eq_ok.mp hguard
  obtain ⟨_, -, hunused⟩ := bind_eq_ok.mp howned
  obtain ⟨hnew, hfreeze⟩ := conflictIf_bind_eq_ok.mp hunused
  obtain ⟨server, hserver, hdone⟩ := bind_eq_ok.mp hfreeze
  obtain ⟨rfl, -⟩ := Prod.mk.inj (pure_eq_ok.mp hdone)
  obtain rfl : safe = true := by simpa using hyes
  obtain ⟨hstored, hlive⟩ := claimMatches_eq_ok hmatches
  obtain ⟨-, -, hready⟩ := safePrePost_eq_true hprePost
  have hlocks := bundle_eq_ok hbundle
  have hhistory := attemptHistory_of_receipt hstored
  have hlive' : b.operation.status = .inFlight := by simpa using hlive
  have hidentity : server.providerServerId = b.server.providerServerId :=
    freezeRequest_eq_ok hserver
  refine ⟨hlocks.operation_eq ▸ hready, writes_commit hlocks rfl (by simp) ?_⟩
  refine .started hlive' ?_ hready (receipt.nextAttempt (normalizeAccountId (some accountId)))
    rfl rfl ?_ ?_ (sameIdentities_of_eq hidentity ?_ rfl)
  · exact hlive'
  · rw [hhistory]
    intro hmem
    obtain ⟨earlier, hearlier, haccount⟩ := List.mem_map.mp hmem
    exact List.any_eq_false.mp hnew earlier hearlier (decide_eq_true haccount)
  · rw [hhistory]
    rfl
  · cases b.order <;> rfl

theorem recordRefusal_eq_ok {capacity : Bool} {errorCode : Option String} {quotaNames : List String}
    (h : recordRefusal rows operationId generation accountId capacity errorCode quotaNames now =
      .ok (after, operation)) : Writes rows after [] := by
  obtain ⟨hcapacity, hrest⟩ := conflictIf_bind_eq_ok.mp h
  obtain ⟨b, hbundle, hclaim⟩ := bind_eq_ok.mp hrest
  obtain ⟨receipt, hmatches, hunaccepted⟩ := bind_eq_ok.mp hclaim
  obtain ⟨_, -, howned⟩ := bind_eq_ok.mp hunaccepted
  obtain ⟨_, -, hsent⟩ := bind_eq_ok.mp howned
  obtain ⟨attempt, hattempt, hdone⟩ := bind_eq_ok.mp hsent
  obtain ⟨rfl, -⟩ := Prod.mk.inj (pure_eq_ok.mp hdone)
  obtain ⟨hstored, hlive⟩ := claimMatches_eq_ok hmatches
  obtain ⟨hlast, -⟩ := sentAttempt_eq_ok hattempt
  have hlive' : b.operation.status = .inFlight := by simpa using hlive
  have hhistory := attemptHistory_of_receipt hstored
  refine writes_commit (bundle_eq_ok hbundle) rfl rfl
    (.recorded (Or.inl hlive') attempt (attempt.refuse capacity errorCode quotaNames)
      (hhistory ▸ hlast) rfl rfl ?_ (Or.inl ⟨hlive', hlive', ?_⟩)
      (sameIdentities_of_eq rfl rfl rfl))
  · rw [hhistory]
    rfl
  cases capacity with
  | false => exact Or.inr rfl
  | true =>
    refine Or.inl ⟨rfl, ?_⟩
    have hdocumented : errorCode = some "resource_limit_exceeded" := by
      simpa [definitiveCapacityRefusalCodes] using hcapacity
    subst hdocumented
    have hsafe : safeFact (some "resource_limit_exceeded") = some "resource_limit_exceeded" := by
      decide
    simp [CreateRoutingAttempt.refuse, hsafe, definitiveCapacityRefusalCodes]

theorem recordUnknown_eq_ok
    (h : recordUnknown rows operationId generation accountId now = .ok (after, operation)) :
    Writes rows after [] := by
  obtain ⟨b, hbundle, hclaim⟩ := bind_eq_ok.mp h
  obtain ⟨receipt, hmatches, howned⟩ := bind_eq_ok.mp hclaim
  obtain ⟨_, -, hsent⟩ := bind_eq_ok.mp howned
  obtain ⟨attempt, hattempt, hdone⟩ := bind_eq_ok.mp hsent
  obtain ⟨rfl, -⟩ := Prod.mk.inj (pure_eq_ok.mp hdone)
  obtain ⟨hstored, hlive⟩ := claimMatches_eq_ok hmatches
  obtain ⟨hlast, -⟩ := sentAttempt_eq_ok hattempt
  have hlive' : b.operation.status = .inFlight := by simpa using hlive
  have hhistory := attemptHistory_of_receipt hstored
  refine writes_commit (bundle_eq_ok hbundle) rfl (by simp)
    (.recorded (Or.inl hlive') attempt { attempt with phase := .outcomeUnknown }
      (hhistory ▸ hlast) rfl rfl ?_ (Or.inr ⟨rfl, rfl⟩) (sameIdentities_of_eq rfl ?_ rfl))
  · rw [hhistory]
    rfl
  · cases b.order <;> rfl

theorem safeFact_ne_empty (h : decide (safeFact (some text) = none) = false) : text ≠ "" := by
  rintro rfl
  revert h
  decide

theorem ofOption_eq_text {value : Option String} (h : FactValue.ofOption value = .text text) :
    value = some text := by
  cases value with
  | none => cases h
  | some other => rw [FactValue.text.inj h]

/-- What the identity check of an acceptance knows of each recorded identity. -/
theorem identities_of_any {identities : List FactValue}
    (h : (identities.any fun identity ↦ identity.truthy && decide (identity ≠ .text text)) = false) :
     ∀ identity ∈ identities, identity.truthy = true → identity = .text text := by
  intro identity hmem htruthy
  have hall := List.any_eq_false.mp h identity hmem
  simpa [htruthy] using hall

theorem attachOrder_eq_ok {order after : Option ProviderOrder} {providerServerId : String}
    {firstAcceptance : Bool}
    (h : order.mapM (attachOrder · providerServerId firstAcceptance now) = .ok after) :
    after.map (·.providerOrderId) = order.map fun _ ↦ some providerServerId := by
  cases order with
  | none => rw [← pure_eq_ok.mp h]; rfl
  | some order =>
    obtain ⟨attached, hattached, hdone⟩ := bind_eq_ok.mp h
    obtain ⟨-, hwritten⟩ := conflictIf_bind_eq_ok.mp hattached
    obtain rfl := pure_eq_ok.mp hwritten
    rw [← pure_eq_ok.mp hdone]
    rfl

/-- A POST with a recorded acceptance. -/
theorem recordAcceptance_eq_ok {accountId providerServerId : String} {ipv4 ipv6 : Option String}
    (h : recordAcceptance rows operationId generation accountId providerServerId ipv4 ipv6 now =
      .ok (after, operation)) : Writes rows after [] := by
  obtain ⟨hsafe, hrest⟩ := conflictIf_bind_eq_ok.mp h
  obtain ⟨b, hbundle, hclaim⟩ := bind_eq_ok.mp hrest
  obtain ⟨receipt, hmatches, howned⟩ := bind_eq_ok.mp hclaim
  obtain ⟨_, -, hlast⟩ := bind_eq_ok.mp howned
  split at hlast
  · exact absurd hlast raise_ne_ok
  · rename_i attempt hattempt
    obtain ⟨hphase, hwindow⟩ := conflictIf_bind_eq_ok.mp hlast
    obtain ⟨-, hidentities⟩ := conflictIf_bind_eq_ok.mp hwindow
    obtain ⟨hkept, horder⟩ := conflictIf_bind_eq_ok.mp hidentities
    obtain ⟨order, hattach, hdone⟩ := bind_eq_ok.mp horder
    obtain ⟨rfl, -⟩ := Prod.mk.inj (pure_eq_ok.mp hdone)
    obtain ⟨hstored, hlive⟩ := claimMatches_eq_ok hmatches
    have hhistory := attemptHistory_of_receipt hstored
    have horders := attachOrder_eq_ok hattach
    have hlive' : b.operation.status = .inFlight ∨ b.operation.status = .outcomeUnknown := by
      simpa using hlive
    simp only [Bool.or_eq_false_iff, decide_eq_false_iff_not, not_not] at hphase
    have hsame := identities_of_any hkept
    refine writes_commit (bundle_eq_ok hbundle) rfl ?_
      (.accepted hlive' rfl attempt
        { attempt with phase := .accepted, providerServerId := some providerServerId }
        providerServerId (safeFact_ne_empty hsafe) (hhistory ▸ hattempt) hphase.2 rfl rfl rfl ?_ ?_
        ?_ rfl ?_ horders ?_ rfl)
    · have := congrArg Option.isSome horders
      simpa using this
    · intro htruthy
      exact ofOption_eq_text (hsame _ (by simp) (by simpa using htruthy))
    · rw [hhistory]
      rfl
    · intro htruthy
      exact ofOption_eq_text (hsame _ (by simp) (by simpa using htruthy))
    · intro current hcurrent htruthy
      rw [Option.mem_def] at hcurrent
      have hidentity := ofOption_eq_text
        (hsame (.ofOption (b.order.bind (·.providerOrderId))) (by simp)
          (by simpa [hcurrent] using htruthy))
      simpa [hcurrent] using hidentity
    · intro htruthy
      exact hsame _ (by simp) htruthy

/-- What `save_outcome` knows past the guards of the status it saves. -/
theorem outcomeRows_eq_ok {status : OperationStatus} {error : Option String}
    (h : outcomeRows b b.operation.attemptHistory.getLast? status error now = .ok written) :
    Settles b status ∧ written.operation = b.operation ∧
      written.server.providerServerId = b.server.providerServerId ∧
      written.order.map (·.providerOrderId) = b.order.map (·.providerOrderId) := by
  cases status with
  | completed =>
    obtain ⟨hguard, hdone⟩ := conflictIf_bind_eq_ok.mp h
    obtain rfl := pure_eq_ok.mp hdone
    refine ⟨?_, rfl, rfl, rfl⟩
    have haccepted := (Bool.or_eq_false_iff.mp hguard).1
    cases hlast : b.operation.attemptHistory.getLast? with
    | none => rw [hlast] at haccepted; cases haccepted
    | some attempt =>
      rw [hlast] at haccepted
      exact ⟨attempt, hlast, by simpa using haccepted⟩
  | pending =>
    obtain ⟨safe, hsafe, hguard⟩ := bind_eq_ok.mp h
    obtain ⟨hyes, hunaccepted⟩ := conflictIf_bind_eq_ok.mp hguard
    obtain ⟨_, -, hdone⟩ := bind_eq_ok.mp hunaccepted
    obtain rfl := pure_eq_ok.mp hdone
    obtain rfl : safe = true := by simpa using hyes
    exact ⟨(safePrePost_eq_true hsafe).2.2, rfl, rfl, rfl⟩
  | failed =>
    obtain ⟨hguard, hunaccepted⟩ := conflictIf_bind_eq_ok.mp h
    obtain ⟨_, hnone, hdone⟩ := bind_eq_ok.mp hunaccepted
    obtain rfl := pure_eq_ok.mp hdone
    refine ⟨⟨unaccepted_eq_ok hnone, fun attempt hlast ↦ ?_⟩, rfl, rfl, ?_⟩
    · rw [Option.mem_def] at hlast
      rw [hlast] at hguard
      exact not_not.mp (of_decide_eq_false hguard)
    · cases b.order <;> rfl
  | outcomeUnknown =>
    obtain ⟨hguard, hdone⟩ := conflictIf_bind_eq_ok.mp h
    obtain rfl := pure_eq_ok.mp hdone
    refine ⟨?_, rfl, rfl, rfl⟩
    cases hlast : b.operation.attemptHistory.getLast? with
    | none => rw [hlast] at hguard; cases hguard
    | some attempt =>
      rw [hlast] at hguard
      exact ⟨attempt, hlast, not_not.mp (of_decide_eq_false hguard)⟩
  | inFlight => exact absurd h raise_ne_ok

/-- A merged correlation keeps the receipt and brings no other identity than the server's. -/
theorem mergeCorrelation_eq_ok {operation merged : Operation} {server : CloudServer}
    {correlation : Facts} (h : mergeCorrelation operation server correlation = .ok merged) :
    merged.operationType = operation.operationType ∧ merged.status = operation.status ∧
      merged.response.createRouting = operation.response.createRouting ∧
      ∀ key ∈ identityKeys, merged.response.facts.get key = operation.response.facts.get key ∨
        merged.response.facts.get key = .ofOption server.providerServerId := by
  unfold mergeCorrelation at h
  split at h
  · obtain rfl := pure_eq_ok.mp h
    exact ⟨rfl, rfl, rfl, fun _ _ ↦ Or.inl rfl⟩
  · obtain ⟨-, hidentity⟩ := conflictIf_bind_eq_ok.mp h
    obtain ⟨hguard, hdone⟩ := conflictIf_bind_eq_ok.mp hidentity
    obtain rfl := pure_eq_ok.mp hdone
    refine ⟨rfl, rfl, rfl, fun key hkey ↦ ?_⟩
    change Facts.get (correlation ++ operation.response.facts) key = _ ∨
      Facts.get (correlation ++ operation.response.facts) key = _
    rw [Facts.get_append]
    split
    · rename_i hhas
      have hagrees := List.any_eq_false.mp hguard key hkey
      exact Or.inr (by simpa [hhas] using hagrees)
    · exact Or.inl rfl

theorem saveOutcome_eq_ok {status : OperationStatus} {error : Option String} {correlation : Facts}
    (h : saveOutcome rows operationId generation status error correlation now =
      .ok (after, operation)) : Writes rows after [] := by
  obtain ⟨b, hbundle, hclaim⟩ := bind_eq_ok.mp h
  obtain ⟨receipt, hmatches, hlast⟩ := bind_eq_ok.mp hclaim
  obtain ⟨attempt, hattempt, howned⟩ := bind_eq_ok.mp hlast
  obtain ⟨_, -, houtcome⟩ := bind_eq_ok.mp howned
  obtain ⟨written, hwritten, hcorrelation⟩ := bind_eq_ok.mp houtcome
  obtain ⟨merged, hmerged, hdone⟩ := bind_eq_ok.mp hcorrelation
  obtain ⟨rfl, -⟩ := Prod.mk.inj (pure_eq_ok.mp hdone)
  obtain rfl := lastAttempt_eq_ok hattempt
  obtain ⟨hsettles, hsame, hserver, horder⟩ := outcomeRows_eq_ok hwritten
  obtain ⟨htype, -, hrouting, hfacts⟩ := mergeCorrelation_eq_ok hmerged
  obtain ⟨hstored, hlive⟩ := claimMatches_eq_ok hmatches
  have hlive' : b.operation.status = .inFlight ∨ b.operation.status = .outcomeUnknown := by
    simpa using hlive
  have horders := congrArg Option.isSome horder
  have hreceipt : merged.response.createRouting = some receipt := hrouting.trans hstored
  refine writes_commit (bundle_eq_ok hbundle) htype (by simpa using horders)
    (.settled hlive' hsettles ?_ ⟨hserver, horder, ?_⟩)
  · rw [attemptHistory_of_receipt hstored]
    exact attemptHistory_of_receipt hreceipt
  · intro key hkey
    rw [← hserver]
    exact hfacts key hkey

/-- What a resumed claim makes of the operation. -/
theorem resumed_eq_ok (hstored : b.operation.response.createRouting = some receipt)
    (hlive : b.operation.status = .inFlight ∨ b.operation.status = .outcomeUnknown)
    (h : resumed b receipt = .ok written) :
    written.operation.operationType = b.operation.operationType ∧
      written.order.isSome = b.order.isSome ∧ Wrote b
        { written with operation := { written.operation with updatedAt := some now } } [] := by
  have hhistory := attemptHistory_of_receipt hstored
  obtain ⟨safe, hsafe, hrest⟩ := bind_eq_ok.mp h
  split at hrest
  · rename_i hyes
    obtain rfl : safe = true := hyes
    obtain ⟨_, -, hdone⟩ := bind_eq_ok.mp hrest
    obtain rfl := pure_eq_ok.mp hdone
    exact ⟨rfl, rfl, .settled hlive (safePrePost_eq_true hsafe).2.2 rfl
      (sameIdentities_of_eq rfl rfl rfl)⟩
  · cases hlast : receipt.attempts.getLast? with
    | none =>
      simp only [hlast] at hrest
      exact absurd hrest raise_ne_ok
    | some attempt =>
      have hlast' : b.operation.attemptHistory.getLast? = some attempt := hhistory ▸ hlast
      simp only [hlast] at hrest
      cases hphase : attempt.phase with
      | refused =>
        simp only [hphase] at hrest
        obtain ⟨_, -, hdone⟩ := bind_eq_ok.mp hrest
        obtain rfl := pure_eq_ok.mp hdone
        exact ⟨rfl, rfl, .settled hlive (Or.inr ⟨attempt, hlast', hphase⟩) rfl
          (sameIdentities_of_eq rfl rfl rfl)⟩
      | accepted =>
        simp only [hphase] at hrest
        obtain rfl := pure_eq_ok.mp hrest
        refine ⟨rfl, rfl, .settled hlive ?_ rfl (sameIdentities_of_eq rfl rfl rfl)⟩
        change Settles b b.operation.status
        rcases hlive with hflight | hunknown
        · rw [hflight]
          exact Or.inl hflight
        · rw [hunknown]
          exact ⟨attempt, hlast', by simp [hphase]⟩
      | capacityRefused =>
        simp only [hphase] at hrest
        exact absurd hrest raise_ne_ok
      | sent =>
        simp only [hphase] at hrest
        obtain rfl := pure_eq_ok.mp hrest
        refine ⟨rfl, by simp, .recorded hlive attempt { attempt with phase := .outcomeUnknown }
          hlast' rfl rfl ?_ (Or.inr ⟨rfl, rfl⟩) (sameIdentities_of_eq rfl ?_ rfl)⟩
        · rw [hhistory]
          rfl
        · cases b.order <;> rfl
      | outcomeUnknown =>
        simp only [hphase] at hrest
        obtain rfl := pure_eq_ok.mp hrest
        refine ⟨rfl, by simp, .recorded hlive attempt { attempt with phase := .outcomeUnknown }
          hlast' rfl rfl ?_ (Or.inr ⟨rfl, rfl⟩) (sameIdentities_of_eq rfl ?_ rfl)⟩
        · rw [hhistory]
          rfl
        · cases b.order <;> rfl

theorem resumeSafeClaim_eq_ok
    (h : resumeSafeClaim rows operationId generation now = .ok (after, operation)) :
    Writes rows after [] := by
  obtain ⟨b, hbundle, hclaim⟩ := bind_eq_ok.mp h
  obtain ⟨receipt, hmatches, howned⟩ := bind_eq_ok.mp hclaim
  obtain ⟨_, -, hresumed⟩ := bind_eq_ok.mp howned
  obtain ⟨written, hwritten, hdone⟩ := bind_eq_ok.mp hresumed
  obtain ⟨rfl, -⟩ := Prod.mk.inj (pure_eq_ok.mp hdone)
  obtain ⟨hstored, hlive⟩ := claimMatches_eq_ok hmatches
  obtain ⟨htype, horder, hwrote⟩ := resumed_eq_ok hstored (by simpa using hlive) hwritten
  exact writes_commit (bundle_eq_ok hbundle) htype horder hwrote

end CloudPlatform.Operations
