import CloudPlatform.Operations.JobProtocol

/-!
# The jobs follow their protocol

`JobProtocol` gives one rule for each call of a job. Here every job of an hourly server is shown to
follow it, whatever the provider and the other jobs do: the provisioning worker, the state reconciler,
the power executor and the accrual job.
-/

namespace CloudPlatform.Operations

open Compute (CloudServer ServerAggregate ServerLifecycleState moveTo_eq_ok)
open Providers (ProviderServer)
open Transition

/-- The program follows the protocol of the jobs; nothing is asked of its outcome. -/
abbrev Conducts {α : Type} (terms : HourlyTerms) (program : JobProgram α) (l : Known) : Prop :=
  Follows (jobProtocol terms) (Returns fun _ _ ↦ True) program l

section Copies

variable {terms : HourlyTerms} {server moved : ServerAggregate} {l : Known}

/-- A copy that a move leaves. -/
theorem OfServer.moveTo {target : ServerLifecycleState} (h : OfServer terms server.toCloudServer)
    (hmoved : server.moveTo target = .ok moved) :
    OfServer terms moved.toCloudServer ∧ moved.state = target := by
  obtain ⟨-, rfl⟩ := moveTo_eq_ok hmoved
  exact ⟨⟨h.id_eq, h.model, h.quantum⟩, rfl⟩

theorem contain_state (h : server.contain = .ok moved) : moved.state = .manualReview := by
  unfold ServerAggregate.contain at h
  by_cases hcontained : server.state = .manualReview
  · rw [if_pos hcontained] at h
    obtain ⟨-, hmoved⟩ := rejectIf_bind_eq_ok.mp h
    obtain rfl := pure_eq_ok.mp hmoved
    exact hcontained
  · rw [if_neg hcontained] at h
    obtain ⟨-, hmoved⟩ := rejectIf_bind_eq_ok.mp h
    obtain ⟨-, rfl⟩ := moveTo_eq_ok hmoved
    rfl

/-- A save of a copy in any other state. -/
theorem permits_saveServer (terms : HourlyTerms) (hreview : server.state ≠ .manualReview)
    (hrunning : server.state = .running → l.prepaid = true ∨ l.wasRunning = true) :
    l.permits terms (.saveServer server) :=
  ⟨fun hstate ↦ absurd hstate hreview, hrunning⟩

theorem permits_saveServer_of_eq (terms : HourlyTerms) (state : ServerLifecycleState)
    (h : server.state = state) (hreview : state ≠ .manualReview) (hrunning : state ≠ .running) :
    l.permits terms (.saveServer server) :=
  permits_saveServer terms (h ▸ hreview) fun hstate ↦ absurd (h.symm.trans hstate) hrunning

/-- `_require_hourly_prepayment` of an hourly server is a prepayment. -/
theorem follows_requireHourlyPrepayment (hserver : OfServer terms server.toCloudServer) :
    Follows (jobProtocol terms) (Returns (Prepaid terms l.considered))
      (ServerJob.requireHourlyPrepayment server) l := by
  unfold ServerJob.requireHourlyPrepayment
  rw [if_neg (by simp [hserver.hourly.1]), if_neg (by simp [hserver.hourly.2])]
  exact follows_prepayServer hserver 0

end Copies

/-! ### The state reconciler -/

section Reconciler

variable {terms : HourlyTerms} {settings : JobSettings} {server : ServerAggregate} {l : Known}

theorem conducts_containServer (h : l.overtaken = true ∨ l.drifted = true) :
    Conducts terms (StateReconciler.containServer server) l := by
  unfold StateReconciler.containServer
  cases hcontained : server.contain with
  | error raised => trivial
  | ok contained =>
    have hstate := contain_state hcontained
    refine follows_attempt_perform ⟨fun _ ↦ h, fun hrunning ↦ ?_⟩ fun _ _ ↦ trivial
    exact nomatch hstate.symm.trans hrunning

theorem conducts_notifyHourlyCustomer (h : l.prepaid = true) :
    Conducts terms (StateReconciler.notifyHourlyCustomer server) l := by
  unfold StateReconciler.notifyHourlyCustomer
  split
  · exact follows_attempt_perform h fun _ _ ↦ trivial
  · trivial

theorem Prepaid.ne_manualReview {turned : Option ServerLifecycleState}
    (h : Prepaid terms turned server l) : server.state ≠ .manualReview :=
  h.active.ne_manualReview

theorem conducts_confirmRunning {turned : Option ServerLifecycleState} {remote : ProviderServer}
    (h : Prepaid terms turned server l) :
    Conducts terms (StateReconciler.confirmRunning settings server remote) l := by
  unfold StateReconciler.confirmRunning
  dsimp only
  split
  · refine follows_returns_perform (permits_saveServer terms h.ne_manualReview fun _ ↦ .inl h.prepaid)
      fun row _ ↦ ?_
    exact follows_returns_bind (conducts_notifyHourlyCustomer h.prepaid) fun _ _ _ ↦ trivial
  · exact follows_returns_bind (conducts_notifyHourlyCustomer h.prepaid) fun _ _ _ ↦ trivial

variable {remote : Option ProviderServer}

theorem conducts_reconcileMatching (hserver : OfServer terms server.toCloudServer) :
    Conducts terms (StateReconciler.reconcileMatching settings server remote) l := by
  unfold StateReconciler.reconcileMatching
  cases remote with
  | none => trivial
  | some remote =>
    by_cases hrunning : server.state = .running
    · simp only [hrunning, if_true]
      exact follows_returns_attempt (follows_requireHourlyPrepayment hserver)
        (fun _ _ hprepaid ↦ conducts_confirmRunning hprepaid) fun _ _ ↦ trivial
    · simp only [hrunning, if_false]
      trivial

/-- The transition of a repair is rejected only if the copy was overtaken, or nothing said that the
provider runs it. -/
theorem conducts_applyRepair {target : ServerLifecycleState}
    (hserver : OfServer terms server.toCloudServer)
    (hrejected : target ∉ server.state.allowed → l.overtaken = true ∨ l.drifted = true)
    (hreview : target ≠ .manualReview) (hrunning : target = .running → l.prepaid = true) :
    Conducts terms (StateReconciler.applyRepair settings server target remote) l := by
  unfold StateReconciler.applyRepair
  cases hmoved : server.moveTo target with
  | error raised =>
    refine conducts_containServer (hrejected fun hallowed ↦ ?_)
    simp [ServerAggregate.moveTo, CloudServer.transitionTo, rejectIf, hallowed, bind, Except.bind,
      pure, Except.pure] at hmoved
  | ok moved =>
    obtain ⟨hmovedServer, hstate⟩ := hserver.moveTo hmoved
    have hrepaired : (StateReconciler.repairedCopy settings moved target remote).state = target := by
      unfold StateReconciler.repairedCopy
      split
      · split <;> exact hstate
      · exact hstate
    have hid : (StateReconciler.repairedCopy settings moved target remote).id = terms.id := by
      unfold StateReconciler.repairedCopy
      split
      · split <;> exact hmovedServer.id_eq
      · exact hmovedServer.id_eq
    dsimp only
    refine follows_attempt_perform (permits_saveServer terms (ne_of_eq_of_ne hrepaired hreview)
      fun hstate ↦ .inl (hrunning (hrepaired.symm.trans hstate))) fun reply htrue ↦ ?_
    cases reply with
    | error raised => exact absurd hid htrue.1
    | ok row =>
      dsimp only
      split
      · rename_i htarget
        exact follows_returns_bind (conducts_notifyHourlyCustomer (hrunning htarget))
          fun _ _ _ ↦ trivial
      · trivial

/-- A repair to RUNNING of a copy that was provisioning or stopped. -/
theorem conducts_repair_running (hserver : OfServer terms server.toCloudServer)
    (hconsidered : l.considered.any (· ∈ [ServerLifecycleState.provisioning, .stopped]) = true) :
    Conducts terms (StateReconciler.repair settings server .running remote) l := by
  unfold StateReconciler.repair
  rw [if_pos rfl]
  refine follows_returns_attempt (follows_requireHourlyPrepayment hserver)
    (fun prepaid l' hprepaid ↦ ?_) fun _ _ ↦ trivial
  refine conducts_applyRepair hprepaid.server (fun hrejected ↦ ?_) (by decide)
    fun _ ↦ hprepaid.prepaid
  have hactive := hprepaid.active
  simp only [Active, List.mem_cons, List.not_mem_nil, or_false] at hactive
  rcases hactive with hstate | hstate | hstate
  · exact absurd (by rw [hstate]; decide) hrejected
  · exact .inl (hprepaid.overtaken hstate hconsidered)
  · exact absurd (by rw [hstate]; decide) hrejected

/-- The plan is carried out: what is contained has drifted, or was overtaken. -/
theorem conducts_carryOut {state : ProviderServerState}
    (hserver : OfServer terms server.toCloudServer) (hconsidered : l.considered = some server.state)
    (hdrifted : state ≠ .running → l.drifted = true) : Conducts terms
      (StateReconciler.carryOut settings server remote (planStateRepair server.state state)) l := by
  by_cases hremote : state = .running
  · subst hremote
    rcases planStateRepair_running server.state with haction | ⟨haction, htarget, hstate⟩
    · simp only [StateReconciler.carryOut, haction]
      exact conducts_reconcileMatching hserver
    · simp only [StateReconciler.carryOut, haction, htarget]
      refine conducts_repair_running hserver ?_
      rw [hconsidered]
      rcases hstate with hstate | hstate <;> simp [hstate]
  · have hcontain : Conducts terms (StateReconciler.containServer server) l :=
      conducts_containServer (.inr (hdrifted hremote))
    unfold StateReconciler.carryOut
    split
    · exact conducts_reconcileMatching hserver
    · trivial
    · rename_i target _ htarget
      have htarget : (planStateRepair server.state state).target = some target := htarget
      have hrunning : target ≠ .running := by
        rintro rfl
        exact hremote (remote_of_target_running server.state state htarget)
      unfold StateReconciler.repair
      rw [if_neg hrunning]
      exact conducts_applyRepair hserver (fun _ ↦ .inr (hdrifted hremote))
        (target_ne_manualReview server.state state target htarget) fun h ↦ absurd h hrunning
    · exact hcontain
    · exact hcontain

/-- The turn of a listed copy, whatever the job knew before. -/
theorem conducts_reconcileServer (hserver : OfServer terms server.toCloudServer) :
    Conducts terms (StateReconciler.reconcileServer settings server) l := by
  unfold StateReconciler.reconcileServer
  refine follows_returns_perform trivial fun _ _ ↦ ?_
  split
  · trivial
  · cases settings.registry server.providerKey server.credentialAccountId with
    | error raised =>
      dsimp only
      split <;> trivial
    | ok provider =>
      refine follows_attempt_perform trivial fun reply _ ↦ ?_
      cases reply with
      | error raised =>
        dsimp only
        split <;> trivial
      | ok remote =>
        refine conducts_carryOut hserver rfl fun hremote ↦ ?_
        simp [jobProtocol, Known.learns, hremote]

theorem conducts_reconcileListed : ∀ (servers : List ServerAggregate) (l : Known),
    (∀ server ∈ servers, OfServer terms server.toCloudServer) →
      Conducts terms (StateReconciler.reconcileListed settings servers) l
  | [], _, _ => trivial
  | server :: rest, _, hservers =>
    follows_returns_bind (conducts_reconcileServer (hservers server List.mem_cons_self))
      fun _ _ _ ↦ conducts_reconcileListed rest _ fun other hother ↦
        hservers other (List.mem_cons_of_mem server hother)

/-- The state reconciler follows the protocol. -/
theorem conducts_reconcile : Conducts terms (StateReconciler.reconcile settings) l := by
  unfold StateReconciler.reconcile
  refine follows_returns_perform trivial fun provisioning hprovisioning ↦ ?_
  refine follows_returns_perform trivial fun running hrunning ↦ ?_
  refine follows_returns_perform trivial fun stopped hstopped ↦ ?_
  refine conducts_reconcileListed _ _ fun server hserver ↦ ?_
  rcases List.mem_append.mp hserver with hserver | hserver
  · rcases List.mem_append.mp hserver with hserver | hserver
    · exact (hprovisioning server hserver).1
    · exact (hrunning server hserver).1
  · exact (hstopped server hserver).1

end Reconciler

/-! ### The power executor -/

section Power

variable {terms : HourlyTerms} {settings : JobSettings} {server : ServerAggregate} {l : Known}
  {operation : Operation} {action : PowerAction} {provider : JobProvider}

theorem conducts_fail {α : Type} {reason : String} {ambiguous : Bool} :
    Conducts terms (PowerExecutor.fail operation reason ambiguous : JobProgram α) l := by
  unfold PowerExecutor.fail
  refine follows_returns_lift fun failed _ ↦ ?_
  exact follows_returns_perform trivial fun _ _ ↦ trivial

theorem conducts_requeue {reason : String} :
    Conducts terms (PowerExecutor.requeue operation reason) l := by
  unfold PowerExecutor.requeue
  refine follows_returns_lift fun requeued _ ↦ ?_
  exact follows_returns_perform trivial fun _ _ ↦ trivial

/-- The target of an action that delivers service is saved by a job that has prepaid. -/
theorem conducts_applyTarget (hprepaid : action.delivers = true → l.prepaid = true) :
    Conducts terms (PowerExecutor.applyTarget server action) l := by
  unfold PowerExecutor.applyTarget
  cases htarget : action.target with
  | none => trivial
  | some target =>
    dsimp only
    split
    · cases hmoved : server.moveTo target with
      | error raised => trivial
      | ok moved =>
        obtain ⟨-, rfl⟩ := moveTo_eq_ok hmoved
        obtain ⟨hreview, hrunning⟩ := PowerAction.target_spec htarget
        exact follows_attempt_perform (permits_saveServer terms hreview fun hstate ↦
          .inl (hprepaid (hrunning hstate))) fun _ _ ↦ trivial
    · trivial

theorem conducts_finishPower {probed : Bool} (hprepaid : action.delivers = true → l.prepaid = true) :
    Conducts terms (PowerExecutor.finishPower operation server action probed) l := by
  unfold PowerExecutor.finishPower
  refine follows_returns_lift fun completed _ ↦ ?_
  refine follows_returns_perform trivial fun _ _ ↦ ?_
  exact follows_returns_bind (conducts_applyTarget hprepaid) fun _ _ _ ↦ trivial

theorem conducts_invokePower (hprepaid : action.delivers = true → l.prepaid = true) :
    Conducts terms (PowerExecutor.invokePower operation server action) l := by
  unfold PowerExecutor.invokePower
  refine follows_attempt_perform hprepaid fun reply _ ↦ ?_
  cases reply with
  | ok value => exact conducts_finishPower hprepaid
  | error raised =>
    dsimp only
    split
    · split
      · exact conducts_requeue
      · exact conducts_fail
    · trivial

theorem conducts_sendPower (hprepaid : action.delivers = true → l.prepaid = true) :
    Conducts terms (PowerExecutor.sendPower provider operation server action) l := by
  unfold PowerExecutor.sendPower
  split
  · have hprobe : Follows (jobProtocol terms) (Returns fun _ l' ↦ l' = l)
        (PowerExecutor.probePowerEffect server action) l := by
      unfold PowerExecutor.probePowerEffect
      split
      · rfl
      · refine follows_tryCatch ⟨trivial, fun reply _ ↦ ?_⟩
        cases reply with
        | ok value => rfl
        | error raised =>
          show Follows _ _ (if _ then _ else _) _
          split
          · rfl
          · trivial
    refine follows_returns_bind hprobe fun effect l' hsame ↦ ?_
    subst hsame
    cases effect with
    | none =>
      dsimp only
      split
      · exact conducts_requeue
      · exact conducts_invokePower hprepaid
    | some applied =>
      cases applied with
      | false => exact conducts_invokePower hprepaid
      | true => exact conducts_finishPower hprepaid
  · exact conducts_invokePower hprepaid

theorem conducts_prepayAndSend (hserver : OfServer terms server.toCloudServer) :
    Conducts terms (PowerExecutor.prepayAndSend provider operation server action) l := by
  unfold PowerExecutor.prepayAndSend
  split
  · refine follows_returns_attempt (follows_requireHourlyPrepayment hserver)
      (fun prepaid l' hprepaid ↦ conducts_sendPower fun _ ↦ hprepaid.prepaid) fun raised l' ↦ ?_
    dsimp only
    split
    · exact conducts_fail
    · refine follows_returns_lift fun requeued _ ↦ ?_
      exact follows_returns_perform trivial fun _ _ ↦ trivial
  · rename_i hdelivers
    exact conducts_sendPower fun h ↦ absurd h hdelivers

theorem conducts_execute : Conducts terms (PowerExecutor.execute settings operation) l := by
  unfold PowerExecutor.execute
  split
  · trivial
  · refine follows_returns_perform trivial fun found htrue ↦ ?_
    cases found with
    | none => exact conducts_fail
    | some server =>
      show Conducts terms (PowerExecutor.executeOn settings operation server _) _
      unfold PowerExecutor.executeOn
      split
      · exact conducts_fail
      · split
        · exact conducts_fail
        · split
          · split
            · exact conducts_fail
            · trivial
          · split
            · exact conducts_prepayAndSend htrue
            · exact conducts_fail

theorem conducts_executeListed : ∀ (operations : List Operation) (l : Known),
    Conducts terms (PowerExecutor.executeListed settings operations) l
  | [], _ => trivial
  | operation :: rest, l => by
    unfold PowerExecutor.executeListed
    refine follows_returns_perform trivial fun claimed _ ↦ ?_
    cases claimed with
    | none => exact conducts_executeListed rest _
    | some claimed =>
      refine follows_returns_attempt conducts_execute
        (fun _ _ _ ↦ conducts_executeListed rest _) fun raised l' ↦ ?_
      dsimp only
      split
      · exact conducts_executeListed rest _
      · trivial

/-- The power executor follows the protocol. -/
theorem conducts_processPendingPower (limit : ℕ) :
    Conducts terms (PowerExecutor.processPendingPower settings limit) l := by
  unfold PowerExecutor.processPendingPower
  exact follows_returns_perform trivial fun _ _ ↦ conducts_executeListed _ _

end Power

/-! ### The provisioning worker -/

section Provisioning

variable {terms : HourlyTerms} {settings : JobSettings} {server : ServerAggregate} {l : Known}
  {operation claimed : Operation}

open ProvisioningWorker

/-- The copies of a create: no service has been delivered on them. -/
def Creating (server : ServerAggregate) : Prop :=
  server.state = .requested ∨ server.state = .provisioning

theorem conducts_releaseHold : Conducts terms (ServerJob.releaseHold server) l := by
  unfold ServerJob.releaseHold
  split
  · trivial
  · refine follows_returns_perform trivial fun wallet _ ↦ ?_
    cases wallet with
    | none => trivial
    | some wallet =>
      refine follows_returns_perform trivial fun hold _ ↦ ?_
      cases hold with
      | none => trivial
      | some hold =>
        dsimp only
        split
        · exact follows_attempt_perform trivial fun _ _ ↦ trivial
        · trivial

theorem conducts_markError : Conducts terms (ServerJob.markError server) l := by
  unfold ServerJob.markError
  cases hmoved : server.moveTo .error with
  | error raised => trivial
  | ok moved =>
    obtain ⟨-, rfl⟩ := moveTo_eq_ok hmoved
    exact follows_attempt_perform (permits_saveServer_of_eq terms .error rfl (by decide) (by decide))
      fun _ _ ↦ trivial

theorem conducts_failPermanent {reason : String} :
    Conducts terms (failPermanent server claimed reason) l := by
  unfold failPermanent
  refine follows_returns_lift fun failed _ ↦ ?_
  refine follows_returns_perform trivial fun _ _ ↦ ?_
  refine follows_returns_bind conducts_releaseHold fun _ _ _ ↦ ?_
  split
  · exact follows_returns_bind conducts_markError fun _ _ _ ↦ trivial
  · trivial

theorem conducts_requeueCreate {reason : String} : Conducts terms (requeue claimed reason) l := by
  unfold requeue
  refine follows_returns_lift fun requeued _ ↦ ?_
  exact follows_returns_perform trivial fun _ _ ↦ trivial

/-- A copy with its provider resource is provisioning. -/
theorem attach_eq_ok {attached : ServerAggregate} {providerServerId : String}
    (hserver : OfServer terms server.toCloudServer) (hcreating : Creating server)
    (h : attach server providerServerId = .ok attached) :
    OfServer terms attached.toCloudServer ∧ attached.state = .provisioning := by
  unfold attach at h
  dsimp only at h
  by_cases hrequested : server.state = .requested
  · rw [if_pos hrequested] at h
    obtain ⟨-, rfl⟩ := moveTo_eq_ok h
    exact ⟨⟨hserver.id_eq, hserver.model, hserver.quantum⟩, rfl⟩
  · rw [if_neg hrequested] at h
    obtain rfl := Except.ok.inj h
    exact ⟨⟨hserver.id_eq, hserver.model, hserver.quantum⟩, hcreating.resolve_left hrequested⟩

theorem conducts_recoverFromCorrelation (hserver : OfServer terms server.toCloudServer)
    (hcreating : Creating server) : Conducts terms (recoverFromCorrelation server operation) l := by
  unfold recoverFromCorrelation
  split
  · split
    · refine follows_returns_lift fun attached hattached ↦ ?_
      obtain ⟨-, hstate⟩ := attach_eq_ok hserver hcreating hattached
      exact follows_returns_perform (permits_saveServer_of_eq terms .provisioning hstate (by decide)
        (by decide)) fun _ _ ↦ trivial
    · trivial
  · trivial

/-- The polls of a wait neither read the row nor forget a prepayment. -/
theorem follows_probeCreation (createdId : String) (l : Known) :
    Follows (jobProtocol terms) (fun _ l' ↦ l'.prepaid = l.prepaid) (probeCreation createdId) l := by
  unfold probeCreation
  refine follows_perform trivial (fun found _ ↦ ?_) fun _ _ ↦ rfl
  cases found with
  | none => rfl
  | some remote =>
    dsimp only
    split <;> rfl

theorem follows_waitForCreation (createdId : String) : ∀ (polls : ℕ) (l : Known),
    Follows (jobProtocol terms) (fun _ l' ↦ l'.prepaid = l.prepaid) (waitForCreation createdId polls) l
  | 0, l => follows_bind ((follows_probeCreation createdId l).mono fun outcome l' hsame ↦ by
      cases outcome <;> exact hsame)
  | polls + 1, l => by
    refine follows_bind ((follows_probeCreation createdId l).mono fun outcome l' hsame ↦ ?_)
    cases outcome with
    | error raised => exact hsame
    | ok outcome =>
      cases outcome with
      | none =>
        rw [← hsame]
        exact follows_waitForCreation createdId polls l'
      | some outcome => exact hsame

theorem conducts_creationCompleted (hserver : OfServer terms server.toCloudServer)
    (hprepaid : server.state ≠ .provisioning → l.prepaid = true) :
    Conducts terms (creationCompleted server) l := by
  unfold creationCompleted
  by_cases hstate : server.state = .provisioning
  · rw [if_pos hstate]
    refine follows_returns_bind (follows_requireHourlyPrepayment hserver) fun prepaid l hprepaid ↦ ?_
    refine follows_returns_lift fun running hrunning ↦ ?_
    obtain ⟨-, hrunning⟩ := hprepaid.server.moveTo hrunning
    refine follows_returns_perform (permits_saveServer terms (hrunning ▸ nofun)
      fun _ ↦ .inl hprepaid.prepaid) fun _ _ ↦ ?_
    exact ⟨hprepaid.prepaid, fun reply _ ↦ by cases reply <;> trivial⟩
  · rw [if_neg hstate]
    exact ⟨hprepaid hstate, fun reply _ ↦ by cases reply <;> trivial⟩

variable {created : ProviderServer}

theorem conducts_awaitCreation (hserver : OfServer terms server.toCloudServer)
    (hprepaid : server.state ≠ .provisioning → l.prepaid = true) :
    Conducts terms (awaitCreation settings server created) l := by
  unfold awaitCreation
  split
  · trivial
  · refine follows_attempt ((follows_waitForCreation created.id settings.polls l).mono
      fun outcome l' hsame ↦ ?_)
    rw [← hsame] at hprepaid
    cases outcome with
    | error raised =>
      dsimp only
      split <;> trivial
    | ok outcome =>
      cases outcome with
      | completed => exact conducts_creationCompleted hserver hprepaid
      | failed => trivial
      | timeout => trivial

theorem conducts_watchCreation (hserver : OfServer terms server.toCloudServer)
    (hstate : server.state = .provisioning) :
    Conducts terms (watchCreation settings server created) l := by
  unfold watchCreation
  by_cases hrunning : normalizeProviderStatus (some created.status) = .running
  · rw [if_pos hrunning]
    refine follows_returns_bind (follows_requireHourlyPrepayment hserver) fun prepaid l hprepaid ↦ ?_
    exact conducts_awaitCreation hprepaid.server fun _ ↦ hprepaid.prepaid
  · rw [if_neg hrunning]
    exact conducts_awaitCreation hserver fun h ↦ absurd hstate h

theorem conducts_accepted (hserver : OfServer terms server.toCloudServer)
    (hcreating : Creating server) :
    Conducts terms (accepted settings server claimed created) l := by
  unfold accepted
  refine follows_returns_lift fun completed _ ↦ ?_
  refine follows_returns_perform trivial fun _ _ ↦ ?_
  refine follows_returns_lift fun attached hattached ↦ ?_
  obtain ⟨-, hstate⟩ := attach_eq_ok hserver hcreating hattached
  refine follows_returns_perform (permits_saveServer_of_eq terms .provisioning hstate (by decide)
    (by decide)) fun saved hsaved ↦ ?_
  exact follows_returns_bind (conducts_watchCreation hsaved.1 (hsaved.2.state.trans hstate))
    fun _ _ _ ↦ trivial

theorem conducts_sendCreate (hserver : OfServer terms server.toCloudServer)
    (hcreating : Creating server) : Conducts terms (sendCreate settings server claimed) l := by
  unfold sendCreate
  refine follows_returns_perform trivial fun spec _ ↦ ?_
  cases spec with
  | none => exact conducts_failPermanent
  | some spec =>
    dsimp only
    split
    · split
      · exact conducts_failPermanent
      · trivial
    · refine follows_returns_perform trivial fun image _ ↦ ?_
      cases image with
      | none => exact conducts_failPermanent
      | some image =>
        refine follows_attempt_perform trivial fun reply _ ↦ ?_
        cases reply with
        | ok created => exact conducts_accepted hserver hcreating
        | error raised =>
          dsimp only
          split
          · exact conducts_requeueCreate
          · split
            · split
              · exact conducts_requeueCreate
              · exact conducts_failPermanent
            · trivial

theorem conducts_readLegacyCreateIdentity {provider : JobProvider} :
    Conducts terms (readLegacyCreateIdentity provider server operation) l := by
  unfold readLegacyCreateIdentity
  split
  · exact follows_returns_perform trivial fun _ _ ↦ trivial
  · split
    · exact follows_returns_perform trivial fun _ _ ↦ trivial
    · trivial

theorem conducts_recoverHistoricalPending (hserver : OfServer terms server.toCloudServer)
    (hcreating : Creating server) :
    Conducts terms (recoverHistoricalPending settings server operation) l := by
  unfold recoverHistoricalPending
  split
  · split <;> trivial
  · refine follows_returns_perform trivial fun claimed _ ↦ ?_
    cases claimed with
    | none => trivial
    | some claimed =>
      refine follows_returns_bind (Q := fun _ _ ↦ True) ?_ fun identity l _ ↦ ?_
      · refine follows_tryCatch (conducts_readLegacyCreateIdentity.mono fun outcome l _ ↦ ?_)
        cases outcome with
        | ok identity => trivial
        | error raised =>
          show Follows _ _ (if _ then _ else _) _
          split <;> trivial
      · cases identity with
        | none =>
          refine follows_returns_lift fun unknown _ ↦ ?_
          exact follows_returns_perform trivial fun _ _ ↦ trivial
        | some identity =>
          refine follows_returns_lift fun completed _ ↦ ?_
          refine follows_returns_perform trivial fun _ _ ↦ ?_
          exact follows_returns_bind (conducts_recoverFromCorrelation hserver hcreating)
            fun _ _ _ ↦ trivial

theorem conducts_deliverPooled {created : Option ProviderServer} :
    Conducts terms (deliverPooled server created) l := by
  unfold deliverPooled
  cases created with
  | none => trivial
  | some created =>
    refine follows_returns_perform trivial fun found htrue ↦ ?_
    cases found with
    | none => trivial
    | some fresh =>
      dsimp only
      by_cases hrunning : normalizeProviderStatus (some created.status) = .running
      · rw [if_pos hrunning]
        exact follows_returns_bind (follows_requireHourlyPrepayment htrue) fun _ _ _ ↦ trivial
      · rw [if_neg hrunning]
        trivial

theorem conducts_processLegacy (hserver : OfServer terms server.toCloudServer)
    (hcreating : Creating server) : Conducts terms (processLegacy settings server operation) l := by
  unfold processLegacy
  split
  · split
    · exact conducts_recoverFromCorrelation hserver hcreating
    · trivial
  · split
    · trivial
    · refine follows_returns_perform trivial fun claimed _ ↦ ?_
      cases claimed with
      | none => trivial
      | some claimed => exact conducts_sendCreate hserver hcreating

theorem conducts_processOperation {pooledOutcome : Option ProviderServer}
    (hserver : OfServer terms server.toCloudServer) (hcreating : Creating server) :
    Conducts terms (processOperation settings server operation pooledOutcome) l := by
  unfold processOperation
  split
  · split <;> trivial
  · refine follows_returns_lift fun recovers _ ↦ ?_
    split
    · exact conducts_recoverHistoricalPending hserver hcreating
    · split
      · split
        · split <;> trivial
        · exact conducts_recoverFromCorrelation hserver hcreating
      · split
        · exact conducts_deliverPooled
        · exact conducts_processLegacy hserver hcreating

/-- The provisioning worker follows the protocol. -/
theorem conducts_processServer (serverId : Uuid) (pooledOutcome : Option ProviderServer) :
    Conducts terms (processServer settings serverId pooledOutcome) l := by
  unfold processServer
  refine follows_returns_perform trivial fun found htrue ↦ ?_
  cases found with
  | none => trivial
  | some server =>
    dsimp only
    split
    · trivial
    · split
      · trivial
      · rename_i hstate
        have hcreating : Creating server := by
          have hmem := not_not.mp hstate
          rw [List.mem_cons, List.mem_singleton] at hmem
          exact hmem
        exact follows_returns_perform trivial fun operation _ ↦
          conducts_processOperation htrue hcreating

end Provisioning

/-! ### The accrual job -/

section Accrual

variable {terms : HourlyTerms} {l : Known}

theorem wasRunning_reads (row : CloudServer) (h : l.wasRunning = true) :
    (l.reads row).wasRunning = true := by
  simp [Known.reads, h]

/-- That the row was read RUNNING is never forgotten. -/
theorem wasRunning_learns (l : Known) (request : JobCall) (reply : Result request.Out)
    (h : l.wasRunning = true) : (l.learns request reply).wasRunning = true := by
  cases request with
  | server id =>
    cases reply with
    | error raised => exact h
    | ok found =>
      cases found with
      | none => exact h
      | some row => exact wasRunning_reads _ h
  | listServers state =>
    cases reply with
    | error raised => exact h
    | ok rows => simp [Known.learns, h]
  | billing request =>
    cases request with
    | server id =>
      cases reply with
      | error raised => exact h
      | ok found =>
        cases found with
        | none => exact h
        | some row => exact wasRunning_reads _ h
    | hold request => cases request <;> cases reply <;> exact h
    | _ => cases reply <;> exact h
  | _ => cases reply <;> exact h

/-- The listed rows are known to have been RUNNING, if they are. -/
def Listed (terms : HourlyTerms) (servers : List ServerAggregate) (l : Known) : Prop :=
  ∀ server ∈ servers, OfServer terms server.toCloudServer ∧ Active server.toCloudServer ∧
    (server.state = .running → l.wasRunning = true)

theorem Listed.learns {servers : List ServerAggregate} (h : Listed terms servers l)
    (request : JobCall) (reply : Result request.Out) : Listed terms servers (l.learns request reply) :=
  fun server hserver ↦ ⟨(h server hserver).1, (h server hserver).2.1,
    fun hrunning ↦ wasRunning_learns l request reply ((h server hserver).2.2 hrunning)⟩

theorem conducts_accrueListed (moment : ℤ) : ∀ (servers : List ServerAggregate) (l : Known),
    Listed terms servers l → Conducts terms (ServerJob.accrueListed moment servers) l
  | [], _, _ => trivial
  | server :: rest, l, h => by
    have hrest : Listed terms rest l := fun other hother ↦
      h other (List.mem_cons_of_mem server hother)
    obtain ⟨hserver, hactive, hrunning⟩ := h server List.mem_cons_self
    unfold ServerJob.accrueListed
    split
    · have haccount : Account terms none none 0 server.toCloudServer l :=
        ⟨hserver, hactive, hrunning, fun _ hturned ↦ (nomatch hturned), fun _ hrow ↦ (nomatch hrow)⟩
      have hmodel : (server.isPrepaidMonthly || server.isPrepaidHourlyIrt) = false := by
        simp [hserver.hourly]
      have hbilled := follows_bills (Billing.AccrualJob.follows_accrueServer
        (bookkeeping server moment) hmodel haccount moment)
      refine follows_attempt ((hbilled.keeps (M := Listed terms rest)
        (fun l request reply hlisted ↦ hlisted.learns request reply) hrest).mono
        fun outcome l houtcome ↦ conducts_accrueListed moment rest l houtcome.2)
    · exact conducts_accrueListed moment rest l hrest

/-- The accrual job follows the protocol. -/
theorem conducts_runAccrual : Conducts terms ServerJob.runAccrual l := by
  unfold ServerJob.runAccrual
  refine follows_returns_perform trivial fun moment _ ↦ ?_
  refine follows_returns_perform trivial fun acquired _ ↦ ?_
  split
  · refine follows_returns_perform trivial fun running hrunning ↦ ?_
    refine follows_returns_perform trivial fun stopped hstopped ↦ ?_
    refine follows_returns_perform trivial fun provisioning hprovisioning ↦ ?_
    refine conducts_accrueListed moment _ _ fun server hserver ↦ ?_
    rcases List.mem_append.mp hserver with hserver | hserver
    · rcases List.mem_append.mp hserver with hserver | hserver
      · obtain ⟨hof, hstate⟩ := hrunning server hserver
        refine ⟨hof, ?_, fun _ ↦ ?_⟩
        · rw [Active, hstate]
          decide
        · refine wasRunning_learns _ (.listServers .provisioning) (.ok provisioning) ?_
          refine wasRunning_learns _ (.listServers .stopped) (.ok stopped) ?_
          have hany : running.any (·.state = .running) = true :=
            List.any_eq_true.mpr ⟨server, hserver, decide_eq_true hstate⟩
          simp [jobProtocol, Known.learns, hany]
      · obtain ⟨hof, hstate⟩ := hstopped server hserver
        refine ⟨hof, ?_, fun h ↦ by cases hstate.symm.trans h⟩
        rw [Active, hstate]
        decide
    · obtain ⟨hof, hstate⟩ := hprovisioning server hserver
      refine ⟨hof, ?_, fun h ↦ by cases hstate.symm.trans h⟩
      rw [Active, hstate]
      decide
  · trivial

end Accrual

end CloudPlatform.Operations
