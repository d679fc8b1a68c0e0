import CloudPlatform.Operations.JobSteps

/-!
# A healthy server under repair

The reconciler decides on the copy that it has listed, buys the hour, which gives the copy the state of
the row, and answers a rejected transition by containment. A pass that listed the server before another
one has made the same repair therefore contains a server that runs
(`not_healthy_of_overtaken_repair`). No server that runs at its provider is contained in a run in which
no pass that turned to a PROVISIONING or STOPPED copy then reads the row RUNNING
(`healthy_of_notOvertaken`).
-/

namespace CloudPlatform.Operations

open Calendar (second)
open Compute (ServerLifecycleState)
open Providers (ProviderServer)
open Transition

/-! ### The jobs -/

/-- The jobs of the background workers over one server. -/
inductive ServerWork
  | processServer (serverId : Uuid) (pooledOutcome : Option ProviderServer)
  | reconcile
  | processPendingPower (limit : ℕ)
  | runAccrual

/-- The program of a job. -/
def ServerWork.program (settings : JobSettings) : ServerWork → JobProgram Unit
  | processServer serverId pooledOutcome => do
    let _ ← ProvisioningWorker.processServer settings serverId pooledOutcome
  | reconcile => StateReconciler.reconcile settings
  | processPendingPower limit => PowerExecutor.processPendingPower settings limit
  | runAccrual => ServerJob.runAccrual

/-- Every job follows the protocol. -/
theorem follows_work (terms : HourlyTerms) (settings : JobSettings) (work : ServerWork) (l : Known) :
    Follows (jobProtocol terms) (fun _ _ ↦ True) (work.program settings) l := by
  have hconducts : Conducts terms (work.program settings) l := by
    cases work with
    | processServer serverId pooledOutcome =>
      exact follows_returns_bind (conducts_processServer serverId pooledOutcome)
        fun _ _ _ ↦ trivial
    | reconcile => exact conducts_reconcile
    | processPendingPower limit => exact conducts_processPendingPower limit
    | runAccrual => exact conducts_runAccrual
  exact hconducts.mono fun _ _ _ ↦ trivial

/-! ### A provider that runs the server -/

/-- What is outside the rows at one call, while the provider runs the server. -/
structure HealthyChance extends JobChance where
  running : ∀ found, remote = .ok found → StateReconciler.remoteState found = .running

/-- One call, while the provider runs the server. -/
def healthyHandle (job : ℕ) (request : JobCall) (chance : HealthyChance) (rows : JobRows) :
    Result request.Out × JobRows :=
  request.handle job chance.toJobChance rows

/-- The state of the copy that a job turned to last. -/
def turnedTo (job : ℕ) : List JobEvent → Option ServerLifecycleState
  | [] => none
  | .considered other state :: before =>
    if other = job then some state else turnedTo job before
  | _ :: before => turnedTo job before

/-- A read of the row by its id. -/
def JobCall.readsServer : JobCall → Bool
  | server _ => true
  | _ => false

/-- A job that has turned to a PROVISIONING or STOPPED copy does not read the row RUNNING. -/
def NotOvertaken (job : ℕ) (rows : JobRows) (request : JobCall) : Prop :=
  request.readsServer = true → rows.server.state = .running →
    ∀ state ∈ turnedTo job rows.log, state ∉ [ServerLifecycleState.provisioning, .stopped]

instance (job : ℕ) (rows : JobRows) (request : JobCall) :
    Decidable (NotOvertaken job rows request) :=
  inferInstanceAs (Decidable (_ → _ → _))

/-- The server is not under review. -/
structure Healthy (terms : HourlyTerms) (rows : JobRows) : Prop where
  server : OfServer terms rows.server.toCloudServer
  state : rows.server.state ≠ .manualReview

/-- What a job knows while the provider runs the server. -/
structure Undisturbed (job : ℕ) (rows : JobRows) (l : Known) : Prop where
  overtaken : l.overtaken = false
  drifted : l.drifted = false
  considered : ∀ state ∈ l.considered, turnedTo job rows.log = some state

/-! ### One call -/

section Steps

variable {terms : HourlyTerms} {job : ℕ} {chance : HealthyChance} {rows : JobRows} {l : Known}

variable {request : JobCall}

/-- Only a job that turns to a copy changes what a job turned to last, and that its own. -/
theorem turnedTo_handle (h : ∀ state, request ≠ .consider state) (other : ℕ) :
    turnedTo other (healthyHandle job request chance rows).2.log = turnedTo other rows.log := by
  rcases handle_log job chance.toJobChance rows request with hlog | ⟨event, hevent, hlog⟩
  · rw [healthyHandle, hlog]
  · rw [healthyHandle, hlog]
    cases event with
    | considered other state =>
      cases request with
      | consider state => exact absurd rfl (h state)
      | billing request => exact nomatch hevent.2
      | power action providerServerId key => exact nomatch hevent.2
      | _ => exact nomatch hevent
    | _ => rfl

/-- A call keeps the server out of review. -/
theorem Healthy.handle (hrows : Healthy terms rows) (hknow : Undisturbed job rows l)
    (hpermits : l.permits terms request) :
    Healthy terms (healthyHandle job request chance rows).2 := by
  refine ⟨hrows.server.handle request, ?_⟩
  by_cases hsave : ∃ copy, request = .saveServer copy
  · obtain ⟨copy, rfl⟩ := hsave
    rcases handle_saveServer job chance.toJobChance rows copy with ⟨-, raised, -, hdone⟩ | ⟨-, hdone⟩
    · rw [healthyHandle, hdone]
      exact hrows.state
    · rw [healthyHandle, hdone]
      intro hreview
      rcases hpermits.1 hreview with hovertaken | hdrifted
      · exact absurd hovertaken (by rw [hknow.overtaken]; decide)
      · exact absurd hdrifted (by rw [hknow.drifted]; decide)
  · rw [healthyHandle, handle_server fun copy heq ↦ hsave ⟨copy, heq⟩]
    exact hrows.state

/-- What a job knows stays true when another one makes a call. -/
theorem Undisturbed.others {other : ℕ} (hknow : Undisturbed other rows l) (hne : other ≠ job) :
    Undisturbed other (healthyHandle job request chance rows).2 l := by
  refine ⟨hknow.overtaken, hknow.drifted, fun state hstate ↦ ?_⟩
  by_cases hconsider : ∃ state, request = .consider state
  · obtain ⟨turned, rfl⟩ := hconsider
    show turnedTo other (.considered job turned :: rows.log) = some state
    rw [turnedTo, if_neg (Ne.symm hne)]
    exact hknow.considered state hstate
  · rw [turnedTo_handle fun state heq ↦ hconsider ⟨state, heq⟩]
    exact hknow.considered state hstate

/-- What a job learns from its own call. -/
theorem Undisturbed.learns (hknow : Undisturbed job rows l) (hpermits : l.permits terms request)
    (hallowed : NotOvertaken job rows request) :
    Undisturbed job (healthyHandle job request chance rows).2
      (l.learns request (healthyHandle job request chance rows).1) := by
  by_cases hconsider : ∃ state, request = .consider state
  · obtain ⟨state, rfl⟩ := hconsider
    refine ⟨rfl, rfl, fun turned hturned ↦ ?_⟩
    show turnedTo job (.considered job state :: rows.log) = some turned
    rw [turnedTo, if_pos rfl]
    exact hturned
  · have hturned : ∀ state ∈ l.considered,
        turnedTo job (healthyHandle job request chance rows).2.log = some state := by
      intro state hstate
      rw [turnedTo_handle fun state heq ↦ hconsider ⟨state, heq⟩]
      exact hknow.considered state hstate
    cases request with
    | consider state => exact absurd ⟨state, rfl⟩ hconsider
    | server id =>
      rcases handle_read job chance.toJobChance rows id with ⟨-, hdone⟩ | ⟨-, hdone⟩
      · rw [healthyHandle, hdone]
        exact hknow
      · refine ⟨?_, ?_, ?_⟩
        · rw [healthyHandle, hdone]
          simp only [Known.learns, Known.reads, hknow.overtaken, Bool.false_or, Bool.and_eq_false_imp,
            decide_eq_true_eq]
          intro hrunning
          rw [Option.any_eq_false]
          intro state hstate
          simpa using hallowed rfl hrunning state (hknow.considered state hstate)
        · rw [healthyHandle, hdone]
          exact hknow.drifted
        · rw [healthyHandle, hdone] at hturned ⊢
          exact hturned
    | listServers state =>
      rcases handle_list job chance.toJobChance rows state with ⟨-, hdone⟩ | ⟨-, hdone⟩
      · rw [healthyHandle, hdone] at hturned ⊢
        exact ⟨hknow.overtaken, hknow.drifted, hturned⟩
      · rw [healthyHandle, hdone] at hturned ⊢
        exact ⟨hknow.overtaken, hknow.drifted, hturned⟩
    | getServer providerServerId =>
      refine ⟨?_, ?_, ?_⟩
      · cases hreply : (healthyHandle job (.getServer providerServerId) chance rows).1 with
        | error raised => exact hknow.overtaken
        | ok found => exact hknow.overtaken
      · rw [healthyHandle, JobCall.handle]
        cases hremote : chance.remote with
        | error raised => exact hknow.drifted
        | ok found =>
          have hrunning := chance.running found hremote
          cases found with
          | none => cases hrunning
          | some remote => simp [Known.learns, hknow.drifted, hrunning]
      · cases hreply : (healthyHandle job (.getServer providerServerId) chance rows).1 with
        | error raised => exact hturned
        | ok found => exact hturned
    | billing request =>
      obtain ⟨debits, hlearns, -⟩ := bills_eq hpermits
        (healthyHandle job (.billing request) chance rows).1
      rw [hlearns]
      exact ⟨hknow.overtaken, hknow.drifted, hturned⟩
    | saveServer copy =>
      cases hreply : (healthyHandle job (.saveServer copy) chance rows).1 with
      | error raised => exact ⟨hknow.overtaken, hknow.drifted, hturned⟩
      | ok row => exact ⟨hknow.overtaken, hknow.drifted, hturned⟩
    | _ => exact ⟨hknow.overtaken, hknow.drifted, hturned⟩

end Steps

/-! ### Runs -/

/-- The calls that the condition allows keep the server out of review. -/
theorem healthy_sound (terms : HourlyTerms) :
    (jobProtocol terms).Sound healthyHandle (Healthy terms) Undisturbed NotOvertaken where
  truthful _ request _ _ hrows := jobReplies_handle hrows.server request
  kept _ _ _ _ _ hrows hknow hpermits _ := hrows.handle hknow hpermits
  learned _ _ _ _ _ _ hknow hpermits hallowed := hknow.learns hpermits hallowed
  others _ _ _ _ _ _ _ _ _ _ hne _ hother := hother.others hne

/-- In every run in which no job that turned to a PROVISIONING or STOPPED copy then reads the row
RUNNING, a server that runs at its provider is never put under review. -/
theorem healthy_of_notOvertaken (settings : JobSettings) (rows : JobRows)
    (hmodel : rows.server.billingModel = "hourly") (hstate : rows.server.state ≠ .manualReview)
    (events : List (PoolEvent ServerWork HealthyChance))
    (hcalls : Along (Pool.step healthyHandle (ServerWork.program settings))
      (Pool.Allowed (fun _ ↦ True) NotOvertaken) ⟨rows, []⟩ events) :
    Throughout (Pool.step healthyHandle (ServerWork.program settings))
      (fun pool ↦ pool.shared.server.state ≠ .manualReview) ⟨rows, []⟩ events := by
  let terms : HourlyTerms := ⟨rows.server.id, rows.server.quantumSeconds⟩
  have hrows : Healthy terms rows := ⟨⟨rfl, hmodel, rfl⟩, hstate⟩
  have hstart : ∀ me (work : ServerWork) (rows : JobRows), Healthy terms rows →
      Undisturbed me rows {} := fun _ _ _ _ ↦ ⟨rfl, rfl, fun _ h ↦ nomatch h⟩
  exact (Pool.throughout_of_follows (healthy_sound terms) (fun _ ↦ {})
    (fun work _ ↦ follows_work terms settings work {}) hstart events rows hrows hcalls).mono
    fun _ hpool ↦ hpool.state

namespace OvertakenRepair

/-- A provider that can be reached. -/
def settings : JobSettings where
  registry _ _ := .ok {}
  inFlightTimeout := 900
  provisioningTimeout := 1800

def serverId : Uuid := ⟨"7be1c0de-0000-4000-8000-000000000001", .refl true⟩

def userId : Uuid := ⟨"7be1c0de-0000-4000-8000-000000000002", .refl true⟩

def walletId : Uuid := ⟨"7be1c0de-0000-4000-8000-000000000003", .refl true⟩

/-- A funded server that is PROVISIONING and paid for the coming hour. -/
def rows : JobRows where
  server :=
    { id := serverId
      userId := userId
      providerKey := "provider"
      state := .provisioning
      providerServerId := some "17"
      lastAccruedAt := some (3600 * second)
      billingStartedAt := some 0 }
  books := { wallet := { id := walletId, userId := userId, balance := 5000, currency := "USD" } }
  clock := 0

/-- The provider runs it. -/
def chance : HealthyChance where
  newId := serverId
  remote := .ok (some { id := "17", status := "running" })
  running := by
    intro found hfound
    obtain rfl := Except.ok.inj hfound
    decide +kernel

/-- Both passes list the row, and then work one after the other. -/
def events (first second : ℕ) : List (PoolEvent ServerWork HealthyChance) :=
  [.spawn .reconcile, .spawn .reconcile] ++ List.replicate 3 (.advance 0 chance) ++
    List.replicate 3 (.advance 1 chance) ++ List.replicate first (.advance 0 chance) ++
    List.replicate second (.advance 1 chance)

end OvertakenRepair

/-- One pass repairs the server. -/
theorem healthy_of_notOvertaken_repair :
    OvertakenRepair.rows.server.billingModel = "hourly" ∧
    OvertakenRepair.rows.server.state ≠ .manualReview ∧
    Along (Pool.step healthyHandle (ServerWork.program OvertakenRepair.settings))
      (Pool.Allowed (fun _ ↦ True) NotOvertaken) ⟨OvertakenRepair.rows, []⟩
      (OvertakenRepair.events 8 0) ∧
    Throughout (Pool.step healthyHandle (ServerWork.program OvertakenRepair.settings))
      (fun pool ↦ pool.shared.server.state ≠ .manualReview) ⟨OvertakenRepair.rows, []⟩
      (OvertakenRepair.events 8 0) := by
  have hcalls : Along (Pool.step healthyHandle (ServerWork.program OvertakenRepair.settings))
      (Pool.Allowed (fun _ ↦ True) NotOvertaken) ⟨OvertakenRepair.rows, []⟩
      (OvertakenRepair.events 8 0) := by
    decide +kernel
  exact ⟨rfl, by decide, hcalls,
    healthy_of_notOvertaken OvertakenRepair.settings OvertakenRepair.rows rfl (by decide) _ hcalls⟩

/-- The second pass buys the hour for a copy that the first one has repaired meanwhile, and contains the
RUNNING server. -/
theorem not_healthy_of_overtaken_repair :
    ¬ ∀ (settings : JobSettings) (rows : JobRows) (events : List (PoolEvent ServerWork HealthyChance)),
      rows.server.billingModel = "hourly" → rows.server.state ≠ .manualReview →
      Throughout (Pool.step healthyHandle (ServerWork.program settings))
        (fun pool ↦ pool.shared.server.state ≠ .manualReview) ⟨rows, []⟩ events := by
  intro h
  have hrun := h OvertakenRepair.settings OvertakenRepair.rows (OvertakenRepair.events 8 7) rfl
    (by decide)
  rw [throughout_iff_forall_take] at hrun
  exact hrun 23 (by decide +kernel)

end CloudPlatform.Operations
