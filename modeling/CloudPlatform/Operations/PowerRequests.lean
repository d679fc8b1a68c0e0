import CloudPlatform.Operations.PowerCommands
import CloudPlatform.Transition.Evaluation
import CloudPlatform.Transition.Protocol

/-!
# Histories of power requests

The requests of a customer for one server, one after another, each with the answers that it meets,
while the state of the server moves between them. A request that is let through should act: it
reaches the provider exactly once or fails on its own account (`Served`). The ledger answers a
request from the row of an earlier one under the same key, so a history serves all its requests
exactly if none of them finds a row under its key (`served_iff_unrecorded`).
-/

namespace CloudPlatform.Operations

open Billing (AccrualProgram)
open Compute (ServerAggregate ServerLifecycleState)
open Providers (classifyProviderError isProviderError)
open Transition

/-- The rows, and the power calls that were sent to the provider. -/
structure PowerWorld where
  rows : JobRows
  sent : List PowerAction := []

/-- The power call that a call sends. -/
def JobCall.powerCall : JobCall → List PowerAction
  | .power action .. => [action]
  | _ => []

namespace PowerWorld

/-- One call. -/
def handle (request : JobCall) (chance : JobChance) (world : PowerWorld) :
    Result request.Out × PowerWorld :=
  let (reply, rows) := request.handle 0 chance world.rows
  (reply, { rows := rows, sent := world.sent ++ request.powerCall })

/-- The operation under a key. -/
def operationByKey (world : PowerWorld) (key : String) : Option Operation :=
  world.rows.operationByKey key

end PowerWorld

/-! ### One execution -/

section Execution

/-- An operation that was just recorded is the last of the ledger. -/
def RecordedLast (old : List Operation) (id : Uuid) (key : String) (world : PowerWorld) : Prop :=
  ∃ operation, world.rows.operations = old ++ [operation] ∧ operation.id = id ∧
    operation.operationKey = key

/-- What the execution of an operation does: it saves this operation only, and sends this action
only. It counts what it has sent, and meets no answer that a retry could fix. -/
def sending (action : PowerAction) (id : Uuid) : Protocol Raised JobCall JobCall.Out ℕ where
  permits
    | _, .getOrCreate _ | _, .claim _ => False
    | _, .saveOperation copy => copy.id = id
    | _, .power other .. => other = action
    | _, _ => True
  truthful
    | .power .., .error raised =>
      isProviderError raised.kind = true → classifyProviderError raised = .permanent
    | _, _ => True
  learns
    | count, .power .., _ => count + 1
    | count, _, _ => count

variable {settings : JobSettings} {action : PowerAction} {id : Uuid} {count : ℕ}

/-- The calls of the accrual job send nothing. -/
theorem sending_bills {α : Type} (held : ServerAggregate) (program : AccrualProgram α) :
    Follows (sending action id) (fun _ after ↦ after = count) (ServerJob.bills held program)
      count := by
  unfold ServerJob.bills
  induction program with
  | done outcome => rfl
  | call request next ih =>
    cases request <;> exact ⟨trivial, fun reply _ ↦ ih _⟩

theorem sending_prepayServer (server : ServerAggregate) (renewAheadSeconds : ℤ) :
    Follows (sending action id) (fun _ after ↦ after = count)
      (ServerJob.prepayServer server renewAheadSeconds) count := by
  unfold ServerJob.prepayServer
  split
  · rfl
  unfold ServerJob.now
  refine follows_perform trivial (fun moment _ ↦ ?_) fun _ _ ↦ rfl
  refine follows_lift (fun _ _ ↦ ?_) fun _ _ ↦ rfl
  refine follows_lift (fun coverageAt _ ↦ ?_) fun _ _ ↦ rfl
  refine follows_perform trivial (fun acquired _ ↦ ?_) fun _ _ ↦ rfl
  split
  · refine follows_attempt ((sending_bills server _).mono fun outcome after hafter ↦ ?_)
    subst hafter
    cases outcome with
    | ok copy => exact follows_perform trivial (fun _ _ ↦ rfl) fun _ _ ↦ rfl
    | error raised =>
      dsimp only
      split
      · exact follows_perform trivial (fun _ _ ↦ rfl) fun _ _ ↦ rfl
      · rfl
  · rfl

theorem sending_requireHourlyPrepayment (server : ServerAggregate) :
    Follows (sending action id) (fun _ after ↦ after = count)
      (ServerJob.requireHourlyPrepayment server) count := by
  unfold ServerJob.requireHourlyPrepayment
  split
  · rfl
  split
  · unfold ServerJob.now
    refine follows_perform trivial (fun moment _ ↦ ?_) fun _ _ ↦ rfl
    exact follows_lift (fun _ _ ↦ rfl) fun _ _ ↦ rfl
  · exact sending_prepayServer server 0

variable {operation : Operation}

/-- A failure saves the operation and raises. -/
theorem sending_fail {R : PowerExecutionResult → ℕ → Prop} (hid : operation.id = id)
    (reason : String) (ambiguous : Bool) :
    Follows (sending action id) (Returns R) (PowerExecutor.fail operation reason ambiguous)
      count := by
  unfold PowerExecutor.fail
  refine follows_returns_lift fun failed hfailed ↦ ?_
  have hfailedId : failed.id = id := by
    obtain ⟨moved, hmoved, hpure⟩ := bind_eq_ok.mp hfailed
    obtain ⟨-, rfl⟩ := Operation.transitionTo_eq_ok.mp hmoved
    obtain rfl := pure_eq_ok.mp hpure
    exact hid
  refine follows_returns_perform ?_ fun _ _ ↦ follows_returns_error
  change (if ambiguous = true then _ else failed).id = id
  split
  · exact hfailedId
  · exact hfailedId

theorem sending_finishPower (hid : operation.id = id) (server : ServerAggregate) :
    Follows (sending action id) (Returns fun _ after ↦ after = count)
      (PowerExecutor.finishPower operation server action) count := by
  unfold PowerExecutor.finishPower
  refine follows_returns_lift fun completed hcompleted ↦ ?_
  have hcompletedId : completed.id = id := by
    obtain ⟨-, hrest⟩ := rejectIf_bind_eq_ok.mp hcompleted
    obtain ⟨moved, hmoved, hpure⟩ := bind_eq_ok.mp hrest
    obtain ⟨-, rfl⟩ := Operation.transitionTo_eq_ok.mp hmoved
    obtain rfl := pure_eq_ok.mp hpure
    exact hid
  refine follows_returns_perform hcompletedId fun _ _ ↦ ?_
  have htarget : Follows (sending action id) (Returns fun _ after ↦ after = count)
      (PowerExecutor.applyTarget server action) count := by
    unfold PowerExecutor.applyTarget
    split
    · exact follows_pure rfl
    split
    · split
      · exact follows_pure rfl
      · exact follows_attempt_perform trivial fun _ _ ↦ follows_pure rfl
    · exact follows_pure rfl
  exact follows_returns_bind htarget fun _ _ h ↦ follows_pure h

/-- The mutation is sent once, and an execution that returns has sent it. -/
theorem sending_invokePower (hid : operation.id = id) (server : ServerAggregate) :
    Follows (sending action id) (Returns fun _ after ↦ after = count + 1)
      (PowerExecutor.invokePower operation server action) count := by
  unfold PowerExecutor.invokePower
  refine follows_attempt_perform rfl fun reply hreply ↦ ?_
  cases reply with
  | ok sent => exact sending_finishPower hid server
  | error raised =>
    dsimp only
    split
    · rename_i hprovider
      have hpermanent : classifyProviderError raised ≠ .retryable := by
        rw [hreply hprovider]
        decide
      rw [if_neg hpermanent]
      exact sending_fail hid _ _
    · exact follows_returns_error

/-- The first execution of an operation returns only once it has sent its action. -/
theorem sending_execute (hid : operation.id = id)
    (htype : operation.operationType = action.operationType) (hattempts : operation.attempts = 1) :
    Follows (sending action id) (Returns fun _ after ↦ after = 1)
      (PowerExecutor.execute settings operation) 0 := by
  have hsend : ∀ provider server, Follows (sending action id) (Returns fun _ after ↦ after = 1)
      (PowerExecutor.sendPower provider operation server action) 0 := by
    intro provider server
    unfold PowerExecutor.sendPower
    rw [if_neg (by simp [hattempts])]
    exact sending_invokePower hid server
  unfold PowerExecutor.execute
  rw [htype, PowerAction.powerAction_operationType]
  refine follows_returns_perform trivial fun found _ ↦ ?_
  split
  · exact sending_fail hid _ _
  unfold PowerExecutor.executeOn
  split
  · exact sending_fail hid _ _
  split
  · exact sending_fail hid _ _
  split
  · split
    · exact sending_fail hid _ _
    · exact follows_returns_error
  split
  · unfold PowerExecutor.prepayAndSend
    split
    · refine follows_attempt ((sending_requireHourlyPrepayment _).mono ?_)
      rintro outcome after rfl
      cases outcome with
      | ok prepaid => exact hsend _ prepaid
      | error raised =>
        dsimp only
        split
        · exact sending_fail hid _ _
        · refine follows_returns_lift fun requeued hrequeued ↦ ?_
          have hrequeuedId : requeued.id = id := by
            obtain ⟨moved, hmoved, hpure⟩ := bind_eq_ok.mp hrequeued
            obtain ⟨-, rfl⟩ := Operation.transitionTo_eq_ok.mp hmoved
            obtain rfl := pure_eq_ok.mp hpure
            exact hid
          exact follows_returns_perform hrequeuedId fun _ _ ↦ follows_returns_error
    · exact hsend _ _
  · exact sending_fail hid _ _

/-- No answer of the provider asks for a retry: it is a success or a permanent failure. -/
def Settled (chances : ℕ → JobChance) : Prop :=
  ∀ index raised, (chances index).sent = .error raised → isProviderError raised.kind = true →
    classifyProviderError raised = .permanent

theorem Settled.rest {chances : ℕ → JobChance} (h : Settled chances) : Settled (rest chances) :=
  fun index ↦ h (index + 1)

variable {old : List Operation} {key : String} {world : PowerWorld} {chance : JobChance}

/-- The last row of the ledger is replaced. -/
theorem replace_last {operation saved : Operation} (hold : ∀ other ∈ old, other.id ≠ saved.id)
    (hid : operation.id = saved.id) :
    Rows.replace Operation.id saved (old ++ [operation]) = old ++ [saved] := by
  rw [Rows.replace, List.map_append, List.map_singleton, if_pos hid]
  have hmap := List.map_congr_left (fun other hother ↦ if_neg (hold other hother) :
    ∀ other ∈ old, (if other.id = saved.id then saved else other) = (fun same ↦ same) other)
  rw [hmap, List.map_id']

/-- A permitted call keeps the operation at the end of the ledger. -/
theorem RecordedLast.handle (h : RecordedLast old id key world) (hold : ∀ other ∈ old, other.id ≠ id)
    {request : JobCall} (hpermits : (sending action id).permits count request) :
    RecordedLast old id key (PowerWorld.handle request chance world).2 := by
  obtain ⟨operation, hoperations, hid, hkey⟩ := h
  have hsame : ∀ rows : JobRows, rows.operations = world.rows.operations →
      ∃ operation, rows.operations = old ++ [operation] ∧ operation.id = id ∧
        operation.operationKey = key :=
    fun rows hrows ↦ ⟨operation, hrows.trans hoperations, hid, hkey⟩
  unfold RecordedLast PowerWorld.handle
  cases request with
  | getOrCreate intent => exact absurd hpermits not_false
  | claim operationId => exact absurd hpermits not_false
  | server serverId =>
    refine hsame _ ?_
    simp only [JobCall.handle]
    split <;> rfl
  | listServers state =>
    refine hsame _ ?_
    simp only [JobCall.handle]
    split <;> rfl
  | saveServer copy =>
    refine hsame _ ?_
    simp only [JobCall.handle, JobRows.saveServer]
    cases rejectIf (decide (world.rows.server.id ≠ copy.id)) .lookupError
      s!"server {copy.id.text} not found" <;> rfl
  | billing request =>
    refine hsame _ ?_
    simp only [JobCall.handle, JobRows.bill]
    split <;> rfl
  | createServer request key =>
    refine hsame _ ?_
    simp only [JobCall.handle, JobRows.accept]
    split
    · split <;> rfl
    · split <;> rfl
    · rfl
  | getServer providerServerId =>
    refine hsame _ ?_
    simp only [JobCall.handle]
    split <;> rfl
  | power action providerServerId key =>
    refine hsame _ ?_
    simp only [JobCall.handle]
    split <;> rfl
  | saveOperation copy =>
    have hcopy : copy.id = id := hpermits
    have hnone : old.find? (fun other ↦ other.id = id) = none := by
      rw [List.find?_eq_none]
      intro other hother
      simpa using hold other hother
    have hfind : world.rows.operation copy.id = some operation := by
      rw [JobRows.operation, hoperations, hcopy, List.find?_append, hnone, Option.none_or,
        List.find?_cons_of_pos (by simpa using hid)]
    simp only [JobCall.handle, JobRows.saveOperation, hfind]
    cases hsaved : Operations.save (some operation) copy world.rows.clock with
    | error raised => exact hsame _ rfl
    | ok saved =>
      obtain ⟨-, hrest⟩ := rejectIf_bind_eq_ok.mp hsaved
      obtain ⟨-, hdone⟩ := rejectIf_bind_eq_ok.mp hrest
      have hsavedId : saved.id = id := by
        rw [← pure_eq_ok.mp hdone]
        exact hid
      have hsavedKey : saved.operationKey = key := by
        rw [← pure_eq_ok.mp hdone]
        exact hkey
      refine ⟨saved, ?_, hsavedId, hsavedKey⟩
      change Rows.replace Operation.id saved world.rows.operations = old ++ [saved]
      rw [hoperations]
      exact replace_last (fun other hother ↦ hsavedId ▸ hold other hother) (hid.trans hsavedId.symm)
  | _ => exact hsame _ rfl

/-- What follows the protocol ends with what it has counted, and with the operation in the ledger.
-/
theorem ends_of_sending {α : Type} {post : Except Raised α → ℕ → Prop} {base : List PowerAction}
    (hold : ∀ other ∈ old, other.id ≠ id) :
    ∀ {program : JobProgram α} {count : ℕ} {chances : ℕ → JobChance} {world : PowerWorld},
      Follows (sending action id) post program count → Settled chances →
      RecordedLast old id key world → world.sent = base ++ List.replicate count action →
      Ends PowerWorld.handle (fun outcome _ after ↦ ∃ total, post outcome total ∧
        RecordedLast old id key after ∧ after.sent = base ++ List.replicate total action)
        program chances world := by
  intro program
  induction program with
  | done outcome =>
    intro count chances world hfollows hchances hworld hsent
    exact ends_done ⟨count, hfollows, hworld, hsent⟩
  | call request next ih =>
    intro count chances world hfollows hchances hworld hsent
    obtain ⟨hpermits, hnext⟩ := hfollows
    have htruthful : (sending action id).truthful request
        (PowerWorld.handle request (chances 0) world).1 := by
      cases request with
      | power other providerServerId powerKey =>
        change (sending action id).truthful (.power other providerServerId powerKey)
          (chances 0).sent
        cases hanswer : (chances 0).sent with
        | ok sent => trivial
        | error raised => exact hchances 0 raised hanswer
      | _ => trivial
    refine ends_call.mpr (ih _ (hnext _ htruthful) hchances.rest (hworld.handle hold hpermits) ?_)
    change world.sent ++ request.powerCall = _
    rw [hsent]
    cases request with
    | power other providerServerId powerKey =>
      obtain rfl : other = action := hpermits
      change base ++ List.replicate count other ++ [other] =
        base ++ List.replicate (count + 1) other
      rw [List.replicate_succ', List.append_assoc]
    | _ => exact List.append_nil _

/-- The execution of a claimed operation, and the reload of the server. -/
theorem sending_executeClaimed {server : ServerAggregate} (hid : operation.id = id)
    (htype : operation.operationType = action.operationType) (hattempts : operation.attempts = 1) :
    Follows (sending action id) (Returns fun _ after ↦ after = 1)
      (PowerCommand.executeClaimed settings server operation) 0 := by
  unfold PowerCommand.executeClaimed PowerCommand.reloaded
  refine follows_returns_bind (sending_execute hid htype hattempts) fun result after hafter ↦ ?_
  refine follows_returns_bind (Q := fun _ after ↦ after = 1)
    (follows_returns_perform trivial fun row _ ↦ follows_pure hafter) fun server after hafter ↦ ?_
  exact follows_pure hafter

end Execution

/-! ### One request -/

/-- The world once the row of the server was loaded. -/
def PowerWorld.loaded (world : PowerWorld) : PowerWorld :=
  { world with rows := world.rows.note (.loaded 0 world.rows.server) }

/-- A request that is let through: it comes from the owner, in a state that admits the action and
with a key, the policy permits it, it is confirmed where it has to be, and no earlier operation of
the action is open. -/
structure Admitted (world : PowerWorld) (request : PowerRequest) : Prop where
  server : world.rows.server.id = request.serverId
  owner : world.rows.server.userId = request.customerId
  state : world.rows.server.state = request.action.precondition
  permitted : request.permitted = .ok ()
  confirmed : request.confirmation = .notRequired ∨ request.confirmation = .confirmed
  key : strip request.commandKey ≠ ""
  short : request.ledgerKey.length ≤ 128
  idle : ∀ operation ∈ world.rows.operations,
    operation.operationType = request.action.operationType ∨
      operation.operationKey = request.ledgerKey →
    operation.status = .completed ∨ operation.status = .failed

/-- The ids that are drawn are those of no operation yet. -/
def FreshIds (world : PowerWorld) (chances : ℕ → JobChance) : Prop :=
  ∀ index, ∀ operation ∈ world.rows.operations, operation.id ≠ (chances index).newId

section Requests

variable {settings : JobSettings} {world : PowerWorld} {request : PowerRequest}
variable {chances : ℕ → JobChance}

theorem ends_server {α : Type} {post : Except Raised α → (ℕ → JobChance) → PowerWorld → Prop}
    {id : Uuid} (hid : world.rows.server.id = id) {f : Option ServerAggregate → JobProgram α}
    (h : Ends PowerWorld.handle post (f (some world.rows.server)) (rest chances) world.loaded) :
    Ends PowerWorld.handle post (ServerJob.perform (.server id) >>= f) chances world := by
  refine ends_perform ?_
  have hget : world.rows.get id = some world.rows.server := by
    rw [JobRows.get, Option.filter_some, if_pos (by simpa using hid)]
  have hhandle : PowerWorld.handle (.server id) (chances 0) world =
      (.ok (some world.rows.server), world.loaded) := by
    simp only [PowerWorld.handle, JobCall.handle, hget, JobCall.powerCall, List.append_nil]
    rfl
  rw [hhandle]
  exact h

/-- The way of an admitted request to the ledger. -/
theorem ends_powerAction {post : Except Raised PowerOutcome → (ℕ → JobChance) → PowerWorld → Prop}
    (h : Admitted world request) (hledger : Ends PowerWorld.handle (fun outcome chances after ↦
        post (outcome.map fun result ↦ .accepted result.replayed) chances after)
      (PowerCommand.executeOwned settings request.action world.rows.server request.ledgerKey)
      (rest (rest chances)) world.loaded.loaded) :
    Ends PowerWorld.handle post (powerAction settings request) chances world := by
  unfold powerAction PowerRequest.owned
  refine ends_bind (ends_server h.server ?_)
  dsimp only
  rw [if_neg (by simpa using h.owner)]
  refine ends_pure (ends_lift (fun _ _ ↦ ?_) fun raised hraised ↦ ?_)
  · have hcommand : Ends PowerWorld.handle post
        (PowerCommand.execute settings request.action request.customerId world.rows.server.id
            request.commandKey >>= fun result ↦ pure (.accepted result.replayed))
        (rest chances) world.loaded := by
      refine ends_bind ?_
      unfold PowerCommand.execute
      have hkey : powerOperationKey request.action world.rows.server.id
          (strip request.commandKey) = request.ledgerKey := by
        rw [h.server]
        rfl
      rw [rejectIf, if_neg (by simpa using h.key), hkey]
      refine ends_ok ?_
      dsimp only
      rw [rejectIf, if_neg (by simpa using h.short)]
      refine ends_ok ?_
      refine ends_server (show world.loaded.rows.server.id = world.rows.server.id from rfl) ?_
      change Ends PowerWorld.handle _ (if world.rows.server.userId ≠ request.customerId then _
        else _) _ _
      rw [if_neg (by simpa using h.owner)]
      refine hledger.mono fun outcome chances after houtcome ↦ ?_
      cases outcome with
      | ok result => exact ends_pure houtcome
      | error raised => exact houtcome
    obtain hconfirmation | hconfirmation := h.confirmed
    · rw [hconfirmation]
      exact hcommand
    · rw [hconfirmation]
      exact hcommand
  · rw [h.permitted] at hraised
    cases hraised

/-- The ledger is asked for the key of the request. -/
theorem ends_executeOwned {action : PowerAction} {server : ServerAggregate} {key : String}
    {post : Except Raised PowerCommandResult → (ℕ → JobChance) → PowerWorld → Prop}
    (h : Ends PowerWorld.handle post (match world.operationByKey key with
      | some operation => PowerCommand.executeExisting settings action server operation
      | none => PowerCommand.executeNew settings action server key) (rest chances) world) :
    Ends PowerWorld.handle post (PowerCommand.executeOwned settings action server key) chances
      world := by
  unfold PowerCommand.executeOwned
  refine ends_perform ?_
  have hhandle : PowerWorld.handle (.operationByKey key) (chances 0) world =
      (.ok (world.operationByKey key), world) := by
    simp only [PowerWorld.handle, JobCall.handle, JobCall.powerCall, List.append_nil]
    rfl
  rw [hhandle]
  cases hrow : world.operationByKey key with
  | none =>
    rw [hrow] at h
    exact h
  | some operation =>
    rw [hrow] at h
    exact h

/-- A new intent becomes the last operation of the ledger. -/
theorem getOrCreate_of_none {rows : JobRows} (intent : OperationIntent) (newId : Uuid)
    (hnone : rows.operationByKey intent.operationKey = none) :
    ∃ created, rows.getOrCreate intent newId =
        (created, { rows with operations := rows.operations ++ [created] }) ∧
      created.id = newId ∧ created.operationKey = intent.operationKey ∧
      created.operationType = intent.operationType ∧ created.status = .pending ∧
      created.attempts = 0 := by
  rw [JobRows.getOrCreate, hnone]
  exact ⟨_, rfl, rfl, rfl, rfl, rfl, rfl⟩

/-- A claim of the last operation of the ledger. -/
theorem claim_last (rows : JobRows) {old : List Operation} {created : Operation}
    (hoperations : rows.operations = old ++ [created])
    (hold : ∀ other ∈ old, other.id ≠ created.id) (hpending : created.status = .pending) :
    ∃ claimed, rows.claim created.id =
        (some claimed, { rows with operations := old ++ [claimed] }) ∧
      claimed.id = created.id ∧ claimed.operationKey = created.operationKey ∧
      claimed.operationType = created.operationType ∧ claimed.attempts = created.attempts + 1 := by
  have hnone : old.find? (·.id = created.id) = none := by
    rw [List.find?_eq_none]
    intro other hother
    simpa using hold other hother
  have hfind : rows.operation created.id = some created := by
    rw [JobRows.operation, hoperations, List.find?_append, hnone, Option.none_or]
    simp
  obtain ⟨claimed, hclaimed, hid, hkey, htype, hattempts⟩ : ∃ claimed,
      Operations.claim created rows.clock = (claimed, some claimed) ∧ claimed.id = created.id ∧
        claimed.operationKey = created.operationKey ∧
        claimed.operationType = created.operationType ∧
        claimed.attempts = created.attempts + 1 := by
    rw [Operations.claim, if_pos hpending]
    exact ⟨_, rfl, rfl, rfl, rfl, rfl⟩
  refine ⟨claimed, ?_, hid, hkey, htype, hattempts⟩
  have hreplaced := replace_last (fun other hother ↦ hid ▸ hold other hother) hid.symm
  rw [JobRows.claim, hfind]
  dsimp only
  rw [hclaimed, JobRows.setOperation, hoperations, hreplaced]

/-- A new operation is recorded and claimed, sends its action once if it returns, and stays in the
ledger. -/
theorem ends_executeNew {action : PowerAction} {server : ServerAggregate} {key : String}
    (hstate : server.state = action.precondition) (hnone : world.operationByKey key = none)
    (hfresh : FreshIds world chances) (hchances : Settled chances) : Ends PowerWorld.handle
      (fun outcome _ after ↦
        (∀ result, outcome = .ok result → after.sent = world.sent ++ [action]) ∧
        (after.operationByKey key).isSome)
      (PowerCommand.executeNew settings action server key) chances world := by
  unfold PowerCommand.executeNew
  rw [if_neg (by simpa using hstate)]
  refine ends_perform ?_
  obtain ⟨created, hcreate, hid, hkey, htype, hpending, hattempts⟩ :=
    getOrCreate_of_none ⟨key, action.operationType, server.id, server.providerKey⟩ (chances 0).newId
      (show world.rows.operationByKey key = none from hnone)
  have hold : ∀ other ∈ world.rows.operations, other.id ≠ created.id :=
    fun other hother ↦ hid ▸ hfresh 0 other hother
  simp only [PowerWorld.handle, JobCall.handle, hcreate, JobCall.powerCall, List.append_nil]
  unfold PowerCommand.claimAndExecute
  refine ends_perform ?_
  obtain ⟨claimed, hclaim, hclaimedId, hclaimedKey, hclaimedType, hclaimedAttempts⟩ :=
    claim_last { world.rows with operations := world.rows.operations ++ [created] } rfl hold
      hpending
  simp only [PowerWorld.handle, JobCall.handle, hclaim, JobCall.powerCall, List.append_nil]
  have hfollows : Follows (sending action created.id) (Returns fun _ after ↦ after = 1)
      (PowerCommand.executeClaimed settings server claimed) 0 :=
    sending_executeClaimed hclaimedId (hclaimedType.trans htype) (by omega)
  refine (ends_of_sending hold hfollows hchances.rest.rest ⟨claimed, rfl, hclaimedId, rfl⟩
    (List.append_nil _).symm).mono ?_
  rintro outcome _ after ⟨total, htotal, ⟨operation, hoperations, -, hoperationKey⟩, hsent⟩
  constructor
  · rintro result rfl
    obtain rfl : total = 1 := htotal
    exact hsent
  · have hlast : operation.operationKey = key := hoperationKey.trans (hclaimedKey.trans hkey)
    rw [PowerWorld.operationByKey, JobRows.operationByKey, hoperations, List.find?_append,
      show world.rows.operations.find? (·.operationKey = key) = none from hnone,
      Option.none_or, List.find?_cons_of_pos (by simpa using hlast)]
    rfl

end Requests

/-! ### Histories -/

/-- A request with the answers that it meets, or a move of the server's state. -/
inductive PowerEvent
  | request (request : PowerRequest) (chances : ℕ → JobChance)
  | moves (state : ServerLifecycleState)

section Histories

variable (settings : JobSettings)

/-- The outcome of a request, and the world that it leaves. -/
def PowerRequest.eval (request : PowerRequest) (chances : ℕ → JobChance) (world : PowerWorld) :
    Result PowerOutcome × PowerWorld :=
  (powerAction settings request).eval PowerWorld.handle chances world

/-- One event of a history. -/
def PowerWorld.step (world : PowerWorld) : PowerEvent → PowerWorld
  | .request request chances => (request.eval settings chances world).2
  | .moves state => { world with
      rows := { world.rows with
        server := { world.rows.server with state := state } } }

/-- The answers of the provider are successes and permanent failures, and the ids that are drawn are
new. -/
def Answered (world : PowerWorld) : PowerEvent → Prop
  | .request _ chances => Settled chances ∧ FreshIds world chances
  | .moves _ => True

/-- A request that is let through and accepted has sent its action to the provider, once; and one
that fails leaves its own mark in the ledger, rather than repeat the failure of an earlier one. -/
def Served (world : PowerWorld) : PowerEvent → Prop
  | .request request chances => Admitted world request →
    (∀ outcome, (request.eval settings chances world).1 = .ok outcome →
      (request.eval settings chances world).2.sent = world.sent ++ [request.action]) ∧
    (∀ raised, (request.eval settings chances world).1 = .error raised →
      (request.eval settings chances world).2.operationByKey request.ledgerKey ≠
        world.operationByKey request.ledgerKey)
  | .moves _ => True

/-- A request that is let through finds no operation under its key. -/
def Unrecorded (world : PowerWorld) : PowerEvent → Prop
  | .request request _ => Admitted world request →
    world.operationByKey request.ledgerKey = none
  | .moves _ => True

variable {settings} {world : PowerWorld} {request : PowerRequest} {chances : ℕ → JobChance}

theorem served_of_unrecorded (hadmitted : Admitted world request) (hchances : Settled chances)
    (hfresh : FreshIds world chances) (hnone : world.operationByKey request.ledgerKey = none) :
    (∀ outcome, (request.eval settings chances world).1 = .ok outcome →
      (request.eval settings chances world).2.sent = world.sent ++ [request.action]) ∧
    ((request.eval settings chances world).2.operationByKey request.ledgerKey).isSome := by
  have hloaded : world.loaded.loaded.operationByKey request.ledgerKey = none := hnone
  have hends : Ends PowerWorld.handle (fun outcome _ after ↦
      (∀ result, outcome = .ok result → after.sent = world.sent ++ [request.action]) ∧
        (after.operationByKey request.ledgerKey).isSome)
      (powerAction settings request) chances world := by
    refine ends_powerAction hadmitted (ends_executeOwned ?_)
    rw [hloaded]
    refine (ends_executeNew hadmitted.state hloaded (fun index ↦ hfresh (index + 3))
      hchances.rest.rest.rest).mono fun outcome _ after h ↦ ⟨?_, h.2⟩
    intro result hresult
    cases outcome with
    | ok value => exact h.1 value rfl
    | error raised => cases hresult
  exact hends.eval

/-- A request whose operation is completed is accepted and sends nothing. -/
theorem replayed_of_completed (settings : JobSettings) (chances : ℕ → JobChance)
    (hadmitted : Admitted world request) {operation : Operation}
    (hrow : world.operationByKey request.ledgerKey = some operation)
    (hstatus : operation.status = .completed) :
    (request.eval settings chances world).1 = .ok (.accepted true) ∧
      (request.eval settings chances world).2.sent = world.sent := by
  have hloaded : world.loaded.loaded.operationByKey request.ledgerKey = some operation := hrow
  have hends : Ends PowerWorld.handle
      (fun outcome _ after ↦ outcome = .ok (.accepted true) ∧ after.sent = world.sent)
      (powerAction settings request) chances world := by
    refine ends_powerAction hadmitted (ends_executeOwned ?_)
    rw [hloaded]
    unfold PowerCommand.executeExisting PowerCommand.reloaded
    dsimp only
    rw [hstatus]
    refine ends_bind (ends_server
      (show world.loaded.loaded.rows.server.id = world.rows.server.id from rfl) ?_)
    exact ends_pure (ends_pure ⟨rfl, rfl⟩)
  exact hends.eval

/-- A request whose operation has failed raises the recorded failure and leaves the ledger. -/
theorem raised_of_failed (settings : JobSettings) (chances : ℕ → JobChance)
    (hadmitted : Admitted world request) {operation : Operation}
    (hrow : world.operationByKey request.ledgerKey = some operation)
    (hstatus : operation.status = .failed) :
    (request.eval settings chances world).1 = .error (PowerCommand.recordedFailure operation) ∧
      (request.eval settings chances world).2.operationByKey request.ledgerKey =
        world.operationByKey request.ledgerKey := by
  have hloaded : world.loaded.loaded.operationByKey request.ledgerKey = some operation := hrow
  have hends : Ends PowerWorld.handle (fun outcome _ after ↦
      outcome = .error (PowerCommand.recordedFailure operation) ∧
        after.operationByKey request.ledgerKey = world.operationByKey request.ledgerKey)
      (powerAction settings request) chances world := by
    refine ends_powerAction hadmitted (ends_executeOwned ?_)
    rw [hloaded]
    unfold PowerCommand.executeExisting
    dsimp only
    rw [hstatus]
    exact ends_throw ⟨rfl, rfl⟩
  exact hends.eval

/-- A request is served exactly if it finds no operation under its key. -/
theorem served_iff (settings : JobSettings) {event : PowerEvent} (h : Answered world event) :
    Served settings world event ↔ Unrecorded world event := by
  cases event with
  | moves state => exact Iff.rfl
  | request request chances =>
    obtain ⟨hchances, hfresh⟩ := h
    constructor
    · intro hserved hadmitted
      obtain ⟨hacts, hfails⟩ := hserved hadmitted
      cases hrow : world.operationByKey request.ledgerKey with
      | none => rfl
      | some operation =>
        have hmem : operation ∈ world.rows.operations := List.mem_of_find?_eq_some hrow
        have hkey : operation.operationKey = request.ledgerKey := by
          simpa using List.find?_some hrow
        cases hadmitted.idle operation hmem (Or.inr hkey) with
        | inl hcompleted =>
          obtain ⟨hok, hsent⟩ := replayed_of_completed settings chances hadmitted hrow hcompleted
          have hacted := hacts _ hok
          rw [hsent] at hacted
          exact absurd hacted (by simp)
        | inr hfailed =>
          obtain ⟨herror, hsame⟩ := raised_of_failed settings chances hadmitted hrow hfailed
          exact absurd hsame (hfails _ herror)
    · intro hunrecorded hadmitted
      have hnone := hunrecorded hadmitted
      obtain ⟨hacts, hrecorded⟩ := served_of_unrecorded hadmitted hchances hfresh hnone
      refine ⟨hacts, fun raised _ hsame ↦ ?_⟩
      rw [hsame, hnone] at hrecorded
      cases hrecorded

end Histories

/-! ### A server that is started a second time -/

namespace SecondStart

def serverId : Uuid :=
  ⟨"5ec0d57a-0000-4000-8000-000000000001", .refl true⟩

def customerId : Uuid :=
  ⟨"5ec0d57a-0000-4000-8000-000000000002", .refl true⟩

def walletId : Uuid :=
  ⟨"5ec0d57a-0000-4000-8000-000000000003", .refl true⟩

def startId : Uuid :=
  ⟨"5ec0d57a-0000-4000-8000-000000000004", .refl true⟩

def stopId : Uuid :=
  ⟨"5ec0d57a-0000-4000-8000-000000000005", .refl true⟩

/-- A provider that takes power calls. -/
def settings : JobSettings where
  registry _ _ := .ok {}
  inFlightTimeout := 900
  provisioningTimeout := 1800

/-- A monthly server that is stopped. -/
def world : PowerWorld where
  rows :=
    { server :=
        { id := serverId
          userId := customerId
          providerKey := "provider"
          state := .stopped
          providerServerId := some "17"
          billingModel := "prepaid_monthly_fixed" }
      books :=
        { wallet := { id := walletId, userId := customerId, balance := 0, currency := "EUR" } }
      clock := 0 }

def start : PowerRequest :=
  .fromScreen .powerOn customerId serverId

def stop : PowerRequest :=
  .fromScreen .powerOff customerId serverId

/-- The customer starts the server, stops it and starts it again; the provider takes every call. -/
def events : List PowerEvent :=
  [.request start fun _ ↦ { newId := startId }, .request stop fun _ ↦ { newId := stopId },
    .request start fun _ ↦ { newId := walletId }]

/-- The world before the second start. -/
def stoppedAgain : PowerWorld :=
  run (PowerWorld.step settings) world (events.take 2)

/-- What the first start and the stop leave, and what a second start comes to. -/
theorem stoppedAgain_spec :
    (stoppedAgain.rows.server.id = serverId ∧ stoppedAgain.rows.server.userId = customerId ∧
      stoppedAgain.rows.server.state = .stopped ∧
      ∀ operation ∈ stoppedAgain.rows.operations, operation.status = .completed) ∧
    (start.eval settings (fun _ ↦ { newId := walletId }) stoppedAgain).1 = .ok (.accepted true) ∧
    (start.eval settings (fun _ ↦ { newId := walletId }) stoppedAgain).2.sent ≠
      stoppedAgain.sent ++ [start.action] := by
  decide +kernel

theorem admitted_secondStart : Admitted stoppedAgain start where
  server := stoppedAgain_spec.1.1
  owner := stoppedAgain_spec.1.2.1
  state := stoppedAgain_spec.1.2.2.1
  permitted := rfl
  confirmed := Or.inl rfl
  key := by decide +kernel
  short := by decide +kernel
  idle operation hmem _ := Or.inl (stoppedAgain_spec.1.2.2.2 operation hmem)

end SecondStart

end CloudPlatform.Operations
