import CloudPlatform.Operations.JobConduct

/-!
# What one call of a job does

The step lemmas of the calls on the rows of an hourly server: which of them writes the row, what is
noted, whose events they are, and that the replies are those of the protocol.
-/

namespace CloudPlatform.Operations

open Billing (BillingCall)
open Compute (ServerAggregate ServerLifecycleState)

/-! ### Events -/

/-- The job of an event. -/
def JobEvent.job : JobEvent → ℕ
  | considered job _ => job
  | loaded job _ => job
  | saved job _ _ => job
  | spent job => job
  | prepaid job _ _ => job
  | unfunded job _ _ => job
  | delivered job => job
  | absent job _ => job

/-- The events of a job, the latest first. -/
def eventsOf (job : ℕ) (log : List JobEvent) : List JobEvent :=
  log.filter (·.job = job)

theorem eventsOf_cons_self {event : JobEvent} {job : ℕ} (h : event.job = job) (log : List JobEvent) :
    eventsOf job (event :: log) = event :: eventsOf job log := by
  simp [eventsOf, h]

theorem eventsOf_cons_other {event : JobEvent} {job : ℕ} (h : event.job ≠ job)
    (log : List JobEvent) : eventsOf job (event :: log) = eventsOf job log := by
  simp [eventsOf, h]

/-! ### One call -/

section Steps

variable {terms : HourlyTerms} {job : ℕ} {chance : JobChance} {rows : JobRows}

/-- A save of a copy, under the id of the row or not. -/
theorem handle_saveServer (job : ℕ) (chance : JobChance) (rows : JobRows) (copy : ServerAggregate) :
    (rows.server.id ≠ copy.id ∧ ∃ raised, raised.kind = .lookupError ∧
      (JobCall.saveServer copy).handle job chance rows = (.error raised, rows)) ∨
    (rows.server.id = copy.id ∧ (JobCall.saveServer copy).handle job chance rows =
      (.ok (rows.server.saved copy rows.clock),
        { rows with server := rows.server.saved copy rows.clock }.note
          (.saved job rows.server.state (rows.server.saved copy rows.clock)))) := by
  by_cases hid : rows.server.id = copy.id
  · refine .inr ⟨hid, ?_⟩
    simp only [JobCall.handle, JobRows.saveServer, hid, ne_eq, not_true_eq_false, decide_false]
    rfl
  · refine .inl ⟨hid, ⟨.lookupError, s!"server {copy.id.text} not found"⟩, rfl, ?_⟩
    simp only [JobCall.handle, JobRows.saveServer, ne_eq, hid, not_false_eq_true, decide_true]
    rfl

/-- A read of the row, under its id or not. -/
theorem handle_read (job : ℕ) (chance : JobChance) (rows : JobRows) (id : Uuid) :
    (rows.server.id ≠ id ∧ (JobCall.server id).handle job chance rows = (.ok none, rows)) ∨
    (rows.server.id = id ∧ (JobCall.server id).handle job chance rows =
      (.ok (some rows.server), rows.note (.loaded job rows.server))) := by
  by_cases hid : rows.server.id = id
  · refine .inr ⟨hid, ?_⟩
    simp only [JobCall.handle, JobRows.get, Option.filter, hid, decide_true, if_true]
  · refine .inl ⟨hid, ?_⟩
    simp only [JobCall.handle, JobRows.get, Option.filter, hid, decide_false, Bool.false_eq_true,
      if_false]

/-- A query of the rows in a state. -/
theorem handle_list (job : ℕ) (chance : JobChance) (rows : JobRows) (state : ServerLifecycleState) :
    (rows.server.state ≠ state ∧ (JobCall.listServers state).handle job chance rows = (.ok [], rows)) ∨
    (rows.server.state = state ∧ (JobCall.listServers state).handle job chance rows =
      (.ok [rows.server], rows.note (.loaded job rows.server))) := by
  by_cases hstate : rows.server.state = state
  · exact .inr ⟨hstate, if_pos hstate⟩
  · exact .inl ⟨hstate, if_neg hstate⟩

variable {request : JobCall}

/-- Only a save writes the row. -/
theorem handle_server (hsave : ∀ copy, request ≠ .saveServer copy) :
    (request.handle job chance rows).2.server = rows.server := by
  cases request with
  | saveServer copy => exact absurd rfl (hsave copy)
  | server id =>
    rcases handle_read job chance rows id with ⟨-, hdone⟩ | ⟨-, hdone⟩
    · rw [hdone]
    · rw [hdone]
      rfl
  | listServers state =>
    rcases handle_list job chance rows state with ⟨-, hdone⟩ | ⟨-, hdone⟩
    · rw [hdone]
    · rw [hdone]
      rfl
  | billing request =>
    simp only [JobCall.handle, JobRows.bill]
    split <;> rfl
  | getOrCreate intent =>
    simp only [JobCall.handle, JobRows.getOrCreate]
    split <;> rfl
  | claim operationId =>
    simp only [JobCall.handle, JobRows.claim]
    split <;> rfl
  | saveOperation copy =>
    simp only [JobCall.handle, JobRows.saveOperation]
    cases hsaved : save (rows.operation copy.id) copy rows.clock <;> rfl
  | createServer request key =>
    simp only [JobCall.handle, JobRows.accept]
    split
    · split <;> rfl
    · split <;> rfl
    · rfl
  | getServer providerServerId =>
    simp only [JobCall.handle]
    split <;> rfl
  | power action providerServerId key =>
    simp only [JobCall.handle]
    split <;> rfl
  | _ => rfl

/-- What a call may note. -/
def JobCall.Notes (job : ℕ) (rows : JobRows) : JobCall → JobEvent → Prop
  | consider state, event => event = .considered job state
  | server _, event => event = .loaded job rows.server
  | listServers _, event => event = .loaded job rows.server
  | saveServer copy, event =>
    event = .saved job rows.server.state (rows.server.saved copy rows.clock)
  | billing request, event => request.Pays ∧ event = .spent job
  | prepaid now, event => event = .prepaid job now rows.server
  | unfunded now, event => event = .unfunded job now rows.server
  | getServer providerServerId, event => event = .absent job providerServerId
  | power action _ _, event => action.delivers = true ∧ event = .delivered job
  | notifySucceeded, event => event = .delivered job
  | _, _ => False

/-- What a call notes is an event of its job. -/
theorem JobCall.Notes.job_eq {event : JobEvent} (h : request.Notes job rows event) :
    event.job = job := by
  cases request with
  | billing request => exact h.2 ▸ rfl
  | power action providerServerId key => exact h.2 ▸ rfl
  | consider state => exact h ▸ rfl
  | server id => exact h ▸ rfl
  | listServers state => exact h ▸ rfl
  | saveServer copy => exact h ▸ rfl
  | prepaid now => exact h ▸ rfl
  | unfunded now => exact h ▸ rfl
  | getServer providerServerId => exact h ▸ rfl
  | notifySucceeded => exact h ▸ rfl
  | _ => exact h.elim

/-- A call notes one event, or nothing. -/
theorem handle_log (job : ℕ) (chance : JobChance) (rows : JobRows) (request : JobCall) :
    (request.handle job chance rows).2.log = rows.log ∨ ∃ event, request.Notes job rows event ∧
      (request.handle job chance rows).2.log = event :: rows.log := by
  cases request with
  | consider state => exact .inr ⟨_, rfl, rfl⟩
  | server id =>
    rcases handle_read job chance rows id with ⟨-, hdone⟩ | ⟨-, hdone⟩
    · rw [hdone]
      exact .inl rfl
    · rw [hdone]
      exact .inr ⟨_, rfl, rfl⟩
  | listServers state =>
    rcases handle_list job chance rows state with ⟨-, hdone⟩ | ⟨-, hdone⟩
    · rw [hdone]
      exact .inl rfl
    · rw [hdone]
      exact .inr ⟨_, rfl, rfl⟩
  | saveServer copy =>
    rcases handle_saveServer job chance rows copy with ⟨-, raised, -, hdone⟩ | ⟨-, hdone⟩
    · rw [hdone]
      exact .inl rfl
    · rw [hdone]
      exact .inr ⟨_, rfl, rfl⟩
  | billing request =>
    simp only [JobCall.handle, JobRows.bill]
    split
    · exact .inl rfl
    · rename_i hchanged
      rcases Billing.BillingCall.handle_wallet request ⟨chance.tick, chance.newId⟩ rows.billing with
        hsame | ⟨hpays, -⟩
      · exact absurd hsame hchanged
      · exact .inr ⟨_, ⟨hpays, rfl⟩, rfl⟩
  | prepaid now => exact .inr ⟨_, rfl, rfl⟩
  | unfunded now => exact .inr ⟨_, rfl, rfl⟩
  | getOrCreate intent =>
    simp only [JobCall.handle, JobRows.getOrCreate]
    split <;> exact .inl rfl
  | claim operationId =>
    simp only [JobCall.handle, JobRows.claim]
    split <;> exact .inl rfl
  | saveOperation copy =>
    simp only [JobCall.handle, JobRows.saveOperation]
    cases hsaved : save (rows.operation copy.id) copy rows.clock <;> exact .inl rfl
  | createServer request key =>
    simp only [JobCall.handle, JobRows.accept]
    split
    · split <;> exact .inl rfl
    · split <;> exact .inl rfl
    · exact .inl rfl
  | getServer providerServerId =>
    simp only [JobCall.handle]
    split
    · exact .inr ⟨_, rfl, rfl⟩
    · exact .inl rfl
  | power action providerServerId key =>
    simp only [JobCall.handle]
    by_cases hoff : action = .powerOff
    · rw [if_pos hoff]
      exact .inl rfl
    · rw [if_neg hoff]
      exact .inr ⟨_, ⟨decide_eq_true hoff, rfl⟩, rfl⟩
  | notifySucceeded => exact .inr ⟨_, rfl, rfl⟩
  | _ => exact .inl rfl

/-- The events of another job stay as they are. -/
theorem eventsOf_handle {other : ℕ} (hne : other ≠ job) :
    eventsOf other (request.handle job chance rows).2.log = eventsOf other rows.log := by
  rcases handle_log job chance rows request with
    hlog | ⟨event, hevent, hlog⟩
  · rw [hlog]
  · rw [hlog, eventsOf_cons_other (hevent.job_eq ▸ hne.symm)]

/-- A saved row is the server's, with what the copy says. -/
theorem OfServer.saved (hserver : OfServer terms rows.server.toCloudServer) (copy : ServerAggregate) :
    OfServer terms (rows.server.saved copy rows.clock).toCloudServer ∧
      SavedAs copy.toCloudServer (rows.server.saved copy rows.clock).toCloudServer :=
  ⟨⟨hserver.id_eq, hserver.model, hserver.quantum⟩, rfl, rfl, rfl⟩

/-- A billing call of a job that neither reads nor writes the row at most counts a debit. -/
theorem bills_eq {l : Known} {request : BillingCall} (hpermits : l.permits terms (.billing request))
    (reply : Result request.Out) :
    ∃ debits, l.learns (.billing request) reply = { l with debits := debits } ∧ l.debits ≤ debits ∧
      (request.Pays → (∃ value, reply = .ok value) → debits = l.debits + 1) := by
  have hsame : l = { l with debits := l.debits } := rfl
  cases request with
  | server id => exact hpermits.elim
  | saveServer copy => exact hpermits.elim
  | adjust call =>
    cases reply with
    | error raised => exact ⟨l.debits, rfl, le_refl _, fun _ ⟨_, h⟩ ↦ nomatch h⟩
    | ok value => exact ⟨l.debits + 1, rfl, Nat.le_succ _, fun _ _ ↦ rfl⟩
  | hold request =>
    cases request with
    | capture holdId =>
      cases reply with
      | error raised => exact ⟨l.debits, rfl, le_refl _, fun _ ⟨_, h⟩ ↦ nomatch h⟩
      | ok value => exact ⟨l.debits + 1, rfl, Nat.le_succ _, fun _ _ ↦ rfl⟩
    | _ => exact ⟨l.debits, by cases reply <;> rfl, le_refl _, fun h ↦ h.elim⟩
  | _ => exact ⟨l.debits, by cases reply <;> rfl, le_refl _, fun h ↦ h.elim⟩

/-- A call keeps the row that of the server. -/
theorem OfServer.handle (hserver : OfServer terms rows.server.toCloudServer) (request : JobCall) :
    OfServer terms (request.handle job chance rows).2.server.toCloudServer := by
  by_cases hsave : ∃ copy, request = .saveServer copy
  · obtain ⟨copy, rfl⟩ := hsave
    rcases handle_saveServer job chance rows copy with
      ⟨-, raised, -, hdone⟩ | ⟨-, hdone⟩
    · rw [hdone]
      exact hserver
    · rw [hdone]
      exact (hserver.saved copy).1
  · rw [handle_server fun copy heq ↦ hsave ⟨copy, heq⟩]
    exact hserver

/-- The replies are those of the protocol. -/
theorem jobReplies_handle (hserver : OfServer terms rows.server.toCloudServer) (request : JobCall) :
    jobReplies terms request (request.handle job chance rows).1 := by
  cases request with
  | server id =>
    rcases handle_read job chance rows id with ⟨-, hdone⟩ | ⟨-, hdone⟩
    · rw [hdone]
      trivial
    · rw [hdone]
      exact hserver
  | listServers state =>
    rcases handle_list job chance rows state with ⟨-, hdone⟩ | ⟨hstate, hdone⟩
    · rw [hdone]
      exact fun row hrow ↦ nomatch hrow
    · rw [hdone]
      intro row hrow
      obtain rfl := List.mem_singleton.mp hrow
      exact ⟨hserver, hstate⟩
  | saveServer copy =>
    rcases handle_saveServer job chance rows copy with
      ⟨hid, raised, hkind, hdone⟩ | ⟨-, hdone⟩
    · rw [hdone]
      exact ⟨fun hcopy ↦ hid (hserver.id_eq.trans hcopy.symm), hkind⟩
    · rw [hdone]
      exact hserver.saved copy
  | billing request =>
    cases hreply : ((JobCall.billing request).handle job chance rows).1 with
    | ok value => trivial
    | error raised => exact fun hquiet ↦ Billing.BillingCall.kind_of_quiet hquiet hreply
  | _ => trivial

end Steps

end CloudPlatform.Operations
