import CloudPlatform.Operations.HealthyServers

/-!
# Paid delivery

What the log of the jobs of an hourly server must say, one rule an event over the events before it.
In every run service is delivered only in a pass that has prepaid (`EachEvent JobEvent.Justified`). In a
run in which no save takes back what the row knows of its billing, a prepayment that returns leaves the
row covered, and one that lacks funds leaves it covered or with its deletion requested, and has debited
whole due periods only (`EachEvent (JobEvent.Settled quantum)`).
-/

namespace CloudPlatform.Operations

open Billing.AccrualJob (Covers paidThrough)
open Calendar (second)
open Compute (CloudServer ServerAggregate)
open Transition

/-! ### The rules of the log -/

/-- The job has prepaid since it last read the row or turned to a copy. -/
def paidFor : List JobEvent → Bool
  | [] => false
  | .prepaid .. :: _ => true
  | .loaded .. :: _ => false
  | .considered .. :: _ => false
  | _ :: before => paidFor before

/-- The row as the job read it last, and how often it has debited the wallet since. -/
def sinceRead : List JobEvent → Option (ServerAggregate × ℕ)
  | [] => none
  | .loaded _ row :: _ => some (row, 0)
  | .spent _ :: before => (sinceRead before).map fun (row, debits) ↦ (row, debits + 1)
  | _ :: before => sinceRead before

/-- Service is delivered in a pass that has prepaid, and a row moves to RUNNING only there, or where a
RUNNING row that the job has read before is written back. -/
def JobEvent.Justified (before : List JobEvent) : JobEvent → Prop
  | delivered job => paidFor (eventsOf job before) = true
  | saved job old row => old ≠ .running → row.state = .running →
      paidFor (eventsOf job before) = true ∨
        ∃ read : ServerAggregate, read.state = .running ∧ loaded job read ∈ before
  | _ => True

/-- A prepayment that returns leaves a row whose anchor has come covered. One that lacks funds leaves it
covered or with its deletion requested, and its watermark has moved by a period for every debit. -/
def JobEvent.Settled (quantum : ℤ) (before : List JobEvent) : JobEvent → Prop
  | prepaid _ now row =>
    (∀ start ∈ row.billingStartedAt, start ≤ now) → Covers row.toCloudServer now
  | unfunded job now row => (row.state = .deleteRequested ∨ Covers row.toCloudServer now) ∧
      ∀ read debits, sinceRead (eventsOf job before) = some (read, debits) → 0 < debits →
        ∃ paid ∈ row.lastAccruedAt,
          paidThrough read.toCloudServer now + quantum * debits * second ≤ paid
  | _ => True

/-- Every event of a log meets its rule over the events before it. -/
def EachEvent (rule : List JobEvent → JobEvent → Prop) : List JobEvent → Prop
  | [] => True
  | event :: before => rule before event ∧ EachEvent rule before

/-! ### Delivery -/

section Delivery

variable {terms : HourlyTerms} {job : ℕ} {chance : JobChance} {rows : JobRows} {l : Known}

/-- The events that say nothing of a prepayment. -/
def JobEvent.Passing : JobEvent → Prop
  | prepaid .. => False
  | loaded .. => False
  | considered .. => False
  | _ => True

theorem paidFor_cons {event : JobEvent} (h : event.Passing) (before : List JobEvent) :
    paidFor (event :: before) = paidFor before := by
  cases event with
  | prepaid job now row => exact h.elim
  | loaded job row => exact h.elim
  | considered job state => exact h.elim
  | _ => rfl

/-- What the log says of a prepayment and of the reads of a job that knows of them. -/
structure Paying (job : ℕ) (rows : JobRows) (l : Known) : Prop where
  prepaid : l.prepaid = true → paidFor (eventsOf job rows.log) = true
  wasRunning : l.wasRunning = true →
    ∃ read : ServerAggregate, read.state = .running ∧ .loaded job read ∈ rows.log

/-- The rows of the server, with a log in which every delivery is paid. -/
structure Delivering (terms : HourlyTerms) (rows : JobRows) : Prop where
  server : OfServer terms rows.server.toCloudServer
  log : EachEvent JobEvent.Justified rows.log

variable {request : JobCall}

/-- What a permitted call notes is justified. -/
theorem justified_of_permits {event : JobEvent} (hknow : Paying job rows l)
    (hpermits : l.permits terms request) (hnotes : request.Notes job rows event) :
    event.Justified rows.log := by
  cases request with
  | saveServer copy =>
    subst hnotes
    intro _ hrunning
    exact (hpermits.2 hrunning).imp hknow.prepaid hknow.wasRunning
  | power action providerServerId key =>
    obtain ⟨hdelivers, rfl⟩ := hnotes
    exact hknow.prepaid (hpermits hdelivers)
  | notifySucceeded =>
    subst hnotes
    exact hknow.prepaid hpermits
  | billing request =>
    obtain ⟨-, rfl⟩ := hnotes
    trivial
  | consider state => exact hnotes ▸ trivial
  | server id => exact hnotes ▸ trivial
  | listServers state => exact hnotes ▸ trivial
  | prepaid now => exact hnotes ▸ trivial
  | unfunded now => exact hnotes ▸ trivial
  | getServer providerServerId => exact hnotes ▸ trivial
  | _ => exact hnotes.elim

theorem Delivering.handle (hrows : Delivering terms rows) (hknow : Paying job rows l)
    (hpermits : l.permits terms request) : Delivering terms (request.handle job chance rows).2 := by
  refine ⟨hrows.server.handle request, ?_⟩
  rcases handle_log job chance rows request with hlog | ⟨event, hnotes, hlog⟩
  · rw [hlog]
    exact hrows.log
  · rw [hlog]
    exact ⟨justified_of_permits hknow hpermits hnotes, hrows.log⟩

/-- A log that grows keeps what was read. -/
theorem Paying.reads_mono (h : Paying job rows l) (hrunning : l.wasRunning = true) (caller : ℕ) :
    ∃ read : ServerAggregate, read.state = .running ∧
      .loaded job read ∈ (request.handle caller chance rows).2.log := by
  obtain ⟨read, hstate, hmem⟩ := h.wasRunning hrunning
  refine ⟨read, hstate, ?_⟩
  rcases handle_log caller chance rows request with hlog | ⟨event, -, hlog⟩
  · rw [hlog]
    exact hmem
  · rw [hlog]
    exact List.mem_cons_of_mem event hmem

theorem Paying.others {other : ℕ} (hknow : Paying other rows l) (hne : other ≠ job) :
    Paying other (request.handle job chance rows).2 l := by
  refine ⟨fun hprepaid ↦ ?_, fun hrunning ↦ hknow.reads_mono hrunning job⟩
  rw [eventsOf_handle hne]
  exact hknow.prepaid hprepaid

/-- What a job knows after a call that says nothing of a prepayment. -/
theorem Paying.passes {after : Known} (hknow : Paying job rows l)
    (hpassing : ∀ event, request.Notes job rows event → event.Passing)
    (hprepaid : after.prepaid = l.prepaid) (hrunning : after.wasRunning = l.wasRunning) :
    Paying job (request.handle job chance rows).2 after := by
  refine ⟨fun h ↦ ?_, fun h ↦ hknow.reads_mono (hrunning ▸ h) job⟩
  rcases handle_log job chance rows request with hlog | ⟨event, hnotes, hlog⟩
  · rw [hlog]
    exact hknow.prepaid (hprepaid ▸ h)
  · rw [hlog, eventsOf_cons_self hnotes.job_eq, paidFor_cons (hpassing event hnotes)]
    exact hknow.prepaid (hprepaid ▸ h)

/-- What a job learns from its own call. -/
theorem Paying.learns (hknow : Paying job rows l) (hpermits : l.permits terms request) :
    Paying job (request.handle job chance rows).2
      (l.learns request (request.handle job chance rows).1) := by
  cases request with
  | consider state => exact ⟨fun h ↦ (by cases h), fun h ↦ hknow.reads_mono h job⟩
  | server id =>
    rcases handle_read job chance rows id with ⟨-, hdone⟩ | ⟨-, hdone⟩
    · rw [hdone]
      exact hknow
    · rw [hdone]
      refine ⟨fun h ↦ (by cases h), fun h ↦ ?_⟩
      rcases (Bool.or_eq_true _ _).mp h with hbefore | hnow
      · obtain ⟨read, hstate, hmem⟩ := hknow.wasRunning hbefore
        exact ⟨read, hstate, List.mem_cons_of_mem _ hmem⟩
      · exact ⟨rows.server, of_decide_eq_true hnow, List.mem_cons_self⟩
  | listServers state =>
    rcases handle_list job chance rows state with ⟨-, hdone⟩ | ⟨-, hdone⟩
    · rw [hdone]
      refine ⟨fun h ↦ (by cases h), fun h ↦ hknow.wasRunning ?_⟩
      simpa [Known.learns] using h
    · rw [hdone]
      refine ⟨fun h ↦ (by cases h), fun h ↦ ?_⟩
      rcases (Bool.or_eq_true _ _).mp h with hbefore | hnow
      · obtain ⟨read, hstate, hmem⟩ := hknow.wasRunning hbefore
        exact ⟨read, hstate, List.mem_cons_of_mem _ hmem⟩
      · exact ⟨rows.server, by simpa using hnow, List.mem_cons_self⟩
  | saveServer copy =>
    cases hreply : ((JobCall.saveServer copy).handle job chance rows).1 with
    | error raised => exact hknow.passes (fun event h ↦ h ▸ trivial) rfl rfl
    | ok row => exact hknow.passes (fun event h ↦ h ▸ trivial) rfl rfl
  | billing request =>
    obtain ⟨debits, hlearns, -⟩ := bills_eq hpermits
      ((JobCall.billing request).handle job chance rows).1
    rw [hlearns]
    exact hknow.passes (fun event h ↦ h.2 ▸ trivial) rfl rfl
  | prepaid now =>
    refine ⟨fun _ ↦ ?_, fun h ↦ hknow.reads_mono h job⟩
    have hself : eventsOf job (.prepaid job now rows.server :: rows.log) =
        .prepaid job now rows.server :: eventsOf job rows.log := eventsOf_cons_self rfl rows.log
    exact congrArg paidFor hself
  | unfunded now => exact hknow.passes (fun event h ↦ h ▸ trivial) rfl rfl
  | getServer providerServerId =>
    cases hreply : ((JobCall.getServer providerServerId).handle job chance rows).1 with
    | error raised => exact hknow.passes (fun event h ↦ h ▸ trivial) rfl rfl
    | ok found => exact hknow.passes (fun event h ↦ h ▸ trivial) rfl rfl
  | power action providerServerId key => exact hknow.passes (fun event h ↦ h.2 ▸ trivial) rfl rfl
  | notifySucceeded => exact hknow.passes (fun event h ↦ h ▸ trivial) rfl rfl
  | _ => exact hknow.passes (fun event h ↦ h.elim) rfl rfl

end Delivery

/-! ### Settlement -/

section Settlement

variable {terms : HourlyTerms} {job : ℕ} {chance : JobChance} {rows : JobRows} {l : Known}

/-- A later row takes back nothing of what an earlier one says of the billing. -/
structure KeepsBilling (before after : CloudServer) : Prop where
  watermark : ∀ paid ∈ before.lastAccruedAt, ∃ later ∈ after.lastAccruedAt, paid ≤ later
  anchor : ∀ start ∈ before.billingStartedAt, start ∈ after.billingStartedAt
  requested : before.state = .deleteRequested → after.state = .deleteRequested

theorem KeepsBilling.refl (server : CloudServer) : KeepsBilling server server :=
  ⟨fun paid hpaid ↦ ⟨paid, hpaid, le_refl paid⟩, fun _ h ↦ h, id⟩

theorem KeepsBilling.trans {first second third : CloudServer} (h₁ : KeepsBilling first second)
    (h₂ : KeepsBilling second third) : KeepsBilling first third where
  watermark paid hpaid := by
    obtain ⟨middle, hmiddle, hle⟩ := h₁.watermark paid hpaid
    obtain ⟨later, hlater, hle'⟩ := h₂.watermark middle hmiddle
    exact ⟨later, hlater, hle.trans hle'⟩
  anchor start hstart := h₂.anchor start (h₁.anchor start hstart)
  requested h := h₂.requested (h₁.requested h)

theorem KeepsBilling.covers {before after : CloudServer} (h : KeepsBilling before after) {now : ℤ}
    (hcovers : Covers before now) : Covers after now := by
  obtain ⟨paid, hpaid, hlt⟩ := hcovers
  obtain ⟨later, hlater, hle⟩ := h.watermark paid hpaid
  exact ⟨later, hlater, hlt.trans_le hle⟩

instance (before after : CloudServer) : Decidable (KeepsBilling before after) :=
  decidable_of_iff ((∀ paid ∈ before.lastAccruedAt, ∃ later ∈ after.lastAccruedAt, paid ≤ later) ∧
      (∀ start ∈ before.billingStartedAt, start ∈ after.billingStartedAt) ∧
      (before.state = .deleteRequested → after.state = .deleteRequested))
    ⟨fun h ↦ ⟨h.1, h.2.1, h.2.2⟩, fun h ↦ ⟨h.watermark, h.anchor, h.requested⟩⟩

/-- The copy that a call saves. -/
def JobCall.savedCopy : JobCall → Option ServerAggregate
  | saveServer copy => some copy
  | _ => none

/-- A save that takes nothing of the billing back. -/
def SavesForward (_job : ℕ) (rows : JobRows) (request : JobCall) : Prop :=
  ∀ copy ∈ request.savedCopy, KeepsBilling rows.server.toCloudServer copy.toCloudServer

instance (job : ℕ) (rows : JobRows) (request : JobCall) : Decidable (SavesForward job rows request) :=
  inferInstanceAs (Decidable (∀ copy ∈ request.savedCopy, _))

/-- What the log and the row say of the reads, the saves and the debits of a job. -/
structure Accounted (job : ℕ) (rows : JobRows) (l : Known) : Prop where
  base : ∀ base ∈ l.base, ∃ read debits, sinceRead (eventsOf job rows.log) = some (read, debits) ∧
    read.toCloudServer = base ∧ debits ≤ l.debits
  row : ∀ row ∈ l.row, KeepsBilling row rows.server.toCloudServer

/-- The rows of the server, with a log in which every prepayment is settled. -/
structure Settling (terms : HourlyTerms) (rows : JobRows) : Prop where
  server : OfServer terms rows.server.toCloudServer
  log : EachEvent (JobEvent.Settled terms.quantum) rows.log

variable {request : JobCall}

/-- A call that the condition allows takes nothing of the billing back. -/
theorem keepsBilling_handle (hallowed : SavesForward job rows request) :
    KeepsBilling rows.server.toCloudServer
      (request.handle job chance rows).2.server.toCloudServer := by
  by_cases hsave : ∃ copy, request = .saveServer copy
  · obtain ⟨copy, rfl⟩ := hsave
    rcases handle_saveServer job chance rows copy with ⟨-, raised, -, hdone⟩ | ⟨-, hdone⟩
    · rw [hdone]
      exact .refl _
    · rw [hdone]
      have hkeeps := hallowed copy rfl
      exact ⟨hkeeps.watermark, hkeeps.anchor, hkeeps.requested⟩
  · rw [handle_server fun copy heq ↦ hsave ⟨copy, heq⟩]
    exact .refl _

/-- What a permitted call notes is settled. -/
theorem settled_of_permits (hquantum : 0 < terms.quantum) {event : JobEvent}
    (hknow : Accounted job rows l) (hpermits : l.permits terms request)
    (hnotes : request.Notes job rows event) : event.Settled terms.quantum rows.log := by
  cases request with
  | prepaid now =>
    subst hnotes
    obtain ⟨row, hrow, hcovers⟩ := hpermits
    have hkeeps := hknow.row row hrow
    exact fun hanchor ↦ hkeeps.covers
      (hcovers hquantum fun start hstart ↦ hanchor start (hkeeps.anchor start hstart))
  | unfunded now =>
    subst hnotes
    obtain ⟨base, hbase, row, hrow, hstate, hdebits⟩ := hpermits
    have hkeeps := hknow.row row hrow
    refine ⟨hstate.imp hkeeps.requested hkeeps.covers, fun read debits hread hpositive ↦ ?_⟩
    obtain ⟨read', debits', hread', hsame, hle⟩ := hknow.base base hbase
    obtain ⟨rfl, rfl⟩ := Prod.mk.inj (Option.some.inj (hread'.symm.trans hread))
    obtain ⟨paid, hpaid, hmoved⟩ := hdebits hquantum (hpositive.trans_le hle)
    obtain ⟨later, hlater, hpaidLe⟩ := hkeeps.watermark paid hpaid
    refine ⟨later, hlater, le_trans ?_ (hmoved.trans hpaidLe)⟩
    rw [hsame]
    refine Int.add_le_add_left (mul_le_mul_of_nonneg_right ?_ (by decide)) _
    exact mul_le_mul_of_nonneg_left (by exact_mod_cast hle) hquantum.le
  | billing request => exact hnotes.2 ▸ trivial
  | power action providerServerId key => exact hnotes.2 ▸ trivial
  | consider state => exact hnotes ▸ trivial
  | server id => exact hnotes ▸ trivial
  | listServers state => exact hnotes ▸ trivial
  | saveServer copy => exact hnotes ▸ trivial
  | getServer providerServerId => exact hnotes ▸ trivial
  | notifySucceeded => exact hnotes ▸ trivial
  | _ => exact hnotes.elim

theorem Settling.handle (hquantum : 0 < terms.quantum) (hrows : Settling terms rows)
    (hknow : Accounted job rows l) (hpermits : l.permits terms request) :
    Settling terms (request.handle job chance rows).2 := by
  refine ⟨hrows.server.handle request, ?_⟩
  rcases handle_log job chance rows request with hlog | ⟨event, hnotes, hlog⟩
  · rw [hlog]
    exact hrows.log
  · rw [hlog]
    exact ⟨settled_of_permits hquantum hknow hpermits hnotes, hrows.log⟩

theorem Accounted.others {other : ℕ} (hknow : Accounted other rows l)
    (hallowed : SavesForward job rows request) (hne : other ≠ job) :
    Accounted other (request.handle job chance rows).2 l := by
  refine ⟨?_, fun row hrow ↦ (hknow.row row hrow).trans (keepsBilling_handle hallowed)⟩
  rw [eventsOf_handle hne]
  exact hknow.base

/-- The events that leave the reads of a job and its debits as they are. -/
def JobEvent.Unread : JobEvent → Prop
  | loaded .. => False
  | spent _ => False
  | _ => True

theorem sinceRead_cons {event : JobEvent} (h : event.Unread) (before : List JobEvent) :
    sinceRead (event :: before) = sinceRead before := by
  cases event with
  | loaded job row => exact h.elim
  | spent job => exact h.elim
  | _ => rfl

/-- What a job knows after a call that neither reads the row nor debits the wallet. -/
theorem Accounted.passes {after : Known} (hknow : Accounted job rows l)
    (hallowed : SavesForward job rows request)
    (hunread : ∀ event, request.Notes job rows event → event.Unread) (hbase : after.base = l.base)
    (hrow : after.row = l.row) (hdebits : after.debits = l.debits) :
    Accounted job (request.handle job chance rows).2 after := by
  refine ⟨fun base h ↦ ?_, fun row h ↦ ?_⟩
  · rw [hbase] at h
    rw [hdebits]
    rcases handle_log job chance rows request with hlog | ⟨event, hnotes, hlog⟩
    · rw [hlog]
      exact hknow.base base h
    · rw [hlog, eventsOf_cons_self hnotes.job_eq, sinceRead_cons (hunread event hnotes)]
      exact hknow.base base h
  · rw [hrow] at h
    exact (hknow.row row h).trans (keepsBilling_handle hallowed)

/-- A debit is counted when it returns. -/
theorem Accounted.bills {request : Billing.BillingCall} (hknow : Accounted job rows l)
    (hpermits : l.permits terms (.billing request)) :
    Accounted job ((JobCall.billing request).handle job chance rows).2
      (l.learns (.billing request) ((JobCall.billing request).handle job chance rows).1) := by
  obtain ⟨debits, hlearns, hle, hdebited⟩ := bills_eq hpermits
    ((JobCall.billing request).handle job chance rows).1
  rw [hlearns]
  refine ⟨fun base hbase ↦ ?_, fun row hrow ↦ (hknow.row row hrow).trans
    (keepsBilling_handle fun _ h ↦ nomatch h)⟩
  obtain ⟨read, count, hread, hsame, hcount⟩ := hknow.base base hbase
  rcases Billing.BillingCall.handle_wallet request ⟨chance.tick, chance.newId⟩ rows.billing with
    hwallet | ⟨hpays, hvalue⟩
  · refine ⟨read, count, ?_, hsame, hcount.trans hle⟩
    have hsameWallet : (request.handle ⟨chance.tick, chance.newId⟩ rows.billing).2.books.wallet =
        rows.books.wallet := hwallet
    simp only [JobCall.handle, JobRows.bill]
    rw [if_pos hsameWallet]
    exact hread
  · have hcounted : debits = l.debits + 1 := hdebited hpays hvalue
    simp only [JobCall.handle, JobRows.bill]
    split
    · exact ⟨read, count, hread, hsame, hcount.trans hle⟩
    · refine ⟨read, count + 1, ?_, hsame, by omega⟩
      have hself : eventsOf job (.spent job :: rows.log) = .spent job :: eventsOf job rows.log :=
        eventsOf_cons_self rfl rows.log
      show sinceRead (eventsOf job (.spent job :: rows.log)) = some (read, count + 1)
      rw [hself, sinceRead, hread]
      rfl

/-- A read of the row. -/
theorem Accounted.reads : Accounted job (rows.note (.loaded job rows.server))
    (l.reads rows.server.toCloudServer) := by
  have hself : eventsOf job (.loaded job rows.server :: rows.log) =
      .loaded job rows.server :: eventsOf job rows.log := eventsOf_cons_self rfl rows.log
  constructor
  · intro base hbase
    obtain rfl := Option.some.inj hbase
    refine ⟨rows.server, 0, ?_, rfl, le_refl _⟩
    show sinceRead (eventsOf job (.loaded job rows.server :: rows.log)) = some (rows.server, 0)
    rw [hself, sinceRead]
  · intro row hrow
    obtain rfl := Option.some.inj hrow
    exact .refl _

/-- What a job learns from its own call. -/
theorem Accounted.learns (hknow : Accounted job rows l) (hpermits : l.permits terms request)
    (hallowed : SavesForward job rows request) : Accounted job (request.handle job chance rows).2
      (l.learns request (request.handle job chance rows).1) := by
  cases request with
  | server id =>
    rcases handle_read job chance rows id with ⟨-, hdone⟩ | ⟨-, hdone⟩
    · rw [hdone]
      exact hknow
    · rw [hdone]
      exact .reads
  | listServers state =>
    rcases handle_list job chance rows state with ⟨-, hdone⟩ | ⟨-, hdone⟩
    · rw [hdone]
      exact ⟨fun _ h ↦ (nomatch h), fun _ h ↦ (nomatch h)⟩
    · rw [hdone]
      exact ⟨fun _ h ↦ (nomatch h), fun _ h ↦ (nomatch h)⟩
  | saveServer copy =>
    have hkept : Accounted job ((JobCall.saveServer copy).handle job chance rows).2 l :=
      hknow.passes hallowed (fun event h ↦ h ▸ trivial) rfl rfl rfl
    rcases handle_saveServer job chance rows copy with ⟨-, raised, -, hdone⟩ | ⟨-, hdone⟩
    · rw [hdone] at hkept ⊢
      exact hkept
    · rw [hdone] at hkept ⊢
      refine ⟨hkept.base, fun row hrow ↦ ?_⟩
      obtain rfl := Option.some.inj hrow
      exact .refl _
  | billing request => exact hknow.bills hpermits
  | getServer providerServerId =>
    cases hreply : ((JobCall.getServer providerServerId).handle job chance rows).1 with
    | error raised => exact hknow.passes (fun _ h ↦ nomatch h) (fun event h ↦ h ▸ trivial) rfl rfl rfl
    | ok found => exact hknow.passes (fun _ h ↦ nomatch h) (fun event h ↦ h ▸ trivial) rfl rfl rfl
  | power action providerServerId key =>
    exact hknow.passes (fun _ h ↦ nomatch h) (fun event h ↦ h.2 ▸ trivial) rfl rfl rfl
  | consider state => exact hknow.passes (fun _ h ↦ nomatch h) (fun event h ↦ h ▸ trivial) rfl rfl rfl
  | prepaid now => exact hknow.passes (fun _ h ↦ nomatch h) (fun event h ↦ h ▸ trivial) rfl rfl rfl
  | unfunded now => exact hknow.passes (fun _ h ↦ nomatch h) (fun event h ↦ h ▸ trivial) rfl rfl rfl
  | notifySucceeded => exact hknow.passes (fun _ h ↦ nomatch h) (fun event h ↦ h ▸ trivial) rfl rfl rfl
  | _ => exact hknow.passes (fun _ h ↦ nomatch h) (fun event h ↦ h.elim) rfl rfl rfl

end Settlement

/-! ### Runs -/

theorem delivering_sound (terms : HourlyTerms) :
    (jobProtocol terms).Sound JobCall.handle (Delivering terms) Paying fun _ _ _ ↦ True where
  truthful _ request _ _ hrows := jobReplies_handle hrows.server request
  kept _ _ _ _ _ hrows hknow hpermits _ := hrows.handle hknow hpermits
  learned _ _ _ _ _ _ hknow hpermits _ := hknow.learns hpermits
  others _ _ _ _ _ _ _ _ _ _ hne _ hother := hother.others hne

theorem settling_sound {terms : HourlyTerms} (hquantum : 0 < terms.quantum) :
    (jobProtocol terms).Sound JobCall.handle (Settling terms) Accounted SavesForward where
  truthful _ request _ _ hrows := jobReplies_handle hrows.server request
  kept _ _ _ _ _ hrows hknow hpermits _ := hrows.handle hquantum hknow hpermits
  learned _ _ _ _ _ _ hknow hpermits hallowed := hknow.learns hpermits hallowed
  others _ _ _ _ _ _ _ _ hallowed _ hne _ hother := hother.others hallowed hne

/-- In every run of the jobs of an hourly server, service is delivered only in a pass that has prepaid.
If no save takes back what the row knows of its billing, every prepayment is settled: one that returns
leaves the row covered, and one that lacks funds leaves it covered or with its deletion requested, and has
debited whole due periods only. -/
theorem delivered_only_prepaid (settings : JobSettings) (rows : JobRows)
    (hmodel : rows.server.billingModel = "hourly") (hquantum : 0 < rows.server.quantumSeconds)
    (hlog : rows.log = []) (events : List (PoolEvent ServerWork JobChance)) :
    Throughout (Pool.step JobCall.handle (ServerWork.program settings))
      (fun pool ↦ EachEvent JobEvent.Justified pool.shared.log) ⟨rows, []⟩ events ∧
    (Along (Pool.step JobCall.handle (ServerWork.program settings))
        (Pool.Allowed (fun _ ↦ True) SavesForward) ⟨rows, []⟩ events →
      Throughout (Pool.step JobCall.handle (ServerWork.program settings))
        (fun pool ↦ EachEvent (JobEvent.Settled rows.server.quantumSeconds) pool.shared.log)
        ⟨rows, []⟩ events) := by
  let terms : HourlyTerms := ⟨rows.server.id, rows.server.quantumSeconds⟩
  have hserver : OfServer terms rows.server.toCloudServer := ⟨rfl, hmodel, rfl⟩
  have hempty : ∀ rule, EachEvent rule rows.log := fun rule ↦ by
    rw [hlog]
    trivial
  have hfollows : ∀ work : ServerWork, True →
      Follows (jobProtocol terms) (fun _ _ ↦ True) (work.program settings) {} :=
    fun work _ ↦ follows_work terms settings work {}
  constructor
  · exact (Pool.throughout_of_follows (delivering_sound terms) (fun _ ↦ {}) hfollows
      (fun _ _ _ _ ↦ ⟨fun h ↦ (nomatch h), fun h ↦ (nomatch h)⟩) events rows
      ⟨hserver, hempty _⟩ (Pool.along_allowed_true _ _ events _)).mono fun _ hpool ↦ hpool.log
  · intro hcalls
    exact (Pool.throughout_of_follows (settling_sound hquantum) (fun _ ↦ {}) hfollows
      (fun _ _ _ _ ↦ ⟨fun _ h ↦ (nomatch h), fun _ h ↦ (nomatch h)⟩) events rows
      ⟨hserver, hempty _⟩ hcalls).mono fun _ hpool ↦ hpool.log

namespace PaidRuns

/-- A server that runs and is paid for the coming hour, and funds for one hour more. -/
def rows : JobRows where
  server := { OvertakenRepair.rows.server with state := .running }
  books :=
    { wallet :=
        { id := OvertakenRepair.walletId
          userId := OvertakenRepair.userId
          balance := 150
          currency := "EUR" } }
  snapshots :=
    [{ serverId := OvertakenRepair.serverId
       offer := { costMinor := 90, currency := "EUR" }
       sellingMinor := 100
       rule := { provider := "hetzner", plan := "cx11", location := "fsn1" }
       sellingCurrency := "EUR" }]
  clock := 0

/-- Some time later; the provider runs the server. -/
def later (seconds : ℕ) : JobChance :=
  { OvertakenRepair.chance.toJobChance with tick := seconds * 1000000 }

/-- A pass of the reconciler that turns to the server after some time. -/
def events (seconds : ℕ) : List (PoolEvent ServerWork JobChance) :=
  .spawn .reconcile :: List.replicate 40 (.advance 0 (later seconds))

/-- A run of the accrual job lists the RUNNING server. Before it turns to it, a pass of the reconciler
finds that the provider has stopped the server, and repairs the row. -/
def overwritten : List (PoolEvent ServerWork JobChance) :=
  [.spawn .runAccrual, .spawn .reconcile] ++ List.replicate 5 (.advance 0 (later 4000)) ++
    List.replicate 7 (.advance 1 { later 0 with remote := .ok (some { id := "17", status := "off" }) }) ++
    List.replicate 30 (.advance 0 (later 0))

/-- A server that no hour was billed for yet. -/
def fresh : JobRows :=
  { rows with
    server :=
      { rows.server with state := .provisioning, lastAccruedAt := none, billingStartedAt := none } }

/-- Two passes buy the first hour. The second stops behind its anchor, which is later than the moment of
the first. -/
def anchoredAhead : List (PoolEvent ServerWork JobChance) :=
  [.spawn .reconcile, .spawn .reconcile] ++ List.replicate 6 (.advance 0 (later 0)) ++
    List.replicate 9 (.advance 1 (later 10)) ++ List.replicate 3 (.advance 0 (later 0))

/-- A row moves to RUNNING only in a pass that has prepaid. -/
def movedPaid (before : List JobEvent) : JobEvent → Bool
  | .saved job old row => old = .running || row.state ≠ .running || paidFor (eventsOf job before)
  | _ => true

/-- A prepayment that returns leaves a covered row. -/
def returnsCovered (_before : List JobEvent) : JobEvent → Bool
  | .prepaid _ now row => row.lastAccruedAt.any (now < ·)
  | _ => true

/-- A prepayment that lacks funds has debited nothing. -/
def refusedUndebited (before : List JobEvent) : JobEvent → Bool
  | .unfunded job _ _ => (sinceRead (eventsOf job before)).all (·.2 = 0)
  | _ => true

/-- No hour of the server is due. -/
def ArrearsFree (rows : JobRows) : Prop :=
  ∀ paid ∈ rows.server.lastAccruedAt.or rows.server.billingStartedAt, rows.clock < paid

instance (rows : JobRows) : Decidable (ArrearsFree rows) :=
  inferInstanceAs (Decidable (∀ paid ∈ rows.server.lastAccruedAt.or _, _))

/-- Every event meets a rule, in every run over an hourly server without arrears. -/
def Always (rule : List JobEvent → JobEvent → Bool) : Prop :=
  ∀ (settings : JobSettings) (rows : JobRows) (events : List (PoolEvent ServerWork JobChance)),
    rows.server.billingModel = "hourly" → 0 < rows.server.quantumSeconds → rows.log = [] →
    ArrearsFree rows →
    Throughout (Pool.step JobCall.handle (ServerWork.program settings))
      (fun pool ↦ EachEvent (fun before event ↦ rule before event = true) pool.shared.log) ⟨rows, []⟩
      events

instance decidableEachEvent (rule : List JobEvent → JobEvent → Bool) : (log : List JobEvent) →
    Decidable (EachEvent (fun before event ↦ rule before event = true) log)
  | [] => .isTrue trivial
  | event :: before =>
    have := decidableEachEvent rule before
    inferInstanceAs (Decidable (rule before event = true ∧ _))

/-- One run in which an event breaks a rule. -/
theorem not_always {rule : List JobEvent → JobEvent → Bool} (rows : JobRows)
    (events : List (PoolEvent ServerWork JobChance)) (hmodel : rows.server.billingModel = "hourly")
    (hquantum : 0 < rows.server.quantumSeconds) (hlog : rows.log = []) (hfree : ArrearsFree rows)
    (hbreaks : ¬ EachEvent (fun before event ↦ rule before event = true)
      (run (Pool.step JobCall.handle (ServerWork.program OvertakenRepair.settings)) ⟨rows, []⟩
        events).shared.log) : ¬ Always rule := by
  intro h
  have hrun := h OvertakenRepair.settings rows events hmodel hquantum hlog hfree
  rw [throughout_iff_forall_take] at hrun
  have hend := hrun events.length
  rw [List.take_length] at hend
  exact hbreaks hend

end PaidRuns

/-- In the second hour the pass buys it, and tells the owner. -/
theorem delivered_only_prepaid_second_hour :
    PaidRuns.rows.server.billingModel = "hourly" ∧ 0 < PaidRuns.rows.server.quantumSeconds ∧
    PaidRuns.rows.log = [] ∧
    Along (Pool.step JobCall.handle (ServerWork.program OvertakenRepair.settings))
      (Pool.Allowed (fun _ ↦ True) SavesForward) ⟨PaidRuns.rows, []⟩ (PaidRuns.events 4000) ∧
    Throughout (Pool.step JobCall.handle (ServerWork.program OvertakenRepair.settings))
      (fun pool ↦ EachEvent JobEvent.Justified pool.shared.log) ⟨PaidRuns.rows, []⟩
      (PaidRuns.events 4000) ∧
    Throughout (Pool.step JobCall.handle (ServerWork.program OvertakenRepair.settings))
      (fun pool ↦ EachEvent (JobEvent.Settled PaidRuns.rows.server.quantumSeconds) pool.shared.log)
      ⟨PaidRuns.rows, []⟩ (PaidRuns.events 4000) := by
  have hcalls : Along (Pool.step JobCall.handle (ServerWork.program OvertakenRepair.settings))
      (Pool.Allowed (fun _ ↦ True) SavesForward) ⟨PaidRuns.rows, []⟩ (PaidRuns.events 4000) := by
    decide +kernel
  obtain ⟨hdelivered, hsettled⟩ := delivered_only_prepaid OvertakenRepair.settings PaidRuns.rows rfl
    (by decide) rfl (PaidRuns.events 4000)
  exact ⟨rfl, by decide, rfl, hcalls, hdelivered, hsettled hcalls⟩

/-- A backlog of two hours with funds for one debits the first before the second is refused. A stale save
moves a stopped row back to RUNNING, and an anchor ahead of the moment leaves a prepayment nothing to
buy. -/
theorem not_always_paid : ¬ PaidRuns.Always PaidRuns.refusedUndebited ∧
    ¬ PaidRuns.Always PaidRuns.movedPaid ∧ ¬ PaidRuns.Always PaidRuns.returnsCovered :=
  ⟨PaidRuns.not_always PaidRuns.rows (PaidRuns.events 9000) rfl (by decide) rfl (by decide)
      (by decide +kernel),
    PaidRuns.not_always PaidRuns.rows PaidRuns.overwritten rfl (by decide) rfl (by decide)
      (by decide +kernel),
    PaidRuns.not_always PaidRuns.fresh PaidRuns.anchoredAhead rfl (by decide) rfl (by decide)
      (by decide +kernel)⟩

end CloudPlatform.Operations
