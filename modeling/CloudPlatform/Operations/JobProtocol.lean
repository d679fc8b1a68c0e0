import CloudPlatform.Billing.Bookkeeping
import CloudPlatform.Operations.PowerExecutor
import CloudPlatform.Operations.ProvisioningWorker
import CloudPlatform.Operations.StateReconciler
import Mathlib.Algebra.Order.Ring.Int

/-!
# What the jobs of an hourly server know

The provisioning worker, the state reconciler, the power executor and the accrual job share no lock that
outlives one of their calls, so what each of them does rests on what it has learned itself. `jobProtocol`
says it: a server is contained only after a drift or an overtaken repair, the row is moved to RUNNING
only by a job that has prepaid or has read it RUNNING, and service is delivered only by a job that has
prepaid. Each of the programs follows it.
-/

namespace CloudPlatform.Operations

open Billing (BillingCall)
open Billing.AccrualJob (Bookkeeping Covers paidThrough)
open Calendar (second)
open Compute (CloudServer ServerAggregate ServerLifecycleState)
open ServerJob (bills embed)
open Transition

/-! ### The protocol -/

/-- What of an hourly server no job writes, and what tells it from others. -/
structure HourlyTerms where
  id : Uuid
  quantum : ℤ

/-- The rows and the copies of the one hourly server. -/
structure OfServer (terms : HourlyTerms) (server : CloudServer) : Prop where
  id_eq : server.id = terms.id
  model : server.billingModel = "hourly"
  quantum : server.quantumSeconds = terms.quantum

/-- What a job has learned: the state of the copy it turned to, whether it then read the row RUNNING
while that copy was not, whether the provider did not run the server, whether a prepayment has returned
since it last read the row, whether it has ever read the row RUNNING, the row as it was read last and as
it was read or saved last, and the debits since the read. -/
structure Known where
  considered : Option ServerLifecycleState := none
  overtaken : Bool := false
  drifted : Bool := false
  prepaid : Bool := false
  wasRunning : Bool := false
  base : Option CloudServer := none
  row : Option CloudServer := none
  debits : ℕ := 0

namespace Known

/-- After a read of the row. -/
def reads (l : Known) (row : CloudServer) : Known :=
  { l with
    overtaken := l.overtaken || (row.state = .running &&
      l.considered.any (· ∈ [ServerLifecycleState.provisioning, .stopped]))
    prepaid := false
    wasRunning := l.wasRunning || row.state = .running
    base := some row
    row := some row
    debits := 0 }

/-- After a billing call. -/
def bills (l : Known) : (request : BillingCall) → Result request.Out → Known
  | .server _, .ok (some row) => l.reads row
  | .saveServer _, .ok row => { l with row := some row }
  | .adjust _, .ok _ => { l with debits := l.debits + 1 }
  | .hold (.capture _), .ok _ => { l with debits := l.debits + 1 }
  | _, _ => l

/-- After a call. -/
def learns (l : Known) : (request : JobCall) → Result request.Out → Known
  | .consider state, _ =>
    { l with considered := some state, overtaken := false, drifted := false, prepaid := false }
  | .server _, .ok (some row) => l.reads row.toCloudServer
  | .listServers _, .ok rows =>
    { l with
      prepaid := false
      wasRunning := l.wasRunning || rows.any (·.state = .running)
      base := none
      row := none }
  | .saveServer _, .ok row => { l with row := some row.toCloudServer }
  | .billing request, reply => l.bills request reply
  | .getServer _, .ok remote =>
    { l with drifted := l.drifted || StateReconciler.remoteState remote ≠ .running }
  | .prepaid _, _ => { l with prepaid := true }
  | _, _ => l

/-- What a job may do next. -/
def permits (terms : HourlyTerms) (l : Known) : JobCall → Prop
  | .saveServer copy => (copy.state = .manualReview → l.overtaken = true ∨ l.drifted = true) ∧
      (copy.state = .running → l.prepaid = true ∨ l.wasRunning = true)
  | .power action _ _ => action.delivers = true → l.prepaid = true
  | .notifySucceeded => l.prepaid = true
  | .prepaid now => ∃ row ∈ l.row, 0 < terms.quantum →
      (∀ start ∈ row.billingStartedAt, start ≤ now) → Covers row now
  | .unfunded now => ∃ base ∈ l.base, ∃ row ∈ l.row,
      (row.state = .deleteRequested ∨ Covers row now) ∧ (0 < terms.quantum → 0 < l.debits →
        ∃ paid ∈ row.lastAccruedAt, paidThrough base now + terms.quantum * l.debits * second ≤ paid)
  | .billing (.server _) => False
  | .billing (.saveServer _) => False
  | _ => True

end Known

/-- What a save leaves in the row. -/
structure SavedAs (copy row : CloudServer) : Prop where
  state : row.state = copy.state
  watermark : row.lastAccruedAt = copy.lastAccruedAt
  anchor : row.billingStartedAt = copy.billingStartedAt

/-- The replies that the rows of the server give. -/
def jobReplies (terms : HourlyTerms) : (request : JobCall) → Result request.Out → Prop
  | .server _, .ok (some row) => OfServer terms row.toCloudServer
  | .server _, .error _ => False
  | .listServers state, .ok rows => ∀ row ∈ rows, OfServer terms row.toCloudServer ∧ row.state = state
  | .saveServer copy, .ok row =>
    OfServer terms row.toCloudServer ∧ SavedAs copy.toCloudServer row.toCloudServer
  | .saveServer copy, .error raised => copy.id ≠ terms.id ∧ raised.kind = .lookupError
  | .billing request, .error raised => request.Quiet → raised.kind ≠ .insufficientBalance
  | _, _ => True

/-- The protocol of the jobs. -/
def jobProtocol (terms : HourlyTerms) : Protocol Raised JobCall JobCall.Out Known where
  permits := Known.permits terms
  truthful := jobReplies terms
  learns := Known.learns

/-! ### Billing -/

/-- What the protocol says of the billing calls of a job that holds a copy. -/
def billingProtocol (terms : HourlyTerms) (held : ServerAggregate) :
    Protocol Raised BillingCall BillingCall.Out Known where
  permits l request := l.permits terms (embed held request)
  truthful request reply := match request, reply with
    | .server _, .ok (some row) => OfServer terms row
    | .server _, .error _ => False
    | .saveServer copy, .ok row => OfServer terms row ∧ SavedAs copy row
    | .saveServer _, .error raised => raised.kind = .lookupError
    | request, .error raised => request.Quiet → raised.kind ≠ .insufficientBalance
    | _, _ => True
  learns := Known.bills

theorem follows_bills {terms : HourlyTerms} {held : ServerAggregate} {α : Type}
    {post : Result α → Known → Prop} {p : Billing.AccrualProgram α} {l : Known}
    (h : Follows (billingProtocol terms held) post p l) :
    Follows (jobProtocol terms) post (bills held p) l := by
  unfold bills
  refine h.lift ?_ ?_ ?_
  · exact fun _ _ hpermits ↦ hpermits
  · intro request reply htrue
    cases request with
    | server other =>
      cases reply with
      | error raised => exact htrue
      | ok found =>
        cases found with
        | none => trivial
        | some row => exact htrue
    | saveServer copy =>
      cases reply with
      | error raised => exact htrue.2
      | ok row => exact htrue
    | _ =>
      cases reply with
      | error raised => exact htrue
      | ok value => trivial
  · intro l request reply
    cases request with
    | server other =>
      cases reply with
      | error raised => rfl
      | ok found => cases found <;> rfl
    | hold request => cases request <;> cases reply <;> rfl
    | _ => cases reply <;> rfl

/-- The states that the accrual job bills. -/
def Active (server : CloudServer) : Prop :=
  server.state ∈ [ServerLifecycleState.provisioning, .running, .stopped]

/-- What a job knows of a copy since it has read the row. -/
structure Since (row : CloudServer) (k : ℕ) (copy : CloudServer) (l : Known) : Prop where
  base : l.base = some row
  debits : l.debits ≤ k
  seen : ∃ seen ∈ l.row, SavedAs copy seen

/-- The account of a copy that a job bills, which had turned to a copy in the state `turned`. -/
structure Account (terms : HourlyTerms) (turned : Option ServerLifecycleState) (since : Option CloudServer)
    (k : ℕ) (copy : CloudServer) (l : Known) : Prop where
  server : OfServer terms copy
  active : Active copy
  running : copy.state = .running → l.wasRunning = true
  overtaken : copy.state = .running →
    turned.any (· ∈ [ServerLifecycleState.provisioning, .stopped]) = true → l.overtaken = true
  since : ∀ row ∈ since, Since row k copy l

section Accounts

variable {terms : HourlyTerms} {turned : Option ServerLifecycleState} {since : Option CloudServer} {k : ℕ}
  {copy : CloudServer} {l : Known}

theorem Active.ne_manualReview (h : Active copy) : copy.state ≠ .manualReview := by
  intro hstate
  rw [Active, hstate] at h
  exact absurd h (by decide)

theorem Since.mono {row : CloudServer} {more : ℕ} (h : Since row k copy l) (hle : k ≤ more) :
    Since row more copy l :=
  ⟨h.base, h.debits.trans hle, h.seen⟩

theorem Account.mono {more : ℕ} (h : Account terms turned since k copy l) (hle : k ≤ more) :
    Account terms turned since more copy l :=
  { h with since := fun row hrow ↦ (h.since row hrow).mono hle }

theorem bills_of_quiet {request : BillingCall} (h : request.Quiet) (reply : Result request.Out) :
    l.bills request reply = l := by
  cases request with
  | hold request =>
    cases request with
    | capture holdId => exact h.elim
    | _ => rfl
  | adjust call => exact h.elim
  | saveServer copy => exact h.elim
  | server id => exact h.elim
  | _ => rfl

theorem permits_of_quiet {held : ServerAggregate} {request : BillingCall} (h : request.Quiet) :
    l.permits terms (embed held request) := by
  cases request with
  | saveServer copy => exact h.elim
  | server id => exact h.elim
  | _ => trivial

/-- A debit. -/
theorem Account.pays (h : Account terms turned since k copy l) :
    Account terms turned since (k + 1) copy { l with debits := l.debits + 1 } :=
  { h with since := fun row hrow ↦
      ⟨(h.since row hrow).base, Nat.succ_le_succ (h.since row hrow).debits, (h.since row hrow).seen⟩ }

/-- A save of the copy with other billing facts. -/
theorem Account.saves (h : Account terms turned since k copy l) {after row : CloudServer}
    (hstate : after.state = copy.state) (hserver : OfServer terms after) (hrow : SavedAs after row) :
    Account terms turned since k after { l with row := some row } where
  server := hserver
  active := by
    rw [Active, hstate]
    exact h.active
  running hrunning := h.running (hstate ▸ hrunning)
  overtaken hrunning := h.overtaken (hstate ▸ hrunning)
  since base hbase := ⟨(h.since base hbase).base, (h.since base hbase).debits, row, rfl, hrow⟩

theorem Account.permits (h : Account terms turned since k copy l) {after : ServerAggregate}
    (hstate : after.state = copy.state) : l.permits terms (.saveServer after) := by
  refine ⟨fun hreview ↦ ?_, fun hrunning ↦ ?_⟩
  · exact absurd (hstate.symm.trans hreview) h.active.ne_manualReview
  · exact .inr (h.running (hstate.symm.trans hrunning))

/-- The account of a copy, over the billing calls of the job that holds it. -/
theorem bookkeeping (held : ServerAggregate) (now : ℤ) :
    Bookkeeping (billingProtocol terms held) (fun k ↦ Account terms turned since k)
      (fun k ↦ Account terms turned since (k + 1)) (fun k copy l ↦ ∀ row ∈ since, Since row k copy l)
      now where
  weaken h := h.mono (Nat.le_succ _)
  reads hquiet h := by
    refine ⟨permits_of_quiet hquiet, fun reply _ ↦ ?_⟩
    show Account terms turned since _ _ (Known.bills _ _ reply)
    rw [bills_of_quiet hquiet]
    exact h
  readsPaid {k copy l request} hquiet h := by
    refine ⟨permits_of_quiet hquiet, fun reply htrue ↦ ⟨?_, fun raised hraised ↦ ?_⟩⟩
    · show Account terms turned since _ _ (Known.bills _ _ reply)
      rw [bills_of_quiet hquiet]
      exact h
    · subst hraised
      cases request with
      | saveServer copy => exact hquiet.elim
      | server other => exact hquiet.elim
      | _ => exact htrue hquiet
  pays {k copy l request} hpays h := by
    cases request with
    | adjust call => exact ⟨trivial, fun _ _ ↦ h.pays, fun _ _ ↦ h⟩
    | hold request =>
      cases request with
      | capture holdId => exact ⟨trivial, fun _ _ ↦ h.pays, fun _ _ ↦ h⟩
      | _ => exact hpays.elim
    | _ => exact hpays.elim
  saves {k copy l} periodEnd h := by
    refine ⟨h.permits rfl, fun row htrue ↦ ?_, fun raised htrue ↦ ?_⟩
    · exact h.saves rfl
        ⟨h.server.id_eq, h.server.model, h.server.quantum⟩
        ⟨htrue.2.state, htrue.2.watermark, htrue.2.anchor⟩
    · have hkind : raised.kind = .lookupError := htrue
      rw [hkind]
      decide
  covered h _ row hrow := h.since row hrow
  anchors {copy l} h _ := by
    refine ⟨h.permits rfl, fun row htrue ↦ ?_, fun raised htrue ↦ ?_⟩
    · exact h.saves rfl ⟨h.server.id_eq, h.server.model, h.server.quantum⟩
        ⟨htrue.2.state, htrue.2.watermark, htrue.2.anchor⟩
    · have hkind : raised.kind = .lookupError := htrue
      rw [hkind]
      decide
  requests {k copy l} h := by
    refine ⟨⟨(nomatch ·), (nomatch ·)⟩, fun row htrue ↦ ?_, fun raised htrue ↦ ?_⟩
    · exact fun base hbase ↦
        ⟨(h.since base hbase).base, (h.since base hbase).debits, row, rfl, htrue.2⟩
    · have hkind : raised.kind = .lookupError := htrue
      rw [hkind]
      decide

end Accounts

/-! ### Prepayment -/

/-- What a job knows of the copy that a prepayment returns. -/
structure Prepaid (terms : HourlyTerms) (turned : Option ServerLifecycleState) (copy : ServerAggregate)
    (l : Known) : Prop where
  server : OfServer terms copy.toCloudServer
  active : Active copy.toCloudServer
  prepaid : l.prepaid = true
  overtaken : copy.state = .running →
    turned.any (· ∈ [ServerLifecycleState.provisioning, .stopped]) = true → l.overtaken = true

section Programs

variable {terms : HourlyTerms} {l : Known} {settings : JobSettings}

theorem OfServer.hourly {server : CloudServer} (h : OfServer terms server) :
    server.isPrepaidMonthly = false ∧ server.isPrepaidHourlyIrt = false := by
  simp [CloudServer.isPrepaidMonthly, CloudServer.isPrepaidHourlyIrt, h.model]

/-- The read of a prepayment starts its account. -/
theorem account_refreshed {server row : CloudServer} (hserver : OfServer terms server)
    (hactive : row.state ∈ [ServerLifecycleState.provisioning, .running, .stopped]) :
    Account terms l.considered (some row) 0 (Billing.AccrualJob.refreshed server row) (l.reads row) where
  server := ⟨hserver.id_eq, hserver.model, hserver.quantum⟩
  active := hactive
  running hrunning := by
    have hstate : row.state = .running := hrunning
    simp [Known.reads, hstate]
  overtaken hrunning hturned := by
    have hstate : row.state = .running := hrunning
    simp only [Known.reads, hstate, hturned]
    simp
  since base hbase := by
    obtain rfl := Option.some.inj hbase
    exact ⟨rfl, le_refl 0, row, rfl, rfl, rfl, rfl⟩

/-- Before a prepayment that returns is noted, the copy is covered. -/
theorem permits_prepaid {turned : Option ServerLifecycleState} {row copy : CloudServer} {k : ℕ}
    (h : Account terms turned (some row) k copy l) {now coverageAt : ℤ} (hle : now ≤ coverageAt)
    (hcovered : 0 < terms.quantum →
      Covers copy coverageAt ∨ ∃ start ∈ copy.billingStartedAt, coverageAt < start) :
    l.permits terms (.prepaid now) := by
  obtain ⟨seen, hseen, hsaved⟩ := (h.since row rfl).seen
  refine ⟨seen, hseen, fun hquantum hanchor ↦ ?_⟩
  rcases hcovered hquantum with ⟨paid, hpaid, hlt⟩ | ⟨start, hstart, hlt⟩
  · exact ⟨paid, by rw [hsaved.watermark]; exact hpaid, hle.trans_lt hlt⟩
  · have hafter := hanchor start (by rw [hsaved.anchor]; exact hstart)
    exact absurd (hle.trans_lt hlt) (not_lt.mpr hafter)

/-- The watermark of a copy has moved by a period for every debit since the read. -/
theorem debits_le {server row started copy : CloudServer} {now : ℤ} {k : ℕ}
    (hserver : OfServer terms server)
    (hstarted : Billing.AccrualJob.StartedFrom server row now started)
    (hextends : Billing.AccrualJob.Extends started now k copy) (hdebits : l.debits ≤ k)
    (hquantum : 0 < terms.quantum) (hpositive : 0 < l.debits) : ∃ paid ∈ copy.lastAccruedAt,
      paidThrough row now + terms.quantum * l.debits * second ≤ paid := by
  obtain ⟨anchor, version, hsame⟩ := hstarted.same
  have hsameQuantum : started.quantumSeconds = terms.quantum := by
    rw [hsame]
    exact hserver.quantum
  obtain ⟨paid, hpaid, hle⟩ := hextends.watermark_le (hpositive.trans_le hdebits)
  rw [hstarted.paidThrough_eq, hsameQuantum] at hle
  refine ⟨paid, hpaid, le_trans (Int.add_le_add_left ?_ _) hle⟩
  refine mul_le_mul_of_nonneg_right ?_ (by decide)
  exact mul_le_mul_of_nonneg_left (by exact_mod_cast hdebits) hquantum.le

/-- Before a prepayment that lacks funds is noted, the copy is covered or its deletion requested, and the
watermark has moved for every debit. -/
theorem permits_unfunded {server row started : CloudServer} {now : ℤ}
    (hserver : OfServer terms server)
    (hstarted : Billing.AccrualJob.StartedFrom server row now started)
    (hrefusal : Billing.AccrualJob.Refusal
      (fun k copy l ↦ ∀ base ∈ some row, Since base k copy l) started now l) :
    l.permits terms (.unfunded now) := by
  obtain ⟨k, copy, hextends, hcase⟩ := hrefusal
  rcases hcase with ⟨⟨paid, hpaid, hlt⟩, hsince⟩ | hsince
  · obtain ⟨hbase, hdebits, seen, hseen, hsaved⟩ := hsince row rfl
    rw [← hsaved.watermark] at hpaid
    refine ⟨row, hbase, seen, hseen, .inr ⟨paid, hpaid, hlt⟩, ?_⟩
    rw [hsaved.watermark]
    exact debits_le hserver hstarted hextends hdebits
  · obtain ⟨hbase, hdebits, seen, hseen, hsaved⟩ := hsince row rfl
    have hwatermark : seen.lastAccruedAt = copy.lastAccruedAt := hsaved.watermark
    refine ⟨row, hbase, seen, hseen, .inl hsaved.state, ?_⟩
    rw [hwatermark]
    exact debits_le hserver hstarted hextends hdebits

theorem le_coverageAt {moment seconds coverageAt : ℤ} (hseconds : 0 ≤ seconds)
    (hcoverage : Billing.addSeconds moment seconds = .ok coverageAt) : moment ≤ coverageAt := by
  rw [Billing.addSeconds_eq_ok hcoverage]
  simp only [second]
  omega

/-- A prepayment that returns. -/
theorem follows_prepayServer {server : ServerAggregate}
    (hserver : OfServer terms server.toCloudServer) (seconds : ℤ) :
    Follows (jobProtocol terms) (Returns (Prepaid terms l.considered))
      (ServerJob.prepayServer server seconds) l := by
  have hmodel : (server.isPrepaidMonthly || server.isPrepaidHourlyIrt) = false := by
    simp [hserver.hourly]
  unfold ServerJob.prepayServer
  rw [if_neg (by simp [hmodel])]
  refine follows_returns_perform trivial fun moment _ ↦ ?_
  refine follows_returns_lift fun _ hlead ↦ ?_
  refine follows_returns_lift fun coverageAt hcoverage ↦ ?_
  refine follows_returns_perform trivial fun acquired _ ↦ ?_
  by_cases hacquired : acquired = true
  · rw [if_pos hacquired]
    have hrange := not_not.mp (of_decide_eq_false (rejectIf_eq_ok.mp hlead))
    have hle := le_coverageAt hrange.1 hcoverage
    have hbook : ∀ row : CloudServer, Bookkeeping (billingProtocol terms server)
        (fun k ↦ Account terms l.considered (some row) k)
        (fun k ↦ Account terms l.considered (some row) (k + 1))
        (fun k copy l ↦ ∀ base ∈ some row, Since base k copy l) moment :=
      fun row ↦ bookkeeping server moment
    refine follows_attempt ((follows_bills (Billing.AccrualJob.follows_prepayLocked hbook
      hmodel trivial (fun row htrue hactive ↦ account_refreshed hserver hactive)
      (fun raised htrue ↦ htrue.elim) coverageAt)).mono fun outcome l' houtcome ↦ ?_)
    cases outcome with
    | ok copy =>
      obtain ⟨⟨row, k, haccount⟩, hcovered⟩ := houtcome
      rw [hserver.quantum] at hcovered
      refine follows_returns_perform (permits_prepaid haccount hle hcovered) fun _ _ ↦ ?_
      exact ⟨haccount.server, haccount.active, rfl, haccount.overtaken⟩
    | error raised =>
      dsimp only
      by_cases hkind : raised.kind = .insufficientBalance
      · rw [if_pos hkind]
        obtain ⟨row, started, hstarted, hrefusal⟩ := houtcome hkind
        exact follows_returns_perform (permits_unfunded hserver hstarted hrefusal) fun _ _ ↦ trivial
      · rw [if_neg hkind]
        trivial
  · rw [if_neg hacquired]
    trivial

end Programs

end CloudPlatform.Operations
