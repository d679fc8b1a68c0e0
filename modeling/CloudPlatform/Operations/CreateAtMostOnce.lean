import CloudPlatform.Transition.Run
import CloudPlatform.Operations.CreateAttemptsWrites

/-!
# At most one uncertain create

Any number of workers call the create attempt repository in any order, each with any claim
generation. A run starts from a PENDING operation without a receipt; everything else of the rows is
arbitrary. `Recorded` is the invariant of the rows from the first claim on: it ties the status of
the operation to the phase of the last attempt, and every recorded identity to the server's.

`create_atMostOnce` is the guarantee of the routing receipt: of all the creates that workers were
allowed to send, at most one has another outcome than a documented capacity refusal.
`createOutcome_agrees` says what each final status means for the attempts and the identities.
-/

namespace CloudPlatform.Operations

open Transition

/-! ### Runs -/

/-- One call of the repository, by any worker. -/
inductive CreateCommand
  | claim (operationId serverId : Uuid) (orderId : Option Uuid) (catalogAccountId : Option String)
  | startAttempt (operationId : Uuid) (generation : ℕ) (accountId : String)
      (requestFacts : Option (List (String × String)))
  | recordRefusal (operationId : Uuid) (generation : ℕ) (accountId : String) (capacity : Bool)
      (errorCode : Option String) (quotaNames : List String)
  | recordUnknown (operationId : Uuid) (generation : ℕ) (accountId : String)
  | recordAcceptance (operationId : Uuid) (generation : ℕ) (accountId providerServerId : String)
      (ipv4 ipv6 : Option String)
  | saveOutcome (operationId : Uuid) (generation : ℕ) (status : OperationStatus)
      (error : Option String) (correlation : Facts)
  | resumeSafeClaim (operationId : Uuid) (generation : ℕ)

/-- The rows a call commits, with the accounts its caller may then POST to. -/
def performCommand (rows : CreateRows) (now : ℤ) : CreateCommand → Result (CreateRows × List String)
  | .claim operationId serverId orderId catalogAccountId => do
    let (after, _) ← claimCreate rows operationId serverId orderId catalogAccountId now
    return (after, [])
  | .startAttempt operationId generation accountId requestFacts => do
    let (after, _) ← startAttempt rows operationId generation accountId requestFacts now
    return (after, [normalizeAccountId (some accountId)])
  | .recordRefusal operationId generation accountId capacity errorCode quotaNames => do
    let (after, _) ←
      recordRefusal rows operationId generation accountId capacity errorCode quotaNames now
    return (after, [])
  | .recordUnknown operationId generation accountId => do
    let (after, _) ← recordUnknown rows operationId generation accountId now
    return (after, [])
  | .recordAcceptance operationId generation accountId providerServerId ipv4 ipv6 => do
    let (after, _) ←
      recordAcceptance rows operationId generation accountId providerServerId ipv4 ipv6 now
    return (after, [])
  | .saveOutcome operationId generation status error correlation => do
    let (after, _) ← saveOutcome rows operationId generation status error correlation now
    return (after, [])
  | .resumeSafeClaim operationId generation => do
    let (after, _) ← resumeSafeClaim rows operationId generation now
    return (after, [])

/-- The rows, and the accounts to which a create was sent. -/
structure CreateRun where
  rows : CreateRows
  sends : List String

/-- One call at one instant; a call that raises is rolled back. -/
def CreateRun.step (s : CreateRun) (call : ℤ × CreateCommand) : CreateRun :=
  match performCommand s.rows call.1 call.2 with
  | .ok (after, sent) => ⟨after, s.sends ++ sent⟩
  | .error _ => s

/-- The state after the calls, from the given rows. -/
def CreateRun.after (rows : CreateRows) (calls : List (ℤ × CreateCommand)) : CreateRun :=
  run CreateRun.step ⟨rows, []⟩ calls

/-- A PENDING operation without receipt. -/
structure Fresh (rows : CreateRows) : Prop where
  pending : rows.operation.status = .pending
  no_receipt : rows.operation.response.createRouting = none

variable {sent : List String} {b written : Bundle}

/-- A successful call changes nothing, or writes one of the cases of `Wrote`. -/
theorem performCommand_eq_ok {rows after : CreateRows} {now : ℤ} {command : CreateCommand}
    (h : performCommand rows now command = .ok (after, sent)) :
    (after = rows ∧ sent = []) ∨ Writes rows after sent := by
  cases command with
  | claim operationId serverId orderId catalogAccountId =>
    obtain ⟨⟨written, claimed⟩, hcall, hdone⟩ := bind_eq_ok.mp h
    obtain ⟨rfl, rfl⟩ := Prod.mk.inj (pure_eq_ok.mp hdone)
    exact (claimCreate_eq_ok hcall).imp (fun hsame ↦ ⟨hsame, rfl⟩) id
  | startAttempt operationId generation accountId requestFacts =>
    obtain ⟨⟨written, operation⟩, hcall, hdone⟩ := bind_eq_ok.mp h
    obtain ⟨rfl, rfl⟩ := Prod.mk.inj (pure_eq_ok.mp hdone)
    exact Or.inr (startAttempt_eq_ok hcall).2
  | recordRefusal operationId generation accountId capacity errorCode quotaNames =>
    obtain ⟨⟨written, operation⟩, hcall, hdone⟩ := bind_eq_ok.mp h
    obtain ⟨rfl, rfl⟩ := Prod.mk.inj (pure_eq_ok.mp hdone)
    exact Or.inr (recordRefusal_eq_ok hcall)
  | recordUnknown operationId generation accountId =>
    obtain ⟨⟨written, operation⟩, hcall, hdone⟩ := bind_eq_ok.mp h
    obtain ⟨rfl, rfl⟩ := Prod.mk.inj (pure_eq_ok.mp hdone)
    exact Or.inr (recordUnknown_eq_ok hcall)
  | recordAcceptance operationId generation accountId providerServerId ipv4 ipv6 =>
    obtain ⟨⟨written, operation⟩, hcall, hdone⟩ := bind_eq_ok.mp h
    obtain ⟨rfl, rfl⟩ := Prod.mk.inj (pure_eq_ok.mp hdone)
    exact Or.inr (recordAcceptance_eq_ok hcall)
  | saveOutcome operationId generation status error correlation =>
    obtain ⟨⟨written, operation⟩, hcall, hdone⟩ := bind_eq_ok.mp h
    obtain ⟨rfl, rfl⟩ := Prod.mk.inj (pure_eq_ok.mp hdone)
    exact Or.inr (saveOutcome_eq_ok hcall)
  | resumeSafeClaim operationId generation =>
    obtain ⟨⟨written, operation⟩, hcall, hdone⟩ := bind_eq_ok.mp h
    obtain ⟨rfl, rfl⟩ := Prod.mk.inj (pure_eq_ok.mp hdone)
    exact Or.inr (resumeSafeClaim_eq_ok hcall)

/-- One call of a run. -/
theorem CreateRun.step_cases (s : CreateRun) (call : ℤ × CreateCommand) : s.step call = s ∨
      ∃ after sent, s.step call = ⟨after, s.sends ++ sent⟩ ∧ Writes s.rows after sent := by
  unfold CreateRun.step
  split
  · rename_i after sent hcall
    rcases performCommand_eq_ok hcall with ⟨rfl, rfl⟩ | hwrites
    · exact Or.inl (by rw [List.append_nil])
    · exact Or.inr ⟨after, sent, rfl, hwrites⟩
  · exact Or.inl rfl

/-! ### The invariant -/

/-- What each status says of the attempts and of the identities. -/
def Justified (b : Bundle) : Prop :=
  match b.operation.status with
  | .failed => NoIdentity b ∧ ∀ attempt ∈ b.operation.attemptHistory.getLast?,
      attempt.phase ∈ [Phase.capacityRefused, .refused]
  | .outcomeUnknown => ∃ attempt ∈ b.operation.attemptHistory.getLast?,
      attempt.phase ∈ [Phase.sent, .outcomeUnknown, .accepted]
  | .completed => ∃ attempt ∈ b.operation.attemptHistory.getLast?, attempt.phase = .accepted
  | .pending | .inFlight => True

/-- The rows of a claimed create. -/
structure Recorded (b : Bundle) : Prop where
  refused_before : ∀ attempt ∈ b.operation.attemptHistory.dropLast, DocumentedRefusal attempt
  last_documented : ∀ attempt ∈ b.operation.attemptHistory.getLast?,
    attempt.phase = .capacityRefused → DocumentedRefusal attempt
  accounts_nodup : (b.operation.attemptHistory.map (·.accountId)).Nodup
  accepted_identity : ∀ attempt ∈ b.operation.attemptHistory.getLast?, attempt.phase = .accepted →
    truthy attempt.providerServerId ∧ attempt.providerServerId = b.server.providerServerId
  order_identity : ∀ order ∈ b.order, truthy order.providerOrderId →
    order.providerOrderId = b.server.providerServerId
  fact_identity : ∀ key ∈ identityKeys, (b.operation.response.facts.get key).truthy →
    b.operation.response.facts.get key = .ofOption b.server.providerServerId
  justified : Justified b

theorem Wrote.accounts (h : Wrote b written sent) :
    written.operation.attemptHistory.map (·.accountId) =
      b.operation.attemptHistory.map (·.accountId) ++ sent := by
  cases h with
  | claimed _ _ _ history => rw [history, List.append_nil]
  | started _ _ _ attempt _ _ _ history => rw [history, List.map_append]; rfl
  | recorded _ last attempt before account _ history =>
    rw [history, List.append_nil, ← List.dropLast_append_getLast? last before]
    simp [account]
  | accepted _ _ last attempt _ _ before _ account _ _ _ history =>
    rw [history, List.append_nil, ← List.dropLast_append_getLast? last before]
    simp [account]
  | settled _ _ history => rw [history, List.append_nil]

/-- The orders of a write that keeps the order's identity. -/
theorem mem_order_of_map {α : Type} {before after : Option Orders.ProviderOrder}
    {f : Orders.ProviderOrder → α} (h : after.map f = before.map f) {order : Orders.ProviderOrder}
    (horder : order ∈ after) : ∃ earlier ∈ before, f earlier = f order := by
  rw [Option.mem_def] at horder
  rw [horder] at h
  cases before with
  | none => cases h
  | some earlier => exact ⟨earlier, rfl, (Option.some.inj h).symm⟩

theorem SameIdentities.order_identity (h : SameIdentities b written)
    (hb : ∀ order ∈ b.order, truthy order.providerOrderId →
      order.providerOrderId = b.server.providerServerId) :
    ∀ order ∈ written.order, truthy order.providerOrderId →
      order.providerOrderId = written.server.providerServerId := by
  intro order horder htruthy
  obtain ⟨earlier, hearlier, hsame⟩ := mem_order_of_map h.order horder
  rw [h.server, ← hsame]
  exact hb earlier hearlier (hsame ▸ htruthy)

theorem SameIdentities.fact_identity (h : SameIdentities b written)
    (hb : ∀ key ∈ identityKeys, (b.operation.response.facts.get key).truthy →
      b.operation.response.facts.get key = .ofOption b.server.providerServerId) :
    ∀ key ∈ identityKeys, (written.operation.response.facts.get key).truthy →
      written.operation.response.facts.get key = .ofOption written.server.providerServerId := by
  intro key hkey htruthy
  rw [h.server]
  rcases h.facts key hkey with hsame | hserver
  · rw [hsame] at htruthy ⊢
    exact hb key hkey htruthy
  · exact hserver

theorem SameIdentities.noIdentity (h : SameIdentities b written) (hb : NoIdentity b) :
    NoIdentity written := by
  refine ⟨by rw [h.server]; exact hb.server, fun order horder ↦ ?_⟩
  obtain ⟨earlier, hearlier, hsame⟩ := mem_order_of_map h.order horder
  rw [← hsame]
  exact hb.order earlier hearlier

/-- A settled status is justified by what settled it. -/
theorem justified_of_settles
    (hhistory : written.operation.attemptHistory = b.operation.attemptHistory)
    (hsame : SameIdentities b written) (hsettles : Settles b written.operation.status) :
    Justified written := by
  unfold Justified
  cases hstatus : written.operation.status <;> rw [hstatus] at hsettles
  case pending => trivial
  case inFlight => trivial
  case completed => rw [hhistory]; exact hsettles
  case failed => rw [hhistory]; exact ⟨hsame.noIdentity hsettles.1, hsettles.2⟩
  case outcomeUnknown => rw [hhistory]; exact hsettles

/-- The first write of a fresh create is a claim, and it establishes the invariant. -/
theorem recorded_of_fresh (h : Wrote b written sent) (hpending : b.operation.status = .pending)
    (hreceipt : b.operation.response.createRouting = none) :
    Recorded written ∧ written.operation.attemptHistory = [] ∧ sent = [] := by
  cases h with
  | claimed _ hnone hstatus hhistory hsame hfresh =>
    obtain ⟨hempty, hfacts⟩ := hfresh hreceipt
    rw [hempty] at hhistory
    refine ⟨⟨?_, ?_, ?_, ?_, ?_, ?_, ?_⟩, hhistory, rfl⟩
    · rw [hhistory]; simp
    · rw [hhistory]; simp
    · rw [hhistory]; simp
    · rw [hhistory]; simp
    · intro order horder htruthy
      rw [(hsame.noIdentity hnone).order order horder] at htruthy
      cases htruthy
    · refine hsame.fact_identity fun key hkey htruthy ↦ ?_
      rw [hfacts key hkey] at htruthy
      cases htruthy
    · unfold Justified
      rw [hstatus]
      trivial
  | started live => rw [hpending] at live; cases live
  | recorded live => rw [hpending] at live; rcases live with h | h <;> cases h
  | accepted live => rw [hpending] at live; rcases live with h | h <;> cases h
  | settled live => rw [hpending] at live; rcases live with h | h <;> cases h

theorem noFact_of_fresh (h : Wrote b written sent) (hpending : b.operation.status = .pending)
    (hreceipt : b.operation.response.createRouting = none) :
    ∀ key ∈ identityKeys, (b.operation.response.facts.get key).truthy = false := by
  cases h with
  | claimed _ _ _ _ _ hfresh => exact (hfresh hreceipt).2
  | started live => rw [hpending] at live; cases live
  | recorded live => rw [hpending] at live; rcases live with h | h <;> cases h
  | accepted live => rw [hpending] at live; rcases live with h | h <;> cases h
  | settled live => rw [hpending] at live; rcases live with h | h <;> cases h

/-- Every write keeps the invariant. -/
theorem Recorded.wrote (hb : Recorded b) (h : Wrote b written sent) : Recorded written := by
  cases h with
  | claimed _ hnone hstatus hhistory hsame _ =>
    refine ⟨?_, ?_, ?_, ?_, hsame.order_identity hb.order_identity,
      hsame.fact_identity hb.fact_identity, ?_⟩
    · rw [hhistory]; exact hb.refused_before
    · rw [hhistory]; exact hb.last_documented
    · rw [hhistory]; exact hb.accounts_nodup
    · rw [hhistory, hsame.server]; exact hb.accepted_identity
    · unfold Justified
      rw [hstatus]
      trivial
  | started _ hstatus hready attempt hsent hidentity hunused hhistory hsame =>
    refine ⟨?_, ?_, ?_, ?_, hsame.order_identity hb.order_identity,
      hsame.fact_identity hb.fact_identity, ?_⟩
    · -- The last attempt so far was refused for capacity; now it is no longer the last.
      rw [hhistory, List.dropLast_concat]
      intro earlier hearlier
      cases hlast : b.operation.attemptHistory.getLast? with
      | none =>
        rw [List.getLast?_eq_none_iff.mp hlast] at hearlier
        cases hearlier
      | some last =>
        rw [← List.dropLast_append_getLast? last hlast, List.mem_append, List.mem_singleton]
          at hearlier
        rcases hearlier with hmem | rfl
        · exact hb.refused_before earlier hmem
        · exact hb.last_documented _ hlast (hready _ hlast)
    · rw [hhistory, List.getLast?_concat]
      rintro last hlast hphase
      obtain rfl := Option.some.inj hlast
      rw [hsent] at hphase
      cases hphase
    · rw [hhistory, List.map_append]
      refine List.nodup_append.mpr ⟨hb.accounts_nodup, by simp, ?_⟩
      rintro account haccount other hother rfl
      rw [List.mem_singleton.mp hother] at haccount
      exact hunused haccount
    · rw [hhistory, List.getLast?_concat]
      rintro last hlast hphase
      obtain rfl := Option.some.inj hlast
      rw [hsent] at hphase
      cases hphase
    · unfold Justified
      rw [hstatus]
      trivial
  | recorded _ last attempt hbefore haccount hidentity hhistory houtcome hsame =>
    have haccounts := Wrote.accounts
      (.recorded ‹_› last attempt hbefore haccount hidentity hhistory houtcome hsame)
    refine ⟨?_, ?_, ?_, ?_, hsame.order_identity hb.order_identity,
      hsame.fact_identity hb.fact_identity, ?_⟩
    · rw [hhistory, List.dropLast_concat]; exact hb.refused_before
    · rw [hhistory, List.getLast?_concat]
      rintro final hfinal hphase
      obtain rfl := Option.some.inj hfinal
      rcases houtcome with ⟨-, -, hdocumented | hrefused⟩ | ⟨-, hunknown⟩
      · exact hdocumented
      · rw [hrefused] at hphase; cases hphase
      · rw [hunknown] at hphase; cases hphase
    · rw [haccounts, List.append_nil]; exact hb.accounts_nodup
    · rw [hhistory, List.getLast?_concat]
      rintro final hfinal hphase
      obtain rfl := Option.some.inj hfinal
      rcases houtcome with ⟨-, -, hdocumented | hrefused⟩ | ⟨-, hunknown⟩
      · rw [hdocumented.1] at hphase; cases hphase
      · rw [hrefused] at hphase; cases hphase
      · rw [hunknown] at hphase; cases hphase
    · unfold Justified
      rcases houtcome with ⟨-, hstatus, -⟩ | ⟨hstatus, hunknown⟩
      · rw [hstatus]
        trivial
      · rw [hstatus]
        exact ⟨attempt, by rw [hhistory, List.getLast?_concat]; rfl, by simp [hunknown]⟩
  | accepted hlive hstatus last attempt identity hnonempty hbefore huncertain haccount hphase
      hidentity hkept hhistory hserverKept hserver horderKept horder hfactKept hfacts =>
    have haccounts := Wrote.accounts (.accepted hlive hstatus last attempt identity hnonempty hbefore
      huncertain haccount hphase hidentity hkept hhistory hserverKept hserver horderKept horder
      hfactKept hfacts)
    refine ⟨?_, ?_, ?_, ?_, ?_, ?_, ?_⟩
    · rw [hhistory, List.dropLast_concat]; exact hb.refused_before
    · rw [hhistory, List.getLast?_concat]
      rintro final hfinal hcapacity
      obtain rfl := Option.some.inj hfinal
      rw [hphase] at hcapacity
      cases hcapacity
    · rw [haccounts, List.append_nil]; exact hb.accounts_nodup
    · rw [hhistory, List.getLast?_concat]
      rintro final hfinal -
      obtain rfl := Option.some.inj hfinal
      rw [hidentity, hserver]
      exact ⟨by simpa using hnonempty, rfl⟩
    · intro current hcurrent _
      rw [Option.mem_def] at hcurrent
      rw [hcurrent] at horder
      rw [hserver]
      cases hearlier : b.order with
      | none => rw [hearlier] at horder; cases horder
      | some earlier =>
        rw [hearlier] at horder
        exact Option.some.inj horder
    · intro key hkey htruthy
      rw [hserver]
      rw [hfacts, Facts.get_cons] at htruthy ⊢
      split
      · rfl
      · rename_i hother
        -- Another recorded identity was the server's, which the acceptance kept.
        rw [if_neg hother] at htruthy
        have hold := hb.fact_identity key hkey htruthy
        rw [hold, FactValue.truthy_ofOption] at htruthy
        rw [hold, hserverKept htruthy]
    · unfold Justified
      rw [hstatus]
      rcases hlive with hflight | hunknown
      · rw [hflight]
        trivial
      · rw [hunknown]
        exact ⟨attempt, by rw [hhistory, List.getLast?_concat]; rfl, by simp [hphase]⟩
  | settled _ hsettles hhistory hsame =>
    refine ⟨?_, ?_, ?_, ?_, hsame.order_identity hb.order_identity,
      hsame.fact_identity hb.fact_identity, justified_of_settles hhistory hsame hsettles⟩
    · rw [hhistory]; exact hb.refused_before
    · rw [hhistory]; exact hb.last_documented
    · rw [hhistory]; exact hb.accounts_nodup
    · rw [hhistory, hsame.server]; exact hb.accepted_identity

/-! ### Identities are never replaced -/

/-- Every provider identity recorded before is the one recorded after. -/
structure KeepsIdentity (before after : CreateRows) : Prop where
  server : ∀ server ∈ before.server, truthy server.providerServerId →
    ∃ later ∈ after.server, later.providerServerId = server.providerServerId
  order : ∀ order ∈ before.activeOrder, truthy order.providerOrderId →
    ∃ later ∈ after.activeOrder, later.providerOrderId = order.providerOrderId
  fact : ∀ key ∈ identityKeys, (before.operation.response.facts.get key).truthy →
    after.operation.response.facts.get key = before.operation.response.facts.get key
  attempt : ∀ (index : ℕ) (attempt : CreateRoutingAttempt), before.operation.attemptHistory[index]? = some attempt →
    truthy attempt.providerServerId →
    ∃ later : CreateRoutingAttempt, after.operation.attemptHistory[index]? = some later ∧
      later.providerServerId = attempt.providerServerId

theorem KeepsIdentity.refl (rows : CreateRows) : KeepsIdentity rows rows :=
  ⟨fun server h _ ↦ ⟨server, h, rfl⟩, fun order h _ ↦ ⟨order, h, rfl⟩, fun _ _ _ ↦ rfl,
    fun _ attempt h _ ↦ ⟨attempt, h, rfl⟩⟩

theorem KeepsIdentity.trans {first second third : CreateRows} (h : KeepsIdentity first second)
    (h' : KeepsIdentity second third) : KeepsIdentity first third where
  server := by
    intro server hserver htruthy
    obtain ⟨later, hlater, hsame⟩ := h.server server hserver htruthy
    obtain ⟨last, hlast, hsame'⟩ := h'.server later hlater (hsame ▸ htruthy)
    exact ⟨last, hlast, hsame'.trans hsame⟩
  order := by
    intro order horder htruthy
    obtain ⟨later, hlater, hsame⟩ := h.order order horder htruthy
    obtain ⟨last, hlast, hsame'⟩ := h'.order later hlater (hsame ▸ htruthy)
    exact ⟨last, hlast, hsame'.trans hsame⟩
  fact := by
    intro key hkey htruthy
    have hsame := h.fact key hkey htruthy
    rw [← hsame]
    exact h'.fact key hkey (hsame ▸ htruthy)
  attempt := by
    intro index attempt hattempt htruthy
    obtain ⟨later, hlater, hsame⟩ := h.attempt index attempt hattempt htruthy
    obtain ⟨last, hlast, hsame'⟩ := h'.attempt index later hlater (hsame ▸ htruthy)
    exact ⟨last, hlast, hsame'.trans hsame⟩

/-- The identities of the attempts when the last one is replaced. -/
theorem attempts_kept {history : List CreateRoutingAttempt} {last attempt : CreateRoutingAttempt}
    (hlast : history.getLast? = some last)
    (hkept : truthy last.providerServerId → attempt.providerServerId = last.providerServerId)
    (index : ℕ) (earlier : CreateRoutingAttempt) (hearlier : history[index]? = some earlier)
    (htruthy : truthy earlier.providerServerId) :
    ∃ later, (history.dropLast ++ [attempt])[index]? = some later ∧
      later.providerServerId = earlier.providerServerId := by
  rw [← List.dropLast_append_getLast? last hlast, List.getElem?_append] at hearlier
  rw [List.getElem?_append]
  split_ifs at hearlier ⊢ with hindex
  · exact ⟨earlier, hearlier, rfl⟩
  · rw [List.getElem?_singleton] at hearlier ⊢
    split_ifs at hearlier ⊢ with hzero
    obtain rfl := Option.some.inj hearlier
    exact ⟨attempt, rfl, hkept htruthy⟩

/-- A write keeps the identities of the rows it locked, when the recorded facts agree with the
server. -/
theorem Wrote.keepsIdentity {rows after : CreateRows} (hlocks : Locks rows b)
    (hafter : Locks after written)
    (hfact : ∀ key ∈ identityKeys, (b.operation.response.facts.get key).truthy →
      b.operation.response.facts.get key = .ofOption b.server.providerServerId)
    (h : Wrote b written sent) : KeepsIdentity rows after := by
  have hsame : SameIdentities b written →
      (∀ (index : ℕ) (attempt : CreateRoutingAttempt),
        b.operation.attemptHistory[index]? = some attempt →
        truthy attempt.providerServerId → ∃ later : CreateRoutingAttempt,
          written.operation.attemptHistory[index]? = some later ∧
            later.providerServerId = attempt.providerServerId) → KeepsIdentity rows after := by
    intro hsame hattempts
    refine ⟨?_, ?_, ?_, ?_⟩
    · intro server hserver _
      rw [hlocks.server_eq] at hserver
      obtain rfl := Option.some.inj hserver
      exact ⟨written.server, hafter.server_eq, hsame.server⟩
    · intro order horder _
      rw [← hlocks.order_eq] at horder
      rw [← hafter.order_eq]
      exact mem_order_of_map hsame.order.symm horder
    · intro key hkey htruthy
      rw [← hlocks.operation_eq] at htruthy ⊢
      rw [← hafter.operation_eq]
      rcases hsame.facts key hkey with heq | hserver
      · exact heq
      · rw [hserver, hfact key hkey htruthy]
    · rw [← hlocks.operation_eq, ← hafter.operation_eq]
      exact hattempts
  cases h with
  | claimed _ _ _ history identities =>
    refine hsame identities fun _ attempt hattempt _ ↦ ⟨attempt, ?_, rfl⟩
    rw [history]
    exact hattempt
  | started _ _ _ attempt _ _ _ history identities =>
    refine hsame identities fun index earlier hearlier _ ↦ ⟨earlier, ?_, rfl⟩
    rw [history]
    have hindex : index < b.operation.attemptHistory.length :=
      (List.getElem?_eq_some_iff.mp hearlier).1
    rw [List.getElem?_append_left hindex]
    exact hearlier
  | recorded _ last attempt before _ identity history _ identities =>
    refine hsame identities fun index earlier hearlier htruthy ↦ ?_
    rw [history]
    exact attempts_kept before (fun _ ↦ identity) index earlier hearlier htruthy
  | settled _ _ history identities =>
    refine hsame identities fun _ attempt hattempt _ ↦ ⟨attempt, ?_, rfl⟩
    rw [history]
    exact hattempt
  | accepted _ _ last attempt providerServerId _ before _ _ _ identity kept history server_kept
      server order_kept order fact_kept facts =>
    refine ⟨?_, ?_, ?_, ?_⟩
    · intro current hcurrent htruthy
      rw [hlocks.server_eq] at hcurrent
      obtain rfl := Option.some.inj hcurrent
      exact ⟨written.server, hafter.server_eq, by rw [server, server_kept htruthy]⟩
    · intro current hcurrent htruthy
      rw [← hlocks.order_eq, Option.mem_def] at hcurrent
      rw [← hafter.order_eq]
      rw [hcurrent] at order order_kept
      obtain ⟨later, hlater, hidentity⟩ := Option.map_eq_some_iff.mp order
      exact ⟨later, hlater, by rw [hidentity, order_kept current rfl htruthy]⟩
    · intro key hkey htruthy
      rw [← hlocks.operation_eq] at htruthy ⊢
      rw [← hafter.operation_eq, facts, Facts.get_cons]
      split
      · rename_i hkey'
        rw [hkey'] at htruthy ⊢
        rw [fact_kept htruthy]
      · rfl
    · intro index earlier hearlier htruthy
      rw [← hlocks.operation_eq] at hearlier
      rw [← hafter.operation_eq, history]
      exact attempts_kept before (fun hlast ↦ identity.trans (kept hlast).symm) index earlier
        hearlier htruthy

/-! ### Whole runs -/

/-- What holds in every state of a run: nothing is claimed yet, or the rows are recorded and the
creates sent are the attempts of the receipt. -/
def CreateRun.Sound (s : CreateRun) : Prop :=
  (Fresh s.rows ∧ s.sends = []) ∨
    ∃ b, Locks s.rows b ∧ Recorded b ∧
      s.sends = b.operation.attemptHistory.map (·.accountId)

theorem Locks.unique {rows : CreateRows} {first second : Bundle} (h : Locks rows first)
    (h' : Locks rows second) : first = second := by
  obtain ⟨operation, server, order⟩ := first
  obtain ⟨operation', server', order'⟩ := second
  obtain rfl : operation = operation' := h.operation_eq.trans h'.operation_eq.symm
  obtain rfl : server = server' := Option.some.inj (h.server_eq.symm.trans h'.server_eq)
  obtain rfl : order = order' := h.order_eq.trans h'.order_eq.symm
  rfl

/-- One call keeps the invariant and the recorded identities. -/
theorem CreateRun.Sound.step {s : CreateRun} (hs : s.Sound) (call : ℤ × CreateCommand) :
    (s.step call).Sound ∧ KeepsIdentity s.rows (s.step call).rows := by
  rcases s.step_cases call with hstep | ⟨after, sent, hstep, b, written, hlocks, hafter, hwrote⟩
  · rw [hstep]
    exact ⟨hs, .refl _⟩
  · rw [hstep]
    rcases hs with ⟨hfresh, hsends⟩ | ⟨b', hlocks', hrecorded, hsends⟩
    · have hpending : b.operation.status = .pending := hlocks.operation_eq ▸ hfresh.pending
      have hreceipt : b.operation.response.createRouting = none :=
        hlocks.operation_eq ▸ hfresh.no_receipt
      obtain ⟨hrecorded, hempty, rfl⟩ := recorded_of_fresh hwrote hpending hreceipt
      refine ⟨Or.inr ⟨written, hafter, hrecorded, ?_⟩, ?_⟩
      · rw [hempty]
        simpa using hsends
      · refine hwrote.keepsIdentity hlocks hafter fun key hkey htruthy ↦ ?_
        rw [noFact_of_fresh hwrote hpending hreceipt key hkey] at htruthy
        cases htruthy
    · obtain rfl := hlocks.unique hlocks'
      refine ⟨Or.inr ⟨written, hafter, hrecorded.wrote hwrote, ?_⟩,
        hwrote.keepsIdentity hlocks hafter hrecorded.fact_identity⟩
      rw [hwrote.accounts, ← hsends]

theorem CreateRun.sound_after {rows : CreateRows} (hfresh : Fresh rows)
    (calls : List (ℤ × CreateCommand)) : (CreateRun.after rows calls).Sound := by
  have hstart : CreateRun.Sound ⟨rows, []⟩ := Or.inl ⟨hfresh, rfl⟩
  have hstep : ∀ (s : CreateRun) call, s.Sound → (s.step call).Sound :=
    fun _ call hs ↦ (hs.step call).1
  exact invariant_run hstep calls _ hstart

theorem CreateRun.after_append (rows : CreateRows) (calls more : List (ℤ × CreateCommand)) :
    CreateRun.after rows (calls ++ more) = run CreateRun.step (CreateRun.after rows calls) more :=
  run_append _ _ _ _

/-- The creates sent to accounts whose attempt is not a documented capacity refusal. -/
def CreateRun.unrefused (s : CreateRun) : List String :=
  s.sends.filter fun account ↦ ¬ ∃ attempt ∈ s.rows.operation.attemptHistory,
    attempt.accountId = account ∧ DocumentedRefusal attempt

/-- Only the last create sent can have another outcome than a documented refusal. -/
theorem unrefused_length_le {s : CreateRun} {b : Bundle} (hlocks : Locks s.rows b)
    (hrecorded : Recorded b) (hsends : s.sends = b.operation.attemptHistory.map (·.accountId)) :
    s.unrefused.length ≤ 1 := by
  unfold CreateRun.unrefused
  rw [hsends, ← hlocks.operation_eq]
  rcases List.eq_nil_or_concat' b.operation.attemptHistory with hempty | ⟨earlier, last, hhistory⟩
  · simp [hempty]
  · have hrefused := hrecorded.refused_before
    rw [hhistory, List.dropLast_concat] at hrefused
    rw [hhistory, List.map_append, List.filter_append, List.length_append]
    have hnone : (earlier.map (·.accountId)).filter (fun account ↦
        ¬ ∃ attempt ∈ earlier ++ [last], attempt.accountId = account ∧
          DocumentedRefusal attempt) = [] := by
      refine List.filter_eq_nil_iff.mpr fun account haccount ↦ ?_
      obtain ⟨attempt, hattempt, rfl⟩ := List.mem_map.mp haccount
      rw [decide_eq_true_iff, not_not]
      exact ⟨attempt, List.mem_append_left _ hattempt, rfl, hrefused attempt hattempt⟩
    rw [hnone, List.length_nil, Nat.zero_add]
    exact (List.length_filter_le _ _).trans (by simp)

/-- In every state of every run: only documented capacity refusals precede the last attempt, no
account is attempted twice, an attempt is started only after such a refusal or as the first one, and
at most one create was sent whose outcome is not a documented capacity refusal. -/
theorem create_atMostOnce (rows : CreateRows) (hfresh : Fresh rows)
    (calls : List (ℤ × CreateCommand)) :
    let s := CreateRun.after rows calls
    (∀ attempt ∈ s.rows.operation.attemptHistory.dropLast, DocumentedRefusal attempt) ∧
      (s.rows.operation.attemptHistory.map (·.accountId)).Nodup ∧
      (∀ operationId generation accountId requestFacts now started,
        startAttempt s.rows operationId generation accountId requestFacts now = .ok started →
          ∀ attempt ∈ s.rows.operation.attemptHistory.getLast?,
            attempt.phase ∉ [Phase.sent, .refused, .outcomeUnknown, .accepted]) ∧
      s.sends = s.rows.operation.attemptHistory.map (·.accountId) ∧ s.unrefused.length ≤ 1 := by
  intro s
  have hstart : ∀ operationId generation accountId requestFacts now started,
      startAttempt s.rows operationId generation accountId requestFacts now = .ok started →
        ∀ attempt ∈ s.rows.operation.attemptHistory.getLast?,
          attempt.phase ∉ [Phase.sent, .refused, .outcomeUnknown, .accepted] := by
    intro operationId generation accountId requestFacts now started hstarted attempt hlast
    rw [(startAttempt_eq_ok hstarted).1 attempt hlast]
    decide
  rcases CreateRun.sound_after hfresh calls with ⟨hunclaimed, hsends⟩ | ⟨b, hlocks, hrecorded, hsends⟩
  · have hempty : s.rows.operation.attemptHistory = [] := by
      simp [s, Operation.attemptHistory, hunclaimed.no_receipt]
    rw [hempty]
    refine ⟨by simp, by simp, ?_, hsends, ?_⟩
    · rw [hempty] at hstart
      exact hstart
    · simp [CreateRun.unrefused, s, hsends]
  · refine ⟨?_, ?_, hstart, ?_, unrefused_length_le hlocks hrecorded hsends⟩
    · rw [← hlocks.operation_eq]
      exact hrecorded.refused_before
    · rw [← hlocks.operation_eq]
      exact hrecorded.accounts_nodup
    · rw [← hlocks.operation_eq]
      exact hsends

/-- A pending order create with its server and its order. -/
def pooledOrder : CreateRows where
  operation := {
    id := ⟨"0b9f5c1e-0000-4000-8000-000000000001", .refl true⟩
    operationKey := "order-create:1"
    operationType := .orderCreate
    resourceType := "server_order"
    resourceId := ⟨"0b9f5c1e-0000-4000-8000-000000000002", .refl true⟩
    providerKey := "leaseweb" }
  server := some {
    id := ⟨"0b9f5c1e-0000-4000-8000-000000000003", .refl true⟩
    userId := ⟨"0b9f5c1e-0000-4000-8000-000000000004", .refl true⟩
    providerKey := "leaseweb"
    state := .provisioning }
  order := some {
    id := ⟨"0b9f5c1e-0000-4000-8000-000000000002", .refl true⟩
    serverId := ⟨"0b9f5c1e-0000-4000-8000-000000000003", .refl true⟩
    operationKey := "order-create:1"
    providerKey := "leaseweb" }

/-- A refused account, and an accepted create on the next one. -/
def failover : List (ℤ × CreateCommand) :=
  let operation : Uuid := ⟨"0b9f5c1e-0000-4000-8000-000000000001", .refl true⟩
  [(0, .claim operation ⟨"0b9f5c1e-0000-4000-8000-000000000003", .refl true⟩ none none),
    (1, .startAttempt operation 1 "default" none),
    (2, .recordRefusal operation 1 "default" true (some "resource_limit_exceeded") []),
    (3, .startAttempt operation 1 "second" none),
    (4, .recordAcceptance operation 1 "second" "i-7" none none),
    (5, .saveOutcome operation 1 .completed none [("provider_server_id", .text "i-7")])]

theorem create_atMostOnce_failover :
    (CreateRun.after pooledOrder failover).sends = ["default", "second"] ∧
      (CreateRun.after pooledOrder failover).unrefused.length ≤ 1 :=
  ⟨by decide +kernel, (create_atMostOnce pooledOrder ⟨rfl, rfl⟩ failover).2.2.2.2⟩

/-- An unknown outcome is never requeued or failed. -/
theorem Wrote.not_requeued (hb : Recorded b) (h : Wrote b written sent)
    (hunknown : b.operation.status = .outcomeUnknown) :
    written.operation.status ∉ [OperationStatus.pending, .failed] := by
  have hjustified := hb.justified
  rw [Justified, hunknown] at hjustified
  obtain ⟨last, hlast, hphase⟩ := hjustified
  cases h with
  | claimed pending => rw [hunknown] at pending; cases pending
  | started live => rw [hunknown] at live; cases live
  | recorded _ _ _ _ _ _ _ outcome =>
    rcases outcome with ⟨-, hstatus, -⟩ | ⟨hstatus, -⟩ <;> simp [hstatus]
  | accepted _ status => rw [status, hunknown]; decide
  | settled _ justified =>
    intro hmem
    rcases List.mem_cons.mp hmem with hpending | hfailed
    · rw [hpending] at justified
      rw [justified last hlast] at hphase
      revert hphase
      decide
    · rw [List.mem_singleton.mp hfailed] at justified
      have hrefused := justified.2 last hlast
      cases hcase : last.phase <;> rw [hcase] at hphase hrefused <;> simp at hphase hrefused

/-- The calls of a run keep every recorded identity. -/
theorem CreateRun.keepsIdentity_run (calls : List (ℤ × CreateCommand)) (s : CreateRun)
    (hs : s.Sound) : KeepsIdentity s.rows (run CreateRun.step s calls).rows := by
  let related : CreateRun → CreateRun → Prop :=
    fun first second ↦ KeepsIdentity first.rows second.rows
  have hsound : ∀ (s : CreateRun) call, s.Sound → (s.step call).Sound :=
    fun _ call hs ↦ (hs.step call).1
  have hrelated : ∀ (s : CreateRun) call, s.Sound → related s (s.step call) :=
    fun _ call hs ↦ (hs.step call).2
  have hrefl : ∀ s, related s s := fun _ ↦ .refl _
  have htrans : ∀ first second third, related first second → related second third →
      related first third := fun _ _ _ h h' ↦ KeepsIdentity.trans h h'
  exact relation_run hrefl htrans hsound hrelated calls s hs

/-- In every state of every run: a FAILED create has only refused attempts and no provider identity
on the server or the order; an OUTCOME_UNKNOWN one has a last attempt that may have been accepted,
and no call requeues or fails it; a COMPLETED one has an accepted last attempt with the server's
identity; and every recorded identity stays whatever calls follow. -/
theorem createOutcome_agrees (rows : CreateRows) (hfresh : Fresh rows)
    (calls : List (ℤ × CreateCommand)) :
    let s := CreateRun.after rows calls
    (s.rows.operation.status = .failed →
      (∀ attempt ∈ s.rows.operation.attemptHistory,
        attempt.phase ∈ [Phase.capacityRefused, .refused]) ∧
      (∀ server ∈ s.rows.server, truthy server.providerServerId = false) ∧
      (∀ order ∈ s.rows.activeOrder, truthy order.providerOrderId = false)) ∧
    (s.rows.operation.status = .outcomeUnknown →
      (∃ attempt ∈ s.rows.operation.attemptHistory.getLast?,
        attempt.phase ∈ [Phase.sent, .outcomeUnknown, .accepted]) ∧
      ∀ call, (s.step call).rows.operation.status ∉ [OperationStatus.pending, .failed]) ∧
    (s.rows.operation.status = .completed →
      ∃ attempt ∈ s.rows.operation.attemptHistory.getLast?, attempt.phase = .accepted ∧
        ∃ server ∈ s.rows.server, truthy server.providerServerId ∧
          attempt.providerServerId = server.providerServerId) ∧
    ∀ more, KeepsIdentity s.rows (CreateRun.after rows (calls ++ more)).rows := by
  intro s
  have hsound := CreateRun.sound_after hfresh calls
  have hkeeps : ∀ more, KeepsIdentity s.rows (CreateRun.after rows (calls ++ more)).rows := by
    intro more
    rw [CreateRun.after_append]
    exact CreateRun.keepsIdentity_run more s hsound
  rcases hsound with ⟨hunclaimed, -⟩ | ⟨b, hlocks, hrecorded, hsends⟩
  · have hpending : s.rows.operation.status = .pending := hunclaimed.pending
    rw [hpending]
    exact ⟨nofun, nofun, nofun, hkeeps⟩
  · have hjustified := hrecorded.justified
    rw [← hlocks.operation_eq, ← hlocks.order_eq, hlocks.server_eq]
    refine ⟨fun hfailed ↦ ?_, fun hunknown ↦ ?_, fun hcompleted ↦ ?_, hkeeps⟩
    · rw [Justified, hfailed] at hjustified
      refine ⟨fun attempt hattempt ↦ ?_, ?_, hjustified.1.order⟩
      · cases hlast : b.operation.attemptHistory.getLast? with
        | none =>
          rw [List.getLast?_eq_none_iff.mp hlast] at hattempt
          cases hattempt
        | some last =>
          rw [← List.dropLast_append_getLast? last hlast, List.mem_append, List.mem_singleton]
            at hattempt
          rcases hattempt with hmem | rfl
          · simp [(hrecorded.refused_before attempt hmem).1]
          · exact hjustified.2 attempt hlast
      · rintro server hserver
        obtain rfl := Option.some.inj hserver
        exact hjustified.1.server
    · rw [Justified, hunknown] at hjustified
      refine ⟨hjustified, fun call ↦ ?_⟩
      rcases s.step_cases call with
        hstep | ⟨after, sent, hstep, b', written, hlocks', hafter, hwrote⟩
      · rw [hstep, ← hlocks.operation_eq, hunknown]
        decide
      · obtain rfl := hlocks.unique hlocks'
        rw [hstep]
        change after.operation.status ∉ _
        rw [← hafter.operation_eq]
        exact hwrote.not_requeued hrecorded hunknown
    · rw [Justified, hcompleted] at hjustified
      obtain ⟨attempt, hlast, hphase⟩ := hjustified
      obtain ⟨htruthy, hidentity⟩ := hrecorded.accepted_identity attempt hlast hphase
      exact ⟨attempt, hlast, hphase, b.server, rfl, hidentity ▸ htruthy, hidentity⟩

theorem createOutcome_agrees_failover :
    ∃ attempt ∈ (CreateRun.after pooledOrder failover).rows.operation.attemptHistory.getLast?,
      attempt.phase = .accepted ∧ ∃ server ∈ (CreateRun.after pooledOrder failover).rows.server,
        truthy server.providerServerId ∧ attempt.providerServerId = server.providerServerId :=
  (createOutcome_agrees pooledOrder ⟨rfl, rfl⟩ failover).2.2.1 (by decide +kernel)

end CloudPlatform.Operations
