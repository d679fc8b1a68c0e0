import CloudPlatform.Billing.PrepaidPolicy

/-!
# A day at zero

The balances that a customer held are kept as stretches of time, and with each whether a pass over
the balances has seen it. A deletion that the pass over the provider requests is preceded by a whole
day at zero exactly if the stretches of that day were seen: a recharge that comes and goes while the
server is contained leaves the old watermark in the row.
-/

namespace CloudPlatform.Billing

open Calendar (day)
open Compute (ServerAggregate ServerLifecycleState)
open Rows
open Transition
open Wallets (Wallet)

/-! ### What the passes do to a row -/

section Rows

variable {servers : PrepaidServers} {wallets : WalletRows} {now : ℤ}

/-- What no save of a copy changes: the owner, the billing model and the zero watermark. -/
structure Contract where
  userId : Uuid
  billingModel : String
  prepaidZeroSince : Option ℤ

def PrepaidServer.contract (server : PrepaidServer) : Contract :=
  ⟨server.userId, server.billingModel, server.prepaidZeroSince⟩

/-- Every row keeps its contract. -/
def Keeps (before after : PrepaidServers) : Prop :=
  ∀ id, (after.get id).map (·.contract) = (before.get id).map (·.contract)

theorem Keeps.refl (servers : PrepaidServers) : Keeps servers servers :=
  fun _ ↦ rfl

theorem Keeps.trans {first second third : PrepaidServers} (hfirst : Keeps first second)
    (hsecond : Keeps second third) : Keeps first third :=
  fun id ↦ (hsecond id).trans (hfirst id)

theorem keeps_put {row after : PrepaidServer} {id : Uuid} (hrow : servers.get id = some row)
    (hid : after.id = id) (hcontract : after.contract = row.contract) :
    Keeps servers (servers.put after) := by
  intro other
  by_cases hother : after.id = other
  · rw [Table.get_put, if_pos hother, ← hother, hid, hrow, Option.map_some, Option.map_some,
      hcontract]
  · rw [Table.get_put, if_neg hother]

theorem keeps_saveCopy (copy : ServerAggregate) : Keeps servers (saveCopy now servers copy) := by
  unfold saveCopy
  cases hrow : servers.get copy.id with
  | none => exact Keeps.refl servers
  | some row =>
    have hid := Table.key_of_get hrow
    exact keeps_put hrow hid rfl

theorem keeps_saves (copies : List ServerAggregate) :
    ∀ servers : PrepaidServers, Keeps servers (copies.foldl (saveCopy now) servers) := by
  induction copies with
  | nil => exact fun servers ↦ Keeps.refl servers
  | cons copy rest ih => exact fun servers ↦ (keeps_saveCopy copy).trans (ih _)

variable {server : PrepaidServer}

theorem keeps_confirmStopped {world : PrepaidWorld} {id : Uuid}
    (hrow : world.servers.get id = some server) :
    Keeps world.servers (world.confirmStopped server) := by
  unfold PrepaidWorld.confirmStopped
  by_cases hrunning : server.state = .running
  · rw [if_pos hrunning]
    have hid := Table.key_of_get hrow
    exact keeps_put hrow hid rfl
  · rw [if_neg hrunning]
    exact Keeps.refl _

/-- The row after its turn in a pass over the balances. -/
def marked (wallets : WalletRows) (now : ℤ) (server : PrepaidServer) : PrepaidServer :=
  if server.isPrepaidHourlyIrt = true ∧ server.state ∈ [ServerLifecycleState.running, .stopped] then
    match judgeBalance wallets now server with
    | .error _ => server
    | .ok outcome => server.mark outcome
  else server

/-- The row still has what a decision about the server was made from. -/
structure Unmoved (server row : PrepaidServer) : Prop where
  prepaid : row.isPrepaidHourlyIrt = true
  listed : row.state ∈ [ServerLifecycleState.running, .stopped]
  warning : row.lowBalanceSince = server.lowBalanceSince
  zero : row.prepaidZeroSince = server.prepaidZeroSince

instance (server row : PrepaidServer) : Decidable (Unmoved server row) :=
  decidable_of_iff (row.isPrepaidHourlyIrt = true ∧
      row.state ∈ [ServerLifecycleState.running, .stopped] ∧
      row.lowBalanceSince = server.lowBalanceSince ∧
      row.prepaidZeroSince = server.prepaidZeroSince)
    ⟨fun h ↦ ⟨h.1, h.2.1, h.2.2.1, h.2.2.2⟩, fun h ↦ ⟨h.prepaid, h.listed, h.warning, h.zero⟩⟩

/-- The turn of a server in a pass, for a row that may have changed since it was listed. -/
def turn (wallets : WalletRows) (now : ℤ) (server row : PrepaidServer) : PrepaidServer :=
  if server.isPrepaidHourlyIrt = true ∧ Unmoved server row then
    match judgeBalance wallets now server with
    | .error _ => row
    | .ok outcome => row.mark outcome
  else row

theorem savePrepaidBalanceMarkers_eq_ok {outcome : PrepaidBalanceOutcome} {after : PrepaidServers} :
    savePrepaidBalanceMarkers servers server outcome = .ok after ↔
      ∃ row, servers.get server.id = some row ∧ Unmoved server row ∧
        servers.put (row.mark outcome) = after := by
  unfold savePrepaidBalanceMarkers
  cases servers.get server.id with
  | none => exact iff_of_false raise_ne_ok fun ⟨_, hrow, _⟩ ↦ nomatch hrow
  | some row =>
    simp only [rejectIf_bind_eq_ok, pure_eq_ok, Option.some.injEq, exists_eq_left']
    constructor
    · rintro ⟨hprepaid, hlisted, hmarkers, hput⟩
      obtain ⟨hwarning, hzero⟩ := Bool.or_eq_false_iff.mp hmarkers
      refine ⟨⟨?_, ?_, ?_, ?_⟩, hput⟩
      · exact (Bool.not_eq_false' (b := row.isPrepaidHourlyIrt)).mp hprepaid
      · exact not_not.mp (of_decide_eq_false hlisted)
      · exact not_not.mp (of_decide_eq_false hwarning)
      · exact not_not.mp (of_decide_eq_false hzero)
    · rintro ⟨hunmoved, hput⟩
      refine ⟨?_, ?_, ?_, hput⟩
      · rw [hunmoved.prepaid]
        rfl
      · exact decide_eq_false (not_not.mpr hunmoved.listed)
      · rw [decide_eq_false (not_not.mpr hunmoved.warning),
          decide_eq_false (not_not.mpr hunmoved.zero)]
        rfl

theorem turn_self : turn wallets now server server = marked wallets now server := by
  unfold turn marked
  by_cases h : server.isPrepaidHourlyIrt = true ∧
      server.state ∈ [ServerLifecycleState.running, .stopped]
  · rw [if_pos h, if_pos ⟨h.1, h.1, h.2, rfl, rfl⟩]
  · rw [if_neg h, if_neg fun hall ↦ h ⟨hall.1, hall.2.listed⟩]

theorem id_turn (server row : PrepaidServer) : (turn wallets now server row).id = row.id := by
  unfold turn
  split
  · split <;> rfl
  · rfl

theorem map_turn_eq_self {row : Option PrepaidServer}
    (h : ∀ stored ∈ row, turn wallets now server stored = stored) :
    row.map (turn wallets now server) = row := by
  cases row with
  | none => rfl
  | some stored => rw [Option.map_some, h stored rfl]

variable (wallets now) in
/-- What a turn leaves in the table. -/
theorem get_evaluateServer (report : PrepaidBalancePolicyReport) (server : PrepaidServer)
    (id : Uuid) : (evaluateServer wallets now (servers, report) server).1.get id =
      if server.id = id then (servers.get id).map (turn wallets now server)
      else servers.get id := by
  have hstays (h : ∀ stored ∈ servers.get server.id, turn wallets now server stored = stored) :
      servers.get id = if server.id = id then (servers.get id).map (turn wallets now server)
        else servers.get id := by
    by_cases hid : server.id = id
    · rw [if_pos hid, map_turn_eq_self (hid ▸ h)]
    · rw [if_neg hid]
  unfold evaluateServer
  by_cases hprepaid : server.isPrepaidHourlyIrt = true
  · rw [if_pos hprepaid]
    cases hjudged : judgeBalance wallets now server with
    | error raised =>
      refine hstays fun stored _ ↦ ?_
      rw [turn, hjudged]
      exact ite_self _
    | ok outcome =>
      dsimp only
      unfold recordOutcome
      by_cases hmoved : outcome.warningSince ≠ server.lowBalanceSince ∨
          outcome.zeroSince ≠ server.prepaidZeroSince
      · rw [if_pos hmoved]
        cases hsaved : savePrepaidBalanceMarkers servers server outcome with
        | error raised =>
          refine hstays fun stored hstored ↦ ?_
          rw [turn, if_neg]
          rintro ⟨-, hunmoved⟩
          have hok : savePrepaidBalanceMarkers servers server outcome =
              .ok (servers.put (stored.mark outcome)) :=
            savePrepaidBalanceMarkers_eq_ok.mpr ⟨stored, hstored, hunmoved, rfl⟩
          rw [hsaved] at hok
          exact nomatch hok
        | ok after =>
          obtain ⟨row, hrow, hunmoved, rfl⟩ := savePrepaidBalanceMarkers_eq_ok.mp hsaved
          have hkey := Table.key_of_get hrow
          have hturn : turn wallets now server row = row.mark outcome := by
            rw [turn, if_pos ⟨hprepaid, hunmoved⟩, hjudged]
          dsimp only
          rw [← hturn, Table.get_put, id_turn]
          by_cases hid : server.id = id
          · subst hid
            rw [if_pos hkey, if_pos rfl, hrow, Option.map_some]
          · rw [if_neg hid, if_neg (hkey ▸ hid)]
      · rw [if_neg hmoved]
        refine hstays fun stored _ ↦ ?_
        obtain ⟨hwarning, hzero⟩ := not_or.mp hmoved
        unfold turn
        by_cases hunmoved : server.isPrepaidHourlyIrt = true ∧ Unmoved server stored
        · rw [if_pos hunmoved, hjudged]
          dsimp only
          rw [PrepaidServer.mark, not_not.mp hwarning, not_not.mp hzero, ← hunmoved.2.warning,
            ← hunmoved.2.zero]
        · rw [if_neg hunmoved]
  · rw [if_neg hprepaid]
    refine hstays fun stored _ ↦ ?_
    rw [turn, if_neg fun hall ↦ hprepaid hall.1]

theorem fst_evaluateServer (report : PrepaidBalancePolicyReport) (server : PrepaidServer) :
    (evaluateServer wallets now (servers, report) server).1 =
      (evaluateServer wallets now (servers, {}) server).1 := by
  unfold evaluateServer
  by_cases hprepaid : server.isPrepaidHourlyIrt = true
  · rw [if_pos hprepaid, if_pos hprepaid]
    cases judgeBalance wallets now server with
    | error raised => rfl
    | ok outcome =>
      dsimp only
      cases recordOutcome servers server outcome <;> rfl
  · rw [if_neg hprepaid, if_neg hprepaid]

theorem fst_foldl_evaluateServer (listed : List PrepaidServer) :
    ∀ (servers : PrepaidServers) (report : PrepaidBalancePolicyReport),
      (listed.foldl (evaluateServer wallets now) (servers, report)).1 =
        listed.foldl (fun servers server ↦
          (evaluateServer wallets now (servers, {}) server).1) servers := by
  induction listed with
  | nil => exact fun _ _ ↦ rfl
  | cons server rest ih =>
    intro servers report
    rw [List.foldl_cons, List.foldl_cons, ← fst_evaluateServer report]
    exact ih _ _

theorem mem_listedServers {server : PrepaidServer} : server ∈ listedServers servers ↔
    server ∈ servers.rows ∧ server.state ∈ [ServerLifecycleState.running, .stopped] := by
  simp only [listedServers, List.mem_append, List.mem_filter, decide_eq_true_eq, List.mem_cons,
    List.not_mem_nil, or_false, and_or_left]

theorem nodup_listedServers (servers : PrepaidServers) :
    ((listedServers servers).map (·.id)).Nodup := by
  have hsub (state : ServerLifecycleState) :
      ((servers.rows.filter (·.state = state)).map (·.id)).Nodup :=
    (List.filter_sublist.map _).nodup servers.unique
  rw [listedServers, List.map_append]
  refine List.Nodup.append (hsub .running) (hsub .stopped) fun id hrunning hstopped ↦ ?_
  obtain ⟨first, hfirst, rfl⟩ := List.mem_map.mp hrunning
  obtain ⟨second, hsecond, hid⟩ := List.mem_map.mp hstopped
  obtain ⟨hfirstMem, hfirstState⟩ := List.mem_filter.mp hfirst
  obtain ⟨hsecondMem, hsecondState⟩ := List.mem_filter.mp hsecond
  have hsame : second = first := List.inj_on_of_nodup_map servers.unique hsecondMem hfirstMem hid
  subst hsame
  exact absurd ((of_decide_eq_true hfirstState).symm.trans (of_decide_eq_true hsecondState))
    (nomatch ·)

/-- A pass over the balances gives every listed prepaid row its watermarks. -/
theorem get_evaluate (servers : PrepaidServers) (id : Uuid) :
    (evaluate servers wallets now).1.get id = (servers.get id).map (marked wallets now) := by
  have hturns := Table.get_foldl (nodup_listedServers servers)
    (fun server _ servers id ↦ get_evaluateServer wallets now {} server id) id servers
  let listing : PrepaidServers := ⟨listedServers servers, nodup_listedServers servers⟩
  rw [evaluate, fst_foldl_evaluateServer, hturns]
  change (listing.get id).elim _ _ = _
  cases hrow : servers.get id with
  | none => cases listing.get id <;> rfl
  | some row =>
    have hkey := Table.key_of_get hrow
    by_cases hlisted : row ∈ listing.rows
    · rw [← hkey, Table.mem_iff_get.mp hlisted, Option.elim_some, Option.map_some, Option.map_some,
        turn_self]
    · have hnone : listing.get id = none := by
        refine Table.get_eq_none.mpr fun other hother hid ↦ hlisted ?_
        have hmem : other ∈ servers.rows := (mem_listedServers.mp hother).1
        have hget := Table.mem_iff_get.mp hmem
        rw [hid, hrow] at hget
        exact Option.some.inj hget ▸ hother
      rw [hnone, Option.elim_none, Option.map_some, marked, if_neg]
      rintro ⟨-, hstate⟩
      exact hlisted (mem_listedServers.mpr ⟨Table.mem_of_get hrow, hstate⟩)

end Rows

/-! ### When a deletion is requested -/

section Enforcement

variable {world : PrepaidWorld} {serverId : Uuid} {unpaid : Bool} {answer : ProviderAnswer}
  {effect : CommandEffect}

/-- The branch of `enforce` in which the server is deleted: an owner with an empty IRT wallet, a
watermark of a day ago, and a provider that has stopped the server. -/
structure Due (world : PrepaidWorld) (serverId : Uuid) (unpaid : Bool) (answer : ProviderAnswer)
    (server : PrepaidServer) (since : ℤ) : Prop where
  row : world.servers.get serverId = some server
  prepaid : server.isPrepaidHourlyIrt = true
  zeroSince : server.prepaidZeroSince = some since
  automatic : unpaid = false
  empty : world.atZero server.userId = true
  resource : truthy server.providerServerId = true
  listed : server.state ∈ [ServerLifecycleState.running, .stopped]
  proof : ∃ status power, answer = .answered status power ∧ remoteStateOf status = .stopped
  elapsed : day ≤ world.now - since

variable {server : PrepaidServer} {servers : PrepaidServers} {target : Uuid}

/-- The row that `confirmStopped` leaves. -/
theorem get_confirmStopped (hrow : world.servers.get serverId = some server)
    (hlisted : server.state ∈ [ServerLifecycleState.running, .stopped]) :
    ∃ after, (world.confirmStopped server).get server.id = some after ∧ after.state = .stopped ∧
      after.contract = server.contract := by
  have hkey := Table.key_of_get hrow
  unfold PrepaidWorld.confirmStopped
  by_cases hrunning : server.state = .running
  · rw [if_pos hrunning]
    exact ⟨_, Table.get_put_self _ _, rfl, rfl⟩
  · have hstopped : server.state = .stopped := by
      have hcases := List.mem_cons.mp hlisted
      exact List.mem_singleton.mp (hcases.resolve_left hrunning)
    rw [if_neg hrunning, hkey]
    exact ⟨server, hrow, hstopped, rfl⟩

theorem keeps_ite {condition : Prop} [Decidable condition] {first second : EnforcePass}
    (hfirst : Keeps servers first.servers) (hsecond : Keeps servers second.servers) :
    Keeps servers (if condition then first else second).servers := by
  by_cases h : condition
  · rw [if_pos h]
    exact hfirst
  · rw [if_neg h]
    exact hsecond

theorem keeps_deleteAfterRecheck {since : ℤ} :
    Keeps servers (world.deleteAfterRecheck servers server since effect).servers := by
  unfold PrepaidWorld.deleteAfterRecheck
  cases servers.get server.id with
  | none => exact Keeps.refl _
  | some current => exact keeps_ite (Keeps.refl _) (keeps_saves _ _)

theorem keeps_enforceRemote {status : Option String} {power : Bool}
    (hrow : world.servers.get serverId = some server) :
    Keeps world.servers (world.enforceRemote server unpaid status power effect).servers := by
  have hstopped := keeps_confirmStopped hrow
  unfold PrepaidWorld.enforceRemote
  cases remoteStateOf status with
  | running => exact keeps_ite (Keeps.refl _) (keeps_ite (Keeps.refl _) (keeps_saves _ _))
  | stopped =>
    dsimp only
    cases server.prepaidZeroSince with
    | none => exact hstopped
    | some since => exact keeps_ite hstopped (hstopped.trans keeps_deleteAfterRecheck)
  | creating => exact Keeps.refl _
  | deleting => exact Keeps.refl _
  | notFound => exact Keeps.refl _
  | unknown => exact Keeps.refl _

theorem keeps_enforce :
    Keeps world.servers (world.enforce serverId unpaid answer effect).servers := by
  unfold PrepaidWorld.enforce
  cases hrow : world.servers.get serverId with
  | none => exact Keeps.refl _
  | some server =>
    refine keeps_ite (Keeps.refl _) (keeps_ite (Keeps.refl _) (keeps_ite (Keeps.refl _)
      (keeps_ite (Keeps.refl _) (keeps_ite (Keeps.refl _) ?_))))
    cases answer with
    | failed raised => exact keeps_ite (Keeps.refl _) (Keeps.refl _)
    | answered status power => exact keeps_enforceRemote hrow

/-- The pass requests the deletion of a server. -/
def EnforcePass.Deletes (pass : EnforcePass) (serverId : Uuid) : Prop :=
  ∃ userId key, pass.command = some (.delete userId serverId key)

theorem deletes_unless {condition : Prop} [Decidable condition]
    {outcome : Result PrepaidProviderLifecycleOutcome} {pass : EnforcePass} :
    (if condition then ⟨servers, outcome, none⟩ else pass).Deletes target ↔
      ¬ condition ∧ pass.Deletes target := by
  by_cases h : condition
  · rw [if_pos h]
    exact iff_of_false (fun ⟨_, _, hcommand⟩ ↦ nomatch hcommand) fun hnot ↦ hnot.1 h
  · rw [if_neg h, and_iff_right h]

theorem not_deletes {outcome : Result PrepaidProviderLifecycleOutcome} :
    ¬ (⟨servers, outcome, none⟩ : EnforcePass).Deletes target :=
  fun ⟨_, _, hcommand⟩ ↦ nomatch hcommand

theorem deletes_deleteAfterRecheck {since : ℤ} (hrow : world.servers.get serverId = some server)
    (hprepaid : server.isPrepaidHourlyIrt = true)
    (hlisted : server.state ∈ [ServerLifecycleState.running, .stopped])
    (hempty : world.atZero server.userId = true) :
    (world.deleteAfterRecheck (world.confirmStopped server) server since effect).Deletes target ↔
      target = serverId := by
  obtain ⟨after, hafter, hstate, hcontract⟩ := get_confirmStopped hrow hlisted
  have hkey := Table.key_of_get hrow
  have hsame := Contract.mk.inj hcontract
  have hmodel : after.isPrepaidHourlyIrt = server.isPrepaidHourlyIrt := by
    unfold Compute.CloudServer.isPrepaidHourlyIrt
    rw [hsame.2.1]
  unfold PrepaidWorld.deleteAfterRecheck
  rw [hafter]
  dsimp only
  rw [if_neg]
  · constructor
    · rintro ⟨userId, key, hcommand⟩
      have htarget := (PrepaidCommand.delete.inj (Option.some.inj hcommand)).2.1
      exact htarget.symm.trans hkey
    · rintro rfl
      exact ⟨_, _, congrArg (fun id ↦ some (PrepaidCommand.delete server.userId id _)) hkey⟩
  · rw [hsame.1, hsame.2.2, hmodel, hstate, hprepaid, hempty]
    simp

theorem deletes_enforceRemote {status : Option String} {power : Bool}
    (hrow : world.servers.get serverId = some server) (hprepaid : server.isPrepaidHourlyIrt = true)
    (hlisted : server.state ∈ [ServerLifecycleState.running, .stopped])
    (hempty : unpaid = false → world.atZero server.userId = true) :
    (world.enforceRemote server unpaid status power effect).Deletes target ↔
      remoteStateOf status = .stopped ∧ unpaid = false ∧ target = serverId ∧
        ∃ since, server.prepaidZeroSince = some since ∧ day ≤ world.now - since := by
  unfold PrepaidWorld.enforceRemote
  cases remoteStateOf status with
  | stopped =>
    rw [and_iff_right rfl]
    dsimp only
    cases server.prepaidZeroSince with
    | none => exact iff_of_false not_deletes fun ⟨_, _, _, hsince, _⟩ ↦ nomatch hsince
    | some since =>
      dsimp only
      rw [deletes_unless, not_or, not_lt]
      constructor
      · rintro ⟨⟨hunpaid, helapsed⟩, hdeletes⟩
        have hautomatic : unpaid = false := Bool.eq_false_of_not_eq_true hunpaid
        have htarget := (deletes_deleteAfterRecheck hrow hprepaid hlisted
          (hempty hautomatic)).mp hdeletes
        exact ⟨hautomatic, htarget, since, rfl, helapsed⟩
      · rintro ⟨hautomatic, htarget, found, hfound, helapsed⟩
        obtain rfl : since = found := Option.some.inj hfound
        refine ⟨⟨Bool.eq_false_iff.mp hautomatic, helapsed⟩, ?_⟩
        exact (deletes_deleteAfterRecheck hrow hprepaid hlisted (hempty hautomatic)).mpr htarget
  | running =>
    refine iff_of_false ?_ fun h ↦ nomatch h.1
    simp only [deletes_unless]
    rintro ⟨-, -, userId, key, hcommand⟩
    exact nomatch hcommand
  | creating => exact iff_of_false not_deletes fun h ↦ nomatch h.1
  | deleting => exact iff_of_false not_deletes fun h ↦ nomatch h.1
  | notFound => exact iff_of_false not_deletes fun h ↦ nomatch h.1
  | unknown => exact iff_of_false not_deletes fun h ↦ nomatch h.1

/-- A pass requests the deletion of its server exactly if it is due. -/
theorem deletes_enforce : (world.enforce serverId unpaid answer effect).Deletes target ↔
      target = serverId ∧ ∃ server since, Due world serverId unpaid answer server since := by
  unfold PrepaidWorld.enforce
  cases hrow : world.servers.get serverId with
  | none =>
    refine iff_of_false not_deletes ?_
    rintro ⟨-, server, since, hdue⟩
    exact nomatch hrow.symm.trans hdue.row
  | some server =>
    simp only [deletes_unless]
    constructor
    · rintro ⟨hprepaid, -, -, hempty, hbacked, hdeletes⟩
      obtain ⟨hresource, hlisted⟩ := not_or.mp hbacked
      have hwallet (hautomatic : unpaid = false) : world.atZero server.userId = true :=
        Bool.eq_true_of_not_eq_false fun hzero ↦ hempty ⟨hautomatic, hzero⟩
      cases answer with
      | failed raised => exact absurd (deletes_unless.mp hdeletes).2 not_deletes
      | answered status power =>
        obtain ⟨hstopped, hautomatic, htarget, since, hsince, helapsed⟩ :=
          (deletes_enforceRemote hrow (Bool.eq_true_of_not_eq_false hprepaid) (not_not.mp hlisted)
            hwallet).mp hdeletes
        exact ⟨htarget, server, since, {
          row := hrow
          prepaid := Bool.eq_true_of_not_eq_false hprepaid
          zeroSince := hsince
          automatic := hautomatic
          empty := hwallet hautomatic
          resource := Bool.eq_true_of_not_eq_false hresource
          listed := not_not.mp hlisted
          proof := ⟨status, power, rfl, hstopped⟩
          elapsed := helapsed }⟩
    · rintro ⟨htarget, row, since, hdue⟩
      obtain rfl : server = row := Option.some.inj (hrow.symm.trans hdue.row)
      obtain ⟨status, power, rfl, hstopped⟩ := hdue.proof
      have hpast : ¬ world.now < since := by
        have hday : (0 : ℤ) < day := by decide
        have helapsed := hdue.elapsed
        omega
      refine ⟨?_, ?_, ?_, ?_, ?_, ?_⟩
      · rw [hdue.prepaid]
        exact nofun
      · rw [hdue.zeroSince]
        exact fun h ↦ nomatch h.1
      · rw [hdue.zeroSince]
        simpa using hpast
      · rw [hdue.empty]
        exact fun h ↦ nomatch h.2
      · rw [hdue.resource, not_or]
        exact ⟨nofun, not_not.mpr hdue.listed⟩
      · exact (deletes_enforceRemote hrow hdue.prepaid hdue.listed fun _ ↦ hdue.empty).mpr
          ⟨hstopped, hdue.automatic, htarget, since, hdue.zeroSince, hdue.elapsed⟩

end Enforcement

/-! ### The balances that the owner held -/

/-- The owner's balance from some moment on, `none` without a wallet, and whether a pass over the
balances has seen it. -/
structure BalanceStretch where
  since : ℤ
  balance : Option ℤ
  seen : Bool := false
  deriving DecidableEq

/-- The stretches, the newest first, that reach into the time from a moment on. -/
def stretchesFrom (moment : ℤ) : List BalanceStretch → List BalanceStretch
  | [] => []
  | stretch :: rest =>
    stretch :: if stretch.since ≤ moment then [] else stretchesFrom moment rest

/-- The owner had a balance of zero from a moment on. -/
structure ZeroThroughout (stretches : List BalanceStretch) (moment : ℤ) : Prop where
  zero : ∀ stretch ∈ stretchesFrom moment stretches, stretch.balance = some 0
  known : ∃ stretch ∈ stretches, stretch.since ≤ moment

/-- The newest stretch is seen. -/
def markSeen : List BalanceStretch → List BalanceStretch
  | [] => []
  | stretch :: rest => { stretch with seen := true } :: rest

namespace PrepaidWorld

/-- The balance of a server's owner. -/
def ownerBalance (world : PrepaidWorld) (serverId : Uuid) : Option ℤ :=
  (world.servers.get serverId).bind fun server ↦
    (world.wallets.get server.userId).map (·.balance)

/-- The zero watermark of a server. -/
def zeroSince (world : PrepaidWorld) (serverId : Uuid) : Option ℤ :=
  (world.servers.get serverId).bind (·.prepaidZeroSince)

/-- A pass over the balances judges the server: it is prepaid, RUNNING or STOPPED, and its owner's
wallet is in IRT and not negative. -/
def Judges (world : PrepaidWorld) (serverId : Uuid) : Prop :=
  ∃ server wallet, world.servers.get serverId = some server ∧
    server.isPrepaidHourlyIrt = true ∧
    server.state ∈ [ServerLifecycleState.running, .stopped] ∧
    world.wallets.get server.userId = some wallet ∧ wallet.currency = "IRT" ∧ 0 ≤ wallet.balance

instance (world : PrepaidWorld) (serverId : Uuid) : Decidable (world.Judges serverId) :=
  decidable_of_iff ((world.servers.get serverId).any (fun server ↦
      server.isPrepaidHourlyIrt &&
        decide (server.state ∈ [ServerLifecycleState.running, .stopped]) &&
        (world.wallets.get server.userId).any fun wallet ↦
          decide (wallet.currency = "IRT") && decide (0 ≤ wallet.balance)) = true) (by
    simp only [Judges, Option.any_eq_true, Bool.and_eq_true, decide_eq_true_eq]
    constructor
    · rintro ⟨server, hserver, ⟨hprepaid, hstate⟩, wallet, hwallet, hcurrency, hbalance⟩
      exact ⟨server, wallet, hserver, hprepaid, hstate, hwallet, hcurrency, hbalance⟩
    · rintro ⟨server, wallet, hserver, hprepaid, hstate, hwallet, hcurrency, hbalance⟩
      exact ⟨server, hserver, ⟨hprepaid, hstate⟩, wallet, hwallet, hcurrency, hbalance⟩)

end PrepaidWorld

/-- The world, and the balances that the owner of one server has held. -/
structure BalanceWatch where
  world : PrepaidWorld
  stretches : List BalanceStretch

namespace BalanceWatch

/-- One event; a change of the owner's balance starts a stretch. -/
def step (serverId : Uuid) (watch : BalanceWatch) (event : PrepaidEvent) : BalanceWatch :=
  let after := watch.world.step event
  { world := after
    stretches := match event with
      | .saveWallet _ =>
        if after.ownerBalance serverId = watch.world.ownerBalance serverId then watch.stretches
        else ⟨after.now, after.ownerBalance serverId, false⟩ :: watch.stretches
      | .evaluate =>
        if watch.world.Judges serverId then markSeen watch.stretches else watch.stretches
      | _ => watch.stretches }

def start (serverId : Uuid) (world : PrepaidWorld) : BalanceWatch where
  world := world
  stretches := [⟨world.now, world.ownerBalance serverId, false⟩]

end BalanceWatch

/-- A deletion comes after a day at zero, and while the owner is only warned the zero watermark is
neither set nor moved. -/
structure GivesZeroDay (serverId : Uuid) (watch : BalanceWatch) (event : PrepaidEvent) : Prop where
  deletes : ∀ userId key, watch.world.command event = some (.delete userId serverId key) →
    ZeroThroughout watch.stretches (watch.world.now - day)
  warning : ∀ balance, watch.world.ownerBalance serverId = some balance → 0 < balance →
    balance < 200000 → ∀ since, (watch.world.step event).zeroSince serverId = some since →
      watch.world.zeroSince serverId = some since

/-- A pass that is due to delete the server finds every other balance that its owner held within the
last day seen by a pass over the balances. -/
def SeesDay (serverId : Uuid) (watch : BalanceWatch) (event : PrepaidEvent) : Prop :=
  match event with
  | .enforce target unpaid answer _ => target = serverId →
    ∀ server since, Due watch.world serverId unpaid answer server since →
      ∀ stretch ∈ stretchesFrom (watch.world.now - day) watch.stretches,
        stretch.balance ≠ some 0 → stretch.seen = true
  | _ => True

/-! ### The watermark is explained by what was seen -/

/-- The watermark was set in a stretch at zero, and no other balance was seen after it. -/
def Explained (since : ℤ) : List BalanceStretch → Prop
  | [] => False
  | stretch :: rest =>
    stretch.balance = some 0 ∧ stretch.since ≤ since ∨
      (stretch.balance ≠ some 0 → stretch.seen = false) ∧ Explained since rest

theorem Explained.known {since moment : ℤ} (hle : since ≤ moment) {stretches : List BalanceStretch}
    (h : Explained since stretches) : ∃ stretch ∈ stretches, stretch.since ≤ moment := by
  induction stretches with
  | nil => exact h.elim
  | cons stretch rest ih =>
    cases h with
    | inl hzero => exact ⟨stretch, List.mem_cons_self, hzero.2.trans hle⟩
    | inr hlater =>
      obtain ⟨older, hmem, holder⟩ := ih hlater.2
      exact ⟨older, List.mem_cons_of_mem _ hmem, holder⟩

theorem Explained.unseen {since moment : ℤ} (hle : since ≤ moment) {stretches : List BalanceStretch}
    (h : Explained since stretches) : ∀ stretch ∈ stretchesFrom moment stretches,
      stretch.balance ≠ some 0 → stretch.seen = false := by
  induction stretches with
  | nil => exact h.elim
  | cons first rest ih =>
    intro stretch hmem hbalance
    cases List.mem_cons.mp hmem with
    | inl hfirst =>
      subst hfirst
      cases h with
      | inl hzero => exact absurd hzero.1 hbalance
      | inr hlater => exact hlater.1 hbalance
    | inr hrest =>
      by_cases hreaches : first.since ≤ moment
      · rw [if_pos hreaches] at hrest
        exact absurd hrest List.not_mem_nil
      · rw [if_neg hreaches] at hrest
        cases h with
        | inl hzero => exact absurd (hzero.2.trans hle) hreaches
        | inr hlater => exact ih hlater.2 stretch hrest hbalance

/-- The newest stretch is the present one, and the watermark of the row is explained. -/
structure Consistent (serverId : Uuid) (watch : BalanceWatch) : Prop where
  current : ∃ stretch rest, watch.stretches = stretch :: rest ∧
    stretch.balance = watch.world.ownerBalance serverId ∧ stretch.since ≤ watch.world.now
  explained : ∀ since, watch.world.zeroSince serverId = some since →
    Explained since watch.stretches

section Steps

variable {world : PrepaidWorld} {serverId : Uuid}

variable {after : PrepaidWorld}

theorem zeroSince_of_keeps (h : Keeps world.servers after.servers) :
    after.zeroSince serverId = world.zeroSince serverId := by
  have hcontract := congrArg (·.bind (·.prepaidZeroSince)) (h serverId)
  rw [Option.bind_map, Option.bind_map] at hcontract
  exact hcontract

theorem ownerBalance_of_userId (hwallets : after.wallets = world.wallets)
    (h : (after.servers.get serverId).map (·.userId) = (world.servers.get serverId).map (·.userId)) :
     after.ownerBalance serverId = world.ownerBalance serverId := by
  have hbalance := congrArg (·.bind fun userId ↦ (world.wallets.get userId).map (·.balance)) h
  rw [Option.bind_map, Option.bind_map] at hbalance
  unfold PrepaidWorld.ownerBalance
  rw [hwallets]
  exact hbalance

theorem ownerBalance_of_keeps (hwallets : after.wallets = world.wallets)
    (h : Keeps world.servers after.servers) :
    after.ownerBalance serverId = world.ownerBalance serverId := by
  refine ownerBalance_of_userId hwallets ?_
  have hcontract := congrArg (·.map (·.userId)) (h serverId)
  rw [Option.map_map, Option.map_map] at hcontract
  exact hcontract

/-- A decision that leaves a zero watermark was made at a balance of zero. -/
theorem decidePrepaidBalance_zeroSince {balance now since : ℤ} {warningSince zeroSince : Option ℤ}
    {outcome : PrepaidBalanceOutcome}
    (h : decidePrepaidBalance balance warningSince zeroSince now = .ok outcome)
    (hsince : outcome.zeroSince = some since) : balance = 0 ∧ since = zeroSince.getD now := by
  unfold decidePrepaidBalance at h
  by_cases hnegative : balance < 0
  · rw [if_pos hnegative] at h
    exact absurd h raise_ne_ok
  · rw [if_neg hnegative] at h
    by_cases hzero : balance = 0
    · rw [if_pos hzero] at h
      dsimp only at h
      by_cases hfuture : now < zeroSince.getD now
      · rw [if_pos hfuture] at h
        exact absurd h raise_ne_ok
      · rw [if_neg hfuture] at h
        obtain rfl := Except.ok.inj h
        exact ⟨hzero, (Option.some.inj hsince).symm⟩
    · rw [if_neg hzero] at h
      by_cases hlow : balance < 200000
      · rw [if_pos hlow] at h
        obtain rfl := Except.ok.inj h
        exact nomatch hsince
      · rw [if_neg hlow] at h
        obtain rfl := Except.ok.inj h
        exact nomatch hsince

theorem decidePrepaidBalance_error {balance now : ℤ} {warningSince zeroSince : Option ℤ}
    {raised : Raised} (hbalance : 0 ≤ balance)
    (h : decidePrepaidBalance balance warningSince zeroSince now = .error raised) :
    balance = 0 := by
  by_contra hzero
  unfold decidePrepaidBalance at h
  rw [if_neg (not_lt.mpr hbalance), if_neg hzero] at h
  by_cases hlow : balance < 200000
  · rw [if_pos hlow] at h
    exact nomatch h
  · rw [if_neg hlow] at h
    exact nomatch h

theorem ownerBalance_evaluate :
    (world.step .evaluate).ownerBalance serverId = world.ownerBalance serverId := by
  refine ownerBalance_of_userId rfl ?_
  change ((evaluate world.servers world.wallets world.now).1.get serverId).map _ = _
  rw [get_evaluate, Option.map_map]
  refine congrArg (Option.map · _) (funext fun server ↦ ?_)
  rw [Function.comp_apply, marked]
  split
  · split <;> rfl
  · rfl

/-- A watermark after a pass over the balances was there before, or the balance is zero. -/
theorem zeroSince_evaluate {since : ℤ}
    (h : (world.step .evaluate).zeroSince serverId = some since) :
    world.zeroSince serverId = some since ∧ ¬ world.Judges serverId ∨
      world.ownerBalance serverId = some 0 ∧
        (world.zeroSince serverId = some since ∨ since = world.now) := by
  unfold PrepaidWorld.zeroSince at h ⊢
  change ((evaluate world.servers world.wallets world.now).1.get serverId).bind _ = _ at h
  rw [get_evaluate] at h
  cases hrow : world.servers.get serverId with
  | none =>
    rw [hrow] at h
    exact nomatch h
  | some server =>
    rw [hrow, Option.map_some, Option.bind_some, marked] at h
    rw [Option.bind_some]
    by_cases hlisted : server.isPrepaidHourlyIrt = true ∧
        server.state ∈ [ServerLifecycleState.running, .stopped]
    · rw [if_pos hlisted] at h
      cases hjudged : judgeBalance world.wallets world.now server with
      | ok outcome =>
        rw [hjudged] at h
        unfold judgeBalance at hjudged
        cases hwallet : world.wallets.get server.userId with
        | none =>
          rw [hwallet] at hjudged
          exact absurd hjudged raise_ne_ok
        | some wallet =>
          rw [hwallet] at hjudged
          dsimp only at hjudged
          by_cases hcurrency : wallet.currency ≠ "IRT"
          · rw [if_pos hcurrency] at hjudged
            exact absurd hjudged raise_ne_ok
          · rw [if_neg hcurrency] at hjudged
            obtain ⟨hzero, hsince⟩ := decidePrepaidBalance_zeroSince hjudged h
            have howner : world.ownerBalance serverId = some 0 := by
              rw [PrepaidWorld.ownerBalance, hrow, Option.bind_some, hwallet, Option.map_some,
                hzero]
            refine Or.inr ⟨howner, ?_⟩
            cases hold : server.prepaidZeroSince with
            | none =>
              rw [hold] at hsince
              exact Or.inr hsince
            | some old =>
              rw [hold] at hsince
              exact Or.inl (congrArg some hsince.symm)
      | error raised =>
        rw [hjudged] at h
        by_cases hjudges : world.Judges serverId
        · obtain ⟨same, wallet, hsame, -, -, hwallet, hcurrency, hbalance⟩ := hjudges
          obtain rfl := Option.some.inj (hrow.symm.trans hsame)
          rw [judgeBalance, hwallet] at hjudged
          dsimp only at hjudged
          rw [if_neg (not_not.mpr hcurrency)] at hjudged
          have hzero := decidePrepaidBalance_error hbalance hjudged
          refine Or.inr ⟨?_, Or.inl h⟩
          rw [PrepaidWorld.ownerBalance, hrow, Option.bind_some, hwallet, Option.map_some, hzero]
        · exact Or.inl ⟨h, hjudges⟩
    · rw [if_neg hlisted] at h
      refine Or.inl ⟨h, ?_⟩
      rintro ⟨judged, wallet, hjudged, hprepaid, hstate, -⟩
      obtain rfl := Option.some.inj (hrow.symm.trans hjudged)
      exact hlisted ⟨hprepaid, hstate⟩

/-- What an event that does not judge balances does to the watermark and the owner's balance. -/
theorem zeroSince_step {event : PrepaidEvent} (hevaluate : event ≠ .evaluate) :
    (world.step event).zeroSince serverId = world.zeroSince serverId := by
  cases event with
  | elapse microseconds => rfl
  | saveWallet wallet => rfl
  | saveServer copy => exact zeroSince_of_keeps (keeps_saveCopy copy)
  | evaluate => exact absurd rfl hevaluate
  | enforce target unpaid answer effect => exact zeroSince_of_keeps keeps_enforce

/-- While the owner is only warned, the zero watermark is neither set nor moved. -/
theorem zeroSince_of_warned {event : PrepaidEvent} {balance since : ℤ}
    (howner : world.ownerBalance serverId = some balance) (hpositive : 0 < balance)
    (h : (world.step event).zeroSince serverId = some since) :
    world.zeroSince serverId = some since := by
  by_cases hevaluate : event = .evaluate
  · subst hevaluate
    cases zeroSince_evaluate h with
    | inl hold => exact hold.1
    | inr hzero =>
      have hsame := Option.some.inj (howner.symm.trans hzero.1)
      exact absurd hsame (ne_of_gt hpositive)
  · rw [← zeroSince_step hevaluate]
    exact h

theorem consistent_step {watch : BalanceWatch} (h : Consistent serverId watch)
    (event : PrepaidEvent) : Consistent serverId (watch.step serverId event) := by
  obtain ⟨stretch, rest, hstretches, hbalance, hsince⟩ := h.current
  have hexplained := h.explained
  rw [hstretches] at hexplained
  -- Nothing is seen, and the owner's balance stays.
  have hquiet (hevaluate : event ≠ .evaluate) (hsame : (watch.step serverId event).stretches =
        watch.stretches)
      (howner : (watch.world.step event).ownerBalance serverId = watch.world.ownerBalance serverId)
      (hnow : watch.world.now ≤ (watch.world.step event).now) :
      Consistent serverId (watch.step serverId event) :=
    { current := ⟨stretch, rest, hsame.trans hstretches, hbalance.trans howner.symm,
        hsince.trans hnow⟩
      explained := fun since hzero ↦ by
        rw [hsame, hstretches]
        exact hexplained since ((zeroSince_step hevaluate).symm.trans hzero) }
  cases event with
  | elapse microseconds =>
    have hnow : watch.world.now ≤ watch.world.now + microseconds := by omega
    exact hquiet nofun rfl rfl hnow
  | saveServer copy =>
    exact hquiet nofun rfl (ownerBalance_of_keeps rfl (keeps_saveCopy copy)) le_rfl
  | enforce target unpaid answer effect =>
    exact hquiet nofun rfl (ownerBalance_of_keeps rfl keeps_enforce) le_rfl
  | saveWallet wallet =>
    by_cases hchanged : (watch.world.step (.saveWallet wallet)).ownerBalance serverId =
        watch.world.ownerBalance serverId
    · exact hquiet nofun (if_pos hchanged) hchanged le_rfl
    · have hnew : (watch.step serverId (.saveWallet wallet)).stretches =
          ⟨watch.world.now, (watch.world.step (.saveWallet wallet)).ownerBalance serverId, false⟩ ::
            watch.stretches := if_neg hchanged
      refine ⟨⟨_, _, hnew, rfl, le_rfl⟩, fun since hzero ↦ ?_⟩
      rw [hnew, hstretches]
      exact Or.inr ⟨fun _ ↦ rfl, hexplained since hzero⟩
  | evaluate =>
    by_cases hjudges : watch.world.Judges serverId
    · have hseen : (watch.step serverId .evaluate).stretches =
          { stretch with seen := true } :: rest := by
        change (if watch.world.Judges serverId then markSeen watch.stretches else _) = _
        rw [if_pos hjudges, hstretches]
        rfl
      refine ⟨⟨_, _, hseen, hbalance.trans ownerBalance_evaluate.symm, hsince⟩,
        fun since hzero ↦ ?_⟩
      rw [hseen]
      cases zeroSince_evaluate hzero with
      | inl hold => exact absurd hjudges hold.2
      | inr hnew =>
        have hempty : stretch.balance = some 0 := hbalance.trans hnew.1
        cases hnew.2 with
        | inl hold =>
          cases hexplained since hold with
          | inl hset => exact Or.inl hset
          | inr hlater => exact Or.inr ⟨fun hne ↦ absurd hempty hne, hlater.2⟩
        | inr hnow =>
          rw [hnow]
          exact Or.inl ⟨hempty, hsince⟩
    · have hsame : (watch.step serverId .evaluate).stretches = stretch :: rest :=
        (if_neg hjudges).trans hstretches
      refine ⟨⟨stretch, rest, hsame, hbalance.trans ownerBalance_evaluate.symm, hsince⟩,
        fun since hzero ↦ ?_⟩
      rw [hsame]
      cases zeroSince_evaluate hzero with
      | inl hold => exact hexplained since hold.1
      | inr hnew =>
        have hempty : stretch.balance = some 0 := hbalance.trans hnew.1
        cases hnew.2 with
        | inl hold => exact hexplained since hold
        | inr hnow =>
          rw [hnow]
          exact Or.inl ⟨hempty, hsince⟩

theorem givesZeroDay_step_iff {watch : BalanceWatch} (h : Consistent serverId watch)
    (event : PrepaidEvent) : GivesZeroDay serverId watch event ↔ SeesDay serverId watch event := by
  constructor
  · intro hgives
    cases event with
    | enforce target unpaid answer effect =>
      rintro rfl server since hdue stretch hmem hbalance
      obtain ⟨userId, key, hcommand⟩ :=
        deletes_enforce.mpr ⟨rfl, server, since, hdue⟩
      exact absurd ((hgives.deletes userId key hcommand).zero stretch hmem) hbalance
    | elapse microseconds => trivial
    | saveWallet wallet => trivial
    | saveServer copy => trivial
    | evaluate => trivial
  · intro hsees
    refine ⟨fun userId key hcommand ↦ ?_, fun balance howner hpositive _ since hzero ↦
      zeroSince_of_warned howner hpositive hzero⟩
    cases event with
    | enforce target unpaid answer effect =>
      obtain ⟨htarget, server, since, hdue⟩ := deletes_enforce.mp ⟨userId, key, hcommand⟩
      subst htarget
      have hwatermark : watch.world.zeroSince serverId = some since := by
        rw [PrepaidWorld.zeroSince, hdue.row, Option.bind_some, hdue.zeroSince]
      have hold : since ≤ watch.world.now - day := by
        have helapsed := hdue.elapsed
        omega
      have hexplained := h.explained since hwatermark
      refine ⟨fun stretch hmem ↦ ?_, hexplained.known hold⟩
      by_contra hbalance
      have hseen := hsees rfl server since hdue stretch hmem hbalance
      exact Bool.noConfusion (hseen.symm.trans (hexplained.unseen hold stretch hmem hbalance))
    | elapse microseconds => exact nomatch hcommand
    | saveWallet wallet => exact nomatch hcommand
    | saveServer copy => exact nomatch hcommand
    | evaluate => exact nomatch hcommand

end Steps

theorem consistent_start (serverId : Uuid) (now : ℤ)
    (servers : Table fun server : ServerAggregate ↦ server.id) (wallets : WalletRows) :
    Consistent serverId (.start serverId (.start now servers wallets)) := by
  refine ⟨⟨_, _, rfl, rfl, le_rfl⟩, fun since hzero ↦ ?_⟩
  obtain ⟨row, hrow, hsince⟩ := Option.bind_eq_some_iff.mp hzero
  obtain ⟨server, -, rfl⟩ := List.mem_map.mp (Table.mem_of_get hrow)
  exact nomatch hsince

/-- In every run, the owner of a prepaid server has a day at zero before a pass deletes it exactly
if every pass that is due to delete it finds the other balances of the last day seen by the passes
over the balances. -/
theorem givesZeroDay_iff (serverId : Uuid) (now : ℤ)
    (servers : Table fun server : ServerAggregate ↦ server.id) (wallets : WalletRows)
    (events : List PrepaidEvent) :
    Along (BalanceWatch.step serverId) (GivesZeroDay serverId)
        (.start serverId (.start now servers wallets)) events ↔
      Along (BalanceWatch.step serverId) (SeesDay serverId)
        (.start serverId (.start now servers wallets)) events :=
  along_congr (fun _ event h ↦ givesZeroDay_step_iff h event)
    (fun _ event h _ ↦ consistent_step h event) events _
    (consistent_start serverId now servers wallets)

/-! ### A recharge during containment -/

/-- The event is a pass over the balances, or changes a wallet. -/
def PrepaidEvent.isEvaluate : PrepaidEvent → Bool
  | .evaluate => true
  | _ => false

def PrepaidEvent.isSaveWallet : PrepaidEvent → Bool
  | .saveWallet _ => true
  | _ => false

/-- A pass over the balances follows every change of a wallet before the next one. -/
def evaluatesChanges : List PrepaidEvent → Bool
  | [] => true
  | event :: rest =>
    (!event.isSaveWallet ||
      (rest.find? fun later ↦ later.isEvaluate || later.isSaveWallet).any (·.isEvaluate)) &&
        evaluatesChanges rest

namespace ContainedRecharge

def server : ServerAggregate where
  id := ⟨"22222222-2222-4222-8222-222222222222", .refl true⟩
  userId := ⟨"11111111-1111-4111-8111-111111111111", .refl true⟩
  providerKey := "leaseweb"
  state := .stopped
  providerServerId := some "4711"
  billingModel := "hourly_prepaid_irt"

/-- The server under containment. -/
def contained : ServerAggregate :=
  { server with state := .manualReview, containedFrom := some .stopped }

def servers : Table fun server : ServerAggregate ↦ server.id where
  rows := [server]
  unique := List.nodup_singleton _

/-- The owner's wallet with a balance. -/
def wallet (balance : ℤ) : Wallet where
  id := ⟨"33333333-3333-4333-8333-333333333333", .refl true⟩
  userId := server.userId
  balance := balance
  currency := "IRT"

def wallets : WalletRows where
  rows := [wallet 0]
  unique := List.nodup_singleton _

/-- An hour after the balance was seen at zero and the server was contained, the owner recharges,
and holds the money for 22 hours; an hour after it is spent, the server is released. Each change of
the balance is followed by a pass over the balances. -/
def events : List PrepaidEvent :=
  [.evaluate, .saveServer contained, .elapse 3600000000, .saveWallet (wallet 500000), .evaluate,
    .elapse 79200000000, .saveWallet (wallet 0), .evaluate, .elapse 3600000000, .saveServer server,
    .evaluate]

/-- The pass that deletes the server. -/
def deletion : PrepaidEvent :=
  .enforce server.id false (.answered (some "stopped") true) {}

def before : BalanceWatch :=
  .start server.id (.start 1700000000000000 servers wallets)

/-- The row that the deletion finds. -/
def row : PrepaidServer where
  toServerAggregate := { server with
    lowBalanceSince := some 1700000000000000
    updatedAt := some 1700086400000000 }
  prepaidZeroSince := some 1700000000000000

theorem run_events : (run (BalanceWatch.step server.id) before events).world.servers.get server.id =
    some row := by
  decide +kernel

theorem stretches_events : (run (BalanceWatch.step server.id) before events).stretches =
    [⟨1700082800000000, some 0, true⟩, ⟨1700003600000000, some 500000, false⟩,
      ⟨1700000000000000, some 0, true⟩] := by
  decide +kernel

theorem due_deletion : Due (run (BalanceWatch.step server.id) before events).world server.id false
    (.answered (some "stopped") true) row 1700000000000000 where
  row := run_events
  prepaid := by decide +kernel
  zeroSince := rfl
  automatic := rfl
  empty := by decide +kernel
  resource := by decide +kernel
  listed := by decide
  proof := ⟨some "stopped", true, rfl, by decide +kernel⟩
  elapsed := by decide +kernel

/-- The server is deleted an hour after its owner spent what had been recharged. -/
theorem not_givesZeroDay_recharge : evaluatesChanges (events ++ [deletion]) = true ∧
    ¬ Along (BalanceWatch.step server.id) (GivesZeroDay server.id) before
      (events ++ [deletion]) := by
  refine ⟨by decide +kernel, fun h ↦ ?_⟩
  have hlast := ((along_append _ _ events [deletion] before).mp h).2.1
  obtain ⟨userId, key, hcommand⟩ := deletes_enforce.mpr ⟨rfl, row, _, due_deletion⟩
  have hzero := (hlast.deletes userId key hcommand).zero
  have hnow : (run (BalanceWatch.step server.id) before events).world.now = 1700086400000000 := by
    decide +kernel
  rw [stretches_events, hnow] at hzero
  have hheld := hzero ⟨1700003600000000, some 500000, false⟩ (by decide)
  exact absurd hheld (by decide)

end ContainedRecharge

end CloudPlatform.Billing
