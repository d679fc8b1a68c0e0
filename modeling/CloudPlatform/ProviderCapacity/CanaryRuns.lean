import CloudPlatform.ProviderCapacity.CanaryJobs

/-!
# Every interleaving around one account

What the threads know of the account (`CanaryHeard`), that each program keeps to it, and what follows
for every interleaving: the operations that reached the row are one history at a clock that never
goes back (`Recorded`), so there is one canary; and a create through a recovery candidate holds its
lease, as long as no claim meets a candidate in a store that cannot be read and no pooled create
claims one.
-/

namespace CloudPlatform.ProviderCapacity

open Transition

/-! ### What a thread knows -/

/-- The instant that the thread has read, whether it has made a claim, and whether its create would
hold the lease of a candidate. -/
structure CanaryHeard where
  reference : Option ℤ := none
  claimed : Bool := false
  clear : Bool := false

/-- A call at a given instant gives the one that was read, and a create is sent only when it is clear. -/
def canaryPermits (heard : CanaryHeard) : CanaryCall → Prop
  | .repository _ (some now) => heard.reference = some now
  | .createInstance => heard.clear = true
  | _ => True

/-- What a reply tells. -/
def canaryLearns (heard : CanaryHeard) :
    (request : CanaryCall) → Result (CanaryOut request) → CanaryHeard
  | .utcnow, .ok now => { heard with reference := some now }
  | .claimRead, .ok record =>
    { heard with claimed := true, clear := record.all (·.state ≠ .recoveryCandidate) }
  | .claimRead, .error _ => { heard with claimed := true, clear := true }
  | .startAttempt, _ => { heard with claimed := true, clear := true }
  | .repository (.beginCanaryAttempt _ _) _, .ok (some _) =>
    { heard with clear := heard.clear || heard.claimed }
  | _, _ => heard

/-- The rule of the threads. -/
def canaryProtocol : Protocol Raised CanaryCall CanaryOut CanaryHeard where
  permits := canaryPermits
  truthful _ _ := True
  learns := canaryLearns

/-- The operations that reached the row, from the rows that the run started with. -/
structure CanaryShop.Recorded (start : AccountRows) (shop : CanaryShop) : Prop where
  rows : shop.rows = run AccountRows.step start shop.calls
  ordered : Ordered shop.calls
  latest : ∀ event ∈ shop.calls, event.clock.wall ≤ shop.clock

/-- Every create through an account that its claim met as a candidate holds the lease. -/
def CanaryShop.LeasedCreates (shop : CanaryShop) : Prop :=
  ∀ meeting ∈ shop.creates, meeting.candidate = true → meeting.leased = true

/-- A claim that meets a candidate can read it, and is not a pooled one. -/
def canaryAllowed (_ : ℕ) (shop : CanaryShop) : CanaryCall → Prop
  | .claimRead => shop.candidate = true → shop.readable = true
  | .startAttempt => shop.candidate = false
  | _ => True

section Knowledge

variable (start : AccountRows) (guarded : Prop)

/-- The history is recorded; in guarded runs the creates hold their leases. -/
structure CanaryShared (shop : CanaryShop) : Prop where
  recorded : shop.Recorded start
  leased : guarded → shop.LeasedCreates

/-- What a thread has heard is so. -/
structure CanaryKnows (me : ℕ) (shop : CanaryShop) (heard : CanaryHeard) : Prop where
  reference : ∀ now ∈ heard.reference, now ≤ shop.clock
  claimed : heard.claimed = true → (shop.claims me).isSome = true
  clear : guarded → heard.clear = true →
    ∃ meeting ∈ shop.claims me, meeting.candidate = true → meeting.leased = true

end Knowledge

/-! ### One call -/

namespace CanaryShop

section Shop

variable {start : AccountRows} {shop : CanaryShop} {me other : ℕ} {call : CapacityCall}
  {event : CapacityEventAt} {begun : Bool}

theorem meets_claims_of_ne (meeting : CanaryMeeting) (h : other ≠ me) :
    (shop.meets me meeting).claims other = shop.claims other :=
  if_neg h

theorem leasedBy_claims_of_ne (h : other ≠ me) :
    (shop.leasedBy me call begun).claims other = shop.claims other :=
  if_neg h

theorem leasedBy_claims (me : ℕ) (call : CapacityCall) (begun : Bool) :
    (shop.leasedBy me call begun).claims me = (shop.claims me).map (·.next begun call) :=
  if_pos rfl

/-- Time passes. -/
theorem Recorded.tick (h : shop.Recorded start) (elapsed : ℕ) :
    ({ shop with clock := shop.clock + elapsed } : CanaryShop).Recorded start :=
  ⟨h.rows, h.ordered, fun event hevent ↦ (h.latest event hevent).trans
    (show shop.clock ≤ shop.clock + (elapsed : ℤ) by omega)⟩

/-- An operation at the clock reaches the row. -/
theorem Recorded.execute (h : shop.Recorded start) (hwall : event.clock.wall = shop.clock)
    (hnow : event.clock.now ≤ event.clock.wall) : (shop.execute event).Recorded start where
  rows := by
    change shop.rows.step event = run AccountRows.step start (shop.calls ++ [event])
    rw [run_append, ← h.rows]
    rfl
  ordered := by
    refine ⟨List.pairwise_append.mpr ⟨h.ordered.forward, List.pairwise_singleton _ _, ?_⟩, ?_⟩
    · intro earlier hearlier later hlater
      rw [List.mem_singleton.mp hlater, hwall]
      exact h.latest earlier hearlier
    · intro other hother
      obtain hother | hother := List.mem_append.mp hother
      · exact h.ordered.past other hother
      · rw [List.mem_singleton.mp hother]
        exact hnow
  latest := by
    intro other hother
    obtain hother | hother := List.mem_append.mp hother
    · exact h.latest other hother
    · rw [List.mem_singleton.mp hother, hwall]
      rfl

theorem Recorded.leasedBy (h : shop.Recorded start) :
    (shop.leasedBy me call begun).Recorded start :=
  ⟨h.rows, h.ordered, h.latest⟩

theorem Recorded.meets (h : shop.Recorded start) (meeting : CanaryMeeting) :
    (shop.meets me meeting).Recorded start :=
  ⟨h.rows, h.ordered, h.latest⟩

end Shop

end CanaryShop

section Calls

variable {start : AccountRows} {guarded : Prop} {me : ℕ} {request : CanaryCall}
  {oracle : CanaryOracle} {shop : CanaryShop} {heard : CanaryHeard}

/-- The clock after a call. -/
theorem handle_clock : (shop.handle me request oracle).2.clock = shop.clock + oracle.elapsed := by
  cases request with
  | claimRead => simp only [CanaryShop.handle]; split <;> rfl
  | getCapacity => simp only [CanaryShop.handle]; split <;> rfl
  | repository call now =>
    simp only [CanaryShop.handle]
    split
    · rfl
    · split <;> rfl
  | _ => rfl

/-- A call adds at most one operation to the history. -/
theorem handle_recorded (h : shop.Recorded start) (hknows : CanaryKnows guarded me shop heard)
    (hpermits : canaryPermits heard request) :
    (shop.handle me request oracle).2.Recorded start := by
  have htick := h.tick oracle.elapsed
  cases request with
  | claimRead => simp only [CanaryShop.handle]; split <;> exact htick.meets _
  | getCapacity => simp only [CanaryShop.handle]; split <;> exact htick
  | startAttempt => exact htick.meets _
  | repository call now =>
    have hnow : now.getD (shop.clock + oracle.elapsed) ≤ shop.clock + oracle.elapsed := by
      cases now with
      | none => exact le_refl _
      | some now =>
        have hle := hknows.reference now hpermits
        change now ≤ _
        omega
    simp only [CanaryShop.handle]
    split
    · exact (htick.execute rfl hnow).leasedBy
    · split
      · exact htick.execute rfl hnow
      · exact htick
  | utcnow => exact htick
  | firstHourHold => exact htick
  | createInstance => exact ⟨htick.rows, htick.ordered, htick.latest⟩
  | emitSafe => exact htick
  | storeFails => exact ⟨htick.rows, htick.ordered, htick.latest⟩
  | storeRecovers => exact ⟨htick.rows, htick.ordered, htick.latest⟩

/-- A call leaves what the other threads have met. -/
theorem handle_claims_of_ne {other : ℕ} (hne : other ≠ me) :
    (shop.handle me request oracle).2.claims other = shop.claims other := by
  cases request with
  | claimRead =>
    simp only [CanaryShop.handle]
    split <;> exact CanaryShop.meets_claims_of_ne _ hne
  | getCapacity => simp only [CanaryShop.handle]; split <;> rfl
  | startAttempt => exact CanaryShop.meets_claims_of_ne _ hne
  | repository call now =>
    simp only [CanaryShop.handle]
    split
    · exact CanaryShop.leasedBy_claims_of_ne hne
    · split <;> rfl
  | _ => rfl

/-- A create is sent as its claim met the account; no other call sends one. -/
theorem handle_creates (me : ℕ) (request : CanaryCall) (oracle : CanaryOracle) (shop : CanaryShop) :
    (shop.handle me request oracle).2.creates = shop.creates ∨ request = .createInstance ∧
      (shop.handle me request oracle).2.creates = shop.creates ++ (shop.claims me).toList := by
  cases request with
  | claimRead => simp only [CanaryShop.handle]; split <;> exact .inl rfl
  | getCapacity => simp only [CanaryShop.handle]; split <;> exact .inl rfl
  | repository call now =>
    refine .inl ?_
    simp only [CanaryShop.handle]
    split
    · rfl
    · split <;> rfl
  | createInstance => exact .inr ⟨rfl, rfl⟩
  | _ => exact .inl rfl

/-- A reader sees a candidate exactly if one is stored. -/
theorem capacity_candidate_iff (row : CapacityRow) (wall : ℤ) :
    (row.capacity wall).state = .recoveryCandidate ↔
      row.state = AccountCapacityState.recoveryCandidate.value := by
  have hstate : stateOf row.state = .recoveryCandidate ↔
      row.state = AccountCapacityState.recoveryCandidate.value := by
    constructor
    · intro h
      by_contra hother
      rw [stateOf] at h
      simp only [AccountCapacityState.value] at hother
      split at h
      · cases h
      · split at h
        · cases h
        · cases h
    · intro h
      rw [h, stateOf_value]
  rw [CapacityRow.capacity, ← hstate]
  obtain hsame | ⟨hlimit, hunknown⟩ := AccountCapacity.settled_state
    ({ toCapacityFacts := row.toCapacityFacts, state := stateOf row.state } : AccountCapacity) wall
  · rw [hsame]
  · rw [hunknown, show stateOf row.state = .limitReached from hlimit]
    simp

/-- A record that is no candidate was stored as none. -/
theorem candidate_of_record
    (h : shop.record.all (·.state ≠ .recoveryCandidate) = true) : shop.candidate = false := by
  rw [CanaryShop.record] at h
  rw [CanaryShop.candidate]
  cases hrow : shop.rows.row with
  | none => rfl
  | some row =>
    rw [hrow] at h
    simp only [Option.map_some, Option.all_some, ne_eq, decide_not, Bool.not_eq_true',
      decide_eq_false_iff_not, capacity_candidate_iff] at h
    simpa using h

/-- The reply of a begin that returns a record says that it won. -/
theorem wins_of_begin_reply {rows : AccountRows} {clock : Clock} {ref : String} {lease : ℤ}
    {record : AccountCapacity}
    (h : rows.reply clock (.beginCanaryAttempt ref lease) = .ok (some record)) :
    rows.wins ⟨.beginCanaryAttempt ref lease, clock⟩ = true := by
  change (rows.beginCanaryAttempt ref lease clock).map (·.2) = _ at h
  rw [AccountRows.wins]
  cases houtcome : rows.beginCanaryAttempt ref lease clock with
  | error raised =>
    rw [houtcome] at h
    cases h
  | ok pair =>
    rw [houtcome] at h
    have hreply : pair.2 = some record := Except.ok.inj h
    simp [houtcome, returnsRow, hreply]

theorem CanaryMeeting.next_spec {meeting : CanaryMeeting} (begun : Bool) (call : CapacityCall)
    (h : meeting.candidate = true → meeting.leased = true) :
    (meeting.next begun call).candidate = true → (meeting.next begun call).leased = true := by
  cases call with
  | beginCanaryAttempt ref lease =>
    intro hcandidate
    change (meeting.leased || begun) = true
    rw [h hcandidate, Bool.true_or]
  | _ => exact h

/-- What a thread knows, when the clock moves and its own claim stays. -/
theorem CanaryKnows.mono {after : CanaryShop} (h : CanaryKnows guarded me shop heard)
    (hclock : shop.clock ≤ after.clock) (hclaims : after.claims me = shop.claims me) :
    CanaryKnows guarded me after heard where
  reference now hnow := (h.reference now hnow).trans hclock
  claimed hheard := by rw [hclaims]; exact h.claimed hheard
  clear hguarded hheard := by rw [hclaims]; exact h.clear hguarded hheard

/-- What another thread knows stays true. -/
theorem handle_knows_other {other : ℕ} (hne : other ≠ me) (h : CanaryKnows guarded other shop heard) :
    CanaryKnows guarded other (shop.handle me request oracle).2 heard := by
  refine h.mono ?_ (handle_claims_of_ne hne)
  rw [handle_clock]
  omega

/-- What a thread knows right after its claim. -/
theorem knows_of_meets {candidate clear : Bool} {reference : Option ℤ}
    (hreference : ∀ now ∈ reference, now ≤ shop.clock)
    (hclear : guarded → clear = true → candidate = false) :
    CanaryKnows guarded me (shop.meets me { candidate := candidate, leased := false })
      { reference := reference, claimed := true, clear := clear } where
  reference := hreference
  claimed _ := by
    change (if me = me then _ else _ : Option CanaryMeeting).isSome = true
    rw [if_pos rfl]
    rfl
  clear hguarded hheard := by
    refine ⟨{ candidate := candidate, leased := false }, if_pos rfl, fun hcandidate ↦ ?_⟩
    rw [show candidate = true from hcandidate] at hclear
    exact absurd (hclear hguarded hheard) nofun

/-- A failure of the store tells nothing. -/
theorem learns_error {call : CapacityCall} {now : Option ℤ} {raised : Raised}
    (h : CanaryKnows guarded me shop heard) :
    CanaryKnows guarded me shop (canaryLearns heard (.repository call now) (.error raised)) := by
  cases call <;> exact h

/-- What a thread knows stays true over its own operations. -/
theorem CanaryKnows.leasedBy {call : CapacityCall} {begun : Bool}
    (h : CanaryKnows guarded me shop heard) :
    CanaryKnows guarded me (shop.leasedBy me call begun) heard where
  reference := h.reference
  claimed hheard := by
    rw [CanaryShop.leasedBy_claims, Option.isSome_map]
    exact h.claimed hheard
  clear hguarded hheard := by
    obtain ⟨meeting, hmeeting, hleased⟩ := h.clear hguarded hheard
    rw [CanaryShop.leasedBy_claims, Option.mem_def.mp hmeeting]
    exact ⟨_, rfl, CanaryMeeting.next_spec begun call hleased⟩

/-- A begin that won leases the create of a thread that has made a claim. -/
theorem CanaryKnows.begun {ref : String} {lease : ℤ} (h : CanaryKnows guarded me shop heard) :
    CanaryKnows guarded me (shop.leasedBy me (.beginCanaryAttempt ref lease) true)
      { heard with clear := heard.clear || heard.claimed } where
  reference := h.reference
  claimed hheard := h.leasedBy.claimed hheard
  clear hguarded hheard := by
    obtain hclear | hclaimed := (Bool.or_eq_true _ _).mp hheard
    · exact h.leasedBy.clear hguarded hclear
    · obtain ⟨meeting, hmeeting⟩ := Option.isSome_iff_exists.mp (h.claimed hclaimed)
      rw [CanaryShop.leasedBy_claims, hmeeting]
      exact ⟨_, rfl, fun _ ↦ Bool.or_true _⟩

/-- A thread learns from the reply of an operation whether it holds the lease. -/
theorem CanaryKnows.learns_reply (h : CanaryKnows guarded me shop heard) (rows : AccountRows)
    (clock : Clock) (call : CapacityCall) (now : Option ℤ) :
    CanaryKnows guarded me (shop.leasedBy me call (rows.wins ⟨call, clock⟩))
      (canaryLearns heard (.repository call now) (rows.reply clock call)) := by
  cases call with
  | beginCanaryAttempt ref lease =>
    cases hreply : rows.reply clock (.beginCanaryAttempt ref lease) with
    | error raised => exact h.leasedBy
    | ok reply =>
      cases reply with
      | none => exact h.leasedBy
      | some record =>
        rw [wins_of_begin_reply hreply]
        exact h.begun
  | _ => exact h.leasedBy

/-- A thread learns the truth about its claim. -/
theorem handle_learns (h : CanaryKnows guarded me shop heard)
    (hallowed : guarded → canaryAllowed me shop request) :
    CanaryKnows guarded me (shop.handle me request oracle).2
      (canaryLearns heard request (shop.handle me request oracle).1) := by
  have hclock : shop.clock ≤ shop.clock + (oracle.elapsed : ℤ) := by omega
  cases request with
  | utcnow => exact ⟨fun now hnow ↦ by obtain rfl := Option.some.inj hnow; exact le_refl _,
      h.claimed, h.clear⟩
  | claimRead =>
    simp only [CanaryShop.handle]
    split
    · refine knows_of_meets (fun now hnow ↦ (h.reference now hnow).trans hclock) fun _ hclear ↦ ?_
      exact candidate_of_record hclear
    · rename_i hunreadable
      refine knows_of_meets (fun now hnow ↦ (h.reference now hnow).trans hclock) fun hguarded _ ↦ ?_
      by_contra hcandidate
      rw [Bool.not_eq_false] at hcandidate
      exact hunreadable (hallowed hguarded hcandidate)
  | getCapacity =>
    simp only [CanaryShop.handle]
    split <;> exact h.mono hclock rfl
  | repository call now =>
    simp only [CanaryShop.handle]
    split
    · have hexecuted : CanaryKnows guarded me (({ shop with clock := shop.clock + oracle.elapsed } :
          CanaryShop).execute ⟨call, now.getD (shop.clock + oracle.elapsed),
            shop.clock + oracle.elapsed⟩) heard := h.mono hclock rfl
      exact hexecuted.learns_reply shop.rows _ call now
    · refine learns_error ?_
      split
      · exact h.mono hclock rfl
      · exact h.mono hclock rfl
  | startAttempt =>
    exact knows_of_meets (fun now hnow ↦ (h.reference now hnow).trans hclock)
      fun hguarded _ ↦ hallowed hguarded
  | firstHourHold => exact h.mono hclock rfl
  | createInstance => exact h.mono hclock rfl
  | emitSafe => exact h.mono hclock rfl
  | storeFails => exact h.mono hclock rfl
  | storeRecovers => exact h.mono hclock rfl

end Calls

/-- Every permitted call keeps the history, the leases, and what the threads know. -/
theorem canaryProtocol_sound (start : AccountRows) (guarded : Prop) :
    canaryProtocol.Sound CanaryShop.handle (CanaryShared start guarded) (CanaryKnows guarded)
      fun me shop request ↦ guarded → canaryAllowed me shop request where
  truthful _ _ _ _ _ := trivial
  kept me request oracle shop heard hshared hknows hpermits hallowed := by
    refine ⟨handle_recorded hshared.recorded hknows hpermits, fun hguarded ↦ ?_⟩
    obtain hsame | ⟨rfl, hsent⟩ := handle_creates me request oracle shop
    · rw [CanaryShop.LeasedCreates, hsame]
      exact hshared.leased hguarded
    · intro meeting hmeeting
      rw [hsent, List.mem_append, Option.mem_toList] at hmeeting
      obtain hold | hnew := hmeeting
      · exact hshared.leased hguarded meeting hold
      · obtain ⟨known, hknown, hleased⟩ := hknows.clear hguarded hpermits
        obtain rfl := Option.some.inj (hknown.symm.trans hnew)
        exact hleased
  learned me request oracle shop heard _ hknows _ hallowed := handle_learns hknows hallowed
  others me request oracle shop heard _ _ _ _ other hne heard' hother := handle_knows_other hne hother

/-! ### The programs keep to the protocol -/

section Follows

open CanaryJobs

variable {settings : CanarySettings} {order : CanaryOrder} {heard : CanaryHeard}

/-- A thread that goes on with nothing to keep to. -/
abbrev Free {α : Type} (p : CanaryProgram α) (heard : CanaryHeard) : Prop :=
  Follows canaryProtocol (fun _ _ ↦ True) p heard

theorem free_repository (call : CapacityCall) : Free (repository call) heard :=
  ⟨trivial, fun _ _ ↦ trivial⟩

variable {α : Type} {now : ℤ}

theorem free_attempt {p : CanaryProgram α} (h : Free p heard) :
    Free (do let _ ← p.attempt; return ()) heard :=
  follows_attempt (h.mono fun _ _ _ ↦ trivial)

variable (ref : Option String)

theorem free_releaseCanaryLease : Free (releaseCanaryLease ref) heard := by
  cases ref with
  | none => trivial
  | some ref => exact free_attempt (free_repository _)

theorem free_recoverAfterCanary : Free (recoverAfterCanary ref) heard := by
  cases ref with
  | none => trivial
  | some ref => exact free_attempt (free_repository _)

theorem free_recordLimit : Free (recordLimit settings order) heard :=
  free_attempt (free_repository _)

theorem free_storedAttempts : Free storedAttempts heard := by
  refine follows_attempt_perform trivial fun reply _ ↦ ?_
  cases reply with
  | error raised => trivial
  | ok record =>
    cases record with
    | none => trivial
    | some record => trivial

theorem free_recordAccountCapacityLimit :
    Free (recordAccountCapacityLimit settings order ref) heard := by
  cases ref with
  | none => exact free_recordLimit
  | some ref =>
    refine follows_bind (free_storedAttempts.mono fun outcome heard _ ↦ ?_)
    cases outcome with
    | error raised => trivial
    | ok attempts =>
      refine follows_attempt_perform trivial fun reply _ ↦ ?_
      cases reply with
      | error raised => trivial
      | ok record =>
        cases record with
        | none => exact free_recordLimit
        | some record => trivial

theorem free_settleAnswer (answer : CreateAnswer) :
    Free (settleAnswer settings order ref answer) heard := by
  cases answer with
  | accepted => exact free_recoverAfterCanary ref
  | unknown => exact free_releaseCanaryLease (some order.operationKey)
  | capacity => exact free_recordAccountCapacityLimit ref
  | unavailable => trivial
  | refused => exact free_releaseCanaryLease ref
  | raised => trivial

/-- A create that is clear may be sent. -/
theorem free_sendCreate (hclear : heard.clear = true) :
    Free (sendCreate settings order ref) heard :=
  follows_perform hclear (fun answer _ ↦ free_settleAnswer ref answer) fun _ _ ↦ trivial

theorem free_reserveAndSend (hclear : heard.clear = true) :
    Free (reserveAndSend settings order ref) heard := by
  refine follows_perform trivial (fun reserved _ ↦ ?_) fun _ _ ↦ trivial
  cases reserved with
  | true => exact free_sendCreate ref hclear
  | false => exact free_releaseCanaryLease ref

/-- A claim that does not fail the operation has cleared its create. -/
def ClearsUnlessFailed (claim : CanaryClaim) (heard : CanaryHeard) : Prop :=
  (claim.required && !claim.leased) = false → heard.clear = true

theorem follows_leaseClaim (hclaimed : heard.claimed = true) (operationKey : String) :
    Follows canaryProtocol (Returns ClearsUnlessFailed) (leaseClaim settings operationKey)
      heard := by
  refine follows_attempt_perform trivial fun reply _ ↦ ?_
  cases reply with
  | error raised => exact nofun
  | ok record =>
    cases record with
    | none => exact nofun
    | some record =>
      intro _
      change (heard.clear || heard.claimed) = true
      rw [hclaimed, Bool.or_true]

theorem follows_claimCanaryAttempt (operationKey : String) :
    Follows canaryProtocol (Returns ClearsUnlessFailed)
      (claimCanaryAttempt settings operationKey) heard := by
  refine follows_attempt_perform trivial fun reply _ ↦ ?_
  cases reply with
  | error raised => exact fun _ ↦ rfl
  | ok record =>
    cases record with
    | none => exact fun _ ↦ rfl
    | some record =>
      change Follows canaryProtocol (Returns ClearsUnlessFailed)
        (if record.state ≠ .recoveryCandidate then return {} else leaseClaim settings operationKey)
        { heard with claimed := true, clear := decide (record.state ≠ .recoveryCandidate) }
      by_cases hcandidate : record.state = .recoveryCandidate
      · rw [if_neg (not_not.mpr hcandidate)]
        exact follows_leaseClaim rfl operationKey
      · rw [if_pos hcandidate]
        exact fun _ ↦ decide_eq_true hcandidate

theorem free_hourlyCreate : Free (hourlyCreate settings order) heard := by
  refine follows_bind ((follows_claimCanaryAttempt order.operationKey).mono fun outcome heard h ↦ ?_)
  cases outcome with
  | error raised => trivial
  | ok claim =>
    by_cases hfails : (claim.required && !claim.leased) = true
    · simp only [hfails, if_true]
      trivial
    · simp only [hfails]
      have hclear := h (by simpa using hfails)
      by_cases hprepaid : order.prepaid = true
      · simpa [hprepaid] using free_reserveAndSend claim.ref hclear
      · simpa [hprepaid] using free_sendCreate claim.ref hclear

theorem free_pooledCreate (operationKey : String) : Free (pooledCreate operationKey) heard := by
  refine follows_perform trivial (fun _ _ ↦ ?_) fun _ _ ↦ trivial
  refine follows_perform rfl (fun answer _ ↦ ?_) fun _ _ ↦ trivial
  cases answer with
  | unknown => exact free_releaseCanaryLease (some operationKey)
  | unavailable => exact free_releaseCanaryLease (some operationKey)
  | raised => exact free_releaseCanaryLease (some operationKey)
  | accepted => trivial
  | capacity => trivial
  | refused => trivial

/-! ### A pass of the controller -/

/-- The thread still knows the instant of its pass. -/
def AtInstant {α : Type} (now : ℤ) (_ : α) (heard : CanaryHeard) : Prop :=
  heard.reference = some now

/-- The reply of an operation says nothing of the instant. -/
theorem reference_of_repository (heard : CanaryHeard) {call : CapacityCall} {now : Option ℤ}
    (reply : call.Reply) :
    (canaryLearns heard (.repository call now) (.ok reply)).reference = heard.reference := by
  cases call with
  | beginCanaryAttempt ref lease =>
    cases reply with
    | none => rfl
    | some record => rfl
  | _ => rfl

/-- An operation at the instant of the pass. -/
theorem follows_repositoryAt {call : CapacityCall} {Q : α → CanaryHeard → Prop}
    {f : call.Reply → CanaryProgram α} (hnow : heard.reference = some now)
    (hf : ∀ reply heard, AtInstant now reply heard →
      Follows canaryProtocol (Returns Q) (f reply) heard) :
    Follows canaryProtocol (Returns Q) (repositoryAt now call >>= f) heard := by
  refine follows_returns_perform hnow fun reply _ ↦ hf reply _ ?_
  exact (reference_of_repository heard reply).trans hnow

theorem follows_emitSafe {Q : α → CanaryHeard → Prop} {f : Bool → CanaryProgram α}
    (hf : ∀ sent, Follows canaryProtocol (Returns Q) (f sent) heard) :
    Follows canaryProtocol (Returns Q) (perform .emitSafe >>= f) heard :=
  follows_returns_perform trivial fun sent _ ↦ hf sent

theorem follows_takeCensus (hnow : heard.reference = some now) (record : AccountCapacity)
    (inventory : Option (ℤ × String)) :
    Follows canaryProtocol (Returns (AtInstant now)) (takeCensus record now inventory) heard := by
  cases inventory with
  | none => exact hnow
  | some inventory => exact follows_repositoryAt hnow fun _ _ hheard ↦ hheard

theorem follows_notifyOutage (hnow : heard.reference = some now) (record : AccountCapacity) :
    Follows canaryProtocol (Returns (AtInstant now)) (notifyOutage record now) heard := by
  rw [notifyOutage]
  split
  · exact hnow
  · refine follows_emitSafe fun sent ↦ ?_
    cases sent with
    | true => exact follows_repositoryAt hnow fun _ _ hheard ↦ hheard
    | false => exact hnow

theorem follows_remind (hnow : heard.reference = some now) (record : AccountCapacity) :
    Follows canaryProtocol (Returns (AtInstant now)) (remind settings record now) heard := by
  refine follows_returns_lift fun due _ ↦ ?_
  split
  · exact hnow
  · refine follows_emitSafe fun sent ↦ ?_
    cases sent with
    | true => exact follows_repositoryAt hnow fun _ _ hheard ↦ hheard
    | false => exact hnow

theorem follows_scheduleWindow (hnow : heard.reference = some now) (record : AccountCapacity) :
    Follows canaryProtocol (Returns (AtInstant now)) (scheduleWindow settings record now) heard := by
  rw [scheduleWindow]
  split
  · exact hnow
  · exact follows_repositoryAt hnow fun _ _ hheard ↦ hheard

theorem follows_openWindow (hnow : heard.reference = some now) (record : AccountCapacity) :
    Follows canaryProtocol (Returns (AtInstant now)) (openWindow record now) heard := by
  rw [openWindow]
  split
  · exact follows_repositoryAt hnow fun _ _ hheard ↦ hheard
  · exact hnow

theorem follows_evaluateBlocked (hnow : heard.reference = some now) (record : AccountCapacity)
    (inventory : Option (ℤ × String)) :
    Follows canaryProtocol (Returns (AtInstant now)) (evaluateBlocked settings record inventory now)
      heard := by
  refine follows_returns_bind (follows_takeCensus hnow record inventory) fun record _ hcensus ↦ ?_
  refine follows_returns_bind (follows_notifyOutage hcensus record) fun _ _ hnotified ↦ ?_
  refine follows_returns_bind (follows_remind hnotified record) fun _ _ hreminded ↦ ?_
  refine follows_returns_bind (follows_scheduleWindow hreminded record) fun record _ hscheduled ↦ ?_
  exact follows_openWindow hscheduled record

theorem free_recoveryPass (inventory : Option (ℤ × String)) :
    Free (recoveryPass settings inventory) heard := by
  refine follows_perform trivial (fun now _ ↦ ?_) fun _ _ ↦ trivial
  refine follows_attempt_perform trivial fun reply _ ↦ ?_
  cases reply with
  | error raised => trivial
  | ok record =>
    cases record with
    | none => trivial
    | some record =>
      by_cases hblocked : record.isLimitReached now = true
      · simp only [hblocked, if_true]
        exact (follows_evaluateBlocked rfl record inventory).mono fun _ _ _ ↦ trivial
      · simp only [hblocked]
        trivial

/-- Every thread keeps to the protocol. -/
theorem free_program (entry : CanaryJobs.Entry) : Free (program settings entry) heard := by
  cases entry with
  | hourlyCreate order => exact free_hourlyCreate
  | pooledCreate operationKey => exact free_pooledCreate operationKey
  | recoveryPass inventory => exact free_recoveryPass inventory
  | operation call =>
    exact follows_bind ((free_repository call).mono fun outcome _ _ ↦ by cases outcome <;> trivial)
  | storeFails => exact ⟨trivial, fun _ _ ↦ trivial⟩
  | storeRecovers => exact ⟨trivial, fun _ _ ↦ trivial⟩

end Follows

/-! ### Every interleaving -/

section Interleavings

open CanaryJobs

/-- The pool of the threads around the account. -/
abbrev CanaryPool :=
  Pool Raised CanaryCall CanaryOut CanaryShop

/-- One event of the pool. -/
abbrev canaryStep (settings : CanarySettings) (pool : CanaryPool)
    (event : PoolEvent CanaryJobs.Entry CanaryOracle) : CanaryPool :=
  pool.step CanaryShop.handle (program settings) event

/-- An account with the rows, at an instant, before any thread. -/
def CanaryPool.fresh (start : AccountRows) (now : ℤ) : CanaryPool :=
  ⟨{ rows := start, clock := now }, []⟩

instance (me : ℕ) (shop : CanaryShop) : (request : CanaryCall) → Decidable (canaryAllowed me shop request)
  | .claimRead => inferInstanceAs (Decidable (_ → _))
  | .startAttempt => inferInstanceAs (Decidable (_ = _))
  | .utcnow | .getCapacity | .repository _ _ | .firstHourHold | .createInstance | .emitSafe
  | .storeFails | .storeRecovers => inferInstanceAs (Decidable True)

/-- A claim that meets a candidate can read it, and is not a pooled one. -/
def ReadableClaims (pool : CanaryPool) (event : PoolEvent CanaryJobs.Entry CanaryOracle) : Prop :=
  pool.Allowed (fun _ ↦ True) canaryAllowed event

instance (pool : CanaryPool) (event : PoolEvent CanaryJobs.Entry CanaryOracle) :
    Decidable (ReadableClaims pool event) :=
  inferInstanceAs (Decidable (pool.Allowed (fun _ ↦ True) canaryAllowed event))

/-- The shared part of every state of a run. -/
theorem throughout_canaryShared (settings : CanarySettings) (start : AccountRows) (now : ℤ)
    (guarded : Prop) (events : List (PoolEvent CanaryJobs.Entry CanaryOracle)) (hallowed : guarded →
      Along (canaryStep settings) ReadableClaims (CanaryPool.fresh start now) events) :
    Throughout (canaryStep settings) (fun pool ↦ CanaryShared start guarded pool.shared)
      (CanaryPool.fresh start now) events := by
  have hstart : CanaryShared start guarded ({ rows := start, clock := now } : CanaryShop) :=
    ⟨⟨rfl, ⟨List.Pairwise.nil, fun _ h ↦ (by cases h)⟩, fun _ h ↦ (by cases h)⟩,
      fun _ _ h ↦ (by cases h)⟩
  have hknows : ∀ me (entry : CanaryJobs.Entry) (shop : CanaryShop), CanaryShared start guarded shop →
      CanaryKnows guarded me shop {} :=
    fun _ _ _ _ ↦ ⟨fun _ h ↦ (by cases h), (nofun), fun _ ↦ (nofun)⟩
  have hcalls : Along (Pool.step CanaryShop.handle (program settings)) (Pool.Allowed (fun _ ↦ True)
      fun me shop request ↦ guarded → canaryAllowed me shop request)
      ⟨({ rows := start, clock := now } : CanaryShop), []⟩ events := by
    by_cases hguarded : guarded
    · exact (hallowed hguarded).mono fun pool event h ↦ h.mono fun _ _ _ hcall _ ↦ hcall
    · exact (Pool.along_allowed_true _ _ events _).mono fun pool event h ↦
        h.mono fun _ _ _ _ hguard ↦ absurd hguard hguarded
  exact Pool.throughout_of_follows (canaryProtocol_sound start guarded) (fun _ ↦ {})
    (fun entry _ ↦ free_program entry) hknows events _ hstart hcalls

/-- For every interleaving of creates, passes and other operations, each stopping anywhere: there is
one canary; and as long as no claim meets a candidate in an unreadable store and no pooled create
claims one, every create through a candidate holds its lease. -/
theorem oneCanary_interleaved (settings : CanarySettings) (now : ℤ)
    (events : List (PoolEvent CanaryJobs.Entry CanaryOracle)) :
    Throughout (canaryStep settings)
        (fun pool ↦ pool.shared.Recorded {} ∧ OneCanary pool.shared.calls)
        (CanaryPool.fresh {} now) events ∧
      (Along (canaryStep settings) ReadableClaims (CanaryPool.fresh {} now) events →
        Throughout (canaryStep settings) (fun pool ↦ pool.shared.LeasedCreates)
          (CanaryPool.fresh {} now) events) := by
  constructor
  · exact (throughout_canaryShared settings {} now False events (nofun)).mono
      fun pool h ↦ ⟨h.recorded, oneCanary h.recorded.ordered⟩
  · intro hreadable
    exact (throughout_canaryShared settings {} now True events fun _ ↦ hreadable).mono
      fun pool h ↦ h.leased trivial

/-- A thread, and what the environment decides of its calls. -/
def threadOf (index : ℕ) (entry : CanaryJobs.Entry) (oracles : List CanaryOracle) :
    List (PoolEvent CanaryJobs.Entry CanaryOracle) :=
  .spawn entry :: oracles.map (.advance index)

/-- Two delays, for the first refusal of a canary and for the others. -/
def twoDelays : CanarySettings where
  backoff := { offsets := [900, 1800], offsets_ne_nil := by decide, offsets_min := by decide }

/-- A refusal, and the pass that opens its window when that is due. -/
def openedWindow : List (PoolEvent CanaryJobs.Entry CanaryOracle) :=
  threadOf 0 (.operation (.recordLimitReached {} 3600)) [{}] ++
    threadOf 1 (.operation (.scheduleRecovery 900)) [{}] ++
    threadOf 2 (.recoveryPass none) [{ elapsed := 900000000 }, {}, { succeeds := false }, {}]

/-- A create through the candidate claims the lease and sends. -/
theorem oneCanary_interleaved_leased :
    Throughout (canaryStep twoDelays) (fun pool ↦ pool.shared.LeasedCreates)
      (CanaryPool.fresh {} 0)
      (openedWindow ++ threadOf 3 (.hourlyCreate { operationKey := "server-create:1" }) [{}, {}, {}]) :=
  (oneCanary_interleaved twoDelays 0 _).2 (by decide +kernel)

/-- A create whose claim cannot read the store sends through the candidate without a lease. -/
theorem not_oneCanary_unreadable :
    ¬ Throughout (canaryStep twoDelays) (fun pool ↦ pool.shared.LeasedCreates)
      (CanaryPool.fresh {} 0)
      (openedWindow ++ threadOf 3 .storeFails [{}] ++
        threadOf 4 (.hourlyCreate { operationKey := "server-create:1" }) [{}, {}]) := by
  intro h
  have hcreates : (run (canaryStep twoDelays) (CanaryPool.fresh {} 0) (openedWindow ++
      threadOf 3 .storeFails [{}] ++
        threadOf 4 (.hourlyCreate { operationKey := "server-create:1" }) [{}, {}])).shared.creates =
      [⟨true, false⟩] := by decide +kernel
  have hlast := (throughout_iff_forall_take _ _ _ _).mp h 14
  have hleased := hlast ⟨true, false⟩ (by
    rw [List.take_of_length_le (by decide), hcreates]
    exact List.mem_singleton_self _) rfl
  cases hleased

/-- In every run of passes, creates and other operations around an account within one outage, the
delay of a refusal elapses before the next window, if every census that comes out below the baseline
after the refusal is below every census before it. -/
theorem passes_honourBackoff (settings : CanarySettings) (start : AccountRows) (now : ℤ)
    (events : List (PoolEvent CanaryJobs.Entry CanaryOracle))
    (houtage : Along AccountRows.step (fun rows event ↦ ¬ rows.Proves event) start
      (run (canaryStep settings) (CanaryPool.fresh start now) events).shared.calls)
    (hnew : DecreasesAreNew start
      (run (canaryStep settings) (CanaryPool.fresh start now) events).shared.calls) :
    (run (canaryStep settings) (CanaryPool.fresh start now) events).shared.Recorded start ∧
      HonoursBackoff start
        (run (canaryStep settings) (CanaryPool.fresh start now) events).shared.calls := by
  have hrecorded := throughout_canaryShared settings start now False events (nofun)
  rw [throughout_iff_forall_take] at hrecorded
  have hlast := (hrecorded events.length).recorded
  rw [List.take_length] at hlast
  exact ⟨hlast, honoursBackoff start _ houtage hnew⟩

/-- The canary of an opened window is refused, and passes without a census go on. -/
def refusedCanary : List (PoolEvent CanaryJobs.Entry CanaryOracle) :=
  openedWindow ++
    threadOf 3 (.hourlyCreate { operationKey := "server-create:1" })
      [{}, {}, { answer := .capacity }, {}, {}] ++
    threadOf 4 (.recoveryPass none) [{ elapsed := 60000000 }, {}, { succeeds := false }] ++
    threadOf 5 (.recoveryPass none) [{ elapsed := 900000000 }, {}, { succeeds := false }, {}]

/-- Without a census no decrease is reported. -/
theorem decreasesAreNew_of_no_census {start : AccountRows} {calls : List CapacityEventAt}
    (h : censuses calls = []) : DecreasesAreNew start calls := by
  intro before refusal between census after delay count hcalls _ _ hbelow
  obtain ⟨⟨hash, hcall⟩, -⟩ := hbelow
  have hcount : count ∈ censuses calls :=
    List.mem_filterMap.mpr ⟨census, by simp [hcalls], by rw [hcall]⟩
  rw [h] at hcount
  cases hcount

theorem passes_honourBackoff_refused :
    (run (canaryStep twoDelays) (CanaryPool.fresh {} 0) refusedCanary).shared.calls.length = 6 ∧
      HonoursBackoff {}
        (run (canaryStep twoDelays) (CanaryPool.fresh {} 0) refusedCanary).shared.calls :=
  ⟨by decide +kernel, (passes_honourBackoff twoDelays {} 0 refusedCanary (by decide +kernel)
    (decreasesAreNew_of_no_census (by decide +kernel))).2⟩

/-- Passes that read ten instances and then nine, the canary that the freed instance brings forward
and the provider refuses, and a pass that reads nine again a minute later. -/
def spentDecrease : List (PoolEvent CanaryJobs.Entry CanaryOracle) :=
  threadOf 0 (.operation (.recordLimitReached {} 3600)) [{}] ++
    threadOf 1 (.recoveryPass (some (10, "a"))) [{}, {}, {}, { succeeds := false }, {}] ++
    threadOf 2 (.recoveryPass (some (9, "b")))
      [{ elapsed := 60000000 }, {}, {}, { succeeds := false }, {}] ++
    threadOf 3 (.hourlyCreate { operationKey := "server-create:1" })
      [{ elapsed := 60000000 }, {}, { answer := .capacity }, {}, {}] ++
    threadOf 4 (.recoveryPass (some (9, "b")))
      [{ elapsed := 60000000 }, {}, {}, { succeeds := false }, {}]

/-- The operations up to the refusal of the canary. -/
def beforeRefusal : List CapacityEventAt :=
  [⟨.recordLimitReached {} 3600, ⟨0, 0⟩⟩, ⟨.recordInventoryCensus 10 "a", ⟨0, 0⟩⟩,
    ⟨.scheduleRecovery 900, ⟨0, 0⟩⟩, ⟨.recordInventoryCensus 9 "b", ⟨60000000, 60000000⟩⟩,
    ⟨.openRecoveryWindow, ⟨60000000, 60000000⟩⟩,
    ⟨.beginCanaryAttempt "server-create:1" 900, ⟨120000000, 120000000⟩⟩]

/-- The decrease that was spent on the first canary opens the window again before the delay of its
refusal is over. -/
theorem not_honoursBackoff_spentDecrease :
    Along AccountRows.step (fun rows event ↦ ¬ rows.Proves event) {}
        (run (canaryStep twoDelays) (CanaryPool.fresh {} 0) spentDecrease).shared.calls ∧
      ¬ HonoursBackoff {}
        (run (canaryStep twoDelays) (CanaryPool.fresh {} 0) spentDecrease).shared.calls := by
  refine ⟨by decide +kernel, fun h ↦ ?_⟩
  have hcalls : (run (canaryStep twoDelays) (CanaryPool.fresh {} 0) spentDecrease).shared.calls =
      beforeRefusal ++ ⟨.recordCanaryRefusal "server-create:1" {} 900 3600, ⟨120000000, 120000000⟩⟩ ::
        [⟨.recordInventoryCensus 9 "b", ⟨180000000, 180000000⟩⟩] ++
          ⟨.openRecoveryWindow, ⟨180000000, 180000000⟩⟩ :: [] := by decide +kernel
  obtain hforward | ⟨count, hcount, hlower⟩ | helapsed :=
    h beforeRefusal _ _ _ [] 900 hcalls ⟨⟨_, _, _, rfl⟩, by decide +kernel⟩
      ⟨fun hopens ↦ (nomatch hopens.1), trivial⟩ ⟨rfl, by decide +kernel⟩
  · obtain ⟨event, hevent, hcall⟩ := hforward
    rw [List.mem_singleton.mp hevent] at hcall
    cases hcall
  · have hnine := hlower 9 (by decide)
    rw [List.mem_singleton.mp (show count ∈ [(9 : ℤ)] from hcount)] at hnine
    exact absurd hnine (lt_irrefl 9)
  · exact absurd helapsed (by decide)

end Interleavings

end CloudPlatform.ProviderCapacity
