import CloudPlatform.ProviderCapacity.Repository
import Mathlib.Data.Finset.Max

/-!
# The backfill of past refusals

`CapacityReconciliationService.run` records the refusals that past operations prove, one after
another. What they leave of an account is a closed form of the account before and of the latest
refusal that counts: `outlook_backfill`. It does not depend on the order, nor on how often a refusal
is recorded.
-/

namespace CloudPlatform.ProviderCapacity

open Billing (addSeconds)

/-! ### The service -/

/-- What a backfill reports. -/
structure CapacityBackfillReport where
  applied : List AccountCapacityState := []
  alreadyRecorded : List String := []
  failed : List String := []

/-- A past refusal, and the clock of the machines when it is recorded. -/
structure BackfillItem where
  evidence : HistoricalCapacityEvidence
  wall : ℤ
  deriving DecidableEq

namespace AccountRows

/-- One item of `run`: a failure to record it is reported. -/
def runItem (ttlSeconds now : ℤ) (state : AccountRows × CapacityBackfillReport)
    (item : BackfillItem) : AccountRows × CapacityBackfillReport :=
  let (rows, report) := state
  let ref := item.evidence.sourceRef
  match rows.recordHistoricalEvidence item.evidence ttlSeconds ⟨now, item.wall⟩ with
  | .error _ => (rows, { report with failed := report.failed ++ [ref] })
  | .ok (rows, none) => (rows, { report with alreadyRecorded := report.alreadyRecorded ++ [ref] })
  | .ok (rows, some record) =>
    (rows, { report with applied := report.applied ++ [record.state] })

/-- `CapacityReconciliationService.run` for the refusals of one account. -/
def runBackfill (rows : AccountRows) (ttlSeconds now : ℤ) (items : List BackfillItem) :
    AccountRows × CapacityBackfillReport :=
  items.foldl (runItem ttlSeconds now) (rows, {})

/-- The account after one refusal. -/
def recorded (ttlSeconds now : ℤ) (rows : AccountRows) (item : BackfillItem) : AccountRows :=
  match rows.recordHistoricalEvidence item.evidence ttlSeconds ⟨now, item.wall⟩ with
  | .error _ => rows
  | .ok (rows, _) => rows

/-- The account after a list of refusals. -/
def backfill (rows : AccountRows) (ttlSeconds now : ℤ) (items : List BackfillItem) : AccountRows :=
  items.foldl (recorded ttlSeconds now) rows

/-- The account after a run is the account after its refusals. -/
theorem runBackfill_rows (rows : AccountRows) (ttlSeconds now : ℤ) (items : List BackfillItem) :
    (rows.runBackfill ttlSeconds now items).1 = rows.backfill ttlSeconds now items := by
  have hitem (state : AccountRows × CapacityBackfillReport) (item : BackfillItem) :
      (runItem ttlSeconds now state item).1 = recorded ttlSeconds now state.1 item := by
    unfold runItem recorded
    dsimp only
    split <;> simp_all
  have hall (state : AccountRows × CapacityBackfillReport) :
      (items.foldl (runItem ttlSeconds now) state).1 = state.1.backfill ttlSeconds now items := by
    induction items generalizing state with
    | nil => rfl
    | cons item rest ih =>
      rw [List.foldl_cons, ih, hitem]
      rfl
  exact hall (rows, {})

end AccountRows

/-! ### The outlook of an account -/

/-- The state without the freshness of its evidence. -/
def AccountCapacityState.lasting : AccountCapacityState → AccountCapacityState
  | .limitReached => .unknownAfterLimit
  | state => state

/-- What of a row the backfill is to leave alike: its lasting state and its window. -/
structure Outlook where
  state : AccountCapacityState
  observedAt : Option ℤ
  expiresAt : Option ℤ

def CapacityRow.outlook (row : CapacityRow) : Outlook where
  state := (stateOf row.state).lasting
  observedAt := row.observedAt
  expiresAt := row.expiresAt

/-- The instant of a refusal; one without an instant is taken at the reference time. -/
def HistoricalCapacityEvidence.instant (evidence : HistoricalCapacityEvidence) (now : ℤ) : ℤ :=
  evidence.observedAt.getD now

/-- The refusal has a valid window and a valid observation. -/
def HistoricalCapacityEvidence.Recordable (evidence : HistoricalCapacityEvidence)
    (ttlSeconds now : ℤ) : Prop :=
  minLimitTtlSeconds ≤ ttlSeconds ∧
    Calendar.InRange (evidence.instant now + ttlSeconds * Calendar.second) ∧
      notBlank evidence.errorCode = true ∧ notBlank evidence.correlationId = true

namespace AccountRows

variable (rows : AccountRows) (ttlSeconds now : ℤ)

/-- The refusal is in the evidence log already. -/
def Known (evidence : HistoricalCapacityEvidence) : Prop :=
  ∃ event ∈ rows.events, event.kind = .backfill ∧ event.sourceRef = some evidence.sourceRef

/-- The refusal is later than the last proof of recovery of a healthy account, or as late as the
evidence of any other. -/
def Counts (evidence : HistoricalCapacityEvidence) : Prop :=
  match rows.row with
  | none => True
  | some row =>
    if stateOf row.state = .healthy then ∀ cleared ∈ rows.clearedAt, cleared < evidence.instant now
    else ∀ observed ∈ row.observedAt, observed ≤ evidence.instant now

/-- The outlook of an account after a refusal of an instant. -/
def blockedAt (instant : ℤ) : Outlook where
  state := .unknownAfterLimit
  observedAt := some instant
  expiresAt := some (instant + ttlSeconds * Calendar.second)

end AccountRows

section Step

variable {rows : AccountRows} {ttlSeconds now : ℤ} {item : BackfillItem}

theorem lasting_settled (record : AccountCapacity) (wall : ℤ) :
    (record.settled wall).state.lasting = record.state.lasting := by
  rcases record.settled_state wall with hsame | ⟨hlimit, hunknown⟩
  · rw [hsame]
  · rw [hlimit, hunknown]
    rfl

variable {evidence : HistoricalCapacityEvidence} {record : AccountCapacity}

/-- A refusal is recorded only with a valid window and a valid observation. -/
theorem recordable_of_ok {clock : Clock} {result : AccountRows × Option AccountCapacity}
    (h : rows.recordHistoricalEvidence evidence ttlSeconds clock = .ok result) :
    evidence.Recordable ttlSeconds clock.now := by
  obtain ⟨ttl, httl, h⟩ := bind_eq_ok.mp h
  obtain ⟨hmin, hdone⟩ := rejectIf_bind_eq_ok.mp httl
  obtain rfl := pure_eq_ok.mp hdone
  obtain ⟨expiresAt, hexpires, h⟩ := bind_eq_ok.mp h
  have hrange := Billing.addSeconds_inRange hexpires
  rw [Billing.addSeconds_eq_ok hexpires] at hrange
  obtain ⟨observation, hobservation, -⟩ := bind_eq_ok.mp h
  refine ⟨by simpa using hmin, hrange, ?_⟩
  unfold HistoricalCapacityEvidence.asObservation CapacityObservation.ofTexts at hobservation
  by_cases herror : notBlank evidence.errorCode = true
  · by_cases hcorrelation : notBlank evidence.correlationId = true
    · exact ⟨herror, hcorrelation⟩
    · rw [dif_pos herror, dif_neg hcorrelation] at hobservation
      cases hobservation
  · rw [dif_neg herror] at hobservation
    cases hobservation

theorem recorded_of_not_recordable (h : ¬ item.evidence.Recordable ttlSeconds now) :
    rows.recorded ttlSeconds now item = rows := by
  unfold AccountRows.recorded
  cases hresult : rows.recordHistoricalEvidence item.evidence ttlSeconds ⟨now, item.wall⟩ with
  | error raised => rfl
  | ok result => exact absurd (recordable_of_ok hresult) h

theorem appendOnce_of_known {event : CapacityEvent} (hkind : event.kind = .backfill)
    (href : event.sourceRef = some evidence.sourceRef) (h : rows.Known evidence) :
    AccountRows.appendOnce rows.events event = none := by
  unfold AccountRows.appendOnce
  refine if_pos ⟨by rw [href]; rfl, List.any_eq_true.mpr ?_⟩
  obtain ⟨other, hother, hotherKind, hotherRef⟩ := h
  exact ⟨other, hother, by simp [hkind, href, hotherKind, hotherRef]⟩

theorem appendOnce_of_not_known {event : CapacityEvent} (hkind : event.kind = .backfill)
    (href : event.sourceRef = some evidence.sourceRef) (h : ¬ rows.Known evidence) :
    AccountRows.appendOnce rows.events event = some (event :: rows.events) := by
  unfold AccountRows.appendOnce
  refine if_neg fun ⟨_, hany⟩ ↦ h ?_
  obtain ⟨other, hother, hsame⟩ := List.any_eq_true.mp hany
  rw [hkind, href, decide_eq_true_iff] at hsame
  exact ⟨other, hother, hsame⟩

theorem recorded_of_known (h : rows.Known item.evidence) :
    rows.recorded ttlSeconds now item = rows := by
  unfold AccountRows.recorded
  cases hresult : rows.recordHistoricalEvidence item.evidence ttlSeconds ⟨now, item.wall⟩ with
  | error raised => rfl
  | ok result =>
    obtain ⟨ttl, -, hbody⟩ := bind_eq_ok.mp hresult
    obtain ⟨expiresAt, -, hbody⟩ := bind_eq_ok.mp hbody
    obtain ⟨observation, -, hbody⟩ := bind_eq_ok.mp hbody
    dsimp only at hbody
    rw [appendOnce_of_known ?_ ?_ h] at hbody
    · obtain rfl := pure_eq_ok.mp hbody
      rfl
    · rfl
    · rfl

theorem settled_healthy {wall : ℤ} :
    (record.settled wall).state = .healthy ↔ record.state = .healthy := by
  rcases record.settled_state wall with hsame | ⟨hlimit, hunknown⟩
  · rw [hsame]
  · rw [hlimit, hunknown]
    decide

/-- An older refusal of an account that is not healthy leaves its outlook. -/
theorem withLimitReached_older (observation : CapacityObservation)
    (httl : minLimitTtlSeconds ≤ ttlSeconds) {instant : ℤ} (wall : ℤ)
    (hstate : record.state ≠ .healthy) (hold : record.observedAt.any (instant < ·) = true) :
    ∃ updated, record.withLimitReached observation ttlSeconds instant wall = .ok updated ∧
      updated.state.lasting = record.state.lasting ∧ updated.observedAt = record.observedAt ∧
        updated.expiresAt = record.expiresAt := by
  have hfacts := record.settled_facts wall
  have hobserved : (record.settled wall).observedAt = record.observedAt :=
    congrArg CapacityFacts.observedAt hfacts
  unfold AccountCapacity.withLimitReached
  rw [validateLimitTtl_of_le httl, ok_bind]
  dsimp only
  rw [if_pos ⟨by rw [hobserved]; exact hold, fun hhealthy ↦ hstate (settled_healthy.mp hhealthy)⟩]
  have hexpires : (record.settled wall).expiresAt = record.expiresAt :=
    congrArg CapacityFacts.expiresAt hfacts
  exact ⟨_, rfl, lasting_settled record wall, hobserved, hexpires⟩

/-- Any other refusal opens its window. -/
theorem withLimitReached_newer (observation : CapacityObservation)
    (httl : minLimitTtlSeconds ≤ ttlSeconds) {instant expiresAt : ℤ}
    (hexpires : addSeconds instant ttlSeconds = .ok expiresAt) (wall : ℤ)
    (hnew : record.state ≠ .healthy → record.observedAt.any (instant < ·) = false) :
    ∃ updated, record.withLimitReached observation ttlSeconds instant wall = .ok updated ∧
      updated.state = .limitReached ∧ updated.observedAt = some instant ∧
        updated.expiresAt = some expiresAt := by
  have hobserved : (record.settled wall).observedAt = record.observedAt :=
    congrArg CapacityFacts.observedAt (record.settled_facts wall)
  unfold AccountCapacity.withLimitReached
  rw [validateLimitTtl_of_le httl, ok_bind]
  dsimp only
  rw [if_neg ?_, hexpires, ok_bind]
  · exact ⟨_, rfl, rfl, rfl, rfl⟩
  · rintro ⟨hold, hstate⟩
    rw [hobserved, hnew fun hhealthy ↦ hstate (settled_healthy.mpr hhealthy)] at hold
    cases hold

theorem outlook_reconciled (row : CapacityRow) (updated : AccountCapacity) :
    (AccountRows.reconciled row updated).outlook =
      ⟨updated.state.lasting, updated.observedAt, updated.expiresAt⟩ := by
  unfold CapacityRow.outlook AccountRows.reconciled
  rw [stateOf_value]

theorem counts_of_healthy {row : CapacityRow} (hrow : rows.row = some row)
    (hhealthy : stateOf row.state = .healthy) (evidence : HistoricalCapacityEvidence) :
    rows.Counts now evidence ↔ rows.clearedAt.any (evidence.instant now ≤ ·) = false := by
  unfold AccountRows.Counts
  rw [hrow]
  dsimp only
  rw [if_pos hhealthy]
  cases rows.clearedAt <;> simp

theorem counts_of_not_healthy {row : CapacityRow} (hrow : rows.row = some row)
    (hhealthy : stateOf row.state ≠ .healthy) (evidence : HistoricalCapacityEvidence) :
    rows.Counts now evidence ↔ row.observedAt.any (evidence.instant now < ·) = false := by
  unfold AccountRows.Counts
  rw [hrow]
  dsimp only
  rw [if_neg hhealthy]
  cases row.observedAt <;> simp

theorem recorded_of_fresh (h : item.evidence.Recordable ttlSeconds now)
    (hnew : ¬ rows.Known item.evidence) : (∃ event : CapacityEvent, event.kind = .backfill ∧
      event.sourceRef = some item.evidence.sourceRef ∧
        (rows.recorded ttlSeconds now item).events = event :: rows.events) ∧
    (rows.Counts now item.evidence → (rows.recorded ttlSeconds now item).row.map
      CapacityRow.outlook = some (AccountRows.blockedAt ttlSeconds (item.evidence.instant now))) ∧
    (¬ rows.Counts now item.evidence → (rows.recorded ttlSeconds now item).row.map
      CapacityRow.outlook = rows.row.map CapacityRow.outlook) := by
  obtain ⟨hmin, hrange, herror, hcorrelation⟩ := h
  have httl := validateLimitTtl_of_le hmin
  have hexpires : addSeconds (item.evidence.instant now) ttlSeconds =
      .ok (item.evidence.instant now + ttlSeconds * Calendar.second) := by
    unfold addSeconds
    exact rejectIf_bind (decide_eq_false (not_not.mpr hrange)) _
  have hobservation : ∃ observation, item.evidence.asObservation = .ok observation := by
    unfold HistoricalCapacityEvidence.asObservation CapacityObservation.ofTexts
    rw [dif_pos herror, dif_pos hcorrelation]
    exact ⟨_, rfl⟩
  obtain ⟨observation, hobservation⟩ := hobservation
  unfold AccountRows.recorded AccountRows.recordHistoricalEvidence
  rw [httl, ok_bind]
  dsimp only
  rw [show item.evidence.observedAt.getD now = item.evidence.instant now from rfl, hexpires,
    ok_bind, hobservation, ok_bind, appendOnce_of_not_known ?_ ?_ hnew]
  rotate_left
  · rfl
  · rfl
  dsimp only
  cases hrow : rows.row with
  | none =>
    rw [if_neg (by simp)]
    refine ⟨⟨_, rfl, rfl, rfl⟩, fun _ ↦ ?_, fun hcounts ↦ absurd ?_ hcounts⟩
    · -- the window of the first refusal is open or over
      refine congrArg some ?_
      unfold AccountRows.firstRefusal CapacityRow.outlook AccountRows.blockedAt
      rw [if_neg (by simp), stateOf_value]
      split_ifs <;> rfl
    · rw [AccountRows.Counts, hrow]
      trivial
  | some row =>
    have hobserved : (row.capacity item.wall).observedAt = row.observedAt :=
      congrArg CapacityFacts.observedAt (AccountCapacity.settled_facts _ item.wall)
    have hwindow : (row.capacity item.wall).expiresAt = row.expiresAt :=
      congrArg CapacityFacts.expiresAt (AccountCapacity.settled_facts _ item.wall)
    have hlasting : (row.capacity item.wall).state.lasting = (stateOf row.state).lasting :=
      lasting_settled _ item.wall
    have hhealthy : (row.capacity item.wall).state = .healthy ↔ stateOf row.state = .healthy :=
      settled_healthy
    by_cases hcleared : rows.clearedAt.any (item.evidence.instant now ≤ ·) = true ∧
        stateOf row.state = .healthy
    · -- a later proof of recovery wins over it
      rw [if_pos (by simpa [hhealthy] using hcleared)]
      refine ⟨⟨_, rfl, rfl, rfl⟩, fun hcounts ↦ ?_, fun _ ↦ rfl⟩
      rw [counts_of_healthy hrow hcleared.2, hcleared.1] at hcounts
      cases hcounts
    · rw [if_neg (by simpa [hhealthy] using hcleared)]
      by_cases hcounts : rows.Counts now item.evidence
      · have hnewer : (row.capacity item.wall).state ≠ .healthy →
            (row.capacity item.wall).observedAt.any (item.evidence.instant now < ·) = false := by
          intro hother
          rw [hobserved, ← counts_of_not_healthy hrow fun h ↦ hother (hhealthy.mpr h)]
          exact hcounts
        obtain ⟨updated, hupdated, hstate, hinstant, hexpiry⟩ :=
          withLimitReached_newer observation hmin hexpires item.wall hnewer
        dsimp only
        rw [hupdated, ok_bind]
        refine ⟨⟨_, rfl, rfl, rfl⟩, fun _ ↦ ?_, fun hnot ↦ absurd hcounts hnot⟩
        refine congrArg some ?_
        rw [outlook_reconciled, hstate, hinstant, hexpiry]
        rfl
      · have hother : stateOf row.state ≠ .healthy := by
          intro h
          refine hcounts ((counts_of_healthy hrow h _).mpr ?_)
          exact Bool.not_eq_true _ ▸ fun hany ↦ hcleared ⟨hany, h⟩
        have holder : (row.capacity item.wall).observedAt.any (item.evidence.instant now < ·) =
            true := by
          rw [hobserved]
          by_contra hany
          exact hcounts ((counts_of_not_healthy hrow hother _).mpr (Bool.eq_false_iff.mpr hany))
        obtain ⟨updated, hupdated, hstate, hinstant, hexpiry⟩ :=
          withLimitReached_older observation hmin item.wall (fun h ↦ hother (hhealthy.mp h)) holder
        dsimp only
        rw [hupdated, ok_bind]
        refine ⟨⟨_, rfl, rfl, rfl⟩, fun hyes ↦ absurd hyes hcounts, fun _ ↦ ?_⟩
        refine congrArg some ?_
        rw [outlook_reconciled, hstate, hinstant, hexpiry, hlasting, hobserved, hwindow]
        rfl

end Step

/-! ### Lists of refusals -/

namespace AccountRows

variable (rows : AccountRows) (ttlSeconds now : ℤ)

/-- The refusal changes the account, if no later one has. -/
def Applies (evidence : HistoricalCapacityEvidence) : Prop :=
  evidence.Recordable ttlSeconds now ∧ ¬ rows.Known evidence ∧ rows.Counts now evidence

/-- The instant of the latest refusal of the list that applies. -/
def Latest (items : List BackfillItem) (instant : ℤ) : Prop :=
  (∃ item ∈ items, rows.Applies ttlSeconds now item.evidence ∧
    item.evidence.instant now = instant) ∧
  ∀ item ∈ items, rows.Applies ttlSeconds now item.evidence → item.evidence.instant now ≤ instant

/-- What the refusals of a list leave of the account. -/
structure Backfilled (items : List BackfillItem) (after : AccountRows) : Prop where
  cleared : after.clearedAt = rows.clearedAt
  known : ∀ evidence : HistoricalCapacityEvidence, after.Known evidence ↔ rows.Known evidence ∨
    ∃ item ∈ items, item.evidence.Recordable ttlSeconds now ∧
      item.evidence.sourceRef = evidence.sourceRef
  unchanged : (∀ item ∈ items, ¬ rows.Applies ttlSeconds now item.evidence) →
    after.row.map CapacityRow.outlook = rows.row.map CapacityRow.outlook
  latest : ∀ instant, rows.Latest ttlSeconds now items instant →
    after.row.map CapacityRow.outlook = some (blockedAt ttlSeconds instant)

end AccountRows

section Lists

variable {rows after : AccountRows} {ttlSeconds now : ℤ} {items : List BackfillItem}
  {item : BackfillItem}

open AccountRows

theorem lasting_eq_healthy {state : AccountCapacityState} :
    state.lasting = .healthy ↔ state = .healthy := by
  cases state <;> decide

/-- Whether a refusal counts is a matter of the outlook and of the last proof of recovery. -/
theorem counts_congr (hrow : after.row.map CapacityRow.outlook = rows.row.map CapacityRow.outlook)
    (hcleared : after.clearedAt = rows.clearedAt) (evidence : HistoricalCapacityEvidence) :
    after.Counts now evidence ↔ rows.Counts now evidence := by
  cases hbefore : rows.row with
  | none =>
    rw [hbefore, Option.map_none, Option.map_eq_none_iff] at hrow
    simp [Counts, hbefore, hrow]
  | some row =>
    rw [hbefore, Option.map_some, Option.map_eq_some_iff] at hrow
    obtain ⟨row', hrow', houtlook⟩ := hrow
    have hstate : (stateOf row'.state).lasting = (stateOf row.state).lasting :=
      congrArg Outlook.state houtlook
    have hobserved : row'.observedAt = row.observedAt := congrArg Outlook.observedAt houtlook
    have hsame : stateOf row'.state = .healthy ↔ stateOf row.state = .healthy := by
      rw [← lasting_eq_healthy, hstate, lasting_eq_healthy]
    by_cases hhealthy : stateOf row.state = .healthy
    · rw [counts_of_healthy hbefore hhealthy, counts_of_healthy hrow' (hsame.mpr hhealthy),
        hcleared]
    · rw [counts_of_not_healthy hbefore hhealthy,
        counts_of_not_healthy hrow' (hsame.not.mpr hhealthy), hobserved]

/-- A later refusal counts if an earlier one does. -/
theorem counts_mono {first second : HistoricalCapacityEvidence} (h : rows.Counts now first)
    (hle : first.instant now ≤ second.instant now) : rows.Counts now second := by
  unfold Counts at h ⊢
  cases hrow : rows.row with
  | none => trivial
  | some row =>
    rw [hrow] at h
    dsimp only at h ⊢
    split_ifs at h ⊢ with hhealthy
    · exact fun cleared hcleared ↦ (h cleared hcleared).trans_le hle
    · exact fun observed hobserved ↦ (h observed hobserved).trans hle

/-- After a refusal, those that are as late count. -/
theorem counts_of_blockedAt (now : ℤ) {instant : ℤ}
    (h : after.row.map CapacityRow.outlook = some (blockedAt ttlSeconds instant))
    (evidence : HistoricalCapacityEvidence) :
    after.Counts now evidence ↔ instant ≤ evidence.instant now := by
  obtain ⟨row, hrow, houtlook⟩ := Option.map_eq_some_iff.mp h
  have hstate : (stateOf row.state).lasting = .unknownAfterLimit := congrArg Outlook.state houtlook
  have hobserved : row.observedAt = some instant := congrArg Outlook.observedAt houtlook
  have hhealthy : stateOf row.state ≠ .healthy := by
    intro hhealthy
    rw [hhealthy] at hstate
    cases hstate
  rw [counts_of_not_healthy hrow hhealthy, hobserved]
  simp

theorem backfilled_nil (rows : AccountRows) (ttlSeconds now : ℤ) :
    rows.Backfilled ttlSeconds now [] rows where
  cleared := rfl
  known evidence := by simp
  unchanged _ := rfl
  latest instant h := by
    obtain ⟨⟨item, hitem, -⟩, -⟩ := h
    cases hitem

/-- What is in the log after one more refusal. -/
theorem known_snoc (h : rows.Backfilled ttlSeconds now items after) {last : AccountRows}
    (hlast : ∀ evidence : HistoricalCapacityEvidence, last.Known evidence ↔ after.Known evidence ∨
      item.evidence.Recordable ttlSeconds now ∧ item.evidence.sourceRef = evidence.sourceRef)
    (evidence : HistoricalCapacityEvidence) : last.Known evidence ↔ rows.Known evidence ∨
      ∃ other ∈ items ++ [item], other.evidence.Recordable ttlSeconds now ∧
        other.evidence.sourceRef = evidence.sourceRef := by
  rw [hlast, h.known, or_assoc]
  refine or_congr_right ?_
  simp only [List.mem_append, List.mem_singleton, or_and_right, exists_or, exists_eq_left]

/-- A refusal that applies only if the list has it already changes nothing. -/
theorem AccountRows.Backfilled.skip (h : rows.Backfilled ttlSeconds now items after)
    (hknown : item.evidence.Recordable ttlSeconds now → after.Known item.evidence)
    (hskip : rows.Applies ttlSeconds now item.evidence →
      ∃ other ∈ items, other.evidence = item.evidence) :
    rows.Backfilled ttlSeconds now (items ++ [item]) after where
  cleared := h.cleared
  known := by
    refine known_snoc h fun evidence ↦ ?_
    refine ⟨Or.inl, fun hor ↦ hor.elim id fun ⟨hrecordable, href⟩ ↦ ?_⟩
    obtain ⟨event, hevent, hkind, hsource⟩ := hknown hrecordable
    exact ⟨event, hevent, hkind, hsource.trans (congrArg some href)⟩
  unchanged hnone := h.unchanged fun other hother ↦ hnone other (List.mem_append_left _ hother)
  latest instant hlatest := by
    obtain ⟨⟨first, hfirst, happlies, hinstant⟩, hle⟩ := hlatest
    refine h.latest instant ⟨?_, fun other hother ↦ hle other (List.mem_append_left _ hother)⟩
    rcases List.mem_append.mp hfirst with hold | hnew
    · exact ⟨first, hold, happlies, hinstant⟩
    · rw [List.mem_singleton.mp hnew] at happlies hinstant
      obtain ⟨other, hother, hsame⟩ := hskip happlies
      exact ⟨other, hother, hsame ▸ happlies, hsame ▸ hinstant⟩

/-- A list in which a refusal applies has a latest one. -/
theorem exists_latest (h : ∃ item ∈ items, rows.Applies ttlSeconds now item.evidence) :
    ∃ instant, rows.Latest ttlSeconds now items instant := by
  classical
  obtain ⟨item, hitem, happlies⟩ := h
  obtain ⟨last, hlast, hmax⟩ := (items.toFinset.filter fun item ↦
    rows.Applies ttlSeconds now item.evidence).exists_max_image (·.evidence.instant now)
      ⟨item, by simp [hitem, happlies]⟩
  rw [Finset.mem_filter, List.mem_toFinset] at hlast
  refine ⟨_, ⟨last, hlast.1, hlast.2, rfl⟩, fun other hother happlies ↦ hmax other ?_⟩
  rw [Finset.mem_filter, List.mem_toFinset]
  exact ⟨hother, happlies⟩

/-- One more refusal, of a reference that no other refusal of the list has. -/
theorem AccountRows.Backfilled.snoc (h : rows.Backfilled ttlSeconds now items after)
    (hdistinct : ∀ first ∈ items, first.evidence.sourceRef = item.evidence.sourceRef →
      first.evidence = item.evidence) :
    rows.Backfilled ttlSeconds now (items ++ [item]) (after.recorded ttlSeconds now item) := by
  by_cases hrecordable : item.evidence.Recordable ttlSeconds now
  swap
  · rw [recorded_of_not_recordable hrecordable]
    exact h.skip (fun hyes ↦ absurd hyes hrecordable) fun happlies ↦ absurd happlies.1 hrecordable
  by_cases hknown : after.Known item.evidence
  · rw [recorded_of_known hknown]
    refine h.skip (fun _ ↦ hknown) fun happlies ↦ ?_
    rcases (h.known item.evidence).mp hknown with hold | ⟨first, hfirst, -, href⟩
    · exact absurd hold happlies.2.1
    · exact ⟨first, hfirst, hdistinct first hfirst href⟩
  obtain ⟨⟨event, hkind, href, hevents⟩, hcounts, hnot⟩ := recorded_of_fresh hrecordable hknown
  have happlies : rows.Applies ttlSeconds now item.evidence ↔ rows.Counts now item.evidence :=
    ⟨fun happlies ↦ happlies.2.2, fun hcounts ↦
      ⟨hrecordable, fun hold ↦ hknown ((h.known item.evidence).mpr (Or.inl hold)), hcounts⟩⟩
  constructor
  · rw [← h.cleared]
    unfold AccountRows.clearedAt
    rw [hevents, List.filter_cons_of_neg (by simp [hkind])]
  · refine known_snoc h fun evidence ↦ ?_
    unfold AccountRows.Known
    rw [hevents]
    simp only [List.mem_cons, or_and_right, exists_or, exists_eq_left, hkind, href, true_and,
      Option.some_inj, hrecordable]
    exact or_comm
  · intro hnone
    have hsame := h.unchanged fun other hother ↦ hnone other (List.mem_append_left _ hother)
    rw [hnot, hsame]
    rw [counts_congr hsame h.cleared, ← happlies]
    exact hnone item (List.mem_append_right _ (List.mem_singleton_self item))
  · intro instant ⟨⟨first, hfirst, hfirstApplies, hinstant⟩, hmax⟩
    have hitem : rows.Applies ttlSeconds now item.evidence → item.evidence.instant now ≤ instant :=
      hmax item (List.mem_append_right _ (List.mem_singleton_self item))
    by_cases hany : ∃ other ∈ items, rows.Applies ttlSeconds now other.evidence
    · obtain ⟨before, hbefore⟩ := exists_latest hany
      have hoplook := h.latest before hbefore
      have hafter := counts_of_blockedAt now hoplook item.evidence
      obtain ⟨⟨top, htop, htopApplies, rfl⟩, htopMax⟩ := hbefore
      have hbelow : top.evidence.instant now ≤ instant :=
        hmax top (List.mem_append_left _ htop) htopApplies
      by_cases hle : top.evidence.instant now ≤ item.evidence.instant now
      · -- the new refusal is the latest
        have hnew : item.evidence.instant now = instant := by
          refine le_antisymm (hitem (happlies.mpr (counts_mono htopApplies.2.2 hle))) ?_
          rcases List.mem_append.mp hfirst with hold | hlast
          · rw [← hinstant]
            exact (htopMax first hold hfirstApplies).trans hle
          · rw [← hinstant, List.mem_singleton.mp hlast]
        rw [hcounts (hafter.mpr hle), hnew]
      · have hold : top.evidence.instant now = instant := by
          refine le_antisymm hbelow ?_
          rcases List.mem_append.mp hfirst with hold | hlast
          · rw [← hinstant]
            exact htopMax first hold hfirstApplies
          · rw [← hinstant, List.mem_singleton.mp hlast]
            exact (not_le.mp hle).le
        rw [hnot (hafter.not.mpr hle), hoplook, hold]
    · have hsame := h.unchanged fun other hother happly ↦ hany ⟨other, hother, happly⟩
      obtain rfl : first = item := by
        rcases List.mem_append.mp hfirst with hold | hlast
        · exact absurd ⟨first, hold, hfirstApplies⟩ hany
        · exact List.mem_singleton.mp hlast
      rw [hcounts ((counts_congr hsame h.cleared _).mpr hfirstApplies.2.2), hinstant]

/-- What a backfill leaves, as a closed form of the account and of the list. -/
theorem backfilled_backfill (rows : AccountRows) (ttlSeconds now : ℤ) {items : List BackfillItem}
    (hdistinct : ∀ first ∈ items, ∀ second ∈ items,
      first.evidence.sourceRef = second.evidence.sourceRef → first.evidence = second.evidence) :
    rows.Backfilled ttlSeconds now items (rows.backfill ttlSeconds now items) := by
  induction items using List.reverseRecOn with
  | nil => exact backfilled_nil rows ttlSeconds now
  | append_singleton items item ih =>
    have hitem : item ∈ items ++ [item] := List.mem_append_right _ (List.mem_singleton_self item)
    rw [backfill, List.foldl_append, List.foldl_cons, List.foldl_nil]
    refine (ih fun first hfirst second hsecond ↦ ?_).snoc fun first hfirst ↦ ?_
    · exact hdistinct first (List.mem_append_left _ hfirst) second (List.mem_append_left _ hsecond)
    · exact hdistinct first (List.mem_append_left _ hfirst) item hitem

/-- What a reader sees of the account: whether new orders are refused at an instant, and the window
of the evidence. -/
def AccountRows.seen (rows : AccountRows) (wall later : ℤ) :
    Option (Bool × Option ℤ × Option ℤ) :=
  rows.row.map fun row ↦
    let record := row.capacity wall
    (record.isLimitReached later, record.observedAt, record.expiresAt)

/-- A reader sees the outlook. -/
theorem seen_eq (rows : AccountRows) (wall later : ℤ) : rows.seen wall later =
    (rows.row.map CapacityRow.outlook).map fun outlook ↦
      (decide (outlook.state = .unknownAfterLimit), outlook.observedAt, outlook.expiresAt) := by
  unfold AccountRows.seen
  rw [Option.map_map]
  congr 1
  funext row
  have hlimit : (row.capacity wall).isLimitReached later =
      decide ((stateOf row.state).lasting = .unknownAfterLimit) := by
    rw [CapacityRow.capacity, AccountCapacity.isLimitReached_settled, Bool.eq_iff_iff,
      AccountCapacity.isLimitReached_iff, decide_eq_true_iff]
    cases stateOf row.state <;> simp [AccountCapacityState.lasting]
  have hfacts := AccountCapacity.settled_facts
    { toCapacityFacts := row.toCapacityFacts, state := stateOf row.state } wall
  dsimp only
  rw [hlimit]
  exact congrArg (decide _, ·) (Prod.ext (congrArg CapacityFacts.observedAt hfacts)
    (congrArg CapacityFacts.expiresAt hfacts))

theorem backfill_outlook_congr {first second : List BackfillItem}
    (hfirst : rows.Backfilled ttlSeconds now first after) {other : AccountRows}
    (hsecond : rows.Backfilled ttlSeconds now second other)
    (hsame : ∀ evidence, (∃ item ∈ first, item.evidence = evidence) ↔
      ∃ item ∈ second, item.evidence = evidence) :
    after.row.map CapacityRow.outlook = other.row.map CapacityRow.outlook := by
  have hall (P : HistoricalCapacityEvidence → Prop) :
      (∀ item ∈ first, P item.evidence) ↔ ∀ item ∈ second, P item.evidence := by
    constructor
    · intro h item hitem
      obtain ⟨twin, htwin, heq⟩ := (hsame item.evidence).mpr ⟨item, hitem, rfl⟩
      exact heq ▸ h twin htwin
    · intro h item hitem
      obtain ⟨twin, htwin, heq⟩ := (hsame item.evidence).mp ⟨item, hitem, rfl⟩
      exact heq ▸ h twin htwin
  by_cases hany : ∃ item ∈ first, rows.Applies ttlSeconds now item.evidence
  · obtain ⟨instant, hlatest⟩ := exists_latest hany
    rw [hfirst.latest instant hlatest, hsecond.latest instant ⟨?_, ?_⟩]
    · obtain ⟨⟨item, hitem, happlies, hinstant⟩, -⟩ := hlatest
      obtain ⟨twin, htwin, heq⟩ := (hsame item.evidence).mp ⟨item, hitem, rfl⟩
      exact ⟨twin, htwin, heq ▸ happlies, heq ▸ hinstant⟩
    · exact (hall fun evidence ↦ rows.Applies ttlSeconds now evidence →
        evidence.instant now ≤ instant).mp hlatest.2
  · have hnone : ∀ item ∈ first, ¬ rows.Applies ttlSeconds now item.evidence :=
      fun item hitem happlies ↦ hany ⟨item, hitem, happlies⟩
    rw [hfirst.unchanged hnone, hsecond.unchanged ((hall fun evidence ↦
      ¬ rows.Applies ttlSeconds now evidence).mp hnone)]

/-- A refusal that the list has changes nothing when it is recorded again. -/
theorem recorded_of_mem (h : rows.Backfilled ttlSeconds now items after)
    (hmem : ∃ other ∈ items, other.evidence = item.evidence) :
    after.recorded ttlSeconds now item = after := by
  by_cases hrecordable : item.evidence.Recordable ttlSeconds now
  · obtain ⟨other, hother, hsame⟩ := hmem
    refine recorded_of_known ((h.known item.evidence).mpr (Or.inr ⟨other, hother, ?_, ?_⟩))
    · rw [hsame]
      exact hrecordable
    · rw [hsame]
  · exact recorded_of_not_recordable hrecordable

/-- Two lists of the same refusals, in any order and with any repetitions, each recorded at any
reading of the clock, leave an account that reads the same, and a repeated refusal changes nothing
of it. -/
theorem backfill_orderFree (rows : AccountRows) (ttlSeconds now : ℤ)
    (first second : List BackfillItem)
    (hdistinct : ∀ item ∈ first, ∀ other ∈ first,
      item.evidence.sourceRef = other.evidence.sourceRef → item.evidence = other.evidence)
    (hsame : ∀ evidence, (∃ item ∈ first, item.evidence = evidence) ↔
      ∃ item ∈ second, item.evidence = evidence) :
    (∀ wall later, (rows.backfill ttlSeconds now first).seen wall later =
      (rows.backfill ttlSeconds now second).seen wall later) ∧
    ∀ item ∈ first, ∀ wall, (rows.backfill ttlSeconds now first).recorded ttlSeconds now
      ⟨item.evidence, wall⟩ = rows.backfill ttlSeconds now first := by
  have hfirst := backfilled_backfill rows ttlSeconds now hdistinct
  have hsecond : rows.Backfilled ttlSeconds now second (rows.backfill ttlSeconds now second) := by
    refine backfilled_backfill rows ttlSeconds now fun item hitem other hother href ↦ ?_
    obtain ⟨twin, htwin, heq⟩ := (hsame item.evidence).mpr ⟨item, hitem, rfl⟩
    obtain ⟨twin', htwin', heq'⟩ := (hsame other.evidence).mpr ⟨other, hother, rfl⟩
    rw [← heq, ← heq'] at href ⊢
    exact hdistinct twin htwin twin' htwin' href
  constructor
  · intro wall later
    rw [seen_eq, seen_eq, backfill_outlook_congr hfirst hsecond hsame]
  · intro item hitem wall
    exact recorded_of_mem hfirst ⟨item, hitem, rfl⟩

end Lists

/-! ### A clear between two refusals -/

namespace ClearedBetween

open AccountRows

/-- A refusal of a day. -/
def refusal (sourceRef : String) (day : ℤ) (h : strip sourceRef ≠ "") : BackfillItem where
  evidence :=
    { sourceRef := sourceRef
      errorCode := some "PC-2031"
      observedAt := some (day * 24 * 3600 * Calendar.second)
      sourceRef_nonblank := h }
  wall := 0

def early : BackfillItem :=
  refusal "create:1" 19000 (by decide)

def late : BackfillItem :=
  refusal "create:2" 19002 (by decide)

/-- An account that an operator has cleared between the two. -/
def rows : AccountRows where
  row := some { observedAt := some (19001 * 24 * 3600 * Calendar.second) }
  events := [{
    kind := .cleared
    state := .healthy
    observation := {}
    createdAt := 19001 * 24 * 3600 * Calendar.second }]

/-- The later refusal decides, whichever comes first. -/
theorem orderFree_twoRefusals :
    (∀ wall later, (rows.backfill 3600 0 [early, late]).seen wall later =
      (rows.backfill 3600 0 [late, early, late]).seen wall later) ∧
    ∀ item ∈ [early, late], ∀ wall, (rows.backfill 3600 0 [early, late]).recorded 3600 0
      ⟨item.evidence, wall⟩ = rows.backfill 3600 0 [early, late] :=
  backfill_orderFree rows 3600 0 [early, late] [late, early, late] (by decide)
    (fun evidence ↦ by simpa [or_comm] using Or.inr)

end ClearedBetween

end CloudPlatform.ProviderCapacity
