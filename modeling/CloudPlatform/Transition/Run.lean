import Mathlib.Data.List.Basic

/-!
# Runs of a step function

A system whose events arrive in any order is a step function on its states; a run is the fold of
that step over a list of events, so "every reachable state" is "the state after every list of
events". `Throughout` speaks of every state a run passes, `Along` of the state before each of its
events. The rules here turn a fact about one step into a fact about whole runs: plain induction
(`throughout_of_step`), induction over runs whose steps all meet a condition
(`throughout_of_along`, `along_of_along`), and the equivalence of the two when the condition is exactly
what one step needs (`throughout_iff_along`; `ordered_iff_along` and `persists_iff_along` for what a
run never goes back on).
-/

namespace Transition

variable {σ ε : Type*}

/-- The state after the events of a run, taken in order. -/
def run (step : σ → ε → σ) (start : σ) (events : List ε) : σ :=
  events.foldl step start

@[simp] theorem run_nil (step : σ → ε → σ) (start : σ) : run step start [] = start :=
  rfl

@[simp] theorem run_cons (step : σ → ε → σ) (start : σ) (event : ε) (rest : List ε) :
    run step start (event :: rest) = run step (step start event) rest :=
  rfl

theorem run_append (step : σ → ε → σ) (start : σ) (first second : List ε) :
    run step start (first ++ second) = run step (run step start first) second :=
  List.foldl_append

/-- The property holds of the start and of the state after every event. -/
def Throughout (step : σ → ε → σ) (property : σ → Prop) : σ → List ε → Prop
  | s, [] => property s
  | s, event :: rest => property s ∧ Throughout step property (step s event) rest

/-- The condition holds of every event in the state it meets. -/
def Along (step : σ → ε → σ) (condition : σ → ε → Prop) : σ → List ε → Prop
  | _, [] => True
  | s, event :: rest => condition s event ∧ Along step condition (step s event) rest

@[simp] theorem along_nil (step : σ → ε → σ) (condition : σ → ε → Prop) (s : σ) :
    Along step condition s [] :=
  trivial

@[simp] theorem along_cons (step : σ → ε → σ) (condition : σ → ε → Prop) (s : σ) (event : ε)
    (rest : List ε) : Along step condition s (event :: rest) ↔
      condition s event ∧ Along step condition (step s event) rest :=
  Iff.rfl

@[simp] theorem throughout_nil (step : σ → ε → σ) (property : σ → Prop) (s : σ) :
    Throughout step property s [] ↔ property s :=
  Iff.rfl

@[simp] theorem throughout_cons (step : σ → ε → σ) (property : σ → Prop) (s : σ) (event : ε)
    (rest : List ε) : Throughout step property s (event :: rest) ↔
      property s ∧ Throughout step property (step s event) rest :=
  Iff.rfl

variable {step : σ → ε → σ} {events : List ε} {condition first second : σ → ε → Prop}
  {invariant : σ → Prop}

theorem Throughout.start {property : σ → Prop} {s : σ} (h : Throughout step property s events) :
    property s := by
  cases events with
  | nil => exact h
  | cons event rest => exact h.1

theorem Throughout.mono {strong weak : σ → Prop} (himp : ∀ s, strong s → weak s) :
    ∀ {s : σ}, Throughout step strong s events → Throughout step weak s events := by
  induction events with
  | nil => intro s h; exact himp s h
  | cons event rest ih => intro s h; exact ⟨himp s h.1, ih h.2⟩

theorem Along.mono {strong weak : σ → ε → Prop} (himp : ∀ s event, strong s event → weak s event) :
    ∀ {s : σ}, Along step strong s events → Along step weak s events := by
  induction events with
  | nil => intro s _; trivial
  | cons event rest ih => intro s h; exact ⟨himp s event h.1, ih h.2⟩

theorem along_of_forall (h : ∀ s event, condition s event) (events : List ε) :
    ∀ s : σ, Along step condition s events := by
  induction events with
  | nil => intro s; trivial
  | cons event rest ih => intro s; exact ⟨h s event, ih _⟩

theorem along_append (step : σ → ε → σ) (condition : σ → ε → Prop) (first second : List ε) :
    ∀ s : σ, Along step condition s (first ++ second) ↔
      Along step condition s first ∧ Along step condition (run step s first) second := by
  induction first with
  | nil => intro s; simp
  | cons event rest ih =>
    intro s
    rw [List.cons_append, along_cons, along_cons, run_cons, ih, and_assoc]

/-- A condition that holds along a run holds of each event in the state that those before it leave. -/
theorem along_iff_forall_split (step : σ → ε → σ) (condition : σ → ε → Prop) (events : List ε) :
    ∀ s : σ, Along step condition s events ↔ ∀ before event after,
      events = before ++ event :: after → condition (run step s before) event := by
  induction events with
  | nil => intro s; simp
  | cons first rest ih =>
    intro s
    rw [along_cons, ih]
    constructor
    · rintro ⟨hfirst, hrest⟩ before event after hsplit
      cases before with
      | nil =>
        obtain ⟨rfl, -⟩ := List.cons.inj hsplit
        exact hfirst
      | cons head before =>
        obtain ⟨rfl, htail⟩ := List.cons.inj hsplit
        exact hrest before event after htail
    · intro h
      refine ⟨h [] first rest rfl, fun before event after hsplit ↦ ?_⟩
      exact h (first :: before) event after (congrArg (first :: ·) hsplit)

/-- One event more. -/
theorem run_take_succ (step : σ → ε → σ) (s : σ) (events : List ε) (n : ℕ) :
    run step s (events.take (n + 1)) = run step (run step s (events.take n)) events[n]?.toList := by
  rw [List.take_add_one, run_append]

/-- A condition that holds along a run holds of the event at each place. -/
theorem Along.at {s : σ} (h : Along step condition s events) {n : ℕ} {event : ε}
    (hevent : events[n]? = some event) : condition (run step s (events.take n)) event := by
  obtain ⟨hlt, hget⟩ := List.getElem?_eq_some_iff.mp hevent
  refine (along_iff_forall_split step condition events s).mp h _ event (events.drop (n + 1)) ?_
  rw [← hget, ← List.drop_eq_getElem_cons hlt, List.take_append_drop]

/-- A condition that follows from another on every event of the run. -/
theorem Along.mp : ∀ {s : σ}, Along step (fun s event ↦ first s event → second s event) s events →
      Along step first s events → Along step second s events := by
  induction events with
  | nil => intro s _ _; trivial
  | cons event rest ih => intro s himp h; exact ⟨himp.1 h.1, ih himp.2 h.2⟩

theorem Along.and : ∀ {s : σ}, Along step first s events → Along step second s events →
      Along step (fun s event ↦ first s event ∧ second s event) s events := by
  induction events with
  | nil => intro s _ _; trivial
  | cons event rest ih => intro s hfirst hsecond; exact ⟨⟨hfirst.1, hsecond.1⟩, ih hfirst.2 hsecond.2⟩

/-- Every state of a run is the state after one of its prefixes. -/
theorem throughout_iff_forall_take (step : σ → ε → σ) (property : σ → Prop) (events : List ε) :
    ∀ s : σ, Throughout step property s events ↔
      ∀ count, property (run step s (events.take count)) := by
  induction events with
  | nil => intro s; simp [run]
  | cons event rest ih =>
    intro s
    rw [throughout_cons, ih]
    constructor
    · rintro ⟨hstart, hrest⟩ count
      cases count with
      | zero => exact hstart
      | succ count => exact hrest count
    · intro h
      exact ⟨h 0, fun count ↦ h (count + 1)⟩

/-- Induction over runs whose events all meet a condition: an invariant that the conforming events
keep holds in every state of the run. -/
theorem throughout_of_along
    (hstep : ∀ s event, invariant s → condition s event → invariant (step s event))
    (events : List ε) :
    ∀ s : σ, invariant s → Along step condition s events → Throughout step invariant s events := by
  induction events with
  | nil => intro s hs _; exact hs
  | cons event rest ih =>
    intro s hs halong
    exact ⟨hs, ih _ (hstep s event hs halong.1) halong.2⟩

/-- What the conforming steps from invariant states do, every step of a conforming run does. -/
theorem along_of_along {condition conclusion : σ → ε → Prop}
    (hstep : ∀ s event, invariant s → condition s event → invariant (step s event))
    (hconclusion : ∀ s event, invariant s → condition s event → conclusion s event)
    (events : List ε) :
    ∀ s : σ, invariant s → Along step condition s events → Along step conclusion s events := by
  induction events with
  | nil => intro s _ _; trivial
  | cons event rest ih =>
    intro s hs halong
    exact ⟨hconclusion s event hs halong.1, ih _ (hstep s event hs halong.1) halong.2⟩

/-- The invariant of conforming runs in the last state. -/
theorem invariant_run_of_along
    (hstep : ∀ s event, invariant s → condition s event → invariant (step s event))
    (events : List ε) :
    ∀ s : σ, invariant s → Along step condition s events → invariant (run step s events) := by
  induction events with
  | nil => intro s hs _; exact hs
  | cons event rest ih =>
    intro s hs halong
    exact ih _ (hstep s event hs halong.1) halong.2

/-- Induction over all runs. -/
theorem invariant_run (hstep : ∀ s event, invariant s → invariant (step s event)) (events : List ε)
    (s : σ) (hs : invariant s) : invariant (run step s events) := by
  induction events generalizing s with
  | nil => exact hs
  | cons event rest ih => exact ih _ (hstep s event hs)

theorem throughout_of_step (hstep : ∀ s event, invariant s → invariant (step s event))
    (events : List ε) (s : σ) (hs : invariant s) : Throughout step invariant s events :=
  (throughout_iff_forall_take step invariant events s).mpr
    fun _ ↦ invariant_run hstep _ s hs

/-- When a step of the run from a good state is good exactly if it meets the condition, the run is
good throughout exactly if all its steps meet the condition. -/
theorem throughout_iff_along_of_mem {good : σ → Prop}
    (hstep : ∀ event ∈ events, ∀ s, good s → (good (step s event) ↔ condition s event)) :
    ∀ s : σ, good s → (Throughout step good s events ↔ Along step condition s events) := by
  induction events with
  | nil => intro s hs; exact ⟨fun _ ↦ trivial, fun _ ↦ hs⟩
  | cons event rest ih =>
    obtain ⟨hfirst, hlater⟩ := List.forall_mem_cons.mp hstep
    intro s hs
    rw [throughout_cons, along_cons]
    constructor
    · rintro ⟨_, hrest⟩
      have hnext : good (step s event) := hrest.start
      exact ⟨(hfirst s hs).mp hnext, (ih hlater _ hnext).mp hrest⟩
    · rintro ⟨hcondition, hrest⟩
      have hnext : good (step s event) := (hfirst s hs).mpr hcondition
      exact ⟨hs, (ih hlater _ hnext).mpr hrest⟩

/-- The same for a step function all of whose steps are so. -/
theorem throughout_iff_along {good : σ → Prop}
    (hstep : ∀ s event, good s → (good (step s event) ↔ condition s event)) (events : List ε) :
    ∀ s : σ, good s → (Throughout step good s events ↔ Along step condition s events) :=
  throughout_iff_along_of_mem fun event _ s ↦ hstep s event

/-- A fact that every event of the run keeps, where the property holds, may be added to what holds
throughout it. -/
theorem throughout_and_iff_of_holds {invariant property : σ → Prop}
    (hkeep : ∀ event ∈ events, ∀ s, invariant s → property s → invariant (step s event)) :
    ∀ s : σ, invariant s → (Throughout step (fun s ↦ invariant s ∧ property s) s events ↔
      Throughout step property s events) := by
  induction events with
  | nil => intro s hs; exact and_iff_right hs
  | cons event rest ih =>
    obtain ⟨hfirst, hlater⟩ := List.forall_mem_cons.mp hkeep
    intro s hs
    rw [throughout_cons, throughout_cons, and_iff_right hs]
    exact and_congr_right fun hproperty ↦ ih hlater _ (hfirst s hs hproperty)

/-- A fact that every event of the run keeps may be added to what holds throughout it. -/
theorem throughout_and_iff {invariant property : σ → Prop}
    (hkeep : ∀ event ∈ events, ∀ s, invariant s → invariant (step s event)) :
    ∀ s : σ, invariant s → (Throughout step (fun s ↦ invariant s ∧ property s) s events ↔
      Throughout step property s events) :=
  throughout_and_iff_of_holds fun event hevent s hs _ ↦ hkeep event hevent s hs

/-- What holds of all states of a run holds of its steps. -/
theorem along_of_throughout {property : σ → Prop}
    (hstep : ∀ s event, property s → property (step s event) → condition s event) (events : List ε) :
    ∀ s : σ, Throughout step property s events → Along step condition s events := by
  induction events with
  | nil => intro s _; trivial
  | cons event rest ih =>
    rintro s ⟨hs, hrest⟩
    exact ⟨hstep s event hs hrest.start, ih _ hrest⟩

/-- The relation holds between every state of the run and every later one. -/
def Ordered (step : σ → ε → σ) (related : σ → σ → Prop) (s : σ) (events : List ε) : Prop :=
  ∀ earlier later, earlier ≤ later →
    related (run step s (events.take earlier)) (run step s (events.take later))

/-- A preorder holds along a run exactly if every step keeps it. -/
theorem ordered_iff_along {related : σ → σ → Prop} (hrefl : ∀ s, related s s)
    (htrans : ∀ first second third, related first second → related second third →
      related first third) (events : List ε) : ∀ s : σ, Ordered step related s events ↔
      Along step (fun s event ↦ related s (step s event)) s events := by
  induction events with
  | nil => intro s; simp [Ordered, hrefl]
  | cons event rest ih =>
    intro s
    rw [along_cons, ← ih]
    constructor
    · intro h
      refine ⟨?_, fun earlier later hle ↦ ?_⟩
      · exact h 0 1 (Nat.zero_le 1)
      · exact h (earlier + 1) (later + 1) (Nat.succ_le_succ hle)
    · rintro ⟨hfirst, hrest⟩ earlier later hle
      cases later with
      | zero =>
        obtain rfl : earlier = 0 := Nat.le_zero.mp hle
        exact hrefl s
      | succ later =>
        cases earlier with
        | zero => exact htrans _ _ _ hfirst (hrest 0 later (Nat.zero_le later))
        | succ earlier => exact hrest earlier later (Nat.le_of_succ_le_succ hle)

/-- Once the property holds of a state of the run, it holds of every later one. -/
def Persists (step : σ → ε → σ) (property : σ → Prop) (s : σ) (events : List ε) : Prop :=
  Ordered step (fun s later ↦ property s → property later) s events

/-- A property persists exactly if no step of the run loses it. -/
theorem persists_iff_along (step : σ → ε → σ) (property : σ → Prop) (events : List ε) (s : σ) :
    Persists step property s events ↔
      Along step (fun s event ↦ property s → property (step s event)) s events :=
  ordered_iff_along (fun _ h ↦ h) (fun _ _ _ hfirst hsecond h ↦ hsecond (hfirst h)) events s

/-- Two conditions that agree on the steps from invariant states agree along runs, when the steps
that meet the first keep the invariant. -/
theorem along_congr (hagree : ∀ s event, invariant s → (first s event ↔ second s event))
    (hstep : ∀ s event, invariant s → first s event → invariant (step s event)) (events : List ε) :
    ∀ s : σ, invariant s → (Along step first s events ↔ Along step second s events) := by
  induction events with
  | nil => intro s _; exact Iff.rfl
  | cons event rest ih =>
    intro s hs
    rw [along_cons, along_cons]
    constructor
    · rintro ⟨hfirst, hrest⟩
      exact ⟨(hagree s event hs).mp hfirst, (ih _ (hstep s event hs hfirst)).mp hrest⟩
    · rintro ⟨hsecond, hrest⟩
      have hfirst := (hagree s event hs).mpr hsecond
      exact ⟨hfirst, (ih _ (hstep s event hs hfirst)).mpr hrest⟩

instance decidableAlong (step : σ → ε → σ) (condition : σ → ε → Prop)
    [∀ s event, Decidable (condition s event)] :
    ∀ (s : σ) (events : List ε), Decidable (Along step condition s events)
  | _, [] => inferInstanceAs (Decidable True)
  | s, event :: rest =>
    have : Decidable (Along step condition (step s event) rest) :=
      decidableAlong step condition (step s event) rest
    inferInstanceAs (Decidable (_ ∧ _))

/-- A relation that each step of a run keeps between neighbours, and that composes, holds between
the two ends of the run. -/
theorem relation_run {related : σ → σ → Prop} (hrefl : ∀ s, related s s)
    (htrans : ∀ first second third, related first second → related second third →
      related first third) (hinvariant : ∀ s event, invariant s → invariant (step s event))
    (hstep : ∀ s event, invariant s → related s (step s event)) (events : List ε) :
    ∀ s : σ, invariant s → related s (run step s events) := by
  induction events with
  | nil => intro s _; exact hrefl s
  | cons event rest ih =>
    intro s hs
    exact htrans _ _ _ (hstep s event hs) (ih _ (hinvariant s event hs))

end Transition
