import CloudPlatform.Transition.Run
import Mathlib.Logic.Function.Basic

/-!
# Overlapping calls on one event loop

Calls of one object that share its memory. A call runs without a pause from one of its suspensions to
the next, so a run is a list of such stretches: the first one of a new call, or a later one, which the
answer that the call has waited for begins. `throughout_every_iff` is the rule for what is to hold
of every call at all times: it holds exactly if every stretch does what it is asked for.
-/

namespace Transition

/-- The shared memory, and where each call stands. -/
structure Overlap (σ κ : Type) where
  memory : σ
  calls : ℕ → Option κ := fun _ ↦ none

/-- One stretch of a call. -/
inductive Stretch (α ι : Type)
  | start (call : ℕ) (arguments : α)
  | resume (call : ℕ) (answer : ι)

/-- A kind of calls: their first stretch, and the later ones. -/
structure Calls (σ κ α ι : Type) where
  start : σ → ℕ → α → σ × κ
  resume : σ → ℕ → κ → ι → σ × κ

namespace Overlap

section

variable {σ κ α ι : Type}

/-- The state after a stretch of a call. -/
def after (s : Overlap σ κ) (call : ℕ) (outcome : σ × κ) : Overlap σ κ where
  memory := outcome.1
  calls := Function.update s.calls call (some outcome.2)

/-- One stretch; a call starts once, and only a call that has started goes on. -/
def step (kind : Calls σ κ α ι) (s : Overlap σ κ) : Stretch α ι → Overlap σ κ
  | .start call arguments =>
    match s.calls call with
    | none => s.after call (kind.start s.memory call arguments)
    | some _ => s
  | .resume call answer =>
    match s.calls call with
    | none => s
    | some status => s.after call (kind.resume s.memory call status answer)

/-- A property of all calls. -/
def Every (property : κ → Prop) (s : Overlap σ κ) : Prop :=
  ∀ call status, s.calls call = some status → property status

/-- What a stretch is asked for, by the kind of stretch that it is. -/
def Asks (starts : σ → α → Prop) (resumes : σ → κ → ι → Prop) (s : Overlap σ κ) :
    Stretch α ι → Prop
  | .start call arguments => s.calls call = none → starts s.memory arguments
  | .resume call answer => ∀ status ∈ s.calls call, resumes s.memory status answer

variable {property : κ → Prop} {kind : Calls σ κ α ι}

theorem every_after {s : Overlap σ κ} (h : s.Every property) (call : ℕ) (outcome : σ × κ) :
    (s.after call outcome).Every property ↔ property outcome.2 := by
  constructor
  · intro hafter
    exact hafter call outcome.2 (Function.update_self call _ s.calls)
  · intro houtcome other status hother
    change Function.update s.calls call (some outcome.2) other = some status at hother
    by_cases hsame : other = call
    · rw [hsame, Function.update_self] at hother
      rw [← Option.some.inj hother]
      exact houtcome
    · rw [Function.update_of_ne hsame] at hother
      exact h other status hother

/-- One stretch, from a state in which the property holds of every call. -/
theorem every_step {starts : σ → α → Prop} {resumes : σ → κ → ι → Prop}
    (hstart : ∀ memory call arguments,
      property (kind.start memory call arguments).2 ↔ starts memory arguments)
    (hresume : ∀ memory call status answer, property status →
      (property (kind.resume memory call status answer).2 ↔ resumes memory status answer))
    (s : Overlap σ κ) (event : Stretch α ι) (h : s.Every property) :
    (s.step kind event).Every property ↔ Asks starts resumes s event := by
  cases event with
  | start call arguments =>
    cases hcall : s.calls call with
    | none =>
      simp only [step, Asks, hcall, forall_const]
      rw [every_after h, hstart]
    | some status => simpa [step, Asks, hcall] using h
  | resume call answer =>
    cases hcall : s.calls call with
    | none => simpa [step, Asks, hcall] using h
    | some status =>
      simp only [step, Asks, hcall, Option.mem_some_iff, forall_eq']
      rw [every_after h, hresume _ _ _ _ (h call status hcall)]

/-- A property that every stretch brings about, from the calls that have it. -/
theorem every_step_of_forall
    (hstart : ∀ memory call arguments, property (kind.start memory call arguments).2)
    (hresume : ∀ memory call status answer, property status →
      property (kind.resume memory call status answer).2) (s : Overlap σ κ) (event : Stretch α ι)
    (h : s.Every property) : (s.step kind event).Every property := by
  have hasks : Asks (fun (_ : σ) (_ : α) ↦ True) (fun (_ : σ) (_ : κ) (_ : ι) ↦ True) s event := by
    cases event with
    | start call arguments => exact fun _ ↦ trivial
    | resume call answer => exact fun _ _ ↦ trivial
  refine (every_step ?_ ?_ s event h).mpr hasks
  · intro memory call arguments
    exact iff_true_intro (hstart memory call arguments)
  · intro memory call status answer hstatus
    exact iff_true_intro (hresume memory call status answer hstatus)

/-- An invariant of the calls and a property: the property holds of every call throughout a run exactly
if every stretch does what it is asked for. -/
theorem throughout_every_iff (invariant : κ → Prop) {starts : σ → α → Prop}
    {resumes : σ → κ → ι → Prop}
    (hkept : ∀ memory call arguments, invariant (kind.start memory call arguments).2)
    (hkeeps : ∀ memory call status answer, invariant status →
      invariant (kind.resume memory call status answer).2) (hstart : ∀ memory call arguments,
      property (kind.start memory call arguments).2 ↔ starts memory arguments)
    (hresume : ∀ memory call status answer, invariant status → property status →
      (property (kind.resume memory call status answer).2 ↔ resumes memory status answer))
    (events : List (Stretch α ι)) (s : Overlap σ κ) (hinvariant : s.Every invariant)
    (hproperty : s.Every property) : Throughout (step kind) (Every property) s events ↔
      Along (step kind) (Asks starts resumes) s events := by
  rw [← throughout_and_iff (fun event _ s ↦ every_step_of_forall hkept hkeeps s event) s hinvariant]
  refine throughout_iff_along (fun s event hs ↦ ?_) events s ⟨hinvariant, hproperty⟩
  have hnext := every_step_of_forall hkept hkeeps s event hs.1
  have hboth : ∀ s : Overlap σ κ, s.Every invariant ∧ s.Every property ↔
      s.Every fun status ↦ invariant status ∧ property status := by
    intro s
    constructor
    · exact fun h call status hcall ↦ ⟨h.1 call status hcall, h.2 call status hcall⟩
    · exact fun h ↦ ⟨fun call status hcall ↦ (h call status hcall).1,
        fun call status hcall ↦ (h call status hcall).2⟩
  rw [hboth] at hs ⊢
  refine every_step ?_ ?_ s event hs
  · intro memory call arguments
    rw [and_iff_right (hkept memory call arguments), hstart]
  · intro memory call status answer hstatus
    rw [and_iff_right (hkeeps memory call status answer hstatus.1),
      hresume memory call status answer hstatus.1 hstatus.2]

/-- No call has started. -/
theorem every_initial (memory : σ) (property : κ → Prop) :
    Every property (⟨memory, fun _ ↦ none⟩ : Overlap σ κ) := by
  intro call status h
  cases h

end

end Overlap

end Transition
