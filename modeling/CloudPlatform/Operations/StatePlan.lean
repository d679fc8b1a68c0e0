import CloudPlatform.Compute.Domain

/-!
# The state repair plan

The provider-neutral view of a remote server, and the pure decision of the state reconciler on one
pair of a local and a remote state. The provider is the source of truth only for PROVISIONING, RUNNING
and STOPPED servers; a drift that no repair explains is contained for review.
-/

namespace CloudPlatform.Operations

open Compute (ServerLifecycleState)

/-- The provider-neutral lifecycle of a remote server. -/
inductive ProviderServerState
  | creating
  | running
  | stopped
  | deleting
  | notFound
  | unknown
  deriving DecidableEq

/-- The text of a remote state in the reasons of the plan. -/
def ProviderServerState.value : ProviderServerState → String
  | .creating => "creating"
  | .running => "running"
  | .stopped => "stopped"
  | .deleting => "deleting"
  | .notFound => "not_found"
  | .unknown => "unknown"

/-- `value.lower()`, for the letters of the keywords. -/
def lower (value : String) : String :=
  String.ofList (value.toList.map Char.toLower)

/-- `word in text`. -/
def occursIn (word text : String) : Bool :=
  text.toList.tails.any word.toList.isPrefixOf

/-- The keyword sets of the normalizer, the more specific ones first. -/
def statusWords : List (ProviderServerState × List String) :=
  [(.deleting, ["delet", "terminat", "destroy", "remov"]),
    (.stopped, ["shut", "stop", "off", "paus", "suspend", "halt"]),
    (.creating, ["creat", "build", "provision", "initial", "pending", "start", "activ"]),
    (.running, ["run"])]

/-- `normalize_provider_status`. -/
def normalizeProviderStatus (status : Option String) : ProviderServerState :=
  match status with
  | none => .unknown
  | some text =>
    let s := lower (strip text)
    if s = "" then .unknown
    else
      match statusWords.find? fun entry ↦ entry.2.any (occursIn · s) with
      | some (state, _) => state
      | none => .unknown

inductive StateAction
  | none
  | inProgress
  | repair
  | contain
  deriving DecidableEq

/-- The decision for one pair of states; the target is set for a repair. -/
structure StatePlan where
  action : StateAction
  target : Option ServerLifecycleState := none
  reason : String := ""

/-- The table `_REPAIR`; no row for a local state that the provider does not own. -/
def repairTargets :
    ServerLifecycleState → Option (List (ProviderServerState × ServerLifecycleState))
  | .provisioning => some [(.running, .running)]
  | .running => some [(.stopped, .stopped)]
  | .stopped => some [(.running, .running)]
  | _ => none

/-- The table `_IN_PROGRESS`. -/
def inProgressStates : ServerLifecycleState → List ProviderServerState
  | .provisioning => [.creating]
  | _ => []

/-- The remote state that matches a local one exactly. -/
def matchingState : ServerLifecycleState → Option ProviderServerState
  | .running => some .running
  | .stopped => some .stopped
  | _ => none

/-- `plan_state_repair`. -/
def planStateRepair (here : ServerLifecycleState) (remote : ProviderServerState) : StatePlan :=
  match repairTargets here with
  | none => { action := .none }
  | some targets =>
    if remote = .notFound then
      { action := .contain, reason := "provider resource no longer found; never auto-deleted" }
    else if remote ∈ inProgressStates here then
      { action := .inProgress, reason := s!"provider still {remote.value}" }
    else
      match targets.lookup remote with
      | some target =>
        { action := .repair, target := some target, reason := s!"provider is {remote.value}" }
      | none =>
        if matchingState here = some remote then
          { action := .none, reason := "matches provider" }
        else
          { action := .contain
            reason := s!"unexpected provider state {remote.value} for local {here.value}" }

/-- What the provider must own for the planner to act on a server. -/
def ProviderOwned (state : ServerLifecycleState) : Prop :=
  state = .provisioning ∨ state = .running ∨ state = .stopped

instance (state : ServerLifecycleState) : Decidable (ProviderOwned state) :=
  inferInstanceAs (Decidable (_ ∨ _))

/-- A repair goes along the lifecycle table, from a state that the provider owns. -/
theorem target_mem_allowed (here : ServerLifecycleState) (remote : ProviderServerState) :
    ∀ target ∈ (planStateRepair here remote).target,
      ProviderOwned here ∧ target ∈ here.allowed := by
  cases here <;> cases remote <;> decide

/-- A server that runs at the provider is never contained by the plan: its row is left, or repaired to
RUNNING. -/
theorem planStateRepair_running (here : ServerLifecycleState) :
    (planStateRepair here .running).action = .none ∨
      (planStateRepair here .running).action = .repair ∧
        (planStateRepair here .running).target = some .running ∧
        (here = .provisioning ∨ here = .stopped) := by
  cases here <;> decide

/-- A repair never goes to review. -/
theorem target_ne_manualReview (here : ServerLifecycleState) (remote : ProviderServerState) :
    ∀ target ∈ (planStateRepair here remote).target, target ≠ .manualReview := by
  cases here <;> cases remote <;> decide

/-- The plan moves a row to RUNNING only on a provider that runs it. -/
theorem remote_of_target_running (here : ServerLifecycleState) (remote : ProviderServerState) :
    (planStateRepair here remote).target = some .running → remote = .running := by
  cases here <;> cases remote <;> decide

example : normalizeProviderStatus (some " Powering OFF ") = .stopped := by decide

-- The keyword search is never unfolded in a proof.
attribute [irreducible] normalizeProviderStatus

end CloudPlatform.Operations
