import CloudPlatform.Core.Python
import CloudPlatform.Transition.Loop
import Mathlib.Data.List.Nodup

/-!
# The discovery of ordering locations

`_discover_account`: the read-only discovery of one credential account. A work queue of candidate
locations is probed one by one; the answers add further locations, and a rejected key ends the
discovery where it stands. An account announces finitely many locations, so that the queue runs out.
-/

namespace CloudPlatform.Leaseweb

open Transition (Pass loop)

/-! ### Answers of the ordering API -/

/-- The verdict of one read-only location eligibility probe. -/
inductive LocationEligibility
  | eligibleAvailable
  | eligibleEmpty
  | ineligibleAccount
  | transientThrottled
  | transientUnknown
  | fatalAuthentication
  deriving DecidableEq

/-- `_DEFINITIVE_NEGATIVE_VERDICTS`. -/
def definitiveNegativeVerdicts : List LocationEligibility :=
  [.eligibleEmpty, .ineligibleAccount]

/-- One sellable VPS product at one location. -/
structure LeasewebProduct where
  id : String
  name : String
  location : String := ""
  vcpu : ℤ
  ramGb : ℤ
  diskGb : ℤ
  traffic : String := ""
  currency : String
  monthlyPriceMinor : ℤ
  monthlyPriceExact : String := ""
  deriving DecidableEq

/-- Full product detail; of it, what the sync reads. -/
structure LeasewebProductDetail where
  product : LeasewebProduct
  availableLocations : List String := []

/-- The outcome of probing one candidate location. -/
structure LocationProbe where
  eligibility : LocationEligibility
  products : List LeasewebProduct := []
  discoveredLocations : List String := []

/-- How an ordering read fails: `LeasewebAuthenticationError`, or any other exception. -/
inductive OrderingFailure
  | authentication
  | other

abbrev OrderingRead (α : Type) := Except OrderingFailure α

/-- One configured account with the answers of its reads, each of which is asked once in a run. All
the locations that it announces are within `reach`. -/
structure OrderingAccount where
  accountId : String
  contractTerm : String := "1_MONTH"
  billingCycle : String := "1_MONTH"
  discoverySeeds : List String := []
  listProductsUnscoped : OrderingRead (List LeasewebProduct) := .ok []
  probeLocation : String → OrderingRead LocationProbe
  getProduct : String → String → OrderingRead LeasewebProductDetail
  reach : List String
  announces : ∀ location probe, probeLocation location = .ok probe →
    ∀ extra ∈ probe.discoveredLocations, extra ∈ reach
  sells : ∀ location productId detail, getProduct location productId = .ok detail →
    ∀ extra ∈ detail.availableLocations, extra ∈ reach

/-! ### The work queue -/

/-- `KNOWN_VPS_DATACENTERS`. -/
def knownVpsDatacenters : List String :=
  ["AMS-01", "FRA-01", "FRA-10", "FRA-14", "LAX-12", "LON-01", "LON-11", "LON-12", "MTL-02",
    "SFO-12", "SIN-01", "SYD-12", "TYO-11", "WDC-02"]

/-- `merge_candidates` over the sources in order: codes in upper case, without the empty one. -/
def mergeCandidates (sources : List (List String)) : List String :=
  ((sources.flatten.map fun raw ↦ upper (strip raw)).filter (· ≠ "")).eraseDups

/-- The state of the discovery loop; `probes` is in the order of probing. -/
structure DiscoveryState where
  queue : List String
  probed : List String := []
  probes : List (String × LocationProbe) := []

/-- One credential account's read-only discovery outcome for one run. -/
structure AccountDiscovery where
  probes : List (String × LocationProbe) := []
  authFailed : Bool := false

/-- New locations join the queue. -/
def enqueue (probed : List String) : List String → List String → List String
  | queue, [] => queue
  | queue, extra :: rest =>
    if extra ∉ probed ∧ extra ∉ queue then enqueue probed (queue ++ [extra]) rest
    else enqueue probed queue rest

/-- `_optional_detail`; a failed read is never authoritative. The source remembers the outcome of a
pair, whose answer is the same here each time. -/
def OrderingAccount.optionalDetail (account : OrderingAccount) (location productId : String) :
    Option LeasewebProductDetail :=
  (account.getProduct location productId).toOption

/-- The locations that a probe and the details of its products announce, in order. -/
def OrderingAccount.announcedBy (account : OrderingAccount) (location : String)
    (probe : LocationProbe) : List String :=
  probe.discoveredLocations ++
    if probe.eligibility = .eligibleAvailable then
      probe.products.flatMap fun product ↦
        ((account.optionalDetail location product.id).map (·.availableLocations)).getD []
    else []

/-- The probe of a location, an inconclusive one for a failed read; `None` when the read rejects the
key. -/
def OrderingAccount.probeOf (account : OrderingAccount) (location : String) :
    Option LocationProbe :=
  match account.probeLocation location with
  | .ok probe => some probe
  | .error .authentication => none
  | .error .other => some { eligibility := .transientUnknown }

/-- One pass of the loop over the queue. -/
def OrderingAccount.discoverPass (account : OrderingAccount) (state : DiscoveryState) :
    Pass DiscoveryState AccountDiscovery :=
  match state.queue with
  | [] => .stop { probes := state.probes }
  | location :: rest =>
    if location ∈ state.probed then .again { state with queue := rest }
    else
      let probed := state.probed ++ [location]
      match account.probeOf location with
      | none => .stop { probes := state.probes, authFailed := true }
      | some probe =>
        let probes := state.probes ++ [(location, probe)]
        if probe.eligibility = .fatalAuthentication then
          .stop { probes := probes, authFailed := true }
        else .again {
          queue := enqueue probed rest (account.announcedBy location probe)
          probed := probed
          probes := probes }

/-- The candidates that a discovery starts from. -/
def OrderingAccount.startingQueue (account : OrderingAccount) (persisted priorLocations :
    List String) (unscoped : List LeasewebProduct) : List String :=
  mergeCandidates [account.discoverySeeds, knownVpsDatacenters, persisted, priorLocations,
    (unscoped.map (·.location)).filter (· ≠ "")]

/-- `_discover_account` within a number of passes. -/
def OrderingAccount.discoverWithin (account : OrderingAccount) (persisted priorLocations :
    List String) (passes : ℕ) : Option AccountDiscovery :=
  match account.listProductsUnscoped with
  | .error .authentication => some { authFailed := true }
  | read =>
    loop (fun _ ↦ account.discoverPass) passes 0
      { queue := account.startingQueue persisted priorLocations (read.toOption.getD []) }

/-- So many passes always do. -/
def OrderingAccount.passesFor (account : OrderingAccount) (persisted priorLocations :
    List String) : ℕ :=
  (account.startingQueue persisted priorLocations
    (account.listProductsUnscoped.toOption.getD [])).length + account.reach.length + 1

/-- `_discover_account`. -/
def OrderingAccount.discover (account : OrderingAccount) (persisted priorLocations :
    List String) : AccountDiscovery :=
  (account.discoverWithin persisted priorLocations
    (account.passesFor persisted priorLocations)).getD {}

/-! ### The discovery ends -/

section Termination

variable {account : OrderingAccount} {probed queue : List String} {state next : DiscoveryState}

/-- The locations that may still join a queue. -/
def OrderingAccount.outside (account : OrderingAccount) (probed queue : List String) :
    List String :=
  account.reach.filter fun location ↦ location ∉ probed ∧ location ∉ queue

/-- A location that joins the queue is no longer outside it. -/
theorem length_outside_append {extra : String} (hreach : extra ∈ account.reach)
    (hprobed : extra ∉ probed) (hqueue : extra ∉ queue) :
    (account.outside probed (queue ++ [extra])).length < (account.outside probed queue).length := by
  have hfilter : account.outside probed (queue ++ [extra]) =
      (account.outside probed queue).filter (· ≠ extra) := by
    rw [OrderingAccount.outside, OrderingAccount.outside, List.filter_filter]
    refine List.filter_congr fun location _ ↦ ?_
    rw [Bool.eq_iff_iff]
    simp only [List.mem_append, List.mem_singleton, Bool.and_eq_true, decide_eq_true_eq]
    tauto
  rw [hfilter, List.length_filter_lt_length_iff_exists]
  refine ⟨extra, List.mem_filter.mpr ⟨hreach, ?_⟩, by simp⟩
  simpa using ⟨hprobed, hqueue⟩

/-- Joining moves locations from outside into the queue. -/
theorem length_enqueue_le (probed : List String) {extras : List String}
    (hextras : ∀ extra ∈ extras, extra ∈ account.reach) (queue : List String) :
    (enqueue probed queue extras).length +
        (account.outside probed (enqueue probed queue extras)).length ≤
      queue.length + (account.outside probed queue).length := by
  induction extras generalizing queue with
  | nil => exact le_rfl
  | cons extra rest ih =>
    obtain ⟨hextra, hrest⟩ := List.forall_mem_cons.mp hextras
    rw [enqueue]
    by_cases hjoins : extra ∉ probed ∧ extra ∉ queue
    · have hlt := length_outside_append hextra hjoins.1 hjoins.2
      have hle := ih hrest (queue ++ [extra])
      rw [List.length_append, List.length_singleton] at hle
      rw [if_pos hjoins]
      omega
    · rw [if_neg hjoins]
      exact ih hrest queue

/-- Everything that a probe announces is within the account's reach. -/
theorem mem_reach_of_announcedBy {location : String} {probe : LocationProbe}
    (hprobe : account.probeOf location = some probe) :
    ∀ extra ∈ account.announcedBy location probe, extra ∈ account.reach := by
  intro extra hextra
  rcases List.mem_append.mp hextra with hdiscovered | hsold
  · unfold OrderingAccount.probeOf at hprobe
    split at hprobe
    · rename_i answered hanswer
      obtain rfl := Option.some.inj hprobe
      exact account.announces location answered hanswer extra hdiscovered
    · cases hprobe
    · obtain rfl := Option.some.inj hprobe
      cases hdiscovered
  · split at hsold
    · obtain ⟨product, -, hdetail⟩ := List.mem_flatMap.mp hsold
      unfold OrderingAccount.optionalDetail at hdetail
      cases hread : account.getProduct location product.id with
      | error failure =>
        rw [hread] at hdetail
        cases hdetail
      | ok detail =>
        rw [hread] at hdetail
        exact account.sells location product.id detail hread extra hdetail
    · cases hsold

/-- What is left to do: the queue, and the locations that may still join it. -/
def OrderingAccount.remaining (account : OrderingAccount) (state : DiscoveryState) : ℕ :=
  state.queue.length + (account.outside state.probed state.queue).length

/-- A pass that goes on leaves less to do. -/
theorem remaining_lt (h : account.discoverPass state = .again next) :
    account.remaining next < account.remaining state := by
  unfold OrderingAccount.discoverPass at h
  split at h
  · cases h
  · rename_i location rest hqueue
    unfold OrderingAccount.remaining
    rw [hqueue, List.length_cons]
    split at h
    · -- A location that was probed before only leaves the queue.
      rename_i hprobed
      obtain rfl := Pass.again.inj h
      have hsame : account.outside state.probed (location :: rest) =
          account.outside state.probed rest := by
        refine List.filter_congr fun other _ ↦ ?_
        by_cases hother : other = location
        · simp [hother, hprobed]
        · simp [hother]
      rw [hsame]
      dsimp only
      omega
    · dsimp only at h
      split at h
      · cases h
      · rename_i probe hprobe
        split at h
        · cases h
        · obtain rfl := Pass.again.inj h
          have hle := length_enqueue_le (state.probed ++ [location])
            (mem_reach_of_announcedBy hprobe) rest
          have hsame : account.outside (state.probed ++ [location]) rest =
              account.outside state.probed (location :: rest) := by
            refine List.filter_congr fun other _ ↦ ?_
            simp [and_assoc]
          rw [hsame] at hle
          dsimp only
          omega

/-- The discovery ends within its passes. -/
theorem discoverWithin_isSome (account : OrderingAccount) (persisted priorLocations : List String) :
    (account.discoverWithin persisted priorLocations
      (account.passesFor persisted priorLocations)).isSome := by
  unfold OrderingAccount.discoverWithin OrderingAccount.passesFor
  split
  · rfl
  · refine Transition.loop_isSome account.remaining (fun _ ↦ True)
      (fun _ _ _ _ hagain ↦ ⟨trivial, remaining_lt hagain⟩) _ _ _ trivial ?_
    have houtside := List.length_filter_le (fun location ↦ decide (location ∉ ([] : List String) ∧
      location ∉ account.startingQueue persisted priorLocations
        (account.listProductsUnscoped.toOption.getD []))) account.reach
    unfold OrderingAccount.remaining OrderingAccount.outside
    dsimp only
    omega

end Termination

/-! ### What a discovery has probed -/

/-- What the loop has probed so far is what it has probes of, each location once. -/
structure ProbedOnce (state : DiscoveryState) : Prop where
  probed : state.probes.map (·.1) = state.probed
  nodup : state.probed.Nodup

theorem ProbedOnce.append {state : DiscoveryState} (h : ProbedOnce state) {location : String}
    (hfresh : location ∉ state.probed) (probe : LocationProbe) :
    ((state.probes ++ [(location, probe)]).map (·.1)) = state.probed ++ [location] ∧
      (state.probed ++ [location]).Nodup := by
  rw [List.map_append, h.probed]
  refine ⟨rfl, List.Nodup.append h.nodup (List.nodup_singleton _) ?_⟩
  rw [List.disjoint_singleton]
  exact hfresh

theorem ProbedOnce.again {account : OrderingAccount} {state next : DiscoveryState}
    (h : ProbedOnce state) (hpass : account.discoverPass state = .again next) :
    ProbedOnce next := by
  unfold OrderingAccount.discoverPass at hpass
  split at hpass
  · cases hpass
  · split at hpass
    · obtain rfl := Pass.again.inj hpass
      exact ⟨h.probed, h.nodup⟩
    · rename_i location rest _ hfresh
      dsimp only at hpass
      split at hpass
      · cases hpass
      · rename_i probe _
        split at hpass
        · cases hpass
        · obtain rfl := Pass.again.inj hpass
          exact ⟨(h.append hfresh probe).1, (h.append hfresh probe).2⟩

theorem ProbedOnce.stop {account : OrderingAccount} {state : DiscoveryState}
    {discovery : AccountDiscovery} (h : ProbedOnce state)
    (hpass : account.discoverPass state = .stop discovery) :
    (discovery.probes.map (·.1)).Nodup := by
  have hprobes : (state.probes.map (·.1)).Nodup := by
    rw [h.probed]
    exact h.nodup
  unfold OrderingAccount.discoverPass at hpass
  split at hpass
  · obtain rfl := Pass.stop.inj hpass
    exact hprobes
  · split at hpass
    · cases hpass
    · rename_i location rest _ hfresh
      dsimp only at hpass
      split at hpass
      · obtain rfl := Pass.stop.inj hpass
        exact hprobes
      · rename_i probe _
        split at hpass
        · obtain rfl := Pass.stop.inj hpass
          rw [(h.append hfresh probe).1]
          exact (h.append hfresh probe).2
        · cases hpass

/-- No location is probed twice. -/
theorem nodup_probes (account : OrderingAccount) (persisted priorLocations : List String) :
    ((account.discover persisted priorLocations).probes.map (·.1)).Nodup := by
  unfold OrderingAccount.discover
  generalize account.passesFor persisted priorLocations = passes
  cases hwithin : account.discoverWithin persisted priorLocations passes with
  | none => exact List.nodup_nil
  | some discovery =>
    rw [Option.getD_some]
    unfold OrderingAccount.discoverWithin at hwithin
    split at hwithin
    · rw [← Option.some.inj hwithin]
      exact List.nodup_nil
    · exact Transition.loop_eq_some (fun _ ↦ ProbedOnce) (fun _ _ _ hinv ↦ hinv.again)
        (fun _ _ _ hinv ↦ hinv.stop) _ 0 _ _ ⟨rfl, List.nodup_nil⟩ hwithin

end CloudPlatform.Leaseweb
