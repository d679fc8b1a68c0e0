import CloudPlatform.Core.Python

/-!
# The hourly publishing account

`select_hourly_owner` chooses the account that one (type, region) pair is published under, from the
accounts that listed the pair, in account order, each with the outcome of its image read. The four
ways of a choice are `selectHourlyOwner_cases`.
-/

namespace CloudPlatform.Leaseweb

/-- One hourly instance type at one region. -/
structure CloudInstanceType where
  id : String
  name : String
  vcpu : ℤ
  ramGb : ℤ
  diskGb : ℤ
  traffic : Option String := none
  hourlyCostMinor : ℤ
  currency : String
  hourlyRateExact : String
  monthlyCostMinor : Option ℤ := none
  deriving DecidableEq

/-- The outcome of an account's image read for a region: usable images, a definitive nothing, a
definitive refusal, or no conclusion. -/
inductive ImagesState
  | ok
  | empty
  | rejected
  | unknown
  deriving DecidableEq

/-- `_UNPUBLISHABLE_IMAGE_STATES`. -/
def unpublishableImageStates : List ImagesState := [.empty, .rejected]

/-- An account that listed a pair. -/
structure RankedEntry where
  accountId : String
  imagesState : ImagesState
  item : CloudInstanceType

/-- The account that an observation is published under. -/
structure OwnerChoice where
  accountId : String
  imagesState : ImagesState
  item : CloudInstanceType
  published : Bool
  reason : Option String := none

namespace RankedEntry

/-- The account proved the pair and can take new orders. -/
def proven (limited : List String) (entry : RankedEntry) : Bool :=
  entry.accountId ∉ limited && entry.imagesState = .ok

/-- The account can take new orders, and nothing says that it cannot serve the pair. -/
def candidate (limited : List String) (entry : RankedEntry) : Bool :=
  entry.accountId ∉ limited && entry.imagesState ∉ unpublishableImageStates

/-- The entry is the current owner's. -/
def ownedBy (owner : Option String) (entry : RankedEntry) : Bool :=
  some entry.accountId = owner

/-- The choice of an entry. -/
def choose (entry : RankedEntry) (published : Bool) (reason : Option String) : OwnerChoice :=
  ⟨entry.accountId, entry.imagesState, entry.item, published, reason⟩

/-- The current owner keeps the pair. -/
def keep (limited : List String) (entry : RankedEntry) : OwnerChoice :=
  entry.choose (entry.candidate limited)
    (if entry.accountId ∈ limited then some "capacity-limit"
    else if entry.imagesState = .empty then some "no-usable-images"
    else if entry.imagesState = .rejected then some "account-cannot-serve"
    else none)

/-- The pair stays known but unpublished. -/
def leave (limited : List String) (entry : RankedEntry) : OwnerChoice :=
  entry.choose false
    (if entry.accountId ∈ limited then some "capacity-limit"
    else if entry.imagesState = .empty then some "no-usable-images"
    else some "account-cannot-serve")

end RankedEntry

/-- `select_hourly_owner`; there is no choice in an empty ranking. -/
def selectHourlyOwner (ranked : List RankedEntry) (currentOwner : Option String)
    (limited : List String) : Option OwnerChoice :=
  let owner := ranked.find? (·.ownedBy currentOwner)
  match owner.filter (·.proven limited) with
  | some entry => some (entry.choose true none)
  | none =>
    match ranked.find? (·.proven limited) with
    | some entry => some (entry.choose true none)
    | none =>
      match owner with
      | some entry => some (entry.keep limited)
      | none =>
        match ranked.find? (·.candidate limited) with
        | some entry => some (entry.choose true none)
        | none => ranked.head?.map (·.leave limited)

section Selection

variable {ranked : List RankedEntry} {currentOwner : Option String} {limited : List String}
  {entry : RankedEntry}

theorem proven_eq_true : entry.proven limited = true ↔
    entry.accountId ∉ limited ∧ entry.imagesState = .ok := by
  simp [RankedEntry.proven]

theorem candidate_eq_true : entry.candidate limited = true ↔
    entry.accountId ∉ limited ∧ (entry.imagesState = .ok ∨ entry.imagesState = .unknown) := by
  simp only [RankedEntry.candidate, unpublishableImageStates, Bool.and_eq_true, decide_eq_true_eq]
  cases entry.imagesState <;> simp

theorem candidate_of_proven (h : entry.proven limited = true) : entry.candidate limited = true := by
  rw [proven_eq_true] at h
  exact candidate_eq_true.mpr ⟨h.1, Or.inl h.2⟩

/-- The four ways of a choice, each with the entry it is made of. -/
inductive ChosenAs (ranked : List RankedEntry) (currentOwner : Option String)
    (limited : List String) (entry : RankedEntry) : OwnerChoice → Prop
  /-- A proven entry publishes: the owner's, or else the first. -/
  | proved (mem : entry ∈ ranked) (proven : entry.proven limited = true)
      (first : ranked.find? (·.ownedBy currentOwner) = some entry ∨
        ((∀ owner ∈ ranked.find? (·.ownedBy currentOwner), owner.proven limited = false) ∧
          ranked.find? (·.proven limited) = some entry)) :
      ChosenAs ranked currentOwner limited entry (entry.choose true none)
  /-- No entry is proven, and the owner keeps the pair. -/
  | kept (owner : ranked.find? (·.ownedBy currentOwner) = some entry)
      (unproven : ∀ other ∈ ranked, other.proven limited = false) :
      ChosenAs ranked currentOwner limited entry (entry.keep limited)
  /-- No entry is proven or the owner's, and the first that may publishes. -/
  | fallback (unowned : ranked.find? (·.ownedBy currentOwner) = none)
      (unproven : ∀ other ∈ ranked, other.proven limited = false)
      (first : ranked.find? (·.candidate limited) = some entry) :
      ChosenAs ranked currentOwner limited entry (entry.choose true none)
  /-- No entry may publish. -/
  | left (unowned : ranked.find? (·.ownedBy currentOwner) = none)
      (none_may : ∀ other ∈ ranked, other.candidate limited = false)
      (first : ranked.head? = some entry) :
      ChosenAs ranked currentOwner limited entry (entry.leave limited)

variable {choice : OwnerChoice}

theorem selectHourlyOwner_cases (h : selectHourlyOwner ranked currentOwner limited = some choice) :
    ∃ entry, ChosenAs ranked currentOwner limited entry choice := by
  unfold selectHourlyOwner at h
  cases howner : (ranked.find? (·.ownedBy currentOwner)).filter (·.proven limited) with
  | some entry =>
    simp only [howner] at h
    obtain rfl := Option.some.inj h
    obtain ⟨hfind, hproven⟩ := Option.filter_eq_some_iff.mp howner
    exact ⟨entry, .proved (List.mem_of_find?_eq_some hfind) hproven (Or.inl hfind)⟩
  | none =>
    have hunproven : ∀ owner ∈ ranked.find? (·.ownedBy currentOwner),
        owner.proven limited = false := by
      intro owner hmem
      have := Option.filter_eq_none_iff.mp howner owner hmem
      simpa using this
    simp only [howner] at h
    cases hproven : ranked.find? (·.proven limited) with
    | some entry =>
      simp only [hproven] at h
      obtain rfl := Option.some.inj h
      exact ⟨entry, .proved (List.mem_of_find?_eq_some hproven) (List.find?_some hproven)
        (Or.inr ⟨hunproven, hproven⟩)⟩
    | none =>
      have hnone : ∀ other ∈ ranked, other.proven limited = false := by
        simpa using List.find?_eq_none.mp hproven
      simp only [hproven] at h
      cases hfind : ranked.find? (·.ownedBy currentOwner) with
      | some entry =>
        simp only [hfind] at h
        obtain rfl := Option.some.inj h
        exact ⟨entry, .kept hfind hnone⟩
      | none =>
        simp only [hfind] at h
        cases hcandidate : ranked.find? (·.candidate limited) with
        | some entry =>
          simp only [hcandidate] at h
          obtain rfl := Option.some.inj h
          exact ⟨entry, .fallback hfind hnone hcandidate⟩
        | none =>
          simp only [hcandidate] at h
          obtain ⟨entry, hhead, rfl⟩ := Option.map_eq_some_iff.mp h
          have hcandidates := List.find?_eq_none.mp hcandidate
          exact ⟨entry, .left hfind (by simpa using hcandidates) hhead⟩

/-- A ranking that is not empty has a choice. -/
theorem selectHourlyOwner_isSome (hne : ranked ≠ []) :
    (selectHourlyOwner ranked currentOwner limited).isSome := by
  unfold selectHourlyOwner
  cases ranked with
  | nil => exact absurd rfl hne
  | cons first rest =>
    dsimp only
    split
    · rfl
    · split
      · rfl
      · split
        · rfl
        · split
          · rfl
          · rfl

theorem ChosenAs.mem (h : ChosenAs ranked currentOwner limited entry choice) : entry ∈ ranked := by
  cases h with
  | proved hmem _ _ => exact hmem
  | kept howner _ => exact List.mem_of_find?_eq_some howner
  | fallback _ _ hfirst => exact List.mem_of_find?_eq_some hfirst
  | left _ _ hfirst => exact List.mem_of_mem_head? hfirst

/-- The choice carries the facts of its entry. -/
theorem ChosenAs.entry_eq (h : ChosenAs ranked currentOwner limited entry choice) :
    choice.accountId = entry.accountId ∧ choice.imagesState = entry.imagesState ∧
      choice.item = entry.item := by
  cases h <;> exact ⟨rfl, rfl, rfl⟩

/-- A pair is published exactly through an entry that may. -/
theorem ChosenAs.published_iff (h : ChosenAs ranked currentOwner limited entry choice) :
    choice.published = true ↔ entry.candidate limited = true := by
  cases h with
  | proved hmem hproven _ =>
    exact ⟨fun _ ↦ candidate_of_proven hproven, fun _ ↦ rfl⟩
  | kept _ _ => rfl
  | fallback _ _ hfirst =>
    have hcandidate : entry.candidate limited = true := by simpa using List.find?_some hfirst
    exact ⟨fun _ ↦ hcandidate, fun _ ↦ rfl⟩
  | left _ hnone hfirst =>
    have hcandidate := hnone entry (List.mem_of_mem_head? hfirst)
    rw [hcandidate]
    exact Iff.rfl

/-- The entry that a pair is published through: the owner's if it is proven, else the first proven
one; where none is proven the owner's, or the first where the owner is not in the ranking, if that
one may. -/
inductive Leads (ranked : List RankedEntry) (currentOwner : Option String) (limited : List String)
    (entry : RankedEntry) : Prop
  | owner (owner : ranked.find? (·.ownedBy currentOwner) = some entry)
      (proven : entry.proven limited = true)
  | proven (unproven : ∀ owner ∈ ranked.find? (·.ownedBy currentOwner),
        owner.proven limited = false)
      (first : ranked.find? (·.proven limited) = some entry)
  | keeper (owner : ranked.find? (·.ownedBy currentOwner) = some entry)
      (unproven : ∀ other ∈ ranked, other.proven limited = false)
      (candidate : entry.candidate limited = true)
  | first (unowned : ranked.find? (·.ownedBy currentOwner) = none)
      (unproven : ∀ other ∈ ranked, other.proven limited = false)
      (first : ranked.find? (·.candidate limited) = some entry)

/-- A published choice is that of the entry that leads. -/
theorem ChosenAs.leads (h : ChosenAs ranked currentOwner limited entry choice)
    (hpublished : choice.published = true) : Leads ranked currentOwner limited entry := by
  have hcandidate := h.published_iff.mp hpublished
  cases h with
  | proved _ hproven hfirst =>
    cases hfirst with
    | inl howner => exact .owner howner hproven
    | inr hfirst => exact .proven hfirst.1 hfirst.2
  | kept howner hunproven => exact .keeper howner hunproven hcandidate
  | fallback hunowned hunproven hfirst => exact .first hunowned hunproven hfirst
  | left _ hnone hfirst =>
    rw [hnone entry (List.mem_of_mem_head? hfirst)] at hcandidate
    cases hcandidate

/-- The entry that leads is chosen, and published. -/
theorem Leads.chosen (h : Leads ranked currentOwner limited entry) :
    ∃ choice, selectHourlyOwner ranked currentOwner limited = some choice ∧
      choice.published = true ∧ choice.accountId = entry.accountId := by
  unfold selectHourlyOwner
  cases h with
  | owner howner hproven =>
    have howned : (ranked.find? (·.ownedBy currentOwner)).filter (·.proven limited) = some entry :=
      Option.filter_eq_some_iff.mpr ⟨howner, hproven⟩
    refine ⟨entry.choose true none, ?_, rfl, rfl⟩
    simp only [howned]
  | proven hunproven hfirst =>
    have howner : (ranked.find? (·.ownedBy currentOwner)).filter (·.proven limited) = none :=
      Option.filter_eq_none_iff.mpr (by simpa using hunproven)
    refine ⟨entry.choose true none, ?_, rfl, rfl⟩
    simp [howner, hfirst]
  | keeper howner hunproven hcandidate =>
    have howned : (some entry).filter (·.proven limited) = none :=
      Option.filter_eq_none_iff.mpr
        (by simpa using hunproven entry (List.mem_of_find?_eq_some howner))
    have hnone : ranked.find? (·.proven limited) = none :=
      List.find?_eq_none.mpr (by simpa using hunproven)
    refine ⟨entry.keep limited, ?_, hcandidate, rfl⟩
    simp only [howner, howned, hnone]
  | first hunowned hunproven hfirst =>
    have hnone : ranked.find? (·.proven limited) = none :=
      List.find?_eq_none.mpr (by simpa using hunproven)
    refine ⟨entry.choose true none, ?_, rfl, rfl⟩
    simp [hunowned, hnone, hfirst]

end Selection

end CloudPlatform.Leaseweb
