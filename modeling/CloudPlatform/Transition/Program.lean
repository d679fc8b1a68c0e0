import CloudPlatform.Transition.Run

/-!
# Programs that call a shared system

A `Program` issues calls, each one atomic step on a shared state, and goes on with the value or the
exception it gets back. `Safe` is its proof rule: wherever the others may have moved the state since
the program's last call, its next call keeps the invariant, does nothing the others do not expect,
and leaves the program safe. What the others expect of a thread is its `rely` of them turned round,
so a discipline names one relation only. The per-call condition `allowed` restricts the runs that
are spoken of.

Two machines run programs. In a `Pool` any number of threads are spawned at any time, their calls
interleave, and a thread may never be advanced again. A `Solo` runs one program at a time, which a
restart abandons after any call. `Pool.throughout_inv` and `Solo.throughout_sound` carry `Safe` to
all their runs.

A call to another party may also fail before it takes effect, or its answer may be lost: `deliver`.
-/

namespace Transition

/-- A program over the calls of a system, with exceptions `ε`. -/
inductive Program (ε Call : Type) (Out : Call → Type) (α : Type) where
  | done (outcome : Except ε α)
  | call (request : Call) (next : Except ε (Out request) → Program ε Call Out α)

namespace Program

variable {ε Call : Type} {Out : Call → Type} {α β : Type}

/-- Sequencing; an exception skips what follows. -/
protected def bind : Program ε Call Out α → (α → Program ε Call Out β) → Program ε Call Out β
  | .done (.ok value), f => f value
  | .done (.error raised), _ => .done (.error raised)
  | .call request next, f => .call request fun reply ↦ (next reply).bind f

instance : Monad (Program ε Call Out) where
  pure value := .done (.ok value)
  bind := Program.bind

instance : MonadLift (Except ε) (Program ε Call Out) where
  monadLift outcome := .done outcome

/-- Issue one call. -/
def perform (request : Call) : Program ε Call Out (Out request) :=
  .call request .done

/-- Run the handler on an exception of the program. -/
def tryCatch : Program ε Call Out α → (ε → Program ε Call Out α) → Program ε Call Out α
  | .done (.ok value), _ => .done (.ok value)
  | .done (.error raised), handler => handler raised
  | .call request next, handler => .call request fun reply ↦ (next reply).tryCatch handler

instance : MonadExceptOf ε (Program ε Call Out) where
  throw raised := .done (.error raised)
  tryCatch := tryCatch

/-- The outcome of a program as a value, for the handlers of a `try` with several clauses. -/
def attempt : Program ε Call Out α → Program ε Call Out (Except ε α)
  | .done outcome => .done (.ok outcome)
  | .call request next => .call request fun reply ↦ (next reply).attempt

/-- A program over the calls of a subsystem, as a program over the whole system. -/
def lift {Call' : Type} {Out' : Call' → Type} (embed : Call → Call')
    (back : ∀ request, Out' (embed request) → Out request) :
    Program ε Call Out α → Program ε Call' Out' α
  | .done outcome => .done outcome
  | .call request next => .call (embed request) fun reply ↦
      (next (reply.map (back request))).lift embed back

end Program

/-! ### Disciplines -/

/-- What the threads of a system keep: the invariant of the state, for each thread what it relies on
the others to leave, and the condition on its calls. -/
structure Discipline (Call σ : Type) where
  inv : σ → Prop
  rely : ℕ → σ → σ → Prop
  allowed : ℕ → σ → Call → Prop
  rely_refl : ∀ me s, rely me s s
  rely_trans : ∀ me first second third, rely me first second → rely me second third →
    rely me first third

section Safety

variable {ε Call : Type} {Out : Call → Type} {Oracle σ α β : Type}
variable (handle : ℕ → (request : Call) → Oracle → σ → Except ε (Out request) × σ)
variable (D : Discipline Call σ) (me : ℕ)

/-- The step of one thread keeps the invariant and what every other thread relies on. -/
structure Discipline.Keeps (before after : σ) : Prop where
  inv : D.inv after
  rely : ∀ other, other ≠ me → D.rely other before after

/-- Every call of the program, in any state the others may leave it, keeps the discipline, and the
program ends with its postcondition. -/
def Safe (post : Except ε α → σ → Prop) : Program ε Call Out α → σ → Prop
  | .done outcome, s => post outcome s
  | .call request next, s => ∀ s', D.rely me s s' → D.inv s' → D.allowed me s' request →
      ∀ oracle, D.Keeps me s' (handle me request oracle s').2 ∧
        Safe post (next (handle me request oracle s').1) (handle me request oracle s').2

variable {handle D me}

variable {s : σ} {post : Except ε β → σ → Prop} {f : α → Program ε Call Out β} {Q : β → σ → Prop}
  {p : Program ε Call Out α}

@[simp] theorem safe_done {post : Except ε α → σ → Prop} {outcome : Except ε α} :
    Safe handle D me post (.done outcome : Program ε Call Out α) s ↔ post outcome s :=
  Iff.rfl

theorem safe_pure {post : Except ε α → σ → Prop} {value : α} (h : post (.ok value) s) :
    Safe handle D me post (pure value : Program ε Call Out α) s :=
  h

/-- A weaker postcondition. -/
theorem Safe.mono {strong weak : Except ε α → σ → Prop} (himp : ∀ r s, strong r s → weak r s) :
    ∀ {p : Program ε Call Out α} {s : σ}, Safe handle D me strong p s → Safe handle D me weak p s
  | .done _, _, h => himp _ _ h
  | .call _ _, _, h => fun s' hrely hinv hallowed oracle ↦
      ⟨(h s' hrely hinv hallowed oracle).1, (h s' hrely hinv hallowed oracle).2.mono himp⟩

/-- The rule of sequencing. -/
theorem safe_bind : ∀ {p : Program ε Call Out α} {s : σ},
      Safe handle D me (fun outcome s ↦ match outcome with
        | .ok value => Safe handle D me post (f value) s
        | .error raised => post (.error raised) s) p s →
      Safe handle D me post (p >>= f) s
  | .done (.ok _), _, h => h
  | .done (.error _), _, h => h
  | .call _ _, _, h => fun s' hrely hinv hallowed oracle ↦
      ⟨(h s' hrely hinv hallowed oracle).1, safe_bind (h s' hrely hinv hallowed oracle).2⟩

/-- The rule of exception handlers. -/
theorem safe_tryCatch {post : Except ε α → σ → Prop} {handler : ε → Program ε Call Out α} :
    ∀ {p : Program ε Call Out α} {s : σ}, Safe handle D me (fun outcome s ↦ match outcome with
        | .ok value => post (.ok value) s
        | .error raised => Safe handle D me post (handler raised) s) p s →
      Safe handle D me post (tryCatch p handler) s
  | .done (.ok _), _, h => h
  | .done (.error _), _, h => h
  | .call _ _, _, h => fun s' hrely hinv hallowed oracle ↦
      ⟨(h s' hrely hinv hallowed oracle).1, safe_tryCatch (h s' hrely hinv hallowed oracle).2⟩

/-- The rule of a program whose outcome is examined. -/
theorem safe_attempt {f : Except ε α → Program ε Call Out β} : ∀ {p : Program ε Call Out α} {s : σ},
      Safe handle D me (fun outcome s ↦ Safe handle D me post (f outcome) s) p s →
      Safe handle D me post (p.attempt >>= f) s
  | .done _, _, h => h
  | .call _ _, _, h => fun s' hrely hinv hallowed oracle ↦
      ⟨(h s' hrely hinv hallowed oracle).1, safe_attempt (h s' hrely hinv hallowed oracle).2⟩

/-- The rule of one call and what follows it. -/
theorem safe_perform {request : Call} {f : Out request → Program ε Call Out β}
    (h : ∀ s', D.rely me s s' → D.inv s' → D.allowed me s' request → ∀ oracle,
      D.Keeps me s' (handle me request oracle s').2 ∧ match (handle me request oracle s').1 with
        | .ok value => Safe handle D me post (f value) (handle me request oracle s').2
        | .error raised => post (.error raised) (handle me request oracle s').2) :
    Safe handle D me post (Program.perform request >>= f) s := by
  refine safe_bind fun s' hrely hinv hallowed oracle ↦ ?_
  obtain ⟨hkeeps, hnext⟩ := h s' hrely hinv hallowed oracle
  refine ⟨hkeeps, ?_⟩
  cases hreply : (handle me request oracle s').1 with
  | ok value => simpa only [safe_done, hreply] using hnext
  | error raised => simpa only [safe_done, hreply] using hnext

/-- What a program is to establish when it returns; nothing is asked of an exception. -/
def Returns (P : α → σ → Prop) : Except ε α → σ → Prop
  | .ok value, s => P value s
  | .error _, _ => True

/-- Sequencing, when each part says what it establishes on return. -/
theorem safe_returns_bind {P : α → σ → Prop} (hp : Safe handle D me (Returns P) p s)
    (hf : ∀ value s, P value s → Safe handle D me (Returns Q) (f value) s) :
    Safe handle D me (Returns Q) (p >>= f) s := by
  refine safe_bind (hp.mono fun outcome s houtcome ↦ ?_)
  cases outcome with
  | ok value => exact hf value s houtcome
  | error raised => trivial

/-- The rule of one call, for postconditions on return. -/
theorem safe_returns_perform {request : Call} {f : Out request → Program ε Call Out β}
    (h : ∀ s', D.rely me s s' → D.inv s' → D.allowed me s' request → ∀ oracle,
      D.Keeps me s' (handle me request oracle s').2 ∧
        ∀ value, (handle me request oracle s').1 = .ok value →
          Safe handle D me (Returns Q) (f value) (handle me request oracle s').2) :
    Safe handle D me (Returns Q) (Program.perform request >>= f) s := by
  refine safe_perform fun s' hrely hinv hallowed oracle ↦ ?_
  obtain ⟨hkeeps, hnext⟩ := h s' hrely hinv hallowed oracle
  refine ⟨hkeeps, ?_⟩
  cases hreply : (handle me request oracle s').1 with
  | ok value => exact hnext value hreply
  | error raised => trivial

/-- The rule of a pure step that may raise. -/
theorem safe_returns_lift {outcome : Except ε α}
    (h : ∀ value, outcome = .ok value → Safe handle D me (Returns Q) (f value) s) :
    Safe handle D me (Returns Q) ((liftM outcome : Program ε Call Out α) >>= f) s := by
  cases outcome with
  | ok value => exact h value rfl
  | error raised => trivial

/-- The rule of exception handlers, when the handler is safe wherever the exception comes. -/
theorem safe_returns_tryCatch {Q : α → σ → Prop} {handler : ε → Program ε Call Out α}
    (hp : Safe handle D me (Returns Q) p s)
    (hhandler : ∀ raised s, Safe handle D me (Returns Q) (handler raised) s) :
    Safe handle D me (Returns Q) (tryCatch p handler) s := by
  refine safe_tryCatch (hp.mono fun outcome s houtcome ↦ ?_)
  cases outcome with
  | ok value => exact houtcome
  | error raised => exact hhandler raised s

theorem safe_returns_true {Q : α → σ → Prop} (h : Safe handle D me (Returns Q) p s) :
    Safe handle D me (fun _ _ ↦ True) p s :=
  h.mono fun _ _ _ ↦ trivial

/-- The steps of others leave a program safe, when nothing is asked of its end. -/
theorem Safe.of_rely {s s' : σ} (hrely : D.rely me s s') (h : Safe handle D me (fun _ _ ↦ True) p s) :
    Safe handle D me (fun _ _ ↦ True) p s' := by
  cases p with
  | done outcome => trivial
  | call request next =>
    exact fun later hlater ↦ h later (D.rely_trans me s s' later hrely hlater)

end Safety

/-! ### Pools of threads -/

/-- The shared state, and what is left of each thread. -/
structure Pool (ε Call : Type) (Out : Call → Type) (σ : Type) where
  shared : σ
  threads : List (Program ε Call Out Unit)

/-- A thread starts, or makes its next call. -/
inductive PoolEvent (Entry Oracle : Type)
  | spawn (entry : Entry)
  | advance (thread : ℕ) (oracle : Oracle)

namespace Pool

variable {ε Call : Type} {Out : Call → Type} {Oracle Entry σ : Type}
variable (handle : ℕ → (request : Call) → Oracle → σ → Except ε (Out request) × σ)
variable (program : Entry → Program ε Call Out Unit)

/-- One event of the pool. -/
def step (pool : Pool ε Call Out σ) : PoolEvent Entry Oracle → Pool ε Call Out σ
  | .spawn entry => { pool with threads := pool.threads ++ [program entry] }
  | .advance thread oracle =>
    match pool.threads[thread]? with
    | some (.call request next) =>
      let (reply, shared) := handle thread request oracle pool.shared
      ⟨shared, pool.threads.set thread (next reply)⟩
    | _ => pool

/-- The condition on an event: on the entry that it spawns, or on the call that it makes. -/
def Allowed (admits : Entry → Prop) (allowed : ℕ → σ → Call → Prop) (pool : Pool ε Call Out σ) :
    PoolEvent Entry Oracle → Prop
  | .spawn entry => admits entry
  | .advance thread _ =>
    match pool.threads[thread]? with
    | some (.call request _) => allowed thread pool.shared request
    | _ => True

instance (admits : Entry → Prop) (allowed : ℕ → σ → Call → Prop) [DecidablePred admits]
    [∀ me s request, Decidable (allowed me s request)] (pool : Pool ε Call Out σ) :
    (event : PoolEvent Entry Oracle) → Decidable (pool.Allowed admits allowed event)
  | .spawn entry => inferInstanceAs (Decidable (admits entry))
  | .advance thread _ =>
    match h : pool.threads[thread]? with
    | some (.call request _) =>
      decidable_of_iff (allowed thread pool.shared request) (by simp [Allowed, h])
    | some (.done _) => .isTrue (by simp [Allowed, h])
    | none => .isTrue (by simp [Allowed, h])

/-- A weaker condition on the calls. -/
theorem Allowed.mono {admits : Entry → Prop} {strong weak : ℕ → σ → Call → Prop}
    (himp : ∀ me s request, strong me s request → weak me s request) {pool : Pool ε Call Out σ}
    {event : PoolEvent Entry Oracle} (h : pool.Allowed admits strong event) :
    pool.Allowed admits weak event := by
  cases event with
  | spawn entry => exact h
  | advance thread oracle =>
    unfold Allowed at h ⊢
    dsimp only at h ⊢
    split
    · rename_i request next hthread
      simp only [hthread] at h
      exact himp _ _ _ h
    · trivial

/-- Two conditions on the calls. -/
theorem Allowed.and {admits : Entry → Prop} {first second : ℕ → σ → Call → Prop}
    {pool : Pool ε Call Out σ} {event : PoolEvent Entry Oracle} (hfirst : pool.Allowed admits first event)
    (hsecond : pool.Allowed admits second event) :
    pool.Allowed admits (fun me s request ↦ first me s request ∧ second me s request) event := by
  cases event with
  | spawn entry => exact hfirst
  | advance thread oracle =>
    unfold Allowed at hfirst hsecond ⊢
    dsimp only at hfirst hsecond ⊢
    split
    · rename_i request next hthread
      simp only [hthread] at hfirst hsecond
      exact ⟨hfirst, hsecond⟩
    · trivial

/-- Every run is allowed where nothing is asked. -/
theorem along_allowed_true (events : List (PoolEvent Entry Oracle)) (pool : Pool ε Call Out σ) :
    Along (step handle program) (Allowed (fun _ ↦ True) fun _ _ _ ↦ True) pool events := by
  refine along_of_forall (fun pool event ↦ ?_) events pool
  cases event with
  | spawn entry => trivial
  | advance thread oracle =>
    unfold Allowed
    dsimp only
    split <;> trivial

/-- The threads behind a spawn. -/
theorem getElem?_spawned {β : Type} {threads : List β} {spawned p : β} {thread : ℕ}
    (h : (threads ++ [spawned])[thread]? = some p) : threads[thread]? = some p ∨ p = spawned := by
  rw [List.getElem?_append] at h
  split at h
  · exact .inl h
  · exact .inr (List.mem_singleton.mp (List.mem_of_getElem? h))

/-- The threads behind a call of one of them. -/
theorem getElem?_advanced {β : Type} {threads : List β} {next p : β} {thread other : ℕ}
    (h : (threads.set thread next)[other]? = some p) :
    other = thread ∧ p = next ∨ other ≠ thread ∧ threads[other]? = some p := by
  by_cases heq : other = thread
  · rw [heq, List.getElem?_set_self'] at h
    obtain ⟨_, -, rfl⟩ := Option.map_eq_some_iff.mp h
    exact .inl ⟨heq, rfl⟩
  · rw [List.getElem?_set_ne (Ne.symm heq)] at h
    exact .inr ⟨heq, h⟩

/-- The invariant of a pool: the state keeps the discipline's invariant and every thread is safe. -/
structure Sound (D : Discipline Call σ) (pool : Pool ε Call Out σ) : Prop where
  inv : D.inv pool.shared
  safe : ∀ thread p, pool.threads[thread]? = some p →
    Safe handle D thread (fun _ _ ↦ True) p pool.shared

variable {handle program}

/-- One allowed event keeps a pool sound. -/
theorem Sound.step {D : Discipline Call σ} {admits : Entry → Prop} {pool : Pool ε Call Out σ}
    (hpool : Sound handle D pool) (hentry : ∀ me entry s, admits entry → D.inv s →
      Safe handle D me (fun _ _ ↦ True) (program entry) s)
    (event : PoolEvent Entry Oracle) (hallowed : pool.Allowed admits D.allowed event) :
    Sound handle D (pool.step handle program event) := by
  cases event with
  | spawn entry =>
    refine ⟨hpool.inv, fun thread p hthread ↦ ?_⟩
    rcases getElem?_spawned hthread with hold | rfl
    · exact hpool.safe thread p hold
    · exact hentry thread entry pool.shared hallowed hpool.inv
  | advance thread oracle =>
    simp only [Pool.step]
    split
    · rename_i request next hthread
      obtain ⟨hkeeps, hnext⟩ := hpool.safe thread _ hthread pool.shared (D.rely_refl _ _) hpool.inv
        (by simpa only [Allowed, hthread] using hallowed) oracle
      refine ⟨hkeeps.inv, fun other p hother ↦ ?_⟩
      rcases getElem?_advanced hother with ⟨rfl, rfl⟩ | ⟨hne, hold⟩
      · exact hnext
      · exact (hpool.safe other p hold).of_rely (hkeeps.rely other hne)
    · exact hpool

/-- The invariant of a discipline holds throughout every run whose calls it allows. -/
theorem throughout_inv {D : Discipline Call σ} {admits : Entry → Prop}
    (hentry : ∀ me entry s, admits entry → D.inv s →
      Safe handle D me (fun _ _ ↦ True) (program entry) s)
    (events : List (PoolEvent Entry Oracle)) (start : σ) (hstart : D.inv start)
    (hallowed : Along (step handle program) (Allowed admits D.allowed) ⟨start, []⟩ events) :
    Throughout (step handle program) (fun pool ↦ D.inv pool.shared) ⟨start, []⟩ events := by
  have hsound : Sound handle D (⟨start, []⟩ : Pool ε Call Out σ) :=
    ⟨hstart, fun thread p hthread ↦ by simp at hthread⟩
  have hstep : ∀ (pool : Pool ε Call Out σ) event, Sound handle D pool →
      Allowed admits D.allowed pool event → Sound handle D (step handle program pool event) :=
    fun _ event hpool hevent ↦ hpool.step hentry event hevent
  exact (throughout_of_along hstep events _ hsound hallowed).mono fun _ hpool ↦ hpool.inv

end Pool

/-! ### One program at a time -/

/-- The discipline of a program that runs alone: the state is as its last call left it. -/
def Discipline.solo {Call σ : Type} (inv : σ → Prop) (allowed : σ → Call → Prop) :
    Discipline Call σ where
  inv := inv
  rely me s s' := me = 0 → s = s'
  allowed _ := allowed
  rely_refl _ _ _ := rfl
  rely_trans _ _ _ _ h₁ h₂ h := (h₁ h).trans (h₂ h)

/-- The shared state, and what is left of the program that runs, if one was started. -/
structure Solo (ε Call : Type) (Out : Call → Type) (σ α : Type) where
  shared : σ
  current : Option (Program ε Call Out α) := none

/-- A program starts, which abandons the one that runs, or the program makes its next call. -/
inductive SoloEvent (Entry Oracle : Type)
  | start (entry : Entry)
  | advance (oracle : Oracle)

namespace Solo

variable {ε Call : Type} {Out : Call → Type} {Oracle Entry σ α β : Type}
variable (handle : (request : Call) → Oracle → σ → Except ε (Out request) × σ)
variable (program : Entry → Program ε Call Out α)

/-- One event. -/
def step (solo : Solo ε Call Out σ α) : SoloEvent Entry Oracle → Solo ε Call Out σ α
  | .start entry => { solo with current := some (program entry) }
  | .advance oracle =>
    match solo.current with
    | some (.call request next) =>
      let (reply, shared) := handle request oracle solo.shared
      ⟨shared, some (next reply)⟩
    | _ => solo

/-- The condition on the call that an event makes. -/
def Allowed (allowed : σ → Call → Prop) (solo : Solo ε Call Out σ α) :
    SoloEvent Entry Oracle → Prop
  | .start _ => True
  | .advance _ =>
    match solo.current with
    | some (.call request _) => allowed solo.shared request
    | _ => True

instance (allowed : σ → Call → Prop) [∀ s request, Decidable (allowed s request)]
    (solo : Solo ε Call Out σ α) :
    (event : SoloEvent Entry Oracle) → Decidable (solo.Allowed allowed event)
  | .start _ => .isTrue trivial
  | .advance _ =>
    match h : solo.current with
    | some (.call request _) =>
      decidable_of_iff (allowed solo.shared request) (by simp [Allowed, h])
    | some (.done _) => .isTrue (by simp [Allowed, h])
    | none => .isTrue (by simp [Allowed, h])

theorem Allowed.mono {strong weak : σ → Call → Prop} (himp : ∀ s request, strong s request →
    weak s request) {solo : Solo ε Call Out σ α} {event : SoloEvent Entry Oracle}
    (h : solo.Allowed strong event) : solo.Allowed weak event := by
  cases event with
  | start entry => trivial
  | advance oracle =>
    simp only [Allowed] at h ⊢
    split
    · rename_i request next hcurrent
      rw [hcurrent] at h
      exact himp _ _ h
    · trivial

/-- A program that runs alone is safe. -/
abbrev Safe (inv : σ → Prop) (allowed : σ → Call → Prop) (P : α → σ → Prop)
    (p : Program ε Call Out α) (s : σ) : Prop :=
  Transition.Safe (fun _ ↦ handle) (.solo inv allowed) 0 (Returns P) p s

/-- The state keeps the invariant and the program that runs is safe. -/
structure Sound (inv : σ → Prop) (allowed : σ → Call → Prop) (P : α → σ → Prop)
    (solo : Solo ε Call Out σ α) : Prop where
  kept : inv solo.shared
  safe : ∀ p, solo.current = some p → Solo.Safe handle inv allowed P p solo.shared

variable {handle program} {inv : σ → Prop} {allowed : σ → Call → Prop} {P : α → σ → Prop}

/-- A program over a part of the state that runs alone is safe over the whole: the part is seen
through `update`, which replaces it, and the rest stays as it is. -/
theorem safe_lift {Call' : Type} {Out' : Call' → Type} {Oracle' τ : Type}
    {handle' : (request : Call') → Oracle' → τ → Except ε (Out' request) × τ}
    {embed : Call → Call'} {back : ∀ request, Out' (embed request) → Out request}
    (update : σ → τ) {inv : τ → Prop} {allowed : τ → Call' → Prop} {Q : β → σ → Prop}
    (hhandle : ∀ request oracle' s, ∃ oracle,
      (handle' (embed request) oracle' (update s)).1.map (back request) =
        (handle request oracle s).1 ∧
      (handle' (embed request) oracle' (update s)).2 = update (handle request oracle s).2) :
    ∀ (p : Program ε Call Out β) (s : σ),
      Safe handle (fun s ↦ inv (update s)) (fun s request ↦ allowed (update s) (embed request)) Q
        p s →
      Safe handle' inv allowed (fun value t ↦ ∃ s, t = update s ∧ Q value s) (p.lift embed back)
        (update s)
  | .done (.ok _), s, h => ⟨s, rfl, h⟩
  | .done (.error _), _, _ => trivial
  | .call request next, s, h => by
    intro t hrely hinv hallowed oracle'
    obtain rfl := hrely rfl
    obtain ⟨oracle, hreply, hstate⟩ := hhandle request oracle' s
    obtain ⟨hkeeps, hnext⟩ := h s (fun _ ↦ rfl) hinv hallowed oracle
    refine ⟨⟨?_, fun other hother hzero ↦ absurd hzero hother⟩, ?_⟩
    · rw [hstate]
      exact hkeeps.inv
    · have hlifted := safe_lift update hhandle (next (handle request oracle s).1) _ hnext
      rw [← hreply, ← hstate] at hlifted
      exact hlifted

/-- The rule of one call of a program that runs alone. -/
theorem safe_perform {Q : β → σ → Prop} {request : Call} {f : Out request → Program ε Call Out β}
    {s : σ} (h : inv s → allowed s request → ∀ oracle,
      inv (handle request oracle s).2 ∧ ∀ value, (handle request oracle s).1 = .ok value →
        Safe handle inv allowed Q (f value) (handle request oracle s).2) :
    Safe handle inv allowed Q (Program.perform request >>= f) s := by
  refine safe_returns_perform fun s' hrely hinv hallowed oracle ↦ ?_
  obtain rfl := hrely rfl
  obtain ⟨hkept, hnext⟩ := h hinv hallowed oracle
  exact ⟨⟨hkept, fun other hother hzero ↦ absurd hzero hother⟩, hnext⟩

theorem Sound.step {solo : Solo ε Call Out σ α} (hsolo : Sound handle inv allowed P solo)
    (hentry : ∀ entry s, inv s → Safe handle inv allowed P (program entry) s)
    (event : SoloEvent Entry Oracle) (hallowed : solo.Allowed allowed event) :
    Sound handle inv allowed P (solo.step handle program event) := by
  cases event with
  | start entry =>
    refine ⟨hsolo.kept, fun p hp ↦ ?_⟩
    obtain rfl := Option.some.inj hp
    exact hentry entry solo.shared hsolo.kept
  | advance oracle =>
    simp only [Solo.step]
    split
    · rename_i request next hcurrent
      have hcall := hsolo.safe _ hcurrent
      have hcondition : allowed solo.shared request := by
        simpa only [Allowed, hcurrent] using hallowed
      obtain ⟨hkeeps, hnext⟩ := hcall solo.shared (fun _ ↦ rfl) hsolo.kept hcondition oracle
      refine ⟨hkeeps.inv, fun p hp ↦ ?_⟩
      obtain rfl := Option.some.inj hp
      exact hnext
    · exact hsolo

/-- Throughout every run whose calls are allowed, the invariant holds, and a program that has
returned has established its postcondition. -/
theorem throughout_sound (hentry : ∀ entry s, inv s → Safe handle inv allowed P (program entry) s)
    (events : List (SoloEvent Entry Oracle)) (start : σ) (hstart : inv start)
    (hallowed : Along (step handle program) (Allowed allowed) ⟨start, none⟩ events) :
    Throughout (step handle program)
      (fun solo ↦ inv solo.shared ∧ ∀ value, solo.current = some (.done (.ok value)) →
        P value solo.shared) ⟨start, none⟩ events := by
  have hsound : Sound handle inv allowed P ⟨start, none⟩ := ⟨hstart, fun p hp ↦ by cases hp⟩
  have hstep : ∀ (solo : Solo ε Call Out σ α) event, Sound handle inv allowed P solo →
      Allowed allowed solo event → Sound handle inv allowed P (step handle program solo event) :=
    fun _ event hsolo hevent ↦ hsolo.step hentry event hevent
  refine (throughout_of_along hstep events _ hsound hallowed).mono fun solo hsolo ↦ ?_
  exact ⟨hsolo.kept, fun value hvalue ↦ hsolo.safe _ hvalue⟩

/-- Every run is allowed when nothing is forbidden. -/
theorem along_allowed_true (events : List (SoloEvent Entry Oracle)) : ∀ solo : Solo ε Call Out σ α,
      Along (step handle program) (Allowed fun _ _ ↦ True) solo events := by
  induction events with
  | nil => intro solo; trivial
  | cons event rest ih =>
    refine fun solo ↦ ⟨?_, ih _⟩
    cases event with
    | start entry => trivial
    | advance oracle =>
      simp only [Allowed]
      split <;> trivial

end Solo

/-! ### Calls whose answers may be lost -/

/-- How a call ends. -/
inductive Delivery
  | done
  | failed
  | lost

section Delivering

variable {ε α σ : Type}

/-- The reply to a call and the state that it leaves; `effect` is what it does when it takes effect. -/
def deliver (failure : ε) (before : σ) (effect : Except ε α × σ) : Delivery → Except ε α × σ
  | .done => effect
  | .failed => (.error failure, before)
  | .lost => (.error failure, effect.2)

/-- The rule of the state that a call leaves. -/
theorem deliver_snd {P : σ → Prop} {failure : ε} {before : σ} {effect : Except ε α × σ}
    (hbefore : P before) (heffect : P effect.2) (delivery : Delivery) :
    P (deliver failure before effect delivery).2 := by
  cases delivery with
  | done => exact heffect
  | failed => exact hbefore
  | lost => exact heffect

/-- The rule of the reply together with the state: a failure tells nothing. -/
theorem deliver_rule {P : Except ε α → σ → Prop} {failure : ε} {before : σ}
    {effect : Except ε α × σ} (hbefore : P (.error failure) before)
    (hdone : P effect.1 effect.2) (hlost : P (.error failure) effect.2) (delivery : Delivery) :
    P (deliver failure before effect delivery).1 (deliver failure before effect delivery).2 := by
  cases delivery with
  | done => exact hdone
  | failed => exact hbefore
  | lost => exact hlost

end Delivering

end Transition
