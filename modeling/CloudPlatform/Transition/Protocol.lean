import CloudPlatform.Transition.Program

/-!
# Protocols of programs

A `Protocol` says what a program may do next from what it has learned so far: `permits` is the rule
of each call, `learns` the bookkeeping of its reply. Whether a program `Follows` it is a fact about
its text alone, since nothing is said of the shared state. What a thread has learned is connected to
the state by `know`, which the calls of the others must leave true.

`Pool.throughout_of_follows` turns the one into the other: once every permitted call keeps the shared
invariant, what the caller knows and what the others know, the invariant holds in every run of the
programs that follow. A system is then verified by one fact a program and one fact a call.
-/

namespace Transition

/-- The rule of the calls of a program, over what it has learned. `truthful` are the replies that
the system gives to a call in some state. -/
structure Protocol (ε Call : Type) (Out : Call → Type) (Λ : Type) where
  permits : Λ → Call → Prop
  truthful : (request : Call) → Except ε (Out request) → Prop
  learns : Λ → (request : Call) → Except ε (Out request) → Λ

section Following

variable {ε Call : Type} {Out : Call → Type} {Λ α β : Type} (P : Protocol ε Call Out Λ)

/-- Every call of the program is permitted, whatever the replies so far, and the program ends with
its postcondition. -/
def Follows (post : Except ε α → Λ → Prop) : Program ε Call Out α → Λ → Prop
  | .done outcome, l => post outcome l
  | .call request next, l => P.permits l request ∧
      ∀ reply, P.truthful request reply → Follows post (next reply) (P.learns l request reply)

variable {P}

theorem Follows.mono {strong weak : Except ε α → Λ → Prop} (himp : ∀ r l, strong r l → weak r l) :
    ∀ {p : Program ε Call Out α} {l : Λ}, Follows P strong p l → Follows P weak p l
  | .done _, _, h => himp _ _ h
  | .call _ _, _, h => ⟨h.1, fun reply hreply ↦ (h.2 reply hreply).mono himp⟩

variable {l : Λ} {outcome : Except ε α} {request : Call} {post : Except ε β → Λ → Prop}
  {f : α → Program ε Call Out β} {R : β → Λ → Prop}

/-- The rule of a program that returns. -/
theorem follows_pure {post : Except ε α → Λ → Prop} {value : α} (h : post (.ok value) l) :
    Follows P post (pure value : Program ε Call Out α) l :=
  h

/-- The rule of a program that raises: nothing is to be known. -/
theorem follows_returns_error {R : α → Λ → Prop} {raised : ε} :
    Follows P (Returns R) (.done (.error raised) : Program ε Call Out α) l :=
  trivial

/-- The rule of a last step that may raise. -/
theorem follows_returns_done {R : α → Λ → Prop} (h : ∀ value, outcome = .ok value → R value l) :
    Follows P (Returns R) (.done outcome : Program ε Call Out α) l := by
  cases outcome with
  | ok value => exact h value rfl
  | error raised => trivial

/-- The rule of a call that is the last. -/
theorem follows_last {post : Except ε (Out request) → Λ → Prop} (hpermits : P.permits l request)
    (h : ∀ reply, P.truthful request reply → post reply (P.learns l request reply)) :
    Follows P post (Program.perform request) l :=
  ⟨hpermits, h⟩

/-- The rule of sequencing. -/
theorem follows_bind : ∀ {p : Program ε Call Out α} {l : Λ},
      Follows P (fun outcome l ↦ match outcome with
        | .ok value => Follows P post (f value) l
        | .error raised => post (.error raised) l) p l →
      Follows P post (p >>= f) l
  | .done (.ok _), _, h => h
  | .done (.error _), _, h => h
  | .call _ _, _, h => ⟨h.1, fun reply hreply ↦ follows_bind (h.2 reply hreply)⟩

/-- The rule of exception handlers. -/
theorem follows_tryCatch {post : Except ε α → Λ → Prop} {handler : ε → Program ε Call Out α} :
    ∀ {p : Program ε Call Out α} {l : Λ}, Follows P (fun outcome l ↦ match outcome with
        | .ok value => post (.ok value) l
        | .error raised => Follows P post (handler raised) l) p l →
      Follows P post (tryCatch p handler) l
  | .done (.ok _), _, h => h
  | .done (.error _), _, h => h
  | .call _ _, _, h => ⟨h.1, fun reply hreply ↦ follows_tryCatch (h.2 reply hreply)⟩

/-- The rule of a program whose outcome is examined. -/
theorem follows_attempt {f : Except ε α → Program ε Call Out β} :
    ∀ {p : Program ε Call Out α} {l : Λ},
      Follows P (fun outcome l ↦ Follows P post (f outcome) l) p l →
      Follows P post (p.attempt >>= f) l
  | .done _, _, h => h
  | .call _ _, _, h => ⟨h.1, fun reply hreply ↦ follows_attempt (h.2 reply hreply)⟩

/-- The rule of one call. -/
theorem follows_perform {f : Out request → Program ε Call Out β} (hpermits : P.permits l request)
    (hok : ∀ value, P.truthful request (.ok value) →
      Follows P post (f value) (P.learns l request (.ok value)))
    (herror : ∀ raised, P.truthful request (.error raised) →
      post (.error raised) (P.learns l request (.error raised))) :
    Follows P post (Program.perform request >>= f) l := by
  refine follows_bind ⟨hpermits, fun reply hreply ↦ ?_⟩
  cases reply with
  | ok value => exact hok value hreply
  | error raised => exact herror raised hreply

/-- The rule of a pure step that may raise. -/
theorem follows_lift (hok : ∀ value, outcome = .ok value → Follows P post (f value) l)
    (herror : ∀ raised, outcome = .error raised → post (.error raised) l) :
    Follows P post ((liftM outcome : Program ε Call Out α) >>= f) l := by
  cases outcome with
  | ok value => exact hok value rfl
  | error raised => exact herror raised rfl

/-- Sequencing, when each part says what it knows on return. -/
theorem follows_returns_bind {Q : α → Λ → Prop} {p : Program ε Call Out α}
    (hp : Follows P (Returns Q) p l) (hf : ∀ value l, Q value l → Follows P (Returns R) (f value) l) :
     Follows P (Returns R) (p >>= f) l := by
  refine follows_bind (hp.mono fun outcome l houtcome ↦ ?_)
  cases outcome with
  | ok value => exact hf value l houtcome
  | error raised => trivial

/-- The rule of one call, for what is known on return. -/
theorem follows_returns_perform {f : Out request → Program ε Call Out β}
    (hpermits : P.permits l request) (hok : ∀ value, P.truthful request (.ok value) →
      Follows P (Returns R) (f value) (P.learns l request (.ok value))) :
    Follows P (Returns R) (Program.perform request >>= f) l :=
  follows_perform hpermits hok fun _ _ ↦ trivial

/-- The rule of a pure step that may raise, for what is known on return. -/
theorem follows_returns_lift
    (hok : ∀ value, outcome = .ok value → Follows P (Returns R) (f value) l) :
    Follows P (Returns R) ((liftM outcome : Program ε Call Out α) >>= f) l :=
  follows_lift hok fun _ _ ↦ trivial

/-- A program whose outcome is examined, when what follows an exception needs to know nothing. -/
theorem follows_returns_attempt {Q : α → Λ → Prop} {p : Program ε Call Out α}
    {f : Except ε α → Program ε Call Out β} (hp : Follows P (Returns Q) p l)
    (hok : ∀ value l, Q value l → Follows P post (f (.ok value)) l)
    (herror : ∀ raised l, Follows P post (f (.error raised)) l) :
    Follows P post (p.attempt >>= f) l := by
  refine follows_attempt (hp.mono fun outcome l houtcome ↦ ?_)
  cases outcome with
  | ok value => exact hok value l houtcome
  | error raised => exact herror raised l

/-- A call whose outcome is ignored, and what follows it. -/
theorem follows_attempt_perform {f : Except ε (Out request) → Program ε Call Out β}
    (hpermits : P.permits l request)
    (h : ∀ reply, P.truthful request reply → Follows P post (f reply) (P.learns l request reply)) :
    Follows P post ((Program.perform request).attempt >>= f) l :=
  follows_attempt ⟨hpermits, h⟩

/-- What is never forgotten is known at the end. -/
theorem Follows.keeps {M : Λ → Prop} (hM : ∀ l request reply, M l → M (P.learns l request reply))
    {post : Except ε α → Λ → Prop} : ∀ {p : Program ε Call Out α} {l : Λ}, Follows P post p l → M l →
      Follows P (fun outcome l ↦ post outcome l ∧ M l) p l
  | .done _, _, h, hl => ⟨h, hl⟩
  | .call request _, l, h, hl =>
    ⟨h.1, fun reply hreply ↦ (h.2 reply hreply).keeps hM (hM l request reply hl)⟩

/-- A program over the calls of a subsystem follows the protocol of the whole, if it follows what that
says of its own calls. -/
theorem Follows.lift {Call' : Type} {Out' : Call' → Type} {P' : Protocol ε Call' Out' Λ}
    {embed : Call → Call'} {back : ∀ request, Out' (embed request) → Out request}
    (hpermits : ∀ l request, P.permits l request → P'.permits l (embed request))
    (htruthful : ∀ request reply, P'.truthful (embed request) reply →
      P.truthful request (reply.map (back request)))
    (hlearns : ∀ l request reply, P'.learns l (embed request) reply =
      P.learns l request (reply.map (back request))) {post : Except ε α → Λ → Prop} :
    ∀ {p : Program ε Call Out α} {l : Λ}, Follows P post p l → Follows P' post (p.lift embed back) l
  | .done _, _, h => h
  | .call request _, l, h => by
    refine ⟨hpermits l request h.1, fun reply hreply ↦ ?_⟩
    rw [hlearns]
    exact (h.2 _ (htruthful request reply hreply)).lift hpermits htruthful hlearns

end Following

/-! ### Sound protocols -/

section Adequacy

variable {ε Call : Type} {Out : Call → Type} {Λ Oracle σ : Type} (P : Protocol ε Call Out Λ)
  (handle : ℕ → (request : Call) → Oracle → σ → Except ε (Out request) × σ)

/-- What the calls of a protocol are to keep: the shared invariant, what the caller knows, and what
every other thread knows. -/
structure Protocol.Sound (shared : σ → Prop) (know : ℕ → σ → Λ → Prop)
    (allowed : ℕ → σ → Call → Prop) : Prop where
  truthful : ∀ me request oracle s, shared s → P.truthful request (handle me request oracle s).1
  kept : ∀ me request oracle s l, shared s → know me s l → P.permits l request →
    allowed me s request → shared (handle me request oracle s).2
  learned : ∀ me request oracle s l, shared s → know me s l → P.permits l request →
    allowed me s request → know me (handle me request oracle s).2
      (P.learns l request (handle me request oracle s).1)
  others : ∀ me request oracle s l, shared s → know me s l → P.permits l request →
    allowed me s request → ∀ other, other ≠ me → ∀ l', know other s l' →
      know other (handle me request oracle s).2 l'

end Adequacy

/-! ### What the calls of a pool are known to meet -/

section Informed

variable {ε Call : Type} {Out : Call → Type} {Λ Oracle σ Entry : Type}
variable {P : Protocol ε Call Out Λ}
variable {handle : ℕ → (request : Call) → Oracle → σ → Except ε (Out request) × σ}
variable {shared : σ → Prop} {know : ℕ → σ → Λ → Prop} {allowed : ℕ → σ → Call → Prop}
variable {program : Entry → Program ε Call Out Unit} {admits : Entry → Prop}

/-- A call of a thread that knows enough to make it, in a state of the system. -/
def Informed (P : Protocol ε Call Out Λ) (shared : σ → Prop) (know : ℕ → σ → Λ → Prop) (me : ℕ)
    (s : σ) (request : Call) : Prop :=
  shared s ∧ ∃ l, know me s l ∧ P.permits l request

/-- Every thread of a pool follows the protocol from what it knows. -/
structure Pool.Following (P : Protocol ε Call Out Λ) (shared : σ → Prop) (know : ℕ → σ → Λ → Prop)
    (pool : Pool ε Call Out σ) : Prop where
  inv : shared pool.shared
  follows : ∀ thread p, pool.threads[thread]? = some p →
    ∃ l, Follows P (fun _ _ ↦ True) p l ∧ know thread pool.shared l

/-- The thread that makes a call is informed. -/
theorem Pool.Following.informed {pool : Pool ε Call Out σ} (hpool : pool.Following P shared know)
    {thread : ℕ} {request : Call} {next : Except ε (Out request) → Program ε Call Out Unit}
    (hthread : pool.threads[thread]? = some (.call request next)) :
    Informed P shared know thread pool.shared request := by
  obtain ⟨l, hfollows, hknow⟩ := hpool.follows thread _ hthread
  exact ⟨hpool.inv, l, hknow, hfollows.1⟩

/-- One allowed event keeps the threads at the protocol. -/
theorem Pool.Following.step (hP : P.Sound handle shared know allowed) {start : Entry → Λ}
    (hfollows : ∀ entry, admits entry → Follows P (fun _ _ ↦ True) (program entry) (start entry))
    (hstart : ∀ me entry s, shared s → know me s (start entry)) {pool : Pool ε Call Out σ}
    (hpool : pool.Following P shared know) (event : PoolEvent Entry Oracle)
    (hallowed : pool.Allowed admits allowed event) :
    (pool.step handle program event).Following P shared know := by
  cases event with
  | spawn entry =>
    refine ⟨hpool.inv, fun thread p hthread ↦ ?_⟩
    rcases getElem?_spawned hthread with hold | rfl
    · exact hpool.follows thread p hold
    · exact ⟨start entry, hfollows entry hallowed, hstart thread entry _ hpool.inv⟩
  | advance thread oracle =>
    simp only [Pool.step]
    split
    · rename_i request next hthread
      obtain ⟨l, hnext, hknow⟩ := hpool.follows thread _ hthread
      have hcall : allowed thread pool.shared request := by
        simpa only [Pool.Allowed, hthread] using hallowed
      refine ⟨hP.kept thread request oracle _ l hpool.inv hknow hnext.1 hcall, fun other p hother ↦ ?_⟩
      rcases getElem?_advanced hother with ⟨rfl, rfl⟩ | ⟨hne, hold⟩
      · exact ⟨_, hnext.2 _ (hP.truthful other request oracle _ hpool.inv),
          hP.learned other request oracle _ l hpool.inv hknow hnext.1 hcall⟩
      · obtain ⟨l', hfollows', hknow'⟩ := hpool.follows other p hold
        exact ⟨l', hfollows', hP.others thread request oracle _ l hpool.inv hknow hnext.1 hcall
          other hne l' hknow'⟩
    · exact hpool

section Runs

variable (hP : P.Sound handle shared know allowed) (start : Entry → Λ)
  (hfollows : ∀ entry, admits entry → Follows P (fun _ _ ↦ True) (program entry) (start entry))
  (hstart : ∀ me entry s, shared s → know me s (start entry))

include hP hfollows hstart

/-- The threads stay at the protocol throughout every run. -/
theorem Pool.throughout_following (events : List (PoolEvent Entry Oracle)) (s : σ) (hs : shared s)
    (hallowed : Along (Pool.step handle program) (Pool.Allowed admits allowed) ⟨s, []⟩ events) :
    Throughout (Pool.step handle program) (Pool.Following P shared know) ⟨s, []⟩ events := by
  have hinit : (⟨s, []⟩ : Pool ε Call Out σ).Following P shared know :=
    ⟨hs, fun thread p hthread ↦ by simp at hthread⟩
  have hstep : ∀ (pool : Pool ε Call Out σ) event, pool.Following P shared know →
      pool.Allowed admits allowed event → (pool.step handle program event).Following P shared know :=
    fun pool event hpool ↦ hpool.step hP hfollows hstart event
  exact throughout_of_along hstep events _ hinit hallowed

/-- The shared invariant holds throughout every run of a pool whose programs follow the protocol. -/
theorem Pool.throughout_of_follows (events : List (PoolEvent Entry Oracle)) (s : σ) (hs : shared s)
    (hallowed : Along (Pool.step handle program) (Pool.Allowed admits allowed) ⟨s, []⟩ events) :
    Throughout (Pool.step handle program) (fun pool ↦ shared pool.shared) ⟨s, []⟩ events :=
  (Pool.throughout_following hP start hfollows hstart events s hs hallowed).mono
    fun _ hpool ↦ hpool.inv

/-- Every call of a run is informed. -/
theorem Pool.along_informed (events : List (PoolEvent Entry Oracle)) (s : σ) (hs : shared s)
    (hallowed : Along (Pool.step handle program) (Pool.Allowed admits allowed) ⟨s, []⟩ events) :
    Along (Pool.step handle program)
      (Pool.Allowed (fun _ ↦ True) (Informed P shared know)) ⟨s, []⟩ events := by
  have hfollowing := Pool.throughout_following hP start hfollows hstart events s hs hallowed
  refine (along_of_throughout (fun pool event hpool _ _ ↦ ?_) events _ hfollowing).mp hallowed
  cases event with
  | spawn entry => trivial
  | advance thread oracle =>
    unfold Pool.Allowed
    dsimp only
    split
    · rename_i request next hthread
      exact hpool.informed hthread
    · trivial

/-- When a good state needs the condition on the informed calls, and the condition keeps an invariant
that makes every state good, a run is good throughout exactly if its calls meet the condition. -/
theorem Pool.throughout_iff_allowed {good invariant : σ → Prop} {condition : ℕ → σ → Call → Prop}
    (hgood : ∀ s, invariant s → good s)
    (hkeeps : ∀ me s request oracle, Informed P shared know me s request → invariant s →
      condition me s request → invariant (handle me request oracle s).2)
    (hneeds : ∀ me s request oracle, Informed P shared know me s request → good s →
      good (handle me request oracle s).2 → condition me s request)
    (events : List (PoolEvent Entry Oracle)) (s : σ) (hs : shared s) (hinit : invariant s)
    (hallowed : Along (Pool.step handle program) (Pool.Allowed admits allowed) ⟨s, []⟩ events) :
    Throughout (Pool.step handle program) (fun pool ↦ good pool.shared) ⟨s, []⟩ events ↔
      Along (Pool.step handle program) (Pool.Allowed (fun _ ↦ True) condition) ⟨s, []⟩ events := by
  have hinformed := Pool.along_informed hP start hfollows hstart events s hs hallowed
  constructor
  · intro hthroughout
    have hevent : ∀ (pool : Pool ε Call Out σ) (event : PoolEvent Entry Oracle), good pool.shared →
        good (pool.step handle program event).shared →
        pool.Allowed (fun _ ↦ True) (Informed P shared know) event →
          pool.Allowed (fun _ ↦ True) condition event := by
      intro pool event hbefore hafter
      cases event with
      | spawn entry => exact fun _ ↦ trivial
      | advance thread oracle =>
        simp only [Pool.step] at hafter
        unfold Pool.Allowed
        dsimp only
        split
        · rename_i request next hthread
          simp only [hthread] at hafter
          exact fun hcall ↦ hneeds thread _ request oracle hcall hbefore hafter
        · exact fun _ ↦ trivial
    exact (along_of_throughout hevent events _ hthroughout).mp hinformed
  · intro halong
    have hstep : ∀ (pool : Pool ε Call Out σ) event, invariant pool.shared →
        pool.Allowed (fun _ ↦ True) (Informed P shared know) event ∧
          pool.Allowed (fun _ ↦ True) condition event →
        invariant (pool.step handle program event).shared := by
      intro pool event hpool hevent
      cases event with
      | spawn entry => exact hpool
      | advance thread oracle =>
        unfold Pool.Allowed at hevent
        dsimp only at hevent
        simp only [Pool.step]
        split
        · rename_i request next hthread
          simp only [hthread] at hevent
          exact hkeeps thread _ request oracle hevent.1 hpool hevent.2
        · exact hpool
    exact (throughout_of_along hstep events _ hinit (hinformed.and halong)).mono
      fun pool hpool ↦ hgood _ hpool

end Runs

end Informed

end Transition
