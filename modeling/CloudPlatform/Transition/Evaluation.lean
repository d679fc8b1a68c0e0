import CloudPlatform.Transition.Program

/-!
# Single runs of a program

A program that runs alone, whose calls meet a given stream of oracles, has one outcome: `eval`.
`stateAfter` is what it leaves when it is stopped after so many calls. `Ends` is the predicate
transformer of `eval`: a postcondition on the outcome, the oracles that are left and the last state.
Its rules follow the text of the program, so a single run is proved the way it is read. `Stops` does
the same for a run that is cut off.
-/

namespace Transition

/-- The oracles behind the first. -/
def rest {Oracle : Type} (oracles : ℕ → Oracle) : ℕ → Oracle :=
  fun index ↦ oracles (index + 1)

@[simp] theorem rest_apply {Oracle : Type} (oracles : ℕ → Oracle) (index : ℕ) :
    rest oracles index = oracles (index + 1) :=
  rfl

section Running

variable {ε Call : Type} {Out : Call → Type} {Oracle σ α β : Type}
variable (handle : (request : Call) → Oracle → σ → Except ε (Out request) × σ)

/-- The outcome of a program that runs alone to its end, and the state it leaves; each call meets the
next oracle. -/
def Program.eval : Program ε Call Out α → (ℕ → Oracle) → σ → Except ε α × σ
  | .done outcome, _, s => (outcome, s)
  | .call request next, oracles, s =>
    (next (handle request (oracles 0) s).1).eval (rest oracles) (handle request (oracles 0) s).2

/-- The state that a program leaves when it is stopped after so many calls. -/
def Program.stateAfter : ℕ → Program ε Call Out α → (ℕ → Oracle) → σ → σ
  | 0, _, _, s => s
  | _ + 1, .done _, _, s => s
  | calls + 1, .call request next, oracles, s =>
    (next (handle request (oracles 0) s).1).stateAfter calls (rest oracles)
      (handle request (oracles 0) s).2

/-- The run of the program ends with its postcondition. -/
def Ends (post : Except ε α → (ℕ → Oracle) → σ → Prop) :
    Program ε Call Out α → (ℕ → Oracle) → σ → Prop
  | .done outcome, oracles, s => post outcome oracles s
  | .call request next, oracles, s =>
    Ends post (next (handle request (oracles 0) s).1) (rest oracles)
      (handle request (oracles 0) s).2

variable {handle}

variable {oracles : ℕ → Oracle} {s : σ} {request : Call}
  {post : Except ε β → (ℕ → Oracle) → σ → Prop} {f : α → Program ε Call Out β}

/-- The rule of a program that is done. -/
theorem ends_done {post : Except ε α → (ℕ → Oracle) → σ → Prop} {outcome : Except ε α}
    (h : post outcome oracles s) :
    Ends handle post (.done outcome : Program ε Call Out α) oracles s :=
  h

theorem ends_pure {post : Except ε α → (ℕ → Oracle) → σ → Prop} {value : α}
    (h : post (.ok value) oracles s) :
    Ends handle post (pure value : Program ε Call Out α) oracles s :=
  h

theorem ends_throw {post : Except ε α → (ℕ → Oracle) → σ → Prop} {raised : ε}
    (h : post (.error raised) oracles s) :
    Ends handle post (throw raised : Program ε Call Out α) oracles s :=
  h

/-- The rule of a program that makes a call. -/
theorem ends_call {post : Except ε α → (ℕ → Oracle) → σ → Prop}
    {next : Except ε (Out request) → Program ε Call Out α} :
    Ends handle post (.call request next) oracles s ↔
      Ends handle post (next (handle request (oracles 0) s).1) (rest oracles)
        (handle request (oracles 0) s).2 :=
  Iff.rfl

/-- What the rules of `Ends` establish is a fact about the evaluation. -/
theorem Ends.eval {post : Except ε α → σ → Prop} :
    ∀ {p : Program ε Call Out α} {oracles : ℕ → Oracle} {s : σ},
      Ends handle (fun outcome _ s ↦ post outcome s) p oracles s →
      post (p.eval handle oracles s).1 (p.eval handle oracles s).2
  | .done _, _, _, h => h
  | .call request next, oracles, s, h =>
    Ends.eval (p := next (handle request (oracles 0) s).1) h

theorem Ends.mono {strong weak : Except ε α → (ℕ → Oracle) → σ → Prop}
    (himp : ∀ outcome oracles s, strong outcome oracles s → weak outcome oracles s) :
    ∀ {p : Program ε Call Out α} {oracles : ℕ → Oracle} {s : σ},
      Ends handle strong p oracles s → Ends handle weak p oracles s
  | .done _, _, _, h => himp _ _ _ h
  | .call request next, oracles, s, h =>
    Ends.mono himp (p := next (handle request (oracles 0) s).1) h

/-- The oracles that a run leaves are those behind the ones that it met. -/
theorem Ends.left {post : Except ε α → (ℕ → Oracle) → σ → Prop} :
    ∀ {p : Program ε Call Out α} {oracles : ℕ → Oracle} {s : σ}, Ends handle post p oracles s →
      Ends handle (fun outcome left s ↦ post outcome left s ∧
        ∃ calls, left = fun index ↦ oracles (index + calls)) p oracles s
  | .done _, _, _, h => ⟨h, 0, rfl⟩
  | .call request next, oracles, s, h =>
    (Ends.left (p := next (handle request (oracles 0) s).1) h).mono
      fun _ _ _ ⟨hpost, calls, hleft⟩ ↦ ⟨hpost, calls + 1, hleft⟩

/-- The rule of sequencing. -/
theorem ends_bind : ∀ {p : Program ε Call Out α} {oracles : ℕ → Oracle} {s : σ},
      Ends handle (fun outcome oracles s ↦ match outcome with
        | .ok value => Ends handle post (f value) oracles s
        | .error raised => post (.error raised) oracles s) p oracles s →
      Ends handle post (p >>= f) oracles s
  | .done (.ok _), _, _, h => h
  | .done (.error _), _, _, h => h
  | .call request next, oracles, s, h =>
    ends_bind (p := next (handle request (oracles 0) s).1) h

/-- The rule of exception handlers. -/
theorem ends_tryCatch {post : Except ε α → (ℕ → Oracle) → σ → Prop}
    {handler : ε → Program ε Call Out α} :
    ∀ {p : Program ε Call Out α} {oracles : ℕ → Oracle} {s : σ},
      Ends handle (fun outcome oracles s ↦ match outcome with
        | .ok value => post (.ok value) oracles s
        | .error raised => Ends handle post (handler raised) oracles s) p oracles s →
      Ends handle post (tryCatch p handler) oracles s
  | .done (.ok _), _, _, h => h
  | .done (.error _), _, _, h => h
  | .call request next, oracles, s, h =>
    ends_tryCatch (p := next (handle request (oracles 0) s).1) h

/-- The rule of a program whose outcome is examined. -/
theorem ends_attempt {f : Except ε α → Program ε Call Out β} :
    ∀ {p : Program ε Call Out α} {oracles : ℕ → Oracle} {s : σ},
      Ends handle (fun outcome oracles s ↦ Ends handle post (f outcome) oracles s) p oracles s →
      Ends handle post (p.attempt >>= f) oracles s
  | .done _, _, _, h => h
  | .call request next, oracles, s, h =>
    ends_attempt (p := next (handle request (oracles 0) s).1) h

/-- The rule of a step that is done already. -/
theorem ends_ok {value : α} (h : Ends handle post (f value) oracles s) :
    Ends handle post ((.done (.ok value) : Program ε Call Out α) >>= f) oracles s :=
  h

/-- The rule of a step that raises. -/
theorem ends_error {raised : ε} (h : post (.error raised) oracles s) :
    Ends handle post ((.done (.error raised) : Program ε Call Out α) >>= f) oracles s :=
  h

/-- The rule of one call and what follows it. -/
theorem ends_perform {f : Out request → Program ε Call Out β}
    (h : match handle request (oracles 0) s with
      | (.ok value, s) => Ends handle post (f value) (rest oracles) s
      | (.error raised, s) => post (.error raised) (rest oracles) s) :
    Ends handle post (Program.perform request >>= f) oracles s := by
  refine ends_bind ?_
  rw [Program.perform, Ends, Ends]
  cases hreply : handle request (oracles 0) s with
  | mk reply after =>
    rw [hreply] at h
    cases reply with
    | ok value => exact h
    | error raised => exact h

/-- The rule of a call whose outcome is examined. -/
theorem ends_attemptCall {f : Except ε (Out request) → Program ε Call Out β}
    (h : Ends handle post (f (handle request (oracles 0) s).1) (rest oracles)
      (handle request (oracles 0) s).2) :
    Ends handle post ((Program.perform request).attempt >>= f) oracles s :=
  ends_attempt h

/-- The rule of a pure step that may raise. -/
theorem ends_lift {outcome : Except ε α}
    (hok : ∀ value, outcome = .ok value → Ends handle post (f value) oracles s)
    (herror : ∀ raised, outcome = .error raised → post (.error raised) oracles s) :
    Ends handle post ((liftM outcome : Program ε Call Out α) >>= f) oracles s := by
  cases outcome with
  | ok value => exact hok value rfl
  | error raised => exact herror raised rfl

variable (handle) in
/-- A program over a part of the state ends over the whole as it ends over the part: the part is seen
through `update`, which replaces it, and an oracle of the whole through `see`. -/
theorem ends_liftProgram {Call' : Type} {Out' : Call' → Type} {Oracle' τ : Type}
    (handle' : (request : Call') → Oracle' → τ → Except ε (Out' request) × τ)
    (embed : Call → Call') (back : ∀ request, Out' (embed request) → Out request)
    (update : σ → τ) (see : Oracle' → Oracle) (hhandle : ∀ request oracle s,
      (handle' (embed request) oracle (update s)).1.map (back request) =
        (handle request (see oracle) s).1 ∧
      (handle' (embed request) oracle (update s)).2 = update (handle request (see oracle) s).2)
    {post : Except ε α → σ → Prop} : ∀ (p : Program ε Call Out α) (oracles : ℕ → Oracle') (s : σ),
      Ends handle (fun outcome _ s ↦ post outcome s) p (fun index ↦ see (oracles index)) s →
      Ends handle' (fun outcome _ t ↦ ∃ s, t = update s ∧ post outcome s) (p.lift embed back)
        oracles (update s)
  | .done _, _, s, h => ⟨s, rfl, h⟩
  | .call request next, oracles, s, h => by
    obtain ⟨hreply, hstate⟩ := hhandle request (oracles 0) s
    have hnext := ends_liftProgram handle' embed back update see hhandle
      (next (handle request (see (oracles 0)) s).1) (rest oracles) _ h
    rw [← hreply, ← hstate] at hnext
    exact hnext

/-! ### The calls of a program -/

/-- Every call that the program can make, whatever the replies, is one of these. -/
def Program.Only (calls : Call → Prop) : Program ε Call Out α → Prop
  | .done _ => True
  | .call request next => calls request ∧ ∀ reply, (next reply).Only calls

section Only

variable {calls : Call → Prop}

theorem only_pure (value : α) : (pure value : Program ε Call Out α).Only calls :=
  trivial

theorem only_throw (raised : ε) : (throw raised : Program ε Call Out α).Only calls :=
  trivial

theorem only_perform {request : Call} (h : calls request) :
    (Program.perform request : Program ε Call Out (Out request)).Only calls :=
  ⟨h, fun _ ↦ trivial⟩

theorem only_bind {f : α → Program ε Call Out β} (hf : ∀ value, (f value).Only calls) :
    ∀ {p : Program ε Call Out α}, p.Only calls → (p >>= f).Only calls
  | .done (.ok value), _ => hf value
  | .done (.error _), _ => trivial
  | .call _ next, h => ⟨h.1, fun reply ↦ only_bind hf (p := next reply) (h.2 reply)⟩

theorem only_tryCatch {handler : ε → Program ε Call Out α}
    (hhandler : ∀ raised, (handler raised).Only calls) :
    ∀ {p : Program ε Call Out α}, p.Only calls → (tryCatch p handler).Only calls
  | .done (.ok _), _ => trivial
  | .done (.error raised), _ => hhandler raised
  | .call _ next, h => ⟨h.1, fun reply ↦ only_tryCatch hhandler (p := next reply) (h.2 reply)⟩

theorem only_attempt : ∀ {p : Program ε Call Out α}, p.Only calls → p.attempt.Only calls
  | .done _, _ => trivial
  | .call _ next, h => ⟨h.1, fun reply ↦ only_attempt (p := next reply) (h.2 reply)⟩

theorem only_liftM (outcome : Except ε α) : (liftM outcome : Program ε Call Out α).Only calls :=
  trivial

theorem only_lift {Call' : Type} {Out' : Call' → Type} {calls : Call' → Prop}
    {embed : Call → Call'} {back : ∀ request, Out' (embed request) → Out request}
    (h : ∀ request, calls (embed request)) :
    ∀ p : Program ε Call Out α, (p.lift embed back : Program ε Call' Out' α).Only calls
  | .done _ => trivial
  | .call request next => ⟨h request, fun reply ↦ only_lift h (next (reply.map (back request)))⟩

/-- What each of its calls keeps, a program keeps. -/
theorem ends_of_only {invariant : σ → Prop}
    (hkeep : ∀ request, calls request → ∀ oracle s, invariant s →
      invariant (handle request oracle s).2) :
    ∀ {p : Program ε Call Out α} {oracles : ℕ → Oracle} {s : σ}, p.Only calls → invariant s →
      Ends handle (fun _ _ s ↦ invariant s) p oracles s
  | .done _, _, _, _, hs => hs
  | .call request next, oracles, s, h, hs =>
    ends_of_only hkeep (p := next (handle request (oracles 0) s).1) (h.2 _)
      (hkeep request h.1 (oracles 0) s hs)

end Only

/-! ### Stopped runs -/

variable (handle) in
/-- The program, stopped after so many calls, leaves a state with the property. -/
def Stops (property : σ → Prop) (calls : ℕ) (p : Program ε Call Out α) (oracles : ℕ → Oracle)
    (s : σ) : Prop :=
  property (p.stateAfter handle calls oracles s)

variable {property : σ → Prop} {calls : ℕ} {oracles : ℕ → Oracle} {s : σ}

/-- What the rules of `Stops` establish is a fact about the state that is left. -/
theorem Stops.stateAfter {p : Program ε Call Out α} (h : Stops handle property calls p oracles s) :
    property (p.stateAfter handle calls oracles s) :=
  h

/-- The rule of a program that is done. -/
theorem stops_done {outcome : Except ε α} (h : property s) :
    Stops handle property calls (.done outcome : Program ε Call Out α) oracles s := by
  cases calls with
  | zero => exact h
  | succ calls => exact h

theorem stops_pure {value : α} (h : property s) :
    Stops handle property calls (pure value : Program ε Call Out α) oracles s :=
  stops_done h

/-- The rule of one call and what follows it: the run stops before it, or goes on with one call
less. -/
theorem stops_perform {request : Call} {f : Out request → Program ε Call Out β}
    (hstop : calls = 0 → property s) (hgo : ∀ less, calls = less + 1 → match handle request (oracles 0) s with
      | (.ok value, s) => Stops handle property less (f value) (rest oracles) s
      | (.error _, s) => property s) :
    Stops handle property calls (Program.perform request >>= f) oracles s := by
  cases calls with
  | zero => exact hstop rfl
  | succ less =>
    have h := hgo less rfl
    cases hreply : handle request (oracles 0) s with
    | mk reply after =>
      rw [hreply] at h
      change Stops handle property less ((Program.done (handle request (oracles 0) s).1).bind f)
        (rest oracles) (handle request (oracles 0) s).2
      rw [hreply]
      cases reply with
      | ok value => exact h
      | error raised => exact stops_done h

/-- The rule of a call that is the last. -/
theorem stops_last {request : Call} (hstop : calls = 0 → property s)
    (hgo : property (handle request (oracles 0) s).2) :
    Stops handle property calls (Program.perform request) oracles s := by
  cases calls with
  | zero => exact hstop rfl
  | succ less => exact stops_done hgo

/-- The rule of a pure step that may raise. -/
theorem stops_lift {outcome : Except ε α} {f : α → Program ε Call Out β}
    (hok : ∀ value, outcome = .ok value → Stops handle property calls (f value) oracles s)
    (herror : property s) :
    Stops handle property calls ((liftM outcome : Program ε Call Out α) >>= f) oracles s := by
  cases outcome with
  | ok value => exact hok value rfl
  | error raised => exact stops_done herror

/-- Sequencing is associative. -/
theorem Program.bind_assoc {γ : Type} (f : α → Program ε Call Out β)
    (g : β → Program ε Call Out γ) :
    ∀ p : Program ε Call Out α, (p >>= f) >>= g = p >>= fun value ↦ f value >>= g
  | .done (.ok _) => rfl
  | .done (.error _) => rfl
  | .call request next => by
    have hnext := fun reply ↦ bind_assoc f g (next reply)
    exact congrArg (Program.call request) (funext hnext)

end Running

-- the rules are the interface: unfolding `Ends` runs the program
attribute [irreducible] Ends Stops

end Transition
