import Mathlib.Data.Nat.Notation
import Mathlib.Tactic.Common

/-!
# Loops that read the world

A `while True` loop whose passes each meet the next answers of the world: a pass goes on with a new
state or stops with a result. `loop` runs so many passes at most. Its two rules are the ones of a
loop with a variant: a variant that falls in every pass bounds the passes, and an invariant of the
passes gives the postcondition of the result.
-/

namespace Transition

/-- What one pass of a loop comes to. -/
inductive Pass (σ β : Type)
  | again (s : σ)
  | stop (result : β)

section Loops

variable {σ β : Type} (body : ℕ → σ → Pass σ β)

/-- The result of the loop from the pass of the given number on, when it stops within `fuel`
passes. -/
def loop : ℕ → ℕ → σ → Option β
  | 0, _, _ => none
  | fuel + 1, round, s =>
    match body round s with
    | .again next => loop fuel (round + 1) next
    | .stop result => some result

variable {body}

/-- The passes that are allowed do not change the result. -/
theorem loop_unique : ∀ (first second round : ℕ) (s : σ) {result other : β},
    loop body first round s = some result → loop body second round s = some other →
      result = other := by
  intro first
  induction first with
  | zero => intro second round s result other h _; cases h
  | succ first ih =>
    intro second round s result other h hother
    cases second with
    | zero => cases hother
    | succ second =>
      rw [loop] at h hother
      cases hbody : body round s with
      | again next =>
        rw [hbody] at h hother
        exact ih second (round + 1) next h hother
      | stop found =>
        rw [hbody] at h hother
        exact (Option.some.inj h).symm.trans (Option.some.inj hother)

/-- The rule of termination: the variant falls in every pass. -/
theorem loop_isSome (variant : σ → ℕ) (Inv : σ → Prop)
    (hpass : ∀ round s next, Inv s → body round s = .again next → Inv next ∧
      variant next < variant s) :
    ∀ (fuel round : ℕ) (s : σ), Inv s → variant s < fuel → (loop body fuel round s).isSome := by
  intro fuel
  induction fuel with
  | zero => intro round s _ hfuel; exact absurd hfuel (Nat.not_lt_zero _)
  | succ fuel ih =>
    intro round s hs hfuel
    rw [loop]
    cases hbody : body round s with
    | stop result => rfl
    | again next =>
      have hnext := hpass round s next hs hbody
      exact ih (round + 1) next hnext.1 (by omega)

/-- The rule of partial correctness: what every pass keeps holds before the last one. -/
theorem loop_eq_some (Inv : ℕ → σ → Prop) {Post : β → Prop}
    (hagain : ∀ round s next, Inv round s → body round s = .again next → Inv (round + 1) next)
    (hstop : ∀ round s result, Inv round s → body round s = .stop result → Post result) :
    ∀ (fuel round : ℕ) (s : σ) (result : β), Inv round s → loop body fuel round s = some result →
      Post result := by
  intro fuel
  induction fuel with
  | zero => intro round s result _ h; cases h
  | succ fuel ih =>
    intro round s result hs h
    rw [loop] at h
    cases hbody : body round s with
    | stop other =>
      rw [hbody] at h
      obtain rfl := Option.some.inj h
      exact hstop round s other hs hbody
    | again next =>
      rw [hbody] at h
      exact ih (round + 1) next result (hagain round s next hs hbody) h

end Loops

end Transition
