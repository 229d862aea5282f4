import Mathlib.Data.List.Infix

/-!
# Runs of a deterministic system

The state after a list of steps, and when a property holds in every state of a
run: it does if and only if every step meets the condition under which one
step keeps it.
-/

namespace Workflow.Run

variable {S E : Type*} (step : S → E → S)

def after (s : S) (events : List E) : S := events.foldl step s

theorem after_concat (s : S) (events : List E) (e : E) :
    after step s (events ++ [e]) = step (after step s events) e := by
  unfold after
  rw [List.foldl_append]
  rfl

/-- In the initial state and after each step. -/
def Always (P : S → Prop) (s : S) (events : List E) : Prop :=
  ∀ earlier, earlier <+: events → P (after step s earlier)

/-- Of each step, in the state it is taken in. -/
def EachStep (cond : S → E → Prop) (s : S) (events : List E) : Prop :=
  ∀ earlier e, earlier ++ [e] <+: events → cond (after step s earlier) e

variable {step}

theorem always_of_eachStep {P : S → Prop} {cond : S → E → Prop} {s : S} {events : List E}
    (hinit : P s) (hstep : ∀ t e, P t → cond t e → P (step t e))
    (h : EachStep step cond s events) : Always step P s events := by
  intro earlier
  induction earlier using List.reverseRecOn with
  | nil =>
    intro _
    exact hinit
  | append_singleton earlier e ih =>
    intro hprefix
    have hearlier : earlier <+: events := (List.prefix_append earlier [e]).trans hprefix
    rw [after_concat]
    exact hstep _ e (ih hearlier) (h earlier e hprefix)

/- An invariant of every step needs no condition. -/
theorem always_of_step {P : S → Prop} {s : S} (hinit : P s) (hstep : ∀ t e, P t → P (step t e))
    (events : List E) : Always step P s events := by
  have hcond : EachStep step (fun _ _ => True) s events := fun _ _ _ => trivial
  exact always_of_eachStep hinit (fun t e ht _ => hstep t e ht) hcond

theorem always_iff_eachStep {P : S → Prop} {cond : S → E → Prop} {s : S} (hinit : P s)
    (hstep : ∀ t e, P t → (P (step t e) ↔ cond t e)) (events : List E) :
    Always step P s events ↔ EachStep step cond s events := by
  constructor
  · intro h earlier e hprefix
    have hearlier := h earlier ((List.prefix_append earlier [e]).trans hprefix)
    have hnext := h (earlier ++ [e]) hprefix
    rw [after_concat] at hnext
    exact (hstep _ e hearlier).mp hnext
  · intro h
    exact always_of_eachStep hinit (fun t e ht hc => (hstep t e ht).mpr hc) h

end Workflow.Run
