import Mathlib.Control.Basic
import Mathlib.Tactic.Common

/-!
# Reasoning about stateful computations that may throw

`EStateM ε σ` is code with a mutable state that keeps the state it had reached
when it throws. Four ways to speak about such code: through a view of its
state (`seen`), by a triple (`Triple`), by what it adds to an output
(`Appends`), and by a relation between two programs (`Related`). `forEach` is
a loop with an early exit.
-/

namespace Observe

variable {ε σ τ υ α β γ ρ : Type}

def stateOf : EStateM.Result ε σ α → σ
  | .ok _ s => s
  | .error _ s => s

/-! ### Through a view -/

/-- A result with its state replaced by what `view` shows of it. -/
def seen (view : σ → υ) : EStateM.Result ε σ α → EStateM.Result ε υ α
  | .ok a s => .ok a (view s)
  | .error e s => .error e (view s)

@[simp] theorem seen_ok (view : σ → υ) (a : α) (s : σ) :
    seen view (.ok a s : EStateM.Result ε σ α) = .ok a (view s) := rfl

@[simp] theorem seen_error (view : σ → υ) (e : ε) (s : σ) :
    seen view (.error e s : EStateM.Result ε σ α) = .error e (view s) := rfl

theorem stateOf_seen (view : σ → υ) (r : EStateM.Result ε σ α) :
    stateOf (seen view r) = view (stateOf r) := by
  cases r <;> rfl

theorem exists_of_seen_ok {view : σ → υ} {r : EStateM.Result ε σ α} {a : α} {u : υ}
    (h : seen view r = .ok a u) : ∃ s, r = .ok a s ∧ view s = u := by
  cases r with
  | ok b s =>
    simp only [seen_ok, EStateM.Result.ok.injEq] at h
    exact ⟨s, by rw [h.1], h.2⟩
  | error e s => simp at h

theorem exists_of_seen_error {view : σ → υ} {r : EStateM.Result ε σ α} {e : ε} {u : υ}
    (h : seen view r = .error e u) : ∃ s, r = .error e s ∧ view s = u := by
  cases r with
  | ok b s => simp at h
  | error e' s =>
    simp only [seen_error, EStateM.Result.error.injEq] at h
    exact ⟨s, by rw [h.1], h.2⟩

theorem run_bind_of_ok {m : EStateM ε σ α} {f : α → EStateM ε σ β} {s s' : σ} {a : α}
    (h : m.run s = .ok a s') : (m >>= f).run s = (f a).run s' := by
  rw [EStateM.run_bind, h]

theorem run_bind_of_error {m : EStateM ε σ α} {f : α → EStateM ε σ β} {s s' : σ} {e : ε}
    (h : m.run s = .error e s') : (m >>= f).run s = .error e s' := by
  rw [EStateM.run_bind, h]

/- The code ends as `r` shows it, or breaks off with an exception where the view
is in `X`; with `X` empty the code does end as `r` shows it. -/
def Yields (view : σ → υ) (X : υ → Prop) (m : EStateM ε σ α) (s : σ) (r : EStateM.Result ε υ α) :
    Prop := seen view (m.run s) = r ∨ ∃ e s', m.run s = .error e s' ∧ X (view s')

theorem seen_of_yields {view : σ → υ} {m : EStateM ε σ α} {s : σ} {r : EStateM.Result ε υ α}
    (h : Yields view (fun _ => False) m s r) : seen view (m.run s) = r := by
  rcases h with h | ⟨_, _, _, h⟩
  · exact h
  · exact h.elim

/- A first part that returns `a` and leaves the view at `u` hands over to the
rest in some state that looks like `u`. -/
theorem yields_bind {view : σ → υ} {X : υ → Prop} {m : EStateM ε σ α} {f : α → EStateM ε σ β} {s : σ}
    {a : α} {u : υ} {r : EStateM.Result ε υ β} (h : Yields view X m s (.ok a u))
    (hf : ∀ s', view s' = u → Yields view X (f a) s' r) : Yields view X (m >>= f) s r := by
  rcases h with h | ⟨e, s', hm, hX⟩
  · obtain ⟨s', hm, hu⟩ := exists_of_seen_ok h
    unfold Yields
    rw [run_bind_of_ok hm]
    exact hf s' hu
  · exact Or.inr ⟨e, s', run_bind_of_error hm, hX⟩

theorem yields_bind_error {view : σ → υ} {X : υ → Prop} {m : EStateM ε σ α} {f : α → EStateM ε σ β}
    {s : σ} {e : ε} {u : υ} (h : Yields view X m s (.error e u)) :
    Yields view X (m >>= f) s (.error e u) := by
  rcases h with h | ⟨e', s', hm, hX⟩
  · obtain ⟨s', hm, hu⟩ := exists_of_seen_error h
    left
    rw [run_bind_of_error hm, seen_error, hu]
  · exact Or.inr ⟨e', s', run_bind_of_error hm, hX⟩

/-! ### Triples -/

/- From a state in `P` the code returns something in `Q` or breaks off in `E`. -/
def Triple (P : σ → Prop) (m : EStateM ε σ α) (Q : α → σ → Prop) (E : σ → Prop) : Prop :=
  ∀ s, P s → match m.run s with
    | .ok a s' => Q a s'
    | .error _ s' => E s'

theorem triple_pure {P : σ → Prop} {Q : α → σ → Prop} {E : σ → Prop} {a : α}
    (h : ∀ s, P s → Q a s) : Triple P (pure a : EStateM ε σ α) Q E := fun s hs => h s hs

theorem triple_throw {P : σ → Prop} {Q : α → σ → Prop} {E : σ → Prop} (e : ε)
    (h : ∀ s, P s → E s) : Triple P (throw e : EStateM ε σ α) Q E := fun s hs => h s hs

theorem triple_bind {P : σ → Prop} {R : α → σ → Prop} {Q : β → σ → Prop} {E : σ → Prop}
    {m : EStateM ε σ α} {f : α → EStateM ε σ β} (hm : Triple P m R E)
    (hf : ∀ a, Triple (R a) (f a) Q E) : Triple P (m >>= f) Q E := by
  intro s hs
  have hfirst := hm s hs
  cases hrun : m.run s with
  | ok a s₁ =>
    rw [hrun] at hfirst
    rw [run_bind_of_ok hrun]
    exact hf a s₁ hfirst
  | error e s₁ =>
    rw [hrun] at hfirst
    rw [run_bind_of_error hrun]
    exact hfirst

theorem triple_weaken {P P' : σ → Prop} {Q Q' : α → σ → Prop} {E : σ → Prop} {m : EStateM ε σ α}
    (h : Triple P m Q E) (hP : ∀ s, P' s → P s) (hQ : ∀ a s, Q a s → Q' a s) : Triple P' m Q' E := by
  intro s hs
  have hend := h s (hP s hs)
  rcases hrun : m.run s with ⟨a, s₁⟩ | ⟨e, s₁⟩ <;> rw [hrun] at hend
  · exact hQ a s₁ hend
  · exact hend

/-! ### Output -/

/- Where the code returns, it has added something to its output, and that is in `Q`. -/
def Appends (output : σ → List τ) (m : EStateM ε σ α) (s : σ) (Q : α → σ → List τ → Prop) : Prop :=
  ∀ a s', m.run s = .ok a s' → ∃ added, output s' = output s ++ added ∧ Q a s' added

section
variable {output : σ → List τ} {s : σ}

theorem appends_pure {Q : α → σ → List τ → Prop} {a : α} (h : Q a s []) :
    Appends output (pure a : EStateM ε σ α) s Q := by
  intro b s' hrun
  obtain ⟨rfl, rfl⟩ := EStateM.Result.ok.inj hrun
  exact ⟨[], (List.append_nil _).symm, h⟩

theorem appends_throw {Q : α → σ → List τ → Prop} (e : ε) :
    Appends output (throw e : EStateM ε σ α) s Q := by
  intro a s' hrun
  cases hrun

theorem appends_weaken {Q Q' : α → σ → List τ → Prop} {m : EStateM ε σ α}
    (h : Appends output m s Q) (hQ : ∀ a s' l, Q a s' l → Q' a s' l) : Appends output m s Q' := by
  intro a s' hrun
  obtain ⟨added, hadded, hend⟩ := h a s' hrun
  exact ⟨added, hadded, hQ a s' added hend⟩

/- The second part adds behind what the first one added. -/
theorem appends_bind {P : α → σ → List τ → Prop} {Q : β → σ → List τ → Prop} {m : EStateM ε σ α}
    {f : α → EStateM ε σ β} (hm : Appends output m s P)
    (hf : ∀ a s₁ l, P a s₁ l → Appends output (f a) s₁ fun b s' l' => Q b s' (l ++ l')) :
    Appends output (m >>= f) s Q := by
  intro b s' hrun
  cases hfirst : m.run s with
  | ok a s₁ =>
    rw [run_bind_of_ok hfirst] at hrun
    obtain ⟨l, hl, hmid⟩ := hm a s₁ hfirst
    obtain ⟨l', hl', hend⟩ := hf a s₁ l hmid b s' hrun
    exact ⟨l ++ l', by rw [hl', hl, List.append_assoc], hend⟩
  | error e s₁ =>
    rw [run_bind_of_error hfirst] at hrun
    cases hrun

end

/-! ### Two programs -/

def Alike (R : σ → τ → Prop) : EStateM.Result ε σ α → EStateM.Result ε τ α → Prop
  | .ok a s, .ok b t => a = b ∧ R s t
  | .error e s, .error d t => e = d ∧ R s t
  | _, _ => False

theorem alike_of_seen_eq {view : σ → υ} {view' : τ → υ} {r : EStateM.Result ε σ α}
    {q : EStateM.Result ε τ α} (h : seen view r = seen view' q) :
    Alike (fun s t => view s = view' t) r q := by
  cases r with
  | ok a s =>
    obtain ⟨t, rfl, ht⟩ := exists_of_seen_ok h.symm
    exact ⟨rfl, ht.symm⟩
  | error e s =>
    obtain ⟨t, rfl, ht⟩ := exists_of_seen_error h.symm
    exact ⟨rfl, ht.symm⟩

def Related (P : σ → τ → Prop) (m : EStateM ε σ α) (n : EStateM ε τ α) (R : σ → τ → Prop) : Prop :=
  ∀ s t, P s t → Alike R (m.run s) (n.run t)

theorem related_pure {P : σ → τ → Prop} (a : α) :
    Related P (pure a : EStateM ε σ α) (pure a) P := fun _ _ h => ⟨rfl, h⟩

theorem related_throw {P : σ → τ → Prop} (e : ε) :
    Related P (throw e : EStateM ε σ α) (throw e) P := fun _ _ h => ⟨rfl, h⟩

/- An exception of the first part ends both programs, hence the same relation before
and after the second part. -/
theorem related_bind {P R : σ → τ → Prop} {m : EStateM ε σ α} {n : EStateM ε τ α}
    {f : α → EStateM ε σ β} {g : α → EStateM ε τ β} (hm : Related P m n R)
    (hf : ∀ a, Related R (f a) (g a) R) : Related P (m >>= f) (n >>= g) R := by
  intro s t hst
  have h := hm s t hst
  rcases hr : m.run s with ⟨a, s'⟩ | ⟨e, s'⟩ <;> rcases hq : n.run t with ⟨b, t'⟩ | ⟨d, t'⟩ <;>
    rw [hr, hq] at h
  · obtain ⟨rfl, hR⟩ := h
    rw [run_bind_of_ok hr, run_bind_of_ok hq]
    exact hf a s' t' hR
  · exact h.elim
  · exact h.elim
  · rw [run_bind_of_error hr, run_bind_of_error hq]
    exact h

theorem related_modify {P R : σ → τ → Prop} {f : σ → σ} {g : τ → τ}
    (h : ∀ s t, P s t → R (f s) (g t)) :
    Related P (modify f : EStateM ε σ Unit) (modify g) R := fun s t hst => ⟨rfl, h s t hst⟩

theorem related_modifyGet {P R : σ → τ → Prop} {f : σ → α × σ} {g : τ → α × τ}
    (h : ∀ s t, P s t → (f s).1 = (g t).1 ∧ R (f s).2 (g t).2) :
    Related P (modifyGet f : EStateM ε σ α) (modifyGet g) R := fun s t hst => h s t hst

/-! ### A loop with an early exit -/

/-- How one turn of a loop ends: on to the next element, or out of the loop. -/
inductive Turn (β ρ : Type) where
  | next (carried : β)
  | leave (result : ρ)

/-- `for (i...) { ... continue; ... return r; ... }` followed by `after`. -/
def forEach (body : ℕ → α → β → EStateM ε σ (Turn β ρ)) (after : β → EStateM ε σ ρ) :
    ℕ → List α → β → EStateM ε σ ρ
  | _, [], b => after b
  | i, a :: rest, b => do
    match ← body i a b with
    | .next b' => forEach body after (i + 1) rest b'
    | .leave r => return r

theorem related_forEach {R : σ → τ → Prop} {body : ℕ → α → β → EStateM ε σ (Turn β ρ)}
    {body' : ℕ → γ → β → EStateM ε τ (Turn β ρ)} {after : β → EStateM ε σ ρ}
    {after' : β → EStateM ε τ ρ} {S : α → γ → Prop}
    (hbody : ∀ i a c b, S a c → Related R (body i a b) (body' i c b) R)
    (hafter : ∀ b, Related R (after b) (after' b) R) (i : ℕ) {l : List α} {l' : List γ}
    (hl : List.Forall₂ S l l') (b : β) :
    Related R (forEach body after i l b) (forEach body' after' i l' b) R := by
  induction hl generalizing i b with
  | nil => exact hafter b
  | cons hac _ ih =>
    apply related_bind (hbody i _ _ b hac)
    intro turn
    cases turn with
    | next b' => exact ih (i + 1) b'
    | leave r => exact related_pure r

end Observe
