import Mathlib.Data.List.Infix
import Mathlib.Tactic.Common

/-!
# Reading with an automaton as far as it goes

`munch` reads a list from a state as long as there is a transition and gives the
state it gets stuck in, what it has read and what it has left. A text that takes
one state to another is read whole if the automaton does not go on with what
follows (`munch_append`).
-/

namespace LongestMatch

variable {σ α : Type*} {next : σ → α → Option σ}

structure Munched (σ α : Type*) where
  final : σ
  read : List α
  unread : List α

def munch (next : σ → α → Option σ) (s : σ) : List α → Munched σ α
  | [] => ⟨s, [], []⟩
  | a :: rest =>
    match next s a with
    | some s' =>
      let m := munch next s' rest
      ⟨m.final, a :: m.read, m.unread⟩
    | none => ⟨s, [], a :: rest⟩

/- The text takes `s` to `s'`. -/
def Drives (next : σ → α → Option σ) (s : σ) (text : List α) (s' : σ) : Prop :=
  text.foldlM next s = some s'

/- There is no transition for what follows. -/
def Stuck (next : σ → α → Option σ) (s : σ) (rest : List α) : Prop :=
  ∀ a tail, rest = a :: tail → next s a = none

theorem drives_nil {s s' : σ} : Drives next s [] s' ↔ s = s' := by
  show some s = some s' ↔ s = s'
  rw [Option.some.injEq]

theorem drives_cons {s s' : σ} {a : α} {text : List α} :
    Drives next s (a :: text) s' ↔ ∃ t, next s a = some t ∧ Drives next t text s' := by
  unfold Drives
  rw [List.foldlM_cons]
  exact Option.bind_eq_some_iff

theorem drives_append {s s' : σ} {text text' : List α} :
    Drives next s (text ++ text') s' ↔ ∃ t, Drives next s text t ∧ Drives next t text' s' := by
  unfold Drives
  rw [List.foldlM_append]
  exact Option.bind_eq_some_iff

/- A run of letters on which the state stays where it is. -/
theorem drives_of_loop {s : σ} {text : List α} (h : ∀ a ∈ text, next s a = some s) :
    Drives next s text s := by
  induction text with
  | nil => exact drives_nil.mpr rfl
  | cons a text ih =>
    have htail := ih fun b hb => h b (List.mem_cons_of_mem a hb)
    exact drives_cons.mpr ⟨s, h a List.mem_cons_self, htail⟩

theorem stuck_nil (s : σ) : Stuck next s [] := by
  intro a tail h
  cases h

theorem stuck_cons {s : σ} {a : α} {rest : List α} :
    Stuck next s (a :: rest) ↔ next s a = none := by
  constructor
  · intro h
    exact h a rest rfl
  · intro h b tail heq
    rw [← (List.cons.inj heq).1]
    exact h

theorem munch_split (next : σ → α → Option σ) (s : σ) (l : List α) :
    l = (munch next s l).read ++ (munch next s l).unread ∧
      Drives next s (munch next s l).read (munch next s l).final ∧
      Stuck next (munch next s l).final (munch next s l).unread := by
  induction l generalizing s with
  | nil => exact ⟨rfl, drives_nil.mpr rfl, stuck_nil s⟩
  | cons a rest ih =>
    unfold munch
    cases hnext : next s a with
    | none => exact ⟨rfl, drives_nil.mpr rfl, stuck_cons.mpr hnext⟩
    | some s' =>
      obtain ⟨hsplit, hdrives, hstuck⟩ := ih s'
      refine ⟨?_, drives_cons.mpr ⟨s', hnext, hdrives⟩, hstuck⟩
      rw [List.cons_append, ← hsplit]

theorem munch_append {s s' : σ} {text rest : List α} (h : Drives next s text s')
    (hstuck : Stuck next s' rest) : munch next s (text ++ rest) = ⟨s', text, rest⟩ := by
  induction text generalizing s with
  | nil =>
    rw [drives_nil] at h
    rw [h, List.nil_append]
    cases rest with
    | nil => rfl
    | cons a tail =>
      unfold munch
      rw [stuck_cons.mp hstuck]
  | cons a text ih =>
    obtain ⟨t, hnext, htext⟩ := drives_cons.mp h
    rw [List.cons_append]
    unfold munch
    simp only [hnext, ih htext]

end LongestMatch
