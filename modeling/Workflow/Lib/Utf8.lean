import Mathlib.Data.Fin.Basic
import Mathlib.Tactic.Common

/-!
# UTF-8 as a byte automaton

The scanner used by strict UTF-8 writers: `next` reads one byte, `none` is a
refusal. A byte string is `Valid` when the scan ends between two characters.
-/

namespace Utf8

/-- What the scanner still owes the current character. -/
inductive Pending where
  | done
  | tail1
  | tail2
  | tail3
  | afterE0
  | afterED
  | afterF0
  | afterF4
  deriving DecidableEq, Repr

/-- A continuation byte must lie in `[low, high]`. -/
def continuation (low high : ℕ) (after : Pending) (b : Fin 256) : Option Pending :=
  if low ≤ b.val ∧ b.val ≤ high then some after else none

def lead (b : Fin 256) : Option Pending :=
  if b.val < 0x80 then some .done
  else if b.val < 0xC2 then none
  else if b.val < 0xE0 then some .tail1
  else if b.val = 0xE0 then some .afterE0
  else if b.val = 0xED then some .afterED
  else if b.val < 0xF0 then some .tail2
  else if b.val = 0xF0 then some .afterF0
  else if b.val < 0xF4 then some .tail3
  else if b.val = 0xF4 then some .afterF4
  else none

def next : Pending → Fin 256 → Option Pending
  | .done, b => lead b
  | .tail1, b => continuation 0x80 0xBF .done b
  | .tail2, b => continuation 0x80 0xBF .tail1 b
  | .tail3, b => continuation 0x80 0xBF .tail2 b
  | .afterE0, b => continuation 0xA0 0xBF .tail1 b
  | .afterED, b => continuation 0x80 0x9F .tail1 b
  | .afterF0, b => continuation 0x90 0xBF .tail2 b
  | .afterF4, b => continuation 0x80 0x8F .tail2 b

def scan (p : Pending) (s : List (Fin 256)) : Option Pending := s.foldlM next p

def Valid (s : List (Fin 256)) : Prop := scan .done s = some .done

instance (s : List (Fin 256)) : Decidable (Valid s) := inferInstanceAs (Decidable (_ = _))

@[simp] theorem scan_nil (p : Pending) : scan p [] = some p := rfl

theorem scan_cons (p : Pending) (b : Fin 256) (s : List (Fin 256)) :
    scan p (b :: s) = (next p b).bind fun p' => scan p' s := by
  simp only [scan, List.foldlM_cons]
  rfl

theorem scan_append (p : Pending) (s t : List (Fin 256)) :
    scan p (s ++ t) = (scan p s).bind fun p' => scan p' t := by
  simp only [scan, List.foldlM_append]
  rfl

theorem valid_nil : Valid [] := rfl

theorem valid_append_iff {s : List (Fin 256)} (hs : Valid s) (t : List (Fin 256)) :
    Valid (s ++ t) ↔ Valid t := by
  unfold Valid at hs ⊢
  rw [scan_append, hs, Option.bind_some]

theorem valid_append {s t : List (Fin 256)} (hs : Valid s) (ht : Valid t) : Valid (s ++ t) :=
  (valid_append_iff hs t).mpr ht

theorem valid_of_ascii {s : List (Fin 256)} (h : ∀ b ∈ s, b.val < 0x80) : Valid s := by
  induction s with
  | nil => exact valid_nil
  | cons b s ih =>
    have hb : next .done b = some .done := by
      simp only [next, lead, if_pos (h b List.mem_cons_self)]
    unfold Valid
    rw [scan_cons, hb, Option.bind_some]
    exact ih fun x hx => h x (List.mem_cons_of_mem b hx)

theorem lead_done_iff {b : Fin 256} : lead b = some .done ↔ b.val < 0x80 := by
  constructor
  · intro h
    by_contra hhigh
    unfold lead at h
    split_ifs at h
    all_goals cases h
  · intro h
    exact if_pos h

def IsTail (b : Fin 256) : Prop := 0x80 ≤ b.val ∧ b.val ≤ 0xBF

theorem scan_continuation {p q : Pending} {low high : ℕ} {b : Fin 256} {s : List (Fin 256)}
    (h : ∀ c, next p c = continuation low high q c) (hb : low ≤ b.val ∧ b.val ≤ high) :
    scan p (b :: s) = scan q s := by
  rw [scan_cons, h, continuation, if_pos hb, Option.bind_some]

theorem scan_lead {p : Pending} {b : Fin 256} {s : List (Fin 256)} (h : lead b = some p) :
    scan .done (b :: s) = scan p s := by
  rw [scan_cons, next, h, Option.bind_some]

theorem valid_two {a b : Fin 256} (ha : 0xC2 ≤ a.val ∧ a.val ≤ 0xDF) (hb : IsTail b) :
    Valid [a, b] := by
  have hlead : lead a = some .tail1 := by
    unfold lead
    rw [if_neg (by omega), if_neg (by omega), if_pos (by omega)]
  unfold Valid
  rw [scan_lead hlead, scan_continuation (fun _ => rfl) hb, scan_nil]

theorem valid_three {a b c : Fin 256} (ha : 0xE0 ≤ a.val ∧ a.val ≤ 0xEF) (hb : IsTail b)
    (hc : IsTail c) (hlow : a.val = 0xE0 → 0xA0 ≤ b.val) (hhigh : a.val = 0xED → b.val ≤ 0x9F) :
    Valid [a, b, c] := by
  have hlast : scan .tail1 [c] = some .done := by
    rw [scan_continuation (fun _ => rfl) hc, scan_nil]
  unfold IsTail at hb
  unfold Valid
  rcases (by omega : a.val = 0xE0 ∨ a.val = 0xED ∨ a.val ≠ 0xE0 ∧ a.val ≠ 0xED) with h | h | h
  · have hlead : lead a = some .afterE0 := by
      simp (disch := omega) only [lead, if_neg, if_pos]
    rw [scan_lead hlead, scan_continuation (fun _ => rfl) ⟨hlow h, hb.2⟩, hlast]
  · have hlead : lead a = some .afterED := by
      simp (disch := omega) only [lead, if_neg, if_pos]
    rw [scan_lead hlead, scan_continuation (fun _ => rfl) ⟨hb.1, hhigh h⟩, hlast]
  · have hlead : lead a = some .tail2 := by
      simp (disch := omega) only [lead, if_neg, if_pos]
    rw [scan_lead hlead, scan_continuation (fun _ => rfl) hb, hlast]

theorem valid_four {a b c d : Fin 256} (ha : 0xF0 ≤ a.val ∧ a.val ≤ 0xF4) (hb : IsTail b)
    (hc : IsTail c) (hd : IsTail d) (hlow : a.val = 0xF0 → 0x90 ≤ b.val)
    (hhigh : a.val = 0xF4 → b.val ≤ 0x8F) : Valid [a, b, c, d] := by
  have hlast : scan .tail2 [c, d] = some .done := by
    rw [scan_continuation (fun _ => rfl) hc, scan_continuation (fun _ => rfl) hd, scan_nil]
  unfold IsTail at hb
  unfold Valid
  rcases (by omega : a.val = 0xF0 ∨ a.val = 0xF4 ∨ a.val ≠ 0xF0 ∧ a.val ≠ 0xF4) with h | h | h
  · have hlead : lead a = some .afterF0 := by
      simp (disch := omega) only [lead, if_neg, if_pos]
    rw [scan_lead hlead, scan_continuation (fun _ => rfl) ⟨hlow h, hb.2⟩, hlast]
  · have hlead : lead a = some .afterF4 := by
      simp (disch := omega) only [lead, if_neg, if_pos]
    rw [scan_lead hlead, scan_continuation (fun _ => rfl) ⟨hb.1, hhigh h⟩, hlast]
  · have hlead : lead a = some .tail3 := by
      simp (disch := omega) only [lead, if_neg, if_pos]
    rw [scan_lead hlead, scan_continuation (fun _ => rfl) hb, hlast]

end Utf8
