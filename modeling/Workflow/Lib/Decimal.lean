import Mathlib.Data.Nat.Digits.Defs
import Mathlib.Data.Nat.Digits.Lemmas
import Mathlib.Tactic.Common

/-!
# Decimal text of numbers

`render` writes a natural number as ASCII digits, most significant first,
`renderInt` an integer with its sign. The text determines the number, also as
the leading part of a longer text that goes on with a non-digit, and as its end
after one.
-/

namespace Decimal

def IsDigit (b : Fin 256) : Prop := 48 ≤ b.val ∧ b.val ≤ 57

instance (b : Fin 256) : Decidable (IsDigit b) := inferInstanceAs (Decidable (_ ∧ _))

def digitByte (d : ℕ) : Fin 256 := Fin.ofNat 256 (48 + d)

def render (n : ℕ) : List (Fin 256) :=
  if n = 0 then [digitByte 0] else (Nat.digits 10 n).reverse.map digitByte

def renderInt (z : ℤ) : List (Fin 256) :=
  if z < 0 then 45 :: render z.natAbs else render z.natAbs

theorem digitByte_isDigit {d : ℕ} (h : d < 10) : IsDigit (digitByte d) := by
  simp only [IsDigit, digitByte, Fin.val_ofNat]
  omega

theorem render_isDigit (n : ℕ) : ∀ b ∈ render n, IsDigit b := by
  intro b hb
  unfold render at hb
  split_ifs at hb with h
  · rw [List.mem_singleton.mp hb]
    exact digitByte_isDigit (by norm_num)
  · obtain ⟨d, hd, rfl⟩ := List.mem_map.mp hb
    exact digitByte_isDigit (Nat.digits_lt_base (by norm_num) (List.mem_reverse.mp hd))

/- Zero is the one number whose digit list is empty, so `render` needs its own case. -/
theorem render_eq_map (n : ℕ) :
    ∃ ds : List ℕ, render n = ds.map digitByte ∧ (∀ d ∈ ds, d < 10) ∧
      Nat.ofDigits 10 ds.reverse = n := by
  unfold render
  split_ifs with h
  · exact ⟨[0], rfl, by simp, by simp [h]⟩
  · refine ⟨(Nat.digits 10 n).reverse, rfl, ?_, ?_⟩
    · intro d hd
      exact Nat.digits_lt_base (by norm_num) (List.mem_reverse.mp hd)
    · rw [List.reverse_reverse, Nat.ofDigits_digits]

/- The number that a text of digits stands for. -/
def value (s : List (Fin 256)) : ℕ := s.foldl (fun n b => n * 10 + (b.val - 48)) 0

theorem value_map_digitByte (ds : List ℕ) (h : ∀ d ∈ ds, d < 10) :
    value (ds.map digitByte) = Nat.ofDigits 10 ds.reverse := by
  induction ds using List.reverseRecOn with
  | nil => rfl
  | append_singleton ds d ih =>
    have hd : d < 10 := h d (List.mem_append_right _ List.mem_cons_self)
    have hlast : (digitByte d).val - 48 = d := by
      simp only [digitByte, Fin.val_ofNat]
      omega
    have hfirst := ih fun c hc => h c (List.mem_append_left _ hc)
    unfold value at hfirst ⊢
    rw [List.map_append, List.foldl_append, hfirst, List.reverse_append]
    simp only [List.map_cons, List.map_nil, List.foldl_cons, List.foldl_nil, hlast,
      List.reverse_singleton, List.singleton_append, Nat.ofDigits_cons]
    omega

theorem value_render (n : ℕ) : value (render n) = n := by
  obtain ⟨ds, hrender, hdigits, hvalue⟩ := render_eq_map n
  rw [hrender, value_map_digitByte ds hdigits, hvalue]

theorem render_injective : Function.Injective render := by
  intro m n h
  rw [← value_render m, h, value_render]

/- Two texts that start with digits and go on with a non-digit agree on both parts. -/
theorem digits_append_inj {xs ys s t : List (Fin 256)} {c d : Fin 256}
    (hx : ∀ b ∈ xs, IsDigit b) (hy : ∀ b ∈ ys, IsDigit b) (hc : ¬ IsDigit c) (hd : ¬ IsDigit d)
    (h : xs ++ c :: s = ys ++ d :: t) : xs = ys ∧ c :: s = d :: t := by
  induction xs generalizing ys with
  | nil =>
    cases ys with
    | nil => exact ⟨rfl, h⟩
    | cons y ys =>
      simp only [List.nil_append, List.cons_append, List.cons.injEq] at h
      exact absurd (h.1 ▸ hy y List.mem_cons_self) hc
  | cons x xs ih =>
    cases ys with
    | nil =>
      simp only [List.nil_append, List.cons_append, List.cons.injEq] at h
      exact absurd (h.1 ▸ hx x List.mem_cons_self) hd
    | cons y ys =>
      simp only [List.cons_append, List.cons.injEq] at h
      have htail := ih (fun b hb => hx b (List.mem_cons_of_mem _ hb))
        (fun b hb => hy b (List.mem_cons_of_mem _ hb)) h.2
      exact ⟨by rw [h.1, htail.1], htail.2⟩

theorem render_append_inj {m n : ℕ} {c d : Fin 256} {s t : List (Fin 256)}
    (hc : ¬ IsDigit c) (hd : ¬ IsDigit d) (h : render m ++ c :: s = render n ++ d :: t) :
    m = n ∧ c :: s = d :: t := by
  have hparts := digits_append_inj (render_isDigit m) (render_isDigit n) hc hd h
  exact ⟨render_injective hparts.1, hparts.2⟩

theorem append_render_inj {m n : ℕ} {c d : Fin 256} {s t : List (Fin 256)}
    (hc : ¬ IsDigit c) (hd : ¬ IsDigit d) (h : s ++ c :: render m = t ++ d :: render n) : m = n := by
  have hrev := congrArg List.reverse h
  simp only [List.reverse_append, List.reverse_cons, List.append_assoc, List.singleton_append] at hrev
  have hdigits : ∀ k, ∀ b ∈ (render k).reverse, IsDigit b := by
    intro k b hb
    exact render_isDigit k b (List.mem_reverse.mp hb)
  have hparts := digits_append_inj (hdigits m) (hdigits n) hc hd hrev
  exact render_injective (List.reverse_injective hparts.1)

theorem render_ascii (n : ℕ) : ∀ b ∈ render n, b.val < 0x80 := by
  intro b hb
  have h := render_isDigit n b hb
  unfold IsDigit at h
  omega

end Decimal
