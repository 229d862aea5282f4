import Workflow.JsonGrammar

/-!
# `scan_number` reads the longest number

The switch of `scan_number` is an automaton. Each of its states says how much of
a number the text so far is (`Reached`), so the texts it stops behind without an
error are the numbers of the grammar, and it stops where no number goes on.
-/

namespace Workflow.JsonText

open JsonReader LongestMatch
open Decimal (IsDigit)
open NumberText (Digits IntText IsLetter IsSign)

namespace NumberText

/- What `number_type` is at the end of the text. -/
def numberType (n : NumberText) : NumberType :=
  if n.isInteger then if n.negative then .valueInteger else .valueUnsigned else .valueFloat

theorem convertNumber_text [FloatReader] (n : NumberText) :
    convertNumber n.numberType n.text = n.token := by
  unfold numberType token
  by_cases hint : n.isInteger = true
  · have hparts : n.frac = none ∧ n.exp = none := by
      simpa only [isInteger, Bool.and_eq_true, Option.isNone_iff_eq_none] using hint
    have htext : n.text = n.sign ++ n.int := by
      simp only [text, fracText, expText, hparts, List.append_nil]
    rw [if_pos hint, if_pos hint]
    by_cases hneg : n.negative = true
    · have htail : n.text.tail = n.int := by
        rw [htext, sign, if_pos hneg]
        rfl
      rw [if_pos hneg, if_pos hneg]
      simp only [convertNumber, strtoll, htail]
      by_cases hfits : Decimal.value n.int ≤ 2 ^ 63
      · rw [if_pos hfits, if_pos hfits]
      · rw [if_neg hfits, if_neg hfits]
    · have hall : n.text = n.int := by
        rw [htext, sign, if_neg hneg]
        rfl
      rw [if_neg hneg, if_neg hneg]
      simp only [convertNumber, strtoull, hall]
      by_cases hfits : Decimal.value n.int < 2 ^ 64
      · rw [if_pos hfits, if_pos hfits]
      · rw [if_neg hfits, if_neg hfits]
  · rw [if_neg hint, if_neg hint]
    rfl

end NumberText

theorem digits_append {s : Str} {b : Byte} (h : Digits s) (hb : IsDigit b) : Digits (s ++ [b]) := by
  constructor
  · exact List.append_ne_nil_of_right_ne_nil s (List.cons_ne_nil b [])
  · intro c hc
    cases List.mem_append.mp hc with
    | inl hold => exact h.2 c hold
    | inr hnew => rw [List.mem_singleton.mp hnew]; exact hb

theorem digits_singleton {b : Byte} (hb : IsDigit b) : Digits [b] :=
  ⟨List.cons_ne_nil b [], fun _ hc => List.mem_singleton.mp hc ▸ hb⟩

theorem intText_append {s : Str} {b : Byte} (h : Digits s ∧ s.head? ≠ some 48) (hb : IsDigit b) :
    Digits (s ++ [b]) ∧ (s ++ [b]).head? ≠ some 48 := by
  refine ⟨digits_append h.1 hb, ?_⟩
  cases s with
  | nil => exact absurd rfl h.1.1
  | cons c s => exact h.2

/-! ### What has been read when a label is reached -/

inductive Reached : NumberLabel → NumberText → Prop
  | minus : Reached .minus ⟨true, [], none, none⟩
  | zero {negative} : Reached .zero ⟨negative, [48], none, none⟩
  | any1 {negative int} : Digits int ∧ int.head? ≠ some 48 → Reached .any1 ⟨negative, int, none, none⟩
  | decimal1 {negative int} : IntText int → Reached .decimal1 ⟨negative, int, some [], none⟩
  | decimal2 {negative int digits} : IntText int → Digits digits →
      Reached .decimal2 ⟨negative, int, some digits, none⟩
  | exponent {negative int frac letter} : IntText int → (∀ digits, frac = some digits → Digits digits) →
      IsLetter letter → Reached .exponent ⟨negative, int, frac, some (letter, none, [])⟩
  | sign {negative int frac letter b} : IntText int →
      (∀ digits, frac = some digits → Digits digits) → IsLetter letter → IsSign b →
      Reached .sign ⟨negative, int, frac, some (letter, some b, [])⟩
  | any2 {n : NumberText} : n.Wf → n.exp ≠ none → Reached .any2 n

/- At the labels whose default branch is no error the text is a number. -/
theorem wf_of_reached {l : NumberLabel} {n : NumberText} (h : Reached l n)
    (hend : numberError l = none) : n.Wf := by
  have hnone : ∀ digits : Str, none = some digits → Digits digits := fun _ hd => nomatch hd
  have hnoexp : ∀ (letter : Byte) (sgn : Option Byte) (digits : Str),
      none = some (letter, sgn, digits) →
      IsLetter letter ∧ (∀ b, sgn = some b → IsSign b) ∧ Digits digits := fun _ _ _ hd => nomatch hd
  cases h with
  | zero => exact ⟨.inl rfl, hnone, hnoexp⟩
  | any1 hint => exact ⟨.inr hint, hnone, hnoexp⟩
  | decimal2 hint hfrac => exact ⟨hint, fun _ hd => Option.some.inj hd ▸ hfrac, hnoexp⟩
  | any2 hwf => exact hwf
  | minus | decimal1 | exponent | sign => cases hend

theorem isExponent_iff (b : Byte) : isExponent b = true ↔ IsLetter b := decide_eq_true_iff

/- The labels at which a fraction or an exponent may follow. -/
theorem reached_decimal1 (negative : Bool) {int : Str} (h : IntText int) :
    ∃ n, Reached .decimal1 n ∧ n.numberType = .valueFloat ∧
      n.text = (⟨negative, int, none, none⟩ : NumberText).text ++ [46] := by
  refine ⟨⟨negative, int, some [], none⟩, .decimal1 h, rfl, ?_⟩
  simp only [NumberText.text, NumberText.sign, NumberText.fracText, NumberText.expText,
    List.append_nil]

theorem reached_exponent (negative : Bool) {int : Str} (frac : Option Str) {b : Byte}
    (hint : IntText int) (hfrac : ∀ digits, frac = some digits → Digits digits)
    (hb : isExponent b = true) :
    ∃ n, Reached .exponent n ∧ n.numberType = .valueFloat ∧
      n.text = (⟨negative, int, frac, none⟩ : NumberText).text ++ [b] := by
  refine ⟨⟨negative, int, frac, some (b, none, [])⟩,
    .exponent hint hfrac ((isExponent_iff b).mp hb), ?_, ?_⟩
  · cases frac <;> rfl
  · simp only [NumberText.text, NumberText.sign, NumberText.fracText, NumberText.expText,
      List.append_nil, Option.toList_none]

theorem reached_any2 (negative : Bool) {int : Str} {frac : Option Str} {letter b : Byte}
    {sgn : Option Byte} (hint : IntText int) (hfrac : ∀ digits, frac = some digits → Digits digits)
    (hletter : IsLetter letter) (hsgn : ∀ c, sgn = some c → IsSign c) (hb : IsDigit b) :
    ∃ n, Reached .any2 n ∧ n.numberType = .valueFloat ∧
      n.text = (⟨negative, int, frac, some (letter, sgn, [])⟩ : NumberText).text ++ [b] := by
  refine ⟨⟨negative, int, frac, some (letter, sgn, [b])⟩, .any2 ⟨hint, hfrac, ?_⟩ nofun, ?_, ?_⟩
  · rintro _ _ _ ⟨⟩
    exact ⟨hletter, hsgn, digits_singleton hb⟩
  · cases frac <;> rfl
  · simp only [NumberText.text, NumberText.sign, NumberText.fracText, NumberText.expText,
      List.append_nil, List.append_assoc, List.cons_append]

theorem reached_step {s s' : NumberState} {n : NumberText} {b : Byte} (h : Reached s.label n)
    (htype : s.numberType = n.numberType) (hstep : numberStep s b = some s') :
    ∃ n', Reached s'.label n' ∧ s'.numberType = n'.numberType ∧ n'.text = n.text ++ [b] := by
  obtain ⟨l, hl, rfl⟩ := Option.map_eq_some_iff.mp hstep
  obtain ⟨label, numberType⟩ := s
  have hnone : ∀ digits : Str, none = some digits → Digits digits := fun _ hd => nomatch hd
  have hnosgn : ∀ c : Byte, none = some c → IsSign c := fun _ hc => nomatch hc
  cases h with
  | minus =>
    simp only [nextLabel] at hl
    split_ifs at hl with hzero hdigit
    · obtain rfl := Option.some.inj hl
      exact ⟨⟨true, [48], none, none⟩, .zero, htype, by rw [hzero]; rfl⟩
    · obtain rfl := Option.some.inj hl
      refine ⟨⟨true, [b], none, none⟩, .any1 ⟨digits_singleton hdigit, ?_⟩, htype, rfl⟩
      intro hhead
      exact hzero (Option.some.inj hhead)
  | @zero negative =>
    simp only [nextLabel] at hl
    split_ifs at hl with hdot hexp
    · obtain rfl := Option.some.inj hl
      obtain ⟨n', hn', ht', htext⟩ := reached_decimal1 negative (.inl rfl)
      exact ⟨n', hn', ht'.symm, by rw [htext, hdot]⟩
    · obtain rfl := Option.some.inj hl
      obtain ⟨n', hn', ht', htext⟩ := reached_exponent negative none (.inl rfl) hnone hexp
      exact ⟨n', hn', ht'.symm, htext⟩
  | @any1 negative int hint =>
    simp only [nextLabel] at hl
    split_ifs at hl with hdigit hdot hexp
    · obtain rfl := Option.some.inj hl
      refine ⟨⟨negative, int ++ [b], none, none⟩, .any1 (intText_append hint hdigit), htype, ?_⟩
      simp only [NumberText.text, NumberText.sign, NumberText.fracText, NumberText.expText,
        List.append_nil, List.append_assoc]
    · obtain rfl := Option.some.inj hl
      obtain ⟨n', hn', ht', htext⟩ := reached_decimal1 negative (.inr hint)
      exact ⟨n', hn', ht'.symm, by rw [htext, hdot]⟩
    · obtain rfl := Option.some.inj hl
      obtain ⟨n', hn', ht', htext⟩ := reached_exponent negative none (.inr hint) hnone hexp
      exact ⟨n', hn', ht'.symm, htext⟩
  | @decimal1 negative int hint =>
    simp only [nextLabel] at hl
    split_ifs at hl with hdigit
    obtain rfl := Option.some.inj hl
    refine ⟨⟨negative, int, some [b], none⟩, .decimal2 hint (digits_singleton hdigit), htype, ?_⟩
    simp only [NumberText.text, NumberText.sign, NumberText.fracText, NumberText.expText,
      List.append_nil, List.append_assoc, List.cons_append, List.nil_append]
  | @decimal2 negative int digits hint hdigits =>
    simp only [nextLabel] at hl
    split_ifs at hl with hdigit hexp
    · obtain rfl := Option.some.inj hl
      refine ⟨⟨negative, int, some (digits ++ [b]), none⟩,
        .decimal2 hint (digits_append hdigits hdigit), htype, ?_⟩
      simp only [NumberText.text, NumberText.sign, NumberText.fracText, NumberText.expText,
        List.append_nil, List.append_assoc, List.cons_append]
    · obtain rfl := Option.some.inj hl
      obtain ⟨n', hn', ht', htext⟩ := reached_exponent negative (some digits)
        hint (fun _ hd => Option.some.inj hd ▸ hdigits) hexp
      exact ⟨n', hn', ht'.symm, htext⟩
  | @exponent negative int frac letter hint hfrac hletter =>
    have hfloat : numberType = .valueFloat := htype.trans (by cases frac <;> rfl)
    simp only [nextLabel] at hl
    split_ifs at hl with hsign hdigit
    · obtain rfl := Option.some.inj hl
      refine ⟨⟨negative, int, frac, some (letter, some b, [])⟩, .sign hint hfrac hletter hsign, ?_, ?_⟩
      · cases frac <;> exact hfloat
      · simp only [NumberText.text, NumberText.sign, NumberText.fracText, NumberText.expText,
          List.append_nil, List.append_assoc, List.cons_append, Option.toList_some,
          Option.toList_none, List.nil_append]
    · obtain rfl := Option.some.inj hl
      obtain ⟨n', hn', ht', htext⟩ := reached_any2 negative hint hfrac hletter hnosgn hdigit
      exact ⟨n', hn', hfloat.trans ht'.symm, htext⟩
  | @sign negative int frac letter sgn hint hfrac hletter hsgn =>
    have hfloat : numberType = .valueFloat := htype.trans (by cases frac <;> rfl)
    simp only [nextLabel] at hl
    split_ifs at hl with hdigit
    obtain rfl := Option.some.inj hl
    obtain ⟨n', hn', ht', htext⟩ := reached_any2 negative hint hfrac hletter
      (fun c hc => Option.some.inj hc ▸ hsgn) hdigit
    exact ⟨n', hn', hfloat.trans ht'.symm, htext⟩
  | @any2 _ hwf hexp =>
    obtain ⟨negative, int, frac, exp⟩ := n
    obtain ⟨⟨letter, sgn, digits⟩, rfl⟩ := Option.ne_none_iff_exists'.mp hexp
    obtain ⟨hletter, hsgn, hdigits⟩ := hwf.exp letter sgn digits rfl
    simp only [nextLabel] at hl
    split_ifs at hl with hdigit
    obtain rfl := Option.some.inj hl
    refine ⟨⟨negative, int, frac, some (letter, sgn, digits ++ [b])⟩,
      .any2 ⟨hwf.int, hwf.frac, ?_⟩ nofun, ?_, ?_⟩
    · rintro _ _ _ ⟨⟩
      exact ⟨hletter, hsgn, digits_append hdigits hdigit⟩
    · exact htype.trans (by cases frac <;> rfl)
    · simp only [NumberText.text, NumberText.sign, NumberText.fracText, NumberText.expText,
        List.append_assoc, List.cons_append]

theorem reached_init {c : Byte} (hc : beginsNumber c = true) :
    ∃ n, Reached (numberInit c).label n ∧ (numberInit c).numberType = n.numberType ∧
      n.text = [c] := by
  have hfirst : c = 45 ∨ IsDigit c := of_decide_eq_true hc
  unfold numberInit
  by_cases hminus : c = 45
  · rw [if_pos hminus]
    exact ⟨_, .minus, rfl, by rw [hminus]; rfl⟩
  · rw [if_neg hminus]
    by_cases hzero : c = 48
    · rw [if_pos hzero]
      exact ⟨⟨false, [48], none, none⟩, .zero, rfl, by rw [hzero]; rfl⟩
    · have hdigit : IsDigit c := hfirst.resolve_left hminus
      rw [if_neg hzero]
      refine ⟨⟨false, [c], none, none⟩, .any1 ⟨digits_singleton hdigit, ?_⟩, rfl, rfl⟩
      intro hhead
      exact hzero (Option.some.inj hhead)

theorem reached_drives {s s' : NumberState} {n : NumberText} {text : Str} (h : Reached s.label n)
    (htype : s.numberType = n.numberType) (hdrives : Drives numberStep s text s') :
    ∃ n', Reached s'.label n' ∧ s'.numberType = n'.numberType ∧ n'.text = n.text ++ text := by
  induction text generalizing s n with
  | nil =>
    rw [← drives_nil.mp hdrives]
    exact ⟨n, h, htype, (List.append_nil _).symm⟩
  | cons b text ih =>
    obtain ⟨t, hstep, hrest⟩ := drives_cons.mp hdrives
    obtain ⟨m, hm, hmtype, hmtext⟩ := reached_step h htype hstep
    obtain ⟨n', hn', hn'type, hn'text⟩ := ih hm hmtype hrest
    exact ⟨n', hn', hn'type, by rw [hn'text, hmtext, List.append_assoc, List.singleton_append]⟩

/-! ### Every number drives the automaton to its end -/

theorem numberStep_of {l l' : NumberLabel} {b : Byte} (t : NumberType) (h : nextLabel l b = some l') :
    numberStep ⟨l, t⟩ b = some (NumberState.goto ⟨l, t⟩ l') := by
  unfold numberStep
  rw [h]
  rfl

theorem drives_digits {l : NumberLabel} {t : NumberType} {digits : Str}
    (hl : l = .any1 ∨ l = .decimal2 ∨ l = .any2) (h : ∀ b ∈ digits, IsDigit b) :
    Drives numberStep ⟨l, t⟩ digits ⟨l, t⟩ := by
  apply drives_of_loop
  intro b hb
  rcases hl with rfl | rfl | rfl <;> exact numberStep_of t (if_pos (h b hb))

theorem drives_int {t : NumberType} {int : Str} (h : IntText int) :
    ∃ l, (l = .zero ∨ l = .any1) ∧ Drives numberStep ⟨.minus, t⟩ int ⟨l, t⟩ := by
  cases h with
  | inl hzero =>
    refine ⟨.zero, .inl rfl, ?_⟩
    rw [hzero]
    exact rfl
  | inr hdigits =>
    obtain ⟨⟨hne, hall⟩, hhead⟩ := hdigits
    obtain ⟨d, ds, rfl⟩ := List.exists_cons_of_ne_nil hne
    have hd : d ≠ 48 := fun heq => hhead (by rw [heq]; rfl)
    have hstep : nextLabel .minus d = some .any1 := by
      simp only [nextLabel, if_neg hd, if_pos (hall d List.mem_cons_self)]
    have hds : ∀ b ∈ ds, IsDigit b := fun b hb => hall b (List.mem_cons_of_mem d hb)
    exact ⟨.any1, .inr rfl, drives_cons.mpr ⟨_, numberStep_of t hstep, drives_digits (.inl rfl) hds⟩⟩

theorem drives_init_int {c : Byte} {tail : Str} (h : IntText (c :: tail)) :
    ∃ l, (l = .zero ∨ l = .any1) ∧ Drives numberStep (numberInit c) tail ⟨l, .valueUnsigned⟩ := by
  cases h with
  | inl hzero =>
    obtain ⟨rfl, rfl⟩ := List.cons.inj hzero
    exact ⟨.zero, .inl rfl, drives_nil.mpr rfl⟩
  | inr hdigits =>
    obtain ⟨⟨-, hall⟩, hhead⟩ := hdigits
    have hc : c ≠ 48 := fun heq => hhead (by rw [heq]; rfl)
    have hminus : c ≠ 45 := by
      intro heq
      have hdigit := hall c List.mem_cons_self
      rw [heq] at hdigit
      revert hdigit
      decide
    have htail : ∀ b ∈ tail, IsDigit b := fun b hb => hall b (List.mem_cons_of_mem c hb)
    refine ⟨.any1, .inr rfl, ?_⟩
    unfold numberInit
    rw [if_neg hminus, if_neg hc]
    exact drives_digits (.inl rfl) htail

theorem drives_frac {l : NumberLabel} {t : NumberType} {digits : Str} (hl : l = .zero ∨ l = .any1)
    (h : Digits digits) : Drives numberStep ⟨l, t⟩ (46 :: digits) ⟨.decimal2, .valueFloat⟩ := by
  obtain ⟨d, ds, rfl⟩ := List.exists_cons_of_ne_nil h.1
  have hdot : nextLabel l 46 = some .decimal1 := by
    rcases hl with rfl | rfl <;> rfl
  have hd : nextLabel .decimal1 d = some .decimal2 := if_pos (h.2 d List.mem_cons_self)
  have hds : ∀ b ∈ ds, IsDigit b := fun b hb => h.2 b (List.mem_cons_of_mem d hb)
  exact drives_cons.mpr ⟨_, numberStep_of t hdot,
    drives_cons.mpr ⟨_, numberStep_of _ hd, drives_digits (.inr (.inl rfl)) hds⟩⟩

theorem nextLabel_letter {l : NumberLabel} {letter : Byte} (hl : l = .zero ∨ l = .any1 ∨ l = .decimal2)
    (h : IsLetter letter) : nextLabel l letter = some .exponent := by
  rcases h with rfl | rfl <;> rcases hl with rfl | rfl | rfl <;> rfl

theorem nextLabel_exponent_digit {d : Byte} (h : IsDigit d) : nextLabel .exponent d = some .any2 := by
  have hsign : ¬ (d = 43 ∨ d = 45) := by
    rintro (rfl | rfl) <;> revert h <;> decide
  simp only [nextLabel, if_neg hsign, if_pos h]

theorem drives_exp {l : NumberLabel} {t : NumberType} {letter : Byte} {sgn : Option Byte} {digits : Str}
    (hl : l = .zero ∨ l = .any1 ∨ l = .decimal2) (hletter : IsLetter letter)
    (hsgn : ∀ b, sgn = some b → IsSign b) (h : Digits digits) :
    Drives numberStep ⟨l, t⟩ (letter :: (sgn.toList ++ digits)) ⟨.any2, .valueFloat⟩ := by
  obtain ⟨d, ds, rfl⟩ := List.exists_cons_of_ne_nil h.1
  have hd : IsDigit d := h.2 d List.mem_cons_self
  have hds : ∀ b ∈ ds, IsDigit b := fun b hb => h.2 b (List.mem_cons_of_mem d hb)
  have hrest : ∀ t, Drives numberStep ⟨.any2, t⟩ ds ⟨.any2, t⟩ :=
    fun t => drives_digits (.inr (.inr rfl)) hds
  refine drives_cons.mpr ⟨_, numberStep_of t (nextLabel_letter hl hletter), ?_⟩
  cases sgn with
  | none =>
    exact drives_cons.mpr ⟨_, numberStep_of _ (nextLabel_exponent_digit hd), hrest _⟩
  | some b =>
    have hb : nextLabel .exponent b = some .sign := if_pos (hsgn b rfl)
    have hfirst : nextLabel .sign d = some .any2 := if_pos hd
    exact drives_cons.mpr ⟨_, numberStep_of _ hb,
      drives_cons.mpr ⟨_, numberStep_of _ hfirst, hrest _⟩⟩

/- From the end of the integer part to the end of the number. -/
theorem drives_fraction_exponent {n : NumberText} (h : n.Wf) {l : NumberLabel} {t : NumberType}
    (hl : l = .zero ∨ l = .any1) :
    ∃ l', numberError l' = none ∧ Drives numberStep ⟨l, t⟩ (n.fracText ++ n.expText)
      ⟨l', if n.isInteger then t else .valueFloat⟩ := by
  obtain ⟨negative, int, frac, exp⟩ := n
  have hexp : ∀ letter sgn digits, exp = some (letter, sgn, digits) →
      IsLetter letter ∧ (∀ b, sgn = some b → IsSign b) ∧ Digits digits := h.exp
  cases frac with
  | none =>
    cases exp with
    | none =>
      refine ⟨l, ?_, drives_nil.mpr rfl⟩
      rcases hl with rfl | rfl <;> rfl
    | some e =>
      obtain ⟨hletter, hsgn, hdigits⟩ := hexp e.1 e.2.1 e.2.2 rfl
      have hl' : l = .zero ∨ l = .any1 ∨ l = .decimal2 := hl.imp_right .inl
      exact ⟨.any2, rfl, drives_exp hl' hletter hsgn hdigits⟩
  | some digits =>
    have hfrac := drives_frac (t := t) hl (h.frac digits rfl)
    cases exp with
    | none => exact ⟨.decimal2, rfl, drives_append.mpr ⟨_, hfrac, drives_nil.mpr rfl⟩⟩
    | some e =>
      obtain ⟨hletter, hsgn, hdigits⟩ := hexp e.1 e.2.1 e.2.2 rfl
      exact ⟨.any2, rfl, drives_append.mpr
        ⟨_, hfrac, drives_exp (.inr (.inr rfl)) hletter hsgn hdigits⟩⟩

theorem drives_number {n : NumberText} (h : n.Wf) :
    ∃ c tail l, n.text = c :: tail ∧ beginsNumber c = true ∧ numberError l = none ∧
      Drives numberStep (numberInit c) tail ⟨l, n.numberType⟩ := by
  by_cases hneg : n.negative = true
  · obtain ⟨l, hl, hint⟩ := drives_int (t := .valueInteger) h.int
    obtain ⟨l', hl', hrest⟩ := drives_fraction_exponent h (t := .valueInteger) hl
    have htype : n.numberType = if n.isInteger then .valueInteger else .valueFloat := by
      unfold NumberText.numberType
      rw [if_pos hneg]
    refine ⟨45, n.int ++ (n.fracText ++ n.expText), l', ?_, rfl, hl', ?_⟩
    · simp only [NumberText.text, NumberText.sign, if_pos hneg, List.append_assoc, List.cons_append,
        List.nil_append]
    · rw [htype]
      exact drives_append.mpr ⟨_, hint, hrest⟩
  · obtain ⟨c, tail, hcons⟩ : ∃ c tail, n.int = c :: tail := by
      cases h.int with
      | inl hzero => exact ⟨48, [], hzero⟩
      | inr hdigits => exact List.exists_cons_of_ne_nil hdigits.1.1
    have hdigit : IsDigit c := by
      cases h.int with
      | inl hzero =>
        rw [hcons] at hzero
        rw [(List.cons.inj hzero).1]
        decide
      | inr hdigits => exact hdigits.1.2 c (by rw [hcons]; exact List.mem_cons_self)
    obtain ⟨l, hl, hint⟩ := drives_init_int (hcons ▸ h.int)
    obtain ⟨l', hl', hrest⟩ := drives_fraction_exponent h (t := .valueUnsigned) hl
    have htype : n.numberType = if n.isInteger then .valueUnsigned else .valueFloat := by
      unfold NumberText.numberType
      rw [if_neg hneg]
    refine ⟨c, tail ++ (n.fracText ++ n.expText), l', ?_, decide_eq_true (.inr hdigit), hl', ?_⟩
    · simp only [NumberText.text, NumberText.sign, if_neg hneg, hcons, List.append_assoc,
        List.cons_append, List.nil_append]
    · rw [htype]
      exact drives_append.mpr ⟨_, hint, hrest⟩

/-! ### The scan stops at the end of a number -/

/- What has been read can be completed: one more digit is enough. -/
theorem reached_extends {l : NumberLabel} {n : NumberText} (h : Reached l n) :
    ∃ m : NumberText, m.Wf ∧ n.text <+: m.text := by
  have hself : ∀ {l}, numberError l = none → Reached l n → ∃ m : NumberText, m.Wf ∧ n.text <+: m.text :=
    fun hl hn => ⟨n, wf_of_reached hn hl, List.prefix_rfl⟩
  have hdigit : ∀ {l l' : NumberLabel}, Reached l n → nextLabel l 48 = some l' → numberError l' = none →
      ∃ m : NumberText, m.Wf ∧ n.text <+: m.text := by
    intro l l' hn hnext hend
    obtain ⟨m, hm, -, htext⟩ := reached_step (s := ⟨l, n.numberType⟩) hn rfl (numberStep_of _ hnext)
    exact ⟨m, wf_of_reached hm hend, by rw [htext]; exact List.prefix_append _ _⟩
  cases h with
  | minus => exact hdigit .minus rfl rfl
  | zero => exact hself rfl .zero
  | any1 hint => exact hself rfl (.any1 hint)
  | decimal1 hint => exact hdigit (.decimal1 hint) rfl rfl
  | decimal2 hint hdigits => exact hself rfl (.decimal2 hint hdigits)
  | exponent hint hfrac hletter => exact hdigit (.exponent hint hfrac hletter) rfl rfl
  | sign hint hfrac hletter hsgn => exact hdigit (.sign hint hfrac hletter hsgn) rfl rfl
  | any2 hwf hexp => exact hself rfl (.any2 hwf hexp)

theorem reached_of_text {c : Byte} {tail : Str} {s : NumberState} (hc : beginsNumber c = true)
    (hdrives : Drives numberStep (numberInit c) tail s) :
    ∃ n, Reached s.label n ∧ s.numberType = n.numberType ∧ n.text = c :: tail := by
  obtain ⟨n, hn, htype, htext⟩ := reached_init hc
  obtain ⟨n', hn', htype', htext'⟩ := reached_drives hn htype hdrives
  exact ⟨n', hn', htype', by rw [htext', htext, List.singleton_append]⟩

theorem ends_iff_stuck {n : NumberText} {c : Byte} {tail rest : Str} {s : NumberState}
    (hc : beginsNumber c = true) (htext : n.text = c :: tail)
    (hdrives : Drives numberStep (numberInit c) tail s) :
    n.Ends rest ↔ Stuck numberStep s rest := by
  constructor
  · intro hends b more hrest
    by_contra hgoes
    obtain ⟨s', hs'⟩ := Option.ne_none_iff_exists'.mp hgoes
    have hlonger : Drives numberStep (numberInit c) (tail ++ [b]) s' :=
      drives_append.mpr ⟨s, hdrives, drives_cons.mpr ⟨s', hs', drives_nil.mpr rfl⟩⟩
    obtain ⟨n', hn', -, htext'⟩ := reached_of_text hc hlonger
    obtain ⟨m, hm, hstarts⟩ := reached_extends hn'
    rw [htext', ← List.cons_append, ← htext] at hstarts
    exact hends b more hrest m hm hstarts
  · intro hstuck b more hrest m hm hstarts
    obtain ⟨d, mtail, l, hmtext, -, -, hmdrives⟩ := drives_number hm
    obtain ⟨after, hafter⟩ := hstarts
    rw [htext, hmtext, List.cons_append, List.cons_append] at hafter
    obtain ⟨rfl, hmtail⟩ := List.cons.inj hafter
    rw [← hmtail, List.append_assoc] at hmdrives
    obtain ⟨t, hfirst, hsecond⟩ := drives_append.mp hmdrives
    obtain rfl : s = t := Option.some.inj (hdrives.symm.trans hfirst)
    obtain ⟨t', hnext, -⟩ := drives_cons.mp hsecond
    cases (hstuck b more hrest).symm.trans hnext

section
variable [FloatReader]

theorem scanNumber_sound {c : Byte} {rest : Str} (hc : beginsNumber c = true)
    (hlast : (scanNumber c rest).token.isLast = false) :
    ∃ n : NumberText, n.Wf ∧ c :: rest = n.text ++ (scanNumber c rest).rest ∧
      (scanNumber c rest).token = n.token ∧ n.Ends (scanNumber c rest).rest := by
  obtain ⟨hsplit, hdrives, hstuck⟩ := munch_split numberStep (numberInit c) rest
  cases hend : numberError (munch numberStep (numberInit c) rest).final.label with
  | some message =>
    have hscan : (scanNumber c rest).token = .parseError message := by
      simp only [scanNumber, hend]
    rw [hscan] at hlast
    cases hlast
  | none =>
    obtain ⟨n, hn, htype, htext⟩ := reached_of_text hc hdrives
    have hwf := wf_of_reached hn hend
    have hends := (ends_iff_stuck hc htext hdrives).mpr hstuck
    simp only [scanNumber, hend]
    refine ⟨n, hwf, ?_, ?_, hends⟩
    · rw [htext, List.cons_append, ← hsplit]
    · rw [htype, ← htext, NumberText.convertNumber_text]

theorem scanNumber_complete {n : NumberText} {rest : Str} (h : n.Wf) (hends : n.Ends rest) :
    ∃ c tail, n.text = c :: tail ∧ beginsNumber c = true ∧
      scanNumber c (tail ++ rest) = ⟨n.token, rest, false⟩ := by
  obtain ⟨c, tail, l, htext, hc, hend, hdrives⟩ := drives_number h
  have hstuck := (ends_iff_stuck hc htext hdrives).mp hends
  refine ⟨c, tail, htext, hc, ?_⟩
  unfold scanNumber
  rw [munch_append hdrives hstuck]
  simp only [hend]
  rw [← htext, NumberText.convertNumber_text]

end

end Workflow.JsonText
