import Workflow.JsonStrings

/-!
# The writer's strings and numbers are tokens of the grammar

`dump_escaped` takes the reader's string automaton from the loop back to the loop,
byte by byte; a whole number has no leading zero.
-/

namespace Workflow.JsonText

open JsonReader
open NumberText (IntText)

/-! ### Strings -/

theorem hexDigit_lowerHex {n : ℕ} (h : n < 16) : hexDigit (lowerHex n) = some n := by
  unfold lowerHex
  by_cases hn : n < 10
  · rw [if_pos hn]
    simp only [hexDigit, Fin.val_ofNat]
    rw [if_pos (by omega)]
    exact congrArg some (by omega)
  · rw [if_neg hn]
    simp only [hexDigit, Fin.val_ofNat]
    rw [if_neg (by omega), if_neg (by omega), if_pos (by omega)]
    exact congrArg some (by omega)

theorem moves_control {b : Byte} (h : b.val ≤ 0x1F) :
    Moves .start (lit "\\u00" ++ [lowerHex (b.val / 16), lowerHex (b.val % 16)]) [b] .start := by
  have hhigh := hexDigit_lowerHex (n := b.val / 16) (by omega)
  have hlow := hexDigit_lowerHex (n := b.val % 16) (by omega)
  have hhex : Hex4 [48, 48, lowerHex (b.val / 16), lowerHex (b.val % 16)] b.val :=
    ⟨48, 48, _, _, 0, 0, _, _, rfl, rfl, rfl, hhigh, hlow, by omega⟩
  have hend : endCodepoint none b.val = .add [b] .start := by
    have hencode : encodeCodepoint b.val = [b] := by
      unfold encodeCodepoint
      rw [if_pos (by omega), Fin.ofNat_val_eq_self]
    rw [← hencode]
    apply endCodepoint_basic
    · unfold IsHigh
      omega
    · unfold IsLow
      omega
  exact moves_u hhex hend

theorem moves_plain {p p' : Utf8.Pending} {b : Byte} (hb : Plain b) (hnext : Utf8.next p b = some p') :
    Moves (pointOf p) [b] [b] (pointOf p') := by
  apply moves_one
  have hutf8 : stringStep (pointOf p) b = utf8Step p b := by
    by_cases hp : p = .done
    · rw [hp]
      exact stringStep_plain hb
    · exact stringStep_inRange hp b
  rw [hutf8, utf8Step, hnext]

theorem moves_escapeByte {b : Byte} (h : b.val < 0x80) :
    Moves .start (escapeByte b) [b] .start := by
  unfold escapeByte
  split
  · next hval =>
    obtain rfl : b = 8 := Fin.ext hval
    exact moves_escape (b := 98) (by decide)
  · next hval =>
    obtain rfl : b = 9 := Fin.ext hval
    exact moves_escape (b := 116) (by decide)
  · next hval =>
    obtain rfl : b = 10 := Fin.ext hval
    exact moves_escape (b := 110) (by decide)
  · next hval =>
    obtain rfl : b = 12 := Fin.ext hval
    exact moves_escape (b := 102) (by decide)
  · next hval =>
    obtain rfl : b = 13 := Fin.ext hval
    exact moves_escape (b := 114) (by decide)
  · next hval =>
    obtain rfl : b = 34 := Fin.ext hval
    exact moves_escape (b := 34) (by decide)
  · next hval =>
    obtain rfl : b = 92 := Fin.ext hval
    exact moves_escape (b := 92) (by decide)
  · next hquote hbackslash =>
    by_cases hcontrol : b.val ≤ 0x1F
    · rw [if_pos hcontrol]
      exact moves_control hcontrol
    · rw [if_neg hcontrol]
      have hplain : Plain b := by
        refine ⟨by omega, ?_, ?_⟩
        · intro heq
          exact hquote (congrArg Fin.val heq)
        · intro heq
          exact hbackslash (congrArg Fin.val heq)
      exact moves_plain (p := .done) hplain (Utf8.lead_done_iff.mpr h)

/- The last byte of a longer character is copied. -/
theorem escapeByte_high {b : Byte} (h : 0x80 ≤ b.val) : escapeByte b = [b] := by
  unfold escapeByte
  split <;> first | omega | rw [if_neg (by omega)]

/- What the writer puts out for one byte. -/
theorem moves_piece {p p' : Utf8.Pending} {b : Byte} (hnext : Utf8.next p b = some p') :
    Moves (pointOf p) (if p' = .done then escapeByte b else [b]) [b] (pointOf p') := by
  by_cases hp : p = .done
  · rw [hp] at hnext ⊢
    by_cases hascii : b.val < 0x80
    · have hlead : some Utf8.Pending.done = some p' := (Utf8.lead_done_iff.mpr hascii).symm.trans hnext
      rw [← Option.some.inj hlead, if_pos rfl]
      exact moves_escapeByte hascii
    · have hlonger : p' ≠ .done := by
        intro hdone
        rw [hdone] at hnext
        exact hascii (Utf8.lead_done_iff.mp hnext)
      rw [if_neg hlonger]
      exact moves_plain (plain_of_high (Nat.le_of_not_lt hascii)) hnext
  · have hhigh := high_of_next hp hnext
    rw [escapeByte_high hhigh, ite_self]
    exact moves_plain (plain_of_high hhigh) hnext

theorem map_ok {α β : Type} {f : α → β} {x : Except Exn α} {b : β} (h : x.map f = .ok b) :
    ∃ a, x = .ok a ∧ f a = b := by
  cases x with
  | error e => cases h
  | ok a => exact ⟨a, rfl, Except.ok.inj h⟩

theorem dumpEscapedFrom_cons {last : Byte} {p : Utf8.Pending} {i : ℕ} {b : Byte} {s t : Str}
    (h : dumpEscapedFrom last p i (b :: s) = .ok t) :
    ∃ p' t', Utf8.next p b = some p' ∧ dumpEscapedFrom last p' (i + 1) s = .ok t' ∧
      t = (if p' = .done then escapeByte b else [b]) ++ t' := by
  simp only [dumpEscapedFrom] at h
  split at h
  · cases h
  · next hnext =>
    obtain ⟨t', ht', rfl⟩ := map_ok h
    exact ⟨.done, t', hnext, ht', rfl⟩
  · next p' hmore hnext =>
    obtain ⟨t', ht', rfl⟩ := map_ok h
    exact ⟨p', t', hnext, ht', by rw [if_neg hmore]; rfl⟩

theorem moves_of_dumpEscaped {last : Byte} {p : Utf8.Pending} {i : ℕ} {s t : Str}
    (h : dumpEscapedFrom last p i s = .ok t) : Moves (pointOf p) t s .start := by
  induction s generalizing p i t with
  | nil =>
    cases p with
    | done =>
      rw [← Except.ok.inj h]
      exact .refl
    | _ => cases h
  | cons b s ih =>
    obtain ⟨p', t', hnext, ht', rfl⟩ := dumpEscapedFrom_cons h
    exact moves_append (moves_piece hnext) (ih ht')

theorem stringText_of_dumpEscaped {s t : Str} (h : dumpEscaped s = .ok t) : StringText t s :=
  moves_iff.mp (moves_of_dumpEscaped (p := .done) h)

/-! ### Numbers -/

theorem intText_render (n : ℕ) : IntText (Decimal.render n) := by
  by_cases hn : n = 0
  · left
    rw [hn]
    rfl
  · right
    have hne : Nat.digits 10 n ≠ [] := Nat.digits_ne_nil_iff_ne_zero.mpr hn
    have hlast := Nat.getLast_digit_ne_zero 10 hn
    have hrender : Decimal.render n = (Nat.digits 10 n).reverse.map Decimal.digitByte := if_neg hn
    obtain ⟨d, ds, hcons⟩ := List.exists_cons_of_ne_nil (List.reverse_ne_nil_iff.mpr hne)
    have hd : d ≠ 0 := by
      have hhead : (Nat.digits 10 n).getLast hne = d := by
        rw [List.getLast_eq_head_reverse]
        simp only [hcons, List.head_cons]
      rw [← hhead]
      exact hlast
    have hlt : d < 10 := by
      apply Nat.digits_lt_base (m := n) (by decide)
      rw [← List.mem_reverse, hcons]
      exact List.mem_cons_self
    rw [hrender, hcons, List.map_cons]
    refine ⟨⟨List.cons_ne_nil _ _, ?_⟩, ?_⟩
    · intro b hb
      apply Decimal.render_isDigit n b
      rw [hrender, hcons, List.map_cons]
      exact hb
    · intro hzero
      have hval := congrArg Fin.val (Option.some.inj hzero)
      simp only [Decimal.digitByte, Fin.val_ofNat] at hval
      omega

/- A whole number, with its sign. -/
def wholeNumber (negative : Bool) (n : ℕ) : NumberText := ⟨negative, Decimal.render n, none, none⟩

theorem wf_wholeNumber (negative : Bool) (n : ℕ) : (wholeNumber negative n).Wf :=
  ⟨intText_render n, nofun, nofun⟩

theorem text_unsigned (n : ℕ) : (wholeNumber false n).text = natToString n := by
  simp only [wholeNumber, NumberText.text, NumberText.sign, NumberText.fracText, NumberText.expText,
    natToString, List.append_nil]
  rfl

theorem text_negative (n : ℕ) : (wholeNumber true n).text = 45 :: natToString n := by
  simp only [wholeNumber, NumberText.text, NumberText.sign, NumberText.fracText, NumberText.expText,
    natToString, List.append_nil]
  rfl

theorem intToString_nonnegative {z : Int64} (h : ¬ z < 0) :
    intToString z.toInt = natToString z.toUInt64.toNat := by
  rw [Int64.lt_iff_toInt_lt, Int64.toInt_zero] at h
  have hsame : z.toUInt64.toNat = z.toInt.natAbs := by
    have hle : (0 : Int64) ≤ z := by
      rw [Int64.le_iff_toInt_le, Int64.toInt_zero]
      omega
    rw [Int64.toNat_toUInt64_of_le hle]
    unfold Int64.toNatClampNeg
    omega
  unfold intToString Decimal.renderInt
  rw [if_neg h, hsame]
  rfl

theorem blank_nil : Blank [] := nofun

section
variable [FloatReader]

theorem token_unsigned {n : ℕ} (h : n < 2 ^ 64) :
    (wholeNumber false n).token = .valueUnsigned (UInt64.ofNat n) := by
  have hvalue : Decimal.value (Decimal.render n) = n := Decimal.value_render n
  simp only [wholeNumber, NumberText.token, NumberText.isInteger, hvalue, if_pos h]
  rfl

theorem token_negative {n : ℕ} (h : n ≤ 2 ^ 63) :
    (wholeNumber true n).token = .valueInteger (Int64.ofInt (-n)) := by
  have hvalue : Decimal.value (Decimal.render n) = n := Decimal.value_render n
  simp only [wholeNumber, NumberText.token, NumberText.isInteger, hvalue, if_pos h]
  rfl

theorem reads_text {blank text : Str} {t : Token} (hblank : Blank blank) (h : TokenText text t)
    (r : Str) : Reads (blank ++ (text ++ r)) t r :=
  ⟨blank, text, hblank, h, (List.append_assoc blank text r).symm⟩

theorem derives_unsigned (u : UInt64) (r : Str) :
    Derives Reads (.value (.numberUnsigned u)) (natToString u.toNat ++ r) r := by
  have htoken : TokenText (natToString u.toNat) (.valueUnsigned u) := by
    have hnumber := TokenText.number (wf_wholeNumber false u.toNat)
    rw [text_unsigned, token_unsigned u.toNat_lt, UInt64.ofNat_toNat] at hnumber
    exact hnumber
  exact .scalar (reads_text blank_nil htoken r) rfl

end

end Workflow.JsonText
