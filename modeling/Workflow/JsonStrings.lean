import Workflow.JsonGrammar

/-!
# `scan_string` reads the strings of the grammar

A path through the points of `scan_string` (`Moves`) is what it reads and what it
adds to the buffer. The paths from the loop back to the loop are the strings of
the grammar (`moves_iff`): forwards along the grammar, backwards with what has
been read since the loop was last entered (`Behind`).
-/

namespace Workflow.JsonText

open JsonReader

inductive Moves : StringPoint → Str → Str → StringPoint → Prop
  | refl {p} : Moves p [] [] p
  | step {p p' p'' b bytes raw text} : stringStep p b = .add bytes p' → Moves p' raw text p'' →
      Moves p (b :: raw) (bytes ++ text) p''

theorem moves_one {p p' : StringPoint} {b : Byte} {bytes : Str} (h : stringStep p b = .add bytes p') :
    Moves p [b] bytes p' := by
  have hmoves := Moves.step h .refl
  rwa [List.append_nil] at hmoves

/- A byte that adds nothing. -/
theorem moves_silent {p p' p'' : StringPoint} {b : Byte} {raw text : Str}
    (h : stringStep p b = .add [] p') (h' : Moves p' raw text p'') : Moves p (b :: raw) text p'' :=
  .step h h'

theorem moves_append {p p' p'' : StringPoint} {raw raw' text text' : Str} (h : Moves p raw text p')
    (h' : Moves p' raw' text' p'') : Moves p (raw ++ raw') (text ++ text') p'' := by
  induction h with
  | refl => exact h'
  | step hstep _ ih =>
    rw [List.append_assoc]
    exact .step hstep (ih h')

theorem scanString_moves {p p' : StringPoint} {raw text : Str} (h : Moves p raw text p')
    (buffer rest : Str) : scanString p buffer (raw ++ rest) = scanString p' (buffer ++ text) rest := by
  induction h generalizing buffer with
  | refl => rw [List.nil_append, List.append_nil]
  | step hstep _ ih =>
    rw [List.cons_append, scanString, hstep]
    simp only
    rw [ih, List.append_assoc]

theorem stringStep_closed {p : StringPoint} {b : Byte} (h : stringStep p b = .closed) :
    p = .start ∧ b = 34 := by
  cases p with
  | start =>
    simp only [stringStep] at h
    by_cases hquote : b = 34
    · exact ⟨rfl, hquote⟩
    · rw [if_neg hquote] at h
      split_ifs at h
      split at h <;> cases h
  | inRange ranges =>
    cases ranges with
    | nil => cases h
    | cons range more =>
      simp only [stringStep] at h
      split_ifs at h
  | escape =>
    simp only [stringStep] at h
    split_ifs at h
    split at h <;> cases h
  | codepoint high digits sum =>
    simp only [stringStep] at h
    split at h
    · split at h
      · unfold endCodepoint at h
        split at h
        · split_ifs at h
        · split_ifs at h
      · cases h
    · cases h
  | surrogateBackslash high =>
    simp only [stringStep] at h
    split_ifs at h
  | surrogateU high =>
    simp only [stringStep] at h
    split_ifs at h

/- A scan that succeeds is a path back to the loop and the closing quote. -/
theorem moves_of_scanString {p : StringPoint} {buffer input : Str}
    (hlast : (scanString p buffer input).token.isLast = false) :
    ∃ raw text, Moves p raw text .start ∧
      input = raw ++ 34 :: (scanString p buffer input).rest ∧
      (scanString p buffer input).token = .valueString (buffer ++ text) := by
  induction input generalizing p buffer with
  | nil => cases hlast
  | cons b input ih =>
    unfold scanString at hlast ⊢
    cases hstep : stringStep p b with
    | add bytes p' =>
      simp only [hstep] at hlast ⊢
      obtain ⟨raw, text, hmoves, hinput, htoken⟩ := ih hlast
      refine ⟨b :: raw, bytes ++ text, .step hstep hmoves, ?_, ?_⟩
      · rw [List.cons_append, ← hinput]
      · rw [htoken, List.append_assoc]
    | closed =>
      obtain ⟨rfl, rfl⟩ := stringStep_closed hstep
      exact ⟨[], [], .refl, rfl, by rw [List.append_nil]⟩
    | error message =>
      simp only [hstep] at hlast
      cases hlast

/-! ### UTF-8 -/

/- The point at which the rest of a character is awaited. -/
def pointOf : Utf8.Pending → StringPoint
  | .done => .start
  | .tail1 => .inRange [(0x80, 0xBF)]
  | .tail2 => .inRange [(0x80, 0xBF), (0x80, 0xBF)]
  | .tail3 => .inRange [(0x80, 0xBF), (0x80, 0xBF), (0x80, 0xBF)]
  | .afterE0 => .inRange [(0xA0, 0xBF), (0x80, 0xBF)]
  | .afterED => .inRange [(0x80, 0x9F), (0x80, 0xBF)]
  | .afterF0 => .inRange [(0x90, 0xBF), (0x80, 0xBF), (0x80, 0xBF)]
  | .afterF4 => .inRange [(0x80, 0x8F), (0x80, 0xBF), (0x80, 0xBF)]

def utf8Step (p : Utf8.Pending) (b : Byte) : StringStep :=
  match Utf8.next p b with
  | some p' => .add [b] (pointOf p')
  | none => .error illFormed

theorem stringStep_range {low high : ℕ} {more : List (ℕ × ℕ)} {p : Utf8.Pending}
    (hpoint : (match more with
      | [] => StringPoint.start
      | _ => .inRange more) = pointOf p) (b : Byte) :
    stringStep (.inRange ((low, high) :: more)) b =
      match Utf8.continuation low high p b with
      | some p' => .add [b] (pointOf p')
      | none => .error illFormed := by
  simp only [stringStep, Utf8.continuation]
  by_cases h : low ≤ b.val ∧ b.val ≤ high
  · rw [if_pos h, if_pos h]
    exact congrArg (StringStep.add [b]) hpoint
  · rw [if_neg h, if_neg h]

theorem stringStep_inRange {p : Utf8.Pending} (hp : p ≠ .done) (b : Byte) :
    stringStep (pointOf p) b = utf8Step p b := by
  cases p with
  | done => exact absurd rfl hp
  | _ => exact stringStep_range rfl b

theorem ranges_lead : ∀ b : Byte, 0x80 ≤ b.val →
    (ranges b).map StringPoint.inRange = (Utf8.lead b).map pointOf := by
  decide +kernel

/- A byte that the loop copies. -/
def Plain (b : Byte) : Prop := 0x20 ≤ b.val ∧ b ≠ 34 ∧ b ≠ 92

theorem stringStep_plain {b : Byte} (h : Plain b) : stringStep .start b = utf8Step .done b := by
  obtain ⟨hcontrol, hquote, hbackslash⟩ := h
  simp only [stringStep, utf8Step, Utf8.next, if_neg hquote, if_neg hbackslash]
  rw [if_neg (by omega)]
  by_cases hascii : b.val ≤ 0x7F
  · have hlead : Utf8.lead b = some .done := if_pos (by omega)
    rw [if_pos hascii, hlead]
    rfl
  · have hlead := ranges_lead b (by omega)
    rw [if_neg hascii]
    cases hranges : ranges b with
    | none =>
      rw [hranges, Option.map_none] at hlead
      rw [Option.map_eq_none_iff.mp hlead.symm]
    | some rs =>
      rw [hranges, Option.map_some] at hlead
      obtain ⟨p, hp, hpoint⟩ := Option.map_eq_some_iff.mp hlead.symm
      rw [hp]
      exact congrArg _ hpoint.symm

theorem plain_of_high {b : Byte} (h : 0x80 ≤ b.val) : Plain b := by
  refine ⟨by omega, ?_, ?_⟩
  · rintro rfl
    revert h
    decide
  · rintro rfl
    revert h
    decide

/- Whole characters are copied. -/
theorem moves_utf8 {p p' : Utf8.Pending} {s : Str} (hscan : Utf8.scan p s = some p')
    (h : ∀ b ∈ s, Plain b) : Moves (pointOf p) s s (pointOf p') := by
  induction s generalizing p with
  | nil =>
    rw [Option.some.inj hscan]
    exact .refl
  | cons b s ih =>
    rw [Utf8.scan_cons] at hscan
    obtain ⟨q, hq, hrest⟩ := Option.bind_eq_some_iff.mp hscan
    have hstep : stringStep (pointOf p) b = .add [b] (pointOf q) := by
      have hutf8 : stringStep (pointOf p) b = utf8Step p b := by
        by_cases hp : p = .done
        · rw [hp]
          exact stringStep_plain (h b List.mem_cons_self)
        · exact stringStep_inRange hp b
      rw [hutf8, utf8Step, hq]
    exact .step hstep (ih hrest fun c hc => h c (List.mem_cons_of_mem b hc))

/-! ### Escapes -/

theorem unescaped_iff {b c : Byte} : unescaped b = some c ↔ (b, c) ∈ escapes := by
  have hin : ∀ b, (unescaped b).all (fun c => (b, c) ∈ escapes) = true := by decide +kernel
  have hout : (escapes.all fun e => unescaped e.1 = some e.2) = true := by decide
  constructor
  · intro h
    have hb := hin b
    rw [h] at hb
    exact of_decide_eq_true hb
  · intro h
    exact of_decide_eq_true (List.all_eq_true.mp hout (b, c) h)

theorem moves_escape {b c : Byte} (h : (b, c) ∈ escapes) : Moves .start [92, b] [c] .start := by
  have hb : b ≠ 117 := by
    rintro rfl
    cases unescaped_iff.mpr h
  have hstep : stringStep .escape b = .add [c] .start := by
    simp only [stringStep, if_neg hb, unescaped_iff.mpr h]
  exact moves_silent rfl (moves_one hstep)

theorem codepoint_digit {high : Option ℕ} {digits sum d : ℕ} {b : Byte} (h : hexDigit b = some d) :
    stringStep (.codepoint high (digits + 1) sum) b =
      .add [] (.codepoint high digits (sum + d * 16 ^ (digits + 1))) := by
  simp only [stringStep, h]

theorem codepoint_end {high : Option ℕ} {sum d : ℕ} {b : Byte} (h : hexDigit b = some d) :
    stringStep (.codepoint high 0 sum) b = endCodepoint high (sum + d) := by
  simp only [stringStep, h]

theorem moves_codepoint {high : Option ℕ} {hex bytes : Str} {n : ℕ} {p : StringPoint}
    (h : Hex4 hex n) (hend : endCodepoint high n = .add bytes p) :
    Moves (.codepoint high 3 0) hex bytes p := by
  obtain ⟨a, b, c, d, x, y, z, w, rfl, ha, hb, hc, hd, rfl⟩ := h
  have hsum : 0 + x * 16 ^ (2 + 1) + y * 16 ^ (1 + 1) + z * 16 ^ (0 + 1) + w =
      x * 4096 + y * 256 + z * 16 + w := by omega
  have hlast : stringStep (.codepoint high 0 _) d = .add bytes p :=
    (codepoint_end hd).trans (hsum ▸ hend)
  exact moves_silent (codepoint_digit ha) (moves_silent (codepoint_digit hb)
    (moves_silent (codepoint_digit hc) (moves_one hlast)))

theorem moves_u {hex bytes : Str} {n : ℕ} {p : StringPoint} (h : Hex4 hex n)
    (hend : endCodepoint none n = .add bytes p) : Moves .start (lit "\\u" ++ hex) bytes p :=
  moves_silent rfl (moves_silent rfl (moves_codepoint h hend))

theorem endCodepoint_basic {n : ℕ} (hhigh : ¬ IsHigh n) (hlow : ¬ IsLow n) :
    endCodepoint none n = .add (encodeCodepoint n) .start := by
  unfold IsHigh at hhigh
  unfold IsLow at hlow
  simp only [endCodepoint, if_neg hhigh, if_neg hlow]

theorem endCodepoint_high {n : ℕ} (h : IsHigh n) :
    endCodepoint none n = .add [] (.surrogateBackslash n) := by
  unfold IsHigh at h
  simp only [endCodepoint, if_pos h]

/- The number of the character that two surrogates stand for. -/
theorem endCodepoint_low {high low : ℕ} (hhigh : IsHigh high) (hlow : IsLow low) :
    endCodepoint (some high) low =
      .add (encodeCodepoint (0x10000 + (high - 0xD800) * 0x400 + (low - 0xDC00))) .start := by
  unfold IsHigh at hhigh
  unfold IsLow at hlow
  have hsum : high * 1024 + low - 0x35FDC00 =
      0x10000 + (high - 0xD800) * 0x400 + (low - 0xDC00) := by omega
  simp only [endCodepoint, if_pos hlow, hsum]

theorem moves_of_text {raw text : Str} (h : StringText raw text) : Moves .start raw text .start := by
  induction h with
  | nil => exact .refl
  | plain hvalid hplain _ ih => exact moves_append (moves_utf8 (p := .done) hvalid hplain) ih
  | escape hescape _ ih => exact moves_append (moves_escape hescape) ih
  | codepoint hhex hhigh hlow _ ih =>
    exact moves_append (moves_u hhex (endCodepoint_basic hhigh hlow)) ih
  | @surrogates hex hex' high low raw text hhex hhex' hhigh hlow _ ih =>
    have hfirst := moves_u hhex (endCodepoint_high hhigh)
    have hcodepoint := moves_codepoint hhex' (endCodepoint_low hhigh hlow)
    have hsecond := moves_silent (p := .surrogateBackslash high) (b := 92) rfl
      (moves_silent (b := 117) rfl hcodepoint)
    have hpair := moves_append hfirst hsecond
    rw [List.nil_append] at hpair
    have hboth := moves_append hpair ih
    rwa [show 92 :: 117 :: hex' = lit "\\u" ++ hex' from rfl, ← List.append_assoc] at hboth

/-! ### What has been read since the loop was entered -/

/- `k` more digits than the next one are awaited. -/
inductive HexRead : ℕ → Str → ℕ → Prop
  | none : HexRead 3 [] 0
  | one {a x} : hexDigit a = some x → HexRead 2 [a] (0 + x * 16 ^ 3)
  | two {a b x y} : hexDigit a = some x → hexDigit b = some y →
      HexRead 1 [a, b] (0 + x * 16 ^ 3 + y * 16 ^ 2)
  | three {a b c x y z} : hexDigit a = some x → hexDigit b = some y → hexDigit c = some z →
      HexRead 0 [a, b, c] (0 + x * 16 ^ 3 + y * 16 ^ 2 + z * 16 ^ 1)

theorem hexRead_digit {k sum d : ℕ} {hex : Str} {b : Byte} (h : HexRead (k + 1) hex sum)
    (hd : hexDigit b = some d) : HexRead k (hex ++ [b]) (sum + d * 16 ^ (k + 1)) := by
  cases h with
  | none => exact .one hd
  | one ha => exact .two ha hd
  | two ha hb => exact .three ha hb hd

theorem hex4_of_read {sum d : ℕ} {hex : Str} {b : Byte} (h : HexRead 0 hex sum)
    (hd : hexDigit b = some d) : Hex4 (hex ++ [b]) (sum + d) := by
  cases h with
  | @three a₁ a₂ a₃ x y z h₁ h₂ h₃ =>
    exact ⟨a₁, a₂, a₃, b, x, y, z, d, rfl, h₁, h₂, h₃, hd, by omega⟩

/- The raw text since the loop was last entered, and what it has added. -/
inductive Behind : StringPoint → Str → Str → Prop
  | start : Behind .start [] []
  | character {p pre} : Utf8.scan .done pre = some p → p ≠ .done → (∀ b ∈ pre, Plain b) →
      Behind (pointOf p) pre pre
  | escape : Behind .escape [92] []
  | codepoint {k hex sum} : HexRead k hex sum → Behind (.codepoint none k sum) (lit "\\u" ++ hex) []
  | surrogateBackslash {hex high} : Hex4 hex high → IsHigh high →
      Behind (.surrogateBackslash high) (lit "\\u" ++ hex) []
  | surrogateU {hex high} : Hex4 hex high → IsHigh high →
      Behind (.surrogateU high) (lit "\\u" ++ hex ++ [92]) []
  | second {hex high k hex' sum} : Hex4 hex high → IsHigh high → HexRead k hex' sum →
      Behind (.codepoint (some high) k sum) (lit "\\u" ++ hex ++ lit "\\u" ++ hex') []

/- A byte completes what has been read to a piece of the string, or belongs to it. -/
def Goes (pre out : Str) (p : StringPoint) : Prop :=
  Behind p pre out ∨
    p = .start ∧ ∀ raw text, StringText raw text → StringText (pre ++ raw) (out ++ text)

theorem goes_character {pre : Str} {p p' : Utf8.Pending} {b : Byte} (hscan : Utf8.scan .done pre = some p)
    (hplain : ∀ c ∈ pre, Plain c) (hb : Plain b) (hnext : Utf8.next p b = some p') :
    Goes (pre ++ [b]) (pre ++ [b]) (pointOf p') := by
  have hscan' : Utf8.scan .done (pre ++ [b]) = some p' := by
    rw [Utf8.scan_append, hscan, Option.bind_some, Utf8.scan_cons, hnext]
    rfl
  have hall : ∀ c ∈ pre ++ [b], Plain c := by
    intro c hc
    cases List.mem_append.mp hc with
    | inl hold => exact hplain c hold
    | inr hnew => rw [List.mem_singleton.mp hnew]; exact hb
  by_cases hp : p' = .done
  · rw [hp] at hscan' ⊢
    exact .inr ⟨rfl, fun raw text h => .plain hscan' hall h⟩
  · exact .inl (.character hscan' hp hall)

theorem utf8Step_add {p : Utf8.Pending} {b : Byte} {bytes : Str} {q : StringPoint}
    (h : utf8Step p b = .add bytes q) :
    ∃ p', Utf8.next p b = some p' ∧ bytes = [b] ∧ q = pointOf p' := by
  unfold utf8Step at h
  split at h
  · next p' hp' =>
    obtain ⟨rfl, rfl⟩ := StringStep.add.inj h
    exact ⟨p', hp', rfl, rfl⟩
  · cases h

theorem endCodepoint_none_add {n : ℕ} {bytes : Str} {p : StringPoint}
    (h : endCodepoint none n = .add bytes p) :
    (IsHigh n ∧ bytes = [] ∧ p = .surrogateBackslash n) ∨
      (¬ IsHigh n ∧ ¬ IsLow n ∧ bytes = encodeCodepoint n ∧ p = .start) := by
  simp only [endCodepoint] at h
  by_cases hhigh : 0xD800 ≤ n ∧ n ≤ 0xDBFF
  · rw [if_pos hhigh] at h
    obtain ⟨rfl, rfl⟩ := StringStep.add.inj h
    exact .inl ⟨hhigh, rfl, rfl⟩
  · rw [if_neg hhigh] at h
    by_cases hlow : 0xDC00 ≤ n ∧ n ≤ 0xDFFF
    · rw [if_pos hlow] at h
      cases h
    · rw [if_neg hlow] at h
      obtain ⟨rfl, rfl⟩ := StringStep.add.inj h
      exact .inr ⟨hhigh, hlow, rfl, rfl⟩

theorem endCodepoint_some_add {high n : ℕ} {bytes : Str} {p : StringPoint} (hhigh : IsHigh high)
    (h : endCodepoint (some high) n = .add bytes p) :
    IsLow n ∧ p = .start ∧
      bytes = encodeCodepoint (0x10000 + (high - 0xD800) * 0x400 + (n - 0xDC00)) := by
  by_cases hlow : IsLow n
  · rw [endCodepoint_low hhigh hlow] at h
    obtain ⟨rfl, rfl⟩ := StringStep.add.inj h
    exact ⟨hlow, rfl, rfl⟩
  · unfold IsLow at hlow
    simp only [endCodepoint, if_neg hlow] at h
    cases h

theorem high_of_next {p p' : Utf8.Pending} {b : Byte} (hp : p ≠ .done)
    (h : Utf8.next p b = some p') : 0x80 ≤ b.val := by
  have hrange : ∀ {low high : ℕ} {q : Utf8.Pending}, 0x80 ≤ low →
      Utf8.continuation low high q b = some p' → 0x80 ≤ b.val := by
    intro low high q hlow hnext
    unfold Utf8.continuation at hnext
    split_ifs at hnext with hin
    exact Nat.le_trans hlow hin.1
  cases p with
  | done => exact absurd rfl hp
  | _ => exact hrange (by decide) h

theorem goes_start {b : Byte} {bytes : Str} {p : StringPoint} (h : stringStep .start b = .add bytes p) :
    Goes [b] bytes p := by
  have hstep := h
  simp only [stringStep] at hstep
  by_cases hquote : b = 34
  · rw [if_pos hquote] at hstep
    cases hstep
  · rw [if_neg hquote] at hstep
    by_cases hbackslash : b = 92
    · rw [if_pos hbackslash] at hstep
      obtain ⟨rfl, rfl⟩ := StringStep.add.inj hstep
      rw [hbackslash]
      exact .inl .escape
    · rw [if_neg hbackslash] at hstep
      by_cases hcontrol : b.val ≤ 0x1F
      · rw [if_pos hcontrol] at hstep
        cases hstep
      · have hplain : Plain b := ⟨by omega, hquote, hbackslash⟩
        rw [stringStep_plain hplain] at h
        obtain ⟨p', hp', rfl, rfl⟩ := utf8Step_add h
        have hnone : ∀ c ∈ ([] : Str), Plain c := fun _ hc => nomatch hc
        exact goes_character rfl hnone hplain hp'

theorem codepoint_add {high : Option ℕ} {k sum : ℕ} {b : Byte} {bytes : Str} {p : StringPoint}
    (h : stringStep (.codepoint high k sum) b = .add bytes p) :
    ∃ d, hexDigit b = some d ∧
      ((k = 0 ∧ endCodepoint high (sum + d) = .add bytes p) ∨
        ∃ k', k = k' + 1 ∧ bytes = [] ∧ p = .codepoint high k' (sum + d * 16 ^ (k' + 1))) := by
  simp only [stringStep] at h
  cases hd : hexDigit b with
  | none =>
    rw [hd] at h
    cases h
  | some d =>
    rw [hd] at h
    cases k with
    | zero => exact ⟨d, rfl, .inl ⟨rfl, h⟩⟩
    | succ k =>
      obtain ⟨rfl, rfl⟩ := StringStep.add.inj h
      exact ⟨d, rfl, .inr ⟨k, rfl, rfl, rfl⟩⟩

theorem goes_step {p p' : StringPoint} {b : Byte} {pre out bytes : Str} (h : Behind p pre out)
    (hstep : stringStep p b = .add bytes p') : Goes (pre ++ [b]) (out ++ bytes) p' := by
  cases h with
  | start => exact goes_start hstep
  | character hscan hp hplain =>
    rw [stringStep_inRange hp] at hstep
    obtain ⟨q, hq, rfl, rfl⟩ := utf8Step_add hstep
    exact goes_character hscan hplain (plain_of_high (high_of_next hp hq)) hq
  | escape =>
    simp only [stringStep] at hstep
    by_cases hu : b = 117
    · rw [if_pos hu] at hstep
      obtain ⟨rfl, rfl⟩ := StringStep.add.inj hstep
      rw [hu]
      exact .inl (.codepoint .none)
    · rw [if_neg hu] at hstep
      cases hc : unescaped b with
      | none =>
        rw [hc] at hstep
        cases hstep
      | some c =>
        rw [hc] at hstep
        obtain ⟨rfl, rfl⟩ := StringStep.add.inj hstep
        exact .inr ⟨rfl, fun raw text => .escape (unescaped_iff.mp hc)⟩
  | codepoint hread =>
    obtain ⟨d, hd, hend⟩ := codepoint_add hstep
    rw [List.append_assoc]
    rcases hend with ⟨rfl, hend⟩ | ⟨k', rfl, rfl, rfl⟩
    · have hhex := hex4_of_read hread hd
      rcases endCodepoint_none_add hend with ⟨hhigh, rfl, rfl⟩ | ⟨hhigh, hlow, rfl, rfl⟩
      · exact .inl (.surrogateBackslash hhex hhigh)
      · exact .inr ⟨rfl, fun raw text => .codepoint hhex hhigh hlow⟩
    · exact .inl (.codepoint (hexRead_digit hread hd))
  | surrogateBackslash hhex hhigh =>
    simp only [stringStep] at hstep
    by_cases hb : b = 92
    · rw [if_pos hb] at hstep
      obtain ⟨rfl, rfl⟩ := StringStep.add.inj hstep
      rw [hb]
      exact .inl (.surrogateU hhex hhigh)
    · rw [if_neg hb] at hstep
      cases hstep
  | surrogateU hhex hhigh =>
    simp only [stringStep] at hstep
    by_cases hb : b = 117
    · rw [if_pos hb] at hstep
      obtain ⟨rfl, rfl⟩ := StringStep.add.inj hstep
      have hsecond := Behind.second hhex hhigh .none
      rw [List.append_nil] at hsecond
      rw [hb, List.append_assoc]
      exact .inl hsecond
    · rw [if_neg hb] at hstep
      cases hstep
  | second hhex hhigh hread =>
    obtain ⟨d, hd, hend⟩ := codepoint_add hstep
    rw [List.append_assoc]
    rcases hend with ⟨rfl, hend⟩ | ⟨k', rfl, rfl, rfl⟩
    · have hhex' := hex4_of_read hread hd
      obtain ⟨hlow, rfl, hbytes⟩ := endCodepoint_some_add hhigh hend
      refine .inr ⟨rfl, fun raw text htext => ?_⟩
      rw [hbytes, List.nil_append]
      exact .surrogates hhex hhex' hhigh hlow htext
    · exact .inl (.second hhex hhigh (hexRead_digit hread hd))

theorem pointOf_start {p : Utf8.Pending} (h : pointOf p = .start) : p = .done := by
  cases p <;> first | rfl | cases h

theorem behind_start {p : StringPoint} {pre out : Str} (h : Behind p pre out) (hp : p = .start) :
    pre = [] ∧ out = [] := by
  cases h with
  | start => exact ⟨rfl, rfl⟩
  | character _ hpending _ => exact absurd (pointOf_start hp) hpending
  | _ => cases hp

theorem text_of_moves {p p' : StringPoint} {raw text pre out : Str} (h : Moves p raw text p')
    (hstart : p' = .start) (hpre : Behind p pre out) : StringText (pre ++ raw) (out ++ text) := by
  induction h generalizing pre out with
  | refl =>
    obtain ⟨rfl, rfl⟩ := behind_start hpre hstart
    exact .nil
  | @step p p' p'' b bytes raw text hstep _ ih =>
    have hpre' : pre ++ b :: raw = pre ++ [b] ++ raw := by
      rw [List.append_assoc, List.singleton_append]
    rw [hpre', ← List.append_assoc]
    cases goes_step hpre hstep with
    | inl hbehind => exact ih hstart hbehind
    | inr hdone =>
      obtain ⟨rfl, hpiece⟩ := hdone
      exact hpiece raw text (ih hstart .start)

theorem moves_iff {raw text : Str} : Moves .start raw text .start ↔ StringText raw text := by
  constructor
  · intro h
    exact text_of_moves h rfl .start
  · exact moves_of_text

/-! ### The scan -/

theorem scanString_sound {input : Str} (hlast : (scanString .start [] input).token.isLast = false) :
    ∃ raw text, StringText raw text ∧ input = raw ++ 34 :: (scanString .start [] input).rest ∧
      (scanString .start [] input).token = .valueString text := by
  obtain ⟨raw, text, hmoves, hinput, htoken⟩ := moves_of_scanString hlast
  exact ⟨raw, text, moves_iff.mp hmoves, hinput, htoken⟩

theorem scanString_complete {raw text : Str} (h : StringText raw text) (rest : Str) :
    scanString .start [] (raw ++ 34 :: rest) = ⟨.valueString text, rest, false⟩ := by
  rw [scanString_moves (moves_iff.mpr h)]
  rfl

end Workflow.JsonText
