import Workflow.JsonNumbers
import Workflow.JsonStrings

/-!
# `scan` reads the tokens of the grammar

What `scan` returns is a token of the grammar behind whitespace, a number as far
as it goes (`scan_iff`). Behind a value inside an array or an object comes a byte
that no number holds, so there every token of the grammar is the one that is
read: only behind a number that is the whole value it matters what follows
(`derives_lexes_iff`).
-/

namespace Workflow.JsonText

open JsonReader
open Decimal (IsDigit)
open NumberText (Digits IsLetter IsSign)

section
variable [FloatReader]

def Lexes (s : Str) (t : Token) (r : Str) : Prop :=
  ∃ blank text, Blank blank ∧ TokenText text t ∧ s = blank ++ text ++ r ∧
    ∀ n : NumberText, n.Wf → n.text = text → n.Ends r

end

/-! ### The first byte of a token -/

def isNumber : Token → Bool
  | .valueUnsigned _ => true
  | .valueInteger _ => true
  | .valueFloat _ => true
  | _ => false

theorem beginsNumber_spec : ∀ c : Byte, beginsNumber c = true →
    isWhitespace c = false ∧ structural c = none ∧ literalAt c = none ∧ c ≠ 34 ∧ c.val < 128 := by
  decide +kernel

theorem number_head {n : NumberText} (h : n.Wf) {c : Byte} {tail : Str} (htext : n.text = c :: tail) :
    beginsNumber c = true := by
  obtain ⟨d, dtail, -, hd, hbegins, -⟩ := drives_number h
  rw [htext] at hd
  rw [(List.cons.inj hd).1]
  exact hbegins

/- A text that begins with anything else is no number. -/
theorem no_number {c : Byte} {tail : Str} (hc : beginsNumber c = false) (rest : Str) :
    ∀ n : NumberText, n.Wf → n.text = c :: tail → n.Ends rest := by
  intro n hwf htext
  cases hc.symm.trans (number_head hwf htext)

section
variable [FloatReader]

theorem isNumber_token (n : NumberText) : isNumber n.token = true := by
  unfold NumberText.token
  split_ifs <;> rfl

theorem tokenText_head {text : Str} {t : Token} (h : TokenText text t) :
    ∃ c tail, text = c :: tail ∧ isWhitespace c = false ∧ c.val < 128 ∧
      beginsNumber c = isNumber t := by
  cases h with
  | number hwf =>
    obtain ⟨c, tail, -, htext, hc, -⟩ := drives_number hwf
    obtain ⟨hspace, -, -, -, hascii⟩ := beginsNumber_spec c hc
    refine ⟨c, tail, htext, hspace, hascii, ?_⟩
    rw [isNumber_token, hc]
  | _ => exact ⟨_, _, rfl, rfl, by decide, rfl⟩

theorem tokenText_not_last {text : Str} {t : Token} (h : TokenText text t) : t.isLast = false := by
  cases h with
  | @number n hwf =>
    unfold NumberText.token
    split_ifs <;> rfl
  | _ => rfl

end

theorem blank_iff (s : Str) : Blank s ↔ ∀ b ∈ s, isWhitespace b = true := by
  unfold Blank isWhitespace
  simp only [decide_eq_true_eq]

/- Whitespace ends at the first byte of a token. -/
theorem skipWhitespace_append {blank rest : Str} {c : Byte} (hblank : Blank blank)
    (hc : isWhitespace c = false) : skipWhitespace (blank ++ c :: rest) = c :: rest := by
  unfold skipWhitespace
  rw [List.dropWhile_append_of_pos ((blank_iff blank).mp hblank)]
  exact List.dropWhile_cons_of_neg (by rw [hc]; exact Bool.false_ne_true)

theorem blank_split (s : Str) : ∃ blank, Blank blank ∧ s = blank ++ skipWhitespace s := by
  refine ⟨s.takeWhile isWhitespace, (blank_iff _).mpr ?_, List.takeWhile_append_dropWhile.symm⟩
  intro b hb
  exact List.all_eq_true.mp List.all_takeWhile b hb

/-! ### One scan -/

theorem scanLiteral_sound {token : Token} {text rest : Str}
    (hlast : (scanLiteral token text rest).token.isLast = false) :
    rest = text ++ (scanLiteral token text rest).rest ∧
      (scanLiteral token text rest).token = token := by
  induction text generalizing rest with
  | nil => exact ⟨rfl, rfl⟩
  | cons c text ih =>
    cases rest with
    | nil => cases hlast
    | cons b rest =>
      unfold scanLiteral at hlast ⊢
      by_cases hb : b = c
      · rw [if_pos hb] at hlast ⊢
        obtain ⟨hrest, htoken⟩ := ih hlast
        refine ⟨?_, htoken⟩
        rw [List.cons_append, ← hrest, hb]
      · rw [if_neg hb] at hlast
        cases hlast

section
variable [FloatReader]

theorem tokenText_structural {c : Byte} {t : Token} (h : structural c = some t) : TokenText [c] t := by
  unfold structural at h
  split at h
  all_goals cases h
  · next hval => exact (Fin.ext hval : c = 91) ▸ .beginArray
  · next hval => exact (Fin.ext hval : c = 93) ▸ .endArray
  · next hval => exact (Fin.ext hval : c = 123) ▸ .beginObject
  · next hval => exact (Fin.ext hval : c = 125) ▸ .endObject
  · next hval => exact (Fin.ext hval : c = 58) ▸ .nameSeparator
  · next hval => exact (Fin.ext hval : c = 44) ▸ .valueSeparator

theorem tokenText_literal {c : Byte} {t : Token} {text : Str} (h : literalAt c = some (t, text)) :
    TokenText (c :: text) t := by
  unfold literalAt at h
  split at h
  all_goals cases h
  · next hval => exact (Fin.ext hval : c = 116) ▸ .literalTrue
  · next hval => exact (Fin.ext hval : c = 102) ▸ .literalFalse
  · next hval => exact (Fin.ext hval : c = 110) ▸ .literalNull

theorem scanToken_sound {c : Byte} {rest : Str} (hlast : (scanToken c rest).token.isLast = false) :
    ∃ text, TokenText text (scanToken c rest).token ∧
      c :: rest = text ++ (scanToken c rest).rest ∧
      ∀ n : NumberText, n.Wf → n.text = text → n.Ends (scanToken c rest).rest := by
  by_cases hbegins : beginsNumber c = true
  · obtain ⟨-, hstructural, hliteral, hquote, -⟩ := beginsNumber_spec c hbegins
    have hscan : scanToken c rest = scanNumber c rest := by
      simp only [scanToken, hstructural, hliteral, if_neg hquote, if_pos hbegins]
    rw [hscan] at hlast ⊢
    obtain ⟨n, hwf, hsplit, htoken, hends⟩ := scanNumber_sound hbegins hlast
    refine ⟨n.text, htoken ▸ .number hwf, hsplit, ?_⟩
    intro m _ htext b tail hrest k hk hstarts
    exact hends b tail hrest k hk (htext ▸ hstarts)
  · have hnot : beginsNumber c = false := Bool.not_eq_true _ ▸ hbegins
    cases hstructural : structural c with
    | some t =>
      have hscan : scanToken c rest = ⟨t, rest, false⟩ := by simp only [scanToken, hstructural]
      rw [hscan]
      exact ⟨[c], tokenText_structural hstructural, rfl, no_number hnot rest⟩
    | none =>
      cases hliteral : literalAt c with
      | some entry =>
        obtain ⟨t, text⟩ := entry
        have hscan : scanToken c rest = scanLiteral t text rest := by
          simp only [scanToken, hstructural, hliteral]
        rw [hscan] at hlast ⊢
        obtain ⟨hrest, htoken⟩ := scanLiteral_sound hlast
        have htext : TokenText (c :: text) (scanLiteral t text rest).token := by
          rw [htoken]
          exact tokenText_literal hliteral
        exact ⟨c :: text, htext, by rw [List.cons_append, ← hrest], no_number hnot _⟩
      | none =>
        by_cases hquote : c = 34
        · have hscan : scanToken c rest = scanString .start [] rest := by
            simp only [scanToken, hstructural, hliteral, if_pos hquote]
          rw [hscan] at hlast ⊢
          obtain ⟨raw, text, htext, hrest, htoken⟩ := scanString_sound hlast
          refine ⟨lit "\"" ++ raw ++ lit "\"", htoken ▸ .string htext, ?_, ?_⟩
          · rw [List.append_assoc, List.append_assoc, hquote]
            exact congrArg (34 :: ·) hrest
          · rw [hquote] at hnot
            exact no_number hnot _
        · simp only [scanToken, hstructural, hliteral, if_neg hquote, if_neg hbegins] at hlast
          split_ifs at hlast <;> cases hlast

theorem scanToken_complete {text : Str} {t : Token} (h : TokenText text t) {rest : Str}
    (hends : ∀ n : NumberText, n.Wf → n.text = text → n.Ends rest) :
    ∃ c tail, text = c :: tail ∧ (scanToken c (tail ++ rest)).token = t ∧
      (scanToken c (tail ++ rest)).rest = rest := by
  cases h with
  | @string raw text htext =>
    refine ⟨34, raw ++ lit "\"", rfl, ?_⟩
    have hscan : scanToken 34 (raw ++ lit "\"" ++ rest) = ⟨.valueString text, rest, false⟩ := by
      rw [List.append_assoc]
      exact scanString_complete htext rest
    rw [hscan]
    exact ⟨rfl, rfl⟩
  | @number n hwf =>
    obtain ⟨c, tail, htext, hbegins, hscan⟩ := scanNumber_complete hwf (hends n hwf rfl)
    obtain ⟨-, hstructural, hliteral, hquote, -⟩ := beginsNumber_spec c hbegins
    have hnumber : scanToken c (tail ++ rest) = scanNumber c (tail ++ rest) := by
      simp only [scanToken, hstructural, hliteral, if_neg hquote, if_pos hbegins]
    refine ⟨c, tail, htext, ?_⟩
    rw [hnumber, hscan]
    exact ⟨rfl, rfl⟩
  | _ => exact ⟨_, _, rfl, rfl, rfl⟩

theorem scan_iff (s : Str) (t : Token) (r : Str) :
    t.isLast = false ∧ (scan s).token = t ∧ (scan s).rest = r ↔ Lexes s t r := by
  constructor
  · rintro ⟨hlast, rfl, rfl⟩
    obtain ⟨blank, hblank, hsplit⟩ := blank_split s
    cases hskip : skipWhitespace s with
    | nil =>
      simp only [scan, hskip] at hlast
      cases hlast
    | cons c rest =>
      have hscan : scan s = scanToken c rest := by simp only [scan, hskip]
      rw [hscan] at hlast ⊢
      obtain ⟨text, htext, hrest, hends⟩ := scanToken_sound hlast
      refine ⟨blank, text, hblank, htext, ?_, hends⟩
      rw [List.append_assoc, ← hrest, ← hskip]
      exact hsplit
  · rintro ⟨blank, text, hblank, htext, rfl, hends⟩
    obtain ⟨c, tail, hcons, htoken, hrest⟩ := scanToken_complete htext hends
    obtain ⟨c', tail', hcons', hspace, -, -⟩ := tokenText_head htext
    obtain rfl : c = c' := (List.cons.inj (hcons.symm.trans hcons')).1
    have hscan : scan (blank ++ text ++ r) = scanToken c (tail ++ r) := by
      unfold scan
      rw [hcons, List.append_assoc, List.cons_append, skipWhitespace_append hblank hspace]
    rw [hscan]
    exact ⟨tokenText_not_last htext, htoken, hrest⟩

end

/-! ### What stands behind a number -/

def NumberByte (b : Byte) : Prop := IsDigit b ∨ IsSign b ∨ b = 46 ∨ IsLetter b

theorem numberByte_of_mem {n : NumberText} (h : n.Wf) {b : Byte} (hb : b ∈ n.text) : NumberByte b := by
  have hparts : ((b ∈ n.sign ∨ b ∈ n.int) ∨ b ∈ n.fracText) ∨ b ∈ n.expText := by
    simpa only [NumberText.text, List.mem_append] using hb
  rcases hparts with ((hsign | hint) | hfrac) | hexp
  · unfold NumberText.sign at hsign
    split_ifs at hsign
    · exact .inr (.inl (.inr (List.mem_singleton.mp hsign)))
    · cases hsign
  · cases h.int with
    | inl hzero =>
      rw [hzero] at hint
      rw [List.mem_singleton.mp hint]
      exact .inl (by decide)
    | inr hdigits => exact .inl (hdigits.1.2 b hint)
  · unfold NumberText.fracText at hfrac
    split at hfrac
    · next digits hdigits =>
      cases List.mem_cons.mp hfrac with
      | inl hdot => exact .inr (.inr (.inl hdot))
      | inr hdigit => exact .inl ((h.frac digits hdigits).2 b hdigit)
    · cases hfrac
  · unfold NumberText.expText at hexp
    split at hexp
    · next letter sgn digits heq =>
      obtain ⟨hletter, hsgn, hdigits⟩ := h.exp letter sgn digits heq
      rcases List.mem_cons.mp hexp with rfl | hrest
      · exact .inr (.inr (.inr hletter))
      · cases List.mem_append.mp hrest with
        | inl hin => exact .inr (.inl (hsgn b (Option.mem_toList.mp hin)))
        | inr hdigit => exact .inl (hdigits.2 b hdigit)
    · cases hexp

theorem ends_of_not_numberByte {n : NumberText} {rest : Str}
    (h : ∀ b tail, rest = b :: tail → ¬ NumberByte b) : n.Ends rest := by
  intro b tail hrest m hm hstarts
  have hb : b ∈ n.text ++ [b] := List.mem_append_right _ List.mem_cons_self
  exact h b tail hrest (numberByte_of_mem hm (hstarts.subset hb))

/- If all of the value is a number, it ends where the rest begins. -/
def Separated (s r : Str) : Prop :=
  ∀ blank, ∀ n : NumberText, Blank blank → n.Wf → s = blank ++ n.text ++ r → n.Ends r

theorem separated_of_not_numberByte {s r : Str} (h : ∀ b tail, r = b :: tail → ¬ NumberByte b) :
    Separated s r :=
  fun _ _ _ _ _ => ends_of_not_numberByte h

theorem not_numberByte_of_blank {b : Byte} (h : b = 32 ∨ b = 9 ∨ b = 10 ∨ b = 13) :
    ¬ NumberByte b := by
  unfold NumberByte IsSign IsLetter
  rcases h with rfl | rfl | rfl | rfl <;> decide

section
variable [FloatReader]

def ClosesValue (t : Token) : Prop := t = .valueSeparator ∨ t = .endArray ∨ t = .endObject

theorem tokenText_closes {text : Str} {t : Token} (h : TokenText text t) (ht : ClosesValue t) :
    ∃ c tail, text = c :: tail ∧ ¬ NumberByte c := by
  unfold NumberByte IsSign IsLetter
  cases h with
  | valueSeparator => exact ⟨44, [], rfl, by decide⟩
  | endArray => exact ⟨93, [], rfl, by decide⟩
  | endObject => exact ⟨125, [], rfl, by decide⟩
  | @number n hwf =>
    have hnumber := isNumber_token n
    rcases ht with ht | ht | ht <;> rw [ht] at hnumber <;> cases hnumber
  | _ => rcases ht with ht | ht | ht <;> cases ht

theorem not_numberByte_of_reads {s r : Str} {t : Token} (h : Reads s t r) (ht : ClosesValue t) :
    ∀ b tail, s = b :: tail → ¬ NumberByte b := by
  obtain ⟨blank, text, hblank, htext, hs⟩ := h
  obtain ⟨c, rest, hcons, hc⟩ := tokenText_closes htext ht
  intro b tail hhead
  cases blank with
  | nil =>
    rw [hs, hcons] at hhead
    rw [← (List.cons.inj hhead).1]
    exact hc
  | cons d blank =>
    rw [hs] at hhead
    rw [← (List.cons.inj hhead).1]
    exact not_numberByte_of_blank (hblank d List.mem_cons_self)

/- Behind an element or a member comes a comma or a closing bracket. -/
theorem separated_of_derives {part : Part} {s s' r : Str} (h : Derives Reads part s' r)
    (hpart : (∃ xs, part = .moreElements xs) ∨ ∃ ms, part = .moreMembers ms) : Separated s s' := by
  apply separated_of_not_numberByte
  cases h with
  | lastElement htok => exact not_numberByte_of_reads htok (.inr (.inl rfl))
  | nextElement htok => exact not_numberByte_of_reads htok (.inl rfl)
  | lastMember htok => exact not_numberByte_of_reads htok (.inr (.inr rfl))
  | nextMember htok => exact not_numberByte_of_reads htok (.inl rfl)
  | _ => rcases hpart with ⟨_, hpart⟩ | ⟨_, hpart⟩ <;> cases hpart

/-! ### Derivations -/

theorem reads_of_lexes {s r : Str} {t : Token} (h : Lexes s t r) : Reads s t r := by
  obtain ⟨blank, text, hblank, htext, hs, -⟩ := h
  exact ⟨blank, text, hblank, htext, hs⟩

theorem lexes_of_separated {s r : Str} {t : Token} (h : Reads s t r) (hsep : Separated s r) :
    Lexes s t r := by
  obtain ⟨blank, text, hblank, htext, hs⟩ := h
  refine ⟨blank, text, hblank, htext, hs, ?_⟩
  rintro n hwf rfl
  exact hsep blank n hblank hwf hs

/- The text of the first token, if it is behind the same whitespace as a number. -/
theorem tokenText_of_number {blank blank' text rest rest' : Str} {t : Token} {n : NumberText}
    (hblank : Blank blank) (hblank' : Blank blank') (htext : TokenText text t) (hwf : n.Wf)
    (h : blank' ++ text ++ rest' = blank ++ n.text ++ rest) :
    isNumber t = true ∧ text ++ rest' = n.text ++ rest := by
  obtain ⟨c, tail, hcons, hspace, -, hnumber⟩ := tokenText_head htext
  obtain ⟨d, dtail, -, hdcons, hd, -⟩ := drives_number hwf
  have hskip := congrArg skipWhitespace h
  rw [List.append_assoc, List.append_assoc, hcons, hdcons, List.cons_append, List.cons_append,
    skipWhitespace_append hblank' hspace,
    skipWhitespace_append hblank (beginsNumber_spec d hd).1] at hskip
  constructor
  · rw [← hnumber, (List.cons.inj hskip).1]
    exact hd
  · rw [hcons, hdcons]
    exact hskip

theorem separated_of_token {s r r' : Str} {t : Token} (h : Reads s t r) (ht : isNumber t = false) :
    Separated s r' := by
  obtain ⟨blank, text, hblank, htext, rfl⟩ := h
  intro blank' n hblank' hwf heq
  obtain ⟨hnumber, -⟩ := tokenText_of_number hblank' hblank htext hwf heq
  cases ht.symm.trans hnumber

theorem lexes_of_token {s r : Str} {t : Token} (h : Reads s t r) (ht : isNumber t = false) :
    Lexes s t r :=
  lexes_of_separated h (separated_of_token h ht)

theorem derives_lexes {part : Part} {s r : Str} (h : Derives Reads part s r)
    (hsep : ∀ j, part = .value j → Separated s r) : Derives Lexes part s r := by
  induction h with
  | scalar htok hscalar => exact .scalar (lexes_of_separated htok (hsep _ rfl)) hscalar
  | array htok _ ih => exact .array (lexes_of_token htok rfl) (ih nofun)
  | object htok _ ih => exact .object (lexes_of_token htok rfl) (ih nofun)
  | noElements htok => exact .noElements (lexes_of_token htok rfl)
  | elements _ hmore ihx ihxs =>
    exact .elements (ihx fun _ _ => separated_of_derives hmore (.inl ⟨_, rfl⟩)) (ihxs nofun)
  | lastElement htok => exact .lastElement (lexes_of_token htok rfl)
  | nextElement htok _ hmore ihx ihxs =>
    exact .nextElement (lexes_of_token htok rfl)
      (ihx fun _ _ => separated_of_derives hmore (.inl ⟨_, rfl⟩)) (ihxs nofun)
  | noMembers htok => exact .noMembers (lexes_of_token htok rfl)
  | members hkey hcolon _ hmore ihv ihms =>
    exact .members (lexes_of_token hkey rfl) (lexes_of_token hcolon rfl)
      (ihv fun _ _ => separated_of_derives hmore (.inr ⟨_, rfl⟩)) (ihms nofun)
  | lastMember htok => exact .lastMember (lexes_of_token htok rfl)
  | nextMember hcomma hkey hcolon _ hmore ihv ihms =>
    exact .nextMember (lexes_of_token hcomma rfl) (lexes_of_token hkey rfl)
      (lexes_of_token hcolon rfl) (ihv fun _ _ => separated_of_derives hmore (.inr ⟨_, rfl⟩))
      (ihms nofun)

theorem separated_of_lexed {j : Json} {s r : Str} (h : Derives Lexes (.value j) s r) :
    Separated s r := by
  cases h with
  | scalar htok _ =>
    obtain ⟨blank, text, hblank, htext, rfl, hends⟩ := htok
    intro blank' n hblank' hwf heq
    obtain ⟨-, hrest⟩ := tokenText_of_number hblank' hblank htext hwf heq
    exact hends n hwf (List.append_cancel_right hrest).symm
  | array htok _ => exact separated_of_token (reads_of_lexes htok) rfl
  | object htok _ => exact separated_of_token (reads_of_lexes htok) rfl

theorem ascii_of_reads {s r : Str} {t : Token} (h : Reads s t r) :
    ∃ b tail, s = b :: tail ∧ b.val < 128 := by
  obtain ⟨blank, text, hblank, htext, rfl⟩ := h
  obtain ⟨c, tail, rfl, -, hascii, -⟩ := tokenText_head htext
  cases blank with
  | nil => exact ⟨c, tail ++ r, rfl, hascii⟩
  | cons b blank =>
    refine ⟨b, blank ++ c :: tail ++ r, rfl, ?_⟩
    rcases hblank b List.mem_cons_self with rfl | rfl | rfl | rfl <;> decide

theorem derives_lexes_iff (j : Json) (s r : Str) :
    Derives Lexes (.value j) s r ↔ Derives Reads (.value j) s r ∧ Separated s r := by
  constructor
  · intro h
    exact ⟨derives_mono (fun _ => reads_of_lexes) h, separated_of_lexed h⟩
  · intro ⟨h, hsep⟩
    exact derives_lexes h fun _ _ => hsep

end

end Workflow.JsonText
