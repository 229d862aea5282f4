import Workflow.LexerCorrect

/-!
# What the values read from a text are like

Every string of such a value is UTF-8, the members of its objects are in key
order, and it holds no binary value, no infinity and no NaN (`Json.IsRead`).
-/

namespace Workflow

open JsonReader (encodeCodepoint isFinite hexDigit FloatReader)

mutual
def Json.IsRead : Json → Prop
  | .object ms => ms.Pairwise (fun a b => a.1 < b.1) ∧ MembersRead ms
  | .array xs => ElementsRead xs
  | .string s => Utf8.Valid s
  | .numberInteger z => z ≤ 0
  | .numberFloat x => isFinite x = true
  | .binary _ _ => False
  | _ => True
  termination_by structural j => j

def MembersRead : List (Str × Json) → Prop
  | [] => True
  | (k, v) :: rest => Utf8.Valid k ∧ v.IsRead ∧ MembersRead rest
  termination_by structural ms => ms

def ElementsRead : List Json → Prop
  | [] => True
  | x :: rest => x.IsRead ∧ ElementsRead rest
  termination_by structural xs => xs
end

theorem membersRead_iff (ms : List (Str × Json)) :
    MembersRead ms ↔ ∀ e ∈ ms, Utf8.Valid e.1 ∧ e.2.IsRead := by
  induction ms with
  | nil => simp [MembersRead]
  | cons head rest ih =>
    obtain ⟨k, v⟩ := head
    simp only [MembersRead, ih, List.forall_mem_cons, and_assoc]

mutual
theorem Json.IsRead.isUtf8 : ∀ j : Json, j.IsRead → j.IsUtf8
  | .null, _ => trivial
  | .boolean _, _ => trivial
  | .numberInteger _, _ => trivial
  | .numberUnsigned _, _ => trivial
  | .numberFloat _, _ => trivial
  | .binary _ _, _ => trivial
  | .string _, h => h
  | .array xs, h => ElementsRead.utf8 xs h
  | .object ms, h => MembersRead.utf8 ms h.2

theorem ElementsRead.utf8 : ∀ xs : List Json, ElementsRead xs → ElementsUtf8 xs
  | [], _ => trivial
  | x :: xs, h => ⟨Json.IsRead.isUtf8 x h.1, ElementsRead.utf8 xs h.2⟩

theorem MembersRead.utf8 : ∀ ms : List (Str × Json), MembersRead ms → MembersUtf8 ms
  | [], _ => trivial
  | (_, v) :: ms, h => ⟨h.1, Json.IsRead.isUtf8 v h.2.1, MembersRead.utf8 ms h.2.2⟩
end

namespace JsonText

/-! ### Strings -/

theorem valid_encodeCodepoint {n : ℕ} (h : n < 0x110000) (hs : ¬ (0xD800 ≤ n ∧ n ≤ 0xDFFF)) :
    Utf8.Valid (encodeCodepoint n) := by
  unfold encodeCodepoint
  by_cases hone : n < 0x80
  · rw [if_pos hone]
    apply Utf8.valid_of_ascii
    intro b hb
    rw [List.mem_singleton.mp hb, Fin.val_ofNat]
    omega
  · rw [if_neg hone]
    by_cases htwo : n ≤ 0x7FF
    · rw [if_pos htwo]
      apply Utf8.valid_two <;> simp only [Utf8.IsTail, Fin.val_ofNat] <;> omega
    · rw [if_neg htwo]
      by_cases hthree : n ≤ 0xFFFF
      · rw [if_pos hthree]
        apply Utf8.valid_three <;> simp only [Utf8.IsTail, Fin.val_ofNat] <;> omega
      · rw [if_neg hthree]
        apply Utf8.valid_four <;> simp only [Utf8.IsTail, Fin.val_ofNat] <;> omega

theorem hexDigit_lt {b : Byte} {d : ℕ} (h : hexDigit b = some d) : d < 16 := by
  unfold hexDigit at h
  split_ifs at h with h1 h2 h3
  · have hd := Option.some.inj h
    omega
  · have hd := Option.some.inj h
    omega
  · have hd := Option.some.inj h
    omega

theorem hex4_lt {hex : Str} {n : ℕ} (h : Hex4 hex n) : n < 0x10000 := by
  obtain ⟨a, b, c, d, x, y, z, w, -, ha, hb, hc, hd, rfl⟩ := h
  have hx := hexDigit_lt ha
  have hy := hexDigit_lt hb
  have hz := hexDigit_lt hc
  have hw := hexDigit_lt hd
  omega

theorem escapes_ascii : (escapes.all fun e => e.2.val < 0x80) = true := by decide

theorem valid_of_stringText {raw text : Str} (h : StringText raw text) : Utf8.Valid text := by
  induction h with
  | nil => exact Utf8.valid_nil
  | plain hvalid _ _ ih => exact Utf8.valid_append hvalid ih
  | @escape b c raw text hescape _ ih =>
    have hascii : c.val < 0x80 := of_decide_eq_true (List.all_eq_true.mp escapes_ascii (b, c) hescape)
    have hc : Utf8.Valid [c] := Utf8.valid_of_ascii fun x hx => List.mem_singleton.mp hx ▸ hascii
    exact Utf8.valid_append hc ih
  | codepoint hhex hhigh hlow _ ih =>
    have hlt := hex4_lt hhex
    unfold IsHigh at hhigh
    unfold IsLow at hlow
    exact Utf8.valid_append (valid_encodeCodepoint (by omega) (by omega)) ih
  | surrogates _ _ hhigh hlow _ ih =>
    unfold IsHigh at hhigh
    unfold IsLow at hlow
    exact Utf8.valid_append (valid_encodeCodepoint (by omega) (by omega)) ih

/-! ### Values -/

section
variable [FloatReader]

/- Only a minus sign makes a signed number. -/
theorem token_integer {n : NumberText} {z : Int64} (h : n.token = .valueInteger z) : z ≤ 0 := by
  unfold NumberText.token at h
  split_ifs at h with _ _ hfits
  have hz := JsonReader.Token.valueInteger.inj h
  have hvalue : z.toInt = -(Decimal.value n.int : ℤ) := by
    rw [← hz]
    exact Int64.toInt_ofInt_of_le (by omega) (by omega)
  rw [Int64.le_iff_toInt_le, hvalue, Int64.toInt_zero]
  omega

/- A scalar, or a key. -/
theorem token_read {text : Str} {t : JsonReader.Token} (h : TokenText text t) :
    (∀ s, t = .valueString s → Utf8.Valid s) ∧ (∀ z, t = .valueInteger z → z ≤ 0) := by
  cases h with
  | string htext =>
    refine ⟨?_, nofun⟩
    rintro s ⟨⟩
    exact valid_of_stringText htext
  | @number n hwf =>
    refine ⟨?_, fun z => token_integer⟩
    intro s hs
    have hnumber := isNumber_token n
    rw [hs] at hnumber
    cases hnumber
  | _ => exact ⟨nofun, nofun⟩

theorem valid_of_key {s r k : Str} (h : Reads s (.valueString k) r) : Utf8.Valid k := by
  obtain ⟨blank, text, -, htext, -⟩ := h
  exact (token_read htext).1 k rfl

theorem isRead_of_scalar {s r : Str} {t : JsonReader.Token} {j : Json} (h : Reads s t r)
    (hscalar : scalar t = some j) : j.IsRead := by
  obtain ⟨blank, text, -, htext, -⟩ := h
  obtain ⟨hstring, hinteger⟩ := token_read htext
  cases t with
  | valueString s =>
    rw [← Option.some.inj hscalar]
    exact hstring s rfl
  | valueInteger z =>
    rw [← Option.some.inj hscalar]
    exact hinteger z rfl
  | valueFloat x =>
    simp only [scalar] at hscalar
    split_ifs at hscalar with hfinite
    rw [← Option.some.inj hscalar]
    exact hfinite
  | literalTrue | literalFalse | literalNull | valueUnsigned =>
    rw [← Option.some.inj hscalar]
    trivial
  | _ => cases hscalar

end

def PartRead : Part → Prop
  | .value j => j.IsRead
  | .elements xs => ElementsRead xs
  | .moreElements xs => ElementsRead xs
  | .members ms => MembersRead ms
  | .moreMembers ms => MembersRead ms

theorem addMembers_read {ms more : List (Str × Json)} (hms : ms.Pairwise (fun a b => a.1 < b.1))
    (hread : MembersRead ms) (hmore : MembersRead more) :
    (Json.object (addMembers ms more)).IsRead := by
  induction more generalizing ms with
  | nil => exact ⟨hms, hread⟩
  | cons m more ih =>
    obtain ⟨k, v⟩ := m
    refine ih (pairwise_insertEntry k v hms) ?_ hmore.2.2
    rw [membersRead_iff] at hread ⊢
    intro e he
    rcases mem_insertEntry he with rfl | hold
    · exact ⟨hmore.1, hmore.2.1⟩
    · exact hread e hold

theorem partRead_of_derives [FloatReader] {part : Part} {s r : Str} (h : Derives Reads part s r) : PartRead part := by
  induction h with
  | scalar ht hscalar => exact isRead_of_scalar ht hscalar
  | array _ _ ih => exact ih
  | object _ _ ih => exact addMembers_read .nil trivial ih
  | noElements _ => trivial
  | elements _ _ ihx ihxs => exact ⟨ihx, ihxs⟩
  | lastElement _ => trivial
  | nextElement _ _ _ ihx ihxs => exact ⟨ihx, ihxs⟩
  | noMembers _ => trivial
  | members hkey _ _ _ ihv ihms => exact ⟨valid_of_key hkey, ihv, ihms⟩
  | lastMember _ => trivial
  | nextMember _ hkey _ _ _ ihv ihms => exact ⟨valid_of_key hkey, ihv, ihms⟩

end JsonText

end Workflow
