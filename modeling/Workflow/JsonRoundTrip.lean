import Workflow.JsonScalars
import Workflow.JsonValues
import Workflow.ParserCorrect

/-!
# Reading what was written

`file >> j` on the text of `dump(2)`. The reader has no binary values, tells the
two integer kinds apart by their sign and finds `null` where a double was not
finite: it gives back the value up to that (`Json.reread`).
-/

namespace Workflow

open JsonReader (FloatReader isFinite)

mutual
def Json.reread : Json → Json
  | .object ms => .object (rereadMembers ms)
  | .array xs => .array (rereadElements xs)
  | .numberInteger z => if z < 0 then .numberInteger z else .numberUnsigned z.toUInt64
  | .numberFloat x => if isFinite x then .numberFloat x else .null
  | .binary bytes subtype =>
    .object [(lit "bytes", .array (bytes.map fun b => .numberUnsigned (UInt64.ofNat b.val))),
      (lit "subtype", match subtype with
        | some t => .numberUnsigned t
        | none => .null)]
  | .string s => .string s
  | .boolean b => .boolean b
  | .numberUnsigned u => .numberUnsigned u
  | .null => .null
  termination_by structural j => j

def rereadMembers : List (Str × Json) → List (Str × Json)
  | [] => []
  | (k, v) :: rest => (k, v.reread) :: rereadMembers rest
  termination_by structural ms => ms

def rereadElements : List Json → List Json
  | [] => []
  | x :: rest => x.reread :: rereadElements rest
  termination_by structural xs => xs
end

mutual
/-- The members of every object in it are in key order, as those of a `std::map` are. -/
def Json.Ordered : Json → Prop
  | .object ms => ms.Pairwise (fun a b => a.1 < b.1) ∧ MembersOrdered ms
  | .array xs => ElementsOrdered xs
  | _ => True
  termination_by structural j => j

def MembersOrdered : List (Str × Json) → Prop
  | [] => True
  | (_, v) :: rest => v.Ordered ∧ MembersOrdered rest
  termination_by structural ms => ms

def ElementsOrdered : List Json → Prop
  | [] => True
  | x :: rest => x.Ordered ∧ ElementsOrdered rest
  termination_by structural xs => xs
end

/-- What the writer and the reader of doubles have to do with each other: a
finite double is written as a number with a fraction or an exponent, which is
read as the same double. -/
structure FloatsRoundTrip [FloatText] [FloatReader] : Prop where
  finite : ∀ x, isFinite x = true → ∃ n : JsonText.NumberText, n.Wf ∧ n.isInteger = false ∧
    FloatText.dumpFloat x = n.text ∧ FloatReader.strtod n.text = x
  other : ∀ x, isFinite x = false → FloatText.dumpFloat x = lit "null"

namespace JsonText

open JsonReader

/-! ### Values -/

theorem bind_ok {α β : Type} {x : Except Exn α} {f : α → Except Exn β} {b : β}
    (h : x >>= f = .ok b) : ∃ a, x = .ok a ∧ f a = .ok b := by
  cases x with
  | error e => cases h
  | ok a => exact ⟨a, rfl, h⟩

theorem blank_indent (n : ℕ) : Blank (indent n) := by
  intro b hb
  exact .inl (List.eq_of_mem_replicate hb)

theorem blank_newline : Blank (lit "\n") := by
  intro b hb
  exact .inr (.inr (.inl (List.mem_singleton.mp hb)))

theorem blank_append {v w : Str} (hv : Blank v) (hw : Blank w) : Blank (v ++ w) := by
  intro b hb
  cases List.mem_append.mp hb with
  | inl hin => exact hv b hin
  | inr hin => exact hw b hin

theorem rereadMembers_keys (ms : List (Str × Json)) :
    (rereadMembers ms).map Prod.fst = ms.map Prod.fst := by
  induction ms with
  | nil => rfl
  | cons m ms ih =>
    obtain ⟨k, v⟩ := m
    simp only [rereadMembers, List.map_cons, ih]

theorem addMembers_ordered {ms : List (Str × Json)} (h : ms.Pairwise (fun a b => a.1 < b.1)) :
    addMembers [] ms = ms := foldl_insertEntry h

theorem rereadMembers_ordered {ms : List (Str × Json)} (h : ms.Pairwise (fun a b => a.1 < b.1)) :
    (rereadMembers ms).Pairwise (fun a b => a.1 < b.1) := by
  have hkeys : (ms.map Prod.fst).Pairwise (· < ·) := List.pairwise_map.mpr h
  rw [← rereadMembers_keys] at hkeys
  exact List.pairwise_map.mp hkeys

section
variable [FloatReader]

theorem reads_blank {w s r : Str} {t : Token} (hw : Blank w) (h : Reads s t r) :
    Reads (w ++ s) t r := by
  obtain ⟨blank, text, hblank, htext, rfl⟩ := h
  refine ⟨w ++ blank, text, ?_, htext, by simp only [List.append_assoc]⟩
  intro b hb
  cases List.mem_append.mp hb with
  | inl hin => exact hw b hin
  | inr hin => exact hblank b hin

theorem derives_blank {w s r : Str} {j : Json} (hw : Blank w) (h : Derives Reads (.value j) s r) :
    Derives Reads (.value j) (w ++ s) r := by
  cases h with
  | scalar ht hscalar => exact .scalar (reads_blank hw ht) hscalar
  | array ht hxs => exact .array (reads_blank hw ht) hxs
  | object ht hms => exact .object (reads_blank hw ht) hms

/- A string literal of the writer. -/
theorem reads_quoted {w raw s : Str} (hw : Blank w) (h : StringText raw s) (r : Str) :
    Reads (w ++ (lit "\"" ++ raw ++ lit "\"" ++ r)) (.valueString s) r :=
  reads_text hw (.string h) r

theorem derives_integer (z : Int64) (r : Str) :
    Derives Reads (.value (Json.numberInteger z).reread) (intToString z.toInt ++ r) r := by
  simp only [Json.reread]
  by_cases hz : z < 0
  · have hneg : z.toInt < 0 := by
      rw [Int64.lt_iff_toInt_lt, Int64.toInt_zero] at hz
      exact hz
    have hlow := z.le_toInt
    have habs : (-(z.toInt.natAbs : ℤ)) = z.toInt := by omega
    have htoken : TokenText (45 :: natToString z.toInt.natAbs) (.valueInteger z) := by
      have hnumber := TokenText.number (wf_wholeNumber true z.toInt.natAbs)
      rw [text_negative, token_negative (by omega), habs, Int64.ofInt_toInt] at hnumber
      exact hnumber
    unfold intToString Decimal.renderInt
    rw [if_pos hz, if_pos hneg]
    exact .scalar (reads_text blank_nil htoken r) rfl
  · rw [if_neg hz, intToString_nonnegative hz]
    exact derives_unsigned z.toUInt64 r

end

/-! ### Binary values -/

theorem valid_name {s : Str} (h : (s.all fun b => 0x20 ≤ b.val && b.val < 0x80 && b ≠ 34 && b ≠ 92) = true) :
    StringText s s := by
  have hplain : ∀ b ∈ s, b.val < 0x80 ∧ Plain b := by
    intro b hb
    have hbyte := List.all_eq_true.mp h b hb
    simp only [Bool.and_eq_true, decide_eq_true_eq] at hbyte
    exact ⟨hbyte.1.1.2, hbyte.1.1.1, hbyte.1.2, hbyte.2⟩
  have htext := StringText.plain (Utf8.valid_of_ascii fun b hb => (hplain b hb).1)
    (fun b hb => (hplain b hb).2) .nil
  rw [List.append_nil] at htext
  exact htext

def byteNumber (b : Byte) : Json := .numberUnsigned (UInt64.ofNat b.val)

theorem intercalate_cons (sep a : Str) (l : List Str) :
    sep.intercalate (a :: l) = a ++ (l.map (sep ++ ·)).flatten := by
  induction l generalizing a with
  | nil => exact List.append_nil a ▸ rfl
  | cons b l ih =>
    rw [List.intercalate_cons_cons, ih]
    simp only [List.map_cons, List.flatten_cons, List.append_assoc]

section
variable [FloatReader]

theorem derives_byte (b : Byte) (r : Str) :
    Derives Reads (.value (byteNumber b)) (natToString b.val ++ r) r := by
  have hval : (UInt64.ofNat b.val).toNat = b.val := by
    rw [UInt64.toNat_ofNat']
    omega
  have hread := derives_unsigned (UInt64.ofNat b.val) r
  rw [hval] at hread
  exact hread

theorem derives_moreBytes (bytes : List Byte) (r : Str) :
    Derives Reads (.moreElements (bytes.map byteNumber))
      ((bytes.map fun b => lit ", " ++ natToString b.val).flatten ++ (lit "]" ++ r)) r := by
  induction bytes with
  | nil => exact .lastElement (reads_text blank_nil .endArray r)
  | cons b bytes ih =>
    rw [List.map_cons, List.map_cons, List.flatten_cons, List.append_assoc, List.append_assoc]
    exact .nextElement (reads_text blank_nil .valueSeparator _)
      (derives_blank (blank_indent 1) (derives_byte b _)) ih

theorem derives_bytes (bytes : List Byte) (r : Str) :
    Derives Reads (.elements (bytes.map byteNumber))
      ((lit ", ").intercalate (bytes.map fun b => natToString b.val) ++ (lit "]" ++ r)) r := by
  cases bytes with
  | nil => exact .noElements (reads_text blank_nil .endArray r)
  | cons b bytes =>
    rw [List.map_cons, List.map_cons, intercalate_cons, List.map_map, List.append_assoc]
    exact .elements (derives_byte b _) (derives_moreBytes bytes r)

/- `dump` of a binary value is an object with two members. -/
theorem derives_binaryText {kind : Json} {text : Str}
    (hread : ∀ r, Derives Reads (.value kind) (text ++ r) r) (n : ℕ) (bytes : List Byte) (r : Str) :
    Derives Reads (.value (.object [(lit "bytes", .array (bytes.map byteNumber)),
        (lit "subtype", kind)]))
      (lit "\x7b\n" ++ indent (n + 2) ++ lit "\"bytes\": [" ++
        (lit ", ").intercalate (bytes.map fun b => natToString b.val) ++ lit "],\n" ++
        indent (n + 2) ++ lit "\"subtype\": " ++ text ++ lit "\n" ++ indent n ++ lit "\x7d" ++ r) r := by
  have hclose : Reads (lit "\n" ++ (indent n ++ (lit "\x7d" ++ r))) .endObject r :=
    reads_blank blank_newline (reads_text (blank_indent n) .endObject r)
  have hsecond := Derives.nextMember (reads_text blank_nil .valueSeparator _)
    (reads_quoted (blank_append blank_newline (blank_indent (n + 2)))
      (valid_name (s := lit "subtype") rfl) _)
    (reads_text blank_nil .nameSeparator _) (derives_blank (blank_indent 1) (hread _))
    (.lastMember hclose)
  have harray : ∀ s, Derives Reads (.value (.array (bytes.map byteNumber))) (lit "[" ++
      ((lit ", ").intercalate (bytes.map fun b => natToString b.val) ++ (lit "]" ++ s))) s :=
    fun s => .array (reads_text blank_nil .beginArray _) (derives_bytes bytes s)
  have hmembers := Derives.members
    (reads_quoted (blank_append blank_newline (blank_indent (n + 2)))
      (valid_name (s := lit "bytes") rfl) _)
    (reads_text blank_nil .nameSeparator _) (derives_blank (blank_indent 1) (harray _)) hsecond
  have hobject := Derives.object (reads_text blank_nil .beginObject _) hmembers
  have hkeys : lit "bytes" < lit "subtype" := by decide
  rw [addMembers_ordered (List.pairwise_pair.mpr hkeys)] at hobject
  have hbytes : lit "\"bytes\": [" =
      lit "\"" ++ (lit "bytes" ++ (lit "\"" ++ (lit ":" ++ (indent 1 ++ lit "[")))) := rfl
  have hsubtype : lit "\"subtype\": " =
      lit "\"" ++ (lit "subtype" ++ (lit "\"" ++ (lit ":" ++ indent 1))) := rfl
  have hbrace : lit "\x7b\n" = lit "\x7b" ++ lit "\n" := rfl
  have hbracket : lit "],\n" = lit "]" ++ (lit "," ++ lit "\n") := rfl
  simp only [List.append_assoc, List.nil_append] at hobject
  simp only [hbytes, hsubtype, hbrace, hbracket, List.append_assoc]
  exact hobject

theorem derives_binary (n : ℕ) (bytes : List Byte) (subtype : Option UInt64) (r : Str) :
    Derives Reads (.value (Json.binary bytes subtype).reread) (dumpBinary n bytes subtype ++ r) r := by
  cases subtype with
  | none =>
    have hnull : ∀ r, Derives Reads (.value .null) (lit "null" ++ r) r :=
      fun r => .scalar (reads_text blank_nil .literalNull r) rfl
    exact derives_binaryText hnull n bytes r
  | some t => exact derives_binaryText (derives_unsigned t) n bytes r

end

/-! ### Arrays and objects -/

section
variable [FloatText]

theorem dumpMembers_cons {n : ℕ} {k t : Str} {v : Json} {rest : List (Str × Json)}
    (h : dumpMembers n ((k, v) :: rest) = .ok t) :
    ∃ key text more, dumpEscaped k = .ok key ∧ dumpValue n v = .ok text ∧
      dumpMembers n rest = .ok more ∧
      t = indent n ++ lit "\"" ++ key ++ lit "\": " ++ text ++
        (if rest.isEmpty then [] else lit ",\n") ++ more := by
  obtain ⟨key, hkey, h⟩ := bind_ok h
  obtain ⟨text, htext, h⟩ := bind_ok h
  obtain ⟨more, hmore, h⟩ := bind_ok h
  exact ⟨key, text, more, hkey, htext, hmore, (Except.ok.inj h).symm⟩

theorem dumpElements_cons {n : ℕ} {t : Str} {x : Json} {rest : List Json}
    (h : dumpElements n (x :: rest) = .ok t) :
    ∃ text more, dumpValue n x = .ok text ∧ dumpElements n rest = .ok more ∧
      t = indent n ++ text ++ (if rest.isEmpty then [] else lit ",\n") ++ more := by
  obtain ⟨text, htext, h⟩ := bind_ok h
  obtain ⟨more, hmore, h⟩ := bind_ok h
  exact ⟨text, more, htext, hmore, (Except.ok.inj h).symm⟩

end

section
variable [FloatText] [FloatReader]

theorem derives_float (hfloats : FloatsRoundTrip) (x : Double) (r : Str) :
    Derives Reads (.value (Json.numberFloat x).reread) (FloatText.dumpFloat x ++ r) r := by
  simp only [Json.reread]
  by_cases hx : isFinite x = true
  · obtain ⟨n, hwf, hfloat, htext, hbits⟩ := hfloats.finite x hx
    have htoken : TokenText n.text (.valueFloat x) := by
      have hnumber := TokenText.number hwf
      have hvalue : n.token = .valueFloat x := by
        unfold NumberText.token
        rw [hfloat, if_neg Bool.false_ne_true, hbits]
      rw [hvalue] at hnumber
      exact hnumber
    rw [if_pos hx, htext]
    exact .scalar (reads_text blank_nil htoken r) (if_pos hx)
  · rw [if_neg hx, hfloats.other x (Bool.not_eq_true _ ▸ hx)]
    exact .scalar (reads_text blank_nil .literalNull r) rfl

/- The text of the members, behind whitespace and before `e`. -/
def MembersWritten (n : ℕ) (ms : List (Str × Json)) : Prop :=
  ∀ t w e r, dumpMembers n ms = .ok t → Blank w → Reads e .endObject r →
    MemberText Reads (rereadMembers ms) (w ++ (t ++ e)) r

def ElementsWritten (n : ℕ) (xs : List Json) : Prop :=
  ∀ t w e r, dumpElements n xs = .ok t → Blank w → Reads e .endArray r →
    ∃ y ys s₁, rereadElements xs = y :: ys ∧ Derives Reads (.value y) (w ++ (t ++ e)) s₁ ∧
      Derives Reads (.moreElements ys) s₁ r

def ValueWritten (n : ℕ) (j : Json) : Prop :=
  ∀ t r, dumpValue n j = .ok t → Derives Reads (.value j.reread) (t ++ r) r

theorem membersWritten_cons {n : ℕ} {k : Str} {v : Json} {rest : List (Str × Json)}
    (hv : ValueWritten n v) (hrest : rest ≠ [] → MembersWritten n rest) :
    MembersWritten n ((k, v) :: rest) := by
  intro t w e r ht hw he
  obtain ⟨key, text, more, hkey, htext, hmore, rfl⟩ := dumpMembers_cons ht
  obtain ⟨after, hafter⟩ : ∃ after, after = (if rest.isEmpty then [] else lit ",\n") ++ more ++ e :=
    ⟨_, rfl⟩
  have hlast : Derives Reads (.moreMembers (rereadMembers rest)) after r := by
    rw [hafter]
    cases rest with
    | nil =>
      rw [← Except.ok.inj hmore]
      exact .lastMember he
    | cons m rest =>
      have hmember := hrest (List.cons_ne_nil m rest) more (lit "\n") e r hmore blank_newline he
      have hcomma : Reads (lit ",\n" ++ more ++ e) .valueSeparator (lit "\n" ++ (more ++ e)) := by
        rw [List.append_assoc]
        exact reads_text blank_nil .valueSeparator _
      exact derives_moreMembers_iff.mpr (.inr ⟨_, hcomma, hmember⟩)
  have hassoc : w ++ (indent n ++ lit "\"" ++ key ++ lit "\": " ++ text ++
      (if rest.isEmpty then [] else lit ",\n") ++ more ++ e) =
      w ++ indent n ++ (lit "\"" ++ key ++ lit "\"" ++ (lit ":" ++ (lit " " ++ (text ++ after)))) := by
    have hcolon : lit "\": " = lit "\"" ++ (lit ":" ++ lit " ") := rfl
    rw [hafter, hcolon]
    simp only [List.append_assoc]
  rw [hassoc]
  exact ⟨k, v.reread, rereadMembers rest, _, _, after, rfl,
    reads_quoted (blank_append hw (blank_indent n)) (stringText_of_dumpEscaped hkey) _,
    reads_text blank_nil .nameSeparator _, derives_blank (blank_indent 1) (hv text after htext), hlast⟩

theorem elementsWritten_cons {n : ℕ} {x : Json} {rest : List Json} (hx : ValueWritten n x)
    (hrest : rest ≠ [] → ElementsWritten n rest) : ElementsWritten n (x :: rest) := by
  intro t w e r ht hw he
  obtain ⟨text, more, htext, hmore, rfl⟩ := dumpElements_cons ht
  obtain ⟨after, hafter⟩ : ∃ after, after = (if rest.isEmpty then [] else lit ",\n") ++ more ++ e :=
    ⟨_, rfl⟩
  have hlast : Derives Reads (.moreElements (rereadElements rest)) after r := by
    rw [hafter]
    cases rest with
    | nil =>
      rw [← Except.ok.inj hmore]
      exact .lastElement he
    | cons y rest =>
      obtain ⟨z, zs, s₁, hcons, hz, hzs⟩ :=
        hrest (List.cons_ne_nil y rest) more (lit "\n") e r hmore blank_newline he
      have hcomma : Reads (lit ",\n" ++ more ++ e) .valueSeparator (lit "\n" ++ (more ++ e)) := by
        rw [List.append_assoc]
        exact reads_text blank_nil .valueSeparator _
      rw [hcons]
      exact .nextElement hcomma hz hzs
  have hassoc : w ++ (indent n ++ text ++ (if rest.isEmpty then [] else lit ",\n") ++ more ++ e) =
      w ++ indent n ++ (text ++ after) := by
    rw [hafter]
    simp only [List.append_assoc]
  rw [hassoc]
  exact ⟨x.reread, rereadElements rest, after, rfl,
    derives_blank (blank_append hw (blank_indent n)) (hx text after htext), hlast⟩

theorem written_object {n : ℕ} {m : Str × Json} {ms : List (Str × Json)}
    (hsorted : (m :: ms).Pairwise (fun a b => a.1 < b.1)) (h : MembersWritten (n + 2) (m :: ms)) :
    ValueWritten n (.object (m :: ms)) := by
  intro t r ht
  obtain ⟨body, hbody, ht⟩ := bind_ok ht
  have hend : Reads (lit "\n" ++ (indent n ++ (lit "\x7d" ++ r))) .endObject r := by
    have hclose : Reads (indent n ++ (lit "\x7d" ++ r)) .endObject r :=
      reads_text (blank_indent n) .endObject r
    exact reads_blank blank_newline hclose
  have hmembers := h body (lit "\n") _ r hbody blank_newline hend
  have hopen : Reads (lit "\x7b\n" ++ body ++ lit "\n" ++ indent n ++ lit "\x7d" ++ r) .beginObject
      (lit "\n" ++ (body ++ (lit "\n" ++ (indent n ++ (lit "\x7d" ++ r))))) := by
    have hread := reads_text blank_nil TokenText.beginObject
      (lit "\n" ++ (body ++ (lit "\n" ++ (indent n ++ (lit "\x7d" ++ r)))))
    simp only [List.append_assoc]
    exact hread
  have hobject := Derives.object hopen (derives_members_iff.mpr (.inr hmembers))
  rw [addMembers_ordered (rereadMembers_ordered hsorted)] at hobject
  rw [← Except.ok.inj ht]
  exact hobject

theorem written_array {n : ℕ} {x : Json} {xs : List Json} (h : ElementsWritten (n + 2) (x :: xs)) :
    ValueWritten n (.array (x :: xs)) := by
  intro t r ht
  obtain ⟨body, hbody, ht⟩ := bind_ok ht
  have hend : Reads (lit "\n" ++ (indent n ++ (lit "]" ++ r))) .endArray r := by
    have hclose : Reads (indent n ++ (lit "]" ++ r)) .endArray r :=
      reads_text (blank_indent n) .endArray r
    exact reads_blank blank_newline hclose
  obtain ⟨y, ys, s₁, hcons, hy, hys⟩ := h body (lit "\n") _ r hbody blank_newline hend
  have hopen : Reads (lit "[\n" ++ body ++ lit "\n" ++ indent n ++ lit "]" ++ r) .beginArray
      (lit "\n" ++ (body ++ (lit "\n" ++ (indent n ++ (lit "]" ++ r))))) := by
    have hread := reads_text blank_nil TokenText.beginArray
      (lit "\n" ++ (body ++ (lit "\n" ++ (indent n ++ (lit "]" ++ r)))))
    simp only [List.append_assoc]
    exact hread
  rw [← Except.ok.inj ht]
  show Derives Reads (.value (.array (rereadElements (x :: xs)))) _ r
  rw [hcons]
  exact .array hopen (.elements hy hys)

theorem written_string (n : ℕ) (s : Str) : ValueWritten n (.string s) := by
  intro t r ht
  obtain ⟨text, htext, ht⟩ := bind_ok ht
  rw [← Except.ok.inj ht]
  exact .scalar (reads_quoted blank_nil (stringText_of_dumpEscaped htext) r) rfl

/- A token alone. -/
theorem written_token {n : ℕ} {j : Json} {text : Str} {t : Token} (hdump : dumpValue n j = .ok text)
    (htoken : TokenText text t) (hscalar : scalar t = some j.reread) : ValueWritten n j := by
  intro s r hs
  rw [← Except.ok.inj (hdump.symm.trans hs)]
  exact .scalar (reads_text blank_nil htoken r) hscalar

mutual
theorem value_written (hfloats : FloatsRoundTrip) :
    ∀ (n : ℕ) (j : Json), j.Ordered → ValueWritten n j
  | _, .null, _ => written_token rfl .literalNull rfl
  | _, .boolean true, _ => written_token rfl .literalTrue rfl
  | _, .boolean false, _ => written_token rfl .literalFalse rfl
  | _, .numberInteger z, _ => fun _ r ht => Except.ok.inj ht ▸ derives_integer z r
  | _, .numberUnsigned u, _ => fun _ r ht => Except.ok.inj ht ▸ derives_unsigned u r
  | _, .numberFloat x, _ => fun _ r ht => Except.ok.inj ht ▸ derives_float hfloats x r
  | n, .string s, _ => written_string n s
  | n, .binary bytes subtype, _ => fun _ r ht => Except.ok.inj ht ▸ derives_binary n bytes subtype r
  | _, .array [], _ => fun _ r ht => Except.ok.inj ht ▸
      .array (reads_text blank_nil .beginArray _) (.noElements (reads_text blank_nil .endArray r))
  | n, .array (x :: xs), h =>
    written_array (elements_written hfloats (n + 2) (x :: xs) h (List.cons_ne_nil x xs))
  | _, .object [], _ => fun _ r ht => Except.ok.inj ht ▸
      .object (reads_text blank_nil .beginObject _) (.noMembers (reads_text blank_nil .endObject r))
  | n, .object (m :: ms), h =>
    written_object h.1 (members_written hfloats (n + 2) (m :: ms) h.2 (List.cons_ne_nil m ms))

theorem members_written (hfloats : FloatsRoundTrip) :
    ∀ (n : ℕ) (ms : List (Str × Json)), MembersOrdered ms → ms ≠ [] → MembersWritten n ms
  | _, [], _, hne => absurd rfl hne
  | n, (_, v) :: ms, h, _ =>
    membersWritten_cons (value_written hfloats n v h.1) (members_written hfloats n ms h.2)

theorem elements_written (hfloats : FloatsRoundTrip) :
    ∀ (n : ℕ) (xs : List Json), ElementsOrdered xs → xs ≠ [] → ElementsWritten n xs
  | _, [], _, hne => absurd rfl hne
  | n, x :: xs, h, _ =>
    elementsWritten_cons (value_written hfloats n x h.1) (elements_written hfloats n xs h.2)
end

/- Whatever can be written is read back, up to what the format cannot tell apart. -/
theorem parse_dump (hfloats : FloatsRoundTrip) {j : Json} (hordered : j.Ordered) (hutf8 : j.IsUtf8) :
    ∃ t, dump j = .ok t ∧ parse t = .value j.reread [] := by
  obtain ⟨t, ht⟩ := (dump_succeeds j).mpr hutf8
  have hvalue := value_written hfloats 0 j hordered t [] ht
  rw [List.append_nil] at hvalue
  have hsep : Separated (t ++ []) [] := separated_of_not_numberByte nofun
  refine ⟨t, ht, (parse_value_iff t j.reread []).mpr ⟨[], t, .inl rfl, ?_, hvalue, hsep⟩⟩
  rw [List.nil_append, List.append_nil]

end

/-! ### Writing again -/

mutual
def NoBinary : Json → Prop
  | .object ms => NoBinaryMembers ms
  | .array xs => NoBinaryElements xs
  | .binary _ _ => False
  | _ => True
  termination_by structural j => j

def NoBinaryMembers : List (Str × Json) → Prop
  | [] => True
  | (_, v) :: rest => NoBinary v ∧ NoBinaryMembers rest
  termination_by structural ms => ms

def NoBinaryElements : List Json → Prop
  | [] => True
  | x :: rest => NoBinary x ∧ NoBinaryElements rest
  termination_by structural xs => xs
end

theorem isEmpty_rereadMembers (ms : List (Str × Json)) : (rereadMembers ms).isEmpty = ms.isEmpty := by
  cases ms <;> rfl

theorem isEmpty_rereadElements (xs : List Json) : (rereadElements xs).isEmpty = xs.isEmpty := by
  cases xs <;> rfl

theorem dump_integer [FloatText] (n : ℕ) (z : Int64) :
    dumpValue n (Json.numberInteger z).reread = dumpValue n (.numberInteger z) := by
  simp only [Json.reread]
  by_cases hz : z < 0
  · rw [if_pos hz]
  · rw [if_neg hz]
    exact congrArg Except.ok (intToString_nonnegative hz).symm

section
variable [FloatText] [FloatReader]

theorem dump_float (hfloats : FloatsRoundTrip) (n : ℕ) (x : Double) :
    dumpValue n (Json.numberFloat x).reread = dumpValue n (.numberFloat x) := by
  simp only [Json.reread]
  by_cases hx : isFinite x = true
  · rw [if_pos hx]
  · rw [if_neg hx]
    exact congrArg Except.ok (hfloats.other x (Bool.not_eq_true _ ▸ hx)).symm

mutual
theorem dumpValue_reread (hfloats : FloatsRoundTrip) :
    ∀ (n : ℕ) (j : Json), NoBinary j → dumpValue n j.reread = dumpValue n j
  | _, .null, _ => rfl
  | _, .boolean _, _ => rfl
  | n, .numberInteger z, _ => dump_integer n z
  | _, .numberUnsigned _, _ => rfl
  | n, .numberFloat x, _ => dump_float hfloats n x
  | _, .string _, _ => rfl
  | _, .array [], _ => rfl
  | n, .array (x :: xs), h => by
    have helements := dumpElements_reread hfloats (n + 2) (x :: xs) h
    simp only [Json.reread, rereadElements, dumpValue] at helements ⊢
    rw [helements]
  | _, .object [], _ => rfl
  | n, .object (m :: ms), h => by
    have hmembers := dumpMembers_reread hfloats (n + 2) (m :: ms) h
    simp only [Json.reread, rereadMembers, dumpValue] at hmembers ⊢
    rw [hmembers]

theorem dumpMembers_reread (hfloats : FloatsRoundTrip) :
    ∀ (n : ℕ) (ms : List (Str × Json)), NoBinaryMembers ms →
      dumpMembers n (rereadMembers ms) = dumpMembers n ms
  | _, [], _ => rfl
  | n, (k, v) :: ms, h => by
    have hv := dumpValue_reread hfloats n v h.1
    have hms := dumpMembers_reread hfloats n ms h.2
    simp only [rereadMembers, dumpMembers, hv, hms, isEmpty_rereadMembers]

theorem dumpElements_reread (hfloats : FloatsRoundTrip) :
    ∀ (n : ℕ) (xs : List Json), NoBinaryElements xs →
      dumpElements n (rereadElements xs) = dumpElements n xs
  | _, [], _ => rfl
  | n, x :: xs, h => by
    have hx := dumpValue_reread hfloats n x h.1
    have hxs := dumpElements_reread hfloats n xs h.2
    simp only [rereadElements, dumpElements, hx, hxs, isEmpty_rereadElements]
end

end

mutual
theorem ordered_of_read : ∀ j : Json, j.IsRead → j.Ordered ∧ NoBinary j
  | .null, _ => ⟨trivial, trivial⟩
  | .boolean _, _ => ⟨trivial, trivial⟩
  | .numberInteger _, _ => ⟨trivial, trivial⟩
  | .numberUnsigned _, _ => ⟨trivial, trivial⟩
  | .numberFloat _, _ => ⟨trivial, trivial⟩
  | .string _, _ => ⟨trivial, trivial⟩
  | .array xs, h => elementsOrdered_of_read xs h
  | .object ms, h =>
    have hms := membersOrdered_of_read ms h.2
    ⟨⟨h.1, hms.1⟩, hms.2⟩

theorem elementsOrdered_of_read :
    ∀ xs : List Json, ElementsRead xs → ElementsOrdered xs ∧ NoBinaryElements xs
  | [], _ => ⟨trivial, trivial⟩
  | x :: xs, h =>
    have hx := ordered_of_read x h.1
    have hxs := elementsOrdered_of_read xs h.2
    ⟨⟨hx.1, hxs.1⟩, ⟨hx.2, hxs.2⟩⟩

theorem membersOrdered_of_read :
    ∀ ms : List (Str × Json), MembersRead ms → MembersOrdered ms ∧ NoBinaryMembers ms
  | [], _ => ⟨trivial, trivial⟩
  | (_, v) :: ms, h =>
    have hv := ordered_of_read v h.2.1
    have hms := membersOrdered_of_read ms h.2.2
    ⟨⟨hv.1, hms.1⟩, ⟨hv.2, hms.2⟩⟩
end

theorem isRead_of_parse [FloatReader] {content r : Str} {j : Json} (h : parse content = .value j r) : j.IsRead := by
  obtain ⟨mark, text, -, -, htext, -⟩ := (parse_value_iff content j r).mp h
  exact partRead_of_derives htext

/-! ### A codec of doubles -/

/- The bits as a number with the fraction `.0`: of the real codec it has 0.0. -/
abbrev bitsText : FloatText where
  dumpFloat x := if isFinite x then natToString x.toNat ++ lit ".0" else lit "null"

abbrev bitsReader : FloatReader where
  strtod s := BitVec.ofNat 64 (Decimal.value (s.takeWhile fun b => decide (Decimal.IsDigit b)))

def bitsNumber (x : Double) : NumberText := ⟨false, Decimal.render x.toNat, some [48], none⟩

theorem text_bitsNumber (x : Double) : (bitsNumber x).text = natToString x.toNat ++ lit ".0" := by
  simp only [bitsNumber, NumberText.text, NumberText.sign, NumberText.fracText, NumberText.expText,
    natToString, List.append_nil]
  rfl

theorem bits_roundTrip : @FloatsRoundTrip bitsText bitsReader := by
  refine @FloatsRoundTrip.mk bitsText bitsReader ?_ ?_
  · intro x hx
    refine ⟨bitsNumber x, ⟨intText_render x.toNat, ?_, nofun⟩, rfl, ?_, ?_⟩
    · rintro digits ⟨⟩
      exact ⟨List.cons_ne_nil 48 [], fun b hb => List.mem_singleton.mp hb ▸ by decide⟩
    · rw [text_bitsNumber]
      exact if_pos hx
    · rw [text_bitsNumber]
      have hdigits : ∀ b ∈ natToString x.toNat, decide (Decimal.IsDigit b) = true :=
        fun b hb => decide_eq_true (Decimal.render_isDigit x.toNat b hb)
      have hstop : (lit ".0").takeWhile (fun b => decide (Decimal.IsDigit b)) = [] := rfl
      show BitVec.ofNat 64 (Decimal.value (List.takeWhile _ (natToString x.toNat ++ lit ".0"))) = x
      rw [List.takeWhile_append_of_pos hdigits, hstop, List.append_nil]
      show BitVec.ofNat 64 (Decimal.value (Decimal.render x.toNat)) = x
      rw [Decimal.value_render, BitVec.ofNat_toNat, BitVec.setWidth_eq]
  · intro x hx
    show (if isFinite x then _ else _) = _
    rw [hx, if_neg Bool.false_ne_true]

-- {"a":[-3,0.0,null],"b":"é"}, with the accent as two bytes
def sample : Json :=
  .object [(lit "a", .array [.numberInteger (-3), .numberFloat 0, .null]),
    (lit "b", .string [0xC3, 0xA9])]

theorem sample_ordered : sample.Ordered :=
  ⟨List.pairwise_pair.mpr (by decide), ⟨trivial, trivial, trivial, trivial⟩, trivial, trivial⟩

theorem sample_utf8 : sample.IsUtf8 := by
  have haccent : Utf8.Valid [0xC3, 0xA9] := by decide
  exact ⟨by decide, ⟨trivial, trivial, trivial, trivial⟩, by decide, haccent, trivial⟩

end JsonText

end Workflow
