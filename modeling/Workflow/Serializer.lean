import Workflow.Json

/-!
# `dump(2)` with the strict error handler (json.hpp:19281-19790)

Pretty printing with an indent of two. Only the digits of a double come from
code that is not modelled (Grisu2): they are the instance's `dumpFloat`. A
string or key that is not UTF-8 throws `type_error` 316.
-/

namespace Workflow

/-- The text of a double (json.hpp:19973). -/
class FloatText where
  dumpFloat : Double → Str

def nibbleToHex (n : ℕ) : Byte := if n < 10 then Fin.ofNat 256 (48 + n) else Fin.ofNat 256 (55 + n)

def hexBytes (b : Byte) : Str := [nibbleToHex (b.val / 16), nibbleToHex (b.val % 16)]

/-- `%04x` of a control character. -/
def lowerHex (n : ℕ) : Byte := if n < 10 then Fin.ofNat 256 (48 + n) else Fin.ofNat 256 (87 + n)

-- A byte that ends a longer character is at least 0x80 and is copied.
def escapeByte (b : Byte) : Str :=
  match b.val with
  | 0x08 => lit "\\b"
  | 0x09 => lit "\\t"
  | 0x0A => lit "\\n"
  | 0x0C => lit "\\f"
  | 0x0D => lit "\\r"
  | 0x22 => lit "\\\""
  | 0x5C => lit "\\\\"
  | n => if n ≤ 0x1F then lit "\\u00" ++ [lowerHex (n / 16), lowerHex (n % 16)] else [b]

def typeError316 (what : Str) : Exn := .std (lit "[json.exception.type_error.316] " ++ what)

/-- The loop of `dump_escaped` (json.hpp:19565) from byte `i` on; `last` is `s.back()`. -/
def dumpEscapedFrom (last : Byte) : Utf8.Pending → ℕ → Str → Except Exn Str
  | .done, _, [] => .ok []
  | _, _, [] => .error (typeError316 (lit "incomplete UTF-8 string; last byte: 0x" ++ hexBytes last))
  | p, i, b :: rest =>
    match Utf8.next p b with
    | none => .error (typeError316
        (lit "invalid UTF-8 byte at index " ++ natToString i ++ lit ": 0x" ++ hexBytes b))
    | some .done => (dumpEscapedFrom last .done (i + 1) rest).map (escapeByte b ++ ·)
    | some p' => (dumpEscapedFrom last p' (i + 1) rest).map (b :: ·)

def dumpEscaped (s : Str) : Except Exn Str := dumpEscapedFrom (s.getLastD 0) .done 0 s

def indent (n : ℕ) : Str := List.replicate n 32

def dumpBinary (n : ℕ) (bytes : List Byte) (subtype : Option UInt64) : Str :=
  lit "\x7b\n" ++ indent (n + 2) ++ lit "\"bytes\": [" ++
    (lit ", ").intercalate (bytes.map fun b => natToString b.val) ++ lit "],\n" ++ indent (n + 2) ++
    lit "\"subtype\": " ++ (match subtype with
      | some t => natToString t.toNat
      | none => lit "null") ++ lit "\n" ++ indent n ++ lit "\x7d"

section
variable [FloatText]

mutual
def dumpValue (n : ℕ) : Json → Except Exn Str
  | .object [] => .ok (lit "\x7b\x7d")
  | .object (m :: ms) => do
    let body ← dumpMembers (n + 2) (m :: ms)
    return lit "\x7b\n" ++ body ++ lit "\n" ++ indent n ++ lit "\x7d"
  | .array [] => .ok (lit "[]")
  | .array (x :: xs) => do
    let body ← dumpElements (n + 2) (x :: xs)
    return lit "[\n" ++ body ++ lit "\n" ++ indent n ++ lit "]"
  | .string s => do
    let text ← dumpEscaped s
    return lit "\"" ++ text ++ lit "\""
  | .binary bytes subtype => .ok (dumpBinary n bytes subtype)
  | .boolean b => .ok (if b then lit "true" else lit "false")
  | .numberInteger z => .ok (intToString z.toInt)
  | .numberUnsigned u => .ok (natToString u.toNat)
  | .numberFloat x => .ok (FloatText.dumpFloat x)
  | .null => .ok (lit "null")
  termination_by structural j => j

def dumpMembers (n : ℕ) : List (Str × Json) → Except Exn Str
  | [] => .ok []
  | (k, v) :: rest => do
    let key ← dumpEscaped k
    let text ← dumpValue n v
    let more ← dumpMembers n rest
    return indent n ++ lit "\"" ++ key ++ lit "\": " ++ text ++
      (if rest.isEmpty then [] else lit ",\n") ++ more
  termination_by structural ms => ms

def dumpElements (n : ℕ) : List Json → Except Exn Str
  | [] => .ok []
  | x :: rest => do
    let text ← dumpValue n x
    let more ← dumpElements n rest
    return indent n ++ text ++ (if rest.isEmpty then [] else lit ",\n") ++ more
  termination_by structural xs => xs
end

def dump (j : Json) : Except Exn Str := dumpValue 0 j

end

mutual
/-- Every string and key of the tree is UTF-8. -/
def Json.IsUtf8 : Json → Prop
  | .object ms => MembersUtf8 ms
  | .array xs => ElementsUtf8 xs
  | .string s => Utf8.Valid s
  | _ => True
  termination_by structural j => j

def MembersUtf8 : List (Str × Json) → Prop
  | [] => True
  | (k, v) :: rest => Utf8.Valid k ∧ v.IsUtf8 ∧ MembersUtf8 rest
  termination_by structural ms => ms

def ElementsUtf8 : List Json → Prop
  | [] => True
  | x :: rest => x.IsUtf8 ∧ ElementsUtf8 rest
  termination_by structural xs => xs
end

theorem membersUtf8_iff (ms : List (Str × Json)) :
    MembersUtf8 ms ↔ ∀ e ∈ ms, Utf8.Valid e.1 ∧ e.2.IsUtf8 := by
  induction ms with
  | nil => simp [MembersUtf8]
  | cons head rest ih =>
    obtain ⟨k, v⟩ := head
    simp only [MembersUtf8, ih, List.forall_mem_cons, and_assoc]

theorem isUtf8_ofMembers (m : Members) :
    (Json.ofMembers m).IsUtf8 ↔ ∀ k v, m.find? k = some v → Utf8.Valid k ∧ v.IsUtf8 := by
  show MembersUtf8 m.entries ↔ _
  simp only [membersUtf8_iff, Prod.forall, SortedMap.mem_entries_iff]

/-! ### The writer succeeds exactly on UTF-8 trees -/

theorem dumpEscapedFrom_succeeds (last : Byte) (p : Utf8.Pending) (i : ℕ) (s : Str) :
    (∃ t, dumpEscapedFrom last p i s = .ok t) ↔ Utf8.scan p s = some .done := by
  induction s generalizing p i with
  | nil => cases p <;> simp [dumpEscapedFrom]
  | cons b rest ih =>
    rw [Utf8.scan_cons]
    simp only [dumpEscapedFrom]
    cases hn : Utf8.next p b with
    | none =>
      simp
    | some p' =>
      simp only [Option.bind_some, ← ih p' (i + 1)]
      cases p' <;> simp only <;>
        rcases dumpEscapedFrom last _ (i + 1) rest with e | t <;> simp [Except.map]

theorem dumpEscaped_succeeds (s : Str) : (∃ t, dumpEscaped s = .ok t) ↔ Utf8.Valid s :=
  dumpEscapedFrom_succeeds _ _ _ _

theorem bind_succeeds {ε α β : Type} (x : Except ε α) (f : α → Except ε β) :
    (∃ b, x >>= f = .ok b) ↔ ∃ a, x = .ok a ∧ ∃ b, f a = .ok b := by
  cases x with
  | error e => simp [bind, Except.bind]
  | ok a => simp [bind, Except.bind]

theorem pure_succeeds {ε α : Type} (a : α) : ∃ b, (pure a : Except ε α) = .ok b := ⟨a, rfl⟩

section
variable [FloatText]

mutual
theorem dumpValue_succeeds (n : ℕ) : ∀ j, (∃ t, dumpValue n j = .ok t) ↔ j.IsUtf8
  | .null => by simp [dumpValue, Json.IsUtf8]
  | .boolean _ => by simp [dumpValue, Json.IsUtf8]
  | .numberInteger _ => by simp [dumpValue, Json.IsUtf8]
  | .numberUnsigned _ => by simp [dumpValue, Json.IsUtf8]
  | .numberFloat _ => by simp [dumpValue, Json.IsUtf8]
  | .binary _ _ => by simp [dumpValue, Json.IsUtf8]
  | .string s => by
    simp only [dumpValue, bind_succeeds, pure_succeeds, and_true, Json.IsUtf8]
    exact dumpEscaped_succeeds s
  | .array [] => by simp [dumpValue, Json.IsUtf8, ElementsUtf8]
  | .array (x :: xs) => by
    simp only [dumpValue, bind_succeeds, pure_succeeds, and_true, Json.IsUtf8]
    exact dumpElements_succeeds (n + 2) (x :: xs)
  | .object [] => by simp [dumpValue, Json.IsUtf8, MembersUtf8]
  | .object (m :: ms) => by
    simp only [dumpValue, bind_succeeds, pure_succeeds, and_true, Json.IsUtf8]
    exact dumpMembers_succeeds (n + 2) (m :: ms)

theorem dumpMembers_succeeds (n : ℕ) : ∀ ms, (∃ t, dumpMembers n ms = .ok t) ↔ MembersUtf8 ms
  | [] => by simp [dumpMembers, MembersUtf8]
  | (k, v) :: rest => by
    simp only [dumpMembers, bind_succeeds, pure_succeeds, and_true, MembersUtf8]
    rw [← dumpEscaped_succeeds k, ← dumpValue_succeeds n v, ← dumpMembers_succeeds n rest]
    simp only [exists_and_right]

theorem dumpElements_succeeds (n : ℕ) : ∀ xs, (∃ t, dumpElements n xs = .ok t) ↔ ElementsUtf8 xs
  | [] => by simp [dumpElements, ElementsUtf8]
  | x :: rest => by
    simp only [dumpElements, bind_succeeds, pure_succeeds, and_true, ElementsUtf8]
    rw [← dumpValue_succeeds n x, ← dumpElements_succeeds n rest]
    simp only [exists_and_right]
end

theorem dump_succeeds (j : Json) : (∃ t, dump j = .ok t) ↔ j.IsUtf8 := dumpValue_succeeds 0 j

end

end Workflow
