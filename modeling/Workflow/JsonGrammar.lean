import Workflow.JsonLexer

/-!
# JSON texts

The grammar that the reader is compared with, written without it: what numbers,
strings and tokens look like, and which sequences of tokens are the text of
which value (`Derives`). `Derives` leaves open how tokens are told apart: `tok s t r`
says that `s` begins with the token `t` and goes on with `r`.
-/

namespace Workflow.JsonText

open JsonReader (Token FloatReader hexDigit encodeCodepoint isFinite)
open Decimal (IsDigit)

def Blank (s : Str) : Prop := ∀ b ∈ s, b = 32 ∨ b = 9 ∨ b = 10 ∨ b = 13

/-! ### Numbers -/

structure NumberText where
  negative : Bool
  int : Str
  frac : Option Str
  /-- The letter, the sign if any, and the digits. -/
  exp : Option (Byte × Option Byte × Str)

namespace NumberText

def Digits (s : Str) : Prop := s ≠ [] ∧ ∀ b ∈ s, IsDigit b

/- No zero before another digit. -/
def IntText (s : Str) : Prop := s = [48] ∨ Digits s ∧ s.head? ≠ some 48

def IsLetter (b : Byte) : Prop := b = 101 ∨ b = 69

def IsSign (b : Byte) : Prop := b = 43 ∨ b = 45

structure Wf (n : NumberText) : Prop where
  int : IntText n.int
  frac : ∀ digits, n.frac = some digits → Digits digits
  exp : ∀ letter sign digits, n.exp = some (letter, sign, digits) →
    IsLetter letter ∧ (∀ b, sign = some b → IsSign b) ∧ Digits digits

def sign (n : NumberText) : Str := if n.negative then [45] else []

def fracText (n : NumberText) : Str :=
  match n.frac with
  | some digits => 46 :: digits
  | none => []

def expText (n : NumberText) : Str :=
  match n.exp with
  | some (letter, sign, digits) => letter :: (sign.toList ++ digits)
  | none => []

def text (n : NumberText) : Str := n.sign ++ n.int ++ n.fracText ++ n.expText

def isInteger (n : NumberText) : Bool := n.frac.isNone && n.exp.isNone

/- An integer that fits is one of the two integer kinds, by its sign; every other
number is a double. -/
def token [FloatReader] (n : NumberText) : Token :=
  if n.isInteger then
    if n.negative then
      if Decimal.value n.int ≤ 2 ^ 63 then .valueInteger (Int64.ofInt (-Decimal.value n.int))
      else .valueFloat (FloatReader.strtod n.text)
    else
      if Decimal.value n.int < 2 ^ 64 then .valueUnsigned (UInt64.ofNat (Decimal.value n.int))
      else .valueFloat (FloatReader.strtod n.text)
  else .valueFloat (FloatReader.strtod n.text)

/- With the next byte of `rest` behind it the text begins no longer number. -/
def Ends (n : NumberText) (rest : Str) : Prop :=
  ∀ b tail, rest = b :: tail → ∀ m : NumberText, m.Wf → ¬ n.text ++ [b] <+: m.text

end NumberText

/-! ### Strings -/

/- The byte behind a backslash and the byte it stands for. -/
def escapes : List (Byte × Byte) :=
  [(34, 34), (92, 92), (47, 47), (98, 8), (102, 12), (110, 10), (114, 13), (116, 9)]

/- Four hexadecimal digits and the number they write. -/
def Hex4 (s : Str) (n : ℕ) : Prop :=
  ∃ a b c d x y z w, s = [a, b, c, d] ∧ hexDigit a = some x ∧ hexDigit b = some y ∧
    hexDigit c = some z ∧ hexDigit d = some w ∧ n = x * 4096 + y * 256 + z * 16 + w

def IsHigh (n : ℕ) : Prop := 0xD800 ≤ n ∧ n ≤ 0xDBFF

def IsLow (n : ℕ) : Prop := 0xDC00 ≤ n ∧ n ≤ 0xDFFF

/- What stands between two quotes, and the string it denotes. -/
inductive StringText : Str → Str → Prop
  | nil : StringText [] []
  /-- Characters from U+0020 on, but no quote and no backslash. -/
  | plain {s raw text} : Utf8.Valid s → (∀ b ∈ s, 0x20 ≤ b.val ∧ b ≠ 34 ∧ b ≠ 92) →
      StringText raw text → StringText (s ++ raw) (s ++ text)
  | escape {b c raw text} : (b, c) ∈ escapes → StringText raw text →
      StringText (92 :: b :: raw) (c :: text)
  | codepoint {hex n raw text} : Hex4 hex n → ¬ IsHigh n → ¬ IsLow n → StringText raw text →
      StringText (lit "\\u" ++ hex ++ raw) (encodeCodepoint n ++ text)
  | surrogates {hex hex' high low raw text} : Hex4 hex high → Hex4 hex' low → IsHigh high →
      IsLow low → StringText raw text →
      StringText (lit "\\u" ++ hex ++ lit "\\u" ++ hex' ++ raw)
        (encodeCodepoint (0x10000 + (high - 0xD800) * 0x400 + (low - 0xDC00)) ++ text)

/-! ### Tokens -/

inductive TokenText [FloatReader] : Str → Token → Prop
  | beginArray : TokenText (lit "[") .beginArray
  | endArray : TokenText (lit "]") .endArray
  | beginObject : TokenText (lit "\x7b") .beginObject
  | endObject : TokenText (lit "\x7d") .endObject
  | nameSeparator : TokenText (lit ":") .nameSeparator
  | valueSeparator : TokenText (lit ",") .valueSeparator
  | literalTrue : TokenText (lit "true") .literalTrue
  | literalFalse : TokenText (lit "false") .literalFalse
  | literalNull : TokenText (lit "null") .literalNull
  | string {raw text} : StringText raw text →
      TokenText (lit "\"" ++ raw ++ lit "\"") (.valueString text)
  | number {n : NumberText} : n.Wf → TokenText n.text n.token

/- The text begins, behind whitespace, with a token. -/
def Reads [FloatReader] (s : Str) (t : Token) (r : Str) : Prop :=
  ∃ blank text, Blank blank ∧ TokenText text t ∧ s = blank ++ text ++ r

/-! ### Values -/

def scalar : Token → Option Json
  | .literalTrue => some (.boolean true)
  | .literalFalse => some (.boolean false)
  | .literalNull => some .null
  | .valueString s => some (.string s)
  | .valueUnsigned u => some (.numberUnsigned u)
  | .valueInteger z => some (.numberInteger z)
  | .valueFloat x => if isFinite x then some (.numberFloat x) else none
  | _ => none

/- Of members with one name the last counts. -/
def addMembers (ms : List (Str × Json)) (more : List (Str × Json)) : List (Str × Json) :=
  more.foldl (fun acc m => insertEntry m.1 m.2 acc) ms

/- A value, or what stands behind an opening bracket or a value inside it, up to
the closing bracket. -/
inductive Part where
  | value (j : Json)
  | elements (xs : List Json)
  | moreElements (xs : List Json)
  | members (ms : List (Str × Json))
  | moreMembers (ms : List (Str × Json))

inductive Derives (tok : Str → Token → Str → Prop) : Part → Str → Str → Prop
  | scalar {s t r j} : tok s t r → scalar t = some j → Derives tok (.value j) s r
  | array {s s₁ xs r} : tok s .beginArray s₁ → Derives tok (.elements xs) s₁ r →
      Derives tok (.value (.array xs)) s r
  | object {s s₁ ms r} : tok s .beginObject s₁ → Derives tok (.members ms) s₁ r →
      Derives tok (.value (.object (addMembers [] ms))) s r
  | noElements {s r} : tok s .endArray r → Derives tok (.elements []) s r
  | elements {s s₁ x xs r} : Derives tok (.value x) s s₁ → Derives tok (.moreElements xs) s₁ r →
      Derives tok (.elements (x :: xs)) s r
  | lastElement {s r} : tok s .endArray r → Derives tok (.moreElements []) s r
  | nextElement {s s₁ s₂ x xs r} : tok s .valueSeparator s₁ → Derives tok (.value x) s₁ s₂ →
      Derives tok (.moreElements xs) s₂ r → Derives tok (.moreElements (x :: xs)) s r
  | noMembers {s r} : tok s .endObject r → Derives tok (.members []) s r
  | members {s s₁ s₂ s₃ k v ms r} : tok s (.valueString k) s₁ → tok s₁ .nameSeparator s₂ →
      Derives tok (.value v) s₂ s₃ → Derives tok (.moreMembers ms) s₃ r →
      Derives tok (.members ((k, v) :: ms)) s r
  | lastMember {s r} : tok s .endObject r → Derives tok (.moreMembers []) s r
  | nextMember {s s₁ s₂ s₃ s₄ k v ms r} : tok s .valueSeparator s₁ → tok s₁ (.valueString k) s₂ →
      tok s₂ .nameSeparator s₃ → Derives tok (.value v) s₃ s₄ →
      Derives tok (.moreMembers ms) s₄ r → Derives tok (.moreMembers ((k, v) :: ms)) s r

/- `text` alone is a text of `j`, with whitespace before it at most. -/
def Denotes [FloatReader] (text : Str) (j : Json) : Prop := Derives Reads (.value j) text []

theorem not_last_of_scalar {t : Token} {j : Json} (h : scalar t = some j) : t.isLast = false := by
  cases t <;> first | rfl | cases h

theorem derives_mono {tok tok' : Str → Token → Str → Prop}
    (hmono : ∀ {s t r}, t.isLast = false → tok s t r → tok' s t r) {part : Part} {s r : Str}
    (h : Derives tok part s r) : Derives tok' part s r := by
  induction h with
  | scalar ht hscalar => exact .scalar (hmono (not_last_of_scalar hscalar) ht) hscalar
  | array ht _ ih => exact .array (hmono rfl ht) ih
  | object ht _ ih => exact .object (hmono rfl ht) ih
  | noElements ht => exact .noElements (hmono rfl ht)
  | elements _ _ ihx ihxs => exact .elements ihx ihxs
  | lastElement ht => exact .lastElement (hmono rfl ht)
  | nextElement ht _ _ ihx ihxs => exact .nextElement (hmono rfl ht) ihx ihxs
  | noMembers ht => exact .noMembers (hmono rfl ht)
  | members hkey hcolon _ _ ihv ihms => exact .members (hmono rfl hkey) (hmono rfl hcolon) ihv ihms
  | lastMember ht => exact .lastMember (hmono rfl ht)
  | nextMember hcomma hkey hcolon _ _ ihv ihms =>
    exact .nextMember (hmono rfl hcomma) (hmono rfl hkey) (hmono rfl hcolon) ihv ihms

/-! ### A derivation does not look at what follows -/

def Framed (reads : Str → Str → Prop) (s r : Str) : Prop :=
  ∃ text, s = text ++ r ∧ ∀ r', reads (text ++ r') r'

theorem Framed.imp {p q : Str → Str → Prop} {s r : Str} (h : Framed p s r)
    (himp : ∀ a b, p a b → q a b) : Framed q s r := by
  obtain ⟨text, hs, hp⟩ := h
  exact ⟨text, hs, fun r' => himp _ _ (hp r')⟩

theorem Framed.seq {p q : Str → Str → Prop} {s t r : Str} (h : Framed p s t) (h' : Framed q t r) :
    Framed (fun a c => ∃ b, p a b ∧ q b c) s r := by
  obtain ⟨text, rfl, hp⟩ := h
  obtain ⟨more, rfl, hq⟩ := h'
  refine ⟨text ++ more, (List.append_assoc text more r).symm, fun r' => ?_⟩
  rw [List.append_assoc]
  exact ⟨more ++ r', hp (more ++ r'), hq r'⟩

theorem derives_framed {tok : Str → Token → Str → Prop} {part : Part} {s r : Str}
    (h : Derives tok part s r) (htok : ∀ {s t r}, tok s t r → Framed (fun a b => tok a t b) s r) :
    Framed (Derives tok part) s r := by
  induction h with
  | scalar ht hscalar => exact (htok ht).imp fun _ _ hs => .scalar hs hscalar
  | array ht _ ih => exact ((htok ht).seq ih).imp fun _ _ ⟨_, hs, hxs⟩ => .array hs hxs
  | object ht _ ih => exact ((htok ht).seq ih).imp fun _ _ ⟨_, hs, hms⟩ => .object hs hms
  | noElements ht => exact (htok ht).imp fun _ _ hs => .noElements hs
  | elements _ _ ihx ihxs => exact (ihx.seq ihxs).imp fun _ _ ⟨_, hx, hxs⟩ => .elements hx hxs
  | lastElement ht => exact (htok ht).imp fun _ _ hs => .lastElement hs
  | nextElement ht _ _ ihx ihxs =>
    exact ((htok ht).seq (ihx.seq ihxs)).imp
      fun _ _ ⟨_, hs, _, hx, hxs⟩ => .nextElement hs hx hxs
  | noMembers ht => exact (htok ht).imp fun _ _ hs => .noMembers hs
  | members hkey hcolon _ _ ihv ihms =>
    exact ((htok hkey).seq ((htok hcolon).seq (ihv.seq ihms))).imp
      fun _ _ ⟨_, hk, _, hc, _, hv, hms⟩ => .members hk hc hv hms
  | lastMember ht => exact (htok ht).imp fun _ _ hs => .lastMember hs
  | nextMember hcomma hkey hcolon _ _ ihv ihms =>
    exact ((htok hcomma).seq ((htok hkey).seq ((htok hcolon).seq (ihv.seq ihms)))).imp
      fun _ _ ⟨_, hs, _, hk, _, hc, _, hv, hms⟩ => .nextMember hs hk hc hv hms

theorem reads_framed [FloatReader] {s r : Str} {t : Token} (h : Reads s t r) :
    Framed (fun a b => Reads a t b) s r := by
  obtain ⟨blank, text, hblank, htext, hs⟩ := h
  exact ⟨blank ++ text, hs, fun r' => ⟨blank, text, hblank, htext, rfl⟩⟩

/- What is left of a text of `j` alone once it has been read: nothing. -/
theorem denotes_of_derives [FloatReader] {s r : Str} {j : Json} (h : Derives Reads (.value j) s r) :
    ∃ text, s = text ++ r ∧ Denotes text j := by
  obtain ⟨text, hs, hframe⟩ := derives_framed h reads_framed
  have htext := hframe []
  rw [List.append_nil] at htext
  exact ⟨text, hs, htext⟩

theorem derives_of_denotes [FloatReader] {text : Str} {j : Json} (h : Denotes text j) (r : Str) :
    Derives Reads (.value j) (text ++ r) r := by
  obtain ⟨text', htext, hframe⟩ := derives_framed h reads_framed
  rw [List.append_nil] at htext
  rw [htext]
  exact hframe r

end Workflow.JsonText
