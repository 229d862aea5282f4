import Workflow.Serializer
import Workflow.Lib.LongestMatch

/-!
# The lexer behind `file >> j` (json.hpp:7419-9010)

`scan` reads one token off what is left of the input. It is a loop over bytes
that calls `get()`: a point at which it does so is a state, and a byte (or the
end of the input) says how it goes on. Comments are not ignored, the decimal
point is that of the `"C"` locale, and the bits of a decimal number come from
`strtod`.
-/

namespace Workflow.JsonReader

/-- `std::strtod` on a number of the JSON syntax; an infinity if it overflows. -/
class FloatReader where
  strtod : Str → Double

/-- `std::isfinite`: the exponent bits are not all ones. -/
def isFinite (x : Double) : Bool := decide (x.toNat / 2 ^ 52 % 2 ^ 11 ≠ 0x7FF)

/-- `token_type`, with the value or the message the lexer holds for it. -/
inductive Token where
  | literalTrue
  | literalFalse
  | literalNull
  | valueString (s : Str)
  | valueUnsigned (u : UInt64)
  | valueInteger (z : Int64)
  | valueFloat (x : Double)
  | beginArray
  | beginObject
  | endArray
  | endObject
  | nameSeparator
  | valueSeparator
  | parseError (message : Str)
  | endOfInput
  deriving DecidableEq

/- What one scan leaves; `hitEnd` when its last `get()` found no more input. -/
structure Scanned where
  token : Token
  rest : Str
  hitEnd : Bool

/-! ### Strings (json.hpp:7639-8283) -/

/- The points of `scan_string` at which a byte is read. -/
inductive StringPoint where
  /-- The loop itself. -/
  | start
  /-- In `next_byte_in_range`, with the ranges that are left. -/
  | inRange (ranges : List (ℕ × ℕ))
  /-- Behind a backslash. -/
  | escape
  /-- In `get_codepoint`, with the digits to come after this one and the sum so
  far; `high` is the high surrogate whose second half this is. -/
  | codepoint (high : Option ℕ) (digits sum : ℕ)
  /-- Behind a high surrogate, where `\` and then `u` have to follow. -/
  | surrogateBackslash (high : ℕ)
  | surrogateU (high : ℕ)
  deriving DecidableEq

inductive StringStep where
  | add (bytes : Str) (point : StringPoint)
  | closed
  | error (message : Str)

def illFormed : Str := lit "invalid string: ill-formed UTF-8 byte"

def badEscape : Str := lit "invalid string: forbidden character after backslash"

def badHex : Str := lit "invalid string: '\\u' must be followed by 4 hex digits"

def loneHigh : Str :=
  lit "invalid string: surrogate U+D800..U+DBFF must be followed by U+DC00..U+DFFF"

def loneLow : Str :=
  lit "invalid string: surrogate U+DC00..U+DFFF must follow U+D800..U+DBFF"

def controlNames : List String :=
  ["NUL", "SOH", "STX", "ETX", "EOT", "ENQ", "ACK", "BEL", "BS", "HT", "LF", "VT", "FF", "CR",
    "SO", "SI", "DLE", "DC1", "DC2", "DC3", "DC4", "NAK", "SYN", "ETB", "CAN", "EM", "SUB", "ESC",
    "FS", "GS", "RS", "US"]

def shortEscape (b : Byte) : Str :=
  match b.val with
  | 0x08 => lit " or \\b"
  | 0x09 => lit " or \\t"
  | 0x0A => lit " or \\n"
  | 0x0C => lit " or \\f"
  | 0x0D => lit " or \\r"
  | _ => []

/- The 32 cases for control characters (json.hpp:7808-7997). -/
def controlMessage (b : Byte) : Str :=
  let code := lit "00" ++ hexBytes b
  lit "invalid string: control character U+" ++ code ++ lit " (" ++
    lit (controlNames.getD b.val "") ++ lit ") must be escaped to \\u" ++ code ++ shortEscape b

/- The ranges of the bytes behind a first byte of a longer character. -/
def ranges (b : Byte) : Option (List (ℕ × ℕ)) :=
  if 0xC2 ≤ b.val ∧ b.val ≤ 0xDF then some [(0x80, 0xBF)]
  else if b.val = 0xE0 then some [(0xA0, 0xBF), (0x80, 0xBF)]
  else if b.val = 0xED then some [(0x80, 0x9F), (0x80, 0xBF)]
  else if 0xE1 ≤ b.val ∧ b.val ≤ 0xEF then some [(0x80, 0xBF), (0x80, 0xBF)]
  else if b.val = 0xF0 then some [(0x90, 0xBF), (0x80, 0xBF), (0x80, 0xBF)]
  else if 0xF1 ≤ b.val ∧ b.val ≤ 0xF3 then some [(0x80, 0xBF), (0x80, 0xBF), (0x80, 0xBF)]
  else if b.val = 0xF4 then some [(0x80, 0x8F), (0x80, 0xBF), (0x80, 0xBF)]
  else none

def unescaped (b : Byte) : Option Byte :=
  match b.val with
  | 0x22 => some 34
  | 0x5C => some 92
  | 0x2F => some 47
  | 0x62 => some 8
  | 0x66 => some 12
  | 0x6E => some 10
  | 0x72 => some 13
  | 0x74 => some 9
  | _ => none

def hexDigit (b : Byte) : Option ℕ :=
  if 48 ≤ b.val ∧ b.val ≤ 57 then some (b.val - 0x30)
  else if 65 ≤ b.val ∧ b.val ≤ 70 then some (b.val - 0x37)
  else if 97 ≤ b.val ∧ b.val ≤ 102 then some (b.val - 0x57)
  else none

/- The bits that the source joins with `|` never overlap: they are added here. -/
def encodeCodepoint (n : ℕ) : Str :=
  if n < 0x80 then [Fin.ofNat 256 n]
  else if n ≤ 0x7FF then [Fin.ofNat 256 (0xC0 + n / 64), Fin.ofNat 256 (0x80 + n % 64)]
  else if n ≤ 0xFFFF then
    [Fin.ofNat 256 (0xE0 + n / 4096), Fin.ofNat 256 (0x80 + n / 64 % 64), Fin.ofNat 256 (0x80 + n % 64)]
  else
    [Fin.ofNat 256 (0xF0 + n / 262144), Fin.ofNat 256 (0x80 + n / 4096 % 64),
      Fin.ofNat 256 (0x80 + n / 64 % 64), Fin.ofNat 256 (0x80 + n % 64)]

/- A complete `\uxxxx` (json.hpp:7716-7791). -/
def endCodepoint (high : Option ℕ) (codepoint : ℕ) : StringStep :=
  match high with
  | none =>
    if 0xD800 ≤ codepoint ∧ codepoint ≤ 0xDBFF then .add [] (.surrogateBackslash codepoint)
    else if 0xDC00 ≤ codepoint ∧ codepoint ≤ 0xDFFF then .error loneLow
    else .add (encodeCodepoint codepoint) .start
  | some high =>
    if 0xDC00 ≤ codepoint ∧ codepoint ≤ 0xDFFF then
      .add (encodeCodepoint (high * 1024 + codepoint - 0x35FDC00)) .start
    else .error loneHigh

def stringStep : StringPoint → Byte → StringStep
  | .start, b =>
    if b = 34 then .closed
    else if b = 92 then .add [] .escape
    else if b.val ≤ 0x1F then .error (controlMessage b)
    else if b.val ≤ 0x7F then .add [b] .start
    else
      match ranges b with
      | some ranges => .add [b] (.inRange ranges)
      | none => .error illFormed
  | .inRange [], _ => .error illFormed
  | .inRange ((low, high) :: more), b =>
    if low ≤ b.val ∧ b.val ≤ high then
      .add [b] (match more with
        | [] => .start
        | _ => .inRange more)
    else .error illFormed
  | .escape, b =>
    if b = 117 then .add [] (.codepoint none 3 0)
    else
      match unescaped b with
      | some c => .add [c] .start
      | none => .error badEscape
  | .codepoint high digits sum, b =>
    match hexDigit b with
    | some d =>
      match digits with
      | 0 => endCodepoint high (sum + d)
      | digits + 1 => .add [] (.codepoint high digits (sum + d * 16 ^ (digits + 1)))
    | none => .error badHex
  | .surrogateBackslash high, b => if b = 92 then .add [] (.surrogateU high) else .error loneHigh
  | .surrogateU high, b => if b = 117 then .add [] (.codepoint (some high) 3 0) else .error loneHigh

/- What the same points make of the end of the input. -/
def stringEnd : StringPoint → Str
  | .start => lit "invalid string: missing closing quote"
  | .inRange _ => illFormed
  | .escape => badEscape
  | .codepoint _ _ _ => badHex
  | .surrogateBackslash _ => loneHigh
  | .surrogateU _ => loneHigh

/-- `scan_string`, from a point on; `buffer` is `token_buffer`. -/
def scanString (point : StringPoint) (buffer : Str) : Str → Scanned
  | [] => ⟨.parseError (stringEnd point), [], true⟩
  | b :: rest =>
    match stringStep point b with
    | .add bytes point' => scanString point' (buffer ++ bytes) rest
    | .closed => ⟨.valueString buffer, rest, false⟩
    | .error message => ⟨.parseError message, rest, false⟩

/-! ### Numbers (json.hpp:8358-8682) -/

/- The labels of `scan_number` and the number type at that point. -/
inductive NumberLabel where
  | minus
  | zero
  | any1
  | decimal1
  | decimal2
  | exponent
  | sign
  | any2
  deriving DecidableEq

inductive NumberType where
  | valueUnsigned
  | valueInteger
  | valueFloat
  deriving DecidableEq

structure NumberState where
  label : NumberLabel
  numberType : NumberType
  deriving DecidableEq

/- Three labels set the number type. -/
def NumberState.goto (s : NumberState) (label : NumberLabel) : NumberState where
  label := label
  numberType :=
    match label with
    | .minus => .valueInteger
    | .decimal1 => .valueFloat
    | .exponent => .valueFloat
    | _ => s.numberType

open Decimal (IsDigit)

def isExponent (b : Byte) : Bool := decide (b = 101 ∨ b = 69)

/- The label a byte leads to; `none` is the default branch of the switch. -/
def nextLabel : NumberLabel → Byte → Option NumberLabel
  | .minus, b => if b = 48 then some .zero else if IsDigit b then some .any1 else none
  | .zero, b => if b = 46 then some .decimal1 else if isExponent b then some .exponent else none
  | .any1, b =>
    if IsDigit b then some .any1
    else if b = 46 then some .decimal1
    else if isExponent b then some .exponent
    else none
  | .decimal1, b => if IsDigit b then some .decimal2 else none
  | .decimal2, b =>
    if IsDigit b then some .decimal2 else if isExponent b then some .exponent else none
  | .exponent, b =>
    if b = 43 ∨ b = 45 then some .sign else if IsDigit b then some .any2 else none
  | .sign, b => if IsDigit b then some .any2 else none
  | .any2, b => if IsDigit b then some .any2 else none

def numberStep (s : NumberState) (b : Byte) : Option NumberState :=
  (nextLabel s.label b).map s.goto

/- The default branches that are errors. -/
def numberError : NumberLabel → Option Str
  | .minus => some (lit "invalid number; expected digit after '-'")
  | .decimal1 => some (lit "invalid number; expected digit after '.'")
  | .exponent => some (lit "invalid number; expected '+', '-', or digit after exponent")
  | .sign => some (lit "invalid number; expected digit after exponent sign")
  | _ => none

/- `init`, on the first byte. -/
def numberInit (first : Byte) : NumberState :=
  if first = 45 then ⟨.minus, .valueInteger⟩
  else if first = 48 then ⟨.zero, .valueUnsigned⟩
  else ⟨.any1, .valueUnsigned⟩

/-- `std::strtoull` on a text of digits; `none` is `ERANGE`. -/
def strtoull (buffer : Str) : Option UInt64 :=
  let n := Decimal.value buffer
  if n < 2 ^ 64 then some (UInt64.ofNat n) else none

/-- `std::strtoll` on a minus sign and digits; `none` is `ERANGE`. -/
def strtoll (buffer : Str) : Option Int64 :=
  let n := Decimal.value buffer.tail
  if n ≤ 2 ^ 63 then some (Int64.ofInt (-n)) else none

section
variable [FloatReader]

/- `scan_number_done`: integers first, and floats where they do not fit. -/
def convertNumber (numberType : NumberType) (buffer : Str) : Token :=
  match numberType with
  | .valueUnsigned =>
    match strtoull buffer with
    | some u => .valueUnsigned u
    | none => .valueFloat (FloatReader.strtod buffer)
  | .valueInteger =>
    match strtoll buffer with
    | some z => .valueInteger z
    | none => .valueFloat (FloatReader.strtod buffer)
  | .valueFloat => .valueFloat (FloatReader.strtod buffer)

/-- `scan_number`, with its first byte read. The byte behind a number is put back. -/
def scanNumber (first : Byte) (rest : Str) : Scanned :=
  let m := LongestMatch.munch numberStep (numberInit first) rest
  match numberError m.final.label with
  | some message => ⟨.parseError message, m.unread.tail, m.unread.isEmpty⟩
  | none => ⟨convertNumber m.final.numberType (first :: m.read), m.unread, false⟩

end

/-! ### Tokens (json.hpp:8691-8703, 8897-8996) -/

/-- `scan_literal`, with its first byte read. -/
def scanLiteral (token : Token) : (literalText : Str) → Str → Scanned
  | [], rest => ⟨token, rest, false⟩
  | _ :: _, [] => ⟨.parseError (lit "invalid literal"), [], true⟩
  | c :: text, b :: rest =>
    if b = c then scanLiteral token text rest else ⟨.parseError (lit "invalid literal"), rest, false⟩

def isWhitespace (b : Byte) : Bool := decide (b = 32 ∨ b = 9 ∨ b = 10 ∨ b = 13)

def skipWhitespace (input : Str) : Str := input.dropWhile isWhitespace

def structural (b : Byte) : Option Token :=
  match b.val with
  | 0x5B => some .beginArray
  | 0x5D => some .endArray
  | 0x7B => some .beginObject
  | 0x7D => some .endObject
  | 0x3A => some .nameSeparator
  | 0x2C => some .valueSeparator
  | _ => none

/- The literal a byte begins, less this byte. -/
def literalAt (b : Byte) : Option (Token × Str) :=
  match b.val with
  | 0x74 => some (.literalTrue, lit "rue")
  | 0x66 => some (.literalFalse, lit "alse")
  | 0x6E => some (.literalNull, lit "ull")
  | _ => none

def beginsNumber (b : Byte) : Bool := decide (b = 45 ∨ IsDigit b)

section
variable [FloatReader]

/-- The switch of `scan`. -/
def scanToken (c : Byte) (rest : Str) : Scanned :=
  match structural c with
  | some token => ⟨token, rest, false⟩
  | none =>
    match literalAt c with
    | some (token, text) => scanLiteral token text rest
    | none =>
      if c = 34 then scanString .start [] rest
      else if beginsNumber c then scanNumber c rest
      else if c = 0 then ⟨.endOfInput, rest, false⟩
      else ⟨.parseError (lit "invalid literal"), rest, false⟩

/-- `scan`, once the byte order mark is dealt with. -/
def scan (input : Str) : Scanned :=
  match skipWhitespace input with
  | [] => ⟨.endOfInput, [], true⟩
  | c :: rest => scanToken c rest

end

/-! ### A scan leaves less than there was -/

/- Behind either of these tokens the next turn is an error. -/
def Token.isLast : Token → Bool
  | .parseError _ => true
  | .endOfInput => true
  | _ => false

theorem scanString_suffix (point : StringPoint) (buffer input : Str) :
    (scanString point buffer input).rest <:+ input := by
  induction input generalizing point buffer with
  | nil => exact List.suffix_rfl
  | cons b rest ih =>
    unfold scanString
    cases stringStep point b with
    | add bytes point' => exact (ih point' (buffer ++ bytes)).trans (List.suffix_cons b rest)
    | closed => exact List.suffix_cons b rest
    | error message => exact List.suffix_cons b rest

theorem scanLiteral_suffix (token : Token) (text input : Str) :
    (scanLiteral token text input).rest <:+ input := by
  induction text generalizing input with
  | nil => exact List.suffix_rfl
  | cons c text ih =>
    cases input with
    | nil => exact List.suffix_rfl
    | cons b rest =>
      unfold scanLiteral
      split_ifs
      · exact (ih rest).trans (List.suffix_cons b rest)
      · exact List.suffix_cons b rest

theorem skipWhitespace_suffix (input : Str) : skipWhitespace input <:+ input :=
  List.dropWhile_suffix _

section
variable [FloatReader]

theorem scanNumber_suffix (first : Byte) (input : Str) : (scanNumber first input).rest <:+ input := by
  obtain ⟨hsplit, -, -⟩ := LongestMatch.munch_split numberStep (numberInit first) input
  have hunread : (LongestMatch.munch numberStep (numberInit first) input).unread <:+ input :=
    ⟨_, hsplit.symm⟩
  unfold scanNumber
  simp only
  split
  · exact (List.tail_suffix _).trans hunread
  · exact hunread

theorem scanToken_suffix (c : Byte) (rest : Str) : (scanToken c rest).rest <:+ rest := by
  unfold scanToken
  split
  · exact List.suffix_rfl
  · split
    · exact scanLiteral_suffix _ _ rest
    · split_ifs
      · exact scanString_suffix _ _ rest
      · exact scanNumber_suffix c rest
      · exact List.suffix_rfl
      · exact List.suffix_rfl

theorem scan_suffix (input : Str) : (scan input).rest <:+ input := by
  have hskip := skipWhitespace_suffix input
  unfold scan
  split
  · exact List.nil_suffix
  · next c rest heq =>
    rw [heq] at hskip
    exact ((scanToken_suffix c rest).trans (List.suffix_cons c rest)).trans hskip

theorem scan_rest_le (input : Str) : (scan input).rest.length ≤ input.length :=
  (scan_suffix input).length_le

theorem scan_rest_lt {input : Str} (h : (scan input).token.isLast = false) :
    (scan input).rest.length < input.length := by
  have hskip := (skipWhitespace_suffix input).length_le
  unfold scan at h ⊢
  split at h
  · cases h
  · next c rest heq =>
    rw [heq, List.length_cons] at hskip
    have hrest := (scanToken_suffix c rest).length_le
    omega

end

end Workflow.JsonReader
