import Workflow.JsonLexer

/-!
# The parser behind `file >> j` (json.hpp:9183-9480, 13303-13740)

A loop over tokens with an explicit stack, in non-strict mode and with
exceptions. `step` is one turn of the loop. The parser's `states`, the DOM
builder's `ref_stack` and its `object_element` grow and shrink together: here
they are one stack of frames, each with what its array or object holds so far,
which is put into the frame below when it is closed.
-/

namespace Workflow.JsonReader

inductive Frame where
  | array (elements : List Json)
  /-- `key` is the member that `object_element` points to. -/
  | object (members : List (Str × Json)) (key : Str)

/-- `position_t` (json.hpp:3362-3370). -/
structure Position where
  charsReadTotal : ℕ := 0
  charsReadCurrentLine : ℕ := 0
  linesRead : ℕ := 0

/-- `get()`; `current` is `none` at the end of the input. -/
def Position.get (p : Position) (current : Option Byte) : Position :=
  if current = some 10 then ⟨p.charsReadTotal + 1, 0, p.linesRead + 1⟩
  else ⟨p.charsReadTotal + 1, p.charsReadCurrentLine + 1, p.linesRead⟩

/-- `unget()`. What the line held before a newline is not counted again. -/
def Position.unget (p : Position) : Position :=
  if p.charsReadCurrentLine = 0 then ⟨p.charsReadTotal - 1, 0, p.linesRead - 1⟩
  else ⟨p.charsReadTotal - 1, p.charsReadCurrentLine - 1, p.linesRead⟩

def Position.getAll (p : Position) (consumed : Str) : Position :=
  consumed.foldl (fun p b => p.get (some b)) p

/- The lexer between two scans: `tokenString` is what `reset()` and `get()` have
put into `token_string`. -/
structure Lexer where
  rest : Str
  position : Position
  tokenString : Str

structure Parser where
  lastToken : Token
  lexer : Lexer
  frames : List Frame
  root : Json
  skipToStateEvaluation : Bool

/-! ### Error messages -/

/-- `token_type_name` (json.hpp:7445-7487). -/
def tokenTypeName : Token → Str
  | .literalTrue => lit "true literal"
  | .literalFalse => lit "false literal"
  | .literalNull => lit "null literal"
  | .valueString _ => lit "string literal"
  | .valueUnsigned _ => lit "number literal"
  | .valueInteger _ => lit "number literal"
  | .valueFloat _ => lit "number literal"
  | .beginArray => lit "'['"
  | .beginObject => lit "'\x7b'"
  | .endArray => lit "']'"
  | .endObject => lit "'\x7d'"
  | .nameSeparator => lit "':'"
  | .valueSeparator => lit "','"
  | .parseError _ => lit "<parse error>"
  | .endOfInput => lit "end of input"

/- What an error says was expected: a token, a value, or nothing. -/
inductive Expected where
  | token (t : Token)
  | literalOrValue
  | uninitialized

def Expected.text : Expected → Str
  | .token t => lit "; expected " ++ tokenTypeName t
  | .literalOrValue => lit "; expected '[', '\x7b', or a literal"
  | .uninitialized => []

/-- `get_token_string`: control characters as `<U+xxxx>`. -/
def escapedTokenString (tokenString : Str) : Str :=
  tokenString.flatMap fun b => if b.val ≤ 0x1F then lit "<U+00" ++ hexBytes b ++ lit ">" else [b]

/-- What the parser throws. -/
inductive ParseFailure where
  /-- `parse_error` 101. -/
  | parseError (what : Str)
  /-- `out_of_range` 406. -/
  | outOfRange (what : Str)

/-- `parse_error::create(101, position, what_arg)`. -/
def Parser.parseErrorAt (p : Parser) (whatArg : Str) : ParseFailure :=
  .parseError (lit "[json.exception.parse_error.101] parse error at line " ++
    natToString (p.lexer.position.linesRead + 1) ++ lit ", column " ++
    natToString p.lexer.position.charsReadCurrentLine ++ lit ": " ++ whatArg)

/-- `exception_message` (json.hpp:13737-13766). -/
def Parser.exceptionMessage (p : Parser) (expected : Expected) (context : Str) : Str :=
  lit "syntax error while parsing " ++ context ++ lit " - " ++
    (match p.lastToken with
      | .parseError message =>
        message ++ lit "; last read: '" ++ escapedTokenString p.lexer.tokenString ++ lit "'"
      | token => lit "unexpected " ++ tokenTypeName token) ++
    expected.text

def Parser.syntaxError (p : Parser) (expected : Expected) (context : Str) : ParseFailure :=
  p.parseErrorAt (p.exceptionMessage expected context)

/-- `handle_value` (json.hpp:9430-9464), for a value that is complete. -/
def Parser.handleValue (p : Parser) (v : Json) : Parser :=
  match p.frames with
  | [] => { p with root := v }
  | .array elements :: frames => { p with frames := .array (elements ++ [v]) :: frames }
  | .object members key :: frames => { p with frames := .object (insertEntry key v members) key :: frames }

theorem handleValue_lexer (p : Parser) (v : Json) : (p.handleValue v).lexer = p.lexer := by
  unfold Parser.handleValue
  split <;> rfl

theorem handleValue_skip (p : Parser) (v : Json) :
    (p.handleValue v).skipToStateEvaluation = p.skipToStateEvaluation := by
  unfold Parser.handleValue
  split <;> rfl

/- A bound on the turns to come. -/
def Parser.remaining (p : Parser) : ℕ :=
  if p.lastToken.isLast && !p.skipToStateEvaluation then 0 else p.lexer.rest.length + 1

theorem remaining_of_token {p : Parser} (h : p.lastToken.isLast = false) :
    p.remaining = p.lexer.rest.length + 1 := by
  unfold Parser.remaining
  rw [h, Bool.false_and, if_neg Bool.false_ne_true]

theorem remaining_of_skip {p : Parser} (h : p.skipToStateEvaluation = true) :
    p.remaining = p.lexer.rest.length + 1 := by
  unfold Parser.remaining
  rw [h, Bool.not_true, Bool.and_false, if_neg Bool.false_ne_true]

/-! ### The lexer's state -/

/- Strings and numbers begin with `reset()`, with one byte of the token read. -/
def resets (consumed : Str) : Bool :=
  match skipWhitespace consumed with
  | [] => false
  | c :: _ => c = 34 || beginsNumber c

def Token.isNumber : Token → Bool
  | .valueUnsigned _ => true
  | .valueInteger _ => true
  | .valueFloat _ => true
  | _ => false

/- Behind a number `scan_number` reads once more, and calls `unget()`. -/
def Lexer.advance (l : Lexer) (scanned : Scanned) : Lexer :=
  let consumed := l.rest.take (l.rest.length - scanned.rest.length)
  let position := l.position.getAll consumed
  { rest := scanned.rest
    position :=
      if scanned.token.isNumber then (position.get scanned.rest.head?).unget
      else if scanned.hitEnd then position.get none
      else position
    tokenString :=
      if resets consumed then skipWhitespace consumed else l.tokenString ++ consumed }

section
variable [FloatReader]

def Parser.getToken (p : Parser) : Parser :=
  let scanned := scan p.lexer.rest
  { p with lastToken := scanned.token, lexer := p.lexer.advance scanned }

/-! ### One turn of the loop -/

inductive Turn where
  | goOn (p : Parser)
  | done (p : Parser)
  | fail (failure : ParseFailure)

/- `parse key`, `parse separator (:)` and the first token of the member's value;
`below` are the frames below this object. -/
def Parser.parseMember (p : Parser) (members : List (Str × Json)) (below : List Frame) : Turn :=
  match p.lastToken with
  | .valueString key =>
    let p := p.getToken
    match p.lastToken with
    | .nameSeparator => .goOn ({ p with frames := .object members key :: below }).getToken
    | _ => .fail (p.syntaxError (.token .nameSeparator) (lit "object separator"))
  | _ => .fail (p.syntaxError (.token (.valueString [])) (lit "object key"))

/- The part of the loop behind a value (json.hpp:13613-13723). -/
def Parser.evaluateState (p : Parser) : Turn :=
  match p.frames with
  | [] => .done p
  | .array elements :: below =>
    let p := p.getToken
    match p.lastToken with
    | .valueSeparator => .goOn p.getToken
    | .endArray =>
      .goOn (({ p with frames := below, skipToStateEvaluation := true }).handleValue (.array elements))
    | _ => .fail (p.syntaxError (.token .endArray) (lit "array"))
  | .object members _ :: below =>
    let p := p.getToken
    match p.lastToken with
    | .valueSeparator => p.getToken.parseMember members below
    | .endObject =>
      .goOn (({ p with frames := below, skipToStateEvaluation := true }).handleValue (.object members))
    | _ => .fail (p.syntaxError (.token .endObject) (lit "object"))

def emptyInput : Str :=
  lit "attempting to parse an empty input; check that your input string or stream contains the " ++
    lit "expected JSON"

/-- One turn of `sax_parse_internal`. -/
def Parser.step (p : Parser) : Turn :=
  if p.skipToStateEvaluation then ({ p with skipToStateEvaluation := false }).evaluateState
  else
    match p.lastToken with
    | .beginObject =>
      let p := p.getToken
      match p.lastToken with
      | .endObject => (p.handleValue (.object [])).evaluateState
      | _ => p.parseMember [] p.frames
    | .beginArray =>
      let p := p.getToken
      match p.lastToken with
      | .endArray => (p.handleValue (.array [])).evaluateState
      | _ => .goOn { p with frames := .array [] :: p.frames }
    | .valueFloat x =>
      if isFinite x then (p.handleValue (.numberFloat x)).evaluateState
      else .fail (.outOfRange (lit "[json.exception.out_of_range.406] number overflow parsing '" ++
        escapedTokenString p.lexer.tokenString ++ lit "'"))
    | .literalFalse => (p.handleValue (.boolean false)).evaluateState
    | .literalNull => (p.handleValue .null).evaluateState
    | .literalTrue => (p.handleValue (.boolean true)).evaluateState
    | .valueInteger z => (p.handleValue (.numberInteger z)).evaluateState
    | .valueString s => (p.handleValue (.string s)).evaluateState
    | .valueUnsigned u => (p.handleValue (.numberUnsigned u)).evaluateState
    | .parseError _ => .fail (p.syntaxError .uninitialized (lit "value"))
    | .endOfInput =>
      if p.lexer.position.charsReadTotal = 1 then .fail (p.parseErrorAt emptyInput)
      else .fail (p.syntaxError .literalOrValue (lit "value"))
    | _ => .fail (p.syntaxError .literalOrValue (lit "value"))

/-! ### The loop ends -/

theorem getToken_remaining_le {p : Parser} (h : p.skipToStateEvaluation = false) :
    p.getToken.remaining ≤ p.lexer.rest.length := by
  unfold Parser.remaining
  show (if (scan p.lexer.rest).token.isLast && !p.skipToStateEvaluation then 0
    else (scan p.lexer.rest).rest.length + 1) ≤ _
  rw [h, Bool.not_false, Bool.and_true]
  split_ifs with hlast
  · exact Nat.zero_le _
  · exact scan_rest_lt (Bool.not_eq_true _ ▸ hlast)

theorem getToken_rest_le (p : Parser) : p.getToken.lexer.rest.length ≤ p.lexer.rest.length :=
  scan_rest_le p.lexer.rest

theorem parseMember_goOn {p p' : Parser} {members : List (Str × Json)} {below : List Frame}
    (h : p.parseMember members below = .goOn p') (hskip : p.skipToStateEvaluation = false) :
    p'.remaining ≤ p.lexer.rest.length := by
  unfold Parser.parseMember at h
  split at h
  · simp only at h
    split at h
    · rw [← Turn.goOn.inj h]
      exact Nat.le_trans (getToken_remaining_le hskip) (getToken_rest_le p)
    · cases h
  · cases h

theorem evaluateState_goOn {p p' : Parser} (h : p.evaluateState = .goOn p')
    (hskip : p.skipToStateEvaluation = false) : p'.remaining ≤ p.lexer.rest.length := by
  have hclosed : ∀ (v : Json) (below : List Frame), p.getToken.lastToken.isLast = false →
      ((({ p.getToken with frames := below, skipToStateEvaluation := true } :
        Parser)).handleValue v).remaining ≤ p.lexer.rest.length := by
    intro v below hlast
    rw [remaining_of_skip (handleValue_skip _ _), handleValue_lexer]
    exact scan_rest_lt hlast
  unfold Parser.evaluateState at h
  split at h
  · cases h
  · simp only at h
    split at h
    · rw [← Turn.goOn.inj h]
      exact Nat.le_trans (getToken_remaining_le hskip) (getToken_rest_le p)
    · next htoken =>
      rw [← Turn.goOn.inj h]
      exact hclosed _ _ (by rw [htoken]; rfl)
    · cases h
  · simp only at h
    split at h
    · have hmember := parseMember_goOn h hskip
      exact Nat.le_trans hmember (Nat.le_trans (getToken_rest_le _) (getToken_rest_le p))
    · next htoken =>
      rw [← Turn.goOn.inj h]
      exact hclosed _ _ (by rw [htoken]; rfl)
    · cases h

/- Every turn that is not the last one consumes input. -/
theorem step_goOn_lt {p p' : Parser} (h : p.step = .goOn p') : p'.remaining < p.remaining := by
  unfold Parser.step at h
  by_cases hskip : p.skipToStateEvaluation = true
  · rw [if_pos hskip] at h
    have hle := evaluateState_goOn h rfl
    rw [remaining_of_skip hskip]
    exact Nat.lt_succ_of_le hle
  · rw [if_neg hskip] at h
    have hnot : p.skipToStateEvaluation = false := Bool.not_eq_true _ ▸ hskip
    have hvalue : ∀ v, (p.handleValue v).evaluateState = .goOn p' → p.lastToken.isLast = false →
        p'.remaining < p.remaining := by
      intro v hgo hlast
      have hle := evaluateState_goOn hgo ((handleValue_skip p v).trans hnot)
      rw [handleValue_lexer] at hle
      rw [remaining_of_token hlast]
      exact Nat.lt_succ_of_le hle
    have hempty : ∀ v, (p.getToken.handleValue v).evaluateState = .goOn p' →
        p.lastToken.isLast = false → p'.remaining < p.remaining := by
      intro v hgo hlast
      have hle := evaluateState_goOn hgo ((handleValue_skip p.getToken v).trans hnot)
      rw [handleValue_lexer] at hle
      rw [remaining_of_token hlast]
      exact Nat.lt_succ_of_le (Nat.le_trans hle (getToken_rest_le p))
    cases htoken : p.lastToken with
    | beginObject =>
      have hlast : p.lastToken.isLast = false := by rw [htoken]; rfl
      simp only [htoken] at h
      split at h
      · exact hempty _ h hlast
      · have hle := parseMember_goOn h hnot
        rw [remaining_of_token hlast]
        exact Nat.lt_succ_of_le (Nat.le_trans hle (getToken_rest_le p))
    | beginArray =>
      have hlast : p.lastToken.isLast = false := by rw [htoken]; rfl
      simp only [htoken] at h
      split at h
      · exact hempty _ h hlast
      · rw [← Turn.goOn.inj h, remaining_of_token hlast]
        exact Nat.lt_succ_of_le (getToken_remaining_le hnot)
    | valueFloat x =>
      simp only [htoken] at h
      split_ifs at h
      exact hvalue _ h (by rw [htoken]; rfl)
    | endOfInput =>
      simp only [htoken] at h
      split_ifs at h
    | parseError message =>
      simp only [htoken] at h
      cases h
    | literalFalse | literalNull | literalTrue | valueInteger z | valueString s | valueUnsigned u =>
      simp only [htoken] at h
      exact hvalue _ h (by rw [htoken]; rfl)
    | endArray | endObject | nameSeparator | valueSeparator =>
      simp only [htoken] at h
      cases h

/-! ### The whole loop -/

inductive Outcome where
  | value (j : Json) (rest : Str)
  | failure (failure : ParseFailure)

/-- `sax_parse_internal`; the bound on the turns is one it never reaches. -/
def run : (turns : ℕ) → (p : Parser) → p.remaining < turns → Outcome
  | 0, _, h => absurd h (Nat.not_lt_zero _)
  | turns + 1, p, h =>
    match hstep : p.step with
    | .goOn p' => run turns p' (Nat.lt_of_lt_of_le (step_goOn_lt hstep) (Nat.le_of_lt_succ h))
    | .done p' => .value p'.root p'.lexer.rest
    | .fail failure => .failure failure

def result (p : Parser) : Outcome := run (p.remaining + 1) p (Nat.lt_succ_self _)

/-- `skip_bom`; where it fails, what is left then and whether the input ended. -/
def skipBom : Str → Except (Str × Bool) Str
  | [] => .ok []
  | b :: rest =>
    if b = 0xEF then
      match rest with
      | [] => .error ([], true)
      | b₁ :: rest₁ =>
        if b₁ = 0xBB then
          match rest₁ with
          | [] => .error ([], true)
          | b₂ :: rest₂ => if b₂ = 0xBF then .ok rest₂ else .error (rest₂, false)
        else .error (rest₁, false)
    else .ok (b :: rest)

/- The parser with its first token read. Where there is no byte order mark,
`skip_bom` puts the first byte back. -/
def start (content : Str) : Parser :=
  let consumed := fun rest : Str => content.take (content.length - rest.length)
  let position := fun rest : Str => ({} : Position).getAll (consumed rest)
  match skipBom content with
  | .ok rest =>
    let skipped := if (consumed rest).isEmpty then (({} : Position).get content.head?).unget
      else position rest
    Parser.getToken ⟨.endOfInput, ⟨rest, skipped, consumed rest⟩, [], .null, false⟩
  | .error (rest, hitEnd) =>
    ⟨.parseError (lit "invalid BOM; must be 0xEF 0xBB 0xBF if given"),
      ⟨rest, if hitEnd then (position rest).get none else position rest, consumed rest⟩,
      [], .null, false⟩

/- An error behind the number is reported at line 1, column 0. -/
example : (start (lit "\x7b1\n")).getToken.lexer.position = ⟨2, 0, 0⟩ := rfl

/-- `parser(input_adapter(i)).parse(false, j)`. -/
def parse (content : Str) : Outcome := result (start content)

theorem run_turns {turns turns' : ℕ} {p : Parser} (h : p.remaining < turns)
    (h' : p.remaining < turns') : run turns p h = run turns' p h' := by
  induction turns generalizing p turns' with
  | zero => exact absurd h (Nat.not_lt_zero _)
  | succ turns ih =>
    cases turns' with
    | zero => exact absurd h' (Nat.not_lt_zero _)
    | succ turns' =>
      unfold run
      split
      · exact ih _ _
      · rfl
      · rfl

theorem result_of_goOn {p p' : Parser} (h : p.step = .goOn p') : result p = result p' := by
  unfold result
  rw [run]
  split
  · next q hstep =>
    obtain rfl : q = p' := Turn.goOn.inj (hstep.symm.trans h)
    exact run_turns _ _
  · next q hstep => cases hstep.symm.trans h
  · next failure hstep => cases hstep.symm.trans h

theorem result_of_done {p p' : Parser} (h : p.step = .done p') :
    result p = .value p'.root p'.lexer.rest := by
  unfold result
  rw [run]
  split
  · next q hstep => cases hstep.symm.trans h
  · next q hstep =>
    obtain rfl : q = p' := Turn.done.inj (hstep.symm.trans h)
    rfl
  · next failure hstep => cases hstep.symm.trans h

theorem result_of_fail {p : Parser} {failure : ParseFailure} (h : p.step = .fail failure) :
    result p = .failure failure := by
  unfold result
  rw [run]
  split
  · next q hstep => cases hstep.symm.trans h
  · next q hstep => cases hstep.symm.trans h
  · next failure' hstep => rw [Turn.fail.inj (hstep.symm.trans h)]

end

end Workflow.JsonReader
