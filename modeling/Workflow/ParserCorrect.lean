import Workflow.JsonParser
import Workflow.LexerCorrect

/-!
# The parser accepts exactly the grammar

A turn of the loop is read off the token at hand: what the whole loop does from
there on is a statement about the text that is left and the frames on the stack
(`Closes`). The three points at which the loop can be, at a value, behind one and
at a member, are proved together by induction on the length of that text
(`correct_at`).
-/

namespace Workflow.JsonText

open JsonReader

section
variable [FloatReader]

def Scans (s : Str) (t : Token) (r : Str) : Prop := (scan s).token = t ∧ (scan s).rest = r

/- What the frames still demand of the text behind the value `v`, until the whole
text is that of `j`. -/
def Closes : List Frame → Json → Str → Json → Str → Prop
  | [], v, s, j, r => v = j ∧ s = r
  | .array elements :: below, v, s, j, r =>
    ∃ xs s', Derives Scans (.moreElements xs) s s' ∧ Closes below (.array (elements ++ v :: xs)) s' j r
  | .object members key :: below, v, s, j, r =>
    ∃ ms s', Derives Scans (.moreMembers ms) s s' ∧
      Closes below (.object (addMembers members ((key, v) :: ms))) s' j r

/- What the loop comes to after a turn. -/
def outcome : Turn → Outcome
  | .goOn p => result p
  | .done p => .value p.root p.lexer.rest
  | .fail failure => .failure failure

theorem result_step (p : Parser) : result p = outcome p.step := by
  cases hstep : p.step with
  | goOn p' => exact result_of_goOn hstep
  | done p' => exact result_of_done hstep
  | fail failure => exact result_of_fail hstep

end

/-! ### The grammar by its next token -/

section
variable {tok : Str → Token → Str → Prop} {s r : Str}

theorem derives_value_iff {j : Json} :
    Derives tok (.value j) s r ↔ (∃ t, tok s t r ∧ scalar t = some j) ∨
      (∃ xs s₁, j = .array xs ∧ tok s .beginArray s₁ ∧ Derives tok (.elements xs) s₁ r) ∨
      (∃ ms s₁, j = .object (addMembers [] ms) ∧ tok s .beginObject s₁ ∧
        Derives tok (.members ms) s₁ r) := by
  constructor
  · intro h
    cases h with
    | scalar ht hscalar => exact .inl ⟨_, ht, hscalar⟩
    | array ht hxs => exact .inr (.inl ⟨_, _, rfl, ht, hxs⟩)
    | object ht hms => exact .inr (.inr ⟨_, _, rfl, ht, hms⟩)
  · rintro (⟨t, ht, hscalar⟩ | ⟨xs, s₁, rfl, ht, hxs⟩ | ⟨ms, s₁, rfl, ht, hms⟩)
    · exact .scalar ht hscalar
    · exact .array ht hxs
    · exact .object ht hms

theorem derives_elements_iff {xs : List Json} :
    Derives tok (.elements xs) s r ↔ (xs = [] ∧ tok s .endArray r) ∨
      ∃ x more s₁, xs = x :: more ∧ Derives tok (.value x) s s₁ ∧
        Derives tok (.moreElements more) s₁ r := by
  constructor
  · intro h
    cases h with
    | noElements ht => exact .inl ⟨rfl, ht⟩
    | elements hx hmore => exact .inr ⟨_, _, _, rfl, hx, hmore⟩
  · rintro (⟨rfl, ht⟩ | ⟨x, more, s₁, rfl, hx, hmore⟩)
    · exact .noElements ht
    · exact .elements hx hmore

theorem derives_moreElements_iff {xs : List Json} :
    Derives tok (.moreElements xs) s r ↔ (xs = [] ∧ tok s .endArray r) ∨
      ∃ s₁, tok s .valueSeparator s₁ ∧ ∃ x more s₂, xs = x :: more ∧
        Derives tok (.value x) s₁ s₂ ∧ Derives tok (.moreElements more) s₂ r := by
  constructor
  · intro h
    cases h with
    | lastElement ht => exact .inl ⟨rfl, ht⟩
    | nextElement ht hx hmore => exact .inr ⟨_, ht, _, _, _, rfl, hx, hmore⟩
  · rintro (⟨rfl, ht⟩ | ⟨s₁, ht, x, more, s₂, rfl, hx, hmore⟩)
    · exact .lastElement ht
    · exact .nextElement ht hx hmore

/- One member and what follows it. -/
def MemberText (tok : Str → Token → Str → Prop) (ms : List (Str × Json)) (s r : Str) : Prop :=
  ∃ k v more s₁ s₂ s₃, ms = (k, v) :: more ∧ tok s (.valueString k) s₁ ∧ tok s₁ .nameSeparator s₂ ∧
    Derives tok (.value v) s₂ s₃ ∧ Derives tok (.moreMembers more) s₃ r

theorem derives_members_iff {ms : List (Str × Json)} :
    Derives tok (.members ms) s r ↔ (ms = [] ∧ tok s .endObject r) ∨ MemberText tok ms s r := by
  constructor
  · intro h
    cases h with
    | noMembers ht => exact .inl ⟨rfl, ht⟩
    | members hkey hcolon hv hmore => exact .inr ⟨_, _, _, _, _, _, rfl, hkey, hcolon, hv, hmore⟩
  · rintro (⟨rfl, ht⟩ | ⟨k, v, more, s₁, s₂, s₃, rfl, hkey, hcolon, hv, hmore⟩)
    · exact .noMembers ht
    · exact .members hkey hcolon hv hmore

theorem derives_moreMembers_iff {ms : List (Str × Json)} :
    Derives tok (.moreMembers ms) s r ↔ (ms = [] ∧ tok s .endObject r) ∨
      ∃ s₁, tok s .valueSeparator s₁ ∧ MemberText tok ms s₁ r := by
  constructor
  · intro h
    cases h with
    | lastMember ht => exact .inl ⟨rfl, ht⟩
    | nextMember ht hkey hcolon hv hmore =>
      exact .inr ⟨_, ht, _, _, _, _, _, _, rfl, hkey, hcolon, hv, hmore⟩
  · rintro (⟨rfl, ht⟩ | ⟨s₁, ht, k, v, more, s₂, s₃, s₄, rfl, hkey, hcolon, hv, hmore⟩)
    · exact .lastMember ht
    · exact .nextMember ht hkey hcolon hv hmore

end

def beginsValue : Token → Bool
  | .beginArray => true
  | .beginObject => true
  | t => (scalar t).isSome

theorem begins_of_value {tok : Str → Token → Str → Prop} {j : Json} {s r : Str}
    (h : Derives tok (.value j) s r) : ∃ t s₁, tok s t s₁ ∧ beginsValue t = true := by
  rcases derives_value_iff.mp h with ⟨t, ht, hscalar⟩ | ⟨xs, s₁, -, ht, -⟩ | ⟨ms, s₁, -, ht, -⟩
  · refine ⟨t, r, ht, ?_⟩
    cases t <;> first | rfl | exact Option.isSome_of_eq_some hscalar
  · exact ⟨_, _, ht, rfl⟩
  · exact ⟨_, _, ht, rfl⟩

theorem begins_cases {t : Token} (h : beginsValue t = true) :
    t = .beginArray ∨ t = .beginObject ∨ ∃ v, scalar t = some v := by
  cases t with
  | beginArray => exact .inl rfl
  | beginObject => exact .inr (.inl rfl)
  | _ => exact .inr (.inr (Option.isSome_iff_exists.mp h))

theorem not_begins_of_last {t : Token} (h : t.isLast = true) : beginsValue t = false := by
  cases t <;> first | rfl | cases h

/-! ### The three points of the loop -/

section
variable [FloatReader]

theorem Scans.unique {s r r' : Str} {t t' : Token} (h : Scans s t r) (h' : Scans s t' r') :
    t = t' ∧ r = r' :=
  ⟨h.1.symm.trans h'.1, h.2.symm.trans h'.2⟩

theorem getToken_scans (p : Parser) :
    Scans p.lexer.rest p.getToken.lastToken p.getToken.lexer.rest := ⟨rfl, rfl⟩

/- What follows is settled by the next token. -/
section
variable {s s₁ : Str}

theorem derives_scalar {t : Token} {v : Json} {p : Json → Str → Prop} (ht : Scans s t s₁)
    (hscalar : scalar t = some v) : (∃ w s', Derives Scans (.value w) s s' ∧ p w s') ↔ p v s₁ := by
  constructor
  · intro ⟨w, s', hw, hp⟩
    rcases derives_value_iff.mp hw with ⟨t', ht', hsame⟩ | ⟨xs, s₂, -, ht', -⟩ | ⟨ms, s₂, -, ht', -⟩
    · obtain ⟨rfl, rfl⟩ := ht.unique ht'
      rw [Option.some.inj (hscalar.symm.trans hsame)]
      exact hp
    · rw [(ht.unique ht').1] at hscalar
      cases hscalar
    · rw [(ht.unique ht').1] at hscalar
      cases hscalar
  · intro hp
    exact ⟨v, s₁, .scalar ht hscalar, hp⟩

theorem derives_array {p : Json → Str → Prop} (ht : Scans s .beginArray s₁) :
    (∃ w s', Derives Scans (.value w) s s' ∧ p w s') ↔
      ∃ xs s', Derives Scans (.elements xs) s₁ s' ∧ p (.array xs) s' := by
  constructor
  · intro ⟨w, s', hw, hp⟩
    rcases derives_value_iff.mp hw with ⟨t, ht', hw⟩ | ⟨xs, s₂, rfl, ht', hxs⟩ | ⟨ms, s₂, -, ht', -⟩
    · rw [← (ht.unique ht').1] at hw
      cases hw
    · rw [← (ht.unique ht').2] at hxs
      exact ⟨xs, s', hxs, hp⟩
    · cases (ht.unique ht').1
  · intro ⟨xs, s', hxs, hp⟩
    exact ⟨.array xs, s', .array ht hxs, hp⟩

theorem derives_object {p : Json → Str → Prop} (ht : Scans s .beginObject s₁) :
    (∃ w s', Derives Scans (.value w) s s' ∧ p w s') ↔
      ∃ ms s', Derives Scans (.members ms) s₁ s' ∧ p (.object (addMembers [] ms)) s' := by
  constructor
  · intro ⟨w, s', hw, hp⟩
    rcases derives_value_iff.mp hw with ⟨t, ht', hw⟩ | ⟨xs, s₂, -, ht', -⟩ | ⟨ms, s₂, rfl, ht', hms⟩
    · rw [← (ht.unique ht').1] at hw
      cases hw
    · cases (ht.unique ht').1
    · rw [← (ht.unique ht').2] at hms
      exact ⟨ms, s', hms, hp⟩
  · intro ⟨ms, s', hms, hp⟩
    exact ⟨_, s', .object ht hms, hp⟩

theorem derives_noElements {p : List Json → Str → Prop} (ht : Scans s .endArray s₁) :
    (∃ xs s', Derives Scans (.elements xs) s s' ∧ p xs s') ↔ p [] s₁ := by
  constructor
  · intro ⟨xs, s', hxs, hp⟩
    rcases derives_elements_iff.mp hxs with ⟨rfl, ht'⟩ | ⟨x, more, s₂, -, hx, -⟩
    · rw [(ht.unique ht').2]
      exact hp
    · obtain ⟨t, s₃, ht', hbegins⟩ := begins_of_value hx
      rw [← (ht.unique ht').1] at hbegins
      cases hbegins
  · intro hp
    exact ⟨[], s₁, .noElements ht, hp⟩

theorem derives_elements {t : Token} {p : List Json → Str → Prop} (ht : Scans s t s₁)
    (hopen : t ≠ .endArray) :
    (∃ xs s', Derives Scans (.elements xs) s s' ∧ p xs s') ↔
      ∃ x s₂, Derives Scans (.value x) s s₂ ∧
        ∃ xs s', Derives Scans (.moreElements xs) s₂ s' ∧ p (x :: xs) s' := by
  constructor
  · intro ⟨xs, s', hxs, hp⟩
    rcases derives_elements_iff.mp hxs with ⟨-, ht'⟩ | ⟨x, more, s₂, rfl, hx, hmore⟩
    · exact absurd (ht.unique ht').1 hopen
    · exact ⟨x, s₂, hx, more, s', hmore, hp⟩
  · intro ⟨x, s₂, hx, more, s', hmore, hp⟩
    exact ⟨x :: more, s', .elements hx hmore, hp⟩

theorem derives_lastElement {p : List Json → Str → Prop} (ht : Scans s .endArray s₁) :
    (∃ xs s', Derives Scans (.moreElements xs) s s' ∧ p xs s') ↔ p [] s₁ := by
  constructor
  · intro ⟨xs, s', hxs, hp⟩
    rcases derives_moreElements_iff.mp hxs with ⟨rfl, ht'⟩ | ⟨s₂, ht', -⟩
    · rw [(ht.unique ht').2]
      exact hp
    · cases (ht.unique ht').1
  · intro hp
    exact ⟨[], s₁, .lastElement ht, hp⟩

theorem derives_nextElement {p : List Json → Str → Prop} (ht : Scans s .valueSeparator s₁) :
    (∃ xs s', Derives Scans (.moreElements xs) s s' ∧ p xs s') ↔
      ∃ x s₂, Derives Scans (.value x) s₁ s₂ ∧
        ∃ xs s', Derives Scans (.moreElements xs) s₂ s' ∧ p (x :: xs) s' := by
  constructor
  · intro ⟨xs, s', hxs, hp⟩
    rcases derives_moreElements_iff.mp hxs with ⟨-, ht'⟩ | ⟨s₂, ht', x, more, s₃, rfl, hx, hmore⟩
    · cases (ht.unique ht').1
    · rw [← (ht.unique ht').2] at hx
      exact ⟨x, s₃, hx, more, s', hmore, hp⟩
  · intro ⟨x, s₂, hx, more, s', hmore, hp⟩
    exact ⟨x :: more, s', .nextElement ht hx hmore, hp⟩

theorem not_derives_moreElements {t : Token} {xs : List Json} {s' : Str} (ht : Scans s t s₁)
    (hend : t ≠ .endArray) (hcomma : t ≠ .valueSeparator) :
    ¬ Derives Scans (.moreElements xs) s s' := by
  intro h
  rcases derives_moreElements_iff.mp h with ⟨-, ht'⟩ | ⟨s₂, ht', -⟩
  · exact hend (ht.unique ht').1
  · exact hcomma (ht.unique ht').1

theorem derives_noMembers {p : List (Str × Json) → Str → Prop} (ht : Scans s .endObject s₁) :
    (∃ ms s', Derives Scans (.members ms) s s' ∧ p ms s') ↔ p [] s₁ := by
  constructor
  · intro ⟨ms, s', hms, hp⟩
    rcases derives_members_iff.mp hms with ⟨rfl, ht'⟩ | ⟨k, v, more, s₂, -, -, -, ht', -⟩
    · rw [(ht.unique ht').2]
      exact hp
    · cases (ht.unique ht').1
  · intro hp
    exact ⟨[], s₁, .noMembers ht, hp⟩

theorem derives_members {t : Token} {p : List (Str × Json) → Str → Prop} (ht : Scans s t s₁)
    (hopen : t ≠ .endObject) :
    (∃ ms s', Derives Scans (.members ms) s s' ∧ p ms s') ↔
      ∃ ms s', MemberText Scans ms s s' ∧ p ms s' := by
  constructor
  · intro ⟨ms, s', hms, hp⟩
    rcases derives_members_iff.mp hms with ⟨-, ht'⟩ | hmember
    · exact absurd (ht.unique ht').1 hopen
    · exact ⟨ms, s', hmember, hp⟩
  · intro ⟨ms, s', hmember, hp⟩
    exact ⟨ms, s', derives_members_iff.mpr (.inr hmember), hp⟩

theorem derives_lastMember {p : List (Str × Json) → Str → Prop} (ht : Scans s .endObject s₁) :
    (∃ ms s', Derives Scans (.moreMembers ms) s s' ∧ p ms s') ↔ p [] s₁ := by
  constructor
  · intro ⟨ms, s', hms, hp⟩
    rcases derives_moreMembers_iff.mp hms with ⟨rfl, ht'⟩ | ⟨s₂, ht', -⟩
    · rw [(ht.unique ht').2]
      exact hp
    · cases (ht.unique ht').1
  · intro hp
    exact ⟨[], s₁, .lastMember ht, hp⟩

theorem derives_nextMember {p : List (Str × Json) → Str → Prop} (ht : Scans s .valueSeparator s₁) :
    (∃ ms s', Derives Scans (.moreMembers ms) s s' ∧ p ms s') ↔
      ∃ ms s', MemberText Scans ms s₁ s' ∧ p ms s' := by
  constructor
  · intro ⟨ms, s', hms, hp⟩
    rcases derives_moreMembers_iff.mp hms with ⟨-, ht'⟩ | ⟨s₂, ht', hmember⟩
    · cases (ht.unique ht').1
    · rw [← (ht.unique ht').2] at hmember
      exact ⟨ms, s', hmember, hp⟩
  · intro ⟨ms, s', hmember, hp⟩
    exact ⟨ms, s', derives_moreMembers_iff.mpr (.inr ⟨s₁, ht, hmember⟩), hp⟩

theorem not_derives_moreMembers {t : Token} {ms : List (Str × Json)} {s' : Str} (ht : Scans s t s₁)
    (hend : t ≠ .endObject) (hcomma : t ≠ .valueSeparator) :
    ¬ Derives Scans (.moreMembers ms) s s' := by
  intro h
  rcases derives_moreMembers_iff.mp h with ⟨-, ht'⟩ | ⟨s₂, ht', -⟩
  · exact hend (ht.unique ht').1
  · exact hcomma (ht.unique ht').1

end

/- The token at hand begins a value. -/
def AtValue (p : Parser) : Prop :=
  ∀ s j r, p.skipToStateEvaluation = false → Scans s p.lastToken p.lexer.rest →
    (result p = .value j r ↔ ∃ v s', Derives Scans (.value v) s s' ∧ Closes p.frames v s' j r)

/- The value `v` has been read. -/
def BehindValue (p : Parser) : Prop :=
  ∀ v j r, p.skipToStateEvaluation = false →
    (outcome (p.handleValue v).evaluateState = .value j r ↔ Closes p.frames v p.lexer.rest j r)

/- The token at hand begins a member. -/
def AtMember (p : Parser) : Prop :=
  ∀ members below s j r, p.skipToStateEvaluation = false → Scans s p.lastToken p.lexer.rest →
    (outcome (p.parseMember members below) = .value j r ↔
      ∃ ms s', MemberText Scans ms s s' ∧ Closes below (.object (addMembers members ms)) s' j r)

/- With such a token the loop fails. -/
theorem result_ne_value {p : Parser} (hskip : p.skipToStateEvaluation = false)
    (h : beginsValue p.lastToken = false) (j : Json) (r : Str) : result p ≠ .value j r := by
  rw [result_step]
  unfold Parser.step
  rw [hskip, if_neg Bool.false_ne_true]
  cases htoken : p.lastToken with
  | beginArray | beginObject | literalTrue | literalFalse | literalNull | valueString
    | valueUnsigned | valueInteger =>
    rw [htoken] at h
    cases h
  | valueFloat x =>
    have hx : isFinite x = false := by
      rw [htoken] at h
      by_contra hfinite
      simp only [beginsValue, scalar, Bool.not_eq_false _ ▸ hfinite] at h
      cases h
    simp only [hx]
    exact nofun
  | endOfInput =>
    simp only
    split_ifs <;> exact nofun
  | _ => exact nofun

theorem atValue_of_not_begins {p : Parser} (h : beginsValue p.lastToken = false) : AtValue p := by
  intro s j r hskip hscans
  constructor
  · intro hvalue
    exact absurd hvalue (result_ne_value hskip h j r)
  · rintro ⟨v, s', hv, -⟩
    obtain ⟨t, s₁, ht, hbegins⟩ := begins_of_value hv
    rw [(hscans.unique ht).1, hbegins] at h
    cases h

theorem atValue_of_scalar {p : Parser} {v : Json} (hbehind : BehindValue p)
    (hscalar : scalar p.lastToken = some v) : AtValue p := by
  intro s j r hskip hscans
  have hstep : p.step = (p.handleValue v).evaluateState := by
    unfold Parser.step
    rw [hskip, if_neg Bool.false_ne_true]
    cases htoken : p.lastToken with
    | valueFloat x =>
      rw [htoken] at hscalar
      simp only [scalar] at hscalar
      split_ifs at hscalar with hfinite
      rw [← Option.some.inj hscalar]
      simp only [if_pos hfinite]
    | literalTrue | literalFalse | literalNull | valueString | valueUnsigned | valueInteger =>
      rw [htoken] at hscalar
      rw [← Option.some.inj hscalar]
    | _ =>
      rw [htoken] at hscalar
      cases hscalar
  rw [result_step, hstep, hbehind v j r hskip]
  exact (derives_scalar (p := fun w s' => Closes p.frames w s' j r) hscans hscalar).symm

theorem step_beginArray {p q : Parser} (hskip : p.skipToStateEvaluation = false)
    (htoken : p.lastToken = .beginArray) (hq : p.getToken = q) (hopen : q.lastToken ≠ .endArray) :
    p.step = .goOn { q with frames := .array [] :: q.frames } := by
  unfold Parser.step
  rw [hskip, if_neg Bool.false_ne_true]
  simp only [htoken, hq]

theorem step_emptyArray {p q : Parser} (hskip : p.skipToStateEvaluation = false)
    (htoken : p.lastToken = .beginArray) (hq : p.getToken = q) (hclosed : q.lastToken = .endArray) :
    p.step = (q.handleValue (.array [])).evaluateState := by
  unfold Parser.step
  rw [hskip, if_neg Bool.false_ne_true]
  simp only [htoken, hq, hclosed]

theorem step_beginObject {p q : Parser} (hskip : p.skipToStateEvaluation = false)
    (htoken : p.lastToken = .beginObject) (hq : p.getToken = q) (hopen : q.lastToken ≠ .endObject) :
    p.step = q.parseMember [] q.frames := by
  unfold Parser.step
  rw [hskip, if_neg Bool.false_ne_true]
  simp only [htoken, hq]

theorem step_emptyObject {p q : Parser} (hskip : p.skipToStateEvaluation = false)
    (htoken : p.lastToken = .beginObject) (hq : p.getToken = q) (hclosed : q.lastToken = .endObject) :
    p.step = (q.handleValue (.object [])).evaluateState := by
  unfold Parser.step
  rw [hskip, if_neg Bool.false_ne_true]
  simp only [htoken, hq, hclosed]

theorem atValue_of_array {p q : Parser} (htoken : p.lastToken = .beginArray) (hq : p.getToken = q)
    (hbehind : q.lastToken = .endArray → BehindValue q)
    (hat : AtValue { q with frames := .array [] :: q.frames }) : AtValue p := by
  intro s j r hskip hscans
  rw [htoken] at hscans
  have hnext : Scans p.lexer.rest q.lastToken q.lexer.rest := hq ▸ getToken_scans p
  have hframes : q.frames = p.frames := hq ▸ rfl
  have hqskip : q.skipToStateEvaluation = false := hq ▸ hskip
  rw [derives_array (p := fun w s' => Closes p.frames w s' j r) hscans, result_step, ← hframes]
  by_cases hclosed : q.lastToken = .endArray
  · rw [step_emptyArray hskip htoken hq hclosed,
      derives_noElements (p := fun xs s' => Closes q.frames (.array xs) s' j r) (hclosed ▸ hnext)]
    exact hbehind hclosed (.array []) j r hqskip
  · rw [step_beginArray hskip htoken hq hclosed,
      derives_elements (p := fun xs s' => Closes q.frames (.array xs) s' j r) hnext hclosed]
    exact hat p.lexer.rest j r hqskip hnext

theorem atValue_of_object {p q : Parser} (htoken : p.lastToken = .beginObject) (hq : p.getToken = q)
    (hbehind : q.lastToken = .endObject → BehindValue q) (hat : AtMember q) : AtValue p := by
  intro s j r hskip hscans
  rw [htoken] at hscans
  have hnext : Scans p.lexer.rest q.lastToken q.lexer.rest := hq ▸ getToken_scans p
  have hframes : q.frames = p.frames := hq ▸ rfl
  have hqskip : q.skipToStateEvaluation = false := hq ▸ hskip
  rw [derives_object (p := fun w s' => Closes p.frames w s' j r) hscans, result_step, ← hframes]
  by_cases hclosed : q.lastToken = .endObject
  · rw [step_emptyObject hskip htoken hq hclosed, derives_noMembers
      (p := fun ms s' => Closes q.frames (.object (addMembers [] ms)) s' j r) (hclosed ▸ hnext)]
    exact hbehind hclosed (.object []) j r hqskip
  · rw [step_beginObject hskip htoken hq hclosed, derives_members
      (p := fun ms s' => Closes q.frames (.object (addMembers [] ms)) s' j r) hnext hclosed]
    exact hat [] q.frames p.lexer.rest j r hqskip hnext

/-! ### Behind a value, and at a member -/

/- An array or object is closed: its value stands where it began. -/
theorem behindValue_closed {q : Parser} {below : List Frame} {v : Json} {j : Json} {r : Str}
    (hbehind : ∀ q' : Parser, q'.lexer = q.lexer → BehindValue q') :
    outcome (.goOn (({ q with frames := below, skipToStateEvaluation := true }).handleValue v)) =
      .value j r ↔ Closes below v q.lexer.rest j r := by
  have hspec := hbehind { q with frames := below, skipToStateEvaluation := false } rfl v j r rfl
  rw [← hspec]
  show result _ = _ ↔ _
  rw [result_step]
  unfold Parser.step
  rw [handleValue_skip, if_pos rfl]
  cases below with
  | nil => exact Iff.rfl
  | cons frame below => cases frame <;> exact Iff.rfl

theorem evaluateState_array {p q : Parser} {elements : List Json} {below : List Frame}
    (hframes : p.frames = .array elements :: below) (hq : p.getToken = q) :
    p.evaluateState = match q.lastToken with
      | .valueSeparator => .goOn q.getToken
      | .endArray =>
        .goOn (({ q with frames := below, skipToStateEvaluation := true }).handleValue
          (.array elements))
      | _ => .fail (q.syntaxError (.token .endArray) (lit "array")) := by
  obtain ⟨token, lexer, frames, root, skip⟩ := p
  obtain rfl : frames = _ := hframes
  subst hq
  rfl

theorem evaluateState_object {p q : Parser} {members : List (Str × Json)} {key : Str}
    {below : List Frame} (hframes : p.frames = .object members key :: below) (hq : p.getToken = q) :
    p.evaluateState = match q.lastToken with
      | .valueSeparator => q.getToken.parseMember members below
      | .endObject =>
        .goOn (({ q with frames := below, skipToStateEvaluation := true }).handleValue
          (.object members))
      | _ => .fail (q.syntaxError (.token .endObject) (lit "object")) := by
  obtain ⟨token, lexer, frames, root, skip⟩ := p
  obtain rfl : frames = _ := hframes
  subst hq
  rfl

theorem closes_array {elements : List Json} {below : List Frame} {v x : Json} {s j r} :
    Closes (.array (elements ++ [v]) :: below) x s j r ↔
      ∃ xs s', Derives Scans (.moreElements xs) s s' ∧
        Closes below (.array (elements ++ v :: x :: xs)) s' j r := by
  simp only [Closes, List.append_assoc, List.singleton_append]

/- What is true wherever less text is left. -/
def CorrectBelow (n : ℕ) : Prop :=
  ∀ p : Parser, p.lexer.rest.length < n → BehindValue p ∧ AtMember p ∧ AtValue p

theorem behindValue_array {p : Parser} {elements : List Json} {below : List Frame}
    (h : CorrectBelow p.lexer.rest.length) (hframes : p.frames = .array elements :: below)
    (hskip : p.skipToStateEvaluation = false) (v j : Json) (r : Str) :
    outcome (p.handleValue v).evaluateState = .value j r ↔
      Closes (.array elements :: below) v p.lexer.rest j r := by
  have hplaced : p.handleValue v = { p with frames := .array (elements ++ [v]) :: below } := by
    simp only [Parser.handleValue, hframes]
  obtain ⟨q, hq⟩ : ∃ q, (p.handleValue v).getToken = q := ⟨_, rfl⟩
  have hnext : Scans p.lexer.rest q.lastToken q.lexer.rest := by
    rw [← hq, hplaced]
    exact ⟨rfl, rfl⟩
  have hqskip : q.skipToStateEvaluation = false := by
    rw [← hq, hplaced]
    exact hskip
  have hqframes : q.frames = .array (elements ++ [v]) :: below := by
    rw [← hq, hplaced]
    rfl
  have hshorter : q.lastToken.isLast = false → q.lexer.rest.length < p.lexer.rest.length := by
    rw [← hnext.1, ← hnext.2]
    exact scan_rest_lt
  have hmore : ∀ s, (Closes (.array elements :: below) v s j r ↔ ∃ xs s',
      Derives Scans (.moreElements xs) s s' ∧ Closes below (.array (elements ++ v :: xs)) s' j r) :=
    fun _ => Iff.rfl
  rw [evaluateState_array (congrArg Parser.frames hplaced) hq, hmore]
  by_cases hcomma : q.lastToken = .valueSeparator
  · have hless := hshorter (by rw [hcomma]; rfl)
    have hvalue : AtValue q.getToken :=
      (h q.getToken (Nat.lt_of_le_of_lt (getToken_rest_le q) hless)).2.2
    rw [derives_nextElement (p := fun xs s' => Closes below (.array (elements ++ v :: xs)) s' j r)
      (hcomma ▸ hnext)]
    simp only [hcomma]
    have hspec := hvalue q.lexer.rest j r hqskip (getToken_scans q)
    rw [show q.getToken.frames = .array (elements ++ [v]) :: below from hqframes] at hspec
    simp only [closes_array] at hspec
    exact hspec
  · by_cases hend : q.lastToken = .endArray
    · have hless := hshorter (by rw [hend]; rfl)
      rw [derives_lastElement (p := fun xs s' => Closes below (.array (elements ++ v :: xs)) s' j r)
        (hend ▸ hnext)]
      simp only [hend]
      exact behindValue_closed (q := { q with lastToken := .endArray })
        fun q' hq' => (h q' (hq' ▸ hless)).1
    · have hnone : ∀ xs s', ¬ Derives Scans (.moreElements xs) p.lexer.rest s' :=
        fun _ _ => not_derives_moreElements hnext hend hcomma
      simp only [outcome, hnone, false_and, exists_false, reduceCtorEq]

theorem behindValue_object {p : Parser} {members : List (Str × Json)} {key : Str} {below : List Frame}
    (h : CorrectBelow p.lexer.rest.length) (hframes : p.frames = .object members key :: below)
    (hskip : p.skipToStateEvaluation = false) (v j : Json) (r : Str) :
    outcome (p.handleValue v).evaluateState = .value j r ↔
      Closes (.object members key :: below) v p.lexer.rest j r := by
  have hplaced :
      p.handleValue v = { p with frames := .object (insertEntry key v members) key :: below } := by
    simp only [Parser.handleValue, hframes]
  obtain ⟨q, hq⟩ : ∃ q, (p.handleValue v).getToken = q := ⟨_, rfl⟩
  have hnext : Scans p.lexer.rest q.lastToken q.lexer.rest := by
    rw [← hq, hplaced]
    exact ⟨rfl, rfl⟩
  have hqskip : q.skipToStateEvaluation = false := by
    rw [← hq, hplaced]
    exact hskip
  have hshorter : q.lastToken.isLast = false → q.lexer.rest.length < p.lexer.rest.length := by
    rw [← hnext.1, ← hnext.2]
    exact scan_rest_lt
  have hmore : ∀ s, (Closes (.object members key :: below) v s j r ↔ ∃ ms s',
      Derives Scans (.moreMembers ms) s s' ∧
        Closes below (.object (addMembers (insertEntry key v members) ms)) s' j r) :=
    fun _ => Iff.rfl
  rw [evaluateState_object (congrArg Parser.frames hplaced) hq, hmore]
  by_cases hcomma : q.lastToken = .valueSeparator
  · have hless := hshorter (by rw [hcomma]; rfl)
    have hmember : AtMember q.getToken :=
      (h q.getToken (Nat.lt_of_le_of_lt (getToken_rest_le q) hless)).2.1
    rw [derives_nextMember (p := fun ms s' =>
      Closes below (.object (addMembers (insertEntry key v members) ms)) s' j r) (hcomma ▸ hnext)]
    simp only [hcomma]
    exact hmember _ below q.lexer.rest j r hqskip (getToken_scans q)
  · by_cases hend : q.lastToken = .endObject
    · have hless := hshorter (by rw [hend]; rfl)
      rw [derives_lastMember (p := fun ms s' =>
        Closes below (.object (addMembers (insertEntry key v members) ms)) s' j r) (hend ▸ hnext)]
      simp only [hend]
      exact behindValue_closed (q := { q with lastToken := .endObject })
        fun q' hq' => (h q' (hq' ▸ hless)).1
    · have hnone : ∀ ms s', ¬ Derives Scans (.moreMembers ms) p.lexer.rest s' :=
        fun _ _ => not_derives_moreMembers hnext hend hcomma
      simp only [outcome, hnone, false_and, exists_false, reduceCtorEq]

theorem behindValue_of_below {p : Parser} (h : CorrectBelow p.lexer.rest.length) : BehindValue p := by
  intro v j r hskip
  cases hframes : p.frames with
  | nil =>
    have hdone : outcome (p.handleValue v).evaluateState = .value v p.lexer.rest := by
      simp only [Parser.handleValue, hframes, Parser.evaluateState, outcome]
    rw [hdone]
    exact Outcome.value.injEq v p.lexer.rest j r ▸ Iff.rfl
  | cons frame below =>
    cases frame with
    | array elements => exact behindValue_array h hframes hskip v j r
    | object members key => exact behindValue_object h hframes hskip v j r

theorem parseMember_key {p q : Parser} {key : Str} (htoken : p.lastToken = .valueString key)
    (hq : p.getToken = q) (hcolon : q.lastToken = .nameSeparator) (members : List (Str × Json))
    (below : List Frame) : p.parseMember members below =
      .goOn ({ q with frames := .object members key :: below } : Parser).getToken := by
  unfold Parser.parseMember
  rw [htoken]
  simp only [hq]
  rw [hcolon]

/- Without a key and a colon there is no member. -/
theorem parseMember_fails {p : Parser} (members : List (Str × Json)) (below : List Frame)
    (h : ∀ key, p.lastToken = .valueString key → p.getToken.lastToken ≠ .nameSeparator) :
    ∃ failure, p.parseMember members below = .fail failure := by
  unfold Parser.parseMember
  split
  · next key hkey =>
    simp only
    split
    · next hcolon => exact absurd hcolon (h key hkey)
    · exact ⟨_, rfl⟩
  · exact ⟨_, rfl⟩

theorem atMember_of_below {p : Parser}
    (h : p.lastToken.isLast = false → CorrectBelow p.lexer.rest.length) : AtMember p := by
  intro members below s j r hskip hscans
  obtain ⟨q, hq⟩ : ∃ q, p.getToken = q := ⟨_, rfl⟩
  have hnext : Scans p.lexer.rest q.lastToken q.lexer.rest := hq ▸ getToken_scans p
  by_cases hmember : ∃ key, p.lastToken = .valueString key ∧ q.lastToken = .nameSeparator
  · obtain ⟨key, hkey, hcolon⟩ := hmember
    rw [hkey] at hscans
    rw [hcolon] at hnext
    have hless : q.lexer.rest.length < p.lexer.rest.length := by
      rw [← hnext.2]
      exact scan_rest_lt (by rw [hnext.1]; rfl)
    obtain ⟨q', hq'⟩ : ∃ q', q' = { q with frames := .object members key :: below } := ⟨_, rfl⟩
    have hlexer : q'.lexer = q.lexer := by rw [hq']
    have hvalue : AtValue q'.getToken := by
      have hnot : p.lastToken.isLast = false := by rw [hkey]; rfl
      refine (h hnot q'.getToken (Nat.lt_of_le_of_lt (getToken_rest_le q') ?_)).2.2
      rw [hlexer]
      exact hless
    have hqskip : q'.getToken.skipToStateEvaluation = false := by
      rw [hq', ← hq]
      exact hskip
    have hspec := hvalue q.lexer.rest j r hqskip (hlexer ▸ getToken_scans q')
    have hframes : q'.getToken.frames = .object members key :: below := by
      rw [hq']
      rfl
    rw [hframes] at hspec
    rw [parseMember_key hkey hq hcolon, ← hq']
    refine Iff.trans hspec ?_
    constructor
    · intro ⟨v, s₃, hv, more, s', hmore, hcloses⟩
      exact ⟨(key, v) :: more, s', ⟨key, v, more, _, _, s₃, rfl, hscans, hnext, hv, hmore⟩, hcloses⟩
    · rintro ⟨ms, s', ⟨k, v, more, s₁, s₂, s₃, rfl, hk, hc, hv, hmore⟩, hcloses⟩
      obtain ⟨hsame, rfl⟩ := hscans.unique hk
      obtain ⟨-, rfl⟩ := hnext.unique hc
      rw [← Token.valueString.inj hsame] at hcloses
      exact ⟨v, s₃, hv, more, s', hmore, hcloses⟩
  · obtain ⟨failure, hfail⟩ := parseMember_fails (p := p) members below (by
      intro key hkey hcolon
      rw [hq] at hcolon
      exact hmember ⟨key, hkey, hcolon⟩)
    rw [hfail]
    constructor
    · intro hvalue
      cases hvalue
    · rintro ⟨ms, s', ⟨k, v, more, s₁, s₂, s₃, -, hk, hc, -, -⟩, -⟩
      obtain ⟨hkey, rfl⟩ := hscans.unique hk
      exact absurd ⟨k, hkey, (hnext.unique hc).1⟩ hmember

theorem atValue_of_below {p : Parser} (h : CorrectBelow p.lexer.rest.length) : AtValue p := by
  have hbehind := behindValue_of_below h
  have hshorter : p.getToken.lastToken.isLast = false →
      p.getToken.lexer.rest.length < p.lexer.rest.length := scan_rest_lt
  by_cases hbegins : beginsValue p.lastToken = true
  · rcases begins_cases hbegins with harray | hobject | ⟨v, hscalar⟩
    · refine atValue_of_array harray rfl ?_ ?_
      · intro hend
        exact (h _ (hshorter (by rw [hend]; rfl))).1
      · cases hlast : p.getToken.lastToken.isLast with
        | false =>
          have hat := h { p.getToken with frames := .array [] :: p.frames } (hshorter hlast)
          exact hat.2.2
        | true => exact atValue_of_not_begins (not_begins_of_last hlast)
    · refine atValue_of_object hobject rfl ?_ ?_
      · intro hend
        exact (h _ (hshorter (by rw [hend]; rfl))).1
      · apply atMember_of_below
        intro hlast p' hp'
        exact h p' (Nat.lt_trans hp' (hshorter hlast))
    · exact atValue_of_scalar hbehind hscalar
  · exact atValue_of_not_begins (Bool.not_eq_true _ ▸ hbegins)

theorem correct_below (n : ℕ) : CorrectBelow n := by
  induction n with
  | zero =>
    intro p hp
    exact absurd hp (Nat.not_lt_zero _)
  | succ n ih =>
    intro p hp
    have hbelow : CorrectBelow p.lexer.rest.length :=
      fun p' hp' => ih p' (Nat.lt_of_lt_of_le hp' (Nat.le_of_lt_succ hp))
    exact ⟨behindValue_of_below hbelow, atMember_of_below fun _ => hbelow, atValue_of_below hbelow⟩

theorem result_value_iff {p : Parser} (hskip : p.skipToStateEvaluation = false)
    (hframes : p.frames = []) {s : Str} (hscans : Scans s p.lastToken p.lexer.rest) (j : Json)
    (r : Str) : result p = .value j r ↔ Derives Scans (.value j) s r := by
  have hat := (correct_below _ p (Nat.lt_succ_self _)).2.2 s j r hskip hscans
  rw [hat, hframes]
  constructor
  · rintro ⟨v, s', hv, rfl, rfl⟩
    exact hv
  · intro hj
    exact ⟨j, r, hj, rfl, rfl⟩

theorem derives_scans_iff (j : Json) (s r : Str) :
    Derives Scans (.value j) s r ↔ Derives Reads (.value j) s r ∧ Separated s r := by
  rw [← derives_lexes_iff]
  constructor
  · exact derives_mono fun hlast h => (scan_iff _ _ _).mp ⟨hlast, h.1, h.2⟩
  · exact derives_mono fun _ h => ((scan_iff _ _ _).mpr h).2

end

/-! ### The whole content -/

def byteOrderMark : Str := [0xEF, 0xBB, 0xBF]

theorem skipBom_iff (content rest : Str) :
    skipBom content = .ok rest ↔ content = byteOrderMark ++ rest ∨
      rest = content ∧ ∀ tail, content ≠ 0xEF :: tail := by
  constructor
  · intro h
    unfold skipBom at h
    split at h
    · exact .inr ⟨(Except.ok.inj h).symm, nofun⟩
    · next b more =>
      split_ifs at h with hb
      · left
        split at h
        · cases h
        · next b₁ more₁ =>
          split_ifs at h with hb₁
          split at h
          · cases h
          · next b₂ more₂ =>
            split_ifs at h with hb₂
            rw [hb, hb₁, hb₂, Except.ok.inj h]
            rfl
      · right
        refine ⟨(Except.ok.inj h).symm, ?_⟩
        intro tail heq
        exact hb (List.cons.inj heq).1
  · rintro (rfl | ⟨rfl, hnot⟩)
    · rfl
    · unfold skipBom
      cases rest with
      | nil => rfl
      | cons b more =>
        have hb : b ≠ 0xEF := fun heq => hnot more (by rw [heq])
        simp only [if_neg hb]

section
variable [FloatReader]

theorem parse_of_ok {content rest : Str} (h : skipBom content = .ok rest) (j : Json) (r : Str) :
    parse content = .value j r ↔ Derives Scans (.value j) rest r := by
  unfold parse
  apply result_value_iff
  · unfold start
    rw [h]
    rfl
  · unfold start
    rw [h]
    rfl
  · unfold start
    rw [h]
    exact ⟨rfl, rfl⟩

theorem parse_of_error {content : Str} {e : Str × Bool} (h : skipBom content = .error e) (j : Json)
    (r : Str) : parse content ≠ .value j r := by
  unfold parse
  apply result_ne_value
  · unfold start
    rw [h]
  · unfold start
    rw [h]
    rfl

theorem ascii_of_derives {j : Json} {s r : Str} (h : Derives Reads (.value j) s r) :
    ∃ b tail, s = b :: tail ∧ b.val < 128 := by
  obtain ⟨t, s₁, ht, -⟩ := begins_of_value h
  exact ascii_of_reads ht

/- What `file >> j` reads is the longest text of a value at the start of the
content, behind a byte order mark if there is one. -/
theorem parse_value_iff (content : Str) (j : Json) (r : Str) :
    parse content = .value j r ↔ ∃ mark text, (mark = [] ∨ mark = byteOrderMark) ∧
      content = mark ++ text ++ r ∧ Denotes text j ∧ Separated (text ++ r) r := by
  have hvalue : ∀ rest, skipBom content = .ok rest → (parse content = .value j r ↔
      Derives Reads (.value j) rest r ∧ Separated rest r) := by
    intro rest hrest
    rw [parse_of_ok hrest, derives_scans_iff]
  constructor
  · intro h
    cases hskip : skipBom content with
    | error e => exact absurd h (parse_of_error hskip j r)
    | ok rest =>
      obtain ⟨hderives, hsep⟩ := (hvalue rest hskip).mp h
      obtain ⟨text, rfl, htext⟩ := denotes_of_derives hderives
      rcases (skipBom_iff content _).mp hskip with hmark | ⟨hnone, -⟩
      · exact ⟨byteOrderMark, text, .inr rfl, by rw [hmark, List.append_assoc], htext, hsep⟩
      · exact ⟨[], text, .inl rfl, hnone.symm, htext, hsep⟩
  · intro ⟨mark, text, hmark, hcontent, htext, hsep⟩
    have hderives := derives_of_denotes htext r
    refine (hvalue (text ++ r) ?_).mpr ⟨hderives, hsep⟩
    rw [skipBom_iff]
    rw [List.append_assoc] at hcontent
    cases hmark with
    | inl hnone =>
      rw [hnone] at hcontent
      refine .inr ⟨hcontent.symm, ?_⟩
      intro tail heq
      obtain ⟨b, more, hcons, hascii⟩ := ascii_of_derives hderives
      rw [hcontent, List.nil_append, hcons] at heq
      rw [(List.cons.inj heq).1] at hascii
      revert hascii
      decide
    | inr hbom =>
      rw [hbom] at hcontent
      exact .inl hcontent

end

end Workflow.JsonText
