import Workflow.ConfigLoading
import Workflow.Engine

/-!
# What a file's content loads to (WorkflowConfig.cpp:11-28)

`file >> j` reads the value at the start of the content and leaves the rest
unread. The grammar and the reader of the vendored json.hpp are parameters of
this module: `denotes text j` says that `text` alone is the text of `j`, and
`lead` what the reader makes of a content. `FileFormat` has the two themselves.
-/

namespace Workflow.WorkflowConfig

open WorkflowSchema

inductive Extraction where
  | value (j : Json) (rest : Str)
  | parseError (id : Int32) (what : Str)
  /-- `out_of_range` 406: a number overflows a double. -/
  | outOfRange (what : Str)

/-- The outcome of `file >> j`, which says nothing of what was not read. -/
def Extraction.outcome : Extraction → Except ExtractError Json
  | .value j _ => .ok j
  | .parseError id what => .error (.parseError id what)
  | .outOfRange what => .error (.other (.std what))

/-- What the reader skips before a token (json.hpp:8897). -/
def IsBlank (s : Str) : Prop := ∀ b ∈ s, b ∈ lit " \t\n\r"

instance (s : Str) : Decidable (IsBlank s) := inferInstanceAs (Decidable (∀ b ∈ s, b ∈ lit " \t\n\r"))

/-- Skipped once at the start of the content (json.hpp:8883). -/
def byteOrderMark : Str := [0xEF, 0xBB, 0xBF]

/-- The whole content is one JSON text with only whitespace around it. -/
def IsDocument (denotes : Str → Json → Prop) (content : Str) (j : Json) : Prop :=
  ∃ before text after, IsBlank before ∧ IsBlank after ∧ content = before ++ text ++ after ∧
    denotes text j

/-- Stream extraction, as the library documents it (`lead_reads`). -/
structure ReadsLeadingValue (denotes : Str → Json → Prop) (lead : Str → Extraction) : Prop where
  /-- A JSON text starts with an ASCII byte. -/
  head : ∀ text j, denotes text j → ∃ b tail, text = b :: tail ∧ b.val < 128
  leading : ∀ content j rest, lead content = .value j rest →
    ∃ mark before text, (mark = [] ∨ mark = byteOrderMark) ∧ IsBlank before ∧
      content = mark ++ before ++ text ++ rest ∧ denotes text j
  whole : ∀ before text after j, IsBlank before → IsBlank after → denotes text j →
    lead (before ++ text ++ after) = .value j after

section

variable {denotes : Str → Json → Prop} {lead : Str → Extraction}

theorem ReadsLeadingValue.of_document (h : ReadsLeadingValue denotes lead) {content : Str} {j : Json}
    (hdoc : IsDocument denotes content j) :
    ∃ after, IsBlank after ∧ lead content = .value j after := by
  obtain ⟨before, text, after, hbefore, hafter, hcontent, htext⟩ := hdoc
  exact ⟨after, hafter, by rw [hcontent]; exact h.whole before text after j hbefore hafter htext⟩

theorem not_mark_of_document (h : ReadsLeadingValue denotes lead) {content : Str} {j : Json}
    (hdoc : IsDocument denotes content j) : ¬ byteOrderMark <+: content := by
  obtain ⟨before, text, after, hbefore, -, hcontent, htext⟩ := hdoc
  intro ⟨tail, htail⟩
  rw [← htail] at hcontent
  cases before with
  | cons b before =>
    have hb : (0xEF : Byte) = b := (List.cons.inj hcontent).1
    have hblank := hbefore b List.mem_cons_self
    rw [← hb] at hblank
    revert hblank
    decide
  | nil =>
    obtain ⟨b, text', htext', hascii⟩ := h.head text j htext
    rw [htext'] at hcontent
    have hb : (0xEF : Byte) = b := (List.cons.inj hcontent).1
    have hval : (239 : ℕ) = b.val := congrArg Fin.val hb
    omega

/- Nothing before the value but whitespace, nothing after it but whitespace. -/
theorem ReadsLeadingValue.document (h : ReadsLeadingValue denotes lead) {content rest : Str} {j : Json}
    (hlead : lead content = .value j rest) (hrest : IsBlank rest)
    (hmark : ¬ byteOrderMark <+: content) : IsDocument denotes content j := by
  obtain ⟨mark, before, text, hskipped, hbefore, hcontent, htext⟩ := h.leading content j rest hlead
  cases hskipped with
  | inl hnone =>
    exact ⟨before, text, rest, hbefore, hrest, by rw [hcontent, hnone]; rfl, htext⟩
  | inr hbom =>
    exact absurd ⟨before ++ text ++ rest, by rw [hcontent, hbom]; simp⟩ hmark

end

/-! ### Loading a content -/

/-- What a content may not be: one in which the reader meets a number that
overflows, be the value around it complete or broken off later, or one whose
leading value satisfies the schema and has a byte order mark before it or
something other than whitespace behind it. -/
def HoldsNothingElse (lead : Str → Extraction) (content : Str) : Prop :=
  (∀ what, lead content ≠ .outOfRange what) ∧
  ∀ j rest, lead content = .value j rest → DocumentedSchema j →
    IsBlank rest ∧ ¬ byteOrderMark <+: content

section

variable {disk : Str → Option Str} {lead : Str → Extraction} {path content : Str}

theorem loadFromFile_value {j : Json} {rest : Str} (hopen : disk path = some content)
    (hlead : lead content = .value j rest) :
    ∃ r, loadFromFile disk (fun c => (lead c).outcome) path = .ok r ∧
      (r.isOk = true ↔ DocumentedSchema j) := by
  obtain ⟨r, hload, hiff⟩ := loadFromJson_decides j
  have hfile : loadFromFile disk (fun c => (lead c).outcome) path = .ok r := by
    simp only [loadFromFile, hopen, hlead, Extraction.outcome, hload]
  exact ⟨r, hfile, hiff⟩

theorem loadFromFile_parseError {id : Int32} {what : Str} (hopen : disk path = some content)
    (hlead : lead content = .parseError id what) :
    loadFromFile disk (fun c => (lead c).outcome) path =
      .ok (.error (lit "WorkflowConfig: JSON parse error in '" ++ path ++ lit "': " ++ what) id) := by
  simp only [loadFromFile, hopen, hlead, Extraction.outcome]

theorem loadFromFile_outOfRange {what : Str} (hopen : disk path = some content)
    (hlead : lead content = .outOfRange what) :
    loadFromFile disk (fun c => (lead c).outcome) path = .error (.std what) := by
  simp only [loadFromFile, hopen, hlead, Extraction.outcome]

theorem holdsNothingElse_of_load {denotes : Str → Json → Prop} (h : ReadsLeadingValue denotes lead)
    (hopen : disk path = some content) {r : Result WorkflowDefinition}
    (hload : loadFromFile disk (fun c => (lead c).outcome) path = .ok r)
    (hiff : r.isOk = true ↔ ∃ j, IsDocument denotes content j ∧ DocumentedSchema j) :
    HoldsNothingElse lead content := by
  constructor
  · intro what hlead
    have hthrown := loadFromFile_outOfRange hopen hlead
    cases hload.symm.trans hthrown
  · intro j rest hlead hj
    obtain ⟨r', hload', hiff'⟩ := loadFromFile_value hopen hlead
    have hsame : r = r' := Except.ok.inj (hload.symm.trans hload')
    have hok : r.isOk = true := by
      rw [hsame]
      exact hiff'.mpr hj
    obtain ⟨j', hdoc, -⟩ := hiff.mp hok
    obtain ⟨after, hafter, hlead'⟩ := h.of_document hdoc
    have hvalue : Extraction.value j rest = .value j' after := hlead.symm.trans hlead'
    constructor
    · rw [(Extraction.value.inj hvalue).2]
      exact hafter
    · exact not_mark_of_document h hdoc

end

section

variable [FloatText]

/-- The rest of `execute_from_file` (WorkflowEngine.cpp:174-180, 189-195). -/
def afterLoading {W : Type} (run : WorkflowDefinition → EngineM W (Result DataPacket)) :
    Result WorkflowDefinition → EngineM W (Result DataPacket)
  | .error message code => do
    log .Error (lit "Failed to load config: " ++ message)
    return .error message code
  | .ok config => run config

/-- Loading the content returns a result, which both overloads of
`execute_from_file` go on with, and accepts exactly one schema-conforming
JSON document. -/
def LoadsExactly (denotes : Str → Json → Prop) (lead : Str → Extraction) (content : Str) : Prop :=
  ∀ disk path, disk path = some content →
    ∃ r, loadFromFile disk (fun c => (lead c).outcome) path = .ok r ∧
      (∀ (W : Type) (registry : Registry W) (initial : DataPacket),
        executeFromFile registry disk (fun c => (lead c).outcome) path initial = (do
          log .Info (lit "Loading workflow from: " ++ path)
          afterLoading (fun config => execute registry config initial) r) ∧
        executeFromFileDefault registry disk (fun c => (lead c).outcome) path = (do
          log .Info (lit "Loading workflow from: " ++ path)
          afterLoading (fun config => executeDefault registry config) r)) ∧
      (r.isOk = true ↔ ∃ j, IsDocument denotes content j ∧ DocumentedSchema j)

theorem executeFromFile_of_load {W : Type} {disk : Str → Option Str} {path : Str}
    {extract : Str → Except ExtractError Json} {r : Result WorkflowDefinition}
    (hload : loadFromFile disk extract path = .ok r) (registry : Registry W) (initial : DataPacket) :
    executeFromFile registry disk extract path initial = (do
      log .Info (lit "Loading workflow from: " ++ path)
      afterLoading (fun config => execute registry config initial) r) ∧
    executeFromFileDefault registry disk extract path = (do
      log .Info (lit "Loading workflow from: " ++ path)
      afterLoading (fun config => executeDefault registry config) r) := by
  unfold executeFromFile executeFromFileDefault
  rw [hload]
  constructor <;> cases r <;> rfl

theorem loadsExactly_of_holdsNothingElse {denotes : Str → Json → Prop} {lead : Str → Extraction}
    (h : ReadsLeadingValue denotes lead) {content : Str} (hcontent : HoldsNothingElse lead content) :
    LoadsExactly denotes lead content := by
  intro disk path hopen
  cases hlead : lead content with
  | value j rest =>
    obtain ⟨r, hload, hiff⟩ := loadFromFile_value hopen hlead
    refine ⟨r, hload, fun _ => executeFromFile_of_load hload, ?_⟩
    rw [hiff]
    constructor
    · intro hj
      obtain ⟨hrest, hmark⟩ := hcontent.2 j rest hlead hj
      exact ⟨j, h.document hlead hrest hmark, hj⟩
    · intro ⟨j', hdoc, hj'⟩
      obtain ⟨after, -, hlead'⟩ := h.of_document hdoc
      have hsame : Extraction.value j rest = .value j' after := hlead.symm.trans hlead'
      rw [(Extraction.value.inj hsame).1]
      exact hj'
  | parseError id what =>
    have hload := loadFromFile_parseError hopen hlead
    refine ⟨_, hload, fun _ => executeFromFile_of_load hload, ?_⟩
    constructor
    · intro hok
      cases hok
    · rintro ⟨j', hdoc, -⟩
      obtain ⟨after, -, hlead'⟩ := h.of_document hdoc
      cases hlead.symm.trans hlead'
  | outOfRange what => exact absurd hlead (hcontent.1 what)

end

end Workflow.WorkflowConfig
