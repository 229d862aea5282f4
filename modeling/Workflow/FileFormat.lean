import Workflow.FileLoading
import Workflow.JsonRoundTrip
import Workflow.ParserOverflow
import Workflow.PipelineSemantics

/-!
# Workflow files with the reader the repository ships

`load_from_file` with `file >> j` as external/nlohmann/json.hpp defines it: what
the reader makes of a content, which contents load, which load as promised, and
what makes `load_from_file` throw.
-/

namespace Workflow.WorkflowConfig

open JsonReader (FloatReader parse)
open JsonText WorkflowSchema

theorem blank_of_isBlank {s : Str} (h : IsBlank s) : Blank s := by
  have hlit : lit " \t\n\r" = [32, 9, 10, 13] := rfl
  intro b hb
  have hin := h b hb
  rw [hlit] at hin
  simpa only [List.mem_cons, List.not_mem_nil, or_false] using hin

section
variable [FloatReader]

/-- `file >> j` on a content. -/
def lead (content : Str) : Extraction :=
  match parse content with
  | .value j rest => .value j rest
  | .failure (.parseError what) => .parseError 101 what
  | .failure (.outOfRange what) => .outOfRange what

theorem lead_value_iff (content : Str) (j : Json) (rest : Str) :
    lead content = .value j rest ↔ parse content = .value j rest := by
  unfold lead
  constructor
  · intro h
    split at h
    · next heq => rw [heq, (Extraction.value.inj h).1, (Extraction.value.inj h).2]
    · cases h
    · cases h
  · intro h
    rw [h]

theorem lead_reads : ReadsLeadingValue Denotes lead where
  head := by
    intro text j h
    exact ascii_of_derives h
  leading := by
    intro content j rest h
    obtain ⟨mark, text, hmark, hcontent, htext, -⟩ :=
      (parse_value_iff content j rest).mp ((lead_value_iff content j rest).mp h)
    refine ⟨mark, [], text, hmark, nofun, ?_, htext⟩
    rw [hcontent, List.append_nil]
  whole := by
    intro before text after j hbefore hafter htext
    rw [lead_value_iff, parse_value_iff]
    have hdenotes : Denotes (before ++ text) j := derives_blank (blank_of_isBlank hbefore) htext
    have hsep : Separated (before ++ text ++ after) after := by
      apply separated_of_not_numberByte
      intro b tail heq
      exact not_numberByte_of_blank (blank_of_isBlank hafter b (heq ▸ List.mem_cons_self))
    exact ⟨[], before ++ text, .inl rfl, rfl, hdenotes, hsep⟩

theorem parsed_of_load {disk : Str → Option Str} {path : Str} {config : WorkflowDefinition}
    (h : loadFromFile disk (fun content => (lead content).outcome) path = .ok (.ok config)) :
    ∃ content j rest, disk path = some content ∧ parse content = .value j rest ∧
      loadFromJson j = .ok (.ok config) := by
  cases hopen : disk path with
  | none =>
    simp only [loadFromFile, hopen] at h
    cases h
  | some content =>
    cases hlead : lead content with
    | parseError id what => cases h.symm.trans (loadFromFile_parseError hopen hlead)
    | outOfRange what => cases h.symm.trans (loadFromFile_outOfRange hopen hlead)
    | value j rest =>
      obtain ⟨r, hjson, -⟩ := loadFromJson_decides j
      have hfile : loadFromFile disk (fun content => (lead content).outcome) path = .ok r := by
        simp only [loadFromFile, hopen, hlead, Extraction.outcome, hjson]
      obtain rfl : r = .ok config := Except.ok.inj (hfile.symm.trans h)
      exact ⟨content, j, rest, rfl, (lead_value_iff content j rest).mp hlead, hjson⟩

/- A file loads exactly when it begins with the text of a value that has the
documented shape; the mark before it and what follows it do not matter. -/
theorem loadFromFile_accepts_iff (disk : Str → Option Str) (path : Str)
    (config : WorkflowDefinition) :
    loadFromFile disk (fun content => (lead content).outcome) path = .ok (.ok config) ↔
      ∃ mark text rest j, (mark = [] ∨ mark = byteOrderMark) ∧
        disk path = some (mark ++ text ++ rest) ∧ Denotes text j ∧ Separated (text ++ rest) rest ∧
        DocumentedSchema j ∧ loadFromJson j = .ok (.ok config) := by
  constructor
  · intro hload
    obtain ⟨content, j, rest, hopen, hparse, hjson⟩ := parsed_of_load hload
    obtain ⟨mark, text, hmark, hcontent, htext, hsep⟩ := (parse_value_iff content j rest).mp hparse
    obtain ⟨r, hr, hiff⟩ := loadFromJson_decides j
    obtain rfl : r = .ok config := Except.ok.inj (hr.symm.trans hjson)
    exact ⟨mark, text, rest, j, hmark, hcontent ▸ hopen, htext, hsep, hiff.mp rfl, hjson⟩
  · rintro ⟨mark, text, rest, j, hmark, hopen, htext, hsep, -, hjson⟩
    have hlead : lead (mark ++ text ++ rest) = .value j rest :=
      (lead_value_iff _ j rest).mpr ((parse_value_iff _ j rest).mpr ⟨mark, text, hmark, rfl, htext, hsep⟩)
    simp only [loadFromFile, hopen, hlead, Extraction.outcome, hjson]

end

/-! ### Which contents load as promised -/

section
variable [FloatText]

/- The content loads as promised in every case but two: the single catch
clause misses `out_of_range`, and nobody looks at what the reader left or at
the mark it skipped. -/
theorem loadsExactly_iff {denotes : Str → Json → Prop} {lead : Str → Extraction}
    (h : ReadsLeadingValue denotes lead) (content : Str) :
    LoadsExactly denotes lead content ↔ HoldsNothingElse lead content := by
  constructor
  · intro hloads
    obtain ⟨disk, path, hopen⟩ : ∃ (disk : Str → Option Str) (path : Str), disk path = some content :=
      ⟨fun _ => some content, [], rfl⟩
    obtain ⟨r, hload, -, hiff⟩ := hloads disk path hopen
    exact holdsNothingElse_of_load h hopen hload hiff
  · exact loadsExactly_of_holdsNothingElse h

end

-- {"name":"w","pipeline":[{"type":"T"}]}
def mockText : Str :=
  lit "\x7b\"name\":\"w\",\"pipeline\":[\x7b\"type\":\"T\"\x7d]\x7d"

def mockDocument : Json :=
  .object [(lit "name", .string (lit "w")),
    (lit "pipeline", .array [.object [(lit "type", .string (lit "T"))]])]

-- The same document with "params":{"x":1e999} in its step.
def overflowingText : Str :=
  lit "\x7b\"name\":\"w\",\"pipeline\":[\x7b\"type\":\"T\",\"params\":\x7b\"x\":1e999\x7d\x7d]\x7d"

/- The one decimal number in these texts is `1e999`: `HUGE_VAL`. -/
abbrev mockReader : FloatReader where
  strtod s := if s = lit "1e999" then 0x7FF0000000000000 else 0

theorem documentedSchema_mockDocument : DocumentedSchema mockDocument := by
  have hvalid : validate mockDocument = .ok (.ok ()) := rfl
  obtain ⟨r, hr, hiff⟩ := decides_validate mockDocument
  have hsame : r = .ok () := Except.ok.inj (hr.symm.trans hvalid)
  rw [← hiff, hsame]
  rfl

theorem loadsExactly_iff_mock :
    letI := mockFloatText
    letI := mockReader
    LoadsExactly Denotes lead (mockText ++ lit "\n") := by
  refine (@loadsExactly_iff mockFloatText _ _ (@lead_reads mockReader) _).mpr ⟨?_, ?_⟩
  · intro what hlead
    cases hlead
  · intro j rest hlead _
    have hvalue : @lead mockReader (mockText ++ lit "\n") = .value mockDocument (lit "\n") := rfl
    obtain ⟨-, hrest⟩ := Extraction.value.inj (hvalue.symm.trans hlead)
    have hblank : IsBlank (lit "\n") := by decide +kernel
    constructor
    · rw [← hrest]
      exact hblank
    · intro ⟨tail, htail⟩
      have hhead := (List.cons.inj htail).1
      revert hhead
      decide

/- A number that overflows leaves as an exception; a document with something
behind it is loaded. -/
theorem loadFromFile_fails_to_be_exact :
    letI := mockFloatText
    letI := mockReader
    ReadsLeadingValue Denotes lead ∧ ¬ LoadsExactly Denotes lead overflowingText ∧
      ¬ LoadsExactly Denotes lead (mockText ++ lit " x") := by
  have hreads := @lead_reads mockReader
  refine ⟨hreads, ?_, ?_⟩
  · intro h
    obtain ⟨r, hload, -⟩ := h (fun _ => some overflowingText) [] rfl
    cases hload
  · intro h
    obtain ⟨disk, path, hopen⟩ : ∃ (disk : Str → Option Str) (path : Str),
        disk path = some (mockText ++ lit " x") := ⟨fun _ => some _, [], rfl⟩
    obtain ⟨r, hload, -, hiff⟩ := h disk path hopen
    have hvalue : @lead mockReader (mockText ++ lit " x") = .value mockDocument (lit " x") := rfl
    have hblank := ((holdsNothingElse_of_load hreads hopen hload hiff).2 _ _ hvalue
      documentedSchema_mockDocument).1
    revert hblank
    decide +kernel

end Workflow.WorkflowConfig
