import Workflow.ConfigLoading
import Workflow.Lib.Naming

/-!
# The instance names of a loaded pipeline (WorkflowConfig.cpp:68-72)

A step without an `instance_name` is named after its type and index. Two such
names are never the same, whatever the types, but the loop does not look at the
names given elsewhere (`instanceNames_nodup_iff`).
-/

namespace Workflow.WorkflowConfig

open WorkflowSchema Naming

/-! ### Names in a document -/

def stringAt (j : Json) (key : Str) : Option Str :=
  match j.get? key with
  | some (.string s) => some s
  | _ => none

def pipelineOf (j : Json) : List Json :=
  match j.get? (lit "pipeline") with
  | some (.array xs) => xs
  | _ => []

/- The names the document gives, in the order of their steps. -/
def explicitNames (j : Json) : List Str :=
  (pipelineOf j).filterMap fun element => stringAt element (lit "instance_name")

def generatedName (element : Json) (index : ℕ) : Str :=
  (stringAt element (lit "type")).getD [] ++ lit "_" ++ natToString index

/- No step is given the name that another one gets for want of its own. -/
def NoNameTaken (j : Json) : Prop :=
  ∀ i element, (pipelineOf j)[i]? = some element → stringAt element (lit "instance_name") = none →
    generatedName element i ∉ explicitNames j

def nameSlot (p : Json × ℕ) : Slot Str where
  given := stringAt p.1 (lit "instance_name")
  generated := generatedName p.1 p.2

def nameSlots (j : Json) : List (Slot Str) := (pipelineOf j).zipIdx.map nameSlot

/-! ### What the loader makes of them -/

theorem name_nameSlot {element : Json} {index : ℕ} {cfg : CommandConfig}
    (h : RecordsStep element index cfg) : (nameSlot (element, index)).name = cfg.instanceName := by
  have htype : stringAt element (lit "type") = some cfg.type := by
    unfold stringAt
    rw [h.type]
  unfold nameSlot Slot.name generatedName
  rcases h.instanceName with hgiven | ⟨hnone, hname⟩
  · have hstring : stringAt element (lit "instance_name") = some cfg.instanceName := by
      unfold stringAt
      rw [hgiven]
    simp only [hstring, Option.getD_some]
  · have hstring : stringAt element (lit "instance_name") = none := by
      unfold stringAt
      rw [hnone]
    simp only [hstring, htype, Option.getD_none, Option.getD_some, hname]

theorem pipelineOf_records {j : Json} {wf : WorkflowDefinition} (h : Records j wf) :
    RecordsSteps (pipelineOf j) wf.pipeline := by
  obtain ⟨elements, helements, hsteps⟩ := h.pipeline
  unfold pipelineOf
  rw [helements]
  exact hsteps

theorem instanceNames_eq {j : Json} {wf : WorkflowDefinition} (h : Records j wf) :
    wf.pipeline.map CommandConfig.instanceName = (nameSlots j).map Slot.name := by
  obtain ⟨hlength, hsteps⟩ := pipelineOf_records h
  unfold nameSlots
  apply List.ext_getElem
  · simp [hlength]
  · intro i hi hi'
    rw [List.length_map] at hi
    have hi'' : i < (pipelineOf j).length := by omega
    have hstep := hsteps i _ _ (List.getElem?_eq_getElem hi'') (List.getElem?_eq_getElem hi)
    simp only [List.getElem_map, List.getElem_zipIdx, Nat.zero_add]
    exact (name_nameSlot hstep).symm

/-! ### When they are distinct -/

theorem generatedName_inj {element element' : Json} {i k : ℕ}
    (h : generatedName element i = generatedName element' k) : i = k := by
  have hscore : ¬ Decimal.IsDigit 95 := by decide
  have happend : ∀ (element : Json) (n : ℕ), generatedName element n
      = (stringAt element (lit "type")).getD [] ++ 95 :: Decimal.render n := by
    intro element n
    unfold generatedName natToString
    rw [List.append_assoc]
    rfl
  rw [happend, happend] at h
  exact Decimal.append_render_inj hscore hscore h

theorem givenNames_nameSlots (j : Json) : givenNames (nameSlots j) = explicitNames j := by
  unfold givenNames nameSlots explicitNames
  rw [List.filterMap_map]
  conv_rhs => rw [← List.zipIdx_map_fst 0 (pipelineOf j), List.filterMap_map]
  rfl

theorem madeUpNames_nodup (j : Json) : (madeUpNames (nameSlots j)).Nodup := by
  have hall : ((nameSlots j).map Slot.generated).Nodup := by
    unfold nameSlots
    rw [List.map_map, List.nodup_iff_pairwise_ne, List.pairwise_iff_getElem]
    intro i k hi hk hik heq
    simp only [List.getElem_map, List.getElem_zipIdx, Function.comp_apply] at heq
    have hsame := generatedName_inj heq
    omega
  exact (madeUpNames_sublist _).nodup hall

theorem noNameTaken_iff (j : Json) :
    NoNameTaken j ↔ ∀ name ∈ madeUpNames (nameSlots j), name ∉ givenNames (nameSlots j) := by
  rw [givenNames_nameSlots]
  constructor
  · intro h name hname
    obtain ⟨slot, hslot, hnone, rfl⟩ := mem_madeUpNames.mp hname
    obtain ⟨⟨element, i⟩, hi, rfl⟩ := List.mem_map.mp hslot
    exact h i element (List.mem_zipIdx_iff_getElem?.mp hi) hnone
  · intro h i element hi hnone
    apply h
    rw [mem_madeUpNames]
    exact ⟨nameSlot (element, i), List.mem_map_of_mem (List.mem_zipIdx_iff_getElem?.mpr hi), hnone, rfl⟩

theorem instanceNames_nodup_iff {j : Json} {wf : WorkflowDefinition} (h : Records j wf) :
    (wf.pipeline.map CommandConfig.instanceName).Nodup ↔ (explicitNames j).Nodup ∧ NoNameTaken j := by
  rw [instanceNames_eq h, nodup_name_iff, and_iff_right (madeUpNames_nodup j), ← noNameTaken_iff,
    givenNames_nameSlots]

/- Given that the document repeats no name, the loader repeats none exactly when
none of the names it makes up is among the document's. -/
theorem loaded_instanceNames_nodup_iff {j : Json} {wf : WorkflowDefinition}
    (hload : loadFromJson j = .ok (.ok wf)) (hexplicit : (explicitNames j).Nodup) :
    (wf.pipeline.map CommandConfig.instanceName).Nodup ↔ NoNameTaken j := by
  rw [instanceNames_nodup_iff (records_of_load hload), and_iff_right hexplicit]

/-! ### A name that is taken -/

/- A step without a name, and one with. -/
def namedDocument (name : Str) : Json :=
  .object [(lit "name", .string (lit "w")), (lit "pipeline", .array
    [.object [(lit "type", .string (lit "A"))],
      .object [(lit "instance_name", .string name), (lit "type", .string (lit "B"))]])]

def namedWorkflow (name : Str) : WorkflowDefinition where
  name := lit "w"
  description := []
  pipeline := [⟨lit "A", lit "A_0", .object [], []⟩, ⟨lit "B", name, .object [], []⟩]
  audit := false
  onError := .HALT

theorem load_namedDocument (name : Str) :
    loadFromJson (namedDocument name) = .ok (.ok (namedWorkflow name)) := rfl

theorem explicitNames_namedDocument (name : Str) : explicitNames (namedDocument name) = [name] := rfl

theorem explicitNames_nodup (name : Str) : (explicitNames (namedDocument name)).Nodup := by
  rw [explicitNames_namedDocument]
  exact List.nodup_singleton name

theorem loaded_instanceNames_nodup_iff_mock :
    ((namedWorkflow (lit "b")).pipeline.map CommandConfig.instanceName).Nodup ↔
      NoNameTaken (namedDocument (lit "b")) :=
  loaded_instanceNames_nodup_iff (load_namedDocument _) (explicitNames_nodup _)

/- One given name, and yet both steps have it. -/
theorem instanceNames_repeat :
    loadFromJson (namedDocument (lit "A_0")) = .ok (.ok (namedWorkflow (lit "A_0"))) ∧
      (explicitNames (namedDocument (lit "A_0"))).Nodup ∧
      ¬ ((namedWorkflow (lit "A_0")).pipeline.map CommandConfig.instanceName).Nodup :=
  ⟨load_namedDocument _, explicitNames_nodup _, by decide⟩

end Workflow.WorkflowConfig
