import Workflow.SnapshotFailure

/-!
# What audit writes can touch

Whatever the names of workflow and commands are, a snapshot is written to two
files of the audit directory itself, and no audited run changes a file anywhere
else (`audit_writes_stay_inside`).
-/

namespace Workflow
open Observe

variable {W : Type}

/-! ### Paths that are no snapshot's -/

/- Neither a target nor a temporary file of the workflow. -/
def Foreign (dir workflowName path : Str) : Prop :=
  ∀ i command, ∀ status ∈ statuses,
    path ≠ joinPath dir (snapshotFilename workflowName i command status) ∧
    path ≠ joinPath dir (temporaryName (snapshotFilename workflowName i command status))

theorem foreign_of_not_inside {dir path : Str} (h : ¬ DirectlyInside dir path) (workflowName : Str) :
    Foreign dir workflowName path := by
  intro i command status hstatus
  constructor
  · rintro rfl
    exact h (directlyInside_target dir workflowName i command hstatus)
  · rintro rfl
    exact h (directlyInside_temporary dir workflowName i command hstatus)

/-! ### One snapshot -/

section
variable [FloatText]

/- The paths of one call of the writer, and what it leaves alone. -/
structure SnapshotContained (workflowName : Str) (stepIndex : ℕ) (commandName status : Str)
    (o : Obs) : Prop where
  targetName : IsTargetName (snapshotFilename workflowName stepIndex commandName status)
  temporaryName :
    IsTemporaryName (temporaryName (snapshotFilename workflowName stepIndex commandName status))
  target : DirectlyInside (effectiveAuditDir o.auditDir)
    (o.targetPath workflowName stepIndex commandName status)
  temporary : DirectlyInside (effectiveAuditDir o.auditDir)
    (o.temporaryPath workflowName stepIndex commandName status)
  notATarget : ∀ workflowName' stepIndex' commandName' status',
    Workflow.temporaryName (snapshotFilename workflowName stepIndex commandName status)
      ≠ snapshotFilename workflowName' stepIndex' commandName' status'
  others : ∀ snapshot path, path ≠ o.targetPath workflowName stepIndex commandName status →
    path ≠ o.temporaryPath workflowName stepIndex commandName status →
    (stateOf ((writeAuditSnapshot workflowName stepIndex commandName status snapshot).run
      o)).files.find? path = o.files.find? path

theorem snapshotContained (workflowName : Str) (stepIndex : ℕ) (commandName : Str) {status : Str}
    (hstatus : status ∈ statuses) (o : Obs) :
    SnapshotContained workflowName stepIndex commandName status o where
  targetName := isTargetName_snapshotFilename workflowName stepIndex commandName hstatus
  temporaryName := isTemporaryName_temporaryName
    (isTargetName_snapshotFilename workflowName stepIndex commandName hstatus)
  target := directlyInside_target _ workflowName stepIndex commandName hstatus
  temporary := directlyInside_temporary _ workflowName stepIndex commandName hstatus
  notATarget := temporaryName_ne_snapshotFilename _
  others snapshot _ htarget htemporary :=
    written_others (writeAuditSnapshot_written workflowName stepIndex commandName status snapshot o)
      htarget htemporary

/-! ### The whole run -/

theorem trailInvariant_foreign {dir workflowName path : Str} (hpath : Foreign dir workflowName path)
    (held : Option Str) (expected : List Snapshot) (escapes : Prop) :
    TrailInvariant workflowName expected escapes
      (fun _ o => effectiveAuditDir o.auditDir = dir ∧ o.files.find? path = held)
      (fun o => o.files.find? path = held) where
  log _ _ _ h := h
  escape _ _ h := h.2
  save written x _ hstatus _ := by
    intro o ho
    obtain ⟨rfl, hheld⟩ := ho
    obtain ⟨htarget, htemporary⟩ := hpath x.step x.command x.status hstatus
    have hwritten := saveSnapshot_written workflowName x o
    have hsame := written_others hwritten htarget htemporary
    have hcalled := written_called hwritten
    cases hrun : (saveSnapshot workflowName x.step x.command x.status x.packet x.bus x.members).run o with
    | ok u o' =>
      rw [hrun] at hsame hcalled
      refine ⟨?_, hsame.trans hheld⟩
      have hdir : o'.auditDir = effectiveAuditDir o.auditDir := hcalled.directory
      rw [hdir]
      exact effectiveAuditDir_idem rfl
    | error e o' =>
      rw [hrun] at hsame
      exact hsame.trans hheld

/- However the run ends. -/
theorem execute_leaves_foreign (registry : Registry W) {config : WorkflowDefinition}
    (haudit : config.audit = true) (initial : DataPacket) (s : State W) {path : Str}
    (hpath : Foreign (effectiveAuditDir s.obs.auditDir) config.name path) :
    (stateOf ((execute registry config initial).run s)).obs.files.find? path
      = s.obs.files.find? path := by
  obtain ⟨p, hp⟩ : ∃ p, p = referenceFold registry config.onError config.pipeline initial s.core.world :=
    ⟨_, rfl⟩
  have hend := triple_execute haudit hp (trailInvariant_foreign hpath (s.obs.files.find? path) _ _) s
    ⟨rfl, rfl, rfl⟩
  cases hrun : (execute registry config initial).run s with
  | ok r s' =>
    rw [hrun] at hend
    exact hend.2
  | error e s' =>
    rw [hrun] at hend
    exact hend

/- Sanitising keeps a name's length and, done again, changes nothing; each snapshot
is confined to two files of the audit directory, and so is each audited run to its own. -/
theorem audit_writes_stay_inside (registry : Registry W) (config : WorkflowDefinition)
    (initial : DataPacket) (s : State W) :
    (∀ name, (sanitizeFilename name).length = name.length ∧
      sanitizeFilename (sanitizeFilename name) = sanitizeFilename name) ∧
    (∀ workflowName stepIndex commandName, ∀ status ∈ statuses, ∀ o,
      SnapshotContained workflowName stepIndex commandName status o) ∧
    (config.audit = true → ∀ path, ¬ DirectlyInside (effectiveAuditDir s.obs.auditDir) path →
      (stateOf ((execute registry config initial).run s)).obs.files.find? path
        = s.obs.files.find? path) := by
  refine ⟨?_, ?_, ?_⟩
  · intro name
    exact ⟨sanitizeFilename_length name, sanitizeFilename_idem name⟩
  · intro workflowName stepIndex commandName status hstatus o
    exact snapshotContained workflowName stepIndex commandName hstatus o
  · intro haudit path hpath
    exact execute_leaves_foreign registry haudit initial s (foreign_of_not_inside hpath config.name)

end

/- The instance is given outright: with a local one Lean would compare whole runs. -/
theorem audit_writes_stay_inside_mock :
    letI := mockFloatText
    (sanitizeFilename (sanitizeFilename (lit "a/b")) = sanitizeFilename (lit "a/b")) ∧
    SnapshotContained (lit "../a") 0 (lit "b/c") (lit "pre") mockState.obs ∧
    ∀ path, ¬ DirectlyInside (effectiveAuditDir mockState.obs.auditDir) path →
      (stateOf ((execute mockRegistry mockAudited .empty).run mockState)).obs.files.find? path
        = mockState.obs.files.find? path := by
  obtain ⟨hnames, hsnapshots, hrun⟩ :=
    @audit_writes_stay_inside Unit mockFloatText mockRegistry mockAudited .empty mockState
  have hpre : lit "pre" ∈ statuses := List.mem_cons_self
  exact ⟨(hnames _).2, hsnapshots (lit "../a") 0 (lit "b/c") (lit "pre") hpre mockState.obs, hrun rfl⟩

end Workflow
