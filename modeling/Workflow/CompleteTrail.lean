import Workflow.AtomicWrite
import Workflow.SnapshotFailure

/-!
# The audit trail is complete

When every file operation succeeds and every snapshot serialises, the audit
directory holds after a run the trail of its invocations and nothing else
(`execute_writes_complete_trail`).
-/

namespace Workflow
open Observe

variable {W : Type}

/-! ### One snapshot, with every operation succeeding -/

section
variable [FloatText]

/- A snapshot that serialises is published as a whole. -/
theorem saveSnapshot_publishes {workflowName : Str} {x : Snapshot} {o o' : Obs} {u : Unit}
    (hio : o.io = fun _ => .success)
    (hrun : (saveSnapshot workflowName x.step x.command x.status x.packet x.bus x.members).run o
      = .ok u o') :
    ∃ text, dump (x.record workflowName (o.clock 0) (o.clock 1)) = .ok text ∧ Called o o' ∧
      o'.files = published o.files (o.temporaryPath workflowName x.step x.command x.status)
        (o.targetPath workflowName x.step x.command x.status) text := by
  have hfirst : o.io 0 = .success := by rw [hio]
  have hwritten := saveSnapshot_written workflowName x o
  rw [hrun] at hwritten
  cases hwritten with
  | gaveUp o' early _ _ _ =>
    rw [hfirst] at early
    exact absurd early IoOutcome.not_failsEarly_success
  | notRenamed text o' _ _ _ rename _ _ =>
    rw [hfirst] at rename
    exact absurd rfl rename
  | renamed text o' _ called hdump _ files _ =>
    rw [hfirst] at files
    exact ⟨text, hdump, called, files⟩

/- What the audit directory holds: the snapshots of `written`, and nothing else;
outside the directory nothing has changed. -/
structure Recorded (dir workflowName : Str) (before : SortedMap Str Str) (written : List Snapshot)
    (o : Obs) : Prop where
  io : o.io = fun _ => .success
  directory : effectiveAuditDir o.auditDir = dir
  holds : ∀ x ∈ written, ∃ built written text,
    o.files.find? (x.path dir workflowName) = some text ∧
      dump (x.record workflowName built written) = .ok text
  only : ∀ path, InDirectory dir path → path ∉ written.map (Snapshot.path dir workflowName) →
    o.files.find? path = none
  outside : ∀ path, ¬ InDirectory dir path → o.files.find? path = before.find? path

theorem recorded_saveSnapshot {dir workflowName : Str} {before : SortedMap Str Str}
    {written : List Snapshot} {o o' : Obs} {u : Unit} (h : Recorded dir workflowName before written o)
    {x : Snapshot} (hstatus : x.status ∈ statuses)
    (hfresh : x.path dir workflowName ∉ written.map (Snapshot.path dir workflowName))
    (hrun : (saveSnapshot workflowName x.step x.command x.status x.packet x.bus x.members).run o
      = .ok u o') : Recorded dir workflowName before (written ++ [x]) o' := by
  obtain ⟨text, hdump, hcalled, hfiles⟩ := saveSnapshot_publishes h.io hrun
  have htarget : o.targetPath workflowName x.step x.command x.status = x.path dir workflowName := by
    unfold Obs.targetPath
    rw [h.directory]
    rfl
  have htemporary : o.temporaryPath workflowName x.step x.command x.status
      = x.temporaryPath dir workflowName := by
    unfold Obs.temporaryPath
    rw [h.directory]
    rfl
  rw [htarget, htemporary] at hfiles
  have hother : ∀ p, p ≠ x.path dir workflowName → p ≠ x.temporaryPath dir workflowName →
      o'.files.find? p = o.files.find? p := by
    intro p hp htmp
    rw [hfiles]
    exact published_other o.files hp htmp text
  constructor
  case io =>
    rw [hcalled.io, h.io]
  case directory =>
    rw [hcalled.directory, h.directory]
    exact effectiveAuditDir_idem h.directory
  case holds =>
    intro y hy
    cases List.mem_append.mp hy with
    | inl hold =>
      obtain ⟨built, late, old, hfile, hrecord⟩ := h.holds y hold
      have hne : y.path dir workflowName ≠ x.path dir workflowName := by
        intro heq
        exact hfresh (heq ▸ List.mem_map_of_mem hold)
      refine ⟨built, late, old, ?_, hrecord⟩
      rw [hother _ hne (Snapshot.path_ne_temporaryPath _ _ _ _), hfile]
    | inr hnew =>
      rw [List.mem_singleton.mp hnew, hfiles]
      exact ⟨_, _, text, published_target _ _ _ _, hdump⟩
  case only =>
    intro p hin hp
    rw [List.map_append, List.mem_append, not_or] at hp
    have hne : p ≠ x.path dir workflowName := by
      intro heq
      exact hp.2 (heq ▸ List.mem_cons_self)
    by_cases htmp : p = x.temporaryPath dir workflowName
    · rw [htmp, hfiles]
      exact published_temporary _ (Snapshot.path_ne_temporaryPath _ _ _ _) text
    · rw [hother p hne htmp]
      exact h.only p hin hp.1
  case outside =>
    intro p hout
    have hne : p ≠ x.path dir workflowName := by
      intro heq
      exact hout (heq ▸ inDirectory_target dir workflowName x.step x.command hstatus)
    have htmp : p ≠ x.temporaryPath dir workflowName := by
      intro heq
      exact hout (heq ▸ inDirectory_temporary dir workflowName x.step x.command hstatus)
    rw [hother p hne htmp]
    exact h.outside p hout

/- As long as their files are distinct, the snapshots taken are recorded. -/
theorem trailInvariant_recorded (dir workflowName : Str) (before : SortedMap Str Str)
    (expected : List Snapshot) (escapes : Prop) :
    TrailInvariant workflowName expected escapes (fun written o =>
      (written.map (Snapshot.path dir workflowName)).Nodup → Recorded dir workflowName before written o)
      (fun _ => True) where
  log _ _ _ h hnodup := ⟨(h hnodup).io, (h hnodup).directory, (h hnodup).holds, (h hnodup).only,
    (h hnodup).outside⟩
  save written x _ hstatus _ := by
    intro o ho
    cases hrun : (saveSnapshot workflowName x.step x.command x.status x.packet x.bus x.members).run o with
    | ok u o' =>
      intro hnodup
      rw [List.map_append, List.nodup_append] at hnodup
      refine recorded_saveSnapshot (ho hnodup.1) hstatus ?_ hrun
      intro hmem
      exact hnodup.2.2 _ hmem _ List.mem_cons_self rfl
    | error e o' =>
      trivial
  escape _ _ _ := trivial

/-! ### The whole run -/

/- The files in the audit directory are the snapshots of the run. -/
structure CompleteTrail (registry : Registry W) (config : WorkflowDefinition) (initial : DataPacket)
    (s final : State W) : Prop where
  steps : final.core.calls.map Invocation.step = List.range final.core.calls.length
  invoked : ∀ k, (∃ call ∈ final.core.calls, call.step = k) ↔
    Instantiated registry config.onError config.pipeline initial s.core.world k
  isOf : ∀ call ∈ final.core.calls, call.IsOf config.pipeline
  statuses : ∀ call ∈ final.core.calls,
    (call.snapshots config.onError).map Snapshot.status = call.statuses config.onError
  distinct : ((trail config.onError final.core.calls).map
    (Snapshot.path (effectiveAuditDir s.obs.auditDir) config.name)).Nodup
  present : ∀ path, InDirectory (effectiveAuditDir s.obs.auditDir) path →
    (final.obs.files.contains path = true ↔ path ∈ (trail config.onError final.core.calls).map
      (Snapshot.path (effectiveAuditDir s.obs.auditDir) config.name))
  recorded : ∀ x ∈ trail config.onError final.core.calls,
    InDirectory (effectiveAuditDir s.obs.auditDir)
        (x.path (effectiveAuditDir s.obs.auditDir) config.name) ∧
      ∃ built written text,
        final.obs.files.find? (x.path (effectiveAuditDir s.obs.auditDir) config.name) = some text ∧
        dump (x.record config.name built written) = .ok text ∧
        recordedData (x.record config.name built written) (lit "data_packet") = some x.packet.toJson ∧
        recordedData (x.record config.name built written) (lit "data_bus") = some x.bus.toJson
  outside : ∀ path, ¬ InDirectory (effectiveAuditDir s.obs.auditDir) path →
    final.obs.files.find? path = s.obs.files.find? path
  linked : Linked initial .empty (final.core.calls.map (Invocation.snapshots config.onError))

/- Also when the run ends early or an exception of a factory escapes from it. -/
theorem execute_writes_complete_trail (registry : Registry W) (config : WorkflowDefinition)
    (initial : DataPacket) (s : State W) (haudit : config.audit = true)
    (hio : s.obs.io = fun _ => .success)
    (hempty : ∀ path, InDirectory (effectiveAuditDir s.obs.auditDir) path →
      s.obs.files.find? path = none)
    (hvalid : SnapshotsSerialise config
      (referenceFold registry config.onError config.pipeline initial s.core.world).core.calls) :
    CompleteTrail registry config initial s
      (stateOf ((execute registry config initial).run s)) := by
  obtain ⟨p, hp⟩ : ∃ p, p = referenceFold registry config.onError config.pipeline initial s.core.world :=
    ⟨_, rfl⟩
  rw [← hp] at hvalid
  have hcore := core_execute (s := s) hp hvalid
  have hcovers := referenceFold_covers registry config.onError config.pipeline initial s.core.world
  rw [← hp] at hcovers
  obtain ⟨packet, hchain, _⟩ := referenceFold_chain registry config.onError config.pipeline initial
    s.core.world
  rw [← hp] at hchain
  have hdistinct : ((trail config.onError p.core.calls).map
      (Snapshot.path (effectiveAuditDir s.obs.auditDir) config.name)).Nodup := by
    apply trail_path_nodup
    rw [hcovers.steps]
    exact List.nodup_range
  have hstart : Recorded (effectiveAuditDir s.obs.auditDir) config.name s.obs.files [] s.obs :=
    ⟨hio, rfl, fun x hx => absurd hx List.not_mem_nil, fun path hin _ => hempty path hin,
      fun _ _ => rfl⟩
  have hrecorded := ended_execute haudit hp hvalid (trailInvariant_recorded
    (effectiveAuditDir s.obs.auditDir) config.name s.obs.files _ _) (fun _ => hstart) hdistinct
  rw [← hcore] at hchain hdistinct hrecorded
  constructor
  case steps =>
    rw [hcore]
    exact hcovers.steps
  case isOf =>
    rw [hcore]
    exact hcovers.isOf
  case statuses => exact fun call _ => snapshots_statuses config.onError call
  case distinct => exact hdistinct
  case outside => exact hrecorded.outside
  case linked => exact linked_of_chain config.onError hchain
  case invoked =>
    intro k
    rw [hcore, hp]
    exact invoked_iff_instantiated registry config.onError config.pipeline initial s.core.world k
  case present =>
    intro path hin
    rw [SortedMap.contains_iff]
    constructor
    · intro ⟨text, htext⟩
      by_contra hnot
      rw [hrecorded.only path hin hnot] at htext
      cases htext
    · intro hmem
      obtain ⟨x, hx, rfl⟩ := List.mem_map.mp hmem
      obtain ⟨_, _, text, htext, _⟩ := hrecorded.holds x hx
      exact ⟨text, htext⟩
  case recorded =>
    intro x hx
    obtain ⟨call, _, hcall⟩ := List.mem_flatMap.mp hx
    obtain ⟨built, written, text, htext, hdump⟩ := hrecorded.holds x hx
    refine ⟨inDirectory_target _ _ _ _ (takenFor_of_mem_snapshots hcall).status, built, written, text,
      htext, hdump, ?_⟩
    exact recordedData_record (takenFor_of_mem_snapshots hcall).keys config.name built written

end

theorem execute_writes_complete_trail_mock :
    letI := mockFloatText
    CompleteTrail mockRegistry mockAudited .empty mockState
      (stateOf ((execute mockRegistry mockAudited .empty).run mockState)) :=
  letI := mockFloatText
  execute_writes_complete_trail mockRegistry mockAudited .empty mockState rfl rfl (fun _ _ => rfl)
    snapshotsSerialise_mockAudited

end Workflow
