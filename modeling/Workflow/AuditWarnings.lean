import Workflow.AtomicWrite
import Workflow.ErrorPolicy

/-!
# What audit failures do to a run

A snapshot that cannot be created, opened or renamed costs a warning. One that
does not serialise throws, and no handler of the engine takes the exception; a
write that stops short is not noticed at all. Both gaps are exact
(`savesOrWarns_iff`).
-/

namespace Workflow
open Observe

variable {W : Type}

section
variable [FloatText]

/-! ### One snapshot -/

/- The snapshot is saved whole and noted at debug level, or a warning is logged
and the target is as before. -/
def SavesOrWarns (workflowName : Str) (x : Snapshot) (o : Obs) : Prop :=
  ∃ o', (saveSnapshot workflowName x.step x.command x.status x.packet x.bus x.members).run o
      = .ok () o' ∧
    ((∃ text, dump (x.record workflowName (o.clock 0) (o.clock 1)) = .ok text ∧
        o'.files.find? (o.targetPath workflowName x.step x.command x.status) = some text ∧
        LogsOne .Debug o o') ∨
      o'.files.find? (o.targetPath workflowName x.step x.command x.status)
        = o.files.find? (o.targetPath workflowName x.step x.command x.status) ∧ LogsOne .Warn o o')

/- The call fails before it has a stream, or the record is UTF-8 and the stream
takes it as a whole unless the rename fails anyway. -/
def WarnsSafely (workflowName : Str) (x : Snapshot) (o : Obs) : Prop :=
  (o.io 0).FailsEarly ∨ x.IsUtf8 workflowName ∧ ((o.io 0).rename = none →
    ∀ text, dump (x.record workflowName (o.clock 0) (o.clock 1)) = .ok text → ¬ (o.io 0).CutsShort text)

theorem savesOrWarns_iff (workflowName : Str) (x : Snapshot) (o : Obs)
    (hkeys : (x.members.map Prod.fst).Sublist siteKeys) :
    SavesOrWarns workflowName x o ↔ WarnsSafely workflowName x o := by
  have hwritten := saveSnapshot_written workflowName x o
  have hne := targetPath_ne_temporaryPath o workflowName x.step x.command x.status
  unfold SavesOrWarns WarnsSafely
  generalize hrun : (saveSnapshot workflowName x.step x.command x.status x.packet x.bus x.members).run
    o = r at hwritten ⊢
  cases hwritten with
  | gaveUp o' early _ files warned =>
    constructor
    · intro _
      exact Or.inl early
    · intro _
      exact ⟨o', rfl, Or.inr ⟨by rw [files], warned⟩⟩
  | unserialised e o' opened _ hdump _ =>
    constructor
    · intro ⟨_, hreturns, _⟩
      cases hreturns
    · intro hsafe
      cases hsafe with
      | inl early => exact absurd early opened
      | inr hutf8 => exact absurd hutf8.1 (not_isUtf8_of_dump hkeys hdump)
  | notRenamed text o' opened _ hdump rename files warned =>
    constructor
    · intro _
      exact Or.inr ⟨isUtf8_of_dump hkeys hdump, fun hnone => absurd hnone rename⟩
    · intro _
      exact ⟨o', rfl, Or.inr ⟨by rw [files, staged_other _ hne], warned⟩⟩
  | renamed text o' opened _ hdump rename files noted =>
    have htarget : o'.files.find? (o.targetPath workflowName x.step x.command x.status)
        = some ((o.io 0).taken text) := by rw [files, published_target]
    constructor
    · intro ⟨o'', hreturns, hend⟩
      obtain ⟨_, rfl⟩ := EStateM.Result.ok.inj hreturns
      refine Or.inr ⟨isUtf8_of_dump hkeys hdump, ?_⟩
      intro _ text' htext' hcut
      cases hend with
      | inl hsaved =>
        obtain ⟨text'', htext'', hwhole, _⟩ := hsaved
        rw [hdump, Except.ok.injEq] at htext' htext''
        rw [htarget, ← htext'', Option.some.injEq, IoOutcome.taken_eq_iff] at hwhole
        exact hwhole (htext' ▸ hcut)
      | inr hwarned => exact not_logsOne_both noted hwarned.2
    · intro hsafe
      cases hsafe with
      | inl early => exact absurd early opened
      | inr hutf8 =>
        have hwhole := (IoOutcome.taken_eq_iff _ _).mpr (hutf8.2 rename text hdump)
        exact ⟨o', rfl, Or.inl ⟨text, hdump, by rw [htarget, hwhole], noted⟩⟩

/- Saving a snapshot never does worse than warn, and auditing never makes a run
throw, under these conditions and under no others. -/
theorem auditing_only_warns_iff (registry : Registry W) (config : WorkflowDefinition)
    (initial : DataPacket) (s : State W) (workflowName : Str) (x : Snapshot) (o : Obs)
    (hkeys : (x.members.map Prod.fst).Sublist siteKeys) :
    (SavesOrWarns workflowName x o ↔ WarnsSafely workflowName x o) ∧
      ((∃ r s', (execute registry config initial).run s = .ok r s') ↔
        ¬ (referenceFold registry config.onError config.pipeline initial s.core.world).Escaped ∧
          (config.audit = true → Harmless config.name s.obs.io (trail config.onError
            (referenceFold registry config.onError config.pipeline initial s.core.world).core.calls))) :=
  ⟨savesOrWarns_iff workflowName x o hkeys, execute_returns_iff_harmless rfl⟩

end

/- The snapshot in front of a command that is given `latinPacket`. -/
def latinSnapshot : Snapshot := ⟨0, lit "Pass", lit "pre", latinPacket, .empty, []⟩

theorem auditing_only_warns_iff_mock :
    letI := mockFloatText
    (SavesOrWarns (lit "mock") latinSnapshot mockObs ↔
        WarnsSafely (lit "mock") latinSnapshot mockObs) ∧
      ((∃ r s', (execute mockRegistry (mockConfig .HALT true ["Pass"]) latinPacket).run mockState
          = .ok r s') ↔
        ¬ (referenceFold mockRegistry .HALT ([("Pass" : String)].map mockStep) latinPacket ()).Escaped ∧
          (true = true → Harmless (lit "mock") mockObs.io (trail .HALT
            (referenceFold mockRegistry .HALT ([("Pass" : String)].map mockStep) latinPacket
              ()).core.calls))) :=
  letI := mockFloatText
  auditing_only_warns_iff mockRegistry (mockConfig .HALT true ["Pass"]) latinPacket mockState
    (lit "mock") latinSnapshot mockObs (by simp [latinSnapshot])

/- Auditing makes a run throw whose one command succeeds. -/
theorem auditing_aborts_a_run :
    letI := mockFloatText
    ¬ SavesOrWarns (lit "mock") latinSnapshot mockObs ∧
      (∃ s', (execute mockRegistry (mockConfig .HALT false ["Pass"]) latinPacket).run mockState
        = .ok (.ok latinPacket) s') ∧
      ¬ ∃ r s', (execute mockRegistry (mockConfig .HALT true ["Pass"]) latinPacket).run mockState
        = .ok r s' := by
  refine ⟨?_, ⟨_, rfl⟩, ?_⟩
  · intro ⟨o', hrun, _⟩
    cases hrun
  · intro ⟨r, s', hrun⟩
    cases hrun

end Workflow
