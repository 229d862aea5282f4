import Workflow.Engine

/-!
# Two runs of the engine

A relation between observers that log lines and snapshots preserve is preserved
by the whole engine, next to equal cores (`related_execute`). Two instances are
used: equal answers still to come, and logs that differ in their beginning.
-/

namespace Workflow
open Observe

variable {W : Type} {R : Obs → Obs → Prop}

def SameCore (R : Obs → Obs → Prop) (s t : State W) : Prop := s.core = t.core ∧ R s.obs t.obs

theorem related_observing {α : Type} {m m' : AuditM α} (h : Related R m m' R) :
    Related (SameCore (W := W) R) (observing m) (observing m') (SameCore R) := by
  intro s t hst
  obtain ⟨hcore, hobs⟩ := hst
  have hends := h s.obs t.obs hobs
  show Alike (SameCore R) (observing m s) (observing m' t)
  unfold observing
  rcases hm : m.run s.obs with ⟨a, o⟩ | ⟨e, o⟩ <;> rcases hn : m'.run t.obs with ⟨b, o'⟩ | ⟨d, o'⟩ <;>
    rw [hm, hn] at hends
  · exact ⟨hends.1, hcore, hends.2⟩
  · exact hends.elim
  · exact hends.elim
  · exact ⟨hends.1, hcore, hends.2⟩

theorem related_whenAudited {P : State W → State W → Prop} (config : WorkflowDefinition)
    {m : EngineM W Unit} (h : Related P m m P) :
    Related P (whenAudited config m) (whenAudited config m) P := by
  unfold whenAudited
  split_ifs
  · exact h
  · exact related_pure ()

theorem related_ofExcept {P : State W → State W → Prop} {α : Type} (r : Except Exn α) :
    Related P (ofExcept r : EngineM W α) (ofExcept r) P := by
  cases r with
  | ok a => exact related_pure a
  | error e => exact related_throw e

theorem related_callFactory (factory : CommandFactory W) (cfg : CommandConfig) :
    Related (SameCore R) (callFactory factory cfg) (callFactory factory cfg) (SameCore R) := by
  refine related_modifyGet fun s t hst => ?_
  obtain ⟨hcore, hobs⟩ := hst
  rw [hcore]
  exact ⟨rfl, rfl, hobs⟩

section
variable [FloatText]

/- What only observes keeps `R`. -/
structure Unobtrusive (R : Obs → Obs → Prop) : Prop where
  log : ∀ o o' entries, R o o' →
    R { o with log := o.log ++ entries } { o' with log := o'.log ++ entries }
  save : ∀ workflowName i commandName status packet bus extra,
    Related R (saveSnapshot workflowName i commandName status packet bus extra)
      (saveSnapshot workflowName i commandName status packet bus extra) R

theorem related_log (hR : Unobtrusive R) (level : LogLevel) (message : Str) :
    Related (SameCore (W := W) R) (log level message) (log level message) (SameCore R) :=
  related_observing (related_modify fun o o' hobs => hR.log o o' [⟨level, message⟩] hobs)

theorem related_snapshot (hR : Unobtrusive R) (config : WorkflowDefinition) (i : ℕ)
    (cfg : CommandConfig) (status : Str) (packet : DataPacket) (extra : List (Str × Json)) :
    Related (SameCore (W := W) R) (snapshot config i cfg status packet extra)
      (snapshot config i cfg status packet extra) (SameCore R) := by
  intro s t hst
  have hsave := related_observing (W := W) (hR.save config.name i cfg.instanceName status packet
    s.core.bus extra) s t hst
  rw [run_snapshot, run_snapshot, ← hst.1]
  exact hsave

theorem related_afterFailure (hR : Unobtrusive R) (config : WorkflowDefinition) (i : ℕ)
    (cfg : CommandConfig) (current : DataPacket) (report : FailureReport) :
    Related (SameCore (W := W) R) (afterFailure config i cfg current report)
      (afterFailure config i cfg current report) (SameCore R) := by
  unfold afterFailure
  refine related_bind (related_log hR _ _) fun _ => ?_
  have hsaved : Related (SameCore (W := W) R)
      (do snapshot config i cfg report.status current report.members; log .Info report.savedLine)
      (do snapshot config i cfg report.status current report.members; log .Info report.savedLine)
      (SameCore R) :=
    related_bind (related_snapshot hR config i cfg _ current _) fun _ => related_log hR _ _
  refine related_bind (related_whenAudited config hsaved) fun _ => ?_
  cases config.onError with
  | HALT => exact related_pure _
  | CONTINUE =>
    refine related_bind (related_log hR _ _) fun _ => ?_
    refine related_bind (related_whenAudited config (related_snapshot hR config i cfg _ current _))
      fun _ => ?_
    exact related_pure _

theorem related_afterSuccess (hR : Unobtrusive R) (config : WorkflowDefinition) (i : ℕ)
    (cfg : CommandConfig) (result : Result DataPacket) :
    Related (SameCore (W := W) R) (afterSuccess config i cfg result)
      (afterSuccess config i cfg result) (SameCore R) := by
  unfold afterSuccess
  have hsaved : Related (SameCore (W := W) R)
      (do
        let packet ← ofExcept result.value
        snapshot config i cfg (lit "success") packet successMembers)
      (do
        let packet ← ofExcept result.value
        snapshot config i cfg (lit "success") packet successMembers) (SameCore R) :=
    related_bind (related_ofExcept _) fun packet => related_snapshot hR config i cfg _ packet _
  refine related_bind (related_whenAudited config hsaved) fun _ => ?_
  refine related_bind (related_ofExcept _) fun current => ?_
  exact related_bind (related_log hR _ _) fun _ => related_pure _

theorem related_afterCommand (hR : Unobtrusive R) (config : WorkflowDefinition) (i : ℕ)
    (cfg : CommandConfig) (current : DataPacket) (outcome : Except Exn (Result DataPacket)) :
    Related (SameCore (W := W) R) (afterCommand config i cfg current outcome)
      (afterCommand config i cfg current outcome) (SameCore R) := by
  cases outcome with
  | error e =>
    exact related_afterFailure hR config i cfg current _
  | ok result =>
    cases result with
    | ok packet =>
      exact related_afterSuccess hR config i cfg _
    | error message code =>
      exact related_afterFailure hR config i cfg current _

theorem related_callCommand (hR : Unobtrusive R) (cmd : Command W) (i : ℕ) (cfg : CommandConfig)
    (current : DataPacket) :
    Related (SameCore R) (callCommand cmd i cfg current) (callCommand cmd i cfg current)
      (SameCore R) := by
  refine related_modifyGet fun s t hst => ?_
  obtain ⟨hcore, hobs⟩ := hst
  rw [hcore]
  exact ⟨rfl, rfl, hR.log s.obs t.obs _ hobs⟩

theorem related_superviseCommand (hR : Unobtrusive R) (config : WorkflowDefinition) (i : ℕ)
    (cfg : CommandConfig) (current : DataPacket) (cmd : Command W) :
    Related (SameCore R) (superviseCommand config i cfg current cmd)
      (superviseCommand config i cfg current cmd) (SameCore R) := by
  unfold superviseCommand
  refine related_bind (related_whenAudited config (related_snapshot hR config i cfg _ current _))
    fun _ => ?_
  refine related_bind (related_callCommand hR cmd i cfg current) fun outcome => ?_
  exact related_afterCommand hR config i cfg current outcome

theorem related_warnMissingDependencies (hR : Unobtrusive R) (cfg : CommandConfig) (deps : List Str) :
    Related (SameCore (W := W) R) (warnMissingDependencies cfg deps) (warnMissingDependencies cfg deps)
      (SameCore R) := by
  intro s t hst
  rw [run_warnMissingDependencies, run_warnMissingDependencies, ← hst.1]
  exact ⟨rfl, hst.1, hR.log s.obs t.obs _ hst.2⟩

theorem related_useFactoryOutcome (hR : Unobtrusive R) (config : WorkflowDefinition) (i : ℕ)
    (cfg : CommandConfig) (current : DataPacket) (made : FactoryOutcome (Command W)) :
    Related (SameCore R) (useFactoryOutcome config i cfg current made)
      (useFactoryOutcome config i cfg current made) (SameCore R) := by
  cases made with
  | command cmd =>
    exact related_bind (related_warnMissingDependencies hR cfg _) fun _ =>
      related_bind (related_log hR _ _) fun _ => related_superviseCommand hR config i cfg current cmd
  | null =>
    exact related_bind (related_log hR _ _) fun _ => related_pure _
  | throws e =>
    cases e with
    | std what =>
      exact related_bind (related_log hR _ _) fun _ => related_pure _
    | other =>
      exact related_throw _

theorem related_executeStep (hR : Unobtrusive R) (registry : Registry W) (config : WorkflowDefinition)
    (i : ℕ) (cfg : CommandConfig) (current : DataPacket) :
    Related (SameCore R) (executeStep registry config i cfg current)
      (executeStep registry config i cfg current) (SameCore R) := by
  unfold executeStep
  cases registry.find? cfg.type with
  | none =>
    exact related_bind (related_log hR _ _) fun _ => related_pure _
  | some factory =>
    exact related_bind (related_callFactory factory cfg) fun made =>
      related_useFactoryOutcome hR config i cfg current made

/- Only the worlds need to agree before the run: it clears the bus. -/
theorem related_execute (hR : Unobtrusive R) (registry : Registry W) (config : WorkflowDefinition)
    (initial : DataPacket) :
    Related (fun s t : State W => s.core.world = t.core.world ∧ R s.obs t.obs)
      (execute registry config initial) (execute registry config initial) (SameCore R) := by
  intro s t hst
  obtain ⟨hworld, hobs⟩ := hst
  have hstart : SameCore R (s.started config) (t.started config) := by
    refine ⟨?_, hR.log s.obs t.obs (openingLog config) hobs⟩
    show (⟨s.core.world, .empty, []⟩ : Core W) = ⟨t.core.world, .empty, []⟩
    rw [hworld]
  have hsteps : Related (SameCore R) (executePipeline registry config initial)
      (executePipeline registry config initial) (SameCore (W := W) R) := by
    refine related_forEach (S := Eq) ?_ ?_ 0 (List.forall₂_same.mpr fun _ _ => rfl) initial
    · intro i cfg cfg' current hcfg
      rw [hcfg]
      exact related_executeStep hR registry config i cfg' current
    · intro current
      exact related_bind (related_log hR _ _) fun _ => related_pure _
  rw [run_execute, run_execute]
  exact hsteps _ _ hstart

end

end Workflow
