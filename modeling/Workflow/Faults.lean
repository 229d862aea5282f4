import Workflow.PipelineSemantics
import Workflow.RunShape

/-!
# A faulty step

Lookup and instantiation happen step by step, between the executions. A step
without a usable command keeps itself and every later step from running. The
steps before it run in order, up to the first that fails under HALT.
-/

namespace Workflow
open Observe

variable {W : Type}

/- The type is not registered, or its factory throws a standard exception or
returns null in whatever world it is called. -/
def Registry.Faulty (registry : Registry W) (cfg : CommandConfig) : Prop :=
  ∀ factory, registry.find? cfg.type = some factory → ∀ world,
    (∃ what, (factory cfg.instanceName cfg.params world).2 = .throws (.std what)) ∨
      (factory cfg.instanceName cfg.params world).2 = .null

theorem attempt_of_faulty {registry : Registry W} {cfg : CommandConfig} (h : registry.Faulty cfg)
    (i : ℕ) (current : DataPacket) (core : Core W) :
    ∃ message, (attempt registry i cfg current core).1 = .fault message := by
  unfold attempt
  cases hfind : registry.find? cfg.type with
  | none =>
    exact ⟨_, rfl⟩
  | some factory =>
    rcases h factory hfind core.world with ⟨what, hthrow⟩ | hnull
    · simp only [hthrow]
      exact ⟨_, rfl⟩
    · simp only [hnull]
      exact ⟨_, rfl⟩

/- A run that ended early did not end with success. -/
def Progress.NotSucceeded (p : Progress W) : Prop := ∀ packet, p.turn ≠ .leave (.ok (.ok packet))

theorem conclude_notSucceeded (onError : OnError) (instanceName : Str) (current : DataPacket)
    (tried : Attempt) (packet : DataPacket) :
    conclude onError instanceName current tried ≠ .leave (.ok (.ok packet)) := by
  rcases tried with message | - | (e | (packet | ⟨message, code⟩)) <;> cases onError <;>
    simp [conclude]

theorem referenceFold_notSucceeded (registry : Registry W) (onError : OnError)
    (pipeline : List CommandConfig) (initial : DataPacket) (world : W) :
    (referenceFold registry onError pipeline initial world).NotSucceeded := by
  refine refFrom_induction ?_ 0 pipeline ?_
  · intro p step hp
    rcases p with ⟨core, current | result⟩
    · exact conclude_notSucceeded onError step.1.instanceName current _
    · exact hp
  · intro packet h
    cases h

/- A run is ok only if it gets to the end of the pipeline. -/
theorem next_of_ok {registry : Registry W} {onError : OnError} {pipeline : List CommandConfig}
    {initial packet : DataPacket} {world : W}
    (h : (referenceFold registry onError pipeline initial world).result = .ok (.ok packet)) :
    (referenceFold registry onError pipeline initial world).turn = .next packet := by
  have hnot := referenceFold_notSucceeded registry onError pipeline initial world
  unfold Progress.result at h
  cases hturn : (referenceFold registry onError pipeline initial world).turn with
  | next current =>
    rw [hturn] at h
    rw [Result.ok.inj (Except.ok.inj h)]
  | leave result =>
    rw [hturn] at h
    exact absurd (hturn.trans (congrArg Turn.leave h)) (hnot packet)

/- A faulty step adds nothing to what the steps before it have invoked, and
the run does not get past it. -/
theorem referenceFold_of_faulty {registry : Registry W} (onError : OnError)
    {pipeline : List CommandConfig} {k : ℕ} {cfg : CommandConfig} (hk : pipeline[k]? = some cfg)
    (hfaulty : registry.Faulty cfg) (initial : DataPacket) (world : W) :
    (∃ result, (referenceFold registry onError pipeline initial world).turn = .leave result) ∧
      (referenceFold registry onError pipeline initial world).core.calls
        = (referenceFold registry onError (pipeline.take k) initial world).core.calls := by
  rw [referenceFold_split registry onError hk]
  rcases referenceFold registry onError (pipeline.take k) initial world
    with ⟨core, current | result⟩
  · obtain ⟨message, hmessage⟩ := attempt_of_faulty hfaulty k current core
    have hcalls : (attempt registry k cfg current core).2.calls = core.calls := by
      rcases attempt_shape registry k cfg current core with ⟨_, hcalls, _⟩ | ⟨call, hran, _⟩
      · exact hcalls
      · rw [hmessage] at hran
        cases hran
    rw [refStep_next, hmessage]
    simp only [conclude, refFrom_leave]
    exact ⟨⟨_, rfl⟩, hcalls⟩
  · have hstay : refStep registry onError ⟨core, .leave result⟩ (cfg, k) = ⟨core, .leave result⟩ := rfl
    rw [hstay, refFrom_leave]
    exact ⟨⟨result, rfl⟩, rfl⟩

theorem referenceFold_calls_lt (registry : Registry W) (onError : OnError)
    (pipeline : List CommandConfig) (k : ℕ) (initial : DataPacket) (world : W) :
    ∀ call ∈ (referenceFold registry onError (pipeline.take k) initial world).core.calls,
      call.step < k := by
  intro call hcall
  rcases refFrom_call_step registry onError 0 (pipeline.take k) _ call hcall with hnone | ⟨_, hlt⟩
  · cases hnone
  · rw [List.length_take] at hlt
    omega

/-! ### How far the steps before it get -/

/- The type is registered, and its factory returns a command in whatever world
it is called. -/
def Registry.Provides (registry : Registry W) (cfg : CommandConfig) : Prop :=
  ∃ factory, registry.find? cfg.type = some factory ∧
    ∀ world, ∃ cmd, (factory cfg.instanceName cfg.params world).2 = .command cmd

theorem attempt_of_provides {registry : Registry W} {cfg : CommandConfig}
    (h : registry.Provides cfg) (i : ℕ) (current : DataPacket) (core : Core W) :
    ∃ call : Invocation, (attempt registry i cfg current core).1 = .ran call.outcome ∧
      (attempt registry i cfg current core).2.calls = core.calls ++ [call] ∧ call.packet = current := by
  obtain ⟨factory, hfind, hcommand⟩ := h
  obtain ⟨cmd, hcmd⟩ := hcommand core.world
  obtain ⟨outcome, hout⟩ :=
    (attempt_ran_iff registry i cfg current core).mpr ⟨factory, cmd, hfind, hcmd⟩
  rcases attempt_shape registry i cfg current core with ⟨hnot, _⟩ |
    ⟨call, hran, hcalls, _, _, _, _, _, hpacket, _⟩
  · exact absurd hout (hnot outcome)
  · exact ⟨call, hran, hcalls, hpacket⟩

/- All `n` steps have been invoked, and under HALT none has failed; or the last
one invoked has failed, under HALT, and it is the only one. -/
def Progress.GotThrough (p : Progress W) (onError : OnError) (n : ℕ) : Prop :=
  ((∃ current, p.turn = .next current) ∧ p.core.calls.length = n ∧
      (onError = .HALT → ∀ call ∈ p.core.calls, call.succeeded = true)) ∨
    ((∃ result, p.turn = .leave result) ∧ onError = .HALT ∧
      ∃ before failed, p.core.calls = before ++ [failed] ∧ before.length < n ∧
        failed.succeeded = false ∧ ∀ call ∈ before, call.succeeded = true)

theorem referenceFold_gotThrough {registry : Registry W} (onError : OnError)
    {pipeline : List CommandConfig} (h : ∀ cfg ∈ pipeline, registry.Provides cfg)
    (initial : DataPacket) (world : W) :
    (referenceFold registry onError pipeline initial world).GotThrough onError pipeline.length := by
  induction pipeline using List.reverseRecOn with
  | nil =>
    exact .inl ⟨⟨initial, rfl⟩, rfl, fun _ _ hcall => absurd hcall List.not_mem_nil⟩
  | append_singleton pipeline last ih =>
    have hlast : registry.Provides last := h last (List.mem_append_right _ List.mem_cons_self)
    have hbefore := ih fun cfg hcfg => h cfg (List.mem_append_left _ hcfg)
    rw [referenceFold_concat, List.length_append, List.length_singleton]
    rcases hp : referenceFold registry onError pipeline initial world with ⟨core, current | result⟩
    · rw [hp] at hbefore
      rcases hbefore with ⟨_, hlen, hgood⟩ | ⟨⟨_, hleave⟩, _⟩
      · obtain ⟨call, hran, hcalls, hpacket⟩ :=
          attempt_of_provides hlast pipeline.length current core
        rw [refStep_next, hran]
        cases onError with
        | HALT =>
          cases hsucc : call.succeeded with
          | true =>
            refine .inl ⟨⟨call.packetAfter, ?_⟩, ?_, ?_⟩
            · rw [← hpacket]
              exact conclude_halt_of_succeeded last.instanceName call hsucc
            · simp only [hcalls, List.length_append, List.length_singleton]
              rw [hlen]
            · intro _ c hc
              simp only [hcalls] at hc
              rcases List.mem_append.mp hc with hold | hnew
              · exact hgood rfl c hold
              · rw [List.mem_singleton.mp hnew, hsucc]
          | false =>
            refine .inr ⟨conclude_halt_of_failed last.instanceName current call hsucc, rfl,
              core.calls, call, hcalls, ?_, hsucc, hgood rfl⟩
            rw [hlen]
            exact Nat.lt_succ_self _
        | CONTINUE =>
          refine .inl ⟨⟨call.packetAfter, ?_⟩, ?_, ?_⟩
          · rw [← hpacket]
            exact conclude_continue last.instanceName call
          · simp only [hcalls, List.length_append, List.length_singleton]
            rw [hlen]
          · intro hhalt
            cases hhalt
      · cases hleave
    · rw [hp] at hbefore
      rcases hbefore with ⟨⟨_, hnext⟩, _⟩ | ⟨_, hhalt, before, failed, hcalls, hlt, hrest⟩
      · cases hnext
      · exact .inr ⟨⟨result, rfl⟩, hhalt, before, failed, hcalls, Nat.lt_succ_of_lt hlt, hrest⟩

/- All steps of a pipeline without a fault are invoked unless, under HALT, one
before the last fails. -/
theorem referenceFold_invokes_all_iff {registry : Registry W} (onError : OnError)
    {pipeline : List CommandConfig} (h : ∀ cfg ∈ pipeline, registry.Provides cfg)
    (initial : DataPacket) (world : W) :
    (referenceFold registry onError pipeline initial world).core.calls.map Invocation.step
        = List.range pipeline.length ↔
      (onError = .HALT →
        ∀ call ∈ (referenceFold registry onError pipeline initial world).core.calls,
          call.step + 1 < pipeline.length → call.succeeded = true) := by
  have hsteps := (referenceFold_covers registry onError pipeline initial world).steps
  have hreached := referenceFold_gotThrough onError h initial world
  generalize referenceFold registry onError pipeline initial world = p at hsteps hreached ⊢
  rcases hreached with ⟨_, hlen, hgood⟩ | ⟨_, hhalt, before, failed, hcalls, hlt, hfailed, hgood⟩
  · constructor
    · intro _ hhalt call hcall _
      exact hgood hhalt call hcall
    · intro _
      rw [hsteps, hlen]
  · have hlength : p.core.calls.length = before.length + 1 := by
      rw [hcalls, List.length_append, List.length_singleton]
    have hstep : failed.step = before.length := by
      rw [hlength, hcalls, List.map_append, List.range_succ] at hsteps
      have hend := (List.append_inj' hsteps rfl).2
      exact List.head_eq_of_cons_eq hend
    constructor
    · intro hall _ call hcall hbefore
      have hk : before.length + 1 = pipeline.length := by
        have hcount := congrArg List.length hall
        rwa [List.length_map, List.length_range, hlength] at hcount
      rw [hcalls] at hcall
      rcases List.mem_append.mp hcall with hold | hnew
      · exact hgood call hold
      · rw [List.mem_singleton.mp hnew, hstep] at hbefore
        omega
    · intro hnone
      have hk : before.length + 1 = pipeline.length := by
        rcases Nat.lt_or_ge (before.length + 1) pipeline.length with hmore | hless
        · have hmem : failed ∈ p.core.calls := by
            rw [hcalls]
            exact List.mem_append_right _ List.mem_cons_self
          have hsucc := hnone hhalt failed hmem (by rwa [hstep])
          rw [hfailed] at hsucc
          cases hsucc
        · omega
      rw [hsteps, hlength, hk]

section
variable [FloatText]

theorem execute_invokes_initial_steps (registry : Registry W) (config : WorkflowDefinition)
    (initial : DataPacket) (s : State W) :
    ∃ m, (stateOf ((execute registry config initial).run s)).core.calls.map Invocation.step
        = List.range m ∧
      ∀ call ∈ (stateOf ((execute registry config initial).run s)).core.calls,
        call.IsOf config.pipeline := by
  have hcovers := referenceFold_covers registry config.onError config.pipeline initial s.core.world
  have hwithin : (stateOf ((execute registry config initial).run s)).core.calls <+:
      (referenceFold registry config.onError config.pipeline initial s.core.world).core.calls :=
    execute_calls_within rfl
  have hsteps := hwithin.map Invocation.step
  rw [hcovers.steps, List.prefix_iff_eq_take, List.take_range] at hsteps
  exact ⟨_, hsteps, fun call hcall => hcovers.isOf call (hwithin.subset hcall)⟩

/- The faulty step and the steps after it never run, and the run does not
succeed. What does run is an initial part of the steps before it, in order. -/
theorem execute_stops_at_faulty_step (registry : Registry W) (config : WorkflowDefinition)
    (initial : DataPacket) (s : State W) (k : ℕ) (cfg : CommandConfig)
    (hk : config.pipeline[k]? = some cfg) (hfaulty : registry.Faulty cfg) :
    (∀ call ∈ (stateOf ((execute registry config initial).run s)).core.calls, call.step < k) ∧
      (∀ r s', (execute registry config initial).run s = .ok r s' → r.isError = true) ∧
      (SnapshotsSerialise config
          (referenceFold registry config.onError config.pipeline initial s.core.world).core.calls →
        registry.ThrowsOnlyStd →
        ∃ message code s', (execute registry config initial).run s = .ok (.error message code) s') ∧
      (∃ m ≤ k, (stateOf ((execute registry config initial).run s)).core.calls.map Invocation.step
          = List.range m ∧
        ∀ call ∈ (stateOf ((execute registry config initial).run s)).core.calls,
          call.IsOf config.pipeline) ∧
      (SnapshotsSerialise config
          (referenceFold registry config.onError config.pipeline initial s.core.world).core.calls →
        (∀ before ∈ config.pipeline.take k, registry.Provides before) →
        ((stateOf ((execute registry config initial).run s)).core.calls.map Invocation.step
            = List.range k ↔
          (config.onError = .HALT →
            ∀ call ∈ (stateOf ((execute registry config initial).run s)).core.calls,
              call.step + 1 < k → call.succeeded = true))) := by
  obtain ⟨⟨result, hturn⟩, hcalls⟩ :=
    referenceFold_of_faulty config.onError hk hfaulty initial s.core.world
  have hnot := referenceFold_notSucceeded registry config.onError config.pipeline initial s.core.world
  have hwithin : (stateOf ((execute registry config initial).run s)).core.calls <+:
      (referenceFold registry config.onError config.pipeline initial s.core.world).core.calls :=
    execute_calls_within rfl
  have hlt : ∀ call ∈ (stateOf ((execute registry config initial).run s)).core.calls,
      call.step < k := by
    intro call hcall
    have hfold := hwithin.subset hcall
    rw [hcalls] at hfold
    exact referenceFold_calls_lt registry config.onError config.pipeline k initial s.core.world call
      hfold
  have herror : ∀ r s', (execute registry config initial).run s = .ok r s' → r.isError = true := by
    intro r s' hrun
    have hr := (execute_returns_reference rfl hrun).1
    unfold Progress.result at hr
    rw [hturn] at hr
    cases r with
    | ok packet =>
      exact absurd (hturn.trans (congrArg Turn.leave hr)) (hnot packet)
    | error message code =>
      rfl
  refine ⟨hlt, herror, ?_, ?_, ?_⟩
  · intro hserialise hstd
    have hreach := reachesNoForeignThrow_of_throwsOnlyStd hstd config.onError config.pipeline initial
      s.core.world
    have hesc := (referenceFold_escaped_iff registry config.onError config.pipeline initial
      s.core.world).not.mpr (not_not.mpr hreach)
    obtain ⟨r, s', hrun⟩ := (execute_returns_iff rfl hserialise).mpr hesc
    cases r with
    | ok packet =>
      cases herror _ _ hrun
    | error message code =>
      exact ⟨message, code, s', hrun⟩
  · obtain ⟨m, hm, hisOf⟩ := execute_invokes_initial_steps registry config initial s
    refine ⟨m, ?_, hm, hisOf⟩
    by_contra hmore
    have hmem : k ∈ List.range m := List.mem_range.mpr (Nat.lt_of_not_le hmore)
    rw [← hm] at hmem
    obtain ⟨call, hcall, hstep⟩ := List.mem_map.mp hmem
    exact absurd (hlt call hcall) (hstep ▸ Nat.lt_irrefl _)
  · intro hserialise hprovides
    have hcore := core_execute (s := s) rfl hserialise
    have hlength : (config.pipeline.take k).length = k := by
      rw [List.length_take]
      exact Nat.min_eq_left (Nat.le_of_lt (List.getElem?_eq_some_iff.mp hk).1)
    have hall := referenceFold_invokes_all_iff config.onError hprovides initial s.core.world
    rw [hlength] at hall
    rw [hcore, hcalls]
    exact hall

end

theorem faulty_missing : mockRegistry.Faulty (mockStep "Missing") := by
  intro factory hfind
  have hnone : mockRegistry.find? (mockStep "Missing").type = none := rfl
  rw [hnone] at hfind
  cases hfind

theorem provides_mockStep {react : DataPacket → Except Exn (Result DataPacket)} {type : String}
    (h : mockRegistry.find? (lit type) = some (mockFactory react)) :
    mockRegistry.Provides (mockStep type) := ⟨mockFactory react, h, fun _ => ⟨_, rfl⟩⟩

/- Both steps before the missing one run, although one of them fails. -/
theorem execute_stops_at_faulty_step_mock :
    letI := mockFloatText
    (∀ call ∈ (stateOf ((execute mockRegistry (mockConfig .CONTINUE false ["Pass", "Fail", "Missing"])
        .empty).run mockState)).core.calls, call.step < 2) ∧
      (∃ message code s', (execute mockRegistry
        (mockConfig .CONTINUE false ["Pass", "Fail", "Missing"]) .empty).run mockState
          = .ok (.error message code) s') ∧
      (stateOf ((execute mockRegistry (mockConfig .CONTINUE false ["Pass", "Fail", "Missing"])
        .empty).run mockState)).core.calls.map Invocation.step = List.range 2 := by
  obtain ⟨hbefore, _, herror, _, hall⟩ := @execute_stops_at_faulty_step Unit mockFloatText mockRegistry
    (mockConfig .CONTINUE false ["Pass", "Fail", "Missing"]) .empty mockState 2 (mockStep "Missing") rfl
    faulty_missing
  have hserialise := snapshotsSerialise_of_unaudited
    (show (mockConfig .CONTINUE false ["Pass", "Fail", "Missing"]).audit = false from rfl)
  have hprovides : ∀ cfg ∈ (mockConfig .CONTINUE false ["Pass", "Fail", "Missing"]).pipeline.take 2,
      mockRegistry.Provides cfg := by
    intro cfg hcfg
    rcases List.mem_pair.mp hcfg with rfl | rfl
    · exact provides_mockStep rfl
    · exact provides_mockStep rfl
  refine ⟨hbefore, herror (hserialise _) throwsOnlyStd_mockRegistry, ?_⟩
  apply (hall (hserialise _) hprovides).mpr
  intro hhalt
  cases hhalt

/- The command before an unregistered type does run. -/
theorem execute_starts_despite_faulty_step :
    letI := mockFloatText
    ¬ ∀ (config : WorkflowDefinition) (initial : DataPacket) (s : State Unit),
      (∃ cfg ∈ config.pipeline, mockRegistry.Faulty cfg) →
      ∃ message code s', (execute mockRegistry config initial).run s = .ok (.error message code) s' ∧
        s'.core.calls = [] := by
  let _ := mockFloatText
  intro h
  have hfault : ∃ cfg ∈ (mockConfig .HALT false ["Pass", "Missing"]).pipeline,
      mockRegistry.Faulty cfg := ⟨mockStep "Missing", by simp [mockConfig], faulty_missing⟩
  obtain ⟨message, code, s', hrun, hcalls⟩ :=
    h (mockConfig .HALT false ["Pass", "Missing"]) .empty mockState hfault
  have hlen : (stateOf ((execute mockRegistry (mockConfig .HALT false ["Pass", "Missing"])
      .empty).run mockState)).core.calls.length = 1 := rfl
  rw [hrun] at hlen
  simp [stateOf, hcalls] at hlen

end Workflow
