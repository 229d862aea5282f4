import Workflow.Faults
import Workflow.RunShape
import Workflow.SnapshotFailure

/-!
# CONTINUE is HALT with the failing steps deleted

For pure commands that leave the bus alone when they fail, a CONTINUE run
reaches the packet and the bus that a HALT run of the surviving steps reaches.
Under audit this takes strings that serialise: a snapshot of any other string
throws out of the engine, under either policy.
-/

namespace Workflow
open Observe

/- The pipeline without the steps whose invocation failed. -/
def survivors (pipeline : List CommandConfig) (calls : List Invocation) : List CommandConfig :=
  ((pipeline.zip calls).filter fun e => e.2.succeeded).map Prod.fst

/- The type is registered, and its factory returns a command. -/
def Registry.Ready (registry : Registry Unit) (cfg : CommandConfig) : Prop :=
  ∃ factory cmd, registry.find? cfg.type = some factory ∧
    (factory cfg.instanceName cfg.params ()).2 = .command cmd

theorem attempt_of_ready {registry : Registry Unit} {cfg : CommandConfig} (h : registry.Ready cfg)
    (packet : DataPacket) (bus : DataBus) :
    ∃ run : CommandRun Unit, ∀ i calls, attempt registry i cfg packet ⟨(), bus, calls⟩
      = (.ran run.outcome, ⟨(), run.bus, calls ++
          [⟨i, cfg.type, cfg.instanceName, cfg.params, packet, bus, run.bus, run.outcome⟩]⟩) := by
  obtain ⟨factory, cmd, hfind, hcmd⟩ := h
  refine ⟨cmd packet bus (), fun i calls => ?_⟩
  unfold attempt
  rw [hfind]
  show attemptWith i cfg packet ⟨(), bus, calls⟩ (factory cfg.instanceName cfg.params ()).2 = _
  rw [hcmd]
  rfl

/- The two runs side by side; `i` and `j` are the indices of the next step in
either pipeline. A failing step is absent from the HALT run, and it changes
neither the packet nor the bus of the CONTINUE run. -/
theorem continue_simulates_halt {registry : Registry Unit} {pipeline : List CommandConfig}
    (hready : ∀ cfg ∈ pipeline, registry.Ready cfg) (i j : ℕ) (packet : DataPacket) (bus : DataBus)
    (calls calls₂ : List Invocation) :
    ∃ new packet' bus', refFrom registry .CONTINUE i pipeline ⟨⟨(), bus, calls⟩, .next packet⟩
        = ⟨⟨(), bus', calls ++ new⟩, .next packet'⟩ ∧
      ((∀ call ∈ new, call.succeeded = false → call.busAfter = call.bus) →
        ∃ new₂, refFrom registry .HALT j (survivors pipeline new) ⟨⟨(), bus, calls₂⟩, .next packet⟩
            = ⟨⟨(), bus', calls₂ ++ new₂⟩, .next packet'⟩ ∧
          ∀ c₂ ∈ new₂, ∃ c ∈ new, c₂ = { c with step := c₂.step }) := by
  induction pipeline generalizing i j packet bus calls calls₂ with
  | nil =>
    refine ⟨[], packet, bus, by rw [List.append_nil]; rfl, fun _ => ⟨[], ?_, ?_⟩⟩
    · rw [List.append_nil]
      rfl
    · intro c₂ hc₂
      cases hc₂
  | cons cfg pipeline ih =>
    obtain ⟨run, hrun⟩ := attempt_of_ready (hready cfg List.mem_cons_self) packet bus
    have hrest : ∀ cfg ∈ pipeline, registry.Ready cfg := fun cfg hcfg =>
      hready cfg (List.mem_cons_of_mem _ hcfg)
    let call : ℕ → Invocation := fun step =>
      ⟨step, cfg.type, cfg.instanceName, cfg.params, packet, bus, run.bus, run.outcome⟩
    have hstep : ∀ rest, refFrom registry .CONTINUE i (cfg :: rest) ⟨⟨(), bus, calls⟩, .next packet⟩
        = refFrom registry .CONTINUE (i + 1) rest
            ⟨⟨(), run.bus, calls ++ [call i]⟩, .next (call i).packetAfter⟩ := by
      intro rest
      rw [refFrom_cons, refStep_next, hrun, ← conclude_continue cfg.instanceName (call i)]
    cases hsucc : (call i).succeeded with
    | false =>
      obtain ⟨new, packet', bus', hcontinue, hhalt⟩ :=
        ih hrest (i + 1) j packet run.bus (calls ++ [call i]) calls₂
      refine ⟨call i :: new, packet', bus', ?_, ?_⟩
      · rw [hstep, packetAfter_of_failed hsucc, hcontinue, List.append_assoc]
        rfl
      · intro hkept
        have hbus : run.bus = bus := hkept (call i) List.mem_cons_self hsucc
        obtain ⟨new₂, hfold, hsame⟩ := hhalt fun c hc => hkept c (List.mem_cons_of_mem _ hc)
        have hdrop : survivors (cfg :: pipeline) (call i :: new) = survivors pipeline new := by
          simp [survivors, hsucc]
        refine ⟨new₂, ?_, ?_⟩
        · rw [hdrop, ← hbus, hfold]
        · intro c₂ hc₂
          obtain ⟨c, hc, heq⟩ := hsame c₂ hc₂
          exact ⟨c, List.mem_cons_of_mem _ hc, heq⟩
    | true =>
      obtain ⟨new, packet', bus', hcontinue, hhalt⟩ :=
        ih hrest (i + 1) (j + 1) (call i).packetAfter run.bus (calls ++ [call i]) (calls₂ ++ [call j])
      refine ⟨call i :: new, packet', bus', ?_, ?_⟩
      · rw [hstep, hcontinue, List.append_assoc]
        rfl
      · intro hkept
        obtain ⟨new₂, hfold, hsame⟩ := hhalt fun c hc => hkept c (List.mem_cons_of_mem _ hc)
        have hkeep : survivors (cfg :: pipeline) (call i :: new) = cfg :: survivors pipeline new := by
          simp [survivors, hsucc]
        have hnext : conclude .HALT cfg.instanceName packet (.ran run.outcome)
            = .next (call i).packetAfter :=
          conclude_halt_of_succeeded cfg.instanceName (call i) hsucc
        refine ⟨call j :: new₂, ?_, ?_⟩
        · rw [hkeep, refFrom_cons, refStep_next, hrun, hnext, hfold, List.append_assoc]
          rfl
        · intro c₂ hc₂
          rcases List.mem_cons.mp hc₂ with rfl | hc₂
          · exact ⟨call i, List.mem_cons_self, rfl⟩
          · obtain ⟨c, hc, heq⟩ := hsame c₂ hc₂
            exact ⟨c, List.mem_cons_of_mem _ hc, heq⟩

theorem conclude_continue_of_halt_next {instanceName : Str} {current packet : DataPacket}
    {tried : Attempt} (h : conclude .HALT instanceName current tried = .next packet) :
    conclude .CONTINUE instanceName current tried = .next packet := by
  rcases tried with message | - | (e | (packet' | ⟨message, code⟩)) <;>
    simp only [conclude, reduceCtorEq] at h ⊢
  exact h

/- A HALT run that reached its end is also the CONTINUE run. -/
theorem refFrom_continue_of_halt_next {W : Type} {registry : Registry W} {i : ℕ}
    {pipeline : List CommandConfig} {p : Progress W} {packet : DataPacket}
    (h : (refFrom registry .HALT i pipeline p).turn = .next packet) :
    refFrom registry .CONTINUE i pipeline p = refFrom registry .HALT i pipeline p := by
  induction pipeline generalizing i p with
  | nil => rfl
  | cons cfg pipeline ih =>
    rw [refFrom_cons] at h ⊢
    rw [refFrom_cons]
    have hsame : refStep registry .CONTINUE p (cfg, i) = refStep registry .HALT p (cfg, i) := by
      rcases p with ⟨core, current | result⟩
      · rcases hturn : conclude .HALT cfg.instanceName current (attempt registry i cfg current core).1
          with next | result
        · rw [refStep_next, refStep_next, hturn, conclude_continue_of_halt_next hturn]
        · rw [refStep_next, hturn, refFrom_leave] at h
          cases h
      · rfl
    rw [hsame]
    exact ih h

/-! ### The engine -/

def FailuresKeepBus (calls : List Invocation) : Prop :=
  ∀ call ∈ calls, call.succeeded = false → call.busAfter = call.bus

def WorkflowDefinition.under (config : WorkflowDefinition) (onError : OnError) : WorkflowDefinition :=
  { config with onError := onError }

def WorkflowDefinition.surviving (config : WorkflowDefinition) (calls : List Invocation) :
    WorkflowDefinition :=
  { config with onError := .HALT, pipeline := survivors config.pipeline calls }

section
variable [FloatText]

/- From `s` the CONTINUE run is ok; a HALT run of the surviving steps, from any
state, ends with the same packet and bus, and so does a HALT run of the whole
pipeline if it is ok. -/
def ContinueMatchesHalt (registry : Registry Unit) (config : WorkflowDefinition)
    (initial : DataPacket) (s : State Unit) : Prop :=
  ∃ packet s₁, (execute registry (config.under .CONTINUE) initial).run s = .ok (.ok packet) s₁ ∧
    (∀ t, ∃ s₂, (execute registry (config.surviving s₁.core.calls) initial).run t = .ok (.ok packet) s₂ ∧
      s₂.core.bus = s₁.core.bus) ∧
    (∀ t packet' s₂, (execute registry (config.under .HALT) initial).run t = .ok (.ok packet') s₂ →
      packet' = packet ∧ s₂.core.bus = s₁.core.bus)

/- It does so, whatever the file system answers, exactly when nothing is audited
or every snapshot of the CONTINUE run serialises. -/
theorem continueMatchesHalt_iff (registry : Registry Unit) (config : WorkflowDefinition)
    (initial : DataPacket) (hready : ∀ cfg ∈ config.pipeline, registry.Ready cfg)
    (hkept : FailuresKeepBus (referenceFold registry .CONTINUE config.pipeline initial ()).core.calls) :
    (∀ s, ContinueMatchesHalt registry config initial s) ↔
      SnapshotsSerialise (config.under .CONTINUE)
        (referenceFold registry .CONTINUE config.pipeline initial ()).core.calls := by
  constructor
  · intro h
    obtain ⟨packet, s₁, hrun, _⟩ := h mockState
    exact snapshotsSerialise_of_execute_returns rfl rfl hrun
  · intro hserialise s
    obtain ⟨calls, packet, bus, hcontinue, hhalt⟩ :=
      continue_simulates_halt hready 0 0 initial .empty [] []
    have hfold : referenceFold registry .CONTINUE config.pipeline initial ()
        = ⟨⟨(), bus, calls⟩, .next packet⟩ := hcontinue
    rw [hfold] at hkept hserialise
    obtain ⟨calls₂, hsurvivors, hsame⟩ := hhalt hkept
    have hseen : seen State.core ((execute registry (config.under .CONTINUE) initial).run s)
        = .ok (.ok packet) ⟨(), bus, calls⟩ := seen_core_execute hfold.symm hserialise
    obtain ⟨s₁, hrun, hcore⟩ := exists_of_seen_ok hseen
    have hcalls : s₁.core.calls = calls := by rw [hcore]
    have hbus : s₁.core.bus = bus := by rw [hcore]
    refine ⟨packet, s₁, hrun, ?_, ?_⟩
    · intro t
      rw [hcalls, hbus]
      have hserialise₂ : SnapshotsSerialise (config.surviving calls) calls₂ := by
        intro haudit c₂ hc₂
        obtain ⟨c, hc, heq⟩ := hsame c₂ hc₂
        rw [heq]
        exact hserialise haudit c hc
      have hfold₂ : (⟨⟨(), bus, calls₂⟩, .next packet⟩ : Progress Unit) = referenceFold registry
          (config.surviving calls).onError (config.surviving calls).pipeline initial () :=
        hsurvivors.symm
      have hseen₂ : seen State.core ((execute registry (config.surviving calls) initial).run t)
          = .ok (.ok packet) ⟨(), bus, calls₂⟩ := seen_core_execute hfold₂ hserialise₂
      obtain ⟨s₂, hrun₂, hcore₂⟩ := exists_of_seen_ok hseen₂
      exact ⟨s₂, hrun₂, by rw [hcore₂]⟩
    · intro t packet' s₂ hrun₂
      obtain ⟨hresult, hcore₂⟩ := execute_returns_reference rfl hrun₂
      have hturn : (referenceFold registry .HALT config.pipeline initial ()).turn = .next packet' :=
        next_of_ok hresult
      have hboth : referenceFold registry .HALT config.pipeline initial ()
          = ⟨⟨(), bus, calls⟩, .next packet⟩ := by
        rw [← hfold]
        exact (refFrom_continue_of_halt_next hturn).symm
      have hcore₂' : s₂.core = (referenceFold registry .HALT config.pipeline initial ()).core := hcore₂
      rw [hboth] at hturn hcore₂'
      exact ⟨(Turn.next.inj hturn).symm, by rw [hcore₂', hbus]⟩

end

theorem ready_mock {type : String} (react : DataPacket → Except Exn (Result DataPacket))
    (h : mockRegistry.find? (lit type) = some (mockFactory react)) :
    mockRegistry.Ready (mockStep type) := ⟨mockFactory react, _, h, rfl⟩

theorem ready_mockConfig (onError : OnError) (audit : Bool) :
    ∀ cfg ∈ (mockConfig onError audit ["Pass", "Fail"]).pipeline, mockRegistry.Ready cfg := by
  intro cfg hcfg
  rcases List.mem_pair.mp hcfg with rfl | rfl
  · exact ready_mock (fun packet => .ok (.ok packet)) rfl
  · exact ready_mock (fun _ => .ok (.error (lit "no input") 7)) rfl

theorem failuresKeepBus_mock (initial : DataPacket) :
    FailuresKeepBus (referenceFold mockRegistry .CONTINUE
      (mockConfig .CONTINUE true ["Pass", "Fail"]).pipeline initial ()).core.calls := by
  intro call hcall _
  rcases List.mem_pair.mp (show call ∈ [_, _] from hcall) with rfl | rfl
  · rfl
  · rfl

theorem continueMatchesHalt_iff_mock :
    letI := mockFloatText
    (∀ s, ContinueMatchesHalt mockRegistry (mockConfig .CONTINUE true ["Pass", "Fail"]) .empty s) ↔
      SnapshotsSerialise (mockConfig .CONTINUE true ["Pass", "Fail"]) (referenceFold mockRegistry
        .CONTINUE (mockConfig .CONTINUE true ["Pass", "Fail"]).pipeline .empty ()).core.calls :=
  letI := mockFloatText
  continueMatchesHalt_iff mockRegistry (mockConfig .CONTINUE true ["Pass", "Fail"]) .empty
    (ready_mockConfig .CONTINUE true) (failuresKeepBus_mock .empty)

/- A packet with one string that is not UTF-8. -/
def latinPacket : DataPacket := DataPacket.empty.set (lit "name") (.string [255])

theorem continue_run_breaks_off :
    letI := mockFloatText
    (∀ cfg ∈ (mockConfig .CONTINUE true ["Pass", "Fail"]).pipeline, mockRegistry.Ready cfg) ∧
      FailuresKeepBus (referenceFold mockRegistry .CONTINUE
        (mockConfig .CONTINUE true ["Pass", "Fail"]).pipeline latinPacket ()).core.calls ∧
      ¬ ContinueMatchesHalt mockRegistry (mockConfig .CONTINUE true ["Pass", "Fail"]) latinPacket
        mockState := by
  refine ⟨ready_mockConfig .CONTINUE true, failuresKeepBus_mock latinPacket, ?_⟩
  intro ⟨packet, s₁, hrun, _⟩
  cases hrun

end Workflow
