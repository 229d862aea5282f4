import Mathlib.Data.List.Range
import Workflow.Engine

/-!
# The meaning of a pipeline

A run is a left-to-right fold over the pipeline. `attempt` says what plugin
code makes of one step, `conclude` what the error policy makes of that. The
log, the snapshots and the dependency warnings have no place in it.
-/

namespace Workflow
open Observe

variable {W : Type}

/- A fault before any command ran, an exception no handler takes, or one
invocation and how it ended. -/
inductive Attempt where
  | fault (message : Str)
  | escape
  | ran (outcome : Except Exn (Result DataPacket))

def attemptWith (i : ℕ) (cfg : CommandConfig) (current : DataPacket) (core : Core W) :
    FactoryOutcome (Command W) → Attempt × Core W
  | .throws (.std what) => (.fault (instantiateMessage cfg what), core)
  | .throws .other => (.escape, core)
  | .null => (.fault (nullCommandMessage cfg), core)
  | .command cmd =>
    let run := cmd current core.bus core.world
    (.ran run.outcome, core.afterCall i cfg current run)

def attempt (registry : Registry W) (i : ℕ) (cfg : CommandConfig) (current : DataPacket)
    (core : Core W) : Attempt × Core W :=
  match registry.find? cfg.type with
  | none => (.fault (unknownTypeMessage i cfg), core)
  | some factory =>
    let made := factory cfg.instanceName cfg.params core.world
    attemptWith i cfg current { core with world := made.1 } made.2

/- A fault ends the run under both policies. -/
def conclude (onError : OnError) (instanceName : Str) (current : DataPacket) :
    Attempt → Turn DataPacket (Except Exn (Result DataPacket))
  | .fault message => .leave (.ok (.error message (-1)))
  | .escape => .leave (.error .other)
  | .ran (.ok (.ok packet)) => .next packet
  | .ran (.ok (.error message code)) =>
    match onError with
    | .HALT => .leave (.ok (.error message code))
    | .CONTINUE => .next current
  | .ran (.error e) =>
    match onError with
    | .HALT => .leave (.ok (.error (exceptionMessage instanceName e) (-1)))
    | .CONTINUE => .next current

/- Where the fold stands: the packet for the next step, or the end of the run. -/
structure Progress (W : Type) where
  core : Core W
  turn : Turn DataPacket (Except Exn (Result DataPacket))

def refStep (registry : Registry W) (onError : OnError) (p : Progress W) (step : CommandConfig × ℕ) :
    Progress W :=
  match p.turn with
  | .leave _ => p
  | .next current =>
    let tried := attempt registry step.2 step.1 current p.core
    ⟨tried.2, conclude onError step.1.instanceName current tried.1⟩

/- The fold from a given state on; `i` is the index of the first step. -/
def refFrom (registry : Registry W) (onError : OnError) (i : ℕ) (pipeline : List CommandConfig)
    (p : Progress W) : Progress W :=
  (pipeline.zipIdx i).foldl (refStep registry onError) p

def referenceFold (registry : Registry W) (onError : OnError) (pipeline : List CommandConfig)
    (initial : DataPacket) (world : W) : Progress W :=
  refFrom registry onError 0 pipeline ⟨⟨world, .empty, []⟩, .next initial⟩

namespace Progress

def result (p : Progress W) : Except Exn (Result DataPacket) :=
  match p.turn with
  | .next packet => .ok (.ok packet)
  | .leave result => result

def ending (p : Progress W) : EStateM.Result Exn (Core W) (Result DataPacket) :=
  match p.result with
  | .ok result => .ok result p.core
  | .error e => .error e p.core

def stepEnding (p : Progress W) :
    EStateM.Result Exn (Core W) (Turn DataPacket (Result DataPacket)) :=
  match p.turn with
  | .next packet => .ok (.next packet) p.core
  | .leave (.ok result) => .ok (.leave result) p.core
  | .leave (.error e) => .error e p.core

end Progress

theorem stateOf_ending (p : Progress W) : stateOf p.ending = p.core := by
  unfold Progress.ending
  cases p.result <;> rfl

@[simp] theorem refStep_next (registry : Registry W) (onError : OnError) (core : Core W)
    (current : DataPacket) (cfg : CommandConfig) (i : ℕ) :
    refStep registry onError ⟨core, .next current⟩ (cfg, i)
      = ⟨(attempt registry i cfg current core).2,
          conclude onError cfg.instanceName current (attempt registry i cfg current core).1⟩ := rfl

@[simp] theorem refFrom_nil (registry : Registry W) (onError : OnError) (i : ℕ) (p : Progress W) :
    refFrom registry onError i [] p = p := rfl

@[simp] theorem refFrom_cons (registry : Registry W) (onError : OnError) (i : ℕ)
    (cfg : CommandConfig) (pipeline : List CommandConfig) (p : Progress W) :
    refFrom registry onError i (cfg :: pipeline) p
      = refFrom registry onError (i + 1) pipeline (refStep registry onError p (cfg, i)) := rfl

theorem refFrom_leave (registry : Registry W) (onError : OnError) (i : ℕ)
    (pipeline : List CommandConfig) (core : Core W) (result : Except Exn (Result DataPacket)) :
    refFrom registry onError i pipeline ⟨core, .leave result⟩ = ⟨core, .leave result⟩ := by
  induction pipeline generalizing i with
  | nil => rfl
  | cons cfg pipeline ih => exact ih (i + 1)

theorem refFrom_append (registry : Registry W) (onError : OnError) (i : ℕ)
    (pipeline rest : List CommandConfig) (p : Progress W) :
    refFrom registry onError i (pipeline ++ rest) p
      = refFrom registry onError (i + pipeline.length) rest (refFrom registry onError i pipeline p) := by
  unfold refFrom
  rw [List.zipIdx_append, List.foldl_append]

theorem referenceFold_concat (registry : Registry W) (onError : OnError)
    (pipeline : List CommandConfig) (cfg : CommandConfig) (initial : DataPacket) (world : W) :
    referenceFold registry onError (pipeline ++ [cfg]) initial world
      = refStep registry onError (referenceFold registry onError pipeline initial world)
          (cfg, pipeline.length) := by
  unfold referenceFold
  rw [refFrom_append, refFrom_cons, refFrom_nil, Nat.zero_add]

/- Step `k` starts from what the fold over the steps before it left. -/
theorem referenceFold_split (registry : Registry W) (onError : OnError) {pipeline : List CommandConfig}
    {k : ℕ} {cfg : CommandConfig} (hk : pipeline[k]? = some cfg) (initial : DataPacket) (world : W) :
    referenceFold registry onError pipeline initial world
      = refFrom registry onError (k + 1) (pipeline.drop (k + 1))
          (refStep registry onError
            (referenceFold registry onError (pipeline.take k) initial world) (cfg, k)) := by
  obtain ⟨hlt, hget⟩ := List.getElem?_eq_some_iff.mp hk
  have hsplit : pipeline = pipeline.take k ++ cfg :: pipeline.drop (k + 1) := by
    rw [← hget, ← List.drop_eq_getElem_cons hlt, List.take_append_drop]
  have hlen : (pipeline.take k).length = k := by
    rw [List.length_take]
    omega
  unfold referenceFold
  conv_lhs => rw [hsplit]
  rw [refFrom_append, refFrom_cons, hlen, Nat.zero_add]

/- What every step keeps, a run keeps. -/
theorem refFrom_induction {P : Progress W → Prop} {registry : Registry W} {onError : OnError}
    (hstep : ∀ p step, P p → P (refStep registry onError p step)) (i : ℕ)
    (pipeline : List CommandConfig) {p : Progress W} (hp : P p) :
    P (refFrom registry onError i pipeline p) := by
  induction pipeline generalizing i p with
  | nil => exact hp
  | cons cfg pipeline ih =>
    rw [refFrom_cons]
    exact ih (i + 1) (hstep p (cfg, i) hp)

/-! ### Invocations accumulate -/

/- What an attempt may do: nothing but a fault, or one invocation of its own step. -/
def AttemptShape (i : ℕ) (cfg : CommandConfig) (current : DataPacket) (core : Core W)
    (tried : Attempt × Core W) : Prop :=
  (∀ outcome, tried.1 ≠ .ran outcome) ∧ tried.2.calls = core.calls ∧ tried.2.bus = core.bus ∨
    ∃ call : Invocation, tried.1 = .ran call.outcome ∧ tried.2.calls = core.calls ++ [call] ∧
      tried.2.bus = call.busAfter ∧ call.step = i ∧ call.type = cfg.type ∧
      call.instanceName = cfg.instanceName ∧ call.params = cfg.params ∧ call.packet = current ∧
      call.bus = core.bus

theorem attemptWith_shape (i : ℕ) (cfg : CommandConfig) (current : DataPacket) (core : Core W)
    (made : FactoryOutcome (Command W)) :
    AttemptShape i cfg current core (attemptWith i cfg current core made) := by
  cases made with
  | command cmd =>
    right
    exact ⟨⟨i, cfg.type, cfg.instanceName, cfg.params, current, core.bus,
      (cmd current core.bus core.world).bus, (cmd current core.bus core.world).outcome⟩,
      rfl, rfl, rfl, rfl, rfl, rfl, rfl, rfl, rfl⟩
  | null =>
    exact .inl ⟨by simp [attemptWith], rfl, rfl⟩
  | throws e =>
    cases e with
    | std what =>
      exact .inl ⟨by simp [attemptWith], rfl, rfl⟩
    | other =>
      exact .inl ⟨by simp [attemptWith], rfl, rfl⟩

theorem attempt_shape (registry : Registry W) (i : ℕ) (cfg : CommandConfig) (current : DataPacket)
    (core : Core W) : AttemptShape i cfg current core (attempt registry i cfg current core) := by
  unfold attempt
  cases registry.find? cfg.type with
  | none =>
    exact .inl ⟨by simp, rfl, rfl⟩
  | some factory =>
    exact attemptWith_shape i cfg current
      { core with world := (factory cfg.instanceName cfg.params core.world).1 } _

theorem attempt_calls_grow (registry : Registry W) (i : ℕ) (cfg : CommandConfig)
    (current : DataPacket) (core : Core W) :
    core.calls <+: (attempt registry i cfg current core).2.calls := by
  rcases attempt_shape registry i cfg current core with ⟨_, hcalls, _⟩ | ⟨call, _, hcalls, _⟩
  · rw [hcalls]
  · rw [hcalls]
    exact List.prefix_append _ _

theorem refStep_calls_grow (registry : Registry W) (onError : OnError) (p : Progress W)
    (step : CommandConfig × ℕ) : p.core.calls <+: (refStep registry onError p step).core.calls := by
  rcases p with ⟨core, current | result⟩
  · exact attempt_calls_grow registry step.2 step.1 current core
  · exact List.prefix_refl _

theorem refFrom_calls_grow (registry : Registry W) (onError : OnError) (i : ℕ)
    (pipeline : List CommandConfig) (p : Progress W) :
    p.core.calls <+: (refFrom registry onError i pipeline p).core.calls :=
  refFrom_induction (P := fun q => p.core.calls <+: q.core.calls)
    (fun q step hq => hq.trans (refStep_calls_grow registry onError q step)) i pipeline
    (List.prefix_refl _)

/- New invocations are those of the steps folded over. -/
theorem refFrom_call_step (registry : Registry W) (onError : OnError) (i : ℕ)
    (pipeline : List CommandConfig) (p : Progress W) :
    ∀ call ∈ (refFrom registry onError i pipeline p).core.calls,
      call ∈ p.core.calls ∨ i ≤ call.step ∧ call.step < i + pipeline.length := by
  induction pipeline generalizing i p with
  | nil =>
    intro call hcall
    exact Or.inl hcall
  | cons cfg pipeline ih =>
    intro call hcall
    rw [refFrom_cons] at hcall
    rw [List.length_cons]
    rcases ih (i + 1) _ call hcall with hcall | ⟨hlow, hhigh⟩
    · rcases p with ⟨core, current | result⟩
      · rw [refStep_next] at hcall
        rcases attempt_shape registry i cfg current core with ⟨_, hcalls, _⟩ |
          ⟨call', _, hcalls, _, hstep, _⟩
        · rw [hcalls] at hcall
          exact Or.inl hcall
        · rw [hcalls] at hcall
          rcases List.mem_append.mp hcall with hold | hnew
          · exact Or.inl hold
          · rw [List.mem_singleton.mp hnew]
            omega
      · exact Or.inl hcall
    · omega

/-! ### Strings that reach a snapshot -/

/- The text, or the packet, that the outcome of a command adds to its step's snapshots. -/
def OutcomeUtf8 (instanceName : Str) : Except Exn (Result DataPacket) → Prop
  | .ok (.ok packet) => packet.toJson.IsUtf8
  | .ok (.error message _) => Utf8.Valid message
  | .error e => Utf8.Valid (exceptionMessage instanceName e)

def Invocation.SnapshotsUtf8 (workflowName : Str) (call : Invocation) : Prop :=
  Utf8.Valid workflowName ∧ Utf8.Valid call.instanceName ∧ call.packet.toJson.IsUtf8 ∧
    call.bus.toJson.IsUtf8 ∧ call.busAfter.toJson.IsUtf8 ∧ OutcomeUtf8 call.instanceName call.outcome

/-- Either nothing is audited, or everything the invocations bring into a
snapshot is UTF-8. -/
def SnapshotsSerialise (config : WorkflowDefinition) (calls : List Invocation) : Prop :=
  config.audit = true → ∀ call ∈ calls, call.SnapshotsUtf8 config.name

end Workflow
