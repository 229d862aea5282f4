import Workflow.Refinement
import Workflow.RunShape
import Workflow.TwoRuns

/-!
# Runs are isolated from each other

Every entry point clears the one long-lived bus before its pipeline starts, so
whatever calls came before, in whatever way they ended, the next run is that of
a fresh engine.
-/

namespace Workflow
open Observe

variable {W : Type}

/- A call of one of the public entry points; a call by path comes with the disk
and the JSON reader it finds. -/
inductive ApiCall where
  | execute (config : WorkflowDefinition) (initial : DataPacket)
  | executeDefault (config : WorkflowDefinition)
  | executeFromFile (disk : Str → Option Str)
      (extract : Str → Except WorkflowConfig.ExtractError Json) (configPath : Str) (initial : DataPacket)
  | executeFromFileDefault (disk : Str → Option Str)
      (extract : Str → Except WorkflowConfig.ExtractError Json) (configPath : Str)

theorem seen_core_eq_of_alike {R : Obs → Obs → Prop} {α : Type}
    {r q : EStateM.Result Exn (State W) α} (h : Alike (SameCore R) r q) :
    seen State.core r = seen State.core q := by
  rcases r with ⟨a, s⟩ | ⟨e, s⟩ <;> rcases q with ⟨b, t⟩ | ⟨d, t⟩
  · obtain ⟨rfl, hcore, _⟩ := h
    rw [seen_ok, seen_ok, hcore]
  · exact h.elim
  · exact h.elim
  · obtain ⟨rfl, hcore, _⟩ := h
    rw [seen_error, seen_error, hcore]

section
variable [FloatText]

def ApiCall.perform (registry : Registry W) : ApiCall → EngineM W (Result DataPacket)
  | .execute config initial => Workflow.execute registry config initial
  | .executeDefault config => Workflow.executeDefault registry config
  | .executeFromFile disk extract configPath initial =>
    Workflow.executeFromFile registry disk extract configPath initial
  | .executeFromFileDefault disk extract configPath =>
    Workflow.executeFromFileDefault registry disk extract configPath

/- The caller goes on after a result and after an exception alike. -/
def afterHistory (registry : Registry W) (s : State W) (history : List ApiCall) : State W :=
  history.foldl (fun s call => stateOf ((call.perform registry).run s)) s

/-! ### The answers to come are all that a run takes over -/

theorem unobtrusive_env : Unobtrusive fun o o' => o.env = o'.env where
  log := fun _ _ _ h => h
  save := related_saveSnapshot

/- Two states of one registry give the same run: when their worlds agree and
either the answers to come agree or every snapshot serialises. -/
theorem seen_core_execute_congr {registry : Registry W} {config : WorkflowDefinition}
    {initial : DataPacket} {s t : State W} (hworld : s.core.world = t.core.world)
    (h : s.obs.env = t.obs.env ∨ SnapshotsSerialise config
      (referenceFold registry config.onError config.pipeline initial s.core.world).core.calls) :
    seen State.core ((execute registry config initial).run s)
      = seen State.core ((execute registry config initial).run t) := by
  rcases h with henv | hserialise
  · exact seen_core_eq_of_alike (related_execute unobtrusive_env registry config initial s t
      ⟨hworld, henv⟩)
  · rw [seen_core_execute rfl hserialise, seen_core_execute rfl (hworld ▸ hserialise), hworld]

theorem seen_core_executeFromFile {registry : Registry W} {disk : Str → Option Str}
    {extract : Str → Except WorkflowConfig.ExtractError Json} {configPath : Str}
    {config : WorkflowDefinition}
    (hload : WorkflowConfig.loadFromFile disk extract configPath = .ok (.ok config))
    (initial : DataPacket) (s : State W) :
    seen State.core ((executeFromFile registry disk extract configPath initial).run s)
      = seen State.core ((execute registry config initial).run s) := by
  unfold executeFromFile
  rw [run_bind_of_ok (run_log _ _ s), hload, run_bind_of_ok (run_ofExcept_ok _ _)]
  exact seen_core_execute_congr rfl (Or.inl rfl)

theorem seen_core_executeFromFileDefault {registry : Registry W} {disk : Str → Option Str}
    {extract : Str → Except WorkflowConfig.ExtractError Json} {configPath : Str}
    {config : WorkflowDefinition}
    (hload : WorkflowConfig.loadFromFile disk extract configPath = .ok (.ok config)) (s : State W) :
    seen State.core ((executeFromFileDefault registry disk extract configPath).run s)
      = seen State.core ((executeDefault registry config).run s) := by
  unfold executeFromFileDefault
  rw [run_bind_of_ok (run_log _ _ s), hload, run_bind_of_ok (run_ofExcept_ok _ _)]
  exact seen_core_execute_congr rfl (Or.inl rfl)

/- After any history the next run is that of an engine constructed in the same
environment, and of one constructed anywhere if every snapshot serialises. The
buses its invocations see start from the empty one. -/
theorem execute_after_history (registry : Registry Unit) (bus : Option DataBus) (obs : Obs)
    (history : List ApiCall) (config : WorkflowDefinition) (initial : DataPacket) :
    let used := afterHistory registry (construct () obs bus) history
    (∀ bus', seen State.core ((execute registry config initial).run used)
        = seen State.core ((execute registry config initial).run (construct () used.obs bus'))) ∧
      (SnapshotsSerialise config
          (referenceFold registry config.onError config.pipeline initial ()).core.calls →
        ∀ bus' obs', seen State.core ((execute registry config initial).run used)
          = seen State.core ((execute registry config initial).run (construct () obs' bus'))) ∧
      (∃ packet bus', Chain initial .empty
        (stateOf ((execute registry config initial).run used)).core.calls packet bus') ∧
      (executeDefault registry config).run used = (execute registry config .empty).run used ∧
      (∀ disk extract configPath,
        WorkflowConfig.loadFromFile disk extract configPath = .ok (.ok config) →
        seen State.core ((executeFromFile registry disk extract configPath initial).run used)
            = seen State.core ((execute registry config initial).run used) ∧
          seen State.core ((executeFromFileDefault registry disk extract configPath).run used)
            = seen State.core ((execute registry config .empty).run used)) := by
  intro used
  refine ⟨?_, ?_, ?_, rfl, ?_⟩
  · intro bus'
    exact seen_core_execute_congr rfl (Or.inl rfl)
  · intro hserialise bus' obs'
    exact seen_core_execute_congr rfl (Or.inr hserialise)
  · obtain ⟨packet, hchain, _⟩ := referenceFold_chain registry config.onError config.pipeline initial
      used.core.world
    exact chain_mono (execute_calls_within rfl) hchain
  · intro disk extract configPath hload
    exact ⟨seen_core_executeFromFile hload initial used, seen_core_executeFromFileDefault hload used⟩

end

end Workflow
