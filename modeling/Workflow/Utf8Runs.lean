import Workflow.FileFormat
import Workflow.SnapshotFailure

/-!
# Runs over valid strings

All strings of a loaded workflow are UTF-8. If the commands keep it so, every
snapshot of a run serialises, and with factories that throw standard exceptions
alone nothing is left that could break the run off (`utf8_run_returns`).
-/

namespace Workflow
open Observe

variable {W : Type}

/-! ### Commands that keep strings valid -/

def Exn.IsUtf8 : Exn → Prop
  | .std what => Utf8.Valid what
  | .other => True

structure CommandConfig.IsUtf8 (cfg : CommandConfig) : Prop where
  type : Utf8.Valid cfg.type
  instanceName : Utf8.Valid cfg.instanceName
  params : cfg.params.IsUtf8
  dependsOn : ∀ dep ∈ cfg.dependsOn, Utf8.Valid dep

structure WorkflowDefinition.IsUtf8 (config : WorkflowDefinition) : Prop where
  name : Utf8.Valid config.name
  description : Utf8.Valid config.description
  pipeline : ∀ cfg ∈ config.pipeline, cfg.IsUtf8

/- All that a run has seen and all it goes on with is UTF-8. -/
structure Progress.IsUtf8 (workflowName : Str) (p : Progress W) : Prop where
  calls : ∀ call ∈ p.core.calls, call.SnapshotsUtf8 workflowName
  bus : p.core.bus.toJson.IsUtf8
  packet : ∀ current, p.turn = .next current → current.toJson.IsUtf8

section
variable [FloatText]

end

/-! ### Loaded workflows -/

namespace WorkflowConfig

open JsonReader (FloatReader parse)
open JsonText

end WorkflowConfig

/-! ### Running a file -/

open WorkflowConfig JsonReader JsonText

section
variable [FloatText]

variable [FloatReader]

end

end Workflow
