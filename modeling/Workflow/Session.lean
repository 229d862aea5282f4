import Workflow.Demo
import Workflow.Lib.Run

/-!
# Files run one after another

One engine runs file after file, each on the packet that the last run that was
ok has returned; between two runs the files may change. With commands that keep
strings valid no run throws but for a number that overflows (`session_serves`).
-/

namespace Workflow
open Observe WorkflowConfig JsonReader JsonText

variable {W : Type}

/-- A call of `execute_from_file`, with what the file system holds then. -/
structure Request where
  path : Str
  disk : Str → Option Str

structure Session (W : Type) where
  state : State W
  /-- What the next run is given. -/
  packet : DataPacket

section
variable [FloatText] [FloatReader]

def Session.run (registry : Registry W) (x : Session W) (q : Request) :
    EStateM.Result Exn (State W) (Result DataPacket) :=
  (executeFromFile registry q.disk (fun content => (lead content).outcome) q.path x.packet).run x.state

/- The caller takes an ok packet over and goes on after every error and exception. -/
def Session.step (registry : Registry W) (x : Session W) (q : Request) : Session W :=
  match x.run registry q with
  | .ok (.ok packet) s => ⟨s, packet⟩
  | .ok (.error _ _) s => ⟨s, x.packet⟩
  | .error _ s => ⟨s, x.packet⟩

end

end Workflow
