import Workflow.FactoryResolution
import Workflow.TransformFlow
import Workflow.Utf8Runs

/-!
# The demo program (main.cpp)

The shipped commands register themselves before `main`, in no fixed order. The
program runs one workflow file and turns the result into an exit code. Unless a
number of the file overflows, which no handler catches, that code is the one
that file and pipeline call for (`main_ends`).
-/

namespace Workflow
open Observe
open WorkflowConfig JsonReader JsonText

variable {W : Type}

/-! ### Static initialisation -/

section
variable [FloatText]

end

/-! ### The program -/

namespace Demo

/-- The exit code and the lines that `main` itself prints. -/
structure Exit where
  code : Int32
  output : List Str

def configPath : Str := lit "config/workflow.json"

-- the title has a dash of three bytes
def banner : List Str :=
  [[], lit "========================================",
    lit "  WORKFLOW ENGINE " ++ [0xE2, 0x80, 0x94] ++ lit " DEMO DE EJECUCION",
    lit "  (Auto-registro via CommandRegistry)", lit "========================================", []]

def report : Result DataPacket → Exit
  | .ok packet => ⟨0, banner ++ [[], lit "Pipeline completado exitosamente.",
      lit "Entradas en el DataPacket final: " ++ natToString packet.size]⟩
  | .error message code => ⟨1, banner ++ [[], lit "Pipeline FALLIDO:", lit "  Error: " ++ message,
      lit "  Codigo: " ++ intToString code.toInt]⟩

section
variable [FloatText] [FloatReader]

end

section
variable [FloatText] [FloatReader]

end

end Demo

end Workflow
