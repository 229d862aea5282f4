import Workflow.WorkflowSchema

/-!
# WorkflowConfig (WorkflowConfig.hpp, WorkflowConfig.cpp)

The loader reads a document a second time, after the validator. Its accesses
stay in `Access`. `disk` says what opening a path gives and `extract` what
`file >> j` gives on a content: the loader is independent of how the reader of
json.hpp works, which `JsonParser` embeds.
-/

namespace Workflow

structure CommandConfig where
  type : Str
  instanceName : Str
  params : Json
  dependsOn : List Str

inductive OnError where
  | HALT
  | CONTINUE
  deriving DecidableEq, Repr

structure WorkflowDefinition where
  name : Str
  description : Str
  pipeline : List CommandConfig
  audit : Bool
  onError : OnError

namespace WorkflowConfig

/-- What a range-for over a JSON value visits. -/
def visited : Json → List Json
  | .array xs => xs
  | .object ms => ms.map Prod.snd
  | .null => []
  | v => [v]

/-- One turn of the loop over `j["pipeline"]` (WorkflowConfig.cpp:65-89). -/
def loadCommand (cmdJson : Json) (index : ℕ) : Access CommandConfig := do
  let type ← (← cmdJson.member (lit "type")).getString
  let named ← if cmdJson.contains (lit "instance_name") then
      pure (← cmdJson.member (lit "instance_name")).isString
    else pure false
  let instanceName ← if named then (← cmdJson.member (lit "instance_name")).getString
    else pure (type ++ lit "_" ++ natToString index)
  let params ← if cmdJson.contains (lit "params") then cmdJson.member (lit "params")
    else pure (.object [])
  let listed ← if cmdJson.contains (lit "depends_on") then
      pure (← cmdJson.member (lit "depends_on")).isArray
    else pure false
  let dependsOn ← if listed then
      (visited (← cmdJson.member (lit "depends_on"))).mapM Json.getString
    else pure []
  return ⟨type, instanceName, params, dependsOn⟩

def loadCommands : ℕ → List Json → Access (List CommandConfig)
  | _, [] => return []
  | index, cmdJson :: rest => do
    let cfg ← loadCommand cmdJson index
    return cfg :: (← loadCommands (index + 1) rest)

/-- WorkflowConfig.cpp:30-92. -/
def loadFromJson (j : Json) : Access (Result WorkflowDefinition) := do
  match ← WorkflowSchema.validate j with
  | .error message code => return .error message code
  | .ok () =>
    let name ← (← j.member (lit "name")).getString
    let description ← if j.contains (lit "description") then
        (← j.member (lit "description")).getString
      else pure []
    let audited ← if j.contains (lit "audit") then pure (← j.member (lit "audit")).isBoolean
      else pure false
    let audit ← if audited then (← j.member (lit "audit")).getBool else pure false
    let chosen ← if j.contains (lit "on_error") then pure (← j.member (lit "on_error")).isString
      else pure false
    let onError ← if chosen then do
        let strategy ← (← j.member (lit "on_error")).getString
        pure (if strategy = lit "continue" then OnError.CONTINUE else OnError.HALT)
      else pure OnError.HALT
    let pipeline ← loadCommands 0 (visited (← j.member (lit "pipeline")))
    return .ok ⟨name, description, pipeline, audit, onError⟩

/-- What `file >> j` throws: a `parse_error`, or an exception of another class. -/
inductive ExtractError where
  | parseError (id : Int32) (what : Str)
  | other (e : Exn)

/-- The exception of an unjustified access; an assertion is no exception, and
the validator leaves none of the three to the loader. -/
def Fault.thrown : Fault → Exn
  | .subscriptKind => .std (lit "[json.exception.type_error.305]")
  | .getKind => .std (lit "[json.exception.type_error.302]")
  | .missing => .other

/-- WorkflowConfig.cpp:11-28. -/
def loadFromFile (disk : Str → Option Str) (extract : Str → Except ExtractError Json) (path : Str) :
    Except Exn (Result WorkflowDefinition) :=
  match disk path with
  | none => .ok (.error (lit "WorkflowConfig: cannot open file '" ++ path ++ lit "'") (-1))
  | some content =>
    match extract content with
    | .error (.parseError id what) =>
      .ok (.error (lit "WorkflowConfig: JSON parse error in '" ++ path ++ lit "': " ++ what) id)
    | .error (.other e) => .error e
    | .ok j =>
      match loadFromJson j with
      | .ok r => .ok r
      | .error fault => .error (Fault.thrown fault)

end WorkflowConfig

end Workflow
