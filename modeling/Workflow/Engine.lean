import Workflow.AuditWriter
import Workflow.WorkflowConfig

/-!
# WorkflowEngine (WorkflowEngine.hpp, WorkflowEngine.cpp)

Factories and commands are code outside the engine. They act on a world `W` of
their own, and a command on the bus and the log it is given. The logger is
assumed to return normally. `Invocation` is a ghost: what one
`cmd->execute(current, *bus_, *logger_)` was given and how it ended.
-/

namespace Workflow
open Observe

/-- How a factory call ends: `std::unique_ptr<ICommand>` may be empty. -/
inductive FactoryOutcome (C : Type) where
  | command (cmd : C)
  | null
  | throws (e : Exn)

structure CommandRun (W : Type) where
  world : W
  bus : DataBus
  log : List LogEntry
  outcome : Except Exn (Result DataPacket)

abbrev Command (W : Type) := DataPacket → DataBus → W → CommandRun W

abbrev CommandFactory (W : Type) := Str → Json → W → W × FactoryOutcome (Command W)

/-- `registry_`, which no run changes. -/
abbrev Registry (W : Type) := SortedMap Str (CommandFactory W)

structure Invocation where
  step : ℕ
  type : Str
  instanceName : Str
  params : Json
  packet : DataPacket
  bus : DataBus
  busAfter : DataBus
  outcome : Except Exn (Result DataPacket)

structure Core (W : Type) where
  world : W
  bus : DataBus
  calls : List Invocation

structure State (W : Type) where
  core : Core W
  obs : Obs

abbrev EngineM (W : Type) := EStateM Exn (State W)

variable {W : Type}

def observing {α : Type} (m : AuditM α) : EngineM W α := fun s =>
  match m.run s.obs with
  | .ok a o => .ok a { s with obs := o }
  | .error e o => .error e { s with obs := o }

def log (level : LogLevel) (message : Str) : EngineM W Unit := observing (logMessage level message)

/-- WorkflowEngine.cpp:48-54; the plugin loader plays no part in a run. -/
def construct (world : W) (obs : Obs) (bus : Option DataBus) : State W :=
  { core := { world := world, bus := bus.getD .empty, calls := [] }
    obs := { obs with auditDir := lit "logs/audit" } }

/-! ### The calls into plugin code -/

def callFactory (factory : CommandFactory W) (cfg : CommandConfig) :
    EngineM W (FactoryOutcome (Command W)) :=
  modifyGet fun s =>
    let made := factory cfg.instanceName cfg.params s.core.world
    (made.2, { s with core := { s.core with world := made.1 } })

def Core.afterCall (core : Core W) (i : ℕ) (cfg : CommandConfig) (current : DataPacket)
    (run : CommandRun W) : Core W :=
  { world := run.world
    bus := run.bus
    calls := core.calls ++
      [⟨i, cfg.type, cfg.instanceName, cfg.params, current, core.bus, run.bus, run.outcome⟩] }

def callCommand (cmd : Command W) (i : ℕ) (cfg : CommandConfig) (current : DataPacket) :
    EngineM W (Except Exn (Result DataPacket)) :=
  modifyGet fun s =>
    let run := cmd current s.core.bus s.core.world
    (run.outcome,
      { core := s.core.afterCall i cfg current run
        obs := { s.obs with log := s.obs.log ++ run.log } })

/-! ### Messages -/

def unknownTypeMessage (i : ℕ) (cfg : CommandConfig) : Str :=
  lit "Unknown command type '" ++ cfg.type ++ lit "' at pipeline step " ++ natToString i ++
    lit " (" ++ cfg.instanceName ++ lit ")"

def instantiateMessage (cfg : CommandConfig) (what : Str) : Str :=
  lit "Failed to instantiate command '" ++ cfg.instanceName ++ lit "': " ++ what

def nullCommandMessage (cfg : CommandConfig) : Str :=
  lit "Factory returned nullptr for '" ++ cfg.instanceName ++ lit "'"

def missingDependencyMessage (cfg : CommandConfig) (dep : Str) : Str :=
  lit "Command '" ++ cfg.instanceName ++ lit "' depends on bus key '" ++ dep ++
    lit "' which is not present"

def executingMessage (i total : ℕ) (cfg : CommandConfig) : Str :=
  lit "[" ++ natToString (i + 1) ++ lit "/" ++ natToString total ++ lit "] Executing: " ++
    cfg.instanceName ++ lit " (" ++ cfg.type ++ lit ")"

/-- WorkflowEngine.cpp:283-293. -/
def exceptionMessage (instanceName : Str) : Exn → Str
  | .std what => lit "Command '" ++ instanceName ++ lit "' threw exception: " ++ what
  | .other => lit "Command '" ++ instanceName ++ lit "' threw unknown exception"

def haltedMessage (i : ℕ) (cfg : CommandConfig) (message : Str) : Str :=
  lit "Pipeline halted at step " ++ natToString (i + 1) ++ lit " '" ++ cfg.instanceName ++
    lit "': " ++ message

def completedMessage (i : ℕ) (packet : DataPacket) : Str :=
  lit "Step " ++ natToString (i + 1) ++ lit " completed. DataPacket now has " ++
    natToString packet.size ++ lit " entries."

/-! ### What each snapshot site adds to packet, bus and timestamp -/

def preMembers : List (Str × Json) := [(lit "phase", .string (lit "pre-execution"))]

def exceptionMembers (message : Str) : List (Str × Json) :=
  [(lit "phase", .string (lit "pre-failure")), (lit "error", .string message)]

def errorMembers (message : Str) (code : Int32) : List (Str × Json) :=
  [(lit "phase", .string (lit "pre-failure")), (lit "error", .string message),
    (lit "error_code", .numberInteger code.toInt64)]

def skippedMembers (status : Str) : List (Str × Json) :=
  [(lit "phase", .string (lit "post-execution")), (lit "status", .string status)]

def successMembers : List (Str × Json) := [(lit "phase", .string (lit "post-execution"))]

/- The members are known keys, valid when their texts are. -/
theorem preMembers_keys : (preMembers.map Prod.fst).Sublist siteKeys := by decide

theorem successMembers_keys : (successMembers.map Prod.fst).Sublist siteKeys := by decide

theorem exceptionMembers_keys (message : Str) :
    ((exceptionMembers message).map Prod.fst).Sublist siteKeys := by
  show [lit "phase", lit "error"].Sublist siteKeys
  decide

theorem errorMembers_keys (message : Str) (code : Int32) :
    ((errorMembers message code).map Prod.fst).Sublist siteKeys := by
  show [lit "phase", lit "error", lit "error_code"].Sublist siteKeys
  decide

theorem skippedMembers_keys (status : Str) :
    ((skippedMembers status).map Prod.fst).Sublist siteKeys := by
  show [lit "phase", lit "status"].Sublist siteKeys
  decide

theorem preMembers_utf8 : ∀ e ∈ preMembers, Utf8.Valid e.1 ∧ e.2.IsUtf8 := by
  have hphase : Utf8.Valid (lit "phase") ∧ Utf8.Valid (lit "pre-execution") := by decide
  simpa [preMembers, isUtf8_string] using hphase

theorem successMembers_utf8 : ∀ e ∈ successMembers, Utf8.Valid e.1 ∧ e.2.IsUtf8 := by
  have hphase : Utf8.Valid (lit "phase") ∧ Utf8.Valid (lit "post-execution") := by decide
  simpa [successMembers, isUtf8_string] using hphase

theorem skippedMembers_utf8 {status : Str} (h : Utf8.Valid status) :
    ∀ e ∈ skippedMembers status, Utf8.Valid e.1 ∧ e.2.IsUtf8 := by
  have hkeys : Utf8.Valid (lit "phase") ∧ Utf8.Valid (lit "post-execution") ∧
      Utf8.Valid (lit "status") := by decide
  simpa [skippedMembers, isUtf8_string, and_assoc] using And.intro hkeys h

theorem exceptionMembers_utf8 (message : Str) :
    (∀ e ∈ exceptionMembers message, Utf8.Valid e.1 ∧ e.2.IsUtf8) ↔ Utf8.Valid message := by
  have hkeys : Utf8.Valid (lit "phase") ∧ Utf8.Valid (lit "pre-failure") ∧
      Utf8.Valid (lit "error") := by decide
  simp [exceptionMembers, isUtf8_string, hkeys]

theorem errorMembers_utf8 (message : Str) (code : Int32) :
    (∀ e ∈ errorMembers message code, Utf8.Valid e.1 ∧ e.2.IsUtf8) ↔ Utf8.Valid message := by
  have hkeys : Utf8.Valid (lit "phase") ∧ Utf8.Valid (lit "pre-failure") ∧
      Utf8.Valid (lit "error") ∧ Utf8.Valid (lit "error_code") := by decide
  have hcode : (Json.numberInteger code.toInt64).IsUtf8 := trivial
  simp [errorMembers, isUtf8_string, hkeys, hcode]

/-! ### One step -/

/-- WorkflowEngine.cpp:257-263. -/
def warnMissingDependencies (cfg : CommandConfig) : List Str → EngineM W Unit
  | [] => return ()
  | dep :: rest => do
    if !(← get).core.bus.hasKey dep then
      log .Warn (missingDependencyMessage cfg dep)
    warnMissingDependencies cfg rest

/- `if (audit_enabled) { ... }`. -/
def whenAudited (config : WorkflowDefinition) (m : EngineM W Unit) : EngineM W Unit :=
  if config.audit then m else return ()

section
variable [FloatText]

def snapshot (config : WorkflowDefinition) (i : ℕ) (cfg : CommandConfig) (status : Str)
    (packet : DataPacket) (extra : List (Str × Json)) : EngineM W Unit := do
  let s ← get
  observing (saveSnapshot config.name i cfg.instanceName status packet s.core.bus extra)

/- The lines, snapshots and outcome in which the two failure branches differ. -/
structure FailureReport where
  errorLine : Str
  status : Str
  members : List (Str × Json)
  savedLine : Str
  result : Result DataPacket
  continueLine : Str
  skippedStatus : Str

def exceptionReport (cfg : CommandConfig) (e : Exn) : FailureReport where
  errorLine := exceptionMessage cfg.instanceName e
  status := lit "exception"
  members := exceptionMembers (exceptionMessage cfg.instanceName e)
  savedLine := lit "Post-mortem snapshot saved for: " ++ cfg.instanceName
  result := .error (exceptionMessage cfg.instanceName e) (-1)
  continueLine := lit "on_error=continue: advancing to next step despite exception"
  skippedStatus := lit "skipped_due_to_exception"

def errorReport (i : ℕ) (cfg : CommandConfig) (result : Result DataPacket) : FailureReport where
  errorLine := haltedMessage i cfg result.errorMessage
  status := lit "error"
  members := errorMembers result.errorMessage result.errorCode
  savedLine := lit "Error snapshot saved for: " ++ cfg.instanceName
  result := result
  continueLine := lit "on_error=continue: advancing to next step despite error"
  skippedStatus := lit "skipped_due_to_error"

def afterFailure (config : WorkflowDefinition) (i : ℕ) (cfg : CommandConfig) (current : DataPacket)
    (report : FailureReport) : EngineM W (Turn DataPacket (Result DataPacket)) := do
  log .Error report.errorLine
  whenAudited config do
    snapshot config i cfg report.status current report.members
    log .Info report.savedLine
  match config.onError with
  | .HALT => return .leave report.result
  | .CONTINUE =>
    log .Warn report.continueLine
    whenAudited config
      (snapshot config i cfg (lit "skipped") current (skippedMembers report.skippedStatus))
    return .next current

/-- WorkflowEngine.cpp:283-322. -/
def afterException (config : WorkflowDefinition) (i : ℕ) (cfg : CommandConfig)
    (current : DataPacket) (e : Exn) : EngineM W (Turn DataPacket (Result DataPacket)) :=
  afterFailure config i cfg current (exceptionReport cfg e)

/-- WorkflowEngine.cpp:324-352. -/
def afterError (config : WorkflowDefinition) (i : ℕ) (cfg : CommandConfig)
    (current : DataPacket) (result : Result DataPacket) :
    EngineM W (Turn DataPacket (Result DataPacket)) :=
  afterFailure config i cfg current (errorReport i cfg result)

/-- WorkflowEngine.cpp:354-366. -/
def afterSuccess (config : WorkflowDefinition) (i : ℕ) (cfg : CommandConfig)
    (result : Result DataPacket) : EngineM W (Turn DataPacket (Result DataPacket)) := do
  whenAudited config do
    let packet ← ofExcept result.value
    snapshot config i cfg (lit "success") packet successMembers
  let current ← ofExcept result.value
  log .Debug (completedMessage i current)
  return .next current

/- The branches on how `cmd->execute` ended. -/
def afterCommand (config : WorkflowDefinition) (i : ℕ) (cfg : CommandConfig) (current : DataPacket) :
    Except Exn (Result DataPacket) → EngineM W (Turn DataPacket (Result DataPacket))
  | .error e => afterException config i cfg current e
  | .ok result =>
    if result.isError then afterError config i cfg current result
    else afterSuccess config i cfg result

/-- WorkflowEngine.cpp:269-366: the supervised execution of the command. -/
def superviseCommand (config : WorkflowDefinition) (i : ℕ) (cfg : CommandConfig)
    (current : DataPacket) (cmd : Command W) : EngineM W (Turn DataPacket (Result DataPacket)) := do
  whenAudited config (snapshot config i cfg (lit "pre") current preMembers)
  let outcome ← callCommand cmd i cfg current
  afterCommand config i cfg current outcome

/-- WorkflowEngine.cpp:257-366: what follows once the step has its command. -/
def runCommand (config : WorkflowDefinition) (i : ℕ) (cfg : CommandConfig) (current : DataPacket)
    (cmd : Command W) : EngineM W (Turn DataPacket (Result DataPacket)) := do
  warnMissingDependencies cfg cfg.dependsOn
  log .Info (executingMessage i config.pipeline.length cfg)
  superviseCommand config i cfg current cmd

/-- WorkflowEngine.cpp:240-366, from the end of the factory call on. The
handler around that call is for `std::exception` alone. -/
def useFactoryOutcome (config : WorkflowDefinition) (i : ℕ) (cfg : CommandConfig)
    (current : DataPacket) :
    FactoryOutcome (Command W) → EngineM W (Turn DataPacket (Result DataPacket))
  | .throws (.std what) => do
    let msg := instantiateMessage cfg what
    log .Error msg
    return .leave (.error msg (-1))
  | .throws .other => throw .other
  | .null => do
    let msg := nullCommandMessage cfg
    log .Error msg
    return .leave (.error msg (-1))
  | .command cmd => runCommand config i cfg current cmd

/-- WorkflowEngine.cpp:229-366. -/
def executeStep (registry : Registry W) (config : WorkflowDefinition) (i : ℕ) (cfg : CommandConfig)
    (current : DataPacket) : EngineM W (Turn DataPacket (Result DataPacket)) :=
  match registry.find? cfg.type with
  | none => do
    let msg := unknownTypeMessage i cfg
    log .Error msg
    return .leave (.error msg (-1))
  | some factory => do
    let made ← callFactory factory cfg
    useFactoryOutcome config i cfg current made

/-- WorkflowEngine.cpp:369-370. -/
def completePipeline (current : DataPacket) : EngineM W (Result DataPacket) := do
  log .Info (lit "Workflow completed successfully.")
  return .ok current

/-- WorkflowEngine.cpp:220-371. -/
def executePipeline (registry : Registry W) (config : WorkflowDefinition)
    (initialInput : DataPacket) : EngineM W (Result DataPacket) :=
  forEach (executeStep registry config) completePipeline 0 config.pipeline initialInput

/-! ### The entry points -/

/-- `bus_->clear()`. The ghost record of invocations starts anew with the run. -/
def clearBus : EngineM W Unit :=
  modify fun s => { s with core := { s.core with bus := .empty, calls := [] } }

/-- WorkflowEngine.cpp:209-218. -/
def execute (registry : Registry W) (config : WorkflowDefinition) (initial : DataPacket) :
    EngineM W (Result DataPacket) := do
  log .Info (lit "Executing workflow: " ++ config.name)
  log .Debug (lit "Pipeline has " ++ natToString config.pipeline.length ++ lit " steps")
  clearBus
  executePipeline registry config initial

/-- The overload without an initial packet (WorkflowEngine.cpp:198-207). -/
def executeDefault (registry : Registry W) (config : WorkflowDefinition) :
    EngineM W (Result DataPacket) := do
  log .Info (lit "Executing workflow: " ++ config.name)
  log .Debug (lit "Pipeline has " ++ natToString config.pipeline.length ++ lit " steps")
  clearBus
  let initialInput := DataPacket.empty
  executePipeline registry config initialInput

/-- `disk` and `extract` are the file system and the JSON reader of `loadFromFile`. -/
def executeFromFile (registry : Registry W) (disk : Str → Option Str)
    (extract : Str → Except WorkflowConfig.ExtractError Json) (configPath : Str)
    (initial : DataPacket) : EngineM W (Result DataPacket) := do
  log .Info (lit "Loading workflow from: " ++ configPath)
  match ← ofExcept (WorkflowConfig.loadFromFile disk extract configPath) with
  | .error message code =>
    log .Error (lit "Failed to load config: " ++ message)
    return .error message code
  | .ok config => execute registry config initial

/-- The overload without an initial packet (WorkflowEngine.cpp:169-181). -/
def executeFromFileDefault (registry : Registry W) (disk : Str → Option Str)
    (extract : Str → Except WorkflowConfig.ExtractError Json) (configPath : Str) :
    EngineM W (Result DataPacket) := do
  log .Info (lit "Loading workflow from: " ++ configPath)
  match ← ofExcept (WorkflowConfig.loadFromFile disk extract configPath) with
  | .error message code =>
    log .Error (lit "Failed to load config: " ++ message)
    return .error message code
  | .ok config => executeDefault registry config

end

/-! ### Code that only observes -/

def State.logged (s : State W) (entries : List LogEntry) : State W :=
  { s with obs := { s.obs with log := s.obs.log ++ entries } }

theorem logged_append (s : State W) (l l' : List LogEntry) :
    (s.logged l).logged l' = s.logged (l ++ l') := by
  unfold State.logged
  rw [List.append_assoc]

theorem run_log (level : LogLevel) (message : Str) (s : State W) :
    (log level message).run s = .ok () (s.logged [⟨level, message⟩]) := rfl

theorem run_observing_of_ok {α : Type} {m : AuditM α} {s : State W} {a : α} {o : Obs}
    (h : m.run s.obs = .ok a o) : (observing m).run s = .ok a { s with obs := o } := by
  show observing m s = _
  unfold observing
  rw [h]

theorem run_observing_of_error {α : Type} {m : AuditM α} {s : State W} {e : Exn} {o : Obs}
    (h : m.run s.obs = .error e o) : (observing m).run s = .error e { s with obs := o } := by
  show observing m s = _
  unfold observing
  rw [h]

theorem run_snapshot [FloatText] (config : WorkflowDefinition) (i : ℕ) (cfg : CommandConfig)
    (status : Str) (packet : DataPacket) (extra : List (Str × Json)) (s : State W) :
    (snapshot config i cfg status packet extra).run s
      = (observing
          (saveSnapshot config.name i cfg.instanceName status packet s.core.bus extra)).run s := by
  have hget : (get : EngineM W (State W)).run s = .ok s s := rfl
  unfold snapshot
  rw [run_bind_of_ok hget]

/- One warning for each listed key that is not on the bus, in their order. -/
def missingWarnings (cfg : CommandConfig) (bus : DataBus) (deps : List Str) : List LogEntry :=
  (deps.filter fun dep => !bus.hasKey dep).map fun dep => ⟨.Warn, missingDependencyMessage cfg dep⟩

theorem mem_missingWarnings (cfg : CommandConfig) (bus : DataBus) (deps : List Str)
    (entry : LogEntry) :
    entry ∈ missingWarnings cfg bus deps ↔ ∃ dep ∈ deps, bus.sharedState.find? dep = none ∧
      entry = ⟨.Warn, missingDependencyMessage cfg dep⟩ := by
  simp only [missingWarnings, List.mem_map, List.mem_filter, Bool.not_eq_true',
    DataBus.hasKey_eq_false_iff]
  constructor
  · intro ⟨dep, ⟨hdep, hnone⟩, hentry⟩
    exact ⟨dep, hdep, hnone, hentry.symm⟩
  · intro ⟨dep, hdep, hnone, hentry⟩
    exact ⟨dep, ⟨hdep, hnone⟩, hentry.symm⟩

theorem run_warnMissingDependencies (cfg : CommandConfig) (deps : List Str) (s : State W) :
    (warnMissingDependencies cfg deps).run s
      = .ok () (s.logged (missingWarnings cfg s.core.bus deps)) := by
  induction deps generalizing s with
  | nil =>
    show EStateM.Result.ok () s = _
    simp [missingWarnings, State.logged]
  | cons dep rest ih =>
    unfold warnMissingDependencies
    cases hkey : s.core.bus.hasKey dep with
    | false =>
      have hfirst : missingWarnings cfg s.core.bus (dep :: rest)
          = [⟨.Warn, missingDependencyMessage cfg dep⟩] ++ missingWarnings cfg s.core.bus rest := by
        simp [missingWarnings, hkey]
      rw [hfirst, ← logged_append]
      simp [EStateM.run_bind, hkey, run_log, ih]
      rfl
    | true =>
      have hskip : missingWarnings cfg s.core.bus (dep :: rest)
          = missingWarnings cfg s.core.bus rest := by
        simp [missingWarnings, hkey]
      rw [hskip]
      simp [EStateM.run_bind, hkey, ih]

/- The lines in front of an execution. -/
def leadingLog (config : WorkflowDefinition) (i : ℕ) (cfg : CommandConfig) (bus : DataBus) :
    List LogEntry :=
  missingWarnings cfg bus cfg.dependsOn ++ [⟨.Info, executingMessage i config.pipeline.length cfg⟩]

theorem run_runCommand [FloatText] (config : WorkflowDefinition) (i : ℕ) (cfg : CommandConfig)
    (current : DataPacket) (cmd : Command W) (s : State W) :
    (runCommand config i cfg current cmd).run s
      = (superviseCommand config i cfg current cmd).run
          (s.logged (leadingLog config i cfg s.core.bus)) := by
  unfold runCommand leadingLog
  rw [run_bind_of_ok (run_warnMissingDependencies cfg _ s), run_bind_of_ok (run_log _ _ _),
    logged_append]

/- The lines every run begins with. -/
def openingLog (config : WorkflowDefinition) : List LogEntry :=
  [⟨.Info, lit "Executing workflow: " ++ config.name⟩,
    ⟨.Debug, lit "Pipeline has " ++ natToString config.pipeline.length ++ lit " steps"⟩]

def State.started (config : WorkflowDefinition) (s : State W) : State W :=
  { core := ⟨s.core.world, .empty, []⟩
    obs := { s.obs with log := s.obs.log ++ openingLog config } }

theorem run_execute [FloatText] (registry : Registry W) (config : WorkflowDefinition)
    (initial : DataPacket) (s : State W) :
    (execute registry config initial).run s
      = (executePipeline registry config initial).run (s.started config) := by
  unfold execute
  rw [run_bind_of_ok (run_log _ _ s), run_bind_of_ok (run_log _ _ _)]
  have hclear : ∀ s' : State W, (clearBus : EngineM W Unit).run s'
      = .ok () { s' with core := ⟨s'.core.world, .empty, []⟩ } := fun _ => rfl
  rw [run_bind_of_ok (hclear _), logged_append]
  rfl

end Workflow
