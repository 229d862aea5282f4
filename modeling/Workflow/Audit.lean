import Mathlib.Control.Basic
import Workflow.DataPacket
import Workflow.Serializer

/-!
# The audit writer (WorkflowEngine.cpp:20-45, 106-167)

`Obs` is the part of the world that only observes a run: the log, the audit
directory setting, the regular files, and what the file system and the clock
will answer next. The writer works on `Obs` alone; one `IoOutcome` is spent per
snapshot.
-/

namespace Workflow

structure Tm where
  year : ℕ
  month : ℕ
  day : ℕ
  hour : ℕ
  minute : ℕ
  second : ℕ

/-- What the file system answers to the operations of one snapshot. A failure
of `create_directories` or `rename` carries `ec.message()`; `written = some k`
is a stream that goes bad after `k` bytes. -/
structure IoOutcome where
  createDirectories : Option Str
  opens : Bool
  written : Option ℕ
  rename : Option Str

def IoOutcome.success : IoOutcome := ⟨none, true, none, none⟩

structure Obs where
  log : List LogEntry
  auditDir : Str
  files : SortedMap Str Str
  io : ℕ → IoOutcome
  clock : ℕ → Tm

/-- Code that only touches `Obs` and may throw. -/
abbrev AuditM := EStateM Exn Obs

def Obs.logged (o : Obs) (level : LogLevel) (message : Str) : Obs :=
  { o with log := o.log ++ [⟨level, message⟩] }

def logMessage (level : LogLevel) (message : Str) : AuditM Unit :=
  modify fun o => o.logged level message

def twoDigits (n : ℕ) : Str := if n < 10 then lit "0" ++ natToString n else natToString n

/-- `strftime` with `%Y-%m-%dT%H:%M:%SZ`. -/
def formatUtc (tm : Tm) : Str :=
  natToString tm.year ++ lit "-" ++ twoDigits tm.month ++ lit "-" ++ twoDigits tm.day ++ lit "T" ++
    twoDigits tm.hour ++ lit ":" ++ twoDigits tm.minute ++ lit ":" ++ twoDigits tm.second ++ lit "Z"

def utcTimestamp : AuditM Str :=
  modifyGet fun o => (formatUtc (o.clock 0), { o with clock := fun n => o.clock (n + 1) })

def nextIo : AuditM IoOutcome :=
  modifyGet fun o => (o.io 0, { o with io := fun n => o.io (n + 1) })

/-! ### File names -/

/-- `std::isalnum` in the "C" locale. -/
def isAlnum (c : Byte) : Bool :=
  (48 ≤ c.val && c.val ≤ 57) || (65 ≤ c.val && c.val ≤ 90) || (97 ≤ c.val && c.val ≤ 122)

def sanitizeFilename (name : Str) : Str :=
  name.map fun c => if isAlnum c || c = 45 || c = 95 then c else 95

/-- WorkflowEngine.cpp:123-126. -/
def snapshotFilename (workflowName : Str) (stepIndex : ℕ) (commandName status : Str) : Str :=
  sanitizeFilename workflowName ++ lit "_step" ++ natToString (stepIndex + 1) ++ lit "_" ++
    sanitizeFilename commandName ++ lit "_" ++ status ++ lit ".json"

def temporaryName (filename : Str) : Str := lit "." ++ filename ++ lit ".tmp"

/-- POSIX `fs::path(dir) / name`. -/
def joinPath (dir name : Str) : Str :=
  if name.head? = some 47 then name
  else if dir = [] ∨ dir.getLast? = some 47 then dir ++ name
  else dir ++ lit "/" ++ name

def effectiveAuditDir (dir : Str) : Str := if dir = [] then lit "logs/audit" else dir

/-! ### Records and the writer -/

/-- WorkflowEngine.cpp:130-136. -/
def auditRecord (workflowName : Str) (stepIndex : ℕ) (commandName status timestamp : Str)
    (snapshot : Json) : Members :=
  ((((((∅ : Members).insert (lit "workflow") (.string workflowName)).insert
    (lit "step") (.numberUnsigned (UInt64.ofNat (stepIndex + 1)))).insert
    (lit "command") (.string commandName)).insert
    (lit "status") (.string status)).insert
    (lit "timestamp") (.string timestamp)).insert
    (lit "snapshot") snapshot

/-- WorkflowEngine.cpp:160-167. -/
def snapshotMembers (packet : DataPacket) (bus : DataBus) (timestamp : Str) : Members :=
  (((∅ : Members).insert (lit "data_packet") packet.toJson).insert
    (lit "data_bus") bus.toJson).insert (lit "timestamp") (.string timestamp)

def buildSnapshot (packet : DataPacket) (bus : DataBus) : AuditM Members := do
  let timestamp ← utcTimestamp
  return snapshotMembers packet bus timestamp

def setFile (path contents : Str) : AuditM Unit :=
  modify fun o => { o with files := o.files.insert path contents }

/-- `fs::rename` of a file that was just written. -/
def renameFile (source target contents : Str) : AuditM Unit :=
  modify fun o => { o with files := (o.files.erase source).insert target contents }

def ofExcept {ε σ α : Type} : Except ε α → EStateM ε σ α
  | .ok a => pure a
  | .error e => throw e

@[simp] theorem run_ofExcept_ok {ε σ α : Type} (a : α) (s : σ) :
    (ofExcept (.ok a) : EStateM ε σ α).run s = .ok a s := rfl

@[simp] theorem run_ofExcept_error {ε σ α : Type} (e : ε) (s : σ) :
    (ofExcept (.error e) : EStateM ε σ α).run s = .error e s := rfl

section
variable [FloatText]

/-- WorkflowEngine.cpp:106-158. `dump` runs after the temporary file was opened
and before anything is written to it; write errors are never looked at. -/
def writeAuditSnapshot (workflowName : Str) (stepIndex : ℕ) (commandName status : Str)
    (snapshot : Json) : AuditM Unit := do
  modify fun o => { o with auditDir := effectiveAuditDir o.auditDir }
  let dir := (← get).auditDir
  let io ← nextIo
  match io.createDirectories with
  | some reason =>
    logMessage .Warn (lit "Audit: cannot create directory '" ++ dir ++ lit "': " ++ reason)
  | none =>
    let filename := snapshotFilename workflowName stepIndex commandName status
    let filepath := joinPath dir filename
    let timestamp ← utcTimestamp
    let record := auditRecord workflowName stepIndex commandName status timestamp snapshot
    let tmpPath := joinPath dir (temporaryName filename)
    if !io.opens then
      logMessage .Warn (lit "Audit: cannot open file '" ++ tmpPath ++ lit "' for writing")
    else
      setFile tmpPath []
      let text ← ofExcept (dump (.ofMembers record))
      let contents := (io.written.map text.take).getD text
      setFile tmpPath contents
      match io.rename with
      | some reason =>
        logMessage .Warn (lit "Audit: cannot rename '" ++ tmpPath ++ lit "' to '" ++ filepath ++
          lit "': " ++ reason)
      | none =>
        renameFile tmpPath filepath contents
        logMessage .Debug (lit "Audit snapshot written: " ++ filepath)

/-- The three statements every snapshot site of the pipeline makes: build the
snapshot, add the site's own members, write it. -/
def saveSnapshot (workflowName : Str) (stepIndex : ℕ) (commandName status : Str)
    (packet : DataPacket) (bus : DataBus) (extra : List (Str × Json)) : AuditM Unit := do
  let snapshot ← buildSnapshot packet bus
  writeAuditSnapshot workflowName stepIndex commandName status
    (.ofMembers (extra.foldl (fun snap e => snap.insert e.1 e.2) snapshot))

end

end Workflow
