import Workflow.Engine

/-!
# The shipped commands (plugins/)

Echo, delay and transform commands, each with its constructor, its `execute`
and the factory it registers. None of them touches the bus or the world, and
their constructors never fail (`factory_makes`). What they do to the packet is
said once, by `stepPacket`.
-/

namespace Workflow

variable {W : Type}

/-! ### Parameters -/

/- `if (params.contains(key) && params[key].is_K()) field = params[key].get<T>();`,
over a field that starts as `fallback`. -/
def param {α : Type} (params : Json) (key : Str) (isKind : Json → Bool) (get : Json → Access α)
    (fallback : α) : Access α := do
  if params.contains key then
    let value ← params.member key
    if isKind value then get value else return fallback
  else return fallback

def stringParam (params : Json) (key fallback : Str) : Access Str :=
  param params key Json.isString Json.getString fallback

def boolParam (params : Json) (key : Str) (fallback : Bool) : Access Bool :=
  param params key Json.isBoolean Json.getBool fallback

/-- `get<int>()` of either integer kind is a `static_cast`. -/
def Json.getInt : Json → Access Int32
  | .numberInteger n => .ok n.toInt32
  | .numberUnsigned u => .ok u.toInt64.toInt32
  | _ => .error .getKind

def intParam (params : Json) (key : Str) (fallback : Int32) : Access Int32 :=
  param params key Json.isNumberInteger Json.getInt fallback

/- Where `get` is guarded by its kind, a parameter is always read. -/
theorem param_reads {α : Type} (params : Json) (key : Str) {isKind : Json → Bool}
    {get : Json → Access α} (hget : ∀ value, isKind value = true → ∃ a, get value = .ok a)
    (fallback : α) : ∃ a, param params key isKind get fallback = .ok a := by
  unfold param
  rw [Json.contains_eq]
  cases hfind : params.get? key with
  | none => exact ⟨fallback, rfl⟩
  | some value =>
    rw [Json.member_of_get? hfind]
    cases hkind : isKind value with
    | false =>
      refine ⟨fallback, ?_⟩
      simp [hkind, bind, Except.bind, pure, Except.pure]
    | true =>
      obtain ⟨a, ha⟩ := hget value hkind
      refine ⟨a, ?_⟩
      simp [hkind, bind, Except.bind, ha]

/- The string a command ends up with: the parameter if it is one, else the default. -/
def effectiveString (params : Json) (key fallback : Str) : Str :=
  match params.get? key with
  | some (.string s) => s
  | _ => fallback

theorem stringParam_eq (params : Json) (key fallback : Str) :
    stringParam params key fallback = .ok (effectiveString params key fallback) := by
  unfold stringParam param effectiveString
  rw [Json.contains_eq]
  cases hfind : params.get? key with
  | none => rfl
  | some value =>
    rw [Json.member_of_get? hfind]
    cases value <;> rfl

/-! ### Packets -/

/-- `get<std::string>(key)` (DataPacket.hpp:61-76). Its callers look at no error text. -/
def DataPacket.getString (packet : DataPacket) (key : Str) : Option Str :=
  match packet.data.find? key with
  | some (.string s) => some s
  | _ => none

def DataPacket.keys (packet : DataPacket) : List Str := packet.data.entries.map Prod.fst

/-- `std::toupper` in the "C" locale. -/
def toUpper (c : Byte) : Byte := if 97 ≤ c.val ∧ c.val ≤ 122 then c - 32 else c

/-! ### TransformCommand (TransformCommand.cpp) -/

structure TransformCommand where
  instanceName : Str
  inputKey : Str
  outputKey : Str
  textPrefix : Str

namespace TransformCommand

def construct (instanceName : Str) (params : Json) : Access TransformCommand := do
  let inputKey ← stringParam params (lit "input_key") (lit "input")
  let outputKey ← stringParam params (lit "output_key") (lit "output")
  let textPrefix ← stringParam params (lit "prefix") []
  return ⟨instanceName, inputKey, outputKey, textPrefix⟩

def readingMessage (cmd : TransformCommand) : Str :=
  lit "[" ++ cmd.instanceName ++ lit "] TransformCommand: reading '" ++ cmd.inputKey ++
    lit "', writing to '" ++ cmd.outputKey ++ lit "'" ++
    (if cmd.textPrefix = [] then [] else lit " with prefix '" ++ cmd.textPrefix ++ lit "'")

def missingMessage (cmd : TransformCommand) : Str :=
  lit "[" ++ cmd.instanceName ++ lit "] Key '" ++ cmd.inputKey ++
    lit "' not found or wrong type in DataPacket"

/-- TransformCommand.cpp:37-79. -/
def execute (cmd : TransformCommand) : Command W := fun input bus world =>
  let reading : LogEntry := ⟨.Info, cmd.readingMessage⟩
  match input.getString cmd.inputKey with
  | none =>
    ⟨world, bus, [reading, ⟨.Error, cmd.missingMessage⟩], .ok (.error cmd.missingMessage (-1))⟩
  | some value =>
    let upper := value.map toUpper
    let transformed := if cmd.textPrefix ≠ [] then cmd.textPrefix ++ upper else upper
    ⟨world, bus,
      [reading, ⟨.Debug, lit "[" ++ cmd.instanceName ++ lit "] Raw value: '" ++ value ++ lit "'"⟩,
        ⟨.Debug, lit "[" ++ cmd.instanceName ++ lit "] Transformed value: '" ++ transformed ++
          lit "'"⟩],
      .ok (.ok (input.set cmd.outputKey (.string transformed)))⟩

end TransformCommand

/-! ### EchoCommand (EchoCommand.cpp) -/

structure EchoCommand where
  instanceName : Str
  message : Str
  logInput : Bool

namespace EchoCommand

def construct (instanceName : Str) (params : Json) : Access EchoCommand := do
  let message ← stringParam params (lit "message") []
  let logInput ← boolParam params (lit "log_input") true
  return ⟨instanceName, message, logInput⟩

/- One line a key; the order of an `unordered_map` is nowhere relied on. -/
def inputLines (cmd : EchoCommand) (input : DataPacket) : List LogEntry :=
  if cmd.logInput then
    ⟨.Debug, lit "[" ++ cmd.instanceName ++ lit "] Input DataPacket has " ++
        natToString input.keys.length ++ lit " entries:"⟩ ::
      input.keys.map fun key => ⟨.Debug, lit "  - " ++ key⟩
  else []

def outputKeyLine (cmd : EchoCommand) (input : DataPacket) : LogEntry :=
  match input.getString (lit "output_key") with
  | some value => ⟨.Info, lit "[" ++ cmd.instanceName ++ lit "] Valor de '" ++ lit "output_key" ++
      lit "' encontrado: '" ++ value ++ lit "'"⟩
  | none => ⟨.Warn, lit "[" ++ cmd.instanceName ++ lit "] Clave '" ++ lit "output_key" ++
      lit "' no encontrada en el DataPacket"⟩

/-- EchoCommand.cpp:29-59. -/
def execute (cmd : EchoCommand) : Command W := fun input bus world =>
  ⟨world, bus,
    ⟨.Info, lit "[" ++ cmd.instanceName ++ lit "] " ++
        (if cmd.message = [] then lit "Echoing data packet" else cmd.message)⟩ ::
      (cmd.inputLines input ++ [cmd.outputKeyLine input]),
    .ok (.ok input)⟩

end EchoCommand

/-! ### DelayCommand (DelayCommand.cpp) -/

structure DelayCommand where
  instanceName : Str
  durationMs : Int32

namespace DelayCommand

def construct (instanceName : Str) (params : Json) : Access DelayCommand := do
  let durationMs ← intParam params (lit "duration_ms") 0
  return ⟨instanceName, durationMs⟩

/-- DelayCommand.cpp:22-40; the thread is taken to wake up again. -/
def execute (cmd : DelayCommand) : Command W := fun input bus world =>
  ⟨world, bus,
    [if cmd.durationMs > 0 then
      ⟨.Info, lit "[" ++ cmd.instanceName ++ lit "] Delaying for " ++
        intToString cmd.durationMs.toInt ++ lit " ms"⟩
    else ⟨.Debug, lit "[" ++ cmd.instanceName ++ lit "] No delay configured, passing through"⟩],
    .ok (.ok input)⟩

end DelayCommand

/-! ### The registered factories -/

inductive ShippedType where
  | echo
  | delay
  | transform

/- A fault would leave the constructor as an exception. -/
def makeShipped {C : Type} (construct : Str → Json → Access C) (execute : C → Command W) :
    CommandFactory W := fun instanceName params world =>
  match construct instanceName params with
  | .ok cmd => (world, .command (execute cmd))
  | .error _ => (world, .throws .other)

namespace ShippedType

def typeName : ShippedType → Str
  | .echo => lit "EchoCommand"
  | .delay => lit "DelayCommand"
  | .transform => lit "TransformCommand"

def factory : ShippedType → CommandFactory W
  | .echo => makeShipped EchoCommand.construct EchoCommand.execute
  | .delay => makeShipped DelayCommand.construct DelayCommand.execute
  | .transform => makeShipped TransformCommand.construct TransformCommand.execute

end ShippedType

/-- The registry serves every shipped type by its own factory. -/
def Registry.Ships (registry : Registry W) : Prop :=
  ∀ kind : ShippedType, registry.find? kind.typeName = some kind.factory

/-- Every step is of a shipped type. -/
def ShippedOnly (pipeline : List CommandConfig) : Prop :=
  ∀ cfg ∈ pipeline, ∃ kind : ShippedType, cfg.type = kind.typeName

/-! ### What a shipped step does to the packet -/

/- The effective keys and prefix of a transform step. -/
structure Rewrite where
  inputKey : Str
  outputKey : Str
  textPrefix : Str

def Rewrite.value (r : Rewrite) (value : Str) : Str := r.textPrefix ++ value.map toUpper

def Rewrite.apply (r : Rewrite) (packet : DataPacket) : Option DataPacket :=
  (packet.getString r.inputKey).map fun value => packet.set r.outputKey (.string (r.value value))

def rewriteOf (params : Json) : Rewrite where
  inputKey := effectiveString params (lit "input_key") (lit "input")
  outputKey := effectiveString params (lit "output_key") (lit "output")
  textPrefix := effectiveString params (lit "prefix") []

/- Transform steps rewrite one key, the others nothing. -/
def rewriteFor (type : Str) (params : Json) : Option Rewrite :=
  if type = lit "TransformCommand" then some (rewriteOf params) else none

/- The packet a step hands on, if it succeeds. -/
def stepPacket (type : Str) (params : Json) (packet : DataPacket) : Option DataPacket :=
  match rewriteFor type params with
  | none => some packet
  | some rewrite => rewrite.apply packet

/- A result for the packet handed on, an error for none. -/
def ResultOf (handed : Option DataPacket) (result : Result DataPacket) : Prop :=
  match handed with
  | some packet => result = .ok packet
  | none => ∃ message code, result = .error message code

theorem isOk_iff_of_resultOf {handed : Option DataPacket} {result : Result DataPacket}
    (h : ResultOf handed result) : result.isOk = true ↔ ∃ packet, handed = some packet := by
  cases handed with
  | some packet =>
    obtain rfl : result = .ok packet := h
    simp [Result.isOk]
  | none =>
    obtain ⟨message, code, rfl⟩ := h
    simp [Result.isOk]

/- The command a transform step's parameters make. -/
def transformOf (instanceName : Str) (params : Json) : TransformCommand where
  instanceName := instanceName
  inputKey := (rewriteOf params).inputKey
  outputKey := (rewriteOf params).outputKey
  textPrefix := (rewriteOf params).textPrefix

/- What a step returns that is given `packet`. -/
def stepResult (instanceName type : Str) (params : Json) (packet : DataPacket) : Result DataPacket :=
  match stepPacket type params packet with
  | some next => .ok next
  | none => .error (transformOf instanceName params).missingMessage (-1)

theorem stepResult_passing {type : Str} (htype : type ≠ lit "TransformCommand") (instanceName : Str)
    (params : Json) (packet : DataPacket) : stepResult instanceName type params packet = .ok packet := by
  unfold stepResult stepPacket rewriteFor
  rw [if_neg htype]

/-! ### The factories make commands that do just that -/

theorem transform_construct (instanceName : Str) (params : Json) :
    TransformCommand.construct instanceName params = .ok (transformOf instanceName params) := by
  unfold TransformCommand.construct
  rw [stringParam_eq, stringParam_eq, stringParam_eq]
  rfl

theorem getBool_of_isBoolean {value : Json} (h : value.isBoolean = true) :
    ∃ b, value.getBool = .ok b := by
  cases value with
  | boolean b => exact ⟨b, rfl⟩
  | _ => cases h

theorem getInt_of_isNumberInteger {value : Json} (h : value.isNumberInteger = true) :
    ∃ n, value.getInt = .ok n := by
  cases value with
  | numberInteger n => exact ⟨n.toInt32, rfl⟩
  | numberUnsigned u => exact ⟨u.toInt64.toInt32, rfl⟩
  | _ => cases h

theorem echo_constructs (instanceName : Str) (params : Json) :
    ∃ cmd, EchoCommand.construct instanceName params = .ok cmd := by
  obtain ⟨logInput, hlog⟩ := param_reads params (lit "log_input")
    (fun _ => getBool_of_isBoolean) true
  have hlog' : boolParam params (lit "log_input") true = .ok logInput := hlog
  unfold EchoCommand.construct
  rw [stringParam_eq, hlog']
  exact ⟨_, rfl⟩

theorem delay_constructs (instanceName : Str) (params : Json) :
    ∃ cmd, DelayCommand.construct instanceName params = .ok cmd := by
  obtain ⟨durationMs, hduration⟩ := param_reads params (lit "duration_ms")
    (fun _ => getInt_of_isNumberInteger) 0
  have hduration' : intParam params (lit "duration_ms") 0 = .ok durationMs := hduration
  unfold DelayCommand.construct
  rw [hduration']
  exact ⟨_, rfl⟩

/- An empty prefix is the same as none. -/
theorem transform_executes (instanceName : Str) (params : Json) (packet : DataPacket) (bus : DataBus)
    (world : W) :
    ∃ log, (transformOf instanceName params).execute packet bus world
      = ⟨world, bus, log, .ok (stepResult instanceName (lit "TransformCommand") params packet)⟩ := by
  have hstep : stepPacket (lit "TransformCommand") params packet
      = (rewriteOf params).apply packet := rfl
  have hinput : (transformOf instanceName params).inputKey = (rewriteOf params).inputKey := rfl
  unfold TransformCommand.execute stepResult
  rw [hstep, hinput]
  unfold Rewrite.apply Rewrite.value
  cases packet.getString (rewriteOf params).inputKey with
  | none => exact ⟨_, rfl⟩
  | some value =>
    have htext : (if (rewriteOf params).textPrefix ≠ [] then
          (rewriteOf params).textPrefix ++ value.map toUpper else value.map toUpper)
        = (rewriteOf params).textPrefix ++ value.map toUpper := by
      by_cases hempty : (rewriteOf params).textPrefix = []
      · simp [hempty]
      · simp [hempty]
    simp only [Option.map_some]
    rw [← htext]
    exact ⟨_, rfl⟩

/- What a factory of a shipped type makes of its step. -/
theorem factory_makes (kind : ShippedType) (instanceName : Str) (params : Json) (world : W) :
    ∃ cmd : Command W, kind.factory instanceName params world = (world, .command cmd) ∧
      ∀ packet bus world, ∃ log, cmd packet bus world
        = ⟨world, bus, log, .ok (stepResult instanceName kind.typeName params packet)⟩ := by
  cases kind with
  | echo =>
    obtain ⟨cmd, hcmd⟩ := echo_constructs instanceName params
    refine ⟨cmd.execute, ?_, ?_⟩
    · unfold ShippedType.factory makeShipped
      simp only [hcmd]
    · intro packet bus world
      rw [stepResult_passing (by decide)]
      exact ⟨_, rfl⟩
  | delay =>
    obtain ⟨cmd, hcmd⟩ := delay_constructs instanceName params
    refine ⟨cmd.execute, ?_, ?_⟩
    · unfold ShippedType.factory makeShipped
      simp only [hcmd]
    · intro packet bus world
      rw [stepResult_passing (by decide)]
      exact ⟨_, rfl⟩
  | transform =>
    refine ⟨_, ?_, transform_executes instanceName params⟩
    unfold ShippedType.factory makeShipped
    simp only [transform_construct]

end Workflow
