import Workflow.ErrorPolicy
import Workflow.ShippedCommands

/-!
# Pipelines of shipped commands

A run over shipped steps is a fold over the packet alone (`refFrom_shipped`).
Whether it succeeds under HALT can be read off the pipeline, and what it does to
the entries of the packet follows from its successful transform steps
(`shipped_run_iff`).
-/

namespace Workflow
open Observe

variable {W : Type}

/-! ### The packet through a pipeline -/

/- The packet for the next step; none where the run ends. -/
def handOn (onError : OnError) (packet : DataPacket) (cfg : CommandConfig) : Option DataPacket :=
  match stepPacket cfg.type cfg.params packet, onError with
  | some next, _ => some next
  | none, .HALT => none
  | none, .CONTINUE => some packet

def flow (onError : OnError) (pipeline : List CommandConfig) (packet : DataPacket) :
    Option DataPacket :=
  pipeline.foldlM (handOn onError) packet

theorem flow_cons (onError : OnError) (cfg : CommandConfig) (pipeline : List CommandConfig)
    (packet : DataPacket) :
    flow onError (cfg :: pipeline) packet
      = (handOn onError packet cfg).bind fun next => flow onError pipeline next := rfl

/- How a turn stands for the packet handed on. -/
def Concludes (handed : Option DataPacket)
    (turn : Turn DataPacket (Except Exn (Result DataPacket))) : Prop :=
  match handed with
  | some packet => turn = .next packet
  | none => ∃ message code, turn = .leave (.ok (.error message code))

/- An invocation of a shipped command. -/
structure Invocation.Shipped (call : Invocation) : Prop where
  returns : call.outcome = .ok (stepResult call.instanceName call.type call.params call.packet)
  bus : call.busAfter = call.bus

def shippedCall (i : ℕ) (cfg : CommandConfig) (packet : DataPacket) : Invocation where
  step := i
  type := cfg.type
  instanceName := cfg.instanceName
  params := cfg.params
  packet := packet
  bus := .empty
  busAfter := .empty
  outcome := .ok (stepResult cfg.instanceName cfg.type cfg.params packet)

/- The invocations that pipeline and packet call for; `i` is the index of the first step. -/
def shippedCalls (onError : OnError) (i : ℕ) (pipeline : List CommandConfig) (packet : DataPacket) :
    List Invocation :=
  match pipeline with
  | [] => []
  | cfg :: rest =>
    shippedCall i cfg packet ::
      match handOn onError packet cfg with
      | some next => shippedCalls onError (i + 1) rest next
      | none => []

theorem shipped_of_mem_shippedCalls {onError : OnError} {i : ℕ} {pipeline : List CommandConfig}
    {packet : DataPacket} {call : Invocation} (h : call ∈ shippedCalls onError i pipeline packet) :
    call.Shipped := by
  induction pipeline generalizing i packet with
  | nil => cases h
  | cons cfg rest ih =>
    unfold shippedCalls at h
    cases List.mem_cons.mp h with
    | inl hfirst => exact hfirst ▸ ⟨rfl, rfl⟩
    | inr hrest =>
      cases hhand : handOn onError packet cfg with
      | none =>
        rw [hhand] at hrest
        cases hrest
      | some next =>
        rw [hhand] at hrest
        exact ih hrest

theorem concludes_stepResult (cfg : CommandConfig) (packet : DataPacket) (onError : OnError) :
    Concludes (handOn onError packet cfg) (conclude onError cfg.instanceName packet
      (.ran (.ok (stepResult cfg.instanceName cfg.type cfg.params packet)))) := by
  unfold handOn stepResult
  cases stepPacket cfg.type cfg.params packet with
  | some next => rfl
  | none =>
    cases onError with
    | HALT => exact ⟨_, _, rfl⟩
    | CONTINUE => rfl

theorem refStep_shipped {registry : Registry W} (hships : registry.Ships) {cfg : CommandConfig}
    (hcfg : ∃ kind : ShippedType, cfg.type = kind.typeName) (onError : OnError) (i : ℕ)
    (world : W) (calls : List Invocation) (current : DataPacket) :
    ∃ turn, Concludes (handOn onError current cfg) turn ∧
      refStep registry onError ⟨⟨world, .empty, calls⟩, .next current⟩ (cfg, i)
        = ⟨⟨world, .empty, calls ++ [shippedCall i cfg current]⟩, turn⟩ := by
  obtain ⟨kind, hkind⟩ := hcfg
  obtain ⟨cmd, hmade, hruns⟩ := factory_makes kind cfg.instanceName cfg.params world
  obtain ⟨log, hrun⟩ := hruns current .empty world
  rw [← hkind] at hrun
  have hfind : registry.find? cfg.type = some kind.factory := hkind ▸ hships kind
  have htried : attempt registry i cfg current ⟨world, .empty, calls⟩
      = (.ran (.ok (stepResult cfg.instanceName cfg.type cfg.params current)),
          ⟨world, .empty, calls ++ [shippedCall i cfg current]⟩) := by
    unfold attempt
    rw [hfind]
    simp only [hmade, attemptWith, hrun]
    rfl
  rw [refStep_next, htried]
  exact ⟨_, concludes_stepResult cfg current onError, rfl⟩

theorem refFrom_shipped {registry : Registry W} (hships : registry.Ships) (onError : OnError) (i : ℕ)
    {pipeline : List CommandConfig} (hshipped : ShippedOnly pipeline) (world : W)
    (calls : List Invocation) (current : DataPacket) :
    ∃ turn, Concludes (flow onError pipeline current) turn ∧
      refFrom registry onError i pipeline ⟨⟨world, .empty, calls⟩, .next current⟩
        = ⟨⟨world, .empty, calls ++ shippedCalls onError i pipeline current⟩, turn⟩ := by
  induction pipeline generalizing i calls current with
  | nil =>
    refine ⟨.next current, rfl, ?_⟩
    unfold shippedCalls
    rw [refFrom_nil, List.append_nil]
  | cons cfg pipeline ih =>
    obtain ⟨turn, hturn, hstep⟩ :=
      refStep_shipped hships (hshipped cfg List.mem_cons_self) onError i world calls current
    unfold shippedCalls
    rw [refFrom_cons, hstep, flow_cons]
    unfold Concludes at hturn
    cases hhand : handOn onError current cfg with
    | none =>
      rw [hhand] at hturn
      obtain ⟨message, code, rfl⟩ := hturn
      rw [refFrom_leave]
      exact ⟨_, ⟨message, code, rfl⟩, rfl⟩
    | some next =>
      rw [hhand] at hturn
      obtain rfl : turn = .next next := hturn
      have hrest : ShippedOnly pipeline := fun c hc => hshipped c (List.mem_cons_of_mem _ hc)
      obtain ⟨ended, hended, hfold⟩ := ih (i + 1) hrest (calls ++ [shippedCall i cfg current]) next
      refine ⟨ended, hended, ?_⟩
      rw [hfold, List.append_assoc, List.singleton_append]

/-! ### Success can be read off the pipeline -/

def DataPacket.HoldsString (packet : DataPacket) (key : Str) : Prop :=
  ∃ value, packet.data.find? key = some (.string value)

/- The key holds a string at the start, or an earlier transform step writes it. -/
def Provided (initial : DataPacket) (earlier : List CommandConfig) (key : Str) : Prop :=
  initial.HoldsString key ∨
    ∃ cfg ∈ earlier, ∃ r, rewriteFor cfg.type cfg.params = some r ∧ r.outputKey = key

def InputsProvided (initial : DataPacket) (pipeline : List CommandConfig) : Prop :=
  ∀ earlier cfg later, pipeline = earlier ++ cfg :: later →
    ∀ r, rewriteFor cfg.type cfg.params = some r → Provided initial earlier r.inputKey

theorem getString_eq_some (packet : DataPacket) (key value : Str) :
    packet.getString key = some value ↔ packet.data.find? key = some (.string value) := by
  unfold DataPacket.getString
  cases packet.data.find? key with
  | none => simp
  | some v => cases v <;> simp

theorem apply_eq_some (r : Rewrite) (packet next : DataPacket) :
    r.apply packet = some next ↔ ∃ value, packet.data.find? r.inputKey = some (.string value) ∧
      next = packet.set r.outputKey (.string (r.value value)) := by
  unfold Rewrite.apply
  rw [Option.map_eq_some_iff]
  constructor
  · intro ⟨value, hvalue, hnext⟩
    exact ⟨value, (getString_eq_some packet _ value).mp hvalue, hnext.symm⟩
  · intro ⟨value, hvalue, hnext⟩
    exact ⟨value, (getString_eq_some packet _ value).mpr hvalue, hnext.symm⟩

theorem stepPacket_succeeds_iff (type : Str) (params : Json) (packet : DataPacket) :
    (∃ next, stepPacket type params packet = some next) ↔
      ∀ r, rewriteFor type params = some r → packet.HoldsString r.inputKey := by
  unfold stepPacket
  cases rewriteFor type params with
  | none => simp
  | some r =>
    simp only [apply_eq_some, Option.some.injEq, forall_eq']
    constructor
    · intro ⟨_, value, hvalue, _⟩
      exact ⟨value, hvalue⟩
    · intro ⟨value, hvalue⟩
      exact ⟨_, value, hvalue, rfl⟩

/- A step that succeeds makes its output key hold a string and no other key lose one. -/
theorem holdsString_stepPacket {type : Str} {params : Json} {packet next : DataPacket}
    (h : stepPacket type params packet = some next) (key : Str) :
    next.HoldsString key ↔
      packet.HoldsString key ∨ ∃ r, rewriteFor type params = some r ∧ r.outputKey = key := by
  unfold stepPacket at h
  cases hrewrite : rewriteFor type params with
  | none =>
    rw [hrewrite] at h
    obtain rfl := Option.some.inj h
    simp
  | some r =>
    rw [hrewrite] at h
    obtain ⟨value, hvalue, rfl⟩ := (apply_eq_some r packet next).mp h
    unfold DataPacket.HoldsString DataPacket.set
    by_cases hkey : key = r.outputKey
    · subst hkey
      constructor
      · intro _
        exact Or.inr ⟨r, rfl, rfl⟩
      · intro _
        exact ⟨_, SortedMap.find?_insert_self _ _ _⟩
    · simp only [SortedMap.find?_insert_ne _ hkey, Option.some.injEq, exists_eq_left']
      constructor
      · intro hholds
        exact Or.inl hholds
      · intro hor
        exact hor.resolve_right fun heq => hkey heq.symm

theorem provided_cons {cfg : CommandConfig} {packet next : DataPacket}
    (h : stepPacket cfg.type cfg.params packet = some next) (earlier : List CommandConfig) (key : Str) :
    Provided packet (cfg :: earlier) key ↔ Provided next earlier key := by
  unfold Provided
  rw [holdsString_stepPacket h, List.exists_mem_cons_iff, or_assoc]

theorem inputsProvided_cons_iff (packet : DataPacket) (cfg : CommandConfig)
    (pipeline : List CommandConfig) :
    InputsProvided packet (cfg :: pipeline) ↔
      ∃ next, stepPacket cfg.type cfg.params packet = some next ∧ InputsProvided next pipeline := by
  constructor
  · intro h
    have hfirst : ∀ r, rewriteFor cfg.type cfg.params = some r → packet.HoldsString r.inputKey := by
      intro r hr
      have hprovided := h [] cfg pipeline rfl r hr
      exact hprovided.resolve_right fun ⟨_, hmem, _⟩ => List.not_mem_nil hmem
    obtain ⟨next, hnext⟩ := (stepPacket_succeeds_iff _ _ _).mpr hfirst
    refine ⟨next, hnext, ?_⟩
    intro earlier c later hsplit r hr
    rw [← provided_cons hnext]
    exact h (cfg :: earlier) c later (by rw [hsplit, List.cons_append]) r hr
  · intro ⟨next, hnext, hrest⟩ earlier c later hsplit r hr
    cases earlier with
    | nil =>
      obtain ⟨rfl, _⟩ := List.cons.inj hsplit
      exact Or.inl ((stepPacket_succeeds_iff _ _ _).mp ⟨next, hnext⟩ r hr)
    | cons first earlier =>
      obtain ⟨rfl, htail⟩ := List.cons.inj hsplit
      rw [provided_cons hnext]
      exact hrest earlier c later htail r hr

theorem flow_halt_succeeds_iff (pipeline : List CommandConfig) (packet : DataPacket) :
    (∃ final, flow .HALT pipeline packet = some final) ↔ InputsProvided packet pipeline := by
  induction pipeline generalizing packet with
  | nil =>
    constructor
    · intro _ earlier cfg later hsplit
      cases earlier <;> cases hsplit
    · intro _
      exact ⟨packet, rfl⟩
  | cons cfg pipeline ih =>
    rw [inputsProvided_cons_iff, flow_cons]
    unfold handOn
    cases stepPacket cfg.type cfg.params packet with
    | none => simp
    | some next => simpa using ih next

theorem flow_continue_succeeds (pipeline : List CommandConfig) (packet : DataPacket) :
    ∃ final, flow .CONTINUE pipeline packet = some final := by
  induction pipeline generalizing packet with
  | nil => exact ⟨packet, rfl⟩
  | cons cfg pipeline ih =>
    rw [flow_cons]
    unfold handOn
    cases stepPacket cfg.type cfg.params packet with
    | none => exact ih packet
    | some next => exact ih next

/-! ### What becomes of the entries -/

/- A transform step that succeeded in writing the key. -/
def Invocation.Writes (call : Invocation) (key : Str) : Prop :=
  call.succeeded = true ∧ ∃ r, rewriteFor call.type call.params = some r ∧ r.outputKey = key

/- What a step hands on is what it makes of the packet, or the packet if it fails. -/
theorem packetAfter_shipped {call : Invocation} (h : call.Shipped) :
    match stepPacket call.type call.params call.packet with
    | some next => call.succeeded = true ∧ call.packetAfter = next
    | none => call.succeeded = false ∧ call.packetAfter = call.packet := by
  have hout := h.returns
  unfold stepResult at hout
  unfold Invocation.succeeded Invocation.packetAfter
  rw [hout]
  cases stepPacket call.type call.params call.packet with
  | some next => exact ⟨rfl, rfl⟩
  | none => exact ⟨rfl, rfl⟩

/- Either the invocation leaves the key alone, or it writes the rewritten input to it. -/
theorem find?_packetAfter {call : Invocation} (h : call.Shipped) (key : Str) :
    (¬ call.Writes key → call.packetAfter.data.find? key = call.packet.data.find? key) ∧
      (call.Writes key → ∃ value,
        call.packet.data.find? (rewriteOf call.params).inputKey = some (.string value) ∧
        call.packetAfter.data.find? key = some (.string ((rewriteOf call.params).value value))) := by
  have hafter := packetAfter_shipped h
  unfold Invocation.Writes
  cases hstep : stepPacket call.type call.params call.packet with
  | none =>
    rw [hstep] at hafter
    obtain ⟨hfailed, hsame⟩ := hafter
    constructor
    · intro _
      rw [hsame]
    · intro hwrites
      rw [hfailed] at hwrites
      cases hwrites.1
  | some next =>
    rw [hstep] at hafter
    obtain ⟨hsucceeded, hnext⟩ := hafter
    unfold stepPacket rewriteFor at hstep
    unfold rewriteFor
    by_cases htype : call.type = lit "TransformCommand"
    · rw [if_pos htype] at hstep ⊢
      obtain ⟨value, hvalue, hset⟩ := (apply_eq_some _ _ _).mp hstep
      rw [hnext, hset]
      constructor
      · intro hnot
        have hkey : key ≠ (rewriteOf call.params).outputKey := by
          intro heq
          exact hnot ⟨hsucceeded, _, rfl, heq.symm⟩
        exact SortedMap.find?_insert_ne _ hkey _
      · intro ⟨_, r, hr, hkey⟩
        obtain rfl := Option.some.inj hr
        exact ⟨value, hvalue, hkey ▸ SortedMap.find?_insert_self _ _ _⟩
    · rw [if_neg htype] at hstep ⊢
      obtain rfl := Option.some.inj hstep
      constructor
      · intro _
        rw [hnext]
      · intro ⟨_, r, hr, _⟩
        cases hr

/- Every key is still there; those that no transform step wrote hold what they
held, the others what the last such step made of its input. -/
structure DataKept (initial final : DataPacket) (calls : List Invocation) : Prop where
  present : ∀ key, initial.data.contains key = true → final.data.contains key = true
  untouched : ∀ key, (∀ call ∈ calls, ¬ call.Writes key) →
    final.data.find? key = initial.data.find? key
  written : ∀ before call after key, calls = before ++ call :: after → call.Writes key →
    (∀ later ∈ after, ¬ later.Writes key) → ∃ value,
      call.packet.data.find? (rewriteOf call.params).inputKey = some (.string value) ∧
      final.data.find? key = some (.string ((rewriteOf call.params).value value))

theorem contains_packetAfter {call : Invocation} (h : call.Shipped) {key : Str}
    (hkey : call.packet.data.contains key = true) : call.packetAfter.data.contains key = true := by
  obtain ⟨hkept, hwritten⟩ := find?_packetAfter h key
  rw [SortedMap.contains_iff] at hkey ⊢
  by_cases hwrites : call.Writes key
  · obtain ⟨value, _, hfind⟩ := hwritten hwrites
    exact ⟨_, hfind⟩
  · rw [hkept hwrites]
    exact hkey

theorem kept_of_chain {initial final : DataPacket} {bus bus' : DataBus} {calls : List Invocation}
    (hchain : Chain initial bus calls final bus') (hshipped : ∀ call ∈ calls, Invocation.Shipped call) :
    DataKept initial final calls ∧ bus' = bus := by
  induction calls generalizing initial bus with
  | nil =>
    obtain ⟨rfl, rfl⟩ := hchain
    refine ⟨⟨fun _ hkey => hkey, fun _ _ => rfl, ?_⟩, rfl⟩
    intro before call after key hsplit
    cases before <;> cases hsplit
  | cons first rest ih =>
    obtain ⟨rfl, rfl, hrest⟩ := hchain
    have hfirst := hshipped first List.mem_cons_self
    obtain ⟨hkept, hbus⟩ := ih hrest fun call hcall => hshipped call (List.mem_cons_of_mem _ hcall)
    refine ⟨⟨?_, ?_, ?_⟩, hbus.trans hfirst.bus⟩
    · intro key hkey
      exact hkept.present key (contains_packetAfter hfirst hkey)
    · intro key hnone
      rw [hkept.untouched key fun call hcall => hnone call (List.mem_cons_of_mem _ hcall)]
      exact (find?_packetAfter hfirst key).1 (hnone first List.mem_cons_self)
    · intro before call after key hsplit hwrites hlast
      cases before with
      | nil =>
        obtain ⟨rfl, rfl⟩ := List.cons.inj hsplit
        rw [hkept.untouched key hlast]
        exact (find?_packetAfter hfirst key).2 hwrites
      | cons c before =>
        exact hkept.written before call after key (List.cons.inj hsplit).2 hwrites hlast

/-! ### The whole run -/

theorem referenceFold_shipped {registry : Registry W} (hships : registry.Ships) (onError : OnError)
    {pipeline : List CommandConfig} (hshipped : ShippedOnly pipeline) (initial : DataPacket) (world : W) :
    ∃ turn, Concludes (flow onError pipeline initial) turn ∧
      referenceFold registry onError pipeline initial world
        = ⟨⟨world, .empty, shippedCalls onError 0 pipeline initial⟩, turn⟩ :=
  refFrom_shipped hships onError 0 hshipped world [] initial

theorem not_escaped_shipped {registry : Registry W} (hships : registry.Ships) (onError : OnError)
    {pipeline : List CommandConfig} (hshipped : ShippedOnly pipeline) (initial : DataPacket) (world : W) :
    ¬ (referenceFold registry onError pipeline initial world).Escaped := by
  obtain ⟨turn, hturn, hfold⟩ := referenceFold_shipped hships onError hshipped initial world
  rw [hfold]
  intro ⟨e, hescaped⟩
  obtain rfl : turn = .leave (.error e) := hescaped
  unfold Concludes at hturn
  cases hflow : flow onError pipeline initial with
  | some packet =>
    rw [hflow] at hturn
    cases hturn
  | none =>
    rw [hflow] at hturn
    obtain ⟨message, code, hleave⟩ := hturn
    cases hleave

section
variable [FloatText]

/- A run that returns ends in the packet of the flow, or with an error where that has none. -/
theorem execute_shipped {registry : Registry W} (hships : registry.Ships) (config : WorkflowDefinition)
    (hshipped : ShippedOnly config.pipeline) {initial : DataPacket} {s s' : State W}
    {result : Result DataPacket}
    (hrun : (execute registry config initial).run s = .ok result s') :
    ResultOf (flow config.onError config.pipeline initial) result := by
  obtain ⟨turn, hturn, hfold⟩ :=
    referenceFold_shipped hships config.onError hshipped initial s.core.world
  have hresult := (execute_returns_reference rfl hrun).1
  rw [hfold] at hresult
  unfold Progress.result at hresult
  unfold Concludes at hturn
  cases hflow : flow config.onError config.pipeline initial with
  | some packet =>
    rw [hflow] at hturn
    obtain rfl : turn = .next packet := hturn
    exact (Except.ok.inj hresult).symm
  | none =>
    rw [hflow] at hturn
    obtain ⟨message, code, rfl⟩ := hturn
    exact ⟨message, code, (Except.ok.inj hresult).symm⟩

/- The calls of a run that is ok are the steps of the pipeline, in their order,
and they keep the data. -/
structure RunKept (config : WorkflowDefinition) (initial final : DataPacket) (s : State W) : Prop where
  steps : s.core.calls.map Invocation.step = List.range config.pipeline.length
  isOf : ∀ call ∈ s.core.calls, call.IsOf config.pipeline
  data : DataKept initial final s.core.calls
  bus : s.core.bus = .empty

theorem execute_shipped_kept {registry : Registry W} (hships : registry.Ships)
    {config : WorkflowDefinition} (hshipped : ShippedOnly config.pipeline) {initial packet : DataPacket}
    {s s' : State W} (hrun : (execute registry config initial).run s = .ok (.ok packet) s') :
    RunKept config initial packet s' := by
  obtain ⟨hresult, hcore⟩ := execute_returns_reference rfl hrun
  obtain ⟨turn, _, hfold⟩ :=
    referenceFold_shipped hships config.onError hshipped initial s.core.world
  have hturn := next_of_ok hresult
  obtain ⟨hsteps, hall, hisOf, _⟩ :=
    referenceFold_covers registry config.onError config.pipeline initial s.core.world
  obtain ⟨final, hchain, hnext⟩ := referenceFold_chain registry config.onError config.pipeline initial
    s.core.world
  obtain rfl := hnext packet hturn
  rw [hall final hturn] at hsteps
  rw [hfold] at hsteps hisOf hchain hcore
  obtain ⟨hkept, hbus⟩ := kept_of_chain hchain fun _ => shipped_of_mem_shippedCalls
  rw [← hcore] at hsteps hisOf hkept hbus
  exact ⟨hsteps, hisOf, hkept, hbus⟩

/- Whether the run is ok is what the pipeline says, and an ok run keeps the data. -/
def RunsAsPredicted (registry : Registry W) (config : WorkflowDefinition) (initial : DataPacket)
    (s : State W) : Prop :=
  ∃ result s', (execute registry config initial).run s = .ok result s' ∧
    (config.onError = .HALT → (result.isOk = true ↔ InputsProvided initial config.pipeline)) ∧
    (config.onError = .CONTINUE → result.isOk = true) ∧
    ∀ packet, result = .ok packet → RunKept config initial packet s'

/- Every snapshot that pipeline and packet call for is harmless, if any are taken. -/
def AuditsHarmlessly (config : WorkflowDefinition) (initial : DataPacket) (io : ℕ → IoOutcome) :
    Prop :=
  config.audit = true → Harmless config.name io
    (trail config.onError (shippedCalls config.onError 0 config.pipeline initial))

theorem execute_shipped_returns_iff {registry : Registry W} (hships : registry.Ships)
    (config : WorkflowDefinition) (hshipped : ShippedOnly config.pipeline) (initial : DataPacket)
    (s : State W) :
    (∃ result s', (execute registry config initial).run s = .ok result s') ↔
      AuditsHarmlessly config initial s.obs.io := by
  have hesc := not_escaped_shipped hships config.onError hshipped initial s.core.world
  obtain ⟨turn, _, hfold⟩ :=
    referenceFold_shipped hships config.onError hshipped initial s.core.world
  unfold AuditsHarmlessly
  rw [execute_returns_iff_harmless rfl, and_iff_right hesc, hfold]

theorem shipped_run_iff {registry : Registry W} (hships : registry.Ships)
    (config : WorkflowDefinition) (hshipped : ShippedOnly config.pipeline) (initial : DataPacket)
    (s : State W) :
    RunsAsPredicted registry config initial s ↔ AuditsHarmlessly config initial s.obs.io := by
  have hreturns := execute_shipped_returns_iff hships config hshipped initial s
  constructor
  · intro ⟨result, s', hrun, _⟩
    exact hreturns.mp ⟨result, s', hrun⟩
  · intro hharmless
    obtain ⟨result, s', hrun⟩ := hreturns.mpr hharmless
    have hok := isOk_iff_of_resultOf (execute_shipped hships config hshipped hrun)
    refine ⟨result, s', hrun, ?_, ?_, ?_⟩
    · intro hhalt
      rw [hok, hhalt]
      exact flow_halt_succeeds_iff config.pipeline initial
    · intro hcontinue
      rw [hok, hcontinue]
      exact flow_continue_succeeds config.pipeline initial
    · intro packet hpacket
      rw [hpacket] at hrun
      exact execute_shipped_kept hships hshipped hrun

end

/-! ### The shipped registry -/

def shippedRegistry : Registry Unit :=
  (((∅ : Registry Unit).insert (ShippedType.typeName .echo) (ShippedType.factory .echo)).insert
    (ShippedType.typeName .delay) (ShippedType.factory .delay)).insert
    (ShippedType.typeName .transform) (ShippedType.factory .transform)

theorem ships_shippedRegistry : shippedRegistry.Ships := by
  intro kind
  cases kind with
  | echo => rfl
  | delay => rfl
  | transform => rfl

/- A step of a shipped type, named after it. -/
def shippedStep (kind : ShippedType) (params : Json) : CommandConfig :=
  ⟨kind.typeName, kind.typeName, params, []⟩

def shippedConfig (audit : Bool) (pipeline : List CommandConfig) : WorkflowDefinition :=
  ⟨lit "mock", [], pipeline, audit, .HALT⟩

theorem shipped_run_iff_mock :
    letI := mockFloatText
    RunsAsPredicted shippedRegistry
        (shippedConfig true [shippedStep .echo .null, shippedStep .transform .null]) .empty mockState ↔
      AuditsHarmlessly (shippedConfig true [shippedStep .echo .null, shippedStep .transform .null])
        .empty mockState.obs.io := by
  let _ := mockFloatText
  apply shipped_run_iff ships_shippedRegistry
  intro cfg hcfg
  rcases List.mem_pair.mp hcfg with rfl | rfl
  · exact ⟨.echo, rfl⟩
  · exact ⟨.transform, rfl⟩

/- An echo step needs no input, and yet the audited run throws. -/
theorem shipped_run_breaks_off :
    letI := mockFloatText
    ShippedOnly [shippedStep .echo .null] ∧ InputsProvided latinPacket [shippedStep .echo .null] ∧
      ¬ RunsAsPredicted shippedRegistry (shippedConfig true [shippedStep .echo .null]) latinPacket
        mockState := by
  refine ⟨?_, ?_, ?_⟩
  · intro cfg hcfg
    exact ⟨.echo, by rw [List.mem_singleton.mp hcfg]; rfl⟩
  · rw [← flow_halt_succeeds_iff]
    exact ⟨latinPacket, rfl⟩
  · intro ⟨result, s', hrun, _⟩
    cases hrun

end Workflow
