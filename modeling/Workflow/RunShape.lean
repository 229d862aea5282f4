import Workflow.Reference

/-!
# The invocations of a run

They are the steps of a prefix of the pipeline, in order, each with the type,
name and parameters of its step (`referenceFold_covers`). Packet and bus are
handed from one to the next (`referenceFold_chain`).
-/

namespace Workflow
open Observe

variable {W : Type}

/- The packet a step hands on if the run goes on after it. -/
def Invocation.packetAfter (call : Invocation) : DataPacket :=
  match call.outcome with
  | .ok (.ok packet) => packet
  | _ => call.packet

def Invocation.succeeded (call : Invocation) : Bool :=
  match call.outcome with
  | .ok (.ok _) => true
  | _ => false

/- The first invocation is given `packet` and `bus`, each later one what its
predecessor hands on, and the last one hands on `packet'` and `bus'`. -/
def Chain (packet : DataPacket) (bus : DataBus) : List Invocation → DataPacket → DataBus → Prop
  | [], packet', bus' => packet' = packet ∧ bus' = bus
  | call :: rest, packet', bus' =>
    call.packet = packet ∧ call.bus = bus ∧ Chain call.packetAfter call.busAfter rest packet' bus'

theorem chain_concat {packet : DataPacket} {bus : DataBus} {calls : List Invocation}
    {call : Invocation} (h : Chain packet bus calls call.packet call.bus) :
    Chain packet bus (calls ++ [call]) call.packetAfter call.busAfter := by
  induction calls generalizing packet bus with
  | nil => exact ⟨h.1, h.2, rfl, rfl⟩
  | cons first rest ih => exact ⟨h.1, h.2.1, ih h.2.2⟩

theorem chain_mono {packet packet' : DataPacket} {bus bus' : DataBus}
    {calls calls' : List Invocation} (hsub : calls' <+: calls)
    (h : Chain packet bus calls packet' bus') :
    ∃ packet'' bus'', Chain packet bus calls' packet'' bus'' := by
  induction calls' generalizing calls packet bus with
  | nil => exact ⟨packet, bus, rfl, rfl⟩
  | cons first rest ih =>
    obtain ⟨tail, rfl⟩ := hsub
    obtain ⟨packet'', bus'', hrest⟩ := ih (List.prefix_append rest tail) h.2.2
    exact ⟨packet'', bus'', h.1, h.2.1, hrest⟩

theorem packetAfter_of_failed {call : Invocation} (h : call.succeeded = false) :
    call.packetAfter = call.packet := by
  unfold Invocation.packetAfter
  unfold Invocation.succeeded at h
  cases hout : call.outcome with
  | error e =>
    rfl
  | ok result =>
    cases result with
    | ok packet =>
      rw [hout] at h
      cases h
    | error message code =>
      rfl

theorem conclude_continue (instanceName : Str) (call : Invocation) :
    conclude .CONTINUE instanceName call.packet (.ran call.outcome) = .next call.packetAfter := by
  unfold Invocation.packetAfter
  rcases call.outcome with e | (packet | ⟨message, code⟩) <;> rfl

theorem conclude_halt_of_succeeded (instanceName : Str) (call : Invocation)
    (h : call.succeeded = true) :
    conclude .HALT instanceName call.packet (.ran call.outcome) = .next call.packetAfter := by
  unfold Invocation.packetAfter
  unfold Invocation.succeeded at h
  cases hout : call.outcome with
  | error e =>
    rw [hout] at h
    cases h
  | ok result =>
    cases result with
    | ok packet =>
      rfl
    | error message code =>
      rw [hout] at h
      cases h

theorem conclude_halt_of_failed (instanceName : Str) (current : DataPacket) (call : Invocation)
    (h : call.succeeded = false) :
    ∃ result, conclude .HALT instanceName current (.ran call.outcome) = .leave result := by
  unfold Invocation.succeeded at h
  cases hout : call.outcome with
  | error e =>
    exact ⟨_, rfl⟩
  | ok result =>
    cases result with
    | ok packet =>
      rw [hout] at h
      cases h
    | error message code =>
      exact ⟨_, rfl⟩

/- A run that goes on after a command hands on that command's packet. -/
theorem conclude_next {onError : OnError} {instanceName : Str} {current packet : DataPacket}
    {call : Invocation} (hcurrent : call.packet = current)
    (h : conclude onError instanceName current (.ran call.outcome) = .next packet) :
    packet = call.packetAfter := by
  unfold Invocation.packetAfter
  subst hcurrent
  rcases hout : call.outcome with e | (packet' | ⟨message, code⟩) <;> rw [hout] at h <;>
    cases onError <;> simp only [conclude, Turn.next.injEq, reduceCtorEq] at h <;> exact h.symm

/- A fault hands nothing on. -/
theorem conclude_of_not_ran (onError : OnError) (instanceName : Str) (current : DataPacket)
    {tried : Attempt} (h : ∀ outcome, tried ≠ .ran outcome) (packet : DataPacket) :
    conclude onError instanceName current tried ≠ .next packet := by
  rcases tried with message | - | outcome
  · simp [conclude]
  · simp [conclude]
  · exact absurd rfl (h outcome)

def Progress.Chained (initial : DataPacket) (p : Progress W) : Prop :=
  ∃ packet, Chain initial .empty p.core.calls packet p.core.bus ∧
    ∀ current, p.turn = .next current → packet = current

theorem refStep_chained {registry : Registry W} {onError : OnError} {initial : DataPacket}
    {p : Progress W} (step : CommandConfig × ℕ) (hp : p.Chained initial) :
    (refStep registry onError p step).Chained initial := by
  obtain ⟨packet, hchain, hnext⟩ := hp
  rcases p with ⟨core, current | result⟩
  · obtain rfl := hnext current rfl
    rcases attempt_shape registry step.2 step.1 packet core with ⟨hnot, hcalls, hbus⟩ |
      ⟨call, hran, hcalls, hbus, _, _, _, _, hpacket, hbefore⟩
    · refine ⟨packet, ?_, ?_⟩
      · show Chain initial .empty (attempt registry step.2 step.1 packet core).2.calls packet
          (attempt registry step.2 step.1 packet core).2.bus
        rw [hcalls, hbus]
        exact hchain
      · intro next hturn
        exact absurd hturn (conclude_of_not_ran onError _ packet hnot next)
    · refine ⟨call.packetAfter, ?_, ?_⟩
      · show Chain initial .empty (attempt registry step.2 step.1 packet core).2.calls
          call.packetAfter (attempt registry step.2 step.1 packet core).2.bus
        rw [hcalls, hbus]
        apply chain_concat
        rw [hpacket, hbefore]
        exact hchain
      · intro next hturn
        have hturn' : conclude onError step.1.instanceName packet (.ran call.outcome) = .next next := by
          rw [← hran]
          exact hturn
        exact (conclude_next hpacket hturn').symm
  · exact ⟨packet, hchain, hnext⟩

theorem referenceFold_chain (registry : Registry W) (onError : OnError)
    (pipeline : List CommandConfig) (initial : DataPacket) (world : W) :
    (referenceFold registry onError pipeline initial world).Chained initial := by
  refine refFrom_induction (fun _ step hp => refStep_chained step hp) 0 pipeline ?_
  refine ⟨initial, ⟨rfl, rfl⟩, ?_⟩
  intro current hturn
  cases hturn
  rfl

/-! ### Which steps are invoked -/

/- The run reaches step `k`, and its factory returns a command there. -/
def Instantiated (registry : Registry W) (onError : OnError) (pipeline : List CommandConfig)
    (initial : DataPacket) (world : W) (k : ℕ) : Prop :=
  ∃ cfg current factory cmd, pipeline[k]? = some cfg ∧
    (referenceFold registry onError (pipeline.take k) initial world).turn = .next current ∧
    registry.find? cfg.type = some factory ∧
    (factory cfg.instanceName cfg.params
      (referenceFold registry onError (pipeline.take k) initial world).core.world).2 = .command cmd

theorem attempt_ran_iff (registry : Registry W) (i : ℕ) (cfg : CommandConfig)
    (current : DataPacket) (core : Core W) :
    (∃ outcome, (attempt registry i cfg current core).1 = .ran outcome) ↔
      ∃ factory cmd, registry.find? cfg.type = some factory ∧
        (factory cfg.instanceName cfg.params core.world).2 = .command cmd := by
  unfold attempt
  cases hfind : registry.find? cfg.type with
  | none =>
    simp
  | some factory =>
    simp only [Option.some.injEq, exists_and_left, exists_eq_left']
    rcases (factory cfg.instanceName cfg.params core.world).2 with cmd | - | (what | -) <;>
      simp [attemptWith]

theorem instantiated_append {registry : Registry W} {onError : OnError}
    {pipeline : List CommandConfig} (rest : List CommandConfig) {initial : DataPacket} {world : W}
    {k : ℕ} (h : Instantiated registry onError pipeline initial world k) :
    Instantiated registry onError (pipeline ++ rest) initial world k := by
  obtain ⟨cfg, current, factory, cmd, hk, hturn, hfind, hcmd⟩ := h
  have hlt : k < pipeline.length := (List.getElem?_eq_some_iff.mp hk).1
  refine ⟨cfg, current, factory, cmd, ?_, ?_, hfind, ?_⟩
  · rw [List.getElem?_append_left hlt, hk]
  · rw [List.take_append_of_le_length (Nat.le_of_lt hlt), hturn]
  · rw [List.take_append_of_le_length (Nat.le_of_lt hlt), hcmd]

/- The invocation of a step carries what its configuration says. -/
def Invocation.IsOf (pipeline : List CommandConfig) (call : Invocation) : Prop :=
  ∃ cfg, pipeline[call.step]? = some cfg ∧ call.type = cfg.type ∧
    call.instanceName = cfg.instanceName ∧ call.params = cfg.params

/- What the run over `pipeline` has invoked so far. -/
structure Progress.Covers (p : Progress W) (registry : Registry W) (onError : OnError)
    (pipeline : List CommandConfig) (initial : DataPacket) (world : W) : Prop where
  steps : p.core.calls.map Invocation.step = List.range p.core.calls.length
  all : ∀ current, p.turn = .next current → p.core.calls.length = pipeline.length
  isOf : ∀ call ∈ p.core.calls, call.IsOf pipeline
  instantiated : ∀ call ∈ p.core.calls, Instantiated registry onError pipeline initial world call.step

theorem isOf_append {pipeline : List CommandConfig} (rest : List CommandConfig) {call : Invocation}
    (h : call.IsOf pipeline) : call.IsOf (pipeline ++ rest) := by
  obtain ⟨cfg, hk, hfields⟩ := h
  have hlt : call.step < pipeline.length := (List.getElem?_eq_some_iff.mp hk).1
  exact ⟨cfg, by rw [List.getElem?_append_left hlt, hk], hfields⟩

theorem referenceFold_covers (registry : Registry W) (onError : OnError)
    (pipeline : List CommandConfig) (initial : DataPacket) (world : W) :
    (referenceFold registry onError pipeline initial world).Covers registry onError pipeline initial
      world := by
  induction pipeline using List.reverseRecOn with
  | nil =>
    exact ⟨rfl, fun _ _ => rfl, fun _ hcall => absurd hcall List.not_mem_nil,
      fun _ hcall => absurd hcall List.not_mem_nil⟩
  | append_singleton pipeline last ih =>
    obtain ⟨hsteps, hall, hisOf, hinst⟩ := ih
    have hk : (pipeline ++ [last])[pipeline.length]? = some last := List.getElem?_concat_length
    rw [referenceFold_concat]
    rcases hp : referenceFold registry onError pipeline initial world with ⟨core, current | result⟩
    · rw [hp] at hsteps hall hisOf hinst
      have hlen : core.calls.length = pipeline.length := hall current rfl
      rcases attempt_shape registry pipeline.length last current core with ⟨hnot, hcalls, _⟩ |
        ⟨call, hran, hcalls, _, hstep, htype, hname, hparams, _⟩
      · refine ⟨?_, ?_, ?_, ?_⟩
        · simpa only [refStep_next, hcalls] using hsteps
        · intro next hnext
          exact absurd hnext (conclude_of_not_ran onError _ current hnot next)
        · simp only [refStep_next, hcalls]
          exact fun call hcall => isOf_append [last] (hisOf call hcall)
        · simp only [refStep_next, hcalls]
          exact fun call hcall => instantiated_append [last] (hinst call hcall)
      · have hnew : Instantiated registry onError (pipeline ++ [last]) initial world pipeline.length := by
          obtain ⟨factory, cmd, hfind, hcmd⟩ :=
            (attempt_ran_iff registry pipeline.length last current core).mp ⟨_, hran⟩
          refine ⟨last, current, factory, cmd, hk, ?_, hfind, ?_⟩
          · rw [List.take_left, hp]
          · rw [List.take_left, hp]
            exact hcmd
        refine ⟨?_, ?_, ?_, ?_⟩
        · simp only [refStep_next, hcalls, List.map_append, List.map_cons, List.map_nil,
            List.length_append, List.length_singleton, List.range_succ]
          rw [hsteps, hstep, hlen]
        · intro _ _
          simp only [refStep_next, hcalls, List.length_append, List.length_singleton, hlen]
        · simp only [refStep_next, hcalls]
          intro c hc
          rcases List.mem_append.mp hc with hold | hlast
          · exact isOf_append [last] (hisOf c hold)
          · rw [List.mem_singleton.mp hlast]
            exact ⟨last, hstep ▸ hk, htype, hname, hparams⟩
        · simp only [refStep_next, hcalls]
          intro c hc
          rcases List.mem_append.mp hc with hold | hlast
          · exact instantiated_append [last] (hinst c hold)
          · rw [List.mem_singleton.mp hlast, hstep]
            exact hnew
    · rw [hp] at hsteps hisOf hinst
      refine ⟨hsteps, ?_, ?_, ?_⟩
      · intro _ hnext
        cases hnext
      · exact fun call hcall => isOf_append [last] (hisOf call hcall)
      · exact fun call hcall => instantiated_append [last] (hinst call hcall)

/- A step is invoked exactly when it got as far as an instantiated command. -/
theorem invoked_iff_instantiated (registry : Registry W) (onError : OnError)
    (pipeline : List CommandConfig) (initial : DataPacket) (world : W) (k : ℕ) :
    (∃ call ∈ (referenceFold registry onError pipeline initial world).core.calls, call.step = k) ↔
      Instantiated registry onError pipeline initial world k := by
  constructor
  · intro ⟨call, hcall, hstep⟩
    rw [← hstep]
    exact (referenceFold_covers registry onError pipeline initial world).instantiated call hcall
  · intro ⟨cfg, current, factory, cmd, hk, hturn, hfind, hcmd⟩
    have hran := (attempt_ran_iff registry k cfg current
      (referenceFold registry onError (pipeline.take k) initial world).core).mpr
      ⟨factory, cmd, hfind, hcmd⟩
    rw [referenceFold_split registry onError hk]
    rcases hp : referenceFold registry onError (pipeline.take k) initial world with ⟨core, turn⟩
    rw [hp] at hturn hran
    obtain rfl : turn = .next current := hturn
    rcases attempt_shape registry k cfg current core with ⟨hnot, _⟩ | ⟨call, _, hcalls, _, hstep, _⟩
    · obtain ⟨outcome, hout⟩ := hran
      exact absurd hout (hnot outcome)
    · refine ⟨call, ?_, hstep⟩
      apply (refFrom_calls_grow registry onError (k + 1) (pipeline.drop (k + 1)) _).subset
      rw [refStep_next]
      show call ∈ (attempt registry k cfg current core).2.calls
      rw [hcalls]
      exact List.mem_append_right _ List.mem_cons_self

end Workflow
