import Workflow.TransformFlow

/-!
# Exchanging neighbouring steps

Two shipped steps may change places unless one writes what the other reads or
writes (`flow_exchange`). A run does not tell the two orders apart, apart from
its snapshots (`exchange_iff`).
-/

namespace Workflow
open Observe

variable {W : Type}

/- At most one of the steps is a transform step, or they write different keys and
neither reads what the other writes. -/
def Independent (first second : CommandConfig) : Prop :=
  ∀ r r', rewriteFor first.type first.params = some r → rewriteFor second.type second.params = some r' →
    r.outputKey ≠ r'.outputKey ∧ r.outputKey ≠ r'.inputKey ∧ r'.outputKey ≠ r.inputKey

/-! ### Two packets -/

theorem set_comm (packet : DataPacket) {key key' : Str} (h : key ≠ key') (value value' : AnyValue) :
    (packet.set key value).set key' value' = (packet.set key' value').set key value := by
  unfold DataPacket.set
  rw [DataPacket.mk.injEq]
  apply SortedMap.ext_find?
  intro k
  by_cases hk : k = key
  · subst hk
    rw [SortedMap.find?_insert_ne _ h, SortedMap.find?_insert_self, SortedMap.find?_insert_self]
  · by_cases hk' : k = key'
    · subst hk'
      rw [SortedMap.find?_insert_self, SortedMap.find?_insert_ne _ hk, SortedMap.find?_insert_self]
    · rw [SortedMap.find?_insert_ne _ hk', SortedMap.find?_insert_ne _ hk,
        SortedMap.find?_insert_ne _ hk, SortedMap.find?_insert_ne _ hk']

theorem getString_set_ne (packet : DataPacket) {key key' : Str} (h : key' ≠ key) (value : AnyValue) :
    (packet.set key value).getString key' = packet.getString key' := by
  unfold DataPacket.getString DataPacket.set
  rw [SortedMap.find?_insert_ne _ h]

/-! ### Two steps -/

theorem handOn_passing {cfg : CommandConfig} (h : rewriteFor cfg.type cfg.params = none)
    (onError : OnError) (packet : DataPacket) : handOn onError packet cfg = some packet := by
  unfold handOn stepPacket
  rw [h]

/- What follows a failed step. -/
def afterFailed (onError : OnError) (packet : DataPacket) : Option DataPacket :=
  match onError with
  | .HALT => none
  | .CONTINUE => some packet

theorem handOn_rewriting {cfg : CommandConfig} {r : Rewrite}
    (h : rewriteFor cfg.type cfg.params = some r) (onError : OnError) (packet : DataPacket) :
    handOn onError packet cfg = match packet.getString r.inputKey with
      | some value => some (packet.set r.outputKey (.string (r.value value)))
      | none => afterFailed onError packet := by
  have hstep : stepPacket cfg.type cfg.params packet = r.apply packet := by
    unfold stepPacket
    rw [h]
  unfold handOn
  rw [hstep]
  unfold Rewrite.apply
  cases packet.getString r.inputKey with
  | some value => rfl
  | none => cases onError <;> rfl

/- Independent neighbours hand on the same packet in either order. -/
theorem handOn_exchange {first second : CommandConfig} (h : Independent first second)
    (onError : OnError) (packet : DataPacket) :
    ((handOn onError packet first).bind fun next => handOn onError next second)
      = (handOn onError packet second).bind fun next => handOn onError next first := by
  cases hfirst : rewriteFor first.type first.params with
  | none =>
    simp only [handOn_passing hfirst, Option.bind_some, Option.bind_fun_some]
  | some r =>
    cases hsecond : rewriteFor second.type second.params with
    | none =>
      simp only [handOn_passing hsecond, Option.bind_some, Option.bind_fun_some]
    | some r' =>
      obtain ⟨houtputs, hforth, hback⟩ := h r r' hfirst hsecond
      simp only [handOn_rewriting hfirst, handOn_rewriting hsecond]
      cases hvalue : packet.getString r.inputKey with
      | some value =>
        cases hvalue' : packet.getString r'.inputKey with
        | some value' =>
          simp only [Option.bind_some, getString_set_ne packet hforth.symm,
            getString_set_ne packet hback.symm, hvalue, hvalue', set_comm packet houtputs]
        | none =>
          cases onError with
          | HALT =>
            simp only [Option.bind_some, getString_set_ne packet hforth.symm, hvalue', afterFailed,
              Option.bind_none]
          | CONTINUE =>
            simp only [Option.bind_some, getString_set_ne packet hforth.symm, hvalue, hvalue',
              afterFailed]
      | none =>
        cases hvalue' : packet.getString r'.inputKey with
        | some value' =>
          cases onError with
          | HALT =>
            simp only [Option.bind_some, getString_set_ne packet hback.symm, hvalue, afterFailed,
              Option.bind_none]
          | CONTINUE =>
            simp only [Option.bind_some, getString_set_ne packet hback.symm, hvalue, hvalue',
              afterFailed]
        | none =>
          cases onError with
          | HALT => rfl
          | CONTINUE => simp only [afterFailed, Option.bind_some, hvalue, hvalue']

theorem flow_exchange {first second : CommandConfig} (h : Independent first second)
    (onError : OnError) (before after : List CommandConfig) (packet : DataPacket) :
    flow onError (before ++ first :: second :: after) packet
      = flow onError (before ++ second :: first :: after) packet := by
  induction before generalizing packet with
  | nil =>
    rw [List.nil_append, List.nil_append, flow_cons, flow_cons]
    simp only [flow_cons]
    rw [← Option.bind_assoc, ← Option.bind_assoc, handOn_exchange h]
  | cons cfg before ih =>
    rw [List.cons_append, List.cons_append, flow_cons, flow_cons]
    simp only [ih]

/-! ### Two runs -/

def WorkflowDefinition.over (config : WorkflowDefinition) (pipeline : List CommandConfig) :
    WorkflowDefinition :=
  { config with pipeline := pipeline }

/- Two results for the same packet handed on do not differ in more than an error's text. -/
theorem resultOf_agree {handed : Option DataPacket} {result result' : Result DataPacket}
    (h : ResultOf handed result) (h' : ResultOf handed result') :
    (∃ packet, result = .ok packet ∧ result' = .ok packet) ∨
      result.isError = true ∧ result'.isError = true := by
  cases handed with
  | some packet => exact Or.inl ⟨packet, h, h'⟩
  | none =>
    obtain ⟨message, code, rfl⟩ := h
    obtain ⟨message', code', rfl⟩ := h'
    exact Or.inr ⟨rfl, rfl⟩

theorem shippedOnly_exchange {before after : List CommandConfig} {first second : CommandConfig}
    (h : ShippedOnly (before ++ first :: second :: after)) :
    ShippedOnly (before ++ second :: first :: after) := by
  have hperm : (before ++ second :: first :: after).Perm (before ++ first :: second :: after) :=
    (List.Perm.swap first second after).append_left before
  intro cfg hcfg
  exact h cfg (hperm.mem_iff.mp hcfg)

section
variable [FloatText]

/- Both runs are ok and return the same packet, or both return an error. -/
def SameOutcome (registry : Registry W) (config config' : WorkflowDefinition) (initial : DataPacket)
    (s t : State W) : Prop :=
  ∃ result s' result' t', (execute registry config initial).run s = .ok result s' ∧
    (execute registry config' initial).run t = .ok result' t' ∧
    ((∃ packet, result = .ok packet ∧ result' = .ok packet) ∨
      result.isError = true ∧ result'.isError = true)

theorem exchange_iff {registry : Registry W} (hships : registry.Ships) (config : WorkflowDefinition)
    (before after : List CommandConfig) {first second : CommandConfig}
    (hshipped : ShippedOnly (before ++ first :: second :: after)) (h : Independent first second)
    (initial : DataPacket) (s t : State W) :
    SameOutcome registry (config.over (before ++ first :: second :: after))
        (config.over (before ++ second :: first :: after)) initial s t ↔
      AuditsHarmlessly (config.over (before ++ first :: second :: after)) initial s.obs.io ∧
        AuditsHarmlessly (config.over (before ++ second :: first :: after)) initial t.obs.io := by
  have hshipped' := shippedOnly_exchange hshipped
  have hreturns := execute_shipped_returns_iff hships
    (config.over (before ++ first :: second :: after)) hshipped initial s
  have hreturns' := execute_shipped_returns_iff hships
    (config.over (before ++ second :: first :: after)) hshipped' initial t
  constructor
  · intro ⟨result, s', result', t', hrun, hrun', _⟩
    exact ⟨hreturns.mp ⟨result, s', hrun⟩, hreturns'.mp ⟨result', t', hrun'⟩⟩
  · intro ⟨hharmless, hharmless'⟩
    obtain ⟨result, s', hrun⟩ := hreturns.mpr hharmless
    obtain ⟨result', t', hrun'⟩ := hreturns'.mpr hharmless'
    refine ⟨result, s', result', t', hrun, hrun', ?_⟩
    have hends : ResultOf (flow config.onError (before ++ first :: second :: after) initial) result :=
      execute_shipped hships (config.over (before ++ first :: second :: after)) hshipped hrun
    have hends' : ResultOf (flow config.onError (before ++ second :: first :: after) initial) result' :=
      execute_shipped hships (config.over (before ++ second :: first :: after)) hshipped' hrun'
    rw [← flow_exchange h] at hends'
    exact resultOf_agree hends hends'

end

/- The parameters of a transform step. -/
def transformParams (inputKey outputKey : Str) : Json :=
  .object [(lit "input_key", .string inputKey), (lit "output_key", .string outputKey)]

/- Two transform steps without input; the key of the first is not UTF-8. -/
def latinStep : CommandConfig := shippedStep .transform (transformParams [255] (lit "a"))

def plainStep : CommandConfig := shippedStep .transform (transformParams (lit "x") (lit "b"))

theorem shippedOnly_mock : ShippedOnly [latinStep, plainStep] := by
  intro cfg hcfg
  rcases List.mem_pair.mp hcfg with rfl | rfl
  · exact ⟨.transform, rfl⟩
  · exact ⟨.transform, rfl⟩

theorem independent_mock : Independent latinStep plainStep := by
  intro r r' hr hr'
  obtain rfl : rewriteOf latinStep.params = r := Option.some.inj hr
  obtain rfl : rewriteOf plainStep.params = r' := Option.some.inj hr'
  decide

theorem exchange_iff_mock :
    letI := mockFloatText
    SameOutcome shippedRegistry ((shippedConfig true []).over [latinStep, plainStep])
        ((shippedConfig true []).over [plainStep, latinStep]) .empty mockState mockState ↔
      AuditsHarmlessly ((shippedConfig true []).over [latinStep, plainStep]) .empty mockState.obs.io ∧
        AuditsHarmlessly ((shippedConfig true []).over [plainStep, latinStep]) .empty
          mockState.obs.io :=
  letI := mockFloatText
  exchange_iff ships_shippedRegistry (shippedConfig true []) [] []
    shippedOnly_mock independent_mock .empty mockState mockState

/- The first step fails at once, whichever it is. -/
theorem calls_latin_first : shippedCalls .HALT 0 [latinStep, plainStep] .empty
    = [shippedCall 0 latinStep .empty] := rfl

theorem calls_plain_first : shippedCalls .HALT 0 [plainStep, latinStep] .empty
    = [shippedCall 0 plainStep .empty] := rfl

/- The audited run throws in one order and returns an error in the other. -/
theorem exchange_changes_outcome :
    letI := mockFloatText
    ShippedOnly [latinStep, plainStep] ∧ Independent latinStep plainStep ∧
      (∃ message code t', (execute shippedRegistry ((shippedConfig true []).over [plainStep, latinStep])
        .empty).run mockState = .ok (.error message code) t') ∧
      ¬ SameOutcome shippedRegistry ((shippedConfig true []).over [latinStep, plainStep])
        ((shippedConfig true []).over [plainStep, latinStep]) .empty mockState mockState := by
  let _ := mockFloatText
  have hshipped : ShippedOnly [plainStep, latinStep] := @shippedOnly_exchange [] [] _ _ shippedOnly_mock
  refine ⟨shippedOnly_mock, independent_mock, ?_, ?_⟩
  · have hharmless : AuditsHarmlessly ((shippedConfig true []).over [plainStep, latinStep]) .empty
        mockState.obs.io := by
      intro _ n x hx
      have hmem : x ∈ trail .HALT (shippedCalls .HALT 0 [plainStep, latinStep] .empty) :=
        List.mem_of_getElem? hx
      rw [calls_plain_first] at hmem
      obtain ⟨call, hcall, hx⟩ := List.mem_flatMap.mp hmem
      rw [List.mem_singleton.mp hcall] at hx
      have hutf8 : (shippedCall 0 plainStep .empty).SnapshotsUtf8 (lit "mock") :=
        ⟨by decide, by decide, trivial, trivial, trivial, by show Utf8.Valid _; decide⟩
      exact Or.inr (snapshots_of_snapshotsUtf8 hutf8 x hx)
    obtain ⟨result, t', hrun⟩ := (execute_shipped_returns_iff ships_shippedRegistry
      ((shippedConfig true []).over [plainStep, latinStep]) hshipped .empty mockState).mpr hharmless
    obtain ⟨message, code, rfl⟩ : ResultOf none result :=
      execute_shipped ships_shippedRegistry _ hshipped hrun
    exact ⟨message, code, t', hrun⟩
  · intro ⟨result, s', _, _, hrun, _⟩
    have hharmless := (execute_shipped_returns_iff ships_shippedRegistry
      ((shippedConfig true []).over [latinStep, plainStep]) shippedOnly_mock .empty mockState).mp
        ⟨result, s', hrun⟩ rfl
    have hsecond : (trail .HALT (shippedCalls .HALT 0 [latinStep, plainStep] .empty))[1]?
        = ((shippedCall 0 latinStep .empty).laterSnapshots .HALT).head? := by
      rw [calls_latin_first]
      rfl
    cases hharmless 1 _ hsecond with
    | inl hearly => exact IoOutcome.not_failsEarly_success hearly
    | inr hutf8 =>
      have hmessage := (errorMembers_utf8 _ _).mp hutf8.2.2.2.2.2
      exact absurd hmessage (by decide)

end Workflow
