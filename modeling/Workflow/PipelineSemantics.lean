import Workflow.Refinement

/-!
# What an unaudited run returns

The engine returns what the reference fold returns, and it does return as long
as no factory throws anything but a `std::exception`. That one gap in the
exception handling is exact: a run escapes if and only if it reaches a step
whose factory throws a value of another type.
-/

namespace Workflow
open Observe

variable {W : Type}

/-! ### Factories that throw standard exceptions alone -/

def Registry.ThrowsOnlyStd (registry : Registry W) : Prop :=
  ∀ type factory, registry.find? type = some factory →
    ∀ instanceName params world, (factory instanceName params world).2 ≠ .throws .other

theorem attempt_escape_iff (registry : Registry W) (i : ℕ) (cfg : CommandConfig)
    (current : DataPacket) (core : Core W) :
    (attempt registry i cfg current core).1 = .escape ↔
      ∃ factory, registry.find? cfg.type = some factory ∧
        (factory cfg.instanceName cfg.params core.world).2 = .throws .other := by
  unfold attempt
  cases hfind : registry.find? cfg.type with
  | none =>
    simp
  | some factory =>
    simp only [Option.some.injEq, exists_eq_left']
    rcases (factory cfg.instanceName cfg.params core.world).2 with cmd | - | (what | -) <;>
      simp [attemptWith]

theorem conclude_error_iff (onError : OnError) (instanceName : Str) (current : DataPacket)
    (tried : Attempt) :
    (∃ e, conclude onError instanceName current tried = .leave (.error e)) ↔ tried = .escape := by
  rcases tried with message | - | (e | (packet | ⟨message, code⟩)) <;> cases onError <;>
    simp [conclude]

/- The run has broken off with an exception. -/
def Progress.Escaped (p : Progress W) : Prop := ∃ e, p.turn = .leave (.error e)

theorem refStep_escaped_iff (registry : Registry W) (onError : OnError) (p : Progress W)
    (step : CommandConfig × ℕ) :
    (refStep registry onError p step).Escaped ↔ p.Escaped ∨
      ∃ current factory, p.turn = .next current ∧ registry.find? step.1.type = some factory ∧
        (factory step.1.instanceName step.1.params p.core.world).2 = .throws .other := by
  rcases p with ⟨core, current | result⟩
  · have hnot : ¬ Progress.Escaped (⟨core, .next current⟩ : Progress W) := by
      intro ⟨e, he⟩
      cases he
    have hstep : (refStep registry onError ⟨core, .next current⟩ step).Escaped ↔
        (attempt registry step.2 step.1 current core).1 = .escape :=
      conclude_error_iff onError step.1.instanceName current _
    rw [hstep, attempt_escape_iff]
    constructor
    · intro ⟨factory, hfind, hthrow⟩
      exact Or.inr ⟨current, factory, rfl, hfind, hthrow⟩
    · intro h
      rcases h with h | ⟨_, factory, _, hfind, hthrow⟩
      · exact absurd h hnot
      · exact ⟨factory, hfind, hthrow⟩
  · constructor
    · intro h
      exact Or.inl h
    · intro h
      rcases h with h | ⟨_, _, hturn, _⟩
      · exact h
      · cases hturn

/- No step that the run reaches has a factory throwing a value that is no
`std::exception`; the run reaches step `k` with what the steps before it left. -/
def ReachesNoForeignThrow (registry : Registry W) (onError : OnError)
    (pipeline : List CommandConfig) (initial : DataPacket) (world : W) : Prop :=
  ∀ k cfg factory current, pipeline[k]? = some cfg →
    (referenceFold registry onError (pipeline.take k) initial world).turn = .next current →
    registry.find? cfg.type = some factory →
    (factory cfg.instanceName cfg.params
      (referenceFold registry onError (pipeline.take k) initial world).core.world).2 ≠ .throws .other

theorem reachesNoForeignThrow_concat (registry : Registry W) (onError : OnError)
    (pipeline : List CommandConfig) (last : CommandConfig) (initial : DataPacket) (world : W) :
    ReachesNoForeignThrow registry onError (pipeline ++ [last]) initial world ↔
      ReachesNoForeignThrow registry onError pipeline initial world ∧
        ∀ factory current,
          (referenceFold registry onError pipeline initial world).turn = .next current →
          registry.find? last.type = some factory →
          (factory last.instanceName last.params
            (referenceFold registry onError pipeline initial world).core.world).2 ≠ .throws .other := by
  constructor
  · intro h
    constructor
    · intro k cfg factory current hk
      have hlt : k < pipeline.length := (List.getElem?_eq_some_iff.mp hk).1
      have hk' : (pipeline ++ [last])[k]? = some cfg := by
        rw [List.getElem?_append_left hlt, hk]
      have hstep := h k cfg factory current hk'
      rwa [List.take_append_of_le_length (Nat.le_of_lt hlt)] at hstep
    · intro factory current
      have hk : (pipeline ++ [last])[pipeline.length]? = some last := List.getElem?_concat_length
      have hstep := h pipeline.length last factory current hk
      rwa [List.take_left] at hstep
  · intro ⟨hinit, hlast⟩ k cfg factory current hk
    rcases Nat.lt_or_ge k pipeline.length with hlt | hge
    · rw [List.getElem?_append_left hlt] at hk
      rw [List.take_append_of_le_length (Nat.le_of_lt hlt)]
      exact hinit k cfg factory current hk
    · have hbound := (List.getElem?_eq_some_iff.mp hk).1
      have heq : k = pipeline.length := by
        rw [List.length_append, List.length_singleton] at hbound
        omega
      subst heq
      rw [List.getElem?_concat_length, Option.some.injEq] at hk
      subst hk
      rw [List.take_left]
      exact hlast factory current

theorem referenceFold_escaped_iff (registry : Registry W) (onError : OnError)
    (pipeline : List CommandConfig) (initial : DataPacket) (world : W) :
    (referenceFold registry onError pipeline initial world).Escaped ↔
      ¬ ReachesNoForeignThrow registry onError pipeline initial world := by
  induction pipeline using List.reverseRecOn with
  | nil =>
    constructor
    · intro ⟨e, he⟩
      cases he
    · intro h
      exact absurd (fun k cfg factory current hk => by simp at hk) h
  | append_singleton pipeline last ih =>
    rw [referenceFold_concat, refStep_escaped_iff, ih, reachesNoForeignThrow_concat,
      Classical.not_and_iff_not_or_not]
    apply or_congr Iff.rfl
    push Not
    constructor
    · intro ⟨current, factory, hturn, hfind, hthrow⟩
      exact ⟨factory, current, hturn, hfind, hthrow⟩
    · intro ⟨factory, current, hturn, hfind, hthrow⟩
      exact ⟨current, factory, hturn, hfind, hthrow⟩

/-! ### The unaudited run -/

theorem result_ok_of_not_escaped {p : Progress W} (h : ¬ p.Escaped) : ∃ r, p.result = .ok r := by
  rcases p with ⟨core, current | (e | r)⟩
  · exact ⟨_, rfl⟩
  · exact absurd ⟨e, rfl⟩ h
  · exact ⟨r, rfl⟩

theorem not_escaped_of_result_ok {p : Progress W} {r : Result DataPacket} (h : p.result = .ok r) :
    ¬ p.Escaped := by
  intro ⟨e, he⟩
  unfold Progress.result at h
  rw [he] at h
  cases h

theorem reachesNoForeignThrow_of_throwsOnlyStd {registry : Registry W} (h : registry.ThrowsOnlyStd)
    (onError : OnError) (pipeline : List CommandConfig) (initial : DataPacket) (world : W) :
    ReachesNoForeignThrow registry onError pipeline initial world :=
  fun _ cfg factory _ _ _ hfind => h cfg.type factory hfind cfg.instanceName cfg.params _

theorem snapshotsSerialise_of_unaudited {config : WorkflowDefinition} (haudit : config.audit = false)
    (calls : List Invocation) : SnapshotsSerialise config calls := by
  intro hon
  rw [haudit] at hon
  cases hon

theorem instanceName_infix_exceptionMessage (instanceName : Str) (e : Exn) :
    instanceName <:+: exceptionMessage instanceName e := by
  cases e with
  | std what =>
    refine ⟨lit "Command '", lit "' threw exception: " ++ what, ?_⟩
    simp only [exceptionMessage, List.append_assoc]
  | other => exact ⟨lit "Command '", lit "' threw unknown exception", rfl⟩

section
variable [FloatText]

theorem execute_returns_iff {registry : Registry W} {config : WorkflowDefinition} {initial : DataPacket}
    {s : State W} {p : Progress W}
    (hp : p = referenceFold registry config.onError config.pipeline initial s.core.world)
    (h : SnapshotsSerialise config p.core.calls) :
    (∃ r s', (execute registry config initial).run s = .ok r s') ↔ ¬ p.Escaped := by
  have hseen := seen_core_execute hp h
  unfold Progress.ending at hseen
  constructor
  · intro ⟨r, s', hrun⟩
    rw [hrun] at hseen
    cases hresult : p.result with
    | error e =>
      rw [hresult] at hseen
      cases hseen
    | ok r' =>
      exact not_escaped_of_result_ok hresult
  · intro hesc
    obtain ⟨r, hr⟩ := result_ok_of_not_escaped hesc
    rw [hr] at hseen
    obtain ⟨s', hrun, _⟩ := exists_of_seen_ok hseen
    exact ⟨r, s', hrun⟩

/- The engine without audit computes the reference fold: the same result, bus,
world and invocations. -/
theorem execute_eq_referenceFold (registry : Registry W) (config : WorkflowDefinition)
    (initial : DataPacket) (s : State W) (haudit : config.audit = false)
    (hstd : registry.ThrowsOnlyStd) :
    (∃ r, (referenceFold registry config.onError config.pipeline initial s.core.world).result = .ok r ∧
      seen State.core ((execute registry config initial).run s)
        = .ok r (referenceFold registry config.onError config.pipeline initial s.core.world).core) ∧
      ∀ cfg ∈ config.pipeline, ∀ e, cfg.instanceName <:+: exceptionMessage cfg.instanceName e := by
  refine ⟨?_, fun cfg _ e => instanceName_infix_exceptionMessage cfg.instanceName e⟩
  have hseen : seen State.core ((execute registry config initial).run s)
      = (referenceFold registry config.onError config.pipeline initial s.core.world).ending :=
    seen_core_execute rfl (snapshotsSerialise_of_unaudited haudit _)
  have hreach := reachesNoForeignThrow_of_throwsOnlyStd hstd config.onError config.pipeline initial
    s.core.world
  have hesc := (referenceFold_escaped_iff registry config.onError config.pipeline initial
    s.core.world).not.mpr (not_not.mpr hreach)
  obtain ⟨r, hr⟩ := result_ok_of_not_escaped hesc
  refine ⟨r, hr, ?_⟩
  rw [hseen, Progress.ending, hr]

/- A run is contained exactly when it reaches no step whose factory throws a
value of another type, and a registry is safe exactly when it has no such factory. -/
theorem execute_contains_exceptions_iff (registry : Registry W) :
    (∀ (config : WorkflowDefinition) (initial : DataPacket) (s : State W), config.audit = false →
      ((∃ r s', (execute registry config initial).run s = .ok r s') ↔
        ReachesNoForeignThrow registry config.onError config.pipeline initial s.core.world)) ∧
    ((∀ (config : WorkflowDefinition) (initial : DataPacket) (s : State W), config.audit = false →
      ∃ r s', (execute registry config initial).run s = .ok r s') ↔ registry.ThrowsOnlyStd) := by
  have hrun : ∀ (config : WorkflowDefinition) (initial : DataPacket) (s : State W),
      config.audit = false → ((∃ r s', (execute registry config initial).run s = .ok r s') ↔
        ReachesNoForeignThrow registry config.onError config.pipeline initial s.core.world) := by
    intro config initial s haudit
    rw [execute_returns_iff rfl (snapshotsSerialise_of_unaudited haudit _), referenceFold_escaped_iff,
      not_not]
  refine ⟨hrun, ?_, ?_⟩
  · -- a pipeline of the one offending step escapes
    intro h type factory hfind instanceName params world hthrow
    let cfg : CommandConfig := ⟨type, instanceName, params, []⟩
    let config : WorkflowDefinition := ⟨[], [], [cfg], false, .HALT⟩
    let s : State W := ⟨⟨world, .empty, []⟩, ⟨[], [], ∅, fun _ => .success, fun _ => ⟨0, 0, 0, 0, 0, 0⟩⟩⟩
    have hreach := (hrun config .empty s rfl).mp (h config .empty s rfl)
    exact hreach 0 cfg factory .empty rfl rfl hfind hthrow
  · intro hstd config initial s haudit
    exact (hrun config initial s haudit).mpr (reachesNoForeignThrow_of_throwsOnlyStd hstd _ _ _ _)

end

/-! ### Mock commands -/

/- A factory of commands that leave the bus alone, as MockCommand.hpp without a callback. -/
def mockFactory (react : DataPacket → Except Exn (Result DataPacket)) : CommandFactory Unit :=
  fun _ _ world => (world, .command fun packet bus world => ⟨world, bus, [], react packet⟩)

def mockRegistry : Registry Unit :=
  ((((∅ : Registry Unit).insert (lit "Pass") (mockFactory fun packet => .ok (.ok packet))).insert
    (lit "Fail") (mockFactory fun _ => .ok (.error (lit "no input") 7))).insert
    (lit "Throw") (mockFactory fun _ => .error (.std (lit "boom")))).insert
    (lit "Null") (fun _ _ world => (world, .null))

def mockStep (type : String) : CommandConfig := ⟨lit type, lit type, .object [], []⟩

def mockConfig (onError : OnError) (audit : Bool) (types : List String) : WorkflowDefinition :=
  ⟨lit "mock", [], types.map mockStep, audit, onError⟩

/- Empty, with a file system that never fails. -/
def mockObs : Obs := ⟨[], lit "logs/audit", ∅, fun _ => .success, fun _ => ⟨2026, 1, 1, 0, 0, 0⟩⟩

def mockState : State Unit := construct () mockObs none

abbrev mockFloatText : FloatText := ⟨fun _ => lit "0.0"⟩

theorem throwsOnlyStd_empty : (∅ : Registry W).ThrowsOnlyStd := by
  intro type factory hfind
  cases hfind

theorem throwsOnlyStd_insert {registry : Registry W} (h : registry.ThrowsOnlyStd) (type : Str)
    {factory : CommandFactory W}
    (hfactory : ∀ instanceName params world, (factory instanceName params world).2 ≠ .throws .other) :
    Registry.ThrowsOnlyStd (registry.insert type factory) := by
  intro type' factory' hfind
  by_cases heq : type' = type
  · rw [heq, SortedMap.find?_insert_self, Option.some.injEq] at hfind
    rw [← hfind]
    exact hfactory
  · rw [SortedMap.find?_insert_ne _ heq] at hfind
    exact h type' factory' hfind

theorem throwsOnlyStd_mockRegistry : mockRegistry.ThrowsOnlyStd := by
  have hmock : ∀ react instanceName params world,
      (mockFactory react instanceName params world).2 ≠ .throws .other := by
    intro react instanceName params world h
    cases h
  refine throwsOnlyStd_insert (throwsOnlyStd_insert (throwsOnlyStd_insert
    (throwsOnlyStd_insert throwsOnlyStd_empty _ (hmock _)) _ (hmock _)) _ (hmock _)) _ ?_
  intro instanceName params world h
  cases h

theorem execute_eq_referenceFold_mock :
    letI := mockFloatText
    (∃ r, (referenceFold mockRegistry .CONTINUE ([("Pass" : String), "Fail", "Throw"].map mockStep)
        .empty ()).result = .ok r ∧
      seen State.core ((execute mockRegistry (mockConfig .CONTINUE false ["Pass", "Fail", "Throw"])
          .empty).run mockState)
        = .ok r (referenceFold mockRegistry .CONTINUE
          ([("Pass" : String), "Fail", "Throw"].map mockStep) .empty ()).core) ∧
      ∀ cfg ∈ [("Pass" : String), "Fail", "Throw"].map mockStep, ∀ e,
        cfg.instanceName <:+: exceptionMessage cfg.instanceName e :=
  letI := mockFloatText
  execute_eq_referenceFold mockRegistry (mockConfig .CONTINUE false ["Pass", "Fail", "Throw"]) .empty
    mockState rfl throwsOnlyStd_mockRegistry

def mockAudited : WorkflowDefinition := mockConfig .CONTINUE true ["Pass", "Throw"]

theorem snapshotsSerialise_mockAudited : SnapshotsSerialise mockAudited
    (referenceFold mockRegistry .CONTINUE mockAudited.pipeline .empty ()).core.calls := by
  intro _ call hcall
  have hcalls : (referenceFold mockRegistry .CONTINUE mockAudited.pipeline .empty ()).core.calls
      = [⟨0, lit "Pass", lit "Pass", .object [], .empty, .empty, .empty, .ok (.ok .empty)⟩,
        ⟨1, lit "Throw", lit "Throw", .object [], .empty, .empty, .empty,
          .error (.std (lit "boom"))⟩] := rfl
  rw [hcalls] at hcall
  rcases List.mem_pair.mp hcall with rfl | rfl
  · exact ⟨by decide, by decide, trivial, trivial, trivial, trivial⟩
  · exact ⟨by decide, by decide, trivial, trivial, trivial, by show Utf8.Valid _; decide⟩

/- A factory that throws a value which is no `std::exception`. -/
def foreignRegistry : Registry Unit :=
  (∅ : Registry Unit).insert (lit "Foreign") fun _ _ world => (world, .throws .other)

theorem execute_lets_foreign_exception_escape :
    letI := mockFloatText
    ¬ ∃ r s', (execute foreignRegistry (mockConfig .HALT false ["Foreign"]) .empty).run mockState
      = .ok r s' := by
  intro ⟨r, s', hrun⟩
  cases hrun

end Workflow
