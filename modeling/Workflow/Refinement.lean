import Workflow.AuditPaths
import Workflow.Reference

/-!
# The engine computes the fold

Seen through its core, a run of the engine is the reference fold as long as no
snapshot fails to serialise (`seen_core_execute`). Otherwise it may only break
off with an exception (`execute_follows_or_throws`).
-/

namespace Workflow
open Observe

variable {W : Type}

/-! ### The two failure reports -/

/- What the two failure branches have in common. -/
structure FailureReport.Sound (report : FailureReport) : Prop where
  keys : (report.members.map Prod.fst).Sublist siteKeys
  status : report.status ∈ statuses
  skipped : Utf8.Valid report.skippedStatus

theorem sound_exceptionReport (cfg : CommandConfig) (e : Exn) : (exceptionReport cfg e).Sound :=
  ⟨exceptionMembers_keys _, by show lit "exception" ∈ statuses; decide,
    by show Utf8.Valid (lit "skipped_due_to_exception"); decide⟩

theorem sound_errorReport (i : ℕ) (cfg : CommandConfig) (result : Result DataPacket) :
    (errorReport i cfg result).Sound :=
  ⟨errorMembers_keys _ _, by show lit "error" ∈ statuses; decide,
    by show Utf8.Valid (lit "skipped_due_to_error"); decide⟩

/-! ### One step

`X` says where the run may break off: the rules are used with the empty `X`
when all strings are valid, and with a bound on the invocations when nothing is
known about them. -/

theorem yields_log (X : Core W → Prop) (level : LogLevel) (message : Str) (s : State W) :
    Yields State.core X (log level message) s (.ok () s.core) := Or.inl rfl

theorem yields_whenAudited {X : Core W → Prop} {config : WorkflowDefinition} {m : EngineM W Unit}
    {s : State W} (h : config.audit = true → Yields State.core X m s (.ok () s.core)) :
    Yields State.core X (whenAudited config m) s (.ok () s.core) := by
  unfold whenAudited
  by_cases haudit : config.audit = true
  · rw [if_pos haudit]
    exact h haudit
  · rw [if_neg haudit]
    exact Or.inl rfl

section
variable [FloatText]

theorem yields_snapshot {X : Core W → Prop} {config : WorkflowDefinition} {cfg : CommandConfig}
    {status : Str} {packet : DataPacket} {extra : List (Str × Json)}
    (hextra : (extra.map Prod.fst).Sublist siteKeys) {s : State W}
    (h : SnapshotUtf8 config.name cfg.instanceName status packet s.core.bus extra ∨ X s.core) (i : ℕ) :
    Yields State.core X (snapshot config i cfg status packet extra) s (.ok () s.core) := by
  unfold Yields
  rw [run_snapshot]
  cases hrun : (saveSnapshot config.name i cfg.instanceName status packet s.core.bus extra).run s.obs with
  | ok u o' =>
    left
    rw [run_observing_of_ok hrun, seen_ok]
  | error e o' =>
    cases h with
    | inl hvalid =>
      obtain ⟨o'', hok⟩ := saveSnapshot_returns hextra hvalid i s.obs
      rw [hok] at hrun
      cases hrun
    | inr hX => exact Or.inr ⟨e, { s with obs := o' }, run_observing_of_error hrun, hX⟩

theorem yields_afterFailure {X : Core W → Prop} {config : WorkflowDefinition} {cfg : CommandConfig}
    (current : DataPacket) {report : FailureReport} (hsound : report.Sound) {s : State W}
    (hvalid : config.audit = true → SnapshotUtf8 config.name cfg.instanceName report.status current
      s.core.bus report.members ∨ X s.core) (i : ℕ) :
    Yields State.core X (afterFailure config i cfg current report) s
      (match config.onError with
        | .HALT => .ok (.leave report.result) s.core
        | .CONTINUE => .ok (.next current) s.core) := by
  unfold afterFailure
  apply yields_bind (yields_log X _ _ s)
  intro s₁ h₁
  rw [← h₁] at hvalid ⊢
  have hfirst : Yields State.core X (whenAudited config do
      snapshot config i cfg report.status current report.members
      log .Info report.savedLine) s₁ (.ok () s₁.core) := by
    apply yields_whenAudited
    intro haudit
    apply yields_bind (yields_snapshot hsound.keys (hvalid haudit) i)
    intro s₂ h₂
    rw [← h₂]
    exact yields_log X _ _ s₂
  apply yields_bind hfirst
  intro s₃ h₃
  rw [← h₃] at hvalid ⊢
  cases config.onError with
  | HALT => exact Or.inl rfl
  | CONTINUE =>
    apply yields_bind (yields_log X _ _ s₃)
    intro s₄ h₄
    rw [← h₄] at hvalid ⊢
    have hsecond : Yields State.core X (whenAudited config (snapshot config i cfg (lit "skipped")
        current (skippedMembers report.skippedStatus))) s₄ (.ok () s₄.core) := by
      apply yields_whenAudited
      intro haudit
      -- the skipped snapshot holds no string the failure snapshot did not hold
      have hskipped := skippedMembers_utf8 hsound.skipped
      apply yields_snapshot (skippedMembers_keys _)
      exact (hvalid haudit).imp_left fun ⟨hname, hinst, _, hpacket, hbus, _⟩ =>
        ⟨hname, hinst, by decide, hpacket, hbus, hskipped⟩
    apply yields_bind hsecond
    intro s₅ h₅
    rw [← h₅]
    exact Or.inl rfl

theorem yields_afterSuccess {X : Core W → Prop} {config : WorkflowDefinition} {cfg : CommandConfig}
    {packet : DataPacket} {s : State W}
    (hvalid : config.audit = true → SnapshotUtf8 config.name cfg.instanceName (lit "success") packet
      s.core.bus successMembers ∨ X s.core) (i : ℕ) :
    Yields State.core X (afterSuccess config i cfg (.ok packet)) s (.ok (.next packet) s.core) := by
  have hfirst : Yields State.core X (whenAudited config do
      let packet ← ofExcept (Result.ok packet).value
      snapshot config i cfg (lit "success") packet successMembers) s (.ok () s.core) := by
    apply yields_whenAudited
    intro haudit
    exact yields_snapshot successMembers_keys (hvalid haudit) i
  apply yields_bind hfirst
  intro s₁ h₁
  rw [← h₁]
  exact Or.inl rfl

theorem yields_afterCommand {X : Core W → Prop} {config : WorkflowDefinition} {cfg : CommandConfig}
    {current : DataPacket} {outcome : Except Exn (Result DataPacket)} {s : State W}
    (h : config.audit = true → (Utf8.Valid config.name ∧ Utf8.Valid cfg.instanceName ∧
      current.toJson.IsUtf8 ∧ s.core.bus.toJson.IsUtf8 ∧ OutcomeUtf8 cfg.instanceName outcome) ∨
      X s.core) (i : ℕ) :
    Yields State.core X (afterCommand config i cfg current outcome) s
      (Progress.stepEnding
        ⟨s.core, conclude config.onError cfg.instanceName current (.ran outcome)⟩) := by
  cases outcome with
  | error e =>
    have hsound := sound_exceptionReport cfg e
    have hfail := yields_afterFailure current hsound
      (fun haudit => (h haudit).imp_left fun ⟨hname, hinst, hpacket, hbus, hout⟩ =>
        ⟨hname, hinst, valid_of_mem_statuses hsound.status, hpacket, hbus,
          (exceptionMembers_utf8 _).mpr hout⟩) i
    cases honError : config.onError <;> rw [honError] at hfail <;> exact hfail
  | ok result =>
    cases result with
    | ok packet =>
      exact yields_afterSuccess (fun haudit => (h haudit).imp_left fun ⟨hname, hinst, _, hbus, hout⟩ =>
        ⟨hname, hinst, by decide, hout, hbus, successMembers_utf8⟩) i
    | error message code =>
      have hsound := sound_errorReport i cfg (.error message code)
      have hfail := yields_afterFailure current hsound
        (fun haudit => (h haudit).imp_left fun ⟨hname, hinst, hpacket, hbus, hout⟩ =>
          ⟨hname, hinst, valid_of_mem_statuses hsound.status, hpacket, hbus,
            (errorMembers_utf8 _ _).mpr hout⟩) i
      cases honError : config.onError <;> rw [honError] at hfail <;> exact hfail

/- The snapshots of a step hold the strings of its invocation. -/
theorem yields_runCommand {X : Core W → Prop} {config : WorkflowDefinition} {cfg : CommandConfig}
    {current : DataPacket} {cmd : Command W} {s : State W} {i : ℕ} {core' : Core W}
    (hcore : core' = s.core.afterCall i cfg current (cmd current s.core.bus s.core.world))
    (h : config.audit = true → (∀ call ∈ core'.calls, call.SnapshotsUtf8 config.name) ∨
      ∀ c : Core W, c.calls <+: core'.calls → X c) :
    Yields State.core X (runCommand config i cfg current cmd) s
      (Progress.stepEnding ⟨core', conclude config.onError cfg.instanceName current
        (.ran (cmd current s.core.bus s.core.world).outcome)⟩) := by
  have hnew : core'.calls = s.core.calls ++ [⟨i, cfg.type, cfg.instanceName, cfg.params, current,
      s.core.bus, core'.bus, (cmd current s.core.bus s.core.world).outcome⟩] := by
    rw [hcore]
    rfl
  have hcall : config.audit = true → Invocation.SnapshotsUtf8 config.name ⟨i, cfg.type,
      cfg.instanceName, cfg.params, current, s.core.bus, core'.bus,
      (cmd current s.core.bus s.core.world).outcome⟩ ∨ ∀ c : Core W, c.calls <+: core'.calls → X c := by
    intro haudit
    refine (h haudit).imp_left fun hall => hall _ ?_
    rw [hnew]
    exact List.mem_append_right _ List.mem_cons_self
  unfold runCommand superviseCommand
  have hwarn : Yields State.core X (warnMissingDependencies cfg cfg.dependsOn) s (.ok () s.core) := by
    left
    rw [run_warnMissingDependencies]
    rfl
  apply yields_bind hwarn
  intro s₁ h₁
  apply yields_bind (yields_log X _ _ s₁)
  intro s₂ h₂
  rw [h₁] at h₂
  have hpre : Yields State.core X (whenAudited config (snapshot config i cfg (lit "pre") current
      preMembers)) s₂ (.ok () s₂.core) := by
    apply yields_whenAudited
    intro haudit
    apply yields_snapshot preMembers_keys
    refine (hcall haudit).imp ?_ ?_
    · intro ⟨hname, hinst, hpacket, hbus, _, _⟩
      exact ⟨hname, hinst, by decide, hpacket, h₂ ▸ hbus, preMembers_utf8⟩
    · intro hX
      apply hX
      rw [h₂, hnew]
      exact List.prefix_append _ _
  apply yields_bind hpre
  intro s₃ h₃
  rw [h₂] at h₃
  have hrun : Yields State.core X (callCommand cmd i cfg current) s₃
      (.ok (cmd current s.core.bus s.core.world).outcome core') := by
    left
    rw [hcore, ← h₃]
    rfl
  apply yields_bind hrun
  intro s₄ h₄
  rw [← h₄]
  apply yields_afterCommand
  intro haudit
  refine (hcall haudit).imp ?_ ?_
  · intro ⟨hname, hinst, hpacket, _, hafter, hout⟩
    exact ⟨hname, hinst, hpacket, h₄ ▸ hafter, hout⟩
  · intro hX
    exact hX _ (h₄ ▸ List.prefix_refl _)

theorem yields_useFactoryOutcome {X : Core W → Prop} {config : WorkflowDefinition} {i : ℕ}
    {cfg : CommandConfig} {current : DataPacket} {s : State W} {made : FactoryOutcome (Command W)}
    {tried : Attempt × Core W} (htried : tried = attemptWith i cfg current s.core made)
    (h : config.audit = true → (∀ call ∈ tried.2.calls, call.SnapshotsUtf8 config.name) ∨
      ∀ c : Core W, c.calls <+: tried.2.calls → X c) :
    Yields State.core X (useFactoryOutcome config i cfg current made) s
      (Progress.stepEnding ⟨tried.2, conclude config.onError cfg.instanceName current tried.1⟩) := by
  subst htried
  cases made with
  | command cmd =>
    exact yields_runCommand rfl h
  | null =>
    exact Or.inl rfl
  | throws e =>
    cases e with
    | std what =>
      exact Or.inl rfl
    | other =>
      exact Or.inl rfl

theorem yields_executeStep {X : Core W → Prop} {registry : Registry W} (config : WorkflowDefinition)
    {i : ℕ} {cfg : CommandConfig} {current : DataPacket} {s : State W} {tried : Attempt × Core W}
    (htried : tried = attempt registry i cfg current s.core)
    (h : config.audit = true → (∀ call ∈ tried.2.calls, call.SnapshotsUtf8 config.name) ∨
      ∀ c : Core W, c.calls <+: tried.2.calls → X c) :
    Yields State.core X (executeStep registry config i cfg current) s
      (Progress.stepEnding ⟨tried.2, conclude config.onError cfg.instanceName current tried.1⟩) := by
  unfold executeStep
  unfold attempt at htried
  cases hfind : registry.find? cfg.type with
  | none =>
    rw [hfind] at htried
    rw [htried]
    exact Or.inl rfl
  | some factory =>
    rw [hfind] at htried
    have hmake : Yields State.core X (callFactory factory cfg) s
        (.ok (factory cfg.instanceName cfg.params s.core.world).2 { s.core with
          world := (factory cfg.instanceName cfg.params s.core.world).1 }) := Or.inl rfl
    apply yields_bind hmake
    intro s₁ h₁
    refine yields_useFactoryOutcome ?_ h
    rw [htried, h₁]

/- A step that ends ends as in the reference. -/
theorem executeStep_ended {registry : Registry W} {i : ℕ} {cfg : CommandConfig}
    {current : DataPacket} {s s' : State W} {tried : Attempt × Core W}
    {turn : Turn DataPacket (Result DataPacket)}
    (htried : tried = attempt registry i cfg current s.core)
    (hrun : (executeStep registry config i cfg current).run s = .ok turn s') :
    Progress.stepEnding ⟨tried.2, conclude config.onError cfg.instanceName current tried.1⟩
      = .ok turn s'.core := by
  have hstep := yields_executeStep (X := fun _ => True) config htried fun _ => Or.inr fun _ _ => trivial
  unfold Yields at hstep
  rw [hrun] at hstep
  cases hstep with
  | inl hseen => exact hseen.symm
  | inr herror =>
    obtain ⟨_, _, herror, _⟩ := herror
    cases herror

/-! ### The whole run -/

theorem yields_forEach {X : Core W → Prop} {registry : Registry W} {config : WorkflowDefinition}
    {i : ℕ} {pipeline : List CommandConfig} {current : DataPacket} {s : State W} {p : Progress W}
    (hp : p = refFrom registry config.onError i pipeline ⟨s.core, .next current⟩)
    (h : config.audit = true → (∀ call ∈ p.core.calls, call.SnapshotsUtf8 config.name) ∨
      ∀ c : Core W, c.calls <+: p.core.calls → X c) :
    Yields State.core X (forEach (executeStep registry config) completePipeline i pipeline current) s
      p.ending := by
  induction pipeline generalizing i current s with
  | nil =>
    rw [hp]
    exact Or.inl rfl
  | cons cfg pipeline ih =>
    unfold forEach
    rw [refFrom_cons, refStep_next] at hp
    rcases hstep : attempt registry i cfg current s.core with ⟨tried, core'⟩
    rw [hstep] at hp
    have hcalls : core'.calls <+: p.core.calls := by
      rw [hp]
      exact refFrom_calls_grow registry config.onError (i + 1) pipeline ⟨core', _⟩
    have hfirst := yields_executeStep (X := X) config hstep.symm fun haudit =>
      (h haudit).imp (fun hall call hcall => hall call (hcalls.subset hcall))
        (fun hX c hc => hX c (hc.trans hcalls))
    cases hturn : conclude config.onError cfg.instanceName current tried with
    | next next =>
      simp only [hturn] at hfirst hp
      apply yields_bind hfirst
      intro s' hs'
      exact ih (hs' ▸ hp)
    | leave ended =>
      cases ended with
      | error e =>
        simp only [hturn, refFrom_leave] at hfirst hp
        rw [hp]
        exact yields_bind_error hfirst
      | ok result =>
        simp only [hturn, refFrom_leave] at hfirst hp
        rw [hp]
        apply yields_bind hfirst
        intro s' hs'
        subst hs'
        exact Or.inl rfl

theorem yields_execute {X : Core W → Prop} {registry : Registry W} {config : WorkflowDefinition}
    {initial : DataPacket} {s : State W} {p : Progress W}
    (hp : p = referenceFold registry config.onError config.pipeline initial s.core.world)
    (h : config.audit = true → (∀ call ∈ p.core.calls, call.SnapshotsUtf8 config.name) ∨
      ∀ c : Core W, c.calls <+: p.core.calls → X c) :
    Yields State.core X (execute registry config initial) s p.ending := by
  unfold Yields
  rw [run_execute]
  exact yields_forEach hp h

/- With audit off, or with valid strings in every snapshot, the engine computes the fold. -/
theorem seen_core_execute {registry : Registry W} {config : WorkflowDefinition}
    {initial : DataPacket} {s : State W} {p : Progress W}
    (hp : p = referenceFold registry config.onError config.pipeline initial s.core.world)
    (h : SnapshotsSerialise config p.core.calls) :
    seen State.core ((execute registry config initial).run s) = p.ending :=
  seen_of_yields (yields_execute hp fun haudit => Or.inl (h haudit))

/- Whatever the strings, the engine does no more than break off early. -/
theorem execute_follows_or_throws {registry : Registry W} {config : WorkflowDefinition}
    {initial : DataPacket} {s : State W} {p : Progress W}
    (hp : p = referenceFold registry config.onError config.pipeline initial s.core.world) :
    seen State.core ((execute registry config initial).run s) = p.ending ∨
      ∃ e s', (execute registry config initial).run s = .error e s' ∧
        s'.core.calls <+: p.core.calls :=
  yields_execute hp fun _ => Or.inr fun _ hc => hc

theorem core_execute {registry : Registry W} {config : WorkflowDefinition} {initial : DataPacket}
    {s : State W} {p : Progress W}
    (hp : p = referenceFold registry config.onError config.pipeline initial s.core.world)
    (h : SnapshotsSerialise config p.core.calls) :
    (stateOf ((execute registry config initial).run s)).core = p.core := by
  have hcore := congrArg stateOf (seen_core_execute hp h)
  rw [stateOf_seen, stateOf_ending] at hcore
  exact hcore

/- A run that returns, returns what the reference does. -/
theorem execute_returns_reference {registry : Registry W} {config : WorkflowDefinition}
    {initial : DataPacket} {s s' : State W} {r : Result DataPacket} {p : Progress W}
    (hp : p = referenceFold registry config.onError config.pipeline initial s.core.world)
    (hrun : (execute registry config initial).run s = .ok r s') :
    p.result = .ok r ∧ s'.core = p.core := by
  rcases execute_follows_or_throws (s := s) hp with hseen | ⟨e, s'', herr, _⟩
  · rw [hrun] at hseen
    unfold Progress.ending at hseen
    rcases hr : p.result with e | result <;> rw [hr] at hseen
    · cases hseen
    · obtain ⟨hresult, hcore⟩ := EStateM.Result.ok.inj hseen
      exact ⟨by rw [hresult], hcore⟩
  · rw [hrun] at herr
    cases herr

theorem execute_calls_within {registry : Registry W} {config : WorkflowDefinition}
    {initial : DataPacket} {s : State W} {p : Progress W}
    (hp : p = referenceFold registry config.onError config.pipeline initial s.core.world) :
    (stateOf ((execute registry config initial).run s)).core.calls <+: p.core.calls := by
  rcases execute_follows_or_throws (s := s) hp with hseen | ⟨e, s', herr, hprefix⟩
  · have hcore := congrArg stateOf hseen
    rw [stateOf_seen, stateOf_ending] at hcore
    rw [hcore]
  · rw [herr]
    exact hprefix

end

end Workflow
