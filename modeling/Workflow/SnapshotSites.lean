import Workflow.AuditTrail
import Workflow.PipelineSemantics

/-!
# The snapshots the engine takes

An audited run saves the snapshots of the reference's invocations, in their
order. What saving one of them preserves, the whole run therefore preserves
(`triple_execute`), with valid strings also when it breaks off (`ended_execute`).
-/

namespace Workflow
open Observe

variable {W : Type}

/- The core is `c`, and what observes the run is in `P`. -/
def At (c : Core W) (P : Obs → Prop) (s : State W) : Prop := s.core = c ∧ P s.obs

theorem whenAudited_of_audit {config : WorkflowDefinition} (h : config.audit = true)
    (m : EngineM W Unit) : whenAudited config m = m := if_pos h

/- The invocation that `afterCall` records. -/
def Core.newCall (core : Core W) (i : ℕ) (cfg : CommandConfig) (current : DataPacket)
    (run : CommandRun W) : Invocation :=
  ⟨i, cfg.type, cfg.instanceName, cfg.params, current, core.bus, run.bus, run.outcome⟩

theorem trail_afterCall (onError : OnError) (core : Core W) (i : ℕ) (cfg : CommandConfig)
    (current : DataPacket) (run : CommandRun W) :
    trail onError (core.afterCall i cfg current run).calls
      = trail onError core.calls ++ (core.newCall i cfg current run).snapshots onError := by
  show trail onError (core.calls ++ [core.newCall i cfg current run]) = _
  unfold trail
  rw [List.flatMap_append, List.flatMap_singleton]

theorem head_isPrefix {α : Type} {l rest expected : List α} {x : α} (h : l ++ x :: rest <+: expected) :
    l ++ [x] <+: expected := by
  rw [List.append_cons] at h
  exact (List.prefix_append _ _).trans h

theorem trail_isPrefix (onError : OnError) {calls calls' : List Invocation} (h : calls <+: calls') :
    trail onError calls <+: trail onError calls' := by
  obtain ⟨rest, rfl⟩ := h
  unfold trail
  rw [List.flatMap_append]
  exact List.prefix_append _ _

section
variable [FloatText]

/- `J written` is kept while the run saves the snapshots of `expected`; `E` holds
wherever it breaks off, be it in a snapshot or, if it `escapes`, in a factory. -/
structure TrailInvariant (workflowName : Str) (expected : List Snapshot) (escapes : Prop)
    (J : List Snapshot → Obs → Prop) (E : Obs → Prop) : Prop where
  log : ∀ written o log, J written o → J written { o with log := log }
  save : ∀ written (x : Snapshot), written ++ [x] <+: expected → x.status ∈ statuses →
    (x.members.map Prod.fst).Sublist siteKeys →
    Triple (J written)
      (saveSnapshot workflowName x.step x.command x.status x.packet x.bus x.members)
      (fun _ => J (written ++ [x])) E
  escape : escapes → ∀ o, J expected o → E o

variable {config : WorkflowDefinition} {expected : List Snapshot} {escapes : Prop}
  {J : List Snapshot → Obs → Prop} {E : Obs → Prop}
  (hJ : TrailInvariant config.name expected escapes J E)

include hJ

theorem triple_log (c : Core W) (written : List Snapshot) (level : LogLevel) (message : Str) :
    Triple (At c (J written)) (log level message) (fun _ => At c (J written)) (fun s => E s.obs) :=
  fun _ hs => ⟨hs.1, hJ.log written _ _ hs.2⟩

theorem triple_warnMissingDependencies (c : Core W) (written : List Snapshot) (cfg : CommandConfig)
    (deps : List Str) :
    Triple (At c (J written)) (warnMissingDependencies cfg deps) (fun _ => At c (J written))
      (fun s => E s.obs) := by
  intro s hs
  rw [run_warnMissingDependencies]
  exact ⟨hs.1, hJ.log written _ _ hs.2⟩

theorem triple_snapshot (c : Core W) (written : List Snapshot) (i : ℕ) (cfg : CommandConfig)
    {status : Str} (hstatus : status ∈ statuses) (packet : DataPacket) {extra : List (Str × Json)}
    (hextra : (extra.map Prod.fst).Sublist siteKeys)
    (hnext : written ++ [⟨i, cfg.instanceName, status, packet, c.bus, extra⟩] <+: expected) :
    Triple (At c (J written)) (snapshot config i cfg status packet extra)
      (fun _ => At c (J (written ++ [⟨i, cfg.instanceName, status, packet, c.bus, extra⟩])))
      (fun s => E s.obs) := by
  intro s hs
  obtain ⟨rfl, hwritten⟩ := hs
  have hsave := hJ.save written ⟨i, cfg.instanceName, status, packet, s.core.bus, extra⟩ hnext hstatus
    hextra s.obs hwritten
  simp only at hsave
  rw [run_snapshot]
  cases hrun : (saveSnapshot config.name i cfg.instanceName status packet s.core.bus extra).run s.obs with
  | ok u o' =>
    rw [hrun] at hsave
    rw [run_observing_of_ok hrun]
    exact ⟨rfl, hsave⟩
  | error e o' =>
    rw [hrun] at hsave
    rw [run_observing_of_error hrun]
    exact hsave

theorem triple_afterFailure (haudit : config.audit = true) (written : List Snapshot)
    {cfg : CommandConfig} {call : Invocation} (hname : call.instanceName = cfg.instanceName)
    {c : Core W} (hbus : c.bus = call.busAfter) {report : FailureReport} (hsound : report.Sound)
    {status reason : String} (hstatus : report.status = lit status)
    (hreason : report.skippedStatus = lit reason)
    (hnext : written ++ call.entry status call.packet call.busAfter report.members ::
      call.skipped config.onError reason <+: expected) :
    Triple (At c (J written)) (afterFailure config call.step cfg call.packet report)
      (fun _ => At c (J (written ++ call.entry status call.packet call.busAfter report.members ::
        call.skipped config.onError reason))) (fun s => E s.obs) := by
  unfold Invocation.entry Invocation.skipped Invocation.entry at hnext
  unfold afterFailure Invocation.entry Invocation.skipped Invocation.entry
  rw [← hstatus, ← hreason, hname, ← hbus] at hnext
  rw [whenAudited_of_audit haudit, whenAudited_of_audit haudit, ← hstatus, ← hreason, hname, ← hbus]
  refine triple_bind (triple_log hJ c written _ _) ?_
  intro _
  have hfirst : Triple (At c (J written)) (do
      snapshot config call.step cfg report.status call.packet report.members
      log .Info report.savedLine) (fun _ => At c (J (written ++
        [⟨call.step, cfg.instanceName, report.status, call.packet, c.bus, report.members⟩])))
      (fun s => E s.obs) := by
    refine triple_bind (triple_snapshot hJ c written _ cfg hsound.status call.packet hsound.keys
      (head_isPrefix hnext)) ?_
    intro _
    exact triple_log hJ c _ _ _
  refine triple_bind hfirst ?_
  intro _
  cases honError : config.onError with
  | HALT => exact triple_pure fun _ hs => hs
  | CONTINUE =>
    rw [honError, List.append_cons] at hnext
    refine triple_bind (triple_log hJ c _ _ _) ?_
    intro _
    refine triple_bind (triple_snapshot hJ c _ _ cfg (by decide) call.packet (skippedMembers_keys _)
      hnext) ?_
    intro _
    rw [List.append_assoc]
    exact triple_pure fun _ hs => hs

theorem triple_afterSuccess (haudit : config.audit = true) (c : Core W) (written : List Snapshot)
    (i : ℕ) (cfg : CommandConfig) (packet : DataPacket)
    (hnext : written ++ [⟨i, cfg.instanceName, lit "success", packet, c.bus, successMembers⟩]
      <+: expected) :
    Triple (At c (J written)) (afterSuccess config i cfg (.ok packet))
      (fun _ => At c (J (written ++
        [⟨i, cfg.instanceName, lit "success", packet, c.bus, successMembers⟩]))) (fun s => E s.obs) := by
  unfold afterSuccess
  rw [whenAudited_of_audit haudit]
  have hfirst : Triple (At c (J written)) (do
      let packet ← ofExcept (Result.ok packet).value
      snapshot config i cfg (lit "success") packet successMembers) (fun _ => At c (J (written ++
        [⟨i, cfg.instanceName, lit "success", packet, c.bus, successMembers⟩]))) (fun s => E s.obs) :=
    triple_snapshot hJ c written i cfg (by decide) packet successMembers_keys hnext
  refine triple_bind hfirst ?_
  intro _
  have hvalue : Triple (At c (J (written ++
      [⟨i, cfg.instanceName, lit "success", packet, c.bus, successMembers⟩])))
      (ofExcept (Result.ok packet).value : EngineM W DataPacket) (fun _ => At c (J (written ++
        [⟨i, cfg.instanceName, lit "success", packet, c.bus, successMembers⟩]))) (fun s => E s.obs) :=
    triple_pure fun _ hs => hs
  refine triple_bind hvalue ?_
  intro current
  refine triple_bind (triple_log hJ c _ _ _) ?_
  intro _
  exact triple_pure fun _ hs => hs

theorem triple_afterCommand (haudit : config.audit = true) (written : List Snapshot)
    {cfg : CommandConfig} {call : Invocation} (hname : call.instanceName = cfg.instanceName)
    {c : Core W} (hbus : c.bus = call.busAfter)
    (hnext : written ++ call.laterSnapshots config.onError <+: expected) :
    Triple (At c (J written)) (afterCommand config call.step cfg call.packet call.outcome)
      (fun _ => At c (J (written ++ call.laterSnapshots config.onError))) (fun s => E s.obs) := by
  unfold Invocation.laterSnapshots at hnext ⊢
  cases hout : call.outcome with
  | error e =>
    rw [hout] at hnext
    simp only at hnext ⊢
    rw [hname] at hnext ⊢
    exact triple_afterFailure hJ haudit written hname hbus (sound_exceptionReport cfg e) rfl rfl hnext
  | ok result =>
    rw [hout] at hnext
    cases result with
    | ok packet =>
      simp only [Invocation.entry] at hnext ⊢
      rw [hname, ← hbus] at hnext ⊢
      exact triple_afterSuccess hJ haudit c written call.step cfg packet hnext
    | error message code =>
      exact triple_afterFailure hJ haudit written hname hbus
        (sound_errorReport call.step cfg (.error message code)) rfl rfl hnext

theorem triple_callCommand (c : Core W) (written : List Snapshot) (i : ℕ) (cfg : CommandConfig)
    (current : DataPacket) (cmd : Command W) :
    Triple (At c (J written)) (callCommand cmd i cfg current)
      (fun outcome s => outcome = (cmd current c.bus c.world).outcome ∧
        At (c.afterCall i cfg current (cmd current c.bus c.world)) (J written) s)
      (fun s => E s.obs) := by
  intro s hs
  obtain ⟨rfl, hwritten⟩ := hs
  exact ⟨rfl, rfl, hJ.log written _ _ hwritten⟩

/- The new invocation's snapshots are saved around it. -/
theorem triple_superviseCommand (haudit : config.audit = true) (c : Core W)
    (written : List Snapshot) (i : ℕ) (cfg : CommandConfig) (current : DataPacket)
    (cmd : Command W) {call : Invocation}
    (hcall : call = c.newCall i cfg current (cmd current c.bus c.world))
    (hnext : written ++ call.snapshots config.onError <+: expected) :
    Triple (At c (J written)) (superviseCommand config i cfg current cmd)
      (fun _ => At (c.afterCall i cfg current (cmd current c.bus c.world))
        (J (written ++ call.snapshots config.onError))) (fun s => E s.obs) := by
  have hname : call.instanceName = cfg.instanceName := by
    rw [hcall]
    rfl
  have hbus : (c.afterCall i cfg current (cmd current c.bus c.world)).bus = call.busAfter := by
    rw [hcall]
    rfl
  have hpre : call.entry "pre" call.packet call.bus preMembers
      = ⟨i, cfg.instanceName, lit "pre", current, c.bus, preMembers⟩ := by
    rw [hcall]
    rfl
  unfold Invocation.snapshots at hnext ⊢
  rw [hpre] at hnext ⊢
  unfold superviseCommand
  rw [whenAudited_of_audit haudit]
  refine triple_bind (triple_snapshot hJ c written i cfg (by decide) current preMembers_keys
    (head_isPrefix hnext)) ?_
  intro _
  refine triple_bind (triple_callCommand hJ c _ i cfg current cmd) ?_
  rintro _ s ⟨rfl, hs⟩
  rw [List.append_cons] at hnext ⊢
  have hafter := triple_afterCommand hJ haudit
    (written ++ [⟨i, cfg.instanceName, lit "pre", current, c.bus, preMembers⟩]) hname hbus hnext
  rw [hcall] at hafter ⊢
  exact hafter s hs

theorem triple_runCommand (haudit : config.audit = true) (i : ℕ) (cfg : CommandConfig)
    (current : DataPacket) (cmd : Command W) {c c' : Core W}
    (hc' : c' = c.afterCall i cfg current (cmd current c.bus c.world))
    (hnext : trail config.onError c'.calls <+: expected) :
    Triple (At c (J (trail config.onError c.calls))) (runCommand config i cfg current cmd)
      (fun _ s => J (trail config.onError c'.calls) s.obs) (fun s => E s.obs) := by
  rw [hc', trail_afterCall] at hnext ⊢
  unfold runCommand
  refine triple_bind (triple_warnMissingDependencies hJ c _ cfg cfg.dependsOn) ?_
  intro _
  refine triple_bind (triple_log hJ c _ _ _) ?_
  intro _
  exact triple_weaken (triple_superviseCommand hJ haudit c _ i cfg current cmd rfl hnext)
    (fun _ hs => hs) fun _ _ hs => hs.2

theorem triple_useFactoryOutcome (haudit : config.audit = true) {i : ℕ} {cfg : CommandConfig}
    {current : DataPacket} {c : Core W} {made : FactoryOutcome (Command W)}
    {tried : Attempt × Core W} (htried : tried = attemptWith i cfg current c made)
    (hnext : trail config.onError tried.2.calls <+: expected)
    (hescape : tried.1 = .escape → escapes ∧ trail config.onError tried.2.calls = expected) :
    Triple (At c (J (trail config.onError c.calls))) (useFactoryOutcome config i cfg current made)
      (fun _ s => J (trail config.onError tried.2.calls) s.obs) (fun s => E s.obs) := by
  subst htried
  cases made with
  | command cmd =>
    exact triple_runCommand hJ haudit i cfg current cmd rfl hnext
  | null =>
    exact fun _ hs => hJ.log _ _ _ hs.2
  | throws e =>
    cases e with
    | std what =>
      exact fun _ hs => hJ.log _ _ _ hs.2
    | other =>
      obtain ⟨hescapes, hexpected⟩ := hescape rfl
      exact triple_throw _ fun s hs => hJ.escape hescapes s.obs (hexpected ▸ hs.2)

theorem triple_executeStep (haudit : config.audit = true) {registry : Registry W} {i : ℕ}
    {cfg : CommandConfig} {current : DataPacket} {c : Core W} {tried : Attempt × Core W}
    (htried : tried = attempt registry i cfg current c)
    (hnext : trail config.onError tried.2.calls <+: expected)
    (hescape : tried.1 = .escape → escapes ∧ trail config.onError tried.2.calls = expected) :
    Triple (At c (J (trail config.onError c.calls))) (executeStep registry config i cfg current)
      (fun _ s => J (trail config.onError tried.2.calls) s.obs) (fun s => E s.obs) := by
  unfold executeStep
  unfold attempt at htried
  cases hfind : registry.find? cfg.type with
  | none =>
    rw [hfind] at htried
    rw [htried]
    exact fun _ hs => hJ.log _ _ _ hs.2
  | some factory =>
    rw [hfind] at htried
    have hmake : Triple (At c (J (trail config.onError c.calls))) (callFactory factory cfg)
        (fun made s => made = (factory cfg.instanceName cfg.params c.world).2 ∧
          At { c with world := (factory cfg.instanceName cfg.params c.world).1 }
            (J (trail config.onError c.calls)) s) (fun s => E s.obs) := by
      rintro s ⟨rfl, hwritten⟩
      exact ⟨rfl, rfl, hwritten⟩
    refine triple_bind hmake ?_
    rintro _ s ⟨rfl, hs⟩
    exact triple_useFactoryOutcome hJ haudit htried hnext hescape s hs

theorem triple_forEach_executeStep (haudit : config.audit = true) {registry : Registry W} {i : ℕ}
    {pipeline : List CommandConfig} {current : DataPacket} {c : Core W} {p : Progress W}
    (hp : p = refFrom registry config.onError i pipeline ⟨c, .next current⟩)
    (hexpected : trail config.onError p.core.calls = expected) (hescape : p.Escaped → escapes) :
    Triple (At c (J (trail config.onError c.calls)))
      (forEach (executeStep registry config) completePipeline i pipeline current)
      (fun _ s => J expected s.obs) (fun s => E s.obs) := by
  induction pipeline generalizing i current c with
  | nil =>
    have hcore : p.core = c := by rw [hp, refFrom_nil]
    rw [← hexpected, hcore]
    exact fun _ hs => hJ.log _ _ _ hs.2
  | cons cfg pipeline ih =>
    intro s hs
    unfold forEach
    rw [refFrom_cons, refStep_next] at hp
    obtain ⟨tried, htried⟩ : ∃ tried, tried = attempt registry i cfg current c := ⟨_, rfl⟩
    rw [← htried] at hp
    have hnext : trail config.onError tried.2.calls <+: expected := by
      rw [← hexpected, hp]
      exact trail_isPrefix _
        (refFrom_calls_grow registry config.onError (i + 1) pipeline ⟨tried.2, _⟩)
    have hends : ∀ ended, conclude config.onError cfg.instanceName current tried.1 = .leave ended →
        p = ⟨tried.2, .leave ended⟩ := by
      intro ended hturn
      rw [hp, hturn, refFrom_leave]
    have hstop : tried.1 = .escape → escapes ∧ trail config.onError tried.2.calls = expected := by
      intro htry
      have hleave := hends (.error .other) (by rw [htry]; rfl)
      refine ⟨hescape ⟨.other, by rw [hleave]⟩, ?_⟩
      rw [← hexpected, hleave]
    have hstep := triple_executeStep hJ haudit htried hnext hstop s hs
    cases hrun : (executeStep registry config i cfg current).run s with
    | ok turn s' =>
      rw [hrun] at hstep
      rw [run_bind_of_ok hrun]
      have hended := executeStep_ended (hs.1 ▸ htried) hrun
      unfold Progress.stepEnding at hended
      cases hturn : conclude config.onError cfg.instanceName current tried.1 with
      | next next =>
        simp only [hturn] at hp hended
        obtain ⟨hnexts, hcore⟩ := EStateM.Result.ok.inj hended
        rw [← hnexts]
        exact ih hp s' ⟨hcore.symm, hstep⟩
      | leave ended =>
        simp only [hturn] at hended
        have hall : trail config.onError tried.2.calls = expected := by
          rw [← hexpected, hends ended hturn]
        cases ended with
        | error e => cases hended
        | ok result =>
          obtain ⟨hleaves, _⟩ := EStateM.Result.ok.inj hended
          rw [← hleaves]
          exact hall ▸ hstep
    | error e s' =>
      rw [hrun] at hstep
      rw [run_bind_of_error hrun]
      exact hstep

end

section
variable [FloatText] {config : WorkflowDefinition} {J : List Snapshot → Obs → Prop} {E : Obs → Prop}

theorem triple_execute (haudit : config.audit = true) {registry : Registry W} {initial : DataPacket}
    {s : State W} {p : Progress W}
    (hp : p = referenceFold registry config.onError config.pipeline initial s.core.world)
    (hJ : TrailInvariant config.name (trail config.onError p.core.calls) p.Escaped J E) :
    Triple (fun t => t.core.world = s.core.world ∧ J [] t.obs) (execute registry config initial)
      (fun _ t => J (trail config.onError p.core.calls) t.obs) (fun t => E t.obs) := by
  intro t ht
  rw [run_execute]
  have hstarted : At ⟨s.core.world, .empty, []⟩ (J []) (t.started config) :=
    ⟨by rw [← ht.1]; rfl, hJ.log [] t.obs _ ht.2⟩
  exact triple_forEach_executeStep hJ haudit hp rfl id (t.started config) hstarted

/- With valid strings a run breaks off in a factory alone, and nothing is saved then. -/
theorem ended_execute (haudit : config.audit = true) {registry : Registry W} {initial : DataPacket}
    {s : State W} {p : Progress W}
    (hp : p = referenceFold registry config.onError config.pipeline initial s.core.world)
    (hvalid : SnapshotsSerialise config p.core.calls)
    (hJ : TrailInvariant config.name (trail config.onError p.core.calls) p.Escaped J (fun _ => True))
    (hs : J [] s.obs) :
    J (trail config.onError p.core.calls)
      (stateOf ((execute registry config initial).run s)).obs := by
  have hJ' : TrailInvariant config.name (trail config.onError p.core.calls) p.Escaped J
      (J (trail config.onError p.core.calls)) := by
    refine ⟨hJ.log, ?_, fun _ _ h => h⟩
    intro written x hnext hstatus hkeys o ho
    have hx : x ∈ trail config.onError p.core.calls :=
      hnext.subset (List.mem_append_right _ List.mem_cons_self)
    obtain ⟨call, hcall, hmem⟩ := List.mem_flatMap.mp hx
    have hutf8 := snapshots_of_snapshotsUtf8 (hvalid haudit call hcall) x hmem
    obtain ⟨o', hreturns⟩ := saveSnapshot_returns hkeys hutf8 x.step o
    have hsave := hJ.save written x hnext hstatus hkeys o ho
    rw [hreturns] at hsave ⊢
    exact hsave
  have hend := triple_execute haudit hp hJ' s ⟨rfl, hs⟩
  cases hrun : (execute registry config initial).run s with
  | ok r s' =>
    rw [hrun] at hend
    exact hend
  | error e s' =>
    rw [hrun] at hend
    exact hend

end

end Workflow
