import Workflow.Isolation
import Workflow.PipelineSemantics

/-!
# Observability does not interfere

Name, description, audit flag and dependency lists play no part in what a run
invokes and returns. A dependency list adds its warnings in front of its step's
lines, and changes nothing else.
-/

namespace Workflow
open Observe

variable {W : Type}

/- The same command with the same inputs; dependencies aside. -/
def SamePlugin (a b : CommandConfig) : Prop :=
  a.type = b.type ∧ a.instanceName = b.instanceName ∧ a.params = b.params

/- The same policy and the same commands; everything that observes aside. -/
structure SamePlan (config config' : WorkflowDefinition) : Prop where
  onError : config.onError = config'.onError
  steps : List.Forall₂ SamePlugin config.pipeline config'.pipeline

theorem attempt_congr (registry : Registry W) (i : ℕ) {a b : CommandConfig} (h : SamePlugin a b)
    (current : DataPacket) (core : Core W) :
    attempt registry i a current core = attempt registry i b current core := by
  obtain ⟨type, instanceName, params, deps⟩ := a
  obtain ⟨type', instanceName', params', deps'⟩ := b
  obtain ⟨rfl, rfl, rfl⟩ := h
  unfold attempt
  cases registry.find? type with
  | none =>
    rfl
  | some factory =>
    show attemptWith i _ current _ _ = attemptWith i _ current _ _
    rcases (factory instanceName params core.world).2 with cmd | - | (what | -) <;> rfl

theorem refFrom_congr (registry : Registry W) (onError : OnError) (i : ℕ)
    {pipeline pipeline' : List CommandConfig} (h : List.Forall₂ SamePlugin pipeline pipeline')
    (p : Progress W) :
    refFrom registry onError i pipeline p = refFrom registry onError i pipeline' p := by
  induction h generalizing i p with
  | nil => rfl
  | cons hab _ ih =>
    rw [refFrom_cons, refFrom_cons, ih]
    congr 1
    unfold refStep
    cases p.turn with
    | leave result => rfl
    | next current => simp only [attempt_congr registry i hab, hab.2.1]

/-! ### Logs that differ in their beginning -/

def Obs.after (o : Obs) (L : List LogEntry) : Obs := { o with log := L ++ o.log }

/- The same lines after `L` and after `L'`, and everything else equal. -/
def Tailed (L L' : List LogEntry) (o o' : Obs) : Prop :=
  ∃ rest : Obs, o = rest.after L ∧ o' = rest.after L'

def State.relogged (s : State W) (L : List LogEntry) : State W :=
  { s with obs := { s.obs with log := L } }

section
variable [FloatText]

/- The writer neither reads nor rewrites the log. -/
theorem writeAuditSnapshot_after (workflowName : Str) (stepIndex : ℕ) (commandName status : Str)
    (snapshot : Json) (o : Obs) (L : List LogEntry) :
    (writeAuditSnapshot workflowName stepIndex commandName status snapshot).run (o.after L)
      = seen (fun o => o.after L)
          ((writeAuditSnapshot workflowName stepIndex commandName status snapshot).run o) := by
  unfold writeAuditSnapshot
  cases hm : (o.io 0).createDirectories with
  | none =>
    cases ho : (o.io 0).opens with
    | false =>
      simp [nextIo, utcTimestamp, logMessage, Obs.logged, Obs.after, hm, ho]
    | true =>
      cases hd : dump (.ofMembers (auditRecord workflowName stepIndex commandName status
          (formatUtc (o.clock 0)) snapshot)) with
      | error e =>
        simp [nextIo, utcTimestamp, setFile, Obs.after, hm, ho, hd]
      | ok text =>
        rcases hr : (o.io 0).rename with - | reason <;>
          simp [nextIo, utcTimestamp, setFile, renameFile, logMessage, Obs.logged, Obs.after, hm, ho,
            hd, hr]
  | some reason =>
    simp [nextIo, logMessage, Obs.logged, Obs.after, hm]

theorem saveSnapshot_after (workflowName : Str) (stepIndex : ℕ) (commandName status : Str)
    (packet : DataPacket) (bus : DataBus) (extra : List (Str × Json)) (o : Obs) (L : List LogEntry) :
    (saveSnapshot workflowName stepIndex commandName status packet bus extra).run (o.after L)
      = seen (fun o => o.after L)
          ((saveSnapshot workflowName stepIndex commandName status packet bus extra).run o) := by
  rw [run_saveSnapshot, run_saveSnapshot, ← writeAuditSnapshot_after]
  rfl

theorem unobtrusive_tailed (L L' : List LogEntry) : Unobtrusive (Tailed L L') where
  log := by
    intro o o' entries h
    obtain ⟨rest, rfl, rfl⟩ := h
    refine ⟨{ rest with log := rest.log ++ entries }, ?_, ?_⟩
    · simp only [Obs.after, List.append_assoc]
    · simp only [Obs.after, List.append_assoc]
  save := by
    intro workflowName i commandName status packet bus extra o o' h
    obtain ⟨rest, rfl, rfl⟩ := h
    rw [saveSnapshot_after, saveSnapshot_after]
    cases (saveSnapshot workflowName i commandName status packet bus extra).run rest with
    | ok a o => exact ⟨rfl, o, rfl, rfl⟩
    | error e o => exact ⟨rfl, o, rfl, rfl⟩

/-! ### Two definitions that differ in their dependency lists -/

structure SameButDependencies (config config' : WorkflowDefinition) : Prop where
  name : config.name = config'.name
  audit : config.audit = config'.audit
  plan : SamePlan config config'

omit [FloatText] in
theorem SameButDependencies.length {config config' : WorkflowDefinition}
    (h : SameButDependencies config config') : config.pipeline.length = config'.pipeline.length :=
  h.plan.steps.length_eq

theorem superviseCommand_congr {config config' : WorkflowDefinition}
    (h : SameButDependencies config config') (i : ℕ) {a b : CommandConfig} (hab : SamePlugin a b)
    (current : DataPacket) (cmd : Command W) :
    superviseCommand config i a current cmd = superviseCommand config' i b current cmd := by
  obtain ⟨name, description, pipeline, audit, onError⟩ := config
  obtain ⟨name', description', pipeline', audit', onError'⟩ := config'
  obtain ⟨type, instanceName, params, deps⟩ := a
  obtain ⟨type', instanceName', params', deps'⟩ := b
  obtain ⟨rfl, rfl, ⟨rfl, _⟩⟩ := h
  obtain ⟨rfl, rfl, rfl⟩ := hab
  rfl

/- `r` and `q` end alike; the log of `r` continues `L` with `l` and that of `q`
continues `L'` with `l'`, all else being equal. -/
def Twins {α : Type} (L L' l l' : List LogEntry) (r q : EStateM.Result Exn (State W) α) : Prop :=
  q = seen (fun s => s.relogged (L' ++ l')) r ∧ (stateOf r).obs.log = L ++ l

omit [FloatText] in
theorem twins_of_alike {α : Type} {L L' : List LogEntry} {r q : EStateM.Result Exn (State W) α}
    (h : Alike (SameCore (Tailed L L')) r q) : ∃ tail, Twins L L' tail tail r q := by
  have hstate : ∀ s t : State W, SameCore (Tailed L L') s t →
      ∃ tail, t = s.relogged (L' ++ tail) ∧ s.obs.log = L ++ tail := by
    intro s t hst
    obtain ⟨core, obs⟩ := s
    obtain ⟨core', obs'⟩ := t
    obtain ⟨hcore, rest, hs, ht⟩ := hst
    simp only at hcore hs ht
    subst hcore hs ht
    exact ⟨rest.log, rfl, rfl⟩
  rcases r with ⟨a, s⟩ | ⟨e, s⟩ <;> rcases q with ⟨b, t⟩ | ⟨d, t⟩
  · obtain ⟨rfl, hst⟩ := h
    obtain ⟨tail, rfl, hlog⟩ := hstate s t hst
    exact ⟨tail, rfl, hlog⟩
  · exact h.elim
  · exact h.elim
  · obtain ⟨rfl, hst⟩ := h
    obtain ⟨tail, rfl, hlog⟩ := hstate s t hst
    exact ⟨tail, rfl, hlog⟩

omit [FloatText] in
theorem twins_assoc {α : Type} {L L' front front' l l' : List LogEntry}
    {r q : EStateM.Result Exn (State W) α} (h : Twins (L ++ front) (L' ++ front') l l' r q) :
    Twins L L' (front ++ l) (front' ++ l') r q := by
  obtain ⟨hq, hlog⟩ := h
  rw [List.append_assoc] at hq hlog
  exact ⟨hq, hlog⟩

/- Either nothing was invoked, or both logs have the leading lines of their own definition. -/
def Fronts (config config' : WorkflowDefinition) (i : ℕ) (a b : CommandConfig) (bus : DataBus)
    (tried : Attempt) (front front' : List LogEntry) : Prop :=
  front = [] ∧ front' = [] ∧ (∀ outcome, tried ≠ .ran outcome) ∨
    front = leadingLog config i a bus ∧ front' = leadingLog config' i b bus ∧
      ∃ outcome, tried = .ran outcome

theorem twins_useFactoryOutcome {config config' : WorkflowDefinition}
    (h : SameButDependencies config config') (i : ℕ) {a b : CommandConfig} (hab : SamePlugin a b)
    (current : DataPacket) (s : State W) (L' : List LogEntry) (made : FactoryOutcome (Command W)) :
    ∃ front front' tail, Twins s.obs.log L' (front ++ tail) (front' ++ tail)
        ((useFactoryOutcome config i a current made).run s)
        ((useFactoryOutcome config' i b current made).run (s.relogged L')) ∧
      Fronts config config' i a b s.core.bus (attemptWith i a current s.core made).1 front front' := by
  cases made with
  | command cmd =>
    show ∃ front front' tail, Twins s.obs.log L' (front ++ tail) (front' ++ tail)
      ((runCommand config i a current cmd).run s)
      ((runCommand config' i b current cmd).run (s.relogged L')) ∧ _
    rw [run_runCommand, run_runCommand, ← superviseCommand_congr h i hab]
    have hstart : SameCore (Tailed (s.obs.log ++ leadingLog config i a s.core.bus)
        (L' ++ leadingLog config' i b s.core.bus)) (s.logged (leadingLog config i a s.core.bus))
        ((s.relogged L').logged (leadingLog config' i b s.core.bus)) := by
      refine ⟨rfl, { s.obs with log := [] }, ?_, ?_⟩
      · simp only [Obs.after, List.append_nil]
        rfl
      · simp only [Obs.after, List.append_nil]
        rfl
    obtain ⟨tail, htwins⟩ := twins_of_alike
      (related_superviseCommand (unobtrusive_tailed _ _) config i a current cmd _ _ hstart)
    exact ⟨_, _, tail, twins_assoc htwins, Or.inr ⟨rfl, rfl, _, rfl⟩⟩
  | null =>
    have hmsg : nullCommandMessage b = nullCommandMessage a := by
      unfold nullCommandMessage
      rw [hab.2.1]
    refine ⟨[], [], [⟨.Error, nullCommandMessage a⟩], ⟨?_, rfl⟩, Or.inl ⟨rfl, rfl, by simp [attemptWith]⟩⟩
    simp only [useFactoryOutcome, hmsg]
    rfl
  | throws e =>
    cases e with
    | std what =>
      have hmsg : instantiateMessage b what = instantiateMessage a what := by
        unfold instantiateMessage
        rw [hab.2.1]
      refine ⟨[], [], [⟨.Error, instantiateMessage a what⟩], ⟨?_, rfl⟩,
        Or.inl ⟨rfl, rfl, by simp [attemptWith]⟩⟩
      simp only [useFactoryOutcome, hmsg]
      rfl
    | other =>
      refine ⟨[], [], [], ⟨?_, ?_⟩, Or.inl ⟨rfl, rfl, by simp [attemptWith]⟩⟩
      · rw [List.append_nil, List.append_nil]
        rfl
      · rw [List.append_nil, List.append_nil]
        rfl

theorem twins_executeStep (registry : Registry W) {config config' : WorkflowDefinition}
    (h : SameButDependencies config config') (i : ℕ) {a b : CommandConfig} (hab : SamePlugin a b)
    (current : DataPacket) (s : State W) (L' : List LogEntry) :
    ∃ front front' tail, Twins s.obs.log L' (front ++ tail) (front' ++ tail)
        ((executeStep registry config i a current).run s)
        ((executeStep registry config' i b current).run (s.relogged L')) ∧
      Fronts config config' i a b s.core.bus (attempt registry i a current s.core).1 front front' := by
  unfold executeStep attempt
  rw [← hab.1]
  cases registry.find? a.type with
  | none =>
    have hmsg : unknownTypeMessage i b = unknownTypeMessage i a := by
      unfold unknownTypeMessage
      rw [hab.1, hab.2.1]
    simp only [hmsg]
    exact ⟨[], [], [⟨.Error, unknownTypeMessage i a⟩], ⟨rfl, rfl⟩, Or.inl ⟨rfl, rfl, by simp⟩⟩
  | some factory =>
    have hmake : (callFactory factory b : EngineM W _) = callFactory factory a := by
      unfold callFactory
      rw [hab.2.1, hab.2.2]
    simp only [hmake]
    let entered : State W := { s with
      core := { s.core with world := (factory a.instanceName a.params s.core.world).1 } }
    have hrun : (callFactory factory a).run s
        = .ok (factory a.instanceName a.params s.core.world).2 entered := rfl
    have hrun' : (callFactory factory a).run (s.relogged L')
        = .ok (factory a.instanceName a.params s.core.world).2 (entered.relogged L') := rfl
    rw [run_bind_of_ok hrun, run_bind_of_ok hrun']
    exact twins_useFactoryOutcome h i hab current entered L' _

/-! ### The whole run -/

def callLog (config : WorkflowDefinition) (call : Invocation) : List LogEntry :=
  match config.pipeline[call.step]? with
  | some cfg => leadingLog config call.step cfg call.bus
  | none => []

/- Two logs of one run: behind the leading lines of each invocation, which come
from either definition, the lines are the same. -/
inductive Woven (config config' : WorkflowDefinition) :
    List Invocation → List LogEntry → List LogEntry → Prop
  | closing (tail : List LogEntry) : Woven config config' [] tail tail
  | block {calls : List Invocation} {l l' : List LogEntry} (call : Invocation) (tail : List LogEntry)
      (rest : Woven config config' calls l l') :
      Woven config config' (call :: calls) (callLog config call ++ tail ++ l)
        (callLog config' call ++ tail ++ l')

omit [FloatText] in
theorem twins_bind {α β : Type} {m n : EngineM W α} {f g : α → EngineM W β} {s t s₁ : State W}
    {L L' l l' k k' : List LogEntry} {a : α} (hm : Twins L L' l l' (m.run s) (n.run t))
    (hs₁ : m.run s = .ok a s₁)
    (hf : Twins s₁.obs.log (L' ++ l') k k' ((f a).run s₁) ((g a).run (s₁.relogged (L' ++ l')))) :
    Twins L L' (l ++ k) (l' ++ k') ((m >>= f).run s) ((n >>= g).run t) := by
  obtain ⟨hn, hlog⟩ := hm
  rw [hs₁] at hn hlog
  rw [run_bind_of_ok hs₁, run_bind_of_ok hn]
  have hlog' : s₁.obs.log = L ++ l := hlog
  rw [hlog'] at hf
  exact twins_assoc hf

omit [FloatText] in
theorem twins_bind_error {α β : Type} {m n : EngineM W α} {f g : α → EngineM W β} {s t s₁ : State W}
    {L L' l l' : List LogEntry} {e : Exn} (hm : Twins L L' l l' (m.run s) (n.run t))
    (hs₁ : m.run s = .error e s₁) :
    Twins L L' l l' ((m >>= f).run s) ((n >>= g).run t) := by
  obtain ⟨hn, hlog⟩ := hm
  rw [hs₁] at hn hlog
  rw [run_bind_of_error hs₁, run_bind_of_error hn]
  exact ⟨rfl, hlog⟩

omit [FloatText] in
/- A turn that leaves the loop ends both runs. -/
theorem twins_forEach_leave {α β : Type}
    {body body' : ℕ → α → β → EngineM W (Turn β (Result DataPacket))}
    {after after' : β → EngineM W (Result DataPacket)} {i : ℕ} {a a' : α} {b : β} {s t : State W}
    {L L' l l' : List LogEntry} (htwins : Twins L L' l l' ((body i a b).run s) ((body' i a' b).run t))
    (hleave : (∃ r s₁, (body i a b).run s = .ok (.leave r) s₁) ∨
      ∃ e s₁, (body i a b).run s = .error e s₁) (rest rest' : List α) :
    Twins L L' l l' ((forEach body after i (a :: rest) b).run s)
      ((forEach body' after' i (a' :: rest') b).run t) := by
  unfold forEach
  rcases hleave with ⟨r, s₁, hs₁⟩ | ⟨e, s₁, hs₁⟩
  · have hreturn : Twins s₁.obs.log (L' ++ l') [] []
        ((pure r : EngineM W (Result DataPacket)).run s₁)
        ((pure r : EngineM W (Result DataPacket)).run (s₁.relogged (L' ++ l'))) := by
      refine ⟨?_, (List.append_nil _).symm⟩
      rw [List.append_nil]
      rfl
    rw [← List.append_nil l, ← List.append_nil l']
    exact twins_bind htwins hs₁ hreturn
  · exact twins_bind_error htwins hs₁

theorem twins_forEach {registry : Registry W} {config config' : WorkflowDefinition}
    (h : SameButDependencies config config') {i : ℕ} {steps steps' : List CommandConfig}
    (hsteps : List.Forall₂ SamePlugin steps steps') (hi : config.pipeline.drop i = steps)
    (hi' : config'.pipeline.drop i = steps') {current : DataPacket} {s : State W} {p : Progress W}
    (hp : p = refFrom registry config.onError i steps ⟨s.core, .next current⟩)
    (hserialise : SnapshotsSerialise config p.core.calls) (L' : List LogEntry) :
    ∃ calls l l', p.core.calls = s.core.calls ++ calls ∧ Woven config config' calls l l' ∧
      Twins s.obs.log L' l l'
        ((forEach (executeStep registry config) completePipeline i steps current).run s)
        ((forEach (executeStep registry config') completePipeline i steps' current).run
          (s.relogged L')) := by
  induction hsteps generalizing i current s L' with
  | nil =>
    refine ⟨[], [⟨.Info, lit "Workflow completed successfully."⟩], _, ?_, .closing _, rfl, rfl⟩
    rw [hp, List.append_nil]
    rfl
  | @cons a b steps steps' hab _ ih =>
    have ha : config.pipeline[i]? = some a := by
      have hget := congrArg (fun l => l[0]?) hi
      simpa using hget
    have hb : config'.pipeline[i]? = some b := by
      have hget := congrArg (fun l => l[0]?) hi'
      simpa using hget
    have hnext : config.pipeline.drop (i + 1) = steps := by
      rw [← List.tail_drop, hi, List.tail_cons]
    have hnext' : config'.pipeline.drop (i + 1) = steps' := by
      rw [← List.tail_drop, hi', List.tail_cons]
    rw [refFrom_cons, refStep_next] at hp
    obtain ⟨front, front', tail, htwins, hfronts⟩ := twins_executeStep registry h i hab current s L'
    rcases htried : attempt registry i a current s.core with ⟨tried, core'⟩
    rw [htried] at hp hfronts
    have hcalls : core'.calls <+: p.core.calls := by
      rw [hp]
      exact refFrom_calls_grow registry config.onError (i + 1) steps ⟨core', _⟩
    have hseen := seen_of_yields (yields_executeStep config htried.symm
      fun haudit => Or.inl fun call hcall => hserialise haudit call (hcalls.subset hcall))
    have hshape := attempt_shape registry i a current s.core
    rw [htried] at hshape
    have hleave : ∀ result, conclude config.onError a.instanceName current tried = .leave result →
        p.core = core' ∧ Twins s.obs.log L' (front ++ tail) (front' ++ tail)
          ((forEach (executeStep registry config) completePipeline i (a :: steps) current).run s)
          ((forEach (executeStep registry config') completePipeline i (b :: steps') current).run
            (s.relogged L')) := by
      intro result hturn
      rw [hturn, refFrom_leave] at hp
      refine ⟨by rw [hp], twins_forEach_leave htwins ?_ steps steps'⟩
      rw [hturn] at hseen
      cases result with
      | error e =>
        obtain ⟨s₁, hs₁, _⟩ := exists_of_seen_error hseen
        exact Or.inr ⟨e, s₁, hs₁⟩
      | ok r =>
        obtain ⟨s₁, hs₁, _⟩ := exists_of_seen_ok hseen
        exact Or.inl ⟨r, s₁, hs₁⟩
    rcases hfronts with ⟨rfl, rfl, hnot⟩ | ⟨hfront, hfront', outcome, hran⟩
    · cases hturn : conclude config.onError a.instanceName current tried with
      | next next =>
        exact absurd hturn (conclude_of_not_ran _ _ _ hnot next)
      | leave result =>
        obtain ⟨hcore, hboth⟩ := hleave result hturn
        refine ⟨[], [] ++ tail, [] ++ tail, ?_, .closing _, hboth⟩
        rcases hshape with ⟨_, hsame, _⟩ | ⟨call, hran, _⟩
        · rw [hcore, List.append_nil]
          exact hsame
        · exact absurd hran (hnot _)
    · rcases hshape with ⟨hnot, _⟩ | ⟨call, _, hadded, _, hstep, _, _, _, _, hbus⟩
      · exact absurd hran (hnot outcome)
      have hlog : callLog config call = front := by
        unfold callLog
        rw [hstep, ha, hfront, hbus]
      have hlog' : callLog config' call = front' := by
        unfold callLog
        rw [hstep, hb, hfront', hbus]
      cases hturn : conclude config.onError a.instanceName current tried with
      | next next =>
        rw [hturn] at hp hseen
        obtain ⟨s₁, hs₁, hcore⟩ := exists_of_seen_ok hseen
        have hp₁ : p = refFrom registry config.onError (i + 1) steps ⟨s₁.core, .next next⟩ := by
          rw [hp, hcore]
        obtain ⟨calls, l, l', hrest, hwoven, hboth⟩ :=
          ih hnext hnext' hp₁ (L' ++ (front' ++ tail))
        refine ⟨call :: calls, _, _, ?_, .block call tail hwoven, ?_⟩
        · rw [hrest, hcore]
          show core'.calls ++ calls = _
          rw [show core'.calls = s.core.calls ++ [call] from hadded, List.append_assoc]
          rfl
        · rw [hlog, hlog']
          exact twins_bind htwins hs₁ hboth
      | leave result =>
        obtain ⟨hcore, hboth⟩ := hleave result hturn
        refine ⟨[call], _, _, ?_, .block call tail (.closing []), ?_⟩
        · rw [hcore]
          exact hadded
        · rw [hlog, hlog', List.append_nil, List.append_nil]
          exact hboth

/- Two definitions of one plan run alike, whatever is audited and however the
audit writer fares. If they differ in their dependency lists alone, the logs
differ in the warnings of these lists and nothing else differs. -/
theorem execute_observability_does_not_interfere (registry : Registry Unit)
    (config config' : WorkflowDefinition) (initial : DataPacket) (s t : State Unit)
    (hplan : SamePlan config config')
    (hserialise : SnapshotsSerialise config
      (referenceFold registry config.onError config.pipeline initial ()).core.calls)
    (hserialise' : SnapshotsSerialise config'
      (referenceFold registry config.onError config.pipeline initial ()).core.calls) :
    seen State.core ((execute registry config initial).run s)
        = seen State.core ((execute registry config' initial).run t) ∧
      (SameButDependencies config config' → ∃ l l',
        Woven config config'
          (referenceFold registry config.onError config.pipeline initial ()).core.calls l l' ∧
        (stateOf ((execute registry config initial).run s)).obs.log
          = s.obs.log ++ openingLog config ++ l ∧
        (execute registry config' initial).run s
          = seen (fun s' => s'.relogged (s.obs.log ++ openingLog config ++ l'))
              ((execute registry config initial).run s)) := by
  have hsame : referenceFold registry config'.onError config'.pipeline initial ()
      = referenceFold registry config.onError config.pipeline initial () := by
    unfold referenceFold
    rw [← hplan.onError, refFrom_congr registry config.onError 0 hplan.steps]
  constructor
  · have hleft : seen State.core ((execute registry config initial).run s) = _ :=
      seen_core_execute rfl hserialise
    have hright : seen State.core ((execute registry config' initial).run t) = _ :=
      seen_core_execute hsame.symm hserialise'
    rw [hleft, hright]
  · intro hdeps
    have hopening : openingLog config' = openingLog config := by
      unfold openingLog
      rw [hdeps.name, hdeps.length]
    obtain ⟨calls, l, l', hcalls, hwoven, htwin, hlog⟩ := twins_forEach hdeps
      (i := 0) (s := s.started config) hplan.steps rfl rfl rfl hserialise
      (s.obs.log ++ openingLog config)
    have hnew : (referenceFold registry config.onError config.pipeline initial ()).core.calls = calls :=
      hcalls
    refine ⟨l, l', hnew ▸ hwoven, ?_, ?_⟩
    · rw [run_execute]
      exact hlog
    · rw [run_execute, run_execute]
      have hstarted : s.started config' = (s.started config).relogged (s.obs.log ++ openingLog config) := by
        rw [← hopening]
        rfl
      rw [hstarted]
      exact htwin

end

/-! ### The two definitions of a small pipeline -/

def mockUnaudited : WorkflowDefinition :=
  { name := lit "other", description := lit "the same plan", audit := false, onError := .CONTINUE
    pipeline := [{ mockStep "Pass" with dependsOn := [lit "user"] }, mockStep "Throw"] }

theorem samePlan_mock : SamePlan mockAudited mockUnaudited :=
  ⟨rfl, .cons ⟨rfl, rfl, rfl⟩ (.cons ⟨rfl, rfl, rfl⟩ .nil)⟩

def mockDepending : WorkflowDefinition :=
  { mockAudited with pipeline := mockUnaudited.pipeline }

theorem sameButDependencies_mock : SameButDependencies mockAudited mockDepending :=
  ⟨rfl, rfl, ⟨rfl, samePlan_mock.steps⟩⟩

/- The audited run against the unaudited one on a file system that opens nothing,
and against the audited one that lists a dependency. -/
theorem execute_observability_does_not_interfere_mock :
    letI := mockFloatText
    seen State.core ((execute mockRegistry mockAudited .empty).run mockState)
        = seen State.core ((execute mockRegistry mockUnaudited .empty).run
            (construct () { mockObs with io := fun _ => ⟨none, false, none, none⟩ } none)) ∧
      ∃ l l', Woven mockAudited mockDepending
          (referenceFold mockRegistry .CONTINUE mockAudited.pipeline .empty ()).core.calls l l' ∧
        (stateOf ((execute mockRegistry mockAudited .empty).run mockState)).obs.log
          = openingLog mockAudited ++ l ∧
        (execute mockRegistry mockDepending .empty).run mockState
          = seen (fun s' => s'.relogged (openingLog mockAudited ++ l'))
              ((execute mockRegistry mockAudited .empty).run mockState) := by
  have hunaudited := @execute_observability_does_not_interfere mockFloatText mockRegistry mockAudited
    mockUnaudited .empty mockState
    (construct () { mockObs with io := fun _ => ⟨none, false, none, none⟩ } none) samePlan_mock
    snapshotsSerialise_mockAudited (snapshotsSerialise_of_unaudited rfl _)
  have hdepending := @execute_observability_does_not_interfere mockFloatText mockRegistry mockAudited
    mockDepending .empty mockState mockState sameButDependencies_mock.plan
    snapshotsSerialise_mockAudited snapshotsSerialise_mockAudited
  exact ⟨hunaudited.1, hdepending.2 sameButDependencies_mock⟩

end Workflow
