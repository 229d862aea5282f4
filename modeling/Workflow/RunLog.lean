import Workflow.AuditWarnings
import Workflow.RunShape

/-!
# The log of a run (WorkflowEngine.cpp:198-371)

Behind two opening lines the log of a run that returns tells its invocations in
their order: what each was missing, that it starts, its own lines, how it ended
and what the engine made of that (`log_tells_run`). The last line says whether the
run is ok. With auditing on, one line for each snapshot comes in between.
-/

namespace Workflow
open Observe

variable {W : Type}

/-! ### The lines -/

def completedLine : LogEntry := ⟨.Info, lit "Workflow completed successfully."⟩

/- What one snapshot adds, whatever became of it. -/
def OneNote (l : List LogEntry) : Prop :=
  ∃ note : LogEntry, l = [note] ∧ (note.level = .Debug ∨ note.level = .Warn)

def IfAudited (config : WorkflowDefinition) (P : List LogEntry → Prop) (l : List LogEntry) : Prop :=
  if config.audit then P l else l = []

/- The note on the post-mortem snapshot and the line that it was saved, which is
there whether it was or not. -/
def PostMortem (report : FailureReport) (l : List LogEntry) : Prop :=
  ∃ note, OneNote note ∧ l = note ++ [⟨.Info, report.savedLine⟩]

def FailureLines (config : WorkflowDefinition) (report : FailureReport) (l : List LogEntry) : Prop :=
  ∃ saved, IfAudited config (PostMortem report) saved ∧
    match config.onError with
    | .HALT => l = ⟨.Error, report.errorLine⟩ :: saved
    | .CONTINUE => ∃ skipped, IfAudited config OneNote skipped ∧
        l = ⟨.Error, report.errorLine⟩ :: (saved ++ ⟨.Warn, report.continueLine⟩ :: skipped)

/- How the engine reports an invocation that failed. -/
def Invocation.failure (call : Invocation) (cfg : CommandConfig) : Option FailureReport :=
  match call.outcome with
  | .error e => some (exceptionReport cfg e)
  | .ok (.error message code) => some (errorReport call.step cfg (.error message code))
  | .ok (.ok _) => none

def SuccessLines (config : WorkflowDefinition) (call : Invocation) (l : List LogEntry) : Prop :=
  ∃ note, IfAudited config OneNote note ∧
    l = note ++ [⟨.Debug, completedMessage call.step call.packetAfter⟩]

def VerdictLines (config : WorkflowDefinition) (call : Invocation) (cfg : CommandConfig)
    (l : List LogEntry) : Prop :=
  match call.failure cfg with
  | some report => FailureLines config report l
  | none => SuccessLines config call l

/- The lines of the command itself, which the factory of its type has made. -/
def OwnLines (registry : Registry W) (call : Invocation) (cfg : CommandConfig) (l : List LogEntry) :
    Prop :=
  ∃ factory world cmd, registry.find? cfg.type = some factory ∧
    (factory cfg.instanceName cfg.params world).2 = .command cmd ∧
    l = (cmd call.packet call.bus (factory cfg.instanceName cfg.params world).1).log

/- All lines of one invocation. -/
def CallLines (registry : Registry W) (config : WorkflowDefinition) (call : Invocation)
    (cfg : CommandConfig) (l : List LogEntry) : Prop :=
  ∃ pre own verdict, IfAudited config OneNote pre ∧ OwnLines registry call cfg own ∧
    VerdictLines config call cfg verdict ∧
    l = leadingLog config call.step cfg call.bus ++ (pre ++ (own ++ verdict))

/- What the loop does after an invocation. -/
def Invocation.turn (call : Invocation) (cfg : CommandConfig) (onError : OnError) :
    Turn DataPacket (Result DataPacket) :=
  match call.failure cfg, onError with
  | some report, .HALT => .leave report.result
  | _, _ => .next call.packetAfter

/- Why a step has no command. -/
def NoCommand (i : ℕ) (cfg : CommandConfig) (message : Str) : Prop :=
  message = unknownTypeMessage i cfg ∨ (∃ what, message = instantiateMessage cfg what) ∨
    message = nullCommandMessage cfg

/-- From step `k` on, with that packet, the lines tell the invocations and the result. -/
inductive Told (registry : Registry W) (config : WorkflowDefinition) :
    ℕ → DataPacket → List Invocation → Result DataPacket → List LogEntry → Prop where
  | completed {k : ℕ} (packet : DataPacket) (all : k = config.pipeline.length) :
      Told registry config k packet [] (.ok packet) [completedLine]
  | noCommand {k : ℕ} {cfg : CommandConfig} {message : Str} (packet : DataPacket)
      (step : config.pipeline[k]? = some cfg) (why : NoCommand k cfg message) :
      Told registry config k packet [] (.error message (-1)) [⟨.Error, message⟩]
  | halted {call : Invocation} {cfg : CommandConfig} {result : Result DataPacket} {l : List LogEntry}
      (step : config.pipeline[call.step]? = some cfg) (lines : CallLines registry config call cfg l)
      (turn : call.turn cfg config.onError = .leave result) :
      Told registry config call.step call.packet [call] result l
  | goesOn {call : Invocation} {cfg : CommandConfig} {calls : List Invocation}
      {result : Result DataPacket} {l l' : List LogEntry}
      (step : config.pipeline[call.step]? = some cfg) (lines : CallLines registry config call cfg l)
      (turn : call.turn cfg config.onError = .next call.packetAfter)
      (rest : Told registry config (call.step + 1) call.packetAfter calls result l') :
      Told registry config call.step call.packet (call :: calls) result (l ++ l')

/-! ### What each part of the engine adds -/

def State.lines (s : State W) : List LogEntry := s.obs.log

/- The code leaves the core alone and adds lines in `P`. -/
def AddsLines (m : EngineM W Unit) (P : List LogEntry → Prop) : Prop :=
  ∀ s, Appends State.lines m s fun _ s' l => s'.core = s.core ∧ P l

theorem addsLines_log (level : LogLevel) (message : Str) :
    AddsLines (log level message : EngineM W Unit) fun l => l = [⟨level, message⟩] := by
  intro s u s' hrun
  obtain ⟨-, rfl⟩ := EStateM.Result.ok.inj hrun
  exact ⟨[⟨level, message⟩], rfl, rfl, rfl⟩

theorem addsLines_whenAudited (config : WorkflowDefinition) {m : EngineM W Unit}
    {P : List LogEntry → Prop} (h : AddsLines m P) :
    AddsLines (whenAudited config m) (IfAudited config P) := by
  unfold whenAudited IfAudited
  cases config.audit with
  | true => exact h
  | false => exact fun s => appends_pure ⟨rfl, rfl⟩

theorem addsLines_bind {m n : EngineM W Unit} {P Q : List LogEntry → Prop} (hm : AddsLines m P)
    (hn : AddsLines n Q) :
    AddsLines (do m; n) fun l => ∃ front back, P front ∧ Q back ∧ l = front ++ back := by
  intro s
  refine appends_bind (hm s) ?_
  intro _ s₁ front hfront
  refine appends_weaken (hn s₁) ?_
  intro _ s' back hback
  exact ⟨hback.1.trans hfront.1, front, back, hfront.2, hback.2, rfl⟩

/- What a step adds to the invocations. -/
structure StepTold (config : WorkflowDefinition) (i : ℕ) (cfg : CommandConfig) (current : DataPacket)
    (s s' : State W) (turn : Turn DataPacket (Result DataPacket)) (call : Invocation) : Prop where
  added : s'.core.calls = s.core.calls ++ [call]
  step : call.step = i
  packet : call.packet = current
  bus : call.bus = s.core.bus
  turn : turn = call.turn cfg config.onError

/- A step either adds an invocation and its lines, or ends the run with one line. -/
def StepLines (registry : Registry W) (config : WorkflowDefinition) (i : ℕ) (cfg : CommandConfig) (current : DataPacket)
    (s : State W) (turn : Turn DataPacket (Result DataPacket)) (s' : State W) (l : List LogEntry) :
    Prop :=
  (∃ call, StepTold config i cfg current s s' turn call ∧ CallLines registry config call cfg l) ∨
    s'.core.calls = s.core.calls ∧ ∃ message, NoCommand i cfg message ∧
      turn = .leave (.error message (-1)) ∧ l = [⟨.Error, message⟩]

theorem appends_noCommand (registry : Registry W) (config : WorkflowDefinition) {i : ℕ} {cfg : CommandConfig}
    (current : DataPacket) {message : Str} (h : NoCommand i cfg message) (s : State W) :
    Appends State.lines (do
      log .Error message
      return .leave (.error message (-1)) : EngineM W (Turn DataPacket (Result DataPacket))) s
      (StepLines registry config i cfg current s) := by
  refine appends_bind (addsLines_log _ _ s) ?_
  rintro _ s₁ _ ⟨hcore, rfl⟩
  exact appends_pure (Or.inr ⟨by rw [hcore], message, h, rfl, rfl⟩)

theorem appends_callCommand (cmd : Command W) (i : ℕ) (cfg : CommandConfig) (current : DataPacket)
    (s : State W) :
    Appends State.lines (callCommand cmd i cfg current) s fun outcome s' l =>
      outcome = (cmd current s.core.bus s.core.world).outcome ∧
        s'.core = s.core.afterCall i cfg current (cmd current s.core.bus s.core.world) ∧
        l = (cmd current s.core.bus s.core.world).log := by
  intro outcome s' hrun
  obtain ⟨rfl, rfl⟩ := EStateM.Result.ok.inj hrun
  exact ⟨_, rfl, rfl, rfl, rfl⟩

section
variable [FloatText]

theorem addsLines_snapshot (config : WorkflowDefinition) (i : ℕ) (cfg : CommandConfig) (status : Str)
    (packet : DataPacket) (extra : List (Str × Json)) :
    AddsLines (snapshot config i cfg status packet extra : EngineM W Unit) OneNote := by
  intro s u s' hrun
  rw [run_snapshot] at hrun
  have hwritten := saveSnapshot_written config.name ⟨i, cfg.instanceName, status, packet, s.core.bus, extra⟩
    s.obs
  cases hsave : (saveSnapshot config.name i cfg.instanceName status packet s.core.bus extra).run s.obs with
  | ok a o =>
    rw [run_observing_of_ok hsave] at hrun
    obtain ⟨-, rfl⟩ := EStateM.Result.ok.inj hrun
    simp only [hsave] at hwritten
    cases hwritten with
    | gaveUp _ _ _ _ warned =>
      obtain ⟨message, hlog⟩ := warned
      exact ⟨[⟨.Warn, message⟩], hlog, rfl, _, rfl, Or.inr rfl⟩
    | notRenamed _ _ _ _ _ _ _ warned =>
      obtain ⟨message, hlog⟩ := warned
      exact ⟨[⟨.Warn, message⟩], hlog, rfl, _, rfl, Or.inr rfl⟩
    | renamed _ _ _ _ _ _ _ noted =>
      obtain ⟨message, hlog⟩ := noted
      exact ⟨[⟨.Debug, message⟩], hlog, rfl, _, rfl, Or.inl rfl⟩
  | error e o =>
    rw [run_observing_of_error hsave] at hrun
    cases hrun

theorem addsLines_postMortem (config : WorkflowDefinition) (i : ℕ) (cfg : CommandConfig)
    (current : DataPacket) (report : FailureReport) :
    AddsLines (do
      snapshot config i cfg report.status current report.members
      log .Info report.savedLine : EngineM W Unit) (PostMortem report) := by
  intro s
  refine appends_weaken (addsLines_bind (addsLines_snapshot config i cfg _ current _)
    (addsLines_log .Info report.savedLine) s) ?_
  rintro _ s' _ ⟨hcore, note, _, hnote, rfl, rfl⟩
  exact ⟨hcore, note, hnote, rfl⟩

theorem appends_afterFailure (config : WorkflowDefinition) (i : ℕ) (cfg : CommandConfig)
    (current : DataPacket) (report : FailureReport) (s : State W) :
    Appends State.lines (afterFailure config i cfg current report) s fun turn s' l =>
      s'.core = s.core ∧ FailureLines config report l ∧
        turn = match config.onError with
          | .HALT => .leave report.result
          | .CONTINUE => .next current := by
  unfold afterFailure FailureLines
  refine appends_bind (addsLines_log _ _ s) ?_
  rintro _ s₁ _ ⟨hcore₁, rfl⟩
  refine appends_bind (addsLines_whenAudited config
    (addsLines_postMortem config i cfg current report) s₁) ?_
  intro _ s₂ saved hsaved
  cases config.onError with
  | HALT => exact appends_pure ⟨hsaved.1.trans hcore₁, ⟨saved, hsaved.2, by simp⟩, rfl⟩
  | CONTINUE =>
    refine appends_bind (addsLines_log _ _ s₂) ?_
    rintro _ s₃ _ ⟨hcore₃, rfl⟩
    refine appends_bind (addsLines_whenAudited config (addsLines_snapshot config i cfg _ current _) s₃) ?_
    intro _ s₄ skipped hskipped
    refine appends_pure ⟨?_, ⟨saved, hsaved.2, skipped, hskipped.2, by simp⟩, rfl⟩
    exact hskipped.1.trans (hcore₃.trans (hsaved.1.trans hcore₁))

theorem appends_afterSuccess (config : WorkflowDefinition) (i : ℕ) (cfg : CommandConfig)
    (packet : DataPacket) (s : State W) :
    Appends State.lines (afterSuccess config i cfg (.ok packet)) s fun turn s' l =>
      s'.core = s.core ∧ turn = .next packet ∧
        ∃ note, IfAudited config OneNote note ∧ l = note ++ [⟨.Debug, completedMessage i packet⟩] := by
  have hvalue : ∀ s : State W, Appends State.lines
      (ofExcept (Result.ok packet).value : EngineM W DataPacket) s
      fun current s' l => s' = s ∧ current = packet ∧ l = [] := fun _ => appends_pure ⟨rfl, rfl, rfl⟩
  have hsnapshot : AddsLines (do
      let packet ← ofExcept (Result.ok packet).value
      snapshot config i cfg (lit "success") packet successMembers : EngineM W Unit) OneNote :=
    addsLines_snapshot config i cfg (lit "success") packet successMembers
  unfold afterSuccess
  refine appends_bind (addsLines_whenAudited config hsnapshot s) ?_
  rintro _ s₁ note ⟨hcore, hnote⟩
  refine appends_bind (hvalue s₁) ?_
  rintro _ _ _ ⟨rfl, rfl, rfl⟩
  refine appends_bind (addsLines_log _ _ _) ?_
  rintro _ s₃ _ ⟨hcore₃, rfl⟩
  exact appends_pure ⟨hcore₃.trans hcore, rfl, note, hnote, by simp⟩

theorem appends_afterCommand (config : WorkflowDefinition) (cfg : CommandConfig) (call : Invocation)
    (s : State W) :
    Appends State.lines (afterCommand config call.step cfg call.packet call.outcome) s fun turn s' l =>
      s'.core = s.core ∧ VerdictLines config call cfg l ∧ turn = call.turn cfg config.onError := by
  unfold VerdictLines Invocation.turn SuccessLines Invocation.failure Invocation.packetAfter
  cases hout : call.outcome with
  | error e =>
    refine appends_weaken (appends_afterFailure config call.step cfg call.packet _ s) ?_
    rintro turn s' l ⟨hcore, hlines, rfl⟩
    refine ⟨hcore, hlines, ?_⟩
    cases config.onError <;> rfl
  | ok result =>
    cases result with
    | ok packet =>
      refine appends_weaken (appends_afterSuccess config call.step cfg packet s) ?_
      rintro turn s' l ⟨hcore, rfl, hlines⟩
      exact ⟨hcore, hlines, rfl⟩
    | error message code =>
      refine appends_weaken (appends_afterFailure config call.step cfg call.packet _ s) ?_
      rintro turn s' l ⟨hcore, hlines, rfl⟩
      refine ⟨hcore, hlines, ?_⟩
      cases config.onError <;> rfl

theorem appends_superviseCommand (config : WorkflowDefinition) (i : ℕ) (cfg : CommandConfig)
    (current : DataPacket) (cmd : Command W) (s : State W) :
    Appends State.lines (superviseCommand config i cfg current cmd) s fun turn s' l =>
      ∃ call, StepTold config i cfg current s s' turn call ∧
        ∃ pre verdict, IfAudited config OneNote pre ∧ VerdictLines config call cfg verdict ∧
          l = pre ++ ((cmd current s.core.bus s.core.world).log ++ verdict) := by
  unfold superviseCommand
  refine appends_bind (addsLines_whenAudited config (addsLines_snapshot config i cfg _ current _) s) ?_
  rintro _ s₁ pre ⟨hcore₁, hpre⟩
  refine appends_bind (appends_callCommand cmd i cfg current s₁) ?_
  rintro _ s₂ _ ⟨rfl, hcore₂, rfl⟩
  rw [hcore₁] at hcore₂ ⊢
  obtain ⟨call, hcall⟩ : ∃ call, call
      = s.core.newCall i cfg current (cmd current s.core.bus s.core.world) := ⟨_, rfl⟩
  have hafter := appends_afterCommand config cfg call s₂
  rw [hcall] at hafter
  refine appends_weaken hafter ?_
  intro turn s' verdict ⟨hcore, hverdict, hturn⟩
  refine ⟨_, ⟨?_, rfl, rfl, rfl, hturn⟩, pre, verdict, hpre, hverdict, rfl⟩
  rw [hcore, hcore₂]
  rfl

theorem appends_runCommand {registry : Registry W} (config : WorkflowDefinition) (i : ℕ)
    {cfg : CommandConfig} (current : DataPacket) {cmd : Command W} {s : State W}
    (hmade : ∀ call : Invocation, call.packet = current → call.bus = s.core.bus →
      OwnLines registry call cfg (cmd current s.core.bus s.core.world).log) :
    Appends State.lines (runCommand config i cfg current cmd) s fun turn s' l =>
      ∃ call, StepTold config i cfg current s s' turn call ∧ CallLines registry config call cfg l := by
  intro turn s' hrun
  rw [run_runCommand] at hrun
  obtain ⟨l, hl, call, htold, pre, verdict, hpre, hverdict, hlines⟩ :=
    appends_superviseCommand config i cfg current cmd _ turn s' hrun
  have hbus : call.bus = s.core.bus := htold.bus
  refine ⟨leadingLog config i cfg s.core.bus ++ l, ?_, call,
    ⟨htold.added, htold.step, htold.packet, hbus, htold.turn⟩, pre, _, verdict, hpre,
    hmade call htold.packet hbus, hverdict, ?_⟩
  · rw [hl]
    show s.lines ++ leadingLog config i cfg s.core.bus ++ l = _
    rw [List.append_assoc]
  · rw [htold.step, hbus, hlines]
    rfl

theorem appends_executeStep (registry : Registry W) (config : WorkflowDefinition) (i : ℕ)
    (cfg : CommandConfig) (current : DataPacket) (s : State W) :
    Appends State.lines (executeStep registry config i cfg current) s
      (StepLines registry config i cfg current s) := by
  unfold executeStep
  cases hfind : registry.find? cfg.type with
  | none => exact appends_noCommand registry config current (Or.inl rfl) s
  | some factory =>
    have hmake : Appends State.lines (callFactory factory cfg) s fun made s' l =>
        made = (factory cfg.instanceName cfg.params s.core.world).2 ∧
          s'.core = { s.core with world := (factory cfg.instanceName cfg.params s.core.world).1 } ∧
          l = [] := by
      intro made s' hrun
      obtain ⟨rfl, rfl⟩ := EStateM.Result.ok.inj hrun
      exact ⟨[], (List.append_nil _).symm, rfl, rfl, rfl⟩
    refine appends_bind hmake ?_
    rintro made s₁ _ ⟨hmade, hcore, rfl⟩
    have hcalls : s₁.core.calls = s.core.calls := by rw [hcore]
    have hbus : s₁.core.bus = s.core.bus := by rw [hcore]
    have hworld : s₁.core.world = (factory cfg.instanceName cfg.params s.core.world).1 := by rw [hcore]
    have hstep : Appends State.lines (useFactoryOutcome config i cfg current made) s₁
        (StepLines registry config i cfg current s₁) := by
      cases made with
      | command cmd =>
        refine appends_weaken (appends_runCommand config i current ?_) fun _ _ _ h => Or.inl h
        intro call hpacket hcallBus
        refine ⟨factory, s.core.world, cmd, hfind, hmade.symm, ?_⟩
        rw [hpacket, hcallBus, hworld]
      | null => exact appends_noCommand registry config current (Or.inr (Or.inr rfl)) s₁
      | throws e =>
        cases e with
        | std what => exact appends_noCommand registry config current (Or.inr (Or.inl ⟨what, rfl⟩)) s₁
        | other => exact appends_throw _
    refine appends_weaken hstep ?_
    intro turn s' l hlines
    unfold StepLines at hlines ⊢
    rw [hcalls] at hlines
    rcases hlines with ⟨call, htold, hlines⟩ | hnone
    · refine Or.inl ⟨call, ⟨?_, htold.step, htold.packet, htold.bus.trans hbus, htold.turn⟩, hlines⟩
      rw [htold.added, hcalls]
    · exact Or.inr hnone

/- By induction on the steps that are left; every invocation adds its lines in front. -/
theorem appends_forEach (registry : Registry W) (config : WorkflowDefinition) {i : ℕ}
    {steps : List CommandConfig} (hi : config.pipeline.drop i = steps)
    (hle : i ≤ config.pipeline.length) (current : DataPacket) (s : State W) :
    Appends State.lines (forEach (executeStep registry config) completePipeline i steps current) s
      fun result s' l => ∃ calls, s'.core.calls = s.core.calls ++ calls ∧
        Told registry config i current calls result l := by
  induction steps generalizing i current s with
  | nil =>
    have hall : i = config.pipeline.length := Nat.le_antisymm hle (List.drop_eq_nil_iff.mp hi)
    refine appends_bind (addsLines_log _ _ s) ?_
    rintro _ s₁ _ ⟨hcore, rfl⟩
    exact appends_pure ⟨[], by rw [hcore, List.append_nil], .completed current hall⟩
  | cons cfg steps ih =>
    have hstep : config.pipeline[i]? = some cfg := by
      have hget := congrArg (fun l => l[0]?) hi
      simpa using hget
    have hnext : config.pipeline.drop (i + 1) = steps := by
      rw [← List.tail_drop, hi, List.tail_cons]
    have hlt : i < config.pipeline.length := (List.getElem?_eq_some_iff.mp hstep).1
    unfold forEach
    refine appends_bind (appends_executeStep registry config i cfg current s) ?_
    intro turn s₁ l hlines
    rcases hlines with ⟨call, htold, hlines⟩ | ⟨hcalls, message, hwhy, rfl, rfl⟩
    · obtain ⟨hadded, rfl, rfl, -, hturn⟩ := htold
      cases turn with
      | next next =>
        have hafter : next = call.packetAfter := by
          unfold Invocation.turn at hturn
          split at hturn <;> cases hturn
          rfl
        subst hafter
        refine appends_weaken (ih hnext hlt _ s₁) ?_
        rintro result s' l' ⟨calls, hcalls, hrest⟩
        refine ⟨call :: calls, ?_, .goesOn hstep hlines hturn.symm hrest⟩
        rw [hcalls, hadded, List.append_assoc, List.singleton_append]
      | leave result =>
        refine appends_pure ⟨[call], hadded, ?_⟩
        rw [List.append_nil]
        exact .halted hstep hlines hturn.symm
    · refine appends_pure ⟨[], by rw [hcalls, List.append_nil], ?_⟩
      exact .noCommand current hstep hwhy

end

/-! ### What can be read off the lines -/

/- The report under which a run halts. -/
theorem failure_of_leave {call : Invocation} {cfg : CommandConfig} {onError : OnError}
    {result : Result DataPacket} (h : call.turn cfg onError = .leave result) :
    ∃ report, call.failure cfg = some report ∧ onError = .HALT ∧ report.result = result := by
  unfold Invocation.turn at h
  cases hfailure : call.failure cfg with
  | none =>
    rw [hfailure] at h
    cases h
  | some report =>
    rw [hfailure] at h
    cases onError with
    | HALT => exact ⟨report, rfl, rfl, Turn.leave.inj h⟩
    | CONTINUE => cases h

/- A report names the error it returns and never looks like the end of a good run. -/
structure FailureReport.Told (report : FailureReport) : Prop where
  result : ∃ message code, report.result = .error message code ∧ message <:+ report.errorLine
  saved : report.savedLine ≠ completedLine.message

theorem told_of_failure {call : Invocation} {cfg : CommandConfig} {report : FailureReport}
    (h : call.failure cfg = some report) : report.Told := by
  have hfirst : ∀ {b : Byte} {rest : Str}, b ≠ 87 → b :: rest ≠ completedLine.message := by
    intro b rest hb heq
    exact hb (List.cons.inj heq).1
  unfold Invocation.failure at h
  rcases hout : call.outcome with e | (packet | ⟨message, code⟩)
  · rw [hout] at h
    obtain rfl := Option.some.inj h
    exact ⟨⟨_, _, rfl, List.suffix_rfl⟩, hfirst (by decide)⟩
  · rw [hout] at h
    cases h
  · rw [hout] at h
    obtain rfl := Option.some.inj h
    exact ⟨⟨_, _, rfl, List.suffix_append _ _⟩, hfirst (by decide)⟩

/- The last line and the error lines of a failed invocation that halts the run. -/
theorem failureLines_halt {config : WorkflowDefinition} {report : FailureReport} {l : List LogEntry}
    (h : FailureLines config report l) (hhalt : config.onError = .HALT) (hreport : report.Told) :
    (∃ last, l.getLast? = some last ∧ last ≠ completedLine) ∧ ⟨.Error, report.errorLine⟩ ∈ l := by
  obtain ⟨saved, hsaved, hl⟩ := h
  rw [hhalt] at hl
  obtain rfl : l = ⟨.Error, report.errorLine⟩ :: saved := hl
  refine ⟨?_, List.mem_cons_self⟩
  unfold IfAudited at hsaved
  split_ifs at hsaved
  · obtain ⟨note, -, rfl⟩ := hsaved
    refine ⟨⟨.Info, report.savedLine⟩, by rw [← List.cons_append, List.getLast?_concat], ?_⟩
    intro heq
    exact hreport.saved (congrArg LogEntry.message heq)
  · subst hsaved
    refine ⟨_, rfl, ?_⟩
    intro heq
    cases congrArg LogEntry.level heq

structure ReadOff (result : Result DataPacket) (l : List LogEntry) : Prop where
  /-- The last line is the one on success if and only if the run is ok. -/
  success : ∃ last, l.getLast? = some last ∧ (last = completedLine ↔ result.isOk = true)
  /-- The error that is returned ends a line at error level. -/
  failure : ∀ message code, result = .error message code →
    ∃ entry ∈ l, entry.level = .Error ∧ message <:+ entry.message

theorem readOff_append {result : Result DataPacket} {l : List LogEntry} (h : ReadOff result l)
    (front : List LogEntry) : ReadOff result (front ++ l) where
  success := by
    obtain ⟨last, hlast, hok⟩ := h.success
    exact ⟨last, by rw [List.getLast?_append, hlast, Option.some_or], hok⟩
  failure message code heq := by
    obtain ⟨entry, hentry, hrest⟩ := h.failure message code heq
    exact ⟨entry, List.mem_append_right front hentry, hrest⟩

theorem readOff_of_told {registry : Registry W} {config : WorkflowDefinition} {k : ℕ} {packet : DataPacket}
    {calls : List Invocation} {result : Result DataPacket} {l : List LogEntry}
    (h : Told registry config k packet calls result l) : ReadOff result l := by
  induction h with
  | completed packet all =>
    refine ⟨⟨completedLine, rfl, by simp [Result.isOk]⟩, ?_⟩
    intro message code heq
    cases heq
  | @noCommand k cfg message packet step why =>
    refine ⟨⟨_, rfl, ?_⟩, ?_⟩
    · constructor
      · intro heq
        cases congrArg LogEntry.level heq
      · intro hok
        cases hok
    · rintro _ _ ⟨⟩
      exact ⟨_, List.mem_singleton_self _, rfl, List.suffix_rfl⟩
  | @halted call cfg result l step lines turn =>
    obtain ⟨report, hfailure, hhalt, rfl⟩ := failure_of_leave turn
    obtain ⟨pre, own, verdict, -, -, hverdict, rfl⟩ := lines
    unfold VerdictLines at hverdict
    rw [hfailure] at hverdict
    have hreport := told_of_failure hfailure
    obtain ⟨message, code, hresult, hsuffix⟩ := hreport.result
    obtain ⟨⟨last, hlast, hne⟩, hmem⟩ := failureLines_halt hverdict hhalt hreport
    refine readOff_append (readOff_append (readOff_append ⟨⟨last, hlast, ?_⟩, ?_⟩ _) _) _
    · rw [hresult]
      constructor
      · intro heq
        exact absurd heq hne
      · intro hok
        cases hok
    · intro message' code' heq
      rw [hresult] at heq
      cases heq
      exact ⟨_, hmem, rfl, hsuffix⟩
  | goesOn step lines turn rest ih => exact readOff_append ih _

/-! ### The whole run -/

structure LogTells (registry : Registry W) (config : WorkflowDefinition) (initial : DataPacket) (s s' : State W)
    (result : Result DataPacket) (l : List LogEntry) : Prop where
  lines : s'.obs.log = s.obs.log ++ openingLog config ++ l
  told : Told registry config 0 initial s'.core.calls result l
  readOff : ReadOff result l

theorem log_tells_run [FloatText] {registry : Registry W} {config : WorkflowDefinition}
    {initial : DataPacket} {s s' : State W} {result : Result DataPacket}
    (hrun : (execute registry config initial).run s = .ok result s') :
    ∃ l, LogTells registry config initial s s' result l := by
  rw [run_execute] at hrun
  obtain ⟨l, hl, calls, hcalls, htold⟩ := appends_forEach registry config (List.drop_zero)
    (Nat.zero_le _) initial (s.started config) result s' hrun
  have hcalls' : s'.core.calls = calls := hcalls
  exact ⟨l, hl, hcalls' ▸ htold, readOff_of_told htold⟩

/- A good invocation and a failing one. -/
theorem log_tells_run_mock :
    letI := mockFloatText
    ∃ s' l, (execute mockRegistry (mockConfig .HALT false ["Pass", "Fail"]) .empty).run mockState
        = .ok (.error (lit "no input") 7) s' ∧
      LogTells mockRegistry (mockConfig .HALT false ["Pass", "Fail"]) .empty mockState s'
        (.error (lit "no input") 7) l := by
  have hreturns : ∃ s', (@execute Unit mockFloatText mockRegistry
      (mockConfig .HALT false ["Pass", "Fail"]) .empty).run mockState
        = .ok (.error (lit "no input") 7) s' := ⟨_, rfl⟩
  obtain ⟨s', hrun⟩ := hreturns
  obtain ⟨l, hl⟩ := @log_tells_run Unit mockFloatText _ _ _ _ _ _ hrun
  exact ⟨s', l, hrun, hl⟩

end Workflow
