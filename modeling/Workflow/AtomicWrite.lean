import Workflow.AuditPaths
import Workflow.AuditWriter
import Workflow.PipelineSemantics

/-!
# What one call of the writer leaves behind

`Written` lists the ways in which `write_audit_snapshot` ends, with the files
and the log after each. The temporary file is renamed even if the stream went
bad while it was written, so the target is replaced atomically only when no
such fragment gets that far (`writesAtomically_iff`).
-/

namespace Workflow
open Observe

/-! ### Answers of the file system -/

namespace IoOutcome

/- The writer gives up before it has a stream to write to. -/
def FailsEarly (io : IoOutcome) : Prop := io.createDirectories ≠ none ∨ io.opens = false

/- What the stream takes of a text. -/
def taken (io : IoOutcome) (text : Str) : Str := (io.written.map text.take).getD text

def CutsShort (io : IoOutcome) (text : Str) : Prop := ∃ k < text.length, io.written = some k

/- The call gets as far as the rename, which succeeds. -/
def Publishes (io : IoOutcome) : Prop := ¬ io.FailsEarly ∧ io.rename = none

/- A fragment of the text takes the place of a file that held something else. -/
def PublishesFragment (io : IoOutcome) (text : Str) (held : Option Str) : Prop :=
  io.Publishes ∧ ∃ k < text.length, io.written = some k ∧ held ≠ some (text.take k)

theorem not_failsEarly_success : ¬ success.FailsEarly := by
  unfold FailsEarly success
  simp

theorem taken_of_written {io : IoOutcome} {k : ℕ} (h : io.written = some k) (text : Str) :
    io.taken text = text.take k := by
  unfold taken
  rw [h]
  rfl

theorem taken_eq_iff (io : IoOutcome) (text : Str) : io.taken text = text ↔ ¬ io.CutsShort text := by
  unfold taken CutsShort
  cases io.written with
  | none => simp
  | some k =>
    have hwhole : text.take k = text ↔ text.length ≤ k := List.take_eq_self_iff text
    simp only [Option.map_some, Option.getD_some, hwhole, Option.some.injEq]
    constructor
    · intro hlen ⟨j, hj, hkj⟩
      omega
    · intro hnot
      by_contra hlen
      exact hnot ⟨k, by omega, rfl⟩

end IoOutcome

/-! ### Files -/

/- The files after `temporary` has been opened and written. -/
def staged (files : SortedMap Str Str) (temporary text : Str) : SortedMap Str Str :=
  (files.insert temporary []).insert temporary text

theorem staged_other (files : SortedMap Str Str) {temporary path : Str} (h : path ≠ temporary)
    (text : Str) : (staged files temporary text).find? path = files.find? path := by
  unfold staged
  rw [SortedMap.find?_insert_ne _ h, SortedMap.find?_insert_ne _ h]

/- The files after `temporary` has been written and renamed to `target`. -/
def published (files : SortedMap Str Str) (temporary target text : Str) : SortedMap Str Str :=
  ((staged files temporary text).erase temporary).insert target text

theorem published_target (files : SortedMap Str Str) (temporary target text : Str) :
    (published files temporary target text).find? target = some text :=
  SortedMap.find?_insert_self _ target text

theorem published_temporary (files : SortedMap Str Str) {temporary target : Str}
    (h : target ≠ temporary) (text : Str) :
    (published files temporary target text).find? temporary = none := by
  unfold published
  rw [SortedMap.find?_insert_ne _ h.symm, SortedMap.find?_erase, if_pos rfl]

theorem published_other (files : SortedMap Str Str) {temporary target path : Str}
    (htarget : path ≠ target) (htemporary : path ≠ temporary) (text : Str) :
    (published files temporary target text).find? path = files.find? path := by
  unfold published
  rw [SortedMap.find?_insert_ne _ htarget, SortedMap.find?_erase, if_neg htemporary,
    staged_other files htemporary]

/-! ### The ways in which a call ends -/

/- Every call uses up one answer of the file system and settles the directory. -/
structure Called (o o' : Obs) : Prop where
  io : o'.io = fun n => o.io (n + 1)
  directory : o'.auditDir = effectiveAuditDir o.auditDir

def LogsOne (level : LogLevel) (o o' : Obs) : Prop :=
  ∃ message, o'.log = o.log ++ [⟨level, message⟩]

/- How a call from `o` ends, given what `dump` makes of the record. -/
inductive Written (o : Obs) (temporary target : Str) (dumped : Except Exn Str) :
    EStateM.Result Exn Obs Unit → Prop where
  | gaveUp (o' : Obs) (early : (o.io 0).FailsEarly) (called : Called o o')
      (files : o'.files = o.files) (warned : LogsOne .Warn o o') :
      Written o temporary target dumped (.ok () o')
  | unserialised (e : Exn) (o' : Obs) (opened : ¬ (o.io 0).FailsEarly) (called : Called o o')
      (dump : dumped = .error e) (files : o'.files = o.files.insert temporary []) :
      Written o temporary target dumped (.error e o')
  | notRenamed (text : Str) (o' : Obs) (opened : ¬ (o.io 0).FailsEarly) (called : Called o o')
      (dump : dumped = .ok text) (rename : (o.io 0).rename ≠ none)
      (files : o'.files = staged o.files temporary ((o.io 0).taken text))
      (warned : LogsOne .Warn o o') : Written o temporary target dumped (.ok () o')
  | renamed (text : Str) (o' : Obs) (opened : ¬ (o.io 0).FailsEarly) (called : Called o o')
      (dump : dumped = .ok text) (rename : (o.io 0).rename = none)
      (files : o'.files = published o.files temporary target ((o.io 0).taken text))
      (noted : LogsOne .Debug o o') : Written o temporary target dumped (.ok () o')

/- How a call ends says nothing of the clock. -/
theorem written_of_clock {o : Obs} {clock : ℕ → Tm} {temporary target : Str}
    {dumped : Except Exn Str} {r : EStateM.Result Exn Obs Unit}
    (h : Written { o with clock := clock } temporary target dumped r) :
    Written o temporary target dumped r := by
  cases h with
  | gaveUp o' early called files warned =>
    exact .gaveUp o' early ⟨called.io, called.directory⟩ files warned
  | unserialised e o' opened called dump files =>
    exact .unserialised e o' opened ⟨called.io, called.directory⟩ dump files
  | notRenamed text o' opened called dump rename files warned =>
    exact .notRenamed text o' opened ⟨called.io, called.directory⟩ dump rename files warned
  | renamed text o' opened called dump rename files noted =>
    exact .renamed text o' opened ⟨called.io, called.directory⟩ dump rename files noted

theorem not_logsOne_both {o o' : Obs} (hdebug : LogsOne .Debug o o') : ¬ LogsOne .Warn o o' := by
  obtain ⟨noted, hnoted⟩ := hdebug
  intro ⟨warned, hwarned⟩
  rw [hnoted, List.append_cancel_left_eq] at hwarned
  cases hwarned

/- Where the writer puts a snapshot, and where it writes it first. -/
def Obs.targetPath (o : Obs) (workflowName : Str) (stepIndex : ℕ) (commandName status : Str) : Str :=
  joinPath (effectiveAuditDir o.auditDir) (snapshotFilename workflowName stepIndex commandName status)

def Obs.temporaryPath (o : Obs) (workflowName : Str) (stepIndex : ℕ) (commandName status : Str) :
    Str :=
  joinPath (effectiveAuditDir o.auditDir)
    (temporaryName (snapshotFilename workflowName stepIndex commandName status))

theorem targetPath_ne_temporaryPath (o : Obs) (workflowName : Str) (stepIndex : ℕ)
    (commandName status : Str) :
    o.targetPath workflowName stepIndex commandName status
      ≠ o.temporaryPath workflowName stepIndex commandName status :=
  target_ne_temporary _ workflowName workflowName stepIndex stepIndex commandName commandName status
    status

theorem written_called {o : Obs} {temporary target : Str} {dumped : Except Exn Str}
    {r : EStateM.Result Exn Obs Unit} (h : Written o temporary target dumped r) :
    Called o (stateOf r) := by
  cases h with
  | gaveUp o' _ called _ _ => exact called
  | unserialised e o' _ called _ _ => exact called
  | notRenamed text o' _ called _ _ _ _ => exact called
  | renamed text o' _ called _ _ _ _ => exact called

/- Whatever fails, only the target and its temporary file are touched. -/
theorem written_others {o : Obs} {temporary target : Str} {dumped : Except Exn Str}
    {r : EStateM.Result Exn Obs Unit} (h : Written o temporary target dumped r) {path : Str}
    (htarget : path ≠ target) (htemporary : path ≠ temporary) :
    (stateOf r).files.find? path = o.files.find? path := by
  cases h with
  | gaveUp o' _ _ files _ =>
    show o'.files.find? path = _
    rw [files]
  | unserialised e o' _ _ _ files =>
    show o'.files.find? path = _
    rw [files, SortedMap.find?_insert_ne _ htemporary]
  | notRenamed text o' _ _ _ _ files _ =>
    show o'.files.find? path = _
    rw [files, staged_other _ htemporary]
  | renamed text o' _ _ _ _ files _ =>
    show o'.files.find? path = _
    rw [files, published_other _ htarget htemporary]

/- A record that serialises replaces the target by what the stream took of it, or
leaves it alone. -/
theorem written_target {o : Obs} {temporary target text : Str} (hne : target ≠ temporary)
    {r : EStateM.Result Exn Obs Unit} (h : Written o temporary target (.ok text) r) :
    ∃ o', r = .ok () o' ∧
      ((o.io 0).Publishes → o'.files.find? target = some ((o.io 0).taken text)) ∧
      (¬ (o.io 0).Publishes → o'.files.find? target = o.files.find? target) := by
  cases h with
  | gaveUp o' early _ files _ =>
    refine ⟨o', rfl, ?_, ?_⟩
    · intro hpublishes
      exact absurd early hpublishes.1
    · intro _
      rw [files]
  | unserialised e o' _ _ hdump _ => cases hdump
  | notRenamed text' o' _ _ hdump rename files _ =>
    refine ⟨o', rfl, ?_, ?_⟩
    · intro hpublishes
      exact absurd hpublishes.2 rename
    · intro _
      rw [files, staged_other _ hne]
  | renamed text' o' opened _ hdump rename files _ =>
    obtain rfl := Except.ok.inj hdump
    refine ⟨o', rfl, ?_, ?_⟩
    · intro _
      rw [files, published_target]
    · intro hnot
      exact absurd ⟨opened, rename⟩ hnot

section
variable [FloatText]

theorem writeAuditSnapshot_written (workflowName : Str) (stepIndex : ℕ) (commandName status : Str)
    (snapshot : Json) (o : Obs) :
    Written o (o.temporaryPath workflowName stepIndex commandName status)
      (o.targetPath workflowName stepIndex commandName status)
      (dump (.ofMembers (auditRecord workflowName stepIndex commandName status
        (formatUtc (o.clock 0)) snapshot)))
      ((writeAuditSnapshot workflowName stepIndex commandName status snapshot).run o) := by
  unfold writeAuditSnapshot
  cases hm : (o.io 0).createDirectories with
  | some reason =>
    have hearly : (o.io 0).FailsEarly := Or.inl (by simp [hm])
    simp only [EStateM.run_bind, EStateM.run_modify, EStateM.run_get, nextIo, EStateM.run_modifyGet,
      hm, logMessage, Obs.logged]
    exact .gaveUp _ hearly ⟨rfl, rfl⟩ rfl ⟨_, rfl⟩
  | none =>
    cases ho : (o.io 0).opens with
    | false =>
      have hearly : (o.io 0).FailsEarly := Or.inr ho
      simp only [EStateM.run_bind, EStateM.run_modify, EStateM.run_get, nextIo, utcTimestamp,
        EStateM.run_modifyGet, hm, ho, Bool.not_false, if_true, logMessage, Obs.logged]
      exact .gaveUp _ hearly ⟨rfl, rfl⟩ rfl ⟨_, rfl⟩
    | true =>
      have hopened : ¬ (o.io 0).FailsEarly := by
        unfold IoOutcome.FailsEarly
        simp [hm, ho]
      cases hd : dump (.ofMembers (auditRecord workflowName stepIndex commandName status
          (formatUtc (o.clock 0)) snapshot)) with
      | error e =>
        simp only [EStateM.run_bind, EStateM.run_modify, EStateM.run_get, nextIo, utcTimestamp,
          EStateM.run_modifyGet, hm, ho, Bool.not_true, Bool.false_eq_true, if_false, setFile, hd,
          run_ofExcept_error]
        exact .unserialised e _ hopened ⟨rfl, rfl⟩ rfl rfl
      | ok text =>
        cases hr : (o.io 0).rename with
        | some reason =>
          simp only [EStateM.run_bind, EStateM.run_modify, EStateM.run_get, nextIo, utcTimestamp,
            EStateM.run_modifyGet, hm, ho, Bool.not_true, Bool.false_eq_true, if_false, setFile, hd,
            run_ofExcept_ok, hr, logMessage, Obs.logged]
          exact .notRenamed text _ hopened ⟨rfl, rfl⟩ rfl (by simp [hr]) rfl ⟨_, rfl⟩
        | none =>
          simp only [EStateM.run_bind, EStateM.run_modify, EStateM.run_get, nextIo, utcTimestamp,
            EStateM.run_modifyGet, hm, ho, Bool.not_true, Bool.false_eq_true, if_false, setFile, hd,
            run_ofExcept_ok, hr, renameFile, logMessage, Obs.logged]
          exact .renamed text _ hopened ⟨rfl, rfl⟩ rfl hr rfl ⟨_, rfl⟩

/-! ### Atomic replacement -/

/- The target is replaced as a whole or not at all, and apart from the temporary
file nothing else changes. -/
structure ReplacedAtomically (temporary target text : Str) (before after : SortedMap Str Str) :
    Prop where
  whole : after.find? target = before.find? target ∨ after.find? target = some text
  others : ∀ path, path ≠ target → path ≠ temporary → after.find? path = before.find? path

def WritesAtomically (workflowName : Str) (stepIndex : ℕ) (commandName status : Str)
    (snapshot : Json) (text : Str) (o : Obs) : Prop :=
  ∃ o', (writeAuditSnapshot workflowName stepIndex commandName status snapshot).run o = .ok () o' ∧
    ReplacedAtomically (o.temporaryPath workflowName stepIndex commandName status)
      (o.targetPath workflowName stepIndex commandName status) text o.files o'.files

/- The write is atomic exactly when no fragment is published. -/
theorem writesAtomically_iff (workflowName : Str) (stepIndex : ℕ) (commandName status : Str)
    (snapshot : Json) (o : Obs) {text : Str}
    (htext : dump (.ofMembers (auditRecord workflowName stepIndex commandName status
      (formatUtc (o.clock 0)) snapshot)) = .ok text) :
    WritesAtomically workflowName stepIndex commandName status snapshot text o ↔
      ¬ (o.io 0).PublishesFragment text
        (o.files.find? (o.targetPath workflowName stepIndex commandName status)) := by
  have hwritten := writeAuditSnapshot_written workflowName stepIndex commandName status snapshot o
  rw [htext] at hwritten
  have hne := targetPath_ne_temporaryPath o workflowName stepIndex commandName status
  obtain ⟨o', hrun, hnew, hold⟩ := written_target hne hwritten
  constructor
  · intro ⟨o'', hrun', hatomic⟩ ⟨hpublishes, k, hk, hcut, hheld⟩
    rw [hrun] at hrun'
    obtain ⟨_, rfl⟩ := EStateM.Result.ok.inj hrun'
    have hfragment := hnew hpublishes
    rw [IoOutcome.taken_of_written hcut] at hfragment
    cases hatomic.whole with
    | inl hsame => exact hheld (hsame ▸ hfragment)
    | inr hwhole =>
      rw [hwhole, Option.some.injEq] at hfragment
      have hlen := congrArg List.length hfragment
      rw [List.length_take] at hlen
      omega
  · intro hnot
    refine ⟨o', hrun, ?_, ?_⟩
    · by_cases hpublishes : (o.io 0).Publishes
      · by_cases hcut : (o.io 0).CutsShort text
        · -- the fragment is published, so the target held it already
          left
          obtain ⟨k, hk, hcut⟩ := hcut
          have hheld : o.files.find? (o.targetPath workflowName stepIndex commandName status)
              = some (text.take k) := by
            by_contra hheld
            exact hnot ⟨hpublishes, k, hk, hcut, hheld⟩
          rw [hnew hpublishes, IoOutcome.taken_of_written hcut, hheld]
        · right
          rw [hnew hpublishes, (IoOutcome.taken_eq_iff _ _).mpr hcut]
      · left
        exact hold hpublishes
    · intro path htarget htemporary
      have hother := written_others hwritten htarget htemporary
      rw [hrun] at hother
      exact hother

end

/- The disk is full after the first byte. -/
def fullDisk : Obs := { mockObs with io := fun _ => ⟨none, true, some 1, none⟩ }

/- The record the writer makes of an empty snapshot. -/
def mockRecord : Json :=
  .ofMembers (auditRecord (lit "mock") 0 (lit "Pass") (lit "pre") (formatUtc (fullDisk.clock 0))
    (.ofMembers ∅))

theorem writesAtomically_iff_mock :
    letI := mockFloatText
    ∃ text, dump mockRecord = .ok text ∧
      (WritesAtomically (lit "mock") 0 (lit "Pass") (lit "pre") (.ofMembers ∅) text fullDisk ↔
        ¬ (fullDisk.io 0).PublishesFragment text
          (fullDisk.files.find? (fullDisk.targetPath (lit "mock") 0 (lit "Pass") (lit "pre")))) := by
  let _ := mockFloatText
  have hdump : dump mockRecord = .ok _ := rfl
  exact ⟨_, hdump, writesAtomically_iff (lit "mock") 0 (lit "Pass") (lit "pre") (.ofMembers ∅) fullDisk
    hdump⟩

/- The opening brace alone takes the place of the missing file. -/
theorem write_is_not_atomic :
    letI := mockFloatText
    ∃ text, dump mockRecord = .ok text ∧
      ¬ WritesAtomically (lit "mock") 0 (lit "Pass") (lit "pre") (.ofMembers ∅) text fullDisk := by
  let _ := mockFloatText
  obtain ⟨text, hdump, hlen⟩ : ∃ text, dump mockRecord = .ok text ∧ 1 < text.length :=
    ⟨_, rfl, by decide +kernel⟩
  refine ⟨text, hdump, ?_⟩
  intro ⟨o', hrun, hatomic⟩
  have hwritten := writeAuditSnapshot_written (lit "mock") 0 (lit "Pass") (lit "pre") (.ofMembers ∅)
    fullDisk
  have hrecord : dump (.ofMembers (auditRecord (lit "mock") 0 (lit "Pass") (lit "pre")
      (formatUtc (fullDisk.clock 0)) (.ofMembers ∅))) = .ok text := hdump
  rw [hrecord, hrun] at hwritten
  obtain ⟨o'', hrun', hnew, _⟩ := written_target (targetPath_ne_temporaryPath _ _ _ _ _) hwritten
  obtain ⟨_, rfl⟩ := EStateM.Result.ok.inj hrun'
  have hbrace := hnew ⟨by simp [IoOutcome.FailsEarly, fullDisk], rfl⟩
  rw [IoOutcome.taken_of_written (k := 1) rfl] at hbrace
  cases hatomic.whole with
  | inl hsame =>
    rw [hbrace] at hsame
    cases hsame
  | inr hwhole =>
    rw [hbrace, Option.some.injEq] at hwhole
    have hshort := congrArg List.length hwhole
    rw [List.length_take] at hshort
    omega

end Workflow
