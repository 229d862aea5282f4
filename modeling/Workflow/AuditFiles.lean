import Workflow.SnapshotFailure

/-!
# What is in the audit directory

Whatever the file system refuses, each snapshot of a run leaves its file, its
temporary file or nothing, as the answers to it say, and the file holds the
whole record (`filed_execute`).
-/

namespace Workflow
open Observe

variable {W : Type}

/- The stream was opened and the file could not be renamed. -/
def IoOutcome.LeavesTemporary (io : IoOutcome) : Prop := ¬ io.FailsEarly ∧ io.rename ≠ none

/- A file that is good under the condition, and none otherwise. -/
def HeldIf (condition : Prop) (good : Str → Prop) (file : Option Str) : Prop :=
  (condition → ∃ text, file = some text ∧ good text) ∧ (¬ condition → file = none)

theorem isSome_of_heldIf {condition : Prop} {good : Str → Prop} {file : Option Str}
    (h : HeldIf condition good file) : (∃ text, file = some text) ↔ condition := by
  constructor
  · intro ⟨text, htext⟩
    by_contra hnot
    rw [h.2 hnot] at htext
    cases htext
  · intro hcondition
    obtain ⟨text, htext, -⟩ := h.1 hcondition
    exact ⟨text, htext⟩

theorem good_of_heldIf {condition : Prop} {good : Str → Prop} {text : Str}
    (h : HeldIf condition good (some text)) : good text := by
  have hcondition := (isSome_of_heldIf h).mp ⟨text, rfl⟩
  obtain ⟨text', htext, hgood⟩ := h.1 hcondition
  exact Option.some.inj htext ▸ hgood

/-! ### One snapshot -/

/- A call that returns leaves its two files as the answer to it says. -/
theorem heldIf_written {o o' : Obs} {temporary target : Str} {dumped : Except Exn Str} {u : Unit}
    (hne : target ≠ temporary) (hwhole : (o.io 0).written = none)
    (htarget : o.files.find? target = none) (htemporary : o.files.find? temporary = none)
    (h : Written o temporary target dumped (.ok u o')) :
    HeldIf (o.io 0).Publishes (fun text => dumped = .ok text) (o'.files.find? target) ∧
      HeldIf (o.io 0).LeavesTemporary (fun text => dumped = .ok text)
        (o'.files.find? temporary) := by
  have htaken : ∀ text, (o.io 0).taken text = text := by
    intro text
    unfold IoOutcome.taken
    rw [hwhole]
    rfl
  cases h with
  | gaveUp o' early called files warned =>
    rw [files, htarget, htemporary]
    exact ⟨⟨fun hio => absurd early hio.1, fun _ => rfl⟩, ⟨fun hio => absurd early hio.1, fun _ => rfl⟩⟩
  | notRenamed text o' opened called dump rename files warned =>
    rw [htaken] at files
    rw [files, staged_other _ hne, htarget]
    refine ⟨⟨fun hio => absurd hio.2 rename, fun _ => rfl⟩, ?_, fun hnot => absurd ⟨opened, rename⟩ hnot⟩
    intro _
    exact ⟨text, SortedMap.find?_insert_self _ _ _, dump⟩
  | renamed text o' opened called dump rename files noted =>
    rw [htaken] at files
    rw [files, published_target, published_temporary _ hne]
    refine ⟨⟨fun _ => ⟨text, rfl, dump⟩, fun hnot => absurd ⟨opened, rename⟩ hnot⟩, ?_, fun _ => rfl⟩
    intro hio
    exact absurd rename hio.2

theorem path_eq_of_temporaryPath {dir workflowName : Str} {x y : Snapshot}
    (h : x.temporaryPath dir workflowName = y.temporaryPath dir workflowName) :
    x.path dir workflowName = y.path dir workflowName := by
  have hnames := joinPath_inj (temporaryName_relative _) (temporaryName_relative _) h
  unfold temporaryName at hnames
  rw [List.append_left_inj, List.append_right_inj] at hnames
  unfold Snapshot.path
  rw [hnames]

theorem getElem?_concat_cases {α : Type} {l : List α} {x y : α} {n : ℕ}
    (h : (l ++ [x])[n]? = some y) : l[n]? = some y ∨ (n = l.length ∧ y = x) := by
  rcases Nat.lt_trichotomy n l.length with hlt | heq | hgt
  · left
    rw [List.getElem?_append_left hlt] at h
    exact h
  · right
    subst heq
    rw [List.getElem?_concat_length, Option.some.injEq] at h
    exact ⟨rfl, h.symm⟩
  · have hbound := (List.getElem?_eq_some_iff.mp h).1
    rw [List.length_append, List.length_singleton] at hbound
    omega

section
variable [FloatText]

/- The whole record of the snapshot, built and written at some time. -/
def Snapshot.WrittenAs (workflowName : Str) (x : Snapshot) (text : Str) : Prop :=
  ∃ built written, dump (x.record workflowName built written) = .ok text

theorem saveSnapshot_files {workflowName : Str} {x : Snapshot} {o o' : Obs} {u : Unit}
    (hwhole : (o.io 0).written = none)
    (htarget : o.files.find? (o.targetPath workflowName x.step x.command x.status) = none)
    (htemporary : o.files.find? (o.temporaryPath workflowName x.step x.command x.status) = none)
    (hrun : (saveSnapshot workflowName x.step x.command x.status x.packet x.bus x.members).run o
      = .ok u o') :
    HeldIf (o.io 0).Publishes (x.WrittenAs workflowName)
        (o'.files.find? (o.targetPath workflowName x.step x.command x.status)) ∧
      HeldIf (o.io 0).LeavesTemporary (x.WrittenAs workflowName)
        (o'.files.find? (o.temporaryPath workflowName x.step x.command x.status)) := by
  have hwritten := saveSnapshot_written workflowName x o
  rw [hrun] at hwritten
  obtain ⟨hfile, hleft⟩ := heldIf_written (targetPath_ne_temporaryPath _ _ _ _ _) hwhole htarget
    htemporary hwritten
  constructor
  · refine ⟨fun hio => ?_, hfile.2⟩
    obtain ⟨text, htext, hdump⟩ := hfile.1 hio
    exact ⟨text, htext, _, _, hdump⟩
  · refine ⟨fun hio => ?_, hleft.2⟩
    obtain ⟨text, htext, hdump⟩ := hleft.1 hio
    exact ⟨text, htext, _, _, hdump⟩

theorem saveSnapshot_others {workflowName : Str} {x : Snapshot} {o o' : Obs} {u : Unit} {path : Str}
    (htarget : path ≠ o.targetPath workflowName x.step x.command x.status)
    (htemporary : path ≠ o.temporaryPath workflowName x.step x.command x.status)
    (hrun : (saveSnapshot workflowName x.step x.command x.status x.packet x.bus x.members).run o
      = .ok u o') : o'.files.find? path = o.files.find? path := by
  have hwritten := saveSnapshot_written workflowName x o
  rw [hrun] at hwritten
  exact written_others hwritten htarget htemporary

/-! ### The snapshots of a run -/

/- The directory holds what the answers let the snapshots leave, and nothing else. -/
structure Filed (dir workflowName : Str) (io : ℕ → IoOutcome) (written : List Snapshot) (o : Obs) :
    Prop where
  answers : o.io = fun n => io (written.length + n)
  directory : effectiveAuditDir o.auditDir = dir
  target : ∀ n x, written[n]? = some x → HeldIf (io n).Publishes (x.WrittenAs workflowName)
    (o.files.find? (x.path dir workflowName))
  temporary : ∀ n x, written[n]? = some x → HeldIf (io n).LeavesTemporary (x.WrittenAs workflowName)
    (o.files.find? (x.temporaryPath dir workflowName))
  only : ∀ path, InDirectory dir path →
    (∀ x ∈ written, path ≠ x.path dir workflowName ∧ path ≠ x.temporaryPath dir workflowName) →
    o.files.find? path = none

theorem filed_saveSnapshot {dir workflowName : Str} {io : ℕ → IoOutcome} {written : List Snapshot}
    {o o' : Obs} {u : Unit} (h : Filed dir workflowName io written o)
    (hwhole : ∀ n, (io n).written = none) {x : Snapshot} (hstatus : x.status ∈ statuses)
    (hfresh : x.path dir workflowName ∉ written.map (Snapshot.path dir workflowName))
    (hrun : (saveSnapshot workflowName x.step x.command x.status x.packet x.bus x.members).run o
      = .ok u o') : Filed dir workflowName io (written ++ [x]) o' := by
  have htarget : o.targetPath workflowName x.step x.command x.status = x.path dir workflowName := by
    unfold Obs.targetPath
    rw [h.directory]
    rfl
  have htemporary : o.temporaryPath workflowName x.step x.command x.status
      = x.temporaryPath dir workflowName := by
    unfold Obs.temporaryPath
    rw [h.directory]
    rfl
  have hdistinct : ∀ y ∈ written, x.path dir workflowName ≠ y.path dir workflowName := by
    intro y hy heq
    exact hfresh (heq ▸ List.mem_map_of_mem hy)
  have hnone : o.files.find? (x.path dir workflowName) = none ∧
      o.files.find? (x.temporaryPath dir workflowName) = none := by
    constructor
    · apply h.only _ (inDirectory_target dir workflowName x.step x.command hstatus)
      intro y hy
      exact ⟨hdistinct y hy, Snapshot.path_ne_temporaryPath _ _ _ _⟩
    · apply h.only _ (inDirectory_temporary dir workflowName x.step x.command hstatus)
      intro y hy
      exact ⟨(Snapshot.path_ne_temporaryPath _ _ _ _).symm,
        fun heq => hdistinct y hy (path_eq_of_temporaryPath heq)⟩
  have hanswer : o.io 0 = io written.length := by
    rw [h.answers]
    rfl
  have hwritten := saveSnapshot_written workflowName x o
  rw [hrun] at hwritten
  have hcalled := written_called hwritten
  obtain ⟨hfile, hleft⟩ := saveSnapshot_files (by rw [hanswer, hwhole]) (htarget ▸ hnone.1)
    (htemporary ▸ hnone.2) hrun
  rw [htarget, hanswer] at hfile
  rw [htemporary, hanswer] at hleft
  have hother : ∀ path, path ≠ x.path dir workflowName → path ≠ x.temporaryPath dir workflowName →
      o'.files.find? path = o.files.find? path := by
    intro path hpath htmp
    exact saveSnapshot_others (htarget ▸ hpath) (htemporary ▸ htmp) hrun
  constructor
  case answers =>
    have hio : o'.io = fun n => o.io (n + 1) := hcalled.io
    rw [hio, h.answers, List.length_append, List.length_singleton]
    funext n
    rw [Nat.add_assoc, Nat.add_comm 1 n]
  case directory =>
    have hdirectory : o'.auditDir = effectiveAuditDir o.auditDir := hcalled.directory
    rw [hdirectory, h.directory]
    exact effectiveAuditDir_idem h.directory
  case target =>
    intro n y hy
    rcases getElem?_concat_cases hy with hold | ⟨rfl, rfl⟩
    · rw [hother _ (hdistinct y (List.mem_of_getElem? hold)).symm
        (Snapshot.path_ne_temporaryPath _ _ _ _)]
      exact h.target n y hold
    · exact hfile
  case temporary =>
    intro n y hy
    rcases getElem?_concat_cases hy with hold | ⟨rfl, rfl⟩
    · have hne := hdistinct y (List.mem_of_getElem? hold)
      rw [hother _ (Snapshot.path_ne_temporaryPath _ _ _ _).symm
        fun heq => hne (path_eq_of_temporaryPath heq).symm]
      exact h.temporary n y hold
    · exact hleft
  case only =>
    intro path hin hnot
    have hx := hnot x (List.mem_append_right _ List.mem_cons_self)
    rw [hother path hx.1 hx.2]
    exact h.only path hin fun y hy => hnot y (List.mem_append_left _ hy)

theorem trailInvariant_filed (dir workflowName : Str) {io : ℕ → IoOutcome}
    (hwhole : ∀ n, (io n).written = none) (expected : List Snapshot) (escapes : Prop) :
    TrailInvariant workflowName expected escapes (fun written o =>
      (written.map (Snapshot.path dir workflowName)).Nodup → Filed dir workflowName io written o)
      (fun _ => True) where
  log _ _ _ h hnodup := ⟨(h hnodup).answers, (h hnodup).directory, (h hnodup).target,
    (h hnodup).temporary, (h hnodup).only⟩
  save written x _ hstatus _ := by
    intro o ho
    cases hrun : (saveSnapshot workflowName x.step x.command x.status x.packet x.bus x.members).run o with
    | ok u o' =>
      intro hnodup
      rw [List.map_append, List.nodup_append] at hnodup
      refine filed_saveSnapshot (ho hnodup.1) hwhole hstatus ?_ hrun
      intro hmem
      exact hnodup.2.2 _ hmem _ List.mem_cons_self rfl
    | error e o' =>
      trivial
  escape _ _ _ := trivial

/- The audit files of any run whose snapshots serialise, also when it ends early. -/
theorem filed_execute {registry : Registry W} {config : WorkflowDefinition} {initial : DataPacket}
    {s : State W} {p : Progress W}
    (hp : p = referenceFold registry config.onError config.pipeline initial s.core.world)
    (haudit : config.audit = true) (hwhole : ∀ n, (s.obs.io n).written = none)
    (hempty : ∀ path, InDirectory (effectiveAuditDir s.obs.auditDir) path →
      s.obs.files.find? path = none)
    (hvalid : SnapshotsSerialise config p.core.calls) :
    Filed (effectiveAuditDir s.obs.auditDir) config.name s.obs.io (trail config.onError p.core.calls)
      (stateOf ((execute registry config initial).run s)).obs := by
  have hcovers := referenceFold_covers registry config.onError config.pipeline initial s.core.world
  rw [← hp] at hcovers
  have hstart : Filed (effectiveAuditDir s.obs.auditDir) config.name s.obs.io [] s.obs := by
    refine ⟨?_, rfl, ?_, ?_, fun path hin _ => hempty path hin⟩
    · funext n
      rw [List.length_nil, Nat.zero_add]
    · intro n x hx
      cases hx
    · intro n x hx
      cases hx
  refine ended_execute haudit hp hvalid (trailInvariant_filed _ _ hwhole _ _) (fun _ => hstart) ?_
  apply trail_path_nodup
  rw [hcovers.steps]
  exact List.nodup_range

end

end Workflow
