import Workflow.AuditDirectory

/-!
# Audit files of different workflows

`sanitize_filename` maps many names to one, and a workflow name may end in what
looks like the step of another. Apart from these two cases workflows do not
share files (`snapshotFilename_apart_iff`), and their runs leave each other's
snapshots alone (`audit_files_apart`).
-/

namespace Workflow
open Observe

variable {W : Type}

/-! ### Names that share a file -/

/- What follows a step number: nothing, or an underscore and more text. -/
def EndsStep (rest : Str) : Prop := rest = [] ∨ ∃ more, rest = 95 :: more

/- `longer` is `shorter` followed by a step. -/
def StepExtends (shorter longer : Str) : Prop :=
  ∃ k rest, EndsStep rest ∧ longer = shorter ++ (lit "_step" ++ natToString (k + 1) ++ rest)

def SharesFiles (name name' : Str) : Prop :=
  sanitizeFilename name = sanitizeFilename name' ∨
    StepExtends (sanitizeFilename name) (sanitizeFilename name') ∨
    StepExtends (sanitizeFilename name') (sanitizeFilename name)

theorem sharesFiles_comm {name name' : Str} (h : SharesFiles name name') : SharesFiles name' name := by
  unfold SharesFiles at h ⊢
  rcases h with hsame | hextends | hextends
  · exact Or.inl hsame.symm
  · exact Or.inr (Or.inr hextends)
  · exact Or.inr (Or.inl hextends)

/- What follows the workflow in a file name. -/
def snapshotSuffix (stepIndex : ℕ) (commandName status : Str) : Str :=
  lit "_step" ++ natToString (stepIndex + 1) ++
    95 :: (sanitizeFilename commandName ++ lit "_" ++ status ++ lit ".json")

theorem snapshotFilename_eq_suffix (workflowName : Str) (stepIndex : ℕ) (commandName status : Str) :
    snapshotFilename workflowName stepIndex commandName status
      = sanitizeFilename workflowName ++ snapshotSuffix stepIndex commandName status := by
  rw [snapshotFilename_eq]
  unfold snapshotSuffix natToString
  rw [List.append_assoc, List.append_assoc (lit "_step")]

/- Neither the letters nor the digits of a step are underscores. -/
theorem not_mem_step (k : ℕ) : (95 : Byte) ∉ lit "step" ++ natToString (k + 1) := by
  intro h
  cases List.mem_append.mp h with
  | inl hletter => exact absurd hletter (by decide)
  | inr hdigit =>
    have hrange := Decimal.render_isDigit (k + 1) 95 hdigit
    unfold Decimal.IsDigit at hrange
    revert hrange
    decide

/- A text between two suffixes is empty or a step. -/
theorem between_suffixes {i j : ℕ} {command command' status status' between : Str}
    (h : snapshotSuffix i command status = between ++ snapshotSuffix j command' status') :
    between = [] ∨ ∃ rest, EndsStep rest ∧ between = lit "_step" ++ natToString (i + 1) ++ rest := by
  have hhead : ∃ more, snapshotSuffix j command' status' = 95 :: more := ⟨_, rfl⟩
  obtain ⟨more, hmore⟩ := hhead
  rw [hmore] at h
  unfold snapshotSuffix at h
  rcases List.append_eq_append_iff.mp h with ⟨rest, hbetween, htail⟩ | ⟨left, hstep, htail⟩
  · right
    refine ⟨rest, ?_, hbetween⟩
    cases rest with
    | nil => exact Or.inl rfl
    | cons b rest => exact Or.inr ⟨rest, by rw [(List.cons.inj htail).1]⟩
  · cases left with
    | nil =>
      rw [List.append_nil] at hstep
      exact Or.inr ⟨[], Or.inl rfl, by rw [List.append_nil, hstep]⟩
    | cons b left =>
      -- the step is cut in front of an underscore, which it has at its start alone
      obtain rfl : b = 95 := (List.cons.inj htail).1.symm
      left
      cases between with
      | nil => rfl
      | cons c between =>
        have hcut : lit "step" ++ natToString (i + 1) = between ++ 95 :: left := (List.cons.inj hstep).2
        exact absurd (hcut ▸ List.mem_append_right _ List.mem_cons_self) (not_mem_step i)

/- A part of a sanitised name is sanitised. -/
theorem sanitizeFilename_of_append {name left right : Str}
    (h : sanitizeFilename name = left ++ right) : sanitizeFilename right = right := by
  have hidem := sanitizeFilename_idem name
  rw [h, sanitizeFilename_append] at hidem
  exact (List.append_inj hidem (sanitizeFilename_length left)).2

/- A name that goes on with a step of another shares a file with it. -/
theorem suffix_of_step (k : ℕ) {rest : Str} (hrest : EndsStep rest)
    (hsafe : sanitizeFilename rest = rest) (status : Str) :
    ∃ command, snapshotSuffix k command status
      = lit "_step" ++ natToString (k + 1) ++ rest ++ snapshotSuffix 0 (lit "c") status := by
  have hfirst : snapshotSuffix 0 (lit "c") status
      = lit "_step1_c" ++ (lit "_" ++ status ++ lit ".json") := rfl
  obtain ⟨command, hcommand, hsame⟩ : ∃ command, rest ++ lit "_step1_c" = 95 :: command ∧
      sanitizeFilename command = command := by
    rcases hrest with rfl | ⟨more, rfl⟩
    · exact ⟨lit "step1_c", rfl, by decide⟩
    · refine ⟨more ++ lit "_step1_c", rfl, ?_⟩
      have hmore : sanitizeFilename more = more := (List.cons.inj hsafe).2
      rw [sanitizeFilename_append, hmore]
      exact congrArg _ (by decide)
  refine ⟨command, ?_⟩
  rw [hfirst]
  unfold snapshotSuffix
  rw [hsame, List.append_assoc _ rest, ← List.append_assoc rest, hcommand, List.append_assoc command,
    List.append_assoc command, List.cons_append]

theorem shared_of_stepExtends {name name' : Str}
    (h : StepExtends (sanitizeFilename name) (sanitizeFilename name')) (status : Str) :
    ∃ k command, snapshotFilename name k command status = snapshotFilename name' 0 (lit "c") status := by
  obtain ⟨k, rest, hrest, hname'⟩ := h
  have hsafe : sanitizeFilename rest = rest := by
    rw [← List.append_assoc] at hname'
    exact sanitizeFilename_of_append hname'
  obtain ⟨command, hsuffix⟩ := suffix_of_step k hrest hsafe status
  refine ⟨k, command, ?_⟩
  rw [snapshotFilename_eq_suffix, snapshotFilename_eq_suffix, hsuffix, hname',
    List.append_assoc (sanitizeFilename name)]

theorem sharesFiles_of_eq {name name' command command' status status' : Str} {i j : ℕ}
    (h : snapshotFilename name i command status = snapshotFilename name' j command' status') :
    SharesFiles name name' := by
  rw [snapshotFilename_eq_suffix, snapshotFilename_eq_suffix] at h
  rcases List.append_eq_append_iff.mp h with ⟨between, hname, hsuffix⟩ | ⟨between, hname, hsuffix⟩
  · rcases between_suffixes hsuffix with rfl | ⟨rest, hrest, rfl⟩
    · exact Or.inl (by rw [hname, List.append_nil])
    · exact Or.inr (Or.inl ⟨i, rest, hrest, hname⟩)
  · rcases between_suffixes hsuffix with rfl | ⟨rest, hrest, rfl⟩
    · exact Or.inl (by rw [hname, List.append_nil])
    · exact Or.inr (Or.inr ⟨j, rest, hrest, hname⟩)

theorem eq_of_sharesFiles {name name' : Str} (h : SharesFiles name name') (status : Str) :
    ∃ i j command command',
      snapshotFilename name i command status = snapshotFilename name' j command' status := by
  rcases h with hsame | hextends | hextends
  · refine ⟨0, 0, [], [], ?_⟩
    rw [snapshotFilename_eq_suffix, snapshotFilename_eq_suffix, hsame]
  · obtain ⟨k, command, heq⟩ := shared_of_stepExtends hextends status
    exact ⟨k, 0, command, _, heq⟩
  · obtain ⟨k, command, heq⟩ := shared_of_stepExtends hextends status
    exact ⟨0, k, _, command, heq.symm⟩

/- The two kinds of names that share a file, and no others do. -/
theorem snapshotFilename_apart_iff (name name' : Str) :
    (∀ i j command command' status status', status ∈ statuses → status' ∈ statuses →
      snapshotFilename name i command status ≠ snapshotFilename name' j command' status') ↔
      ¬ SharesFiles name name' := by
  constructor
  · intro hapart hshares
    obtain ⟨i, j, command, command', heq⟩ := eq_of_sharesFiles hshares (lit "pre")
    exact hapart i j command command' _ _ (by decide) (by decide) heq
  · intro hnot i j command command' status status' _ _ heq
    exact hnot (sharesFiles_of_eq heq)

/-! ### Runs into one directory -/

section
variable [FloatText]

/- A run of one workflow; which files it finds is left to the history. -/
structure AuditedRun (W : Type) where
  registry : Registry W
  config : WorkflowDefinition
  initial : DataPacket
  start : State W
  audited : config.audit = true

namespace AuditedRun

def directory (run : AuditedRun W) : Str := effectiveAuditDir run.start.obs.auditDir

/- The files after the run, however it ends. -/
def leaves (run : AuditedRun W) (files : SortedMap Str Str) : SortedMap Str Str :=
  (stateOf ((execute run.registry run.config run.initial).run
    { run.start with obs := { run.start.obs with files := files } })).obs.files

end AuditedRun

/- A run leaves the snapshots of workflows alone whose names share no file with its own. -/
theorem run_leaves_target {run : AuditedRun W} {name : Str} (h : ¬ SharesFiles run.config.name name)
    (files : SortedMap Str Str) (i : ℕ) (command status : Str) :
    (run.leaves files).find? (joinPath run.directory (snapshotFilename name i command status))
      = files.find? (joinPath run.directory (snapshotFilename name i command status)) := by
  apply execute_leaves_foreign run.registry run.audited
  intro j command' status' _
  constructor
  · intro heq
    have hname := joinPath_inj (snapshotFilename_relative _ _ _ _) (snapshotFilename_relative _ _ _ _) heq
    exact h (sharesFiles_comm (sharesFiles_of_eq hname))
  · exact target_ne_temporary _ _ _ _ _ _ _ _ _

/- The files after several runs, each of which finds what the one before it left. -/
def filesAfter (runs : List (AuditedRun W)) (files : SortedMap Str Str) : SortedMap Str Str :=
  runs.foldl (fun files run => run.leaves files) files

theorem filesAfter_target {dir name : Str} {runs : List (AuditedRun W)}
    (hruns : ∀ run ∈ runs, run.directory = dir ∧ ¬ SharesFiles run.config.name name)
    (files : SortedMap Str Str) (i : ℕ) (command status : Str) :
    (filesAfter runs files).find? (joinPath dir (snapshotFilename name i command status))
      = files.find? (joinPath dir (snapshotFilename name i command status)) := by
  induction runs generalizing files with
  | nil => rfl
  | cons run rest ih =>
    obtain ⟨hdir, hapart⟩ := hruns run List.mem_cons_self
    have hrest := ih (fun run hrun => hruns run (List.mem_cons_of_mem _ hrun)) (run.leaves files)
    have hfirst := run_leaves_target hapart files i command status
    rw [hdir] at hfirst
    exact hrest.trans hfirst

/- Two workflows have no file name in common exactly when their names share no
file. In a history of workflows that pairwise share none, no earlier run touches
the snapshots of a run, and no later one does. -/
theorem audit_files_apart (name name' dir : Str) (runs : List (AuditedRun W))
    (files : SortedMap Str Str) (hdir : ∀ run ∈ runs, run.directory = dir)
    (hapart : runs.Pairwise fun run run' => ¬ SharesFiles run.config.name run'.config.name) :
    ((∀ i j command command' status status', status ∈ statuses → status' ∈ statuses →
      snapshotFilename name i command status ≠ snapshotFilename name' j command' status') ↔
      ¬ SharesFiles name name') ∧
    ∀ before run after, runs = before ++ run :: after → ∀ i command, ∀ status ∈ statuses,
      (filesAfter before files).find?
          (joinPath dir (snapshotFilename run.config.name i command status))
        = files.find? (joinPath dir (snapshotFilename run.config.name i command status)) ∧
      (filesAfter runs files).find?
          (joinPath dir (snapshotFilename run.config.name i command status))
        = (filesAfter (before ++ [run]) files).find?
            (joinPath dir (snapshotFilename run.config.name i command status)) := by
  refine ⟨snapshotFilename_apart_iff name name', ?_⟩
  intro before run after hruns i command status _
  subst hruns
  rw [List.pairwise_append, List.pairwise_cons] at hapart
  obtain ⟨_, ⟨hafter, _⟩, hbefore⟩ := hapart
  have hearlier : ∀ other ∈ before, other.directory = dir ∧
      ¬ SharesFiles other.config.name run.config.name := by
    intro other hother
    exact ⟨hdir other (List.mem_append_left _ hother), hbefore other hother run List.mem_cons_self⟩
  have hlater : ∀ other ∈ after, other.directory = dir ∧
      ¬ SharesFiles other.config.name run.config.name := by
    intro other hother
    refine ⟨hdir other (List.mem_append_right _ (List.mem_cons_of_mem _ hother)), ?_⟩
    intro hshares
    exact hafter other hother (sharesFiles_comm hshares)
  refine ⟨filesAfter_target hearlier files i command status, ?_⟩
  have hsplit : filesAfter (before ++ run :: after) files
      = filesAfter after (filesAfter (before ++ [run]) files) := by
    unfold filesAfter
    rw [List.append_cons, List.foldl_append]
  rw [hsplit]
  exact filesAfter_target hlater _ i command status

end

/- Runs of two workflows with nothing in common but the directory. -/
def mockRun (name : String) : AuditedRun Unit :=
  ⟨mockRegistry, { mockConfig .HALT true ["Pass"] with name := lit name }, .empty, mockState, rfl⟩

theorem not_sharesFiles_mock : ¬ SharesFiles (lit "intake") (lit "report") := by
  have hintake : sanitizeFilename (lit "intake") = lit "intake" := by decide
  have hreport : sanitizeFilename (lit "report") = lit "report" := by decide
  unfold SharesFiles StepExtends
  rw [hintake, hreport]
  intro h
  rcases h with hsame | ⟨k, rest, _, hextends⟩ | ⟨k, rest, _, hextends⟩
  · exact absurd hsame (by decide)
  · cases (List.cons.inj hextends).1
  · cases (List.cons.inj hextends).1

theorem audit_files_apart_mock :
    letI := mockFloatText
    ((∀ i j command command' status status', status ∈ statuses → status' ∈ statuses →
      snapshotFilename (lit "intake") i command status
        ≠ snapshotFilename (lit "report") j command' status') ↔
      ¬ SharesFiles (lit "intake") (lit "report")) ∧
    ∀ before run after, [mockRun "intake", mockRun "report"] = before ++ run :: after →
      ∀ i command, ∀ status ∈ statuses,
      (filesAfter before ∅).find?
          (joinPath (lit "logs/audit") (snapshotFilename run.config.name i command status))
        = (∅ : SortedMap Str Str).find?
            (joinPath (lit "logs/audit") (snapshotFilename run.config.name i command status)) ∧
      (filesAfter [mockRun "intake", mockRun "report"] ∅).find?
          (joinPath (lit "logs/audit") (snapshotFilename run.config.name i command status))
        = (filesAfter (before ++ [run]) ∅).find?
            (joinPath (lit "logs/audit") (snapshotFilename run.config.name i command status)) := by
  let _ := mockFloatText
  apply audit_files_apart
  · intro run hrun
    rcases List.mem_pair.mp hrun with rfl | rfl
    · rfl
    · rfl
  · exact List.pairwise_pair.mpr not_sharesFiles_mock

/- Two different names with one and the same file. -/
theorem audit_files_collide :
    lit "a b" ≠ lit "a_b" ∧ lit "a b" ≠ [] ∧ lit "a_b" ≠ [] ∧
      snapshotFilename (lit "a b") 0 (lit "c") (lit "pre")
        = snapshotFilename (lit "a_b") 0 (lit "c") (lit "pre") :=
  ⟨by decide, by decide, by decide, rfl⟩

end Workflow
