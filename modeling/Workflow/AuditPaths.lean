import Mathlib.Data.List.Infix
import Workflow.Audit

/-!
# The names of audit files

Inside one workflow the name of a snapshot determines its step, and for one
command also its status, whatever `sanitize_filename` collapses
(`snapshotFilename_step`, `snapshotFilename_status`). Targets and temporary
files are made of few bytes (`IsTargetName`, `IsTemporaryName`), lie directly in
the audit directory and are never confused.
-/

namespace Workflow

/- The five statuses a snapshot can have. -/
def statuses : List Str :=
  [lit "pre", lit "success", lit "exception", lit "error", lit "skipped"]

theorem valid_of_mem_statuses {status : Str} (h : status ∈ statuses) : Utf8.Valid status := by
  have hall : ∀ status ∈ statuses, Utf8.Valid status := by decide
  exact hall status h

/-! ### Sanitised names -/

/- The bytes `sanitize_filename` lets through: ASCII letters and digits, `-` and `_`. -/
def IsSafe (c : Byte) : Prop := isAlnum c = true ∨ c = 45 ∨ c = 95

instance (c : Byte) : Decidable (IsSafe c) := inferInstanceAs (Decidable (_ ∨ _ ∨ _))

theorem isSafe_of_isDigit {c : Byte} (h : Decimal.IsDigit c) : IsSafe c := by
  obtain ⟨hlow, hhigh⟩ := h
  left
  unfold isAlnum
  simp [hlow, hhigh]

theorem isSafe_of_mem_sanitizeFilename {name : Str} {c : Byte} (h : c ∈ sanitizeFilename name) :
    IsSafe c := by
  unfold sanitizeFilename at h
  obtain ⟨b, _, rfl⟩ := List.mem_map.mp h
  split_ifs with hb
  · simp only [Bool.or_eq_true, decide_eq_true_eq, or_assoc] at hb
    exact hb
  · exact Or.inr (Or.inr rfl)

theorem sanitizeFilename_append (name rest : Str) :
    sanitizeFilename (name ++ rest) = sanitizeFilename name ++ sanitizeFilename rest := by
  unfold sanitizeFilename
  rw [List.map_append]

theorem sanitizeFilename_length (name : Str) : (sanitizeFilename name).length = name.length := by
  unfold sanitizeFilename
  rw [List.length_map]

theorem sanitizeFilename_of_safe {name : Str} (h : ∀ c ∈ name, IsSafe c) :
    sanitizeFilename name = name := by
  unfold sanitizeFilename
  rw [List.map_congr_left, List.map_id]
  intro c hc
  have hsafe : (isAlnum c || decide (c = 45) || decide (c = 95)) = true := by
    simpa [IsSafe, or_assoc] using h c hc
  rw [if_pos hsafe, id]

theorem sanitizeFilename_idem (name : Str) :
    sanitizeFilename (sanitizeFilename name) = sanitizeFilename name :=
  sanitizeFilename_of_safe fun _ => isSafe_of_mem_sanitizeFilename

theorem isSafe_of_sanitized {name : Str} (h : sanitizeFilename name = name) {c : Byte}
    (hc : c ∈ name) : IsSafe c := by
  rw [← h] at hc
  exact isSafe_of_mem_sanitizeFilename hc

/-! ### What a name determines -/

theorem snapshotFilename_eq (workflowName : Str) (stepIndex : ℕ) (commandName status : Str) :
    snapshotFilename workflowName stepIndex commandName status
      = (sanitizeFilename workflowName ++ lit "_step") ++ (Decimal.render (stepIndex + 1) ++
          95 :: (sanitizeFilename commandName ++ lit "_" ++ status ++ lit ".json")) := by
  have hscore : lit "_" = [95] := rfl
  unfold snapshotFilename natToString
  rw [hscore]
  simp only [List.append_assoc, List.cons_append, List.nil_append]

/- The step number is read off the name: what follows it starts with no digit. -/
theorem snapshotFilename_step {workflowName commandName commandName' status status' : Str} {i j : ℕ}
    (h : snapshotFilename workflowName i commandName status
      = snapshotFilename workflowName j commandName' status') : i = j := by
  rw [snapshotFilename_eq, snapshotFilename_eq, List.append_cancel_left_eq] at h
  have hscore : ¬ Decimal.IsDigit 95 := by
    unfold Decimal.IsDigit
    decide
  have hnumber := (Decimal.render_append_inj hscore hscore h).1
  omega

theorem snapshotFilename_status {workflowName commandName status status' : Str} {i : ℕ}
    (h : snapshotFilename workflowName i commandName status
      = snapshotFilename workflowName i commandName status') : status = status' := by
  unfold snapshotFilename at h
  rw [List.append_left_inj, List.append_right_inj] at h
  exact h

/-! ### Bytes of a name -/

/- The name of a target without its `.json`. -/
def snapshotStem (workflowName : Str) (stepIndex : ℕ) (commandName status : Str) : Str :=
  sanitizeFilename workflowName ++ lit "_step" ++ natToString (stepIndex + 1) ++ lit "_" ++
    sanitizeFilename commandName ++ lit "_" ++ status

theorem snapshotFilename_eq_stem (workflowName : Str) (stepIndex : ℕ) (commandName status : Str) :
    snapshotFilename workflowName stepIndex commandName status
      = snapshotStem workflowName stepIndex commandName status ++ lit ".json" := rfl

theorem snapshotStem_ne_nil (workflowName : Str) (stepIndex : ℕ) (commandName status : Str) :
    snapshotStem workflowName stepIndex commandName status ≠ [] := by
  unfold snapshotStem
  simp [lit]

theorem isSafe_of_mem_snapshotStem {workflowName commandName status : Str} {stepIndex : ℕ}
    (hstatus : status ∈ statuses) {c : Byte}
    (h : c ∈ snapshotStem workflowName stepIndex commandName status) : IsSafe c := by
  have hstep : sanitizeFilename (lit "_step") = lit "_step" := rfl
  have hscore : sanitizeFilename (lit "_") = lit "_" := rfl
  have hstatuses : ∀ status ∈ statuses, sanitizeFilename status = status := by decide
  unfold snapshotStem at h
  simp only [List.mem_append, or_assoc] at h
  rcases h with hname | hlit | hdigit | hlit | hcommand | hlit | hlast
  · exact isSafe_of_mem_sanitizeFilename hname
  · exact isSafe_of_sanitized hstep hlit
  · exact isSafe_of_isDigit (Decimal.render_isDigit (stepIndex + 1) c hdigit)
  · exact isSafe_of_sanitized hscore hlit
  · exact isSafe_of_mem_sanitizeFilename hcommand
  · exact isSafe_of_sanitized hscore hlit
  · exact isSafe_of_sanitized (hstatuses status hstatus) hlast

/- A target never begins like a hidden file, nor like an absolute path. -/
theorem snapshotFilename_head (workflowName : Str) (i : ℕ) (commandName status : Str) :
    ∃ b rest, snapshotFilename workflowName i commandName status = b :: rest ∧ IsSafe b := by
  have hstep : lit "_step" = 95 :: lit "step" := rfl
  rw [snapshotFilename_eq, hstep]
  rcases hname : sanitizeFilename workflowName with - | ⟨b, rest⟩
  · exact ⟨95, _, rfl, by decide⟩
  · have hb : b ∈ sanitizeFilename workflowName := by
      rw [hname]
      exact List.mem_cons_self
    exact ⟨b, _, rfl, isSafe_of_mem_sanitizeFilename hb⟩

/- Safe bytes in front of `.json`. -/
def IsTargetName (name : Str) : Prop :=
  ∃ stem, stem ≠ [] ∧ (∀ c ∈ stem, IsSafe c) ∧ name = stem ++ lit ".json"

/- A target name between a leading `.` and `.tmp`. -/
def IsTemporaryName (name : Str) : Prop :=
  ∃ target, IsTargetName target ∧ name = lit "." ++ target ++ lit ".tmp"

theorem isTargetName_snapshotFilename (workflowName : Str) (i : ℕ) (commandName : Str) {status : Str}
    (hstatus : status ∈ statuses) : IsTargetName (snapshotFilename workflowName i commandName status) :=
  ⟨_, snapshotStem_ne_nil _ _ _ _, fun _ => isSafe_of_mem_snapshotStem hstatus,
    snapshotFilename_eq_stem _ _ _ _⟩

theorem isTemporaryName_temporaryName {filename : Str} (h : IsTargetName filename) :
    IsTemporaryName (temporaryName filename) := ⟨filename, h, rfl⟩

/- A name that stands for a file of the directory it is looked up in. -/
structure IsComponent (name : Str) : Prop where
  nonempty : name ≠ []
  notDot : name ≠ lit "."
  notDotDot : name ≠ lit ".."
  noSlash : (47 : Byte) ∉ name
  noNul : (0 : Byte) ∉ name

theorem mem_of_dotted {extension : Str} (h : sanitizeFilename extension = extension) {c : Byte}
    (hc : c ∈ 46 :: extension) : IsSafe c ∨ c = 46 := by
  cases List.mem_cons.mp hc with
  | inl hdot => exact Or.inr hdot
  | inr hend => exact Or.inl (isSafe_of_sanitized h hend)

theorem mem_of_isTargetName {name : Str} (h : IsTargetName name) {c : Byte} (hc : c ∈ name) :
    IsSafe c ∨ c = 46 := by
  obtain ⟨stem, _, hsafe, rfl⟩ := h
  cases List.mem_append.mp hc with
  | inl hstem => exact Or.inl (hsafe c hstem)
  | inr hend => exact mem_of_dotted (show sanitizeFilename (lit "json") = lit "json" from rfl) hend

/- Neither `.` nor `..` is as long as a name with an extension. -/
theorem isComponent_of_bytes {name : Str} (hlen : 2 < name.length)
    (h : ∀ c ∈ name, IsSafe c ∨ c = 46) : IsComponent name where
  nonempty := by
    rintro rfl
    simp at hlen
  notDot := by
    rintro rfl
    simp [lit] at hlen
  notDotDot := by
    rintro rfl
    simp [lit] at hlen
  noSlash hmem := absurd (h 47 hmem) (by decide)
  noNul hmem := absurd (h 0 hmem) (by decide)

theorem isComponent_of_isTargetName {name : Str} (h : IsTargetName name) : IsComponent name := by
  refine isComponent_of_bytes ?_ fun _ => mem_of_isTargetName h
  obtain ⟨stem, _, _, rfl⟩ := h
  have hjson : (lit ".json").length = 5 := rfl
  rw [List.length_append, hjson]
  omega

theorem isComponent_of_isTemporaryName {name : Str} (h : IsTemporaryName name) : IsComponent name := by
  obtain ⟨target, htarget, rfl⟩ := h
  have htmp : (lit ".tmp").length = 4 := rfl
  have htmpsafe : sanitizeFilename (lit "tmp") = lit "tmp" := rfl
  apply isComponent_of_bytes
  · rw [List.length_append, htmp]
    omega
  · intro c hc
    rw [List.mem_append, List.mem_append, or_assoc] at hc
    rcases hc with hdot | hmiddle | hend
    · exact Or.inr (List.mem_singleton.mp hdot)
    · exact mem_of_isTargetName htarget hmiddle
    · exact mem_of_dotted htmpsafe hend

/-! ### Paths in the audit directory -/

def InDirectory (dir path : Str) : Prop :=
  ∃ name, name ≠ [] ∧ (47 : Byte) ∉ name ∧ path = joinPath dir name

theorem joinPath_eq (dir : Str) :
    ∃ base, ∀ name : Str, name.head? ≠ some 47 → joinPath dir name = base ++ name := by
  by_cases hdir : dir = [] ∨ dir.getLast? = some 47
  · refine ⟨dir, fun name hname => ?_⟩
    unfold joinPath
    rw [if_neg hname, if_pos hdir]
  · refine ⟨dir ++ lit "/", fun name hname => ?_⟩
    unfold joinPath
    rw [if_neg hname, if_neg hdir]

theorem joinPath_inj {dir name name' : Str} (hname : name.head? ≠ some 47)
    (hname' : name'.head? ≠ some 47) (h : joinPath dir name = joinPath dir name') : name = name' := by
  obtain ⟨base, hbase⟩ := joinPath_eq dir
  rw [hbase name hname, hbase name' hname', List.append_cancel_left_eq] at h
  exact h

theorem snapshotFilename_relative (workflowName : Str) (i : ℕ) (commandName status : Str) :
    (snapshotFilename workflowName i commandName status).head? ≠ some 47 := by
  obtain ⟨b, rest, heq, hsafe⟩ := snapshotFilename_head workflowName i commandName status
  rw [heq, List.head?_cons, ne_eq, Option.some.injEq]
  rintro rfl
  exact absurd hsafe (by decide)

theorem temporaryName_relative (filename : Str) : (temporaryName filename).head? ≠ some 47 := by
  show some (46 : Byte) ≠ some 47
  decide

/- A target begins with a safe byte, a temporary file with a dot. -/
theorem temporaryName_ne_snapshotFilename (filename workflowName : Str) (i : ℕ)
    (commandName status : Str) :
    temporaryName filename ≠ snapshotFilename workflowName i commandName status := by
  intro h
  obtain ⟨b, rest, heq, hsafe⟩ := snapshotFilename_head workflowName i commandName status
  rw [heq] at h
  obtain rfl : (46 : Byte) = b := (List.cons.inj h).1
  exact absurd hsafe (by decide)

theorem target_ne_temporary (dir workflowName workflowName' : Str) (i j : ℕ)
    (commandName commandName' status status' : Str) :
    joinPath dir (snapshotFilename workflowName i commandName status)
      ≠ joinPath dir (temporaryName (snapshotFilename workflowName' j commandName' status')) := by
  intro h
  have hnames := joinPath_inj (snapshotFilename_relative _ _ _ _) (temporaryName_relative _) h
  exact temporaryName_ne_snapshotFilename _ _ _ _ _ hnames.symm

/- The path is a file of the directory itself. -/
def DirectlyInside (dir path : Str) : Prop := ∃ name, IsComponent name ∧ path = joinPath dir name

theorem inDirectory_of_directlyInside {dir path : Str} (h : DirectlyInside dir path) :
    InDirectory dir path := by
  obtain ⟨name, hname, rfl⟩ := h
  exact ⟨name, hname.nonempty, hname.noSlash, rfl⟩

theorem directlyInside_target (dir workflowName : Str) (i : ℕ) (commandName : Str) {status : Str}
    (hstatus : status ∈ statuses) :
    DirectlyInside dir (joinPath dir (snapshotFilename workflowName i commandName status)) :=
  ⟨_, isComponent_of_isTargetName (isTargetName_snapshotFilename _ _ _ hstatus), rfl⟩

theorem directlyInside_temporary (dir workflowName : Str) (i : ℕ) (commandName : Str) {status : Str}
    (hstatus : status ∈ statuses) :
    DirectlyInside dir
      (joinPath dir (temporaryName (snapshotFilename workflowName i commandName status))) :=
  ⟨_, isComponent_of_isTemporaryName (isTemporaryName_temporaryName
    (isTargetName_snapshotFilename _ _ _ hstatus)), rfl⟩

theorem inDirectory_target (dir workflowName : Str) (i : ℕ) (commandName : Str) {status : Str}
    (hstatus : status ∈ statuses) :
    InDirectory dir (joinPath dir (snapshotFilename workflowName i commandName status)) :=
  inDirectory_of_directlyInside (directlyInside_target dir workflowName i commandName hstatus)

theorem inDirectory_temporary (dir workflowName : Str) (i : ℕ) (commandName : Str) {status : Str}
    (hstatus : status ∈ statuses) :
    InDirectory dir
      (joinPath dir (temporaryName (snapshotFilename workflowName i commandName status))) :=
  inDirectory_of_directlyInside (directlyInside_temporary dir workflowName i commandName hstatus)

theorem effectiveAuditDir_idem {dir setting : Str} (h : effectiveAuditDir setting = dir) :
    effectiveAuditDir dir = dir := by
  subst h
  unfold effectiveAuditDir
  by_cases hempty : setting = []
  · rw [if_pos hempty, if_neg (by decide)]
  · rw [if_neg hempty, if_neg hempty]

end Workflow
