import Workflow.Json

/-!
# WorkflowSchema (WorkflowSchema.cpp)

The validator is a chain of checks; the first that fails ends it with its
message. `Access` keeps the accesses the checks make, so that each of them has
to be justified by the checks before it. `DocumentedSchema` is the grammar the
header documents, stated on its own.
-/

namespace Workflow

abbrev Check := Access (Result Unit)

namespace WorkflowSchema

/-- `if (first.is_error()) return first;` and on with the next check. -/
def thenCheck (first next : Check) : Check := do
  match ← first with
  | .ok () => next
  | .error message code => return .error message code

/-- A `for` loop over indices that returns at the first error. -/
def checkEach (check : ℕ → Check) : List ℕ → Check
  | [] => return .ok ()
  | i :: rest => thenCheck (check i) (checkEach check rest)

def checkRequiredString (j : Json) (key missing notString empty : Str) : Check := do
  if !j.contains key then
    return .error missing (-1)
  else if !(← j.member key).isString then
    return .error (notString ++ (← j.member key).typeName) (-1)
  else if (← (← j.member key).getString).isEmpty then
    return .error empty (-1)
  else
    return .ok ()

def checkOptional (j : Json) (key : Str) (kind : Json → Bool) (wrongKind : Str) : Check := do
  if j.contains key then
    if !kind (← j.member key) then
      return .error (wrongKind ++ (← j.member key).typeName) (-1)
    else
      return .ok ()
  else
    return .ok ()

def checkOnError (j : Json) : Check := do
  if j.contains (lit "on_error") then
    if !(← j.member (lit "on_error")).isString then
      return .error (lit "Schema error: 'on_error' must be a string ('halt' or 'continue'), got " ++
        (← j.member (lit "on_error")).typeName) (-1)
    else
      let val ← (← j.member (lit "on_error")).getString
      if val ≠ lit "halt" ∧ val ≠ lit "continue" then
        return .error (lit "Schema error: 'on_error' must be 'halt' or 'continue', got '" ++ val ++
          lit "'") (-1)
      else
        return .ok ()
  else
    return .ok ()

/-- The `depends_on` block (WorkflowSchema.cpp:113-127). -/
def checkDependsOn (label : Str) (entry : Json) : Check := do
  if entry.contains (lit "depends_on") then
    if !(← entry.member (lit "depends_on")).isArray then
      return .error (label ++ lit "'depends_on' must be a JSON array, got " ++
        (← entry.member (lit "depends_on")).typeName) (-1)
    else
      let deps ← entry.member (lit "depends_on")
      checkEach (fun d => do
        if !(← deps.element d).isString then
          return .error (label ++ lit "'depends_on' entries must be strings; " ++ lit "index " ++
            natToString d ++ lit " is of type " ++ (← deps.element d).typeName) (-1)
        else
          return .ok ()) (List.range deps.size)
  else
    return .ok ()

/-- WorkflowSchema.cpp:73-130. -/
def validatePipelineEntry (entry : Json) (index : ℕ) : Check :=
  let label := lit "Schema error at pipeline[" ++ natToString index ++ lit "]: "
  thenCheck (do
    if !entry.isObject then
      return .error (label ++ lit "entry must be a JSON object, got " ++ entry.typeName) (-1)
    else
      return .ok ()) <|
  thenCheck (checkRequiredString entry (lit "type")
    (label ++ lit "'type' field is missing")
    (label ++ lit "'type' must be a string, got ")
    (label ++ lit "'type' must not be an empty string")) <|
  thenCheck (checkOptional entry (lit "instance_name") Json.isString
    (label ++ lit "'instance_name' must be a string, got ")) <|
  thenCheck (checkOptional entry (lit "params") Json.isObject
    (label ++ lit "'params' must be a JSON object, got ")) <|
  checkDependsOn label entry

def checkPipeline (j : Json) : Check := do
  if !j.contains (lit "pipeline") then
    return .error (lit "Schema error: 'pipeline' field is missing") (-1)
  else if !(← j.member (lit "pipeline")).isArray then
    return .error (lit "Schema error: 'pipeline' must be an array, got " ++
      (← j.member (lit "pipeline")).typeName) (-1)
  else
    let pipeline ← j.member (lit "pipeline")
    if pipeline.isEmpty then
      return .error (lit "Schema error: 'pipeline' array must not be empty") (-1)
    else
      checkEach (fun i => do validatePipelineEntry (← pipeline.element i) i) (List.range pipeline.size)

/-- WorkflowSchema.cpp:6-71. -/
def validate (j : Json) : Check :=
  thenCheck (checkRequiredString j (lit "name")
    (lit "Schema error: top-level 'name' field is missing")
    (lit "Schema error: 'name' must be a string, got ")
    (lit "Schema error: 'name' must not be an empty string")) <|
  thenCheck (checkOptional j (lit "description") Json.isString
    (lit "Schema error: 'description' must be a string, got ")) <|
  thenCheck (checkOptional j (lit "audit") Json.isBoolean
    (lit "Schema error: 'audit' must be a boolean, got ")) <|
  thenCheck (checkOnError j) <|
  checkPipeline j

/-! ### The documented grammar (WorkflowSchema.hpp:17-30, WorkflowConfig.hpp:51-69) -/

structure DocumentedEntry (entry : Json) : Prop where
  object : ∃ ms, entry = .object ms
  type : ∃ s, entry.get? (lit "type") = some (.string s) ∧ s ≠ []
  instanceName : ∀ v, entry.get? (lit "instance_name") = some v → ∃ s, v = .string s
  params : ∀ v, entry.get? (lit "params") = some v → ∃ ms, v = .object ms
  dependsOn : ∀ v, entry.get? (lit "depends_on") = some v →
    ∃ xs, v = .array xs ∧ ∀ x ∈ xs, ∃ s, x = .string s

structure DocumentedSchema (j : Json) : Prop where
  object : ∃ ms, j = .object ms
  name : ∃ s, j.get? (lit "name") = some (.string s) ∧ s ≠ []
  description : ∀ v, j.get? (lit "description") = some v → ∃ s, v = .string s
  audit : ∀ v, j.get? (lit "audit") = some v → ∃ b, v = .boolean b
  onError : ∀ v, j.get? (lit "on_error") = some v →
    v = .string (lit "halt") ∨ v = .string (lit "continue")
  pipeline : ∃ xs, j.get? (lit "pipeline") = some (.array xs) ∧ xs ≠ [] ∧
    ∀ entry ∈ xs, DocumentedEntry entry

/-! ### Each check decides its part of the grammar -/

/-- The check makes no unjustified access and accepts exactly when `P` holds. -/
def Decides (c : Check) (P : Prop) : Prop := ∃ r, c = .ok r ∧ (r.isOk = true ↔ P)

theorem decides_ok : Decides (pure (.ok ())) True := ⟨_, rfl, by simp [Result.isOk]⟩

theorem decides_error (m : Str) : Decides (pure (.error m (-1))) False :=
  ⟨_, rfl, by simp [Result.isOk]⟩

theorem Decides.congr {c : Check} {P Q : Prop} (h : Decides c P) (hpq : P ↔ Q) : Decides c Q := by
  obtain ⟨r, hr, hiff⟩ := h
  exact ⟨r, hr, hiff.trans hpq⟩

-- The second check may rely on what the first one accepted.
theorem decides_thenCheck {first next : Check} {P Q : Prop} (h : Decides first P)
    (hnext : P → Decides next Q) : Decides (thenCheck first next) (P ∧ Q) := by
  obtain ⟨r, hr, hiff⟩ := h
  cases r with
  | ok u =>
    have hp : P := hiff.mp rfl
    obtain ⟨r', hr', hiff'⟩ := hnext hp
    exact ⟨r', by rw [thenCheck, hr]; exact hr', by rw [hiff']; exact (and_iff_right hp).symm⟩
  | error m c =>
    have hp : ¬ P := fun h => by simpa [Result.isOk] using hiff.mpr h
    exact ⟨.error m c, by rw [thenCheck, hr]; rfl, by simp [Result.isOk, hp]⟩

theorem decides_checkEach {c : ℕ → Check} {P : ℕ → Prop} (l : List ℕ)
    (h : ∀ i ∈ l, Decides (c i) (P i)) : Decides (checkEach c l) (∀ i ∈ l, P i) := by
  induction l with
  | nil => exact decides_ok.congr (by simp)
  | cons i rest ih =>
    have hrest := ih fun x hx => h x (List.mem_cons_of_mem _ hx)
    exact (decides_thenCheck (h i List.mem_cons_self) fun _ => hrest).congr
      List.forall_mem_cons.symm

theorem element_of_getElem? {xs : List Json} {i : ℕ} {x : Json} (h : xs[i]? = some x) :
    (Json.array xs).element i = .ok x := by
  simp only [Json.element, h]

theorem decides_checkElements {c : ℕ → Check} {P : Json → Prop} (xs : List Json)
    (h : ∀ i x, xs[i]? = some x → Decides (c i) (P x)) :
    Decides (checkEach c (List.range xs.length)) (∀ x ∈ xs, P x) := by
  have hloop := decides_checkEach (c := c) (P := fun i => ∀ x, xs[i]? = some x → P x)
    (List.range xs.length) (by
      intro i hi
      have hget := List.getElem?_eq_getElem (List.mem_range.mp hi)
      exact (h i _ hget).congr (by simp [hget]))
  refine hloop.congr ⟨?_, ?_⟩
  · intro hall x hx
    obtain ⟨i, hi, he⟩ := List.getElem_of_mem hx
    exact hall i (List.mem_range.mpr hi) x (by rw [List.getElem?_eq_getElem hi, he])
  · intro hall i _ x hx
    exact hall x (List.mem_of_getElem? hx)

theorem decides_checkRequiredString (j : Json) (key missing notString empty : Str) :
    Decides (checkRequiredString j key missing notString empty)
      (∃ s, j.get? key = some (.string s) ∧ s ≠ []) := by
  unfold checkRequiredString
  rw [Json.contains_eq]
  cases hv : j.get? key with
  | none =>
    exact (decides_error _).congr (by simp)
  | some v =>
    rw [Json.member_of_get? hv]
    cases v with
    | string s =>
      cases s with
      | nil => exact (decides_error _).congr (by simp)
      | cons b s => exact decides_ok.congr (by simp)
    | _ => exact (decides_error _).congr (by simp)

theorem decides_checkOptional (j : Json) (key : Str) (kind : Json → Bool) (wrongKind : Str) :
    Decides (checkOptional j key kind wrongKind) (∀ v, j.get? key = some v → kind v = true) := by
  unfold checkOptional
  rw [Json.contains_eq]
  cases hv : j.get? key with
  | none =>
    exact decides_ok.congr (by simp)
  | some v =>
    rw [Json.member_of_get? hv]
    cases hk : kind v with
    | false =>
      have hd := decides_error (wrongKind ++ v.typeName)
      refine Decides.congr ?_ (P := False) (by simp [hk])
      simpa [hk, bind, Except.bind] using hd
    | true =>
      refine Decides.congr ?_ (P := True) (by simp [hk])
      simpa [hk, bind, Except.bind] using decides_ok

theorem decides_checkOnError (j : Json) :
    Decides (checkOnError j) (∀ v, j.get? (lit "on_error") = some v →
      v = .string (lit "halt") ∨ v = .string (lit "continue")) := by
  unfold checkOnError
  rw [Json.contains_eq]
  cases hv : j.get? (lit "on_error") with
  | none =>
    exact decides_ok.congr (by simp)
  | some v =>
    rw [Json.member_of_get? hv]
    cases v with
    | string s =>
      by_cases hs : s ≠ lit "halt" ∧ s ≠ lit "continue"
      · refine Decides.congr ?_ (P := False) (by simpa using hs)
        simpa [hs, bind, Except.bind, Json.isString, Json.getString] using decides_error _
      · refine Decides.congr ?_ (P := True) (by simp only [not_and_or, not_not] at hs; simpa using hs)
        simpa [hs, bind, Except.bind, Json.isString, Json.getString] using decides_ok
    | _ => exact (decides_error _).congr (by simp)

theorem decides_dependsOnEntry {xs : List Json} {d : ℕ} {x : Json} (label : Str)
    (hx : xs[d]? = some x) :
    Decides (do
      if !(← (Json.array xs).element d).isString then
        return .error (label ++ lit "'depends_on' entries must be strings; " ++ lit "index " ++
          natToString d ++ lit " is of type " ++ (← (Json.array xs).element d).typeName) (-1)
      else
        return .ok ()) (∃ s, x = .string s) := by
  rw [element_of_getElem? hx]
  cases x with
  | string s => exact decides_ok.congr (by simp)
  | _ => exact (decides_error _).congr (by simp)

theorem decides_checkDependsOn (label : Str) (entry : Json) :
    Decides (checkDependsOn label entry) (∀ v, entry.get? (lit "depends_on") = some v →
      ∃ xs, v = .array xs ∧ ∀ x ∈ xs, ∃ s, x = .string s) := by
  unfold checkDependsOn
  rw [Json.contains_eq]
  cases hv : entry.get? (lit "depends_on") with
  | none =>
    exact decides_ok.congr (by simp)
  | some v =>
    rw [Json.member_of_get? hv]
    cases v with
    | array xs =>
      have hloop := decides_checkElements xs fun d x hx => decides_dependsOnEntry label hx
      exact hloop.congr (by simp)
    | _ => exact (decides_error _).congr (by simp)

theorem decides_validatePipelineEntry (entry : Json) (index : ℕ) :
    Decides (validatePipelineEntry entry index) (DocumentedEntry entry) := by
  have hobject : ∀ m, Decides (if !entry.isObject then pure (.error m (-1)) else pure (.ok ()))
      (∃ ms, entry = .object ms) := by
    intro m
    cases entry with
    | object ms => exact decides_ok.congr (by simp)
    | _ => exact (decides_error _).congr (by simp)
  refine Decides.congr (c := validatePipelineEntry entry index)
    (decides_thenCheck (hobject _) fun _ =>
      decides_thenCheck (decides_checkRequiredString entry (lit "type") _ _ _) fun _ =>
      decides_thenCheck (decides_checkOptional entry (lit "instance_name") Json.isString _) fun _ =>
      decides_thenCheck (decides_checkOptional entry (lit "params") Json.isObject _) fun _ =>
      decides_checkDependsOn _ entry) ⟨?_, ?_⟩
  · intro ⟨ho, ht, hi, hp, hd⟩
    exact ⟨ho, ht, fun v hv => (Json.isString_iff v).mp (hi v hv),
      fun v hv => (Json.isObject_iff v).mp (hp v hv), hd⟩
  · intro ⟨ho, ht, hi, hp, hd⟩
    exact ⟨ho, ht, fun v hv => (Json.isString_iff v).mpr (hi v hv),
      fun v hv => (Json.isObject_iff v).mpr (hp v hv), hd⟩

theorem decides_checkPipeline (j : Json) :
    Decides (checkPipeline j) (∃ xs, j.get? (lit "pipeline") = some (.array xs) ∧ xs ≠ [] ∧
      ∀ entry ∈ xs, DocumentedEntry entry) := by
  unfold checkPipeline
  rw [Json.contains_eq]
  cases hv : j.get? (lit "pipeline") with
  | none =>
    exact (decides_error _).congr (by simp)
  | some v =>
    rw [Json.member_of_get? hv]
    cases v with
    | array xs =>
      cases xs with
      | nil => exact (decides_error _).congr (by simp)
      | cons x xs =>
        have hloop := decides_checkElements (x :: xs)
          (c := fun i => do validatePipelineEntry (← (Json.array (x :: xs)).element i) i)
          (P := DocumentedEntry) (by
            intro i e he
            rw [element_of_getElem? he]
            exact decides_validatePipelineEntry e i)
        exact hloop.congr (by simp)
    | _ => exact (decides_error _).congr (by simp)

theorem object_of_get? {j : Json} {key : Str} {v : Json} (h : j.get? key = some v) :
    ∃ ms, j = .object ms := by
  cases j with
  | object ms => exact ⟨ms, rfl⟩
  | _ => simp [Json.get?] at h

theorem decides_validate (j : Json) : Decides (validate j) (DocumentedSchema j) := by
  refine Decides.congr (c := validate j)
    (decides_thenCheck (decides_checkRequiredString j (lit "name") _ _ _) fun _ =>
      decides_thenCheck (decides_checkOptional j (lit "description") Json.isString _) fun _ =>
      decides_thenCheck (decides_checkOptional j (lit "audit") Json.isBoolean _) fun _ =>
      decides_thenCheck (decides_checkOnError j) fun _ =>
      decides_checkPipeline j) ⟨?_, ?_⟩
  · intro ⟨hn, hd, ha, he, hp⟩
    have hs := hn.choose_spec.1
    exact ⟨object_of_get? hs, hn, fun v hv => (Json.isString_iff v).mp (hd v hv),
      fun v hv => (Json.isBoolean_iff v).mp (ha v hv), he, hp⟩
  · intro h
    exact ⟨h.name, fun v hv => (Json.isString_iff v).mpr (h.description v hv),
      fun v hv => (Json.isBoolean_iff v).mpr (h.audit v hv), h.onError, h.pipeline⟩

/- The validator returns on every JSON value, without a single unjustified
access, and accepts exactly the documented documents. -/
theorem validate_accepts_documented_schema (j : Json) :
    ∃ r, validate j = .ok r ∧ (r.isOk = true ↔ DocumentedSchema j) :=
  decides_validate j

end WorkflowSchema

end Workflow
