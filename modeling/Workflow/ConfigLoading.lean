import Workflow.WorkflowConfig

/-!
# What the loader keeps of a document (WorkflowConfig.cpp:30-92)

`Records` reads a definition off the document by `get?` alone, with the
defaults of WorkflowConfig.hpp:16-49. The validator and the extractor look at
the same keys, so what stands under other keys is never seen.
-/

namespace Workflow.WorkflowConfig

open WorkflowSchema

structure RecordsStep (element : Json) (index : ℕ) (cfg : CommandConfig) : Prop where
  type : element.get? (lit "type") = some (.string cfg.type)
  instanceName : element.get? (lit "instance_name") = some (.string cfg.instanceName) ∨
    element.get? (lit "instance_name") = none ∧
      cfg.instanceName = cfg.type ++ lit "_" ++ natToString index
  params : element.get? (lit "params") = some cfg.params ∨
    element.get? (lit "params") = none ∧ cfg.params = .object []
  dependsOn : element.get? (lit "depends_on") = some (.array (cfg.dependsOn.map Json.string)) ∨
    element.get? (lit "depends_on") = none ∧ cfg.dependsOn = []

/-- One configuration for each element, in the elements' order. -/
structure RecordsSteps (elements : List Json) (pipeline : List CommandConfig) : Prop where
  length : pipeline.length = elements.length
  step : ∀ i element cfg, elements[i]? = some element → pipeline[i]? = some cfg →
    RecordsStep element i cfg

structure Records (j : Json) (wf : WorkflowDefinition) : Prop where
  name : j.get? (lit "name") = some (.string wf.name)
  description : j.get? (lit "description") = some (.string wf.description) ∨
    j.get? (lit "description") = none ∧ wf.description = []
  audit : j.get? (lit "audit") = some (.boolean wf.audit) ∨
    j.get? (lit "audit") = none ∧ wf.audit = false
  onError : wf.onError = .CONTINUE ↔ j.get? (lit "on_error") = some (.string (lit "continue"))
  pipeline : ∃ elements, j.get? (lit "pipeline") = some (.array elements) ∧
    RecordsSteps elements wf.pipeline

/-! ### Extraction from a documented entry -/

theorem ok_bind {α β : Type} (a : α) (f : α → Access β) : ((.ok a : Access α) >>= f) = f a := rfl

theorem mapM_getString {xs : List Json} (h : ∀ x ∈ xs, ∃ s, x = .string s) :
    ∃ ss : List Str, xs.mapM Json.getString = .ok ss ∧ xs = ss.map Json.string := by
  induction xs with
  | nil => exact ⟨[], rfl, rfl⟩
  | cons x xs ih =>
    obtain ⟨s, hs⟩ := h x List.mem_cons_self
    obtain ⟨ss, hmap, hxs⟩ := ih fun y hy => h y (List.mem_cons_of_mem _ hy)
    have hget : x.getString = .ok s := by rw [hs]; rfl
    refine ⟨s :: ss, ?_, by rw [hs, hxs]; rfl⟩
    rw [List.mapM_cons, hget, ok_bind, hmap]
    rfl

/- A setting whose kind is tested before it is read: the loader goes on with
the member's value, or with the default when there is no member. -/
theorem read_checked {α : Type} {j : Json} (key : Str) (kind : Json → Bool) (get : Json → Access α)
    (default : α) (h : ∀ v, j.get? key = some v → kind v = true ∧ ∃ a, get v = .ok a) :
    ∃ a, ((∃ v, j.get? key = some v ∧ get v = .ok a) ∨ j.get? key = none ∧ a = default) ∧
      ∀ {β : Type} (k : α → Access β), (do
        let given ← if j.contains key then pure (kind (← j.member key)) else pure false
        let a ← if given then get (← j.member key) else pure default
        k a) = k a := by
  cases hv : j.get? key with
  | none =>
    refine ⟨default, .inr ⟨rfl, rfl⟩, fun k => ?_⟩
    simp only [Json.contains_eq, hv]
    rfl
  | some v =>
    obtain ⟨hkind, a, ha⟩ := h v hv
    refine ⟨a, .inl ⟨v, rfl, ha⟩, fun k => ?_⟩
    simp only [Json.contains_eq, hv, Json.member_of_get? hv, Option.isSome_some, if_true, pure_bind,
      ok_bind, hkind, ha]

theorem read_unchecked {α : Type} {j : Json} (key : Str) (get : Json → Access α) (default : α)
    (h : ∀ v, j.get? key = some v → ∃ a, get v = .ok a) :
    ∃ a, ((∃ v, j.get? key = some v ∧ get v = .ok a) ∨ j.get? key = none ∧ a = default) ∧
      ∀ {β : Type} (k : α → Access β), (do
        let a ← if j.contains key then get (← j.member key) else pure default
        k a) = k a := by
  cases hv : j.get? key with
  | none =>
    refine ⟨default, .inr ⟨rfl, rfl⟩, fun k => ?_⟩
    simp only [Json.contains_eq, hv]
    rfl
  | some v =>
    obtain ⟨a, ha⟩ := h v hv
    refine ⟨a, .inl ⟨v, rfl, ha⟩, fun k => ?_⟩
    simp only [Json.contains_eq, hv, Json.member_of_get? hv, Option.isSome_some, if_true, ok_bind, ha]

theorem getString_ok {v : Json} {s : Str} (h : v.getString = .ok s) : v = .string s := by
  cases v with
  | string t => rw [Except.ok.inj h]
  | _ => cases h

theorem loadCommand_records {element : Json} (h : DocumentedEntry element) (index : ℕ) :
    ∃ cfg, loadCommand element index = .ok cfg ∧ RecordsStep element index cfg := by
  obtain ⟨type, htype, -⟩ := h.type
  obtain ⟨name, hname, rname⟩ := read_checked (lit "instance_name") Json.isString Json.getString
    (type ++ lit "_" ++ natToString index) (j := element) (by
      intro v hv
      obtain ⟨s, rfl⟩ := h.instanceName v hv
      exact ⟨rfl, s, rfl⟩)
  obtain ⟨params, hparams, rparams⟩ := read_unchecked (lit "params") pure (.object []) (j := element)
    fun v _ => ⟨v, rfl⟩
  obtain ⟨deps, hdeps, rdeps⟩ := read_checked (lit "depends_on") Json.isArray
    (fun v => (visited v).mapM Json.getString) [] (j := element) (by
      intro v hv
      obtain ⟨xs, rfl, hxs⟩ := h.dependsOn v hv
      obtain ⟨ss, hss, -⟩ := mapM_getString hxs
      exact ⟨rfl, ss, hss⟩)
  refine ⟨⟨type, name, params, deps⟩, ?_, ?_⟩
  · have rtype : (Json.string type).getString = .ok type := rfl
    have rparams' : ∀ k : Json → Access CommandConfig, (do
        let params ← if element.contains (lit "params") then element.member (lit "params")
          else pure (.object [])
        k params) = k params := rparams
    simp only [loadCommand, Json.member_of_get? htype, ok_bind, rtype]
    rw [rname, rparams', rdeps]
    rfl
  · refine ⟨htype, ?_, ?_, ?_⟩
    · refine hname.imp ?_ id
      intro ⟨v, hv, hs⟩
      rw [hv, getString_ok hs]
    · refine hparams.imp ?_ id
      intro ⟨v, hv, hp⟩
      rw [hv, Except.ok.inj hp]
    · refine hdeps.imp ?_ id
      intro ⟨v, hv, hs⟩
      obtain ⟨xs, rfl, hxs⟩ := h.dependsOn v hv
      obtain ⟨ss, hss, rfl⟩ := mapM_getString hxs
      have hsame : deps = ss := Except.ok.inj (hs.symm.trans hss)
      rw [hv, hsame]

theorem loadCommands_records {elements : List Json} (h : ∀ x ∈ elements, DocumentedEntry x)
    (index : ℕ) : ∃ pipeline, loadCommands index elements = .ok pipeline ∧
      pipeline.length = elements.length ∧
      ∀ (i : ℕ) element cfg, elements[i]? = some element → pipeline[i]? = some cfg →
        RecordsStep element (index + i) cfg := by
  induction elements generalizing index with
  | nil => exact ⟨[], rfl, rfl, by simp⟩
  | cons x rest ih =>
    obtain ⟨cfg, hcfg, hrecords⟩ := loadCommand_records (h x List.mem_cons_self) index
    obtain ⟨pipeline, hload, hlength, hsteps⟩ :=
      ih (fun y hy => h y (List.mem_cons_of_mem _ hy)) (index + 1)
    refine ⟨cfg :: pipeline, ?_, by simp [hlength], ?_⟩
    · rw [loadCommands, hcfg, ok_bind, hload]
      rfl
    · intro i element c helement hc
      cases i with
      | zero =>
        have hx : x = element := by simpa using helement
        have hcfg : cfg = c := by simpa using hc
        rw [← hx, ← hcfg]
        exact hrecords
      | succ i =>
        have hstep := hsteps i element c (by simpa using helement) (by simpa using hc)
        have hindex : index + 1 + i = index + (i + 1) := by omega
        rw [hindex] at hstep
        exact hstep

/-! ### Extraction from a documented document -/

theorem loadFromJson_records {j : Json} (h : DocumentedSchema j)
    (hvalid : validate j = .ok (.ok ())) :
    ∃ wf, loadFromJson j = .ok (.ok wf) ∧ Records j wf := by
  obtain ⟨name, hname, -⟩ := h.name
  obtain ⟨elements, hpipeline, -, hentries⟩ := h.pipeline
  obtain ⟨description, hdescription, rdescription⟩ := read_unchecked (lit "description")
    Json.getString [] (j := j) (by
      intro v hv
      obtain ⟨s, rfl⟩ := h.description v hv
      exact ⟨s, rfl⟩)
  obtain ⟨audit, haudit, raudit⟩ := read_checked (lit "audit") Json.isBoolean Json.getBool false
    (j := j) (by
      intro v hv
      obtain ⟨b, rfl⟩ := h.audit v hv
      exact ⟨rfl, b, rfl⟩)
  obtain ⟨onError, honError, ronError⟩ := read_checked (lit "on_error") Json.isString
    (fun v => do
      let strategy ← v.getString
      pure (if strategy = lit "continue" then OnError.CONTINUE else OnError.HALT))
    OnError.HALT (j := j) (by
      intro v hv
      rcases h.onError v hv with rfl | rfl
      · exact ⟨rfl, .HALT, rfl⟩
      · exact ⟨rfl, .CONTINUE, rfl⟩)
  obtain ⟨pipeline, hload, hlength, hsteps⟩ := loadCommands_records hentries 0
  refine ⟨⟨name, description, pipeline, audit, onError⟩, ?_, ?_⟩
  · have rname : (Json.string name).getString = .ok name := rfl
    have hvisited : visited (.array elements) = elements := rfl
    simp only [loadFromJson, hvalid, Json.member_of_get? hname, Json.member_of_get? hpipeline, ok_bind,
      rname, hvisited, hload]
    rw [rdescription, raudit]
    simp only [bind_assoc] at ronError
    exact ronError fun onError => pure (Result.ok
      (⟨name, description, pipeline, audit, onError⟩ : WorkflowDefinition))
  · refine ⟨hname, ?_, ?_, ?_, elements, hpipeline, hlength, ?_⟩
    · refine hdescription.imp ?_ id
      intro ⟨v, hv, hs⟩
      rw [hv, getString_ok hs]
    · refine haudit.imp ?_ id
      intro ⟨v, hv, hb⟩
      obtain ⟨b, rfl⟩ := h.audit v hv
      have hsame : b = audit := Except.ok.inj hb
      rw [hv, hsame]
    · rcases honError with ⟨v, hv, ho⟩ | ⟨hv, rfl⟩
      · rcases h.onError v hv with rfl | rfl
        · have hsame : OnError.HALT = onError := Except.ok.inj ho
          have hhalt : lit "halt" ≠ lit "continue" := by decide
          rw [← hsame, hv]
          simp [hhalt]
        · have hsame : OnError.CONTINUE = onError := Except.ok.inj ho
          rw [← hsame, hv]
          exact ⟨fun _ => rfl, fun _ => rfl⟩
      · simp [hv]
    · intro i element cfg helement hcfg
      simpa using hsteps i element cfg helement hcfg

/-! ### Members no setting is read from -/

def stepKeys : List Str := [lit "type", lit "instance_name", lit "params", lit "depends_on"]

def topKeys : List Str := [lit "name", lit "description", lit "audit", lit "on_error"]

/-- Two objects with the same member, or both none, under each of the keys. -/
structure AgreeOn (keys : List Str) (a b : Json) : Prop where
  left : ∃ ms, a = .object ms
  right : ∃ ms, b = .object ms
  member : ∀ key ∈ keys, a.get? key = b.get? key

/-- The same documents but for members under other keys, at the top or in an
element of the pipeline. -/
structure SameSettings (a b : Json) : Prop where
  top : AgreeOn topKeys a b
  pipeline : a.get? (lit "pipeline") = b.get? (lit "pipeline") ∨
    ∃ xs ys, a.get? (lit "pipeline") = some (.array xs) ∧ b.get? (lit "pipeline") = some (.array ys) ∧
      List.Forall₂ (fun x y => x = y ∨ AgreeOn stepKeys x y) xs ys

theorem AgreeOn.contains {keys : List Str} {a b : Json} (h : AgreeOn keys a b) {key : Str}
    (hkey : key ∈ keys) : a.contains key = b.contains key := by
  rw [Json.contains_eq, Json.contains_eq, h.member key hkey]

theorem member_eq_of_get? {a b : Json} {key : Str} (ha : ∃ ms, a = .object ms)
    (hb : ∃ ms, b = .object ms) (h : a.get? key = b.get? key) : a.member key = b.member key := by
  obtain ⟨ms, rfl⟩ := ha
  obtain ⟨ns, rfl⟩ := hb
  have hentry : findEntry key ms = findEntry key ns := h
  simp only [Json.member, hentry]

theorem AgreeOn.member_eq {keys : List Str} {a b : Json} (h : AgreeOn keys a b) {key : Str}
    (hkey : key ∈ keys) : a.member key = b.member key :=
  member_eq_of_get? h.left h.right (h.member key hkey)

theorem mem_stepKeys : lit "type" ∈ stepKeys ∧ lit "instance_name" ∈ stepKeys ∧
    lit "params" ∈ stepKeys ∧ lit "depends_on" ∈ stepKeys := by decide

theorem loadCommand_congr {x y : Json} (h : x = y ∨ AgreeOn stepKeys x y) (index : ℕ) :
    loadCommand x index = loadCommand y index := by
  rcases h with rfl | h
  · rfl
  · obtain ⟨ht, hi, hp, hd⟩ := mem_stepKeys
    simp only [loadCommand, h.contains hi, h.contains hp, h.contains hd, h.member_eq ht, h.member_eq hi,
      h.member_eq hp, h.member_eq hd]

theorem loadCommands_congr {xs ys : List Json}
    (h : List.Forall₂ (fun x y => x = y ∨ AgreeOn stepKeys x y) xs ys) (index : ℕ) :
    loadCommands index xs = loadCommands index ys := by
  induction h generalizing index with
  | nil => rfl
  | cons hxy _ ih => rw [loadCommands, loadCommands, loadCommand_congr hxy, ih]

theorem validatePipelineEntry_congr {x y : Json} (h : x = y ∨ AgreeOn stepKeys x y) (index : ℕ) :
    validatePipelineEntry x index = validatePipelineEntry y index := by
  rcases h with rfl | h
  · rfl
  · obtain ⟨ht, hi, hp, hd⟩ := mem_stepKeys
    obtain ⟨ms, hx⟩ := h.left
    obtain ⟨ns, hy⟩ := h.right
    have hobject : x.isObject = y.isObject := by rw [hx, hy]; rfl
    have htypeName : x.typeName = y.typeName := by rw [hx, hy]; rfl
    simp only [validatePipelineEntry, checkRequiredString, checkOptional, checkDependsOn, hobject,
      htypeName, h.contains ht, h.contains hi, h.contains hp, h.contains hd, h.member_eq ht,
      h.member_eq hi, h.member_eq hp, h.member_eq hd]

theorem checkEach_congr {c c' : ℕ → Check} (l : List ℕ) (h : ∀ i ∈ l, c i = c' i) :
    checkEach c l = checkEach c' l := by
  induction l with
  | nil => rfl
  | cons i rest ih =>
    rw [checkEach, checkEach, h i List.mem_cons_self,
      ih fun k hk => h k (List.mem_cons_of_mem _ hk)]

theorem checkPipeline_congr {a b : Json} (h : SameSettings a b) : checkPipeline a = checkPipeline b := by
  rcases h.pipeline with hsame | ⟨xs, ys, ha, hb, hxy⟩
  · have hm := member_eq_of_get? h.top.left h.top.right hsame
    simp only [checkPipeline, Json.contains_eq, hsame, hm]
  · have hlength := hxy.length_eq
    have hempty : (Json.array xs).isEmpty = (Json.array ys).isEmpty := by
      cases hxy with
      | nil => rfl
      | cons _ _ => rfl
    have hloop : checkEach (fun i => do validatePipelineEntry (← (Json.array xs).element i) i)
          (List.range (Json.array xs).size) =
        checkEach (fun i => do validatePipelineEntry (← (Json.array ys).element i) i)
          (List.range (Json.array ys).size) := by
      rw [Json.size, Json.size, ← hlength]
      refine checkEach_congr _ fun i hi => ?_
      have hix : i < xs.length := List.mem_range.mp hi
      have hiy : i < ys.length := by omega
      have hx := element_of_getElem? (List.getElem?_eq_getElem hix)
      have hy := element_of_getElem? (List.getElem?_eq_getElem hiy)
      rw [hx, hy, ok_bind, ok_bind]
      exact validatePipelineEntry_congr (hxy.get hix hiy) i
    simp only [checkPipeline, Json.contains_eq, ha, hb, Json.member_of_get? ha, Json.member_of_get? hb,
      ok_bind, hempty, hloop]
    rfl

theorem validate_congr {a b : Json} (h : SameSettings a b) : validate a = validate b := by
  have hn : lit "name" ∈ topKeys := by decide
  have hd : lit "description" ∈ topKeys := by decide
  have ha : lit "audit" ∈ topKeys := by decide
  have ho : lit "on_error" ∈ topKeys := by decide
  simp only [validate, checkRequiredString, checkOptional, checkOnError, checkPipeline_congr h,
    h.top.contains hn, h.top.contains hd, h.top.contains ha, h.top.contains ho, h.top.member_eq hn,
    h.top.member_eq hd, h.top.member_eq ha, h.top.member_eq ho]

theorem loadFromJson_congr {a b : Json} (h : SameSettings a b) : loadFromJson a = loadFromJson b := by
  have hn : lit "name" ∈ topKeys := by decide
  have hd : lit "description" ∈ topKeys := by decide
  have ha : lit "audit" ∈ topKeys := by decide
  have ho : lit "on_error" ∈ topKeys := by decide
  have hpipeline : ∀ {β : Type} (k : List CommandConfig → Access β),
      (do k (← loadCommands 0 (visited (← a.member (lit "pipeline"))))) =
        (do k (← loadCommands 0 (visited (← b.member (lit "pipeline"))))) := by
    intro β k
    rcases h.pipeline with hsame | ⟨xs, ys, hax, hby, hxy⟩
    · rw [member_eq_of_get? h.top.left h.top.right hsame]
    · rw [Json.member_of_get? hax, Json.member_of_get? hby, ok_bind, ok_bind, visited, visited,
        loadCommands_congr hxy]
  simp only [loadFromJson, validate_congr h, h.top.contains hd, h.top.contains ha, h.top.contains ho,
    h.top.member_eq hn, h.top.member_eq hd, h.top.member_eq ha, h.top.member_eq ho, hpipeline]

theorem loadFromJson_decides (j : Json) :
    ∃ r, loadFromJson j = .ok r ∧ (r.isOk = true ↔ DocumentedSchema j) := by
  obtain ⟨checked, hvalid, hiff⟩ := decides_validate j
  cases checked with
  | ok u =>
    have hj : DocumentedSchema j := hiff.mp rfl
    obtain ⟨wf, hload, -⟩ := loadFromJson_records hj hvalid
    exact ⟨.ok wf, hload, fun _ => hj, fun _ => rfl⟩
  | error message code =>
    refine ⟨.error message code, by rw [loadFromJson, hvalid]; rfl, ?_⟩
    rw [← hiff]
    exact Iff.rfl

theorem records_of_load {j : Json} {wf : WorkflowDefinition} (h : loadFromJson j = .ok (.ok wf)) :
    Records j wf := by
  obtain ⟨checked, hvalid, hiff⟩ := decides_validate j
  cases checked with
  | ok u =>
    obtain ⟨wf', hload, hrecords⟩ := loadFromJson_records (hiff.mp rfl) hvalid
    obtain rfl := Result.ok.inj (Except.ok.inj (h.symm.trans hload))
    exact hrecords
  | error message code =>
    rw [loadFromJson, hvalid] at h
    cases h

/- The loader agrees with the validator on every JSON value, keeps exactly the
documented settings, and sees no others. -/
theorem loadFromJson_total_and_faithful (j : Json) :
    (∃ r checked, loadFromJson j = .ok r ∧ validate j = .ok checked ∧
      (r.isOk = true ↔ checked.isOk = true) ∧
      (checked.isOk = false → r.errorMessage = checked.errorMessage ∧
        r.errorCode = checked.errorCode) ∧
      ∀ wf, r = .ok wf → Records j wf) ∧
    ∀ j', SameSettings j j' → loadFromJson j' = loadFromJson j := by
  refine ⟨?_, fun j' h => (loadFromJson_congr h).symm⟩
  obtain ⟨checked, hvalid, hiff⟩ := decides_validate j
  cases checked with
  | ok u =>
    obtain ⟨wf, hload, hrecords⟩ := loadFromJson_records (hiff.mp rfl) hvalid
    refine ⟨.ok wf, .ok (), hload, hvalid, Iff.rfl, fun h => ?_, ?_⟩
    · cases h
    · rintro wf' ⟨⟩
      exact hrecords
  | error message code =>
    refine ⟨.error message code, .error message code, ?_, hvalid, Iff.rfl, fun _ => ⟨rfl, rfl⟩, ?_⟩
    · rw [loadFromJson, hvalid]
      rfl
    · rintro wf ⟨⟩

end Workflow.WorkflowConfig
