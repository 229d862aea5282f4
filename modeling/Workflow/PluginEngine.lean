import Workflow.PluginCode

/-!
# Engines that load plugins (WorkflowEngine.cpp:48-104)

An engine's plugin loader is private and the engine only loads with it: nothing
it does unloads a plugin, and the loader has no destructor that would. So in a
program that leaves its plugins to engines no factory outlives its code, however
many engines come and go (`Process.live_always`). The program itself counts as a
library, `program`, which is open from the start.
-/

namespace Workflow

variable {L : Type}

/-- `registry_` with the log, and `loaded_` of `plugin_loader_`. -/
structure PluginEngine (L : Type) where
  table : EngineTable (LibraryFactory L)
  loaded : List (LoadedPlugin L)

structure Process (L : Type) where
  libraries : Libraries L
  registry : CommandRegistry (LibraryFactory L)
  /-- The engines made so far; `none` is one that was destroyed or moved from. -/
  engines : List (Option (PluginEngine L))

namespace PluginEngine

def new : PluginEngine L := ⟨⟨∅, []⟩, []⟩

def logged (e : PluginEngine L) (messages : List Str) : PluginEngine L :=
  { e with table := { e.table with log := e.table.log ++ messages.map fun m => ⟨.Info, m⟩ } }

/-- The engine's loader, which shares libraries and global registry with all others. -/
def loader (e : PluginEngine L) (p : Process L) : PluginLoader L := ⟨p.libraries, p.registry, e.loaded⟩

end PluginEngine

namespace Process

variable [DecidableEq L]

def loadedLine (plugin : LoadedPlugin L) : Str :=
  lit "  - " ++ plugin.name ++ lit " (" ++ plugin.path ++ lit ")"

/-- WorkflowEngine.cpp:83-98 over the files the iterator yields; when it `throws`
after them, what was loaded stays loaded and nothing is returned. -/
def loadPlugins (image : L → Image) (platform : Platform) (p : Process L) (e : PluginEngine L)
    (pluginDir : Str) (files : List (PluginFile L)) (throws : Bool) :
    Process L × PluginEngine L × Option ℕ :=
  let result := (e.loader p).loadFromDirectory image platform files
  let p' := { p with libraries := result.1.libraries, registry := result.1.registry }
  let e' := { e.logged [lit "Loading plugins from directory: " ++ pluginDir] with
    loaded := result.1.loaded }
  if throws then (p', e', none)
  else
    (p', e'.logged ((lit "Loaded " ++ natToString result.2.length ++ lit " plugins") ::
      result.2.map loadedLine), some result.2.length)

def syncFromRegistry (p : Process L) (e : PluginEngine L) : PluginEngine L :=
  { e with table := e.table.syncFromRegistry p.registry }

/-- WorkflowEngine.cpp:100-104. -/
def loadPluginsAndSync (image : L → Image) (platform : Platform) (p : Process L) (e : PluginEngine L)
    (pluginDir : Str) (files : List (PluginFile L)) (throws : Bool) :
    Process L × PluginEngine L × Option ℕ :=
  match loadPlugins image platform p e pluginDir files throws with
  | (p', e', some count) => (p', p'.syncFromRegistry e', some count)
  | (p', e', none) => (p', e', none)

end Process

/-- What a program does with its engines; an index is that of an engine. -/
inductive EngineCall (L : Type) where
  | create
  | destroy (index : ℕ)
  /-- The move constructor, which makes a new engine of the one moved from. -/
  | moveConstruct (index : ℕ)
  | moveAssign (source target : ℕ)
  /-- A `REGISTER_COMMAND` of the program itself. -/
  | registerFactory (typeName : Str) (entry : ℕ)
  /-- `register_command_factory` or `register_command`, of code of the program. -/
  | registerCommandFactory (index : ℕ) (typeName : Str) (entry : ℕ)
  | syncFromRegistry (index : ℕ)
  | loadPlugins (index : ℕ) (pluginDir : Str) (files : List (PluginFile L)) (throws : Bool)
  | loadPluginsAndSync (index : ℕ) (pluginDir : Str) (files : List (PluginFile L)) (throws : Bool)

namespace Process

def engine? (p : Process L) (index : ℕ) : Option (PluginEngine L) := (p.engines[index]?).join

def setEngine (p : Process L) (index : ℕ) (e : Option (PluginEngine L)) : Process L :=
  { p with engines := p.engines.set index e }

def addEngine (p : Process L) (e : PluginEngine L) : Process L :=
  { p with engines := p.engines ++ [some e] }

def ownFactory (p : Process L) (program : L) (entry : ℕ) : LibraryFactory L :=
  ⟨program, p.libraries.mapping program, entry⟩

/- A call on an engine that is there. -/
def withEngine (p : Process L) (index : ℕ) (f : PluginEngine L → Process L) : Process L :=
  match p.engine? index with
  | some e => f e
  | none => p

section
variable [DecidableEq L]

/- Nothing is loaded but the program. -/
def initial (program : L) : Process L :=
  ⟨Libraries.initial.openLibrary program, .empty, []⟩

def step (image : L → Image) (platform : Platform) (program : L) (p : Process L) :
    EngineCall L → Process L
  | .create => p.addEngine .new
  | .destroy index => p.setEngine index none
  | .moveConstruct index => p.withEngine index fun e => (p.setEngine index none).addEngine e
  | .moveAssign source target =>
    p.withEngine source fun e => (p.setEngine source none).setEngine target (some e)
  | .registerFactory typeName entry =>
    { p with registry := (p.registry.registerFactory typeName (p.ownFactory program entry)).1 }
  | .registerCommandFactory index typeName entry =>
    p.withEngine index fun e => p.setEngine index
      (some { e with table := e.table.registerCommandFactory typeName (p.ownFactory program entry) })
  | .syncFromRegistry index =>
    p.withEngine index fun e => p.setEngine index (some (p.syncFromRegistry e))
  | .loadPlugins index pluginDir files throws =>
    p.withEngine index fun e =>
      let result := loadPlugins image platform p e pluginDir files throws
      result.1.setEngine index (some result.2.1)
  | .loadPluginsAndSync index pluginDir files throws =>
    p.withEngine index fun e =>
      let result := loadPluginsAndSync image platform p e pluginDir files throws
      result.1.setEngine index (some result.2.1)

end

/-! ### No factory outlives its code -/

theorem returns_registerFactory {r : CommandRegistry (LibraryFactory L)} {typeName : Str}
    {factory f : LibraryFactory L} (h : (r.registerFactory typeName factory).1.Returns f) :
    r.Returns f ∨ f = factory := by
  obtain ⟨name, hfind⟩ := (CommandRegistry.returns_iff _ f).mp h
  rw [CommandRegistry.find_registerFactory] at hfind
  cases hold : r.find name with
  | some g =>
    rw [hold, Option.some_or] at hfind
    exact Or.inl ((CommandRegistry.returns_iff r f).mpr ⟨name, hold.trans hfind⟩)
  | none =>
    rw [hold, Option.none_or] at hfind
    split_ifs at hfind with hname
    exact Or.inr (Option.some.inj hfind).symm

theorem engine?_mem {p : Process L} {index : ℕ} {e : PluginEngine L} (h : p.engine? index = some e) :
    some e ∈ p.engines := by
  unfold engine? at h
  rw [Option.join_eq_some_iff] at h
  exact List.mem_of_getElem? h

/-- Whatever can be had from the global registry or from an engine is in mapped code. -/
structure AllLive (program : L) (p : Process L) : Prop where
  own : 0 < p.libraries.count program
  registry : ∀ f, p.registry.Returns f → f.Live p.libraries
  engines : ∀ e, some e ∈ p.engines → ∀ name f, e.table.registry.find? name = some f →
    f.Live p.libraries

/- The factory of the program itself, which is never unmapped. -/
theorem live_ownFactory {program : L} {p : Process L} (h : p.AllLive program) (entry : ℕ) :
    (p.ownFactory program entry).Live p.libraries := ⟨h.own, rfl⟩

/- The factories of an engine that are not new to it were there before, or are
the program's, or the registry's. -/
theorem live_sync {program : L} {p : Process L} (h : p.AllLive program) {e : PluginEngine L}
    (he : ∀ name f, e.table.registry.find? name = some f → f.Live p.libraries) :
    ∀ name f, (p.syncFromRegistry e).table.registry.find? name = some f → f.Live p.libraries := by
  intro name f hfind
  have hexport : (p.registry.exportTo e.table.registry).find? name = some f := hfind
  rw [CommandRegistry.find?_exportTo] at hexport
  cases hglobal : p.registry.find name with
  | some g =>
    rw [hglobal, Option.some_or] at hexport
    exact h.registry f ((CommandRegistry.returns_iff _ f).mpr ⟨name, hglobal.trans hexport⟩)
  | none =>
    rw [hglobal, Option.none_or] at hexport
    exact he name f hexport

theorem allLive_withEngine {program : L} {p : Process L} (h : p.AllLive program) (index : ℕ)
    {f : PluginEngine L → Process L}
    (hf : ∀ e, some e ∈ p.engines → (f e).AllLive program) : (p.withEngine index f).AllLive program := by
  unfold withEngine
  cases he : p.engine? index with
  | none => exact h
  | some e => exact hf e (engine?_mem he)

theorem allLive_setEngine {program : L} {p : Process L} (h : p.AllLive program) (index : ℕ)
    {e : Option (PluginEngine L)}
    (he : ∀ e', e = some e' → ∀ name f, e'.table.registry.find? name = some f → f.Live p.libraries) :
    (p.setEngine index e).AllLive program where
  own := h.own
  registry := h.registry
  engines := by
    intro e' hmem
    rcases List.mem_or_eq_of_mem_set hmem with hold | hnew
    · exact h.engines e' hold
    · exact he e' hnew.symm

/- An engine that is gone resolves nothing. -/
theorem allLive_dropEngine {program : L} {p : Process L} (h : p.AllLive program) (index : ℕ) :
    (p.setEngine index none).AllLive program := by
  apply allLive_setEngine h index
  intro e he
  cases he

theorem allLive_addEngine {program : L} {p : Process L} (h : p.AllLive program) {e : PluginEngine L}
    (he : ∀ name f, e.table.registry.find? name = some f → f.Live p.libraries) :
    (p.addEngine e).AllLive program where
  own := h.own
  registry := h.registry
  engines := by
    intro e' hmem
    rcases List.mem_append.mp hmem with hold | hnew
    · exact h.engines e' hold
    · obtain rfl := Option.some.inj (List.mem_singleton.mp hnew)
      exact he

section
variable [DecidableEq L]

/- Loading keeps every mapping that there is. -/
theorem live_loadFile (image : L → Image) (platform : Platform) {f : LibraryFactory L}
    {s : PluginLoader L} (h : f.Live s.libraries) (file : PluginFile L) :
    f.Live (PluginLoader.loadFile image platform s file).1.libraries := by
  rcases PluginLoader.loadFile_cases image platform s file with
    hload | ⟨l, hload⟩ | ⟨l, factories, plugin, -, -, hload⟩
  · rw [hload]
    exact h
  · rw [hload]
    exact PluginLoader.live_reclosed h l
  · rw [hload]
    exact PluginLoader.live_openLibrary h l

theorem live_loadFromDirectory (image : L → Image) (platform : Platform) {f : LibraryFactory L}
    {s : PluginLoader L} (h : f.Live s.libraries) (files : List (PluginFile L)) :
    f.Live (PluginLoader.loadFromDirectory image platform s files).1.libraries :=
  PluginLoader.loadFromDirectory_preserves image platform (P := fun s => f.Live s.libraries)
    (fun _ file hs => live_loadFile image platform hs file) h files

theorem allLive_loadPlugins {program : L} (image : L → Image) (platform : Platform) {p : Process L}
    (h : p.AllLive program) {e : PluginEngine L} (he : some e ∈ p.engines) (pluginDir : Str)
    (files : List (PluginFile L)) (throws : Bool) :
    (loadPlugins image platform p e pluginDir files throws).1.AllLive program ∧
      ∀ name f, (loadPlugins image platform p e pluginDir files throws).2.1.table.registry.find? name
        = some f → f.Live (loadPlugins image platform p e pluginDir files throws).1.libraries := by
  have hkept : ∀ f : LibraryFactory L, f.Live p.libraries →
      f.Live (loadPlugins image platform p e pluginDir files throws).1.libraries := by
    intro f hf
    have hload := live_loadFromDirectory image platform (s := e.loader p) hf files
    unfold loadPlugins
    cases throws <;> exact hload
  have hregistry : ∀ f, (loadPlugins image platform p e pluginDir files throws).1.registry.Returns f →
      f.Live (loadPlugins image platform p e pluginDir files throws).1.libraries := by
    have hall : (e.loader p).AllLive := h.registry
    have hload := PluginLoader.allLive_loadFromDirectory image platform hall files
    unfold loadPlugins
    cases throws <;> exact hload
  have htable : (loadPlugins image platform p e pluginDir files throws).2.1.table.registry
      = e.table.registry := by
    unfold loadPlugins
    cases throws <;> rfl
  have hengines : (loadPlugins image platform p e pluginDir files throws).1.engines = p.engines := by
    unfold loadPlugins
    cases throws <;> rfl
  refine ⟨⟨(hkept ⟨program, p.libraries.mapping program, 0⟩ ⟨h.own, rfl⟩).1, hregistry, ?_⟩, ?_⟩
  · intro e' hmem name f hfind
    rw [hengines] at hmem
    exact hkept f (h.engines e' hmem name f hfind)
  · intro name f hfind
    rw [htable] at hfind
    exact hkept f (h.engines e he name f hfind)

theorem allLive_loadPluginsAndSync {program : L} (image : L → Image) (platform : Platform)
    {p : Process L} (h : p.AllLive program) {e : PluginEngine L} (he : some e ∈ p.engines)
    (pluginDir : Str) (files : List (PluginFile L)) (throws : Bool) :
    (loadPluginsAndSync image platform p e pluginDir files throws).1.AllLive program ∧
      ∀ name f, (loadPluginsAndSync image platform p e pluginDir files throws).2.1.table.registry.find?
        name = some f →
        f.Live (loadPluginsAndSync image platform p e pluginDir files throws).1.libraries := by
  have hload := allLive_loadPlugins image platform h he pluginDir files throws
  unfold loadPluginsAndSync
  generalize loadPlugins image platform p e pluginDir files throws = result at hload ⊢
  rcases result with ⟨p', e', - | count⟩
  · exact hload
  · exact ⟨hload.1, live_sync hload.1 hload.2⟩

theorem allLive_step (image : L → Image) (platform : Platform) (program : L) {p : Process L}
    (h : p.AllLive program) (call : EngineCall L) : (step image platform program p call).AllLive program := by
  cases call with
  | create =>
    apply allLive_addEngine h
    intro name f hfind
    cases hfind
  | destroy index => exact allLive_dropEngine h index
  | moveConstruct index =>
    apply allLive_withEngine h index
    intro e he
    exact allLive_addEngine (allLive_dropEngine h index) (h.engines e he)
  | moveAssign source target =>
    apply allLive_withEngine h source
    intro e he
    apply allLive_setEngine (allLive_dropEngine h source) target
    rintro e' ⟨⟩
    exact h.engines e he
  | registerFactory typeName entry =>
    refine ⟨h.own, ?_, h.engines⟩
    intro f hf
    rcases returns_registerFactory hf with hold | rfl
    · exact h.registry f hold
    · exact live_ownFactory h entry
  | registerCommandFactory index typeName entry =>
    apply allLive_withEngine h index
    intro e he
    apply allLive_setEngine h index
    rintro e' ⟨⟩ name f hfind
    by_cases hname : name = typeName
    · have hnew : (e.table.registry.insert typeName (p.ownFactory program entry)).find? name = some f :=
        hfind
      rw [hname, SortedMap.find?_insert_self, Option.some.injEq] at hnew
      exact hnew ▸ live_ownFactory h entry
    · have hold : (e.table.registry.insert typeName (p.ownFactory program entry)).find? name = some f :=
        hfind
      rw [SortedMap.find?_insert_ne _ hname] at hold
      exact h.engines e he name f hold
  | syncFromRegistry index =>
    apply allLive_withEngine h index
    intro e he
    apply allLive_setEngine h index
    rintro e' ⟨⟩
    exact live_sync h (h.engines e he)
  | loadPlugins index pluginDir files throws =>
    apply allLive_withEngine h index
    intro e he
    have hload := allLive_loadPlugins image platform h he pluginDir files throws
    apply allLive_setEngine hload.1 index
    rintro e' ⟨⟩
    exact hload.2
  | loadPluginsAndSync index pluginDir files throws =>
    apply allLive_withEngine h index
    intro e he
    have hload := allLive_loadPluginsAndSync image platform h he pluginDir files throws
    apply allLive_setEngine hload.1 index
    rintro e' ⟨⟩
    exact hload.2

theorem allLive_initial (program : L) : (initial program).AllLive program where
  own := by
    show 0 < Libraries.bump (fun _ => 0) program program
    unfold Libraries.bump
    rw [if_pos rfl]
    exact Nat.one_pos
  registry := by
    rintro f ⟨name, hfind | hfind⟩ <;> cases hfind
  engines e he := absurd he List.not_mem_nil

/- In every program that uses plugins through its engines alone: at all times each
factory that an engine or the global registry gives is in mapped code. -/
theorem live_always (image : L → Image) (platform : Platform) (program : L)
    (calls : List (EngineCall L)) :
    Run.Always (step image platform program) (AllLive program) (initial program) calls :=
  Run.always_of_step (allLive_initial program)
    (fun _ call h => allLive_step image platform program h call) calls

end

/-! ### What a load makes available -/

/- The library that a name leads to. -/
def provider (r : CommandRegistry (LibraryFactory L)) (name : Str) : Option L :=
  (r.find name).map LibraryFactory.library

/- The plugin's library registers the name. -/
def registers (image : L → Image) (name : Str) (plugin : LoadedPlugin L) : Bool :=
  match plugin.handle.bind fun l => (image l).pluginRegister with
  | some factories => factories.any fun e => decide (name = e.1)
  | none => false

theorem provider_runRegister (s : PluginLoader L) (l : L) (factories : List (Str × ℕ)) (name : Str) :
    provider (s.runRegister l factories).registry name
      = (provider s.registry name).or
        (if factories.any fun e => decide (name = e.1) then some l else none) := by
  have hfind := CommandRegistry.find_registerAll Prod.fst
    (fun e => (⟨l, s.libraries.mapping l, e.2⟩ : LibraryFactory L)) factories s.registry name
  have hrun : (s.runRegister l factories).registry.find name = (s.registry.find name).or
      ((factories.find? fun e => decide (name = e.1)).map
        fun e => (⟨l, s.libraries.mapping l, e.2⟩ : LibraryFactory L)) := hfind
  unfold provider
  rw [hrun]
  cases s.registry.find name with
  | some f => rfl
  | none =>
    rw [Option.none_or, Option.map_none, Option.none_or]
    cases hentry : factories.find? fun e => decide (name = e.1) with
    | none =>
      have hany : (factories.any fun e => decide (name = e.1)) = false :=
        List.any_eq_false.mpr (List.find?_eq_none.mp hentry)
      rw [hany]
      rfl
    | some e =>
      have hname : decide (name = e.1) = true := by
        have hfound := List.find?_some hentry
        exact hfound
      have hany : (factories.any fun e => decide (name = e.1)) = true :=
        List.any_eq_true.mpr ⟨e, List.mem_of_find?_eq_some hentry, hname⟩
      rw [hany]
      rfl

section
variable [DecidableEq L]

/- Turn by turn: the new plugin serves what it registers and nothing served before. -/
theorem loadFile_serves (image : L → Image) (platform : Platform) (s : PluginLoader L)
    (file : PluginFile L) (name : Str) :
    (PluginLoader.loadFile image platform s file).1.loaded
        = s.loaded ++ (PluginLoader.loadFile image platform s file).2.toList ∧
      provider (PluginLoader.loadFile image platform s file).1.registry name
        = (provider s.registry name).or
          (((PluginLoader.loadFile image platform s file).2.toList.find? (registers image name)).bind
            LoadedPlugin.handle) := by
  rcases PluginLoader.loadFile_cases image platform s file with
    hload | ⟨l, hload⟩ | ⟨l, factories, plugin, hhandle, himage, hload⟩
  · rw [hload]
    exact ⟨(List.append_nil _).symm, Option.or_none.symm⟩
  · rw [hload]
    exact ⟨(List.append_nil _).symm, Option.or_none.symm⟩
  · have hregisters : registers image name plugin = factories.any fun e => decide (name = e.1) := by
      unfold registers
      rw [hhandle, Option.bind_some, himage]
    rw [hload]
    refine ⟨rfl, ?_⟩
    have hprovider := provider_runRegister
      ({ s with libraries := s.libraries.openLibrary l } : PluginLoader L) l factories name
    refine hprovider.trans (congrArg _ ?_)
    simp only [Option.toList_some, List.find?_singleton, hregisters]
    split_ifs with hany
    · exact hhandle.symm
    · rfl

theorem loadFromDirectory_serves (image : L → Image) (platform : Platform) (s : PluginLoader L)
    (files : List (PluginFile L)) (name : Str) :
    (s.loadFromDirectory image platform files).1.loaded
        = s.loaded ++ (s.loadFromDirectory image platform files).2 ∧
      provider (s.loadFromDirectory image platform files).1.registry name
        = (provider s.registry name).or
          (((s.loadFromDirectory image platform files).2.find? (registers image name)).bind
            LoadedPlugin.handle) := by
  induction files using List.reverseRecOn with
  | nil => exact ⟨(List.append_nil _).symm, Option.or_none.symm⟩
  | append_singleton files file ih =>
    have hconcat : s.loadFromDirectory image platform (files ++ [file]) =
        ((PluginLoader.loadFile image platform (s.loadFromDirectory image platform files).1 file).1,
          (s.loadFromDirectory image platform files).2 ++
          (PluginLoader.loadFile image platform
            (s.loadFromDirectory image platform files).1 file).2.toList) := by
      unfold PluginLoader.loadFromDirectory
      rw [List.foldl_append]
      rfl
    obtain ⟨hloaded, hprovider⟩ := ih
    obtain ⟨hfile, hserves⟩ := loadFile_serves image platform
      (s.loadFromDirectory image platform files).1 file name
    rw [hconcat]
    constructor
    · show (PluginLoader.loadFile image platform _ file).1.loaded = _
      rw [hfile, hloaded, List.append_assoc]
    · show provider (PluginLoader.loadFile image platform _ file).1.registry name = _
      rw [hserves, hprovider, List.find?_append, Option.or_assoc]
      congr 1
      cases hfirst : (s.loadFromDirectory image platform files).2.find? (registers image name) with
      | none => rfl
      | some plugin =>
        rw [Option.some_or]
        cases hhandle : plugin.handle with
        | none =>
          have hregisters := List.find?_some hfirst
          unfold registers at hregisters
          rw [hhandle] at hregisters
          cases hregisters
        | some l =>
          show (plugin.handle).or _ = plugin.handle
          rw [hhandle]
          rfl

/- What a load without a throw and the sync after it leave. -/
structure Serves (image : L → Image) (before : Process L) (engine : PluginEngine L)
    (plugins : List (LoadedPlugin L)) (after : Process L) (engine' : PluginEngine L) : Prop where
  loaded : engine'.loaded = engine.loaded ++ plugins
  /-- Whoever registered a name first keeps it; then the first plugin counts. -/
  providers : ∀ name, provider after.registry name = (provider before.registry name).or
    ((plugins.find? (registers image name)).bind LoadedPlugin.handle)
  /-- The engine takes all of the registry over and keeps what that does not know. -/
  resolves : ∀ name, engine'.table.registry.find? name
    = (after.registry.find name).or (engine.table.registry.find? name)
  /-- No type of a plugin that was returned is missing. -/
  offered : ∀ plugin ∈ plugins, ∀ name, registers image name plugin = true →
    ∃ f, engine'.table.registry.find? name = some f

/- The count is that of the plugins loaded, each type of which the engine resolves
afterwards. After a throw it resolves what it did before. -/
theorem loadPluginsAndSync_serves (image : L → Image) (platform : Platform) (p : Process L)
    (e : PluginEngine L) (pluginDir : Str) (files : List (PluginFile L)) :
    (∃ plugins p' e', loadPluginsAndSync image platform p e pluginDir files false
        = (p', e', some plugins.length) ∧ Serves image p e plugins p' e') ∧
      ∃ p' e', loadPluginsAndSync image platform p e pluginDir files true = (p', e', none) ∧
        e'.table.registry = e.table.registry := by
  refine ⟨?_, _, _, rfl, rfl⟩
  have hserves := loadFromDirectory_serves image platform (e.loader p) files
  have hproviders : ∀ name, provider
      ((e.loader p).loadFromDirectory image platform files).1.registry name
        = (provider p.registry name).or
          ((((e.loader p).loadFromDirectory image platform files).2.find? (registers image name)).bind
            LoadedPlugin.handle) := fun name => (hserves name).2
  have hresolves : ∀ name, ((((e.loader p).loadFromDirectory image platform files).1.registry.exportTo
      e.table.registry).find? name) =
      (((e.loader p).loadFromDirectory image platform files).1.registry.find name).or
        (e.table.registry.find? name) :=
    fun name => CommandRegistry.find?_exportTo _ _ name
  refine ⟨((e.loader p).loadFromDirectory image platform files).2, _, _, rfl, (hserves []).1,
    hproviders, hresolves, ?_⟩
  intro plugin hplugin name hregisters
  have hsome : ∃ f, ((e.loader p).loadFromDirectory image platform files).1.registry.find name
      = some f := by
    cases hfind : ((e.loader p).loadFromDirectory image platform files).1.registry.find name with
    | some f => exact ⟨f, rfl⟩
    | none =>
      have hnone := hproviders name
      unfold provider at hnone
      rw [hfind, Option.map_none] at hnone
      have hlater := (Option.or_eq_none_iff.mp hnone.symm).2
      cases hfirst : ((e.loader p).loadFromDirectory image platform files).2.find?
          (registers image name) with
      | none => exact absurd hregisters (List.find?_eq_none.mp hfirst plugin hplugin)
      | some first =>
        have hfirstRegisters := List.find?_some hfirst
        rw [hfirst, Option.bind_some] at hlater
        unfold registers at hfirstRegisters
        rw [hlater] at hfirstRegisters
        cases hfirstRegisters
  obtain ⟨f, hf⟩ := hsome
  refine ⟨f, ?_⟩
  have hname := hresolves name
  rw [hf, Option.some_or] at hname
  exact hname

end

end Process

end Workflow
