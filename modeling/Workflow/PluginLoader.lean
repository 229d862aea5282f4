import Workflow.CommandRegistry
import Workflow.Lib.Run

/-!
# PluginLoader (IPlugin.hpp, PluginLoader.cpp)

The operating system counts the opens and closes of a library and maps its
code while the count is positive. A library is what a file holds, not the
file's path: a load finds whatever the directory then holds. `image` says what
a library exports. The functions it exports return, and the registration
function does nothing but call `register_factory` with factories of its own.
-/

namespace Workflow

/-- What a library exports; a symbol may be missing. -/
structure Image where
  /-- `wf_plugin_name` and what it returns. -/
  pluginName : Option Str
  /-- `wf_plugin_register` and the factories it registers, in order. -/
  pluginRegister : Option (List (Str × ℕ))

/-- The code of a factory: one of those a library registers, in one mapping of it. -/
structure LibraryFactory (L : Type) where
  library : L
  mapping : ℕ
  entry : ℕ
  deriving DecidableEq, Repr

/-- What the operating system has counted for each library. -/
structure Libraries (L : Type) where
  opens : L → ℕ
  closes : L → ℕ
  /-- The reference count of its handle. -/
  count : L → ℕ
  /-- How often its code was mapped. -/
  mapping : L → ℕ

/-- `nullptr` or the handle of an open library. -/
abbrev PluginHandle (L : Type) := Option L

structure LoadedPlugin (L : Type) where
  name : Str
  path : Str
  handle : PluginHandle L

/-- What a directory iterator shows of a file, and the library `load_library`
finds in it, if it finds one. -/
structure PluginFile (L : Type) where
  path : Str
  isRegularFile : Bool
  extension : Str
  library : Option L

inductive Platform where
  | windows
  | posix

def Platform.pluginExtension : Platform → Str
  | .windows => lit ".dll"
  | .posix => lit ".so"

namespace Libraries

variable {L : Type} [DecidableEq L]

def initial : Libraries L := ⟨fun _ => 0, fun _ => 0, fun _ => 0, fun _ => 0⟩

def bump (f : L → ℕ) (l : L) : L → ℕ := fun k => if k = l then f k + 1 else f k

/-- A successful open maps the code if the library was not open. -/
def openLibrary (s : Libraries L) (l : L) : Libraries L where
  opens := bump s.opens l
  closes := s.closes
  count := bump s.count l
  mapping := if s.count l = 0 then bump s.mapping l else s.mapping

def closeLibrary (s : Libraries L) (l : L) : Libraries L where
  opens := s.opens
  closes := bump s.closes l
  count := fun k => if k = l then s.count k - 1 else s.count k
  mapping := s.mapping

/-- PluginLoader.cpp:25-33. -/
def loadLibrary (s : Libraries L) (file : Option L) : PluginHandle L × Libraries L :=
  match file with
  | some l => (some l, s.openLibrary l)
  | none => (none, s)

/-- PluginLoader.cpp:52-64: closes the handle and clears it. -/
def unloadLibrary (s : Libraries L) (handle : PluginHandle L) : Libraries L × PluginHandle L :=
  match handle with
  | some l => (s.closeLibrary l, none)
  | none => (s, none)

end Libraries

/-- `loaded_`, the global registry and the libraries of the process. -/
structure PluginLoader (L : Type) where
  libraries : Libraries L
  registry : CommandRegistry (LibraryFactory L)
  loaded : List (LoadedPlugin L)

namespace PluginLoader

variable {L : Type} [DecidableEq L]

def initial : PluginLoader L := ⟨.initial, .empty, []⟩

/-- A call of the `wf_plugin_register` of an open library. -/
def runRegister (s : PluginLoader L) (l : L) (factories : List (Str × ℕ)) : PluginLoader L :=
  let register (r : CommandRegistry (LibraryFactory L)) (f : Str × ℕ) :=
    (r.registerFactory f.1 ⟨l, s.libraries.mapping l, f.2⟩).1
  { s with registry := factories.foldl register s.registry }

/-- One turn of the loop (PluginLoader.cpp:81-120), and the plugin it adds to the result. -/
def loadFile (image : L → Image) (platform : Platform) (s : PluginLoader L) (file : PluginFile L) :
    PluginLoader L × Option (LoadedPlugin L) :=
  if !file.isRegularFile then (s, none)
  else if file.extension ≠ platform.pluginExtension then (s, none)
  else
    match s.libraries.loadLibrary file.library with
    -- line 89 tests `hmodule` on POSIX too, where the handle has no such field
    | (none, libraries) => ({ s with libraries }, none)
    | (some l, libraries) =>
      match (image l).pluginName, (image l).pluginRegister with
      | some name, some factories =>
        let plugin : LoadedPlugin L := ⟨name, file.path, some l⟩
        let registered := { s with libraries }.runRegister l factories
        ({ registered with loaded := registered.loaded ++ [plugin] }, some plugin)
      | _, _ => ({ s with libraries := (libraries.unloadLibrary (some l)).1 }, none)

/-- `load_from_directory` over the files the iterator yields (PluginLoader.cpp:68-123). -/
def loadFromDirectory (image : L → Image) (platform : Platform) (s : PluginLoader L)
    (files : List (PluginFile L)) : PluginLoader L × List (LoadedPlugin L) :=
  files.foldl (fun acc file =>
    ((loadFile image platform acc.1 file).1, acc.2 ++ (loadFile image platform acc.1 file).2.toList))
    (s, [])

/-- PluginLoader.cpp:125-133; the second component is the caller's plugin. -/
def unload (s : PluginLoader L) (plugin : LoadedPlugin L) : PluginLoader L × LoadedPlugin L :=
  let closed := s.libraries.unloadLibrary plugin.handle
  ({ s with libraries := closed.1, loaded := s.loaded.eraseP fun p => p.path = plugin.path },
    { plugin with handle := closed.2 })

/-- PluginLoader.cpp:135-140. -/
def unloadAll (s : PluginLoader L) : PluginLoader L :=
  { s with
    libraries := s.loaded.foldl (fun libraries p => (libraries.unloadLibrary p.handle).1) s.libraries
    loaded := [] }

/- Induction on the files, from the last one. -/
theorem loadFromDirectory_preserves (image : L → Image) (platform : Platform)
    {P : PluginLoader L → Prop} (hfile : ∀ s file, P s → P (loadFile image platform s file).1)
    {s : PluginLoader L} (h : P s) (files : List (PluginFile L)) :
    P (loadFromDirectory image platform s files).1 := by
  induction files using List.reverseRecOn with
  | nil => exact h
  | append_singleton files file ih =>
    unfold loadFromDirectory at ih ⊢
    rw [List.foldl_append]
    exact hfile _ file ih

/- A file is passed over, opened and closed again for want of a symbol, or loaded. -/
theorem loadFile_cases (image : L → Image) (platform : Platform) (s : PluginLoader L)
    (file : PluginFile L) :
    loadFile image platform s file = (s, none) ∨
    (∃ l, loadFile image platform s file =
      ({ s with libraries := (s.libraries.openLibrary l).closeLibrary l }, none)) ∨
    ∃ l factories plugin, plugin.handle = some l ∧ (image l).pluginRegister = some factories ∧
      loadFile image platform s file =
        ({ ({ s with libraries := s.libraries.openLibrary l } : PluginLoader L).runRegister l factories with
          loaded := s.loaded ++ [plugin] }, some plugin) := by
  unfold loadFile
  split
  · exact .inl rfl
  · split
    · exact .inl rfl
    · cases file.library with
      | none => exact .inl rfl
      | some l =>
        simp only [Libraries.loadLibrary]
        cases hname : (image l).pluginName with
        | none => exact .inr (.inl ⟨l, rfl⟩)
        | some name =>
          cases hregister : (image l).pluginRegister with
          | none => exact .inr (.inl ⟨l, rfl⟩)
          | some factories =>
            exact .inr (.inr ⟨l, factories, ⟨name, file.path, some l⟩, rfl, hregister, rfl⟩)

end PluginLoader

/-! ### Callers -/

/-- The loader and the plugins it has returned, as its callers hold them. -/
structure PluginHost (L : Type) where
  loader : PluginLoader L
  held : List (LoadedPlugin L)

inductive LoaderCall (L : Type) where
  /-- A call over the files the iterator yields; it `throws` when the iterator
  does after them, and then its result is lost. -/
  | loadFromDirectory (files : List (PluginFile L)) (throws : Bool)
  /-- `unload` of the held plugin with this index. -/
  | unload (index : ℕ)
  | unloadAll
  /-- The caller copies a plugin it holds. -/
  | copy (index : ℕ)

namespace PluginHost

variable {L : Type} [DecidableEq L]

def initial : PluginHost L := ⟨.initial, []⟩

def step (image : L → Image) (platform : Platform) (s : PluginHost L) : LoaderCall L → PluginHost L
  | .loadFromDirectory files throws =>
    let result := s.loader.loadFromDirectory image platform files
    ⟨result.1, if throws then s.held else s.held ++ result.2⟩
  | .unload index =>
    match s.held[index]? with
    | some plugin =>
      let result := s.loader.unload plugin
      ⟨result.1, s.held.set index result.2⟩
    | none => s
  | .unloadAll => { s with loader := s.loader.unloadAll }
  | .copy index =>
    match s.held[index]? with
    | some plugin => { s with held := s.held ++ [plugin] }
    | none => s

/- The caller unloads the plugin it has under the index, if it has one. -/
theorem loader_step_unload_iff (image : L → Image) (platform : Platform) {s : PluginHost L}
    {P : PluginLoader L → Prop} (h : P s.loader) (index : ℕ) :
    P (step image platform s (.unload index)).loader ↔
      ∀ plugin, s.held[index]? = some plugin → P (s.loader.unload plugin).1 := by
  cases hheld : s.held[index]? with
  | none =>
    have hsame : step image platform s (.unload index) = s := by simp only [step, hheld]
    rw [hsame]
    simp only [reduceCtorEq, false_implies, implies_true, iff_true]
    exact h
  | some plugin =>
    have hloader : (step image platform s (.unload index)).loader = (s.loader.unload plugin).1 := by
      simp only [step, hheld]
    rw [hloader]
    constructor
    · intro hunload p hp
      rw [← Option.some.inj hp]
      exact hunload
    · intro hall
      exact hall plugin rfl

theorem loader_step_copy (image : L → Image) (platform : Platform) (s : PluginHost L) (index : ℕ) :
    (step image platform s (.copy index)).loader = s.loader := by
  simp only [step]
  cases s.held[index]? <;> rfl

/-- The state after a sequence of calls. -/
def after (image : L → Image) (platform : Platform) (calls : List (LoaderCall L)) : PluginHost L :=
  Run.after (step image platform) initial calls

end PluginHost

end Workflow
