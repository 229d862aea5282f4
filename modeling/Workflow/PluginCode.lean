import Workflow.PluginHandles

/-!
# Registered factories and the code behind them

A factory in the global registry is a pointer into a library. The registry
never gives one up and never takes a second one for a name, so a factory is
good only as long as the mapping of its library that it came from lasts.
-/

namespace Workflow

variable {L : Type}

/-- The mapping of the library that holds the factory's code is still there. -/
def LibraryFactory.Live (f : LibraryFactory L) (s : Libraries L) : Prop :=
  0 < s.count f.library ∧ f.mapping = s.mapping f.library

namespace CommandRegistry

/-- A factory that `find` or `export_to` can return. -/
def Returns (r : CommandRegistry (LibraryFactory L)) (f : LibraryFactory L) : Prop :=
  ∃ name, r.find name = some f ∨ (r.exportTo ∅).find? name = some f

/-- Some type name resolves to the library's code. -/
def ProvidedBy (r : CommandRegistry (LibraryFactory L)) (l : L) : Prop :=
  ∃ f, r.Returns f ∧ f.library = l

theorem returns_iff (r : CommandRegistry (LibraryFactory L)) (f : LibraryFactory L) :
    r.Returns f ↔ ∃ name, r.find name = some f := by
  constructor
  · rintro ⟨name, hfind | hexport⟩
    · exact ⟨name, hfind⟩
    · rw [find?_exportTo, SortedMap.find?_empty, Option.or_none] at hexport
      exact ⟨name, hexport⟩
  · intro ⟨name, hfind⟩
    exact ⟨name, .inl hfind⟩

end CommandRegistry

namespace PluginLoader

/-- Every factory that can be had from the registry is in mapped code. -/
def AllLive (s : PluginLoader L) : Prop := ∀ f, s.registry.Returns f → f.Live s.libraries

/- Closing keeps mappings and the registry; only counts can spoil a factory. -/
theorem allLive_iff_of_counts {s t : PluginLoader L} (h : s.AllLive) (hregistry : t.registry = s.registry)
    (hmapping : t.libraries.mapping = s.libraries.mapping) :
    t.AllLive ↔ ∀ l, s.registry.ProvidedBy l → 0 < t.libraries.count l := by
  constructor
  · rintro ht l ⟨f, hf, rfl⟩
    rw [← hregistry] at hf
    exact (ht f hf).1
  · intro hcount f hf
    rw [hregistry] at hf
    constructor
    · exact hcount f.library ⟨f, hf, rfl⟩
    · rw [hmapping]
      exact (h f hf).2

theorem count_pos_of_providedBy {s : PluginLoader L} (h : s.AllLive) {l : L}
    (hl : s.registry.ProvidedBy l) : 0 < s.libraries.count l := by
  obtain ⟨f, hf, rfl⟩ := hl
  exact (h f hf).1

theorem find_foldl_registerFactory (l : L) (mapping : ℕ) (factories : List (Str × ℕ))
    (r : CommandRegistry (LibraryFactory L)) (name : Str) (f : LibraryFactory L)
    (h : (factories.foldl (fun r e => (r.registerFactory e.1 ⟨l, mapping, e.2⟩).1) r).find name = some f) :
    r.find name = some f ∨ f.library = l ∧ f.mapping = mapping := by
  induction factories generalizing r with
  | nil => exact .inl h
  | cons e rest ih =>
    rcases ih _ h with hfind | hnew
    · rw [CommandRegistry.find_registerFactory] at hfind
      cases hold : r.find name with
      | some g =>
        rw [hold, Option.some_or] at hfind
        exact .inl hfind
      | none =>
        rw [hold, Option.none_or] at hfind
        split at hfind
        · have hf := Option.some.inj hfind
          rw [← hf]
          exact .inr ⟨rfl, rfl⟩
        · cases hfind
    · exact .inr hnew

/-! ### Opening and closing -/

variable [DecidableEq L]

theorem live_openLibrary {f : LibraryFactory L} {s : Libraries L} (h : f.Live s) (l : L) :
    f.Live (s.openLibrary l) := by
  obtain ⟨hcount, hmapping⟩ := h
  have hbump := bump_apply s.count l f.library
  constructor
  · show 0 < Libraries.bump s.count l f.library
    omega
  · show f.mapping = (if s.count l = 0 then Libraries.bump s.mapping l else s.mapping) f.library
    by_cases hl : s.count l = 0
    · have hne : f.library ≠ l := by
        intro hsame
        rw [hsame] at hcount
        omega
      rw [if_pos hl, Libraries.bump, if_neg hne]
      exact hmapping
    · rw [if_neg hl]
      exact hmapping

theorem count_unloadLibrary (s : Libraries L) (handle : PluginHandle L) (k : L) :
    (s.unloadLibrary handle).1.count k = s.count k - if handle = some k then 1 else 0 := by
  cases handle with
  | none => rfl
  | some l =>
    show (if k = l then s.count k - 1 else s.count k) = _
    by_cases hk : k = l
    · rw [if_pos hk, hk, if_pos rfl]
    · have hne : ¬ some l = some k := fun hs => hk (Option.some.inj hs).symm
      rw [if_neg hk, if_neg hne]
      omega

theorem mapping_unloadLibrary (s : Libraries L) (handle : PluginHandle L) :
    (s.unloadLibrary handle).1.mapping = s.mapping := by
  cases handle <;> rfl

-- An open that is closed again leaves every library as open as it was.
theorem live_reclosed {f : LibraryFactory L} {s : Libraries L} (h : f.Live s) (l : L) :
    f.Live ((s.openLibrary l).closeLibrary l) := by
  obtain ⟨-, hmapping⟩ := live_openLibrary h l
  constructor
  · have hcount := count_unloadLibrary (s.openLibrary l) (some l) f.library
    have hbump := bump_apply s.count l f.library
    have hopen : (s.openLibrary l).count f.library = Libraries.bump s.count l f.library := rfl
    have hpos := h.1
    show 0 < ((s.openLibrary l).unloadLibrary (some l)).1.count f.library
    omega
  · exact hmapping

/-! ### What each call does -/

theorem allLive_loadFile (image : L → Image) (platform : Platform) {s : PluginLoader L}
    (h : s.AllLive) (file : PluginFile L) : (loadFile image platform s file).1.AllLive := by
  rcases loadFile_cases image platform s file with hload | ⟨l, hload⟩ | ⟨l, factories, plugin, -, -, hload⟩
  · rw [hload]
    exact h
  · rw [hload]
    intro f hf
    exact live_reclosed (h f hf) l
  · rw [hload]
    intro f hf
    obtain ⟨name, hfind⟩ := (CommandRegistry.returns_iff _ f).mp hf
    rcases find_foldl_registerFactory l _ factories s.registry name f hfind with hold | ⟨hl, hmapping⟩
    · exact live_openLibrary (h f ((CommandRegistry.returns_iff _ f).mpr ⟨name, hold⟩)) l
    · have hbump := bump_apply s.libraries.count l l
      rw [if_pos rfl] at hbump
      constructor
      · rw [hl]
        show 0 < Libraries.bump s.libraries.count l l
        omega
      · rw [hl]
        exact hmapping

theorem allLive_loadFromDirectory (image : L → Image) (platform : Platform) {s : PluginLoader L}
    (h : s.AllLive) (files : List (PluginFile L)) :
    (loadFromDirectory image platform s files).1.AllLive :=
  loadFromDirectory_preserves image platform (P := AllLive)
    (fun _ file hs => allLive_loadFile image platform hs file) h files

theorem allLive_unload_iff {s : PluginLoader L} (h : s.AllLive) (plugin : LoadedPlugin L) :
    (s.unload plugin).1.AllLive ↔
      ∀ l, plugin.handle = some l → s.libraries.count l = 1 → ¬ s.registry.ProvidedBy l := by
  have hcount := count_unloadLibrary s.libraries plugin.handle
  have hmapping : (s.unload plugin).1.libraries.mapping = s.libraries.mapping :=
    mapping_unloadLibrary s.libraries plugin.handle
  have hregistry : (s.unload plugin).1.registry = s.registry := rfl
  rw [allLive_iff_of_counts h hregistry hmapping]
  show (∀ l, s.registry.ProvidedBy l → 0 < (s.libraries.unloadLibrary plugin.handle).1.count l) ↔ _
  constructor
  · intro hall l hl hone hprovided
    have hpos := hall l hprovided
    rw [hcount, if_pos hl] at hpos
    omega
  · intro hall l hprovided
    have hpos := count_pos_of_providedBy h hprovided
    rw [hcount]
    by_cases hl : plugin.handle = some l
    · have hone : s.libraries.count l ≠ 1 := fun hone => hall l hl hone hprovided
      rw [if_pos hl]
      omega
    · rw [if_neg hl]
      omega

theorem unloadAll_code (s : PluginLoader L) :
    s.unloadAll.libraries.mapping = s.libraries.mapping ∧
      ∀ k, s.unloadAll.libraries.count k = s.libraries.count k - s.owned k := by
  unfold unloadAll owned
  generalize s.libraries = libraries
  induction s.loaded generalizing libraries with
  | nil => exact ⟨rfl, fun _ => rfl⟩
  | cons p loaded ih =>
    obtain ⟨hmapping, hcount⟩ := ih (libraries.unloadLibrary p.handle).1
    simp only [List.foldl_cons]
    constructor
    · rw [hmapping, mapping_unloadLibrary]
    · intro k
      rw [hcount k, count_unloadLibrary, List.countP_cons]
      simp only [decide_eq_true_eq]
      omega

theorem allLive_unloadAll_iff {s : PluginLoader L} (h : s.AllLive) :
    s.unloadAll.AllLive ↔ ∀ l, s.registry.ProvidedBy l → s.owned l < s.libraries.count l := by
  obtain ⟨hmapping, hcount⟩ := unloadAll_code s
  have hregistry : s.unloadAll.registry = s.registry := rfl
  rw [allLive_iff_of_counts h hregistry hmapping]
  constructor
  · intro hall l hprovided
    have hpos := hall l hprovided
    rw [hcount] at hpos
    omega
  · intro hall l hprovided
    have hlt := hall l hprovided
    rw [hcount]
    omega

end PluginLoader

namespace PluginHost

/-- Every factory to be had is of an open library, and of the code that was
loaded last, in case the library was unloaded and loaded again. -/
structure FactoriesLive (s : PluginHost L) : Prop where
  open_library : ∀ f, s.loader.registry.Returns f → 0 < s.loader.libraries.count f.library
  newest_code : ∀ name f, s.loader.registry.find name = some f →
    f.mapping = s.loader.libraries.mapping f.library

theorem factoriesLive_iff (s : PluginHost L) : s.FactoriesLive ↔ s.loader.AllLive := by
  constructor
  · intro h f hf
    obtain ⟨name, hfind⟩ := (CommandRegistry.returns_iff _ f).mp hf
    exact ⟨h.open_library f hf, h.newest_code name f hfind⟩
  · intro h
    constructor
    · intro f hf
      exact (h f hf).1
    · intro name f hfind
      exact (h f ((CommandRegistry.returns_iff _ f).mpr ⟨name, hfind⟩)).2

variable [DecidableEq L]

/-- The call closes the last handle of no library that provides a type. -/
def KeepsProviders (s : PluginHost L) : LoaderCall L → Prop
  | .unload index => ∀ plugin, s.held[index]? = some plugin → ∀ l, plugin.handle = some l →
      s.loader.libraries.count l = 1 → ¬ s.loader.registry.ProvidedBy l
  | .unloadAll => ∀ l, s.loader.registry.ProvidedBy l → s.loader.owned l < s.loader.libraries.count l
  | _ => True

theorem factoriesLive_step_iff (image : L → Image) (platform : Platform) {s : PluginHost L}
    (h : s.FactoriesLive) (call : LoaderCall L) :
    (step image platform s call).FactoriesLive ↔ s.KeepsProviders call := by
  have hlive := (factoriesLive_iff s).mp h
  rw [factoriesLive_iff]
  cases call with
  | loadFromDirectory files throws =>
    have hload := PluginLoader.allLive_loadFromDirectory image platform hlive files
    exact ⟨fun _ => trivial, fun _ => hload⟩
  | unload index =>
    rw [loader_step_unload_iff image platform hlive index]
    exact forall₂_congr fun plugin _ => PluginLoader.allLive_unload_iff hlive plugin
  | unloadAll => exact PluginLoader.allLive_unloadAll_iff hlive
  | copy index =>
    rw [loader_step_copy]
    exact ⟨fun _ => trivial, fun _ => hlive⟩

/- In every run: no factory outlives its library as long as, and only as long
as, no call closes the last handle of a library that provides a type. -/
theorem factoriesLive_always_iff (image : L → Image) (platform : Platform) (calls : List (LoaderCall L)) :
    Run.Always (step image platform) FactoriesLive initial calls ↔
      Run.EachStep (step image platform) KeepsProviders initial calls := by
  apply Run.always_iff_eachStep
  · constructor
    · rintro f ⟨name, hfind | hfind⟩ <;> cases hfind
    · intro name f hfind
      cases hfind
  · intro s call h
    exact factoriesLive_step_iff image platform h call

/- The registry goes on returning the factory of an unloaded library, and the
same factory after the library has been loaded again. -/
theorem factoriesLive_fails :
    ¬ (∀ calls : List (LoaderCall ℕ),
      Run.Always (step mockImage .windows) FactoriesLive initial calls) ∧
    (after mockImage .windows
      [.loadFromDirectory [mockFile] false, .unloadAll]).loader.registry.find (lit "T")
        = some ⟨7, 1, 0⟩ ∧
    (after mockImage .windows [.loadFromDirectory [mockFile] false, .unloadAll,
      .loadFromDirectory [mockFile] false]).loader.registry.find (lit "T") = some ⟨7, 1, 0⟩ ∧
    (after mockImage .windows [.loadFromDirectory [mockFile] false, .unloadAll,
      .loadFromDirectory [mockFile] false]).loader.libraries.mapping 7 = 2 := by
  have hstale : (after mockImage .windows
      [.loadFromDirectory [mockFile] false, .unloadAll]).loader.registry.find (lit "T")
        = some ⟨7, 1, 0⟩ := by
    decide
  refine ⟨?_, hstale, by decide, by decide⟩
  intro h
  have hopen := (h [.loadFromDirectory [mockFile] false, .unloadAll] _ (List.prefix_refl _)).open_library
    ⟨7, 1, 0⟩ ⟨lit "T", .inl hstale⟩
  revert hopen
  decide

end PluginHost

end Workflow
