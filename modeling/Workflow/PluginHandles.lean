import Workflow.PluginLoader

/-!
# Opens and closes of the plugin loader

The loader owns one open of a library for each of its entries with that
library's handle. Loading and `unload_all` keep this account; `unload` closes
the caller's handle and drops the entry it finds by path, and these two need
not belong together.
-/

namespace Workflow.PluginLoader

variable {L : Type} [DecidableEq L]

/-- The opens of a library that the entries of `loaded_` stand for. -/
def owned (s : PluginLoader L) (l : L) : ℕ := s.loaded.countP fun p => p.handle = some l

def Balanced (s : PluginLoader L) : Prop :=
  ∀ l, s.libraries.closes l + s.owned l = s.libraries.opens l

/-! ### Counting -/

theorem bump_apply (f : L → ℕ) (l k : L) :
    Libraries.bump f l k = f k + if some l = some k then 1 else 0 := by
  unfold Libraries.bump
  by_cases h : k = l
  · rw [if_pos h, h, if_pos rfl]
  · have hne : ¬ some l = some k := fun hs => h (Option.some.inj hs).symm
    rw [if_neg h, if_neg hne, Nat.add_zero]

theorem closes_unloadLibrary (s : Libraries L) (handle : PluginHandle L) (k : L) :
    (s.unloadLibrary handle).1.closes k = s.closes k + if handle = some k then 1 else 0 := by
  cases handle with
  | none => rfl
  | some l => exact bump_apply s.closes l k

theorem opens_unloadLibrary (s : Libraries L) (handle : PluginHandle L) (k : L) :
    (s.unloadLibrary handle).1.opens k = s.opens k := by
  cases handle <;> rfl

theorem countP_eraseP {α : Type} (p q : α → Bool) (l : List α) :
    l.countP p = (l.eraseP q).countP p + if (l.find? q).any p then 1 else 0 := by
  induction l with
  | nil => rfl
  | cons a l ih =>
    cases hq : q a with
    | true =>
      rw [List.eraseP_cons_of_pos hq, List.find?_cons_of_pos hq, List.countP_cons]
      rfl
    | false =>
      have hneg : ¬ q a = true := by simp [hq]
      rw [List.eraseP_cons_of_neg hneg, List.find?_cons_of_neg hneg, List.countP_cons,
        List.countP_cons, ih]
      omega

theorem owned_append (s : PluginLoader L) (p : LoadedPlugin L) (l : L) :
    ({ s with loaded := s.loaded ++ [p] } : PluginLoader L).owned l =
      s.owned l + if p.handle = some l then 1 else 0 := by
  unfold owned
  rw [List.countP_append, List.countP_singleton]
  simp

/-! ### What each call does to the account -/

theorem balanced_loadFile (image : L → Image) (platform : Platform) {s : PluginLoader L}
    (h : s.Balanced) (file : PluginFile L) : (loadFile image platform s file).1.Balanced := by
  intro k
  have hk := h k
  rcases loadFile_cases image platform s file with hload | ⟨l, hload⟩ | ⟨l, factories, plugin, hp, -, hload⟩
  · rw [hload]
    exact hk
  · have hopen := bump_apply s.libraries.opens l k
    have hclose := bump_apply s.libraries.closes l k
    rw [hload]
    show Libraries.bump s.libraries.closes l k + s.owned k = Libraries.bump s.libraries.opens l k
    omega
  · have hopen := bump_apply s.libraries.opens l k
    have howned := owned_append s plugin k
    rw [hp] at howned
    rw [hload]
    show s.libraries.closes k +
        ({ s with loaded := s.loaded ++ [plugin] } : PluginLoader L).owned k =
      Libraries.bump s.libraries.opens l k
    omega

theorem balanced_loadFromDirectory (image : L → Image) (platform : Platform) {s : PluginLoader L}
    (h : s.Balanced) (files : List (PluginFile L)) :
    (loadFromDirectory image platform s files).1.Balanced :=
  loadFromDirectory_preserves image platform (P := Balanced)
    (fun _ file hs => balanced_loadFile image platform hs file) h files

/- An `unload` closes the caller's handle and drops the first entry with its path. -/
theorem account_unload (s : PluginLoader L) (plugin : LoadedPlugin L) (k : L) :
    (s.unload plugin).1.libraries.opens k = s.libraries.opens k ∧
    (s.unload plugin).1.libraries.closes k =
      s.libraries.closes k + (if plugin.handle = some k then 1 else 0) ∧
    s.owned k = (s.unload plugin).1.owned k +
      if (s.loaded.find? fun p => p.path = plugin.path).bind LoadedPlugin.handle = some k then 1 else 0 := by
  refine ⟨opens_unloadLibrary _ _ _, closes_unloadLibrary _ _ _, ?_⟩
  have hcount := countP_eraseP (fun p : LoadedPlugin L => decide (p.handle = some k))
    (fun p => decide (p.path = plugin.path)) s.loaded
  unfold owned unload
  rw [hcount]
  congr 1
  cases s.loaded.find? fun p => decide (p.path = plugin.path) with
  | none => rfl
  | some p => simp

theorem balanced_unload_iff {s : PluginLoader L} (h : s.Balanced) (plugin : LoadedPlugin L) :
    (s.unload plugin).1.Balanced ↔
      plugin.handle = (s.loaded.find? fun p => p.path = plugin.path).bind LoadedPlugin.handle := by
  generalize hentry : (s.loaded.find? fun p => p.path = plugin.path).bind LoadedPlugin.handle = entry
  have haccount : ∀ k, (s.unload plugin).1.libraries.closes k + (s.unload plugin).1.owned k =
      (s.unload plugin).1.libraries.opens k ↔ (plugin.handle = some k ↔ entry = some k) := by
    intro k
    obtain ⟨hopens, hcloses, howned⟩ := account_unload s plugin k
    rw [hentry] at howned
    have hk := h k
    have hiff : ((if plugin.handle = some k then 1 else 0 : ℕ) = if entry = some k then 1 else 0) ↔
        (plugin.handle = some k ↔ entry = some k) := by
      by_cases hp : plugin.handle = some k <;> by_cases he : entry = some k <;> simp [hp, he]
    rw [← hiff, hopens, hcloses]
    omega
  constructor
  · intro hb
    apply Option.ext
    intro k
    exact (haccount k).mp (hb k)
  · intro hsame k
    exact (haccount k).mpr (by rw [hsame])

theorem unloadAll_counts (s : PluginLoader L) (k : L) :
    s.unloadAll.libraries.opens k = s.libraries.opens k ∧
      s.unloadAll.libraries.closes k = s.libraries.closes k + s.owned k := by
  unfold unloadAll owned
  generalize s.libraries = libraries
  induction s.loaded generalizing libraries with
  | nil => exact ⟨rfl, rfl⟩
  | cons p loaded ih =>
    obtain ⟨hopens, hcloses⟩ := ih (libraries.unloadLibrary p.handle).1
    have hclose := closes_unloadLibrary libraries p.handle k
    simp only [List.foldl_cons]
    constructor
    · rw [hopens, opens_unloadLibrary]
    · rw [hcloses, hclose, List.countP_cons]
      simp only [decide_eq_true_eq]
      omega

theorem balanced_unloadAll_iff (s : PluginLoader L) : s.unloadAll.Balanced ↔ s.Balanced := by
  have hnone : ∀ k, s.unloadAll.owned k = 0 := fun _ => rfl
  constructor
  · intro h k
    obtain ⟨hopens, hcloses⟩ := unloadAll_counts s k
    have hk := h k
    have hn := hnone k
    omega
  · intro h k
    obtain ⟨hopens, hcloses⟩ := unloadAll_counts s k
    have hk := h k
    have hn := hnone k
    omega

end Workflow.PluginLoader

namespace Workflow.PluginHost

open PluginLoader

variable {L : Type} [DecidableEq L]

/-- No library closed more often than opened; as often, once all are unloaded. -/
structure ClosedOnce (s : PluginHost L) : Prop where
  never_exceeds : ∀ l, s.loader.libraries.closes l ≤ s.loader.libraries.opens l
  none_leaks : ∀ l, s.loader.unloadAll.libraries.closes l = s.loader.unloadAll.libraries.opens l

theorem closedOnce_iff (s : PluginHost L) : s.ClosedOnce ↔ s.loader.Balanced := by
  constructor
  · intro h l
    obtain ⟨hopens, hcloses⟩ := unloadAll_counts s.loader l
    have hl := h.none_leaks l
    omega
  · intro h
    constructor
    · intro l
      have hl := h l
      omega
    · intro l
      obtain ⟨hopens, hcloses⟩ := unloadAll_counts s.loader l
      have hl := h l
      omega

/-- The handle of the plugin to be unloaded is the handle of the first entry of
`loaded_` with its path; both are null, where there is no such entry. -/
def MatchesEntry (s : PluginHost L) : LoaderCall L → Prop
  | .unload index => ∀ plugin, s.held[index]? = some plugin →
      plugin.handle = (s.loader.loaded.find? fun p => p.path = plugin.path).bind LoadedPlugin.handle
  | _ => True

theorem closedOnce_step_iff (image : L → Image) (platform : Platform) {s : PluginHost L}
    (h : s.ClosedOnce) (call : LoaderCall L) :
    (step image platform s call).ClosedOnce ↔ s.MatchesEntry call := by
  have hb := (closedOnce_iff s).mp h
  rw [closedOnce_iff]
  cases call with
  | loadFromDirectory files throws =>
    have hload := balanced_loadFromDirectory image platform hb files
    exact ⟨fun _ => trivial, fun _ => hload⟩
  | unload index =>
    rw [loader_step_unload_iff image platform hb index]
    exact forall₂_congr fun plugin _ => balanced_unload_iff hb plugin
  | unloadAll => exact ⟨fun _ => trivial, fun _ => (balanced_unloadAll_iff s.loader).mpr hb⟩
  | copy index =>
    rw [loader_step_copy]
    exact ⟨fun _ => trivial, fun _ => hb⟩

/- In every run: handles are closed exactly once as long as, and only as long
as, each `unload` finds its plugin's own entry by its path. -/
theorem closedOnce_always_iff (image : L → Image) (platform : Platform) (calls : List (LoaderCall L)) :
    Run.Always (step image platform) ClosedOnce initial calls ↔
      Run.EachStep (step image platform) MatchesEntry initial calls := by
  apply Run.always_iff_eachStep
  · constructor
    · intro l
      exact Nat.le_refl _
    · intro l
      rfl
  · intro s call h
    exact closedOnce_step_iff image platform h call

/-! ### Stale and doubled plugins -/

def mockImage : ℕ → Image := fun _ => ⟨some (lit "Plugin"), some [(lit "T", 0)]⟩

def mockFile : PluginFile ℕ := ⟨lit "plugins/p.dll", true, lit ".dll", some 7⟩

/- `unload_all` leaves the callers' handles as they are, and the second
`unload` of one plugin drops the other entry with its path. -/
theorem closedOnce_fails :
    ¬ (∀ calls : List (LoaderCall ℕ),
      Run.Always (step mockImage .windows) ClosedOnce initial calls) ∧
    (after mockImage .windows
      [.loadFromDirectory [mockFile] false, .unloadAll, .unload 0]).loader.libraries.closes 7 = 2 ∧
    (after mockImage .windows [.loadFromDirectory [mockFile] false, .loadFromDirectory [mockFile] false,
      .unload 0, .unload 0, .unloadAll]).loader.libraries.closes 7 = 1 := by
  refine ⟨?_, by decide, by decide⟩
  intro h
  have hclosed := (h [.loadFromDirectory [mockFile] false, .unloadAll, .unload 0] _
    (List.prefix_refl _)).never_exceeds 7
  revert hclosed
  decide

end Workflow.PluginHost
