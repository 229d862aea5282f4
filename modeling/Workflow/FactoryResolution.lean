import Workflow.CommandRegistry

/-!
# Which factory serves a type

A history is the order in which critical sections and local registrations take
effect, whoever makes the calls. In the global registry the first writer wins;
in the engine the last one does, a sync being a writer of every global name.
-/

namespace Workflow

inductive RegistryEvent (F : Type) where
  | registerFactory (typeName : Str) (factory : F)
  | registerCommandFactory (typeName : Str) (factory : F)
  | registerCommand (typeName : Str) (factory : F)
  -- the three critical sections of `sync_from_registry`
  | syncSize
  | syncExport
  | syncNames

structure Tables (F : Type) where
  global : CommandRegistry F
  engine : EngineTable F

namespace Tables

variable {F : Type}

def initial : Tables F := ⟨.empty, ⟨∅, []⟩⟩

/-- The tables after the event, and what a call of `register_factory` returned. -/
def step (t : Tables F) : RegistryEvent F → Tables F × Option Bool
  | .registerFactory typeName factory =>
    ({ t with global := (t.global.registerFactory typeName factory).1 },
      some (t.global.registerFactory typeName factory).2)
  | .registerCommandFactory typeName factory =>
    ({ t with engine := t.engine.registerCommandFactory typeName factory }, none)
  | .registerCommand typeName factory =>
    ({ t with engine := t.engine.registerCommand typeName factory }, none)
  | .syncSize => ({ t with engine := t.engine.syncSize t.global }, none)
  | .syncExport => ({ t with engine := t.engine.syncExport t.global }, none)
  | .syncNames => ({ t with engine := t.engine.syncNames t.global }, none)

/-- The returns stand at the positions of their calls. -/
def run (history : List (RegistryEvent F)) : Tables F × List (Option Bool) :=
  history.foldl (fun acc event => ((acc.1.step event).1, acc.2 ++ [(acc.1.step event).2])) (initial, [])

def after (history : List (RegistryEvent F)) : Tables F := (run history).1

def returns (history : List (RegistryEvent F)) : List (Option Bool) := (run history).2

theorem after_concat (history : List (RegistryEvent F)) (event : RegistryEvent F) :
    after (history ++ [event]) = ((after history).step event).1 := by
  unfold after run
  rw [List.foldl_append]
  rfl

/- A sync that nobody interrupts is the three events in a row. -/
theorem after_sync (history : List (RegistryEvent F)) :
    after (history ++ [.syncSize, .syncExport, .syncNames])
      = { after history with
          engine := (after history).engine.syncFromRegistry (after history).global } := by
  have hsplit : history ++ [RegistryEvent.syncSize, .syncExport, .syncNames]
      = history ++ [.syncSize] ++ [.syncExport] ++ [.syncNames] := by simp
  rw [hsplit, after_concat, after_concat, after_concat]
  rfl

theorem returns_concat (history : List (RegistryEvent F)) (event : RegistryEvent F) :
    returns (history ++ [event]) = returns history ++ [((after history).step event).2] := by
  unfold returns after run
  rw [List.foldl_append]
  rfl

theorem length_returns (history : List (RegistryEvent F)) :
    (returns history).length = history.length := by
  induction history using List.reverseRecOn with
  | nil => rfl
  | append_singleton history event ih =>
    rw [returns_concat, List.length_append, List.length_append, ih]
    rfl

/-- A factory resolved for a name, by the engine's own table. -/
def resolve (t : Tables F) (typeName : Str) : Option F := t.engine.registry.find? typeName

/-! ### What one event does to a name -/

def registered (name : Str) : RegistryEvent F → Option F
  | .registerFactory typeName factory => if name = typeName then some factory else none
  | _ => none

def registeredLocally (name : Str) : RegistryEvent F → Option F
  | .registerCommandFactory typeName factory => if name = typeName then some factory else none
  | .registerCommand typeName factory => if name = typeName then some factory else none
  | _ => none

def syncs : RegistryEvent F → Bool
  | .syncExport => true
  | _ => false

theorem find_step (t : Tables F) (event : RegistryEvent F) (name : Str) :
    (t.step event).1.global.find name = (t.global.find name).or (registered name event) := by
  cases event with
  | registerFactory typeName factory => exact CommandRegistry.find_registerFactory _ _ _ _
  | _ => exact (Option.or_none).symm

theorem find?_insert (m : SortedMap Str F) (typeName name : Str) (factory : F) :
    (m.insert typeName factory).find? name =
      (if name = typeName then some factory else none).or (m.find? name) := by
  by_cases hname : name = typeName
  · rw [hname, SortedMap.find?_insert_self, if_pos rfl, Option.some_or]
  · rw [SortedMap.find?_insert_ne _ hname, if_neg hname, Option.none_or]

theorem resolve_step (t : Tables F) (event : RegistryEvent F) (name : Str) :
    (t.step event).1.resolve name =
      if syncs event then (t.global.find name).or (t.resolve name)
      else (registeredLocally name event).or (t.resolve name) := by
  cases event with
  | registerCommandFactory typeName factory => exact find?_insert _ _ _ _
  | registerCommand typeName factory => exact find?_insert _ _ _ _
  | syncExport => exact CommandRegistry.find?_exportTo _ _ _
  | _ => rfl

/-! ### What a history holds for a name -/

def At (what : RegistryEvent F → Option F) (history : List (RegistryEvent F)) (i : ℕ) (factory : F) :
    Prop := ∃ event, history[i]? = some event ∧ what event = some factory

def RegisteredAt (history : List (RegistryEvent F)) (name : Str) (i : ℕ) (factory : F) : Prop :=
  At (registered name) history i factory

def LocalAt (history : List (RegistryEvent F)) (name : Str) (i : ℕ) (factory : F) : Prop :=
  At (registeredLocally name) history i factory

/-- A sync at a time when the name is in the global registry. -/
def SyncedAt (history : List (RegistryEvent F)) (name : Str) (i : ℕ) : Prop :=
  history[i]? = some .syncExport ∧ ∃ k < i, ∃ factory, RegisteredAt history name k factory

def FirstRegistered (history : List (RegistryEvent F)) (name : Str) (factory : F) : Prop :=
  ∃ i, RegisteredAt history name i factory ∧ ∀ k < i, ∀ other, ¬ RegisteredAt history name k other

/-- The documented answer to which factory serves the name. -/
inductive Serves (history : List (RegistryEvent F)) (name : Str) : Option F → Prop
  | localFactory (i : ℕ) (factory : F) (here : LocalAt history name i factory)
      (last : ∀ k, i < k → (∀ other, ¬ LocalAt history name k other) ∧ ¬ SyncedAt history name k) :
      Serves history name (some factory)
  | globalFactory (i : ℕ) (factory : F) (here : SyncedAt history name i)
      (last : ∀ k, i < k → ∀ other, ¬ LocalAt history name k other)
      (first : FirstRegistered history name factory) : Serves history name (some factory)
  | nothing (never : ∀ i, (∀ factory, ¬ LocalAt history name i factory) ∧ ¬ SyncedAt history name i) :
      Serves history name none

/-! ### One event more -/

theorem At.lt_length {what : RegistryEvent F → Option F} {history : List (RegistryEvent F)} {i : ℕ}
    {factory : F} (h : At what history i factory) : i < history.length := by
  obtain ⟨event, hevent, -⟩ := h
  exact (List.getElem?_eq_some_iff.mp hevent).1

theorem getElem?_concat (history : List (RegistryEvent F)) (event e : RegistryEvent F) (i : ℕ) :
    (history ++ [event])[i]? = some e ↔ history[i]? = some e ∨ i = history.length ∧ event = e := by
  by_cases hi : i < history.length
  · have hne : i ≠ history.length := by omega
    rw [List.getElem?_append_left hi]
    simp [hne]
  · have hnone : history[i]? = none := List.getElem?_eq_none (by omega)
    rw [List.getElem?_append_right (by omega), hnone]
    by_cases hlast : i = history.length
    · simp [hlast]
    · have hrest : [event][i - history.length]? = none := List.getElem?_eq_none (by simp; omega)
      simp [hlast, hrest]

theorem at_concat (what : RegistryEvent F → Option F) (history : List (RegistryEvent F))
    (event : RegistryEvent F) (i : ℕ) (factory : F) :
    At what (history ++ [event]) i factory ↔
      At what history i factory ∨ i = history.length ∧ what event = some factory := by
  constructor
  · intro ⟨e, he, hwhat⟩
    rcases (getElem?_concat history event e i).mp he with he | ⟨hi, rfl⟩
    · exact .inl ⟨e, he, hwhat⟩
    · exact .inr ⟨hi, hwhat⟩
  · rintro (⟨e, he, hwhat⟩ | ⟨hi, hwhat⟩)
    · exact ⟨e, (getElem?_concat history event e i).mpr (.inl he), hwhat⟩
    · exact ⟨event, (getElem?_concat history event event i).mpr (.inr ⟨hi, rfl⟩), hwhat⟩

/- An event at the end changes nothing of what stands before it. -/
theorem at_concat_of_lt (what : RegistryEvent F → Option F) {history : List (RegistryEvent F)}
    (event : RegistryEvent F) {i : ℕ} (hi : i < history.length) (factory : F) :
    At what (history ++ [event]) i factory ↔ At what history i factory := by
  have hne : i ≠ history.length := by omega
  rw [at_concat]
  simp [hne]

theorem syncedAt_concat (history : List (RegistryEvent F)) (event : RegistryEvent F) (name : Str)
    (i : ℕ) : SyncedAt (history ++ [event]) name i ↔ SyncedAt history name i ∨
      i = history.length ∧ event = .syncExport ∧ ∃ k factory, RegisteredAt history name k factory := by
  constructor
  · intro ⟨hsync, k, hk, factory, hregistered⟩
    have hi := (List.getElem?_eq_some_iff.mp hsync).1
    rw [List.length_append, List.length_singleton] at hi
    have hold : RegisteredAt history name k factory :=
      (at_concat_of_lt _ event (by omega) factory).mp hregistered
    rcases (getElem?_concat history event _ i).mp hsync with hsync | ⟨hi, hevent⟩
    · exact .inl ⟨hsync, k, hk, factory, hold⟩
    · exact .inr ⟨hi, hevent, k, factory, hold⟩
  · rintro (⟨hsync, k, hk, factory, hregistered⟩ | ⟨hi, hevent, k, factory, hregistered⟩)
    · exact ⟨(getElem?_concat history event _ i).mpr (.inl hsync), k, hk, factory,
        (at_concat _ history event k factory).mpr (.inl hregistered)⟩
    · have hk := hregistered.lt_length
      exact ⟨(getElem?_concat history event _ i).mpr (.inr ⟨hi, hevent⟩), k, by omega, factory,
        (at_concat _ history event k factory).mpr (.inl hregistered)⟩

/-! ### The global registry: the first writer wins -/

theorem firstRegistered_concat {history : List (RegistryEvent F)} {name : Str} {factory : F}
    (h : FirstRegistered history name factory) (event : RegistryEvent F) :
    FirstRegistered (history ++ [event]) name factory := by
  obtain ⟨i, hi, hfirst⟩ := h
  have hlt := At.lt_length hi
  refine ⟨i, (at_concat_of_lt _ event hlt factory).mpr hi, ?_⟩
  intro k hk other hother
  exact hfirst k hk other ((at_concat_of_lt _ event (by omega) other).mp hother)

theorem FirstRegistered.unique {history : List (RegistryEvent F)} {name : Str} {f g : F}
    (hf : FirstRegistered history name f) (hg : FirstRegistered history name g) : f = g := by
  obtain ⟨i, ⟨e, he, hef⟩, hifirst⟩ := hf
  obtain ⟨k, ⟨e', he', heg⟩, hkfirst⟩ := hg
  have hki : ¬ k < i := fun hlt => hifirst k hlt g ⟨e', he', heg⟩
  have hik : ¬ i < k := fun hlt => hkfirst i hlt f ⟨e, he, hef⟩
  have hsame : i = k := by omega
  rw [hsame, he'] at he
  rw [← Option.some.inj he, heg] at hef
  exact (Option.some.inj hef).symm

/- The registry after a history: the first registration of the name, if any. -/
theorem find_after (history : List (RegistryEvent F)) (name : Str) :
    match (after history).global.find name with
    | some factory => FirstRegistered history name factory
    | none => ∀ i factory, ¬ RegisteredAt history name i factory := by
  induction history using List.reverseRecOn with
  | nil =>
    rintro i factory ⟨event, hevent, -⟩
    simp at hevent
  | append_singleton history event ih =>
    rw [after_concat, find_step]
    cases hfind : (after history).global.find name with
    | some factory =>
      rw [hfind] at ih
      exact firstRegistered_concat ih event
    | none =>
      rw [hfind] at ih
      rw [Option.none_or]
      cases hevent : registered name event with
      | some factory =>
        refine ⟨history.length, (at_concat _ history event _ factory).mpr (.inr ⟨rfl, hevent⟩), ?_⟩
        intro k hk other hother
        exact ih k other ((at_concat_of_lt _ event hk other).mp hother)
      | none =>
        intro i factory hregistered
        rcases (at_concat _ history event i factory).mp hregistered with hold | ⟨-, hsome⟩
        · exact ih i factory hold
        · rw [hevent] at hsome
          cases hsome

theorem find_after_eq_some_iff (history : List (RegistryEvent F)) (name : Str) (factory : F) :
    (after history).global.find name = some factory ↔ FirstRegistered history name factory := by
  have h := find_after history name
  constructor
  · intro hfind
    rw [hfind] at h
    exact h
  · intro hfirst
    cases hfind : (after history).global.find name with
    | some other =>
      rw [hfind] at h
      rw [FirstRegistered.unique h hfirst]
    | none =>
      rw [hfind] at h
      obtain ⟨i, hi, -⟩ := hfirst
      exact absurd hi (h i factory)

theorem find_after_eq_none_iff (history : List (RegistryEvent F)) (name : Str) :
    (after history).global.find name = none ↔ ∀ i factory, ¬ RegisteredAt history name i factory := by
  have h := find_after history name
  constructor
  · intro hfind
    rw [hfind] at h
    exact h
  · intro hnever
    cases hfind : (after history).global.find name with
    | some other =>
      rw [hfind] at h
      obtain ⟨i, hi, -⟩ := h
      exact absurd hi (hnever i other)
    | none => rfl

/-! ### The engine: the last writer wins -/

theorem Serves.unique {history : List (RegistryEvent F)} {name : Str} {r r' : Option F}
    (h : Serves history name r) (h' : Serves history name r') : r = r' := by
  cases h with
  | localFactory i f here last =>
    cases h' with
    | localFactory k g here' last' =>
      have hik : ¬ i < k := fun hlt => (last k hlt).1 g here'
      have hki : ¬ k < i := fun hlt => (last' i hlt).1 f here
      have hsame : i = k := by omega
      obtain ⟨e, he, hf⟩ := here
      obtain ⟨e', he', hg⟩ := here'
      rw [hsame, he'] at he
      rw [← hf, ← hg, Option.some.inj he]
    | globalFactory k g here' last' first' =>
      have hik : ¬ i < k := fun hlt => (last k hlt).2 here'
      have hki : ¬ k < i := fun hlt => last' i hlt f here
      have hsame : i = k := by omega
      obtain ⟨e, he, hf⟩ := here
      rw [hsame, here'.1] at he
      rw [← Option.some.inj he] at hf
      cases hf
    | nothing never => exact absurd here ((never i).1 f)
  | globalFactory i f here last first =>
    cases h' with
    | localFactory k g here' last' =>
      have hik : ¬ i < k := fun hlt => last k hlt g here'
      have hki : ¬ k < i := fun hlt => (last' i hlt).2 here
      have hsame : i = k := by omega
      obtain ⟨e, he, hg⟩ := here'
      rw [← hsame, here.1] at he
      rw [← Option.some.inj he] at hg
      cases hg
    | globalFactory k g here' last' first' => rw [FirstRegistered.unique first first']
    | nothing never => exact absurd here (never i).2
  | nothing never =>
    cases h' with
    | localFactory k g here' last' => exact absurd here' ((never k).1 g)
    | globalFactory k g here' last' first' => exact absurd here' (never k).2
    | nothing never' => rfl

/- An event that neither registers the name locally nor syncs it in. -/
theorem Serves.concat {history : List (RegistryEvent F)} {name : Str} {r : Option F}
    (h : Serves history name r) {event : RegistryEvent F} (hlocal : registeredLocally name event = none)
    (hsync : event = .syncExport → ∀ k factory, ¬ RegisteredAt history name k factory) :
    Serves (history ++ [event]) name r := by
  have hlocalAt : ∀ i factory, LocalAt (history ++ [event]) name i factory →
      LocalAt history name i factory := by
    intro i factory hi
    rcases (at_concat _ history event i factory).mp hi with hi | ⟨-, hsome⟩
    · exact hi
    · rw [hlocal] at hsome
      cases hsome
  have hsyncedAt : ∀ i, SyncedAt (history ++ [event]) name i → SyncedAt history name i := by
    intro i hi
    rcases (syncedAt_concat history event name i).mp hi with hi | ⟨-, hevent, k, factory, hk⟩
    · exact hi
    · exact absurd hk (hsync hevent k factory)
  cases h with
  | localFactory i factory here last =>
    apply Serves.localFactory i factory
    · exact (at_concat _ history event i factory).mpr (.inl here)
    · intro k hk
      exact ⟨fun other ho => (last k hk).1 other (hlocalAt k other ho),
        fun hs => (last k hk).2 (hsyncedAt k hs)⟩
  | globalFactory i factory here last first =>
    apply Serves.globalFactory i factory
    · exact (syncedAt_concat history event name i).mpr (.inl here)
    · intro k hk other ho
      exact last k hk other (hlocalAt k other ho)
    · exact firstRegistered_concat first event
  | nothing never =>
    apply Serves.nothing
    intro i
    exact ⟨fun factory hi => (never i).1 factory (hlocalAt i factory hi),
      fun hs => (never i).2 (hsyncedAt i hs)⟩

theorem LocalAt.le_length {history : List (RegistryEvent F)} {event : RegistryEvent F} {name : Str}
    {k : ℕ} {factory : F} (h : LocalAt (history ++ [event]) name k factory) : k ≤ history.length := by
  have hlt := At.lt_length h
  rw [List.length_append, List.length_singleton] at hlt
  omega

theorem SyncedAt.le_length {history : List (RegistryEvent F)} {event : RegistryEvent F} {name : Str}
    {k : ℕ} (h : SyncedAt (history ++ [event]) name k) : k ≤ history.length := by
  have hlt := (List.getElem?_eq_some_iff.mp h.1).1
  rw [List.length_append, List.length_singleton] at hlt
  omega

/- Induction on the history: the last event decides, or leaves things as they were. -/
theorem serves_resolve (history : List (RegistryEvent F)) (name : Str) :
    Serves history name ((after history).resolve name) := by
  induction history using List.reverseRecOn with
  | nil =>
    apply Serves.nothing
    intro i
    constructor
    · rintro factory ⟨event, hevent, -⟩
      simp at hevent
    · rintro ⟨hevent, -⟩
      simp at hevent
  | append_singleton history event ih =>
    rw [after_concat, resolve_step]
    cases hsync : syncs event with
    | true =>
      have hevent : event = .syncExport := by
        cases event with
        | syncExport => rfl
        | _ => cases hsync
      rw [if_pos rfl]
      cases hfind : (after history).global.find name with
      | some factory =>
        have hfirst := (find_after_eq_some_iff history name factory).mp hfind
        have hregistered : ∃ k f, RegisteredAt history name k f := by
          obtain ⟨k, hk, -⟩ := hfirst
          exact ⟨k, factory, hk⟩
        rw [Option.some_or]
        apply Serves.globalFactory history.length factory
        · exact (syncedAt_concat history event name _).mpr (.inr ⟨rfl, hevent, hregistered⟩)
        · intro k hk other hother
          have hle := LocalAt.le_length hother
          omega
        · exact firstRegistered_concat hfirst event
      | none =>
        rw [Option.none_or]
        apply ih.concat
        · rw [hevent]
          rfl
        · intro _
          exact (find_after_eq_none_iff history name).mp hfind
    | false =>
      have hevent : event ≠ .syncExport := by
        rintro rfl
        cases hsync
      rw [if_neg Bool.false_ne_true]
      cases hlocal : registeredLocally name event with
      | some factory =>
        rw [Option.some_or]
        apply Serves.localFactory history.length factory
        · exact (at_concat _ history event _ factory).mpr (.inr ⟨rfl, hlocal⟩)
        · intro k hk
          constructor
          · intro other hother
            have hle := LocalAt.le_length hother
            omega
          · intro hother
            have hle := SyncedAt.le_length hother
            omega
      | none =>
        rw [Option.none_or]
        exact ih.concat hlocal fun h => absurd h hevent

/-! ### What the calls return -/

theorem not_registered_before_iff {history : List (RegistryEvent F)} (event : RegistryEvent F)
    (name : Str) {n : ℕ} (hn : n ≤ history.length) :
    (∀ k < n, ∀ other, ¬ RegisteredAt (history ++ [event]) name k other) ↔
      ∀ k < n, ∀ other, ¬ RegisteredAt history name k other := by
  constructor
  · intro hnone k hk other ho
    exact hnone k hk other ((at_concat_of_lt _ event (by omega) other).mpr ho)
  · intro hnone k hk other ho
    exact hnone k hk other ((at_concat_of_lt _ event (by omega) other).mp ho)

theorem returns_registered {history : List (RegistryEvent F)} {name : Str} {i : ℕ} {factory : F}
    (h : RegisteredAt history name i factory) :
    ∃ fresh, (returns history)[i]? = some (some fresh) ∧
      (fresh = true ↔ ∀ k < i, ∀ other, ¬ RegisteredAt history name k other) := by
  induction history using List.reverseRecOn with
  | nil =>
    obtain ⟨event, hevent, -⟩ := h
    simp at hevent
  | append_singleton history event ih =>
    have hlength := length_returns history
    rw [returns_concat]
    rcases (at_concat _ history event i factory).mp h with hold | ⟨hi, hevent⟩
    · have hlt := At.lt_length hold
      obtain ⟨fresh, hreturn, hiff⟩ := ih hold
      refine ⟨fresh, ?_, hiff.trans (not_registered_before_iff event name (by omega)).symm⟩
      rw [List.getElem?_append_left (by omega), hreturn]
    · cases event with
      | registerFactory typeName f =>
        have hname : typeName = name := by
          by_contra hne
          rw [registered, if_neg (Ne.symm hne)] at hevent
          cases hevent
        subst hname
        have hfresh := CommandRegistry.registerFactory_fresh_iff (after history).global typeName f
        refine ⟨((after history).global.registerFactory typeName f).2, ?_, ?_⟩
        · rw [List.getElem?_append_right (by omega), hi, hlength, Nat.sub_self]
          rfl
        · rw [hfresh, find_after_eq_none_iff, hi, not_registered_before_iff _ _ (Nat.le_refl _)]
          constructor
          · intro hnever k _ other
            exact hnever k other
          · intro hnever k other ho
            exact hnever k (At.lt_length ho) other ho
      | _ => cases hevent

theorem size_after (history : List (RegistryEvent F)) :
    (after history).global.size = (returns history).count (some true) := by
  induction history using List.reverseRecOn with
  | nil => rfl
  | append_singleton history event ih =>
    rw [after_concat, returns_concat, List.count_append, ← ih]
    cases event with
    | registerFactory typeName factory =>
      have hsize := CommandRegistry.size_registerFactory (after history).global typeName factory
      have hcount : [some ((after history).global.registerFactory typeName factory).2].count (some true) =
          if ((after history).global.registerFactory typeName factory).2 then 1 else 0 := by
        cases ((after history).global.registerFactory typeName factory).2 <;> rfl
      exact hsize.trans (by rw [← hcount]; rfl)
    | _ => rfl

/-! ### Syncing again -/

def isRegistration : RegistryEvent F → Bool
  | .registerFactory _ _ => true
  | .registerCommandFactory _ _ => true
  | .registerCommand _ _ => true
  | _ => false

/-- The part of the tables that factories are looked up in. -/
def lookups (t : Tables F) : CommandRegistry F × SortedMap Str F := (t.global, t.engine.registry)

theorem exportTo_exportTo (r : CommandRegistry F) (target : SortedMap Str F) :
    r.exportTo (r.exportTo target) = r.exportTo target := by
  apply SortedMap.ext_find?
  intro name
  rw [CommandRegistry.find?_exportTo, CommandRegistry.find?_exportTo]
  cases r.find name <;> rfl

theorem after_append (history later : List (RegistryEvent F)) :
    after (history ++ later) = later.foldl (fun t event => (t.step event).1) (after history) := by
  induction later using List.reverseRecOn with
  | nil => rw [List.append_nil, List.foldl_nil]
  | append_singleton later event ih =>
    rw [← List.append_assoc, after_concat, ih, List.foldl_append]
    rfl

/- After a sync, and until something is registered, the tables stay as they are. -/
theorem lookups_foldl {t : Tables F}
    (hsynced : t.global.exportTo t.engine.registry = t.engine.registry)
    (between : List (RegistryEvent F)) (hbetween : ∀ event ∈ between, isRegistration event = false) :
    (between.foldl (fun t event => (t.step event).1) t).lookups = t.lookups := by
  induction between generalizing t with
  | nil => rfl
  | cons event rest ih =>
    have hstep : (t.step event).1.lookups = t.lookups := by
      cases event with
      | syncSize => rfl
      | syncNames => rfl
      | syncExport =>
        show (t.global, t.global.exportTo t.engine.registry) = _
        rw [hsynced]
        rfl
      | _ => cases hbetween _ List.mem_cons_self
    have hglobal : (t.step event).1.global = t.global := congrArg Prod.fst hstep
    have hregistry : (t.step event).1.engine.registry = t.engine.registry := congrArg Prod.snd hstep
    have hsynced' : (t.step event).1.global.exportTo (t.step event).1.engine.registry =
        (t.step event).1.engine.registry := by
      rw [hglobal, hregistry, hsynced]
    rw [List.foldl_cons, ih hsynced' fun e he => hbetween e (List.mem_cons_of_mem _ he), hstep]

theorem lookups_syncAgain (history between : List (RegistryEvent F))
    (hbetween : ∀ event ∈ between, isRegistration event = false) :
    (after (history ++ [.syncExport] ++ between ++ [.syncExport])).lookups =
      (after (history ++ [.syncExport])).lookups := by
  have hsynced : (after (history ++ [.syncExport])).global.exportTo
      (after (history ++ [.syncExport])).engine.registry =
        (after (history ++ [.syncExport])).engine.registry := by
    rw [after_concat]
    exact exportTo_exportTo _ _
  rw [List.append_assoc, after_append, lookups_foldl hsynced]
  intro event hevent
  rcases List.mem_append.mp hevent with hevent | hevent
  · exact hbetween event hevent
  · rw [List.mem_singleton.mp hevent]
    rfl

/- The law of both tables, after every history of calls. -/
theorem tables_after_history (history : List (RegistryEvent F)) :
    (∀ name i factory, RegisteredAt history name i factory →
      ∃ fresh, (returns history)[i]? = some (some fresh) ∧
        (fresh = true ↔ ∀ k < i, ∀ other, ¬ RegisteredAt history name k other)) ∧
    (∀ name factory later, FirstRegistered history name factory →
      (after (history ++ later)).global.find name = some factory) ∧
    (after history).global.size = (returns history).count (some true) ∧
    (∀ name factory, (after history).resolve name = factory ↔ Serves history name factory) ∧
    ∀ between, (∀ event ∈ between, isRegistration event = false) →
      (after (history ++ [.syncExport] ++ between ++ [.syncExport])).lookups =
        (after (history ++ [.syncExport])).lookups := by
  refine ⟨fun _ _ _ h => returns_registered h, ?_, size_after history, ?_,
    fun between hbetween => lookups_syncAgain history between hbetween⟩
  · intro name factory later hfirst
    rw [find_after_eq_some_iff]
    induction later using List.reverseRecOn with
    | nil =>
      rw [List.append_nil]
      exact hfirst
    | append_singleton later event ih =>
      rw [← List.append_assoc]
      exact firstRegistered_concat ih event
  · intro name factory
    constructor
    · rintro rfl
      exact serves_resolve history name
    · intro h
      exact (serves_resolve history name).unique h

end Tables

end Workflow
