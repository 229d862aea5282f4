import Workflow.Basic

/-!
# CommandRegistry (CommandRegistry.hpp) and the engine's table (WorkflowEngine.cpp:61-81)

`F` is the type of a factory; neither table looks into one. A member function
of the registry is one critical section of its mutex. `sync_from_registry` is
three of them, and other callers may register between them. The engine has a
logger: `sync_from_registry` uses it without a check.
-/

namespace Workflow

structure CommandRegistry (F : Type) where
  factories : SortedMap Str F

namespace CommandRegistry

variable {F : Type}

def empty : CommandRegistry F := ⟨∅⟩

/-- CommandRegistry.hpp:65-72. -/
def registerFactory (r : CommandRegistry F) (typeName : Str) (factory : F) :
    CommandRegistry F × Bool :=
  if r.factories.contains typeName then (r, false)
  else (⟨r.factories.insert typeName factory⟩, true)

def find (r : CommandRegistry F) (typeName : Str) : Option F := r.factories.find? typeName

/-- CommandRegistry.hpp:90-96. -/
def exportTo (r : CommandRegistry F) (target : SortedMap Str F) : SortedMap Str F :=
  r.factories.entries.foldl (fun t entry => t.insert entry.1 entry.2) target

def size (r : CommandRegistry F) : ℕ := r.factories.size

/-- In key order here, in no particular order in C++; only the log shows it. -/
def typeNames (r : CommandRegistry F) : List Str := r.factories.entries.map Prod.fst

theorem find_registerFactory (r : CommandRegistry F) (typeName name : Str) (factory : F) :
    (r.registerFactory typeName factory).1.find name =
      (r.find name).or (if name = typeName then some factory else none) := by
  unfold registerFactory
  cases hfind : r.factories.find? typeName with
  | some f =>
    have hcontains : r.factories.contains typeName = true := by simp [SortedMap.contains, hfind]
    rw [if_pos hcontains]
    by_cases hname : name = typeName
    · have hsome : r.find name = some f := by rw [hname]; exact hfind
      rw [hsome, Option.some_or]
    · rw [if_neg hname, Option.or_none]
  | none =>
    have hcontains : ¬ r.factories.contains typeName = true := by simp [SortedMap.contains, hfind]
    rw [if_neg hcontains]
    by_cases hname : name = typeName
    · have hnone : r.find name = none := by rw [hname]; exact hfind
      rw [if_pos hname, hnone, hname]
      exact SortedMap.find?_insert_self _ _ _
    · rw [if_neg hname, Option.or_none]
      exact SortedMap.find?_insert_ne _ hname _

/- The first registration of a name stays. -/
theorem find_registerAll {β : Type} (typeName : β → Str) (factory : β → F) (entries : List β)
    (r : CommandRegistry F) (name : Str) :
    (entries.foldl (fun r e => (r.registerFactory (typeName e) (factory e)).1) r).find name =
      (r.find name).or ((entries.find? fun e => decide (name = typeName e)).map factory) := by
  induction entries generalizing r with
  | nil => exact Option.or_none.symm
  | cons e entries ih =>
    rw [List.foldl_cons, ih, find_registerFactory, Option.or_assoc]
    by_cases hname : name = typeName e
    · simp [hname]
    · simp [hname]

theorem registerFactory_fresh_iff (r : CommandRegistry F) (typeName : Str) (factory : F) :
    (r.registerFactory typeName factory).2 = true ↔ r.find typeName = none := by
  unfold registerFactory find SortedMap.contains
  cases r.factories.find? typeName with
  | some f => simp
  | none => simp

theorem size_registerFactory (r : CommandRegistry F) (typeName : Str) (factory : F) :
    (r.registerFactory typeName factory).1.size =
      r.size + if (r.registerFactory typeName factory).2 then 1 else 0 := by
  unfold registerFactory size
  cases hfind : r.factories.find? typeName with
  | some f => simp [SortedMap.contains, hfind]
  | none => simp [SortedMap.contains, hfind, SortedMap.size_insert_of_absent hfind]

theorem find?_exportTo (r : CommandRegistry F) (target : SortedMap Str F) (name : Str) :
    (r.exportTo target).find? name = (r.find name).or (target.find? name) :=
  SortedMap.find?_insertAll r.factories target name

end CommandRegistry

/-- What a `WorkflowEngine` knows of command types. -/
structure EngineTable (F : Type) where
  registry : SortedMap Str F
  log : List LogEntry

namespace EngineTable

variable {F : Type}

def registerCommandFactory (e : EngineTable F) (typeName : Str) (factory : F) : EngineTable F :=
  ⟨e.registry.insert typeName factory, e.log ++ [⟨.Debug, lit "Registered command type: " ++ typeName⟩]⟩

/-- WorkflowEngine.hpp:80-85; `factory` is the lambda around `make_unique<Cmd>`. -/
def registerCommand (e : EngineTable F) (typeName : Str) (factory : F) : EngineTable F :=
  { e with registry := e.registry.insert typeName factory }

/-- The call of `global.size()`. -/
def syncSize (e : EngineTable F) (global : CommandRegistry F) : EngineTable F :=
  { e with log := e.log ++ [⟨.Info, lit "Syncing from global CommandRegistry (" ++
      natToString global.size ++ lit " types available)"⟩] }

/-- The call of `global.export_to(registry_)`. -/
def syncExport (e : EngineTable F) (global : CommandRegistry F) : EngineTable F :=
  { e with registry := global.exportTo e.registry }

/-- The call of `global.type_names()`. -/
def syncNames (e : EngineTable F) (global : CommandRegistry F) : EngineTable F :=
  { e with log := e.log ++ global.typeNames.map fun name => ⟨.Debug, lit "  - " ++ name⟩ }

/-- WorkflowEngine.cpp:69-81, with nobody registering meanwhile. -/
def syncFromRegistry (e : EngineTable F) (global : CommandRegistry F) : EngineTable F :=
  ((e.syncSize global).syncExport global).syncNames global

end EngineTable

end Workflow
