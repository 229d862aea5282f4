import Mathlib.Data.List.Nodup
import Mathlib.Data.List.Perm.Basic

/-!
# Names that are given or made up

Each slot has a name of its own or takes the one made up for it. The names are
distinct exactly when the given ones are, the made-up ones are, and no slot is
given what is made up for another.
-/

namespace Naming

variable {α : Type*}

structure Slot (α : Type*) where
  given : Option α
  generated : α

namespace Slot

def name (slot : Slot α) : α := slot.given.getD slot.generated

/- The made-up name, if it is taken. -/
def madeUp (slot : Slot α) : Option α :=
  match slot.given with
  | some _ => none
  | none => some slot.generated

end Slot

def givenNames (slots : List (Slot α)) : List α := slots.filterMap Slot.given

def madeUpNames (slots : List (Slot α)) : List α := slots.filterMap Slot.madeUp

theorem Slot.madeUp_eq_some {slot : Slot α} {x : α} :
    slot.madeUp = some x ↔ slot.given = none ∧ slot.generated = x := by
  rcases slot with ⟨- | own, generated⟩ <;> simp [Slot.madeUp]

theorem mem_madeUpNames {slots : List (Slot α)} {x : α} :
    x ∈ madeUpNames slots ↔ ∃ slot ∈ slots, slot.given = none ∧ slot.generated = x := by
  unfold madeUpNames
  simp only [List.mem_filterMap, Slot.madeUp_eq_some]

theorem madeUpNames_sublist (slots : List (Slot α)) :
    (madeUpNames slots).Sublist (slots.map Slot.generated) := by
  induction slots with
  | nil => exact List.Sublist.slnil
  | cons slot rest ih =>
    rcases slot with ⟨- | own, generated⟩
    · exact ih.cons_cons generated
    · exact ih.cons generated

theorem map_name_perm (slots : List (Slot α)) :
    (slots.map Slot.name).Perm (givenNames slots ++ madeUpNames slots) := by
  induction slots with
  | nil => exact List.Perm.nil
  | cons slot rest ih =>
    rcases slot with ⟨- | own, generated⟩
    · exact (ih.cons generated).trans List.perm_middle.symm
    · exact ih.cons own

theorem nodup_name_iff (slots : List (Slot α)) :
    (slots.map Slot.name).Nodup ↔
      (givenNames slots).Nodup ∧ (madeUpNames slots).Nodup ∧
        ∀ x ∈ madeUpNames slots, x ∉ givenNames slots := by
  rw [(map_name_perm slots).nodup_iff, List.nodup_append]
  constructor
  · intro ⟨hgiven, hmade, hapart⟩
    exact ⟨hgiven, hmade, fun x hx hx' => hapart x hx' x hx rfl⟩
  · intro ⟨hgiven, hmade, hapart⟩
    refine ⟨hgiven, hmade, ?_⟩
    intro x hx y hy heq
    exact hapart y hy (heq ▸ hx)

end Naming
