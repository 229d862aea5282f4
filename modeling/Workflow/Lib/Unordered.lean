import Mathlib.Data.List.Nodup
import Workflow.Lib.SortedMap

/-!
# Tables that iterate in an order of their own

An unordered table enumerates entries of pairwise distinct keys in an order that
nobody promises and that any change may alter. Its contents are a `SortedMap`:
what a change leaves and what a loop over the table computes depend on them alone.
-/

namespace Workflow

structure Unordered (α β : Type*) where
  /-- In the order of the iteration. -/
  entries : List (α × β)
  distinct : (entries.map Prod.fst).Nodup

namespace Unordered

variable {α β γ δ : Type*} [LinearOrder α]

def empty : Unordered α β := ⟨[], List.nodup_nil⟩

def find? (t : Unordered α β) (k : α) : Option β := findEntry k t.entries

def size (t : Unordered α β) : ℕ := t.entries.length

def keys (t : Unordered α β) : List α := t.entries.map Prod.fst

def contents (t : Unordered α β) : SortedMap α β :=
  t.entries.foldl (fun acc e => acc.insert e.1 e.2) ∅

/- What remains when a key is gone. -/
def others (t : Unordered α β) (k : α) : List (α × β) := t.entries.filter fun e => e.1 ≠ k

/-! ### Changes, each with any order afterwards -/

def Assigns (t : Unordered α β) (k : α) (v : β) (t' : Unordered α β) : Prop :=
  t'.entries.Perm ((k, v) :: t.others k)

def Erases (t : Unordered α β) (k : α) (t' : Unordered α β) : Prop :=
  t'.entries.Perm (t.others k)

/- A loop that assigns one entry of the list after the other. -/
def AssignsAll (t : Unordered α β) : List (α × β) → Unordered α β → Prop
  | [], t' => t' = t
  | e :: rest, t' => ∃ next, t.Assigns e.1 e.2 next ∧ AssignsAll next rest t'

/-! ### Lookups -/

theorem mem_entries_iff (t : Unordered α β) (k : α) (v : β) :
    (k, v) ∈ t.entries ↔ t.find? k = some v := by
  constructor
  · intro hmem
    obtain ⟨entries, hdistinct⟩ := t
    unfold find?
    induction entries with
    | nil => cases hmem
    | cons e rest ih =>
      obtain ⟨hfresh, hrest⟩ := List.nodup_cons.mp hdistinct
      cases List.mem_cons.mp hmem with
      | inl heq =>
        subst heq
        exact findEntry_cons_self k v rest
      | inr htail =>
        have hne : k ≠ e.1 := by
          intro heq
          exact hfresh (heq ▸ List.mem_map_of_mem htail)
        exact (findEntry_cons_ne hne e.2 rest).trans (ih hrest htail)
  · exact mem_of_findEntry

theorem findEntry_eq_none {k : α} {l : List (α × β)} (h : k ∉ l.map Prod.fst) : findEntry k l = none := by
  cases hfind : findEntry k l with
  | none => rfl
  | some v => exact absurd (List.mem_map_of_mem (mem_of_findEntry hfind)) h

theorem find?_of_mem_iff {t : Unordered α β} {k : α} {found : Option β}
    (h : ∀ v, (k, v) ∈ t.entries ↔ found = some v) : t.find? k = found := by
  apply Option.ext
  intro v
  rw [← mem_entries_iff, h]

theorem mem_keys_iff (t : Unordered α β) (k : α) : k ∈ t.keys ↔ (t.find? k).isSome := by
  unfold keys
  rw [List.mem_map, Option.isSome_iff_exists]
  constructor
  · intro ⟨e, hmem, hkey⟩
    exact ⟨e.2, (mem_entries_iff t k e.2).mp (hkey ▸ hmem)⟩
  · intro ⟨v, hfind⟩
    exact ⟨(k, v), (mem_entries_iff t k v).mpr hfind, rfl⟩

theorem mem_others_iff (t : Unordered α β) (k : α) (e : α × β) :
    e ∈ t.others k ↔ e ∈ t.entries ∧ e.1 ≠ k := by
  unfold others
  rw [List.mem_filter, decide_eq_true_iff]

theorem find?_assigns {t t' : Unordered α β} {k : α} {v : β} (h : t.Assigns k v t') (k' : α) :
    t'.find? k' = if k' = k then some v else t.find? k' := by
  apply find?_of_mem_iff
  intro v'
  rw [h.mem_iff, List.mem_cons, mem_others_iff, Prod.mk.injEq, mem_entries_iff]
  by_cases hkey : k' = k
  · simp [hkey, eq_comm]
  · simp [hkey]

theorem find?_erases {t t' : Unordered α β} {k : α} (h : t.Erases k t') (k' : α) :
    t'.find? k' = if k' = k then none else t.find? k' := by
  apply find?_of_mem_iff
  intro v'
  rw [h.mem_iff, mem_others_iff, mem_entries_iff]
  by_cases hkey : k' = k
  · simp [hkey]
  · simp [hkey]

/-! ### Loops -/

/- A loop over the table that treats each entry on its own: `step` may set or
skip the entry's key and touches no other key. What it leaves under a key is what
it makes of the table's entry, whatever the order. -/
theorem find?_loop (step : SortedMap α γ → α → δ → SortedMap α γ) (value : δ → Option γ)
    (hself : ∀ m k d, (step m k d).find? k = (value d).or (m.find? k))
    (hother : ∀ m k d k', k' ≠ k → (step m k d).find? k' = m.find? k')
    (t : Unordered α δ) (m : SortedMap α γ) (k : α) :
    (t.entries.foldl (fun m e => step m e.1 e.2) m).find? k
      = ((t.find? k).bind value).or (m.find? k) := by
  obtain ⟨entries, hdistinct⟩ := t
  unfold find?
  induction entries generalizing m with
  | nil => simp
  | cons e rest ih =>
    obtain ⟨hfresh, hrest⟩ := List.nodup_cons.mp hdistinct
    rw [List.foldl_cons]
    have hloop := ih (step m e.1 e.2) hrest
    rw [hloop]
    by_cases hkey : k = e.1
    · subst hkey
      have hnone : findEntry e.1 rest = none := findEntry_eq_none hfresh
      have hfirst : findEntry e.1 (e :: rest) = some e.2 :=
        findEntry_cons_self e.1 e.2 rest
      rw [hnone, hfirst, hself]
      rfl
    · have hlater : findEntry k (e :: rest) = findEntry k rest :=
        findEntry_cons_ne hkey e.2 rest
      rw [hlater, hother m e.1 e.2 k hkey]

/- The loop that collects the entries, each value translated. -/
theorem find?_collect (f : β → γ) (t : Unordered α β) (m : SortedMap α γ) (k : α) :
    (t.entries.foldl (fun acc e => acc.insert e.1 (f e.2)) m).find? k
      = ((t.find? k).map f).or (m.find? k) := by
  rw [find?_loop (fun acc k v => acc.insert k (f v)) (fun v => some (f v))
    (fun acc k v => by rw [SortedMap.find?_insert_self, Option.some_or])
    (fun acc k v k' h => SortedMap.find?_insert_ne acc h (f v)) t m k]
  cases t.find? k <;> rfl

theorem find?_assignsAll {t t' source : Unordered α β} (h : t.AssignsAll source.entries t') (k : α) :
    t'.find? k = (source.find? k).or (t.find? k) := by
  obtain ⟨entries, hdistinct⟩ := source
  unfold find? at *
  induction entries generalizing t with
  | nil =>
    obtain rfl : t' = t := h
    rfl
  | cons e rest ih =>
    obtain ⟨next, hassigns, hrest⟩ := h
    obtain ⟨hfresh, hdistinct⟩ := List.nodup_cons.mp hdistinct
    have hfirst : findEntry k next.entries
        = if k = e.1 then some e.2 else findEntry k t.entries := find?_assigns hassigns k
    have hlater := ih hdistinct hrest
    rw [hlater, hfirst]
    by_cases hkey : k = e.1
    · subst hkey
      have hnone : findEntry e.1 rest = none := findEntry_eq_none hfresh
      have hself : findEntry e.1 (e :: rest) = some e.2 :=
        findEntry_cons_self e.1 e.2 rest
      rw [if_pos rfl, hnone, hself]
      rfl
    · have hskip : findEntry k (e :: rest) = findEntry k rest :=
        findEntry_cons_ne hkey e.2 rest
      rw [if_neg hkey, hskip]

/-! ### The contents -/

theorem find?_contents (t : Unordered α β) (k : α) : t.contents.find? k = t.find? k := by
  have hcollect := find?_collect (fun v => v) t ∅ k
  rw [Option.map_id', SortedMap.find?_empty, Option.or_none] at hcollect
  exact hcollect

theorem entries_perm_contents (t : Unordered α β) : t.entries.Perm t.contents.entries := by
  have hkeys : ∀ {l : List (α × β)}, (l.map Prod.fst).Nodup → l.Nodup := List.Nodup.of_map Prod.fst
  have hsorted : (t.contents.entries).Nodup :=
    t.contents.sorted.imp fun h heq => absurd (heq ▸ h) (lt_irrefl _)
  rw [List.perm_ext_iff_of_nodup (hkeys t.distinct) hsorted]
  intro ⟨k, v⟩
  rw [mem_entries_iff, SortedMap.mem_entries_iff, find?_contents]

theorem size_contents (t : Unordered α β) : t.contents.size = t.size :=
  t.entries_perm_contents.length_eq.symm

theorem contents_assigns {t t' : Unordered α β} {k : α} {v : β} (h : t.Assigns k v t') :
    t'.contents = t.contents.insert k v := by
  apply SortedMap.ext_find?
  intro k'
  rw [find?_contents, find?_assigns h]
  by_cases hkey : k' = k
  · rw [if_pos hkey, hkey, SortedMap.find?_insert_self]
  · rw [if_neg hkey, SortedMap.find?_insert_ne _ hkey, find?_contents]

theorem contents_erases {t t' : Unordered α β} {k : α} (h : t.Erases k t') :
    t'.contents = t.contents.erase k := by
  apply SortedMap.ext_find?
  intro k'
  rw [find?_contents, find?_erases h, SortedMap.find?_erase, find?_contents]

/- The loop's order is that of `source`, the result is not. -/
theorem contents_assignsAll {t t' source : Unordered α β} (h : t.AssignsAll source.entries t') :
    t'.contents = source.contents.entries.foldl (fun acc e => acc.insert e.1 e.2) t.contents := by
  apply SortedMap.ext_find?
  intro k
  rw [find?_contents, find?_assignsAll h, SortedMap.find?_insertAll, find?_contents, find?_contents]

end Unordered

end Workflow
