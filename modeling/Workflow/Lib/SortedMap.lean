import Mathlib.Data.List.Lex
import Mathlib.Order.Lattice
import Mathlib.Tactic.Common

/-!
# Finite maps kept as key-sorted entry lists

A map over a linearly ordered key type is its list of entries with strictly
increasing keys. The order is a field of the structure, so two maps with the
same lookups are equal (`SortedMap.ext_find?`). `findEntry` and `insertEntry` work
on bare entry lists: a recursive data type that stores its members in a list
can share them.
-/

variable {α β γ : Type*} [LinearOrder α]

def findEntry (k : α) : List (α × β) → Option β
  | [] => none
  | (k', v) :: rest => if k = k' then some v else findEntry k rest

@[simp] theorem findEntry_nil (k : α) : findEntry k ([] : List (α × β)) = none := rfl

@[simp] theorem findEntry_cons_self (k : α) (v : β) (l : List (α × β)) :
    findEntry k ((k, v) :: l) = some v := if_pos rfl

theorem findEntry_cons_ne {k k' : α} (h : k ≠ k') (v : β) (l : List (α × β)) :
    findEntry k ((k', v) :: l) = findEntry k l := if_neg h

/-- Insertion into a key-sorted entry list; an entry with the same key is replaced. -/
def insertEntry (k : α) (v : β) : List (α × β) → List (α × β)
  | [] => [(k, v)]
  | (k', v') :: rest =>
    if k < k' then (k, v) :: (k', v') :: rest
    else if k = k' then (k, v) :: rest
    else (k', v') :: insertEntry k v rest

theorem mem_insertEntry {k : α} {v : β} {l : List (α × β)} {e : α × β}
    (h : e ∈ insertEntry k v l) : e = (k, v) ∨ e ∈ l := by
  induction l with
  | nil => simpa [insertEntry] using h
  | cons head rest ih =>
    obtain ⟨k', v'⟩ := head
    simp only [insertEntry] at h
    split_ifs at h with h1 h2
    · simpa using h
    · rcases List.mem_cons.mp h with h | h
      · exact Or.inl h
      · exact Or.inr (List.mem_cons_of_mem _ h)
    · rcases List.mem_cons.mp h with h | h
      · exact Or.inr (by simp [h])
      · exact (ih h).imp_right (List.mem_cons_of_mem _)

theorem findEntry_insertEntry_self (k : α) (v : β) (l : List (α × β)) :
    findEntry k (insertEntry k v l) = some v := by
  induction l with
  | nil => simp [insertEntry]
  | cons head rest ih =>
    obtain ⟨k', v'⟩ := head
    simp only [insertEntry]
    split_ifs with h1 h2
    · simp
    · simp
    · rw [findEntry_cons_ne h2, ih]

theorem findEntry_insertEntry_ne {k k' : α} (h : k' ≠ k) (v : β) (l : List (α × β)) :
    findEntry k' (insertEntry k v l) = findEntry k' l := by
  induction l with
  | nil => exact findEntry_cons_ne h v []
  | cons head rest ih =>
    obtain ⟨k'', v''⟩ := head
    simp only [insertEntry]
    split_ifs with h1 h2
    · exact findEntry_cons_ne h v _
    · subst h2
      rw [findEntry_cons_ne h, findEntry_cons_ne h]
    · simp only [findEntry, ih]

theorem pairwise_insertEntry (k : α) (v : β) {l : List (α × β)}
    (h : l.Pairwise (fun a b => a.1 < b.1)) :
    (insertEntry k v l).Pairwise (fun a b => a.1 < b.1) := by
  induction l with
  | nil => simp [insertEntry]
  | cons head rest ih =>
    obtain ⟨k', v'⟩ := head
    obtain ⟨hhead, hrest⟩ := List.pairwise_cons.mp h
    simp only [insertEntry]
    split_ifs with h1 h2
    · refine List.pairwise_cons.mpr ⟨?_, h⟩
      intro e he
      rcases List.mem_cons.mp he with rfl | he
      · exact h1
      · exact h1.trans (hhead e he)
    · subst h2
      exact List.pairwise_cons.mpr ⟨hhead, hrest⟩
    · refine List.pairwise_cons.mpr ⟨?_, ih hrest⟩
      intro e he
      rcases mem_insertEntry he with rfl | he
      · exact lt_of_le_of_ne (not_lt.mp h1) (Ne.symm h2)
      · exact hhead e he

theorem insertEntry_of_last {k : α} {l : List (α × β)} (h : ∀ e ∈ l, e.1 < k) (v : β) :
    insertEntry k v l = l ++ [(k, v)] := by
  induction l with
  | nil => rfl
  | cons head rest ih =>
    obtain ⟨k', v'⟩ := head
    have hk : k' < k := h (k', v') List.mem_cons_self
    have hrest := ih fun e he => h e (List.mem_cons_of_mem _ he)
    simp only [insertEntry]
    rw [if_neg (not_lt_of_gt hk), if_neg hk.ne', hrest, List.cons_append]

/- Entries that come in key order are appended. -/
theorem foldl_insertEntry {l acc : List (α × β)}
    (h : (acc ++ l).Pairwise (fun a b => a.1 < b.1)) :
    l.foldl (fun acc e => insertEntry e.1 e.2 acc) acc = acc ++ l := by
  induction l generalizing acc with
  | nil => exact (List.append_nil acc).symm
  | cons e l ih =>
    have hlast : ∀ e' ∈ acc, e'.1 < e.1 := by
      intro e' he'
      exact (List.pairwise_append.mp h).2.2 e' he' e List.mem_cons_self
    have hassoc : acc ++ e :: l = acc ++ [e] ++ l := by
      rw [List.append_assoc, List.singleton_append]
    rw [hassoc] at h ⊢
    rw [List.foldl_cons, insertEntry_of_last hlast]
    exact ih h

theorem mem_of_findEntry {l : List (α × β)} {k : α} {v : β} (h : findEntry k l = some v) :
    (k, v) ∈ l := by
  induction l with
  | nil => simp at h
  | cons head rest ih =>
    obtain ⟨k', v'⟩ := head
    by_cases hk : k = k'
    · subst hk
      rw [findEntry_cons_self, Option.some.injEq] at h
      simp [h]
    · rw [findEntry_cons_ne hk] at h
      exact List.mem_cons_of_mem _ (ih h)

theorem findEntry_of_mem {l : List (α × β)} (hl : l.Pairwise (fun a b => a.1 < b.1))
    {k : α} {v : β} (h : (k, v) ∈ l) : findEntry k l = some v := by
  induction l with
  | nil => simp at h
  | cons head rest ih =>
    obtain ⟨hhead, hrest⟩ := List.pairwise_cons.mp hl
    rcases List.mem_cons.mp h with h | h
    · simp [← h]
    · rw [findEntry_cons_ne (hhead (k, v) h).ne']
      exact ih hrest h

theorem findEntry_map_snd (f : α → β → γ) (l : List (α × β)) (k : α) :
    findEntry k (l.map fun e => (e.1, f e.1 e.2)) = (findEntry k l).map (f k) := by
  induction l with
  | nil => simp
  | cons head rest ih =>
    obtain ⟨k', v'⟩ := head
    by_cases hk : k = k'
    · subst hk
      simp
    · rw [List.map_cons, findEntry_cons_ne hk, findEntry_cons_ne hk, ih]

structure SortedMap (α β : Type*) [LinearOrder α] where
  entries : List (α × β)
  sorted : entries.Pairwise (fun a b => a.1 < b.1)

namespace SortedMap

def empty : SortedMap α β := ⟨[], List.Pairwise.nil⟩

instance : EmptyCollection (SortedMap α β) := ⟨empty⟩

def find? (m : SortedMap α β) (k : α) : Option β := findEntry k m.entries

def contains (m : SortedMap α β) (k : α) : Bool := (m.find? k).isSome

def insert (m : SortedMap α β) (k : α) (v : β) : SortedMap α β :=
  ⟨insertEntry k v m.entries, pairwise_insertEntry k v m.sorted⟩

def erase (m : SortedMap α β) (k : α) : SortedMap α β :=
  ⟨m.entries.filter (fun e => e.1 ≠ k), m.sorted.filter _⟩

def size (m : SortedMap α β) : ℕ := m.entries.length

def mapValues (f : β → γ) (m : SortedMap α β) : SortedMap α γ :=
  ⟨m.entries.map fun e => (e.1, f e.2), List.Pairwise.map _ (fun _ _ h => h) m.sorted⟩

@[simp] theorem find?_empty (k : α) : (∅ : SortedMap α β).find? k = none := rfl

@[simp] theorem find?_insert_self (m : SortedMap α β) (k : α) (v : β) :
    (m.insert k v).find? k = some v := findEntry_insertEntry_self k v m.entries

theorem find?_insert_ne (m : SortedMap α β) {k k' : α} (h : k' ≠ k) (v : β) :
    (m.insert k v).find? k' = m.find? k' := findEntry_insertEntry_ne h v m.entries

theorem mem_entries_iff (m : SortedMap α β) (k : α) (v : β) :
    (k, v) ∈ m.entries ↔ m.find? k = some v :=
  ⟨fun h => findEntry_of_mem m.sorted h, fun h => mem_of_findEntry h⟩

theorem find?_erase (m : SortedMap α β) (k k' : α) :
    (m.erase k).find? k' = if k' = k then none else m.find? k' := by
  have hmem : ∀ v, (m.erase k).find? k' = some v ↔ k' ≠ k ∧ m.find? k' = some v := by
    intro v
    rw [← mem_entries_iff, ← mem_entries_iff]
    simp [erase, and_comm]
  split_ifs with h
  · exact Option.eq_none_iff_forall_not_mem.mpr fun v hv => ((hmem v).mp hv).1 h
  · exact Option.ext fun v => by simp [hmem, h]

@[simp] theorem find?_mapValues (f : β → γ) (m : SortedMap α β) (k : α) :
    (m.mapValues f).find? k = (m.find? k).map f := findEntry_map_snd (fun _ => f) m.entries k

theorem length_insertEntry {k : α} {l : List (α × β)} (h : findEntry k l = none) (v : β) :
    (insertEntry k v l).length = l.length + 1 := by
  induction l with
  | nil => rfl
  | cons head rest ih =>
    obtain ⟨k', v'⟩ := head
    have hk : k ≠ k' := by
      intro hk
      rw [hk, findEntry_cons_self] at h
      cases h
    rw [findEntry_cons_ne hk] at h
    simp only [insertEntry]
    split_ifs with hlt
    · rfl
    · rw [List.length_cons, List.length_cons, ih h]

theorem size_insert_of_absent {m : SortedMap α β} {k : α} (h : m.find? k = none) (v : β) :
    (m.insert k v).size = m.size + 1 := length_insertEntry h v

theorem contains_iff (m : SortedMap α β) (k : α) :
    m.contains k = true ↔ ∃ v, m.find? k = some v := by
  simp [contains, Option.isSome_iff_exists]

theorem entries_ext {l l' : List (α × β)} (hl : l.Pairwise (fun a b => a.1 < b.1))
    (hl' : l'.Pairwise (fun a b => a.1 < b.1)) (h : ∀ e, e ∈ l ↔ e ∈ l') : l = l' := by
  have hn : ∀ {l : List (α × β)}, l.Pairwise (fun a b => a.1 < b.1) → l.Nodup :=
    fun hp => List.Pairwise.imp (fun {a b} hab he => hab.ne (congrArg Prod.fst he)) hp
  have hperm : l.Perm l' := (List.perm_ext_iff_of_nodup (hn hl) (hn hl')).mpr h
  exact hperm.eq_of_pairwise (fun a b _ _ hab hba => absurd hab (lt_asymm hba)) hl hl'

theorem ext_find? {m m' : SortedMap α β} (h : ∀ k, m.find? k = m'.find? k) : m = m' := by
  have he : m.entries = m'.entries := by
    refine entries_ext m.sorted m'.sorted ?_
    intro ⟨k, v⟩
    rw [mem_entries_iff, mem_entries_iff, h]
  cases m
  cases m'
  simpa using he

/-! ### Building a map entry by entry -/

/- A fold over entries that treats each of them on its own: `step` may set or
skip the entry's key and touches no other key. -/
theorem find?_foldl {δ : Type*} (step : SortedMap α γ → α → δ → SortedMap α γ)
    (value : δ → Option γ)
    (hself : ∀ m k d, (step m k d).find? k = (value d).or (m.find? k))
    (hother : ∀ m k d k', k' ≠ k → (step m k d).find? k' = m.find? k')
    (l : List (α × δ)) (hl : l.Pairwise (fun a b => a.1 < b.1)) (m : SortedMap α γ) (k : α) :
    (l.foldl (fun m e => step m e.1 e.2) m).find? k
      = ((findEntry k l).bind value).or (m.find? k) := by
  induction l generalizing m with
  | nil => simp
  | cons head rest ih =>
    obtain ⟨hhead, hrest⟩ := List.pairwise_cons.mp hl
    obtain ⟨k', d⟩ := head
    rw [List.foldl_cons, ih hrest]
    by_cases hk : k = k'
    · subst hk
      have hnone : findEntry k rest = none := by
        cases h : findEntry k rest with
        | none =>
          rfl
        | some v =>
          exact absurd (hhead _ (mem_of_findEntry h)) (lt_irrefl _)
      simp [hnone, hself]
    · rw [findEntry_cons_ne hk, hother m k' d k hk]

/- Inserting the entries of a map into another: the inserted ones win. -/
theorem find?_insertAll (m target : SortedMap α β) (k : α) :
    (m.entries.foldl (fun acc e => acc.insert e.1 e.2) target).find? k =
      (m.find? k).or (target.find? k) := by
  rw [find?_foldl (fun acc k b => acc.insert k b) some
    (fun acc k b => by rw [find?_insert_self, Option.some_or])
    (fun acc k b k' h => find?_insert_ne acc h b) m.entries m.sorted]
  show ((findEntry k m.entries).bind some).or _ = (findEntry k m.entries).or _
  cases findEntry k m.entries <;> rfl

/- Inserting the entries of a map one by one, each value translated, is `mapValues`. -/
theorem foldl_insert_eq_mapValues (f : β → γ) (m : SortedMap α β) :
    m.entries.foldl (fun acc e => acc.insert e.1 (f e.2)) ∅ = m.mapValues f := by
  apply ext_find?
  intro k
  rw [find?_foldl (fun acc k b => acc.insert k (f b)) (fun b => some (f b))
    (fun acc k b => by rw [find?_insert_self, Option.some_or])
    (fun acc k b k' h => find?_insert_ne acc h (f b)) m.entries m.sorted]
  rw [find?_mapValues, find?_empty, Option.or_none]
  show (findEntry k m.entries).bind (fun b => some (f b)) = (findEntry k m.entries).map f
  cases findEntry k m.entries <;> rfl

end SortedMap
