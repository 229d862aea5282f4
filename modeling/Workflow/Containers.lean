import Workflow.CommandRegistry
import Workflow.Lib.Unordered
import Workflow.ShippedCommands

/-!
# The containers in iteration order (DataPacket.hpp, DataBus.hpp)

`unordered_map` promises no order of iteration, and a call may alter it. Here a
container is its entries in the order in which they are iterated, and after each
call they may stand in any order. What it answers follows from the calls made
(`store_after_history`); only `keys()` shows an order.
-/

namespace Workflow

/-- The types that `any_cast` tells apart; `other` are those without a branch in `to_json`. -/
inductive StoredType where
  | int | double | float | bool | string | charPtr | json | long | longLong
  | unsignedInt | unsignedLong | unsignedLongLong
  | other (id : ℕ)
  deriving DecidableEq

/-- The compiler's: which of the `other` types a value has, and `type_info::name()`. -/
class TypeInfo where
  ofOther : ℕ → ℕ
  name : StoredType → Str

abbrev Table := Unordered Str AnyValue

section
variable [TypeInfo]

def AnyValue.type : AnyValue → StoredType
  | .int _ => .int
  | .double _ => .double
  | .float _ => .float
  | .bool _ => .bool
  | .string _ => .string
  | .charPtr _ => .charPtr
  | .json _ => .json
  | .long _ => .long
  | .longLong _ => .longLong
  | .unsignedInt _ => .unsignedInt
  | .unsignedLong _ => .unsignedLong
  | .unsignedLongLong _ => .unsignedLongLong
  | .other id => .other (TypeInfo.ofOther id)

/- The value under the key, if there is one of that type. -/
def typedRead (reader : Str) (T : StoredType) (key : Str) : Option AnyValue → Result AnyValue
  | none => .error (reader ++ lit ": key '" ++ key ++ lit "' not found") (-1)
  | some value =>
    if value.type = T then .ok value
    else .error (reader ++ lit ": type mismatch for key '" ++ key ++ lit "', expected " ++
      TypeInfo.name T ++ lit " but stored " ++ TypeInfo.name value.type) (-1)

end

namespace Table

section
variable [TypeInfo]

/-- DataPacket.hpp:60-76. -/
def get (t : Table) (T : StoredType) (key : Str) : Result AnyValue :=
  typedRead (lit "DataPacket::get") T key (t.find? key)

/-- DataBus.hpp:53-69. -/
def consume (t : Table) (T : StoredType) (key : Str) : Result AnyValue :=
  typedRead (lit "DataBus::consume") T key (t.find? key)

end

/-- `has` of a packet and `has_key` of a bus. -/
def has (t : Table) (key : Str) : Bool := (t.find? key).isSome

/-- The loop of either `to_json`. -/
def toJson (t : Table) : Json :=
  .ofMembers (t.entries.foldl (fun obj e => obj.insert e.1 (encodeAny e.2)) ∅)

end Table

/-- The calls that change a container. -/
inductive StoreCall where
  /-- `set` of a packet, `publish` of a bus. -/
  | set (key : Str) (value : AnyValue)
  | remove (key : Str)
  | clear
  /-- `merge` of a packet. -/
  | merge (other : Table)
  /-- The copy that goes from step to step. -/
  | copy

namespace Table

def Leaves (t : Table) : StoreCall → Table → Prop
  | .set key value, t' => t.Assigns key value t'
  | .remove key, t' => t.Erases key t'
  | .clear, t' => t' = .empty
  | .merge other, t' => t.AssignsAll other.entries t'
  | .copy, t' => t'.entries.Perm t.entries

/-- A container on which the calls were made. -/
inductive After : List StoreCall → Table → Prop where
  | start : After [] .empty
  | next {calls : List StoreCall} {t t' : Table} {call : StoreCall} :
      After calls t → t.Leaves call t' → After (calls ++ [call]) t'

end Table

/-! ### What the calls say -/

/- What a call leaves under a key; `none` leaves what was there. -/
def StoreCall.leaves (key : Str) : StoreCall → Option (Option AnyValue)
  | .set k value => if key = k then some (some value) else none
  | .remove k => if key = k then some none else none
  | .clear => some none
  | .merge other => (other.find? key).map some
  | .copy => none

/-- What the last call that concerns the key left there. -/
def lastWrite (calls : List StoreCall) (key : Str) : Option AnyValue :=
  (calls.reverse.findSome? (StoreCall.leaves key)).join

theorem lastWrite_concat (calls : List StoreCall) (call : StoreCall) (key : Str) :
    lastWrite (calls ++ [call]) key = (call.leaves key).getD (lastWrite calls key) := by
  unfold lastWrite
  rw [List.reverse_append, List.reverse_singleton, List.singleton_append, List.findSome?_cons]
  cases call.leaves key <;> rfl

namespace Table

theorem find?_copy {t t' : Table} (h : t'.entries.Perm t.entries) (key : Str) :
    t'.find? key = t.find? key := by
  apply Unordered.find?_of_mem_iff
  intro v
  rw [h.mem_iff, Unordered.mem_entries_iff]

theorem find?_leaves {t t' : Table} {call : StoreCall} (h : t.Leaves call t') (key : Str) :
    t'.find? key = (call.leaves key).getD (t.find? key) := by
  cases call with
  | set k value =>
    rw [Unordered.find?_assigns h]
    simp only [StoreCall.leaves]
    split_ifs <;> rfl
  | remove k =>
    rw [Unordered.find?_erases h]
    simp only [StoreCall.leaves]
    split_ifs <;> rfl
  | clear =>
    obtain rfl : t' = .empty := h
    rfl
  | merge other =>
    rw [Unordered.find?_assignsAll h]
    simp only [StoreCall.leaves]
    cases other.find? key <;> rfl
  | copy => exact find?_copy h key

/- By induction on the calls, each of which decides what it leaves under a key. -/
theorem find?_after {calls : List StoreCall} {t : Table} (h : After calls t) (key : Str) :
    t.find? key = lastWrite calls key := by
  induction h with
  | start => rfl
  | next _ hleaves ih => rw [find?_leaves hleaves, ih, lastWrite_concat]

end Table

/-! ### The containers without an order -/

namespace DataPacket

def remove (packet : DataPacket) (key : Str) : DataPacket := ⟨packet.data.erase key⟩

def merge (packet other : DataPacket) : DataPacket :=
  ⟨other.data.entries.foldl (fun acc e => acc.insert e.1 e.2) packet.data⟩

/- The packet that a table is, its order forgotten. -/
def ofTable (t : Table) : DataPacket := ⟨t.contents⟩

def call (packet : DataPacket) : StoreCall → DataPacket
  | .set key value => packet.set key value
  | .remove key => packet.remove key
  | .clear => .empty
  | .merge other => packet.merge (.ofTable other)
  | .copy => packet

end DataPacket

namespace Table

/- One call refines the packet's own operation. -/
theorem ofTable_leaves {t t' : Table} {call : StoreCall} (h : t.Leaves call t') :
    DataPacket.ofTable t' = (DataPacket.ofTable t).call call := by
  cases call with
  | set key value => exact congrArg DataPacket.mk (Unordered.contents_assigns h)
  | remove key => exact congrArg DataPacket.mk (Unordered.contents_erases h)
  | clear =>
    obtain rfl : t' = .empty := h
    rfl
  | merge other => exact congrArg DataPacket.mk (Unordered.contents_assignsAll h)
  | copy =>
    apply DataPacket.ext_find?
    intro key
    show t'.contents.find? key = t.contents.find? key
    rw [Unordered.find?_contents, Unordered.find?_contents, find?_copy h]

theorem ofTable_after {calls : List StoreCall} {t : Table} (h : After calls t) :
    DataPacket.ofTable t = calls.foldl DataPacket.call .empty := by
  induction h with
  | start => rfl
  | next _ hleaves ih =>
    rw [ofTable_leaves hleaves, ih, List.foldl_append]
    rfl

/- Both loops visit each entry once, in two orders. -/
theorem toJson_ofTable (t : Table) : t.toJson = (DataPacket.ofTable t).toJson := by
  apply congrArg Json.ofMembers
  apply SortedMap.ext_find?
  intro key
  have hloop := Unordered.find?_collect encodeAny t ∅ key
  rw [hloop, toJson_find?, SortedMap.find?_empty, Option.or_none]
  exact congrArg _ (Unordered.find?_contents t key).symm

theorem getString_ofTable [TypeInfo] (t : Table) (key value : Str) :
    (DataPacket.ofTable t).getString key = some value ↔ t.get .string key = .ok (.string value) := by
  have hfind : (DataPacket.ofTable t).data.find? key = t.find? key := Unordered.find?_contents t key
  unfold DataPacket.getString get typedRead
  rw [hfind]
  cases t.find? key with
  | none => simp
  | some v => cases v <;> simp [AnyValue.type]

/-- The answers of a container, read off the calls. -/
structure Answers [TypeInfo] (t : Table) (calls : List StoreCall) : Prop where
  get : ∀ T key, t.get T key = typedRead (lit "DataPacket::get") T key (lastWrite calls key)
  consume : ∀ T key, t.consume T key = typedRead (lit "DataBus::consume") T key (lastWrite calls key)
  has : ∀ key, t.has key = (lastWrite calls key).isSome
  /-- Each key that holds something once, in an order of the container's. -/
  keys : t.keys.Nodup ∧ ∀ key, key ∈ t.keys ↔ (lastWrite calls key).isSome
  size : t.size = t.keys.length
  toJson : ∃ members, t.toJson = .ofMembers members ∧
    ∀ key, members.find? key = (lastWrite calls key).map encodeAny

theorem answers_after [TypeInfo] {calls : List StoreCall} {t : Table} (h : After calls t) :
    t.Answers calls where
  get T key := by
    unfold get
    rw [find?_after h]
  consume T key := by
    unfold consume
    rw [find?_after h]
  has key := by
    unfold has
    rw [find?_after h]
  keys := by
    refine ⟨t.distinct, ?_⟩
    intro key
    rw [Unordered.mem_keys_iff, find?_after h]
  size := (List.length_map _).symm
  toJson := by
    refine ⟨_, rfl, ?_⟩
    intro key
    rw [Unordered.find?_collect encodeAny t ∅ key, SortedMap.find?_empty, Option.or_none, find?_after h]

end Table

/-- What the packet answers, the container answers; `keys` up to the order. -/
structure DataPacket.StandsFor [TypeInfo] (packet : DataPacket) (t : Table) : Prop where
  data : ∀ key, packet.data.find? key = t.find? key
  getString : ∀ key value,
    packet.getString key = some value ↔ t.get .string key = .ok (.string value)
  keys : t.keys.Perm packet.keys
  size : packet.size = t.size
  toJson : packet.toJson = t.toJson

theorem DataPacket.standsFor_ofTable [TypeInfo] (t : Table) : (ofTable t).StandsFor t where
  data := Unordered.find?_contents t
  getString := Table.getString_ofTable t
  keys := t.entries_perm_contents.map Prod.fst
  size := t.size_contents
  toJson := (Table.toJson_ofTable t).symm

/- Whatever orders the container went through: its answers are those that the
calls call for, and the packet on which the same calls are made stands for it. -/
theorem store_after_history [TypeInfo] {calls : List StoreCall} {t : Table}
    (h : Table.After calls t) :
    t.Answers calls ∧ (calls.foldl DataPacket.call .empty).StandsFor t := by
  refine ⟨Table.answers_after h, ?_⟩
  rw [← Table.ofTable_after h]
  exact DataPacket.standsFor_ofTable t

/- The names that GCC gives to the two types of the example. -/
@[reducible] def gccNames : TypeInfo where
  ofOther id := id
  name
    | .int => lit "i"
    | .string => lit "NSt7__cxx1112basic_stringIcSt11char_traitsIcESaIcEEE"
    | _ => []

/- The later entry comes first. -/
def reorderedTable : Table :=
  ⟨[(lit "b", .string (lit "x")), (lit "a", .int 1)], by decide⟩

theorem store_after_history_reordered :
    @Table.Answers gccNames reorderedTable
        [.set (lit "a") (.int 1), .set (lit "b") (.string (lit "x"))] ∧
      @DataPacket.StandsFor gccNames
        ((DataPacket.empty.set (lit "a") (.int 1)).set (lit "b") (.string (lit "x"))) reorderedTable := by
  have hfirst : Table.After [.set (lit "a") (.int 1)] ⟨[(lit "a", .int 1)], by decide⟩ :=
    .next .start (List.Perm.refl _)
  have hsecond : Table.After [.set (lit "a") (.int 1), .set (lit "b") (.string (lit "x"))]
      reorderedTable := .next hfirst (List.Perm.refl _)
  exact @store_after_history gccNames _ _ hsecond

/-! ### The registry's own table -/

/- `export_to` between tables in iteration order is the one between those without. -/
theorem exportTo_any_order {F : Type} {registry target target' : Unordered Str F}
    (h : target.AssignsAll registry.entries target') :
    target'.contents = (CommandRegistry.mk registry.contents).exportTo target.contents :=
  Unordered.contents_assignsAll h

end Workflow
