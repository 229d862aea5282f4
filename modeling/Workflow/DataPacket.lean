import Mathlib.Tactic.NormNum
import Workflow.Json

/-!
# DataPacket and DataBus (DataPacket.hpp, DataPacket.cpp, DataBus.hpp, DataBus.cpp)

Both containers are an `unordered_map<string, any>`. An `any` is the sum of
the types `to_json` knows and one constructor for all others. On 64-bit Linux
`std::int64_t` is `long` and `std::uint64_t` is `unsigned long`, so the last
two branches of `to_json` are never reached and have no constructor.
-/

namespace Workflow

inductive AnyValue where
  | int (n : Int32)
  | double (x : Double)
  /-- A float, kept as the double it converts to without loss. -/
  | float (x : Double)
  | bool (b : Bool)
  | string (s : Str)
  /-- A non-null `const char*`, kept as the bytes before its NUL. -/
  | charPtr (s : Str)
  | json (j : Json)
  | long (n : Int64)
  | longLong (n : Int64)
  | unsignedInt (n : UInt32)
  | unsignedLong (n : UInt64)
  | unsignedLongLong (n : UInt64)
  /-- A value of any other type; `id` tells such values apart. -/
  | other (id : ℕ)

abbrev AnyMap := SortedMap Str AnyValue

/-- The dispatch on `value.type()` (DataPacket.cpp:9-45, DataBus.cpp:9-43). -/
def encodeAny : AnyValue → Json
  | .int n => .numberInteger n.toInt64
  | .double x => .numberFloat x
  | .float x => .numberFloat x
  | .bool b => .boolean b
  | .string s => .string s
  | .charPtr s => .string s
  | .json j => j
  | .long n => .numberInteger n
  | .longLong n => .numberInteger n
  | .unsignedInt n => .numberUnsigned n.toUInt64
  | .unsignedLong n => .numberUnsigned n
  | .unsignedLongLong n => .numberUnsigned n
  | .other _ => .string (lit "<unsupported-type>")

/-- `for (const auto& [key, value] : ...) obj[key] = ...`. -/
def encodeMap (m : AnyMap) : Members :=
  m.entries.foldl (fun obj e => obj.insert e.1 (encodeAny e.2)) ∅

structure DataPacket where
  data : AnyMap

structure DataBus where
  sharedState : AnyMap

namespace DataBus

def empty : DataBus := ⟨∅⟩

def hasKey (bus : DataBus) (key : Str) : Bool := bus.sharedState.contains key

theorem hasKey_eq_false_iff (bus : DataBus) (key : Str) :
    bus.hasKey key = false ↔ bus.sharedState.find? key = none := by
  unfold hasKey SortedMap.contains
  cases bus.sharedState.find? key <;> simp

def toJson (bus : DataBus) : Json := .ofMembers (encodeMap bus.sharedState)

end DataBus

namespace DataPacket

def empty : DataPacket := ⟨∅⟩

def set (packet : DataPacket) (key : Str) (value : AnyValue) : DataPacket :=
  ⟨packet.data.insert key value⟩

def size (packet : DataPacket) : ℕ := packet.data.size

def toJson (packet : DataPacket) : Json := .ofMembers (encodeMap packet.data)

/-- The signed branch of the number cases (DataPacket.cpp:70-77). -/
def setInteger (packet : DataPacket) (key : Str) (n : Int64) : DataPacket :=
  if Int32.minValue.toInt64 ≤ n ∧ n ≤ Int32.maxValue.toInt64 then packet.set key (.int n.toInt32)
  else packet.set key (.long n)

/-- One turn of the decoder's loop (DataPacket.cpp:62-99). Both number kinds ask
`is_number_integer()`, which holds of either; `get<int64_t>()` of an unsigned
number is a `static_cast`. -/
def decodeMember (packet : DataPacket) (key : Str) (val : Json) : DataPacket :=
  match val with
  | .boolean b => packet.set key (.bool b)
  | .numberInteger n =>
    if val.isNumberInteger then packet.setInteger key n
    else packet.set key (.unsignedLong n.toUInt64)
  | .numberUnsigned u =>
    if val.isNumberInteger then packet.setInteger key u.toInt64
    else packet.set key (.unsignedLong u)
  | .numberFloat x => packet.set key (.double x)
  | .string s => packet.set key (.string s)
  | .object _ => packet.set key (.json val)
  | .array _ => packet.set key (.json val)
  | .null => packet
  | .binary _ _ => packet

def fromJson (j : Json) : Result DataPacket :=
  match j with
  | .object ms => .ok (ms.foldl (fun packet m => packet.decodeMember m.1 m.2) empty)
  | _ => .error (lit "DataPacket::from_json: expected JSON object, received non-object") (-1)

end DataPacket

/-! ### What the two loops compute -/

theorem encodeMap_eq (m : AnyMap) : encodeMap m = m.mapValues encodeAny :=
  SortedMap.foldl_insert_eq_mapValues encodeAny m

/-- The stored value a member decodes to; `none` is a member the decoder skips. -/
def decodeValue : Json → Option AnyValue
  | .boolean b => some (.bool b)
  | .numberInteger n =>
    some (if Int32.minValue.toInt64 ≤ n ∧ n ≤ Int32.maxValue.toInt64 then .int n.toInt32 else .long n)
  | .numberUnsigned u =>
    some (if Int32.minValue.toInt64 ≤ u.toInt64 ∧ u.toInt64 ≤ Int32.maxValue.toInt64
      then .int u.toInt64.toInt32 else .long u.toInt64)
  | .numberFloat x => some (.double x)
  | .string s => some (.string s)
  | .object ms => some (.json (.object ms))
  | .array xs => some (.json (.array xs))
  | .null => none
  | .binary _ _ => none

theorem set_find?_self (packet : DataPacket) (key : Str) (v : AnyValue) :
    (packet.set key v).data.find? key = some v := SortedMap.find?_insert_self _ _ _

theorem set_find?_ne (packet : DataPacket) {key k : Str} (h : k ≠ key) (v : AnyValue) :
    (packet.set key v).data.find? k = packet.data.find? k := SortedMap.find?_insert_ne _ h _

theorem decodeMember_eq (packet : DataPacket) (key : Str) (val : Json) :
    packet.decodeMember key val = match decodeValue val with
      | some v => packet.set key v
      | none => packet := by
  cases val with
  | numberInteger n =>
    simp only [DataPacket.decodeMember, Json.isNumberInteger, if_true, DataPacket.setInteger, decodeValue]
    split_ifs <;> rfl
  | numberUnsigned u =>
    simp only [DataPacket.decodeMember, Json.isNumberInteger, if_true, DataPacket.setInteger, decodeValue]
    split_ifs <;> rfl
  | _ => rfl

theorem decodeMember_find?_self (packet : DataPacket) (key : Str) (val : Json) :
    (packet.decodeMember key val).data.find? key
      = (decodeValue val).or (packet.data.find? key) := by
  rw [decodeMember_eq]
  cases decodeValue val with
  | none => rfl
  | some v => exact set_find?_self packet key v

theorem decodeMember_find?_ne (packet : DataPacket) {key k : Str} (val : Json) (h : k ≠ key) :
    (packet.decodeMember key val).data.find? k = packet.data.find? k := by
  rw [decodeMember_eq]
  cases decodeValue val with
  | none => rfl
  | some v => exact set_find?_ne packet h v

theorem decode_foldl_data (l : List (Str × Json)) (p : DataPacket) :
    (l.foldl (fun packet e => packet.decodeMember e.1 e.2) p).data
      = l.foldl (fun acc e => (DataPacket.decodeMember ⟨acc⟩ e.1 e.2).data) p.data := by
  induction l generalizing p with
  | nil => rfl
  | cons e l ih => exact ih _

theorem fromJson_spec (m : Members) :
    ∃ q, DataPacket.fromJson (.ofMembers m) = .ok q ∧
      ∀ k, q.data.find? k = (m.find? k).bind decodeValue := by
  refine ⟨_, rfl, fun k => ?_⟩
  rw [decode_foldl_data, SortedMap.find?_foldl
    (fun acc k j => (DataPacket.decodeMember ⟨acc⟩ k j).data) decodeValue
    (fun acc k j => decodeMember_find?_self ⟨acc⟩ k j)
    (fun acc k j k' h => decodeMember_find?_ne ⟨acc⟩ j h) m.entries m.sorted]
  exact Option.or_none

theorem toJson_find? (p : DataPacket) (k : Str) :
    (encodeMap p.data).find? k = (p.data.find? k).map encodeAny := by
  rw [encodeMap_eq, SortedMap.find?_mapValues]

theorem DataPacket.ext_find? {p q : DataPacket} (h : ∀ k, p.data.find? k = q.data.find? k) :
    p = q := by
  cases p
  cases q
  exact congrArg DataPacket.mk (SortedMap.ext_find? h)

end Workflow
