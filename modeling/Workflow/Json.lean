import Workflow.Basic

/-!
# JSON values (external/nlohmann/json.hpp, version 3.12.0)

`object_t` is a `std::map`, so an object's members come in increasing key
order; a double is its bit pattern and never computed with. The const
accessors are partial in C++: `operator[]` asserts that the key is there and
throws on the wrong kind, `get<T>` throws on the wrong kind. `Access` keeps
each of these outcomes apart from a value.
-/

namespace Workflow

/-- An IEEE double, kept as its bits. -/
abbrev Double := BitVec 64

inductive Json where
  | null
  | boolean (b : Bool)
  | numberInteger (n : Int64)
  | numberUnsigned (n : UInt64)
  | numberFloat (x : Double)
  | string (s : Str)
  | array (elements : List Json)
  | object (members : List (Str × Json))
  | binary (bytes : List Byte) (subtype : Option UInt64)

abbrev Members := SortedMap Str Json

/-- How an unguarded access goes wrong. -/
inductive Fault where
  /-- `type_error` 305: `operator[]` on a value of another kind. -/
  | subscriptKind
  /-- `JSON_ASSERT` of const `operator[]`: the key or index is not there. -/
  | missing
  /-- `type_error` 302: `get<T>` on a value of another kind. -/
  | getKind
  deriving DecidableEq, Repr

abbrev Access := Except Fault

namespace Json

def ofMembers (m : Members) : Json := .object m.entries

/-- `type_name()` (json.hpp:24723). -/
def typeName : Json → Str
  | .null => lit "null"
  | .object _ => lit "object"
  | .array _ => lit "array"
  | .string _ => lit "string"
  | .boolean _ => lit "boolean"
  | .binary _ _ => lit "binary"
  | .numberInteger _ => lit "number"
  | .numberUnsigned _ => lit "number"
  | .numberFloat _ => lit "number"

def isObject : Json → Bool
  | .object _ => true
  | _ => false

def isArray : Json → Bool
  | .array _ => true
  | _ => false

def isString : Json → Bool
  | .string _ => true
  | _ => false

def isBoolean : Json → Bool
  | .boolean _ => true
  | _ => false

/-- True of both integer kinds (json.hpp:21886). -/
def isNumberInteger : Json → Bool
  | .numberInteger _ => true
  | .numberUnsigned _ => true
  | _ => false

/-- `contains(key)` is false on every non-object (json.hpp:23281). -/
def contains (j : Json) (key : Str) : Bool :=
  match j with
  | .object ms => (findEntry key ms).isSome
  | _ => false

/-- Const `operator[](key)` (json.hpp:22691). -/
def member (j : Json) (key : Str) : Access Json :=
  match j with
  | .object ms =>
    match findEntry key ms with
    | some v => .ok v
    | none => .error .missing
  | _ => .error .subscriptKind

/-- Const `operator[](index)` (json.hpp:22656). -/
def element (j : Json) (index : ℕ) : Access Json :=
  match j with
  | .array xs =>
    match xs[index]? with
    | some v => .ok v
    | none => .error .missing
  | _ => .error .subscriptKind

def getString : Json → Access Str
  | .string s => .ok s
  | _ => .error .getKind

def getBool : Json → Access Bool
  | .boolean b => .ok b
  | _ => .error .getKind

/-- `size()` (json.hpp:23497). -/
def size : Json → ℕ
  | .null => 0
  | .array xs => xs.length
  | .object ms => ms.length
  | _ => 1

/-- `empty()` (json.hpp:23458). -/
def isEmpty : Json → Bool
  | .null => true
  | .array xs => xs.isEmpty
  | .object ms => ms.isEmpty
  | _ => false

/-- What `find(key)` shows of a value: nothing on a non-object. -/
def get? (j : Json) (key : Str) : Option Json :=
  match j with
  | .object ms => findEntry key ms
  | _ => none

theorem contains_eq (j : Json) (key : Str) : j.contains key = (j.get? key).isSome := by
  cases j <;> rfl

theorem member_of_get? {j : Json} {key : Str} {v : Json} (h : j.get? key = some v) :
    j.member key = .ok v := by
  cases j with
  | object ms =>
    have hv : findEntry key ms = some v := h
    simp only [member, hv]
  | _ => simp [get?] at h

theorem isString_iff (j : Json) : j.isString = true ↔ ∃ s, j = .string s := by
  cases j <;> simp [isString]

theorem isObject_iff (j : Json) : j.isObject = true ↔ ∃ ms, j = .object ms := by
  cases j <;> simp [isObject]

theorem isBoolean_iff (j : Json) : j.isBoolean = true ↔ ∃ b, j = .boolean b := by
  cases j <;> simp [isBoolean]

end Json

end Workflow
