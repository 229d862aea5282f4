import Workflow.DataPacket

/-!
# The JSON codec of DataPacket (DataPacket.cpp:6-104)

Both directions of the codec: what decoding and encoding again does to a JSON
object, and what encoding and decoding again does to a packet. The decoder
reads an unsigned number with `get<std::int64_t>()`, so the first direction
loses exactly the numbers from `2^63` on.
-/

namespace Workflow

/-! ### The integer range check -/

def FitsInt (n : Int64) : Prop := -2^31 ≤ n.toInt ∧ n.toInt < 2^31

theorem fitsInt_iff (n : Int64) :
    (Int32.minValue.toInt64 ≤ n ∧ n ≤ Int32.maxValue.toInt64) ↔ FitsInt n := by
  have hmin : Int32.minValue.toInt64.toInt = -2^31 := by decide
  have hmax : Int32.maxValue.toInt64.toInt = 2^31 - 1 := by decide
  rw [Int64.le_iff_toInt_le, Int64.le_iff_toInt_le, hmin, hmax, FitsInt]
  omega

instance (n : Int64) : Decidable (FitsInt n) := inferInstanceAs (Decidable (_ ∧ _))

theorem toInt64_toInt32_of_fitsInt {n : Int64} (h : FitsInt n) : n.toInt32.toInt64 = n := by
  apply Int64.toInt_inj.mp
  rw [Int32.toInt_toInt64, Int64.toInt_toInt32]
  unfold FitsInt at h
  exact Int.bmod_eq_of_le (by omega) (by omega)

theorem fitsInt_toInt64 (n : Int32) : FitsInt n.toInt64 := by
  have hlow := n.le_toInt
  have hhigh := n.toInt_lt
  rw [FitsInt, Int32.toInt_toInt64]
  omega

theorem decodeValue_numberInteger (n : Int64) :
    decodeValue (.numberInteger n) = some (if FitsInt n then .int n.toInt32 else .long n) := by
  simp only [decodeValue, fitsInt_iff]

theorem decodeValue_numberUnsigned (u : UInt64) :
    decodeValue (.numberUnsigned u) = decodeValue (.numberInteger u.toInt64) := rfl

theorem encodeAny_storedInteger (n : Int64) :
    encodeAny (if FitsInt n then .int n.toInt32 else .long n) = .numberInteger n := by
  split_ifs with h
  · rw [encodeAny, toInt64_toInt32_of_fitsInt h]
  · rfl

/-! ### Decode, then encode -/

/-- The mathematical integer of the two integer kinds. -/
def Json.integer? : Json → Option ℤ
  | .numberInteger n => some n.toInt
  | .numberUnsigned u => some u.toNat
  | _ => none

def Json.SameValue (v w : Json) : Prop :=
  v = w ∨ ∃ z : ℤ, v.integer? = some z ∧ w.integer? = some z

def Json.Kept : Json → Prop
  | .null => False
  | .binary _ _ => False
  | _ => True

/-- `out` has exactly the members of `j` that are neither null nor binary, each
with the same value. -/
def SameMembers (j out : Json) : Prop :=
  ∀ k, (∀ v, j.get? k = some v → v.Kept → ∃ w, out.get? k = some w ∧ v.SameValue w) ∧
    ((j.get? k = none ∨ ∃ v, j.get? k = some v ∧ ¬ v.Kept) → out.get? k = none)

theorem toInt_toInt64_eq_iff (u : UInt64) : u.toInt64.toInt = u.toNat ↔ u.toNat < 2^63 := by
  have hlt := u.toNat_lt
  rw [← Int64.toInt_toBitVec, UInt64.toBitVec_toInt64, BitVec.toInt_eq_toNat_cond,
    UInt64.toNat_toBitVec]
  split_ifs <;> omega

theorem sameValue_refl (v : Json) : v.SameValue v := Or.inl rfl

theorem sameValue_unsigned_iff (u : UInt64) :
    (Json.numberUnsigned u).SameValue (.numberInteger u.toInt64) ↔ u.toNat < 2^63 := by
  rw [← toInt_toInt64_eq_iff]
  constructor
  · rintro (h | ⟨z, hz, hw⟩)
    · exact absurd h (by simp)
    · simp only [Json.integer?, Option.some.injEq] at hz hw
      rw [hw, hz]
  · intro h
    exact Or.inr ⟨u.toNat, rfl, by rw [Json.integer?, h]⟩

/- A member that decodes is written back as itself, an unsigned number as the
signed number with the same bits. -/
theorem reencode (v : Json) :
    (decodeValue v).map encodeAny = match v with
      | .null => none
      | .binary _ _ => none
      | .numberUnsigned u => some (.numberInteger u.toInt64)
      | v => some v := by
  cases v with
  | numberInteger n =>
    rw [decodeValue_numberInteger, Option.map_some, encodeAny_storedInteger]
  | numberUnsigned u =>
    rw [decodeValue_numberUnsigned, decodeValue_numberInteger, Option.map_some,
      encodeAny_storedInteger]
  | _ => rfl

theorem reencode_kept {v : Json} (h : v.Kept) :
    ∃ w, (decodeValue v).map encodeAny = some w ∧
      (v.SameValue w ↔ ∀ u, v = .numberUnsigned u → u.toNat < 2^63) := by
  rw [reencode]
  cases v with
  | null => exact h.elim
  | binary bytes subtype => exact h.elim
  | numberUnsigned u =>
    refine ⟨_, rfl, ?_⟩
    simp only [sameValue_unsigned_iff, Json.numberUnsigned.injEq, forall_eq']
  | _ => exact ⟨_, rfl, by simp [sameValue_refl]⟩

theorem reencode_dropped {v : Json} (h : ¬ v.Kept) : (decodeValue v).map encodeAny = none := by
  cases v with
  | null => rfl
  | binary bytes subtype => rfl
  | _ => exact absurd trivial h

theorem roundTrip_get? {m : Members} {q : DataPacket}
    (hq : ∀ k, q.data.find? k = (m.find? k).bind decodeValue) (k : Str) :
    q.toJson.get? k = ((Json.ofMembers m).get? k).bind fun v => (decodeValue v).map encodeAny := by
  show (encodeMap q.data).find? k = (m.find? k).bind _
  rw [toJson_find?, hq]
  cases m.find? k <;> rfl

theorem unsigned_lt_of_sameMembers {m : Members} {q : DataPacket}
    (hq : DataPacket.fromJson (.ofMembers m) = .ok q) (hsame : SameMembers (.ofMembers m) q.toJson)
    {k : Str} {u : UInt64} (hu : m.find? k = some (.numberUnsigned u)) : u.toNat < 2^63 := by
  obtain ⟨q', hq', hfind⟩ := fromJson_spec m
  have he : q' = q := Result.ok.inj (hq'.symm.trans hq)
  subst he
  obtain ⟨w, hw, hv⟩ := (hsame k).1 (.numberUnsigned u) hu trivial
  obtain ⟨w', hw', hiff⟩ := reencode_kept (v := .numberUnsigned u) trivial
  have hww : w = w' := by
    rw [roundTrip_get? hfind, show (Json.ofMembers m).get? k = some (.numberUnsigned u) from hu,
      Option.bind_some, hw'] at hw
    exact (Option.some.inj hw).symm
  exact hiff.mp (hww ▸ hv) u rfl

theorem sameMembers_of_unsigned_lt {m : Members} {q : DataPacket}
    (hfind : ∀ k, q.data.find? k = (m.find? k).bind decodeValue)
    (hsmall : ∀ k u, m.find? k = some (.numberUnsigned u) → u.toNat < 2^63) :
    SameMembers (.ofMembers m) q.toJson := by
  intro k
  have hget := roundTrip_get? hfind k
  constructor
  · intro v hv hk
    obtain ⟨w, hw, hiff⟩ := reencode_kept hk
    refine ⟨w, by rw [hget, hv, Option.bind_some, hw], hiff.mpr ?_⟩
    intro u hu
    exact hsmall k u (hu ▸ hv)
  · intro hgone
    rcases hgone with hnone | ⟨v, hv, hk⟩
    · rw [hget, hnone, Option.bind_none]
    · rw [hget, hv, Option.bind_some, reencode_dropped hk]

/- The decoder accepts every object; the round trip keeps every member unless
one is an unsigned number from `2^63` on. -/
theorem fromJson_toJson_lossless_iff (m : Members) :
    (DataPacket.fromJson (.ofMembers m)).isOk = true ∧
    ((∃ q, DataPacket.fromJson (.ofMembers m) = .ok q ∧ SameMembers (.ofMembers m) q.toJson) ↔
      ∀ k u, m.find? k = some (.numberUnsigned u) → u.toNat < 2^63) := by
  obtain ⟨q, hq, hfind⟩ := fromJson_spec m
  refine ⟨by rw [hq]; rfl, ⟨?_, ?_⟩⟩
  · intro ⟨q', hq', hsame⟩ k u hu
    exact unsigned_lt_of_sameMembers hq' hsame hu
  · intro hsmall
    exact ⟨q, hq, sameMembers_of_unsigned_lt hfind hsmall⟩

/- `{"n": 18446744073709551615}` comes back as `{"n": -1}`. -/
theorem fromJson_toJson_loses_uint64_max :
    ¬ ∃ q, DataPacket.fromJson (.object [(lit "n", .numberUnsigned 18446744073709551615)]) = .ok q ∧
      SameMembers (.object [(lit "n", .numberUnsigned 18446744073709551615)]) q.toJson := by
  intro ⟨q, hq, hsame⟩
  have hlt := unsigned_lt_of_sameMembers
    (m := SortedMap.insert ∅ (lit "n") (.numberUnsigned 18446744073709551615)) hq hsame
    (SortedMap.find?_insert_self _ _ _)
  exact absurd hlt (by decide)

/-! ### Encode, then decode -/

/-- The stored types whose values come back unchanged. -/
def AnyValue.Stable : AnyValue → Prop
  | .int _ => True
  | .bool _ => True
  | .double _ => True
  | .string _ => True
  | .long n => n.toInt < -2^31 ∨ 2^31 ≤ n.toInt
  | .json (.object _) => True
  | .json (.array _) => True
  | _ => False

/-- One entry through the codec and back; `none` is an entry that vanishes. -/
def normalise (a : AnyValue) : Option AnyValue := decodeValue (encodeAny a)

theorem normalise_storedInteger (n : Int64) :
    normalise (if FitsInt n then .int n.toInt32 else .long n)
      = some (if FitsInt n then .int n.toInt32 else .long n) := by
  rw [normalise, encodeAny_storedInteger, decodeValue_numberInteger]

theorem normalise_decodeValue (j : Json) : (decodeValue j).bind normalise = decodeValue j := by
  cases j with
  | numberInteger n =>
    rw [decodeValue_numberInteger, Option.bind_some, normalise_storedInteger]
  | numberUnsigned u =>
    rw [decodeValue_numberUnsigned, decodeValue_numberInteger, Option.bind_some,
      normalise_storedInteger]
  | _ => rfl

theorem normalise_eq_self_iff (a : AnyValue) : normalise a = some a ↔ a.Stable := by
  cases a with
  | int n =>
    have h : normalise (.int n) = some (.int n) := by
      rw [normalise, encodeAny, decodeValue_numberInteger, if_pos (fitsInt_toInt64 n),
        Int32.toInt32_toInt64]
    simp [h, AnyValue.Stable]
  | long n =>
    rw [normalise, encodeAny, decodeValue_numberInteger, AnyValue.Stable]
    split_ifs with h
    · unfold FitsInt at h
      simp only [Option.some.injEq, reduceCtorEq, false_iff]
      omega
    · unfold FitsInt at h
      simp only [true_iff]
      omega
  | longLong n =>
    rw [normalise, encodeAny, decodeValue_numberInteger]
    split_ifs <;> simp [AnyValue.Stable]
  | unsignedInt n =>
    rw [normalise, encodeAny, decodeValue_numberUnsigned, decodeValue_numberInteger]
    split_ifs <;> simp [AnyValue.Stable]
  | unsignedLong n =>
    rw [normalise, encodeAny, decodeValue_numberUnsigned, decodeValue_numberInteger]
    split_ifs <;> simp [AnyValue.Stable]
  | unsignedLongLong n =>
    rw [normalise, encodeAny, decodeValue_numberUnsigned, decodeValue_numberInteger]
    split_ifs <;> simp [AnyValue.Stable]
  | json j =>
    cases j with
    | numberInteger n =>
      rw [normalise, encodeAny, decodeValue_numberInteger]
      split_ifs <;> simp [AnyValue.Stable]
    | numberUnsigned u =>
      rw [normalise, encodeAny, decodeValue_numberUnsigned, decodeValue_numberInteger]
      split_ifs <;> simp [AnyValue.Stable]
    | _ => simp [normalise, encodeAny, decodeValue, AnyValue.Stable]
  | _ => simp [normalise, encodeAny, decodeValue, AnyValue.Stable]

/- Encoding and decoding succeeds on every packet, is idempotent, and gives an
entry back unchanged exactly when its stored type is stable. -/
theorem toJson_fromJson_normalises (p : DataPacket) :
    ∃ q, DataPacket.fromJson p.toJson = .ok q ∧ DataPacket.fromJson q.toJson = .ok q ∧
      (∀ k v, p.data.find? k = some v → (q.data.find? k = some v ↔ v.Stable)) ∧
      (q = p ↔ ∀ k v, p.data.find? k = some v → v.Stable) := by
  obtain ⟨q, hq, hfind⟩ := fromJson_spec (encodeMap p.data)
  have hnorm : ∀ k, q.data.find? k = (p.data.find? k).bind normalise := by
    intro k
    rw [hfind, toJson_find?]
    cases p.data.find? k <;> rfl
  obtain ⟨r, hr, hrfind⟩ := fromJson_spec (encodeMap q.data)
  have hrq : r = q := by
    apply DataPacket.ext_find?
    intro k
    rw [hrfind, toJson_find?, hfind]
    cases (encodeMap p.data).find? k with
    | none => rfl
    | some j =>
      calc ((decodeValue j).map encodeAny).bind decodeValue
          = (decodeValue j).bind normalise := by cases decodeValue j <;> rfl
        _ = decodeValue j := normalise_decodeValue j
  have hkey : ∀ k v, p.data.find? k = some v → (q.data.find? k = some v ↔ v.Stable) := by
    intro k v hv
    rw [hnorm, hv, Option.bind_some, normalise_eq_self_iff]
  refine ⟨q, hq, hrq ▸ hr, hkey, ⟨?_, ?_⟩⟩
  · intro h k v hv
    exact (hkey k v hv).mp (h ▸ hv)
  · intro h
    apply DataPacket.ext_find?
    intro k
    rw [hnorm]
    cases hv : p.data.find? k with
    | none =>
      rfl
    | some v =>
      exact (normalise_eq_self_iff v).mpr (h k v hv)

end Workflow
