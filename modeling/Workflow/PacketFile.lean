import Workflow.JsonRoundTrip
import Workflow.PacketCodec

/-!
# Packets written to a file and read back

`to_json`, `dump(2)`, `file >> j` and `from_json` one after the other. What
comes back is the packet entry by entry (`restore`); a second trip changes
nothing more (`packet_restores`).
-/

namespace Workflow

open JsonReader (FloatReader isFinite parse)
open JsonText

/-- What becomes of a stored value; `none` is an entry that vanishes. -/
def restore (a : AnyValue) : Option AnyValue := decodeValue (encodeAny a).reread

/-- A stored JSON value is made of `std::map`s. -/
def AnyValue.Ordered : AnyValue → Prop
  | .json j => j.Ordered
  | _ => True

def MapOrdered (m : AnyMap) : Prop := ∀ k v, m.find? k = some v → v.Ordered

/-! ### Objects -/

theorem rereadMembers_eq (ms : List (Str × Json)) :
    rereadMembers ms = ms.map fun e => (e.1, e.2.reread) := by
  induction ms with
  | nil => rfl
  | cons e ms ih =>
    obtain ⟨k, v⟩ := e
    simp only [rereadMembers, List.map_cons, ih]

theorem reread_ofMembers (m : Members) :
    (Json.ofMembers m).reread = .ofMembers (m.mapValues Json.reread) :=
  congrArg Json.object (rereadMembers_eq m.entries)

theorem reread_ofMembers_get? (m : Members) (k : Str) :
    (Json.ofMembers m).reread.get? k = (m.find? k).map Json.reread := by
  rw [reread_ofMembers]
  exact SortedMap.find?_mapValues Json.reread m k

theorem membersOrdered_iff (ms : List (Str × Json)) :
    MembersOrdered ms ↔ ∀ e ∈ ms, e.2.Ordered := by
  induction ms with
  | nil => simp [MembersOrdered]
  | cons e ms ih =>
    obtain ⟨k, v⟩ := e
    simp only [MembersOrdered, ih, List.forall_mem_cons]

theorem ordered_ofMembers (m : Members) :
    (Json.ofMembers m).Ordered ↔ ∀ k v, m.find? k = some v → v.Ordered := by
  show _ ∧ MembersOrdered m.entries ↔ _
  rw [and_iff_right m.sorted, membersOrdered_iff]
  simp only [Prod.forall, SortedMap.mem_entries_iff]

theorem ordered_encodeAny {a : AnyValue} (h : a.Ordered) : (encodeAny a).Ordered := by
  cases a with
  | json j => exact h
  | _ => trivial

theorem ordered_encodeMap {m : AnyMap} (h : MapOrdered m) : (Json.ofMembers (encodeMap m)).Ordered := by
  rw [ordered_ofMembers, encodeMap_eq]
  intro k v hv
  rw [SortedMap.find?_mapValues, Option.map_eq_some_iff] at hv
  obtain ⟨a, ha, rfl⟩ := hv
  exact ordered_encodeAny (h k a ha)

/-! ### One value -/

mutual
theorem reread_idem : ∀ j : Json, j.reread.reread = j.reread
  | .null => rfl
  | .boolean _ => rfl
  | .numberUnsigned _ => rfl
  | .string _ => rfl
  | .numberInteger z => by
    simp only [Json.reread]
    by_cases hz : z < 0
    · rw [if_pos hz]
      simp only [Json.reread, if_pos hz]
    · rw [if_neg hz]
      rfl
  | .numberFloat x => by
    simp only [Json.reread]
    by_cases hx : isFinite x = true
    · rw [if_pos hx]
      simp only [Json.reread, if_pos hx]
    · rw [if_neg hx]
      rfl
  | .array xs => congrArg Json.array (rereadElements_idem xs)
  | .object ms => congrArg Json.object (rereadMembers_idem ms)
  | .binary bytes subtype => by
    have hbytes : rereadElements (bytes.map fun b => .numberUnsigned (UInt64.ofNat b.val))
        = bytes.map fun b => .numberUnsigned (UInt64.ofNat b.val) := by
      induction bytes with
      | nil => rfl
      | cons b bytes ih => simp only [List.map_cons, rereadElements, Json.reread, ih]
    cases subtype <;> simp only [Json.reread, rereadMembers, hbytes]

theorem rereadMembers_idem : ∀ ms, rereadMembers (rereadMembers ms) = rereadMembers ms
  | [] => rfl
  | (k, v) :: ms => by
    simp only [rereadMembers, reread_idem v, rereadMembers_idem ms]

theorem rereadElements_idem : ∀ xs, rereadElements (rereadElements xs) = rereadElements xs
  | [] => rfl
  | x :: xs => by
    simp only [rereadElements, reread_idem x, rereadElements_idem xs]
end

/- The decoder does not look at the kind of an integer. -/
theorem decodeValue_reread_integer (z : Int64) :
    decodeValue (Json.numberInteger z).reread = decodeValue (.numberInteger z) := by
  simp only [Json.reread]
  by_cases hz : z < 0
  · rw [if_pos hz]
  · rw [if_neg hz, decodeValue_numberUnsigned, Int64.toInt64_toUInt64]

/- A value that a file gives back is stored in a form that a file gives back. -/
theorem restore_of_reread {j : Json} (h : j.reread = j) :
    (decodeValue j).bind restore = decodeValue j := by
  cases j with
  | numberInteger z =>
    rw [decodeValue_numberInteger, Option.bind_some, restore, encodeAny_storedInteger,
      decodeValue_reread_integer, decodeValue_numberInteger]
  | numberUnsigned u =>
    rw [decodeValue_numberUnsigned, decodeValue_numberInteger, Option.bind_some, restore,
      encodeAny_storedInteger, decodeValue_reread_integer, decodeValue_numberInteger]
  | numberFloat x =>
    show decodeValue (Json.numberFloat x).reread = _
    rw [h]
  | array xs =>
    show decodeValue (Json.array xs).reread = _
    rw [h]
  | object ms =>
    show decodeValue (Json.object ms).reread = _
    rw [h]
  | binary bytes subtype => cases h
  | _ => rfl

theorem restore_idem (a : AnyValue) : (restore a).bind restore = restore a :=
  restore_of_reread (reread_idem (encodeAny a))

/-- The stored values that a file gives back unchanged. -/
def AnyValue.Persistent : AnyValue → Prop
  | .double x => isFinite x = true
  | .json (.object ms) => (Json.object ms).reread = .object ms
  | .json (.array xs) => (Json.array xs).reread = .array xs
  | a => a.Stable

/- But for doubles and nested values a file gives back what the codec does. -/
theorem restore_integer {a : AnyValue} {z : Int64} (h : encodeAny a = .numberInteger z) :
    restore a = normalise a := by
  unfold restore normalise
  rw [h, decodeValue_reread_integer]

theorem restore_kept {a : AnyValue} (h : (encodeAny a).reread = encodeAny a) :
    restore a = normalise a := by
  unfold restore normalise
  rw [h]

theorem restore_eq_self_iff (a : AnyValue) : restore a = some a ↔ a.Persistent := by
  have hstable := normalise_eq_self_iff a
  cases a with
  | double x =>
    simp only [AnyValue.Persistent, restore, encodeAny, Json.reread]
    by_cases hx : isFinite x = true
    · simp [hx, decodeValue]
    · simp [hx, decodeValue]
  | float x =>
    simp only [AnyValue.Persistent, AnyValue.Stable, restore, encodeAny, Json.reread]
    by_cases hx : isFinite x = true
    · simp [hx, decodeValue]
    · simp [hx, decodeValue]
  | json j =>
    cases j with
    | object ms => simp [AnyValue.Persistent, restore, encodeAny, Json.reread, decodeValue]
    | array xs => simp [AnyValue.Persistent, restore, encodeAny, Json.reread, decodeValue]
    | numberFloat x =>
      simp only [AnyValue.Persistent, AnyValue.Stable, restore, encodeAny, Json.reread]
      by_cases hx : isFinite x = true
      · simp [hx, decodeValue]
      · simp [hx, decodeValue]
    | binary bytes subtype =>
      simp [AnyValue.Persistent, AnyValue.Stable, restore, encodeAny, Json.reread, decodeValue]
    | numberInteger z =>
      rw [restore_integer (z := z) rfl, hstable]
      rfl
    | _ =>
      rw [restore_kept rfl, hstable]
      rfl
  | int n =>
    rw [restore_integer (z := n.toInt64) rfl, hstable]
    rfl
  | long n =>
    rw [restore_integer (z := n) rfl, hstable]
    rfl
  | longLong n =>
    rw [restore_integer (z := n) rfl, hstable]
    rfl
  | _ =>
    rw [restore_kept rfl, hstable]
    rfl

/-! ### Whole packets -/

theorem fromJson_reread (m : AnyMap) :
    ∃ q, DataPacket.fromJson (Json.ofMembers (encodeMap m)).reread = .ok q ∧
      ∀ k, q.data.find? k = (m.find? k).bind restore := by
  obtain ⟨q, hq, hfind⟩ := fromJson_spec ((encodeMap m).mapValues Json.reread)
  refine ⟨q, ?_, ?_⟩
  · rw [reread_ofMembers]
    exact hq
  · intro k
    rw [hfind, SortedMap.find?_mapValues, encodeMap_eq, SortedMap.find?_mapValues]
    cases m.find? k <;> rfl

/- What was read is stored in a form that can be written. -/
theorem writable_of_read {j : Json} (h : j.IsRead) {a : AnyValue} (ha : decodeValue j = some a) :
    (encodeAny a).IsUtf8 ∧ a.Ordered := by
  have hback : encodeAny a = match j with
      | .numberUnsigned u => .numberInteger u.toInt64
      | v => v := by
    have hencoded := reencode j
    rw [ha] at hencoded
    cases j with
    | null => cases ha
    | binary bytes subtype => cases ha
    | _ => exact Option.some.inj hencoded
  constructor
  · rw [hback]
    cases j with
    | numberUnsigned u => trivial
    | _ => exact Json.IsRead.isUtf8 _ h
  · have hordered := (ordered_of_read j h).1
    cases j with
    | object ms =>
      obtain rfl := Option.some.inj ha
      exact hordered
    | array xs =>
      obtain rfl := Option.some.inj ha
      exact hordered
    | numberInteger z =>
      rw [decodeValue_numberInteger] at ha
      split_ifs at ha <;> obtain rfl := Option.some.inj ha <;> trivial
    | numberUnsigned u =>
      rw [decodeValue_numberUnsigned, decodeValue_numberInteger] at ha
      split_ifs at ha <;> obtain rfl := Option.some.inj ha <;> trivial
    | null => cases ha
    | binary bytes subtype => cases ha
    | _ =>
      obtain rfl := Option.some.inj ha
      trivial

section
variable [FloatText] [FloatReader]

/- The packet `q` is read from a file that `p` was written to. -/
def Restores (p q : DataPacket) : Prop :=
  ∃ text j, dump p.toJson = .ok text ∧ parse text = .value j [] ∧ DataPacket.fromJson j = .ok q

theorem restores_of_utf8 (hfloats : FloatsRoundTrip) {p : DataPacket} (hutf8 : p.toJson.IsUtf8)
    (hordered : MapOrdered p.data) :
    ∃ q, Restores p q ∧ (∀ k, q.data.find? k = (p.data.find? k).bind restore) ∧
      q.toJson.IsUtf8 ∧ MapOrdered q.data := by
  obtain ⟨text, hdump, hparse⟩ := parse_dump hfloats (ordered_encodeMap hordered) hutf8
  obtain ⟨q, hq, hfind⟩ := fromJson_reread p.data
  have hread : (Json.ofMembers (encodeMap p.data)).reread.IsRead := isRead_of_parse hparse
  rw [reread_ofMembers] at hread
  have hvalues : ∀ k a, q.data.find? k = some a →
      Utf8.Valid k ∧ (encodeAny a).IsUtf8 ∧ a.Ordered := by
    intro k a ha
    rw [hfind, Option.bind_eq_some_iff] at ha
    obtain ⟨v, hv, hrestore⟩ := ha
    have hmember : ((encodeMap p.data).mapValues Json.reread).find? k = some (encodeAny v).reread := by
      rw [SortedMap.find?_mapValues, encodeMap_eq, SortedMap.find?_mapValues, hv]
      rfl
    have hin := (membersRead_iff _).mp hread.2 _ ((SortedMap.mem_entries_iff _ k _).mpr hmember)
    exact ⟨hin.1, writable_of_read hin.2 hrestore⟩
  refine ⟨q, ⟨text, _, hdump, hparse, hq⟩, hfind, ?_, ?_⟩
  · show (Json.ofMembers (encodeMap q.data)).IsUtf8
    rw [isUtf8_ofMembers]
    intro k v hv
    rw [toJson_find?, Option.map_eq_some_iff] at hv
    obtain ⟨a, ha, rfl⟩ := hv
    exact ⟨(hvalues k a ha).1, (hvalues k a ha).2.1⟩
  · intro k a ha
    exact (hvalues k a ha).2.2

/- A packet of valid strings can be written and read back. That loses nothing but
what `restore` loses, and a second trip loses nothing. -/
theorem packet_restores (hfloats : FloatsRoundTrip) {p : DataPacket} (hutf8 : p.toJson.IsUtf8)
    (hordered : MapOrdered p.data) :
    ∃ q, Restores p q ∧ (∀ k, q.data.find? k = (p.data.find? k).bind restore) ∧ Restores q q ∧
      (q = p ↔ ∀ k v, p.data.find? k = some v → v.Persistent) := by
  obtain ⟨q, hq, hfind, hqutf8, hqordered⟩ := restores_of_utf8 hfloats hutf8 hordered
  obtain ⟨q', hq', hfind', -⟩ := restores_of_utf8 hfloats hqutf8 hqordered
  have hsame : q' = q := by
    apply DataPacket.ext_find?
    intro k
    rw [hfind', hfind]
    cases p.data.find? k with
    | none => rfl
    | some a => exact restore_idem a
  refine ⟨q, hq, hfind, hsame ▸ hq', ⟨?_, ?_⟩⟩
  · intro h k v hv
    have hk := hfind k
    rw [h, hv, Option.bind_some] at hk
    exact (restore_eq_self_iff v).mp hk.symm
  · intro h
    apply DataPacket.ext_find?
    intro k
    rw [hfind]
    cases hv : p.data.find? k with
    | none => rfl
    | some v => exact (restore_eq_self_iff v).mpr (h k v hv)

end

/- A nested value, an integer that comes back as an `int`, text and a double. -/
def samplePacket : DataPacket :=
  (((DataPacket.empty.set (lit "a") (.json (.array [.numberInteger (-3), .null]))).set
    (lit "n") (.longLong 5)).set (lit "s") (.string [0xC3, 0xA9])).set (lit "x") (.double 0)

theorem samplePacket_utf8 : samplePacket.toJson.IsUtf8 := by
  have hjson : samplePacket.toJson = .object
      [(lit "a", .array [.numberInteger (-3), .null]), (lit "n", .numberInteger 5),
        (lit "s", .string [0xC3, 0xA9]), (lit "x", .numberFloat 0)] := rfl
  have haccent : Utf8.Valid [0xC3, 0xA9] := by decide
  rw [hjson]
  exact ⟨by decide, ⟨trivial, trivial, trivial⟩, by decide, trivial, by decide, haccent, by decide,
    trivial, trivial⟩

theorem samplePacket_ordered : MapOrdered samplePacket.data := by
  have hentries : samplePacket.data.entries =
      [(lit "a", .json (.array [.numberInteger (-3), .null])), (lit "n", .longLong 5),
        (lit "s", .string [0xC3, 0xA9]), (lit "x", .double 0)] := rfl
  have hordered : ∀ e ∈ samplePacket.data.entries, e.2.Ordered := by
    rw [hentries]
    simp [AnyValue.Ordered, Json.Ordered, ElementsOrdered]
  intro k v hv
  exact hordered (k, v) ((SortedMap.mem_entries_iff _ k v).mpr hv)

theorem packet_restores_sample :
    ∃ q, @Restores bitsText bitsReader samplePacket q ∧
      (∀ k, q.data.find? k = (samplePacket.data.find? k).bind restore) ∧
      @Restores bitsText bitsReader q q ∧
      (q = samplePacket ↔ ∀ k v, samplePacket.data.find? k = some v → v.Persistent) :=
  @packet_restores bitsText bitsReader bits_roundTrip samplePacket samplePacket_utf8
    samplePacket_ordered

end Workflow
