import Workflow.AuditFiles
import Workflow.PacketFile

/-!
# Reading the audit files back

Each file in the audit directory is the text of one JSON object, which gives its
snapshot back up to `restore` and tells it from all others of the run
(`audit_files_read_back`).
-/

namespace Workflow
open Observe
open JsonReader (FloatReader parse)
open JsonText

variable {W : Type}

/-! ### Reading a record back -/

theorem find?_foldl_insert_of_mem (extra : List (Str × Json)) (m : Members)
    (hnodup : (extra.map Prod.fst).Nodup) {e : Str × Json} (he : e ∈ extra) :
    (extra.foldl (fun snap e => snap.insert e.1 e.2) m).find? e.1 = some e.2 := by
  induction extra generalizing m with
  | nil => cases he
  | cons first extra ih =>
    rw [List.map_cons, List.nodup_cons] at hnodup
    rw [List.foldl_cons]
    cases List.mem_cons.mp he with
    | inl hfirst =>
      subst hfirst
      rw [find?_foldl_insert extra _ hnodup.1]
      exact SortedMap.find?_insert_self _ _ _
    | inr hrest => exact ih _ hnodup.2 hrest

theorem ordered_insert {m : Members} {k : Str} {v : Json} (hm : (Json.ofMembers m).Ordered)
    (hv : v.Ordered) : (Json.ofMembers (m.insert k v)).Ordered := by
  rw [ordered_ofMembers] at hm ⊢
  intro k' v' hfind
  by_cases hk : k' = k
  · rw [hk, SortedMap.find?_insert_self, Option.some.injEq] at hfind
    exact hfind ▸ hv
  · rw [SortedMap.find?_insert_ne _ hk] at hfind
    exact hm k' v' hfind

theorem ordered_foldl_insert {extra : List (Str × Json)} (h : ∀ e ∈ extra, e.2.Ordered) {m : Members}
    (hm : (Json.ofMembers m).Ordered) :
    (Json.ofMembers (extra.foldl (fun snap e => snap.insert e.1 e.2) m)).Ordered := by
  induction extra generalizing m with
  | nil => exact hm
  | cons e extra ih =>
    rw [List.forall_mem_cons] at h
    exact ih h.2 (ordered_insert hm h.1)

/- The members of a site are strings and numbers. -/
def Json.Flat : Json → Prop
  | .string _ => True
  | .numberInteger _ => True
  | _ => False

theorem ordered_of_flat {j : Json} (h : j.Flat) : j.Ordered := by
  cases j with
  | string s => trivial
  | numberInteger z => trivial
  | _ => exact h.elim

theorem flat_skippedMembers (status : Str) : ∀ e ∈ skippedMembers status, e.2.Flat := by
  simp [skippedMembers, Json.Flat]

theorem flat_of_mem_skipped {onError : OnError} {call : Invocation} {reason : String} {x : Snapshot}
    (h : x ∈ call.skipped onError reason) : ∀ e ∈ x.members, e.2.Flat := by
  cases onError with
  | HALT => cases h
  | CONTINUE =>
    rw [List.mem_singleton.mp h]
    exact flat_skippedMembers _

theorem flat_of_mem_snapshots {onError : OnError} {call : Invocation} {x : Snapshot}
    (h : x ∈ call.snapshots onError) : ∀ e ∈ x.members, e.2.Flat := by
  unfold Invocation.snapshots Invocation.laterSnapshots at h
  cases List.mem_cons.mp h with
  | inl hpre =>
    rw [hpre]
    simp [Invocation.entry, preMembers, Json.Flat]
  | inr hlater =>
    rcases hout : call.outcome with e | (packet | ⟨message, code⟩) <;> rw [hout] at hlater
    · cases List.mem_cons.mp hlater with
      | inl hfailed =>
        rw [hfailed]
        simp [Invocation.entry, exceptionMembers, Json.Flat]
      | inr hskipped => exact flat_of_mem_skipped hskipped
    · rw [List.mem_singleton.mp hlater]
      simp [Invocation.entry, successMembers, Json.Flat]
    · cases List.mem_cons.mp hlater with
      | inl hfailed =>
        rw [hfailed]
        simp [Invocation.entry, errorMembers, Json.Flat]
      | inr hskipped => exact flat_of_mem_skipped hskipped

/-- The nested values of packet and bus are made of `std::map`s. -/
def Snapshot.Ordered (x : Snapshot) : Prop := MapOrdered x.packet.data ∧ MapOrdered x.bus.sharedState

theorem ordered_record {x : Snapshot} (h : x.Ordered) (hflat : ∀ e ∈ x.members, e.2.Flat)
    (workflowName : Str) (built written : Tm) : (x.record workflowName built written).Ordered := by
  have hempty : (Json.ofMembers ∅).Ordered := ⟨.nil, trivial⟩
  have hsnapshot : (snapshotValue x.packet x.bus x.members built).Ordered := by
    apply ordered_foldl_insert fun e he => ordered_of_flat (hflat e he)
    refine ordered_insert (ordered_insert (ordered_insert hempty ?_) ?_) trivial
    · exact ordered_encodeMap h.1
    · exact ordered_encodeMap h.2
  refine ordered_insert (ordered_insert (ordered_insert (ordered_insert (ordered_insert
    (ordered_insert hempty ?_) ?_) ?_) ?_) ?_) hsnapshot <;> trivial

/- What `from_json` makes of the data that a record holds under a key. -/
def DataRead (record : Json) (key : Str) (m : AnyMap) : Prop :=
  ∃ data q, recordedData record key = some data ∧ DataPacket.fromJson data = .ok q ∧
    ∀ k, q.data.find? k = (m.find? k).bind restore

section
variable [FloatReader]

/- The text is that of a record, which says what the snapshot is. -/
structure Snapshot.ReadFrom (workflowName text : Str) (x : Snapshot) (record : Json) : Prop where
  whole : parse text = .value record []
  workflow : record.get? (lit "workflow") = some (.string workflowName)
  step : record.get? (lit "step") = some (.numberUnsigned (UInt64.ofNat (x.step + 1)))
  command : record.get? (lit "command") = some (.string x.command)
  status : record.get? (lit "status") = some (.string x.status)
  members : ∀ e ∈ x.members, recordedData record e.1 = some e.2.reread
  packet : DataRead record (lit "data_packet") x.packet.data
  bus : DataRead record (lit "data_bus") x.bus.sharedState

end

/- A record read back shows the members of its snapshot, read back. -/
theorem recordedData_reread (workflowName : Str) (x : Snapshot) (built written : Tm) (key : Str) :
    recordedData (x.record workflowName built written).reread key
      = ((x.members.foldl (fun snap e => snap.insert e.1 e.2)
          (snapshotMembers x.packet x.bus (formatUtc built))).find? key).map Json.reread := by
  have hrecord : (x.record workflowName built written).reread.get? (lit "snapshot")
      = some (snapshotValue x.packet x.bus x.members built).reread := by
    unfold Snapshot.record
    rw [reread_ofMembers_get?]
    exact congrArg (Option.map Json.reread) (SortedMap.find?_insert_self _ _ _)
  unfold recordedData
  rw [hrecord]
  exact reread_ofMembers_get? _ key

theorem dataRead_reread {x : Snapshot} (hkeys : (x.members.map Prod.fst).Sublist siteKeys)
    (workflowName : Str) (built written : Tm) :
    DataRead (x.record workflowName built written).reread (lit "data_packet") x.packet.data ∧
      DataRead (x.record workflowName built written).reread (lit "data_bus") x.bus.sharedState := by
  have hhidden : ∀ key, key ∉ siteKeys → key ∉ x.members.map Prod.fst :=
    fun key hkey hmem => hkey (hkeys.subset hmem)
  constructor
  · obtain ⟨q, hq, hfind⟩ := fromJson_reread x.packet.data
    refine ⟨_, q, ?_, hq, hfind⟩
    rw [recordedData_reread, find?_foldl_insert _ _ (hhidden _ (by decide))]
    rfl
  · obtain ⟨q, hq, hfind⟩ := fromJson_reread x.bus.sharedState
    refine ⟨_, q, ?_, hq, hfind⟩
    rw [recordedData_reread, find?_foldl_insert _ _ (hhidden _ (by decide))]
    rfl

section
variable [FloatText] [FloatReader]

theorem readFrom_of_writtenAs (hfloats : FloatsRoundTrip) {workflowName text : Str} {x : Snapshot}
    (hordered : x.Ordered) (hflat : ∀ e ∈ x.members, e.2.Flat)
    (hkeys : (x.members.map Prod.fst).Sublist siteKeys) (h : x.WrittenAs workflowName text) :
    ∃ record, x.ReadFrom workflowName text record := by
  obtain ⟨built, written, hdump⟩ := h
  have hutf8 := (dump_succeeds _).mp ⟨text, hdump⟩
  obtain ⟨text', hdump', hparse⟩ := parse_dump hfloats
    (ordered_record hordered hflat workflowName built written) hutf8
  obtain rfl : text = text' := Except.ok.inj (hdump.symm.trans hdump')
  have hfield : ∀ key v, (auditRecord workflowName x.step x.command x.status (formatUtc written)
      (snapshotValue x.packet x.bus x.members built)).find? key = some v →
      (x.record workflowName built written).reread.get? key = some v.reread := by
    intro key v hv
    unfold Snapshot.record
    rw [reread_ofMembers_get?, hv]
    rfl
  have hdata := dataRead_reread hkeys workflowName built written
  refine ⟨_, hparse, hfield (lit "workflow") (.string workflowName) rfl,
    hfield (lit "step") (.numberUnsigned (UInt64.ofNat (x.step + 1))) rfl,
    hfield (lit "command") (.string x.command) rfl, hfield (lit "status") (.string x.status) rfl, ?_,
    hdata.1, hdata.2⟩
  intro e he
  rw [recordedData_reread, find?_foldl_insert_of_mem _ _ (hkeys.nodup (by decide)) he]
  rfl

end

/-! ### The whole run -/

/- A snapshot of a run is the only one with its step and status. -/
theorem mem_trail_unique {onError : OnError} {calls : List Invocation}
    (hsteps : (calls.map Invocation.step).Nodup) {x y : Snapshot} (hx : x ∈ trail onError calls)
    (hy : y ∈ trail onError calls) (hstep : x.step = y.step) (hstatus : x.status = y.status) :
    x = y := by
  obtain ⟨call, hcall, hxcall⟩ := List.mem_flatMap.mp hx
  obtain ⟨call', hcall', hycall⟩ := List.mem_flatMap.mp hy
  have hcalls : call = call' := by
    apply List.inj_on_of_nodup_map hsteps hcall hcall'
    rw [← (takenFor_of_mem_snapshots hxcall).step, ← (takenFor_of_mem_snapshots hycall).step, hstep]
  subst hcalls
  have hstatuses := invocation_statuses_nodup onError call
  rw [← snapshots_statuses] at hstatuses
  exact List.inj_on_of_nodup_map hstatuses hxcall hycall hstatus

section
variable [FloatReader]

/- The files in the audit directory are those that the file system let through,
and what each of them says identifies its snapshot. -/
structure FilesReadBack (config : WorkflowDefinition) (dir : Str) (io : ℕ → IoOutcome) (final : State W) :
    Prop where
  present : ∀ n x, (trail config.onError final.core.calls)[n]? = some x →
    ((∃ text, final.obs.files.find? (x.path dir config.name) = some text) ↔ (io n).Publishes)
  left : ∀ n x, (trail config.onError final.core.calls)[n]? = some x →
    ((∃ text, final.obs.files.find? (x.temporaryPath dir config.name) = some text) ↔
      (io n).LeavesTemporary)
  readable : ∀ path text, InDirectory dir path → final.obs.files.find? path = some text →
    ∃ x ∈ trail config.onError final.core.calls,
      (path = x.path dir config.name ∨ path = x.temporaryPath dir config.name) ∧
      ∃ record, x.ReadFrom config.name text record
  identified : config.pipeline.length < 2 ^ 64 → ∀ x ∈ trail config.onError final.core.calls,
    ∀ y ∈ trail config.onError final.core.calls, ∀ text record record',
      x.ReadFrom config.name text record → y.ReadFrom config.name text record' → x = y

theorem eq_of_readFrom {workflowName text : Str} {x y : Snapshot} {record record' : Json}
    (hx : x.ReadFrom workflowName text record) (hy : y.ReadFrom workflowName text record')
    (hxlt : x.step + 1 < 2 ^ 64) (hylt : y.step + 1 < 2 ^ 64) :
    x.step = y.step ∧ x.status = y.status := by
  have hrecord : record = record' := (JsonReader.Outcome.value.inj (hx.whole.symm.trans hy.whole)).1
  subst hrecord
  have hstep := Option.some.inj (hx.step.symm.trans hy.step)
  have hstatus := Option.some.inj (hx.status.symm.trans hy.status)
  have hnumber := congrArg UInt64.toNat (Json.numberUnsigned.inj hstep)
  rw [UInt64.toNat_ofNat_of_lt' hxlt, UInt64.toNat_ofNat_of_lt' hylt] at hnumber
  exact ⟨Nat.succ.inj hnumber, Json.string.inj hstatus⟩

variable [FloatText]

theorem audit_files_read_back (hfloats : FloatsRoundTrip) (registry : Registry W)
    (config : WorkflowDefinition) (initial : DataPacket) (s : State W) (haudit : config.audit = true)
    (hwhole : ∀ n, (s.obs.io n).written = none)
    (hempty : ∀ path, InDirectory (effectiveAuditDir s.obs.auditDir) path →
      s.obs.files.find? path = none)
    (hvalid : SnapshotsSerialise config
      (referenceFold registry config.onError config.pipeline initial s.core.world).core.calls)
    (hordered : ∀ x ∈ trail config.onError
      (referenceFold registry config.onError config.pipeline initial s.core.world).core.calls,
      x.Ordered) :
    FilesReadBack config (effectiveAuditDir s.obs.auditDir) s.obs.io
      (stateOf ((execute registry config initial).run s)) := by
  obtain ⟨p, hp⟩ : ∃ p, p = referenceFold registry config.onError config.pipeline initial s.core.world :=
    ⟨_, rfl⟩
  rw [← hp] at hvalid hordered
  have hcore := core_execute (s := s) hp hvalid
  have hfiled := filed_execute hp haudit hwhole hempty hvalid
  have hcovers := referenceFold_covers registry config.onError config.pipeline initial s.core.world
  rw [← hp] at hcovers
  obtain ⟨hsteps, -, hisOf, -⟩ := hcovers
  rw [← hcore] at hordered hfiled hsteps hisOf
  have hreads : ∀ x ∈ trail config.onError
      (stateOf ((execute registry config initial).run s)).core.calls, ∀ text,
      x.WrittenAs config.name text → ∃ record, x.ReadFrom config.name text record := by
    intro x hx text htext
    obtain ⟨call, -, hcall⟩ := List.mem_flatMap.mp hx
    exact readFrom_of_writtenAs hfloats (hordered x hx) (flat_of_mem_snapshots hcall)
      (takenFor_of_mem_snapshots hcall).keys htext
  constructor
  case present => exact fun n x hx => isSome_of_heldIf (hfiled.target n x hx)
  case left => exact fun n x hx => isSome_of_heldIf (hfiled.temporary n x hx)
  case readable =>
    intro path text hin htext
    by_contra hnone
    push Not at hnone
    have hnot : ∀ x ∈ trail config.onError
        (stateOf ((execute registry config initial).run s)).core.calls,
        path ≠ x.path (effectiveAuditDir s.obs.auditDir) config.name ∧
          path ≠ x.temporaryPath (effectiveAuditDir s.obs.auditDir) config.name := by
      intro x hx
      obtain ⟨n, hn⟩ := List.mem_iff_getElem?.mp hx
      have hfresh := hnone x hx
      constructor
      · rintro rfl
        have hheld := hfiled.target n x hn
        rw [htext] at hheld
        obtain ⟨record, hrecord⟩ := hreads x hx text (good_of_heldIf hheld)
        exact hfresh (Or.inl rfl) record hrecord
      · rintro rfl
        have hheld := hfiled.temporary n x hn
        rw [htext] at hheld
        obtain ⟨record, hrecord⟩ := hreads x hx text (good_of_heldIf hheld)
        exact hfresh (Or.inr rfl) record hrecord
    rw [hfiled.only path hin hnot] at htext
    cases htext
  case identified =>
    intro hlength x hx y hy text record record' hxread hyread
    have hbound : ∀ z ∈ trail config.onError
        (stateOf ((execute registry config initial).run s)).core.calls, z.step + 1 < 2 ^ 64 := by
      intro z hz
      obtain ⟨call, hcall, hzcall⟩ := List.mem_flatMap.mp hz
      obtain ⟨cfg, hstep, -⟩ := hisOf call hcall
      have hlt := (List.getElem?_eq_some_iff.mp hstep).1
      rw [(takenFor_of_mem_snapshots hzcall).step]
      omega
    obtain ⟨hstep, hstatus⟩ := eq_of_readFrom hxread hyread (hbound x hx) (hbound y hy)
    apply mem_trail_unique ?_ hx hy hstep hstatus
    rw [hsteps]
    exact List.nodup_range

end

/- The directory cannot be created for the first snapshot, and the second is not renamed. -/
def faultyState : State Unit :=
  construct () { mockObs with io := fun n => match n with
    | 0 => { IoOutcome.success with createDirectories := some (lit "read-only") }
    | 1 => { IoOutcome.success with rename := some (lit "busy") }
    | _ => .success } none

theorem audit_files_read_back_mock :
    letI := bitsText
    letI := bitsReader
    FilesReadBack mockAudited (effectiveAuditDir faultyState.obs.auditDir) faultyState.obs.io
      (stateOf ((execute mockRegistry mockAudited .empty).run faultyState)) := by
  apply @audit_files_read_back Unit bitsReader bitsText bits_roundTrip mockRegistry mockAudited .empty
    faultyState rfl
  · intro n
    match n with
    | 0 => rfl
    | 1 => rfl
    | _ + 2 => rfl
  · exact fun _ _ => rfl
  · exact snapshotsSerialise_mockAudited
  · have hcalls : (referenceFold mockRegistry .CONTINUE mockAudited.pipeline .empty ()).core.calls
        = [⟨0, lit "Pass", lit "Pass", .object [], .empty, .empty, .empty, .ok (.ok .empty)⟩,
          ⟨1, lit "Throw", lit "Throw", .object [], .empty, .empty, .empty,
            .error (.std (lit "boom"))⟩] := rfl
    have hnone : MapOrdered (∅ : AnyMap) := fun k v hv => by cases hv
    have hall : ∀ x ∈ trail OnError.CONTINUE
        (referenceFold mockRegistry .CONTINUE mockAudited.pipeline .empty ()).core.calls,
        x.packet = .empty ∧ x.bus = .empty := by
      rw [hcalls]
      simp [trail, Invocation.snapshots, Invocation.laterSnapshots, Invocation.skipped,
        Invocation.entry]
    intro x hx
    obtain ⟨hpacket, hbus⟩ := hall x hx
    unfold Snapshot.Ordered
    rw [hpacket, hbus]
    exact ⟨hnone, hnone⟩

end Workflow
