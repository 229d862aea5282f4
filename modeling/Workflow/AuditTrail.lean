import Workflow.AuditPaths
import Workflow.AuditWriter
import Workflow.RunShape

/-!
# The audit trail

`Invocation.snapshots` lists the snapshots of one executed step, `trail` those
of a run. Packet and bus are handed from block to block (`linked_of_chain`),
and no two snapshots share a file (`trail_path_nodup`).
-/

namespace Workflow
open Observe

variable {W : Type}

/- What one audit file records. -/
structure Snapshot where
  step : ℕ
  command : Str
  status : Str
  packet : DataPacket
  bus : DataBus
  members : List (Str × Json)

namespace Snapshot

def filename (workflowName : Str) (x : Snapshot) : Str :=
  snapshotFilename workflowName x.step x.command x.status

def path (dir workflowName : Str) (x : Snapshot) : Str := joinPath dir (x.filename workflowName)

def temporaryPath (dir workflowName : Str) (x : Snapshot) : Str :=
  joinPath dir (temporaryName (x.filename workflowName))

/- The record, built at one time and written at another. -/
def record (workflowName : Str) (x : Snapshot) (built written : Tm) : Json :=
  .ofMembers (auditRecord workflowName x.step x.command x.status (formatUtc written)
    (snapshotValue x.packet x.bus x.members built))

theorem path_ne_temporaryPath (dir workflowName : Str) (x y : Snapshot) :
    x.path dir workflowName ≠ y.temporaryPath dir workflowName :=
  target_ne_temporary dir workflowName workflowName _ _ _ _ _ _

end Snapshot

/- What the 'snapshot' of a record holds under a key. -/
def recordedData (record : Json) (key : Str) : Option Json :=
  (record.get? (lit "snapshot")).bind fun snapshot => snapshot.get? key

/- The members of a site hide neither packet nor bus. -/
theorem recordedData_record {x : Snapshot} (hkeys : (x.members.map Prod.fst).Sublist siteKeys)
    (workflowName : Str) (built written : Tm) :
    recordedData (x.record workflowName built written) (lit "data_packet") = some x.packet.toJson ∧
      recordedData (x.record workflowName built written) (lit "data_bus") = some x.bus.toJson := by
  have hhidden : ∀ key, key ∉ siteKeys → key ∉ x.members.map Prod.fst :=
    fun key hkey hmem => hkey (hkeys.subset hmem)
  have hsnapshot : ∀ key, recordedData (x.record workflowName built written) key
      = (x.members.foldl (fun snap e => snap.insert e.1 e.2)
          (snapshotMembers x.packet x.bus (formatUtc built))).find? key := by
    intro key
    have hrecord : (x.record workflowName built written).get? (lit "snapshot")
        = some (snapshotValue x.packet x.bus x.members built) := SortedMap.find?_insert_self _ _ _
    unfold recordedData
    rw [hrecord]
    rfl
  rw [hsnapshot, hsnapshot, find?_foldl_insert _ _ (hhidden _ (by decide)),
    find?_foldl_insert _ _ (hhidden _ (by decide))]
  exact ⟨rfl, rfl⟩

/-! ### The snapshots of an invocation -/

namespace Invocation

def entry (call : Invocation) (status : String) (packet : DataPacket) (bus : DataBus)
    (members : List (Str × Json)) : Snapshot :=
  ⟨call.step, call.instanceName, lit status, packet, bus, members⟩

def skipped (onError : OnError) (call : Invocation) (reason : String) : List Snapshot :=
  match onError with
  | .HALT => []
  | .CONTINUE => [call.entry "skipped" call.packet call.busAfter (skippedMembers (lit reason))]

/- What is written after the command has ended. -/
def laterSnapshots (onError : OnError) (call : Invocation) : List Snapshot :=
  match call.outcome with
  | .ok (.ok packet) => [call.entry "success" packet call.busAfter successMembers]
  | .ok (.error message code) =>
    call.entry "error" call.packet call.busAfter (errorMembers message code) ::
      call.skipped onError "skipped_due_to_error"
  | .error e =>
    call.entry "exception" call.packet call.busAfter
        (exceptionMembers (exceptionMessage call.instanceName e)) ::
      call.skipped onError "skipped_due_to_exception"

def snapshots (onError : OnError) (call : Invocation) : List Snapshot :=
  call.entry "pre" call.packet call.bus preMembers :: call.laterSnapshots onError

end Invocation

def trail (onError : OnError) (calls : List Invocation) : List Snapshot :=
  calls.flatMap (Invocation.snapshots onError)

/-! ### Strings in snapshots -/

def Snapshot.IsUtf8 (workflowName : Str) (x : Snapshot) : Prop :=
  SnapshotUtf8 workflowName x.command x.status x.packet x.bus x.members

/- Between them the snapshots of an invocation hold all its strings. -/
theorem snapshotsUtf8_of_snapshots {onError : OnError} {workflowName : Str} {call : Invocation}
    (h : ∀ x ∈ call.snapshots onError, x.IsUtf8 workflowName) : call.SnapshotsUtf8 workflowName := by
  obtain ⟨hname, hinst, _, hpacket, hbus, _⟩ := h _ List.mem_cons_self
  unfold Invocation.snapshots Invocation.laterSnapshots at h
  rcases hout : call.outcome with e | (packet | ⟨message, code⟩) <;> rw [hout] at h
  · obtain ⟨_, _, _, _, hafter, hextra⟩ := h _ (List.mem_cons_of_mem _ List.mem_cons_self)
    exact ⟨hname, hinst, hpacket, hbus, hafter, hout ▸ (exceptionMembers_utf8 _).mp hextra⟩
  · obtain ⟨_, _, _, hresult, hafter, _⟩ := h _ (List.mem_cons_of_mem _ List.mem_cons_self)
    exact ⟨hname, hinst, hpacket, hbus, hafter, hout ▸ hresult⟩
  · obtain ⟨_, _, _, _, hafter, hextra⟩ := h _ (List.mem_cons_of_mem _ List.mem_cons_self)
    exact ⟨hname, hinst, hpacket, hbus, hafter, hout ▸ (errorMembers_utf8 _ _).mp hextra⟩

theorem utf8_of_mem_skipped {onError : OnError} {workflowName : Str} {call : Invocation}
    (h : call.SnapshotsUtf8 workflowName) {reason : String} (hreason : Utf8.Valid (lit reason)) :
    ∀ x ∈ call.skipped onError reason, x.IsUtf8 workflowName := by
  obtain ⟨hname, hinst, hpacket, _, hafter, _⟩ := h
  intro x hx
  cases onError with
  | HALT => cases hx
  | CONTINUE =>
    rw [List.mem_singleton.mp hx]
    exact ⟨hname, hinst, by show Utf8.Valid (lit "skipped"); decide, hpacket, hafter,
      skippedMembers_utf8 hreason⟩

/- And they hold no others. -/
theorem snapshots_of_snapshotsUtf8 {onError : OnError} {workflowName : Str} {call : Invocation}
    (h : call.SnapshotsUtf8 workflowName) :
    ∀ x ∈ call.snapshots onError, x.IsUtf8 workflowName := by
  have hskipped : ∀ reason, Utf8.Valid (lit reason) →
      ∀ x ∈ call.skipped onError reason, x.IsUtf8 workflowName := fun _ => utf8_of_mem_skipped h
  obtain ⟨hname, hinst, hpacket, hbus, hafter, hout⟩ := h
  have hlits : Utf8.Valid (lit "pre") ∧ Utf8.Valid (lit "success") ∧ Utf8.Valid (lit "error") ∧
      Utf8.Valid (lit "exception") := by decide
  obtain ⟨hpre, hsuccess, herror, hexception⟩ := hlits
  intro x hx
  unfold Invocation.snapshots Invocation.laterSnapshots at hx
  cases List.mem_cons.mp hx with
  | inl hfirst =>
    rw [hfirst]
    exact ⟨hname, hinst, hpre, hpacket, hbus, preMembers_utf8⟩
  | inr hlater =>
    cases hcase : call.outcome with
    | error e =>
      rw [hcase] at hlater hout
      cases List.mem_cons.mp hlater with
      | inl hfailed =>
        rw [hfailed]
        exact ⟨hname, hinst, hexception, hpacket, hafter, (exceptionMembers_utf8 _).mpr hout⟩
      | inr hx => exact hskipped _ (by decide) x hx
    | ok result =>
      cases result with
      | ok packet =>
        rw [hcase] at hlater hout
        rw [List.mem_singleton.mp hlater]
        exact ⟨hname, hinst, hsuccess, hout, hafter, successMembers_utf8⟩
      | error message code =>
        rw [hcase] at hlater hout
        cases List.mem_cons.mp hlater with
        | inl hfailed =>
          rw [hfailed]
          exact ⟨hname, hinst, herror, hpacket, hafter, (errorMembers_utf8 _ _).mpr hout⟩
        | inr hx => exact hskipped _ (by decide) x hx

/- Each block begins with the packet and bus that the block before it ended with. -/
def Linked (packet : DataPacket) (bus : DataBus) : List (List Snapshot) → Prop
  | [] => True
  | block :: rest => ∃ first last, block.head? = some first ∧ block.getLast? = some last ∧
      first.status = lit "pre" ∧ first.packet = packet ∧ first.bus = bus ∧
      Linked last.packet last.bus rest

theorem snapshots_last (onError : OnError) (call : Invocation) :
    ∃ last, (call.snapshots onError).getLast? = some last ∧ last.packet = call.packetAfter ∧
      last.bus = call.busAfter := by
  unfold Invocation.snapshots Invocation.laterSnapshots Invocation.packetAfter
  rcases call.outcome with e | (packet | ⟨message, code⟩) <;> cases onError <;>
    exact ⟨_, rfl, rfl, rfl⟩

theorem linked_of_chain (onError : OnError) {packet packet' : DataPacket} {bus bus' : DataBus}
    {calls : List Invocation} (h : Chain packet bus calls packet' bus') :
    Linked packet bus (calls.map (Invocation.snapshots onError)) := by
  induction calls generalizing packet bus with
  | nil => trivial
  | cons call rest ih =>
    obtain ⟨hpacket, hbus, hrest⟩ := h
    obtain ⟨last, hlast, hafter, hbusAfter⟩ := snapshots_last onError call
    refine ⟨call.entry "pre" call.packet call.bus preMembers, last, rfl, hlast, rfl, hpacket, hbus, ?_⟩
    rw [hafter, hbusAfter]
    exact ih hrest

/-! ### No two snapshots of a run share a file -/

/- One 'pre', one of 'success', 'exception' and 'error', and 'skipped' after a
failure that the run survives. -/
def Invocation.statuses (onError : OnError) (call : Invocation) : List Str :=
  match call.outcome, onError with
  | .ok (.ok _), _ => [lit "pre", lit "success"]
  | .ok (.error _ _), .HALT => [lit "pre", lit "error"]
  | .ok (.error _ _), .CONTINUE => [lit "pre", lit "error", lit "skipped"]
  | .error _, .HALT => [lit "pre", lit "exception"]
  | .error _, .CONTINUE => [lit "pre", lit "exception", lit "skipped"]

theorem snapshots_statuses (onError : OnError) (call : Invocation) :
    (call.snapshots onError).map Snapshot.status = call.statuses onError := by
  unfold Invocation.snapshots Invocation.laterSnapshots Invocation.statuses
  rcases call.outcome with e | (packet | ⟨message, code⟩) <;> cases onError <;> rfl

theorem invocation_statuses_nodup (onError : OnError) (call : Invocation) :
    (call.statuses onError).Nodup := by
  unfold Invocation.statuses
  rcases call.outcome with e | (packet | ⟨message, code⟩) <;> cases onError <;> simp only <;> decide

/- What is known of every snapshot of an invocation. -/
structure Snapshot.TakenFor (x : Snapshot) (call : Invocation) : Prop where
  step : x.step = call.step
  command : x.command = call.instanceName
  status : x.status ∈ statuses
  keys : (x.members.map Prod.fst).Sublist siteKeys

theorem takenFor_entry (call : Invocation) {status : String} (hstatus : lit status ∈ statuses)
    (packet : DataPacket) (bus : DataBus) {members : List (Str × Json)}
    (hkeys : (members.map Prod.fst).Sublist siteKeys) :
    (call.entry status packet bus members).TakenFor call := ⟨rfl, rfl, hstatus, hkeys⟩

theorem takenFor_of_mem_skipped {onError : OnError} {call : Invocation} {reason : String}
    {x : Snapshot} (h : x ∈ call.skipped onError reason) : x.TakenFor call := by
  cases onError with
  | HALT => cases h
  | CONTINUE =>
    rw [List.mem_singleton.mp h]
    exact takenFor_entry call (by decide) _ _ (skippedMembers_keys _)

theorem takenFor_of_mem_snapshots {onError : OnError} {call : Invocation} {x : Snapshot}
    (h : x ∈ call.snapshots onError) : x.TakenFor call := by
  unfold Invocation.snapshots Invocation.laterSnapshots at h
  cases List.mem_cons.mp h with
  | inl hpre =>
    rw [hpre]
    exact takenFor_entry call (by decide) _ _ preMembers_keys
  | inr hlater =>
    cases hout : call.outcome with
    | error e =>
      rw [hout] at hlater
      cases List.mem_cons.mp hlater with
      | inl hfailed =>
        rw [hfailed]
        exact takenFor_entry call (by decide) _ _ (exceptionMembers_keys _)
      | inr hskipped => exact takenFor_of_mem_skipped hskipped
    | ok result =>
      cases result with
      | ok packet =>
        rw [hout] at hlater
        rw [List.mem_singleton.mp hlater]
        exact takenFor_entry call (by decide) _ _ successMembers_keys
      | error message code =>
        rw [hout] at hlater
        cases List.mem_cons.mp hlater with
        | inl hfailed =>
          rw [hfailed]
          exact takenFor_entry call (by decide) _ _ (errorMembers_keys _ _)
        | inr hskipped => exact takenFor_of_mem_skipped hskipped

/- Snapshots of one invocation differ in their status, others in their step. -/
theorem trail_path_nodup (onError : OnError) (dir workflowName : Str) {calls : List Invocation}
    (hsteps : (calls.map Invocation.step).Nodup) :
    ((trail onError calls).map (Snapshot.path dir workflowName)).Nodup := by
  have hfile : ∀ x y : Snapshot, x.path dir workflowName = y.path dir workflowName →
      x.filename workflowName = y.filename workflowName := fun x y h =>
    joinPath_inj (snapshotFilename_relative _ _ _ _) (snapshotFilename_relative _ _ _ _) h
  induction calls with
  | nil => exact List.nodup_nil
  | cons call rest ih =>
    rw [List.map_cons, List.nodup_cons] at hsteps
    obtain ⟨hfresh, hrest⟩ := hsteps
    show ((call.snapshots onError ++ trail onError rest).map _).Nodup
    rw [List.map_append, List.nodup_append]
    refine ⟨?_, ih hrest, ?_⟩
    · have hstatus := invocation_statuses_nodup onError call
      rw [← snapshots_statuses] at hstatus
      have hnodup := List.Nodup.of_map _ hstatus
      rw [List.nodup_map_iff_inj_on hnodup] at hstatus ⊢
      intro x hx y hy hxy
      apply hstatus x hx y hy
      have hname := hfile x y hxy
      unfold Snapshot.filename at hname
      rw [(takenFor_of_mem_snapshots hx).step, (takenFor_of_mem_snapshots hy).step,
        (takenFor_of_mem_snapshots hx).command, (takenFor_of_mem_snapshots hy).command] at hname
      exact snapshotFilename_status hname
    · intro p hp q hq hpq
      obtain ⟨x, hx, rfl⟩ := List.mem_map.mp hp
      obtain ⟨y, hy, rfl⟩ := List.mem_map.mp hq
      obtain ⟨call', hcall', hy'⟩ := List.mem_flatMap.mp hy
      have hstep : x.step = y.step := snapshotFilename_step (hfile x y hpq)
      rw [(takenFor_of_mem_snapshots hx).step, (takenFor_of_mem_snapshots hy').step] at hstep
      exact hfresh (hstep ▸ List.mem_map_of_mem hcall')

end Workflow
