import Workflow.Audit
import Workflow.Lib.Observe

/-!
# What one snapshot does

How the writer ends depends on the answers of file system and clock and on
whether the record is UTF-8, never on the log, the files or the directory
(`seen_env_writeAuditSnapshot`).
-/

namespace Workflow
open Observe

/-! ### Records are UTF-8 exactly when their parts are -/

theorem isUtf8_insert {m : Members} {k : Str} (hk : m.find? k = none) (v : Json) :
    (Json.ofMembers (m.insert k v)).IsUtf8 ↔
      (Utf8.Valid k ∧ v.IsUtf8) ∧ (Json.ofMembers m).IsUtf8 := by
  rw [isUtf8_ofMembers, isUtf8_ofMembers]
  constructor
  · intro h
    refine ⟨h k v (SortedMap.find?_insert_self m k v), fun k' v' hv' => h k' v' ?_⟩
    have hne : k' ≠ k := by
      intro he
      rw [he, hk] at hv'
      cases hv'
    rw [SortedMap.find?_insert_ne m hne, hv']
  · intro ⟨hnew, hold⟩ k' v' hv'
    by_cases he : k' = k
    · rw [he, SortedMap.find?_insert_self, Option.some.injEq] at hv'
      rw [he, ← hv']
      exact hnew
    · rw [SortedMap.find?_insert_ne m he] at hv'
      exact hold k' v' hv'

theorem isUtf8_empty : (Json.ofMembers ∅).IsUtf8 := trivial

theorem isUtf8_string (s : Str) : (Json.string s).IsUtf8 ↔ Utf8.Valid s := Iff.rfl

theorem isUtf8_number (u : UInt64) : (Json.numberUnsigned u).IsUtf8 := trivial

theorem isUtf8_foldl_insert (extra : List (Str × Json)) (m : Members)
    (hnodup : (extra.map Prod.fst).Nodup) (hfresh : ∀ e ∈ extra, m.find? e.1 = none) :
    (Json.ofMembers (extra.foldl (fun snap e => snap.insert e.1 e.2) m)).IsUtf8 ↔
      (Json.ofMembers m).IsUtf8 ∧ ∀ e ∈ extra, Utf8.Valid e.1 ∧ e.2.IsUtf8 := by
  induction extra generalizing m with
  | nil => simp
  | cons e extra ih =>
    simp only [List.map_cons, List.nodup_cons] at hnodup
    have hfresh' : ∀ x ∈ extra, (m.insert e.1 e.2).find? x.1 = none := by
      intro x hx
      have hne : x.1 ≠ e.1 := by
        intro he
        exact hnodup.1 (he ▸ List.mem_map_of_mem hx)
      rw [SortedMap.find?_insert_ne m hne]
      exact hfresh x (List.mem_cons_of_mem _ hx)
    rw [List.foldl_cons, ih _ hnodup.2 hfresh',
      isUtf8_insert (hfresh e List.mem_cons_self), List.forall_mem_cons]
    exact ⟨fun ⟨⟨he, hm⟩, hx⟩ => ⟨hm, he, hx⟩, fun ⟨hm, he, hx⟩ => ⟨⟨he, hm⟩, hx⟩⟩

theorem find?_foldl_insert (extra : List (Str × Json)) (m : Members) {key : Str}
    (h : key ∉ extra.map Prod.fst) :
    (extra.foldl (fun snap e => snap.insert e.1 e.2) m).find? key = m.find? key := by
  induction extra generalizing m with
  | nil => rfl
  | cons e extra ih =>
    rw [List.map_cons, List.mem_cons, not_or] at h
    rw [List.foldl_cons, ih _ h.2, SortedMap.find?_insert_ne m h.1]

theorem valid_twoDigits (n : ℕ) : Utf8.Valid (twoDigits n) := by
  unfold twoDigits
  split_ifs
  · exact Utf8.valid_append (by decide) (valid_natToString n)
  · exact valid_natToString n

theorem valid_formatUtc (tm : Tm) : Utf8.Valid (formatUtc tm) := by
  unfold formatUtc
  repeat' apply Utf8.valid_append
  all_goals first | exact valid_natToString _ | exact valid_twoDigits _ | decide

theorem isUtf8_auditRecord (workflowName : Str) (stepIndex : ℕ) (commandName status : Str) (tm : Tm)
    (snapshot : Json) :
    (Json.ofMembers (auditRecord workflowName stepIndex commandName status (formatUtc tm)
      snapshot)).IsUtf8 ↔
      Utf8.Valid workflowName ∧ Utf8.Valid commandName ∧ Utf8.Valid status ∧ snapshot.IsUtf8 := by
  unfold auditRecord
  rw [isUtf8_insert, isUtf8_insert, isUtf8_insert, isUtf8_insert, isUtf8_insert, isUtf8_insert]
  · have hkeys : Utf8.Valid (lit "workflow") ∧ Utf8.Valid (lit "step") ∧ Utf8.Valid (lit "command") ∧
        Utf8.Valid (lit "status") ∧ Utf8.Valid (lit "timestamp") ∧ Utf8.Valid (lit "snapshot") := by
      decide
    simp only [hkeys, isUtf8_string, isUtf8_number, isUtf8_empty, valid_formatUtc, true_and, and_true]
    exact ⟨fun ⟨h1, h2, h3, h4⟩ => ⟨h4, h3, h2, h1⟩, fun ⟨h1, h2, h3, h4⟩ => ⟨h4, h3, h2, h1⟩⟩
  all_goals rfl

theorem isUtf8_snapshotMembers (packet : DataPacket) (bus : DataBus) (tm : Tm) :
    (Json.ofMembers (snapshotMembers packet bus (formatUtc tm))).IsUtf8 ↔
      packet.toJson.IsUtf8 ∧ bus.toJson.IsUtf8 := by
  unfold snapshotMembers
  rw [isUtf8_insert, isUtf8_insert, isUtf8_insert]
  · have hkeys : Utf8.Valid (lit "data_packet") ∧ Utf8.Valid (lit "data_bus") ∧
        Utf8.Valid (lit "timestamp") := by decide
    simp only [hkeys, isUtf8_string, isUtf8_empty, valid_formatUtc, true_and, and_true]
    exact and_comm
  all_goals rfl

/-! ### How the writer ends -/

/-- The answers still to come. -/
structure Env where
  io : ℕ → IoOutcome
  clock : ℕ → Tm

def Obs.env (o : Obs) : Env := ⟨o.io, o.clock⟩

def Env.afterIo (v : Env) : Env := { v with io := fun n => v.io (n + 1) }

def Env.afterClock (v : Env) : Env := { v with clock := fun n => v.clock (n + 1) }

section
variable [FloatText]

def writeEnding (workflowName : Str) (stepIndex : ℕ) (commandName status : Str) (snapshot : Json)
    (v : Env) : EStateM.Result Exn Env Unit :=
  match (v.io 0).createDirectories with
  | some _ => .ok () v.afterIo
  | none =>
    if !(v.io 0).opens then .ok () v.afterIo.afterClock
    else
      match dump (.ofMembers (auditRecord workflowName stepIndex commandName status
        (formatUtc (v.clock 0)) snapshot)) with
      | .ok _ => .ok () v.afterIo.afterClock
      | .error e => .error e v.afterIo.afterClock

theorem seen_env_writeAuditSnapshot (workflowName : Str) (stepIndex : ℕ) (commandName status : Str)
    (snapshot : Json) (o : Obs) :
    seen Obs.env ((writeAuditSnapshot workflowName stepIndex commandName status snapshot).run o)
      = writeEnding workflowName stepIndex commandName status snapshot o.env := by
  unfold writeAuditSnapshot writeEnding
  cases hm : (o.io 0).createDirectories with
  | none =>
    cases ho : (o.io 0).opens with
    | false =>
      simp [nextIo, utcTimestamp, logMessage, Obs.logged, Obs.env, Env.afterIo, Env.afterClock, hm, ho]
    | true =>
      cases hd : dump (.ofMembers (auditRecord workflowName stepIndex commandName status
          (formatUtc (o.clock 0)) snapshot)) with
      | error e =>
        simp [nextIo, utcTimestamp, setFile, Obs.env, Env.afterIo, Env.afterClock, hm, ho, hd]
      | ok text =>
        rcases hr : (o.io 0).rename with - | reason <;>
          simp [nextIo, utcTimestamp, setFile, renameFile, logMessage, Obs.logged, Obs.env,
            Env.afterIo, Env.afterClock, hm, ho, hd, hr]
  | some reason =>
    simp [nextIo, logMessage, Obs.logged, Obs.env, Env.afterIo, hm]

end

/-! ### Snapshots -/

/- The members the six sites of the pipeline add to a snapshot, in their order. -/
def siteKeys : List Str := [lit "phase", lit "error", lit "error_code", lit "status"]

def snapshotValue (packet : DataPacket) (bus : DataBus) (extra : List (Str × Json)) (built : Tm) :
    Json :=
  .ofMembers (extra.foldl (fun snap e => snap.insert e.1 e.2)
    (snapshotMembers packet bus (formatUtc built)))

def SnapshotUtf8 (workflowName commandName status : Str) (packet : DataPacket) (bus : DataBus)
    (extra : List (Str × Json)) : Prop :=
  Utf8.Valid workflowName ∧ Utf8.Valid commandName ∧ Utf8.Valid status ∧ packet.toJson.IsUtf8 ∧
    bus.toJson.IsUtf8 ∧ ∀ e ∈ extra, Utf8.Valid e.1 ∧ e.2.IsUtf8

theorem snapshotMembers_find?_none (packet : DataPacket) (bus : DataBus) (timestamp : Str) {k : Str}
    (hk : k ∈ siteKeys) : (snapshotMembers packet bus timestamp).find? k = none := by
  have hne : ∀ x ∈ siteKeys, x ≠ lit "data_packet" ∧ x ≠ lit "data_bus" ∧ x ≠ lit "timestamp" := by
    decide
  obtain ⟨h1, h2, h3⟩ := hne k hk
  unfold snapshotMembers
  rw [SortedMap.find?_insert_ne _ h3, SortedMap.find?_insert_ne _ h2, SortedMap.find?_insert_ne _ h1]
  rfl

theorem isUtf8_record_iff (workflowName : Str) (stepIndex : ℕ) (commandName status : Str)
    (packet : DataPacket) (bus : DataBus) {extra : List (Str × Json)}
    (hextra : (extra.map Prod.fst).Sublist siteKeys) (built written : Tm) :
    (Json.ofMembers (auditRecord workflowName stepIndex commandName status (formatUtc written)
      (snapshotValue packet bus extra built))).IsUtf8 ↔
      SnapshotUtf8 workflowName commandName status packet bus extra := by
  have hnodup : (extra.map Prod.fst).Nodup := hextra.nodup (by decide)
  have hfresh : ∀ e ∈ extra, (snapshotMembers packet bus (formatUtc built)).find? e.1 = none := by
    intro e he
    exact snapshotMembers_find?_none packet bus _ (hextra.subset (List.mem_map_of_mem he))
  rw [isUtf8_auditRecord, snapshotValue, isUtf8_foldl_insert extra _ hnodup hfresh,
    isUtf8_snapshotMembers, and_assoc]
  rfl

section
variable [FloatText]

theorem run_saveSnapshot (workflowName : Str) (stepIndex : ℕ) (commandName status : Str)
    (packet : DataPacket) (bus : DataBus) (extra : List (Str × Json)) (o : Obs) :
    (saveSnapshot workflowName stepIndex commandName status packet bus extra).run o
      = (writeAuditSnapshot workflowName stepIndex commandName status
          (snapshotValue packet bus extra (o.clock 0))).run
            { o with clock := fun n => o.clock (n + 1) } := by
  have hbuild : (buildSnapshot packet bus).run o
      = .ok (snapshotMembers packet bus (formatUtc (o.clock 0)))
          { o with clock := fun n => o.clock (n + 1) } := rfl
  unfold saveSnapshot
  rw [run_bind_of_ok hbuild]
  rfl

theorem seen_env_saveSnapshot (workflowName : Str) (stepIndex : ℕ) (commandName status : Str)
    (packet : DataPacket) (bus : DataBus) (extra : List (Str × Json)) (o : Obs) :
    seen Obs.env ((saveSnapshot workflowName stepIndex commandName status packet bus extra).run o)
      = writeEnding workflowName stepIndex commandName status
          (snapshotValue packet bus extra (o.clock 0)) o.env.afterClock := by
  rw [run_saveSnapshot, seen_env_writeAuditSnapshot]
  rfl

/- A snapshot of valid strings never throws, whatever the file system answers. -/
theorem saveSnapshot_returns {workflowName : Str} {commandName status : Str} {packet : DataPacket}
    {bus : DataBus} {extra : List (Str × Json)} (hextra : (extra.map Prod.fst).Sublist siteKeys)
    (hvalid : SnapshotUtf8 workflowName commandName status packet bus extra) (stepIndex : ℕ) (o : Obs) :
    ∃ o', (saveSnapshot workflowName stepIndex commandName status packet bus extra).run o
      = .ok () o' := by
  have hseen := seen_env_saveSnapshot workflowName stepIndex commandName status packet bus extra o
  have hdump := (dump_succeeds _).mpr ((isUtf8_record_iff workflowName stepIndex commandName status
    packet bus hextra (o.clock 0) (o.env.afterClock.clock 0)).mpr hvalid)
  obtain ⟨text, htext⟩ := hdump
  have hend : ∃ v, writeEnding workflowName stepIndex commandName status
      (snapshotValue packet bus extra (o.clock 0)) o.env.afterClock = .ok () v := by
    unfold writeEnding
    rw [htext]
    split
    · exact ⟨_, rfl⟩
    · split <;> exact ⟨_, rfl⟩
  obtain ⟨v, hv⟩ := hend
  obtain ⟨o', ho', _⟩ := exists_of_seen_ok (hseen.trans hv)
  exact ⟨o', ho'⟩

/- How a snapshot ends depends on the answers still to come alone. -/
theorem related_saveSnapshot (workflowName : Str) (stepIndex : ℕ) (commandName status : Str)
    (packet : DataPacket) (bus : DataBus) (extra : List (Str × Json)) :
    Related (fun o o' : Obs => o.env = o'.env)
      (saveSnapshot workflowName stepIndex commandName status packet bus extra)
      (saveSnapshot workflowName stepIndex commandName status packet bus extra)
      (fun o o' => o.env = o'.env) := by
  intro o o' henv
  have hclock : o.clock = o'.clock := congrArg Env.clock henv
  have hseen := seen_env_saveSnapshot workflowName stepIndex commandName status packet bus extra o
  have hseen' := seen_env_saveSnapshot workflowName stepIndex commandName status packet bus extra o'
  rw [henv, hclock] at hseen
  exact alike_of_seen_eq (hseen.trans hseen'.symm)

end

end Workflow
