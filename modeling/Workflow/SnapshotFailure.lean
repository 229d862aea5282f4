import Workflow.AtomicWrite
import Workflow.SnapshotSites

/-!
# Which audited runs return

A snapshot throws when it gets as far as its record and that does not
serialise. Nothing else keeps an audited run from returning as the reference
does (`execute_returns_iff_harmless`).
-/

namespace Workflow
open Observe

variable {W : Type}

/- Each snapshot is UTF-8 unless the file system fails it early. -/
def Harmless (workflowName : Str) (io : ℕ → IoOutcome) (expected : List Snapshot) : Prop :=
  ∀ n x, expected[n]? = some x → (io n).FailsEarly ∨ x.IsUtf8 workflowName

theorem harmless_concat {workflowName : Str} {io : ℕ → IoOutcome} {written : List Snapshot}
    (h : Harmless workflowName io written) {x : Snapshot}
    (hx : (io written.length).FailsEarly ∨ x.IsUtf8 workflowName) :
    Harmless workflowName io (written ++ [x]) := by
  intro n y hy
  have hlt := (List.getElem?_eq_some_iff.mp hy).1
  rw [List.length_append, List.length_singleton] at hlt
  by_cases hlast : n = written.length
  · subst hlast
    rw [List.getElem?_concat_length, Option.some.injEq] at hy
    exact hy ▸ hx
  · have hold : n < written.length := by omega
    rw [List.getElem?_append_left hold] at hy
    exact h n y hy

section
variable [FloatText]

/-! ### One snapshot -/

theorem saveSnapshot_written (workflowName : Str) (x : Snapshot) (o : Obs) :
    Written o (o.temporaryPath workflowName x.step x.command x.status)
      (o.targetPath workflowName x.step x.command x.status)
      (dump (x.record workflowName (o.clock 0) (o.clock 1)))
      ((saveSnapshot workflowName x.step x.command x.status x.packet x.bus x.members).run o) := by
  rw [run_saveSnapshot]
  exact written_of_clock (writeAuditSnapshot_written workflowName x.step x.command x.status _
    { o with clock := fun n => o.clock (n + 1) })

theorem isUtf8_of_dump {workflowName : Str} {x : Snapshot} {text : Str}
    (hkeys : (x.members.map Prod.fst).Sublist siteKeys) {built written : Tm}
    (h : dump (x.record workflowName built written) = .ok text) : x.IsUtf8 workflowName :=
  (isUtf8_record_iff _ _ _ _ _ _ hkeys _ _).mp ((dump_succeeds _).mp ⟨text, h⟩)

theorem not_isUtf8_of_dump {workflowName : Str} {x : Snapshot} {e : Exn}
    (hkeys : (x.members.map Prod.fst).Sublist siteKeys) {built written : Tm}
    (h : dump (x.record workflowName built written) = .error e) : ¬ x.IsUtf8 workflowName := by
  intro hutf8
  obtain ⟨text, htext⟩ := (dump_succeeds _).mpr ((isUtf8_record_iff workflowName x.step x.command
    x.status x.packet x.bus hkeys built written).mpr hutf8)
  have hrecord : dump (x.record workflowName built written) = .ok text := htext
  rw [hrecord] at h
  cases h

/-! ### The whole run -/

/- A snapshot that returns has used up one answer of the file system; one that
throws had a stream and did not serialise. -/
theorem triple_saveSnapshot_answers (workflowName : Str) (x : Snapshot)
    (hkeys : (x.members.map Prod.fst).Sublist siteKeys) (io : ℕ → IoOutcome) :
    Triple (fun o : Obs => o.io = io)
      (saveSnapshot workflowName x.step x.command x.status x.packet x.bus x.members)
      (fun _ o => o.io = (fun n => io (n + 1)) ∧ ((io 0).FailsEarly ∨ x.IsUtf8 workflowName))
      (fun _ => ¬ ((io 0).FailsEarly ∨ x.IsUtf8 workflowName)) := by
  intro o ho
  have hwritten := saveSnapshot_written workflowName x o
  subst ho
  generalize hrun : (saveSnapshot workflowName x.step x.command x.status x.packet x.bus x.members).run
    o = r at hwritten ⊢
  cases hwritten with
  | gaveUp o' early called _ _ => exact ⟨called.io, Or.inl early⟩
  | unserialised e o' opened _ hdump _ =>
    intro hsafe
    cases hsafe with
    | inl early => exact opened early
    | inr hutf8 => exact not_isUtf8_of_dump hkeys hdump hutf8
  | notRenamed text o' _ called hdump _ _ _ =>
    exact ⟨called.io, Or.inr (isUtf8_of_dump hkeys hdump)⟩
  | renamed text o' _ called hdump _ _ _ => exact ⟨called.io, Or.inr (isUtf8_of_dump hkeys hdump)⟩

theorem trailInvariant_harmless (workflowName : Str) (io : ℕ → IoOutcome) (expected : List Snapshot)
    (escapes : Prop) :
    TrailInvariant workflowName expected escapes
      (fun written o => o.io = (fun n => io (written.length + n)) ∧ Harmless workflowName io written)
      (fun _ => escapes ∨ ¬ Harmless workflowName io expected) where
  log _ _ _ h := h
  escape hescapes _ _ := Or.inl hescapes
  save written x hnext _ hkeys := by
    intro o ho
    have hsave := triple_saveSnapshot_answers workflowName x hkeys (fun n => io (written.length + n)) o
      ho.1
    cases hrun : (saveSnapshot workflowName x.step x.command x.status x.packet x.bus x.members).run o with
    | ok u o' =>
      rw [hrun] at hsave
      obtain ⟨hio, hx⟩ := hsave
      refine ⟨?_, harmless_concat ho.2 hx⟩
      rw [hio, List.length_append, List.length_singleton]
      funext n
      rw [Nat.add_assoc, Nat.add_comm 1 n]
    | error e o' =>
      rw [hrun] at hsave
      refine Or.inr fun hharmless => hsave ?_
      obtain ⟨rest, hrest⟩ := hnext
      apply hharmless written.length x
      rw [← hrest, List.append_assoc, List.singleton_append, List.getElem?_append_right le_rfl,
        Nat.sub_self, List.getElem?_cons_zero]

/- An audited run returns exactly when no factory lets an exception escape and
every snapshot of the reference is harmless. -/
theorem execute_returns_iff_harmless {registry : Registry W} {config : WorkflowDefinition}
    {initial : DataPacket} {s : State W} {p : Progress W}
    (hp : p = referenceFold registry config.onError config.pipeline initial s.core.world) :
    (∃ r s', (execute registry config initial).run s = .ok r s') ↔
      ¬ p.Escaped ∧ (config.audit = true →
        Harmless config.name s.obs.io (trail config.onError p.core.calls)) := by
  by_cases haudit : config.audit = true
  · have hstart : s.core.world = s.core.world ∧ s.obs.io = (fun n => s.obs.io (0 + n)) ∧
        Harmless config.name s.obs.io [] := by
      refine ⟨rfl, ?_, ?_⟩
      · funext n
        rw [Nat.zero_add]
      · intro n x hx
        cases hx
    have hend := triple_execute haudit hp (trailInvariant_harmless config.name s.obs.io _ _) s hstart
    constructor
    · intro ⟨r, s', hrun⟩
      rw [hrun] at hend
      refine ⟨?_, fun _ => hend.2⟩
      intro ⟨e, hescaped⟩
      have hresult := (execute_returns_reference hp hrun).1
      unfold Progress.result at hresult
      rw [hescaped] at hresult
      cases hresult
    · intro ⟨hesc, hharmless⟩
      cases hrun : (execute registry config initial).run s with
      | ok r s' => exact ⟨r, s', rfl⟩
      | error e s' =>
        rw [hrun] at hend
        cases hend with
        | inl hescaped => exact absurd hescaped hesc
        | inr hnot => exact absurd (hharmless haudit) hnot
  · have hunaudited : config.audit = false := Bool.not_eq_true _ ▸ haudit
    rw [execute_returns_iff hp (snapshotsSerialise_of_unaudited hunaudited _)]
    simp [hunaudited]

/- With a file system that never fails, a run that returns put nothing but UTF-8
into its snapshots. -/
theorem snapshotsSerialise_of_execute_returns {registry : Registry W} {config : WorkflowDefinition}
    {initial : DataPacket} {s s' : State W} {r : Result DataPacket} {p : Progress W}
    (hp : p = referenceFold registry config.onError config.pipeline initial s.core.world)
    (hio : s.obs.io = fun _ => .success)
    (hrun : (execute registry config initial).run s = .ok r s') :
    SnapshotsSerialise config p.core.calls := by
  intro haudit call hcall
  have hharmless := ((execute_returns_iff_harmless hp).mp ⟨r, s', hrun⟩).2 haudit
  have hall : ∀ x ∈ call.snapshots config.onError, x.IsUtf8 config.name := by
    intro x hx
    obtain ⟨n, hn⟩ := List.mem_iff_getElem?.mp (List.mem_flatMap.mpr ⟨call, hcall, hx⟩)
    cases hharmless n x hn with
    | inl hearly =>
      rw [hio] at hearly
      exact absurd hearly IoOutcome.not_failsEarly_success
    | inr hutf8 => exact hutf8
  exact snapshotsUtf8_of_snapshots hall

end

end Workflow
