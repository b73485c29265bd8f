import WfObserver.Service.Publication
import WfObserver.Service.TestSupport

/-!
# A provider that ignores errors

A provider may go on after a call of the batch has failed. `PollBatch.run` makes any sequence of calls
and keeps what each returned. A failed call poisons the batch (`apply_spec`), so that `commit_poll`
refuses all of it; the accepted resets are kept apart (`accepted`), and the byte count is the cost of
the staged operations.
-/

namespace WfObserver
namespace Service

open Wire
open ProviderSdk (ProviderError ProviderManifest)

section

variable [SerdeJson]

/-- A call of the sinks. -/
inductive BatchCall where
  | reset (cap : ProviderSdk.CapabilityDescriptor)
  | snapshot (cap : ProviderSdk.CapabilityDescriptor) (value : SerdeJson.Value)
  | event (cap : ProviderSdk.CapabilityDescriptor) (value : SerdeJson.Value)
  | health (cap : ProviderSdk.CapabilityDescriptor) (health : ProviderSdk.CapabilityHealth)
  | gameBuild (build : Option String)

variable [Platform]

namespace PollBatch

def apply (b : PollBatch) : BatchCall → Except ProviderError Unit × PollBatch
  | .reset cap => b.reset cap
  | .snapshot cap value => b.snapshot cap value
  | .event cap value => b.event cap value
  | .health cap health => b.health cap health
  | .gameBuild build => PollBatch.gameBuild build b

/-- The calls in order, each with what it returned, and the batch after them. -/
def run (b : PollBatch) : List BatchCall → List (BatchCall × Except ProviderError Unit) × PollBatch
  | [] => ([], b)
  | call :: calls =>
    let (result, next) := b.apply call
    let (results, last) := next.run calls
    ((call, result) :: results, last)

end PollBatch

/-- The capability that a call has reset. -/
def acceptedReset : BatchCall × Except ProviderError Unit → Option ProviderSdk.CapabilityDescriptor
  | (.reset cap, .ok ()) => some cap
  | _ => none

/-- The bytes that an operation counts for. -/
def Operation.cost (op : Operation) : Nat :=
  let overhead := Platform.operationSize + op.key.providerId.utf8ByteSize + op.key.topic.utf8ByteSize
  match op with
  | .reset _ => 0
  | .snapshot _ payload | .event _ payload => payload.len + overhead
  | .health _ _ => 1024 + overhead

namespace Pending

variable {manifest : ProviderManifest} {p : Pending}

/-- What a call does: it fails and poisons the batch, or it leaves the flag as it is. A reset that is
accepted is remembered, and what is staged is accounted. -/
structure Applied (reset : Option TopicRef) (p : Pending)
    (r : Except ProviderError Unit × Pending) : Prop where
  failed : r.2.failed = (p.failed || !r.1.isOk)
  resets : r.2.resets = p.resets ++ if r.1.isOk then reset.toList else []
  bytes : r.2.bytes + (p.ops.map Operation.cost).sum = p.bytes + (r.2.ops.map Operation.cost).sum

omit [SerdeJson] in
theorem applied_reject (p : Pending) : Applied none p p.reject :=
  ⟨by simp [reject, Except.isOk, Except.toBool], by simp [reject, Except.isOk, Except.toBool], rfl⟩

omit [SerdeJson] in
theorem applied_push (p : Pending) (op : Operation) {bytes : Nat}
    (hcost : op.cost = bytes + Platform.operationSize + op.key.providerId.utf8ByteSize +
      op.key.topic.utf8ByteSize) : Applied none p (p.push op bytes) := by
  unfold Pending.push
  dsimp only
  split
  · exact ⟨by simp [Except.isOk, Except.toBool], by simp, rfl⟩
  · refine ⟨by simp [Except.isOk, Except.toBool], by simp, ?_⟩
    simp only [List.map_append, List.sum_append, List.map_cons, List.map_nil, List.sum_singleton, hcost]
    omega

omit [SerdeJson] in
theorem applied_reset (cap : ProviderSdk.CapabilityDescriptor) (p : Pending) :
    Applied (some (topicKey manifest cap)) p (p.reset manifest cap) := by
  unfold Pending.reset
  split
  · exact ⟨by simp [reject, Except.isOk, Except.toBool],
      by simp [reject, Except.isOk, Except.toBool], rfl⟩
  · rename_i key hkey
    obtain ⟨-, rfl⟩ := declared_some hkey
    split
    · exact ⟨by simp [Except.isOk, Except.toBool], by simp [Except.isOk, Except.toBool], rfl⟩
    · refine ⟨by simp [Except.isOk, Except.toBool], by simp [Except.isOk, Except.toBool], ?_⟩
      simp [Operation.cost]

theorem applied_snapshot (hjson : ∀ value : SerdeJson.Value, (SerdeJson.toString value).isSome)
    (cap : ProviderSdk.CapabilityDescriptor) (value : SerdeJson.Value) (p : Pending) :
    Applied none p (p.snapshot manifest cap value) := by
  obtain ⟨text, htext⟩ := Option.isSome_iff_exists.mp (hjson value)
  unfold Pending.snapshot JsonPayload.fromValue
  rw [htext]
  split
  · exact applied_reject p
  · split
    · exact applied_reject p
    · refine applied_push p _ ?_
      simp [Operation.cost, Operation.key, Nat.add_assoc]

theorem applied_event (hjson : ∀ value : SerdeJson.Value, (SerdeJson.toString value).isSome)
    (cap : ProviderSdk.CapabilityDescriptor) (value : SerdeJson.Value) (p : Pending) :
    Applied none p (p.event manifest cap value) := by
  obtain ⟨text, htext⟩ := Option.isSome_iff_exists.mp (hjson value)
  unfold Pending.event JsonPayload.fromValue
  rw [htext]
  split
  · exact applied_reject p
  · split
    · exact applied_reject p
    · refine applied_push p _ ?_
      simp [Operation.cost, Operation.key, Nat.add_assoc]

omit [SerdeJson] in
theorem applied_health (cap : ProviderSdk.CapabilityDescriptor)
    (health : ProviderSdk.CapabilityHealth) (p : Pending) :
    Applied none p (p.updateHealth manifest cap health) := by
  unfold Pending.updateHealth
  split
  · exact applied_reject p
  · refine applied_push p _ ?_
    simp [Operation.cost, Operation.key, Nat.add_assoc]

omit [SerdeJson] in
theorem applied_gameBuild (build : Option String) (p : Pending) :
    Applied none p (p.setGameBuild build) := by
  unfold Pending.setGameBuild
  split
  · exact applied_reject p
  · exact ⟨by simp [Except.isOk, Except.toBool], by simp, rfl⟩

end Pending

namespace PollBatch

variable {b : PollBatch}

/-- The wire keys of the resets that calls have got accepted. -/
def accepted (manifest : ProviderManifest)
    (results : List (BatchCall × Except ProviderError Unit)) : List TopicRef :=
  (results.filterMap acceptedReset).map (topicKey manifest)

/-- What one call does. -/
theorem apply_spec (hjson : ∀ value : SerdeJson.Value, (SerdeJson.toString value).isSome)
    (b : PollBatch) (call : BatchCall) :
    (b.apply call).2.manifest = b.manifest ∧
    (b.apply call).2.pending.failed = (b.pending.failed || !(b.apply call).1.isOk) ∧
    (b.apply call).2.resetIntents =
      b.resetIntents ++ accepted b.manifest [(call, (b.apply call).1)] ∧
    (b.apply call).2.pending.bytes + (b.pending.ops.map Operation.cost).sum =
      b.pending.bytes + ((b.apply call).2.pending.ops.map Operation.cost).sum := by
  have hother : ∀ {r : Except ProviderError Unit × Pending}, Pending.Applied none b.pending r →
      acceptedReset (call, r.1) = none →
      r.2.failed = (b.pending.failed || !r.1.isOk) ∧
        r.2.resets = b.pending.resets ++ accepted b.manifest [(call, r.1)] ∧
        r.2.bytes + (b.pending.ops.map Operation.cost).sum =
          b.pending.bytes + (r.2.ops.map Operation.cost).sum := by
    intro r ha hnone
    refine ⟨ha.failed, ?_, ha.bytes⟩
    rw [ha.resets, accepted, List.filterMap_cons, hnone]
    simp
  cases call with
  | reset cap =>
    have ha : Pending.Applied (some (topicKey b.manifest cap)) b.pending (b.pending.reset b.manifest cap) :=
      Pending.applied_reset cap b.pending
    refine ⟨rfl, ha.failed, ha.resets.trans ?_, ha.bytes⟩
    show _ = b.pending.resets ++ accepted b.manifest [(.reset cap, (b.pending.reset b.manifest cap).1)]
    cases hr : (b.pending.reset b.manifest cap).1 <;>
      simp [accepted, acceptedReset, Except.isOk, Except.toBool]
  | snapshot cap value =>
    exact ⟨rfl, hother (Pending.applied_snapshot hjson cap value b.pending) rfl⟩
  | event cap value => exact ⟨rfl, hother (Pending.applied_event hjson cap value b.pending) rfl⟩
  | health cap health => exact ⟨rfl, hother (Pending.applied_health cap health b.pending) rfl⟩
  | gameBuild build => exact ⟨rfl, hother (Pending.applied_gameBuild build b.pending) rfl⟩

/-- What a sequence of calls does. -/
theorem run_spec (hjson : ∀ value : SerdeJson.Value, (SerdeJson.toString value).isSome)
    (b : PollBatch) (calls : List BatchCall) :
    (b.run calls).2.manifest = b.manifest ∧
    (b.run calls).2.pending.failed = (b.pending.failed || (b.run calls).1.any fun r => !r.2.isOk) ∧
    (b.run calls).2.resetIntents = b.resetIntents ++ accepted b.manifest (b.run calls).1 ∧
    (b.run calls).2.pending.bytes + (b.pending.ops.map Operation.cost).sum =
      b.pending.bytes + ((b.run calls).2.pending.ops.map Operation.cost).sum := by
  induction calls generalizing b with
  | nil => exact ⟨rfl, by simp [run], by simp [run, accepted], rfl⟩
  | cons call calls ih =>
    obtain ⟨hmanifest, hfailed, hresets, hbytes⟩ := apply_spec hjson b call
    obtain ⟨hmanifest', hfailed', hresets', hbytes'⟩ := ih (b.apply call).2
    simp only [run]
    refine ⟨hmanifest'.trans hmanifest, ?_, ?_, by omega⟩
    · rw [hfailed', hfailed, List.any_cons, Bool.or_assoc]
    · rw [hresets', hresets, hmanifest, List.append_assoc, accepted, accepted, accepted,
        ← List.map_append, ← List.filterMap_append, List.singleton_append]

omit [Platform] in
/-- Whether a reset is accepted does not depend on the data budget. -/
theorem reset_accepted (b : PollBatch) (cap : ProviderSdk.CapabilityDescriptor) :
    (b.reset cap).1 = .ok () ↔
      cap ∈ b.manifest.capabilities ∧ topicKey b.manifest cap ∉ b.resetIntents := by
  show (b.pending.reset b.manifest cap).1 = _ ↔ _
  unfold Pending.reset Pending.declared resetIntents
  by_cases hcap : cap ∈ b.manifest.capabilities
  · rw [if_pos (by simpa using hcap)]
    by_cases hin : topicKey b.manifest cap ∈ b.pending.resets
    · simp [hcap, hin]
    · simp [hcap, hin]
  · rw [if_neg (by simpa using hcap)]
    simp [Pending.reject, hcap]

/-- A batch on which a call has failed publishes nothing; its accepted resets are all reported, each
once; what it stages is accounted within the limit. -/
theorem batch_poisoned [Postcard]
    (hjson : ∀ value : SerdeJson.Value, (SerdeJson.toString value).isSome)
    (manifest : ProviderManifest) (calls : List BatchCall) :
    ((∃ r ∈ ((new manifest).run calls).1, r.2.isOk = false) → ∀ i ticket deadline now,
      ∃ e, Inner.commitPoll ticket ((new manifest).run calls).2 deadline now i = (.error e, i)) ∧
    (((new manifest).run calls).2.resetIntents = accepted manifest ((new manifest).run calls).1 ∧
      (accepted manifest ((new manifest).run calls).1).Nodup ∧
      ∀ cap, (((new manifest).run calls).2.reset cap).1 = .ok () ↔
        cap ∈ manifest.capabilities ∧
          topicKey manifest cap ∉ accepted manifest ((new manifest).run calls).1) ∧
    (((new manifest).run calls).2.pending.bytes =
      (((new manifest).run calls).2.pending.ops.map Operation.cost).sum ∧
      ((new manifest).run calls).2.pending.bytes ≤ maxBatchBytes) := by
  obtain ⟨hmanifest, hfailed, hresets, hbytes⟩ := run_spec hjson (new manifest) calls
  have hintents : ((new manifest).run calls).2.resetIntents =
      accepted manifest ((new manifest).run calls).1 := by
    simpa [new, resetIntents] using hresets
  have hwf := ((new manifest).run calls).2.wf
  refine ⟨fun hsome i ticket deadline now => ?_, ⟨hintents, ?_, fun cap => ?_⟩, ?_, hwf.bytes⟩
  · have hany : ((new manifest).run calls).1.any (fun r => !r.2.isOk) = true := by
      obtain ⟨r, hr, hbad⟩ := hsome
      exact List.any_eq_true.mpr ⟨r, hr, by simp [hbad]⟩
    rw [hany, Bool.or_true] at hfailed
    refine ⟨invalid "provider ignored rejected publication", ?_⟩
    unfold Inner.commitPoll
    dsimp only
    rw [if_pos hfailed]
  · rw [← hintents]
    exact hwf.nodup
  · rw [reset_accepted, hmanifest, hintents]
    rfl
  · simpa [new] using hbytes

end PollBatch

end

section examples

open TestSupport

/-- The provider resets a capability that it has not declared, and goes on. -/
def careless : List BatchCall :=
  [.reset ⟨"fixture.other", 1, none, true⟩, .reset ⟨"fixture.count", 1, some .full, true⟩,
    .snapshot ⟨"fixture.count", 1, some .full, true⟩ (7 : Nat)]

theorem batch_poisoned_careless :
    (∃ e, service.commitPoll ticket ((PollBatch.new manifest).run careless).2 (seconds 6) 0 =
      (.error e, service)) ∧ ((PollBatch.new manifest).run careless).2.resetIntents = [topic] := by
  have hjson : ∀ value : SerdeJson.Value, (SerdeJson.toString value).isSome = true := fun _ => rfl
  obtain ⟨hpoison, ⟨hresets, -, -⟩, -⟩ := PollBatch.batch_poisoned hjson manifest careless
  refine ⟨hpoison ⟨_, List.mem_cons_self, ?_⟩ service ticket (seconds 6) 0, ?_⟩
  · decide
  · rw [hresets]
    decide

end examples

end Service
end WfObserver
