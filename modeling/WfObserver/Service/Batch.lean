import WfObserver.ProviderSdk

/-!
# Staged provider output (`service/batch.rs`)

`Pending` is what a poll has staged. Every call of the sinks is a function on it that returns the
call's result and the new contents. `PollBatch` is a `Pending` with what these calls keep true
(`Pending.Wf`): a batch that violates it cannot be built.
-/

namespace WfObserver
namespace Service

open Wire
open ProviderSdk (ProviderError ProviderManifest)

/-- `MAX_BATCH_BYTES`. -/
def maxBatchBytes : Nat := 32 * 1024 * 1024

/-- `size_of::<Operation>()`, which the compiler chooses. -/
class Platform where
  operationSize : Nat

inductive Operation where
  | reset (key : TopicRef)
  | snapshot (key : TopicRef) (payload : JsonPayload)
  | event (key : TopicRef) (payload : JsonPayload)
  | health (key : TopicRef) (health : CapabilityHealth)
  deriving DecidableEq, Repr

namespace Operation

def key : Operation → TopicRef
  | reset k | snapshot k _ | event k _ | health k _ => k

def resetKey? : Operation → Option TopicRef
  | reset k => some k
  | _ => none

end Operation

structure Pending where
  ops : List Operation := []
  resets : List TopicRef := []
  gameBuild : Option String := none
  bytes : Nat := 0
  failed : Bool := false
  deriving DecidableEq, Repr

/-- `public_message`: the first 256 characters. -/
def publicMessage (message : String) : String := String.ofList (message.toList.take 256)

def publicFailure : ProviderSdk.DependencyFailure → DependencyFailure
  | .targetNotReady => .targetNotReady
  | .unsupportedBuild => .unsupportedBuild
  | .readFailed => .readFailed
  | .validationFailed => .validationFailed
  | .providerFailed => .providerFailed

def publicReason : ProviderSdk.UnavailableReason → UnavailableReason
  | .targetNotReady => .targetNotReady
  | .unsupportedBuild => .unsupportedBuild
  | .readFailed m => .readFailed (publicMessage m)
  | .validationFailed m => .validationFailed (publicMessage m)
  | .providerFailed m => .providerFailed (publicMessage m)
  | .dependencyUnavailable d f => .dependencyUnavailable (publicMessage d) (publicFailure f)

def publicHealth : ProviderSdk.CapabilityHealth → CapabilityHealth
  | .available => .available
  | .unavailable r => .unavailable (publicReason r)

/-- The wire key of a capability of a provider. -/
def topicKey (manifest : ProviderManifest) (cap : ProviderSdk.CapabilityDescriptor) : TopicRef :=
  ⟨manifest.id, cap.topic, cap.schemaVersion⟩

namespace Pending

variable (manifest : ProviderManifest)

/-- `PollBatch::reject`. -/
def reject (p : Pending) : Except ProviderError Unit × Pending :=
  (.error (.failed "publication rejected by host"), { p with failed := true })

/-- `PollBatch::game_build`. -/
def setGameBuild (build : Option String) (p : Pending) : Except ProviderError Unit × Pending :=
  if build.any fun value => decide (value.utf8ByteSize > 256) then p.reject
  else (.ok (), { p with gameBuild := build })

/-- `PollBatch::key`; `none` is the rejection of an undeclared capability. -/
def declared (cap : ProviderSdk.CapabilityDescriptor) : Option TopicRef :=
  if manifest.capabilities.contains cap then some (topicKey manifest cap) else none

/-- `PollBatch::push`. -/
def push [Platform] (operation : Operation) (bytes : Nat) (p : Pending) :
    Except ProviderError Unit × Pending :=
  let bytes := bytes + Platform.operationSize + operation.key.providerId.utf8ByteSize
    + operation.key.topic.utf8ByteSize
  if bytes > maxBatchBytes - p.bytes then
    (.error (.failed "publication batch exceeds staging byte limit"), { p with failed := true })
  else (.ok (), { p with bytes := p.bytes + bytes, ops := p.ops ++ [operation] })

/-- `EventSink::reset`: outside the data budget, at most once per capability. -/
def reset (cap : ProviderSdk.CapabilityDescriptor) (p : Pending) :
    Except ProviderError Unit × Pending :=
  match declared manifest cap with
  | none => p.reject
  | some key =>
    if p.resets.contains key then
      (.error (.failed "duplicate topic reset in one poll"), { p with failed := true })
    else (.ok (), { p with resets := p.resets ++ [key], ops := p.ops ++ [.reset key] })

/-- `EventSink::snapshot`. A value that cannot be encoded is an error that leaves no trace. -/
def snapshot [Platform] [SerdeJson] (cap : ProviderSdk.CapabilityDescriptor)
    (value : SerdeJson.Value) (p : Pending) : Except ProviderError Unit × Pending :=
  match declared manifest cap with
  | none => p.reject
  | some key =>
    if cap.snapshots.isNone then p.reject
    else match JsonPayload.fromValue value with
      | none => (.error (.failed "invalid JSON publication"), p)
      | some payload => p.push (.snapshot key payload) payload.len

/-- `EventSink::event`. -/
def event [Platform] [SerdeJson] (cap : ProviderSdk.CapabilityDescriptor)
    (value : SerdeJson.Value) (p : Pending) : Except ProviderError Unit × Pending :=
  match declared manifest cap with
  | none => p.reject
  | some key =>
    if !cap.events then p.reject
    else match JsonPayload.fromValue value with
      | none => (.error (.failed "invalid JSON publication"), p)
      | some payload => p.push (.event key payload) payload.len

/-- `HealthSink::update`. -/
def updateHealth [Platform] (cap : ProviderSdk.CapabilityDescriptor)
    (health : ProviderSdk.CapabilityHealth) (p : Pending) : Except ProviderError Unit × Pending :=
  match declared manifest cap with
  | none => p.reject
  | some key => p.push (.health key (publicHealth health)) 1024

end Pending

/-! ## What the sinks keep true -/

/-- The operation is one that the manifest's capability supports, with an encoded payload. -/
def Operation.Declared [SerdeJson] (manifest : ProviderManifest) (op : Operation) : Prop :=
  ∃ cap ∈ manifest.capabilities, op.key = topicKey manifest cap ∧
    match op with
    | .reset _ => True
    | .snapshot _ payload => cap.snapshots.isSome ∧ payload.Encoded
    | .event _ payload => cap.events ∧ payload.Encoded
    | .health _ h => h ≠ .idle ∧ h ≠ .initializing

structure Pending.Wf [SerdeJson] (manifest : ProviderManifest) (p : Pending) : Prop where
  ops : ∀ op ∈ p.ops, op.Declared manifest
  resets : p.ops.filterMap Operation.resetKey? = p.resets
  nodup : p.resets.Nodup
  bytes : p.bytes ≤ maxBatchBytes

theorem publicHealth_ne (h : ProviderSdk.CapabilityHealth) :
    publicHealth h ≠ .idle ∧ publicHealth h ≠ .initializing := by
  cases h <;> simp [publicHealth]

theorem Pending.declared_some {manifest : ProviderManifest} {cap : ProviderSdk.CapabilityDescriptor} {key : TopicRef}
    (h : declared manifest cap = some key) :
    cap ∈ manifest.capabilities ∧ key = topicKey manifest cap := by
  simpa [declared, eq_comm] using h

section Wf

variable [SerdeJson] {manifest : ProviderManifest} {p : Pending}

theorem Pending.wf_new : ({} : Pending).Wf manifest := ⟨by simp, rfl, by simp, by simp⟩

/-- Only the flag of a rejected call changes. -/
theorem Pending.Wf.failed (h : p.Wf manifest) : { p with failed := true }.Wf manifest :=
  ⟨h.ops, h.resets, h.nodup, h.bytes⟩

theorem Pending.Wf.push [Platform] (h : p.Wf manifest) {op : Operation} (ho : op.Declared manifest)
    (hr : op.resetKey? = none) (bytes : Nat) : (p.push op bytes).2.Wf manifest := by
  unfold Pending.push
  dsimp only
  split
  · exact h.failed
  · refine ⟨?_, ?_, h.nodup, ?_⟩
    · intro o hm
      rcases List.mem_append.mp hm with hm | hm
      · exact h.ops o hm
      · rw [List.mem_singleton.mp hm]; exact ho
    · simp [List.filterMap_append, hr, h.resets]
    · have := h.bytes
      simp only
      omega

theorem Pending.Wf.setGameBuild (h : p.Wf manifest) (build : Option String) :
    (p.setGameBuild build).2.Wf manifest := by
  unfold Pending.setGameBuild
  split
  · exact h.failed
  · exact ⟨h.ops, h.resets, h.nodup, h.bytes⟩

theorem Pending.Wf.reset (h : p.Wf manifest) (cap : ProviderSdk.CapabilityDescriptor) :
    (p.reset manifest cap).2.Wf manifest := by
  unfold Pending.reset
  split
  · exact h.failed
  · rename_i key hk
    obtain ⟨hc, rfl⟩ := declared_some hk
    split
    · exact h.failed
    · rename_i hn
      have hn : topicKey manifest cap ∉ p.resets := by simpa using hn
      refine ⟨?_, ?_, ?_, h.bytes⟩
      · intro o hm
        rcases List.mem_append.mp hm with hm | hm
        · exact h.ops o hm
        · rw [List.mem_singleton.mp hm]; exact ⟨cap, hc, rfl, trivial⟩
      · simp [List.filterMap_append, Operation.resetKey?, h.resets]
      · exact List.Nodup.append h.nodup (List.nodup_singleton _)
          (List.disjoint_singleton.mpr hn)

theorem Pending.Wf.snapshot [Platform] (h : p.Wf manifest) (cap : ProviderSdk.CapabilityDescriptor)
    (value : SerdeJson.Value) : (p.snapshot manifest cap value).2.Wf manifest := by
  unfold Pending.snapshot
  split
  · exact h.failed
  · rename_i key hk
    obtain ⟨hc, rfl⟩ := declared_some hk
    split
    · exact h.failed
    · rename_i hs
      split
      · exact h
      · rename_i payload hp
        have hs : cap.snapshots.isSome := by simpa [Option.isSome_iff_ne_none] using hs
        have ho : (Operation.snapshot (topicKey manifest cap) payload).Declared manifest :=
          ⟨cap, hc, rfl, hs, value, hp⟩
        exact h.push ho rfl _

theorem Pending.Wf.event [Platform] (h : p.Wf manifest) (cap : ProviderSdk.CapabilityDescriptor)
    (value : SerdeJson.Value) : (p.event manifest cap value).2.Wf manifest := by
  unfold Pending.event
  split
  · exact h.failed
  · rename_i key hk
    obtain ⟨hc, rfl⟩ := declared_some hk
    split
    · exact h.failed
    · rename_i hs
      split
      · exact h
      · rename_i payload hp
        have hs : cap.events := by simpa using hs
        have ho : (Operation.event (topicKey manifest cap) payload).Declared manifest :=
          ⟨cap, hc, rfl, hs, value, hp⟩
        exact h.push ho rfl _

theorem Pending.Wf.updateHealth [Platform] (h : p.Wf manifest)
    (cap : ProviderSdk.CapabilityDescriptor) (health : ProviderSdk.CapabilityHealth) :
    (p.updateHealth manifest cap health).2.Wf manifest := by
  unfold Pending.updateHealth
  split
  · exact h.failed
  · rename_i key hk
    obtain ⟨hc, rfl⟩ := declared_some hk
    have ho : (Operation.health (topicKey manifest cap) (publicHealth health)).Declared manifest :=
      ⟨cap, hc, rfl, publicHealth_ne health⟩
    exact h.push ho rfl _

end Wf

/-- One poll's staged output for a provider. -/
structure PollBatch [SerdeJson] where
  manifest : ProviderManifest
  pending : Pending
  wf : pending.Wf manifest

namespace PollBatch

variable [SerdeJson]

/-- `PollBatch::new`. -/
def new (manifest : ProviderManifest) : PollBatch := ⟨manifest, {}, Pending.wf_new⟩

/-- `PollBatch::reset_intents`. -/
def resetIntents (b : PollBatch) : List TopicRef := b.pending.resets

def gameBuild (build : Option String) (b : PollBatch) : Except ProviderError Unit × PollBatch :=
  ((b.pending.setGameBuild build).1, ⟨b.manifest, _, b.wf.setGameBuild build⟩)

def reset (cap : ProviderSdk.CapabilityDescriptor) (b : PollBatch) :
    Except ProviderError Unit × PollBatch :=
  ((b.pending.reset b.manifest cap).1, ⟨b.manifest, _, b.wf.reset cap⟩)

variable [Platform]

def snapshot (cap : ProviderSdk.CapabilityDescriptor) (value : SerdeJson.Value) (b : PollBatch) :
    Except ProviderError Unit × PollBatch :=
  ((b.pending.snapshot b.manifest cap value).1, ⟨b.manifest, _, b.wf.snapshot cap value⟩)

def event (cap : ProviderSdk.CapabilityDescriptor) (value : SerdeJson.Value) (b : PollBatch) :
    Except ProviderError Unit × PollBatch :=
  ((b.pending.event b.manifest cap value).1, ⟨b.manifest, _, b.wf.event cap value⟩)

def health (cap : ProviderSdk.CapabilityDescriptor) (health : ProviderSdk.CapabilityHealth)
    (b : PollBatch) : Except ProviderError Unit × PollBatch :=
  ((b.pending.updateHealth b.manifest cap health).1, ⟨b.manifest, _, b.wf.updateHealth cap health⟩)

end PollBatch

end Service
end WfObserver
