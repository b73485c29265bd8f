import WfObserver.Warframe.Session.Polling

/-!
# What a poll stages

A call of the host's sinks appends one operation to the batch (`Appended`), or it fails and changes no
operation of it (`Dropped`). A reset does not fail, unless the topic is already reset.
-/

namespace WfObserver
namespace Warframe

open ProviderSdk
open Stateful
open Service (PollBatch Pending Platform Operation publicHealth topicKey)
open Wire (JsonPayload TopicRef)

/-- The wire key of a capability. -/
def key (cap : CapabilityDescriptor) : TopicRef := topicKey manifest cap

def AccountTopic.key (topic : AccountTopic) : TopicRef := Warframe.key topic.cap

theorem AccountTopic.declared (topic : AccountTopic) : topic.cap ∈ manifest.capabilities := by
  cases topic <;> simp [manifest]

theorem AccountTopic.key_inj {a b : AccountTopic} : a.key = b.key ↔ a = b := by
  cases a <;> cases b <;> decide

theorem AccountTopic.snapshots_isSome {topic : AccountTopic} (h : topic ≠ .chat) :
    topic.cap.snapshots.isSome := by
  cases topic <;> first | rfl | exact absurd rfl h

theorem mem_accountTopics (topic : AccountTopic) : topic ∈ accountTopics := by
  cases topic <;> decide

theorem mem_dataTopics {topic : AccountTopic} : topic ∈ dataTopics ↔ topic ≠ .player := by
  cases topic <;> decide

namespace Session

/-- A snapshot, an event, or that the topic is available. -/
def published : Operation → Bool
  | .snapshot _ _ | .event _ _ | .health _ .available => true
  | _ => false

/-- The last operation of the topic is not its reset. -/
def Answered (k : TopicRef) (ops : List Operation) : Prop :=
  ∃ op, (ops.filter fun op => op.key = k).getLast? = some op ∧ op.resetKey? = none

theorem Answered.of_last {k : TopicRef} {ops : List Operation} {op : Operation} (hk : op.key = k)
    (hr : op.resetKey? = none) : Answered k (ops ++ [op]) :=
  ⟨op, by simp [List.filter_append, hk], hr⟩

/-- Operations of other topics do not matter. -/
theorem Answered.append {k : TopicRef} {ops ops' : List Operation} (h : Answered k ops)
    (hother : ∀ op ∈ ops', op.key ≠ k) : Answered k (ops ++ ops') := by
  obtain ⟨op, hlast, hr⟩ := h
  have hnil : ops'.filter (fun op => op.key = k) = [] := by simpa using hother
  exact ⟨op, by rwa [List.filter_append, hnil, List.append_nil], hr⟩

variable [SerdeJson]

/-- The calls that led from `b` to `b'` have staged `ops`. -/
structure Appended (b : PollBatch) (ops : List Operation) (b' : PollBatch) : Prop where
  manifest : b'.manifest = b.manifest
  ops : b'.pending.ops = b.pending.ops ++ ops
  failed : b'.pending.failed = b.pending.failed

/-- The call that led from `b` to `b'` has staged nothing. -/
structure Dropped (b b' : PollBatch) : Prop where
  manifest : b'.manifest = b.manifest
  ops : b'.pending.ops = b.pending.ops

theorem Appended.trans {a b c : PollBatch} {xs ys : List Operation} (h : Appended a xs b)
    (h' : Appended b ys c) : Appended a (xs ++ ys) c :=
  ⟨h'.manifest.trans h.manifest, by rw [h'.ops, h.ops, List.append_assoc],
    h'.failed.trans h.failed⟩

theorem Appended.refl (b : PollBatch) : Appended b [] b := ⟨rfl, by simp, rfl⟩

/-- The topic is reset exactly if its reset is staged. -/
theorem mem_resets {b : PollBatch} {k : TopicRef} :
    k ∈ b.pending.resets ↔ .reset k ∈ b.pending.ops := by
  rw [← b.wf.resets, List.mem_filterMap]
  constructor
  · rintro ⟨op, hop, h⟩
    cases op with
    | reset k' => cases h; exact hop
    | snapshot | event | health => cases h
  · exact fun h => ⟨_, h, rfl⟩

/-- What `serde_json::to_value` says of a value of the poll. -/
inductive ValueError [Payloads] (g : Game) : String → Prop
  | sample {topic image owner m message} (h : g.sample topic image owner m = .ok (.error message)) :
    ValueError g message
  | player {image login m sample message} (h : g.readPlayer image login m = .ok sample)
    (hv : sample.value = .error message) : ValueError g message
  | chatEvent {event message} (h : Payloads.chatEvent event = .error message) : ValueError g message
  | screens {screens message} (h : Payloads.screens screens = .error message) : ValueError g message
  | relicRewards {snapshot message} (h : Payloads.relicRewards snapshot = .error message) :
    ValueError g message

/-- The errors of a poll: what a sink refuses, and what chat cannot prepare. -/
inductive Refused [Payloads] (g : Game) : ProviderError → Prop
  | bytes : Refused g (.failed "publication batch exceeds staging byte limit")
  | encoding : Refused g (.failed "invalid JSON publication")
  | value {message} (h : ValueError g message) : Refused g (.failed message)
  | chatBaseline : Refused g (.failed "chat baseline missing")
  | chatPrepare {cursor : ChatCursor} {history localName error}
    (h : cursor.prepare history localName = .error error) : Refused g (.failed error.text)

theorem declared_of_mem {cap : CapabilityDescriptor} {b : PollBatch} (hm : b.manifest = manifest)
    (hc : cap ∈ manifest.capabilities) : Pending.declared b.manifest cap = some (key cap) := by
  simp [Pending.declared, key, hm, hc]

theorem runFrom_sink (call : PollBatch → Except ProviderError Unit × PollBatch) (s : PollState) :
    runFrom (sink call) s = ((call s.batch).1, { s with batch := (call s.batch).2 }) := rfl

theorem sink_reset {s : PollState} {cap : CapabilityDescriptor} (hm : s.batch.manifest = manifest)
    (hc : cap ∈ manifest.capabilities) (hn : .reset (key cap) ∉ s.batch.pending.ops) :
    ∃ b, runFrom (sink (·.reset cap)) s = (.ok (), { s with batch := b }) ∧
      Appended s.batch [.reset (key cap)] b := by
  have hr : key cap ∉ s.batch.pending.resets := fun h => hn (mem_resets.mp h)
  have hrun : s.batch.pending.reset s.batch.manifest cap = (.ok (),
      { s.batch.pending with
        resets := s.batch.pending.resets ++ [key cap]
        ops := s.batch.pending.ops ++ [.reset (key cap)] }) := by
    simp [Pending.reset, declared_of_mem hm hc, hr]
  have hok : (s.batch.reset cap).1 = .ok () := congrArg Prod.fst hrun
  refine ⟨(s.batch.reset cap).2, ?_, rfl, congrArg (·.2.ops) hrun, congrArg (·.2.failed) hrun⟩
  rw [runFrom_sink, hok]

section Sinks

variable [Platform] [Payloads]

/-- The call of a sink stages one operation that `P` allows, or it fails and stages nothing. -/
def Calls (g : Game) (s : PollState) (x : Poll Unit) (P : Operation → Prop) : Prop :=
  (∃ op b, P op ∧ runFrom x s = (.ok (), { s with batch := b }) ∧ Appended s.batch [op] b) ∨
    ∃ e b, runFrom x s = (.error e, { s with batch := b }) ∧ Dropped s.batch b ∧ Refused g e

variable {g : Game} {s : PollState} {cap : CapabilityDescriptor}

/-- A call that pushes `op` to the batch. -/
theorem calls_push {call : PollBatch → Except ProviderError Unit × PollBatch} (op : Operation)
    (bytes : Nat) {P : Operation → Prop} (hP : P op)
    (hcall : ((call s.batch).1, (call s.batch).2.pending) = s.batch.pending.push op bytes)
    (hm : (call s.batch).2.manifest = s.batch.manifest) : Calls g s (sink call) P := by
  rw [Calls, runFrom_sink]
  unfold Pending.push at hcall
  extract_lets total at hcall
  split at hcall
  · have herror := congrArg Prod.fst hcall
    refine .inr ⟨_, (call s.batch).2, ?_, ⟨hm, congrArg (·.2.ops) hcall⟩, .bytes⟩
    exact congrArg (·, _) herror
  · have hok := congrArg Prod.fst hcall
    refine .inl ⟨op, (call s.batch).2, hP, ?_, hm, congrArg (·.2.ops) hcall,
      congrArg (·.2.failed) hcall⟩
    exact congrArg (·, _) hok

theorem sink_health (hm : s.batch.manifest = manifest) (hc : cap ∈ manifest.capabilities)
    (health : CapabilityHealth) :
    Calls g s (sink (·.health cap health)) (· = .health (key cap) (publicHealth health)) := by
  refine calls_push (.health (key cap) (publicHealth health)) 1024 rfl ?_ rfl
  exact by simp [PollBatch.health, Pending.updateHealth, declared_of_mem hm hc]

theorem sink_snapshot (hm : s.batch.manifest = manifest) (hc : cap ∈ manifest.capabilities)
    (hs : cap.snapshots.isSome) (value : SerdeJson.Value) :
    Calls g s (sink (·.snapshot cap value)) fun op =>
      ∃ payload, JsonPayload.fromValue value = some payload ∧ op = .snapshot (key cap) payload := by
  have hs : cap.snapshots ≠ none := Option.isSome_iff_ne_none.mp hs
  cases hv : JsonPayload.fromValue value with
  | none =>
    have hrun : s.batch.pending.snapshot s.batch.manifest cap value
        = (.error (.failed "invalid JSON publication"), s.batch.pending) := by
      simp [Pending.snapshot, declared_of_mem hm hc, hs, hv]
    have herror : (s.batch.snapshot cap value).1 = .error (.failed "invalid JSON publication") :=
      congrArg Prod.fst hrun
    refine .inr ⟨_, (s.batch.snapshot cap value).2, ?_, ⟨rfl, congrArg (·.2.ops) hrun⟩, .encoding⟩
    rw [runFrom_sink, herror]
  | some payload =>
    refine calls_push (.snapshot (key cap) payload) payload.len
      ⟨payload, rfl, rfl⟩ ?_ rfl
    simp [PollBatch.snapshot, Pending.snapshot, declared_of_mem hm hc, hs, hv]

theorem sink_event (hm : s.batch.manifest = manifest) (hc : cap ∈ manifest.capabilities)
    (hs : cap.events) (value : SerdeJson.Value) :
    Calls g s (sink (·.event cap value)) fun op =>
      ∃ payload, JsonPayload.fromValue value = some payload ∧ op = .event (key cap) payload := by
  cases hv : JsonPayload.fromValue value with
  | none =>
    have hrun : s.batch.pending.event s.batch.manifest cap value
        = (.error (.failed "invalid JSON publication"), s.batch.pending) := by
      simp [Pending.event, declared_of_mem hm hc, hs, hv]
    have herror : (s.batch.event cap value).1 = .error (.failed "invalid JSON publication") :=
      congrArg Prod.fst hrun
    refine .inr ⟨_, (s.batch.event cap value).2, ?_, ⟨rfl, congrArg (·.2.ops) hrun⟩, .encoding⟩
    rw [runFrom_sink, herror]
  | some payload =>
    refine calls_push (.event (key cap) payload) payload.len
      ⟨payload, rfl, rfl⟩ ?_ rfl
    simp [PollBatch.event, Pending.event, declared_of_mem hm hc, hs, hv]

end Sinks

end Session
end Warframe
end WfObserver
