import Mathlib.Data.String.Basic
import WfObserver.Lib.OrdMap

/-!
# The version-one wire types (`protocol::v1`)

Identities, session and topic state, subscription items and request errors, field by field as
`crates/protocol/src/v1` declares them. `u64` counters are `Nat`: the code advances them only with
`checked_add` (`checkedAdd`) or `saturating_add` (`saturatingAdd`), so the bound is explicit where
it matters. Times are `Nat` nanoseconds.

`Postcard` and `SerdeJson` are the parts of the two crates that the service calls. They are
parameters: no result in this development depends on what an encoding looks like.
-/

namespace WfObserver

/-- `u64::MAX`. `usize` has the same range on the supported 64-bit targets. -/
def u64Max : Nat := 2 ^ 64 - 1

/-- `u64::checked_add`. -/
def checkedAdd (a n : Nat) : Option Nat := if a + n ≤ u64Max then some (a + n) else none

/-- `u64::saturating_add`. -/
def saturatingAdd (a n : Nat) : Nat := min (a + n) u64Max

theorem checkedAdd_eq_some {a n b : Nat} : checkedAdd a n = some b ↔ b = a + n ∧ b ≤ u64Max := by
  unfold checkedAdd
  split <;> simp <;> omega

theorem checkedAdd_eq_none {a n : Nat} : checkedAdd a n = none ↔ u64Max < a + n := by
  unfold checkedAdd
  split <;> simp <;> omega

/-- `tokio::time::Instant`, in nanoseconds. -/
abbrev Instant := Nat

/-- `std::time::Duration`, in nanoseconds. -/
abbrev Duration := Nat

/-- `Duration::from_secs`. -/
def seconds (n : Nat) : Duration := n * 1000000000

/-- `Duration::from_millis`. -/
def milliseconds (n : Nat) : Duration := n * 1000000

namespace Wire

/-! ## Identities -/

structure ServiceCursor where
  runId : String
  sequence : Nat
  deriving DecidableEq, Repr

structure SessionRef where
  runId : String
  sessionId : String
  deriving DecidableEq, Repr

structure TopicRef where
  providerId : String
  topic : String
  schemaVersion : Nat
  deriving DecidableEq, Repr

structure TopicSource where
  session : SessionRef
  gameId : String
  topic : TopicRef
  deriving DecidableEq, Repr

/-- The derived `Ord`: fields in order. -/
def SessionRef.key (s : SessionRef) : String ×ₗ String := toLex (s.runId, s.sessionId)

/-- The derived `Ord`: fields in order. -/
def TopicRef.key (t : TopicRef) : String ×ₗ String ×ₗ Nat :=
  toLex (t.providerId, toLex (t.topic, t.schemaVersion))

theorem SessionRef.key_injective : Function.Injective SessionRef.key := by
  rintro ⟨_, _⟩ ⟨_, _⟩ h
  simpa [SessionRef.key] using h

theorem TopicRef.key_injective : Function.Injective TopicRef.key := by
  rintro ⟨_, _, _⟩ ⟨_, _, _⟩ h
  simpa [TopicRef.key] using h

instance : LinearOrder SessionRef := LinearOrder.lift' SessionRef.key SessionRef.key_injective
instance : LinearOrder TopicRef := LinearOrder.lift' TopicRef.key TopicRef.key_injective

/-! ## Health and session metadata -/

inductive DependencyFailure where
  | targetNotReady
  | unsupportedBuild
  | readFailed
  | validationFailed
  | providerFailed
  deriving DecidableEq, Repr

inductive UnavailableReason where
  | targetNotReady
  | unsupportedBuild
  | readFailed (message : String)
  | validationFailed (message : String)
  | providerFailed (message : String)
  | dependencyUnavailable (dependency : String) (failure : DependencyFailure)
  deriving DecidableEq, Repr

inductive CapabilityHealth where
  | idle
  | initializing
  | available
  | unavailable (reason : UnavailableReason)
  deriving DecidableEq, Repr

structure TargetProcess where
  pid : Nat
  executable : String
  deriving DecidableEq, Repr

structure SessionInfo where
  session : SessionRef
  providerId : String
  gameId : String
  target : TargetProcess
  gameBuild : Option String
  deriving DecidableEq, Repr

/-! ## Data -/

/-- JSON text (`JsonPayload`): equality is equality of the text. -/
structure JsonPayload where
  text : String
  deriving DecidableEq, Repr

/-- `payload.as_str().len()`. -/
def JsonPayload.len (p : JsonPayload) : Nat := p.text.utf8ByteSize

structure EnvelopeMetadata where
  source : TopicSource
  generation : Nat
  sequence : Nat
  deriving DecidableEq, Repr

structure DataEnvelope where
  metadata : EnvelopeMetadata
  payload : JsonPayload
  deriving DecidableEq, Repr

structure EventEnvelope where
  metadata : EnvelopeMetadata
  payload : JsonPayload
  deriving DecidableEq, Repr

structure TopicSnapshot where
  source : TopicSource
  generation : Nat
  health : CapabilityHealth
  snapshot : Option DataEnvelope
  deriving DecidableEq, Repr

/-! ## Snapshot delivery -/

/-- A `blake3` digest. -/
abbrev Hash := List UInt8

inductive SnapshotPayload where
  | full (payload : JsonPayload)
  | delta (baseSequence : Nat) (hash : Hash) (patch : JsonPayload)
  deriving DecidableEq, Repr

structure SnapshotFrame where
  cursor : Option ServiceCursor
  metadata : EnvelopeMetadata
  payload : SnapshotPayload
  deriving DecidableEq, Repr

structure SnapshotAck where
  metadata : EnvelopeMetadata
  hash : Hash
  deriving DecidableEq, Repr

/-! ## Requests and subscription items -/

inductive SessionSelector where
  | all
  | session (reference : SessionRef)
  deriving DecidableEq, Repr

structure Subscribe where
  sessions : SessionSelector
  topics : List TopicRef
  deriving DecidableEq, Repr

structure GetSnapshot where
  session : SessionRef
  topic : TopicRef
  deriving DecidableEq, Repr

inductive Resource where
  | messageBytes
  | queuedBytes
  | initialBytes
  | retainedSnapshotBytes
  | subscriptions
  deriving DecidableEq, Repr

inductive RequestError where
  | serviceRestarted (runId : String)
  | unknownSession (sessionId : String)
  | unknownProvider (providerId : String)
  | unknownTopic (providerId topic : String)
  | unsupportedSchema (requested : TopicRef) (supported : List Nat)
  | snapshotsUnsupported (topic : TopicRef)
  | idle
  | notSampled
  | unavailable (reason : UnavailableReason)
  | invalidRequest (message : String)
  | limitExceeded (resource : Resource)
  deriving DecidableEq, Repr

inductive ResetReason where
  | sourceChanged
  | demandResumed
  deriving DecidableEq, Repr

inductive SessionEndReason where
  | targetExited
  | providerFailed
  deriving DecidableEq, Repr

inductive ResyncReason where
  | lagged (resource : Resource)
  | sequenceExhausted
  deriving DecidableEq, Repr

inductive SubscriptionEnd where
  | sessionEnded
  | serviceStopped
  | resyncRequired (reason : ResyncReason)
  deriving DecidableEq, Repr

inductive SubscriptionUpdate where
  | sessionStarted (info : SessionInfo)
  | sessionChanged (info : SessionInfo)
  | sessionEnded (session : SessionRef) (reason : SessionEndReason)
  | topicReset (source : TopicSource) (generation : Nat) (reason : ResetReason)
  | topicChanged (topic : TopicSnapshot)
  | event (event : EventEnvelope)
  deriving DecidableEq, Repr

structure UpdateEnvelope where
  cursor : ServiceCursor
  update : SubscriptionUpdate
  deriving DecidableEq, Repr

inductive SubscriptionItem where
  | begin (cursor : ServiceCursor)
  | session (info : SessionInfo)
  | topic (topic : TopicSnapshot)
  | snapshot (frame : SnapshotFrame)
  | ready (cursor : ServiceCursor)
  | update (envelope : UpdateEnvelope)
  | closed (reason : SubscriptionEnd)
  deriving DecidableEq, Repr

/-! ## Normal selections -/

/-- `Vec::dedup`: drops an element that equals its successor. -/
def dedup {α : Type*} [DecidableEq α] : List α → List α
  | [] => []
  | [a] => [a]
  | a :: b :: l => if a = b then dedup (b :: l) else a :: dedup (b :: l)

@[simp] theorem mem_dedup {α : Type*} [DecidableEq α] {x : α} {l : List α} :
    x ∈ dedup l ↔ x ∈ l := by
  fun_induction dedup l with
  | case1 => rfl
  | case2 a => rfl
  | case3 a l ih => simp [ih]
  | case4 a b l h ih => simp [ih]

/-- On a sorted list nothing repeats. -/
theorem dedup_nodup {α : Type*} [LinearOrder α] [DecidableEq α] {l : List α} (h : l.Pairwise (· ≤ ·)) :
    (dedup l).Nodup := by
  fun_induction dedup l with
  | case1 => exact .nil
  | case2 a => simp
  | case3 a l ih => exact ih (List.pairwise_cons.mp h).2
  | case4 a b l hab ih =>
    obtain ⟨ha, hl⟩ := List.pairwise_cons.mp h
    refine List.nodup_cons.mpr ⟨fun hm => ?_, ih hl⟩
    have hb : b ≤ a := by
      rcases List.mem_cons.mp (mem_dedup.mp hm) with rfl | hm
      · exact le_refl _
      · exact (List.pairwise_cons.mp hl).1 a hm
    exact hab (le_antisymm (ha b (by simp)) hb)

/-- `selection.topics.sort(); selection.topics.dedup()`. -/
def Subscribe.normal (s : Subscribe) : Subscribe :=
  { s with topics := dedup (s.topics.insertionSort (· ≤ ·)) }

@[simp] theorem Subscribe.normal_sessions (s : Subscribe) : s.normal.sessions = s.sessions := rfl

@[simp] theorem Subscribe.mem_normal {s : Subscribe} {t : TopicRef} :
    t ∈ s.normal.topics ↔ t ∈ s.topics := by simp [normal]

theorem Subscribe.normal_nodup (s : Subscribe) : s.normal.topics.Nodup :=
  dedup_nodup (List.pairwise_insertionSort _ _)

/-! ## The catalog -/

structure CapabilityDescriptor where
  topic : String
  schemaVersion : Nat
  snapshots : Bool
  events : Bool
  deriving DecidableEq, Repr

structure GameDescriptor where
  id : String
  name : String
  deriving DecidableEq, Repr

structure ProviderDescriptor where
  id : String
  name : String
  version : String
  game : GameDescriptor
  capabilities : List CapabilityDescriptor
  deriving DecidableEq, Repr

structure Catalog where
  providers : List ProviderDescriptor
  deriving DecidableEq, Repr

end Wire

/-! ## Encoders -/

/-- `postcard::experimental::serialized_size` at the types the service measures; `none` is an
encoding error. An item is measured inside `Ok::<_, RequestError>`, as it is sent. -/
class Postcard where
  item : Wire.SubscriptionItem → Option Nat
  subscribe : Wire.Subscribe → Option Nat
  sessionInfo : Wire.SessionInfo → Option Nat
  snapshotPayload : Wire.SnapshotPayload → Option Nat

/-- `serde_json::Value` with `from_str` and `to_string`. -/
class SerdeJson where
  Value : Type
  fromStr : String → Option Value
  toString : Value → Option String

namespace Wire

/-- `JsonPayload::from_value`. -/
def JsonPayload.fromValue [SerdeJson] (value : SerdeJson.Value) : Option JsonPayload :=
  (SerdeJson.toString value).map JsonPayload.mk

/-- A payload that `JsonPayload::from_value` made. -/
def JsonPayload.Encoded [SerdeJson] (p : JsonPayload) : Prop := ∃ value, fromValue value = some p

/-- `catalog::identifier`: 1 to 256 bytes. -/
def identifier (value : String) : Bool := !value.isEmpty && decide (value.utf8ByteSize ≤ 256)

end Wire

end WfObserver
