import WfObserver.Wire

/-!
# The sizes of the wire types (`postcard`)

How long `postcard` encodes the wire types, as its format lays them out: varints, strings behind their
length, one byte for an `Option` and for the variant of an enum.
-/

namespace WfObserver
namespace Encoding

open Wire

/-- The length of a postcard varint. -/
def varint (n : Nat) : Nat :=
  if n < 2 ^ 7 then 1 else if n < 2 ^ 14 then 2 else if n < 2 ^ 21 then 3 else if n < 2 ^ 28 then 4
  else if n < 2 ^ 35 then 5 else if n < 2 ^ 42 then 6 else if n < 2 ^ 49 then 7
  else if n < 2 ^ 56 then 8 else if n < 2 ^ 63 then 9 else 10

def str (s : String) : Nat := varint s.utf8ByteSize + s.utf8ByteSize

def option {α : Type} (size : α → Nat) : Option α → Nat
  | none => 1
  | some a => 1 + size a

def sessionRef (s : SessionRef) : Nat := str s.runId + str s.sessionId
def topicRef (t : TopicRef) : Nat := str t.providerId + str t.topic + varint t.schemaVersion
def source (s : TopicSource) : Nat := sessionRef s.session + str s.gameId + topicRef s.topic
def cursor (c : ServiceCursor) : Nat := str c.runId + varint c.sequence
def metadata (m : EnvelopeMetadata) : Nat := source m.source + varint m.generation + varint m.sequence
def envelope (d : DataEnvelope) : Nat := metadata d.metadata + str d.payload.text

def reason : UnavailableReason → Nat
  | .targetNotReady | .unsupportedBuild => 1
  | .readFailed m | .validationFailed m | .providerFailed m => 1 + str m
  | .dependencyUnavailable d _ => 1 + str d + 1

def health : CapabilityHealth → Nat
  | .unavailable r => 1 + reason r
  | _ => 1

def topicSnapshot (t : TopicSnapshot) : Nat :=
  source t.source + varint t.generation + health t.health + option envelope t.snapshot

def sessionInfo (i : SessionInfo) : Nat :=
  sessionRef i.session + str i.providerId + str i.gameId + varint i.target.pid
    + str i.target.executable + option str i.gameBuild

def snapshotPayload : SnapshotPayload → Nat
  | .full p => 1 + str p.text
  | .delta base _ patch => 1 + varint base + 32 + str patch.text

def ending : SubscriptionEnd → Nat
  | .resyncRequired (.lagged _) => 3
  | .resyncRequired .sequenceExhausted => 2
  | _ => 1

def update : SubscriptionUpdate → Nat
  | .sessionStarted i | .sessionChanged i => 1 + sessionInfo i
  | .sessionEnded s _ => 1 + sessionRef s + 1
  | .topicReset s g _ => 1 + source s + varint g + 1
  | .topicChanged t => 1 + topicSnapshot t
  | .event e => 1 + metadata e.metadata + str e.payload.text

/-- An item inside `Ok`. -/
def item (i : SubscriptionItem) : Nat :=
  2 + match i with
    | .begin c | .ready c => cursor c
    | .session i => sessionInfo i
    | .topic t => topicSnapshot t
    | .snapshot f => option cursor f.cursor + metadata f.metadata + snapshotPayload f.payload
    | .update e => cursor e.cursor + update e.update
    | .closed e => ending e

def subscribe (s : Subscribe) : Nat :=
  (match s.sessions with
    | .all => 1
    | .session r => 1 + sessionRef r) + varint s.topics.length + (s.topics.map topicRef).sum

end Encoding
end WfObserver
