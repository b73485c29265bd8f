import WfObserver.Protocol.Delta
import WfObserver.Sdk.Reader

/-!
# Acknowledged snapshot delivery (`transport/delivery.rs`)

`Delivery.encode` sends a snapshot as a patch against the last one that the client has acknowledged.
`Link` is one connection: the items that the service has for it, the frames and the acknowledgements
in flight, and the client's reader. A `Move` is a step of one of the two sides; they come in any
order.
-/

namespace WfObserver
namespace Transport

open Wire Sdk

structure Baseline where
  snapshot : DataEnvelope
  acknowledged : Bool
  deriving DecidableEq

structure Delivery where
  topics : List TopicRef
  baselines : OrdMap (SessionRef ×ₗ TopicRef) Baseline := ∅

namespace Delivery

variable [Blake3]

/-- `Delivery::acknowledge`. -/
def acknowledge (ack : SnapshotAck) (d : Delivery) : Delivery :=
  { d with
    baselines := d.baselines.modify (baselineKey ack.metadata.source) fun b =>
      if b.snapshot.metadata = ack.metadata ∧ b.snapshot.payload.hash = ack.hash then
        { b with acknowledged := true }
      else b }

omit [Blake3] in
/-- What `serve` does when the acknowledgements cannot be read any more. -/
def silence (d : Delivery) : Delivery := { d with topics := [], baselines := ∅ }

variable [Postcard] [SerdeJson] [JsonPatch]

/-- The payload of a snapshot frame; `none` is an encoding error. -/
def payload (base : Option Baseline) (target : DataEnvelope) (cache : Option (Hash × JsonPayload)) :
    Option SnapshotPayload :=
  let full := SnapshotPayload.full target.payload
  match base.filter fun base => base.acknowledged
      && base.snapshot.metadata.source == target.metadata.source
      && base.snapshot.metadata.generation == target.metadata.generation with
  | none => some full
  | some base =>
    match SnapshotPayload.between base.snapshot target cache with
    | none => some full
    | some delta =>
      match Postcard.snapshotPayload delta, Postcard.snapshotPayload full with
      | some small, some large => some (if small < large then delta else full)
      | _, _ => none

/-- The part of `encode` for a topic state. -/
def encodeTopic (item : SubscriptionItem) (cursor : Option ServiceCursor) (topic : TopicSnapshot)
    (cache : Option (Hash × JsonPayload)) (d : Delivery) : Option (SubscriptionItem × Delivery) :=
  if !d.topics.contains topic.source.topic then some (item, d)
  else
    let key := baselineKey topic.source
    match topic.snapshot with
    | none => some (item, { d with baselines := d.baselines.erase key })
    | some target => (payload (d.baselines.get? key) target cache).map fun payload =>
      (.snapshot ⟨cursor, target.metadata, payload⟩,
        { d with baselines := d.baselines.insert key ⟨target, false⟩ })

/-- `Delivery::encode`. `cache` is the patch that the snapshot's payload holds. -/
def encode (item : SubscriptionItem) (cache : Option (Hash × JsonPayload)) (d : Delivery) :
    Option (SubscriptionItem × Delivery) :=
  match item with
  | .topic topic => d.encodeTopic item none topic cache
  | .update ⟨cursor, .topicChanged topic⟩ => d.encodeTopic item (some cursor) topic cache
  | .update ⟨_, .topicReset source _ _⟩ =>
    some (item, { d with baselines := d.baselines.erase (baselineKey source) })
  | .update ⟨_, .sessionEnded session _⟩ =>
    some (item, { d with baselines := d.baselines.filter fun key _ => (ofLex key).1 ≠ session })
  | _ => some (item, d)

end Delivery

/-! ## One connection -/

structure Link where
  /-- What the service has for the connection. -/
  queue : List SubscriptionItem
  delivery : Delivery
  frames : List SubscriptionItem := []
  acks : List SnapshotAck := []
  reader : Reader
  received : List SubscriptionItem := []
  failure : Option ReadError := none

/-- A step of one of the sides. -/
inductive Move where
  /-- `serve` takes the next item and writes its frame. The patches of the item's snapshot from these
  bases were asked for before. -/
  | send (bases : List JsonPayload)
  /-- The client reads the next frame, and writes its acknowledgement. -/
  | read
  /-- `serve` reads the next acknowledgement. -/
  | acknowledge
  /-- `serve` cannot read acknowledgements any more. -/
  | silence

/-- The patch that the payload of an item's snapshot holds. -/
def cellOf [Blake3] [SerdeJson] [JsonPatch] (item : SubscriptionItem) (bases : List JsonPayload) :
    Option (Hash × JsonPayload) :=
  ((topicOf item).bind TopicSnapshot.snapshot).bind fun d => d.payload.cell bases

namespace Link

variable [Blake3] [Postcard] [SerdeJson] [JsonPatch]

/-- A connection whose service side has these items. -/
def new (items : List SubscriptionItem) (topics : List TopicRef) (reader : Reader) : Link :=
  { queue := items, delivery := { topics }, reader }

def step (limit : Nat) (l : Link) : Move → Link
  | .send bases =>
    match l.queue with
    | [] => l
    | item :: queue =>
      match l.delivery.encode item (cellOf item bases) with
      -- `serve` returns the error, and nothing more is sent.
      | none => { l with queue := [] }
      | some (frame, delivery) => { l with queue, delivery, frames := l.frames ++ [frame] }
  | .read =>
    match l.failure, l.frames with
    | none, frame :: frames =>
      match l.reader.next limit (.item frame) with
      | .error error => { l with frames, failure := some error }
      | .ok (item, reader) =>
        let (ack, reader) := reader.acknowledge
        { l with frames, reader, acks := l.acks ++ ack.toList, received := l.received ++ [item] }
    | _, _ => l
  | .acknowledge =>
    match l.acks with
    | [] => l
    | ack :: acks => { l with acks, delivery := l.delivery.acknowledge ack }
  | .silence => { l with delivery := l.delivery.silence }

def run (limit : Nat) (l : Link) (moves : List Move) : Link := moves.foldl (step limit) l

end Link

end Transport
end WfObserver
