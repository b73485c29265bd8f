import WfObserver.Protocol.Delta
import WfObserver.Sdk.Feed

/-!
# The SDK's reader (`wf-observer-sdk`, `subscription/reader.rs`)

`Reader.next` turns one frame of the stream into an item: it reconstructs a snapshot from the
baseline that it keeps, has the item checked (`Validation`), and keeps the baselines up to date.
`Upstream` is the reader with the loop that folds its items into a feed (`receive_once`).

Nothing is assumed about the peer: a frame is whatever the transport gave.
-/

namespace WfObserver
namespace Sdk

open Wire

/-- What one read of the stream gave. -/
inductive Frame where
  | item (item : SubscriptionItem)
  | refused (error : RequestError)
  | eof
  | failed (message : String)
  deriving DecidableEq, Repr

inductive ReadError where
  | client (error : ClientError)
  | resync (message : String)
  deriving DecidableEq, Repr

structure Reader where
  validation : Validation
  baselines : OrdMap (SessionRef ×ₗ TopicRef) DataEnvelope := ∅
  pendingAck : Option SnapshotAck := none
  deltas : Bool

/-- `reader::decode`. -/
def decode (frame : Frame) (begun : Bool) : Except ClientError SubscriptionItem :=
  match frame with
  | .item item => .ok item
  | .refused error =>
    if begun then .error (.protocol "request error after Begin") else .error (.request error)
  | .eof => .error (.protocol "stream ended without Closed")
  | .failed message => .error (.transport message)

/-- The baseline that a topic of this source has. -/
def baselineKey (source : TopicSource) : SessionRef ×ₗ TopicRef := toLex (source.session, source.topic)

/-- The topic state that an item carries. -/
def topicOf : SubscriptionItem → Option TopicSnapshot
  | .topic topic | .update ⟨_, .topicChanged topic⟩ => some topic
  | _ => none

namespace Reader

def new (selection : Subscribe) (deltas : Bool) : Reader :=
  { validation := Validation.new selection, deltas }

/-- The baselines that a reset or the end of a session drops. -/
def forget (item : SubscriptionItem) (r : Reader) : Reader :=
  match item with
  | .update ⟨_, .topicReset source _ _⟩ =>
    { r with baselines := r.baselines.erase (baselineKey source) }
  | .update ⟨_, .sessionEnded session _⟩ =>
    { r with baselines := r.baselines.filter fun key _ => (ofLex key).1 ≠ session }
  | _ => r

variable [Blake3]

/-- What a topic state does to its baseline. `acknowledged`: it came as a snapshot frame. -/
def install (topic : Option TopicSnapshot) (acknowledged : Bool) (r : Reader) : Reader :=
  match topic with
  | none => r
  | some topic =>
    match topic.snapshot with
    | none => { r with baselines := r.baselines.erase (baselineKey topic.source) }
    | some snapshot =>
      if acknowledged && r.deltas then
        { r with
          pendingAck := some ⟨snapshot.metadata, snapshot.payload.hash⟩
          baselines := r.baselines.insert (baselineKey topic.source) snapshot }
      else r

/-- What the reader keeps of an accepted item. -/
def keep (item : SubscriptionItem) (acknowledged : Bool) (r : Reader) : Reader :=
  (r.forget item).install (topicOf item) acknowledged

/-- The item came as a snapshot frame. -/
def isSnapshot : SubscriptionItem → Bool
  | .snapshot _ => true
  | _ => false

variable [Postcard] [SerdeJson] [JsonPatch]

/-- The item that a decoded frame stands for. -/
def resolve (limit : Nat) (item : SubscriptionItem) (r : Reader) : Except ReadError SubscriptionItem :=
  match item with
  | .snapshot frame =>
    match frame.reconstruct (r.baselines.get? (baselineKey frame.metadata.source)) with
    | .error message => .error (.resync message)
    | .ok item =>
      match Postcard.item item with
      | none => .error (.client (.transport "serialized size"))
      | some bytes =>
        if bytes > limit then .error (.resync "reconstructed snapshot exceeds frame limit")
        else .ok item
  | item => .ok item

/-- `Reader::next`. `limit` is `MAX_MESSAGE_SIZE`. -/
def next (limit : Nat) (frame : Frame) (r : Reader) : Except ReadError (SubscriptionItem × Reader) :=
  match decode frame r.validation.begun with
  | .error error => .error (.client error)
  | .ok raw =>
    match r.resolve limit raw with
    | .error error => .error error
    | .ok item =>
      match r.validation.accept item with
      | .error error => .error (.client error)
      | .ok validation => .ok (item, { r with validation }.keep item (isSnapshot raw))

omit [Blake3] [Postcard] [SerdeJson] [JsonPatch] in
/-- `Reader::acknowledge`: what it writes. -/
def acknowledge (r : Reader) : Option SnapshotAck × Reader := (r.pendingAck, { r with pendingAck := none })

end Reader

/-- The loop state of `receive_once`, with the acknowledgements that it has written. -/
structure Upstream where
  reader : Reader
  feed : Feed := {}
  acks : List SnapshotAck := []

namespace Upstream

def new (selection : Subscribe) (deltas : Bool) : Upstream := { reader := .new selection deltas }

variable [Blake3] [Postcard] [SerdeJson] [JsonPatch]

/-- One turn of the loop of `receive_once`, with the item that it took. An error is what the function
returns. -/
def turn (limit : Nat) (frame : Frame) (u : Upstream) :
    Except (Except ReadError SubscriptionEnd) (SubscriptionItem × Upstream) :=
  match u.reader.next limit frame with
  | .error error => .error (.error error)
  | .ok (item, reader) =>
    match u.feed.receive item with
    | .error (.error error) => .error (.error (.client error))
    | .error (.ok reason) => .error (.ok reason)
    | .ok feed =>
      let (ack, reader) := reader.acknowledge
      .ok (item, { reader, feed, acks := u.acks ++ ack.toList })

/-- `receive_once` on some frames: the items that were accepted, and the state that they leave. -/
def receiveOnce (limit : Nat) : List Frame → Upstream →
    Except (Except ReadError SubscriptionEnd) (List SubscriptionItem × Upstream)
  | [], u => .ok ([], u)
  | frame :: frames, u =>
    match u.turn limit frame with
    | .error e => .error e
    | .ok (item, u) =>
      match receiveOnce limit frames u with
      | .error e => .error e
      | .ok (items, u) => .ok (item :: items, u)

/-- `Feed::receive`: a delta that cannot be applied drops the feed's state, and a second stream without
deltas starts anew. -/
def receive (limit : Nat) (selection : Subscribe) (first second : List Frame) :
    Except (Except ReadError SubscriptionEnd) (List SubscriptionItem × Upstream) :=
  match receiveOnce limit first (new selection true) with
  | .error (.error (.resync _)) => receiveOnce limit second (new selection false)
  | result => result

/-! ## What a turn does -/

theorem turn_eq_ok {limit : Nat} {frame : Frame} {u w : Upstream} {item : SubscriptionItem}
    (h : u.turn limit frame = .ok (item, w)) : ∃ reader,
      u.reader.next limit frame = .ok (item, reader) ∧ u.feed.receive item = .ok w.feed ∧
        w.reader = { reader with pendingAck := none } ∧ w.acks = u.acks ++ reader.pendingAck.toList := by
  unfold turn at h
  split at h
  · cases h
  rename_i item' reader hnext
  split at h
  · cases h
  · cases h
  · rename_i feed hfeed
    cases h
    exact ⟨reader, hnext, hfeed, rfl, rfl⟩

theorem receiveOnce_append {limit : Nat} {frames frames' : List Frame} {u w : Upstream}
    {items : List SubscriptionItem} : receiveOnce limit (frames ++ frames') u = .ok (items, w) ↔
      ∃ before v after, receiveOnce limit frames u = .ok (before, v) ∧
        receiveOnce limit frames' v = .ok (after, w) ∧ items = before ++ after := by
  induction frames generalizing u items with
  | nil =>
    constructor
    · exact fun h => ⟨[], u, items, rfl, h, rfl⟩
    · rintro ⟨before, v, after, hb, ha, rfl⟩
      cases hb
      exact ha
  | cons frame frames ih =>
    simp only [List.cons_append, receiveOnce]
    cases u.turn limit frame with
    | error e => simp
    | ok p =>
      obtain ⟨item, u'⟩ := p
      dsimp only
      constructor
      · intro h
        split at h
        · cases h
        rename_i items' w' hrest
        cases h
        obtain ⟨before, v, after, hb, ha, rfl⟩ := ih.mp hrest
        exact ⟨item :: before, v, after, by rw [hb], ha, rfl⟩
      · rintro ⟨before, v, after, hb, ha, rfl⟩
        split at hb
        · cases hb
        rename_i before' v' hb'
        cases hb
        rw [ih.mpr ⟨before', v, after, hb', ha, rfl⟩]
        rfl

/-- What a turn preserves, every accepted sequence of frames preserves. -/
theorem receiveOnce_invariant {limit : Nat} {I : Upstream → Prop}
    (hstep : ∀ {u w frame item}, u.turn limit frame = .ok (item, w) → I u → I w)
    {frames : List Frame} {u w : Upstream} {items : List SubscriptionItem}
    (h : receiveOnce limit frames u = .ok (items, w)) (hu : I u) : I w := by
  induction frames generalizing u items with
  | nil =>
    cases h
    exact hu
  | cons frame frames ih =>
    simp only [receiveOnce] at h
    split at h
    · cases h
    rename_i item v ht
    split at h
    · cases h
    rename_i items' w' hrest
    cases h
    exact ih hrest (hstep ht hu)

end Upstream

namespace Reader

variable [Blake3]

omit [Blake3] in
@[simp] theorem forget_validation (item : SubscriptionItem) (r : Reader) :
    (r.forget item).validation = r.validation := by
  unfold forget
  split <;> rfl

@[simp] theorem install_validation (topic : Option TopicSnapshot) (acknowledged : Bool) (r : Reader) :
    (r.install topic acknowledged).validation = r.validation := by
  unfold install
  split
  · rfl
  split
  · rfl
  · split <;> rfl

@[simp] theorem keep_validation (item : SubscriptionItem) (acknowledged : Bool) (r : Reader) :
    (r.keep item acknowledged).validation = r.validation := by simp [keep]

variable [Postcard] [SerdeJson] [JsonPatch]

/-- Every item that the reader gives was accepted by the checker. -/
theorem next_accept {limit : Nat} {frame : Frame} {r r' : Reader} {item : SubscriptionItem}
    (h : r.next limit frame = .ok (item, r')) : r.validation.accept item = .ok r'.validation := by
  unfold next at h
  split at h
  · cases h
  split at h
  · cases h
  split at h
  · cases h
  · rename_i validation hv
    cases h
    rw [keep_validation]
    exact hv

end Reader

end Sdk
end WfObserver
