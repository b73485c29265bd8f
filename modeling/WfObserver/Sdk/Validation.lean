import WfObserver.Wire

/-!
# The SDK's stream checker (`wf-observer-sdk`, `subscription/validation.rs`)

`Validation.accept` checks one item after the other. The source updates its fields in place; a
reader that got an error does not use them any more, so `accept` returns either an error or the new
state.
-/

namespace WfObserver
namespace Sdk

open Wire

/-- The variants of `ClientError` that reading a subscription can give. -/
inductive ClientError where
  | request (error : RequestError)
  | transport (message : String)
  | protocol (message : String)
  deriving DecidableEq, Repr

/-- `MAX_ACTIVE_METADATA_BYTES`. -/
def maxActiveMetadataBytes : Nat := 8 * 1024 * 1024

structure SeenSession where
  info : SessionInfo
  topics : OrdMap TopicRef Nat
  deriving DecidableEq

structure Validation where
  selection : Subscribe
  checkpoint : Option ServiceCursor := none
  ready : Bool := false
  sequence : Nat := 0
  sessions : OrdMap String SeenSession := ∅
  deriving DecidableEq

/-- `validation::check`. -/
def check (condition : Bool) (message : String) : Except ClientError Unit :=
  if condition then .ok () else .error (.protocol message)

@[simp] theorem check_true (message : String) : check true message = .ok () := rfl

/-- The bytes that `accept` counts for one session. -/
def SeenSession.bytes [Postcard] (s : SeenSession) : Nat :=
  saturatingAdd (saturatingAdd ((Postcard.sessionInfo s.info).getD (u64Max / 2)) 256)
    (s.topics.sum fun key _ => key.providerId.utf8ByteSize + key.topic.utf8ByteSize + 256)

namespace Validation

def new (selection : Subscribe) : Validation := { selection := selection.normal }

def begun (v : Validation) : Bool := v.checkpoint.isSome

/-- `Validation::selected`. -/
def selected (info : SessionInfo) (v : Validation) : Bool :=
  v.checkpoint.any (fun c => c.runId == info.session.runId)
    && identifier info.session.sessionId
    && identifier info.providerId
    && identifier info.gameId
    && v.selection.topics.any (fun t => t.providerId == info.providerId)
    && match v.selection.sessions with
      | .all => true
      | .session reference => reference == info.session

/-- `Validation::add_session`. -/
def addSession (info : SessionInfo) (v : Validation) : Except ClientError Validation := do
  check (v.selected info && !v.sessions.contains info.session.sessionId)
    "unexpected or duplicate session"
  return { v with sessions := v.sessions.insert info.session.sessionId ⟨info, ∅⟩ }

/-- `Validation::source`. -/
def source (source : TopicSource) (v : Validation) : Except ClientError SeenSession :=
  match v.sessions.get? source.session.sessionId with
  | none => .error (.protocol "topic precedes its session")
  | some session => do
    check (session.info.session == source.session
        && session.info.gameId == source.gameId
        && session.info.providerId == source.topic.providerId
        && v.selection.topics.contains source.topic)
      "unexpected topic source"
    return session

/-- `self.sessions.get_mut(..).topics.insert(..)`, where `source` has found the session. -/
def put (source : TopicSource) (generation : Nat) (v : Validation) : Validation :=
  { v with
    sessions := v.sessions.modify source.session.sessionId fun s =>
      { s with topics := s.topics.insert source.topic generation } }

/-- What `topic` checks of a snapshot. -/
def snapshotMatches (topic : TopicSnapshot) (v : Validation) : Bool :=
  match topic.snapshot with
  | none => true
  | some data => topic.health == .available
      && data.metadata.source == topic.source
      && data.metadata.generation == topic.generation
      && decide (data.metadata.sequence > 0)
      && decide (data.metadata.sequence ≤ v.sequence)

/-- `Validation::topic`. -/
def topic (topic : TopicSnapshot) (bootstrap : Bool) (v : Validation) :
    Except ClientError Validation := do
  let session ← v.source topic.source
  let old := session.topics.get? topic.source.topic
  check (decide (topic.generation > 0)
      && if bootstrap then old.isNone else old.all fun g => g == topic.generation)
    "duplicate topic or generation changed without reset"
  check (v.snapshotMatches topic) "snapshot does not match its topic state"
  return v.put topic.source topic.generation

/-- `Validation::update`. -/
def update (update : SubscriptionUpdate) (v : Validation) : Except ClientError Validation :=
  match update with
  | .sessionStarted info => v.addSession info
  | .sessionChanged info => do
    check (v.selected info) "unexpected session metadata"
    match v.sessions.get? info.session.sessionId with
    | none => .error (.protocol "unknown session changed")
    | some current => do
      check (current.info.providerId == info.providerId && current.info.gameId == info.gameId)
        "session ownership changed"
      return { v with
        sessions := v.sessions.modify info.session.sessionId fun s => { s with info } }
  | .sessionEnded session _ => do
    check ((v.sessions.get? session.sessionId).any fun s => s.info.session == session)
      "unknown session ended"
    return { v with sessions := v.sessions.erase session.sessionId }
  | .topicReset source generation _ => do
    let session ← v.source source
    check ((session.topics.get? source.topic).any fun old => decide (generation > old))
      "reset does not advance a known generation"
    return v.put source generation
  | .topicChanged topic => v.topic topic false
  | .event event => do
    let session ← v.source event.metadata.source
    check (session.topics.get? event.metadata.source.topic == some event.metadata.generation
        && event.metadata.sequence == v.sequence)
      "event has stale generation or sequence"
    return v

/-- The bootstrap has every selected topic of every session. -/
def complete (v : Validation) : Bool :=
  v.sessions.values.all fun session => session.topics.size ==
    (v.selection.topics.filter fun t => t.providerId == session.info.providerId).length

/-- The match of `Validation::accept`. -/
def take (item : SubscriptionItem) (v : Validation) : Except ClientError Validation :=
  match item with
  | .begin cursor => do
    check (!v.begun && identifier cursor.runId) "invalid or duplicate Begin"
    return { v with checkpoint := some cursor, sequence := cursor.sequence }
  | .session info => do
    check (v.begun && !v.ready) "Session outside bootstrap"
    v.addSession info
  | .topic topic => do
    check (v.begun && !v.ready) "Topic outside bootstrap"
    v.topic topic true
  | .snapshot _ => .error (.protocol "snapshot was not reconstructed")
  | .ready cursor => do
    check (!v.ready && v.checkpoint == some cursor) "invalid Ready checkpoint"
    check v.complete "bootstrap omitted a selected topic"
    return { v with ready := true }
  | .update envelope => do
    check (v.ready && v.checkpoint.any (fun c => c.runId == envelope.cursor.runId)
        && decide (envelope.cursor.sequence > v.sequence))
      "out-of-order update"
    { v with sequence := envelope.cursor.sequence }.update envelope.update
  | .closed _ => do
    check v.begun "Closed before Begin"
    return v

variable [Postcard]

/-- The metadata that the checker keeps. -/
def metadataBytes (v : Validation) : Nat := v.sessions.sum fun _ s => s.bytes

/-- `Validation::accept`. -/
def accept (v : Validation) (item : SubscriptionItem) : Except ClientError Validation := do
  let v ← v.take item
  check (decide (v.metadataBytes ≤ maxActiveMetadataBytes)) "active metadata exceeds byte limit"
  return v

/-- Items one after the other. -/
def acceptAll (items : List SubscriptionItem) (v : Validation) : Except ClientError Validation :=
  items.foldlM accept v

@[simp] theorem acceptAll_nil (v : Validation) : v.acceptAll [] = .ok v := rfl

theorem acceptAll_cons (item : SubscriptionItem) (items : List SubscriptionItem) (v : Validation) :
    v.acceptAll (item :: items) = (v.accept item).bind (acceptAll items) := rfl

theorem acceptAll_append (items items' : List SubscriptionItem) (v : Validation) :
    v.acceptAll (items ++ items') = (v.acceptAll items).bind (acceptAll items') :=
  List.foldlM_append

/-- Acceptance of an item is acceptance by the match and the bound on the metadata. -/
theorem accept_eq_ok {item : SubscriptionItem} {v v' : Validation} :
    v.accept item = .ok v' ↔ v.take item = .ok v' ∧ v'.metadataBytes ≤ maxActiveMetadataBytes := by
  unfold accept
  cases v.take item with
  | error e => simp [bind, Except.bind]
  | ok w =>
    by_cases hw : w.metadataBytes ≤ maxActiveMetadataBytes
    · simp only [bind, Except.bind, hw, decide_true, check_true, pure, Except.pure, Except.ok.injEq]
      constructor
      · rintro rfl; exact ⟨rfl, hw⟩
      · exact fun h => h.1
    · simp only [bind, Except.bind, hw, decide_false, check, Bool.false_eq_true, if_false,
        reduceCtorEq, Except.ok.injEq, false_iff, not_and]
      rintro rfl
      exact hw

/-! ## What every accepted item leaves -/

omit [Postcard] in
/-- A check in front of a computation. -/
theorem check_bind {α : Type} {condition : Bool} {message : String}
    {rest : Unit → Except ClientError α} {result : α} :
    (check condition message >>= rest) = .ok result ↔ condition = true ∧ rest () = .ok result := by
  cases condition <;> simp [check, bind, Except.bind]

omit [Postcard] in
theorem addSession_checkpoint {info : SessionInfo} {v v' : Validation}
    (h : v.addSession info = .ok v') : v'.checkpoint = v.checkpoint := by
  obtain ⟨-, h⟩ := check_bind.mp h
  cases h
  rfl

omit [Postcard] in
theorem topic_checkpoint {t : TopicSnapshot} {bootstrap : Bool} {v v' : Validation}
    (h : v.topic t bootstrap = .ok v') : v'.checkpoint = v.checkpoint := by
  unfold topic at h
  cases hs : v.source t.source with
  | error e => rw [hs] at h; cases h
  | ok session =>
    rw [hs] at h
    obtain ⟨-, h⟩ := check_bind.mp h
    obtain ⟨-, h⟩ := check_bind.mp h
    cases h
    rfl

omit [Postcard] in
theorem update_checkpoint {u : SubscriptionUpdate} {v v' : Validation}
    (h : v.update u = .ok v') : v'.checkpoint = v.checkpoint := by
  cases u with
  | sessionStarted info => exact addSession_checkpoint h
  | sessionChanged info =>
    obtain ⟨-, h⟩ := check_bind.mp h
    split at h
    · cases h
    · obtain ⟨-, h⟩ := check_bind.mp h
      cases h
      rfl
  | sessionEnded session reason =>
    obtain ⟨-, h⟩ := check_bind.mp h
    cases h
    rfl
  | topicReset source generation reason =>
    simp only [update] at h
    cases hs : v.source source with
    | error e => rw [hs] at h; cases h
    | ok session =>
      rw [hs] at h
      obtain ⟨-, h⟩ := check_bind.mp h
      cases h
      rfl
  | topicChanged t => exact topic_checkpoint h
  | event event =>
    simp only [update] at h
    cases hs : v.source event.metadata.source with
    | error e => rw [hs] at h; cases h
    | ok session =>
      rw [hs] at h
      obtain ⟨-, h⟩ := check_bind.mp h
      cases h
      rfl

omit [Postcard] in
/-- A stream that has begun stays so. -/
theorem take_begun {item : SubscriptionItem} {v v' : Validation} (h : v.take item = .ok v')
    (hb : v.begun = true) : v'.begun = true := by
  have key : v'.checkpoint = v.checkpoint → v'.begun = true := fun he => by rwa [begun, he]
  cases item with
  | begin cursor =>
    obtain ⟨hc, -⟩ := check_bind.mp h
    rw [hb] at hc
    cases hc
  | session info => exact key (addSession_checkpoint (check_bind.mp h).2)
  | topic t => exact key (topic_checkpoint (check_bind.mp h).2)
  | snapshot frame => cases h
  | ready cursor =>
    obtain ⟨-, h⟩ := check_bind.mp h
    obtain ⟨-, h⟩ := check_bind.mp h
    cases h
    exact hb
  | update envelope =>
    obtain ⟨-, h⟩ := check_bind.mp h
    have hcp := update_checkpoint h
    exact key hcp
  | closed reason =>
    obtain ⟨-, h⟩ := check_bind.mp h
    cases h
    exact hb

/-- What holds after every accepted item holds after a stream of them. -/
theorem acceptAll_invariant {I : Validation → Prop}
    (hstep : ∀ {item v v'}, v.accept item = .ok v' → I v → I v') {items : List SubscriptionItem}
    {v w : Validation} (h : v.acceptAll items = .ok w) (hv : I v) : I w := by
  induction items generalizing v with
  | nil => cases h; exact hv
  | cons item items ih =>
    rw [acceptAll_cons] at h
    cases ha : v.accept item with
    | error e => rw [ha] at h; cases h
    | ok v' => rw [ha] at h; exact ih h (hstep ha hv)

/-- After Begin the stream may end. -/
theorem accept_closed {cursor : ServiceCursor} {items : List SubscriptionItem} {v w : Validation}
    (h : v.acceptAll (.begin cursor :: items) = .ok w) (reason : SubscriptionEnd) :
    w.accept (.closed reason) = .ok w := by
  rw [acceptAll_cons] at h
  cases ha : v.accept (.begin cursor) with
  | error e => rw [ha] at h; cases h
  | ok v' =>
    rw [ha] at h
    obtain ⟨htake, hbytes⟩ := accept_eq_ok.mp ha
    have hbegun : v'.begun = true := by
      obtain ⟨-, htake⟩ := check_bind.mp htake
      cases htake
      rfl
    have hw := acceptAll_invariant
      (I := fun u => u.begun = true ∧ u.metadataBytes ≤ maxActiveMetadataBytes)
      (fun ha hu => ⟨take_begun (accept_eq_ok.mp ha).1 hu.1, (accept_eq_ok.mp ha).2⟩) h
      ⟨hbegun, hbytes⟩
    refine accept_eq_ok.mpr ⟨?_, hw.2⟩
    simp only [take, hw.1, check_true]
    rfl

theorem acceptAll_of_prefix {items items' : List SubscriptionItem} {v w : Validation}
    (h : v.acceptAll items' = .ok w) (hp : items <+: items') : ∃ w', v.acceptAll items = .ok w' := by
  obtain ⟨rest, rfl⟩ := hp
  rw [acceptAll_append] at h
  cases hv : v.acceptAll items with
  | error e => rw [hv] at h; cases h
  | ok w' => exact ⟨w', rfl⟩

end Validation

end Sdk
end WfObserver
