import WfObserver.Service.Publication

/-!
# Subscriptions (`service/subscriptions.rs`)

`subscribe` registers an inactive subscriber, settles the demand that it adds, captures a bootstrap
and activates it, all under one lock. `Instant::now()` is read up to three times; `Readings` holds
the values.
-/

namespace WfObserver
namespace Service

open Wire

/-- The clock readings of one `subscribe`. -/
structure Readings where
  expire : Instant
  settle : Instant
  undo : Instant
  deriving DecidableEq, Repr

namespace Inner

variable [Postcard]

/-- The closure `push` of `capture`, on the frames and their bytes so far. -/
def push (i : Inner) (frame : SubscriptionItem) (frames : List SubscriptionItem × Nat) :
    Except RequestError (List SubscriptionItem × Nat) :=
  match messageFits (Postcard.item frame) i.messageBytes with
  | .error e => .error e
  | .ok () =>
    match Postcard.item frame with
    | none => .error (invalid "bootstrap encoding failed")
    | some size =>
      match checkedAdd frames.2 size with
      | none => .error (limit .initialBytes)
      | some bytes =>
        if bytes > retainedSnapshotBytes then .error (limit .initialBytes)
        else .ok (frames.1 ++ [frame], bytes)

def pushAll (i : Inner) :
    List SubscriptionItem → List SubscriptionItem × Nat →
      Except RequestError (List SubscriptionItem × Nat)
  | [], frames => .ok frames
  | frame :: rest, frames =>
    match i.push frame frames with
    | .error e => .error e
    | .ok frames => pushAll i rest frames

/-- The frames of one matching session. -/
def sessionFrames (s : Subscriber) (session : Session) : List SubscriptionItem :=
  .session session.info :: (session.topics.values.filter fun t =>
    s.selects t.state.source.session t.state.source.topic).map fun t => .topic t.state

/-- The frames between Begin and Ready. -/
def frames (s : Subscriber) (i : Inner) : List SubscriptionItem :=
  (i.sessions.values.filter fun session => s.matchesInfo session.info).flatMap (sessionFrames s)

/-- `capture`. -/
def capture (id : Nat) (i : Inner) : Except RequestError (List SubscriptionItem) :=
  match i.pushAll [.begin i.cursor] ([], 0) with
  | .error e => .error e
  | .ok begun =>
    match i.subscribers.get? id with
    | none => .error (invalid "subscription closed during setup")
    | some s => (i.pushAll (i.frames s ++ [.ready i.cursor]) begun).map (·.1)

/-- The loop of `subscribe` over the selected topics. -/
def checkTopics (sessions : SessionSelector) (i : Inner) : List TopicRef → Except RequestError Unit
  | [] => .ok ()
  | topic :: topics =>
    match i.capability topic with
    | .error e => .error e
    | .ok _ =>
      match sessions with
      | .all => checkTopics sessions i topics
      | .session reference =>
        match i.session reference with
        | .error e => .error e
        | .ok session =>
          if session.info.providerId ≠ topic.providerId then
            .error (invalid "topic does not belong to session")
          else checkTopics sessions i topics

/-- What `subscribe` checks of a normal selection. -/
def checkSelection (selection : Subscribe) (i : Inner) : Except RequestError Unit :=
  match selection.sessions with
  | .all => i.checkTopics selection.sessions selection.topics
  | .session reference =>
    match i.session reference with
    | .error e => .error e
    | .ok _ => i.checkTopics selection.sessions selection.topics

/-- The registration of a new, inactive subscriber with its empty queue. -/
def register (id : Nat) (request : Subscribe) (pace : Nat → Nat) (i : Inner) : Inner :=
  { i with
    nextSubscription := id
    subscribers := i.subscribers.insert id ⟨request.normal, false⟩
    channels := i.channels.insert id
      { selection := request, queue := Queue.new i.messageBytes, pace } }

/-- The subscriber starts with its bootstrap. -/
def activate (id : Nat) (frames : List SubscriptionItem) (i : Inner) : Inner :=
  { i with
    channels := i.channels.modify id fun c => { c with queue := c.queue.setInitial frames }
    subscribers := i.subscribers.modify id fun s => { s with active := true } }

/-- A failed `subscribe` returns no handle, so the queue is gone too. -/
def unregister (id : Nat) (i : Inner) : Inner :=
  { i with subscribers := i.subscribers.erase id, channels := i.channels.erase id }

/-- `ServiceView::subscribe`; the result is the id of the subscription. -/
def subscribe (request : Subscribe) (clock : Readings) (pace : Nat → Nat) (i : Inner) :
    Except RequestError Nat × Inner :=
  match messageFits (Postcard.subscribe request) i.messageBytes with
  | .error e => (.error e, i)
  | .ok () =>
    let selection := request.normal
    let i := i.expire clock.expire
    if i.stopped then (.error (invalid "service stopped"), i)
    else if selection.topics.isEmpty then (.error (invalid "empty topic selection"), i)
    else match i.checkSelection selection with
      | .error e => (.error e, i)
      | .ok () =>
        match checkedAdd i.nextSubscription 1 with
        | none => (.error (invalid "subscription identity exhausted"), i)
        | some id =>
          let i := (i.register id request pace).settle clock.settle
          match i.capture id with
          | .ok frames => (.ok id, i.activate id frames)
          | .error e => (.error e, (i.unregister id).settle clock.undo)

/-- `Subscription::drop`. -/
def drop (id : Nat) (now : Instant) (i : Inner) : Inner :=
  { i with subscribers := i.subscribers.erase id }.settle now

omit [Postcard] in
/-- `Subscription::next` by the consumer of one subscription. -/
def pop (id : Nat) (i : Inner) : Inner :=
  { i with channels := i.channels.modify id fun c => c.next }

end Inner

end Service
end WfObserver
