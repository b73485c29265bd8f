import WfObserver.Service.Catalog
import WfObserver.Service.Queue

/-!
# The locked service state (`service/inner.rs`)

`Inner` is the state under the service's mutex. Every operation holds the lock, so an operation is a
function on `Inner`; `Instant::now()` inside it is a parameter.

Beside the source's fields there are three of the model:

* `channels` holds the queue of each subscription by its id. The source shares a queue between the
  `Subscriber` and the handle by `Arc`, so a queue outlives its subscriber here too.
* `log` is the sequence of updates that `emit` has announced.
* `history` records the transitions of topics and sessions (`Mark`), in the order in which they
  happened. Nothing reads `log` or `history`; they are what the results about runs are stated with.

The loops over `values_mut` are `OrdMap.visit`: in key order, collecting updates, stopping where the
source closes the service and returns.
-/

namespace WfObserver
namespace Service

open Wire

structure Topic where
  state : TopicSnapshot
  demanded : Bool
  epoch : Nat
  deadline : Option Instant
  deriving DecidableEq, Repr

structure Session where
  info : SessionInfo
  topics : OrdMap TopicRef Topic
  deriving DecidableEq

/-- `subscriptions.rs`: the service's side of one subscription. -/
structure Subscriber where
  selection : Subscribe
  active : Bool
  deriving DecidableEq

/-- A transition of a session or of one of its topics. -/
inductive Mark where
  /-- `add_session`. -/
  | started (session : String)
  /-- The session is gone. -/
  | ended (session : String)
  /-- `settle` changed the demand of a topic. -/
  | toggled (session : String) (topic : TopicRef) (demanded : Bool)
  /-- `expire` passed a topic's freshness deadline. -/
  | expired (session : String) (topic : TopicRef)
  /-- `discard_poll` applied a source reset. -/
  | reset (session : String) (topic : TopicRef)
  /-- `discard_poll` made a topic unavailable. -/
  | failed (session : String) (topic : TopicRef)
  /-- `commit_poll` applied an operation of its batch. -/
  | applied (session : String) (op : Operation) (deadline : Instant)
  /-- The service closed. -/
  | closed
  deriving DecidableEq, Repr

/-- A transition with the update that announces it. -/
structure Change where
  mark : Mark
  update : SubscriptionUpdate
  deriving DecidableEq, Repr

structure Inner where
  catalog : Catalog
  messageBytes : Nat
  runId : String
  sequence : Nat := 0
  runtime : HostStatus := {}
  sessions : OrdMap String Session := ∅
  subscribers : OrdMap Nat Subscriber := ∅
  nextSubscription : Nat := 0
  revision : Nat := 0
  stopped : Bool := false
  channels : OrdMap Nat Channel := ∅
  log : List UpdateEnvelope := []
  history : List Mark := []

/-- `POLL_GRACE`. -/
def pollGrace : Duration := seconds 5

/-! ## Selection (`subscriptions.rs`) -/

namespace Subscriber

def matchesSession (s : Subscriber) (session : SessionRef) : Bool :=
  match s.selection.sessions with
  | .all => true
  | .session reference => reference == session

/-- `Subscriber::matches`. -/
def selects (s : Subscriber) (session : SessionRef) (topic : TopicRef) : Bool :=
  s.matchesSession session && s.selection.topics.contains topic

def matchesInfo (s : Subscriber) (info : SessionInfo) : Bool :=
  s.matchesSession info.session && s.selection.topics.any fun t => t.providerId == info.providerId

def matchesUpdate (s : Subscriber) (update : SubscriptionUpdate) : Bool :=
  match update with
  | .sessionStarted info | .sessionChanged info => s.matchesInfo info
  | .sessionEnded session _ => s.matchesSession session
  | .topicReset source _ _ => s.selects source.session source.topic
  | .topicChanged topic => s.selects topic.source.session topic.source.topic
  | .event event => s.selects event.metadata.source.session event.metadata.source.topic

end Subscriber

/-! ## Single topics -/

namespace Topic

/-- `close` on one topic. -/
def shut (t : Topic) : Topic :=
  { t with
    demanded := false
    state := { t.state with snapshot := none, health := .idle }
    deadline := none }

/-- The body of `settle`'s loop. The flag: a counter is exhausted. -/
def reconcile (session : String) (key : TopicRef) (demanded : Bool) (now : Instant) (t : Topic) :
    Topic × List Change × Bool :=
  if demanded == t.demanded then (t, [], false)
  else
    let t := { t with demanded }
    match checkedAdd t.epoch 1 with
    | none => (t, [], true)
    | some epoch =>
      let t :=
        { t with
          epoch
          state := { t.state with snapshot := none }
          deadline := if demanded then some (now + pollGrace) else none }
      if demanded then
        match checkedAdd t.state.generation 1 with
        | none => (t, [], true)
        | some generation =>
          let t := { t with state := { t.state with generation, health := .initializing } }
          (t, [⟨.toggled session key true, .topicReset t.state.source generation .demandResumed⟩],
            false)
      else
        let t := { t with state := { t.state with health := .idle } }
        (t, [⟨.toggled session key false, .topicChanged t.state⟩], false)

/-- The health of a topic whose freshness deadline has passed. -/
def overdue : CapabilityHealth := .unavailable (.providerFailed "sampling deadline exceeded")

/-- The body of `expire`'s loop. The flag: a counter is exhausted. -/
def lapse (session : String) (key : TopicRef) (now : Instant) (t : Topic) :
    Topic × List Change × Bool :=
  if t.deadline.any fun deadline => decide (now ≥ deadline) then
    let t := { t with deadline := none }
    match checkedAdd t.epoch 1 with
    | none => (t, [], true)
    | some epoch =>
      let t := { t with epoch, state := { t.state with snapshot := none, health := overdue } }
      (t, [⟨.expired session key, .topicChanged t.state⟩], false)
  else (t, [], false)

end Topic

namespace Inner

variable [Postcard]

/-! ## Counters, closing, emission -/

/-- Records transitions. -/
def record (marks : List Mark) (i : Inner) : Inner := { i with history := i.history ++ marks }

def cursor (i : Inner) : ServiceCursor := ⟨i.runId, i.sequence⟩

/-- The end of every subscription when a counter would overflow. -/
def exhausted : SubscriptionEnd := .resyncRequired .sequenceExhausted

/-- `close`. -/
def close (ending : SubscriptionEnd) (i : Inner) : Inner :=
  { i with
    stopped := true
    channels := i.channels.map fun id c =>
      if i.subscribers.contains id then c.finish ending true else c
    subscribers := ∅
    sessions := i.sessions.map fun _ s => { s with topics := s.topics.map fun _ t => t.shut }
    revision := saturatingAdd i.revision 1
    history := i.history ++ [.closed] }

/-- `ensure_sequences`. -/
def ensureSequences (count : Nat) (i : Inner) : Bool × Inner :=
  if i.stopped then (false, i)
  else if (checkedAdd i.sequence count).isNone then (false, i.close exhausted)
  else (true, i)

/-- `advance`. -/
def advance (i : Inner) : Bool × Inner :=
  if i.stopped then (false, i)
  else match checkedAdd i.sequence 1 with
    | some next => (true, { i with sequence := next })
    | none => (false, i.close exhausted)

/-- The session that a SessionEnded update names, if it is still there. -/
def endedInfo (update : SubscriptionUpdate) (i : Inner) : Option SessionInfo :=
  match update with
  | .sessionEnded session _ => (i.sessions.get? session.sessionId).map (·.info)
  | _ => none

/-- Whether `emit` offers the update to this subscriber. -/
def wants (update : SubscriptionUpdate) (i : Inner) (s : Subscriber) : Bool :=
  s.active && match i.endedInfo update with
    | some info => s.matchesInfo info
    | none => s.matchesUpdate update

/-- `emit`. The queues are independent, so the order of the offers is not observable. -/
def emit (update : SubscriptionUpdate) (i : Inner) : Inner :=
  match i.advance with
  | (false, i) => i
  | (true, i) =>
    let envelope : UpdateEnvelope := ⟨i.cursor, update⟩
    { i with
      channels := i.channels.map fun id c =>
        if (i.subscribers.get? id).any fun s => i.wants update s then c.offer (.update envelope)
        else c
      log := i.log ++ [envelope] }

/-- `for change in changes { self.emit(&change) }`. -/
def emitAll (updates : List SubscriptionUpdate) (i : Inner) : Inner :=
  updates.foldl (fun i update => i.emit update) i

/-! ## Demand -/

/-- `subscriber.queue.ended()`. -/
def endedChannel (id : Nat) (i : Inner) : Bool := (i.channels.get? id).any Channel.ended

/-- Some subscriber's queue has ended. -/
def lagging (i : Inner) : Bool := i.subscribers.any fun id _ => i.endedChannel id

/-- Whether some subscriber selects the topic. -/
def wanted (session : SessionRef) (key : TopicRef) (i : Inner) : Bool :=
  i.subscribers.any fun _ s => s.selects session key

/-- A loop over all topics of all sessions. -/
def pass (f : String → Session → TopicRef → Topic → Topic × List Change × Bool)
    (sessions : OrdMap String Session) : OrdMap String Session × List Change × Bool :=
  sessions.visit fun id session =>
    let topics := session.topics.visit (f id session)
    ({ session with topics := topics.1 }, topics.2)

/-- The pass of `settle`. -/
def reconcile (now : Instant) (i : Inner) : OrdMap String Session × List Change × Bool :=
  pass (fun id session key topic =>
    topic.reconcile id key (i.wanted session.info.session key) now) i.sessions

/-- Stores what a pass left and announces it; closes the service if the pass stopped. -/
def applyPass (pass : OrdMap String Session × List Change × Bool) (i : Inner) : Inner :=
  let i := { i with sessions := pass.1, history := i.history ++ pass.2.1.map Change.mark }
  if pass.2.2 then i.close exhausted
  else
    let i := if pass.2.1.isEmpty then i else { i with revision := saturatingAdd i.revision 1 }
    i.emitAll (pass.2.1.map Change.update)

/-- `subscribers.retain(|_, s| !s.queue.ended())`. -/
def retainLive (i : Inner) : Inner :=
  { i with subscribers := i.subscribers.filter fun id _ => !i.endedChannel id }

/-- One turn of `settle`'s loop. -/
def settleOnce (now : Instant) (i : Inner) : Inner :=
  let i := i.retainLive
  i.applyPass (i.reconcile now)

/-- `settle`'s loop with fuel; `none` is out of fuel. A closed service has no subscribers, so the
source's `return` after `close` is the loop's end. -/
def settleLoop : Nat → Instant → Inner → Option Inner
  | 0, _, _ => none
  | fuel + 1, now, i =>
    let i := i.settleOnce now
    if i.lagging then settleLoop fuel now i else some i

/-- `settle`. Every turn but the last removes a subscriber (`settleLoop_isSome`). -/
def settle (now : Instant) (i : Inner) : Inner :=
  (settleLoop (i.subscribers.size + 1) now i).getD i

/-- The pass of `expire`. -/
def lapse (now : Instant) (i : Inner) : OrdMap String Session × List Change × Bool :=
  pass (fun id _ key topic => topic.lapse id key now) i.sessions

/-- `expire`. -/
def expire (now : Instant) (i : Inner) : Inner :=
  let pass := i.lapse now
  let i := i.applyPass pass
  if pass.2.2 then i else i.settle now

/-! ## Lookups -/

/-- `capability`. -/
def capability (key : TopicRef) (i : Inner) : Except RequestError CapabilityDescriptor :=
  if !identifier key.providerId || !identifier key.topic || key.schemaVersion == 0 then
    .error (invalid "invalid topic selector")
  else match i.catalog.providers.find? fun p => p.id == key.providerId with
    | none => .error (.unknownProvider key.providerId)
    | some provider =>
      let supported := provider.capabilities.filter fun c => c.topic == key.topic
      if supported.isEmpty then .error (.unknownTopic key.providerId key.topic)
      else match supported.find? fun c => c.schemaVersion == key.schemaVersion with
        | some c => .ok c
        | none => .error (.unsupportedSchema key (supported.map (·.schemaVersion)))

/-- `session`. -/
def session (key : SessionRef) (i : Inner) : Except RequestError Session :=
  if !identifier key.runId || !identifier key.sessionId then
    .error (invalid "invalid session identity")
  else if key.runId ≠ i.runId then .error (.serviceRestarted i.runId)
  else match i.sessions.get? key.sessionId with
    | some s => .ok s
    | none => .error (.unknownSession key.sessionId)

/-! ## Lifecycle -/

/-- The sessions that a published status observes. -/
def incoming (status : HostStatus) (i : Inner) : OrdMap String SessionInfo :=
  .ofList <| status.targets.filterMap fun target =>
    match target.activity with
    | .observing sessionId => some (sessionId,
        { session := ⟨i.runId, sessionId⟩
          providerId := target.target.providerId
          gameId := target.target.gameId
          target := ⟨target.target.process.pid, target.target.executable⟩
          gameBuild := (i.sessions.get? sessionId).bind (·.info.gameBuild) })
    | _ => none

/-- The target that this session observed is now retrying. -/
def retrying (status : HostStatus) (id : String) (i : Inner) : Bool :=
  i.runtime.targets.any fun old =>
    old.activity == .observing id && status.targets.any fun new =>
      new.target == old.target && match new.activity with
        | .retrying _ => true
        | _ => false

/-- The body of `sync_runtime`'s loop over ended sessions. -/
def endSession (status : HostStatus) (i : Inner) (id : String) : Inner :=
  match i.sessions.get? id with
  | none => i
  | some s =>
    let i := i.emit (.sessionEnded s.info.session
      (if i.retrying status id then .providerFailed else .targetExited))
    let selected (s' : Subscriber) : Bool := s'.selection.sessions == .session s.info.session
    { i with
      sessions := i.sessions.erase id
      channels := i.channels.map fun id c =>
        if (i.subscribers.get? id).any selected then c.finish .sessionEnded false else c
      subscribers := i.subscribers.filter fun _ s' => !selected s'
      history := i.history ++ [.ended id] }

/-- The topic of a capability in a new session. -/
def newTopic (info : SessionInfo) (key : TopicRef) : Topic :=
  { state := ⟨⟨info.session, info.gameId, key⟩, 1, .idle, none⟩
    demanded := false
    epoch := 0
    deadline := none }

/-- The topics of a new session of this provider. -/
def newTopics (provider : ProviderDescriptor) (info : SessionInfo) : OrdMap TopicRef Topic :=
  .ofList <| provider.capabilities.map fun cap =>
    let key : TopicRef := ⟨provider.id, cap.topic, cap.schemaVersion⟩
    (key, newTopic info key)

/-- `add_session`. -/
def addSession (info : SessionInfo) (i : Inner) : Except RequestError Unit × Inner :=
  match i.catalog.providers.find? fun p => p.id == info.providerId with
  | none => (.error (invalid "unregistered session provider"), i)
  | some provider =>
    match i.ensureSequences (1 + provider.capabilities.length) with
    | (false, i) => (.ok (), i)
    | (true, i) =>
      let id := info.session.sessionId
      let i :=
        { i with
          sessions := i.sessions.insert id ⟨info, newTopics provider info⟩
          history := i.history ++ [Mark.started id] }
      let i := i.emit (.sessionStarted info)
      let topics := match i.sessions.get? id with
        | some s => s.topics.values.map Topic.state
        | none => []
      (.ok (), i.emitAll (topics.map .topicChanged))

/-- `sync_runtime`'s loop over observed sessions; an unregistered provider returns at once. -/
def addSessions : List (String × SessionInfo) → Inner → Except RequestError Unit × Inner
  | [], i => (.ok (), i)
  | (id, info) :: rest, i =>
    if i.sessions.contains id then addSessions rest i
    else match i.addSession info with
      | (.error e, i) => (.error e, i)
      | (.ok (), i) => addSessions rest i

/-- `sync_runtime`. -/
def syncRuntime (status : HostStatus) (now : Instant) (i : Inner) :
    Except RequestError Unit × Inner :=
  if i.stopped || i.runtime == status then (.ok (), i)
  else
    let incoming := i.incoming status
    let ended := i.sessions.keys.filter fun id => !incoming.contains id
    match addSessions incoming.entries (ended.foldl (endSession status) i) with
    | (.error e, i) => (.error e, i)
    | (.ok (), i) => (.ok (), ({ i with runtime := status }.advance.2).settle now)

end Inner

end Service
end WfObserver
