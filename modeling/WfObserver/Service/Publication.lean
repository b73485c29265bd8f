import WfObserver.Service.Inner

/-!
# Generation-fenced publication (`service/publication.rs`)

A `PollTicket` records the demand a poll was started for. `commitPoll` publishes a poll's batch if
every topic of the ticket still has the recorded generation and epoch; `discardPoll` keeps only the
source resets of a poll whose data cannot be published.

`StagedPublication` is the copy of the touched topics on which a batch is tried out (`prepare`) and
checked (`validate`) before `commit` stores it.
-/

namespace WfObserver
namespace Service

open Wire

/-- `RETAINED_SNAPSHOT_BYTES`. -/
def retainedSnapshotBytes : Nat := 32 * 1024 * 1024

structure Demand where
  key : TopicRef
  generation : Nat
  epoch : Nat
  deriving DecidableEq, Repr

structure PollTicket where
  sessionId : String
  topics : List Demand
  deriving DecidableEq, Repr

namespace PollTicket

/-- `PollTicket::same_demand`: epochs do not count. -/
def sameDemand (ticket previous : PollTicket) : Bool :=
  ticket.sessionId == previous.sessionId
    && ticket.topics.length == previous.topics.length
    && (ticket.topics.zip previous.topics).all fun (a, b) =>
      a.key == b.key && a.generation == b.generation

/-- `self.topics.iter().find(|d| &d.key == key)`. -/
def find? (ticket : PollTicket) (key : TopicRef) : Option Demand :=
  ticket.topics.find? fun d => d.key == key

/-- `PollTicket::same_generation`. -/
def sameGeneration (ticket previous : PollTicket) (key : TopicRef) : Bool :=
  match ticket.find? key, previous.find? key with
  | some a, some b => a.generation == b.generation
  | _, _ => false

/-- `PollTicket::rebase_resets`. -/
def rebaseResets (resets : List TopicRef) (ticket : PollTicket) : PollTicket :=
  { ticket with
    topics := ticket.topics.map fun d =>
      if resets.contains d.key then
        { d with
          generation := saturatingAdd d.generation 1
          epoch := saturatingAdd d.epoch 1 }
      else d }

/-- The demand of a session's topics. -/
def demands (topics : OrdMap TopicRef Topic) : List Demand :=
  (topics.filter fun _ t => t.demanded).entries.map fun e => ⟨e.1, e.2.state.generation, e.2.epoch⟩

/-- `PollTicket::current`. -/
def current (i : Inner) (sessionId : String) : Option PollTicket :=
  if i.stopped then none
  else (i.sessions.get? sessionId).map fun session => ⟨sessionId, demands session.topics⟩

/-- `retry.topics.iter_mut().find(|d| &d.key == key)` is set to what the reset made. -/
def rebase (key : TopicRef) (generation epoch : Nat) (ticket : PollTicket) : PollTicket :=
  { ticket with
    topics := ticket.topics.modify (ticket.topics.findIdx fun d => d.key == key)
      fun d => { d with generation, epoch } }

end PollTicket

/-! ## Discarding a poll -/

/-- The health of a topic whose poll was discarded. -/
def discarded : CapabilityHealth :=
  .unavailable (.providerFailed "provider acquisition failed; see local service logs")

namespace Topic

/-- The body of `discard_poll`'s loop over the affected topics. -/
def discard (session : String) (key : TopicRef) (reset : Bool) (t : Topic) : Topic × List Change :=
  let t :=
    if reset then
      { t with
        state := { t.state with generation := t.state.generation + 1 }
        epoch := t.epoch + 1 }
    else t
  let announced :=
    if reset then
      [⟨.reset session key, .topicReset t.state.source t.state.generation .sourceChanged⟩]
    else []
  let t := { t with state := { t.state with health := discarded, snapshot := none }, deadline := none }
  (t, announced ++ [⟨.failed session key, .topicChanged t.state⟩])

/-- The next reset would overflow a counter of the topic. -/
def spent (t : Topic) : Bool := t.state.generation == u64Max || t.epoch == u64Max

end Topic

/-- Whether `discard_poll` touches the topic of a demand, and whether it resets it. -/
def Demand.affected (topics : OrdMap TopicRef Topic) (resets : List TopicRef) (failed : Bool)
    (demand : Demand) : Option (TopicRef × Bool) :=
  match topics.get? demand.key with
  | none => none
  | some topic =>
    if !topic.demanded || topic.state.generation ≠ demand.generation then none
    else
      let reset := resets.contains demand.key
      if reset || (failed && topic.epoch == demand.epoch) then some (demand.key, reset) else none

namespace Inner

variable [Postcard]

/-- `affected` of `discard_poll`. -/
def affected (ticket : PollTicket) (resets : List TopicRef) (failed : Bool) (session : Session) :
    OrdMap TopicRef Bool :=
  .ofList <| ticket.topics.filterMap fun d => d.affected session.topics resets failed

/-- The loop of `discard_poll` over the affected topics. -/
def discardTopics (sessionId : String) (affected : OrdMap TopicRef Bool) (session : Session) :
    OrdMap TopicRef Topic × List Change × Bool :=
  session.topics.visit fun key topic =>
    match affected.get? key with
    | none => (topic, [], false)
    | some reset =>
      let (topic, changes) := topic.discard sessionId key reset
      (topic, changes, false)

/-- The ticket after the loop of `discard_poll`. -/
def retry (ticket : PollTicket) (affected : OrdMap TopicRef Bool) (session : Session) :
    PollTicket :=
  affected.entries.foldl
    (fun retry e =>
      match e.2, session.topics.get? e.1 with
      | true, some topic => retry.rebase e.1 (topic.state.generation + 1) (topic.epoch + 1)
      | _, _ => retry)
    ticket

/-- `discard_poll`. -/
def discardPoll (ticket : PollTicket) (resets : List TopicRef) (failed : Bool) (now : Instant)
    (i : Inner) : Option PollTicket × Inner :=
  if i.stopped then (none, i)
  else match i.sessions.get? ticket.sessionId with
    | none => (none, i)
    | some session =>
      let affected := affected ticket resets failed session
      if affected.any fun key reset => reset && (session.topics.get? key).any Topic.spent then
        (none, i.close exhausted)
      else
        let updates := affected.size + (affected.filter fun _ reset => reset).size
        match i.ensureSequences updates with
        | (false, i) => (none, i)
        | (true, i) =>
          let (topics, changes, _) := discardTopics ticket.sessionId affected session
          let i :=
            { i with
              sessions := i.sessions.modify ticket.sessionId fun s => { s with topics }
              history := i.history ++ changes.map Change.mark }
          let i := (i.emitAll (changes.map Change.update)).settle now
          (match PollTicket.current i ticket.sessionId with
            | none => none
            | some current =>
              if current.sameDemand (retry ticket affected session) then some current else none, i)

/-- `fail_poll`. -/
def failPoll (ticket : PollTicket) (now : Instant) (i : Inner) : Inner :=
  (i.discardPoll ticket [] true now).2

/-! ## Committing a poll -/

/-- `update_fits`. -/
def updateFits (i : Inner) (update : SubscriptionUpdate) : Except RequestError Unit :=
  messageFits (Postcard.item (.update ⟨⟨i.runId, u64Max⟩, update⟩)) i.messageBytes

/-- The total size of the snapshots of some topics. -/
def snapshotBytes (topics : List Topic) : Nat :=
  (topics.filterMap fun t => t.state.snapshot.map fun s => s.payload.len).sum

end Inner

structure StagedPublication where
  topics : OrdMap TopicRef Topic := ∅
  resets : List TopicRef := []
  events : List (TopicRef × JsonPayload) := []

namespace StagedPublication

/-- The error for an operation that the ticket does not cover. -/
def undemanded : RequestError := invalid "publication for undemanded topic"

/-- What one operation does to the staged copy of its topic. -/
def stageTopic (deadline : Instant) (op : Operation) (topic : Topic) : Except RequestError Topic :=
  match op with
  | .reset _ =>
    match checkedAdd topic.state.generation 1 with
    | none => .error (invalid "topic generation exhausted")
    | some generation =>
      match checkedAdd topic.epoch 1 with
      | none => .error (invalid "topic epoch exhausted")
      | some epoch => .ok
        { topic with
          state := { topic.state with generation, snapshot := none, health := .initializing }
          epoch
          deadline := some deadline }
  | .snapshot _ payload => .ok
    { topic with
      state :=
        { topic.state with
          health := .available
          snapshot := some ⟨⟨topic.state.source, topic.state.generation, 0⟩, payload⟩ }
      deadline := some deadline }
  | .event _ _ => .ok topic
  | .health _ health => .ok
    { topic with
      deadline := if health = .available then some deadline else none
      state :=
        { topic.state with
          health
          snapshot := if health = .available then topic.state.snapshot else none } }

/-- What one operation does to the staged resets. -/
def stageResets (op : Operation) (resets : List TopicRef) : List TopicRef :=
  match op with
  | .reset key => resets ++ [key]
  | _ => resets

/-- What one operation does to the staged events: a reset drops the earlier ones of its topic. -/
def stageEvents (op : Operation) (events : List (TopicRef × JsonPayload)) :
    List (TopicRef × JsonPayload) :=
  match op with
  | .reset key => events.filter fun e => e.1 ≠ key
  | .event key payload => events ++ [(key, payload)]
  | _ => events

/-- The body of `prepare`'s loop. -/
def stage (session : Session) (ticket : PollTicket) (deadline : Instant)
    (staged : StagedPublication) (op : Operation) : Except RequestError StagedPublication :=
  if !ticket.topics.any fun d => d.key == op.key then .error undemanded
  else match session.topics.get? op.key with
    | none => .error undemanded
    | some current =>
      match stageTopic deadline op ((staged.topics.get? op.key).getD current) with
      | .error e => .error e
      | .ok topic => .ok
        { topics := staged.topics.insert op.key topic
          resets := stageResets op staged.resets
          events := stageEvents op staged.events }

/-- `StagedPublication::prepare`. -/
def prepare (session : Session) (ticket : PollTicket) (deadline : Instant) :
    StagedPublication → List Operation → Except RequestError StagedPublication
  | staged, [] => .ok staged
  | staged, op :: ops =>
    match stage session ticket deadline staged op with
    | .error e => .error e
    | .ok staged => prepare session ticket deadline staged ops

variable [Postcard]

/-- The first loop of `validate`. -/
def validateTopics (i : Inner) : List (TopicRef × Topic) → Except RequestError Unit
  | [] => .ok ()
  | (key, topic) :: rest =>
    match i.capability key with
    | .error e => .error e
    | .ok cap =>
      if topic.state.health = .available ∧ cap.snapshots ∧ topic.state.snapshot.isNone then
        .error (invalid "available snapshot capability has no snapshot")
      else
        -- Checked at the largest sequence that the snapshot could get.
        let state := { topic.state with
          snapshot := topic.state.snapshot.map fun s =>
            { s with metadata := { s.metadata with sequence := u64Max } } }
        match i.updateFits (.topicChanged state) with
        | .error e => .error e
        | .ok () => validateTopics i rest

/-- The second loop of `validate`. An event's topic is always staged (`Prepared.event_staged`). -/
def validateEvents (i : Inner) (topics : OrdMap TopicRef Topic) :
    List (TopicRef × JsonPayload) → Except RequestError Unit
  | [] => .ok ()
  | (key, payload) :: rest =>
    match topics.get? key with
    | none => validateEvents i topics rest
    | some topic =>
      if topic.state.health ≠ .available then
        .error (invalid "event published by unavailable capability")
      else match i.updateFits
          (.event ⟨⟨topic.state.source, topic.state.generation, u64Max⟩, payload⟩) with
        | .error e => .error e
        | .ok () => validateEvents i topics rest

/-- `StagedPublication::validate`. -/
def validate (i : Inner) (session : Session) (staged : StagedPublication) :
    Except RequestError Unit :=
  match validateTopics i staged.topics.entries with
  | .error e => .error e
  | .ok () =>
    match validateEvents i staged.topics staged.events with
    | .error e => .error e
    | .ok () =>
      let retained := Inner.snapshotBytes (i.sessions.values.flatMap fun s => s.topics.values)
      let oldBytes := Inner.snapshotBytes (staged.topics.keys.filterMap session.topics.get?)
      let newBytes := Inner.snapshotBytes staged.topics.values
      if retained - oldBytes + newBytes > retainedSnapshotBytes then
        .error (limit .retainedSnapshotBytes)
      else .ok ()

/-- The first loop of `commit`. -/
def commitReset (staged : StagedPublication) (i : Inner) (key : TopicRef) : Inner :=
  match staged.topics.get? key with
  | none => i
  | some topic => i.emit (.topicReset topic.state.source topic.state.generation .sourceChanged)

/-- The visible state of a topic differs: the envelope's sequence does not count. -/
def changed (old new : TopicSnapshot) : Bool :=
  old.generation != new.generation || old.health != new.health
    || old.snapshot.map (·.payload) != new.snapshot.map (·.payload)

/-- The topic as `commit` stores it: a changed one is published at `sequence`, an unchanged one
keeps its envelope. -/
def settled (old : TopicSnapshot) (sequence : Nat) (topic : Topic) : Topic :=
  { topic with
    state := { topic.state with
      snapshot :=
        if changed old topic.state then
          topic.state.snapshot.map fun s => { s with metadata := { s.metadata with sequence } }
        else old.snapshot } }

/-- The second loop of `commit`. -/
def commitTopic (sessionId : String) (i : Inner) (e : TopicRef × Topic) : Inner :=
  match (i.sessions.get? sessionId).bind fun s => s.topics.get? e.1 with
  | none => i
  | some old =>
    let topic := settled old.state (i.sequence + 1) e.2
    let i := { i with
      sessions := i.sessions.modify sessionId fun s => { s with topics := s.topics.insert e.1 topic } }
    if changed old.state e.2.state then i.emit (.topicChanged topic.state) else i

/-- The third loop of `commit`. -/
def commitEvent (sessionId : String) (i : Inner) (e : TopicRef × JsonPayload) : Inner :=
  match (i.sessions.get? sessionId).bind fun s => s.topics.get? e.1 with
  | none => i
  | some topic =>
    i.emit (.event ⟨⟨topic.state.source, topic.state.generation, i.sequence + 1⟩, e.2⟩)

/-- `StagedPublication::commit`. -/
def commit (ticket : PollTicket) (staged : StagedPublication) (i : Inner) : Inner :=
  let i := staged.resets.foldl staged.commitReset i
  let i := staged.topics.entries.foldl (commitTopic ticket.sessionId) i
  staged.events.foldl (commitEvent ticket.sessionId) i

/-- The sequences that `commit` needs at most. -/
def updates (staged : StagedPublication) : Nat :=
  staged.resets.length + staged.topics.size + staged.events.length

end StagedPublication

namespace Inner

variable [Postcard]

/-- A topic of the ticket is gone, not demanded, or no longer at the recorded counters. -/
def stale (ticket : PollTicket) (session : Session) : Bool :=
  ticket.topics.any fun d =>
    match session.topics.get? d.key with
    | none => true
    | some t => !t.demanded || t.state.generation ≠ d.generation || t.epoch ≠ d.epoch

/-- The metadata that a batch changes. -/
def metadata (session : Session) (pending : Pending) : Option SessionInfo :=
  if pending.gameBuild ≠ session.info.gameBuild then
    some { session.info with gameBuild := pending.gameBuild }
  else none

/-- Everything `commit_poll` checks before it reserves sequences. -/
def checkPoll (ticket : PollTicket) (pending : Pending) (deadline : Instant) (session : Session)
    (i : Inner) : Except RequestError StagedPublication :=
  match StagedPublication.prepare session ticket deadline {} pending.ops with
  | .error e => .error e
  | .ok staged =>
    match staged.validate i session with
    | .error e => .error e
    | .ok () =>
      match metadata session pending with
      | none => .ok staged
      | some info =>
        match i.updateFits (.sessionChanged info) with
        | .error e => .error e
        | .ok () => .ok staged

/-- Stores and announces the session's new metadata, if it changed. -/
def changeMetadata (sessionId : String) (metadata : Option SessionInfo) (i : Inner) : Inner :=
  match metadata with
  | none => i
  | some info =>
    { i with sessions := i.sessions.modify sessionId fun s => { s with info } }.emit
      (.sessionChanged info)

/-- The transaction of `commit_poll`, after all checks. -/
def transact (ticket : PollTicket) (pending : Pending) (session : Session)
    (staged : StagedPublication) (i : Inner) : Inner :=
  staged.commit ticket (i.changeMetadata ticket.sessionId (metadata session pending))

/-- `commit_poll`. -/
def commitPoll [SerdeJson] (ticket : PollTicket) (batch : PollBatch) (deadline now : Instant)
    (i : Inner) : Except RequestError Bool × Inner :=
  let pending := batch.pending
  if pending.failed then (.error (invalid "provider ignored rejected publication"), i)
  else if i.stopped then (.ok false, i)
  else match i.sessions.get? ticket.sessionId with
    | none => (.ok false, i)
    | some session =>
      if stale ticket session then (.ok false, i)
      else if pending.ops.any fun op =>
          op.resetKey?.any fun key => (session.topics.get? key).any Topic.spent then
        (.ok false, i.close exhausted)
      else match i.checkPoll ticket pending deadline session with
        | .error e => (.error e, i)
        | .ok staged =>
          match i.ensureSequences
              (staged.updates + if (metadata session pending).isSome then 1 else 0) with
          | (false, i) => (.ok false, i)
          | (true, i) =>
            let i := i.record (pending.ops.map (Mark.applied ticket.sessionId · deadline))
            (.ok true, (i.transact ticket pending session staged).settle now)

end Inner

end Service
end WfObserver
