import WfObserver.Service.State

/-!
# The hosted session (`wf-observer-cli`, `provider_host/session.rs`)

`HostedSession` drives one attachment of a provider: it compares the service's demand with what it
remembers of the preceding poll, announces new topic generations to the provider, polls it, and
commits or discards what the poll staged. `PollTicket::current`, `commit_poll`, `discard_poll` and
`fail_poll` each take the service's lock on their own, so other threads can change the service
between them: `World` keeps the place in `HostedSession::poll` where the session is, and a `Move` is
one locked step of it or any operation of the service.

The provider is a parameter (`Provider`). What the operating system and the clock answer to one poll
are its `Answers`. `calls` and `previous` are not in the source: the calls that the provider has got,
and the preceding poll of the provider.
-/

namespace WfObserver
namespace Host

open Service
open Wire hiding CapabilityDescriptor
open ProviderSdk (CapabilityDescriptor PollResult ProviderError ProviderManifest)

/-- `MIN_POLL`. -/
def minPoll : Duration := milliseconds 25

/-- The range of `Instant`, which the platform chooses. -/
class Clock where
  limit : Instant

/-- `Instant::checked_add`. -/
def checkedAfter [Clock] (start : Instant) (delay : Duration) : Option Instant :=
  if start + delay ≤ Clock.limit then some (start + delay) else none

/-- A provider and its sessions, as the host sees them (`Provider`, `ProviderSession`). `σ` is the
state of a session, `μ` is what one poll can read of the process. -/
structure Provider [SerdeJson] (σ μ : Type) where
  manifest : ProviderManifest
  beginGeneration : CapabilityDescriptor → σ → σ
  poll : List CapabilityDescriptor → Duration → μ → PollBatch → σ →
    Except ProviderError PollResult × PollBatch × σ
  gameBuild : σ → Option String
  pollCompleted : Bool → σ → σ
  /-- A poll writes to the batch that it is given. -/
  staged : ∀ demand now memory batch s,
    (poll demand now memory batch s).2.1.manifest = batch.manifest

/-- A call of the provider. -/
inductive Call where
  | beginGeneration (cap : CapabilityDescriptor)
  | poll (demand : List CapabilityDescriptor)
  | pollCompleted (committed : Bool)
  deriving DecidableEq, Repr

structure HostedSession (σ : Type) where
  provider : σ
  started : Instant
  lastDemand : Option PollTicket := none
  generations : Option PollTicket := none
  nextPoll : Option Instant := none
  calls : List Call := []

/-- What the system answers to one poll. -/
structure Answers (μ : Type) where
  now : Instant
  /-- `memory.verify()` before the provider is polled. -/
  verified : Bool
  memory : μ
  /-- `memory.verify()` after the provider was polled. -/
  stillVerified : Bool
  /-- The clock after the provider was polled. -/
  ended : Instant

/-- Where a session is in `poll`. -/
inductive Place [SerdeJson] where
  /-- Not in `poll`; the last one returned `Ok(delay)`. -/
  | returned (delay : Option Duration)
  /-- Before `fail_poll`, after a failed verification. -/
  | failing (ticket : PollTicket)
  /-- Before `commit_poll`. -/
  | polled (ticket : PollTicket) (batch : PollBatch) (deadline ended : Instant)
  /-- Before `discard_poll`. -/
  | refused (ticket : PollTicket) (resets : List TopicRef) (failed : Bool) (ended : Instant)
  /-- `poll` has returned the error; the attachment is retired. -/
  | failed

/-- `deadlines`. -/
def deadlines [Clock] (schedule : PollResult) (ended : Instant) :
    Option (Option Instant × Instant) :=
  match schedule with
  | .after delay => do
    let next ← checkedAfter ended (max delay minPoll)
    let deadline ← checkedAfter next pollGrace
    return (some next, deadline)
  | .idle => do
    let deadline ← checkedAfter ended pollGrace
    return (none, deadline)

/-- The ticket's demand for a capability. -/
def demandOf (ticket : PollTicket) (cap : CapabilityDescriptor) : Option Demand :=
  ticket.topics.find? fun d => d.key.topic == cap.topic && d.key.schemaVersion == cap.schemaVersion

/-- The demanded capabilities. -/
def demanded (manifest : ProviderManifest) (ticket : PollTicket) : List CapabilityDescriptor :=
  manifest.capabilities.filter fun cap => (demandOf ticket cap).isSome

namespace HostedSession

variable {σ μ : Type}

/-- `HostedSession::start`. -/
def start (provider : σ) (started : Instant) : HostedSession σ := { provider, started }

/-- `changed`: the demand is not the one of the preceding poll. -/
def changed (ticket : PollTicket) (h : HostedSession σ) : Bool :=
  h.lastDemand.all fun previous => !ticket.sameDemand previous

/-- The poll returns at once. -/
def waits (ticket : PollTicket) (now : Instant) (h : HostedSession σ) : Bool :=
  !h.changed ticket && h.nextPoll.all fun deadline => decide (now < deadline)

/-- The capabilities that the poll calls `begin_generation` for. -/
def hooks (manifest : ProviderManifest) (ticket : PollTicket) (h : HostedSession σ) :
    List CapabilityDescriptor :=
  (demanded manifest ticket).filter fun cap =>
    match demandOf ticket cap with
    | none => false
    | some d => h.generations.all fun previous => !ticket.sameGeneration previous d.key

variable [SerdeJson] (P : Provider σ μ)

def beginGeneration (h : HostedSession σ) (cap : CapabilityDescriptor) : HostedSession σ :=
  { h with
    provider := P.beginGeneration cap h.provider
    calls := h.calls ++ [.beginGeneration cap] }

def pollCompleted (committed : Bool) (h : HostedSession σ) : HostedSession σ :=
  { h with
    provider := P.pollCompleted committed h.provider
    calls := h.calls ++ [.pollCompleted committed] }

/-- The call of the provider, with what it has staged: the batch gets the build after a successful
poll. -/
def pollProvider (demand : List CapabilityDescriptor) (a : Answers μ) (h : HostedSession σ) :
    Except ProviderError PollResult × PollBatch × HostedSession σ :=
  match P.poll demand (a.now - h.started) a.memory (PollBatch.new P.manifest) h.provider with
  | (result, batch, provider) =>
    let h := { h with provider, calls := h.calls ++ [.poll demand] }
    match result with
    | .error e => (.error e, batch, h)
    | .ok schedule =>
      match batch.gameBuild (P.gameBuild provider) with
      | (.error e, batch) => (.error e, batch, h)
      | (.ok (), batch) => (.ok schedule, batch, h)

/-- `poll` from the ticket to the next operation of the service. The last component is the batch, if
the provider was polled. -/
def attempt [Clock] (ticket : PollTicket) (a : Answers μ) (h : HostedSession σ) :
    HostedSession σ × Place × Option PollBatch :=
  if h.waits ticket a.now then (h, .returned (h.nextPoll.map fun deadline => deadline - a.now), none)
  else if !a.verified then (h, .failing ticket, none)
  else
    let told := (h.hooks P.manifest ticket).foldl (beginGeneration P) h
    match pollProvider P (demanded P.manifest ticket) a { told with generations := some ticket } with
    | (result, batch, h) =>
      if !a.stillVerified then (h.pollCompleted P false, .failing ticket, some batch)
      else
        let h := { h with lastDemand := some ticket }
        let ended := max a.ended a.now
        match result with
        | .error _ =>
          (h.pollCompleted P false, .refused ticket batch.resetIntents true ended, some batch)
        | .ok schedule =>
          match deadlines schedule ended with
          | none =>
            (h.pollCompleted P false, .refused ticket batch.resetIntents true ended, some batch)
          | some (nextPoll, deadline) =>
            ({ h with nextPoll }, .polled ticket batch deadline ended, some batch)

/-- What `poll` does when `commit_poll` has published the batch. -/
def committed (resets : List TopicRef) (h : HostedSession σ) : HostedSession σ :=
  { h with
    generations := h.generations.map (PollTicket.rebaseResets resets)
    lastDemand := h.lastDemand.map (PollTicket.rebaseResets resets) }.pollCompleted P true

omit [SerdeJson] in
/-- What `poll` does after `discard_poll`. -/
def discarded (retry : Option PollTicket) (ended : Instant) (h : HostedSession σ) :
    HostedSession σ :=
  { h with lastDemand := retry, nextPoll := some (ended + seconds 1) }

omit [SerdeJson] in
/-- What `poll` returns at the end. -/
def delay (ended : Instant) (h : HostedSession σ) : Option Duration :=
  h.nextPoll.map fun deadline => deadline - ended

end HostedSession

/-! ## The session beside the service -/

/-- A poll of the provider: the demand that it was started for, the resets that it staged, and
whether they were committed. -/
structure Turn where
  ticket : PollTicket
  resets : List TopicRef
  committed : Bool := false
  deriving DecidableEq, Repr

structure World [SerdeJson] (σ : Type) where
  sessionId : String
  session : HostedSession σ
  place : Place := .returned none
  service : Inner
  previous : Option Turn := none

inductive Move [SerdeJson] (μ : Type) where
  /-- Another thread uses the service. -/
  | service (op : Op)
  /-- `HostedSession::poll` up to its next operation of the service. -/
  | start (a : Answers μ)
  /-- `fail_poll`. -/
  | fail (now : Instant)
  /-- `commit_poll`. -/
  | commit (now : Instant)
  /-- `discard_poll`. -/
  | discard (now : Instant)

namespace World

variable {σ μ : Type} [SerdeJson] [Postcard] [Clock] (P : Provider σ μ)

/-- A poll starts. -/
def start (a : Answers μ) (w : World σ) : World σ :=
  match w.place with
  | .returned _ =>
    match PollTicket.current w.service w.sessionId with
    | none => { w with place := .returned none }
    | some ticket =>
      match w.session.attempt P ticket a with
      | (session, place, batch) =>
        { w with
          session
          place
          previous := (batch.map fun batch => ⟨ticket, batch.resetIntents, false⟩).or w.previous }
  | _ => w

omit [Clock] in
/-- `fail_poll`, and the end of the attachment. -/
def fail (now : Instant) (w : World σ) : World σ :=
  match w.place with
  | .failing ticket => { w with service := w.service.failPoll ticket now, place := .failed }
  | _ => w

omit [Clock] in
/-- `commit_poll`, and what follows up to the next operation of the service. -/
def commit (now : Instant) (w : World σ) : World σ :=
  match w.place with
  | .polled ticket batch deadline ended =>
    match w.service.commitPoll ticket batch deadline now with
    | (.ok true, service) =>
      let session := w.session.committed P batch.resetIntents
      { w with
        service
        session
        place := .returned (session.delay ended)
        previous := w.previous.map fun turn => { turn with committed := true } }
    | (.ok false, service) =>
      { w with
        service
        session := w.session.pollCompleted P false
        place := .refused ticket batch.resetIntents false ended }
    | (.error _, service) =>
      { w with
        service
        session := w.session.pollCompleted P false
        place := .refused ticket batch.resetIntents true ended }
  | _ => w

omit [Clock] in
/-- `discard_poll`, and the end of the poll. -/
def discard (now : Instant) (w : World σ) : World σ :=
  match w.place with
  | .refused ticket resets failed ended =>
    match w.service.discardPoll ticket resets failed now with
    | (retry, service) =>
      let session := w.session.discarded retry ended
      { w with service, session, place := .returned (session.delay ended) }
  | _ => w

def step (w : World σ) : Move μ → World σ
  | .service op => { w with service := Service.step w.service op }
  | .start a => w.start P a
  | .fail now => w.fail now
  | .commit now => w.commit P now
  | .discard now => w.discard now

/-- The world after a run. -/
def run (w : World σ) (moves : List (Move μ)) : World σ := moves.foldl (step P) w

end World

end Host
end WfObserver
