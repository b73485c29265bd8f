import WfObserver.Sdk.Listener
import WfObserver.Sdk.Peer

/-!
# Feeds and listeners (`wf-observer-sdk`, `subscription/feed.rs` and `manager.rs`)

A hub has the feeds of one client with the listeners on them. A move is one critical section of the
source. A feed's task folds one accepted item after the other; a change of the state reaches the
listeners at once, under the feed's lock, but an event reaches one listener after the other, with no
lock between them (`Move.deliver`). Other threads attach, detach and finish at any time, and
`Feed::finish` does not wait for the task.

`announced` is not in the source: every event that the feed has accepted.
-/

namespace WfObserver
namespace Sdk

open Wire

/-- A feed with its listeners. `delivering`: an event, and the listeners that it has still to reach. -/
structure SharedFeed where
  selection : Subscribe
  key : TopicRef
  validation : Validation
  feed : Feed := {}
  listeners : List Nat := []
  delivering : Option (EventEnvelope × List Nat) := none
  stopped : Bool := false
  terminal : Option (Except ListenerError SubscriptionEnd) := none
  announced : List EventEnvelope := []

/-- The feeds and the listeners of one client. -/
structure Hub where
  feeds : OrdMap Nat SharedFeed := ∅
  listeners : OrdMap Nat Listener := ∅

namespace SharedFeed

/-- `Feed::new` for one topic, as `Manager::subscribe` makes it. -/
def new (sessions : SessionSelector) (key : TopicRef) : SharedFeed where
  selection := ⟨sessions, [key]⟩
  key
  validation := .new ⟨sessions, [key]⟩

/-- The feed's part of `Feed::detach`. -/
def detach (listener : Nat) (f : SharedFeed) : SharedFeed :=
  let listeners := f.listeners.filter (· ≠ listener)
  if listeners.isEmpty then
    { f with listeners, stopped := true, feed := { f.feed with current := {} } }
  else { f with listeners }

/-- The feed's part of `Feed::finish`. -/
def finish (terminal : Except ListenerError SubscriptionEnd) (f : SharedFeed) : SharedFeed :=
  { f with stopped := true, feed := { f.feed with current := {} }, terminal := some terminal }

/-- The feed between its two streams: nothing is kept, and a new reader starts. -/
def restart (f : SharedFeed) : SharedFeed :=
  { f with feed := {}, validation := .new f.selection }

end SharedFeed

/-- `Feed::publish_state`, when the feed is ready. -/
def publishState (f : SharedFeed) (listeners : OrdMap Nat Listener) : OrdMap Nat Listener :=
  if f.feed.ready then
    listeners.map fun id l => if id ∈ f.listeners then l.state f.key f.feed.current else l
  else listeners

inductive Move where
  /-- `Listener::new`. -/
  | listen (listener : Nat) (receiveEvents : Bool)
  /-- `Feed::new` with the task that receives its items. -/
  | start (feed : Nat) (sessions : SessionSelector) (key : TopicRef)
  | attach (feed listener : Nat)
  | detach (feed listener : Nat)
  /-- The task folds one item of the stream. -/
  | receive (feed : Nat) (item : SubscriptionItem)
  /-- The task brings the event to the next listener. -/
  | deliver (feed : Nat)
  /-- The task drops the state and asks for a stream without deltas. -/
  | resync (feed : Nat)
  | finishFeed (feed : Nat) (terminal : Except ListenerError SubscriptionEnd)
  | finish (listener : Nat) (terminal : Terminal)
  | next (listener : Nat)

namespace Hub

/-- `Feed::attach`. -/
def attach (feed listener : Nat) (h : Hub) : Hub :=
  match h.feeds.get? feed with
  | none => h
  | some f =>
    if f.stopped then h
    else {
      feeds := h.feeds.insert feed { f with listeners := f.listeners ++ [listener] }
      listeners := if f.feed.ready then
          h.listeners.modify listener (Listener.state f.key f.feed.current)
        else h.listeners }

variable [Postcard]

/-- The match of `receive_once`, for an item that the reader accepts while the task is free. -/
def receive (feed : Nat) (item : SubscriptionItem) (h : Hub) : Hub :=
  match h.feeds.get? feed with
  | none => h
  | some f =>
    match f.delivering, f.validation.accept item, f.feed.receive item with
    | none, .ok validation, .ok state =>
      match item with
      | .begin _ => { h with feeds := h.feeds.insert feed { f with validation, feed := state } }
      | .update ⟨_, .event event⟩ =>
        { h with
          feeds := h.feeds.insert feed { f with
            validation
            feed := state
            delivering := some (event, f.listeners)
            announced := f.announced ++ [event] } }
      | _ => {
          feeds := h.feeds.insert feed { f with validation, feed := state }
          listeners := publishState { f with validation, feed := state } h.listeners }
    | _, _, _ => h

omit [Postcard] in
/-- The call of `Listener::event` for one more listener. -/
def deliver [PostcardEvent] (budget feed : Nat) (h : Hub) : Hub :=
  match h.feeds.get? feed with
  | none => h
  | some f =>
    match f.delivering with
    | none => h
    | some (_, []) => { h with feeds := h.feeds.insert feed { f with delivering := none } }
    | some (event, listener :: rest) => {
        feeds := h.feeds.insert feed { f with delivering := some (event, rest) }
        listeners := h.listeners.modify listener (Listener.event budget event) }

omit [Postcard] in
/-- The error path of `Feed::receive`. -/
def resync (feed : Nat) (h : Hub) : Hub :=
  match h.feeds.get? feed with
  | none => h
  | some f =>
    if f.delivering.isSome then h
    else {
      feeds := h.feeds.insert feed f.restart
      listeners := publishState { f with feed := { f.feed with current := {} } } h.listeners }

variable [PostcardEvent]

def step (budget : Nat) (h : Hub) (m : Move) : Hub :=
  match m with
  | .listen listener receiveEvents =>
    if h.listeners.contains listener then h
    else { h with listeners := h.listeners.insert listener { receiveEvents } }
  | .start feed sessions key =>
    if h.feeds.contains feed then h
    else { h with feeds := h.feeds.insert feed (.new sessions key) }
  | .attach feed listener => h.attach feed listener
  | .detach feed listener => { h with feeds := h.feeds.modify feed (.detach listener) }
  | .receive feed item => h.receive feed item
  | .deliver feed => h.deliver budget feed
  | .resync feed => h.resync feed
  | .finishFeed feed terminal => { h with feeds := h.feeds.modify feed (.finish terminal) }
  | .finish listener terminal => { h with listeners := h.listeners.modify listener (.finish terminal) }
  | .next listener => { h with listeners := h.listeners.modify listener .next }

def run (budget : Nat) (h : Hub) (moves : List Move) : Hub := moves.foldl (step budget) h

end Hub

/-- What the callers keep to: a listener is attached to one feed for each topic, and leaves a feed
after it was closed. -/
def Move.Lawful (h : Hub) : Move → Prop
  | .attach feed listener => h.listeners.contains listener = true ∧
      ∀ f g other, h.feeds.get? feed = some f → h.feeds.get? other = some g → g.key = f.key →
        listener ∉ g.listeners
  | .detach _ listener => ∀ l, h.listeners.get? listener = some l → l.closed = true
  | _ => True

/-- The item changes the state of the feed that folds it, and makes it known. -/
def Publishes : SubscriptionItem → Bool
  | .begin _ | .update ⟨_, .event _⟩ => false
  | _ => true

/-- The task folds no item into a feed that was finished, but for one that leaves its state. -/
def Move.Live (h : Hub) : Move → Prop
  | .receive feed item => Publishes item = true →
      ∀ f, h.feeds.get? feed = some f → f.terminal = none
  | _ => True

end Sdk
end WfObserver
