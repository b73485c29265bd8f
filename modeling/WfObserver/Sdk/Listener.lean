import WfObserver.Sdk.Feed

/-!
# The SDK's listeners (`wf-observer-sdk`, `subscription/listener.rs`)

A listener keeps the latest state of each of its feeds, whether it has changed since `next` last
returned it, and the events that `next` has still to return, with their sizes. A new state drops the
queued events whose session or generation it ended. The operations below are the critical sections
of the source, each under the lock of the listener's queue.

`returned` and `lagging` are not in the source: what `next` has returned, and that an event was too
large for the budget, so that the task which brought it is about to finish the listener.
-/

namespace WfObserver
namespace Sdk

open Wire

/-- `postcard::experimental::serialized_size` at an event; `none` is an encoding error. -/
class PostcardEvent where
  event : EventEnvelope → Option Nat

/-- The variants of `ClientError` that a listener can end with. -/
inductive ListenerError where
  | client (error : ClientError)
  | lagged
  | closed
  deriving DecidableEq, Repr

structure SubscriptionState where
  sessions : List SessionInfo
  topics : List TopicSnapshot
  deriving DecidableEq, Repr

/-- The SDK's `SubscriptionItem`. -/
inductive Observation where
  | state (state : SubscriptionState)
  | event (event : EventEnvelope)
  | closed (reason : SubscriptionEnd)
  deriving DecidableEq, Repr

/-- What ends a listener; `none` is its own `close`. -/
abbrev Terminal := Option (Except ListenerError SubscriptionEnd)

structure Listener where
  receiveEvents : Bool
  states : OrdMap TopicRef FeedState := ∅
  changed : Bool := false
  events : List (Nat × EventEnvelope) := []
  eventBytes : Nat := 0
  terminal : Terminal := none
  closed : Bool := false
  lagging : Bool := false
  returned : List Observation := []
  deriving DecidableEq

/-- The session that two feeds know is the one of the later update. -/
def laterSession (known : OrdMap SessionRef (Nat × SessionInfo))
    (entry : SessionRef × (Nat × SessionInfo)) : OrdMap SessionRef (Nat × SessionInfo) :=
  match known.get? entry.1 with
  | some current => if entry.2.1 > current.1 then known.insert entry.1 entry.2 else known
  | none => known.insert entry.1 entry.2

/-- The state still has the generation of this event. -/
def FeedState.keeps (state : FeedState) (event : EventEnvelope) : Bool :=
  (state.topics.get? event.metadata.source.session).any fun current =>
    current.generation == event.metadata.generation

namespace Listener

/-- `Queue::state`. -/
def current (l : Listener) : SubscriptionState where
  sessions :=
    ((l.states.values.flatMap fun state => state.sessions.entries).foldl laterSession ∅).values.map
      (·.2)
  topics := l.states.values.flatMap fun state => state.topics.values

/-- The events that a new state of the topic leaves in the queue. -/
def retained (topic : TopicRef) (state : FeedState) (l : Listener) : List (Nat × EventEnvelope) :=
  l.events.filter fun entry => entry.2.metadata.source.topic ≠ topic || state.keeps entry.2

/-- The bytes of the events that a new state of the topic removes. -/
def removedBytes (topic : TopicRef) (state : FeedState) (l : Listener) : Nat :=
  ((l.events.filter fun entry => !(entry.2.metadata.source.topic ≠ topic || state.keeps entry.2)).map
    (·.1)).sum

/-- `Listener::state`. -/
def state (topic : TopicRef) (state : FeedState) (l : Listener) : Listener :=
  if l.closed then l
  else { l with
    events := l.retained topic state
    eventBytes := l.eventBytes - l.removedBytes topic state
    states := l.states.insert topic state
    changed := true }

@[simp] theorem state_closed (topic : TopicRef) (st : FeedState) (l : Listener) :
    (l.state topic st).closed = l.closed := by
  unfold Listener.state
  split <;> rfl

theorem state_get?_self {l : Listener} (hopen : l.closed = false) (topic : TopicRef)
    (st : FeedState) : (l.state topic st).states.get? topic = some st := by
  simp [Listener.state, hopen]

theorem state_get?_ne (st : FeedState) (l : Listener) {topic key : TopicRef} (hkey : key ≠ topic) :
    (l.state topic st).states.get? key = l.states.get? key := by
  unfold Listener.state
  split
  · rfl
  · exact OrdMap.get?_insert_ne _ _ hkey

/-- The size that an event is counted with. -/
def sizeOf [PostcardEvent] (event : EventEnvelope) : Nat := (PostcardEvent.event event).getD u64Max

/-- `Listener::event` up to the call of `finish`. `budget` is `MAX_MESSAGE_SIZE`. -/
def event [PostcardEvent] (budget : Nat) (event : EventEnvelope) (l : Listener) : Listener :=
  if !l.receiveEvents || l.closed then l
  else if sizeOf event > budget - l.eventBytes then { l with lagging := true }
  else { l with
    eventBytes := l.eventBytes + sizeOf event
    events := l.events ++ [(sizeOf event, event)] }

/-- `Listener::finish`. -/
def finish (terminal : Terminal) (l : Listener) : Listener :=
  if l.closed then if terminal.isNone then { l with terminal := none } else l
  else { l with
    closed := true
    terminal
    states := ∅
    events := []
    eventBytes := 0
    changed := false }

/-- One turn of the loop of `Subscription::next`. -/
def next (l : Listener) : Listener :=
  match l.terminal with
  | some (.ok reason) => { l with terminal := none, returned := l.returned ++ [.closed reason] }
  | some (.error _) => { l with terminal := none }
  | none =>
    if l.closed then l
    else if l.changed then
      { l with changed := false, returned := l.returned ++ [.state l.current] }
    else match l.events with
      | [] => l
      | (size, event) :: events =>
        { l with events, eventBytes := l.eventBytes - size, returned := l.returned ++ [.event event] }

theorem event_frame [PostcardEvent] (budget : Nat) (event : EventEnvelope) (l : Listener) :
    (l.event budget event).states = l.states ∧ (l.event budget event).closed = l.closed ∧
      (l.event budget event).receiveEvents = l.receiveEvents ∧
      ((l.event budget event).lagging = false → l.lagging = false) := by
  unfold Listener.event
  split
  · exact ⟨rfl, rfl, rfl, id⟩
  split
  · exact ⟨rfl, rfl, rfl, fun h => (by cases h)⟩
  · exact ⟨rfl, rfl, rfl, id⟩

theorem finish_frame (terminal : Terminal) (l : Listener) :
    (l.finish terminal).closed = true ∧ (l.finish terminal).receiveEvents = l.receiveEvents ∧
      (l.finish terminal).lagging = l.lagging := by
  unfold Listener.finish
  split
  · split <;> exact ⟨by assumption, rfl, rfl⟩
  · exact ⟨rfl, rfl, rfl⟩

@[simp] theorem finish_closed (terminal : Terminal) (l : Listener) :
    (l.finish terminal).closed = true := (finish_frame terminal l).1

theorem next_frame (l : Listener) : l.next.states = l.states ∧ l.next.closed = l.closed := by
  unfold Listener.next
  split
  · exact ⟨rfl, rfl⟩
  · exact ⟨rfl, rfl⟩
  split
  · exact ⟨rfl, rfl⟩
  split
  · exact ⟨rfl, rfl⟩
  · split <;> exact ⟨rfl, rfl⟩

end Listener

/-- The last state among the items returned. -/
def lastState (items : List Observation) : Option SubscriptionState :=
  items.foldl (fun last item => match item with
    | .state state => some state
    | _ => last) none

/-- The state has the session of the event, and its topic at its generation. -/
def SubscriptionState.Has (state : SubscriptionState) (event : EventEnvelope) : Prop :=
  (∃ info ∈ state.sessions, info.session = event.metadata.source.session) ∧
    ∃ topic ∈ state.topics, topic.source.session = event.metadata.source.session ∧
      topic.source.topic = event.metadata.source.topic ∧
      topic.generation = event.metadata.generation

/-- Every event returned is of the last state returned before it. -/
def Ordered (items : List Observation) : Prop :=
  ∀ before event after, items = before ++ .event event :: after →
    ∃ state, lastState before = some state ∧ state.Has event

theorem ordered_nil : Ordered [] := fun before event after h => by simp at h

theorem lastState_append (items : List Observation) (item : Observation) :
    lastState (items ++ [item]) = match item with
      | .state state => some state
      | _ => lastState items := by
  rw [lastState, List.foldl_append]
  cases item <;> rfl

theorem Ordered.append {items : List Observation} (h : Ordered items) {item : Observation}
    (hi : ∀ event, item = .event event → ∃ state, lastState items = some state ∧ state.Has event) :
    Ordered (items ++ [item]) := by
  intro before event after he
  rcases List.append_eq_append_iff.mp he with ⟨rest, rfl, hrest⟩ | ⟨rest, rfl, hrest⟩
  · cases rest with
    | nil =>
      cases hrest
      rw [List.append_nil]
      exact hi event rfl
    | cons first rest =>
      have := congrArg List.length hrest
      simp at this
  · cases rest with
    | nil =>
      cases hrest
      rw [List.append_nil] at *
      exact hi event rfl
    | cons first rest =>
      obtain ⟨rfl, rfl⟩ := List.cons.inj hrest
      exact h before event rest rfl

/-! ## What a listener keeps -/

/-- The state of a feed has the session of the event, and its topic at its generation. -/
def FeedState.Has (state : FeedState) (event : EventEnvelope) : Prop :=
  ∃ entry topic, state.sessions.get? event.metadata.source.session = some entry ∧
    state.topics.get? event.metadata.source.session = some topic ∧
      topic.source.session = event.metadata.source.session ∧
      topic.source.topic = event.metadata.source.topic ∧
      topic.generation = event.metadata.generation

/-- The sessions of a feed's state are stored under their references, and so are the states of its
topic, each with its session. -/
structure FeedState.Whole (key : TopicRef) (state : FeedState) : Prop where
  session : ∀ r entry, state.sessions.get? r = some entry → entry.2.session = r
  topic : ∀ r t, state.topics.get? r = some t → t.source.session = r ∧ t.source.topic = key ∧
    ∃ entry, state.sessions.get? r = some entry

theorem FeedState.whole_empty (key : TopicRef) : FeedState.Whole key {} :=
  ⟨fun r entry h => by simp at h, fun r t h => by simp at h⟩

/-- A whole state that keeps an event of its topic has it. -/
theorem FeedState.Whole.has {key : TopicRef} {state : FeedState} (h : state.Whole key)
    {event : EventEnvelope} (hkey : event.metadata.source.topic = key)
    (hk : state.keeps event = true) : state.Has event := by
  obtain ⟨t, ht, hgen⟩ := (Option.any_eq_true _ _).mp hk
  obtain ⟨hsession, htopic, entry, hentry⟩ := h.topic _ t ht
  exact ⟨entry, t, hentry, ht, hsession, htopic.trans hkey.symm, beq_iff_eq.mp hgen⟩

/-- Every session of the list is known, and every known one is of the list or was known before. -/
theorem foldl_laterSession (entries : List (SessionRef × (Nat × SessionInfo)))
    (known : OrdMap SessionRef (Nat × SessionInfo)) :
    (∀ r, (∃ v, known.get? r = some v) ∨ (∃ v, (r, v) ∈ entries) →
      ∃ v, (entries.foldl laterSession known).get? r = some v) ∧
    ∀ r v, (entries.foldl laterSession known).get? r = some v →
      known.get? r = some v ∨ (r, v) ∈ entries := by
  induction entries generalizing known with
  | nil => simp
  | cons entry entries ih =>
    obtain ⟨hall, honly⟩ := ih (laterSession known entry)
    have hone : ∀ r v, (laterSession known entry).get? r = some v →
        known.get? r = some v ∨ (r, v) = entry := by
      intro r v hv
      have hins : (known.insert entry.1 entry.2).get? r = some v →
          known.get? r = some v ∨ (r, v) = entry := fun hv => by
        rw [OrdMap.get?_insert] at hv
        split at hv
        · rename_i hr
          cases hv
          exact .inr (by rw [hr])
        · exact .inl hv
      unfold laterSession at hv
      split at hv
      · split at hv
        · exact hins hv
        · exact .inl hv
      · exact hins hv
    have hkeep : ∀ r, (∃ v, known.get? r = some v) ∨ r = entry.1 →
        ∃ v, (laterSession known entry).get? r = some v := by
      intro r hr
      have hins : ∃ v, (known.insert entry.1 entry.2).get? r = some v := by
        rw [OrdMap.get?_insert]
        split
        · exact ⟨_, rfl⟩
        · exact hr.resolve_right ‹_›
      unfold laterSession
      split
      · rename_i current hcurrent
        split
        · exact hins
        · rcases hr with hr | rfl
          · exact hr
          · exact ⟨current, hcurrent⟩
      · exact hins
    refine ⟨fun r hr => hall r ?_, fun r v hv => ?_⟩
    · rcases hr with hr | ⟨v, hv⟩
      · exact .inl (hkeep r (.inl hr))
      · rcases List.mem_cons.mp hv with rfl | hv
        · exact .inl (hkeep r (.inr rfl))
        · exact .inr ⟨v, hv⟩
    · rcases honly r v hv with hv | hv
      · rcases hone r v hv with hv | rfl
        · exact .inl hv
        · exact .inr (by simp)
      · exact .inr (List.mem_cons_of_mem _ hv)

namespace Listener

/-- The latest state of the event's topic has the event. -/
def Holding (l : Listener) (event : EventEnvelope) : Prop :=
  ∃ state, l.states.get? event.metadata.source.topic = some state ∧ state.Has event

/-- The invariant of one listener. -/
structure Ok (l : Listener) : Prop where
  bytes : l.eventBytes = (l.events.map (·.1)).sum
  whole : ∀ key state, l.states.get? key = some state → state.Whole key
  queued : ∀ entry ∈ l.events, l.Holding entry.2
  shown : l.changed = false → l.states ≠ ∅ → lastState l.returned = some l.current
  ended : l.closed = true → l.states = ∅ ∧ l.events = []
  ordered : Ordered l.returned

namespace Ok

variable {l : Listener}

theorem new (receiveEvents : Bool) : Ok { receiveEvents } where
  bytes := rfl
  whole key state h := by simp at h
  queued entry h := by simp at h
  shown _ h := absurd rfl h
  ended h := by simp at h
  ordered := ordered_nil

/-- What a listener would return as its state has the event. -/
theorem current_has (h : Ok l) {event : EventEnvelope} (he : l.Holding event) :
    l.current.Has event := by
  obtain ⟨state, hstate, entry, topic, hentry, htopic, hsource⟩ := he
  have hmem : state ∈ l.states.values := OrdMap.mem_values.mpr ⟨_, hstate⟩
  obtain ⟨hall, honly⟩ :=
    foldl_laterSession (l.states.values.flatMap fun state => state.sessions.entries) ∅
  constructor
  · have hin : (event.metadata.source.session, entry) ∈
        l.states.values.flatMap fun state => state.sessions.entries :=
      List.mem_flatMap.mpr ⟨state, hmem, OrdMap.get?_eq_some.mp hentry⟩
    obtain ⟨v, hv⟩ := hall event.metadata.source.session (.inr ⟨entry, hin⟩)
    refine ⟨v.2, List.mem_map_of_mem (OrdMap.mem_values.mpr ⟨_, hv⟩), ?_⟩
    rcases honly _ _ hv with hv | hv
    · simp at hv
    · obtain ⟨other, hother, hv⟩ := List.mem_flatMap.mp hv
      obtain ⟨key, hkey⟩ := OrdMap.mem_values.mp hother
      exact (h.whole key other hkey).session _ _ (OrdMap.get?_eq_some.mpr hv)
  · exact ⟨topic, List.mem_flatMap.mpr ⟨state, hmem, OrdMap.mem_values.mpr ⟨_, htopic⟩⟩, hsource⟩

/-- The bytes of any part of the queue are counted. -/
theorem sum_le (h : Ok l) {part : List (Nat × EventEnvelope)} (hp : part.Sublist l.events) :
    (part.map (·.1)).sum ≤ l.eventBytes := by
  rw [h.bytes]
  exact (hp.map _).sum_le_sum fun _ _ => Nat.zero_le _

theorem removed_le (h : Ok l) (topic : TopicRef) (state : FeedState) :
    l.removedBytes topic state ≤ l.eventBytes := h.sum_le List.filter_sublist

theorem state (h : Ok l) {topic : TopicRef} {st : FeedState} (hst : st.Whole topic) :
    Ok (l.state topic st) := by
  unfold Listener.state
  split
  · exact h
  rename_i hopen
  refine ⟨?_, fun key state hs => ?_, fun entry he => ?_, fun hc => (by cases hc),
    fun hc => absurd hc hopen, h.ordered⟩
  · -- What stays and what goes are the two parts of the queue.
    have hsplit := List.sum_map_filter_add_sum_map_filter_not
      (fun entry : Nat × EventEnvelope =>
        (entry.2.metadata.source.topic ≠ topic || st.keeps entry.2) = true) (·.1) l.events
    have hbytes := h.bytes
    simp only [Bool.decide_eq_true, Bool.not_eq_true, Bool.decide_eq_false] at hsplit
    simp only [Listener.retained, Listener.removedBytes]
    omega
  · simp only [OrdMap.get?_insert] at hs
    split at hs
    · rename_i hkey
      cases hs
      rw [hkey]
      exact hst
    · exact h.whole key state hs
  · obtain ⟨hin, hkeep⟩ := List.mem_filter.mp he
    by_cases htopic : entry.2.metadata.source.topic = topic
    · have hk : st.keeps entry.2 = true := by simpa [htopic] using hkeep
      exact ⟨st, by simp [htopic], hst.has htopic hk⟩
    · obtain ⟨state, hstate, hhas⟩ := h.queued entry hin
      exact ⟨state, (OrdMap.get?_insert_ne _ _ htopic).trans hstate, hhas⟩

theorem event [PostcardEvent] (h : Ok l) {budget : Nat} {event : EventEnvelope}
    (he : l.closed = false → l.Holding event) : Ok (l.event budget event) := by
  unfold Listener.event
  split
  · exact h
  rename_i hopen
  have hopen : l.closed = false := by simp_all
  split
  · exact ⟨h.bytes, h.whole, h.queued, h.shown, h.ended, h.ordered⟩
  · refine ⟨?_, h.whole, fun entry hin => ?_, h.shown, fun hc => ?_, h.ordered⟩
    · simp [h.bytes]
    · rcases List.mem_append.mp hin with hin | hin
      · exact h.queued entry hin
      · obtain rfl := List.mem_singleton.mp hin
        exact he hopen
    · rw [show l.closed = true from hc] at hopen
      cases hopen

theorem finish (h : Ok l) (terminal : Terminal) : Ok (l.finish terminal) := by
  unfold Listener.finish
  split
  · split
    · exact ⟨h.bytes, h.whole, h.queued, h.shown, h.ended, h.ordered⟩
    · exact h
  · exact ⟨rfl, fun _ _ hs => (by simp at hs), fun _ he => (by simp at he), fun _ hs => absurd rfl hs,
      fun _ => ⟨rfl, rfl⟩, h.ordered⟩

theorem next (h : Ok l) : Ok l.next := by
  unfold Listener.next
  split
  · rename_i reason hreason
    refine ⟨h.bytes, h.whole, h.queued, fun hc hs => ?_, h.ended, h.ordered.append (by simp)⟩
    rw [lastState_append]
    exact h.shown hc hs
  · exact ⟨h.bytes, h.whole, h.queued, h.shown, h.ended, h.ordered⟩
  split
  · exact h
  split
  · refine ⟨h.bytes, h.whole, h.queued, fun _ _ => ?_, h.ended, h.ordered.append (by simp)⟩
    rw [lastState_append]
    rfl
  rename_i hopen hchanged
  split
  · exact h
  · rename_i size event events hevents
    have hqueued := h.queued
    rw [hevents] at hqueued
    have hhold := hqueued (size, event) (by simp)
    have hne : l.states ≠ ∅ := by
      obtain ⟨state, hstate, -⟩ := hhold
      intro he
      rw [he] at hstate
      simp at hstate
    have hlast := h.shown (by simpa using hchanged) hne
    refine ⟨?_, h.whole, fun entry he => hqueued entry (List.mem_cons_of_mem _ he), fun _ _ => ?_,
      fun hc => absurd hc hopen, h.ordered.append fun e he => ?_⟩
    · have hbytes := h.bytes
      simp only [hevents, List.map_cons, List.sum_cons] at hbytes
      simp only [hbytes]
      omega
    · rw [lastState_append]
      exact hlast
    · cases he
      exact ⟨_, hlast, h.current_has hhold⟩

end Ok

end Listener

end Sdk
end WfObserver
