import WfObserver.Wire

/-!
# Subscription queues (`service/queue.rs`)

`Queue` is the contents of one bounded queue: bootstrap frames, sized updates, and a terminal item
that has its own place so that a full queue can still end.

`Channel` is a queue together with its consumer. The queue's lock is not the service's, so a consumer
can pop between any two steps that the service takes on the queue, also in the middle of a service
operation. `pace n` is the number of pops before the service's `n`-th step on this queue
(`Channel.race`); a theorem about every channel is about every such interleaving. `delivered` is the
sequence popped so far.

`Channel.stream` is what the consumer has and will get. A pop keeps it (`stream_next`), so every
fact about the popped items comes from a fact about the stream.
-/

namespace WfObserver
namespace Service

open Wire

structure Queue where
  initial : List SubscriptionItem := []
  updates : List (SubscriptionItem × Nat) := []
  bytes : Nat := 0
  terminal : Option SubscriptionEnd := none
  completed : Bool := false
  messageBytes : Nat
  deriving DecidableEq, Repr

namespace Queue

/-- `Queue::new`. -/
def new (messageBytes : Nat) : Queue := { messageBytes }

/-- `Contents::discard`: only an unsent Begin stays. -/
def discard (q : Queue) : Queue :=
  { q with
    initial := match q.initial with
      | .begin cursor :: _ => [.begin cursor]
      | _ => []
    updates := []
    bytes := 0 }

/-- `Queue::ended`. -/
def ended (q : Queue) : Bool := q.terminal.isSome || q.completed

/-- The resource that an item of this size exceeds. -/
def exceeded (q : Queue) (size : Nat) : Option Resource :=
  if size > q.messageBytes then some .messageBytes
  else if size > q.messageBytes - q.bytes then some .queuedBytes
  else none

/-- `Queue::offer`. -/
def offer [Postcard] (item : SubscriptionItem) (q : Queue) : Bool × Queue :=
  if q.ended then (false, q)
  else
    let size := (Postcard.item item).getD u64Max
    match q.exceeded size with
    | some resource =>
      (false, { q.discard with terminal := some (.resyncRequired (.lagged resource)) })
    | none =>
      (true, { q with bytes := q.bytes + size, updates := q.updates ++ [(item, size)] })

/-- `Queue::finish`. -/
def finish (ending : SubscriptionEnd) (discard : Bool) (q : Queue) : Queue :=
  if q.ended then q
  else { (if discard then q.discard else q) with terminal := some ending }

/-- `Queue::initial`. -/
def setInitial (initial : List SubscriptionItem) (q : Queue) : Queue := { q with initial }

/-- `Queue::pop`. -/
def pop (q : Queue) : (Option SubscriptionItem × Bool) × Queue :=
  match q.initial with
  | item :: rest => ((some item, false), { q with initial := rest })
  | [] =>
    match q.updates with
    | (item, bytes) :: rest =>
      ((some item, false), { q with updates := rest, bytes := q.bytes - bytes })
    | [] =>
      match q.terminal with
      | some ending => ((some (.closed ending), false), { q with terminal := none, completed := true })
      | none => ((none, q.completed), q)

/-- What pops will still give. -/
def pending (q : Queue) : List SubscriptionItem :=
  q.initial ++ q.updates.map (·.1) ++ (q.terminal.map SubscriptionItem.closed).toList

end Queue

/-- A subscription's queue and its consumer (module doc). -/
structure Channel where
  /-- The selection that the consumer asked for. -/
  selection : Subscribe
  queue : Queue
  delivered : List SubscriptionItem := []
  pace : Nat → Nat
  turn : Nat := 0

namespace Channel

/-- `Subscription::next` when an item is there: one pop. -/
def next (c : Channel) : Channel :=
  { c with
    queue := c.queue.pop.2
    delivered := c.delivered ++ c.queue.pop.1.1.toList }

def nexts : Nat → Channel → Channel
  | 0, c => c
  | n + 1, c => nexts n c.next

/-- What the consumer takes before the service's next step on the queue. -/
def race (c : Channel) : Channel := { nexts (c.pace c.turn) c with turn := c.turn + 1 }

def ended (c : Channel) : Bool := c.queue.ended

def offer [Postcard] (item : SubscriptionItem) (c : Channel) : Channel :=
  { c.race with queue := (c.race.queue.offer item).2 }

def finish (ending : SubscriptionEnd) (discard : Bool) (c : Channel) : Channel :=
  { c.race with queue := c.race.queue.finish ending discard }

/-- Everything the consumer has got and will get if nothing more happens. -/
def stream (c : Channel) : List SubscriptionItem := c.delivered ++ c.queue.pending

end Channel

/-! ## A pop moves the stream's next item to the consumer -/

@[simp] theorem Queue.ended_pop (q : Queue) : q.pop.2.ended = q.ended := by
  unfold Queue.pop
  rcases hi : q.initial with _ | ⟨a, l⟩
  · rcases hu : q.updates with _ | ⟨⟨b, n⟩, l⟩
    · rcases ht : q.terminal with _ | t <;> simp [Queue.ended, ht]
    · simp [Queue.ended]
  · simp [Queue.ended]

theorem Queue.pending_pop (q : Queue) : q.pop.1.1.toList ++ q.pop.2.pending = q.pending := by
  unfold Queue.pop
  rcases hi : q.initial with _ | ⟨a, l⟩
  · rcases hu : q.updates with _ | ⟨⟨b, n⟩, l⟩
    · rcases ht : q.terminal with _ | t <;> simp [Queue.pending, hi, hu, ht]
    · simp [Queue.pending, hi, hu]
  · simp [Queue.pending, hi]

/-- A pop changes neither the end nor the bound. -/
theorem Queue.pop_messageBytes (q : Queue) : q.pop.2.messageBytes = q.messageBytes := by
  unfold Queue.pop
  rcases q.initial with _ | ⟨a, l⟩
  · rcases q.updates with _ | ⟨⟨b, n⟩, l⟩
    · rcases q.terminal with _ | t <;> rfl
    · rfl
  · rfl

namespace Channel

@[simp] theorem stream_next (c : Channel) : c.next.stream = c.stream := by
  simp [stream, next, Queue.pending_pop]

@[simp] theorem ended_next (c : Channel) : c.next.ended = c.ended := by simp [ended, next]

/-- The consumer's steps: the stream stays, what is delivered grows. -/
structure Consumed (c c' : Channel) : Prop where
  stream : c'.stream = c.stream
  ended : c'.ended = c.ended
  delivered : c.delivered <+: c'.delivered
  selection : c'.selection = c.selection

theorem Consumed.refl (c : Channel) : Consumed c c := ⟨rfl, rfl, List.prefix_refl _, rfl⟩

theorem Consumed.trans {a b c : Channel} (h : Consumed a b) (h' : Consumed b c) : Consumed a c :=
  ⟨h'.stream.trans h.stream, h'.ended.trans h.ended, h.delivered.trans h'.delivered,
    h'.selection.trans h.selection⟩

theorem consumed_next (c : Channel) : Consumed c c.next :=
  ⟨stream_next c, ended_next c, List.prefix_append _ _, rfl⟩

theorem consumed_nexts (n : Nat) (c : Channel) : Consumed c (nexts n c) := by
  induction n generalizing c with
  | zero => exact .refl c
  | succ n ih => exact (consumed_next c).trans (ih c.next)

theorem consumed_race (c : Channel) : Consumed c c.race := by
  obtain ⟨hs, he, hd, hp⟩ := consumed_nexts (c.pace c.turn) c
  exact ⟨hs, he, hd, hp⟩

end Channel

end Service
end WfObserver
