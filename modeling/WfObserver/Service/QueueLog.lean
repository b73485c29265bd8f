import WfObserver.Service.TestSupport

/-!
# The law of one queue

A `QueueLog` is one queue with the history of its calls: the frames that it was set up with, the
updates that `offer` has accepted, what `pop` has given, and the reason that the queue ended for. The
offers, the finishes and the pops come in any order (`QueueLog.run`).

`QueueLog.Ok` is what every call keeps: a queue that has not ended still holds everything that was
not popped; one that has ended gives what it kept (`kept`) and then the terminal item. A Begin that was
not popped comes first in either case (`Waits`).
-/

namespace WfObserver
namespace Service

open Wire

/-- A call of one queue. -/
inductive QueueCall where
  | offer (item : SubscriptionItem)
  | finish (ending : SubscriptionEnd) (discard : Bool)
  | pop

/-- The total size of sized updates. -/
def queuedBytes (updates : List (SubscriptionItem × Nat)) : Nat := (updates.map (·.2)).sum

@[simp] theorem queuedBytes_nil : queuedBytes [] = 0 := rfl

@[simp] theorem queuedBytes_cons (u : SubscriptionItem × Nat) (us : List (SubscriptionItem × Nat)) :
    queuedBytes (u :: us) = u.2 + queuedBytes us := by
  simp [queuedBytes]

@[simp] theorem queuedBytes_append (us us' : List (SubscriptionItem × Nat)) :
    queuedBytes (us ++ us') = queuedBytes us + queuedBytes us' := by
  simp [queuedBytes]

structure QueueLog where
  queue : Queue
  /-- The frames that the queue was set up with. -/
  frames : List SubscriptionItem
  accepted : List SubscriptionItem := []
  popped : List SubscriptionItem := []
  reason : Option SubscriptionEnd := none

/-- The Begin that is still to be sent, if it is the next of these frames. -/
def unsentBegin : List SubscriptionItem → List SubscriptionItem
  | .begin cursor :: _ => [.begin cursor]
  | _ => []

theorem unsentBegin_isPrefix (frames : List SubscriptionItem) : unsentBegin frames <+: frames := by
  unfold unsentBegin
  split
  · exact ⟨_, rfl⟩
  · exact List.nil_prefix

/-- The reason for which a lagging queue ends. -/
def lagged (resource : Resource) : SubscriptionEnd := .resyncRequired (.lagged resource)

namespace QueueLog

/-- A queue whose initial frames are set. -/
def start (messageBytes : Nat) (cursor : ServiceCursor) (frames : List SubscriptionItem) :
    QueueLog :=
  { queue := (Queue.new messageBytes).setInitial (.begin cursor :: frames)
    frames := .begin cursor :: frames }

/-- The frames that are not popped. -/
def unsent (d : QueueLog) : List SubscriptionItem := d.frames.drop d.popped.length

variable [Postcard]

def step (d : QueueLog) : QueueCall → QueueLog
  | .offer item =>
    match d.queue.offer item with
    | (true, queue) => { d with queue, accepted := d.accepted ++ [item] }
    | (false, queue) => { d with queue, reason := d.reason.or queue.terminal }
  | .finish ending discard =>
    { d with
      queue := d.queue.finish ending discard
      reason := d.reason.or (d.queue.finish ending discard).terminal }
  | .pop => { d with queue := d.queue.pop.2, popped := d.popped ++ d.queue.pop.1.1.toList }

def run (d : QueueLog) (calls : List QueueCall) : QueueLog := calls.foldl step d

end QueueLog

/-! ## Bytes -/

/-- What every call keeps of the byte count. -/
structure Queue.Accounted (q : Queue) : Prop where
  bytes : q.bytes = queuedBytes q.updates
  limit : q.bytes ≤ q.messageBytes

namespace Queue

variable {q : Queue}

theorem exceeded_none {size : Nat} (hl : q.bytes ≤ q.messageBytes) (h : q.exceeded size = none) :
    q.bytes + size ≤ q.messageBytes := by
  unfold exceeded at h
  split at h
  · cases h
  · split at h
    · cases h
    · omega

theorem discard_accounted (q : Queue) (terminal : Option SubscriptionEnd) :
    { q.discard with terminal }.Accounted :=
  ⟨rfl, Nat.zero_le _⟩

theorem Accounted.offer [Postcard] (h : q.Accounted) (item : SubscriptionItem) :
    (q.offer item).2.Accounted := by
  unfold Queue.offer
  split
  · exact h
  · dsimp only
    split
    · exact q.discard_accounted _
    · rename_i hfits
      exact ⟨by simp [h.bytes], exceeded_none h.limit hfits⟩

theorem Accounted.finish (h : q.Accounted) (ending : SubscriptionEnd) (discard : Bool) :
    (q.finish ending discard).Accounted := by
  unfold Queue.finish
  split
  · exact h
  · split
    · exact q.discard_accounted (some ending)
    · exact ⟨h.bytes, h.limit⟩

/-- A popped update was counted, so that its bytes can be taken off. -/
theorem Accounted.head (h : q.Accounted) {item : SubscriptionItem} {bytes : Nat}
    {rest : List (SubscriptionItem × Nat)} (hu : q.updates = (item, bytes) :: rest) :
    bytes ≤ q.bytes := by
  rw [h.bytes, hu, queuedBytes_cons]
  exact Nat.le_add_right _ _

theorem Accounted.pop (h : q.Accounted) : q.pop.2.Accounted := by
  unfold Queue.pop
  rcases hi : q.initial with _ | ⟨frame, frames⟩
  · rcases hu : q.updates with _ | ⟨⟨item, bytes⟩, rest⟩
    · have hb : q.bytes = 0 := by rw [h.bytes, hu]; rfl
      rcases q.terminal with _ | ending
      · exact h
      · exact ⟨by simp [hb], h.limit⟩
    · have hb := h.bytes
      have hl := h.limit
      rw [hu, queuedBytes_cons] at hb
      refine ⟨?_, ?_⟩
      · show q.bytes - bytes = queuedBytes rest
        omega
      · show q.bytes - bytes ≤ q.messageBytes
        omega
  · exact ⟨h.bytes, h.limit⟩

theorem offer_ended [Postcard] (h : q.ended = true) (item : SubscriptionItem) :
    q.offer item = (false, q) := by
  unfold Queue.offer
  rw [if_pos h]

theorem finish_ended (h : q.ended = true) (ending : SubscriptionEnd) (discard : Bool) :
    q.finish ending discard = q := by
  unfold Queue.finish
  rw [if_pos h]

/-- A finish of a queue that has not ended. -/
theorem finish_open (h : q.ended = false) (ending : SubscriptionEnd) (discard : Bool) :
    q.finish ending discard =
      { (if discard then q.discard else q) with terminal := some ending } := by
  unfold Queue.finish
  rw [if_neg (by simp [h])]

/-- An offer to a queue that has not ended: the update is accepted, or the queue lags. -/
theorem offer_open [Postcard] (h : q.ended = false) (item : SubscriptionItem) :
    (∃ size, q.offer item =
      (true, { q with bytes := q.bytes + size, updates := q.updates ++ [(item, size)] })) ∨
    ∃ resource, q.offer item = (false, { q.discard with terminal := some (lagged resource) }) := by
  unfold Queue.offer
  rw [if_neg (by simp [h])]
  dsimp only
  split
  · exact .inr ⟨_, rfl⟩
  · exact .inl ⟨_, rfl⟩

theorem discard_initial (q : Queue) : q.discard.initial = unsentBegin q.initial := by
  unfold Queue.discard unsentBegin
  rfl

/-- A queue that has not ended accepts what fits beside the queued updates. -/
theorem offer_accepts [Postcard] (hl : q.bytes ≤ q.messageBytes) (h : q.ended = false)
    (item : SubscriptionItem) :
    (q.offer item).1 = true ↔ q.bytes + (Postcard.item item).getD u64Max ≤ q.messageBytes := by
  unfold Queue.offer
  rw [if_neg (by simp [h])]
  dsimp only
  split
  · rename_i resource hexceeded
    refine ⟨(by cases ·), fun hfits => ?_⟩
    unfold exceeded at hexceeded
    rw [if_neg (by omega), if_neg (by omega)] at hexceeded
    cases hexceeded
  · rename_i hfits
    exact ⟨fun _ => exceeded_none hl hfits, fun _ => rfl⟩

/-- A pop gives the first item that is pending, and leaves the others. -/
theorem pop_pending (q : Queue) :
    q.pop.1.1 = q.pending.head? ∧ q.pop.2.pending = q.pending.tail := by
  unfold Queue.pop
  rcases hi : q.initial with _ | ⟨frame, frames⟩
  · rcases hu : q.updates with _ | ⟨⟨item, bytes⟩, rest⟩
    · rcases ht : q.terminal with _ | ending <;> simp [pending, hi, hu, ht]
    · simp [pending, hi, hu]
  · simp [pending, hi]

theorem pending_head {frame : SubscriptionItem} (h : q.initial.head? = some frame) :
    q.pending.head? = some frame := by
  rw [pending, List.append_assoc, List.head?_append, h]
  rfl

/-- A queue that has not ended has no terminal item. -/
theorem open_terminal (h : q.ended = false) : q.terminal = none ∧ q.completed = false := by
  simpa [Queue.ended] using h

end Queue

namespace QueueLog

variable {d : QueueLog}

/-! ## What every call keeps -/

/-- The stream of a queue that has ended: what it kept, then the terminal item. -/
structure Ended (d : QueueLog) : Prop where
  stream : ∃ kept ending, kept <+: d.frames ++ d.accepted ∧ d.reason = some ending ∧
    d.popped ++ d.queue.pending = kept ++ [.closed ending]
  completed : d.queue.completed = true → d.queue.pending = []
  terminal : d.queue.completed = false → d.queue.terminal = d.reason

structure Ok (d : QueueLog) : Prop where
  accounted : d.queue.Accounted
  stream : d.queue.ended = false → d.popped ++ d.queue.pending = d.frames ++ d.accepted
  initial : d.queue.ended = false → d.queue.initial = d.unsent
  reason : d.queue.ended = false → d.reason = none
  ended : d.queue.ended = true → d.Ended

theorem start_ok (messageBytes : Nat) (cursor : ServiceCursor) (frames : List SubscriptionItem) :
    (start messageBytes cursor frames).Ok where
  accounted := ⟨rfl, Nat.zero_le _⟩
  stream _ := by simp [start, Queue.pending, Queue.setInitial, Queue.new]
  initial _ := by simp [start, unsent, Queue.setInitial]
  reason _ := rfl
  ended h := by simp [start, Queue.ended, Queue.setInitial, Queue.new] at h

/-- The items that are left after a discard are the next ones of the stream. -/
theorem Ok.discarded (h : d.Ok) (hopen : d.queue.ended = false) (ending : SubscriptionEnd) :
    { d with
      queue := { d.queue.discard with terminal := some ending }
      reason := some ending }.Ended where
  stream := by
    refine ⟨d.popped ++ unsentBegin d.queue.initial, ending, ?_, rfl, ?_⟩
    · rw [← h.stream hopen, Queue.pending, List.append_assoc]
      exact (List.prefix_append_right_inj _).mpr
        ((unsentBegin_isPrefix _).trans (List.prefix_append _ _))
    · rw [← Queue.discard_initial]
      simp [Queue.pending, Queue.discard]
  completed hc := by
    rw [show d.queue.discard.completed = d.queue.completed from rfl,
      (Queue.open_terminal hopen).2] at hc
    cases hc
  terminal _ := rfl

/-- A pop takes the next item of the stream. -/
theorem Ok.pop [Postcard] (h : d.Ok) : (d.step .pop).Ok := by
  have hstream : (d.popped ++ d.queue.pop.1.1.toList) ++ d.queue.pop.2.pending =
      d.popped ++ d.queue.pending := by
    rw [List.append_assoc, Queue.pending_pop]
  refine ⟨h.accounted.pop, fun hopen => ?_, fun hopen => ?_, fun hopen => ?_, fun hended => ?_⟩
  · rw [step, Queue.ended_pop] at hopen
    exact hstream.trans (h.stream hopen)
  · rw [step, Queue.ended_pop] at hopen
    have hinitial := h.initial hopen
    have hterminal := (Queue.open_terminal hopen).1
    show d.queue.pop.2.initial =
      d.frames.drop (d.popped ++ d.queue.pop.1.1.toList).length
    unfold unsent at hinitial
    unfold Queue.pop
    rcases hi : d.queue.initial with _ | ⟨frame, rest⟩
    · rw [hi] at hinitial
      have hlen := List.drop_eq_nil_iff.mp hinitial.symm
      rcases hu : d.queue.updates with _ | ⟨⟨item, bytes⟩, rest⟩
      · simpa [hterminal, hi] using hlen
      · simp
        omega
    · rw [hi] at hinitial
      simp [← List.drop_drop, ← hinitial]
  · rw [step, Queue.ended_pop] at hopen
    exact h.reason hopen
  · rw [step, Queue.ended_pop] at hended
    obtain ⟨kept, ending, hkept, hreason, heq⟩ := (h.ended hended).stream
    refine ⟨⟨kept, ending, hkept, hreason, hstream.trans heq⟩, fun hc => ?_, fun hc => ?_⟩
    · have hall := (h.ended hended).completed
      simp only [step] at hc ⊢
      unfold Queue.pop at hc ⊢
      rcases hi : d.queue.initial with _ | ⟨frame, rest⟩
      · rcases hu : d.queue.updates with _ | ⟨⟨item, bytes⟩, rest⟩
        · rcases ht : d.queue.terminal with _ | ending'
          · simp [Queue.pending, hi, hu, ht]
          · simp [Queue.pending]
        · simp only [hi, hu] at hc
          simp [Queue.pending, hu] at hall
          exact absurd hc (by simpa using hall)
      · simp only [hi] at hc
        simp [Queue.pending, hi] at hall
        exact absurd hc (by simpa using hall)
    · have hterminal := (h.ended hended).terminal
      simp only [step] at hc ⊢
      unfold Queue.pop at hc ⊢
      rcases hi : d.queue.initial with _ | ⟨frame, rest⟩
      · rcases hu : d.queue.updates with _ | ⟨⟨item, bytes⟩, rest⟩
        · rcases ht : d.queue.terminal with _ | ending'
          · simp only [hi, hu, ht] at hc
            rw [Queue.ended, ht, hc] at hended
            cases hended
          · simp [hi, hu, ht] at hc
        · simp only [hi, hu] at hc
          exact hterminal hc
      · simp only [hi] at hc
        exact hterminal hc

theorem Ok.reason_some (h : d.Ok) (hended : d.queue.ended = true) :
    ∃ ending, d.reason = some ending := by
  obtain ⟨_, ending, _, hreason, _⟩ := (h.ended hended).stream
  exact ⟨ending, hreason⟩

/-- The first reason wins: a queue that has ended takes no offer and no other end. -/
theorem Ok.quiet [Postcard] (h : d.Ok) (hended : d.queue.ended = true) {call : QueueCall}
    (hcall : call ≠ .pop) : d.step call = d := by
  obtain ⟨ending, hreason⟩ := h.reason_some hended
  cases call with
  | pop => exact absurd rfl hcall
  | offer item =>
    rw [QueueLog.step, Queue.offer_ended hended]
    simp only [hreason, Option.some_or]
    rw [← hreason]
  | finish ending discard =>
    rw [QueueLog.step, Queue.finish_ended hended]
    simp only [hreason, Option.some_or]
    rw [← hreason]

theorem Ok.step [Postcard] (h : d.Ok) (call : QueueCall) : (d.step call).Ok := by
  cases call with
  | pop => exact h.pop
  | offer item =>
    cases hended : d.queue.ended with
    | true =>
      rw [h.quiet hended (by simp)]
      exact h
    | false =>
      have haccounted := h.accounted.offer item
      rcases Queue.offer_open hended item with ⟨size, he⟩ | ⟨resource, he⟩
      · rw [he] at haccounted
        rw [QueueLog.step, he]
        refine ⟨haccounted, fun _ => ?_, fun _ => h.initial hended, fun _ => h.reason hended,
          fun hends => ?_⟩
        · have hs := h.stream hended
          have ht := (Queue.open_terminal hended).1
          simp only [Queue.pending, ht, Option.map_none, Option.toList_none, List.append_nil]
            at hs ⊢
          rw [List.map_append, ← List.append_assoc, ← List.append_assoc, ← List.append_assoc, ← hs]
          simp
        · exact absurd hends (by simpa [Queue.ended] using hended)
      · rw [he] at haccounted
        rw [QueueLog.step, he]
        have hnone := h.reason hended
        simp only [hnone, Option.none_or]
        refine ⟨haccounted, fun hopen => ?_, fun hopen => ?_, fun hopen => ?_,
          fun _ => h.discarded hended (lagged resource)⟩ <;> simp [Queue.ended] at hopen
  | finish ending discard =>
    cases hended : d.queue.ended with
    | true =>
      rw [h.quiet hended (by simp)]
      exact h
    | false =>
      have haccounted := h.accounted.finish ending discard
      rw [Queue.finish_open hended] at haccounted
      rw [QueueLog.step, Queue.finish_open hended]
      have hnone := h.reason hended
      simp only [hnone, Option.none_or]
      refine ⟨haccounted, fun hopen => ?_, fun hopen => ?_, fun hopen => ?_, fun _ => ?_⟩
      · simp [Queue.ended] at hopen
      · simp [Queue.ended] at hopen
      · simp [Queue.ended] at hopen
      cases discard with
      | true => exact h.discarded hended ending
      | false =>
        have hs := h.stream hended
        obtain ⟨ht, hc⟩ := Queue.open_terminal hended
        refine ⟨⟨d.frames ++ d.accepted, ending, List.prefix_rfl, rfl, ?_⟩, fun hdone => ?_,
          fun _ => rfl⟩
        · rw [← hs]
          simp [Queue.pending, ht]
        · exact absurd hdone (by simpa using hc)

theorem run_ok [Postcard] (h : d.Ok) (calls : List QueueCall) : (d.run calls).Ok := by
  induction calls generalizing d with
  | nil => exact h
  | cons call calls ih => exact ih (h.step call)

/-- A queue that has ended keeps its stream and its reason. -/
theorem Ok.frozen [Postcard] (h : d.Ok) (hended : d.queue.ended = true) (calls : List QueueCall) :
    (d.run calls).popped ++ (d.run calls).queue.pending = d.popped ++ d.queue.pending ∧
      (d.run calls).reason = d.reason ∧ (d.run calls).accepted = d.accepted := by
  induction calls generalizing d with
  | nil => exact ⟨rfl, rfl, rfl⟩
  | cons call calls ih =>
    by_cases hcall : call = .pop
    · subst hcall
      obtain ⟨hs, hr, ha⟩ := ih h.pop (by simpa [QueueLog.step] using hended)
      refine ⟨hs.trans ?_, hr, ha⟩
      rw [QueueLog.step, List.append_assoc, Queue.pending_pop]
    · have hsame := h.quiet hended hcall
      obtain ⟨hs, hr, ha⟩ := ih (d := d.step call) (by rwa [hsame]) (by rwa [hsame])
      rw [hsame] at hs hr ha
      rw [QueueLog.run, List.foldl_cons, hsame]
      exact ⟨hs, hr, ha⟩

/-- What is popped: a prefix of the frames and the accepted updates, and the terminal item after it
once the queue is completed. -/
theorem Ok.popped (h : d.Ok) : ∃ sent, sent <+: d.frames ++ d.accepted ∧
    (d.queue.completed = false ∧ d.popped = sent ∨
      ∃ ending, d.reason = some ending ∧ d.popped = sent ++ [.closed ending] ∧
        d.queue.pop = ((none, true), d.queue)) := by
  cases hended : d.queue.ended with
  | false =>
    refine ⟨d.popped, ⟨_, h.stream hended⟩, .inl ⟨(Queue.open_terminal hended).2, rfl⟩⟩
  | true =>
    obtain ⟨kept, ending, hkept, hreason, hstream⟩ := (h.ended hended).stream
    cases hc : d.queue.completed with
    | true =>
      have hnil := (h.ended hended).completed hc
      refine ⟨kept, hkept, .inr ⟨ending, hreason, by rw [← hstream, hnil, List.append_nil], ?_⟩⟩
      simp only [Queue.pending, List.append_eq_nil_iff, List.map_eq_nil_iff, Option.toList_eq_nil_iff,
        Option.map_eq_none_iff] at hnil
      obtain ⟨⟨hi, hu⟩, ht⟩ := hnil
      simp only [Queue.pop, hi, hu, ht, hc]
    | false =>
      have hterminal := (h.ended hended).terminal hc
      have hpending : d.queue.pending =
          (d.queue.initial ++ d.queue.updates.map (·.1)) ++ [.closed ending] := by
        simp [Queue.pending, hterminal, hreason]
      rw [hpending, ← List.append_assoc] at hstream
      have hsent := List.append_inj_left' hstream rfl
      exact ⟨d.popped, (List.prefix_append _ _).trans (hsent ▸ hkept), .inl ⟨rfl, rfl⟩⟩

/-- An offer that is refused although the queue has not ended drops what is not sent. -/
theorem Ok.lag [Postcard] (h : d.Ok) (hopen : d.queue.ended = false) {item : SubscriptionItem}
    (hlag : (d.queue.offer item).1 = false) : ∃ resource,
      (d.step (.offer item)).reason = some (lagged resource) ∧
        (d.step (.offer item)).queue.pending = unsentBegin d.unsent ++ [.closed (lagged resource)] := by
  rcases Queue.offer_open hopen item with ⟨size, he⟩ | ⟨resource, he⟩
  · rw [he] at hlag
    cases hlag
  · refine ⟨resource, ?_, ?_⟩ <;> rw [QueueLog.step, he]
    · simp [h.reason hopen]
    · rw [← h.initial hopen, ← Queue.discard_initial]
      simp [Queue.pending, Queue.discard]

/-- A finish that discards drops what is not sent; one that does not keeps it. -/
theorem Ok.finish [Postcard] (h : d.Ok) (hopen : d.queue.ended = false) (ending : SubscriptionEnd)
    (discard : Bool) : (d.step (.finish ending discard)).reason = some ending ∧
      (d.step (.finish ending discard)).queue.pending =
        (if discard then unsentBegin d.unsent else d.queue.pending) ++ [.closed ending] := by
  have hnone := h.reason hopen
  have hterminal := (Queue.open_terminal hopen).1
  rw [QueueLog.step, Queue.finish_open hopen]
  refine ⟨by simp [hnone], ?_⟩
  cases discard with
  | true =>
    rw [if_pos rfl, ← h.initial hopen, ← Queue.discard_initial]
    simp [Queue.pending, Queue.discard]
  | false => simp [Queue.pending, hterminal]

/-- An accepted update is pending after everything else. -/
theorem accept [Postcard] (d : QueueLog) {item : SubscriptionItem}
    (haccept : (d.queue.offer item).1 = true) :
    (d.step (.offer item)).accepted = d.accepted ++ [item] ∧
      (d.step (.offer item)).queue.pending = d.queue.pending ++ [item] := by
  cases hended : d.queue.ended with
  | true =>
    rw [Queue.offer_ended hended] at haccept
    cases haccept
  | false =>
    rcases Queue.offer_open hended item with ⟨size, he⟩ | ⟨resource, he⟩
    · rw [QueueLog.step, he]
      exact ⟨rfl, by simp [Queue.pending, (Queue.open_terminal hended).1]⟩
    · rw [he] at haccept
      cases haccept

/-! ## The Begin -/

/-- The Begin is the next item until it is popped. -/
def Waits (cursor : ServiceCursor) (d : QueueLog) : Prop :=
  d.popped = [] → d.queue.initial.head? = some (.begin cursor)

variable {cursor : ServiceCursor}

theorem discard_begin {q : Queue} (h : q.initial.head? = some (.begin cursor)) :
    q.discard.initial.head? = some (.begin cursor) := by
  obtain ⟨rest, hi⟩ := List.head?_eq_some_iff.mp h
  rw [Queue.discard_initial, hi]
  rfl

theorem Waits.step [Postcard] (h : d.Waits cursor) (call : QueueCall) : (d.step call).Waits cursor := by
  cases call with
  | pop =>
    -- a pop takes the Begin, if it is still there
    intro hnone
    obtain ⟨hpopped, hpop⟩ := List.append_eq_nil_iff.mp hnone
    rw [d.queue.pop_pending.1, Queue.pending_head (h hpopped)] at hpop
    cases hpop
  | offer item =>
    intro hnone
    cases hended : d.queue.ended with
    | true =>
      rw [QueueLog.step, Queue.offer_ended hended] at hnone ⊢
      exact h hnone
    | false =>
      rcases Queue.offer_open hended item with ⟨size, he⟩ | ⟨resource, he⟩ <;>
        rw [QueueLog.step, he] at hnone ⊢
      · exact h hnone
      · exact discard_begin (h hnone)
  | finish ending discard =>
    intro hnone
    cases hended : d.queue.ended with
    | true =>
      rw [QueueLog.step, Queue.finish_ended hended] at hnone ⊢
      exact h hnone
    | false =>
      rw [QueueLog.step, Queue.finish_open hended] at hnone ⊢
      cases discard with
      | true => exact discard_begin (h hnone)
      | false => exact h hnone

theorem run_waits [Postcard] (h : d.Waits cursor) (calls : List QueueCall) :
    (d.run calls).Waits cursor := by
  induction calls generalizing d with
  | nil => exact h
  | cons call calls ih => exact ih (h.step call)

/-! ## The law -/

/-- What no call changes. -/
theorem step_fixed [Postcard] (d : QueueLog) (call : QueueCall) :
    (d.step call).frames = d.frames ∧
      (d.step call).queue.messageBytes = d.queue.messageBytes := by
  cases call with
  | pop => exact ⟨rfl, d.queue.pop_messageBytes⟩
  | finish ending discard =>
    refine ⟨rfl, ?_⟩
    simp only [QueueLog.step]
    unfold Queue.finish
    split
    · rfl
    · split <;> rfl
  | offer item =>
    have hbytes : (d.queue.offer item).2.messageBytes = d.queue.messageBytes := by
      unfold Queue.offer
      split
      · rfl
      · dsimp only
        split <;> rfl
    simp only [QueueLog.step]
    split
    · rename_i he
      exact ⟨rfl, by simpa [he] using hbytes⟩
    · rename_i he
      exact ⟨rfl, by simpa [he] using hbytes⟩

theorem run_fixed [Postcard] (d : QueueLog) (calls : List QueueCall) :
    (d.run calls).frames = d.frames ∧
      (d.run calls).queue.messageBytes = d.queue.messageBytes := by
  induction calls generalizing d with
  | nil => exact ⟨rfl, rfl⟩
  | cons call calls ih =>
    obtain ⟨hf, hb⟩ := ih (d.step call)
    obtain ⟨hf', hb'⟩ := d.step_fixed call
    exact ⟨hf.trans hf', hb.trans hb'⟩

/-- The law of a queue that was set up with `frames`, the first of them the Begin at `cursor`. -/
structure Law [Postcard] (messageBytes : Nat) (cursor : ServiceCursor)
    (frames : List SubscriptionItem) (d : QueueLog) : Prop where
  /-- The popped items are the next frames and accepted updates, then at most one terminal item,
  then nothing. -/
  popped : ∃ sent, sent <+: (.begin cursor :: frames) ++ d.accepted ∧
    (d.queue.completed = false ∧ d.popped = sent ∨
      ∃ ending, d.reason = some ending ∧ d.popped = sent ++ [.closed ending] ∧
        d.queue.pop = ((none, true), d.queue))
  /-- A pop gives the next item that is pending, if there is one. -/
  pop : d.queue.pop.1.1 = d.queue.pending.head? ∧ d.queue.pop.2.pending = d.queue.pending.tail ∧
    (d.step .pop).popped = d.popped ++ d.queue.pending.head?.toList
  /-- While the queue has not ended, everything that is not popped is pending. -/
  stream : d.queue.ended = false →
    d.popped ++ d.queue.pending = (.begin cursor :: frames) ++ d.accepted
  /-- An update that fits is accepted, and is pending after everything else. -/
  accept : ∀ item,
    (d.queue.ended = false → ((d.queue.offer item).1 = true ↔
      d.queue.bytes + (Postcard.item item).getD u64Max ≤ messageBytes)) ∧
    ((d.queue.offer item).1 = true → (d.step (.offer item)).accepted = d.accepted ++ [item] ∧
      (d.step (.offer item)).queue.pending = d.queue.pending ++ [item])
  /-- A lag drops what is not sent, apart from the Begin. -/
  lag : d.queue.ended = false → ∀ item, (d.queue.offer item).1 = false → ∃ resource,
    (d.step (.offer item)).reason = some (lagged resource) ∧
      (d.step (.offer item)).queue.pending =
        unsentBegin d.unsent ++ [.closed (lagged resource)]
  /-- So does a discarding finish; any other keeps what is not sent. -/
  finish : d.queue.ended = false → ∀ ending discard,
    (d.step (.finish ending discard)).reason = some ending ∧
      (d.step (.finish ending discard)).queue.pending =
        (if discard then unsentBegin d.unsent else d.queue.pending) ++ [.closed ending]
  unsent : d.popped = [] → unsentBegin d.unsent = [.begin cursor]
  /-- The Begin is the first item that is popped, also after an end. -/
  waits : d.popped = [] → d.queue.pending.head? = some (.begin cursor)
  /-- The first reason wins. -/
  ended : d.queue.ended = true → (∃ ending, d.reason = some ending) ∧
    (∀ item, d.queue.offer item = (false, d.queue)) ∧
    (∀ ending discard, d.queue.finish ending discard = d.queue) ∧
    ∀ later, (d.run later).reason = d.reason ∧ (d.run later).accepted = d.accepted ∧
      (d.run later).popped ++ (d.run later).queue.pending = d.popped ++ d.queue.pending
  bytes : d.queue.bytes = queuedBytes d.queue.updates ∧ d.queue.bytes ≤ messageBytes
  /-- The bytes of the next update can be taken off. -/
  next : ∀ item bytes rest, d.queue.updates = (item, bytes) :: rest → bytes ≤ d.queue.bytes

/-- Every interleaving of offers, finishes and pops keeps the law. -/
theorem queue_law [Postcard] (messageBytes : Nat) (cursor : ServiceCursor)
    (frames : List SubscriptionItem) (calls : List QueueCall) :
    Law messageBytes cursor frames ((start messageBytes cursor frames).run calls) := by
  have h := run_ok (start_ok messageBytes cursor frames) calls
  have hstart : (start messageBytes cursor frames).Waits cursor := fun _ => rfl
  have hwaits := run_waits hstart calls
  obtain ⟨hframes, hlimit⟩ := run_fixed (start messageBytes cursor frames) calls
  generalize (start messageBytes cursor frames).run calls = d at h hwaits hframes hlimit ⊢
  have hframes : d.frames = .begin cursor :: frames := hframes
  have hlimit : d.queue.messageBytes = messageBytes := hlimit
  exact
    { popped := hframes ▸ h.popped
      pop := ⟨d.queue.pop_pending.1, d.queue.pop_pending.2, by
        rw [QueueLog.step, d.queue.pop_pending.1]⟩
      stream := hframes ▸ h.stream
      accept := fun item => ⟨fun hopen => hlimit ▸ Queue.offer_accepts h.accounted.limit hopen item,
        d.accept⟩
      lag := fun hopen item hlag => h.lag hopen hlag
      finish := fun hopen => h.finish hopen
      unsent := fun hnone => by
        rw [QueueLog.unsent, hnone, hframes]
        rfl
      waits := fun hnone => Queue.pending_head (hwaits hnone)
      ended := fun hended => ⟨h.reason_some hended, fun item => Queue.offer_ended hended item,
        fun ending discard => Queue.finish_ended hended ending discard, fun later =>
          ⟨(h.frozen hended later).2.1, (h.frozen hended later).2.2, (h.frozen hended later).1⟩⟩
      bytes := ⟨h.accounted.bytes, hlimit ▸ h.accounted.limit⟩
      next := fun item bytes rest hu => h.accounted.head hu }

section examples

open TestSupport

/-- An update of the topic that `TestSupport` publishes. -/
def change (n : Nat) : SubscriptionItem := .update ⟨⟨"run", n⟩, .topicChanged counted.state⟩

/-- Two updates are accepted; the second is not sent before the queue ends, and a third is refused. -/
def changeCalls (discard : Bool) : List QueueCall :=
  [.offer (change 6), .pop, .pop, .offer (change 7), .finish .serviceStopped discard,
    .offer (change 8), .pop, .pop, .pop]

theorem queue_law_delivers :
    Law (1024 * 1024) ⟨"run", 5⟩ [] ((start (1024 * 1024) ⟨"run", 5⟩ []).run (changeCalls false)) ∧
    ((start (1024 * 1024) ⟨"run", 5⟩ []).run (changeCalls false)).popped =
      [.begin ⟨"run", 5⟩, change 6, change 7, .closed .serviceStopped] ∧
    ((start (1024 * 1024) ⟨"run", 5⟩ []).run (changeCalls true)).popped =
      [.begin ⟨"run", 5⟩, change 6, .closed .serviceStopped] ∧
    ((start (1024 * 1024) ⟨"run", 5⟩ []).run
      [.offer (change 6), .finish .serviceStopped true, .pop, .pop, .pop]).popped =
      [.begin ⟨"run", 5⟩, .closed .serviceStopped] :=
  ⟨queue_law (1024 * 1024) ⟨"run", 5⟩ [] (changeCalls false), by decide +kernel, by decide +kernel,
    by decide +kernel⟩

end examples

end QueueLog

end Service
end WfObserver
