import WfObserver.Lib.Runs
import WfObserver.Service.State

/-!
# What the service's steps leave alone

`emit` touches only the queues, the log and the sequence, or it closes the service because the
sequence is exhausted. `Quiet` collects what such a step keeps. A property of the sessions that
quiet steps and `close` preserve (`StoreInvariant`) is preserved by every emission; what remains to
prove for an operation is its effect on the sessions.

`settle` is a loop of turns `settleOnce`. Every turn after which a subscriber's queue has ended is
followed by one that drops a subscriber, so the fuel of `settle` is enough (`settleLoop_isSome`).
-/

namespace WfObserver
namespace Service

open Wire

variable [Postcard]

/-! ## Closing -/

namespace Inner

section close

variable (e : SubscriptionEnd) (i : Inner)

omit [Postcard]

@[simp] theorem close_stopped : (i.close e).stopped = true := rfl
@[simp] theorem close_catalog : (i.close e).catalog = i.catalog := rfl
@[simp] theorem close_messageBytes : (i.close e).messageBytes = i.messageBytes := rfl
@[simp] theorem close_runId : (i.close e).runId = i.runId := rfl
@[simp] theorem close_sequence : (i.close e).sequence = i.sequence := rfl
@[simp] theorem close_subscribers : (i.close e).subscribers = ∅ := rfl
@[simp] theorem close_log : (i.close e).log = i.log := rfl
@[simp] theorem close_history : (i.close e).history = i.history ++ [.closed] := rfl
@[simp] theorem close_nextSubscription : (i.close e).nextSubscription = i.nextSubscription := rfl

theorem close_get? (id : String) : (i.close e).sessions.get? id =
    (i.sessions.get? id).map fun s => { s with topics := s.topics.map fun _ t => t.shut } := by
  simp [close]

end close

/-! ## Emission -/

/-- The envelope that the next emission announces. -/
def nextEnvelope (update : SubscriptionUpdate) (i : Inner) : UpdateEnvelope :=
  ⟨⟨i.runId, i.sequence + 1⟩, update⟩

/-- An emission that does not close the service. -/
def announce (update : SubscriptionUpdate) (i : Inner) : Inner :=
  { i with
    sequence := i.sequence + 1
    channels := i.channels.map fun id c =>
      if (i.subscribers.get? id).any fun s => i.wants update s then
        c.offer (.update (i.nextEnvelope update))
      else c
    log := i.log ++ [i.nextEnvelope update] }

theorem emit_stopped {i : Inner} (h : i.stopped = true) (u : SubscriptionUpdate) : i.emit u = i := by
  simp [emit, advance, h]

theorem emit_full {i : Inner} (h : i.stopped = false) (hs : u64Max ≤ i.sequence)
    (u : SubscriptionUpdate) : i.emit u = i.close exhausted := by
  have : checkedAdd i.sequence 1 = none := checkedAdd_eq_none.mpr (by omega)
  simp [emit, advance, h, this]

omit [Postcard] in
theorem advance_room {i : Inner} (h : i.stopped = false) (hs : i.sequence < u64Max) :
    i.advance = (true, { i with sequence := i.sequence + 1 }) := by
  have : checkedAdd i.sequence 1 = some (i.sequence + 1) :=
    checkedAdd_eq_some.mpr ⟨rfl, by omega⟩
  unfold advance
  rw [if_neg (by simp [h]), this]

theorem emit_room {i : Inner} (h : i.stopped = false) (hs : i.sequence < u64Max)
    (u : SubscriptionUpdate) : i.emit u = i.announce u := by
  unfold emit
  rw [advance_room h hs]
  rfl

/-- The three outcomes of an emission. -/
theorem emit_cases (i : Inner) (u : SubscriptionUpdate) :
    (i.stopped = true ∧ i.emit u = i) ∨
    (i.stopped = false ∧ u64Max ≤ i.sequence ∧ i.emit u = i.close exhausted) ∨
    (i.stopped = false ∧ i.sequence < u64Max ∧ i.emit u = i.announce u) := by
  cases h : i.stopped with
  | true => exact .inl ⟨rfl, emit_stopped h u⟩
  | false =>
    rcases Nat.lt_or_ge i.sequence u64Max with hs | hs
    · exact .inr (.inr ⟨rfl, hs, emit_room h hs u⟩)
    · exact .inr (.inl ⟨rfl, hs, emit_full h hs u⟩)

@[simp] theorem emitAll_nil (i : Inner) : i.emitAll [] = i := rfl

@[simp] theorem emitAll_cons (i : Inner) (u : SubscriptionUpdate) (us : List SubscriptionUpdate) :
    i.emitAll (u :: us) = (i.emit u).emitAll us := rfl

theorem emitAll_append (i : Inner) (us vs : List SubscriptionUpdate) :
    i.emitAll (us ++ vs) = (i.emitAll us).emitAll vs := List.foldl_append

theorem emitAll_stopped {i : Inner} (h : i.stopped = true) (us : List SubscriptionUpdate) :
    i.emitAll us = i := by
  induction us with
  | nil => rfl
  | cons u us ih => rw [emitAll_cons, emit_stopped h, ih]

omit [Postcard] in
/-- A reservation fits, or the service closes. -/
theorem ensureSequences_cases {i : Inner} (h : i.stopped = false) (count : Nat) :
    (i.sequence + count ≤ u64Max ∧ i.ensureSequences count = (true, i)) ∨
      (u64Max < i.sequence + count ∧ i.ensureSequences count = (false, i.close exhausted)) := by
  unfold ensureSequences
  rcases Nat.lt_or_ge u64Max (i.sequence + count) with hc | hc
  · simp [h, checkedAdd_eq_none.mpr hc, hc]
  · have : checkedAdd i.sequence count = some (i.sequence + count) :=
      checkedAdd_eq_some.mpr ⟨rfl, hc⟩
    simp [h, this, hc]

/-- `i'` differs from `i` at most in the subscribers, the queues and the log, and in a sequence that
did not go down. -/
structure Quiet (i i' : Inner) : Prop where
  catalog : i'.catalog = i.catalog
  runId : i'.runId = i.runId
  sessions : i'.sessions = i.sessions
  stopped : i'.stopped = i.stopped
  history : i'.history = i.history
  sequence : i.sequence ≤ i'.sequence

omit [Postcard] in
theorem Quiet.refl (i : Inner) : Quiet i i := ⟨rfl, rfl, rfl, rfl, rfl, le_refl _⟩

omit [Postcard] in
theorem Quiet.trans {i j k : Inner} (h : Quiet i j) (h' : Quiet j k) : Quiet i k :=
  ⟨h'.catalog.trans h.catalog, h'.runId.trans h.runId, h'.sessions.trans h.sessions,
    h'.stopped.trans h.stopped, h'.history.trans h.history, h.sequence.trans h'.sequence⟩

theorem announce_quiet (u : SubscriptionUpdate) (i : Inner) : Quiet i (i.announce u) :=
  ⟨rfl, rfl, rfl, rfl, rfl, Nat.le_succ _⟩

/-- Emissions are quiet until one of them closes the service. -/
theorem emitAll_cases (i : Inner) (us : List SubscriptionUpdate) :
    (Quiet i (i.emitAll us) ∧ (i.emitAll us).subscribers = i.subscribers) ∨
      ∃ j, Quiet i j ∧ j.stopped = false ∧ u64Max ≤ j.sequence ∧
        i.emitAll us = j.close exhausted := by
  induction us generalizing i with
  | nil => exact .inl ⟨.refl i, rfl⟩
  | cons u us ih =>
    rw [emitAll_cons]
    rcases emit_cases i u with ⟨-, he⟩ | ⟨hn, hs, he⟩ | ⟨hn, -, he⟩
    · rw [he]; exact ih i
    · rw [he, emitAll_stopped (close_stopped _ _)]
      exact .inr ⟨i, .refl i, hn, hs, rfl⟩
    · rw [he]
      have hq := announce_quiet u i
      rcases ih (i.announce u) with ⟨h, hsub⟩ | ⟨j, hj, hjs, hjf, heq⟩
      · exact .inl ⟨hq.trans h, hsub⟩
      · exact .inr ⟨j, hq.trans hj, hjs, hjf, heq⟩

/-- The envelopes of consecutive emissions after sequence `n`. -/
def envelopes (runId : String) : Nat → List SubscriptionUpdate → List UpdateEnvelope
  | _, [] => []
  | n, u :: us => ⟨⟨runId, n + 1⟩, u⟩ :: envelopes runId (n + 1) us

/-- Emissions with room in the sequence: all are announced, in order. -/
theorem emitAll_room {i : Inner} (us : List SubscriptionUpdate) (h : i.stopped = false)
    (hs : i.sequence + us.length ≤ u64Max) :
    Quiet i (i.emitAll us) ∧ (i.emitAll us).subscribers = i.subscribers ∧
      (i.emitAll us).sequence = i.sequence + us.length ∧
      (i.emitAll us).log = i.log ++ envelopes i.runId i.sequence us := by
  induction us generalizing i with
  | nil => simp [envelopes, Quiet.refl]
  | cons u us ih =>
    simp only [List.length_cons] at hs ⊢
    rw [emitAll_cons, emit_room h (by omega)]
    have hq := announce_quiet u i
    obtain ⟨h₁, h₂, h₃, h₄⟩ := ih (i := i.announce u) h (by simp only [announce]; omega)
    refine ⟨hq.trans h₁, h₂, ?_, ?_⟩
    · rw [h₃]; simp only [announce]; omega
    · rw [h₄]; simp [announce, nextEnvelope, envelopes]

/-! ## Properties of the stored sessions -/

/-- Preserved by quiet steps and by closing. -/
structure StoreInvariant (I : Inner → Prop) : Prop where
  quiet : ∀ {i i'}, Quiet i i' → I i → I i'
  close : ∀ {i} e, I i → I (i.close e)

theorem StoreInvariant.emitAll {I : Inner → Prop} (H : StoreInvariant I) {i : Inner} (h : I i)
    (us : List SubscriptionUpdate) : I (i.emitAll us) := by
  rcases emitAll_cases i us with ⟨hq, -⟩ | ⟨j, hq, -, -, he⟩
  · exact H.quiet hq h
  · rw [he]; exact H.close _ (H.quiet hq h)

theorem StoreInvariant.emit {I : Inner → Prop} (H : StoreInvariant I) {i : Inner} (h : I i)
    (u : SubscriptionUpdate) : I (i.emit u) := H.emitAll h [u]

/-! ## The settle loop -/

omit [Postcard] in
theorem retainLive_quiet (i : Inner) : Quiet i i.retainLive := ⟨rfl, rfl, rfl, rfl, rfl, le_refl _⟩

/-- A turn keeps the subscribers that it retained, unless the service closes. -/
theorem applyPass_subscribers (p : OrdMap String Session × List Change × Bool) (i : Inner) :
    (i.applyPass p).subscribers = i.subscribers ∨ (i.applyPass p).subscribers = ∅ := by
  unfold applyPass
  dsimp only
  split
  · exact .inr rfl
  · rcases emitAll_cases _ _ with ⟨-, h⟩ | ⟨j, -, -, -, h⟩
    · left
      rw [h]
      split <;> rfl
    · right
      rw [h]
      rfl

theorem settleOnce_subscribers (now : Instant) (i : Inner) :
    (i.settleOnce now).subscribers = i.retainLive.subscribers ∨
      (i.settleOnce now).subscribers = ∅ := applyPass_subscribers _ _

omit [Postcard] in
/-- Dropping the ended subscribers makes progress if there is one. -/
theorem retainLive_lt {i : Inner} (h : i.lagging = true) :
    i.retainLive.subscribers.size < i.subscribers.size := by
  obtain ⟨id, s, hs, he⟩ := OrdMap.any_iff.mp h
  exact OrdMap.size_filter_lt hs (by simp [he])

theorem settleLoop_isSome {fuel : Nat} {now : Instant} {i : Inner}
    (h : i.retainLive.subscribers.size < fuel) : (settleLoop fuel now i).isSome := by
  induction fuel generalizing i with
  | zero => omega
  | succ fuel ih =>
    simp only [settleLoop]
    split
    · rename_i hl
      refine ih ?_
      have hlt := retainLive_lt hl
      rcases settleOnce_subscribers now i with hs | hs
      · rw [hs] at hlt; omega
      · rw [hs] at hlt; simp [OrdMap.size, EmptyCollection.emptyCollection, OrdMap.empty] at hlt
    · rfl

/-- The fuel of `settle` is enough. -/
theorem settle_eq (now : Instant) (i : Inner) :
    settleLoop (i.subscribers.size + 1) now i = some (i.settle now) := by
  have h : (settleLoop (i.subscribers.size + 1) now i).isSome :=
    settleLoop_isSome (Nat.lt_succ_of_le (OrdMap.size_filter_le _ _))
  obtain ⟨j, hj⟩ := Option.isSome_iff_exists.mp h
  rw [settle, hj, Option.getD_some]

theorem settleLoop_rule {I : Inner → Prop} {now : Instant}
    (hstep : ∀ i, I i → I (i.settleOnce now)) {fuel : Nat} {i j : Inner} (h : I i)
    (hj : settleLoop fuel now i = some j) : I j := by
  induction fuel generalizing i with
  | zero => simp [settleLoop] at hj
  | succ fuel ih =>
    simp only [settleLoop] at hj
    split at hj
    · exact ih (hstep i h) hj
    · cases hj; exact hstep i h

/-- What every turn preserves, `settle` preserves. -/
theorem settle_rule {I : Inner → Prop} {now : Instant}
    (hstep : ∀ i, I i → I (i.settleOnce now)) {i : Inner} (h : I i) : I (i.settle now) :=
  settleLoop_rule hstep h (settle_eq now i)

theorem settleLoop_last {fuel : Nat} {now : Instant} {i j : Inner}
    (hj : settleLoop fuel now i = some j) : ∃ k, j = settleOnce now k ∧ j.lagging = false := by
  induction fuel generalizing i with
  | zero => simp [settleLoop] at hj
  | succ fuel ih =>
    simp only [settleLoop] at hj
    split at hj
    · exact ih hj
    · rename_i hl
      cases hj
      exact ⟨i, rfl, by simpa using hl⟩

/-- `settle` ends with a turn after which no subscriber's queue has ended. -/
theorem settle_last (now : Instant) (i : Inner) :
    ∃ k, i.settle now = settleOnce now k ∧ (i.settle now).lagging = false :=
  settleLoop_last (settle_eq now i)

theorem settleOnce_stopped (now : Instant) {i : Inner} (h : i.stopped = true) :
    (i.settleOnce now).stopped = true := by
  unfold settleOnce applyPass
  dsimp only
  split
  · rfl
  · rw [emitAll_stopped]
    · split <;> exact h
    · split <;> exact h

theorem settle_stopped (now : Instant) {i : Inner} (h : i.stopped = true) :
    (i.settle now).stopped = true :=
  settle_rule (I := fun i => i.stopped = true) (fun _ => settleOnce_stopped now) h

/-! ## Passes over the topics -/

omit [Postcard] in
/-- What a pass leaves of a session and of its topics. -/
theorem pass_get? {f : String → Session → TopicRef → Topic → Topic × List Change × Bool}
    {sessions : OrdMap String Session} {id : String} {s' : Session}
    (h : (pass f sessions).1.get? id = some s') :
    ∃ s, sessions.get? id = some s ∧ s'.info = s.info ∧
      (∀ key, s'.topics.contains key = s.topics.contains key) ∧
      ∀ key t', s'.topics.get? key = some t' →
        ∃ t, s.topics.get? key = some t ∧ (t' = t ∨ t' = (f id s key t).1) := by
  obtain ⟨s, hs, hw⟩ := OrdMap.visit_get? h
  rcases hw with rfl | rfl
  · exact ⟨s', hs, rfl, fun _ => rfl, fun key t' ht => ⟨t', ht, .inl rfl⟩⟩
  · exact ⟨s, hs, rfl, fun key => OrdMap.visit_contains _ _ _,
      fun key t' ht => OrdMap.visit_get? ht⟩

omit [Postcard] in
theorem pass_contains (f : String → Session → TopicRef → Topic → Topic × List Change × Bool)
    (sessions : OrdMap String Session) (id : String) :
    (pass f sessions).1.contains id = sessions.contains id := OrdMap.visit_contains _ _ _

omit [Postcard] in
/-- A pass that did not stop gave every topic its new value. -/
theorem pass_map {f : String → Session → TopicRef → Topic → Topic × List Change × Bool}
    {sessions : OrdMap String Session} (h : (pass f sessions).2.2 = false) :
    (pass f sessions).1 = sessions.map fun id s =>
      { s with topics := s.topics.map fun key t => (f id s key t).1 } := by
  unfold pass at h ⊢
  rw [OrdMap.visit_map h]
  refine OrdMap.ext_get? fun id => ?_
  rw [OrdMap.get?_map, OrdMap.get?_map]
  cases hs : sessions.get? id with
  | none => rfl
  | some s =>
    have hgo : (s.topics.visit (f id s)).2.2 = false := OrdMap.visit_go h hs
    simp only [Option.map_some, OrdMap.visit_map hgo]

omit [Postcard] in
theorem pass_go {f : String → Session → TopicRef → Topic → Topic × List Change × Bool}
    {sessions : OrdMap String Session} (h : (pass f sessions).2.2 = false) {id : String}
    {s : Session} (hs : sessions.get? id = some s) {key : TopicRef} {t : Topic}
    (ht : s.topics.get? key = some t) : (f id s key t).2.2 = false :=
  OrdMap.visit_go (OrdMap.visit_go h hs) ht

end Inner

end Service
end WfObserver
