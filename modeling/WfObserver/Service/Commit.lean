import WfObserver.Service.TestSupport
import WfObserver.Service.Transaction

/-!
# A commit is all or nothing

`Committed` describes a published poll: every operation of the batch is applied and announced, and
the announcements fit in the sequences that were reserved. `commitPoll_atomic` says that a commit
ends there, or leaves the service as it is, or finds a counter exhausted and closes the service as
it is.
-/

namespace WfObserver
namespace Service

open Wire

namespace StagedPublication

variable {staged : StagedPublication} {key : TopicRef} {payload : JsonPayload} {t : Topic}

theorem mem_resetUpdates (hk : key ∈ staged.resets) (ht : staged.topics.get? key = some t) :
    .topicReset t.state.source t.state.generation .sourceChanged ∈ staged.resetUpdates :=
  List.mem_filterMap.mpr ⟨key, hk, by rw [ht]; rfl⟩

theorem mem_eventUpdates {topics : OrdMap TopicRef Topic} {l : List (TopicRef × JsonPayload)}
    (he : (key, payload) ∈ l) (ht : topics.get? key = some t) (n : Nat) :
    ∃ m, .event ⟨⟨t.state.source, t.state.generation, m⟩, payload⟩ ∈ eventUpdates topics n l := by
  induction l generalizing n with
  | nil => simp at he
  | cons e l ih =>
    rw [eventUpdates]
    rcases List.mem_cons.mp he with rfl | he
    · simp only [ht]
      exact ⟨n + 1, List.mem_cons_self⟩
    · split
      · exact ih he n
      · obtain ⟨m, hm⟩ := ih he (n + 1)
        exact ⟨m, List.mem_cons_of_mem _ hm⟩

/-- An event that no later reset of its topic drops is staged. -/
theorem event_kept {ops before after : List Operation} (h : ops = before ++ .event key payload :: after)
    (hr : .reset key ∉ after) :
    (key, payload) ∈ ops.foldl (fun events op => stageEvents op events) [] := by
  subst h
  rw [List.foldl_append, List.foldl_cons]
  generalize before.foldl (fun events op => stageEvents op events) [] = events
  have hmem : (key, payload) ∈ stageEvents (.event key payload) events := by simp [stageEvents]
  revert hmem
  generalize stageEvents (.event key payload) events = events
  induction after generalizing events with
  | nil => exact id
  | cons op after ih =>
    intro hmem
    refine ih (fun h => hr (List.mem_cons_of_mem _ h)) _ ?_
    cases op with
    | reset k =>
      have hk : key ≠ k := fun he => hr (by simp [he])
      simpa [stageEvents, hk] using hmem
    | event k p => simp [stageEvents, hmem]
    | _ => exact hmem

/-- What the operations leave of a topic's source. -/
theorem applyOps_source {deadline : Instant} {ops : List Operation} {old : Topic}
    (h : applyOps deadline key ops old = .ok t) : t.state.source = old.state.source := by
  refine applyOps_rule (T := fun t => t.state.source = old.state.source) ?_ rfl h
  intro op _ _ t₀ t₁ h₀ hs
  cases op with
  | reset k =>
    simp only [stageTopic] at hs
    split at hs
    · cases hs
    · split at hs
      · cases hs
      · cases hs
        exact h₀
  | _ => cases hs; exact h₀

end StagedPublication

namespace Inner

open StagedPublication

/-- What a published poll leaves between its transaction and `settle`: `session'` replaces `session`
in `k`, and `us` are the updates of the transaction. -/
structure Committed (i : Inner) (ticket : PollTicket) (pending : Pending) (deadline : Instant)
    (reserved : Nat) (session session' : Session) (us : List SubscriptionUpdate) (k : Inner) :
    Prop where
  found : i.sessions.get? ticket.sessionId = some session
  stored : k.sessions = i.sessions.insert ticket.sessionId session'
  /-- No emission has closed the service. -/
  stopped : k.stopped = false
  log : k.log = i.log ++ envelopes i.runId i.sequence us
  sequence : k.sequence = i.sequence + us.length
  covered : us.length ≤ reserved
  room : i.sequence + reserved ≤ u64Max
  info : session'.info = { session.info with gameBuild := pending.gameBuild }
  metadata : pending.gameBuild ≠ session.info.gameBuild → .sessionChanged session'.info ∈ us
  /-- Topics without an operation stay. -/
  other : ∀ key, (∀ op ∈ pending.ops, op.key ≠ key) →
    session'.topics.get? key = session.topics.get? key
  /-- A topic has gone through its operations, and is announced as it is stored. -/
  applied : ∀ op ∈ pending.ops, ∃ old t n, session.topics.get? op.key = some old ∧
    applyOps deadline op.key pending.ops old = .ok t ∧
    session'.topics.get? op.key = some (settled old.state (n + 1) t) ∧
    (changed old.state t.state = true →
      ⟨⟨i.runId, n + 1⟩, .topicChanged (settled old.state (n + 1) t).state⟩ ∈
        envelopes i.runId i.sequence us)
  reset : ∀ key, .reset key ∈ pending.ops → ∃ old, session.topics.get? key = some old ∧
    .topicReset old.state.source (old.state.generation + 1) .sourceChanged ∈ us
  /-- An event is announced unless a later reset of its topic drops it. -/
  event : ∀ before key payload after, pending.ops = before ++ .event key payload :: after →
    .reset key ∉ after → ∃ t n, session'.topics.get? key = some t ∧
      .event ⟨⟨t.state.source, t.state.generation, n⟩, payload⟩ ∈ us

section Operations

variable [Postcard] {i : Inner} {ticket : PollTicket} {pending : Pending} {deadline : Instant}
  {session : Session} {staged : StagedPublication}

theorem Publishes.committed (hp : i.Publishes ticket pending deadline session staged)
    (hnodup : (pending.ops.filterMap Operation.resetKey?).Nodup) (marks : List Mark) :
    Committed i ticket pending deadline (reserved pending session staged) session
      (transaction pending session staged i.sequence).1
      (transaction pending session staged i.sequence).2
      ((i.record marks).transact ticket pending session staged) := by
  have hk := hp.transacted marks
  have happlied : ∀ op ∈ pending.ops, ∃ old t n, session.topics.get? op.key = some old ∧
      staged.topics.get? op.key = some t ∧ applyOps deadline op.key pending.ops old = .ok t ∧
      (transaction pending session staged i.sequence).1.topics.get? op.key =
        some (settled old.state (n + 1) t) ∧
      (changed old.state t.state = true →
        (⟨⟨i.runId, n + 1⟩, .topicChanged (settled old.state (n + 1) t).state⟩ : UpdateEnvelope) ∈
          envelopes i.runId i.sequence (transaction pending session staged i.sequence).2) := by
    intro op hop
    obtain ⟨t, ht⟩ := hp.prepared.op_staged hop
    obtain ⟨-, old, hold, hap⟩ := hp.prepared.of_get? ht
    obtain ⟨n, -, hget, hann⟩ := transaction_staged pending i.sequence ht hold i.runId
    exact ⟨old, t, n, hold, ht, hap, hget, hann⟩
  refine
    { found := hp.found
      stored := hk.sessions
      stopped := hk.stopped
      log := hk.log
      sequence := hk.sequence
      covered := transaction_length ..
      room := hp.room
      info := transaction_info _ _ _ _
      metadata := fun hne => ?_
      other := fun key hkey => ?_
      applied := fun op hop => ?_
      reset := fun key hkey => ?_
      event := fun before key payload after hops hr => ?_ }
  · have hm : Inner.metadata session pending =
        some { session.info with gameBuild := pending.gameBuild } := by
      rw [Inner.metadata, if_pos hne]
    rw [transaction_info]
    refine List.mem_append_left _ (List.mem_append_left _ ?_)
    simp [hm]
  · refine transaction_other _ ?_
    cases ht : staged.topics.get? key with
    | none => rfl
    | some t =>
      obtain ⟨⟨op, hop, he⟩, -⟩ := (hp.prepared.topics key t).mp ht
      exact absurd he (hkey op hop)
  · obtain ⟨old, t, n, hold, -, hap, hget, hann⟩ := happlied op hop
    exact ⟨old, t, n, hold, hap, hget, hann⟩
  · obtain ⟨old, t, -, hold, ht, hap, -, -⟩ := happlied _ hkey
    refine ⟨old, hold, ?_⟩
    have hmem : key ∈ pending.ops.filterMap Operation.resetKey? :=
      List.mem_filterMap.mpr ⟨_, hkey, rfl⟩
    -- A batch resets a topic at most once.
    have hgen : t.state.generation = old.state.generation + 1 := by
      rw [applyOps_generation hap]
      exact congrArg _ (List.count_eq_one_of_mem hnodup hmem)
    have hup := mem_resetUpdates (hp.prepared.resets ▸ hmem) ht
    rw [applyOps_source hap, hgen] at hup
    exact List.mem_append_left _ (List.mem_append_right _ hup)
  · have hmem : Operation.event key payload ∈ pending.ops := by simp [hops]
    obtain ⟨old, t, n, -, -, -, hget, -⟩ := happlied _ hmem
    have hev : (key, payload) ∈ staged.events := by
      rw [hp.prepared.events]
      exact event_kept hops hr
    obtain ⟨m, hm⟩ := mem_eventUpdates hev hget _
    exact ⟨_, m, hget, List.mem_append_right _ (List.mem_append_right _ hm)⟩

/-- `commit_poll` publishes the whole batch, or leaves the service as it is, or closes it because a
counter is exhausted. A published batch has reserved what it announces, and is then settled. -/
theorem commitPoll_atomic [SerdeJson] (i : Inner) (ticket : PollTicket) (batch : PollBatch)
    (deadline now : Instant) :
    ((i.commitPoll ticket batch deadline now).1 ≠ .ok true →
      (i.commitPoll ticket batch deadline now).2 = i ∨
      i.stopped = false ∧ Exhausts i ticket batch.pending deadline ∧
        (i.commitPoll ticket batch deadline now).2 = i.close exhausted) ∧
    ((i.commitPoll ticket batch deadline now).1 = .ok true →
      ∃ staged session session' us k,
        i.checkPoll ticket batch.pending deadline session = .ok staged ∧
        Committed i ticket batch.pending deadline (reserved batch.pending session staged) session
          session' us k ∧
        k = (((i.record (batch.pending.ops.map (Mark.applied ticket.sessionId · deadline))).put
          (i.sessions.insert ticket.sessionId session')).emitAll us) ∧
        (i.commitPoll ticket batch deadline now).2 = k.settle now) := by
  rcases commitPoll_cases ticket batch deadline now i with
    ⟨r, hr, he⟩ | ⟨hstop, hex, he⟩ | ⟨session, staged, hp, he⟩
  · rw [he]
    exact ⟨fun _ => .inl rfl, fun h => absurd h hr⟩
  · rw [he]
    exact ⟨fun _ => .inr ⟨hstop, hex, rfl⟩, fun h => by cases h⟩
  · rw [he]
    refine ⟨fun h => absurd rfl h, fun _ => ⟨staged, session, _, _, _, hp.checked, hp.committed ?_ _, ?_, rfl⟩⟩
    · rw [batch.wf.resets]
      exact batch.wf.nodup
    · exact transact_eq (i := i.record _) hp.stopped hp.found hp.room

end Operations

end Inner

end Service
end WfObserver
