import WfObserver.Service.Counters
import WfObserver.Service.Tales
import WfObserver.Service.Tickets
import WfObserver.Service.Waning

/-!
# What a finished poll resets

A poll's source resets reach the service when it is committed (`commitPoll_resets`) or discarded
(`discardPoll_resets`). Either way the operation does nothing, or finds a counter exhausted and closes
the service as it is, or `Resets` a set of topics: their generation rises by one and one
`SourceChanged` reset is announced for each of them, and no other topic is reset or raised.

A topic is hit only at the generation of the ticket, so no ticket hits it again.
-/

namespace WfObserver
namespace Service

open Wire Protocol
open ProviderSdk (ProviderManifest)

/-- A source reset. -/
def sourceReset : SubscriptionUpdate → Bool
  | .topicReset _ _ .sourceChanged => true
  | _ => false

/-- The source resets of a topic among some updates. -/
def sourceResets (p : String × TopicRef) (us : List SubscriptionUpdate) : List SubscriptionUpdate :=
  us.filter fun u => sourceReset u && decide (point u = p)

@[simp] theorem sourceResets_nil (p : String × TopicRef) : sourceResets p [] = [] := rfl

theorem sourceResets_append (p : String × TopicRef) (us vs : List SubscriptionUpdate) :
    sourceResets p (us ++ vs) = sourceResets p us ++ sourceResets p vs := List.filter_append ..

theorem sourceResets_eq_nil {p : String × TopicRef} {us : List SubscriptionUpdate}
    (h : ∀ u ∈ us, sourceReset u = false) : sourceResets p us = [] :=
  List.filter_eq_nil_iff.mpr fun u hu => by simp [h u hu]

/-- The resets of a topic are among the updates about it. -/
theorem sourceResets_point (p : String × TopicRef) (us : List SubscriptionUpdate) :
    sourceResets p us = (us.filter fun u => decide (point u = p)).filter sourceReset := by
  rw [sourceResets, List.filter_filter]

/-- The topics of `hit` are reset once, and no others. -/
structure Resets (hit : String → TopicRef → Bool) (i i' : Inner) : Prop where
  topic : ∀ id s key t, i.sessions.get? id = some s → s.topics.get? key = some t →
    ∃ s' t', i'.sessions.get? id = some s' ∧ s'.topics.get? key = some t' ∧
      t'.state.source = t.state.source ∧
      t'.state.generation = t.state.generation + if hit id key then 1 else 0
  announced : ∃ us, i'.log = i.log ++ us ∧
    ∀ id s key t, i.sessions.get? id = some s → s.topics.get? key = some t →
      sourceResets (id, key) (us.map (·.update)) =
        if hit id key then
          [.topicReset t.state.source (t.state.generation + 1) .sourceChanged]
        else []

/-- Only the topics that are there count. -/
theorem Resets.congr {hit hit' : String → TopicRef → Bool} {i i' : Inner} (h : Resets hit i i')
    (heq : ∀ id s key t, i.sessions.get? id = some s → s.topics.get? key = some t →
      hit id key = hit' id key) : Resets hit' i i' := by
  refine ⟨fun id s key t hs ht => heq id s key t hs ht ▸ h.topic id s key t hs ht, ?_⟩
  obtain ⟨us, hl, hus⟩ := h.announced
  exact ⟨us, hl, fun id s key t hs ht => heq id s key t hs ht ▸ hus id s key t hs ht⟩

/-- `settle` resets nothing more. -/
theorem Resets.wanes {hit : String → TopicRef → Bool} {i j i' : Inner} (h : Resets hit i j)
    (hw : Wanes j i') : Resets hit i i' := by
  refine ⟨fun id s key t hs ht => ?_, ?_⟩
  · obtain ⟨s', t', hs', ht', hsrc, hg⟩ := h.topic id s key t hs ht
    obtain ⟨s'', t'', hs'', -, ht'', hkept⟩ := hw.topic id s' key t' hs' ht'
    exact ⟨s'', t'', hs'', ht'', hkept.source.trans hsrc, hkept.generation.trans hg⟩
  · obtain ⟨us, hl, hus⟩ := h.announced
    obtain ⟨vs, hl', hvs⟩ := hw.announced
    refine ⟨us ++ vs, by rw [hl', hl, List.append_assoc], fun id s key t hs ht => ?_⟩
    have hnone : sourceResets (id, key) (vs.map (·.update)) = [] := by
      refine sourceResets_eq_nil fun u hu => ?_
      obtain ⟨e, he, rfl⟩ := List.mem_map.mp hu
      obtain ⟨state, hstate⟩ := hvs e he
      rw [hstate]
      rfl
    rw [List.map_append, sourceResets_append, hus id s key t hs ht, hnone, List.append_nil]

section Operations

variable {manifests : List ProviderManifest} {i : Inner} {ticket : PollTicket}
  {resets : List TopicRef} {failed : Bool} {session : Session}

/-! ## A discarded poll -/

/-- The topics that discarding a poll resets. -/
def discardHits (ticket : PollTicket) (resets : List TopicRef) (failed : Bool) (session : Session)
    (id : String) (key : TopicRef) : Bool :=
  id == ticket.sessionId && (Inner.affected ticket resets failed session).get? key == some true

variable (ticket resets failed session) in
theorem discardSteps_generation (id : String) (s : Session) (key : TopicRef) (t : Topic) :
    (Inner.discardSteps ticket resets failed session id s key t).1.state.source = t.state.source ∧
    (Inner.discardSteps ticket resets failed session id s key t).1.demanded = t.demanded ∧
    (Inner.discardSteps ticket resets failed session id s key t).1.state.generation =
      t.state.generation + if discardHits ticket resets failed session id key then 1 else 0 := by
  unfold Inner.discardSteps discardHits
  by_cases hid : id = ticket.sessionId
  · rw [if_pos hid]
    unfold Inner.discardedTopic
    rcases ha : (Inner.affected ticket resets failed session).get? key with _ | ⟨_ | _⟩ <;>
      simp [hid, Topic.discard]
  · rw [if_neg hid]
    simp [hid]

/-- The resets among the updates of one topic's step. -/
theorem discardSteps_resets (id : String) (s : Session) (key : TopicRef) (t : Topic) :
    ((Inner.discardSteps ticket resets failed session id s key t).2.map Change.update).filter
        sourceReset =
      if discardHits ticket resets failed session id key then
        [.topicReset t.state.source (t.state.generation + 1) .sourceChanged]
      else [] := by
  unfold Inner.discardSteps discardHits
  by_cases hid : id = ticket.sessionId
  · rw [if_pos hid]
    unfold Inner.discardChanges
    rcases ha : (Inner.affected ticket resets failed session).get? key with _ | ⟨_ | _⟩
    · simp
    · simp [hid, Topic.discard, sourceReset]
    · simp only [hid, beq_self_eq_true, Bool.and_true, if_true]
      rfl
  · rw [if_neg hid]
    simp [hid]

variable [Postcard]

theorem discardTransaction_resets (h : StoreOk manifests i)
    (hd : i.Discards ticket resets failed session) :
    Resets (discardHits ticket resets failed session) i
      (i.discardTransaction ticket resets failed session) := by
  obtain ⟨hsweep, hlist⟩ := Inner.discard_sweep resets failed hd.found
  obtain ⟨hquiet, -, -, hlog⟩ := Inner.emitAll_room (i := i.discardStored ticket resets failed session)
    ((Inner.discardList ticket resets failed session).map Change.update) hd.stopped (by
      rw [List.length_map]
      exact hd.room)
  refine ⟨fun id s key t hs ht => ?_, _, hlog, fun id s key t hs ht => ?_⟩
  · have hstored : (i.discardTransaction ticket resets failed session).sessions =
        sweep (Inner.discardSteps ticket resets failed session) i.sessions :=
      hquiet.sessions.trans hsweep
    obtain ⟨hsrc, -, hgen⟩ := discardSteps_generation ticket resets failed session
      id s key t
    refine ⟨{ s with topics := s.topics.map fun key t =>
      (Inner.discardSteps ticket resets failed session id s key t).1 }, _, ?_, ?_, hsrc, hgen⟩
    · rw [hstored, sweep_get?, hs]
      rfl
    · rw [OrdMap.get?_map, ht]
      rfl
  · have hpoint : ∀ id' s' key' t', i.sessions.get? id' = some s' →
        s'.topics.get? key' = some t' →
        ∀ c ∈ (Inner.discardSteps ticket resets failed session id' s' key' t').2,
          point c.update = (id', key') := by
      intro id' s' key' t' hs' ht' c hc
      have hsrc := ((h.sessions id' s' hs').topics key' t' ht').source
      refine StagedPublication.point_of_source (discardSteps_source hc) ?_ ?_ <;> rw [hsrc]
      rw [(h.sessions id' s' hs').session]
    have hown := filter_swept (g := Inner.discardSteps ticket resets failed session)
      (q := fun c => decide (point c.update = (id, key)))
      (fun s' t' hs' (ht' : s'.topics.get? key = some t') c hc => by simp [hpoint id s' key t' hs' ht' c hc])
      (fun id' s' key' t' hs' ht' hne c hc => by
        rw [hpoint id' s' key' t' hs' ht' c hc]
        simpa using hne)
    rw [Inner.discardStored, envelopes_update, sourceResets_point, hlist]
    have hmap : ((swept (Inner.discardSteps ticket resets failed session) i.sessions).map
        Change.update).filter (fun u => decide (point u = (id, key))) =
        (steppedAt (Inner.discardSteps ticket resets failed session) i.sessions id key).map
          Change.update := by
      rw [List.filter_map, ← hown]
      rfl
    rw [hmap, steppedAt_some hs ht, discardSteps_resets]

theorem discardTransaction_covered (h : Covered i)
    (hd : i.Discards ticket resets failed session) :
    Covered (i.discardTransaction ticket resets failed session) := by
  obtain ⟨hsweep, -⟩ := Inner.discard_sweep resets failed hd.found
  obtain ⟨hquiet, hsub, -, -⟩ := Inner.emitAll_room
    (i := i.discardStored ticket resets failed session)
    ((Inner.discardList ticket resets failed session).map Change.update) hd.stopped (by
      rw [List.length_map]
      exact hd.room)
  intro id s key t hs ht hw
  rw [Inner.discardTransaction, hquiet.sessions, hsweep, sweep_get?] at hs
  obtain ⟨s₀, hs₀, rfl⟩ := Option.map_eq_some_iff.mp hs
  rw [OrdMap.get?_map] at ht
  obtain ⟨t₀, ht₀, rfl⟩ := Option.map_eq_some_iff.mp ht
  obtain ⟨-, hdem, -⟩ := discardSteps_generation ticket resets failed session
    id s₀ key t₀
  rw [hdem]
  refine h id s₀ key t₀ hs₀ ht₀ ?_
  rw [Inner.wanted, Inner.discardTransaction, hsub] at hw
  exact hw

/-- Discarding a poll does nothing, or closes the service as it is because a counter is exhausted,
or resets the topics that it hits; a topic that it does not touch is left to `settle`. -/
theorem discardPoll_resets (h : StoreOk manifests i) (hc : Covered i) (ticket : PollTicket)
    (resets : List TopicRef) (failed : Bool) (now : Instant) :
    ((i.stopped = true ∨ i.sessions.get? ticket.sessionId = none) ∧
      (i.discardPoll ticket resets failed now).2 = i) ∨
    (i.stopped = false ∧ i.DiscardExhausts ticket resets failed ∧
      (i.discardPoll ticket resets failed now).2 = i.close Inner.exhausted) ∨
    ∃ session, i.sessions.get? ticket.sessionId = some session ∧
      Resets (discardHits ticket resets failed session) i
        (i.discardPoll ticket resets failed now).2 ∧
      ∀ id s key t, i.sessions.get? id = some s → s.topics.get? key = some t →
        (id = ticket.sessionId →
          (Inner.affected ticket resets failed session).get? key = none) →
        ∃ s' t', (i.discardPoll ticket resets failed now).2.sessions.get? id = some s' ∧
          s'.topics.get? key = some t' ∧
          t.Wanes (i.discardPoll ticket resets failed now).2.stopped t' := by
  rcases Inner.discardPoll_cases ticket resets failed now i with
    ⟨hn, he⟩ | ⟨ho, hex, he⟩ | ⟨session, hd, he⟩
  · exact .inl ⟨hn, congrArg Prod.snd he⟩
  · exact .inr (.inl ⟨ho, hex, congrArg Prod.snd he⟩)
  refine .inr (.inr ⟨session, hd.found, ?_, fun id s key t hs ht hfree => ?_⟩) <;> rw [he]
  · exact (discardTransaction_resets h hd).wanes
      (settle_wanes now (discardTransaction_covered hc hd))
  · obtain ⟨hsweep, -⟩ := Inner.discard_sweep resets failed hd.found
    have hquiet : (i.discardTransaction ticket resets failed session).sessions =
        sweep (Inner.discardSteps ticket resets failed session) i.sessions :=
      (Inner.emitAll_room (i := i.discardStored ticket resets failed session)
        ((Inner.discardList ticket resets failed session).map Change.update) hd.stopped (by
          rw [List.length_map]
          exact hd.room)).1.sessions.trans hsweep
    have hsame : (Inner.discardSteps ticket resets failed session id s key t).1 = t := by
      unfold Inner.discardSteps
      by_cases hid : id = ticket.sessionId
      · rw [if_pos hid]
        unfold Inner.discardedTopic
        rw [hfree hid]
      · rw [if_neg hid]
    obtain ⟨s', t', hs', -, ht', hw⟩ :=
      (settle_wanes now (discardTransaction_covered hc hd)).topic id
        { s with topics := s.topics.map fun key t =>
          (Inner.discardSteps ticket resets failed session id s key t).1 } key t
        (by rw [hquiet, sweep_get?, hs]; rfl) (by rw [OrdMap.get?_map, ht, Option.map_some, hsame])
    exact ⟨s', t', hs', ht', hw⟩

/-! ## A committed poll -/

omit [Postcard] in
/-- The topics that committing a poll resets. -/
def commitHits (ticket : PollTicket) (resets : List TopicRef) (id : String) (key : TopicRef) : Bool :=
  id == ticket.sessionId && resets.contains key

section commit

variable {pending : Pending} {deadline : Instant} {staged : StagedPublication}

omit [Postcard] in
/-- The resets among the updates of a poll's transaction are those of its opening. -/
theorem transaction_sourceResets (pending : Pending) (session : Session)
    (staged : StagedPublication) (n : Nat) (p : String × TopicRef) :
    sourceResets p (Inner.transaction pending session staged n).2 =
      sourceResets p staged.resetUpdates := by
  have hmeta : sourceResets p
      ((Inner.metadata session pending).map SubscriptionUpdate.sessionChanged).toList = [] := by
    refine sourceResets_eq_nil fun u hu => ?_
    obtain ⟨info, -, rfl⟩ := Option.map_eq_some_iff.mp (Option.mem_toList.mp hu)
    rfl
  have htopics : ∀ m, sourceResets p
      (StagedPublication.publishTopics session.topics m staged.topics.entries).2 = [] := fun m => by
    refine sourceResets_eq_nil fun u hu => ?_
    obtain ⟨-, -, state, rfl, -⟩ := StagedPublication.publishTopics_changed hu
    rfl
  have hevents : ∀ topics m,
      sourceResets p (StagedPublication.eventUpdates topics m staged.events) = [] := fun topics m => by
    refine sourceResets_eq_nil fun u hu => ?_
    obtain ⟨event, rfl⟩ := StagedPublication.eventUpdates_event hu
    rfl
  simp only [Inner.transaction, Inner.opening, sourceResets_append, hmeta, htopics, hevents,
    List.nil_append, List.append_nil]

theorem transact_resets (h : StoreOk manifests i)
    (hp : i.Publishes ticket pending deadline session staged)
    (hresets : pending.ops.filterMap Operation.resetKey? = pending.resets)
    (hnodup : pending.resets.Nodup) (marks : List Mark) :
    Resets (commitHits ticket pending.resets) i
      ((i.record marks).transact ticket pending session staged) := by
  have ht := hp.transacted marks
  have hstaged : staged.resets = pending.resets := hp.prepared.resets.trans hresets
  have hsrc : ∀ key t, staged.topics.get? key = some t →
      t.state.source.session.sessionId = ticket.sessionId ∧ t.state.source.topic = key := by
    intro key t hst
    obtain ⟨-, old, hold, hap⟩ := hp.prepared.of_get? hst
    rw [StagedPublication.applyOps_source hap,
      ((h.sessions _ _ hp.found).topics key old hold).source, (h.sessions _ _ hp.found).session]
    exact ⟨rfl, rfl⟩
  have hgeneration : ∀ key t old, staged.topics.get? key = some t →
      session.topics.get? key = some old →
      t.state.generation = old.state.generation + if pending.resets.contains key then 1 else 0 := by
    intro key t old hst hold
    obtain ⟨-, old', hold', hap⟩ := hp.prepared.of_get? hst
    obtain rfl : old = old' := Option.some.inj (hold.symm.trans hold')
    rw [StagedPublication.applyOps_generation hap, hresets, hnodup.count]
    simp only [List.contains_iff_mem]
  have hnot : ∀ key, staged.topics.get? key = none → key ∉ pending.resets := by
    intro key hst hmem
    obtain ⟨t, ht⟩ := hp.prepared.reset_staged (hstaged ▸ hmem)
    rw [hst] at ht
    cases ht
  refine ⟨fun id s key t hs hkt => ?_, _, ht.log, fun id s key t hs hkt => ?_⟩
  · by_cases hid : id = ticket.sessionId
    · subst hid
      obtain rfl : session = s := Option.some.inj (hp.found.symm.trans hs)
      cases hst : staged.topics.get? key with
      | none =>
        refine ⟨_, t, by rw [ht.sessions, OrdMap.get?_insert_self], ?_, rfl, ?_⟩
        · rw [Inner.transaction_other _ hst, hkt]
        · simp [commitHits, hnot key hst]
      | some t' =>
        obtain ⟨-, old, hold, hap⟩ := hp.prepared.of_get? hst
        obtain rfl : t = old := Option.some.inj (hkt.symm.trans hold)
        obtain ⟨n, -, hget, -⟩ := Inner.transaction_staged pending i.sequence hst hkt i.runId
        have hsource : t'.state.source = t.state.source := StagedPublication.applyOps_source hap
        refine ⟨_, _, by rw [ht.sessions, OrdMap.get?_insert_self], hget, hsource, ?_⟩
        rw [commitHits, beq_self_eq_true, Bool.true_and]
        exact hgeneration key t' t hst hkt
    · refine ⟨s, t, ?_, hkt, rfl, ?_⟩
      · rw [ht.sessions, OrdMap.get?_insert_ne _ _ hid, hs]
      · simp [commitHits, hid]
  · rw [envelopes_update, transaction_sourceResets, sourceResets_point]
    by_cases hst : id = ticket.sessionId ∧ (staged.topics.get? key).isSome
    · obtain ⟨rfl, hst⟩ := hst
      obtain ⟨t', hst⟩ := Option.isSome_iff_exists.mp hst
      obtain rfl : session = s := Option.some.inj (hp.found.symm.trans hs)
      obtain ⟨-, old, hold, hap⟩ := hp.prepared.of_get? hst
      obtain rfl : t = old := Option.some.inj (hkt.symm.trans hold)
      have hgen := hgeneration key t' t hst hkt
      rw [StagedPublication.filter_resetUpdates (hstaged ▸ hnodup) hsrc hst, commitHits,
        beq_self_eq_true, Bool.true_and, hgen, StagedPublication.applyOps_source hap, hstaged]
      by_cases hr : key ∈ pending.resets
      · simp [hr, sourceReset]
      · simp [hr]
    · have hhit : commitHits ticket pending.resets id key = false := by
        by_contra hhit
        obtain ⟨hid, hmem⟩ := Bool.and_eq_true_iff.mp (eq_true_of_ne_false hhit)
        obtain ⟨t', hst'⟩ := hp.prepared.reset_staged
          (hstaged ▸ List.contains_iff_mem.mp hmem : key ∈ staged.resets)
        exact hst ⟨beq_iff_eq.mp hid, by simp [hst']⟩
      have hnone : staged.resetUpdates.filter (fun u => decide (point u = (id, key))) = [] := by
        refine List.filter_eq_nil_iff.mpr fun u hu hpoint => ?_
        obtain ⟨k, -, hk⟩ := List.mem_filterMap.mp hu
        obtain ⟨t', ht', rfl⟩ := Option.map_eq_some_iff.mp hk
        have hpoint : point (.topicReset t'.state.source t'.state.generation .sourceChanged) =
            (id, key) := by simpa using hpoint
        rw [StagedPublication.point_of_source rfl (hsrc k t' ht').1 (hsrc k t' ht').2] at hpoint
        cases hpoint
        exact hst ⟨rfl, by simp [ht']⟩
      rw [hhit, hnone]
      rfl

/-- A poll's transaction does not change what is demanded or wanted. -/
theorem transact_covered (h : Covered i) (hp : i.Publishes ticket pending deadline session staged)
    (marks : List Mark) : Covered ((i.record marks).transact ticket pending session staged) := by
  have ht := hp.transacted marks
  intro id s key t hs hkt hw
  have hw : i.wanted s.info.session key = true := by
    rw [Inner.wanted, ht.subscribers] at hw
    exact hw
  rw [ht.sessions, OrdMap.get?_insert] at hs
  split at hs
  · rename_i hid
    subst hid
    cases hs
    have hinfo : (Inner.transaction pending session staged i.sequence).1.info.session =
        session.info.session := by
      rw [Inner.transaction_info]
    rw [hinfo] at hw
    cases hst : staged.topics.get? key with
    | none =>
      rw [Inner.transaction_other _ hst] at hkt
      exact h _ session key t hp.found hkt hw
    | some t' =>
      obtain ⟨-, old, hold, hap⟩ := hp.prepared.of_get? hst
      obtain ⟨n, -, hget, -⟩ := Inner.transaction_staged pending i.sequence hst hold i.runId
      rw [hget] at hkt
      cases hkt
      have hdem : t'.demanded = old.demanded := by
        refine StagedPublication.applyOps_rule (T := fun t => t.demanded = old.demanded) ?_ rfl hap
        intro op _ _ t₀ t₁ h₀ hstep
        exact (StagedPublication.stageTopic_demanded hstep).trans h₀
      exact hdem.trans (h _ session key old hp.found hold hw)
  · exact h id s key t hs hkt hw

end commit

/-- Committing a poll that is not published does nothing or closes the service as it is because a
counter is exhausted; a published poll resets the topics that its batch reset. -/
theorem commitPoll_resets [SerdeJson] (h : StoreOk manifests i) (hc : Covered i)
    (ticket : PollTicket) (batch : PollBatch) (deadline now : Instant) :
    ((i.commitPoll ticket batch deadline now).1 ≠ .ok true ∧
      ((i.commitPoll ticket batch deadline now).2 = i ∨
        i.stopped = false ∧ i.Exhausts ticket batch.pending deadline ∧
          (i.commitPoll ticket batch deadline now).2 = i.close Inner.exhausted)) ∨
    (i.commitPoll ticket batch deadline now).1 = .ok true ∧
      (∃ session, i.sessions.get? ticket.sessionId = some session ∧
        Inner.stale ticket session = false) ∧
      (∀ key ∈ batch.resetIntents, ∃ d ∈ ticket.topics, d.key = key) ∧
      Resets (commitHits ticket batch.resetIntents) i
        (i.commitPoll ticket batch deadline now).2 := by
  rcases Inner.commitPoll_cases ticket batch deadline now i with
    ⟨r, hr, he⟩ | ⟨hstop, hex, he⟩ | ⟨session, staged, hp, he⟩ <;> rw [he]
  · exact .inl ⟨hr, .inl rfl⟩
  · exact .inl ⟨by simp, .inr ⟨hstop, hex, rfl⟩⟩
  · refine .inr ⟨rfl, ⟨session, hp.found, hp.fresh⟩, fun key hk => ?_,
      (transact_resets h hp batch.wf.resets batch.wf.nodup _).wanes
        (settle_wanes now (transact_covered hc hp _))⟩
    rw [PollBatch.resetIntents, ← batch.wf.resets] at hk
    obtain ⟨op, hop, hkey⟩ := List.mem_filterMap.mp hk
    obtain ⟨d, hd, hdk⟩ := hp.prepared.covered op hop
    cases op <;> cases hkey
    exact ⟨d, hd, hdk⟩


/-! ## The topics that a finished poll resets -/

omit [Postcard] in
/-- The topic's reset was declared, and the topic is still demanded in the generation that the ticket
recorded. -/
def declared (ticket : PollTicket) (resets : List TopicRef) (i : Inner) (id : String)
    (key : TopicRef) : Bool :=
  id == ticket.sessionId && resets.contains key &&
    ((i.sessions.get? id).bind fun s => s.topics.get? key).any fun t => t.demanded &&
      ticket.topics.any fun d => d.key == key && d.generation == t.state.generation

omit [Postcard] in
theorem declared_iff {id : String} {s : Session} {key : TopicRef} {t : Topic}
    (hs : i.sessions.get? id = some s) (ht : s.topics.get? key = some t) :
    declared ticket resets i id key = true ↔ id = ticket.sessionId ∧ key ∈ resets ∧
      t.demanded = true ∧ ∃ d ∈ ticket.topics, d.key = key ∧ d.generation = t.state.generation := by
  simp [declared, hs, ht, and_assoc]

omit [Postcard] in
/-- Discarding a poll resets the declared topics. -/
theorem discardHits_declared (hs : i.sessions.get? ticket.sessionId = some session) {id : String}
    {s : Session} {key : TopicRef} {t : Topic} (hid : i.sessions.get? id = some s)
    (ht : s.topics.get? key = some t) :
    discardHits ticket resets failed session id key = declared ticket resets i id key := by
  rw [Bool.eq_iff_iff, declared_iff hid ht, discardHits, Bool.and_eq_true, beq_iff_eq, beq_iff_eq]
  constructor
  · rintro ⟨rfl, ha⟩
    obtain rfl : session = s := Option.some.inj (hs.symm.trans hid)
    obtain ⟨d, hd, rfl, t', ht', hdem, hg, hr, -⟩ := Inner.affected_some ha
    obtain rfl : t = t' := Option.some.inj (ht.symm.trans ht')
    exact ⟨rfl, List.contains_iff_mem.mp hr.symm, hdem, d, hd, rfl, hg.symm⟩
  · rintro ⟨rfl, hr, hdem, d, hd, hk, hg⟩
    obtain rfl : session = s := Option.some.inj (hs.symm.trans hid)
    exact ⟨rfl, Inner.affected_reset hd hk ht hdem hg.symm hr⟩

omit [Postcard] in
/-- A discarded poll that was merely stale touches the declared topics only. -/
theorem affected_stale (hs : i.sessions.get? ticket.sessionId = some session) {key : TopicRef}
    {t : Topic} (ht : session.topics.get? key = some t)
    (hnot : declared ticket resets i ticket.sessionId key = false) :
    (Inner.affected ticket resets false session).get? key = none := by
  cases ha : (Inner.affected ticket resets false session).get? key with
  | none => rfl
  | some reset =>
    obtain ⟨_, _, _, _, _, _, _, _, hwhy⟩ := Inner.affected_some ha
    rcases hwhy with rfl | ⟨hf, -⟩
    · have hhit : discardHits ticket resets false session ticket.sessionId key = false :=
        (discardHits_declared hs hs ht).trans hnot
      simp [discardHits, ha] at hhit
    · cases hf

omit [Postcard] in
/-- Once the topic has passed the ticket's generation, the ticket resets it no more. -/
theorem declared_passed (hkeyed : ticket.Keyed) {id : String}
    {s : Session} {key : TopicRef} {t : Topic} (hs : i.sessions.get? id = some s)
    (ht : s.topics.get? key = some t) (hit : declared ticket resets i id key = true) {j : Inner}
    {s' : Session} {t' : Topic} (hs' : j.sessions.get? id = some s')
    (ht' : s'.topics.get? key = some t') (hlt : t.state.generation < t'.state.generation)
    (resets' : List TopicRef) : declared ticket resets' j id key = false := by
  by_contra hj
  obtain ⟨-, -, -, d, hd, hk, hg⟩ := (declared_iff hs ht).mp hit
  obtain ⟨-, -, -, e, he, hk', hg'⟩ := (declared_iff hs' ht').mp (eq_true_of_ne_false hj)
  have heq : d = e := by
    have hfind := hkeyed.find? hd
    rw [hk.trans hk'.symm, hkeyed.find? he] at hfind
    exact (Option.some.inj hfind).symm
  subst heq
  omega

omit [Postcard] in
/-- A committed poll resets the declared topics. -/
theorem commitHits_declared (hs : i.sessions.get? ticket.sessionId = some session)
    (hfresh : Inner.stale ticket session = false)
    (hcovered : ∀ key ∈ resets, ∃ d ∈ ticket.topics, d.key = key) {id : String} {s : Session}
    {key : TopicRef} {t : Topic} (hid : i.sessions.get? id = some s)
    (ht : s.topics.get? key = some t) :
    commitHits ticket resets id key = declared ticket resets i id key := by
  rw [Bool.eq_iff_iff, declared_iff hid ht, commitHits, Bool.and_eq_true, beq_iff_eq,
    List.contains_iff_mem]
  constructor
  · rintro ⟨rfl, hr⟩
    obtain rfl : session = s := Option.some.inj (hs.symm.trans hid)
    obtain ⟨d, hd, rfl⟩ := hcovered key hr
    obtain ⟨t', ht', hdem, hg, -⟩ := Inner.of_not_stale hfresh hd
    obtain rfl : t = t' := Option.some.inj (ht.symm.trans ht')
    exact ⟨rfl, hr, hdem, d, hd, rfl, hg.symm⟩
  · rintro ⟨rfl, hr, -⟩
    exact ⟨rfl, hr⟩

omit [Postcard] in
/-- The staged copy of a batch is determined by its operations. -/
theorem prepared_unique {deadline : Instant} {ops : List Operation}
    {staged staged' : StagedPublication}
    (h : StagedPublication.Prepared session ticket deadline ops staged)
    (h' : StagedPublication.Prepared session ticket deadline ops staged') : staged = staged' := by
  have htopics : staged.topics = staged'.topics := by
    refine OrdMap.ext_get? fun key => Option.ext fun t => ?_
    rw [h.topics, h'.topics]
  obtain ⟨topics, resets, events⟩ := staged
  obtain ⟨topics', resets', events'⟩ := staged'
  have hresets : resets = resets' := h.resets.trans h'.resets.symm
  have hevents : events = events' := h.events.trans h'.events.symm
  simp only at htopics
  rw [htopics, hresets, hevents]

/-- If a counter that the poll's publication needs is exhausted, the poll is not published. -/
theorem commitPoll_exhausts [SerdeJson] {batch : PollBatch} {deadline : Instant} (now : Instant)
    (hex : i.Exhausts ticket batch.pending deadline) :
    (i.commitPoll ticket batch deadline now).1 ≠ .ok true := by
  obtain ⟨session, hs, hwhy⟩ := hex
  rcases Inner.commitPoll_cases ticket batch deadline now i with
    ⟨r, hr, he⟩ | ⟨-, -, he⟩ | ⟨session', staged, hp, -⟩
  · rw [he]
    exact hr
  · rw [he]
    simp
  obtain rfl : session = session' := Option.some.inj (hs.symm.trans hp.found)
  rcases hwhy with ⟨key, t, hr, ht, hspent⟩ | ⟨staged', hst, hroom⟩
  · unfold Inner.commitPoll
    dsimp only
    rw [hs]
    dsimp only
    split
    · simp
    split
    · simp
    split
    · simp
    rw [if_pos]
    · simp
    · obtain ⟨op, hop, hk⟩ := List.mem_filterMap.mp hr
      refine List.any_eq_true.mpr ⟨op, hop, ?_⟩
      simp [hk, ht, hspent]
  · rw [prepared_unique hst hp.prepared] at hroom
    have := hp.room
    omega

/-- A ticket's resets are applied once: nothing is left of them for a later state in which the session
has not started again. -/
theorem declared_once [SerdeJson] {j : Inner} (hkeyed : ticket.Keyed)
    (hit : ∀ id s key t, i.sessions.get? id = some s → s.topics.get? key = some t →
      declared ticket resets i id key = true →
        ∃ s' t', j.sessions.get? id = some s' ∧ s'.topics.get? key = some t' ∧
          t'.state.generation = t.state.generation + 1)
    {ops : List Op} {marks : List Mark} (hmarks : (run j ops).history = j.history ++ marks)
    {id : String} (hlasts : .started id ∉ marks) {s : Session} {key : TopicRef} {t : Topic}
    (hs : i.sessions.get? id = some s) (ht : s.topics.get? key = some t)
    (hd : declared ticket resets i id key = true) (resets' : List TopicRef) :
    declared ticket resets' (run j ops) id key = false := by
  obtain ⟨s', t', hs', ht', hg⟩ := hit id s key t hs ht hd
  obtain ⟨marks', hmarks', hrisen⟩ := run_risen j ops
  obtain rfl : marks = marks' := List.append_cancel_left (hmarks.symm.trans hmarks')
  by_contra hagain
  have hagain := eq_true_of_ne_false hagain
  -- A declared topic is there.
  cases hs'' : (run j ops).sessions.get? id with
  | none => simp [declared, hs''] at hagain
  | some s'' =>
    cases ht'' : s''.topics.get? key with
    | none => simp [declared, hs'', ht''] at hagain
    | some t'' =>
      have hrise := hrisen id s'' key t'' hs'' ht'' hlasts s' t' hs' ht'
      have hlt : t.state.generation < t''.state.generation := by
        have := hrise.generation
        omega
      rw [declared_passed hkeyed hs ht hd hs'' ht'' hlt] at hagain
      cases hagain

end Operations

end Service
end WfObserver
