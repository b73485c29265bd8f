import WfObserver.Service.TestSupport
import WfObserver.Service.Unbounded

/-!
# Exhausted counters

What a run does to the counters of a service when they may start anywhere, also at `u64Max`. `Sound`
is the invariant that the runs start from; nothing in it bounds a counter from below.

An operation closes the service if and only if a counter is too short. `Exhausted` tells which one it
was when an operation closes the service. `Op.Lacks` and `Op.Needs` say when an operation has to: the
first for the updates that a poll reserves, the second for everything that is announced as it goes.
-/

namespace WfObserver
namespace Service

open Wire Protocol
open ProviderSdk (ProviderManifest)

variable {i i' : Inner}

section

variable [Postcard]

/-- An operation never takes a subscription's identity past the bound. -/
theorem step_identities [SerdeJson] (op : Op) (h : i.nextSubscription ≤ u64Max) :
    (step i op).nextSubscription ≤ u64Max := by
  have hn := Narrows.stepwise
  cases op with
  | updateLifecycle status now =>
    exact (hn.syncRuntime status now i fun _ _ _ _ _ => trivial).nextSubscription.trans_le h
  | subscribe request clock pace =>
    change (i.subscribe request clock pace).2.nextSubscription ≤ _
    unfold Inner.subscribe
    split
    · exact h
    have he := (hn.expire clock.expire i).nextSubscription.trans_le h
    dsimp only
    split
    · exact he
    split
    · exact he
    split
    · exact he
    split
    · exact he
    rename_i id hid
    obtain ⟨rfl, hmax⟩ := checkedAdd_eq_some.mp hid
    have hs := (hn.settle clock.settle ((i.expire clock.expire).register
      ((i.expire clock.expire).nextSubscription + 1) request pace)).nextSubscription.trans_le hmax
    split
    · exact hs
    · exact (hn.settle clock.undo (Inner.unregister _ _)).nextSubscription.trans_le hs
  | drop id now => exact (hn.drop id now i).nextSubscription.trans_le h
  | commitPoll ticket batch deadline now =>
    exact (hn.commitPoll ticket batch deadline now i fun _ => trivial).nextSubscription.trans_le h
  | discardPoll ticket resets failed now =>
    exact (hn.discardPoll ticket resets failed now i fun _ => trivial).nextSubscription.trans_le h
  | expire now => exact (hn.expire now i).nextSubscription.trans_le h
  | shutdown => exact h
  | pop id => exact h

end

/-! ## Any starting values -/

/-- The invariants of a service, with its counters anywhere within the bound. -/
structure Sound [Postcard] (manifests : List ProviderManifest) (i : Inner) : Prop where
  store : StoreOk manifests i
  faithful : Faithful (fun _ => True) i
  settled : Settled i
  tracked : Tracked i
  counted : Counted i
  within : Within i
  room : i.sequence ≤ u64Max
  identities : i.nextSubscription ≤ u64Max

/-- What the callers of the operations keep to. -/
def Op.Lawful [SerdeJson] (manifests : List ProviderManifest) (c : Catalog) (op : Op) : Prop :=
  op.Hosted manifests ∧ op.Registered c

section

variable [Postcard] [SerdeJson] {manifests : List ProviderManifest}

theorem run_sound (h : Sound manifests i) {ops : List Op}
    (hops : ∀ op ∈ ops, op.Lawful manifests i.catalog) : Sound manifests (run i ops) := by
  obtain ⟨hstore, hfaithful⟩ := Runs.run_invariant
    (I := fun j => StoreOk manifests j ∧ Faithful (fun _ => True) j)
    (fun _ op hop hj => ⟨hj.1.step hop.1, Faithful.step hj.2 hj.1 hop.1 op.starts_true⟩) hops
    ⟨h.store, h.faithful⟩
  obtain ⟨hsettled, htracked⟩ := run_settled h.settled h.tracked fun op hop => (hops op hop).2
  obtain ⟨hroom, hid⟩ := Runs.run_invariant
    (I := fun j : Inner => j.sequence ≤ u64Max ∧ j.nextSubscription ≤ u64Max) (G := fun _ => True)
    (fun _ op _ hj => ⟨step_room op hj.1, step_identities op hj.2⟩) (fun _ _ => trivial)
    ⟨h.room, h.identities⟩
  exact ⟨hstore, hfaithful, hsettled, htracked, run_counted h.counted ops, run_within h.within ops,
    hroom, hid⟩

theorem Sound.step (h : Sound manifests i) {op : Op} (hop : op.Lawful manifests i.catalog) :
    Sound manifests (Service.step i op) := by
  have hops : ∀ o ∈ [op], o.Lawful manifests i.catalog := by
    intro o ho
    rw [List.mem_singleton.mp ho]
    exact hop
  exact run_sound h hops

omit [SerdeJson] in
theorem new_sound {runId : String} {messageBytes : Nat}
    (h : ServiceState.new manifests runId messageBytes = .ok i) : Sound manifests i := by
  obtain ⟨hsettled, htracked⟩ := new_settled h
  have hstart : i.sequence = 0 ∧ i.nextSubscription = 0 := by
    unfold ServiceState.new at h
    split at h
    · cases h
    · cases h
      exact ⟨rfl, rfl⟩
  refine ⟨new_storeOk h, new_faithful h, hsettled, htracked, new_counted h, ?_, by omega, by omega⟩
  intro id s key t hs
  rw [(new_history h).2.1] at hs
  cases hs

omit [SerdeJson] in
/-- The sequence may be at any later value. -/
theorem Sound.later (h : Sound manifests i) {n : Nat} (hn : i.sequence ≤ n) (hmax : n ≤ u64Max) :
    Sound manifests { i with sequence := n } where
  store := h.store.sub rfl rfl hn fun _ _ hs => hs
  faithful :=
    { starts := h.faithful.starts
      allowed := h.faithful.allowed
      cursors := fun e he =>
        ⟨(h.faithful.cursors e he).1, (h.faithful.cursors e he).2.1,
          (h.faithful.cursors e he).2.2.trans hn⟩
      ordered := h.faithful.ordered
      empty := h.faithful.empty
      channels := fun id c hK hc => (h.faithful.channels id c hK hc).mono hn
      mirror := h.faithful.mirror }
  settled := h.settled.congr rfl (fun _ _ => rfl) rfl
  tracked := ⟨h.tracked.channel, h.tracked.fresh⟩
  counted := ⟨h.counted.count, h.counted.closed⟩
  within := h.within
  room := hmax
  identities := h.identities

end

/-! ## What a run does to the counters of a topic -/

/-- The session does not start again, neither in the history nor in the log. -/
def Lasts (id : String) (marks : List Mark) (us : List UpdateEnvelope) : Prop :=
  .started id ∉ marks ∧ ∀ e ∈ us, ∀ info, e.update = .sessionStarted info → info.session.sessionId ≠ id

/-- The counters of a topic of a lasting session, while the service is open: the epoch counts the
transitions, and a new generation is announced. -/
structure Topic.Advances (id : String) (key : TopicRef) (marks : List Mark)
    (us : List UpdateEnvelope) (t t' : Topic) : Prop where
  epoch : t'.epoch = t.epoch + marks.countP (Mark.fences id key)
  reset : t.state.generation ≠ t'.state.generation → ∃ e ∈ us, ∃ source reason,
    e.update = .topicReset source t'.state.generation reason ∧
      source.session.sessionId = id ∧ source.topic = key

section

variable [Postcard] [SerdeJson] {manifests : List ProviderManifest}

omit [Postcard] [SerdeJson] in
/-- A topic is as the account that is read off it says. -/
theorem TopicOk.matches {c : Catalog} {n : Nat} {info : SessionInfo} {key : TopicRef} {t : Topic}
    (h : TopicOk c n info key t) : ∃ a : Account, t.Matches a := by
  refine ⟨⟨t.state.generation, t.epoch, t.state.snapshot.bind fun d =>
    t.deadline.map fun deadline => (d.payload, deadline), t.demanded⟩, rfl, rfl, fun d hd => ?_, rfl⟩
  have hhealth := (h.snapshot.mp (by rw [hd]; rfl)).1
  obtain ⟨deadline, hdl⟩ := Option.isSome_iff_exists.mp (h.deadline.mpr (.inr hhealth))
  exact ⟨deadline, by simp [hd, hdl], hdl⟩

/-- Over a run that leaves the service open, the topics of the sessions that last advance. -/
theorem Sound.advances (h : Sound manifests i) {ops : List Op}
    (hops : ∀ op ∈ ops, op.Lawful manifests i.catalog) :
    ∃ marks us, (run i ops).history = i.history ++ marks ∧ (run i ops).log = i.log ++ us ∧
      ∀ id key s s' t t', i.sessions.get? id = some s → s.topics.get? key = some t →
        (run i ops).sessions.get? id = some s' → s'.topics.get? key = some t' →
          Lasts id marks us → t.Rises t' ∧
            ((run i ops).stopped = false → t.Advances id key marks us t') := by
  have hgrows := run_grows i ops
  have hend := run_sound h hops
  obtain ⟨marks, hmarks, hrises⟩ := run_risen i ops
  obtain ⟨us, hus⟩ := hgrows.log
  refine ⟨marks, us, hmarks, hus.symm, fun id key s s' t t' hs ht hs' ht' hlasts => ?_⟩
  refine ⟨hrises id s' key t' hs' ht' hlasts.1 s t hs ht, fun hopen => ?_⟩
  have hopen₀ : i.stopped = false := by
    by_contra hne
    rw [hgrows.stopped (by simpa using hne)] at hopen
    cases hopen
  refine ⟨?_, fun hne => ?_⟩
  · obtain ⟨marks', hmarks', hposted⟩ := run_posted i ops
    obtain rfl : marks = marks' := List.append_cancel_left (hmarks.symm.trans hmarks')
    obtain ⟨a, ha⟩ := ((h.store.sessions id s hs).topics key t ht).matches
    have hend' := hposted hopen id s' key t' hs' ht' a fun s₀ t₀ hs₀ ht₀ => by
      obtain rfl : s = s₀ := Option.some.inj (hs.symm.trans hs₀)
      obtain rfl : t = t₀ := Option.some.inj (ht.symm.trans ht₀)
      exact ha
    rw [hend'.epoch, ha.epoch]
    refine Account.posted_epoch a ⟨hlasts.1, fun hended => ?_, fun hclosed => ?_⟩
    · -- The session is there at both ends and did not start, so it did not end.
      have h₀ := h.counted.count id
      have h₁ := hend.counted.count id
      rw [hmarks, List.count_append, List.count_append,
        List.count_eq_zero_of_not_mem hlasts.1] at h₁
      have hthere : i.sessions.contains id = true := OrdMap.contains_iff.mpr ⟨s, hs⟩
      have hthere' : (run i ops).sessions.contains id = true := OrdMap.contains_iff.mpr ⟨s', hs'⟩
      have hpos := List.count_pos_iff.mpr hended
      rw [hthere] at h₀
      rw [hthere'] at h₁
      omega
    · have := hend.counted.closed.mp (hmarks ▸ List.mem_append_right _ hclosed)
      rw [hopen] at this
      cases this
  · have hlegal : Runs.Guarded apply (Allowed i.runId) (mirror i.sessions) us := by
      have hall := hend.faithful.allowed
      rw [← hus, hgrows.runId, Runs.guarded_append] at hall
      rw [← h.faithful.mirror hopen₀]
      exact hall.2
    have hreplay : replay (mirror i.sessions) us = mirror (run i ops).sessions := by
      have hsplit : replay ∅ (i.log ++ us) = replay (replay ∅ i.log) us := List.foldl_append
      rw [← hend.faithful.mirror hopen, ← hus, hsplit, h.faithful.mirror hopen₀]
    have hseen : ∀ {j : Inner} {s : Session}, j.sessions.get? id = some s →
        (mirror j.sessions).get? id = some s.seen := fun hs => by rw [mirror_get?, hs]; rfl
    have htopic : ∀ {s : Session} {t : Topic}, s.topics.get? key = some t →
        s.seen.topics.get? key = some t.state := fun ht => by rw [Session.seen, OrdMap.get?_map, ht]; rfl
    obtain ⟨t₁, ht₁, hreset⟩ := generation_reset hlegal (hseen hs) (htopic ht) hlasts.2 s'.seen
      (hreplay ▸ hseen hs')
    rw [htopic ht'] at ht₁
    cases ht₁
    exact hreset hne

/-! ## The close -/

omit [Postcard] [SerdeJson] in
/-- A close ends every queue that is still open. -/
theorem Channel.finish_closed {c : Channel} (h : c.ended = false) (e : SubscriptionEnd) (d : Bool) :
    ∃ items, (c.finish e d).stream = items ++ [.closed e] := by
  have hopen : c.race.queue.ended = false := (Channel.consumed_race c).ended.trans h
  let q := if d then c.race.queue.discard else c.race.queue
  refine ⟨c.race.delivered ++ (q.initial ++ q.updates.map (·.1)), ?_⟩
  unfold Channel.finish Queue.finish
  rw [hopen]
  simp [Channel.stream, Queue.pending, q]

/-- The operation from `i` to `i'` closed the service at the moment `j`, where a counter was too short
for what came next, or for all that the operation was about to announce. Every open subscription of that
moment ended with the reason, and nothing was announced after it. -/
structure Exhausted [Postcard] [SerdeJson] (op : Op) (i j i' : Inner) : Prop where
  before : Grows i j
  opened : j.stopped = false
  short : j.Starved ∨ op.Short i j
  log : i'.log = j.log
  sequence : i'.sequence = j.sequence
  ended : ∀ id ≤ i.nextSubscription, ∀ s c, j.subscribers.get? id = some s →
    j.channels.get? id = some c → c.ended = false →
      ∃ c' items, i'.channels.get? id = some c' ∧ c'.stream = items ++ [.closed Inner.exhausted]

theorem ClosedAt.exhausted {op : Op} {j : Inner} (h : ClosedAt i.nextSubscription j i')
    (hg : Grows i j) (hshort : j.Starved ∨ op.Short i j) : Exhausted op i j i' where
  before := hg
  opened := h.before
  short := hshort
  log := h.log
  sequence := h.sequence
  ended id hid s c hs hc hopen := by
    obtain ⟨items, hitems⟩ := Channel.finish_closed hopen Inner.exhausted true
    refine ⟨c.finish Inner.exhausted true, items, ?_, hitems⟩
    rw [h.channels id hid]
    change (j.channels.map _).get? id = _
    rw [OrdMap.get?_map, hc, Option.map_some, if_pos (OrdMap.contains_iff.mpr ⟨s, hs⟩)]

/-- An operation that closes the service was short of a counter. -/
theorem step_exhausted {op : Op} (hop : op ≠ .shutdown) (hopen : i.stopped = false)
    (hstop : (step i op).stopped = true) : ∃ j, Exhausted op i j (step i op) := by
  have hpop : ∀ id, op ≠ .pop id := by
    rintro id rfl
    have hstop : i.stopped = true := hstop
    rw [hopen] at hstop
    cases hstop
  obtain ⟨j, hg, hshort, hclosed⟩ := (step_course hop hpop).exhausts hopen hstop
  exact ⟨j, hclosed.exhausted hg hshort⟩

/-- The service is closed: it has no subscribers and no demand, and holds nothing. -/
structure Shut (i : Inner) : Prop where
  stopped : i.stopped = true
  subscribers : i.subscribers = ∅
  topics : ∀ id s key t, i.sessions.get? id = some s → s.topics.get? key = some t →
    t.demanded = false ∧ t.state.health = .idle ∧ t.state.snapshot = none ∧ t.deadline = none

omit [SerdeJson] in
theorem Sound.shut (h : Sound manifests i) (hs : i.stopped = true) : Shut i := by
  have hsub := h.faithful.empty hs
  refine ⟨hs, hsub, fun id s key t hget ht => ?_⟩
  have hok := (h.store.sessions id s hget).topics key t ht
  have hdemand : t.demanded = false :=
    (h.settled.demand id s key t hget ht).trans (wanted_empty hsub _ _)
  have hidle := hok.idle.mpr hdemand
  refine ⟨hdemand, hidle, ?_, ?_⟩
  · refine Option.not_isSome_iff_eq_none.mp fun hf => ?_
    have := (hok.snapshot.mp hf).1
    rw [hidle] at this
    cases this
  · refine Option.not_isSome_iff_eq_none.mp fun hf => ?_
    have := hok.deadline.mp hf
    rw [hidle] at this
    rcases this with h | h <;> cases h

/-! ## Polls reserve what they need -/

/-- The counters do not suffice for the updates of the poll, so that it is neither published nor
discarded. A spent counter is looked for before the batch is checked. -/
def Op.Lacks (i : Inner) : Op → Prop
  | .commitPoll ticket batch deadline _ => i.stopped = false ∧ batch.pending.failed = false ∧
      ∃ session, i.sessions.get? ticket.sessionId = some session ∧
        Inner.stale ticket session = false ∧
        ((∃ key t, key ∈ batch.pending.ops.filterMap Operation.resetKey? ∧
            session.topics.get? key = some t ∧ t.spent = true) ∨
          ∃ staged, i.checkPoll ticket batch.pending deadline session = .ok staged ∧
            u64Max < i.sequence + Inner.reserved batch.pending session staged)
  | .discardPoll ticket resets failed _ => i.stopped = false ∧ i.DiscardExhausts ticket resets failed
  | _ => False

/-- The poll has no effect, and needs no counter. -/
def Op.Ignored (i : Inner) : Op → Prop
  | .commitPoll ticket batch deadline _ => batch.pending.failed = true ∨ i.stopped = true ∨
      i.sessions.get? ticket.sessionId = none ∨
      ∃ session, i.sessions.get? ticket.sessionId = some session ∧
        (Inner.stale ticket session = true ∨
          ∃ e, i.checkPoll ticket batch.pending deadline session = .error e)
  | .discardPoll ticket _ _ _ => i.stopped = true ∨ i.sessions.get? ticket.sessionId = none
  | _ => False

/-- The updates that publishing or discarding a poll itself announces. -/
inductive Owns (i : Inner) : Op → List SubscriptionUpdate → Prop where
  | commit {ticket : PollTicket} {batch : PollBatch} {deadline : Instant} (now : Instant)
      {session : Session} {staged : StagedPublication} :
      i.Publishes ticket batch.pending deadline session staged →
        Owns i (.commitPoll ticket batch deadline now)
          (Inner.transaction batch.pending session staged i.sequence).2
  | discard {ticket : PollTicket} {resets : List TopicRef} {failed : Bool} (now : Instant)
      {session : Session} : i.Discards ticket resets failed session →
        Owns i (.discardPoll ticket resets failed now)
          ((Inner.discardList ticket resets failed session).map Change.update)

/-- What a poll's operation does: the counters that its own updates need are checked before any of these
is announced. It has no effect, or announces all of them; only then it settles. -/
structure Reserves (i : Inner) (op : Op) (i' : Inner) : Prop where
  lacking : op.Lacks i → i' = i.close Inner.exhausted
  sufficient : ¬ op.Lacks i → op.Ignored i ∧ i' = i ∨
    ∃ (own : List SubscriptionUpdate) (j : Inner) (now : Instant), Owns i op own ∧ j.stopped = false ∧
      j.log = i.log ++ Inner.envelopes i.runId i.sequence own ∧ i' = j.settle now

theorem commitPoll_reserves (ticket : PollTicket) (batch : PollBatch) (deadline now : Instant)
    (i : Inner) : Reserves i (.commitPoll ticket batch deadline now)
      (i.commitPoll ticket batch deadline now).2 where
  lacking := by
    rintro ⟨hopen, hfailed, session, hs, hfresh, hwhy⟩
    unfold Inner.commitPoll
    dsimp only
    rw [hfailed, if_neg (by simp), if_neg (by simp [hopen]), hs]
    dsimp only
    rw [if_neg (by simp [hfresh])]
    split
    · rfl
    rename_i hunspent
    rcases hwhy with ⟨key, t, hkey, ht, hspent⟩ | ⟨staged, hcheck, hfull⟩
    · obtain ⟨op, hop, hk⟩ := List.mem_filterMap.mp hkey
      exact absurd (List.any_eq_true.mpr ⟨op, hop, by simp [hk, ht, hspent]⟩) hunspent
    · rw [hcheck]
      dsimp only
      rcases Inner.ensureSequences_cases hopen (staged.updates +
          if (Inner.metadata session batch.pending).isSome then 1 else 0) with ⟨hroom, -⟩ | ⟨-, he⟩
      · exact absurd hfull (Nat.not_lt.mpr hroom)
      · rw [he]
  sufficient hnot := by
    unfold Inner.commitPoll
    dsimp only
    split
    · rename_i hfailed
      exact .inl ⟨.inl hfailed, rfl⟩
    rename_i hfailed
    split
    · rename_i hstop
      exact .inl ⟨.inr (.inl hstop), rfl⟩
    rename_i hopen
    have hopen : i.stopped = false := by simpa using hopen
    split
    · rename_i hs
      exact .inl ⟨.inr (.inr (.inl hs)), rfl⟩
    rename_i session hs
    split
    · rename_i hstale
      exact .inl ⟨.inr (.inr (.inr ⟨session, hs, .inl hstale⟩)), rfl⟩
    rename_i hfresh
    have hfresh : Inner.stale ticket session = false := by simpa using hfresh
    split
    · rename_i hspent
      obtain ⟨op, hop, hr⟩ := List.any_eq_true.mp hspent
      obtain ⟨key, hk, hr⟩ := (Option.any_eq_true _ _).mp hr
      obtain ⟨t, ht, hsp⟩ := (Option.any_eq_true _ _).mp hr
      exact absurd ⟨hopen, by simpa using hfailed, session, hs, hfresh,
        .inl ⟨key, t, List.mem_filterMap.mpr ⟨op, hop, hk⟩, ht, hsp⟩⟩ hnot
    split
    · rename_i e he
      exact .inl ⟨.inr (.inr (.inr ⟨session, hs, .inr ⟨e, he⟩⟩)), rfl⟩
    rename_i staged hok
    rcases Inner.ensureSequences_cases hopen (staged.updates +
        if (Inner.metadata session batch.pending).isSome then 1 else 0) with ⟨hroom, he⟩ | ⟨hfull, -⟩
    · rw [he]
      obtain ⟨hprepared, hvalid⟩ := Inner.checkPoll_ok hok
      have hp : i.Publishes ticket batch.pending deadline session staged :=
        ⟨hopen, hs, hfresh, hok, hprepared, hvalid, hroom⟩
      have ht := hp.transacted (batch.pending.ops.map (Mark.applied ticket.sessionId · deadline))
      exact .inr ⟨_, _, now, .commit now hp, ht.stopped, ht.log, rfl⟩
    · exact absurd ⟨hopen, by simpa using hfailed, session, hs, hfresh, .inr ⟨staged, hok, hfull⟩⟩ hnot

theorem discardPoll_reserves (ticket : PollTicket) (resets : List TopicRef) (failed : Bool)
    (now : Instant) (i : Inner) : Reserves i (.discardPoll ticket resets failed now)
      (i.discardPoll ticket resets failed now).2 where
  lacking hlacks := congrArg Prod.snd (Inner.discardPoll_exhausts now hlacks.1 hlacks.2)
  sufficient hnot := by
    rcases Inner.discardPoll_cases ticket resets failed now i with
      ⟨hignored, he⟩ | ⟨hopen, hshort, -⟩ | ⟨session, hd, he⟩
    · exact .inl ⟨hignored, congrArg Prod.snd he⟩
    · exact absurd ⟨hopen, hshort⟩ hnot
    · obtain ⟨hquiet, -, -, hlog⟩ := Inner.emitAll_room
        (i := i.discardStored ticket resets failed session)
        ((Inner.discardList ticket resets failed session).map Change.update) hd.stopped (by
          rw [List.length_map]
          exact hd.room)
      exact .inr ⟨_, _, now, .discard now hd, hquiet.stopped.trans hd.stopped, hlog, he⟩

/-! ## What an operation needs -/

omit [Postcard] [SerdeJson] in
/-- A counter is past the bound. -/
def Overflows (i : Inner) : Prop :=
  u64Max < i.sequence ∨ ∃ id s key t, i.sessions.get? id = some s ∧ s.topics.get? key = some t ∧
    (u64Max < t.state.generation ∨ u64Max < t.epoch)

/-- With unbounded counters the operation would take one past the bound. Of a poll this is the `settle`
after its own updates. -/
def Op.Needs (i : Inner) : Op → Prop
  | .updateLifecycle status now => Overflows (Unbounded.syncRuntime status now i)
  | .subscribe request clock pace => Overflows (Unbounded.subscribe request clock pace i)
  | .drop id now => Overflows (Unbounded.drop id now i)
  | .commitPoll ticket batch deadline now => batch.pending.failed = false ∧ ∃ session staged,
      i.Publishes ticket batch.pending deadline session staged ∧
        Overflows (Unbounded.settle now ((i.record (batch.pending.ops.map
          (Mark.applied ticket.sessionId · deadline))).transact ticket batch.pending session staged))
  | .discardPoll ticket resets failed now => ∃ session, i.Discards ticket resets failed session ∧
      Overflows (Unbounded.settle now (i.discardTransaction ticket resets failed session))
  | .expire now => Overflows (Unbounded.expire now i)
  | .shutdown | .pop _ => False

/-- An operation that needs a counter past its bound closes the service. -/
theorem step_needs {op : Op} (hroom : i.sequence ≤ u64Max) (hwithin : Within i) (hneeds : op.Needs i) :
    (step i op).stopped = true := by
  by_contra hopen
  have hopen : (step i op).stopped = false := by simpa using hopen
  have hbounded : ¬ Overflows (step i op) := by
    rintro (hover | ⟨id, s, key, t, hs, ht, hover⟩)
    · have := step_room op hroom
      omega
    · have := run_within hwithin [op] id s key t hs ht
      omega
  cases op with
  | updateLifecycle status now =>
    rw [Op.Needs, ← syncRuntime_open hopen] at hneeds
    exact hbounded hneeds
  | subscribe request clock pace =>
    rw [Op.Needs, ← subscribe_open hopen] at hneeds
    exact hbounded hneeds
  | drop id now =>
    rw [Op.Needs, ← drop_open hopen] at hneeds
    exact hbounded hneeds
  | commitPoll ticket batch deadline now =>
    obtain ⟨hfailed, session, staged, hp, hneeds⟩ := hneeds
    change (i.commitPoll ticket batch deadline now).2.stopped = false at hopen
    change ¬ Overflows (i.commitPoll ticket batch deadline now).2 at hbounded
    rw [hp.commitPoll_eq hfailed] at hopen hbounded
    rw [← settle_open hopen] at hneeds
    exact hbounded hneeds
  | discardPoll ticket resets failed now =>
    obtain ⟨session, hd, hneeds⟩ := hneeds
    change (i.discardPoll ticket resets failed now).2.stopped = false at hopen
    change ¬ Overflows (i.discardPoll ticket resets failed now).2 at hbounded
    rw [hd.discardPoll_eq] at hopen hbounded
    rw [← settle_open hopen] at hneeds
    exact hbounded hneeds
  | expire now =>
    rw [Op.Needs, ← expire_open hopen] at hneeds
    exact hbounded hneeds
  | shutdown => exact hneeds
  | pop id => exact hneeds

/-- A subscription is refused: nothing happens but the expirations that are due. A request that would
be accepted otherwise is refused for lack of an identity. -/
structure Refused (request : Subscribe) (clock : Readings) (pace : Nat → Nat) (i : Inner) : Prop where
  error : ∃ e, (i.subscribe request clock pace).1 = .error e
  unchanged : (i.subscribe request clock pace).2 = i ∨
    (i.subscribe request clock pace).2 = i.expire clock.expire
  reason : messageFits (Postcard.subscribe request) i.messageBytes = .ok () →
    (i.expire clock.expire).stopped = false → request.normal.topics.isEmpty = false →
    (i.expire clock.expire).checkSelection request.normal = .ok () →
      (i.subscribe request clock pace).1 = .error (invalid "subscription identity exhausted")

omit [SerdeJson] in
theorem subscribe_refused (hfull : i.nextSubscription = u64Max) (request : Subscribe) (clock : Readings)
    (pace : Nat → Nat) : Refused request clock pace i := by
  have hnone : checkedAdd (i.expire clock.expire).nextSubscription 1 = none := by
    rw [(Narrows.stepwise.expire clock.expire i).nextSubscription, hfull]
    rfl
  obtain ⟨e, he⟩ : ∃ e, i.subscribe request clock pace = (.error e, i) ∨
      i.subscribe request clock pace = (.error e, i.expire clock.expire) := by
    unfold Inner.subscribe
    split
    · exact ⟨_, .inl rfl⟩
    dsimp only
    split
    · exact ⟨_, .inr rfl⟩
    split
    · exact ⟨_, .inr rfl⟩
    split
    · exact ⟨_, .inr rfl⟩
    rw [hnone]
    exact ⟨_, .inr rfl⟩
  refine ⟨⟨e, ?_⟩, ?_, fun hfits hopen htopics hselection => ?_⟩
  · rcases he with he | he <;> rw [he]
  · exact he.imp (congrArg Prod.snd) (congrArg Prod.snd)
  · unfold Inner.subscribe
    rw [hfits]
    dsimp only
    rw [if_neg (by simp [hopen]), if_neg (by simp [htopics]), hselection]
    dsimp only
    rw [hnone]

end

section examples

open TestSupport

/-- Operations that use five sequences. -/
def upToLast : List Op :=
  [.updateLifecycle (observing "one") 0, .subscribe selection ⟨0, 0, 0⟩ idle]

/-- The queue of the first subscriber holds one update only, and nobody reads. -/
def tight : Inner :=
  run { service with messageBytes := 240, sequence := u64Max - 8 }
    [.updateLifecycle (observing "one") 0, .subscribe selection ⟨0, 0, 0⟩ idle,
      .subscribe ⟨.all, [⟨"fixture.provider", "fixture.shared", 1⟩]⟩ ⟨0, 0, 0⟩ idle,
      .commitPoll ticket (count 7) (seconds 6) 0]

/-- No subscription identity is left. -/
def crowded : Inner :=
  run { service with nextSubscription := u64Max } [.updateLifecycle (observing "one") 0]

end examples

end Service
end WfObserver
