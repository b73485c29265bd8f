import WfObserver.Service.Stepwise
import WfObserver.Service.Streams
import WfObserver.Service.Tales

/-!
# The log and the queues along a run

`Logged` says that the log is a legal history of the run (`Allowed`) in the order of its sequences,
and that every queue of a set `K` follows it (`ChannelOk`). `Truthful` adds that the log tells what
the service stores. Each operation keeps both: it stores sessions and announces them with a `Tale`
(`Truthful.block`), or closes the service.
-/

namespace WfObserver
namespace Service

open Wire Protocol
open ProviderSdk (ProviderManifest)

/-- The update does not end a session; a session that it starts satisfies `P`. -/
def Admits (P : SessionInfo → Prop) : SubscriptionUpdate → Prop
  | .sessionStarted info => P info
  | .sessionEnded _ _ => False
  | _ => True

/-- The log is legal, its sessions satisfy `P`, and the queues of `K` follow it. -/
structure Logged (P : SessionInfo → Prop) (K : Nat → Prop) (i : Inner) : Prop where
  starts : ∀ e ∈ i.log, ∀ info, e.update = .sessionStarted info → P info
  allowed : Runs.Guarded apply (Allowed i.runId) ∅ i.log
  cursors : ∀ e ∈ i.log, e.cursor.runId = i.runId ∧ 0 < e.cursor.sequence ∧
    e.cursor.sequence ≤ i.sequence
  ordered : i.log.Pairwise fun a b => a.cursor.sequence < b.cursor.sequence
  empty : i.stopped = true → i.subscribers = ∅
  channels : ∀ id c, K id → i.channels.get? id = some c →
    ChannelOk i.runId i.sequence i.log (i.subscribers.get? id) c

/-- The log tells what the service stores. -/
structure Truthful (P : SessionInfo → Prop) (K : Nat → Prop) (i : Inner) : Prop
    extends Logged P K i where
  mirror : i.stopped = false → replay ∅ i.log = mirror i.sessions

variable {P : SessionInfo → Prop} {K K' : Nat → Prop} {i j : Inner} {u : SubscriptionUpdate}

theorem Admits.starts (h : Admits P u) (info : SessionInfo) (hu : u = .sessionStarted info) :
    P info := by
  subst hu
  exact h

theorem admits_of_stays (h : movesSession u = false) : Admits P u := by
  cases u <;> trivial

theorem admits_of_source {source : TopicSource} (h : source? u = some source) : Admits P u := by
  cases u <;> trivial

theorem Logged.narrow (h : Logged P K i) (hK : ∀ id, K' id → K id) : Logged P K' i :=
  ⟨h.starts, h.allowed, h.cursors, h.ordered, h.empty, fun id c hid => h.channels id c (hK id hid)⟩

/-- What the invariant of the log and the queues depends on. -/
theorem Logged.congr (h : Logged P K i) (hrun : j.runId = i.runId) (hlog : j.log = i.log)
    (hseq : j.sequence = i.sequence) (hstop : j.stopped = i.stopped)
    (hch : j.channels = i.channels) (hsub : j.subscribers = i.subscribers) : Logged P K j := by
  refine ⟨?_, ?_, ?_, ?_, ?_, ?_⟩
  · rw [hlog]; exact h.starts
  · rw [hrun, hlog]; exact h.allowed
  · rw [hrun, hlog, hseq]; exact h.cursors
  · rw [hlog]; exact h.ordered
  · rw [hstop, hsub]; exact h.empty
  · rw [hrun, hlog, hseq, hch, hsub]; exact h.channels

/-- What any part of the log says is coherent. -/
theorem Logged.coherent (h : Logged P K i) {log : List UpdateEnvelope} (hl : log <+: i.log) :
    Coherent i.runId i.sequence (replay ∅ log) :=
  (Coherent.empty i.runId 0).replay (h.allowed.of_prefix hl) (h.ordered.sublist hl.sublist)
    (Nat.zero_le _) fun e he => (h.cursors e (hl.mem he)).2

/-! ## Steps on the queues -/

/-- The service closes: every open queue of a subscriber is cut. -/
theorem Logged.close (h : Logged P K i) (e : SubscriptionEnd) : Truthful P K (i.close e) := by
  refine ⟨⟨h.starts, h.allowed, h.cursors, h.ordered, fun _ => rfl, fun id c hK hc => ?_⟩, fun hs => by cases hs⟩
  simp only [Inner.close, OrdMap.get?_map] at hc
  obtain ⟨c₀, hc₀, rfl⟩ := Option.map_eq_some_iff.mp hc
  have hok := h.channels id c₀ hK hc₀
  have hnone : (i.close e).subscribers.get? id = none := OrdMap.get?_empty id
  rw [hnone]
  split
  · rename_i hsub
    refine hok.cut hsub (Channel.plain_finish hok.plain e true)
      (Channel.consumed_race c₀).selection (fun hopen => ?_)
      (fun hend => Channel.finish_ended hend e true) (.inr rfl) (List.prefix_refl _)
    obtain ⟨s, hs⟩ := OrdMap.contains_iff.mp hsub
    obtain ⟨cursor, rest, hb⟩ := ((hok.live s hs).2 hopen).1.begin
    exact Channel.finish_open hok.plain hopen hb e true
  · exact hok.forget (List.prefix_refl _)

/-- Subscribers go; their queues stay for their consumers. -/
theorem Logged.retain (h : Logged P K i) (p : Nat → Subscriber → Bool) :
    Logged P K { i with subscribers := i.subscribers.filter p } := by
  refine ⟨h.starts, h.allowed, h.cursors, h.ordered, fun hs => ?_, fun id c hK hc => ?_⟩
  · simp only [h.empty hs]
    rfl
  · have hok := h.channels id c hK hc
    simp only [OrdMap.get?_filter]
    cases hs : i.subscribers.get? id with
    | none => exact hok.forget (List.prefix_refl _)
    | some s =>
      rw [hs] at hok
      by_cases hp : p id s = true
      · rw [Option.filter, if_pos hp]
        exact hok
      · rw [Option.filter, if_neg hp]
        exact hok.forget (List.prefix_refl _)

theorem Truthful.retain (h : Truthful P K i) (p : Nat → Subscriber → Bool) :
    Truthful P K { i with subscribers := i.subscribers.filter p } := ⟨h.toLogged.retain p, h.mirror⟩

/-- The subscribers of an ended session get Closed after everything else. -/
theorem Logged.release (h : Logged P K i) (p : Subscriber → Bool) : Logged P K (i.release p) := by
  refine ⟨h.starts, h.allowed, h.cursors, h.ordered, fun hs => ?_, fun id c hK hc => ?_⟩
  · simp only [Inner.release, h.empty hs]
    rfl
  simp only [Inner.release, OrdMap.get?_map] at hc
  obtain ⟨c₀, hc₀, rfl⟩ := Option.map_eq_some_iff.mp hc
  have hok := h.channels id c₀ hK hc₀
  simp only [Inner.release, OrdMap.get?_filter]
  cases hs : i.subscribers.get? id with
  | none => exact hok.forget (List.prefix_refl _)
  | some s =>
    rw [hs] at hok
    by_cases hp : p s = true
    · simp only [Option.any_some, hp, if_true, Option.filter, Bool.not_true, Bool.false_eq_true,
        if_false]
      refine hok.cut rfl (Channel.plain_finish hok.plain _ false)
        (Channel.consumed_race c₀).selection (fun hopen => ?_)
        (fun hend => Channel.finish_ended hend _ false) (.inr rfl) (List.prefix_refl _)
      obtain ⟨cursor, rest, hb⟩ := ((hok.live s rfl).2 hopen).1.begin
      exact Channel.finish_open hok.plain hopen hb _ false
    · simp only [Option.any_some, hp, Option.filter, Bool.not_false, if_true, Bool.false_eq_true,
        if_false]
      exact hok

/-- What an active subscriber wants is what is relevant for its selection. -/
theorem wants_relevant {R : Replica} (s : Subscriber)
    (ha : s.active = true) (h : Admits P u ∨ R = Service.mirror i.sessions) :
    i.wants u s = relevant s.selection R u := by
  unfold Inner.wants
  rw [ha, Bool.true_and]
  cases u with
  | sessionEnded session reason =>
    rcases h with h | rfl
    · cases h
    · simp only [Inner.endedInfo, relevant, mirror_get?]
      cases i.sessions.get? session.sessionId <;> rfl
  | _ => rfl

variable [Postcard]

/-- An announcement extends the log and every queue that follows it. -/
theorem Logged.announce (h : Logged P K i) (hstop : i.stopped = false)
    (hu : Admits P u ∨ replay ∅ i.log = Service.mirror i.sessions)
    (hP : ∀ info, u = .sessionStarted info → P info)
    (hal : Allowed i.runId (replay ∅ i.log) (i.nextEnvelope u)) : Logged P K (i.announce u) := by
  have hseq : i.sequence < (i.nextEnvelope u).cursor.sequence := Nat.lt_succ_self _
  have hlog : ∀ x ∈ i.log, x.cursor.sequence ≤ i.sequence := fun x hx => (h.cursors x hx).2.2
  refine ⟨fun e he info hinfo => ?_, ?_, fun e he => ?_, ?_, fun hs => ?_, fun id c hK hc => ?_⟩
  · rcases List.mem_append.mp he with he | he
    · exact h.starts e he info hinfo
    · rw [List.mem_singleton.mp he] at hinfo
      exact hP info hinfo
  · exact Runs.guarded_append.mpr ⟨h.allowed, hal, trivial⟩
  · rcases List.mem_append.mp he with he | he
    · obtain ⟨h₁, h₂, h₃⟩ := h.cursors e he
      exact ⟨h₁, h₂, h₃.trans (Nat.le_succ _)⟩
    · rw [List.mem_singleton.mp he]
      exact ⟨rfl, Nat.succ_pos _, le_refl _⟩
  · refine List.pairwise_append.mpr ⟨h.ordered, List.pairwise_singleton _ _, fun a ha b hb => ?_⟩
    rw [List.mem_singleton.mp hb]
    exact Nat.lt_succ_of_le (hlog a ha)
  · rw [show (i.announce u).stopped = i.stopped from rfl, hstop] at hs
    cases hs
  · simp only [Inner.announce, OrdMap.get?_map] at hc
    obtain ⟨c₀, hc₀, rfl⟩ := Option.map_eq_some_iff.mp hc
    have hok := h.channels id c₀ hK hc₀
    change ChannelOk i.runId (i.nextEnvelope u).cursor.sequence (i.log ++ [i.nextEnvelope u])
      (i.subscribers.get? id) _
    have hwants : ∀ s, i.subscribers.get? id = some s →
        i.wants u s = relevant s.selection (replay ∅ i.log) u := fun s hs =>
      wants_relevant s (by rw [(hok.live s hs).1]) hu
    split
    · rename_i hw
      obtain ⟨s, hs, hw⟩ := (Option.any_eq_true _ _).mp hw
      exact hok.offer hlog hseq hs (by rw [← hw, hwants s hs]; rfl)
    · rename_i hw
      refine hok.skip hlog hseq fun s hs => ?_
      rw [hs, Option.any_some, hwants s hs] at hw
      exact Bool.eq_false_iff.mpr hw

/-! ## Blocks -/

/-- Emissions of a tale leave the log truthful about what it leads to. -/
theorem Logged.emitAll (h : Logged P K j) (hstop : j.stopped = false) {us : List SubscriptionUpdate}
    (hus : ∀ u ∈ us, Admits P u)
    (htale : Tale j.runId (replay ∅ j.log) (Inner.envelopes j.runId j.sequence us)
      (Service.mirror j.sessions)) : Truthful P K (j.emitAll us) := by
  induction us generalizing j with
  | nil => exact ⟨h, fun _ => htale.2⟩
  | cons u us ih =>
    rw [Inner.emitAll_cons]
    rcases j.emit_cases u with ⟨hs, -⟩ | ⟨-, -, he⟩ | ⟨-, -, he⟩
    · rw [hstop] at hs; cases hs
    · rw [he, Inner.emitAll_stopped rfl]
      exact h.close _
    · rw [he]
      obtain ⟨⟨hal, hrest⟩, hto⟩ := htale
      refine ih (h.announce hstop (.inl (hus u (by simp))) (hus u (by simp)).starts hal) hstop
        (fun v hv => hus v (List.mem_cons_of_mem _ hv)) ⟨?_, ?_⟩
      · simp only [Inner.announce, replay, List.foldl_append] at hrest ⊢
        exact hrest
      · simp only [Inner.announce, replay, List.foldl_append] at hto ⊢
        exact hto

/-- An operation stores sessions and announces them. -/
theorem Truthful.block (h : Truthful P K i) {us : List SubscriptionUpdate} (hrun : j.runId = i.runId)
    (hlog : j.log = i.log) (hseq : j.sequence = i.sequence) (hstop : j.stopped = i.stopped)
    (hch : j.channels = i.channels) (hsub : j.subscribers = i.subscribers)
    (hus : ∀ u ∈ us, Admits P u)
    (htale : i.stopped = false → Tale i.runId (Service.mirror i.sessions)
      (Inner.envelopes i.runId i.sequence us) (Service.mirror j.sessions)) :
    Truthful P K (j.emitAll us) := by
  have hj := h.toLogged.congr hrun hlog hseq hstop hch hsub
  cases hs : i.stopped with
  | true =>
    rw [Inner.emitAll_stopped (hstop.trans hs)]
    exact ⟨hj, fun hf => by rw [hstop, hs] at hf; cases hf⟩
  | false =>
    refine hj.emitAll (hstop.trans hs) hus ?_
    rw [hrun, hlog, hseq, h.mirror hs]
    exact htale hs

/-- A pass announces what it stores, or closes the service. -/
theorem Truthful.applyPass (h : Truthful P K i)
    {p : OrdMap String Session × List Change × Bool}
    (hus : p.2.2 = false → ∀ c ∈ p.2.1, Admits P c.update)
    (htale : p.2.2 = false → Tale i.runId (Service.mirror i.sessions)
      (Inner.envelopes i.runId i.sequence (p.2.1.map Change.update)) (Service.mirror p.1)) :
    Truthful P K (i.applyPass p) := by
  unfold Inner.applyPass
  dsimp only
  split
  · have hstored : Logged P K { i with
        sessions := p.1, history := i.history ++ p.2.1.map Change.mark } :=
      h.toLogged.congr rfl rfl rfl rfl rfl rfl
    exact hstored.close _
  · rename_i hgo
    have hgo : p.2.2 = false := by simpa using hgo
    have hus' : ∀ u ∈ p.2.1.map Change.update, Admits P u := by
      intro u hu
      obtain ⟨c, hc, rfl⟩ := List.mem_map.mp hu
      exact hus hgo c hc
    have htale := fun _ : i.stopped = false => htale hgo
    split
    · exact h.block rfl rfl rfl rfl rfl rfl hus' htale
    · exact h.block rfl rfl rfl rfl rfl rfl hus' htale

/-! ## The operations -/

variable {manifests : List ProviderManifest}

theorem Truthful.settleOnce (h : Truthful P K i) (hok : StoreOk manifests i) (now : Instant) :
    Truthful P K (i.settleOnce now) := by
  have hret : Truthful P K i.retainLive := h.retain _
  have hok' : StoreOk manifests i.retainLive := storeOk_invariant.quiet (Inner.retainLive_quiet i) hok
  refine hret.applyPass (fun hgo c hc => ?_) fun hgo => reconcile_tale hok'.tells now hgo _
  rw [Inner.reconcile, (Inner.pass_sweep hgo).2] at hc
  obtain ⟨id, s, key, t, -, -, hc⟩ := mem_swept hc
  exact admits_of_source (reconcile_source hc)

theorem Truthful.settle (h : Truthful P K i) (hok : StoreOk manifests i) (now : Instant) :
    Truthful P K (i.settle now) :=
  (Inner.settle_rule (I := fun j => Truthful P K j ∧ StoreOk manifests j)
    (fun _ hj => ⟨hj.1.settleOnce hj.2 now, hj.2.settleOnce now⟩) ⟨h, hok⟩).1

theorem Truthful.expire (h : Truthful P K i) (hok : StoreOk manifests i) (now : Instant) :
    Truthful P K (i.expire now) := by
  have hp : Truthful P K (i.applyPass (i.lapse now)) := by
    refine h.applyPass (fun hgo c hc => ?_) fun hgo => lapse_tale hok.tells now hgo _
    rw [Inner.lapse, (Inner.pass_sweep hgo).2] at hc
    obtain ⟨id, s, key, t, -, -, hc⟩ := mem_swept hc
    exact admits_of_source (lapse_source hc)
  have hokp : StoreOk manifests (i.applyPass (i.lapse now)) :=
    hok.applyPass (fun id s key t ht => lapse_owned ht id now)
      fun id s key t ht hgo => lapse_ok ht id now hgo
  unfold Inner.expire
  dsimp only
  split
  · exact hp
  · exact hp.settle hokp now

theorem Truthful.endSession (h : Truthful P K i) (hok : StoreOk manifests i) (status : HostStatus)
    (id : String) : Truthful P K (i.endSession status id) := by
  unfold Inner.endSession
  split
  · exact h
  rename_i s hs
  have hid : s.info.session.sessionId = id := by rw [hok.tells.session id s hs]
  generalize hreason : (if i.retrying status id then SessionEndReason.providerFailed
    else .targetExited) = reason
  let selected (s' : Subscriber) : Bool := s'.selection.sessions == .session s.info.session
  -- The session goes after its end has been announced.
  have hkeep : ∀ k : Inner, Logged P K k → (k.stopped = false →
      replay ∅ k.log = Service.mirror (k.sessions.erase id)) → Truthful P K
      { k.release selected with
        sessions := k.sessions.erase id, history := k.history ++ [.ended id] } :=
    fun k hk hm => ⟨(hk.release selected).congr rfl rfl rfl rfl rfl rfl, hm⟩
  rcases i.emit_cases (.sessionEnded s.info.session reason) with ⟨hst, he⟩ | ⟨-, -, he⟩ | ⟨hst, -, he⟩ <;>
    rw [he]
  · exact hkeep i h.toLogged (fun hf => by rw [hst] at hf; cases hf)
  · exact hkeep _ (h.toLogged.close Inner.exhausted).toLogged (fun hf => by cases hf)
  · have htale : Tale i.runId _ _ _ := ended_tale hs hid i.sequence reason
    obtain ⟨⟨hal, -⟩, hto⟩ := htale
    rw [← h.mirror hst] at hal hto
    refine hkeep _ (h.toLogged.announce hst (.inr (h.mirror hst)) (fun _ hf => by cases hf) hal) (fun _ => ?_)
    simp only [Inner.announce, replay, List.foldl_append]
    exact hto

theorem Truthful.endSessions (h : Truthful P K i) (hok : StoreOk manifests i) (status : HostStatus)
    (ids : List String) : Truthful P K (ids.foldl (Inner.endSession status) i) := by
  induction ids generalizing i with
  | nil => exact h
  | cons id ids ih => exact ih (h.endSession hok status id) (hok.endSession status id)

theorem Truthful.addSession (h : Truthful P K i) (hok : StoreOk manifests i) {info : SessionInfo}
    (hP : P info) (hrun : info.session.runId = i.runId)
    (hnew : i.sessions.get? info.session.sessionId = none) : Truthful P K (i.addSession info).2 := by
  rcases Inner.addSession_cases info i with
    ⟨-, he⟩ | ⟨-, he⟩ | ⟨-, he⟩ | ⟨p, -, hp, -, -, he⟩ <;> rw [he]
  · exact h
  · exact h
  · exact h.toLogged.close _
  · refine h.block rfl rfl rfl rfl rfl rfl (fun u hu => ?_) fun _ => ?_
    · rcases List.mem_cons.mp hu with rfl | hu
      · exact hP
      · obtain ⟨t, -, rfl⟩ := List.mem_map.mp hu
        trivial
    · exact arrival_tale hp hnew hrun (fun id s hs => by rw [hok.tells.session id s hs]) _

theorem Truthful.addSessions {l : List (String × SessionInfo)} (h : Truthful P K i)
    (hok : StoreOk manifests i) (hP : ∀ e ∈ l, P e.2)
    (hl : ∀ e ∈ l, e.2.session = ⟨i.runId, e.1⟩) : Truthful P K (Inner.addSessions l i).2 := by
  induction l generalizing i with
  | nil => exact h
  | cons e l ih =>
    have hl' := fun x hx => hl x (List.mem_cons_of_mem _ hx)
    have hP' := fun x hx => hP x (List.mem_cons_of_mem _ hx)
    have he := hl e (by simp)
    rw [Inner.addSessions]
    split
    · exact ih h hok hP' hl'
    · rename_i hnew
      have hnew : i.sessions.get? e.2.session.sessionId = none := by
        rw [he]
        simpa [OrdMap.contains, Option.isSome_iff_ne_none] using hnew
      have hadd := h.addSession hok (hP e (by simp)) (by rw [he]) hnew
      have hnext : StoreOk manifests (i.addSession e.2).2 ∧ _ := hok.addSession (by rw [he])
      obtain ⟨hadd', hrun⟩ := hnext
      split
      · rename_i ha; rw [ha] at hadd; exact hadd
      · rename_i ha
        rw [ha] at hadd hadd' hrun
        exact ih hadd hadd' hP' fun x hx => by rw [hl' x hx, hrun]

omit [Postcard] in
theorem Truthful.advance (h : Truthful P K i) : Truthful P K i.advance.2 := by
  unfold Inner.advance
  split
  · exact h
  split
  · rename_i next hnext
    obtain ⟨rfl, -⟩ := checkedAdd_eq_some.mp hnext
    refine ⟨⟨h.starts, h.allowed, fun e he => ?_, h.ordered, h.empty, fun id c hK hc => ?_⟩, h.mirror⟩
    · obtain ⟨h₁, h₂, h₃⟩ := h.cursors e he
      exact ⟨h₁, h₂, h₃.trans (Nat.le_succ _)⟩
    · exact (h.channels id c hK hc).mono (Nat.le_succ _)
  · exact h.toLogged.close _

theorem Truthful.syncRuntime (h : Truthful P K i) (hok : StoreOk manifests i) {status : HostStatus}
    (hP : ∀ e ∈ (i.incoming status).entries, P e.2) (now : Instant) : Truthful P K (i.syncRuntime status now).2 := by
  unfold Inner.syncRuntime
  split
  · exact h
  dsimp only
  have he := h.endSessions hok status (i.sessions.keys.filter fun id => !(i.incoming status).contains id)
  obtain ⟨heok, hrun⟩ := hok.endSessions status
    (i.sessions.keys.filter fun id => !(i.incoming status).contains id)
  have hl : ∀ e ∈ (i.incoming status).entries, e.2.session = ⟨((i.sessions.keys.filter fun id =>
      !(i.incoming status).contains id).foldl (Inner.endSession status) i).runId, e.1⟩ :=
    fun e hm => by rw [hrun, Inner.incoming_session hm]
  have ha := he.addSessions heok hP hl
  have haok := heok.addSessions (l := (i.incoming status).entries) fun e hm => by rw [hl e hm]
  split
  · rename_i heq; rw [heq] at ha; exact ha
  · rename_i j heq
    rw [heq] at ha haok
    have hj : Truthful P K { j with runtime := status } :=
      ⟨ha.toLogged.congr rfl rfl rfl rfl rfl rfl, ha.mirror⟩
    have hjok : StoreOk manifests { j with runtime := status } :=
      haok.sub rfl rfl (le_refl _) fun _ _ hs => hs
    exact hj.advance.settle hjok.advance now

theorem Truthful.commitPoll [SerdeJson] (h : Truthful P K i) (hok : StoreOk manifests i)
    (ticket : PollTicket) {batch : PollBatch} (hm : batch.manifest ∈ manifests)
    (deadline now : Instant) : Truthful P K (i.commitPoll ticket batch deadline now).2 := by
  rcases Inner.commitPoll_cases ticket batch deadline now i with
    ⟨r, -, he⟩ | ⟨-, -, he⟩ | ⟨session, staged, hp, he⟩ <;> rw [he]
  · exact h
  · exact h.toLogged.close _
  refine Truthful.settle ?_ (hok.transact _ hm hp) now
  rw [Inner.transact_eq (i := i.record _) hp.stopped hp.found hp.room]
  exact h.block rfl rfl rfl rfl rfl rfl (fun u hu => admits_of_stays (Inner.transaction_ends hu))
    fun _ => transaction_tale hok hm hp

theorem Truthful.discardPoll (h : Truthful P K i) (hok : StoreOk manifests i) (ticket : PollTicket)
    (resets : List TopicRef) (failed : Bool) (now : Instant) :
    Truthful P K (i.discardPoll ticket resets failed now).2 := by
  rcases Inner.discardPoll_cases ticket resets failed now i with
    ⟨-, he⟩ | ⟨-, -, he⟩ | ⟨session, hd, he⟩ <;> rw [he]
  · exact h
  · exact h.toLogged.close _
  refine Truthful.settle ?_ (hok.discardTransaction ticket resets failed hd) now
  refine h.block rfl rfl rfl rfl rfl rfl (fun u hu => ?_) fun _ => discard_tale hok.tells hd.found _
  obtain ⟨c, hc, rfl⟩ := List.mem_map.mp hu
  rw [(Inner.discard_sweep _ _ hd.found).2] at hc
  obtain ⟨id, s, key, t, -, -, hc⟩ := mem_swept hc
  exact admits_of_source (discardSteps_source hc)

end Service
end WfObserver
