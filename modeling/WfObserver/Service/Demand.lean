import WfObserver.Service.Discard
import WfObserver.Service.Stepwise
import WfObserver.Service.TestSupport
import WfObserver.Service.Topics

/-!
# Demand is the union of the live subscriptions

`Settled` is the fixpoint that `settle` reaches: a topic is demanded exactly if a subscriber selects
it, and no subscriber's queue has ended. `settle_settled` holds from any state, whatever the queues
do to the updates that `settle` emits itself. Every operation ends settled (`step_settled`).

`Tracked` says that every subscriber has its queue.
-/

namespace WfObserver
namespace Service

open Wire
open ProviderSdk (ProviderManifest)

/-- The fixpoint of `settle`. -/
structure Settled (i : Inner) : Prop where
  demand : ∀ id s key t, i.sessions.get? id = some s → s.topics.get? key = some t →
    t.demanded = i.wanted s.info.session key
  live : i.lagging = false

/-- Every subscriber has its queue, and ids are not reused. -/
structure Tracked (i : Inner) : Prop where
  channel : ∀ id s, i.subscribers.get? id = some s → i.channels.contains id = true
  fresh : ∀ id, i.channels.contains id = true → id ≤ i.nextSubscription

section Operations

variable [Postcard] {i : Inner}

/-! ## The fixpoint -/

omit [Postcard] in
/-- Without subscribers nothing is wanted. -/
theorem wanted_empty (h : i.subscribers = ∅) (session : SessionRef) (key : TopicRef) :
    i.wanted session key = false := by
  rw [Inner.wanted, h]
  rfl

omit [Postcard] in
/-- A closed service is settled. -/
theorem close_settled (e : SubscriptionEnd) (i : Inner) : Settled (i.close e) := by
  refine ⟨fun id s key t hs ht => ?_, rfl⟩
  rw [wanted_empty rfl]
  rw [Inner.close_get?] at hs
  obtain ⟨s, -, rfl⟩ := Option.map_eq_some_iff.mp hs
  rw [OrdMap.get?_map] at ht
  obtain ⟨t, -, rfl⟩ := Option.map_eq_some_iff.mp ht
  rfl

omit [Postcard] in
/-- After its step the topic is demanded as asked. -/
theorem reconcile_demanded {id : String} {key : TopicRef} {d : Bool} {now : Instant} {t : Topic}
    (hgo : (t.reconcile id key d now).2.2 = false) : (t.reconcile id key d now).1.demanded = d := by
  rcases t.reconcile_cases id key d now with ⟨hd, he⟩ | ⟨-, rfl, he⟩ | ⟨-, rfl, he⟩ | ⟨t', he, -⟩ <;>
    rw [he] at hgo ⊢
  · exact hd
  · rfl
  · rfl
  · cases hgo

/-- One turn of `settle` makes the demand right for the subscribers that it leaves. -/
theorem settleOnce_demand (now : Instant) (i : Inner) {id : String} {s : Session} {key : TopicRef}
    {t : Topic} (hs : (i.settleOnce now).sessions.get? id = some s)
    (ht : s.topics.get? key = some t) :
    t.demanded = (i.settleOnce now).wanted s.info.session key := by
  revert hs
  unfold Inner.settleOnce Inner.applyPass
  dsimp only
  split
  · intro hs
    exact (close_settled _ _).demand id s key t hs ht
  rename_i hgo
  have hgo : (i.retainLive.reconcile now).2.2 = false := by simpa using hgo
  rcases Inner.emitAll_cases (if (i.retainLive.reconcile now).2.1.isEmpty then _ else _) _ with
    ⟨hq, hsub⟩ | ⟨j, -, -, -, he⟩
  · intro hs
    rw [hq.sessions] at hs
    rw [Inner.wanted, hsub]
    -- The stored sessions are those of the pass; the pass asked the retained subscribers.
    have hs : (i.retainLive.reconcile now).1.get? id = some s := by
      split at hs <;> exact hs
    rw [Inner.reconcile, Inner.pass_map hgo, OrdMap.get?_map] at hs
    obtain ⟨s₀, hs₀, rfl⟩ := Option.map_eq_some_iff.mp hs
    rw [OrdMap.get?_map] at ht
    obtain ⟨t₀, ht₀, rfl⟩ := Option.map_eq_some_iff.mp ht
    rw [reconcile_demanded (Inner.pass_go hgo hs₀ ht₀)]
    split <;> rfl
  · intro hs
    rw [he] at hs ⊢
    exact (close_settled _ _).demand id s key t hs ht

/-- `settle` reaches the fixpoint from any state. -/
theorem settle_settled (now : Instant) (i : Inner) : Settled (i.settle now) := by
  obtain ⟨k, hk, hl⟩ := Inner.settle_last now i
  refine ⟨fun id s key t hs ht => ?_, hl⟩
  rw [hk] at hs ⊢
  exact settleOnce_demand now k hs ht

/-! ## Every operation ends settled -/

/-- A pass that stopped has closed the service. -/
theorem applyPass_stop {p : OrdMap String Session × List Change × Bool} (h : p.2.2 = true)
    (i : Inner) : Settled (i.applyPass p) := by
  unfold Inner.applyPass
  dsimp only
  rw [if_pos h]
  exact close_settled _ _

theorem expire_settled (now : Instant) (i : Inner) : Settled (i.expire now) := by
  unfold Inner.expire
  dsimp only
  split
  · rename_i h; exact applyPass_stop h i
  · exact settle_settled now _

omit [Postcard] in
/-- Settledness depends only on the sessions, the selections and the ends of the queues. -/
theorem Settled.congr {i' : Inner} (h : Settled i) (hs : i'.sessions = i.sessions)
    (hw : ∀ session key, i'.wanted session key = i.wanted session key)
    (hl : i'.lagging = i.lagging) : Settled i' :=
  ⟨fun id s key t hid ht => by rw [hw]; exact h.demand id s key t (hs ▸ hid) ht, hl.trans h.live⟩

omit [Postcard] in
theorem any_map_congr {ν μ : Type} {m : OrdMap Nat ν} {f : Nat → ν → μ} {p : Nat → μ → Bool}
    {q : Nat → ν → Bool} (h : ∀ k v, p k (f k v) = q k v) : (m.map f).any p = m.any q := by
  simp only [OrdMap.any, OrdMap.map, List.any_map]
  congr 1
  funext e
  exact h e.1 e.2

omit [Postcard] in
/-- A subscriber becomes active with its bootstrap: neither demand nor ends change. -/
theorem activate_settled (id : Nat) (frames : List SubscriptionItem) (h : Settled i) :
    Settled (i.activate id frames) := by
  refine h.congr rfl (fun session key => ?_) ?_
  · unfold Inner.wanted Inner.activate OrdMap.modify
    exact any_map_congr (p := fun _ (s : Subscriber) => s.selects session key)
      (q := fun _ (s : Subscriber) => s.selects session key) fun k s => by split <;> rfl
  · unfold Inner.lagging
    have hend : ∀ k, (i.activate id frames).endedChannel k = i.endedChannel k := by
      intro k
      unfold Inner.endedChannel Inner.activate
      simp only [OrdMap.get?_modify]
      split
      · rw [Option.any_map]; rfl
      · rfl
    simp only [hend]
    unfold Inner.activate OrdMap.modify
    exact any_map_congr (p := fun k _ => i.endedChannel k) fun _ _ => rfl

omit [Postcard] in
/-- A pop does not end a queue. -/
theorem pop_settled (id : Nat) (h : Settled i) : Settled (i.pop id) := by
  refine h.congr rfl (fun _ _ => rfl) ?_
  unfold Inner.lagging
  have hend : ∀ k, (i.pop id).endedChannel k = i.endedChannel k := by
    intro k
    unfold Inner.endedChannel Inner.pop
    simp only [OrdMap.get?_modify]
    split
    · rw [Option.any_map]
      congr 1
      funext c
      exact Channel.ended_next c
    · rfl
  simp only [hend]
  rfl

theorem subscribe_settled (request : Subscribe) (clock : Readings) (pace : Nat → Nat)
    (h : Settled i) : Settled (i.subscribe request clock pace).2 := by
  unfold Inner.subscribe
  split
  · exact h
  have he := expire_settled clock.expire i
  dsimp only
  split
  · exact he
  split
  · exact he
  split
  · exact he
  split
  · exact he
  · split
    · exact activate_settled _ _ (settle_settled _ _)
    · exact settle_settled _ _

/-- The status names only providers of the catalog. -/
def HostStatus.Registered (c : Catalog) (status : HostStatus) : Prop :=
  ∀ t ∈ status.targets, ∀ id, t.activity = .observing id →
    ∃ p ∈ c.providers, p.id = t.target.providerId

theorem addSessions_ok {l : List (String × SessionInfo)}
    (h : ∀ e ∈ l, ∃ p ∈ i.catalog.providers, p.id = e.2.providerId) :
    (Inner.addSessions l i).1 = .ok () := by
  induction l generalizing i with
  | nil => rfl
  | cons e l ih =>
    have hl := fun x hx => h x (List.mem_cons_of_mem _ hx)
    rw [Inner.addSessions]
    split
    · exact ih hl
    · obtain ⟨p, hp, hid⟩ := h e (by simp)
      have hfind : (i.catalog.providers.find? fun p => p.id == e.2.providerId).isSome := by
        rw [List.find?_isSome]
        exact ⟨p, hp, by simpa using hid⟩
      obtain ⟨q, hq⟩ := Option.isSome_iff_exists.mp hfind
      have hok : (i.addSession e.2).1 = .ok () := by
        unfold Inner.addSession
        rw [hq]
        dsimp only
        split <;> rfl
      have hcat := (Grows.stepwise.addSession e.2 i fun _ => trivial).catalog
      split
      · rename_i he; rw [he] at hok; cases hok
      · rename_i he
        rw [he] at hcat
        exact ih fun x hx => by rw [hcat]; exact hl x hx

theorem syncRuntime_settled {status : HostStatus} (hr : status.Registered i.catalog) (now : Instant)
    (h : Settled i) : Settled (i.syncRuntime status now).2 := by
  unfold Inner.syncRuntime
  split
  · exact h
  dsimp only
  have hcat := (Grows.stepwise.foldl (Grows.stepwise.endSession status)
    (i.sessions.keys.filter fun id => !(i.incoming status).contains id) i).catalog
  have hok : (Inner.addSessions (i.incoming status).entries
      ((i.sessions.keys.filter fun id => !(i.incoming status).contains id).foldl
        (Inner.endSession status) i)).1 = .ok () := by
    refine addSessions_ok fun e he => ?_
    rw [hcat]
    obtain ⟨id', info⟩ := e
    obtain ⟨target, ht, hm⟩ := List.mem_filterMap.mp
      (OrdMap.mem_of_get?_ofList (OrdMap.get?_eq_some.mpr he))
    split at hm
    · rename_i hact
      cases hm
      exact hr target ht _ hact
    · cases hm
  split
  · rename_i he; rw [he] at hok; cases hok
  · exact settle_settled now _

theorem commitPoll_settled [SerdeJson] (ticket : PollTicket) (batch : PollBatch)
    (deadline now : Instant) (h : Settled i) :
    Settled (i.commitPoll ticket batch deadline now).2 := by
  rcases Inner.commitPoll_cases ticket batch deadline now i with
    ⟨r, -, he⟩ | ⟨-, -, he⟩ | ⟨session, staged, -, he⟩ <;> rw [he]
  · exact h
  · exact close_settled _ _
  · exact settle_settled now _

theorem discardPoll_settled (ticket : PollTicket) (resets : List TopicRef) (failed : Bool)
    (now : Instant) (h : Settled i) : Settled (i.discardPoll ticket resets failed now).2 := by
  rcases Inner.discardPoll_cases ticket resets failed now i with
    ⟨-, he⟩ | ⟨-, -, he⟩ | ⟨session, -, he⟩ <;> rw [he]
  · exact h
  · exact close_settled _ _
  · exact settle_settled now _

variable [SerdeJson]

omit [Postcard] in
/-- The lifecycle updates of a run name registered providers. -/
def Op.Registered (c : Catalog) : Op → Prop
  | .updateLifecycle status _ => status.Registered c
  | _ => True

theorem step_settled {op : Op} (hop : op.Registered i.catalog) (h : Settled i) :
    Settled (step i op) := by
  cases op with
  | updateLifecycle status now => exact syncRuntime_settled hop now h
  | subscribe request clock pace => exact subscribe_settled request clock pace h
  | drop id now => exact settle_settled now _
  | commitPoll ticket batch deadline now => exact commitPoll_settled ticket batch deadline now h
  | discardPoll ticket resets failed now => exact discardPoll_settled ticket resets failed now h
  | expire now => exact expire_settled now i
  | shutdown => exact close_settled _ i
  | pop id => exact pop_settled id h

/-! ## Every subscriber has its queue -/

omit [SerdeJson] [Postcard] in
theorem Tracked.narrows {i' : Inner} (h : Tracked i) (hn : Narrows i i') : Tracked i' :=
  ⟨fun id s hs => by rw [hn.channels]; exact h.channel id s (hn.subscribers id s hs),
    fun id hc => by rw [hn.nextSubscription]; exact h.fresh id (hn.channels id ▸ hc)⟩

omit [SerdeJson] [Postcard] in
theorem Tracked.register (h : Tracked i) (request : Subscribe) (pace : Nat → Nat) :
    Tracked (i.register (i.nextSubscription + 1) request pace) := by
  refine ⟨fun id s hs => ?_, fun id hc => ?_⟩
  · unfold OrdMap.contains Inner.register
    dsimp only
    rw [OrdMap.get?_insert]
    split
    · rfl
    · rename_i hne
      rw [Inner.register, OrdMap.get?_insert_ne _ _ hne] at hs
      exact h.channel id s hs
  · unfold OrdMap.contains Inner.register at hc
    dsimp only at hc
    rw [OrdMap.get?_insert] at hc
    split at hc
    · rename_i he; exact he.le
    · exact (h.fresh id hc).trans (Nat.le_succ _)

omit [SerdeJson] [Postcard] in
theorem Tracked.unregister (h : Tracked i) (n : Nat) : Tracked (i.unregister n) := by
  refine ⟨fun id s hs => ?_, fun id hc => h.fresh id ?_⟩
  · simp only [Inner.unregister, OrdMap.contains, OrdMap.get?_erase] at hs ⊢
    split at hs
    · cases hs
    · rename_i hne
      rw [if_neg hne]
      exact h.channel id s hs
  · simp only [Inner.unregister, OrdMap.contains, OrdMap.get?_erase] at hc ⊢
    split at hc
    · cases hc
    · exact hc

omit [SerdeJson] in
theorem Tracked.subscribe (h : Tracked i) (request : Subscribe) (clock : Readings)
    (pace : Nat → Nat) : Tracked (i.subscribe request clock pace).2 := by
  unfold Inner.subscribe
  split
  · exact h
  have he := h.narrows (Narrows.stepwise.expire clock.expire i)
  dsimp only
  split
  · exact he
  split
  · exact he
  split
  · exact he
  split
  · exact he
  · rename_i id hid
    obtain ⟨rfl, -⟩ := checkedAdd_eq_some.mp hid
    have hs := (he.register request pace).narrows (Narrows.stepwise.settle clock.settle _)
    split
    · refine ⟨fun id s hs' => ?_, fun id hc => hs.fresh id ?_⟩
      · simp only [Inner.activate, OrdMap.modify, OrdMap.contains_map, OrdMap.get?_map] at hs' ⊢
        obtain ⟨s₀, hs₀, -⟩ := Option.map_eq_some_iff.mp hs'
        exact hs.channel id s₀ hs₀
      · simpa only [Inner.activate, OrdMap.modify, OrdMap.contains_map] using hc
    · exact (hs.unregister _).narrows (Narrows.stepwise.settle clock.undo _)

theorem Tracked.step (h : Tracked i) (op : Op) : Tracked (step i op) := by
  cases op with
  | updateLifecycle status now => exact h.narrows (Narrows.stepwise.syncRuntime status now i
      fun _ _ _ _ _ => trivial)
  | subscribe request clock pace => exact h.subscribe request clock pace
  | drop id now => exact h.narrows (Narrows.stepwise.drop id now i)
  | commitPoll ticket batch deadline now =>
    exact h.narrows (Narrows.stepwise.commitPoll ticket batch deadline now i fun _ => trivial)
  | discardPoll ticket resets failed now =>
    exact h.narrows (Narrows.stepwise.discardPoll ticket resets failed now i fun _ => trivial)
  | expire now => exact h.narrows (Narrows.stepwise.expire now i)
  | shutdown => exact h.narrows (Narrows.closed i _)
  | pop id =>
    refine h.narrows ⟨fun _ _ hs => hs, fun k => ?_, rfl⟩
    exact OrdMap.contains_map _ _ _

/-! ## Runs -/

omit [Postcard] [SerdeJson] in
/-- A new service is settled and has no subscribers. -/
theorem new_settled {manifests : List ProviderManifest} {runId : String} {messageBytes : Nat}
    (h : ServiceState.new manifests runId messageBytes = .ok i) : Settled i ∧ Tracked i := by
  unfold ServiceState.new at h
  split at h
  · cases h
  · cases h
    exact ⟨⟨by simp, rfl⟩, ⟨by simp, by simp [OrdMap.contains]⟩⟩

theorem run_settled (h : Settled i) (ht : Tracked i) {ops : List Op}
    (hops : ∀ op ∈ ops, op.Registered i.catalog) : Settled (run i ops) ∧ Tracked (run i ops) := by
  have key : ∀ (j : Inner) (op : Op), op.Registered i.catalog →
      (j.catalog = i.catalog ∧ Settled j ∧ Tracked j) →
      (step j op).catalog = i.catalog ∧ Settled (step j op) ∧ Tracked (step j op) := by
    rintro j op hop ⟨hc, hs, ht⟩
    exact ⟨(step_grows j op).catalog.trans hc, step_settled (hc ▸ hop) hs, ht.step op⟩
  exact (Runs.run_invariant key hops ⟨rfl, h, ht⟩).2

/-- After every operation a topic is demanded exactly if a registered subscription whose queue has
not ended selects it; and `settle` ends at this fixpoint from any state, with as many turns as there
are subscribers. -/
theorem demand_union {manifests : List ProviderManifest} {runId : String} {messageBytes : Nat}
    (h : ServiceState.new manifests runId messageBytes = .ok i) (ops : List Op)
    (hops : ∀ op ∈ ops, op.Registered i.catalog) :
    (∀ id s key t, (run i ops).sessions.get? id = some s → s.topics.get? key = some t →
      (t.demanded = true ↔ ∃ n sub c, (run i ops).subscribers.get? n = some sub ∧
        (run i ops).channels.get? n = some c ∧ c.ended = false ∧
        sub.selects s.info.session key = true)) ∧
    ∀ (j : Inner) (now : Instant), ∃ k,
      Inner.settleLoop (j.subscribers.size + 1) now j = some k ∧ Settled k := by
  refine ⟨fun id s key t hs ht => ?_, fun j now => ⟨_, Inner.settle_eq now j, settle_settled now j⟩⟩
  obtain ⟨hset, htr⟩ := run_settled (new_settled h).1 (new_settled h).2 hops
  rw [hset.demand id s key t hs ht, Inner.wanted, OrdMap.any_iff]
  constructor
  · rintro ⟨n, sub, hsub, hsel⟩
    obtain ⟨c, hc⟩ := OrdMap.contains_iff.mp (htr.channel n sub hsub)
    refine ⟨n, sub, c, hsub, hc, ?_, hsel⟩
    by_contra hend
    have : (run i ops).lagging = true :=
      OrdMap.any_iff.mpr ⟨n, sub, hsub, by simpa [Inner.endedChannel, hc] using hend⟩
    rw [hset.live] at this
    cases this
  · rintro ⟨n, sub, c, hsub, -, -, hsel⟩
    exact ⟨n, sub, hsub, hsel⟩

end Operations

open TestSupport in
/-- A published topic is demanded by its one subscription. -/
theorem demand_union_published :
    (counted.demanded = true ↔ ∃ n sub c, (run service published).subscribers.get? n = some sub ∧
      (run service published).channels.get? n = some c ∧ c.ended = false ∧
      sub.selects one.info.session topic = true) := by
  have hops : ∀ op ∈ published, op.Registered service.catalog := by
    intro op hop
    simp only [published, List.mem_cons, List.not_mem_nil, or_false] at hop
    rcases hop with rfl | rfl | rfl
    · intro t ht _ _
      rw [List.mem_singleton.mp ht]
      exact ⟨_, List.mem_singleton.mpr rfl, rfl⟩
    · trivial
    · trivial
  exact (demand_union new_service published hops).1 _ _ _ _ published_one one_counted

end Service
end WfObserver
