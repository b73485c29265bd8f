import WfObserver.Service.Exhaustion
import WfObserver.Service.Sweep

/-!
# A rejected subscription leaves no trace

`subscribe` raises the demand of its topics before it captures the bootstrap, and takes it back if that
fails. Both times only topics move that no other subscription selects, so nobody is told (`Calm`). What
is left of them is their counters: `Untouched` says that every other part of the service is as before.
-/

namespace WfObserver
namespace Service

open Wire
open ProviderSdk (ProviderManifest)

/-- What nobody but a rejected subscriber can see of a service has changed at most. -/
structure Untouched (i i' : Inner) : Prop where
  subscribers : i'.subscribers = i.subscribers
  channels : i'.channels = i.channels
  contains : ∀ id, i'.sessions.contains id = i.sessions.contains id
  topics : ∀ id s, i.sessions.get? id = some s → ∃ s', i'.sessions.get? id = some s' ∧
    s'.info = s.info ∧ (∀ key, s'.topics.contains key = s.topics.contains key) ∧
    ∀ key t, s.topics.get? key = some t → ∃ t', s'.topics.get? key = some t' ∧
      t'.demanded = t.demanded ∧ (t.demanded = true → t' = t)

theorem Untouched.refl (i : Inner) : Untouched i i where
  subscribers := rfl
  channels := rfl
  contains _ := rfl
  topics _ s hs := ⟨s, hs, rfl, fun _ => rfl, fun _ t ht => ⟨t, ht, rfl, fun _ => rfl⟩⟩

/-- The steps of `settle`. -/
def settleSteps (i : Inner) (now : Instant) : Steps := fun id s key t =>
  ((t.reconcile id key (i.wanted s.info.session key) now).1,
    (t.reconcile id key (i.wanted s.info.session key) now).2.1)

/-- A `settle` that nobody hears of. -/
structure Calm (now : Instant) (i i' : Inner) : Prop where
  subscribers : i'.subscribers = i.subscribers
  channels : i'.channels = i.channels
  sessions : i'.sessions = sweep (settleSteps i now) i.sessions

/-- No active subscriber selects a topic whose demand is due to change. -/
def Unheard (i : Inner) : Prop :=
  ∀ id s key t, i.sessions.get? id = some s → s.topics.get? key = some t →
    t.demanded ≠ i.wanted s.info.session key →
      ∀ n sub, i.subscribers.get? n = some sub → sub.active = true →
        sub.selects s.info.session key = false

/-- Every topic knows where it is stored. -/
def Placed (i : Inner) : Prop :=
  ∀ id s key t, i.sessions.get? id = some s → s.topics.get? key = some t →
    t.state.source.session = s.info.session ∧ t.state.source.topic = key

section Operations

variable [Postcard] {i : Inner}

/-! ## Updates that nobody wants -/

theorem announce_unheard {u : SubscriptionUpdate}
    (h : ∀ n sub, i.subscribers.get? n = some sub → i.wants u sub = false) :
    (i.announce u).channels = i.channels := by
  change i.channels.map (fun n c =>
    if (i.subscribers.get? n).any fun sub => i.wants u sub then
      c.offer (.update (i.nextEnvelope u))
    else c) = _
  refine OrdMap.map_id fun n c _ => ?_
  cases hn : i.subscribers.get? n with
  | none => rfl
  | some sub => simp [h n sub hn]

/-- Updates of topics that nobody wants change no queue, unless the sequence is exhausted. -/
theorem emitAll_unheard {us : List SubscriptionUpdate} (hus : ∀ u ∈ us, movesSession u = false)
    (h : ∀ u ∈ us, ∀ n sub, i.subscribers.get? n = some sub → sub.active = true →
      sub.matchesUpdate u = false) (hopen : (i.emitAll us).stopped = false) :
    (i.emitAll us).subscribers = i.subscribers ∧ (i.emitAll us).channels = i.channels ∧
      (i.emitAll us).sessions = i.sessions := by
  induction us generalizing i with
  | nil => exact ⟨rfl, rfl, rfl⟩
  | cons u us ih =>
    rw [Inner.emitAll_cons] at hopen ⊢
    rcases i.emit_cases u with ⟨hstop, he⟩ | ⟨-, -, he⟩ | ⟨-, -, he⟩
    · rw [he, Inner.emitAll_stopped hstop] at hopen
      rw [hstop] at hopen
      cases hopen
    · rw [he, Inner.emitAll_stopped (Inner.close_stopped _ _)] at hopen
      cases hopen
    · rw [he] at hopen ⊢
      have hwants : ∀ n sub, i.subscribers.get? n = some sub → i.wants u sub = false := by
        intro n sub hn
        have hu := hus u List.mem_cons_self
        have hm := h u List.mem_cons_self n sub hn
        unfold Inner.wants
        cases ha : sub.active with
        | false => rfl
        | true =>
          have hend : i.endedInfo u = none := by
            cases u <;> first | rfl | cases hu
          rw [hend]
          exact hm ha
      obtain ⟨hsub, hch, hses⟩ := ih (i := i.announce u)
        (fun v hv => hus v (List.mem_cons_of_mem _ hv))
        (fun v hv => h v (List.mem_cons_of_mem _ hv)) hopen
      exact ⟨hsub, hch.trans (announce_unheard hwants), hses⟩

/-! ## A calm `settle` -/

omit [Postcard] in
theorem retainLive_live (h : i.lagging = false) : i.retainLive = i := by
  have hsub : i.subscribers.filter (fun id _ => !i.endedChannel id) = i.subscribers := by
    refine OrdMap.ext_get? fun n => ?_
    rw [OrdMap.get?_filter]
    cases hn : i.subscribers.get? n with
    | none => rfl
    | some sub =>
      have hlive : i.endedChannel n = false := by
        by_contra hend
        have : i.lagging = true := OrdMap.any_iff.mpr ⟨n, sub, hn, by simpa using hend⟩
        rw [h] at this
        cases this
      simp [Option.filter, hlive]
  unfold Inner.retainLive
  rw [hsub]

omit [Postcard] in
/-- A step that changes a topic is about that topic, and its demand was due to change. -/
theorem settleSteps_unheard (h : Unheard i) (hp : Placed i) {now : Instant} {id : String}
    {s : Session} {key : TopicRef} {t : Topic} (hs : i.sessions.get? id = some s)
    (ht : s.topics.get? key = some t) {c : Change} (hc : c ∈ (settleSteps i now id s key t).2) :
    movesSession c.update = false ∧ ∀ n sub, i.subscribers.get? n = some sub → sub.active = true →
      sub.matchesUpdate c.update = false := by
  obtain ⟨hsession, htopic⟩ := hp id s key t hs ht
  have hunheard := h id s key t hs ht
  rcases t.reconcile_cases id key (i.wanted s.info.session key) now with
    ⟨-, he⟩ | ⟨hf, hd, he⟩ | ⟨hd, hf, he⟩ | ⟨t', he, -⟩ <;>
    simp only [settleSteps, he, List.not_mem_nil, List.mem_singleton] at hc
  · subst hc
    refine ⟨rfl, fun n sub hn ha => ?_⟩
    have := hunheard (by rw [hf, hd]; simp) n sub hn ha
    rwa [← hsession, ← htopic] at this
  · subst hc
    refine ⟨rfl, fun n sub hn ha => ?_⟩
    have := hunheard (by rw [hf, hd]; simp) n sub hn ha
    rwa [← hsession, ← htopic] at this

/-- A pass whose updates nobody wants. -/
theorem applyPass_unheard {p : OrdMap String Session × List Change × Bool}
    (hus : ∀ u ∈ p.2.1.map Change.update, movesSession u = false)
    (h : ∀ u ∈ p.2.1.map Change.update, ∀ n sub, i.subscribers.get? n = some sub →
      sub.active = true → sub.matchesUpdate u = false)
    (hopen : (i.applyPass p).stopped = false) :
    (i.applyPass p).subscribers = i.subscribers ∧
      (i.applyPass p).channels = i.channels ∧ (i.applyPass p).sessions = p.1 := by
  unfold Inner.applyPass at hopen ⊢
  dsimp only at hopen ⊢
  split at hopen
  · cases hopen
  rename_i hgo
  rw [if_neg hgo]
  split at hopen
  · rename_i hempty
    rw [if_pos hempty]
    exact emitAll_unheard hus h hopen
  · rename_i hempty
    rw [if_neg hempty]
    exact emitAll_unheard hus h hopen

theorem settleOnce_calm (hlive : i.lagging = false) (h : Unheard i) (hp : Placed i) (now : Instant)
    (hopen : (i.settleOnce now).stopped = false) : Calm now i (i.settleOnce now) := by
  unfold Inner.settleOnce at hopen ⊢
  rw [retainLive_live hlive] at hopen ⊢
  have hgo : (i.reconcile now).2.2 = false := by
    by_contra hstop
    unfold Inner.applyPass at hopen
    dsimp only at hopen
    rw [if_pos (by simpa using hstop)] at hopen
    cases hopen
  obtain ⟨hstored, hchanges⟩ := Inner.pass_sweep hgo
  have hupdates : ∀ u ∈ (i.reconcile now).2.1.map Change.update, movesSession u = false ∧
      ∀ n sub, i.subscribers.get? n = some sub → sub.active = true →
        sub.matchesUpdate u = false := by
    intro u hu
    obtain ⟨c, hc, rfl⟩ := List.mem_map.mp hu
    rw [Inner.reconcile, hchanges] at hc
    obtain ⟨id, s, key, t, hs, ht, hc⟩ := mem_swept hc
    exact settleSteps_unheard h hp hs ht hc
  obtain ⟨hsub, hch, hses⟩ := applyPass_unheard (fun u hu => (hupdates u hu).1)
    (fun u hu => (hupdates u hu).2) hopen
  exact ⟨hsub, hch, hses.trans hstored⟩

/-- Where no queue has ended, and nobody hears of the topics that change, one turn is enough. -/
theorem settle_calm (hlive : i.lagging = false) (h : Unheard i) (hp : Placed i) (now : Instant)
    (hopen : (i.settle now).stopped = false) : Calm now i (i.settle now) := by
  have hloop := Inner.settle_eq now i
  rw [Inner.settleLoop] at hloop
  split at hloop
  · rename_i hlag
    -- Somebody has lagged although nothing was offered, so the turn has closed the service.
    exfalso
    cases hstop : (i.settleOnce now).stopped with
    | true =>
      have := Inner.settleLoop_rule (I := fun j => j.stopped = true)
        (fun _ => Inner.settleOnce_stopped now) hstop hloop
      rw [hopen] at this
      cases this
    | false =>
      have hcalm := settleOnce_calm hlive h hp now hstop
      unfold Inner.lagging Inner.endedChannel at hlag hlive
      rw [hcalm.subscribers, hcalm.channels, hlive] at hlag
      cases hlag
  · simp only [Option.some.injEq] at hloop
    rw [← hloop] at hopen ⊢
    exact settleOnce_calm hlive h hp now hopen

/-! ## Raising the demand, and taking it back -/

omit [Postcard] in
/-- What a calm `settle` leaves of a topic. -/
theorem Calm.get? {i' : Inner} {now : Instant} (h : Calm now i i') {id : String} {s' : Session}
    {key : TopicRef} {t' : Topic} (hs : i'.sessions.get? id = some s')
    (ht : s'.topics.get? key = some t') : ∃ s t, i.sessions.get? id = some s ∧ s'.info = s.info ∧
      s.topics.get? key = some t ∧
      t' = (t.reconcile id key (i.wanted s.info.session key) now).1 := by
  rw [h.sessions, sweep_get?] at hs
  obtain ⟨s, hold, rfl⟩ := Option.map_eq_some_iff.mp hs
  rw [OrdMap.get?_map] at ht
  obtain ⟨t, htopic, rfl⟩ := Option.map_eq_some_iff.mp ht
  exact ⟨s, t, hold, rfl, htopic, rfl⟩

omit [Postcard] in
theorem Placed.calm (hp : Placed i) {i' : Inner} {now : Instant} (h : Calm now i i') :
    Placed i' := by
  intro id s' key t' hs ht
  obtain ⟨s, t, hold, hinfo, ht₀, rfl⟩ := h.get? hs ht
  obtain ⟨hsession, htopic⟩ := hp id s key t hold ht₀
  have hsource : (t.reconcile id key (i.wanted s.info.session key) now).1.state.source =
      t.state.source := by
    rcases t.reconcile_cases id key (i.wanted s.info.session key) now with
      ⟨-, he⟩ | ⟨-, -, he⟩ | ⟨-, -, he⟩ | ⟨t', he, hsrc, -⟩ <;> rw [he]
    · rfl
    · rfl
    · exact hsrc
  rw [hsource, hinfo]
  exact ⟨hsession, htopic⟩

omit [Postcard] in
/-- A topic whose demand is as wanted is left alone. -/
theorem reconcile_kept {t : Topic} {d : Bool} (h : t.demanded = d) (id : String) (key : TopicRef)
    (now : Instant) : (t.reconcile id key d now).1 = t := by
  unfold Topic.reconcile
  rw [if_pos (by rw [h, beq_self_eq_true])]

omit [Postcard] in
/-- Two calm settles, with a subscriber that is not active registered only in between. -/
theorem Untouched.of_calm {j r u k : Inner} {now now' : Instant} (hj : Settled j)
    (hr : r.sessions = j.sessions) (h : Calm now r u)
    (hwanted : ∀ session key, j.wanted session key = true → r.wanted session key = true)
    {v : Inner} (hv : v.sessions = u.sessions) (hsub : v.subscribers = j.subscribers)
    (hch : v.channels = j.channels) (h' : Calm now' v k) (hk : Settled k) : Untouched j k := by
  have hkw : ∀ session key, k.wanted session key = j.wanted session key := by
    intro session key
    unfold Inner.wanted
    rw [h'.subscribers, hsub]
  have hvw : ∀ session key, v.wanted session key = j.wanted session key := by
    intro session key
    unfold Inner.wanted
    rw [hsub]
  refine ⟨h'.subscribers.trans hsub, h'.channels.trans hch, fun id => ?_, fun id s hs => ?_⟩
  · unfold OrdMap.contains
    rw [h'.sessions, sweep_get?, hv, h.sessions, sweep_get?, hr]
    simp
  · have hget : k.sessions.get? id = some { s with
        topics := (s.topics.map fun key t => (settleSteps r now id s key t).1).map fun key t =>
          (settleSteps v now' id { s with
            topics := s.topics.map fun key t => (settleSteps r now id s key t).1 } key t).1 } := by
      rw [h'.sessions, sweep_get?, hv, h.sessions, sweep_get?, hr, hs]
      rfl
    refine ⟨_, hget, rfl, fun key => by simp, fun key t ht => ?_⟩
    have hdemand := hj.demand id s key t hs ht
    have htopic : (((s.topics.map fun key t => (settleSteps r now id s key t).1).map fun key t =>
        (settleSteps v now' id { s with
          topics := s.topics.map fun key t => (settleSteps r now id s key t).1 } key t).1).get? key) =
        some (((t.reconcile id key (r.wanted s.info.session key) now).1).reconcile id key
          (v.wanted s.info.session key) now').1 := by
      rw [OrdMap.get?_map, OrdMap.get?_map, ht]
      rfl
    refine ⟨_, htopic, ?_, fun hd => ?_⟩
    · have hkd := hk.demand id _ key _ hget htopic
      rw [hkd, hkw, hdemand]
    · have hw := hdemand.symm.trans hd
      rw [hvw, hw, reconcile_kept (hd.trans (hwanted _ _ hw).symm), reconcile_kept hd]

end Operations

section subscribe

variable [Postcard] {i : Inner} {id : Nat}

omit [Postcard] in
theorem register_wanted (request : Subscribe) (pace : Nat → Nat)
    (hnew : i.subscribers.get? id = none) (session : SessionRef) (key : TopicRef) :
    (i.register id request pace).wanted session key = true ↔
      i.wanted session key = true ∨ (Subscriber.mk request.normal false).selects session key = true := by
  unfold Inner.wanted
  rw [OrdMap.any_iff, OrdMap.any_iff]
  constructor
  · rintro ⟨n, sub, hn, hsel⟩
    unfold Inner.register at hn
    rw [OrdMap.get?_insert] at hn
    split at hn
    · cases hn
      exact .inr hsel
    · exact .inl ⟨n, sub, hn, hsel⟩
  · rintro (⟨n, sub, hn, hsel⟩ | hsel)
    · refine ⟨n, sub, ?_, hsel⟩
      have hne : n ≠ id := by
        rintro rfl
        rw [hnew] at hn
        cases hn
      exact (OrdMap.get?_insert_ne _ _ hne).trans hn
    · exact ⟨id, ⟨request.normal, false⟩, by simp [Inner.register], hsel⟩

omit [Postcard] in
theorem register_live (h : i.lagging = false) (request : Subscribe) (pace : Nat → Nat) :
    (i.register id request pace).lagging = false := by
  by_contra hlag
  have hlag : (i.register id request pace).lagging = true := by simpa using hlag
  obtain ⟨n, sub, hn, hend⟩ := OrdMap.any_iff.mp hlag
  unfold Inner.register at hn
  simp only [Inner.endedChannel, Inner.register, OrdMap.get?_insert] at hn hend
  split at hn
  · rename_i hid
    rw [if_pos hid] at hend
    cases hend
  · rename_i hid
    rw [if_neg hid] at hend
    have : i.lagging = true := OrdMap.any_iff.mpr ⟨n, sub, hn, hend⟩
    rw [h] at this
    cases this

omit [Postcard] in
/-- The new subscriber is not active, and nobody else selects what only it wants. -/
theorem register_unheard (h : Settled i) (hnew : i.subscribers.get? id = none) (request : Subscribe)
    (pace : Nat → Nat) : Unheard (i.register id request pace) := by
  intro n s key t hs ht hdue m sub hm hactive
  have hdemand := h.demand n s key t hs ht
  have hwanted := register_wanted request pace hnew s.info.session key
  unfold Inner.register at hm
  rw [OrdMap.get?_insert] at hm
  split at hm
  · cases hm
    cases hactive
  · by_contra hsel
    have hw : i.wanted s.info.session key = true :=
      OrdMap.any_iff.mpr ⟨m, sub, hm, by simpa using hsel⟩
    exact hdue (hdemand.trans (hw.trans (hwanted.mpr (.inl hw)).symm))

omit [Postcard] in
theorem insert_absent {κ ν : Type} [LinearOrder κ] {m : OrdMap κ ν} {k : κ} (h : m.get? k = none)
    (v : ν) : (m.insert k v).erase k = m := by
  refine OrdMap.ext_get? fun a => ?_
  rw [OrdMap.get?_erase]
  split
  · rename_i ha
    rw [ha, h]
  · rename_i ha
    exact OrdMap.get?_insert_ne _ _ ha

/-- A subscriber that is registered and dropped without having been active leaves no trace in a service
that stays open. -/
theorem unregister_untouched (hset : Settled i) (hp : Placed i)
    (hnew : i.subscribers.get? id = none) (hch : i.channels.get? id = none) (request : Subscribe)
    (pace : Nat → Nat) (now now' : Instant)
    (hopen : ((((i.register id request pace).settle now).unregister id).settle now').stopped = false) :
    Untouched i ((((i.register id request pace).settle now).unregister id).settle now') := by
  have hopen' : ((i.register id request pace).settle now).stopped = false := by
    by_contra hstop
    have hclosed : ((i.register id request pace).settle now).stopped = true := by
      simpa using hstop
    have := Inner.settle_stopped (i := ((i.register id request pace).settle now).unregister id) now'
      hclosed
    rw [hopen] at this
    cases this
  have hraised := settle_calm (register_live hset.live request pace)
    (register_unheard hset hnew request pace) (fun n s key t hs ht => hp n s key t hs ht) now hopen'
  have hsettled := settle_settled now (i.register id request pace)
  have hplaced : Placed (i.register id request pace) := fun n s key t hs ht => hp n s key t hs ht
  generalize (i.register id request pace).settle now = u at *
  have hsub : (u.unregister id).subscribers = i.subscribers := by
    change u.subscribers.erase id = _
    rw [hraised.subscribers]
    exact insert_absent hnew _
  have hchannels : (u.unregister id).channels = i.channels := by
    change u.channels.erase id = _
    rw [hraised.channels]
    exact insert_absent hch _
  have hlive : (u.unregister id).lagging = false := by
    unfold Inner.lagging Inner.endedChannel
    rw [hsub, hchannels]
    exact hset.live
  have hunheard : Unheard (u.unregister id) := by
    intro n s key t hs ht hdue m sub hm _
    by_contra hsel
    rw [hsub] at hm
    have hw : i.wanted s.info.session key = true :=
      OrdMap.any_iff.mpr ⟨m, sub, hm, by simpa using hsel⟩
    have hdemand := hsettled.demand n s key t hs ht
    have huw : u.wanted s.info.session key = true := by
      unfold Inner.wanted
      rw [hraised.subscribers]
      exact (register_wanted request pace hnew s.info.session key).mpr (.inl hw)
    have hvw : (u.unregister id).wanted s.info.session key = true := by
      unfold Inner.wanted
      rw [hsub]
      exact hw
    exact hdue (hdemand.trans (huw.trans hvw.symm))
  have hplaced' : Placed u := hplaced.calm hraised
  have hdropped := settle_calm hlive hunheard (fun n s key t hs ht => hplaced' n s key t hs ht) now'
    hopen
  refine Untouched.of_calm (r := i.register id request pace) (v := u.unregister id) hset rfl hraised
    (fun session key hw => ?_) rfl hsub hchannels hdropped (settle_settled now' _)
  exact (register_wanted request pace hnew session key).mpr (.inl hw)

theorem Sound.placed {manifests : List ProviderManifest} (h : Sound manifests i) : Placed i := by
  intro n s key t hs ht
  have hsource := ((h.store.sessions n s hs).topics key t ht).source
  rw [hsource]
  exact ⟨rfl, rfl⟩

variable [SerdeJson] {manifests : List ProviderManifest}

end subscribe

section examples

open TestSupport

/-- The metadata of a session does not fit in the messages of this service. -/
def narrow : Inner := { service with messageBytes := 40 }

end examples

end Service
end WfObserver
