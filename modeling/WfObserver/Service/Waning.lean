import WfObserver.Service.Demand
import WfObserver.Service.Sweep

/-!
# Demand only wanes in `settle`

Where every wanted topic is demanded (`Covered`), as after a published or discarded poll, `settle`
can only take demand away: from the topics that the subscriptions with an overflowed queue were the
last to select. No generation rises, and nothing is announced but the topics that become idle
(`settle_wanes`).
-/

namespace WfObserver
namespace Service

open Wire

/-- Every wanted topic is demanded. -/
def Covered (i : Inner) : Prop :=
  ∀ id s key t, i.sessions.get? id = some s → s.topics.get? key = some t →
    i.wanted s.info.session key = true → t.demanded = true

theorem Settled.covered {i : Inner} (h : Settled i) : Covered i :=
  fun id s key t hs ht hw => (h.demand id s key t hs ht).trans hw

/-- What `settle` leaves of a topic of a covered service: the topic as it is, or without demand. -/
structure Topic.Wanes (closed : Bool) (t t' : Topic) : Prop where
  source : t'.state.source = t.state.source
  generation : t'.state.generation = t.state.generation
  /-- In a closed service, no topic is demanded. -/
  kept : t' = t ∨ t.demanded = true ∧ t'.demanded = false ∨ closed = true

theorem Topic.Wanes.refl (closed : Bool) (t : Topic) : t.Wanes closed t := ⟨rfl, rfl, .inl rfl⟩

theorem Topic.Wanes.trans {b b' : Bool} {t t' t'' : Topic} (h : t.Wanes b t') (h' : t'.Wanes b' t'')
    (hb : b = true → b' = true) : t.Wanes b' t'' := by
  refine ⟨h'.source.trans h.source, h'.generation.trans h.generation, ?_⟩
  rcases h.kept with rfl | ⟨hd, hd'⟩ | hc
  · exact h'.kept
  · rcases h'.kept with rfl | ⟨hd'', -⟩ | hc
    · exact .inr (.inl ⟨hd, hd'⟩)
    · rw [hd'] at hd''; cases hd''
    · exact .inr (.inr hc)
  · exact .inr (.inr (hb hc))

/-- What `settle` leaves of a covered service. -/
structure Wanes (i i' : Inner) : Prop where
  covered : Covered i'
  topic : ∀ id s key t, i.sessions.get? id = some s → s.topics.get? key = some t →
    ∃ s' t', i'.sessions.get? id = some s' ∧ s'.info = s.info ∧ s'.topics.get? key = some t' ∧
      t.Wanes i'.stopped t'
  announced : ∃ us, i'.log = i.log ++ us ∧ ∀ e ∈ us, ∃ t, e.update = .topicChanged t
  stopped : i.stopped = true → i'.stopped = true

theorem Wanes.refl {i : Inner} (h : Covered i) : Wanes i i where
  covered := h
  topic _ s _ t hs ht := ⟨s, t, hs, rfl, ht, .refl _ t⟩
  announced := ⟨[], by simp, by simp⟩
  stopped := id

theorem Wanes.trans {i j k : Inner} (h : Wanes i j) (h' : Wanes j k) : Wanes i k where
  covered := h'.covered
  topic id s key t hs ht := by
    obtain ⟨s', t', hs', hi', ht', hw⟩ := h.topic id s key t hs ht
    obtain ⟨s'', t'', hs'', hi'', ht'', hw'⟩ := h'.topic id s' key t' hs' ht'
    exact ⟨s'', t'', hs'', hi''.trans hi', ht'', hw.trans hw' h'.stopped⟩
  announced := by
    obtain ⟨us, hl, hu⟩ := h.announced
    obtain ⟨us', hl', hu'⟩ := h'.announced
    refine ⟨us ++ us', by rw [hl', hl, List.append_assoc], fun e he => ?_⟩
    exact (List.mem_append.mp he).elim (hu e) (hu' e)
  stopped := h'.stopped ∘ h.stopped

/-- Nothing is wanted of a closed service. -/
theorem close_wanes (e : SubscriptionEnd) (i : Inner) : Wanes i (i.close e) where
  covered id s key t _ _ hw := by rw [wanted_empty rfl] at hw; cases hw
  topic id s key t hs ht := by
    refine ⟨{ s with topics := s.topics.map fun _ t => t.shut }, t.shut, ?_, rfl, ?_, rfl, rfl,
      .inr (.inr rfl)⟩
    · rw [Inner.close_get?, hs]
      rfl
    · rw [OrdMap.get?_map, ht]
      rfl
  announced := ⟨[], by simp, by simp⟩
  stopped _ := rfl

section Operations

variable [Postcard] {i : Inner}

/-- Announcing changed topics. -/
theorem emitAll_wanes (h : Covered i) {us : List SubscriptionUpdate}
    (hus : ∀ u ∈ us, ∃ t, u = .topicChanged t) : Wanes i (i.emitAll us) := by
  induction us generalizing i with
  | nil => exact .refl h
  | cons u us ih =>
    have htail := fun v hv => hus v (List.mem_cons_of_mem _ hv)
    have hone : Wanes i (i.emit u) := by
      rcases i.emit_cases u with ⟨-, he⟩ | ⟨-, -, he⟩ | ⟨-, -, he⟩ <;> rw [he]
      · exact .refl h
      · exact close_wanes _ i
      · refine ⟨h, (Wanes.refl h).topic, ⟨[i.nextEnvelope u], rfl, fun e hm => ?_⟩, id⟩
        obtain ⟨t, ht⟩ := hus u (by simp)
        rw [List.mem_singleton.mp hm]
        exact ⟨t, ht⟩
    rw [Inner.emitAll_cons]
    exact hone.trans (ih hone.covered htail)

omit [Postcard] in
/-- Fewer subscribers want less. -/
theorem retainLive_covered (h : Covered i) : Covered i.retainLive := by
  intro id s key t hs ht hw
  refine h id s key t hs ht ?_
  obtain ⟨n, sub, hn, hsel⟩ := OrdMap.any_iff.mp hw
  have hn : (i.subscribers.filter fun id _ => !i.endedChannel id).get? n = some sub := hn
  rw [OrdMap.get?_filter] at hn
  obtain ⟨hn, -⟩ := Option.filter_eq_some_iff.mp hn
  exact OrdMap.any_iff.mpr ⟨n, sub, hn, hsel⟩

omit [Postcard] in
/-- The step of a pass on a covered topic: it stays, or it becomes idle, or a counter is exhausted. -/
theorem reconcile_wanes (id : String) (key : TopicRef) {d : Bool} (now : Instant) {t : Topic}
    (h : d = true → t.demanded = true) :
    (t.Wanes (t.reconcile id key d now).2.2 (t.reconcile id key d now).1) ∧
      ∀ c ∈ (t.reconcile id key d now).2.1, ∃ state, c.update = .topicChanged state := by
  rcases t.reconcile_cases id key d now with
    ⟨-, he⟩ | ⟨hf, hd, -⟩ | ⟨hd, -, he⟩ | ⟨t', he, hs, hg⟩
  · rw [he]
    exact ⟨.refl _ t, by simp⟩
  · rw [h hd] at hf; cases hf
  · rw [he]
    refine ⟨⟨rfl, rfl, .inr (.inl ⟨hd, rfl⟩)⟩, fun c hc => ?_⟩
    rw [List.mem_singleton.mp hc]
    exact ⟨_, rfl⟩
  · rw [he]
    exact ⟨⟨hs, hg, .inr (.inr rfl)⟩, by simp⟩

omit [Postcard] in
/-- The pass of `settle` on a covered service. -/
theorem pass_wanes (now : Instant) (h : Covered i) {id : String} {s : Session} {key : TopicRef}
    {t : Topic} (hs : i.sessions.get? id = some s) (ht : s.topics.get? key = some t) :
    ∃ s' t', (i.reconcile now).1.get? id = some s' ∧ s'.info = s.info ∧
      s'.topics.get? key = some t' ∧ t.Wanes (i.reconcile now).2.2 t' := by
  have hc : (i.reconcile now).1.contains id = true := by
    rw [Inner.reconcile, Inner.pass_contains, OrdMap.contains_iff]
    exact ⟨s, hs⟩
  obtain ⟨s', hs'⟩ := OrdMap.contains_iff.mp hc
  obtain ⟨s₀, hs₀, hinfo, hcont, htopics⟩ := Inner.pass_get? hs'
  obtain rfl : s = s₀ := Option.some.inj (hs.symm.trans hs₀)
  obtain ⟨t', ht'⟩ := OrdMap.contains_iff.mp ((hcont key).trans (OrdMap.contains_iff.mpr ⟨t, ht⟩))
  obtain ⟨t₀, ht₀, heq⟩ := htopics key t' ht'
  obtain rfl : t = t₀ := Option.some.inj (ht.symm.trans ht₀)
  refine ⟨s', t', hs', hinfo, ht', ?_⟩
  rcases heq with rfl | rfl
  · exact .refl _ t'
  · have hw := (reconcile_wanes id key now (h id s key t hs ht)).1
    cases hgo : (i.reconcile now).2.2 with
    | false =>
      rwa [Inner.pass_go hgo hs ht] at hw
    | true => exact ⟨hw.source, hw.generation, .inr (.inr rfl)⟩

omit [Postcard] in
/-- The topics that a whole pass leaves are covered. -/
theorem pass_covered {now : Instant} (hgo : (i.reconcile now).2.2 = false) {id : String}
    {s : Session} {key : TopicRef} {t : Topic} (hs : (i.reconcile now).1.get? id = some s)
    (ht : s.topics.get? key = some t) : t.demanded = i.wanted s.info.session key := by
  rw [Inner.reconcile, Inner.pass_map hgo, OrdMap.get?_map] at hs
  obtain ⟨s₀, hs₀, rfl⟩ := Option.map_eq_some_iff.mp hs
  rw [OrdMap.get?_map] at ht
  obtain ⟨t₀, ht₀, rfl⟩ := Option.map_eq_some_iff.mp ht
  exact reconcile_demanded (Inner.pass_go hgo hs₀ ht₀)

omit [Postcard] in
/-- A whole pass announces topics only. -/
theorem pass_announced {now : Instant} (h : Covered i) (hgo : (i.reconcile now).2.2 = false) :
    ∀ u ∈ (i.reconcile now).2.1.map Change.update, ∃ t, u = .topicChanged t := by
  intro u hu
  obtain ⟨c, hc, rfl⟩ := List.mem_map.mp hu
  rw [Inner.reconcile] at hc hgo
  rw [(Inner.pass_sweep hgo).2] at hc
  obtain ⟨id, s, key, t, hs, ht, hc⟩ := mem_swept hc
  exact (reconcile_wanes id key now (h id s key t hs ht)).2 c hc

/-- One turn of `settle`. -/
theorem settleOnce_wanes (now : Instant) (h : Covered i) : Wanes i (i.settleOnce now) := by
  have hr := retainLive_covered h
  have hretain : Wanes i i.retainLive :=
    ⟨hr, (Wanes.refl h).topic, ⟨[], by simp [Inner.retainLive], by simp⟩, id⟩
  refine hretain.trans ?_
  have hpass := fun id s key t hs ht => @pass_wanes _ now hr id s key t hs ht
  unfold Inner.settleOnce Inner.applyPass
  dsimp only
  split
  · -- A counter is exhausted: the topics of the pass are shut.
    rename_i hstop
    have hclose := close_wanes Inner.exhausted
      { i.retainLive with
        sessions := (i.retainLive.reconcile now).1
        history := i.retainLive.history ++ (i.retainLive.reconcile now).2.1.map Change.mark }
    refine ⟨hclose.covered, fun id s key t hs ht => ?_, hclose.announced, fun _ => rfl⟩
    obtain ⟨s₁, t₁, hs₁, hi₁, ht₁, hw₁⟩ := hpass id s key t hs ht
    obtain ⟨s₂, t₂, hs₂, hi₂, ht₂, hw₂⟩ := hclose.topic id s₁ key t₁ hs₁ ht₁
    exact ⟨s₂, t₂, hs₂, hi₂.trans hi₁, ht₂, hw₁.trans hw₂ fun _ => rfl⟩
  · rename_i hgo
    have hgo : (i.retainLive.reconcile now).2.2 = false := by simpa using hgo
    have hstored : Wanes i.retainLive
        { i.retainLive with
          sessions := (i.retainLive.reconcile now).1
          history := i.retainLive.history ++ (i.retainLive.reconcile now).2.1.map Change.mark } := by
      refine ⟨fun id s key t hs ht hw => ?_, fun id s key t hs ht => ?_, ⟨[], by simp, by simp⟩, id⟩
      · rw [pass_covered hgo hs ht]
        exact hw
      · obtain ⟨s', t', hs', hi', ht', hw⟩ := hpass id s key t hs ht
        rw [hgo] at hw
        exact ⟨s', t', hs', hi', ht', hw.source, hw.generation, hw.kept.imp_right fun h =>
          h.elim .inl fun h => by cases h⟩
    split
    · exact hstored.trans (emitAll_wanes hstored.covered (pass_announced hr hgo))
    · have hrev := emitAll_wanes (i := { i.retainLive with
          sessions := (i.retainLive.reconcile now).1
          history := i.retainLive.history ++ (i.retainLive.reconcile now).2.1.map Change.mark
          revision := saturatingAdd i.retainLive.revision 1 })
        hstored.covered (pass_announced hr hgo)
      exact hstored.trans ⟨hrev.covered, hrev.topic, hrev.announced, hrev.stopped⟩

theorem settle_wanes (now : Instant) (h : Covered i) : Wanes i (i.settle now) :=
  Inner.settle_rule (I := Wanes i) (fun _ hj => hj.trans (settleOnce_wanes now hj.covered)) (.refl h)

end Operations

end Service
end WfObserver
