import WfObserver.Protocol.Replica
import WfObserver.Service.Store
import WfObserver.Service.Sweep

/-!
# The service's sessions as a replica

`mirror` is what the stored sessions look like from outside. `Told` says that a list of updates of
one topic is allowed and turns its old state into its new one. Each step of a topic is told
(`reconcile_told`, `lapse_told`, `discard_told`), and so is a whole sweep (`sweep_told`).
-/

namespace WfObserver
namespace Service

open Wire Protocol

def Session.seen (s : Session) : Seen := ⟨s.info, s.topics.map fun _ t => t.state⟩

/-- The sessions, as a client sees them. -/
def mirror (sessions : OrdMap String Session) : Replica := sessions.map fun _ s => s.seen

theorem mirror_get? (sessions : OrdMap String Session) (id : String) :
    (mirror sessions).get? id = (sessions.get? id).map Session.seen := OrdMap.get?_map _ _ _

theorem mirror_insert (sessions : OrdMap String Session) (id : String) (s : Session) :
    mirror (sessions.insert id s) = (mirror sessions).insert id s.seen :=
  OrdMap.map_insert _ _ _ _

theorem mirror_erase (sessions : OrdMap String Session) (id : String) :
    mirror (sessions.erase id) = (mirror sessions).erase id := by
  refine OrdMap.ext_get? fun k => ?_
  rw [mirror_get?, OrdMap.get?_erase, OrdMap.get?_erase]
  split
  · rfl
  · exact (mirror_get? _ _).symm

/-! ## Updates of one topic -/

/-- The updates of the topic `key` are allowed when it looks like `a`, and then it looks like `b`. -/
def Told (info : SessionInfo) (key : TopicRef) (a : Option TopicSnapshot)
    (us : List UpdateEnvelope) (b : Option TopicSnapshot) : Prop :=
  Runs.Guarded applyAt (AllowedAt (info.session.sessionId, key)) (some (info, a)) us ∧
    us.foldl applyAt (some (info, a)) = some (info, b)

section told

variable {info : SessionInfo} {key : TopicRef} {a b c : Option TopicSnapshot}
  {us vs : List UpdateEnvelope} {e : UpdateEnvelope}

theorem Told.nil : Told info key a [] a := ⟨trivial, rfl⟩

theorem Told.append (h : Told info key a us b) (h' : Told info key b vs c) :
    Told info key a (us ++ vs) c := by
  refine ⟨Runs.guarded_append.mpr ⟨h.1, by rw [h.2]; exact h'.1⟩, ?_⟩
  rw [List.foldl_append, h.2, h'.2]

theorem Told.one (h : TopicAllowed key info a e) (hb : applyTopic a e.update = b) :
    Told info key a [e] b := by
  refine ⟨⟨⟨info, a, rfl, rfl, h⟩, trivial⟩, ?_⟩
  simp [applyAt, hb]

/-- The topic with this source may be told about. -/
structure Tells (info : SessionInfo) (key : TopicRef) (source : TopicSource) : Prop where
  source : source = ⟨info.session, info.gameId, key⟩
  provider : key.providerId = info.providerId

variable {old new : TopicSnapshot}

theorem told_reset {g : Nat} {reason : ResetReason} (h : Tells info key old.source)
    (hg : old.generation < g) (hu : e.update = .topicReset old.source g reason) :
    Told info key (some old) [e] (some ⟨old.source, g, .initializing, none⟩) := by
  refine .one ⟨by rw [hu, source?, h.source], h.provider, ?_⟩ (by rw [hu]; rfl)
  rw [hu]
  exact ⟨old, rfl, hg⟩

/-- A topic's new state without data. -/
theorem told_bare (h : Tells info key new.source) (hg : 0 < new.generation)
    (hold : ∀ t, a = some t → t.generation = new.generation) (hs : new.snapshot = none)
    (hu : e.update = .topicChanged new) : Told info key a [e] (some new) := by
  refine .one ⟨by rw [hu, source?, h.source], h.provider, ?_⟩ (by rw [hu]; rfl)
  rw [hu]
  exact ⟨hg, hold, by simp [hs]⟩

theorem map_update_one {u : SubscriptionUpdate} (h : us.map (·.update) = [u]) :
    ∃ e, us = [e] ∧ e.update = u := List.map_eq_singleton_iff.mp h

end told

/-! ## The steps of one topic are told -/

section steps

variable {info : SessionInfo} {key : TopicRef} {t : Topic} {us : List UpdateEnvelope}

theorem reconcile_told (h : Tells info key t.state.source) (hg : 0 < t.state.generation)
    {id : String} {d : Bool} {now : Instant} (hgo : (t.reconcile id key d now).2.2 = false)
    (hus : us.map (·.update) = (t.reconcile id key d now).2.1.map Change.update) :
    Told info key (some t.state) us (some (t.reconcile id key d now).1.state) := by
  rcases t.reconcile_cases id key d now with ⟨-, he⟩ | ⟨-, -, he⟩ | ⟨-, -, he⟩ | ⟨t', he, -⟩ <;>
    rw [he] at hgo hus ⊢
  · rw [List.map_eq_nil_iff.mp hus]
    exact .nil
  · obtain ⟨e, rfl, hu⟩ := map_update_one hus
    exact told_reset h (Nat.lt_succ_self _) hu
  · obtain ⟨e, rfl, hu⟩ := map_update_one hus
    exact told_bare h hg (by rintro _ ⟨⟩; rfl) rfl hu
  · cases hgo

theorem lapse_told (h : Tells info key t.state.source) (hg : 0 < t.state.generation)
    {id : String} {now : Instant} (hgo : (t.lapse id key now).2.2 = false)
    (hus : us.map (·.update) = (t.lapse id key now).2.1.map Change.update) :
    Told info key (some t.state) us (some (t.lapse id key now).1.state) := by
  rcases t.lapse_cases id key now with ⟨-, he⟩ | ⟨-, he⟩ | ⟨t', he, -⟩ <;> rw [he] at hgo hus ⊢
  · rw [List.map_eq_nil_iff.mp hus]
    exact .nil
  · obtain ⟨e, rfl, hu⟩ := map_update_one hus
    exact told_bare h hg (by rintro _ ⟨⟩; rfl) rfl hu
  · cases hgo

theorem discard_told (h : Tells info key t.state.source) (hg : 0 < t.state.generation)
    {id : String} {reset : Bool}
    (hus : us.map (·.update) = (t.discard id key reset).2.map Change.update) :
    Told info key (some t.state) us (some (t.discard id key reset).1.state) := by
  cases reset with
  | false =>
    obtain ⟨e, rfl, hu⟩ := map_update_one hus
    exact told_bare h hg (by rintro _ ⟨⟩; rfl) rfl hu
  | true =>
    obtain ⟨e₁, us, rfl, hu₁, hus⟩ := List.map_eq_cons_iff.mp hus
    obtain ⟨e₂, rfl, hu₂⟩ := map_update_one hus
    exact (told_reset h (Nat.lt_succ_self _) hu₁).append
      (told_bare h (Nat.succ_pos _) (by rintro _ ⟨⟩; rfl) rfl hu₂)

end steps

/-! ## Blocks of updates -/

theorem envelopes_update (runId : String) (n : Nat) (us : List SubscriptionUpdate) :
    (Inner.envelopes runId n us).map (·.update) = us := by
  induction us generalizing n with
  | nil => rfl
  | cons u us ih => simp [Inner.envelopes, ih]

/-- Of numbered updates, those that pass a filter. -/
theorem filter_envelopes (runId : String) (n : Nat) (us : List SubscriptionUpdate)
    (q : SubscriptionUpdate → Bool) :
    ((Inner.envelopes runId n us).filter fun e => q e.update).map (·.update) = us.filter q := by
  conv_rhs => rw [← envelopes_update runId n us, List.filter_map]
  rfl

/-- The updates that lead from `R` to `R'`. -/
def Tale (runId : String) (R : Replica) (us : List UpdateEnvelope) (R' : Replica) : Prop :=
  Runs.Guarded apply (Allowed runId) R us ∧ replay R us = R'

theorem Tale.append {runId : String} {R R' R'' : Replica} {us vs : List UpdateEnvelope}
    (h : Tale runId R us R') (h' : Tale runId R' vs R'') : Tale runId R (us ++ vs) R'' := by
  refine ⟨Runs.guarded_append.mpr ⟨h.1, ?_⟩, ?_⟩
  · have := h.2
    unfold replay at this
    rw [this]
    exact h'.1
  · rw [← h'.2, ← h.2, replay, replay, replay, List.foldl_append]

/-- Topic updates lead to the new sessions if each topic's updates lead to its new state. -/
theorem Tale.of_topics {runId : String} {R R' : Replica} {us : List UpdateEnvelope}
    (hT : ∀ e ∈ us, (source? e.update).isSome)
    (hnone : ∀ id, R.get? id = none → R'.get? id = none ∧
      ∀ key, (us.filter fun e => point e.update = (id, key)) = [])
    (hsome : ∀ id s, R.get? id = some s → s.info.session.sessionId = id ∧
      ∃ s', R'.get? id = some s' ∧ s'.info = s.info ∧ ∀ key, Told s.info key (s.topics.get? key)
        (us.filter fun e => point e.update = (id, key)) (s'.topics.get? key)) :
    Tale runId R us R' := by
  constructor
  · refine guarded_topics hT fun ⟨id, key⟩ => ?_
    cases hs : R.get? id with
    | none => rw [(hnone id hs).2 key]; trivial
    | some s =>
      obtain ⟨hid, s', -, -, htold⟩ := hsome id s hs
      have := (htold key).1
      rw [hid] at this
      simpa [topic?, hs] using this
  · refine ext_topic? fun ⟨id, key⟩ => ?_
    rw [replay, topicMachine.foldl hT]
    cases hs : R.get? id with
    | none => simp [topic?, hs, (hnone id hs).2 key, (hnone id hs).1]
    | some s =>
      obtain ⟨hid, s', hs', hinfo, htold⟩ := hsome id s hs
      have := (htold key).2
      simpa [topic?, hs, hs', hinfo] using this

/-! ## Sweeps are told -/

/-- Every session is the run's and its topics may be told about. -/
structure Owned (runId : String) (sessions : OrdMap String Session) : Prop where
  session : ∀ id s, sessions.get? id = some s → s.info.session = ⟨runId, id⟩
  topic : ∀ id s key t, sessions.get? id = some s → s.topics.get? key = some t →
    Tells s.info key t.state.source ∧ 0 < t.state.generation

theorem StoreOk.tells {manifests : List ProviderSdk.ProviderManifest} {i : Inner}
    (h : StoreOk manifests i) : Owned i.runId i.sessions := by
  refine ⟨fun id s hs => (h.sessions id s hs).session, fun id s key t hs ht => ?_⟩
  have hs := h.sessions id s hs
  obtain ⟨p, -, hp, hd⟩ := hs.provider
  have hkey := (hd key).mp (OrdMap.contains_iff.mpr ⟨t, ht⟩)
  have ho := (hs.topics key t ht).toTopicOwned
  exact ⟨⟨ho.source, hkey.1.symm.trans hp⟩, ho.generation⟩

/-- A sweep whose steps are told leads to the sessions that it leaves. -/
theorem sweep_told {runId : String} {sessions : OrdMap String Session} {g : Steps}
    (h : Owned runId sessions)
    (hsrc : ∀ id s key t, sessions.get? id = some s → s.topics.get? key = some t →
      ∀ c ∈ (g id s key t).2, source? c.update = some t.state.source)
    (htold : ∀ id s key t us, sessions.get? id = some s → s.topics.get? key = some t →
      us.map (·.update) = (g id s key t).2.map Change.update →
      Told s.info key (some t.state) us (some (g id s key t).1.state)) (n : Nat) :
    Tale runId (mirror sessions) (Inner.envelopes runId n ((swept g sessions).map Change.update))
      (mirror (sweep g sessions)) := by
  have hpoint : ∀ id s key t, sessions.get? id = some s → s.topics.get? key = some t →
      ∀ c ∈ (g id s key t).2, point c.update = (id, key) := by
    intro id s key t hs ht c hc
    have hsess := h.session id s hs
    have := (h.topic id s key t hs ht).1.source
    simp [point, hsrc id s key t hs ht c hc, this, hsess]
  have hfilter : ∀ id key, ((Inner.envelopes runId n ((swept g sessions).map Change.update)).filter
      fun e => point e.update = (id, key)).map (·.update) =
      (steppedAt g sessions id key).map Change.update := by
    intro id key
    have he := filter_envelopes runId n ((swept g sessions).map Change.update)
      fun u => decide (point u = (id, key))
    rw [he, List.filter_map]
    congr 1
    refine filter_swept (fun s t hs ht c hc => ?_) fun id' s key' t hs ht hne c hc => ?_
    · simpa using hpoint id s key t hs ht c hc
    · simpa [hpoint id' s key' t hs ht c hc] using hne
  refine Tale.of_topics (fun e he => ?_) (fun id hs => ?_) fun id seen hseen => ?_
  · obtain ⟨-, -, -, hmem⟩ := Inner.mem_envelopes he
    obtain ⟨c, hc, hu⟩ := List.mem_map.mp hmem
    obtain ⟨id, s, key, t, hs, ht, hc⟩ := mem_swept hc
    rw [← hu, hsrc id s key t hs ht c hc]
    rfl
  · rw [mirror_get?, Option.map_eq_none_iff] at hs
    refine ⟨by simp [mirror_get?, sweep_get?, hs], fun key => ?_⟩
    have := hfilter id key
    rw [steppedAt, hs] at this
    exact List.map_eq_nil_iff.mp this
  · rw [mirror_get?] at hseen
    obtain ⟨s, hs, rfl⟩ := Option.map_eq_some_iff.mp hseen
    have hnew : (mirror (sweep g sessions)).get? id = some (Session.seen
        { s with topics := s.topics.map fun key t => (g id s key t).1 }) := by
      rw [mirror_get?, sweep_get?, hs, Option.map_some, Option.map_some]
    refine ⟨by simp [Session.seen, h.session id s hs], _, hnew, rfl, fun key => ?_⟩
    · have hf := hfilter id key
      simp only [Session.seen, OrdMap.get?_map]
      cases ht : s.topics.get? key with
      | none =>
        rw [steppedAt, hs, Option.bind_some, ht] at hf
        rw [List.map_eq_nil_iff.mp hf]
        exact .nil
      | some t =>
        rw [steppedAt_some hs ht] at hf
        exact htold id s key t _ hs ht hf

end Service
end WfObserver
