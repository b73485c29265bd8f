import WfObserver.Lib.Runs
import WfObserver.Wire

/-!
# What a sequence of updates means

A `Replica` is what the updates say about the sessions and their topics; `apply` is the meaning of
one update, `replay` of a list of them. `Allowed` says when an update may come: sessions start and
end once, generations change only by a reset, data carries its topic's identity. A selection keeps
part of a replica (`visible`) and part of the updates (`relevant`), and the two agree
(`visible_skip`, `visible_take`): a subscriber that gets the relevant updates has the visible part.

Updates about topics are local: `topicMachine` splits a list of them into the lists of each topic.
-/

namespace WfObserver
namespace Protocol

open Wire

/-- A session as the updates describe it. -/
structure Seen where
  info : SessionInfo
  topics : OrdMap TopicRef TopicSnapshot
  deriving DecidableEq

abbrev Replica := OrdMap String Seen

/-- The source of an update about one topic. -/
def source? : SubscriptionUpdate → Option TopicSource
  | .topicReset source _ _ => some source
  | .topicChanged topic => some topic.source
  | .event event => some event.metadata.source
  | _ => none

/-- What an update makes of its topic. -/
def applyTopic (old : Option TopicSnapshot) : SubscriptionUpdate → Option TopicSnapshot
  | .topicReset source generation _ => some ⟨source, generation, .initializing, none⟩
  | .topicChanged topic => some topic
  | _ => old

def Seen.install (key : TopicRef) (topic : TopicSnapshot) (s : Seen) : Seen :=
  { s with topics := s.topics.insert key topic }

/-- The session with the new state of a topic, if there is one. -/
def Seen.update (key : TopicRef) (topic : Option TopicSnapshot) (s : Seen) : Seen :=
  match topic with
  | none => s
  | some t => s.install key t

@[simp] theorem Seen.update_info (key : TopicRef) (topic : Option TopicSnapshot) (s : Seen) :
    (s.update key topic).info = s.info := by cases topic <;> rfl

/-- The meaning of an update. -/
def apply (R : Replica) (e : UpdateEnvelope) : Replica :=
  match e.update with
  | .sessionStarted info => R.insert info.session.sessionId ⟨info, ∅⟩
  | .sessionChanged info => R.modify info.session.sessionId fun s => { s with info }
  | .sessionEnded session _ => R.erase session.sessionId
  | .topicReset source generation _ =>
    R.modify source.session.sessionId (·.install source.topic ⟨source, generation, .initializing, none⟩)
  | .topicChanged topic => R.modify topic.source.session.sessionId (·.install topic.source.topic topic)
  | .event _ => R

def replay (R : Replica) (us : List UpdateEnvelope) : Replica := us.foldl apply R

/-! ## Which updates may come -/

/-- An update about the topic `key` of this session, given the topic's last state. -/
def TopicAllowed (key : TopicRef) (info : SessionInfo) (old : Option TopicSnapshot)
    (e : UpdateEnvelope) : Prop :=
  source? e.update = some ⟨info.session, info.gameId, key⟩ ∧ key.providerId = info.providerId ∧
    match e.update with
    | .topicReset _ generation _ => ∃ t, old = some t ∧ t.generation < generation
    | .topicChanged topic => 0 < topic.generation ∧
        (∀ t, old = some t → t.generation = topic.generation) ∧
        ∀ d, topic.snapshot = some d → topic.health = .available ∧
          d.metadata = ⟨topic.source, topic.generation, e.cursor.sequence⟩
    | .event event => ∃ t, old = some t ∧ event.metadata.generation = t.generation ∧
        event.metadata.sequence = e.cursor.sequence
    | _ => False

/-- The updates that may come next in the run `runId`. -/
def Allowed (runId : String) (R : Replica) (e : UpdateEnvelope) : Prop :=
  match e.update with
  | .sessionStarted info =>
    R.get? info.session.sessionId = none ∧ info.session.runId = runId
  | .sessionChanged info => ∃ s, R.get? info.session.sessionId = some s ∧
      info.session = s.info.session ∧ info.providerId = s.info.providerId ∧
      info.gameId = s.info.gameId
  | .sessionEnded session _ => ∃ s, R.get? session.sessionId = some s ∧ s.info.session = session
  | _ => ∃ source s, source? e.update = some source ∧ R.get? source.session.sessionId = some s ∧
      TopicAllowed source.topic s.info (s.topics.get? source.topic) e

/-- What a topic of this session looks like in the replica, when the last update had sequence `n`. -/
structure TopicCoherent (n : Nat) (info : SessionInfo) (key : TopicRef) (t : TopicSnapshot) :
    Prop where
  source : t.source = ⟨info.session, info.gameId, key⟩
  provider : key.providerId = info.providerId
  generation : 0 < t.generation
  snapshot : ∀ d, t.snapshot = some d → t.health = .available ∧ d.metadata.source = t.source ∧
    d.metadata.generation = t.generation ∧ 0 < d.metadata.sequence ∧ d.metadata.sequence ≤ n

/-- What a replica looks like. -/
structure Coherent (runId : String) (n : Nat) (R : Replica) : Prop where
  session : ∀ id s, R.get? id = some s → s.info.session = ⟨runId, id⟩
  topics : ∀ id s key t, R.get? id = some s → s.topics.get? key = some t →
    TopicCoherent n s.info key t

theorem Coherent.empty (runId : String) (n : Nat) : Coherent runId n ∅ := ⟨by simp, by simp⟩

theorem Coherent.mono {runId : String} {n m : Nat} {R : Replica} (h : Coherent runId n R)
    (hm : n ≤ m) : Coherent runId m R := by
  refine ⟨h.session, fun id s key t hs ht => ?_⟩
  obtain ⟨h₁, h₂, h₃, h₄⟩ := h.topics id s key t hs ht
  refine ⟨h₁, h₂, h₃, fun d hd => ?_⟩
  obtain ⟨g₁, g₂, g₃, g₄, g₅⟩ := h₄ d hd
  exact ⟨g₁, g₂, g₃, g₄, g₅.trans hm⟩

/-- A topic update installs what it says. -/
theorem apply_topic {R : Replica} {e : UpdateEnvelope} {source : TopicSource}
    (h : source? e.update = some source) {s : Seen}
    (hs : R.get? source.session.sessionId = some s) :
    apply R e = R.insert source.session.sessionId
      (s.update source.topic (applyTopic (s.topics.get? source.topic) e.update)) := by
  unfold apply
  cases hu : e.update with
  | topicReset src g r =>
    rw [hu] at h
    cases h
    simp [OrdMap.modify_eq_insert hs, applyTopic, Seen.update]
  | topicChanged t =>
    rw [hu] at h
    cases h
    simp [OrdMap.modify_eq_insert hs, applyTopic, Seen.update]
  | event ev =>
    rw [hu] at h
    cases h
    cases ht : s.topics.get? ev.metadata.source.topic with
    | none => simp [applyTopic, Seen.update, OrdMap.insert_get? hs]
    | some t => simp [applyTopic, Seen.update, Seen.install, OrdMap.insert_get? ht, OrdMap.insert_get? hs]
  | _ => rw [hu] at h; cases h

/-- An update is about a session or about a topic. -/
theorem update_cases (u : SubscriptionUpdate) :
    (∃ info, u = .sessionStarted info) ∨ (∃ info, u = .sessionChanged info) ∨
      (∃ session r, u = .sessionEnded session r) ∨ ∃ source, source? u = some source := by
  cases u <;> simp [source?]

theorem allowed_topic {runId : String} {R : Replica} {e : UpdateEnvelope} {source : TopicSource}
    (h : source? e.update = some source) :
    Allowed runId R e ↔ ∃ s, R.get? source.session.sessionId = some s ∧
      TopicAllowed source.topic s.info (s.topics.get? source.topic) e := by
  unfold Allowed
  cases hu : e.update <;> rw [hu] at h <;> cases h <;> simp [source?]

theorem TopicAllowed.coherent {n : Nat} {key : TopicRef} {info : SessionInfo}
    {old : Option TopicSnapshot} {e : UpdateEnvelope} (h : TopicAllowed key info old e)
    (hold : ∀ t, old = some t → TopicCoherent n info key t) (hn : n < e.cursor.sequence)
    {t : TopicSnapshot} (ht : applyTopic old e.update = some t) :
    TopicCoherent e.cursor.sequence info key t := by
  obtain ⟨hsrc, hprov, h⟩ := h
  cases hu : e.update with
  | topicReset src g r =>
    rw [hu] at hsrc h ht
    cases hsrc
    cases ht
    obtain ⟨o, ho, hg⟩ := h
    exact ⟨rfl, hprov, by simp only; omega, by simp⟩
  | topicChanged topic =>
    rw [hu] at hsrc h ht
    cases ht
    obtain ⟨hg, -, hsnap⟩ := h
    refine ⟨Option.some.inj hsrc, hprov, hg, fun d hd => ?_⟩
    obtain ⟨ha, hm⟩ := hsnap d hd
    rw [hm]
    exact ⟨ha, rfl, rfl, by simp only; omega, le_refl _⟩
  | event ev =>
    rw [hu] at ht
    have hc := hold t ht
    refine ⟨hc.source, hc.provider, hc.generation, fun d hd => ?_⟩
    obtain ⟨g₁, g₂, g₃, g₄, g₅⟩ := hc.snapshot d hd
    exact ⟨g₁, g₂, g₃, g₄, g₅.trans hn.le⟩
  | _ => rw [hu] at hsrc; cases hsrc

/-- An allowed update keeps the replica coherent. -/
theorem Coherent.apply {runId : String} {n : Nat} {R : Replica} {e : UpdateEnvelope}
    (h : Coherent runId n R) (ha : Allowed runId R e) (hn : n < e.cursor.sequence) :
    Coherent runId e.cursor.sequence (apply R e) := by
  have hm := h.mono hn.le
  -- Sessions other than the update's are as before.
  have hother : ∀ {id s id' s' key t}, (R.insert id' s').get? id = some s → id ≠ id' →
      s.topics.get? key = some t → TopicCoherent e.cursor.sequence s.info key t :=
    fun hs hne ht => hm.topics _ _ _ _ ((OrdMap.get?_insert_ne _ _ hne).symm.trans hs) ht
  have hinsert : ∀ {id' s'}, s'.info.session = ⟨runId, id'⟩ →
      (∀ key t, s'.topics.get? key = some t → TopicCoherent e.cursor.sequence s'.info key t) →
      Coherent runId e.cursor.sequence (R.insert id' s') := by
    intro id' s' hinfo htop
    refine ⟨fun id s hs => ?_, fun id s key t hs ht => ?_⟩
    · rw [OrdMap.get?_insert] at hs
      split at hs
      · rename_i hid; cases hs; rw [hid]; exact hinfo
      · exact h.session id s hs
    · by_cases hid : id = id'
      · rw [hid, OrdMap.get?_insert_self] at hs
        cases hs
        exact htop key t ht
      · exact hother hs hid ht
  have htopic : ∀ source, source? e.update = some source →
      (∃ s, R.get? source.session.sessionId = some s ∧
        TopicAllowed source.topic s.info (s.topics.get? source.topic) e) →
      Coherent runId e.cursor.sequence (Protocol.apply R e) := by
    rintro source hsrc ⟨s, hs, hal⟩
    rw [apply_topic hsrc hs]
    have hold : ∀ key t, s.topics.get? key = some t → TopicCoherent e.cursor.sequence s.info key t :=
      fun key t => hm.topics _ s key t hs
    cases hap : applyTopic (s.topics.get? source.topic) e.update with
    | none => exact hinsert (h.session _ s hs) hold
    | some t =>
      refine hinsert (h.session _ s hs) fun key t' ht' => ?_
      simp only [Seen.update, Seen.install, OrdMap.get?_insert] at ht'
      split at ht'
      · rename_i hk
        cases ht'
        rw [hk]
        exact hal.coherent (fun t ht => h.topics _ s _ t hs ht) hn hap
      · exact hold key t' ht'
  rcases update_cases e.update with ⟨info, hu⟩ | ⟨info, hu⟩ | ⟨session, r, hu⟩ | ⟨source, hsrc⟩
  · simp only [Allowed, hu] at ha
    simp only [Protocol.apply, hu]
    refine hinsert ?_ (by simp)
    rw [← ha.2]
  · simp only [Allowed, hu] at ha
    obtain ⟨s, hs, hsess, hprov, hgame⟩ := ha
    simp only [Protocol.apply, hu, OrdMap.modify_eq_insert hs]
    refine hinsert (hsess.trans (h.session _ s hs)) fun key t ht => ?_
    obtain ⟨h₁, h₂, h₃, h₄⟩ := hm.topics _ s key t hs ht
    exact ⟨by rw [h₁, hsess, hgame], h₂.trans hprov.symm, h₃, h₄⟩
  · simp only [Protocol.apply, hu]
    refine ⟨fun id s hs => ?_, fun id s key t hs => ?_⟩ <;> rw [OrdMap.get?_erase] at hs <;>
      split at hs
    · cases hs
    · exact h.session id s hs
    · cases hs
    · exact hm.topics id s key t hs
  · exact htopic source hsrc ((allowed_topic hsrc).mp ha)

/-- Allowed updates in the order of their sequences keep the replica coherent. -/
theorem Coherent.replay {runId : String} {n m : Nat} {R : Replica} {us : List UpdateEnvelope}
    (h : Coherent runId n R) (hus : Runs.Guarded Protocol.apply (Allowed runId) R us)
    (hord : us.Pairwise fun a b => a.cursor.sequence < b.cursor.sequence) (hnm : n ≤ m)
    (hseq : ∀ e ∈ us, n < e.cursor.sequence ∧ e.cursor.sequence ≤ m) :
    Coherent runId m (Protocol.replay R us) := by
  induction us generalizing R n with
  | nil => exact h.mono hnm
  | cons e us ih =>
    obtain ⟨he, hle⟩ := hseq e (by simp)
    obtain ⟨hlt, hord⟩ := List.pairwise_cons.mp hord
    exact ih (h.apply hus.1 he) hus.2 hord hle fun x hx =>
      ⟨hlt x hx, (hseq x (List.mem_cons_of_mem _ hx)).2⟩

/-! ## Updates about topics are local -/

/-- The topic that an update is about. -/
def point (u : SubscriptionUpdate) : String × TopicRef :=
  match source? u with
  | some source => (source.session.sessionId, source.topic)
  | none => ("", ⟨"", "", 0⟩)

/-- What the replica says about a topic: its session, and its state if it has been announced. -/
def topic? (R : Replica) (p : String × TopicRef) : Option (SessionInfo × Option TopicSnapshot) :=
  (R.get? p.1).map fun s => (s.info, s.topics.get? p.2)

def applyAt (v : Option (SessionInfo × Option TopicSnapshot)) (e : UpdateEnvelope) :
    Option (SessionInfo × Option TopicSnapshot) :=
  v.map fun s => (s.1, applyTopic s.2 e.update)

/-- Replicas are equal if they say the same about every topic. -/
theorem ext_topic? {R R' : Replica} (h : ∀ p, topic? R p = topic? R' p) : R = R' := by
  refine OrdMap.ext_get? fun id => ?_
  have hid : ∀ key, topic? R (id, key) = topic? R' (id, key) := fun key => h (id, key)
  have hsome := hid ⟨"", "", 0⟩
  unfold topic? at hid hsome
  cases hR : R.get? id with
  | none =>
    rw [hR] at hsome
    exact (Option.map_eq_none_iff.mp hsome.symm).symm
  | some s =>
    simp only [hR] at hid hsome
    obtain ⟨s', hR', he⟩ := Option.map_eq_some_iff.mp hsome.symm
    have htopics : s'.topics = s.topics := OrdMap.ext_get? fun key => by
      have := hid key
      rw [hR'] at this
      exact (Prod.mk.inj (Option.some.inj this)).2.symm
    obtain ⟨info, topics⟩ := s
    obtain ⟨info', topics'⟩ := s'
    cases htopics
    cases (Prod.mk.inj he).1
    exact hR'.symm

theorem topicMachine :
    Runs.Local apply topic? applyAt (fun e => point e.update) fun e => (source? e.update).isSome := by
  intro R e he
  obtain ⟨source, hsrc⟩ := Option.isSome_iff_exists.mp he
  have hpoint : point e.update = (source.session.sessionId, source.topic) := by simp [point, hsrc]
  simp only [hpoint]
  cases hs : R.get? source.session.sessionId with
  | none =>
    -- An update for a session that is not there changes nothing.
    have hap : apply R e = R := by
      have hmod : ∀ f : Seen → Seen, R.modify source.session.sessionId f = R := fun f =>
        OrdMap.ext_get? fun k => by
          rw [OrdMap.get?_modify]
          split
          · rename_i hk; rw [hk, hs]; rfl
          · rfl
      unfold apply
      cases hu : e.update <;> rw [hu] at hsrc <;> cases hsrc <;> first | rfl | exact hmod _
    rw [hap]
    simp [topic?, applyAt, hs]
  | some s =>
    rw [apply_topic hsrc hs]
    refine ⟨?_, fun p hp => ?_⟩
    · simp only [topic?, applyAt, OrdMap.get?_insert_self, hs, Option.map_some]
      cases hap : applyTopic (s.topics.get? source.topic) e.update with
      | none =>
        have : s.topics.get? source.topic = none := by
          cases hu : e.update <;> rw [hu] at hap <;> simp_all [applyTopic]
        simp [Seen.update, this]
      | some t => simp [Seen.update, Seen.install]
    · obtain ⟨id, key⟩ := p
      simp only [topic?, OrdMap.get?_insert]
      split
      · rename_i hid
        have hkey : key ≠ source.topic := fun hk => hp (by rw [hid, hk])
        rw [hid, hs]
        cases applyTopic (s.topics.get? source.topic) e.update with
        | none => rfl
        | some t => simp [Seen.update, Seen.install, OrdMap.get?_insert_ne _ _ hkey]
      · rfl

/-- The guard of one topic's updates. -/
def AllowedAt (p : String × TopicRef) (v : Option (SessionInfo × Option TopicSnapshot))
    (e : UpdateEnvelope) : Prop :=
  ∃ info old, v = some (info, old) ∧ info.session.sessionId = p.1 ∧ TopicAllowed p.2 info old e

/-- A list of topic updates is allowed if the updates of each topic are. -/
theorem guarded_topics {runId : String} {R : Replica} {us : List UpdateEnvelope}
    (hT : ∀ e ∈ us, (source? e.update).isSome)
    (h : ∀ p, Runs.Guarded applyAt (AllowedAt p) (topic? R p) (us.filter fun e => point e.update = p)) :
    Runs.Guarded apply (Allowed runId) R us := by
  refine topicMachine.guarded (fun R e he hal => ?_) hT h
  obtain ⟨source, hsrc⟩ := Option.isSome_iff_exists.mp he
  obtain ⟨info, old, hv, -, hal⟩ := hal
  have hpoint : point e.update = (source.session.sessionId, source.topic) := by simp [point, hsrc]
  rw [hpoint] at hv hal
  obtain ⟨s, hs, heq⟩ := Option.map_eq_some_iff.mp hv
  cases heq
  exact (allowed_topic hsrc).mpr ⟨s, hs, hal⟩

end Protocol
end WfObserver
