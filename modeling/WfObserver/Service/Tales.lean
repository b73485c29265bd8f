import WfObserver.Service.Commit
import WfObserver.Service.Mirror

/-!
# What the operations announce

The updates of a commit (`transaction_tale`), of a new session (`arrival_tale`), of a session's end
(`ended_tale`), of a pass (`reconcile_tale`, `lapse_tale`) and of a discarded poll (`discard_tale`)
are allowed and lead to the sessions that the operation stores.
-/

namespace WfObserver
namespace Service

open Wire Protocol
open ProviderSdk (ProviderManifest)

/-! ## The updates of a commit, by topic -/

namespace StagedPublication

variable {staged : StagedPublication} {id : String} {key : TopicRef}

/-- A topic with this source is the topic `key` of the session `id`. -/
theorem point_of_source {u : SubscriptionUpdate} {source : TopicSource}
    (h : source? u = some source) (hid : source.session.sessionId = id) (hk : source.topic = key) :
    point u = (id, key) := by simp [point, h, hid, hk]

theorem filter_resetUpdates (hnodup : staged.resets.Nodup)
    (hsrc : ∀ key t, staged.topics.get? key = some t →
      t.state.source.session.sessionId = id ∧ t.state.source.topic = key)
    {t : Topic} (ht : staged.topics.get? key = some t) :
    staged.resetUpdates.filter (fun u => point u = (id, key)) =
      if key ∈ staged.resets then
        [.topicReset t.state.source t.state.generation .sourceChanged] else [] := by
  unfold resetUpdates
  generalize staged.resets = l at hnodup
  induction l with
  | nil => rfl
  | cons k l ih =>
    obtain ⟨hk, hl⟩ := List.nodup_cons.mp hnodup
    by_cases he : k = key
    · subst he
      have hp : point (.topicReset t.state.source t.state.generation .sourceChanged) = (id, k) :=
        point_of_source rfl (hsrc k t ht).1 (hsrc k t ht).2
      rw [List.filterMap_cons_some (by simp [ht]; rfl), List.filter_cons_of_pos (by simpa using hp),
        ih hl]
      simp [hk]
    · cases hst : staged.topics.get? k with
      | none =>
        rw [List.filterMap_cons_none (by simp [hst]), ih hl]
        simp [Ne.symm he]
      | some t' =>
        have hp : point (.topicReset t'.state.source t'.state.generation .sourceChanged) = (id, k) :=
          point_of_source rfl (hsrc k t' hst).1 (hsrc k t' hst).2
        rw [List.filterMap_cons_some (by simp [hst]; rfl),
          List.filter_cons_of_neg (by simp [hp, he]), ih hl]
        simp [Ne.symm he]

theorem filter_publishTopics_other {topics : OrdMap TopicRef Topic} {n : Nat}
    {l : List (TopicRef × Topic)} (h : ∀ t, (key, t) ∉ l)
    (hsrc : ∀ e ∈ l, e.2.state.source.session.sessionId = id ∧ e.2.state.source.topic = e.1)
    (runId : String) :
    ((Inner.envelopes runId n (publishTopics topics n l).2).filter
      fun e => point e.update = (id, key)) = [] := by
  induction l generalizing topics n with
  | nil => rfl
  | cons e l ih =>
    have hl : ∀ t, (key, t) ∉ l := fun t ht => h t (List.mem_cons_of_mem _ ht)
    have hsl := fun x hx => hsrc x (List.mem_cons_of_mem _ hx)
    have hne : e.1 ≠ key := fun he => h e.2 (by simp [← he])
    obtain ⟨hid, hk⟩ := hsrc e (by simp)
    rw [publishTopics]
    split
    · exact ih hl hsl
    · rename_i old _
      have hp : point (.topicChanged (settled old.state (n + 1) e.2).state) = (id, e.1) :=
        point_of_source rfl hid hk
      dsimp only
      split
      · simp only [Inner.envelopes]
        rw [List.filter_cons_of_neg (by simp [hp, hne]), ih hl hsl]
      · exact ih hl hsl

/-- A staged topic is stored, and announced as it is stored if it changed. -/
theorem filter_publishTopics (id : String) {topics : OrdMap TopicRef Topic} {n : Nat}
    {l : List (TopicRef × Topic)} {t old : Topic} (hl : l.Pairwise fun a b => a.1 < b.1)
    (hsrc : ∀ e ∈ l, e.2.state.source.session.sessionId = id ∧ e.2.state.source.topic = e.1)
    (ht : (key, t) ∈ l) (hold : topics.get? key = some old) (runId : String) :
    ∃ m, (publishTopics topics n l).1.get? key = some (settled old.state (m + 1) t) ∧
      ((Inner.envelopes runId n (publishTopics topics n l).2).filter
        fun e => point e.update = (id, key)) =
        if changed old.state t.state then
          [⟨⟨runId, m + 1⟩, .topicChanged (settled old.state (m + 1) t).state⟩] else [] := by
  induction l generalizing topics n with
  | nil => simp at ht
  | cons e l ih =>
    obtain ⟨hlt, hl⟩ := List.pairwise_cons.mp hl
    have hsl := fun x hx => hsrc x (List.mem_cons_of_mem _ hx)
    obtain ⟨hid, hk⟩ := hsrc e (by simp)
    rw [publishTopics]
    rcases List.mem_cons.mp ht with rfl | ht
    · have hnot : ∀ t', (key, t') ∉ l := fun t' h' => absurd (hlt _ h') (lt_irrefl _)
      have hp : point (.topicChanged (settled old.state (n + 1) t).state) = (id, key) :=
        point_of_source rfl hid hk
      refine ⟨n, ?_⟩
      simp only [hold]
      split
      · simp only [Inner.envelopes]
        rw [Inner.publishTopics_other hnot, List.filter_cons_of_pos (by simpa using hp),
          filter_publishTopics_other hnot hsl]
        simp
      · rw [Inner.publishTopics_other hnot, filter_publishTopics_other hnot hsl]
        simp
    · have hne : key ≠ e.1 := ne_of_gt (hlt _ ht)
      split
      · exact ih hl hsl ht hold
      · rename_i old' _
        have hp : point (.topicChanged (settled old'.state (n + 1) e.2).state) = (id, e.1) :=
          point_of_source rfl hid hk
        dsimp only
        split
        · simp only [Inner.envelopes]
          rw [List.filter_cons_of_neg (by simp [hp, Ne.symm hne])]
          exact ih hl hsl ht ((OrdMap.get?_insert_ne _ topics hne).trans hold)
        · exact ih hl hsl ht ((OrdMap.get?_insert_ne _ topics hne).trans hold)

/-- An announced event is a staged one, with its topic's generation and its own sequence. -/
theorem mem_envelopes_events {topics : OrdMap TopicRef Topic} {n : Nat}
    {l : List (TopicRef × JsonPayload)} {runId : String} {e : UpdateEnvelope}
    (h : e ∈ Inner.envelopes runId n (eventUpdates topics n l)) :
    ∃ key payload t, (key, payload) ∈ l ∧ topics.get? key = some t ∧
      e.update = .event ⟨⟨t.state.source, t.state.generation, e.cursor.sequence⟩, payload⟩ := by
  induction l generalizing n with
  | nil => simp [eventUpdates, Inner.envelopes] at h
  | cons a l ih =>
    rw [eventUpdates] at h
    split at h
    · obtain ⟨key, payload, t, hm, ht⟩ := ih h
      exact ⟨key, payload, t, List.mem_cons_of_mem _ hm, ht⟩
    · rename_i t ht
      simp only [Inner.envelopes, List.mem_cons] at h
      rcases h with rfl | h
      · exact ⟨a.1, a.2, t, by simp, ht, rfl⟩
      · obtain ⟨key, payload, t, hm, ht⟩ := ih h
        exact ⟨key, payload, t, List.mem_cons_of_mem _ hm, ht⟩

/-- What an unchanged topic looks like stays. -/
theorem settled_unchanged {old : TopicSnapshot} {n : Nat} {t : Topic}
    (h : changed old t.state = false) (hsrc : t.state.source = old.source) :
    (settled old n t).state = old := by
  obtain ⟨⟨hgen, hhealth⟩, -⟩ : (old.generation = t.state.generation ∧
      old.health = t.state.health) ∧
      old.snapshot.map (·.payload) = t.state.snapshot.map (·.payload) := by
    simpa [changed] using h
  unfold settled
  rw [h]
  obtain ⟨source, generation, health, snapshot⟩ := old
  simp only [Bool.false_eq_true, if_false]
  rw [hsrc, ← hgen, ← hhealth]

end StagedPublication

/-! ## The updates of one topic of a commit are told -/

section commit

open StagedPublication

variable {info : SessionInfo} {key : TopicRef}

/-- Events of the current generation change nothing. -/
theorem told_events {t : TopicSnapshot} {us : List UpdateEnvelope} (h : Tells info key t.source)
    (hus : ∀ e ∈ us, ∃ payload,
      e.update = .event ⟨⟨t.source, t.generation, e.cursor.sequence⟩, payload⟩) :
    Told info key (some t) us (some t) := by
  induction us with
  | nil => exact .nil
  | cons e us ih =>
    obtain ⟨payload, hu⟩ := hus e (by simp)
    have hone : Told info key (some t) [e] (some t) := by
      refine .one ⟨by rw [hu, source?, h.source], h.provider, ?_⟩ (by rw [hu]; rfl)
      rw [hu]
      exact ⟨t, rfl, rfl, rfl⟩
    exact hone.append (ih fun e he => hus e (List.mem_cons_of_mem _ he))

/-- A changed topic of a commit, after what makes its generation known. -/
theorem told_settled {c : Catalog} {old t : Topic} {a : Option TopicSnapshot} {m : Nat}
    {runId : String} (h : Tells info key t.state.source) (hok : StagedOk c info key t)
    (hc : changed old.state t.state = true)
    (ha : ∀ s, a = some s → s.generation = t.state.generation) :
    Told info key a [⟨⟨runId, m + 1⟩, .topicChanged (settled old.state (m + 1) t).state⟩]
      (some (settled old.state (m + 1) t).state) := by
  refine .one ⟨congrArg some h.source, h.provider, hok.generation, ha, fun d hd => ?_⟩ rfl
  simp only [settled, hc, if_true] at hd
  obtain ⟨⟨⟨s, g, q⟩, p⟩, hd₀, rfl⟩ := Option.map_eq_some_iff.mp hd
  obtain ⟨h₁, h₂⟩ := hok.envelope _ hd₀
  simp only at h₁ h₂
  exact ⟨(hok.snapshot (by simp [hd₀])).1, by simp [settled, h₁, h₂]⟩

/-- What a commit announces for a topic that it staged. -/
theorem commit_told {c : Catalog} {old t : Topic} {resets changes events : List UpdateEnvelope}
    {m : Nat} {runId : String} {wasReset : Prop} [Decidable wasReset]
    (h : Tells info key old.state.source) (hok : StagedOk c info key t)
    (hsrc : t.state.source = old.state.source)
    (hgen : t.state.generation = old.state.generation + if wasReset then 1 else 0)
    (hresets : resets.map (·.update) =
      if wasReset then [.topicReset t.state.source t.state.generation .sourceChanged] else [])
    (hchanges : changes = if changed old.state t.state then
      [⟨⟨runId, m + 1⟩, .topicChanged (settled old.state (m + 1) t).state⟩] else [])
    (hevents : ∀ e ∈ events, ∃ payload,
      e.update = .event ⟨⟨t.state.source, t.state.generation, e.cursor.sequence⟩, payload⟩) :
    Told info key (some old.state) (resets ++ (changes ++ events))
      (some (settled old.state (m + 1) t).state) := by
  have ht : Tells info key t.state.source := hsrc ▸ h
  have hstored : Tells info key (settled old.state (m + 1) t).state.source := ht
  have hev : Told info key (some (settled old.state (m + 1) t).state) events
      (some (settled old.state (m + 1) t).state) := told_events hstored hevents
  by_cases hr : wasReset
  · rw [if_pos hr] at hgen hresets
    obtain ⟨e, rfl, hu⟩ := map_update_one hresets
    -- A reset topic has changed.
    have hc : changed old.state t.state = true := by simp [changed, hgen]
    rw [hc, if_pos rfl] at hchanges
    subst hchanges
    have hreset : Told info key (some old.state) [e]
        (some ⟨old.state.source, t.state.generation, .initializing, none⟩) :=
      told_reset h (by omega) (by rw [hu, hsrc])
    exact hreset.append ((told_settled ht hok hc (by rintro _ ⟨⟩; rfl)).append hev)
  · rw [if_neg hr] at hgen hresets
    rw [List.map_eq_nil_iff.mp hresets, List.nil_append]
    cases hc : changed old.state t.state with
    | false =>
      rw [hc] at hchanges
      subst hchanges
      rw [settled_unchanged hc hsrc] at hev ⊢
      exact hev
    | true =>
      rw [hc, if_pos rfl] at hchanges
      subst hchanges
      exact (told_settled ht hok hc (by rintro _ ⟨⟩; exact hgen.symm)).append hev

end commit

/-! ## The operations -/

section operations

variable {manifests : List ProviderManifest} {i : Inner}

/-- A session's new metadata is announced. -/
theorem metadata_tale (runId : String) {id : String} {sessions : OrdMap String Session} {session : Session}
    (hs : sessions.get? id = some session) (hid : session.info.session.sessionId = id)
    (pending : Pending) (n : Nat) :
    Tale runId (mirror sessions)
      (Inner.envelopes runId n
        ((Inner.metadata session pending).map SubscriptionUpdate.sessionChanged).toList)
      (mirror (sessions.insert id
        { session with info := (Inner.metadata session pending).getD session.info })) := by
  cases hm : Inner.metadata session pending with
  | none =>
    have : sessions.insert id { session with info := session.info } = sessions :=
      OrdMap.insert_get? hs
    simp only [Option.map_none, Option.toList_none, Option.getD_none, this]
    exact ⟨trivial, rfl⟩
  | some info =>
    have hinfo : info = { session.info with gameBuild := pending.gameBuild } := by
      unfold Inner.metadata at hm
      split at hm <;> cases hm
      rfl
    have hget : (mirror sessions).get? info.session.sessionId = some session.seen := by
      rw [mirror_get?, hinfo, hid, hs]
      rfl
    refine ⟨⟨⟨session.seen, hget, ?_, ?_, ?_⟩, trivial⟩, ?_⟩
    · rw [hinfo]; rfl
    · rw [hinfo]; rfl
    · rw [hinfo]; rfl
    · simp only [Option.map_some, Option.toList_some, Option.getD_some, Inner.envelopes, replay,
        List.foldl_cons, List.foldl_nil, apply, OrdMap.modify_eq_insert hget, mirror_insert]
      rw [hinfo, hid]
      rfl

section transaction

variable {ticket : PollTicket} {pending : Pending} {deadline : Instant} {session : Session}
  {staged : StagedPublication} {c : Catalog}

open StagedPublication

/-- What the session of a commit knows about the staged topics. -/
structure Stages (c : Catalog) (id : String) (session : Session) (staged : StagedPublication) :
    Prop where
  id : session.info.session.sessionId = id
  tells : ∀ key t, session.topics.get? key = some t → Tells session.info key t.state.source
  nodup : staged.resets.Nodup
  topics : ∀ key t, staged.topics.get? key = some t → StagedOk c session.info key t ∧
    ∃ old, session.topics.get? key = some old ∧ t.state.source = old.state.source ∧
      t.state.generation = old.state.generation + if key ∈ staged.resets then 1 else 0
  resets : ∀ key ∈ staged.resets, ∃ t, staged.topics.get? key = some t
  events : ∀ e ∈ staged.events, ∃ t, staged.topics.get? e.1 = some t

theorem Stages.point {id : String} (h : Stages c id session staged) {key : TopicRef} {t : Topic}
    (ht : staged.topics.get? key = some t) :
    t.state.source.session.sessionId = id ∧ t.state.source.topic = key := by
  rw [(h.topics key t ht).1.source]
  exact ⟨h.id, rfl⟩

theorem mem_publishTopics {topics : OrdMap TopicRef Topic} {n : Nat}
    {l : List (TopicRef × Topic)} {u : SubscriptionUpdate} (h : u ∈ (publishTopics topics n l).2) :
    ∃ e ∈ l, source? u = some e.2.state.source := by
  obtain ⟨e, he, state, rfl, hs⟩ := publishTopics_changed h
  exact ⟨e, he, congrArg some hs⟩

/-- Everything that a commit announces after the metadata is about a staged topic. -/
theorem Stages.about {id : String} (h : Stages c id session staged) {n m : Nat}
    {u : SubscriptionUpdate}
    (hu : u ∈ staged.resetUpdates ∨
      u ∈ (publishTopics session.topics n staged.topics.entries).2 ∨
      u ∈ eventUpdates (publishTopics session.topics n staged.topics.entries).1 m staged.events) :
    ∃ key t, staged.topics.get? key = some t ∧ source? u = some t.state.source ∧
      Protocol.point u = (id, key) := by
  have hpoint : ∀ key t, staged.topics.get? key = some t → source? u = some t.state.source →
      ∃ key t, staged.topics.get? key = some t ∧ source? u = some t.state.source ∧
        Protocol.point u = (id, key) := fun key t ht hs =>
    ⟨key, t, ht, hs, point_of_source hs (h.point ht).1 (h.point ht).2⟩
  rcases hu with hu | hu | hu
  · obtain ⟨key, -, hk⟩ := List.mem_filterMap.mp hu
    obtain ⟨t, ht, rfl⟩ := Option.map_eq_some_iff.mp hk
    exact hpoint key t ht rfl
  · obtain ⟨⟨key, t⟩, ht, hs⟩ := mem_publishTopics hu
    exact hpoint key t (OrdMap.get?_eq_some.mpr ht) hs
  · rw [← envelopes_update "" m (eventUpdates _ m _)] at hu
    obtain ⟨e, he, rfl⟩ := List.mem_map.mp hu
    obtain ⟨key, payload, t', hmem, ht', heq⟩ := mem_envelopes_events he
    obtain ⟨t, ht⟩ := h.events _ hmem
    obtain ⟨-, old, hold, -, -⟩ := h.topics key t ht
    obtain ⟨k, hget, -⟩ := filter_publishTopics id (n := n) staged.topics.sorted
      (fun e he => h.point (OrdMap.get?_eq_some.mpr he)) (OrdMap.get?_eq_some.mp ht) hold ""
    rw [hget] at ht'
    cases ht'
    exact hpoint key t ht (by rw [heq]; rfl)

theorem mem_parts {runId : String} {l n m : Nat} {us vs ws : List SubscriptionUpdate}
    {e : UpdateEnvelope} (h : e ∈ Inner.envelopes runId l us ++
      (Inner.envelopes runId n vs ++ Inner.envelopes runId m ws)) :
    e.update ∈ us ∨ e.update ∈ vs ∨ e.update ∈ ws := by
  rcases List.mem_append.mp h with h | h
  · exact .inl (Inner.mem_envelopes h).2.2.2
  · rcases List.mem_append.mp h with h | h
    · exact .inr (.inl (Inner.mem_envelopes h).2.2.2)
    · exact .inr (.inr (Inner.mem_envelopes h).2.2.2)

/-- The updates of a commit for one topic, staged or not. -/
theorem Stages.told {id : String} (h : Stages c id session staged) (runId : String) (l n m : Nat)
    (key : TopicRef) :
    Told session.info key ((session.topics.get? key).map Topic.state)
      ((Inner.envelopes runId l staged.resetUpdates ++
        (Inner.envelopes runId n (publishTopics session.topics n staged.topics.entries).2 ++
          Inner.envelopes runId m (eventUpdates
            (publishTopics session.topics n staged.topics.entries).1 m staged.events))).filter
        fun e => Protocol.point e.update = (id, key))
      (((publishTopics session.topics n staged.topics.entries).1.get? key).map Topic.state) := by
  cases ht : staged.topics.get? key with
  | none =>
    rw [Inner.publishTopics_other (OrdMap.get?_eq_none.mp ht), List.filter_eq_nil_iff.mpr]
    · exact .nil
    · intro e he hp
      obtain ⟨k, t, hk, -, hpk⟩ := h.about (mem_parts he)
      have hp : Protocol.point e.update = (id, key) := by simpa using hp
      rw [hpk] at hp
      cases hp
      rw [ht] at hk
      cases hk
  | some t =>
    obtain ⟨hok, old, hold, hsrc, hgen⟩ := h.topics key t ht
    obtain ⟨k, hget, hchanges⟩ := filter_publishTopics id (n := n) staged.topics.sorted
      (fun e he => h.point (OrdMap.get?_eq_some.mpr he)) (OrdMap.get?_eq_some.mp ht) hold runId
    rw [List.filter_append, List.filter_append, hold, hget]
    refine commit_told (h.tells key old hold) hok hsrc hgen ?_ hchanges fun e he => ?_
    · have := filter_envelopes runId l staged.resetUpdates
        fun u => decide (Protocol.point u = (id, key))
      rw [this, filter_resetUpdates h.nodup (fun key t => h.point) ht]
    · obtain ⟨he, hp⟩ := List.mem_filter.mp he
      obtain ⟨key', payload, t', hmem, ht', hu⟩ := mem_envelopes_events he
      obtain ⟨k', t₀, ht₀, hs, hpk⟩ := h.about (n := n) (m := m)
        (.inr (.inr (Inner.mem_envelopes he).2.2.2))
      have hp : Protocol.point e.update = (id, key) := by simpa using hp
      obtain ⟨t₁, ht₁⟩ := h.events _ hmem
      obtain ⟨-, old₁, hold₁, -, -⟩ := h.topics key' t₁ ht₁
      obtain ⟨k₁, hget₁, -⟩ := filter_publishTopics id (n := n) staged.topics.sorted
        (fun e he => h.point (OrdMap.get?_eq_some.mpr he)) (OrdMap.get?_eq_some.mp ht₁) hold₁ ""
      rw [hget₁] at ht'
      cases ht'
      have hkey : key' = key := by
        have := point_of_source (u := e.update) (by rw [hu]; rfl) (h.point ht₁).1 (h.point ht₁).2
        rw [this] at hp
        exact (Prod.mk.inj hp).2
      subst hkey
      rw [ht] at ht₁
      cases ht₁
      exact ⟨payload, by rw [hu]; rfl⟩

/-- The updates of a commit after the metadata lead to the committed topics. -/
theorem Stages.tale {id : String} (h : Stages c id session staged) (runId : String)
    {sessions : OrdMap String Session}
    (hids : ∀ id s, sessions.get? id = some s → s.info.session.sessionId = id) (l n m : Nat) :
    Tale runId (mirror (sessions.insert id session))
      (Inner.envelopes runId l staged.resetUpdates ++
        (Inner.envelopes runId n (publishTopics session.topics n staged.topics.entries).2 ++
          Inner.envelopes runId m (eventUpdates
            (publishTopics session.topics n staged.topics.entries).1 m staged.events)))
      (mirror (sessions.insert id
        { session with topics := (publishTopics session.topics n staged.topics.entries).1 })) := by
  have hother : ∀ id' key, id' ≠ id → ∀ e ∈ (Inner.envelopes runId l staged.resetUpdates ++
      (Inner.envelopes runId n (publishTopics session.topics n staged.topics.entries).2 ++
        Inner.envelopes runId m (eventUpdates
          (publishTopics session.topics n staged.topics.entries).1 m staged.events))),
      ¬decide (Protocol.point e.update = (id', key)) = true := by
    intro id' key hne e he hp
    obtain ⟨k, t, -, -, hpk⟩ := h.about (mem_parts he)
    have hp : Protocol.point e.update = (id', key) := by simpa using hp
    rw [hpk] at hp
    exact hne (Prod.mk.inj hp).1.symm
  refine Tale.of_topics (fun e he => ?_) (fun id' hs => ?_) fun id' seen hseen => ?_
  · obtain ⟨-, t, -, hu, -⟩ := h.about (mem_parts he)
    rw [hu]
    rfl
  · have hne : id' ≠ id := by
      rintro rfl
      rw [mirror_insert, OrdMap.get?_insert_self] at hs
      cases hs
    rw [mirror_insert, OrdMap.get?_insert_ne _ _ hne] at hs ⊢
    exact ⟨hs, fun key => List.filter_eq_nil_iff.mpr (hother id' key hne)⟩
  · rw [mirror_insert] at hseen ⊢
    by_cases hne : id' = id
    · subst hne
      rw [OrdMap.get?_insert_self] at hseen
      cases hseen
      refine ⟨h.id, _, OrdMap.get?_insert_self _ _ _, rfl, fun key => ?_⟩
      have := h.told runId l n m key
      simpa [Session.seen] using this
    · rw [OrdMap.get?_insert_ne _ _ hne] at hseen
      obtain ⟨s, hs, rfl⟩ := Option.map_eq_some_iff.mp ((mirror_get? _ _).symm.trans hseen)
      refine ⟨hids id' s hs, s.seen, ?_, rfl, fun key => ?_⟩
      · rw [OrdMap.get?_insert_ne _ _ hne, hseen]
      · rw [List.filter_eq_nil_iff.mpr (hother id' key hne)]
        exact .nil

end transaction

/-- A poll's transaction announces what it makes of its session. -/
theorem transaction_tale [Postcard] [SerdeJson] {ticket : PollTicket} {batch : PollBatch}
    {deadline : Instant} {session : Session} {staged : StagedPublication}
    (h : StoreOk manifests i) (hm : batch.manifest ∈ manifests)
    (hp : i.Publishes ticket batch.pending deadline session staged) :
    Tale i.runId (mirror i.sessions)
      (Inner.envelopes i.runId i.sequence
        (Inner.transaction batch.pending session staged i.sequence).2)
      (mirror (i.sessions.insert ticket.sessionId
        (Inner.transaction batch.pending session staged i.sequence).1)) := by
  have hid : session.info.session = ⟨i.runId, ticket.sessionId⟩ := h.tells.session _ _ hp.found
  have hmeta := metadata_tale i.runId hp.found (by rw [hid]) batch.pending i.sequence
  have hinfo : (Inner.metadata session batch.pending).getD session.info =
      { session.info with gameBuild := batch.pending.gameBuild } :=
    Inner.transaction_info batch.pending session staged i.sequence
  have hstages : Stages i.catalog ticket.sessionId
      { session with info := (Inner.metadata session batch.pending).getD session.info } staged := by
    rw [hinfo]
    refine
      { id := by rw [hid]
        tells := fun key t ht => ?_
        nodup := ?_
        topics := fun key t ht => ⟨?_, ?_⟩
        resets := fun key hk => hp.prepared.reset_staged hk
        events := fun e he => hp.prepared.event_staged he }
    · have := (h.tells.topic _ _ key t hp.found ht).1
      exact ⟨this.source, this.provider⟩
    · rw [hp.prepared.resets, batch.wf.resets]
      exact batch.wf.nodup
    · have hok := h.staged hm hp ht
      exact ⟨⟨hok.source, hok.generation⟩, hok.demanded, hok.idle, hok.deadline, hok.snapshot,
        hok.envelope⟩
    · obtain ⟨-, old, hold, hap⟩ := hp.prepared.of_get? ht
      refine ⟨old, hold, StagedPublication.applyOps_source hap, ?_⟩
      rw [StagedPublication.applyOps_generation hap, hp.prepared.resets]
      congr 1
      rw [batch.wf.resets]
      exact List.Nodup.count batch.wf.nodup
  have hrest := fun l n m => hstages.tale i.runId
    (fun (id : String) (s : Session) (hs : i.sessions.get? id = some s) => by
      rw [h.tells.session id s hs]) l n m
  simp only [Inner.transaction, Inner.opening, List.append_assoc, List.length_append,
    Inner.envelopes_append, Nat.add_assoc]
  exact hmeta.append (hrest _ _ _)

/-- A session's end is announced while it is still stored. -/
theorem ended_tale {runId id : String} {sessions : OrdMap String Session} {s : Session}
    (hs : sessions.get? id = some s) (hid : s.info.session.sessionId = id) (n : Nat)
    (reason : SessionEndReason) :
    Tale runId (mirror sessions)
      (Inner.envelopes runId n [.sessionEnded s.info.session reason])
      (mirror (sessions.erase id)) := by
  refine ⟨⟨⟨s.seen, ?_, rfl⟩, trivial⟩, ?_⟩
  · rw [hid, mirror_get?, hs]
    rfl
  · rw [mirror_erase, ← hid]
    rfl

theorem newTopics_point {p : ProviderDescriptor} {info : SessionInfo} {key : TopicRef} {t : Topic}
    (ht : (Inner.newTopics p info).get? key = some t) :
    point (.topicChanged t.state) = (info.session.sessionId, key) := by
  rw [Inner.newTopics_get? ht]
  rfl

/-- Of the updates of a new session's topics, those of one topic. -/
theorem filter_newTopics (runId : String) (n : Nat) (p : ProviderDescriptor) (info : SessionInfo)
    (id : String) (key : TopicRef) :
    ((Inner.envelopes runId n
      ((Inner.newTopics p info).values.map fun t => .topicChanged t.state)).filter
        fun e => point e.update = (id, key)).map (·.update) =
      if id = info.session.sessionId then
        (((Inner.newTopics p info).get? key).map fun t => [.topicChanged t.state]).getD []
      else [] := by
  have hvalues : ((Inner.newTopics p info).values.map fun t =>
      SubscriptionUpdate.topicChanged t.state) =
      (Inner.newTopics p info).entries.flatMap fun e => [.topicChanged e.2.state] := by
    rw [OrdMap.values, List.map_map, List.map_eq_flatMap]
    rfl
  have he := filter_envelopes runId n
    ((Inner.newTopics p info).values.map fun t => .topicChanged t.state)
    fun u => decide (point u = (id, key))
  rw [he, hvalues]
  split
  · rename_i hid
    have hone := OrdMap.filter_flatMap (m := Inner.newTopics p info) (k := key)
      (q := fun u => decide (point u = (id, key)))
      (f := fun _ (t : Topic) => [SubscriptionUpdate.topicChanged t.state]) <| by
        intro key' t ht hne u hu
        rw [List.mem_singleton.mp hu, newTopics_point ht]
        simp [hne]
    rw [hone]
    cases ht : (Inner.newTopics p info).get? key with
    | none => rfl
    | some t => simp [newTopics_point ht, hid]
  · rename_i hid
    refine List.filter_eq_nil_iff.mpr fun u hu => ?_
    obtain ⟨⟨key', t⟩, ht, hu⟩ := List.mem_flatMap.mp hu
    rw [List.mem_singleton.mp hu, newTopics_point (OrdMap.get?_eq_some.mpr ht)]
    simp [Ne.symm hid]

/-- A new session is announced with all its topics. -/
theorem arrival_tale {runId : String} {sessions : OrdMap String Session} {p : ProviderDescriptor}
    {info : SessionInfo} (hp : p.id = info.providerId)
    (hnew : sessions.get? info.session.sessionId = none) (hrun : info.session.runId = runId)
    (hids : ∀ id s, sessions.get? id = some s → s.info.session.sessionId = id) (n : Nat) :
    Tale runId (mirror sessions) (Inner.envelopes runId n (Inner.arrival p info))
      (mirror (sessions.insert info.session.sessionId ⟨info, Inner.newTopics p info⟩)) := by
  have hnone : (mirror sessions).get? info.session.sessionId = none := by
    rw [mirror_get?, hnew]
    rfl
  have hstart : Tale runId (mirror sessions)
      [⟨⟨runId, n + 1⟩, .sessionStarted info⟩]
      (mirror (sessions.insert info.session.sessionId ⟨info, ∅⟩)) := by
    refine ⟨⟨⟨hnone, hrun⟩, trivial⟩, ?_⟩
    rw [mirror_insert]
    rfl
  have hfilter := filter_newTopics runId (n + 1) p info
  refine hstart.append (Tale.of_topics (fun e he => ?_) (fun id hs => ?_) fun id seen hseen => ?_)
  · obtain ⟨-, -, -, hu⟩ := Inner.mem_envelopes he
    obtain ⟨t, -, hu⟩ := List.mem_map.mp hu
    rw [← hu]
    rfl
  · have hne : id ≠ info.session.sessionId := by
      rintro rfl
      rw [mirror_insert, OrdMap.get?_insert_self] at hs
      cases hs
    rw [mirror_insert, OrdMap.get?_insert_ne _ _ hne] at hs ⊢
    refine ⟨hs, fun key => ?_⟩
    have := hfilter id key
    rw [if_neg hne] at this
    exact List.map_eq_nil_iff.mp this
  · rw [mirror_insert] at hseen ⊢
    by_cases hne : id = info.session.sessionId
    · subst hne
      rw [OrdMap.get?_insert_self] at hseen
      cases hseen
      refine ⟨rfl, _, OrdMap.get?_insert_self _ _ _, rfl, fun key => ?_⟩
      have hf := hfilter info.session.sessionId key
      rw [if_pos rfl] at hf
      simp only [Session.seen, OrdMap.get?_map, OrdMap.map_empty, OrdMap.get?_empty]
      cases ht : (Inner.newTopics p info).get? key with
      | none =>
        rw [ht] at hf
        rw [List.map_eq_nil_iff.mp hf]
        exact .nil
      | some t =>
        rw [ht] at hf
        obtain ⟨e, he, hu⟩ := map_update_one hf
        rw [he]
        have hkey : key.providerId = info.providerId := by
          obtain ⟨cap, -, hk⟩ := List.mem_map.mp (OrdMap.mem_of_get?_ofList ht)
          rw [← (Prod.mk.inj hk).1]
          exact hp
        have := Inner.newTopics_get? ht
        exact told_bare ⟨by rw [this]; rfl, hkey⟩ (by rw [this]; exact Nat.one_pos) (by simp)
          (by rw [this]; rfl) hu
    · rw [OrdMap.get?_insert_ne _ _ hne] at hseen
      obtain ⟨s, hs, rfl⟩ := Option.map_eq_some_iff.mp ((mirror_get? _ _).symm.trans hseen)
      refine ⟨hids id s hs, s.seen, ?_, rfl, fun key => ?_⟩
      · rw [OrdMap.get?_insert_ne _ _ hne, hseen]
      · have hf := hfilter id key
        rw [if_neg hne] at hf
        have hf := List.map_eq_nil_iff.mp hf
        rw [hf]
        exact .nil

/-- A pass of `settle` or `expire` that did not stop announces what it changes. -/
theorem pass_tale {f : String → Session → TopicRef → Topic → Topic × List Change × Bool}
    (h : Owned i.runId i.sessions) (hgo : (Inner.pass f i.sessions).2.2 = false)
    (hsrc : ∀ id s key t, ∀ c ∈ (f id s key t).2.1, source? c.update = some t.state.source)
    (htold : ∀ id s key t us, Tells s.info key t.state.source → 0 < t.state.generation →
      (f id s key t).2.2 = false → us.map (·.update) = (f id s key t).2.1.map Change.update →
      Told s.info key (some t.state) us (some (f id s key t).1.state)) (n : Nat) :
    Tale i.runId (mirror i.sessions)
      (Inner.envelopes i.runId n ((Inner.pass f i.sessions).2.1.map Change.update))
      (mirror (Inner.pass f i.sessions).1) := by
  obtain ⟨h₁, h₂⟩ := Inner.pass_sweep hgo
  rw [h₁, h₂]
  refine sweep_told h (fun id s key t _ _ => hsrc id s key t) (fun id s key t us hs ht hus => ?_) n
  obtain ⟨ht₁, ht₂⟩ := h.topic id s key t hs ht
  exact htold id s key t us ht₁ ht₂ (Inner.pass_go hgo hs ht) hus

theorem reconcile_source {id : String} {key : TopicRef} {d : Bool} {now : Instant} {t : Topic}
    {c : Change} (hc : c ∈ (t.reconcile id key d now).2.1) :
    source? c.update = some t.state.source := by
  rcases t.reconcile_cases id key d now with ⟨-, he⟩ | ⟨-, -, he⟩ | ⟨-, -, he⟩ | ⟨t', he, -⟩ <;>
    rw [he] at hc
  · cases hc
  · rw [List.mem_singleton.mp hc]; rfl
  · rw [List.mem_singleton.mp hc]; rfl
  · cases hc

theorem lapse_source {id : String} {key : TopicRef} {now : Instant} {t : Topic} {c : Change}
    (hc : c ∈ (t.lapse id key now).2.1) : source? c.update = some t.state.source := by
  rcases t.lapse_cases id key now with ⟨-, he⟩ | ⟨-, he⟩ | ⟨t', he, -⟩ <;> rw [he] at hc
  · cases hc
  · rw [List.mem_singleton.mp hc]; rfl
  · cases hc

theorem discardSteps_source {ticket : PollTicket} {resets : List TopicRef} {failed : Bool}
    {session : Session} {id : String} {s : Session} {key : TopicRef} {t : Topic} {c : Change}
    (hc : c ∈ (Inner.discardSteps ticket resets failed session id s key t).2) :
    source? c.update = some t.state.source := by
  unfold Inner.discardSteps at hc
  split at hc
  · unfold Inner.discardChanges at hc
    split at hc
    · cases hc
    · rename_i reset _
      cases reset <;> simp [Topic.discard] at hc
      · rw [hc]; rfl
      · rcases hc with rfl | rfl <;> rfl
  · cases hc

theorem reconcile_tale (h : Owned i.runId i.sessions) (now : Instant)
    (hgo : (i.reconcile now).2.2 = false) (n : Nat) :
    Tale i.runId (mirror i.sessions)
      (Inner.envelopes i.runId n ((i.reconcile now).2.1.map Change.update))
      (mirror (i.reconcile now).1) := by
  exact pass_tale h hgo (fun id s key t c hc => reconcile_source hc)
    (fun id s key t us ht hg hgo hus => reconcile_told ht hg hgo hus) n

theorem lapse_tale (h : Owned i.runId i.sessions) (now : Instant)
    (hgo : (i.lapse now).2.2 = false) (n : Nat) :
    Tale i.runId (mirror i.sessions)
      (Inner.envelopes i.runId n ((i.lapse now).2.1.map Change.update))
      (mirror (i.lapse now).1) := by
  exact pass_tale h hgo (fun id s key t c hc => lapse_source hc)
    (fun id s key t us ht hg hgo hus => lapse_told ht hg hgo hus) n

/-- A discarded poll announces what it changes. -/
theorem discard_tale {ticket : PollTicket} {resets : List TopicRef} {failed : Bool}
    {session : Session} (h : Owned i.runId i.sessions)
    (hs : i.sessions.get? ticket.sessionId = some session) (n : Nat) :
    Tale i.runId (mirror i.sessions)
      (Inner.envelopes i.runId n
        ((Inner.discardList ticket resets failed session).map Change.update))
      (mirror (i.discardStored ticket resets failed session).sessions) := by
  obtain ⟨h₁, h₂⟩ := Inner.discard_sweep resets failed hs
  rw [h₁, h₂]
  refine sweep_told h (fun id s key t _ _ c hc => discardSteps_source hc)
    (fun id s key t us hs ht hus => ?_) n
  · obtain ⟨ht₁, ht₂⟩ := h.topic id s key t hs ht
    by_cases hid : id = ticket.sessionId
    · have hstep : Inner.discardSteps ticket resets failed session id s key t =
          (Inner.discardedTopic ticket.sessionId (Inner.affected ticket resets failed session) key t,
            Inner.discardChanges ticket.sessionId (Inner.affected ticket resets failed session) key
              t) := if_pos hid
      rw [hstep] at hus ⊢
      unfold Inner.discardChanges at hus
      unfold Inner.discardedTopic
      cases ha : (Inner.affected ticket resets failed session).get? key with
      | none =>
        rw [ha] at hus
        rw [List.map_eq_nil_iff.mp hus]
        exact .nil
      | some reset =>
        rw [ha] at hus
        exact discard_told ht₁ ht₂ hus
    · have hstep : Inner.discardSteps ticket resets failed session id s key t = (t, []) := if_neg hid
      rw [hstep] at hus ⊢
      rw [List.map_eq_nil_iff.mp hus]
      exact .nil

end operations

end Service
end WfObserver
