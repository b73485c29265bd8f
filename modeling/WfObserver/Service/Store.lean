import WfObserver.Service.Stepwise
import WfObserver.Service.Lifecycle
import WfObserver.Service.TestSupport
import WfObserver.Service.Topics

/-!
# The invariant of the store

`StoreOk` says that every session has its provider's topics and that they satisfy `TopicOk`.
`StoreOk.step` is the step lemma over all operations, `run_storeOk` the run lemma. A batch must have
been made for one of the manifests that the service was started with (`Op.Hosted`): the host makes
every batch with its provider's manifest.
-/

namespace WfObserver
namespace Service

open Wire
open ProviderSdk (ProviderManifest)

/-- A session of a provider in the catalog, with that provider's topics. -/
structure SessionOk (T : SessionInfo → TopicRef → Topic → Prop) (c : Catalog) (runId id : String)
    (s : Session) : Prop where
  session : s.info.session = ⟨runId, id⟩
  provider : ∃ p ∈ c.providers, p.id = s.info.providerId ∧
    ∀ key, s.topics.contains key = true ↔ declares p key
  topics : ∀ key t, s.topics.get? key = some t → T s.info key t

theorem SessionOk.mono {T T' : SessionInfo → TopicRef → Topic → Prop} {c : Catalog}
    {runId id : String} {s : Session} (h : SessionOk T c runId id s)
    (hT : ∀ key t, T s.info key t → T' s.info key t) : SessionOk T' c runId id s :=
  ⟨h.session, h.provider, fun key t ht => hT key t (h.topics key t ht)⟩

/-- New topics for a session whose keys stay. -/
theorem SessionOk.withTopics {T T' : SessionInfo → TopicRef → Topic → Prop} {c : Catalog}
    {runId id : String} {s s' : Session} (h : SessionOk T c runId id s)
    (hinfo : s'.info.session = s.info.session ∧ s'.info.providerId = s.info.providerId)
    (hkeys : ∀ key, s'.topics.contains key = s.topics.contains key)
    (htopics : ∀ key t', s'.topics.get? key = some t' → T' s'.info key t') :
    SessionOk T' c runId id s' := by
  refine ⟨hinfo.1.trans h.session, ?_, htopics⟩
  obtain ⟨p, hp, hid, hd⟩ := h.provider
  exact ⟨p, hp, hid.trans hinfo.2.symm, fun key => by rw [hkeys]; exact hd key⟩

/-- The invariant of the store with the topic property `T`. -/
structure StoreWith (T : SessionInfo → TopicRef → Topic → Prop) (manifests : List ProviderManifest)
    (i : Inner) : Prop where
  registered : Registered manifests i.catalog
  sessions : ∀ id s, i.sessions.get? id = some s → SessionOk T i.catalog i.runId id s

/-- The invariant of the store. -/
def StoreOk (manifests : List ProviderManifest) (i : Inner) : Prop :=
  StoreWith (TopicOk i.catalog i.sequence) manifests i

variable {manifests : List ProviderManifest} {i i' : Inner}

theorem StoreOk.owned (h : StoreOk manifests i) : StoreWith TopicOwned manifests i :=
  ⟨h.registered, fun id s hs => (h.sessions id s hs).mono fun _ _ ht => ht.toTopicOwned⟩

/-- Closing repairs the topics that an interrupted pass left. -/
theorem StoreWith.close (h : StoreWith TopicOwned manifests i) (e : SubscriptionEnd) :
    StoreOk manifests (i.close e) := by
  refine ⟨h.registered, fun id s hs => ?_⟩
  rw [Inner.close_get?] at hs
  obtain ⟨s, hget, rfl⟩ := Option.map_eq_some_iff.mp hs
  refine (h.sessions id s hget).withTopics ⟨rfl, rfl⟩ (fun key => by simp) fun key t' ht' => ?_
  rw [OrdMap.get?_map] at ht'
  obtain ⟨t, ht, rfl⟩ := Option.map_eq_some_iff.mp ht'
  exact ((h.sessions id s hget).topics key t ht).shut

/-- Sessions may go and the sequence may grow. -/
theorem StoreOk.sub (h : StoreOk manifests i) (hc : i'.catalog = i.catalog)
    (hr : i'.runId = i.runId) (hn : i.sequence ≤ i'.sequence)
    (hs : ∀ id s, i'.sessions.get? id = some s → i.sessions.get? id = some s) :
    StoreOk manifests i' := by
  refine ⟨hc ▸ h.registered, fun id s hid => ?_⟩
  rw [hc, hr]
  exact (h.sessions id s (hs id s hid)).mono fun key t ht => ht.mono hn

theorem storeOk_invariant : Inner.StoreInvariant (StoreOk manifests) where
  quiet hq h := h.sub hq.catalog hq.runId hq.sequence fun id s hs => by rw [← hq.sessions]; exact hs
  close e h := h.owned.close e

section Operations

variable [Postcard]

/-! ## Passes -/

/-- A pass whose body keeps the topic invariant keeps the store's, also when it stops halfway. -/
theorem StoreOk.applyPass {f : String → Session → TopicRef → Topic → Topic × List Change × Bool}
    (h : StoreOk manifests i)
    (hown : ∀ id s key t, TopicOwned s.info key t → TopicOwned s.info key (f id s key t).1)
    (hok : ∀ id s key t, TopicOk i.catalog i.sequence s.info key t → (f id s key t).2.2 = false →
      TopicOk i.catalog i.sequence s.info key (f id s key t).1) :
    StoreOk manifests (i.applyPass (Inner.pass f i.sessions)) := by
  unfold Inner.applyPass
  dsimp only
  split
  · have howned : StoreWith TopicOwned manifests
        { i with
          sessions := (Inner.pass f i.sessions).1
          history := i.history ++ (Inner.pass f i.sessions).2.1.map Change.mark } := by
      refine ⟨h.registered, fun id s' hs' => ?_⟩
      obtain ⟨s, hs, hinfo, hkeys, htopics⟩ := Inner.pass_get? hs'
      refine (h.sessions id s hs).withTopics ⟨by rw [hinfo], by rw [hinfo]⟩ hkeys
        fun key t' ht' => ?_
      obtain ⟨t, ht, hw⟩ := htopics key t' ht'
      have := ((h.sessions id s hs).topics key t ht).toTopicOwned
      rw [hinfo]
      rcases hw with rfl | rfl
      · exact this
      · exact hown id s key t this
    exact howned.close _
  · rename_i hgo
    have hgo : (Inner.pass f i.sessions).2.2 = false := by simpa using hgo
    have hstored : StoreOk manifests
        { i with
          sessions := (Inner.pass f i.sessions).1
          history := i.history ++ (Inner.pass f i.sessions).2.1.map Change.mark } := by
      refine ⟨h.registered, fun id s' hs' => ?_⟩
      simp only [Inner.pass_map hgo, OrdMap.get?_map] at hs'
      obtain ⟨s, hs, rfl⟩ := Option.map_eq_some_iff.mp hs'
      refine (h.sessions id s hs).withTopics ⟨rfl, rfl⟩ (fun key => by simp) fun key t' ht' => ?_
      rw [OrdMap.get?_map] at ht'
      obtain ⟨t, ht, rfl⟩ := Option.map_eq_some_iff.mp ht'
      exact hok id s key t ((h.sessions id s hs).topics key t ht) (Inner.pass_go hgo hs ht)
    refine storeOk_invariant.emitAll ?_ _
    split
    · exact hstored
    · exact hstored.sub rfl rfl (le_refl _) fun _ _ hs => hs

theorem StoreOk.settleOnce (h : StoreOk manifests i) (now : Instant) :
    StoreOk manifests (i.settleOnce now) := by
  have hj := storeOk_invariant.quiet (Inner.retainLive_quiet i) h
  exact hj.applyPass (fun id s key t ht => reconcile_owned ht id _ now)
    fun id s key t ht hgo => reconcile_ok ht id _ now hgo

theorem StoreOk.settle (h : StoreOk manifests i) (now : Instant) :
    StoreOk manifests (i.settle now) :=
  Inner.settle_rule (fun _ hj => hj.settleOnce now) h

theorem StoreOk.expire (h : StoreOk manifests i) (now : Instant) :
    StoreOk manifests (i.expire now) := by
  have hp : StoreOk manifests (i.applyPass (i.lapse now)) :=
    h.applyPass (fun id s key t ht => lapse_owned ht id now)
      fun id s key t ht hgo => lapse_ok ht id now hgo
  unfold Inner.expire
  dsimp only
  split
  · exact hp
  · exact hp.settle now

/-! ## Lifecycle -/

omit [Postcard] in
theorem newTopics_declares {p : ProviderDescriptor} {info : SessionInfo} {key : TopicRef} :
    (Inner.newTopics p info).contains key = true ↔ declares p key := by
  unfold Inner.newTopics
  rw [OrdMap.contains_ofList]
  simp only [List.mem_map, Prod.mk.injEq]
  constructor
  · rintro ⟨t, cap, hcap, rfl, -⟩
    exact ⟨rfl, cap, hcap, rfl, rfl⟩
  · rintro ⟨hp, cap, hcap, ht, hv⟩
    obtain ⟨provider, topic, version⟩ := key
    subst hp ht hv
    exact ⟨_, cap, hcap, rfl, rfl⟩

omit [Postcard] in
theorem newTopic_ok (c : Catalog) (n : Nat) (info : SessionInfo) (key : TopicRef) :
    TopicOk c n info key (Inner.newTopic info key) :=
  TopicOwned.bare ⟨rfl, Nat.one_pos⟩ rfl (by simp [Inner.newTopic]) (by simp [Inner.newTopic])
    (by simp [Inner.newTopic])

theorem StoreOk.endSession (h : StoreOk manifests i) (status : HostStatus) (id : String) :
    StoreOk manifests (i.endSession status id) := by
  unfold Inner.endSession
  split
  · exact h
  · refine (storeOk_invariant.emit h _).sub rfl rfl (le_refl _) fun a s hs => ?_
    simp only [OrdMap.get?_erase] at hs
    split at hs
    · cases hs
    · exact hs

theorem StoreOk.addSession (h : StoreOk manifests i) {info : SessionInfo}
    (hinfo : info.session.runId = i.runId) :
    StoreOk manifests (i.addSession info).2 ∧ (i.addSession info).2.runId = i.runId := by
  rcases Inner.addSession_cases info i with ⟨-, he⟩ | ⟨-, he⟩ | ⟨-, he⟩ | ⟨p, hp, hid, hstop, hroom, he⟩ <;>
    rw [he]
  · exact ⟨h, rfl⟩
  · exact ⟨h, rfl⟩
  · exact ⟨h.owned.close _, rfl⟩
  · obtain ⟨hq, -⟩ := Inner.emitAll_room (i := i.stored p info) _ hstop.1 hroom
    have hstored : StoreOk manifests (i.stored p info) := by
      refine ⟨h.registered, fun id s hs => ?_⟩
      simp only [Inner.stored, Inner.put, Inner.record, OrdMap.get?_insert] at hs
      split at hs
      · rename_i hid'
        cases hs
        subst hid'
        exact ⟨by rw [Inner.stored, Inner.record, Inner.put, ← hinfo], ⟨p, hp, hid, fun _ => newTopics_declares⟩,
          fun key t ht => Inner.newTopics_get? ht ▸ newTopic_ok _ _ info key⟩
      · exact h.sessions id s hs
    exact ⟨storeOk_invariant.emitAll hstored _, hq.runId⟩

theorem StoreOk.addSessions {l : List (String × SessionInfo)} (h : StoreOk manifests i)
    (hl : ∀ e ∈ l, e.2.session.runId = i.runId) : StoreOk manifests (Inner.addSessions l i).2 := by
  induction l generalizing i with
  | nil => exact h
  | cons e l ih =>
    rw [Inner.addSessions]
    split
    · exact ih h fun x hx => hl x (List.mem_cons_of_mem _ hx)
    · obtain ⟨ha, hr⟩ := h.addSession (hl e (by simp))
      split
      · rename_i he; rw [he] at ha; exact ha
      · rename_i he
        rw [he] at ha hr
        exact ih ha fun x hx => (hl x (List.mem_cons_of_mem _ hx)).trans hr.symm

omit [Postcard] in
theorem StoreOk.advance (h : StoreOk manifests i) : StoreOk manifests i.advance.2 := by
  unfold Inner.advance
  split
  · exact h
  · split
    · rename_i next hnext
      obtain ⟨rfl, -⟩ := checkedAdd_eq_some.mp hnext
      exact h.sub rfl rfl (Nat.le_succ _) fun _ _ hs => hs
    · exact h.owned.close _

theorem StoreOk.endSessions (h : StoreOk manifests i) (status : HostStatus) (ids : List String) :
    StoreOk manifests (ids.foldl (Inner.endSession status) i) ∧
      (ids.foldl (Inner.endSession status) i).runId = i.runId := by
  induction ids generalizing i with
  | nil => exact ⟨h, rfl⟩
  | cons id ids ih =>
    obtain ⟨h₁, h₂⟩ := ih (h.endSession status id)
    exact ⟨h₁, h₂.trans (Grows.stepwise.endSession status i id).runId⟩

theorem StoreOk.syncRuntime (h : StoreOk manifests i) (status : HostStatus) (now : Instant) :
    StoreOk manifests (i.syncRuntime status now).2 := by
  unfold Inner.syncRuntime
  split
  · exact h
  dsimp only
  obtain ⟨he, hr⟩ := h.endSessions status
    (i.sessions.keys.filter fun id => !(i.incoming status).contains id)
  have ha := he.addSessions (l := (i.incoming status).entries) fun e hm => by
    rw [hr, Inner.incoming_session hm]
  split
  · rename_i heq; rw [heq] at ha; exact ha
  · rename_i j heq
    rw [heq] at ha
    have hj : StoreOk manifests { j with runtime := status } :=
      ha.sub rfl rfl (le_refl _) fun _ _ hs => hs
    exact hj.advance.settle now

/-! ## Polls -/

omit [Postcard] in
/-- `capability` finds a capability that a provider of the catalog declares. -/
theorem capability_declared {key : TopicRef} {cap : CapabilityDescriptor}
    (h : i.capability key = .ok cap) : ∃ p ∈ i.catalog.providers, p.id = key.providerId ∧
      cap ∈ p.capabilities ∧ cap.topic = key.topic ∧ cap.schemaVersion = key.schemaVersion := by
  unfold Inner.capability at h
  split at h
  · cases h
  split at h
  · cases h
  rename_i p hfind
  dsimp only at h
  split at h
  · cases h
  split at h
  · rename_i c hc
    cases h
    obtain ⟨hmem, htopic⟩ := List.mem_filter.mp (List.mem_of_find?_eq_some hc)
    exact ⟨p, List.mem_of_find?_eq_some hfind, by simpa using List.find?_some hfind, hmem,
      by simpa using htopic, by simpa using List.find?_some hc⟩
  · cases h

omit [Postcard] in
/-- Providers of the catalog have different ids. -/
theorem Registered.provider_eq {c : Catalog} (hr : Registered manifests c)
    {p q : ProviderDescriptor} (hp : p ∈ c.providers) (hq : q ∈ c.providers) (h : p.id = q.id) :
    p = q := List.inj_on_of_nodup_map hr.nodup hp hq h

omit [Postcard] in
/-- `capability` finds the one capability of a topic. -/
theorem capability_publishes {key : TopicRef} {cap : CapabilityDescriptor}
    (hr : Registered manifests i.catalog) (h : i.capability key = .ok cap)
    (hp : publishes i.catalog key) : cap.snapshots = true := by
  obtain ⟨p, hp', hpid, hmem, htopic, hversion⟩ := capability_declared h
  obtain ⟨q, hq, hid, cap', hcap', ht, hv, hs⟩ := hp
  obtain rfl := hr.provider_eq hq hp' (hid.trans hpid.symm)
  -- Topic and version determine a capability of the manifest.
  have hcaps : (q.capabilities.map fun a => (a.topic, a.schemaVersion)).Nodup := by
    rw [hr.providers] at hq
    obtain ⟨m, hm, rfl⟩ := List.mem_map.mp hq
    rw [List.Nodup, publicProvider, List.pairwise_map, List.pairwise_map]
    exact (hr.valid m hm).distinct
  have hinj : cap' = cap := List.inj_on_of_nodup_map hcaps hcap' hmem (by
    rw [ht, hv, htopic, hversion])
  rw [← hinj]
  exact hs

theorem validateTopics_ok {l : List (TopicRef × Topic)} (hr : Registered manifests i.catalog)
    (h : StagedPublication.validateTopics i l = .ok ()) {key : TopicRef} {t : Topic}
    (ht : (key, t) ∈ l) (hav : t.state.health = .available) (hp : publishes i.catalog key) :
    t.state.snapshot.isSome := by
  induction l with
  | nil => simp at ht
  | cons e l ih =>
    rw [StagedPublication.validateTopics] at h
    split at h
    · cases h
    rename_i cap hcap
    split at h
    · cases h
    rename_i hsnap
    dsimp only at h
    split at h
    · cases h
    rcases List.mem_cons.mp ht with rfl | ht
    · have hcs := capability_publishes hr hcap hp
      simpa [hav, hcs, Option.isSome_iff_ne_none] using hsnap
    · exact ih h ht

/-- What `validate` checked of a staged topic. -/
theorem validate_snapshot {session : Session} {staged : StagedPublication}
    (hr : Registered manifests i.catalog) (h : staged.validate i session = .ok ()) {key : TopicRef}
    {t : Topic} (ht : staged.topics.get? key = some t) (hav : t.state.health = .available)
    (hp : publishes i.catalog key) : t.state.snapshot.isSome := by
  unfold StagedPublication.validate at h
  split at h
  · cases h
  · rename_i hv
    exact validateTopics_ok hr hv (OrdMap.get?_eq_some.mp ht) hav hp

/-- A staged topic satisfies the staged invariant. -/
theorem StoreOk.staged [SerdeJson] {ticket : PollTicket} {batch : PollBatch} {deadline : Instant}
    {session : Session} {staged : StagedPublication} (h : StoreOk manifests i)
    (hm : batch.manifest ∈ manifests)
    (hp : i.Publishes ticket batch.pending deadline session staged) {key : TopicRef} {t : Topic}
    (ht : staged.topics.get? key = some t) : StagedOk i.catalog session.info key t := by
  obtain ⟨⟨d, hd, hdk⟩, old, hold, hap⟩ := hp.prepared.of_get? ht
  obtain ⟨t₀, ht₀, hdem, -⟩ := Inner.of_not_stale hp.fresh hd
  rw [hdk, hold] at ht₀
  cases ht₀
  have hok := ((h.sessions _ _ hp.found).topics key old hold).staged hdem
  refine StagedPublication.applyOps_rule (fun op hop hk t t' ht hs => ?_) hok hap
  exact stageTopic_ok h.registered hm (batch.wf.ops op hop) hk ht hs

/-- A published poll keeps the invariant. -/
theorem StoreOk.transact [SerdeJson] {ticket : PollTicket} {batch : PollBatch}
    {deadline : Instant} {session : Session} {staged : StagedPublication} (marks : List Mark)
    (h : StoreOk manifests i) (hm : batch.manifest ∈ manifests)
    (hp : i.Publishes ticket batch.pending deadline session staged) :
    StoreOk manifests ((i.record marks).transact ticket batch.pending session staged) := by
  have ht := hp.transacted marks
  generalize (i.record marks).transact ticket batch.pending session staged = k at ht
  have hs := h.sessions _ _ hp.found
  refine ⟨by rw [ht.catalog]; exact h.registered, fun id s' hs' => ?_⟩
  rw [ht.catalog, ht.runId, ht.sequence]
  rw [ht.sessions, OrdMap.get?_insert] at hs'
  split at hs'
  · rename_i hid
    cases hs'
    subst hid
    refine hs.withTopics ?_ (Inner.transaction_contains hp.prepared _) fun key t' ht' => ?_
    · rw [Inner.transaction_info]; exact ⟨rfl, rfl⟩
    suffices hok : TopicOk i.catalog (i.sequence +
        (Inner.transaction batch.pending session staged i.sequence).2.length) session.info key t' by
      rw [Inner.transaction_info]
      exact ⟨⟨hok.source, hok.generation⟩, hok.idle, hok.deadline, hok.snapshot, hok.envelope⟩
    cases hst : staged.topics.get? key with
    | none =>
      rw [Inner.transaction_other _ hst] at ht'
      exact (hs.topics key t' ht').mono (Nat.le_add_right _ _)
    | some t =>
      obtain ⟨-, old, hold, -⟩ := hp.prepared.of_get? hst
      obtain ⟨m, -, hget, hann⟩ := Inner.transaction_staged batch.pending i.sequence
        hst hold i.runId
      rw [hget] at ht'
      cases ht'
      exact settled_ok (hs.topics key old hold) (h.staged hm hp hst)
        (validate_snapshot h.registered hp.valid hst) (Nat.le_add_right _ _)
        fun hc => (Inner.mem_envelopes (hann hc)).2.2.1
  · exact (h.sessions id s' hs').mono fun key t ht => ht.mono (Nat.le_add_right _ _)

theorem StoreOk.commitPoll [SerdeJson] (h : StoreOk manifests i) (ticket : PollTicket)
    {batch : PollBatch} (hm : batch.manifest ∈ manifests) (deadline now : Instant) :
    StoreOk manifests (i.commitPoll ticket batch deadline now).2 := by
  rcases Inner.commitPoll_cases ticket batch deadline now i with
    ⟨r, -, he⟩ | ⟨-, -, he⟩ | ⟨session, staged, hp, he⟩ <;> rw [he]
  · exact h
  · exact h.owned.close _
  · exact (h.transact _ hm hp).settle now

/-- A discarded poll keeps the invariant. -/
theorem StoreOk.discardTransaction (h : StoreOk manifests i) (ticket : PollTicket)
    (resets : List TopicRef) (failed : Bool) {session : Session}
    (hd : i.Discards ticket resets failed session) :
    StoreOk manifests (i.discardTransaction ticket resets failed session) := by
  have hstored : StoreOk manifests (i.discardStored ticket resets failed session) := by
    refine ⟨h.registered, fun id s hs => ?_⟩
    simp only [Inner.discardStored, Inner.put, Inner.record, OrdMap.get?_insert] at hs ⊢
    split at hs
    · rename_i hid
      cases hs
      subst hid
      have hsess := h.sessions _ _ hd.found
      refine hsess.withTopics ⟨rfl, rfl⟩ (fun key => by simp) fun key t' ht' => ?_
      rw [OrdMap.get?_map] at ht'
      obtain ⟨t, ht, rfl⟩ := Option.map_eq_some_iff.mp ht'
      have hok := hsess.topics key t ht
      unfold Inner.discardedTopic
      split
      · exact hok
      · rename_i reset ha
        obtain ⟨-, -, -, t₀, ht₀, hdem, -⟩ := Inner.affected_some ha
        rw [ht] at ht₀
        cases ht₀
        exact discard_ok hok.toTopicOwned hdem _ _
    · exact h.sessions id s hs
  exact storeOk_invariant.emitAll hstored _

theorem StoreOk.discardPoll (h : StoreOk manifests i) (ticket : PollTicket)
    (resets : List TopicRef) (failed : Bool) (now : Instant) :
    StoreOk manifests (i.discardPoll ticket resets failed now).2 := by
  rcases Inner.discardPoll_cases ticket resets failed now i with
    ⟨-, he⟩ | ⟨-, -, he⟩ | ⟨session, hd, he⟩ <;> rw [he]
  · exact h
  · exact h.owned.close _
  · exact (h.discardTransaction ticket resets failed hd).settle now

/-! ## Every operation, every run -/

theorem StoreOk.subscribe (h : StoreOk manifests i) (request : Subscribe) (clock : Readings)
    (pace : Nat → Nat) : StoreOk manifests (i.subscribe request clock pace).2 := by
  unfold Inner.subscribe
  split
  · exact h
  have he := h.expire clock.expire
  dsimp only
  split
  · exact he
  split
  · exact he
  split
  · exact he
  split
  · exact he
  · rename_i id _
    have hreg : StoreOk manifests ((i.expire clock.expire).register id request pace) :=
      he.sub rfl rfl (le_refl _) fun _ _ hs => hs
    have hs := hreg.settle clock.settle
    split
    · exact hs.sub rfl rfl (le_refl _) fun _ _ hs => hs
    · have hun : StoreOk manifests ((((i.expire clock.expire).register id request pace).settle
          clock.settle).unregister id) := hs.sub rfl rfl (le_refl _) fun _ _ hs => hs
      exact hun.settle clock.undo

/-- The batches of a run are made for manifests of the service. -/
def Op.Hosted [SerdeJson] (manifests : List ProviderManifest) : Op → Prop
  | .commitPoll _ batch _ _ => batch.manifest ∈ manifests
  | _ => True

theorem StoreOk.step [SerdeJson] (h : StoreOk manifests i) {op : Op} (hop : op.Hosted manifests) :
    StoreOk manifests (step i op) := by
  cases op with
  | updateLifecycle status now => exact h.syncRuntime status now
  | subscribe request clock pace => exact h.subscribe request clock pace
  | drop id now =>
    have hsub : StoreOk manifests { i with subscribers := i.subscribers.erase id } :=
      h.sub rfl rfl (le_refl _) fun _ _ hs => hs
    exact hsub.settle now
  | commitPoll ticket batch deadline now => exact h.commitPoll ticket hop deadline now
  | discardPoll ticket resets failed now => exact h.discardPoll ticket resets failed now
  | expire now => exact h.expire now
  | shutdown => exact h.owned.close _
  | pop id => exact h.sub rfl rfl (le_refl _) fun _ _ hs => hs

omit [Postcard] in
theorem new_storeOk {runId : String} {messageBytes : Nat}
    (h : ServiceState.new manifests runId messageBytes = .ok i) : StoreOk manifests i := by
  unfold ServiceState.new at h
  split at h
  · cases h
  · rename_i c hc
    cases h
    exact ⟨catalog_registered hc, fun id s hs => by simp at hs⟩

/-- The store invariant holds after every run. -/
theorem run_storeOk [SerdeJson] (h : StoreOk manifests i) {ops : List Op}
    (hops : ∀ op ∈ ops, op.Hosted manifests) : StoreOk manifests (run i ops) :=
  Runs.run_invariant (I := StoreOk manifests) (G := Op.Hosted manifests)
    (fun _ _ hop h => h.step hop) hops h

/-- In every reachable state, the fields of every topic agree: Idle is the health of a topic that is
not demanded, exactly Initializing and Available topics have a freshness deadline, exactly Available
topics of a snapshot capability have a snapshot, and that is one of the topic's own generation. -/
theorem topic_state_invariant [SerdeJson] {runId : String} {messageBytes : Nat}
    (h : ServiceState.new manifests runId messageBytes = .ok i) (ops : List Op)
    (hops : ∀ op ∈ ops, op.Hosted manifests) {id : String} {s : Session} {key : TopicRef}
    {t : Topic} (hs : (run i ops).sessions.get? id = some s) (ht : s.topics.get? key = some t) :
    (t.state.health = .idle ↔ t.demanded = false) ∧
    (t.deadline.isSome ↔ t.state.health = .initializing ∨ t.state.health = .available) ∧
    (t.state.snapshot.isSome ↔
      t.state.health = .available ∧ publishes (run i ops).catalog key) ∧
    (∀ d, t.state.snapshot = some d → d.metadata.source = t.state.source ∧
      d.metadata.generation = t.state.generation ∧ 0 < d.metadata.sequence ∧
      d.metadata.sequence ≤ (run i ops).sequence) ∧
    1 ≤ t.state.generation ∧ t.state.source = ⟨⟨runId, id⟩, s.info.gameId, key⟩ := by
  have hok := ((run_storeOk (new_storeOk h) hops).sessions id s hs)
  have htopic := hok.topics key t ht
  refine ⟨htopic.idle, htopic.deadline, htopic.snapshot, htopic.envelope, htopic.generation, ?_⟩
  rw [htopic.source, hok.session, (run_grows i ops).runId, new_runId h]

end Operations

open TestSupport in
theorem topic_state_invariant_published :
    (counted.state.snapshot.isSome ↔
      counted.state.health = .available ∧ publishes (run service published).catalog topic) ∧
    1 ≤ counted.state.generation := by
  have hops : ∀ op ∈ published, op.Hosted [manifest] := by
    intro op hop
    simp only [published, List.mem_cons, List.not_mem_nil, or_false] at hop
    rcases hop with rfl | rfl | rfl
    · trivial
    · trivial
    · exact List.mem_singleton.mpr rfl
  obtain ⟨-, -, h, -, h', -⟩ :=
    topic_state_invariant new_service published hops published_one one_counted
  exact ⟨h, h'⟩

end Service
end WfObserver
