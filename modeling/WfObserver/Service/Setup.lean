import WfObserver.Service.Channels

/-!
# Setting up a subscription, and runs

While `subscribe` settles the new demand, its subscriber is inactive: nothing reaches the new queue
(`Fresh`), and the other queues follow the log. The captured frames are the bootstrap of what the
service stores (`capture_bootstrap`), and a selection that passed the checks is complete
(`subscribe_complete`). So the new queue follows the log from its first item on, and every run keeps
all queues truthful (`run_truthful`).
-/

namespace WfObserver
namespace Service

open Wire Protocol
open ProviderSdk (ProviderManifest)

/-- Nothing has reached the queue of the subscriber that is being set up. -/
def Fresh (id : Nat) (request : Subscribe) (i : Inner) : Prop :=
  ∀ s, i.subscribers.get? id = some s → s = ⟨request.normal, false⟩ ∧
    ∀ c, i.channels.get? id = some c → c.selection = request ∧ c.Plain ∧ c.stream = [] ∧
      c.ended = false

/-- Steps of the service leave an inactive subscriber's queue alone. -/
theorem Fresh.stepwise [Postcard] (id : Nat) (request : Subscribe) :
    Stepwise (fun _ => True) fun i j => Fresh id request i → Fresh id request j where
  refl _ h := h
  trans h h' := h' ∘ h
  close _ _ s hs := by simp at hs
  announce i u _ _ h s hs := by
    obtain ⟨rfl, hc⟩ := h s hs
    refine ⟨rfl, fun c hc' => ?_⟩
    have hw : ((i.subscribers.get? id).any fun s => i.wants u s) = false := by
      rw [show i.subscribers.get? id = _ from hs]
      simp [Inner.wants]
    simp only [Inner.announce, OrdMap.get?_map] at hc'
    obtain ⟨c₀, hc₀, rfl⟩ := Option.map_eq_some_iff.mp hc'
    rw [hw]
    exact hc c₀ hc₀
  advance _ _ _ h := h
  store _ _ _ h := h
  revise _ _ h := h
  observe _ _ h := h
  retain i p h s hs := h s (OrdMap.get?_filter_some.mp hs).1
  release i p h s hs := by
    obtain ⟨hs, hp⟩ := OrdMap.get?_filter_some.mp hs
    obtain ⟨rfl, hc⟩ := h s hs
    refine ⟨rfl, fun c hc' => ?_⟩
    simp only [Inner.release, OrdMap.get?_map] at hc'
    obtain ⟨c₀, hc₀, rfl⟩ := Option.map_eq_some_iff.mp hc'
    rw [hs, Option.any_some, (Bool.not_eq_true' _).mp hp]
    exact hc c₀ hc₀

section capture

variable [Postcard] {i : Inner}

/-! ## The captured frames -/

theorem pushAll_frames {items : List SubscriptionItem} {frames out : List SubscriptionItem × Nat}
    (h : i.pushAll items frames = .ok out) : out.1 = frames.1 ++ items := by
  induction items generalizing frames with
  | nil =>
    cases h
    simp
  | cons item items ih =>
    rw [Inner.pushAll] at h
    split at h
    · cases h
    · rename_i next hpush
      have hnext : next.1 = frames.1 ++ [item] := by
        unfold Inner.push at hpush
        split at hpush
        · cases hpush
        split at hpush
        · cases hpush
        split at hpush
        · cases hpush
        split at hpush
        · cases hpush
        · cases hpush; rfl
      rw [ih h, hnext, List.append_assoc, List.singleton_append]

omit [Postcard] in
/-- The frames of one session are what the mirrored session shows. -/
theorem sessionFrames_items (s : Subscriber) (session : Session) :
    Inner.sessionFrames s session = sessionItems s.selection session.seen := by
  simp only [Inner.sessionFrames, sessionItems, Session.seen, OrdMap.values_map, List.filter_map,
    List.map_map]
  rfl

omit [Postcard] in
theorem frames_items (s : Subscriber) (i : Inner) : i.frames s =
    ((mirror i.sessions).values.filter fun seen => takesInfo s.selection seen.info).flatMap
      (sessionItems s.selection) := by
  rw [Inner.frames, mirror, OrdMap.values_map, List.filter_map, List.flatMap_map]
  congr 1
  funext session
  exact sessionFrames_items s session

/-- A successful capture is the bootstrap of what the service stores. -/
theorem capture_bootstrap {id : Nat} {frames : List SubscriptionItem}
    (h : i.capture id = .ok frames) : ∃ s, i.subscribers.get? id = some s ∧
      frames = bootstrap s.selection (mirror i.sessions) i.cursor := by
  unfold Inner.capture at h
  split at h
  · cases h
  rename_i begun hbegun
  split at h
  · cases h
  rename_i s hs
  refine ⟨s, hs, ?_⟩
  cases hp : i.pushAll (i.frames s ++ [.ready i.cursor]) begun with
  | error e => rw [hp] at h; cases h
  | ok out =>
    rw [hp] at h
    cases h
    change out.1 = _
    rw [pushAll_frames hp, pushAll_frames hbegun, frames_items]
    rfl

/-! ## Selections that passed the checks -/

omit [Postcard] in
theorem checkTopics_declared {sel : SessionSelector} {topics : List TopicRef}
    (h : i.checkTopics sel topics = .ok ()) {key : TopicRef} (hk : key ∈ topics) :
    ∃ cap, i.capability key = .ok cap := by
  induction topics with
  | nil => cases hk
  | cons topic topics ih =>
    unfold Inner.checkTopics at h
    split at h
    · cases h
    rename_i cap hcap
    have hrest : i.checkTopics sel topics = .ok () := by
      split at h
      · exact h
      · split at h
        · cases h
        · split at h
          · cases h
          · exact h
    rcases List.mem_cons.mp hk with rfl | hk
    · exact ⟨cap, hcap⟩
    · exact ih hrest hk

omit [Postcard] in
theorem checkSelection_declared {selection : Subscribe} (h : i.checkSelection selection = .ok ())
    {key : TopicRef} (hk : key ∈ selection.topics) : ∃ cap, i.capability key = .ok cap := by
  unfold Inner.checkSelection at h
  split at h
  · exact checkTopics_declared h hk
  · split at h
    · cases h
    · exact checkTopics_declared h hk

omit [Postcard] in
/-- A session has every topic of its provider that some check accepted. -/
theorem subscribe_complete {manifests : List ProviderManifest} {j : Inner} {selection : Subscribe}
    (hok : StoreOk manifests j) (hcat : j.catalog = i.catalog)
    (hcheck : i.checkSelection selection = .ok ()) : Complete selection (mirror j.sessions) := by
  intro id seen hseen _ key hk hprov
  rw [mirror_get?] at hseen
  obtain ⟨s, hs, rfl⟩ := Option.map_eq_some_iff.mp hseen
  obtain ⟨p, hp, hpid, hdecl⟩ := (hok.sessions id s hs).provider
  obtain ⟨cap, hcap⟩ := checkSelection_declared hcheck hk
  obtain ⟨q, hq, hqid, hmem, htopic, hversion⟩ := capability_declared hcap
  rw [← hcat] at hq
  have hprov : key.providerId = s.info.providerId := hprov
  obtain rfl := hok.registered.provider_eq hp hq (by rw [hpid, hqid, hprov])
  have hkey : s.topics.contains key = true := (hdecl key).mpr ⟨hqid, cap, hmem, htopic, hversion⟩
  obtain ⟨t, ht⟩ := OrdMap.contains_iff.mp hkey
  simp [Session.seen, ht]

end capture

/-! ## The operations on subscriptions -/

/-- Every queue follows the log. -/
abbrev Faithful (P : SessionInfo → Prop) : Inner → Prop := Truthful P fun _ => True

variable {P : SessionInfo → Prop} [Postcard] {manifests : List ProviderManifest} {i : Inner}

omit [Postcard] in
theorem Faithful.register (h : Faithful P i) (hstop : i.stopped = false) (id : Nat) (request : Subscribe)
    (pace : Nat → Nat) : Truthful P (· ≠ id) (i.register id request pace) ∧
      Fresh id request (i.register id request pace) := by
  refine ⟨⟨⟨h.starts, h.allowed, h.cursors, h.ordered, fun hs => ?_, fun n c hn hc => ?_⟩, h.mirror⟩, ?_⟩
  · rw [show (i.register id request pace).stopped = i.stopped from rfl, hstop] at hs
    cases hs
  · simp only [Inner.register, OrdMap.get?_insert_ne _ _ hn] at hc ⊢
    exact h.channels n c trivial hc
  · intro s hs
    simp only [Inner.register, OrdMap.get?_insert_self] at hs ⊢
    refine ⟨(Option.some.inj hs).symm, fun c hc => ?_⟩
    cases hc
    exact ⟨rfl, fun x hx => absurd hx (by simp [Queue.new]), rfl, rfl⟩

omit [Postcard] in
theorem Truthful.unregister {id : Nat} (h : Truthful P (· ≠ id) i) : Faithful P (i.unregister id) := by
  refine ⟨⟨h.starts, h.allowed, h.cursors, h.ordered, fun hs => ?_, fun n c _ hc => ?_⟩, h.mirror⟩
  · simp only [Inner.unregister, h.empty hs]
    rfl
  · simp only [Inner.unregister, OrdMap.get?_erase] at hc ⊢
    split at hc
    · cases hc
    · rename_i hn
      rw [if_neg hn]
      exact h.channels n c hn hc

omit [Postcard] in
/-- A queue that starts with its bootstrap follows the log. -/
theorem ChannelOk.start {runId : String} {n : Nat} {log : List UpdateEnvelope} {c : Channel}
    {R : Replica} (hR : replay ∅ log = R) (hcomplete : Complete c.selection.normal R)
    (hlog : ∀ e ∈ log, e.cursor.sequence ≤ n) (hplain : c.Plain) (hempty : c.stream = [])
    {s : Subscriber} (hs : s = ⟨c.selection.normal, true⟩) :
    ChannelOk runId n log (some s)
      { c with queue := c.queue.setInitial (bootstrap c.selection.normal R ⟨runId, n⟩) } := by
  subst hR
  simp only [Channel.stream, Queue.pending, List.append_eq_nil_iff, List.map_eq_nil_iff,
    Option.toList_eq_nil_iff, Option.map_eq_none_iff] at hempty
  obtain ⟨hdel, ⟨-, hupd⟩, hterm⟩ := hempty
  have hrec : Recounts runId c.selection.normal log
      (bootstrap c.selection.normal (replay ∅ log) ⟨runId, n⟩) :=
    ⟨log, [], n, by simp, hcomplete, hlog, by simp, by simp [recount, followed]⟩
  generalize hframes : bootstrap c.selection.normal (replay ∅ log) ⟨runId, n⟩ = frames at hrec ⊢
  have hstream : Channel.stream { c with queue := c.queue.setInitial frames } = frames := by
    simp [Channel.stream, Queue.setInitial, Queue.pending, hdel, hupd, hterm]
  refine ⟨hplain, ⟨log, _, List.prefix_refl _, hrec, .inl hstream⟩, fun s' hs' => ?_⟩
  cases hs'
  refine ⟨hs, fun _ => ⟨by rw [hstream]; exact hrec, fun cursor rest hb => ?_⟩⟩
  rw [hstream, ← hframes] at hb
  cases (List.cons.inj hb).1
  exact le_refl _

omit [Postcard] in
theorem Truthful.activate {id : Nat} {request : Subscribe} (h : Truthful P (· ≠ id) i)
    (hf : Fresh id request i) {s : Subscriber} (hs : i.subscribers.get? id = some s)
    (hcomplete : Complete s.selection (Service.mirror i.sessions)) :
    Faithful P (i.activate id (bootstrap s.selection (Service.mirror i.sessions) i.cursor)) := by
  obtain ⟨rfl, hchan⟩ := hf s hs
  have hstop : i.stopped = false := by
    by_contra hstop
    rw [h.empty (by simpa using hstop)] at hs
    simp at hs
  refine ⟨⟨h.starts, h.allowed, h.cursors, h.ordered, fun hs' => ?_, fun n c _ hc => ?_⟩, h.mirror⟩
  · rw [show (i.activate id _).stopped = i.stopped from rfl, hstop] at hs'
    cases hs'
  · simp only [Inner.activate, OrdMap.get?_modify] at hc ⊢
    split at hc
    · rename_i hn
      subst hn
      obtain ⟨c₀, hc₀, rfl⟩ := Option.map_eq_some_iff.mp hc
      obtain ⟨rfl, hplain, hempty, -⟩ := hchan c₀ hc₀
      rw [if_pos rfl, hs, Option.map_some]
      exact ChannelOk.start (h.mirror hstop) hcomplete (fun e he => (h.cursors e he).2.2) hplain
        hempty rfl
    · rename_i hn
      rw [if_neg hn]
      exact h.channels n c hn hc

theorem Faithful.subscribe (h : Faithful P i) (hok : StoreOk manifests i) (request : Subscribe)
    (clock : Readings) (pace : Nat → Nat) : Faithful P (i.subscribe request clock pace).2 := by
  unfold Inner.subscribe
  split
  · exact h
  have he := h.expire hok clock.expire
  have heok := hok.expire clock.expire
  dsimp only
  split
  · exact he
  rename_i hstop
  split
  · exact he
  split
  · exact he
  rename_i hcheck
  split
  · exact he
  rename_i id _
  obtain ⟨hreg, hfresh⟩ := Faithful.register he (by simpa using hstop) id request pace
  have hregok : StoreOk manifests ((i.expire clock.expire).register id request pace) :=
    heok.sub rfl rfl (le_refl _) fun _ _ hs => hs
  have hset := hreg.settle hregok clock.settle
  have hsetok := hregok.settle clock.settle
  have hfresh := (Fresh.stepwise id request).settle clock.settle _ hfresh
  have hcat : (((i.expire clock.expire).register id request pace).settle clock.settle).catalog =
      (i.expire clock.expire).catalog := (Grows.stepwise.settle clock.settle _).catalog
  split
  · rename_i frames hcap
    obtain ⟨s, hs, rfl⟩ := capture_bootstrap hcap
    refine hset.activate hfresh hs (subscribe_complete hsetok hcat ?_)
    rw [(hfresh s hs).1]
    exact hcheck
  · have hun := Truthful.unregister hset
    have hunok : StoreOk manifests ((((i.expire clock.expire).register id request pace).settle
        clock.settle).unregister id) := hsetok.sub rfl rfl (le_refl _) fun _ _ hs => hs
    exact Truthful.settle hun hunok clock.undo

theorem Faithful.drop (h : Faithful P i) (hok : StoreOk manifests i) (id : Nat) (now : Instant) :
    Faithful P (i.drop id now) :=
  Truthful.settle (h.retain _) (hok.sub rfl rfl (le_refl _) fun _ _ hs => hs) now

omit [Postcard] in
theorem Faithful.pop (h : Faithful P i) (id : Nat) : Faithful P (i.pop id) := by
  refine ⟨⟨h.starts, h.allowed, h.cursors, h.ordered, h.empty, fun n c _ hc => ?_⟩, h.mirror⟩
  simp only [Inner.pop, OrdMap.get?_modify] at hc
  split at hc
  · obtain ⟨c₀, hc₀, rfl⟩ := Option.map_eq_some_iff.mp hc
    have hok := h.channels n c₀ trivial hc₀
    exact hok.consumed (Channel.plain_next hok.plain) (Channel.consumed_next c₀)
  · exact h.channels n c trivial hc

/-- The sessions that lifecycle updates start satisfy `P`. -/
def Op.Starts [SerdeJson] (P : SessionInfo → Prop) : Op → Prop
  | .updateLifecycle status _ => ∀ (i : Inner), ∀ e ∈ (i.incoming status).entries, P e.2
  | _ => True

omit [Postcard] in
theorem Op.starts_true [SerdeJson] (op : Op) : op.Starts fun _ => True := by
  cases op with
  | updateLifecycle status now => exact fun _ _ _ => trivial
  | _ => trivial

theorem Faithful.step [SerdeJson] (h : Faithful P i) (hok : StoreOk manifests i) {op : Op}
    (hop : op.Hosted manifests) (hP : op.Starts P) : Faithful P (step i op) := by
  cases op with
  | updateLifecycle status now => exact h.syncRuntime hok (hP i) now
  | subscribe request clock pace => exact Faithful.subscribe h hok request clock pace
  | drop id now => exact Faithful.drop h hok id now
  | commitPoll ticket batch deadline now => exact h.commitPoll hok ticket hop deadline now
  | discardPoll ticket resets failed now => exact h.discardPoll hok ticket resets failed now
  | expire now => exact h.expire hok now
  | shutdown => exact h.toLogged.close _
  | pop id => exact Faithful.pop h id

omit [Postcard] in
theorem new_faithful {runId : String} {messageBytes : Nat}
    (h : ServiceState.new manifests runId messageBytes = .ok i) : Faithful P i := by
  unfold ServiceState.new at h
  split at h
  · cases h
  · cases h
    exact ⟨⟨by simp, trivial, by simp, .nil, fun _ => rfl, by simp⟩, fun _ => rfl⟩

/-- In every run the log tells what the service stores, and every queue follows the log. -/
theorem run_truthful [SerdeJson] {runId : String} {messageBytes : Nat}
    (h : ServiceState.new manifests runId messageBytes = .ok i) {ops : List Op}
    (hops : ∀ op ∈ ops, op.Hosted manifests ∧ op.Starts P) :
    StoreOk manifests (run i ops) ∧ Faithful P (run i ops) :=
  Runs.run_invariant (I := fun j => StoreOk manifests j ∧ Faithful P j)
    (fun _ _ hop hj => ⟨hj.1.step hop.1, Faithful.step hj.2 hj.1 hop.1 hop.2⟩) hops
    ⟨new_storeOk h, new_faithful h⟩

end Service
end WfObserver
