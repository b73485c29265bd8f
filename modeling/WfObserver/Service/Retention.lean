import WfObserver.Lib.Runs
import WfObserver.Service.Lifecycle
import WfObserver.Service.TestSupport

/-!
# Retained snapshots

`retained` is the total size of the snapshots that the service keeps. No operation but a commit makes
a snapshot, so every other operation keeps or lowers it (`Held`). A commit replaces the snapshots of
the topics that it stages (`transaction_held`), and is validated against the total that results.
-/

namespace WfObserver
namespace Service

open Wire
open ProviderSdk (ProviderManifest)

/-- The size of a topic's snapshot. -/
def Topic.bytes (t : Topic) : Nat := (t.state.snapshot.map fun s => s.payload.len).getD 0

/-- The total size of the snapshots in these sessions. -/
def held (sessions : OrdMap String Session) : Nat :=
  sessions.sum fun _ s => s.topics.sum fun _ t => t.bytes

namespace Inner

/-- `retained` of `validate`. -/
def retained (i : Inner) : Nat := snapshotBytes (i.sessions.values.flatMap fun s => s.topics.values)

theorem snapshotBytes_eq (topics : List Topic) : snapshotBytes topics = (topics.map Topic.bytes).sum := by
  unfold snapshotBytes
  induction topics with
  | nil => rfl
  | cons t topics ih =>
    cases hs : t.state.snapshot with
    | none => rw [List.filterMap_cons_none (by simp [hs]), ih]; simp [Topic.bytes, hs]
    | some s => rw [List.filterMap_cons_some (by simp [hs]; rfl), List.sum_cons, ih]; simp [Topic.bytes, hs]

theorem snapshotBytes_values (topics : OrdMap TopicRef Topic) :
    snapshotBytes topics.values = topics.sum fun _ t => t.bytes := by
  rw [snapshotBytes_eq, OrdMap.values, List.map_map]
  rfl

theorem retained_eq (i : Inner) : i.retained = held i.sessions := by
  rw [retained, snapshotBytes_eq, held, OrdMap.sum, OrdMap.values]
  induction i.sessions.entries with
  | nil => rfl
  | cons e l ih =>
    rw [List.map_cons, List.flatMap_cons, List.map_append, List.sum_append, ih, List.map_cons,
      List.sum_cons, ← snapshotBytes_eq, snapshotBytes_values]

end Inner

/-! ## Operations that make no snapshot -/

/-- Sessions whose topics keep no more than the ones they come from. -/
theorem held_le {sessions sessions' : OrdMap String Session}
    (h : ∀ id s', sessions'.get? id = some s' → ∃ s, sessions.get? id = some s ∧
      ∀ key t', s'.topics.get? key = some t' → ∃ t, s.topics.get? key = some t ∧ t'.bytes ≤ t.bytes) :
    held sessions' ≤ held sessions := by
  refine OrdMap.sum_le fun id s' hs' => ?_
  obtain ⟨s, hs, htopics⟩ := h id s' hs'
  exact ⟨s, hs, OrdMap.sum_le fun key t' ht' => htopics key t' ht'⟩

theorem held_erase (sessions : OrdMap String Session) (id : String) :
    held (sessions.erase id) ≤ held sessions := by
  refine OrdMap.sum_le fun a s hs => ?_
  rw [OrdMap.get?_erase] at hs
  split at hs
  · cases hs
  · exact ⟨s, hs, le_refl _⟩

/-- A session whose topics have no snapshot. -/
theorem sum_bare {topics : OrdMap TopicRef Topic}
    (h : ∀ key t, topics.get? key = some t → t.state.snapshot = none) :
    (topics.sum fun _ t => t.bytes) = 0 := by
  refine List.sum_eq_zero fun n hn => ?_
  obtain ⟨e, he, rfl⟩ := List.mem_map.mp hn
  simp [Topic.bytes, h e.1 e.2 (OrdMap.get?_eq_some.mpr he)]

namespace Topic

variable (t : Topic)

theorem reconcile_bytes (id : String) (key : TopicRef) (demanded : Bool) (now : Instant) :
    (t.reconcile id key demanded now).1.bytes ≤ t.bytes := by
  unfold reconcile
  split
  · exact le_refl _
  dsimp only
  split
  · exact le_refl _
  · split
    · split <;> exact Nat.zero_le _
    · exact Nat.zero_le _

theorem lapse_bytes (id : String) (key : TopicRef) (now : Instant) :
    (t.lapse id key now).1.bytes ≤ t.bytes := by
  unfold lapse
  split
  · dsimp only
    split
    · exact le_refl _
    · exact Nat.zero_le _
  · exact le_refl _

end Topic

/-- The retained total is within `n`. -/
def Held (n : Nat) (i : Inner) : Prop := held i.sessions ≤ n

section Operations

variable {n : Nat} {i i' : Inner}

theorem Held.of_le (h : Held n i) (hle : held i'.sessions ≤ held i.sessions) : Held n i' :=
  hle.trans h

theorem close_held (e : SubscriptionEnd) (i : Inner) : held (i.close e).sessions = 0 := by
  refine List.sum_eq_zero fun k hk => ?_
  obtain ⟨⟨id, s'⟩, he, rfl⟩ := List.mem_map.mp hk
  have hs' := OrdMap.get?_eq_some.mpr he
  rw [Inner.close_get?] at hs'
  obtain ⟨s, -, rfl⟩ := Option.map_eq_some_iff.mp hs'
  refine sum_bare fun key t ht => ?_
  rw [OrdMap.get?_map] at ht
  obtain ⟨t₀, -, rfl⟩ := Option.map_eq_some_iff.mp ht
  rfl

theorem held_invariant : Inner.StoreInvariant (Held n) where
  quiet hq h := h.of_le (by rw [hq.sessions])
  close e _ := (close_held e _).trans_le (Nat.zero_le n)

variable [Postcard]

/-- A pass whose body makes no snapshot. -/
theorem Held.applyPass {f : String → Session → TopicRef → Topic → Topic × List Change × Bool}
    (h : Held n i) (hf : ∀ id s key t, (f id s key t).1.bytes ≤ t.bytes) :
    Held n (i.applyPass (Inner.pass f i.sessions)) := by
  have hpass : held (Inner.pass f i.sessions).1 ≤ held i.sessions := by
    refine held_le fun id s' hs' => ?_
    obtain ⟨s, hs, -, -, htopics⟩ := Inner.pass_get? hs'
    refine ⟨s, hs, fun key t' ht' => ?_⟩
    obtain ⟨t, ht, rfl | rfl⟩ := htopics key t' ht'
    · exact ⟨t', ht, le_refl _⟩
    · exact ⟨t, ht, hf id s key t⟩
  have hstored : Held n { i with
      sessions := (Inner.pass f i.sessions).1
      history := i.history ++ (Inner.pass f i.sessions).2.1.map Change.mark } := h.of_le hpass
  unfold Inner.applyPass
  dsimp only
  split
  · exact held_invariant.close _ hstored
  · refine held_invariant.emitAll ?_ _
    split <;> exact hstored

theorem Held.settle (h : Held n i) (now : Instant) : Held n (i.settle now) := by
  refine Inner.settle_rule (fun j hj => ?_) h
  have hlive : Held n j.retainLive := hj
  exact hlive.applyPass fun id s key t => t.reconcile_bytes id key _ now

theorem Held.expire (h : Held n i) (now : Instant) : Held n (i.expire now) := by
  have hp : Held n (i.applyPass (i.lapse now)) := h.applyPass fun id _ key t => t.lapse_bytes id key now
  unfold Inner.expire
  dsimp only
  split
  · exact hp
  · exact hp.settle now

theorem Held.endSession (h : Held n i) (status : HostStatus) (id : String) :
    Held n (i.endSession status id) := by
  unfold Inner.endSession
  split
  · exact h
  · exact (held_invariant.emit h _).of_le (held_erase _ _)

theorem Held.addSession (h : Held n i) (info : SessionInfo) : Held n (i.addSession info).2 := by
  rcases Inner.addSession_cases info i with
    ⟨-, he⟩ | ⟨-, he⟩ | ⟨-, he⟩ | ⟨p, hp, hid, hstop, hroom, he⟩ <;> rw [he]
  · exact h
  · exact h
  · exact held_invariant.close _ h
  · refine held_invariant.emitAll (h.of_le ?_) _
    have hbare : ((Inner.newTopics p info).sum fun _ t => t.bytes) = 0 :=
      sum_bare fun key t ht => by rw [Inner.newTopics_get? ht]; rfl
    rw [Inner.stored, Inner.record, Inner.put, held, OrdMap.sum_insert, hbare, Nat.zero_add]
    exact held_erase _ _

theorem Held.addSessions {l : List (String × SessionInfo)} (h : Held n i) :
    Held n (Inner.addSessions l i).2 := by
  induction l generalizing i with
  | nil => exact h
  | cons e l ih =>
    have ha := h.addSession e.2
    rw [Inner.addSessions]
    split
    · exact ih h
    · split
      · rename_i he; rw [he] at ha; exact ha
      · rename_i he; rw [he] at ha; exact ih ha

theorem Held.syncRuntime (h : Held n i) (status : HostStatus) (now : Instant) :
    Held n (i.syncRuntime status now).2 := by
  unfold Inner.syncRuntime
  split
  · exact h
  dsimp only
  have hends : Held n ((i.sessions.keys.filter fun id => !(i.incoming status).contains id).foldl
      (Inner.endSession status) i) :=
    Runs.run_invariant (G := fun _ => True) (fun j id _ hj => hj.endSession status id)
      (fun _ _ => trivial) h
  have ha := hends.addSessions (l := (i.incoming status).entries)
  split
  · rename_i heq; rw [heq] at ha; exact ha
  · rename_i j heq
    rw [heq] at ha
    have hj : Held n { j with runtime := status }.advance.2 := by
      unfold Inner.advance
      split
      · exact ha
      · split
        · exact ha
        · exact held_invariant.close _ ha
    exact hj.settle now

theorem Held.discardPoll (h : Held n i) (ticket : PollTicket) (resets : List TopicRef)
    (failed : Bool) (now : Instant) : Held n (i.discardPoll ticket resets failed now).2 := by
  rcases Inner.discardPoll_cases ticket resets failed now i with
    ⟨-, he⟩ | ⟨-, -, he⟩ | ⟨session, hd, he⟩ <;> rw [he]
  · exact h
  · exact held_invariant.close _ h
  · refine Held.settle (held_invariant.emitAll (h.of_le (held_le fun id s' hs' => ?_)) _) now
    simp only [Inner.discardStored, Inner.put, Inner.record, OrdMap.get?_insert] at hs'
    split at hs'
    · rename_i hid
      cases hs'
      refine ⟨session, hid ▸ hd.found, fun key t' ht' => ?_⟩
      rw [OrdMap.get?_map] at ht'
      obtain ⟨t, ht, rfl⟩ := Option.map_eq_some_iff.mp ht'
      refine ⟨t, ht, ?_⟩
      unfold Inner.discardedTopic
      split
      · exact le_refl _
      · exact Nat.zero_le _
    · exact ⟨s', hs', fun key t ht => ⟨t, ht, le_refl _⟩⟩

theorem Held.subscribe (h : Held n i) (request : Subscribe) (clock : Readings) (pace : Nat → Nat) :
    Held n (i.subscribe request clock pace).2 := by
  unfold Inner.subscribe
  split
  · exact h
  have he := h.expire clock.expire
  dsimp only
  split
  · exact he
  split
  · exact he
  split
  · exact he
  split
  · exact he
  · rename_i id _
    have hreg : Held n ((i.expire clock.expire).register id request pace) := he
    have hs := hreg.settle clock.settle
    split
    · exact hs
    · have hun : Held n ((((i.expire clock.expire).register id request pace).settle
          clock.settle).unregister id) := hs
      exact hun.settle clock.undo

/-! ## Commits -/

variable {ticket : PollTicket} {pending : Pending} {deadline : Instant} {session : Session}
  {staged : StagedPublication}

/-- The sessions with the staged topics in the place of the session's own. -/
def replaced (i : Inner) (ticket : PollTicket) (session : Session) (staged : StagedPublication) :
    OrdMap String Session :=
  i.sessions.insert ticket.sessionId
    { session with topics := session.topics.map fun key t => (staged.topics.get? key).getD t }

omit [Postcard] in
/-- A topic is stored with the snapshot that it is staged with. -/
theorem settled_bytes {old : TopicSnapshot} {sequence : Nat} {t : Topic} :
    (StagedPublication.settled old sequence t).bytes = t.bytes := by
  unfold StagedPublication.settled Topic.bytes
  dsimp only
  split
  · cases t.state.snapshot <;> rfl
  · rename_i hsame
    have hpayload : old.snapshot.map (·.payload) = t.state.snapshot.map (·.payload) := by
      simpa [StagedPublication.changed] using (by simpa [StagedPublication.changed] using hsame :
        (old.generation = t.state.generation ∧ old.health = t.state.health) ∧ _).2
    cases ho : old.snapshot <;> cases ht : t.state.snapshot <;> rw [ho, ht] at hpayload <;>
      simp_all

omit [Postcard] in
theorem transaction_held (hprep : StagedPublication.Prepared session ticket deadline pending.ops staged)
    (m : Nat) :
    held (i.sessions.insert ticket.sessionId (Inner.transaction pending session staged m).1) ≤
      held (replaced i ticket session staged) := by
  refine held_le fun id s' hs' => ?_
  rw [OrdMap.get?_insert] at hs'
  split at hs'
  · rename_i hid
    cases hs'
    refine ⟨_, by rw [replaced, OrdMap.get?_insert, if_pos hid], fun key t' ht' => ?_⟩
    have hcont := Inner.transaction_contains hprep m key
    obtain ⟨old, hold⟩ := OrdMap.contains_iff.mp
      (hcont.symm.trans (OrdMap.contains_iff.mpr ⟨t', ht'⟩))
    rw [OrdMap.get?_map, hold]
    cases hst : staged.topics.get? key with
    | none =>
      rw [Inner.transaction_other m hst, hold] at ht'
      cases ht'
      exact ⟨t', rfl, le_refl _⟩
    | some t =>
      obtain ⟨k, -, hget, -⟩ := Inner.transaction_staged pending m hst hold ""
      rw [hget] at ht'
      cases ht'
      exact ⟨t, rfl, settled_bytes.le⟩
  · rename_i hid
    exact ⟨s', by rw [replaced, OrdMap.get?_insert, if_neg hid]; exact hs',
      fun key t ht => ⟨t, ht, le_refl _⟩⟩

omit [Postcard] in
/-- The total that `validate` computes. -/
theorem replaced_held (hs : i.sessions.get? ticket.sessionId = some session)
    (hprep : StagedPublication.Prepared session ticket deadline pending.ops staged) :
    Inner.snapshotBytes (staged.topics.keys.filterMap session.topics.get?) ≤ i.retained ∧
      held (replaced i ticket session staged) =
        i.retained - Inner.snapshotBytes (staged.topics.keys.filterMap session.topics.get?) +
          Inner.snapshotBytes staged.topics.values := by
  have hkeys : ∀ k ∈ staged.topics.keys, k ∈ session.topics.keys := by
    intro k hk
    obtain ⟨t, ht⟩ := OrdMap.mem_keys.mp hk
    obtain ⟨-, old, hold, -⟩ := hprep.of_get? ht
    exact OrdMap.mem_keys.mpr ⟨old, hold⟩
  have hold : Inner.snapshotBytes (staged.topics.keys.filterMap session.topics.get?) =
      (staged.topics.keys.map fun k => ((session.topics.get? k).map Topic.bytes).getD 0).sum := by
    rw [Inner.snapshotBytes_eq]
    induction staged.topics.keys with
    | nil => rfl
    | cons k ks ih =>
      cases hk : session.topics.get? k with
      | none => rw [List.filterMap_cons_none hk, List.map_cons, List.sum_cons, ih]; simp [hk]
      | some t =>
        rw [List.filterMap_cons_some hk, List.map_cons, List.map_cons, List.sum_cons, List.sum_cons, ih]
        simp [hk]
  have hover : ((session.topics.map fun key t => (staged.topics.get? key).getD t).sum
      fun _ t => t.bytes) +
        (staged.topics.keys.map fun k => ((session.topics.get? k).map Topic.bytes).getD 0).sum =
      (session.topics.sum fun _ t => t.bytes) + staged.topics.sum fun _ t => t.bytes :=
    OrdMap.sum_overlay (fun _ t => Topic.bytes t) hkeys
  have hle : (staged.topics.keys.map fun k =>
      ((session.topics.get? k).map Topic.bytes).getD 0).sum ≤ session.topics.sum fun _ t => t.bytes :=
    OrdMap.sum_keys_le (fun _ t => Topic.bytes t) hkeys
  have hsession := OrdMap.sum_eq_erase (fun _ s => s.topics.sum fun _ t => Topic.bytes t) hs
  have hall : i.retained = (session.topics.sum fun _ t => t.bytes) + held (i.sessions.erase ticket.sessionId) := by
    rw [Inner.retained_eq]
    exact hsession
  have hnew : held (replaced i ticket session staged) =
      ((session.topics.map fun key t => (staged.topics.get? key).getD t).sum fun _ t => t.bytes) +
        held (i.sessions.erase ticket.sessionId) := OrdMap.sum_insert _ _ _ _
  rw [hold, hall, hnew, Inner.snapshotBytes_values]
  constructor
  · exact hle.trans (Nat.le_add_right _ _)
  · omega

/-! ## The check of a commit -/

/-- The error of a commit whose snapshots would not fit. -/
def overRetained : RequestError := limit .retainedSnapshotBytes

theorem updateFits_error {u : SubscriptionUpdate} {e : RequestError} (h : i.updateFits u = .error e) :
    e ≠ overRetained := by
  unfold Inner.updateFits messageFits at h
  split at h
  · cases h; simp [overRetained, limit, invalid]
  · split at h
    · cases h; simp [overRetained, limit]
    · cases h

omit [Postcard] in
theorem capability_error {key : TopicRef} {e : RequestError} (h : i.capability key = .error e) :
    e ≠ overRetained := by
  unfold Inner.capability at h
  split at h
  · cases h; simp [overRetained, limit, invalid]
  · split at h
    · cases h; simp [overRetained, limit]
    · dsimp only at h
      split at h
      · cases h; simp [overRetained, limit]
      · split at h
        · cases h
        · cases h; simp [overRetained, limit]

theorem validateTopics_error {l : List (TopicRef × Topic)} {e : RequestError}
    (h : StagedPublication.validateTopics i l = .error e) : e ≠ overRetained := by
  induction l with
  | nil => cases h
  | cons t l ih =>
    rw [StagedPublication.validateTopics] at h
    split at h
    · rename_i hcap
      cases h
      exact capability_error hcap
    · split at h
      · cases h; simp [overRetained, limit, invalid]
      · dsimp only at h
        split at h
        · rename_i hfits
          cases h
          exact updateFits_error hfits
        · exact ih h

theorem validateEvents_error {topics : OrdMap TopicRef Topic} {l : List (TopicRef × JsonPayload)}
    {e : RequestError} (h : StagedPublication.validateEvents i topics l = .error e) :
    e ≠ overRetained := by
  induction l with
  | nil => cases h
  | cons t l ih =>
    rw [StagedPublication.validateEvents] at h
    split at h
    · exact ih h
    · split at h
      · cases h; simp [overRetained, limit, invalid]
      · split at h
        · rename_i hfits
          cases h
          exact updateFits_error hfits
        · exact ih h

omit [Postcard] in
theorem prepare_error {staged : StagedPublication} {ops : List Operation} {e : RequestError}
    (h : StagedPublication.prepare session ticket deadline staged ops = .error e) :
    e ≠ overRetained := by
  induction ops generalizing staged with
  | nil => cases h
  | cons op ops ih =>
    rw [StagedPublication.prepare] at h
    split at h
    · rename_i hstage
      cases h
      unfold StagedPublication.stage at hstage
      split at hstage
      · cases hstage; simp [overRetained, limit, invalid, StagedPublication.undemanded]
      · split at hstage
        · cases hstage; simp [overRetained, limit, invalid, StagedPublication.undemanded]
        · split at hstage
          · rename_i htopic
            cases hstage
            unfold StagedPublication.stageTopic at htopic
            split at htopic
            · split at htopic
              · cases htopic; simp [overRetained, limit, invalid]
              · split at htopic
                · cases htopic; simp [overRetained, limit, invalid]
                · cases htopic
            all_goals cases htopic
          · cases hstage
    · exact ih h

/-- `validate` accepts a publication only if its snapshots fit, and refuses it for them only if they
do not. -/
theorem validate_retained (hs : i.sessions.get? ticket.sessionId = some session)
    (hprep : StagedPublication.Prepared session ticket deadline pending.ops staged) :
    (staged.validate i session = .ok () → Held retainedSnapshotBytes
      (i.put (replaced i ticket session staged))) ∧
    (staged.validate i session = .error overRetained →
      retainedSnapshotBytes < held (replaced i ticket session staged)) := by
  obtain ⟨-, htotal⟩ := replaced_held hs hprep
  unfold StagedPublication.validate
  split
  · rename_i he
    exact ⟨fun h => (by cases h), fun h => absurd (by cases h; rfl) (validateTopics_error he)⟩
  · split
    · rename_i he
      exact ⟨fun h => (by cases h), fun h => absurd (by cases h; rfl) (validateEvents_error he)⟩
    · dsimp only
      rw [← Inner.retained, ← htotal]
      split
      · rename_i hover
        exact ⟨fun h => (by cases h), fun _ => hover⟩
      · rename_i hfits
        exact ⟨fun _ => Nat.le_of_not_lt hfits, fun h => (by cases h)⟩

theorem Held.commitPoll [SerdeJson] (h : Held retainedSnapshotBytes i) (ticket : PollTicket)
    (batch : PollBatch) (deadline now : Instant) :
    Held retainedSnapshotBytes (i.commitPoll ticket batch deadline now).2 := by
  rcases Inner.commitPoll_cases ticket batch deadline now i with
    ⟨r, -, he⟩ | ⟨-, -, he⟩ | ⟨session, staged, hp, he⟩ <;> rw [he]
  · exact h
  · exact held_invariant.close _ h
  · refine Held.settle ?_ now
    have hfits := (validate_retained hp.found hp.prepared).1 hp.valid
    rw [Held, (hp.transacted _).sessions]
    exact (transaction_held hp.prepared i.sequence).trans hfits

theorem Held.step [SerdeJson] (h : Held retainedSnapshotBytes i) (op : Op) :
    Held retainedSnapshotBytes (step i op) := by
  cases op with
  | updateLifecycle status now => exact h.syncRuntime status now
  | subscribe request clock pace => exact h.subscribe request clock pace
  | drop id now =>
    have hsub : Held retainedSnapshotBytes { i with subscribers := i.subscribers.erase id } := h
    exact hsub.settle now
  | commitPoll ticket batch deadline now => exact h.commitPoll ticket batch deadline now
  | discardPoll ticket resets failed now => exact h.discardPoll ticket resets failed now
  | expire now => exact h.expire now
  | shutdown => exact held_invariant.close _ h
  | pop id => exact h

theorem run_held [SerdeJson] (h : Held retainedSnapshotBytes i) (ops : List Op) :
    Held retainedSnapshotBytes (run i ops) :=
  Runs.run_invariant (G := fun _ => True) (fun _ op _ hj => hj.step op) (fun _ _ => trivial) h

omit [Postcard] in
theorem new_held {manifests : List ProviderManifest} {runId : String} {messageBytes : Nat}
    (h : ServiceState.new manifests runId messageBytes = .ok i) : Held retainedSnapshotBytes i := by
  unfold ServiceState.new at h
  split at h
  · cases h
  · cases h
    exact Nat.zero_le _

/-- The snapshots that the service retains fit after every run; a commit that they would not fit after
changes nothing, and no other commit is refused for them. -/
theorem retained_bounded [SerdeJson] {manifests : List ProviderManifest} {runId : String}
    {messageBytes : Nat} (h : ServiceState.new manifests runId messageBytes = .ok i) (ops : List Op) :
    (run i ops).retained ≤ retainedSnapshotBytes ∧
    ∀ (ticket : PollTicket) (batch : PollBatch) (deadline now : Instant) (session : Session)
      (staged : StagedPublication), (run i ops).sessions.get? ticket.sessionId = some session →
      StagedPublication.prepare session ticket deadline {} batch.pending.ops = .ok staged →
      Inner.snapshotBytes (staged.topics.keys.filterMap session.topics.get?) ≤ (run i ops).retained ∧
      (retainedSnapshotBytes < held (replaced (run i ops) ticket session staged) →
        ∃ r, (run i ops).commitPoll ticket batch deadline now = (r, run i ops) ∧ r ≠ .ok true ∧
          ((run i ops).stopped = false → Inner.stale ticket session = false → ∃ e, r = .error e)) ∧
      (held (replaced (run i ops) ticket session staged) ≤ retainedSnapshotBytes →
        ((run i ops).commitPoll ticket batch deadline now).1 ≠ .error overRetained) := by
  have hheld := run_held (new_held h) ops
  generalize run i ops = j at hheld ⊢
  refine ⟨j.retained_eq.trans_le hheld, fun ticket batch deadline now session staged hs hprepare => ?_⟩
  have hprep := StagedPublication.prepare_prepared hprepare
  have hcheck : ∀ e, j.checkPoll ticket batch.pending deadline session = .error e →
      e = overRetained → retainedSnapshotBytes < held (replaced j ticket session staged) := by
    intro e he heq
    unfold Inner.checkPoll at he
    rw [hprepare] at he
    dsimp only at he
    split at he
    · rename_i hv
      cases he
      exact (validate_retained hs hprep).2 (heq ▸ hv)
    · split at he
      · cases he
      · split at he
        · rename_i hfits
          cases he
          exact absurd heq (updateFits_error hfits)
        · cases he
  have hunspent := Bool.not_eq_true _ ▸ hprep.unspent
  refine ⟨(replaced_held hs hprep).1, fun hover => ?_, fun hfits => ?_⟩
  · have herror : ∃ e, j.checkPoll ticket batch.pending deadline session = .error e := by
      cases hc : j.checkPoll ticket batch.pending deadline session with
      | error e => exact ⟨e, rfl⟩
      | ok staged' =>
        have hv := (Inner.checkPoll_ok hc).2
        have hsame : staged' = staged := by
          unfold Inner.checkPoll at hc
          rw [hprepare] at hc
          dsimp only at hc
          split at hc
          · cases hc
          · split at hc
            · cases hc; rfl
            · split at hc <;> cases hc
              rfl
        rw [hsame] at hv
        exact absurd ((validate_retained hs hprep).1 hv) (Nat.not_le_of_lt hover)
    obtain ⟨e, he⟩ := herror
    unfold Inner.commitPoll
    dsimp only
    split
    · exact ⟨_, rfl, by simp, fun _ _ => ⟨_, rfl⟩⟩
    split
    · rename_i hstop
      exact ⟨_, rfl, by simp, fun hrun => absurd hstop (by simp [hrun])⟩
    rw [hs]
    dsimp only
    split
    · rename_i hstale
      exact ⟨_, rfl, by simp, fun _ hfresh => absurd hstale (by simp [hfresh])⟩
    rw [he]
    exact ⟨_, rfl, by simp, fun _ _ => ⟨_, rfl⟩⟩
  · intro herr
    unfold Inner.commitPoll at herr
    dsimp only at herr
    split at herr
    · simp [overRetained, limit, invalid] at herr
    split at herr
    · cases herr
    rw [hs] at herr
    dsimp only at herr
    split at herr
    · cases herr
    split at herr
    · rename_i e he
      simp only [Except.error.injEq] at herr
      exact absurd (hcheck e he herr) (Nat.not_lt_of_le hfits)
    · split at herr <;> cases herr

end Operations

section examples

open TestSupport

theorem retained_bounded_published : (run service published).retained ≤ retainedSnapshotBytes :=
  (retained_bounded new_service published).1

end examples

end Service
end WfObserver
