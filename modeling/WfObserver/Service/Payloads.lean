import WfObserver.Service.Coalescing
import WfObserver.Service.Effects

/-!
# Where payloads come from

Only a published poll makes a snapshot, and its payload is the provider's. So every snapshot that the
service keeps or has announced is text of `serde_json` (`run_encodes`).
-/

namespace WfObserver
namespace Service

open Wire
open ProviderSdk (ProviderManifest)

variable [SerdeJson]

/-- The topic's snapshot, if it has one, is text of `serde_json`. -/
def Written (t : TopicSnapshot) : Prop := ∀ d, t.snapshot = some d → d.payload.Encoded

theorem Written.bare {t : TopicSnapshot} (h : t.snapshot = none) : Written t := by
  intro d hd
  rw [h] at hd
  cases hd

/-- A topic that the update tells is written. -/
def WrittenUpdate (u : SubscriptionUpdate) : Prop := ∀ t, u = .topicChanged t → Written t

/-- The topics that the service keeps, and those that it has announced, are written. -/
structure Encodes (i : Inner) : Prop where
  stored : ∀ id s key t, i.sessions.get? id = some s → s.topics.get? key = some t → Written t.state
  told : ∀ e ∈ i.log, WrittenUpdate e.update

/-- The snapshots of a batch are text of `serde_json`. -/
def Pending.Written (pending : Pending) : Prop :=
  ∀ key payload, .snapshot key payload ∈ pending.ops → payload.Encoded

/-! ## The steps of a topic -/

/-- What a pass makes of a topic, and what it announces, is written. -/
def Topic.Writes (next : Topic × List Change × Bool) : Prop :=
  Written next.1.state ∧ ∀ c ∈ next.2.1, WrittenUpdate c.update

section topics

variable {t : Topic} (id : String) (key : TopicRef) (now : Instant)

theorem reconcile_written (h : Written t.state) (demanded : Bool) :
    Topic.Writes (t.reconcile id key demanded now) := by
  unfold Topic.reconcile
  split
  · exact ⟨h, by simp⟩
  dsimp only
  split
  · exact ⟨h, by simp⟩
  split
  · split
    · exact ⟨.bare rfl, by simp⟩
    · refine ⟨.bare rfl, fun c hc t ht => ?_⟩
      rw [List.mem_singleton.mp hc] at ht
      cases ht
  · refine ⟨.bare rfl, fun c hc t ht => ?_⟩
    rw [List.mem_singleton.mp hc] at ht
    cases ht
    exact .bare rfl

theorem lapse_written (h : Written t.state) : Topic.Writes (t.lapse id key now) := by
  unfold Topic.lapse
  split
  · dsimp only
    split
    · exact ⟨h, by simp⟩
    · refine ⟨.bare rfl, fun c hc t ht => ?_⟩
      rw [List.mem_singleton.mp hc] at ht
      cases ht
      exact .bare rfl
  · exact ⟨h, by simp⟩

theorem discard_written (t : Topic) (reset : Bool) : Written (t.discard id key reset).1.state ∧
    ∀ c ∈ (t.discard id key reset).2, WrittenUpdate c.update := by
  have hbare : ∀ c ∈ (t.discard id key reset).2, ∀ t', c.update = .topicChanged t' →
      t'.snapshot = none := by
    intro c hc t' ht'
    cases reset with
    | false =>
      rw [List.mem_singleton.mp hc] at ht'
      cases ht'
      rfl
    | true =>
      rcases List.mem_cons.mp hc with rfl | hc
      · cases ht'
      · rw [List.mem_singleton.mp hc] at ht'
        cases ht'
        rfl
  refine ⟨.bare ?_, fun c hc t' ht' => .bare (hbare c hc t' ht')⟩
  cases reset <;> rfl

end topics

/-- An operation of a written batch. -/
theorem stageTopic_written {deadline : Instant} {op : Operation} {t t' : Topic}
    (hop : ∀ key payload, op = .snapshot key payload → payload.Encoded) (h : Written t.state)
    (hs : StagedPublication.stageTopic deadline op t = .ok t') : Written t'.state := by
  cases op with
  | reset key =>
    simp only [StagedPublication.stageTopic] at hs
    split at hs
    · cases hs
    split at hs
    · cases hs
    · cases hs
      exact .bare rfl
  | snapshot key payload =>
    cases hs
    rintro d ⟨⟩
    exact hop key payload rfl
  | event key payload =>
    cases hs
    exact h
  | health key health =>
    cases hs
    intro d hd
    dsimp only at hd
    split at hd
    · exact h d hd
    · cases hd

/-- The sequence of a snapshot is not part of its payload. -/
theorem stamp_written {t : Topic} (h : Written t.state) (n : Nat) : Written (t.stamp n).state := by
  intro d hd
  obtain ⟨d₀, hd₀, rfl⟩ := Option.map_eq_some_iff.mp hd
  exact h d₀ hd₀

theorem settled_written {t : Topic} {old : TopicSnapshot} (h : Written t.state) (hold : Written old)
    (n : Nat) : Written (StagedPublication.settled old n t).state := by
  cases hc : StagedPublication.changed old t.state with
  | true =>
    intro d hd
    simp only [StagedPublication.settled, hc, if_true] at hd
    obtain ⟨d₀, hd₀, rfl⟩ := Option.map_eq_some_iff.mp hd
    exact h d₀ hd₀
  | false =>
    intro d hd
    simp only [StagedPublication.settled, hc, Bool.false_eq_true, if_false] at hd
    exact hold d hd

/-! ## The steps of the service -/

namespace Encodes

variable [Postcard] {i : Inner}

omit [Postcard] in
/-- Closing drops every snapshot. -/
theorem close_of (h : ∀ e ∈ i.log, WrittenUpdate e.update) (e : SubscriptionEnd) : Encodes (i.close e) := by
  refine ⟨fun id s key t hs ht => ?_, h⟩
  rw [Inner.close_get?] at hs
  obtain ⟨s₀, -, rfl⟩ := Option.map_eq_some_iff.mp hs
  dsimp only at ht
  rw [OrdMap.get?_map] at ht
  obtain ⟨t₀, -, rfl⟩ := Option.map_eq_some_iff.mp ht
  exact .bare rfl

theorem emit (h : Encodes i) {u : SubscriptionUpdate} (hu : WrittenUpdate u) : Encodes (i.emit u) := by
  rcases i.emit_cases u with ⟨-, he⟩ | ⟨-, -, he⟩ | ⟨-, -, he⟩ <;> rw [he]
  · exact h
  · exact close_of h.told _
  · refine ⟨h.stored, fun e he => ?_⟩
    rcases List.mem_append.mp he with he | he
    · exact h.told e he
    · rw [List.mem_singleton.mp he]
      exact hu

theorem emitAll (h : Encodes i) {us : List SubscriptionUpdate} (hus : ∀ u ∈ us, WrittenUpdate u) :
    Encodes (i.emitAll us) := by
  induction us generalizing i with
  | nil => exact h
  | cons u us ih =>
    exact ih (h.emit (hus u List.mem_cons_self)) fun v hv => hus v (List.mem_cons_of_mem _ hv)

omit [Postcard] in
/-- Other topics in a session, announced or not. -/
theorem insert (h : Encodes i) {id : String} {s : Session} {marks : List Mark}
    (hs : ∀ key t, s.topics.get? key = some t → Written t.state) :
    Encodes ((i.put (i.sessions.insert id s)).record marks) := by
  refine ⟨fun id' s' key t hs' ht => ?_, h.told⟩
  simp only [Inner.record, Inner.put, OrdMap.get?_insert] at hs'
  split at hs'
  · cases hs'
    exact hs key t ht
  · exact h.stored id' s' key t hs' ht

end Encodes

/-- What a pass of `settle` or `expire` leaves and announces. -/
theorem pass_written {i : Inner} (h : Encodes i) {p : OrdMap String Session × List Change × Bool}
    (hp : Inner.Passing i p) : Encodes (i.enter p) ∧ ∀ c ∈ p.2.1, WrittenUpdate c.update := by
  have key : ∀ f : String → Session → TopicRef → Topic → Topic × List Change × Bool,
      (∀ id s key t, Written t.state → Topic.Writes (f id s key t)) →
      Encodes (i.enter (Inner.pass f i.sessions)) ∧
        ∀ c ∈ (Inner.pass f i.sessions).2.1, WrittenUpdate c.update := by
    intro f hf
    refine ⟨⟨fun id s' key t' hs' ht' => ?_, h.told⟩, fun c hc => ?_⟩
    · obtain ⟨s, hs, -, -, htopics⟩ := Inner.pass_get? hs'
      obtain ⟨t, ht, rfl | rfl⟩ := htopics key t' ht'
      · exact h.stored id s key t' hs ht
      · exact (hf id s key t (h.stored id s key t hs ht)).1
    · obtain ⟨id, s, hs, hc⟩ := OrdMap.mem_visit_out hc
      obtain ⟨key, t, ht, hc⟩ := OrdMap.mem_visit_out hc
      exact (hf id s key t (h.stored id s key t hs ht)).2 c hc
  obtain ⟨now, rfl | rfl⟩ := hp
  · exact key _ fun id s key t ht => reconcile_written id key now ht _
  · exact key _ fun id s key t ht => lapse_written id key now ht

/-- A staged topic of a written batch. -/
theorem staged_written {session : Session} {ticket : PollTicket} {deadline : Instant} {pending : Pending}
    {staged : StagedPublication} (hpending : pending.Written)
    (hp : StagedPublication.Prepared session ticket deadline pending.ops staged)
    (hold : ∀ key t, session.topics.get? key = some t → Written t.state) {key : TopicRef} {t : Topic}
    (ht : staged.topics.get? key = some t) : Written t.state := by
  obtain ⟨-, old, hget, happ⟩ := hp.of_get? ht
  refine StagedPublication.applyOps_rule (T := fun t => Written t.state) (fun op hop _ t t' h hs => ?_)
    (hold key old hget) happ
  exact stageTopic_written (fun key payload he => hpending key payload (he ▸ hop)) h hs

/-- What a published poll stores and announces. -/
theorem transaction_written {session : Session} {ticket : PollTicket} {deadline : Instant}
    {pending : Pending} {staged : StagedPublication} (hpending : pending.Written)
    (hp : StagedPublication.Prepared session ticket deadline pending.ops staged)
    (hold : ∀ key t, session.topics.get? key = some t → Written t.state) (n : Nat) :
    (∀ key t, (Inner.transaction pending session staged n).1.topics.get? key = some t →
      Written t.state) ∧
      ∀ u ∈ (Inner.transaction pending session staged n).2, WrittenUpdate u := by
  refine ⟨fun key t ht => ?_, fun u hu => ?_⟩
  · cases hs : staged.topics.get? key with
    | none =>
      rw [Inner.transaction_other n hs] at ht
      exact hold key t ht
    | some t₀ =>
      obtain ⟨-, old, hget, -⟩ := hp.of_get? hs
      obtain ⟨m, -, hstored, -⟩ := Inner.transaction_staged pending n hs hget ""
      rw [hstored] at ht
      cases ht
      exact settled_written (staged_written hpending hp hold hs) (hold key old hget) _
  · simp only [Inner.transaction, List.mem_append] at hu
    rcases hu with hu | hu | hu
    · rcases List.mem_append.mp hu with hu | hu
      · obtain ⟨info, -, rfl⟩ := Option.map_eq_some_iff.mp (Option.mem_toList.mp hu)
        intro t ht
        cases ht
      · obtain ⟨key, -, hk⟩ := List.mem_filterMap.mp hu
        obtain ⟨t, -, rfl⟩ := Option.map_eq_some_iff.mp hk
        intro t' ht'
        cases ht'
    · rw [StagedPublication.publishTopics_updates staged.topics.sorted (fun _ _ => rfl)] at hu
      obtain ⟨j, hj, rfl⟩ := List.mem_mapIdx.mp hu
      obtain ⟨hmem, -⟩ := List.mem_filter.mp (List.getElem_mem hj)
      rintro t ⟨⟩
      exact stamp_written (staged_written hpending hp hold (OrdMap.get?_eq_some.mpr hmem)) _
    · rw [StagedPublication.eventUpdates_eq] at hu
      obtain ⟨j, hj, rfl⟩ := List.mem_mapIdx.mp hu
      intro t ht
      cases ht

variable [Postcard] {i : Inner}

theorem encodes_announced (J : String → Prop) : Announced Pending.Written J Encodes where
  calm h hq hlog := ⟨by rw [hq.sessions]; exact h.stored, by rw [hlog]; exact h.told⟩
  close e h := .close_of h.told e
  halt e hp h := .close_of (pass_written h hp).1.told e
  tell u hu h := h.emit fun t ht => absurd ht (hu t)
  pass hp h _ := by
    obtain ⟨he, hc⟩ := pass_written h hp
    refine he.emitAll fun u hu => ?_
    obtain ⟨c, hmem, rfl⟩ := List.mem_map.mp hu
    exact hc c hmem
  discard {i ticket resets failed session} hd h := by
    have hold := fun key t => h.stored _ session key t hd.found
    refine (h.insert fun key t ht => ?_).emitAll fun u hu => ?_
    · dsimp only at ht
      rw [OrdMap.get?_map] at ht
      obtain ⟨t₀, ht₀, rfl⟩ := Option.map_eq_some_iff.mp ht
      unfold Inner.discardedTopic
      split
      · exact hold key t₀ ht₀
      · exact (discard_written _ _ t₀ _).1
    · obtain ⟨c, hc, rfl⟩ := List.mem_map.mp hu
      obtain ⟨e, -, hc⟩ := List.mem_flatMap.mp hc
      unfold Inner.discardChanges at hc
      split at hc
      · cases hc
      · exact (discard_written _ _ e.2 _).2 c hc
  publish hp hpending h := by
    obtain ⟨hs, hu⟩ := transaction_written hpending hp.prepared
      (fun key t => h.stored _ _ key t hp.found) _
    exact (h.insert hs).emitAll hu
  ended hs _ h := by
    refine ⟨fun id s key t hget => ?_, h.told⟩
    simp only [Inner.record, Inner.put, OrdMap.get?_erase] at hget
    split at hget
    · cases hget
    · exact h.stored id s key t hget
  started _ _ _ _ h := by
    refine (h.insert fun key t ht => ?_).emitAll fun u hu => ?_
    · rw [Inner.newTopics_get? ht]
      exact .bare rfl
    · rcases List.mem_cons.mp hu with rfl | hu
      · intro t ht
        cases ht
      · obtain ⟨t, ht, rfl⟩ := List.mem_map.mp hu
        obtain ⟨e, he, rfl⟩ := List.mem_map.mp ht
        rw [Inner.newTopics_get? (OrdMap.get?_eq_some.mpr he)]
        rintro t' ⟨⟩
        exact .bare rfl

omit [Postcard] in
/-- A provider's batch is written. -/
theorem batch_written (batch : PollBatch) : batch.pending.Written := by
  intro key payload hop
  obtain ⟨cap, -, -, hd⟩ := batch.wf.ops _ hop
  exact hd.2

theorem run_encodes {manifests : List ProviderManifest} {runId : String} {messageBytes : Nat}
    (h : ServiceState.new manifests runId messageBytes = .ok i) (ops : List Op) : Encodes (run i ops) := by
  have hnew : Encodes i := by
    unfold ServiceState.new at h
    split at h
    · cases h
    · cases h
      exact ⟨fun id s key t hs => by simp at hs, fun e he => by cases he⟩
  refine Runs.run_invariant (G := fun _ => True) (fun i op _ hi => ?_) (fun _ _ => trivial) hnew
  refine (encodes_announced _).step ?_ hi
  cases op with
  | commitPoll ticket batch deadline now => exact batch_written batch
  | _ => trivial

end Service
end WfObserver
