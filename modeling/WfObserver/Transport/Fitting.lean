import WfObserver.Service.Coalescing
import WfObserver.Service.Exhaustion
import WfObserver.Service.QueueLog
import WfObserver.Transport.Delivery

/-!
# Accepted publications fit

`validate` measures a staged topic once, as a TopicChanged update at the largest sequence. `Deliverable` lists
the frames that are made of a topic later. `checked_fits` says that the measured update is the longest
of them, whatever the sequence is then, and `accepted_fits` that an accepted poll has only such topics.
-/

namespace WfObserver
namespace Transport

open Wire Service
open ProviderSdk (ProviderManifest)

/-- `postcard` measures the frames as the encoding lays them out. -/
class Measured [Postcard] : Prop where
  item : ∀ i, Postcard.item i = some (Encoding.item i)
  snapshotPayload : ∀ p, Postcard.snapshotPayload p = some (Encoding.snapshotPayload p)

instance : Measured := ⟨fun _ => rfl, fun _ => rfl⟩

/-- The size of the reply to a snapshot request for a topic that has a snapshot, or a reason why it has
none: `Ok(envelope)`, or `Err(RequestError::Unavailable)`. -/
def snapshotReply : Except UnavailableReason DataEnvelope → Nat
  | .ok envelope => 1 + Encoding.envelope envelope
  | .error reason => 1 + (1 + Encoding.reason reason)

/-- The updates and the bootstrap frame that carry a topic's state. -/
inductive Carries (runId : String) (state : TopicSnapshot) : SubscriptionItem → Prop where
  | topic : Carries runId state (.topic state)
  | changed (sequence : Nat) :
      Carries runId state (.update ⟨⟨runId, sequence⟩, .topicChanged state⟩)

/-- Every frame that is made of a topic's state is within the limit. -/
structure Deliverable [Postcard] [SerdeJson] [JsonPatch] [Blake3] (limit : Nat) (runId : String)
    (state : TopicSnapshot) : Prop where
  plain : ∀ item, Carries runId state item → Encoding.item item ≤ limit
  /-- Full or as a delta, for any baselines. -/
  delivered : ∀ item, Carries runId state item → ∀ (d d' : Delivery)
    (cache : Option (Hash × JsonPayload)) (frame : SubscriptionItem),
    d.encode item cache = some (frame, d') → Encoding.item frame ≤ limit
  reset : ∀ sequence reason, Encoding.item
    (.update ⟨⟨runId, sequence⟩, .topicReset state.source state.generation reason⟩) ≤ limit
  reply : ∀ envelope, state.snapshot = some envelope → snapshotReply (.ok envelope) ≤ limit
  refusal : ∀ reason, state.health = .unavailable reason → snapshotReply (.error reason) ≤ limit

/-! ## The measured update is the longest -/

section sizes

theorem varint_pos (n : Nat) : 1 ≤ Encoding.varint n := by
  unfold Encoding.varint
  repeat' split
  all_goals decide

/-- The largest `u64` has the longest varint. -/
theorem varint_le_max (n : Nat) : Encoding.varint n ≤ Encoding.varint u64Max := by
  have hmax : Encoding.varint u64Max = 10 := by decide
  rw [hmax]
  unfold Encoding.varint
  repeat' split
  all_goals decide

theorem health_pos (h : CapabilityHealth) : 1 ≤ Encoding.health h := by
  cases h <;> simp [Encoding.health]

/-- The snapshot as `validate` measures it. -/
def latest (d : DataEnvelope) : DataEnvelope :=
  { d with metadata := { d.metadata with sequence := u64Max } }

def checked (state : TopicSnapshot) : TopicSnapshot :=
  { state with snapshot := state.snapshot.map latest }

theorem cursor_le (runId : String) (n : Nat) :
    Encoding.cursor ⟨runId, n⟩ ≤ Encoding.cursor ⟨runId, u64Max⟩ :=
  Nat.add_le_add_left (varint_le_max n) _

theorem metadata_le (d : DataEnvelope) :
    Encoding.metadata d.metadata ≤ Encoding.metadata (latest d).metadata :=
  Nat.add_le_add_left (varint_le_max d.metadata.sequence) _

theorem envelope_le (d : DataEnvelope) : Encoding.envelope d ≤ Encoding.envelope (latest d) :=
  Nat.add_le_add_right (metadata_le d) _

theorem topicSnapshot_le (state : TopicSnapshot) :
    Encoding.topicSnapshot state ≤ Encoding.topicSnapshot (checked state) := by
  unfold Encoding.topicSnapshot checked
  refine Nat.add_le_add_left ?_ _
  cases state.snapshot with
  | none => exact le_refl _
  | some d => exact Nat.add_le_add_left (envelope_le d) 1

/-- The size that `validate` compares with the limit. -/
def checkedSize (runId : String) (state : TopicSnapshot) : Nat :=
  Encoding.item (.update ⟨⟨runId, u64Max⟩, .topicChanged (checked state)⟩)

theorem checkedSize_eq (runId : String) (state : TopicSnapshot) : checkedSize runId state =
    3 + Encoding.cursor ⟨runId, u64Max⟩ + Encoding.topicSnapshot (checked state) := by
  simp only [checkedSize, Encoding.item, Encoding.update]
  omega

variable {runId : String} {state : TopicSnapshot} {item : SubscriptionItem}

theorem Carries.size (h : Carries runId state item) :
    Encoding.item item ≤ checkedSize runId state := by
  have hstate := topicSnapshot_le state
  rw [checkedSize_eq]
  cases h with
  | topic =>
    simp only [Encoding.item]
    omega
  | changed n =>
    have hcursor := cursor_le runId n
    simp only [Encoding.item, Encoding.update]
    omega

theorem reset_size (runId : String) (state : TopicSnapshot) (n : Nat) (reason : ResetReason) :
    Encoding.item (.update ⟨⟨runId, n⟩, .topicReset state.source state.generation reason⟩) ≤
      checkedSize runId state := by
  have hcursor := cursor_le runId n
  have hhealth := health_pos state.health
  rw [checkedSize_eq]
  simp only [Encoding.item, Encoding.update, Encoding.topicSnapshot, checked]
  omega

theorem reply_size {envelope : DataEnvelope} (h : state.snapshot = some envelope) (runId : String) :
    snapshotReply (.ok envelope) ≤ checkedSize runId state := by
  have henvelope := envelope_le envelope
  rw [checkedSize_eq]
  simp only [snapshotReply, Encoding.topicSnapshot, checked, h, Option.map_some,
    Encoding.option] at henvelope ⊢
  omega

theorem refusal_size {reason : UnavailableReason} (h : state.health = .unavailable reason)
    (runId : String) : snapshotReply (.error reason) ≤ checkedSize runId state := by
  rw [checkedSize_eq]
  simp only [snapshotReply, Encoding.topicSnapshot, checked, h, Encoding.health]
  omega

/-- A snapshot frame is shorter than the update that it stands for. -/
theorem frame_size {envelope : DataEnvelope} (hs : state.snapshot = some envelope) {cursor : Option ServiceCursor}
    (hc : ∀ c, cursor = some c → c.runId = runId) {payload : SnapshotPayload}
    (hp : Encoding.snapshotPayload payload ≤
      Encoding.snapshotPayload (.full envelope.payload)) :
    Encoding.item (.snapshot ⟨cursor, envelope.metadata, payload⟩) ≤ checkedSize runId state := by
  have hmetadata := metadata_le envelope
  have hhealth := health_pos state.health
  have hgeneration := varint_pos state.generation
  have hcursor : Encoding.option Encoding.cursor cursor ≤
      1 + Encoding.cursor ⟨runId, u64Max⟩ := by
    cases cursor with
    | none => exact Nat.le_add_right _ _
    | some c =>
      have := cursor_le runId c.sequence
      rw [← hc c rfl] at this ⊢
      exact Nat.add_le_add_left this 1
  have hframe : Encoding.item (.snapshot ⟨cursor, envelope.metadata, payload⟩) =
      2 + (Encoding.option Encoding.cursor cursor + Encoding.metadata envelope.metadata +
        Encoding.snapshotPayload payload) := rfl
  have hfull : Encoding.snapshotPayload (.full envelope.payload) =
      1 + Encoding.str envelope.payload.text := rfl
  have hstate : Encoding.topicSnapshot (checked state) = Encoding.source state.source +
      Encoding.varint state.generation + Encoding.health state.health +
        (1 + (Encoding.metadata (latest envelope).metadata +
          Encoding.str envelope.payload.text)) := by
    simp only [Encoding.topicSnapshot, checked, hs, Option.map_some, Encoding.option]
    rfl
  rw [checkedSize_eq, hframe, hstate]
  omega

variable [Postcard] [Measured] [SerdeJson] [JsonPatch] [Blake3]

/-- `encode` sends a delta only if it is shorter than the full payload. -/
theorem payload_size {base : Option Baseline} {target : DataEnvelope}
    {cache : Option (Hash × JsonPayload)} {payload : SnapshotPayload}
    (h : Delivery.payload base target cache = some payload) : Encoding.snapshotPayload payload ≤
      Encoding.snapshotPayload (.full target.payload) := by
  unfold Delivery.payload at h
  dsimp only at h
  split at h
  · cases h
    exact le_refl _
  · split at h
    · cases h
      exact le_refl _
    · rename_i delta _
      rw [Measured.snapshotPayload, Measured.snapshotPayload] at h
      simp only [Option.some.injEq] at h
      split at h
      · rename_i hlt
        exact h ▸ hlt.le
      · exact h ▸ le_refl _

theorem encodeTopic_size (h : Carries runId state item) {cursor : Option ServiceCursor}
    (hc : ∀ c, cursor = some c → c.runId = runId) {d d' : Delivery}
    {cache : Option (Hash × JsonPayload)} {frame : SubscriptionItem}
    (he : d.encodeTopic item cursor state cache = some (frame, d')) :
    Encoding.item frame ≤ checkedSize runId state := by
  unfold Delivery.encodeTopic at he
  split at he
  · cases he
    exact h.size
  · dsimp only at he
    split at he
    · cases he
      exact h.size
    · rename_i target htarget
      obtain ⟨payload, hpayload, heq⟩ := Option.map_eq_some_iff.mp he
      cases heq
      exact frame_size htarget hc (payload_size hpayload)

theorem encode_size (h : Carries runId state item) {d d' : Delivery}
    {cache : Option (Hash × JsonPayload)} {frame : SubscriptionItem}
    (he : d.encode item cache = some (frame, d')) :
    Encoding.item frame ≤ checkedSize runId state := by
  cases h with
  | topic => exact encodeTopic_size .topic (by simp) he
  | changed n =>
    refine encodeTopic_size (.changed n) (fun c hc => ?_) he
    cases hc
    rfl

/-- A topic that `validate` accepts fits in every frame. -/
theorem checked_fits {limit : Nat} (h : checkedSize runId state ≤ limit) : Deliverable limit runId state where
  plain _ hi := hi.size.trans h
  delivered _ hi _ _ _ _ he := (encode_size hi he).trans h
  reset n reason := (reset_size runId state n reason).trans h
  reply _ hs := (reply_size hs runId).trans h
  refusal _ hr := (refusal_size hr runId).trans h

end sizes

/-! ## What `validate` accepts -/

section publish

variable [Postcard] [Measured] {i : Inner} {key : TopicRef} {t : Topic}

theorem updateFits_size {u : SubscriptionUpdate} (h : i.updateFits u = .ok ()) :
    Encoding.item (.update ⟨⟨i.runId, u64Max⟩, u⟩) ≤ i.messageBytes := by
  unfold Inner.updateFits messageFits at h
  rw [Measured.item] at h
  dsimp only at h
  split at h
  · cases h
  · rename_i hle
    exact Nat.le_of_not_lt hle

omit [Postcard] [Measured] in
/-- The sequence of an update's cursor does not matter. -/
theorem update_size (runId : String) (n : Nat) (u : SubscriptionUpdate) :
    Encoding.item (.update ⟨⟨runId, n⟩, u⟩) ≤ Encoding.item (.update ⟨⟨runId, u64Max⟩, u⟩) := by
  have hcursor := cursor_le runId n
  simp only [Encoding.item]
  omega

theorem validateTopics_size {l : List (TopicRef × Topic)}
    (h : StagedPublication.validateTopics i l = .ok ()) (ht : (key, t) ∈ l) :
    checkedSize i.runId t.state ≤ i.messageBytes := by
  induction l with
  | nil => cases ht
  | cons e l ih =>
    rw [StagedPublication.validateTopics] at h
    split at h
    · cases h
    split at h
    · cases h
    dsimp only at h
    split at h
    · cases h
    rename_i hfits
    rcases List.mem_cons.mp ht with rfl | ht
    · exact updateFits_size hfits
    · exact ih h ht

theorem validateEvents_size {topics : OrdMap TopicRef Topic} {l : List (TopicRef × JsonPayload)}
    {payload : JsonPayload} (h : StagedPublication.validateEvents i topics l = .ok ())
    (he : (key, payload) ∈ l) (ht : topics.get? key = some t) (n m : Nat) :
    Encoding.item (.update ⟨⟨i.runId, n⟩,
      .event ⟨⟨t.state.source, t.state.generation, m⟩, payload⟩⟩) ≤ i.messageBytes := by
  induction l with
  | nil => cases he
  | cons e l ih =>
    obtain ⟨key', payload'⟩ := e
    rw [StagedPublication.validateEvents] at h
    rcases List.mem_cons.mp he with heq | he
    · cases heq
      rw [ht] at h
      dsimp only at h
      split at h
      · cases h
      split at h
      · cases h
      rename_i hfits
      refine (update_size _ n _).trans (le_trans ?_ (updateFits_size hfits))
      have hsequence := varint_le_max m
      simp only [Encoding.item, Encoding.update, Encoding.metadata]
      omega
    · split at h
      · exact ih h he
      split at h
      · cases h
      split at h
      · cases h
      exact ih h he

variable {manifests : List ProviderManifest} {session : Session} {ticket : PollTicket}
  {deadline : Instant} {pending : Pending} {staged : StagedPublication}

omit [Measured] in
theorem validate_parts (h : staged.validate i session = .ok ()) :
    StagedPublication.validateTopics i staged.topics.entries = .ok () ∧
      StagedPublication.validateEvents i staged.topics staged.events = .ok () := by
  unfold StagedPublication.validate at h
  split at h
  · cases h
  rename_i htopics
  split at h
  · cases h
  rename_i hevents
  exact ⟨htopics, hevents⟩

omit [Postcard] [Measured] in
theorem stamp_checked (n : Nat) (t : Topic) : checked (t.stamp n).state = checked t.state := by
  simp only [checked, Topic.stamp, Option.map_map]
  rfl

omit [Postcard] [Measured] in
/-- What is stored of a staged topic is measured as the staged copy was. -/
theorem settled_checked {c : Catalog} {m n : Nat} {info : SessionInfo} {old : Topic}
    (hold : TopicOk c m info key old) (h : StagedOk c info key t) :
    checked (StagedPublication.settled old.state n t).state = checked t.state := by
  cases hc : StagedPublication.changed old.state t.state with
  | true =>
    rw [StagedPublication.settled_changed hc, stamp_checked]
  | false =>
    rw [StagedPublication.settled_same hc]
    simp only [StagedPublication.changed, Bool.or_eq_false_iff, bne_eq_false_iff_eq] at hc
    obtain ⟨⟨hgen, -⟩, hpayload⟩ := hc
    have hsource : old.state.source = t.state.source := hold.source.trans h.source.symm
    cases ho : old.state.snapshot with
    | none =>
      rw [ho] at hpayload
      have hnone : t.state.snapshot = none := Option.map_eq_none_iff.mp hpayload.symm
      simp [checked, hnone]
    | some d =>
      rw [ho] at hpayload
      obtain ⟨d', hd', hp⟩ := Option.map_eq_some_iff.mp hpayload.symm
      obtain ⟨hs, hg, -⟩ := hold.envelope d ho
      obtain ⟨hs', hg'⟩ := h.envelope d' hd'
      have hlatest : latest d = latest d' := by
        simp only [latest, hs, hg, hs', hg', hp, hsource, hgen]
      simp [checked, hd', hlatest]

/-- What an accepted poll announces fits, whatever the sequence is. -/
theorem updates_fit (hp : i.Publishes ticket pending deadline session staged) (m : Nat)
    {u : SubscriptionUpdate} (hu : u ∈ (Inner.transaction pending session staged m).2) (n : Nat) :
    Encoding.item (.update ⟨⟨i.runId, n⟩, u⟩) ≤ i.messageBytes := by
  obtain ⟨htopics, hevents⟩ := validate_parts hp.valid
  have hsize : ∀ key t, staged.topics.get? key = some t →
      checkedSize i.runId t.state ≤ i.messageBytes := fun key t ht =>
    validateTopics_size htopics (OrdMap.get?_eq_some.mp ht)
  rcases List.mem_append.mp hu with hu | hu
  · rcases List.mem_append.mp hu with hu | hu
    · -- The metadata is measured on its own.
      obtain ⟨info, hinfo, rfl⟩ := Option.map_eq_some_iff.mp (Option.mem_toList.mp hu)
      have hc := hp.checked
      unfold Inner.checkPoll at hc
      split at hc
      · cases hc
      split at hc
      · cases hc
      rw [hinfo] at hc
      dsimp only at hc
      split at hc
      · cases hc
      rename_i hfits
      exact (update_size _ n _).trans (updateFits_size hfits)
    · obtain ⟨key, hk, hu⟩ := List.mem_filterMap.mp hu
      obtain ⟨t, ht, rfl⟩ := Option.map_eq_some_iff.mp hu
      exact (reset_size i.runId t.state n _).trans (hsize key t ht)
  · rcases List.mem_append.mp hu with hu | hu
    · rw [StagedPublication.publishTopics_updates staged.topics.sorted (fun _ _ => rfl)] at hu
      obtain ⟨j, hj, rfl⟩ := List.mem_mapIdx.mp hu
      obtain ⟨hmem, -⟩ := List.mem_filter.mp (List.getElem_mem hj)
      refine ((Carries.changed n).size).trans (le_trans (le_of_eq ?_)
        (hsize _ _ (OrdMap.get?_eq_some.mpr hmem)))
      unfold checkedSize
      rw [stamp_checked]
      rfl
    · rw [StagedPublication.eventUpdates_eq] at hu
      obtain ⟨j, hj, rfl⟩ := List.mem_mapIdx.mp hu
      obtain ⟨⟨key, payload⟩, he, hstored⟩ := List.mem_filterMap.mp (List.getElem_mem hj)
      obtain ⟨t', ht', hpair⟩ := Option.map_eq_some_iff.mp hstored
      obtain ⟨t, ht⟩ := hp.prepared.event_staged he
      obtain ⟨-, old, hold, -⟩ := hp.prepared.of_get? ht
      have hget := StagedPublication.publishTopics_stored staged.topics.sorted (fun _ _ => rfl)
        (m + (Inner.opening pending session staged).length) (OrdMap.get?_eq_some.mp ht) hold
      rw [ht'] at hget
      cases hget
      rw [← hpair]
      exact validateEvents_size hevents he ht n _

/-- Every topic that an accepted poll has touched fits. -/
theorem topics_fit [SerdeJson] [JsonPatch] [Blake3] {batch : PollBatch} (h : StoreOk manifests i)
    (hm : batch.manifest ∈ manifests)
    (hp : i.Publishes ticket batch.pending deadline session staged) {op : Operation}
    (hop : op ∈ batch.pending.ops) : ∃ t,
      (Inner.transaction batch.pending session staged i.sequence).1.topics.get? op.key = some t ∧
        Deliverable i.messageBytes i.runId t.state := by
  obtain ⟨t, ht⟩ := hp.prepared.op_staged hop
  obtain ⟨-, old, hold, -⟩ := hp.prepared.of_get? ht
  obtain ⟨m, -, hget, -⟩ := Inner.transaction_staged batch.pending i.sequence ht hold i.runId
  refine ⟨_, hget, checked_fits ?_⟩
  have hok := (h.sessions _ _ hp.found).topics op.key old hold
  unfold checkedSize
  rw [settled_checked hok (h.staged hm hp ht)]
  exact validateTopics_size (validate_parts hp.valid).1 (OrdMap.get?_eq_some.mp ht)

end publish

/-! ## The queues -/

/-- Every queue has the limit of the service. -/
def Capped (i : Inner) : Prop :=
  ∀ id c, i.channels.get? id = some c → c.queue.messageBytes = i.messageBytes

theorem race_messageBytes (c : Channel) : c.race.queue.messageBytes = c.queue.messageBytes := by
  have key : ∀ n (c : Channel), (Channel.nexts n c).queue.messageBytes = c.queue.messageBytes := by
    intro n
    induction n with
    | zero => exact fun _ => rfl
    | succ n ih => exact fun c => (ih c.next).trans c.queue.pop_messageBytes
  exact key _ c

theorem finish_messageBytes (c : Channel) (e : SubscriptionEnd) (d : Bool) :
    (c.finish e d).queue.messageBytes = c.queue.messageBytes := by
  refine Eq.trans ?_ (race_messageBytes c)
  unfold Channel.finish Queue.finish
  dsimp only
  split
  · rfl
  · split <;> rfl

section capped

variable [Postcard] {i : Inner}

theorem offer_messageBytes (c : Channel) (item : SubscriptionItem) :
    (c.offer item).queue.messageBytes = c.queue.messageBytes := by
  refine Eq.trans ?_ (race_messageBytes c)
  unfold Channel.offer Queue.offer
  dsimp only
  split
  · rfl
  · split <;> rfl

omit [Postcard] in
theorem Capped.keep {j : Inner} (h : Capped i) (hj : j.messageBytes = i.messageBytes)
    (hc : ∀ id c, j.channels.get? id = some c → ∃ c₀, i.channels.get? id = some c₀ ∧
      c.queue.messageBytes = c₀.queue.messageBytes) : Capped j := by
  intro id c hget
  obtain ⟨c₀, h₀, heq⟩ := hc id c hget
  rw [heq, hj]
  exact h id c₀ h₀

theorem Capped.announce (h : Capped i) (u : SubscriptionUpdate) : Capped (i.announce u) := by
  refine h.keep rfl fun id c hc => ?_
  simp only [Inner.announce, OrdMap.get?_map] at hc
  obtain ⟨c₀, hc₀, rfl⟩ := Option.map_eq_some_iff.mp hc
  refine ⟨c₀, hc₀, ?_⟩
  split
  · exact offer_messageBytes c₀ _
  · rfl

omit [Postcard] in
theorem Capped.close (h : Capped i) (e : SubscriptionEnd) : Capped (i.close e) := by
  refine h.keep rfl fun id c hc => ?_
  simp only [Inner.close, OrdMap.get?_map] at hc
  obtain ⟨c₀, hc₀, rfl⟩ := Option.map_eq_some_iff.mp hc
  refine ⟨c₀, hc₀, ?_⟩
  split
  · exact finish_messageBytes c₀ e true
  · rfl

omit [Postcard] in
theorem Capped.release (h : Capped i) (p : Subscriber → Bool) : Capped (i.release p) := by
  refine h.keep rfl fun id c hc => ?_
  simp only [Inner.release, OrdMap.get?_map] at hc
  obtain ⟨c₀, hc₀, rfl⟩ := Option.map_eq_some_iff.mp hc
  refine ⟨c₀, hc₀, ?_⟩
  split
  · exact finish_messageBytes c₀ _ _
  · rfl

omit [Postcard] in
/-- One queue changes, but not its limit. -/
theorem Capped.modify (h : Capped i) (n : Nat) {f : Channel → Channel}
    (hf : ∀ c, (f c).queue.messageBytes = c.queue.messageBytes) {id : Nat} {c : Channel}
    (hc : (i.channels.modify n f).get? id = some c) : c.queue.messageBytes = i.messageBytes := by
  rw [OrdMap.get?_modify] at hc
  split at hc
  · obtain ⟨c₀, hc₀, rfl⟩ := Option.map_eq_some_iff.mp hc
    exact (hf c₀).trans (h id c₀ hc₀)
  · exact h id c hc

theorem Capped.stepwise : Stepwise (fun _ => True) fun i j => Capped i → Capped j where
  refl _ := id
  trans h h' := h' ∘ h
  close _ h := h.close _
  announce _ u _ _ h := h.announce u
  advance _ _ _ h := h
  store _ _ _ h := h
  revise _ _ h := h
  observe _ _ h := h
  retain _ _ h := h
  release _ p h := h.release p

theorem Capped.subscribe (h : Capped i) (request : Subscribe) (clock : Readings) (pace : Nat → Nat) :
    Capped (i.subscribe request clock pace).2 := by
  unfold Inner.subscribe
  split
  · exact h
  have he := Capped.stepwise.expire clock.expire i h
  dsimp only
  split
  · exact he
  split
  · exact he
  split
  · exact he
  split
  · exact he
  · rename_i id _
    have hreg : Capped ((i.expire clock.expire).register id request pace) := by
      intro n c hc
      simp only [Inner.register, OrdMap.get?_insert] at hc
      split at hc
      · cases hc
        rfl
      · exact he n c hc
    have hs := Capped.stepwise.settle clock.settle _ hreg
    split
    · rename_i frames _
      exact fun n c hc => hs.modify id
        (f := fun c => { c with queue := c.queue.setInitial frames }) (fun _ => rfl) hc
    · refine Capped.stepwise.settle clock.undo _ fun n c hc => ?_
      simp only [Inner.unregister, OrdMap.get?_erase] at hc
      split at hc
      · cases hc
      · exact hs n c hc

theorem Capped.step [SerdeJson] (h : Capped i) (op : Op) : Capped (step i op) := by
  have hs := Capped.stepwise
  cases op with
  | updateLifecycle status now =>
    exact hs.syncRuntime status now i (fun _ _ _ _ _ => trivial) h
  | subscribe request clock pace => exact h.subscribe request clock pace
  | drop id now => exact hs.drop id now i h
  | commitPoll ticket batch deadline now =>
    exact hs.commitPoll ticket batch deadline now i (fun _ => trivial) h
  | discardPoll ticket resets failed now =>
    exact hs.discardPoll ticket resets failed now i (fun _ => trivial) h
  | expire now => exact hs.expire now i h
  | shutdown => exact h.close _
  | pop id => exact fun n c hc => h.modify id (fun c => c.queue.pop_messageBytes) hc

theorem run_capped [SerdeJson] (h : Capped i) (ops : List Op) : Capped (run i ops) :=
  Runs.run_invariant (G := fun _ => True) (fun _ op _ hj => hj.step op) (fun _ _ => trivial) h

/-- An item that fits does not end a queue for its size. -/
theorem offer_lagged {c : Channel} {item : SubscriptionItem} {size : Nat}
    (hsize : Postcard.item item = some size) (hle : size ≤ c.queue.messageBytes)
    (hitem : ∀ e, item ≠ .closed e)
    (h : .closed (lagged .messageBytes) ∈ (c.offer item).stream) :
    .closed (lagged .messageBytes) ∈ c.stream := by
  rw [← (Channel.consumed_race c).stream]
  rw [← race_messageBytes c] at hle
  unfold Channel.offer Queue.offer at h
  rw [hsize] at h
  dsimp only [Option.getD_some] at h
  split at h
  · exact h
  rename_i hopen
  simp only [Queue.ended, Bool.or_eq_true, Option.isSome_iff_ne_none, ne_eq, not_or, not_not] at hopen
  have hstream : ∀ x, x ∈ c.race.delivered ∨ x ∈ c.race.queue.initial ∨
      x ∈ c.race.queue.updates.map (·.1) → x ∈ c.race.stream := by
    intro x hx
    simp only [Channel.stream, Queue.pending, List.mem_append]
    tauto
  split at h
  · rename_i resource hexceeded
    unfold Queue.exceeded at hexceeded
    rw [if_neg (Nat.not_lt_of_le hle)] at hexceeded
    split at hexceeded
    · cases hexceeded
      simp only [Channel.stream, Queue.pending, Queue.discard, List.mem_append, List.map_nil,
        List.not_mem_nil, or_false, Option.toList_some, Option.map_some, List.mem_singleton] at h
      rcases h with h | h | h
      · exact hstream _ (.inl h)
      · split at h
        · rename_i cursor rest hinitial
          simp at h
        · cases h
      · cases h
    · cases hexceeded
  · simp only [Channel.stream, Queue.pending, List.mem_append, List.map_append, List.map_cons,
      List.map_nil, List.mem_singleton, hopen.1, Option.map_none, Option.toList_none,
      List.not_mem_nil, or_false] at h
    rcases h with h | h | h | h
    · exact hstream _ (.inl h)
    · exact hstream _ (.inr (.inl h))
    · exact hstream _ (.inr (.inr h))
    · exact absurd h.symm (hitem _)

/-- Updates that fit end no queue for their size. -/
theorem emitAll_lagged [Measured] {us : List SubscriptionUpdate} (hcap : Capped i)
    (hfit : ∀ u ∈ us, ∀ n, Encoding.item (.update ⟨⟨i.runId, n⟩, u⟩) ≤ i.messageBytes)
    (hopen : i.stopped = false) (hroom : i.sequence + us.length ≤ u64Max) {id : Nat} {c : Channel}
    (hc : (i.emitAll us).channels.get? id = some c)
    (h : .closed (lagged .messageBytes) ∈ c.stream) :
    ∃ c₀, i.channels.get? id = some c₀ ∧ .closed (lagged .messageBytes) ∈ c₀.stream := by
  induction us generalizing i with
  | nil => exact ⟨c, hc, h⟩
  | cons u us ih =>
    simp only [List.length_cons] at hroom
    rw [Inner.emitAll_cons, Inner.emit_room hopen (by omega)] at hc
    obtain ⟨c₁, hc₁, h₁⟩ := ih (i := i.announce u) (hcap.announce u)
      (fun v hv n => hfit v (List.mem_cons_of_mem _ hv) n) hopen
      (by simp only [Inner.announce]; omega) hc
    simp only [Inner.announce, OrdMap.get?_map] at hc₁
    obtain ⟨c₀, hc₀, rfl⟩ := Option.map_eq_some_iff.mp hc₁
    refine ⟨c₀, hc₀, ?_⟩
    split at h₁
    · refine offer_lagged (Measured.item _) ?_ (by simp) h₁
      rw [hcap id c₀ hc₀]
      exact hfit u List.mem_cons_self _
    · exact h₁

end capped

/-! ## Accepted polls -/

/-- What an accepted poll has published in the service `i` fits. `k` is the service before `settle`. -/
structure Published [Postcard] [SerdeJson] [JsonPatch] [Blake3] (i : Inner) (ticket : PollTicket)
    (ops : List Operation) (session' : Session) (us : List SubscriptionUpdate) (k : Inner) : Prop where
  stored : k.sessions = i.sessions.insert ticket.sessionId session'
  log : k.log = i.log ++ Inner.envelopes i.runId i.sequence us
  updates : ∀ u ∈ us, ∀ n,
    Encoding.item (.update ⟨⟨i.runId, n⟩, u⟩) ≤ i.messageBytes
  topics : ∀ op ∈ ops, ∃ t, session'.topics.get? op.key = some t ∧ Deliverable i.messageBytes i.runId t.state
  /-- No queue has ended for the size of these updates. -/
  lagged : ∀ id c, k.channels.get? id = some c → .closed (lagged .messageBytes) ∈ c.stream →
    ∃ c₀, i.channels.get? id = some c₀ ∧ .closed (lagged .messageBytes) ∈ c₀.stream

theorem new_capped {manifests : List ProviderManifest} {runId : String} {messageBytes : Nat}
    {i : Inner} (h : ServiceState.new manifests runId messageBytes = .ok i) : Capped i := by
  unfold ServiceState.new at h
  split at h
  · cases h
  · cases h
    intro id c hc
    cases hc

/-- Whatever a poll publishes fits in its updates, and, as long as a topic stays as it was published, in
every other frame that is made of it in the rest of the run. -/
theorem accepted_fits [Postcard] [Measured] [SerdeJson] [JsonPatch] [Blake3]
    {manifests : List ProviderManifest} {runId : String} {messageBytes : Nat} {i : Inner}
    (h : ServiceState.new manifests runId messageBytes = .ok i) {ops : List Op}
    (hops : ∀ op ∈ ops, op.Lawful manifests i.catalog) (ticket : PollTicket) {batch : PollBatch}
    (hbatch : batch.manifest ∈ manifests) (deadline now : Instant)
    (hc : ((run i ops).commitPoll ticket batch deadline now).1 = .ok true) :
    ∃ session' us k, Published (run i ops) ticket batch.pending.ops session' us k ∧
      ((run i ops).commitPoll ticket batch deadline now).2 = k.settle now ∧
      ∀ (later : List Op) op t, op ∈ batch.pending.ops → session'.topics.get? op.key = some t →
        ∀ s t', (run (k.settle now) later).sessions.get? ticket.sessionId = some s →
          s.topics.get? op.key = some t' → t'.state = t.state →
            Deliverable (run (k.settle now) later).messageBytes (run (k.settle now) later).runId t'.state := by
  have hsound := run_sound (new_sound h) hops
  have hcapped := run_capped (new_capped h) ops
  generalize run i ops = j at *
  rcases Inner.commitPoll_cases ticket batch deadline now j with
    ⟨r, hr, he⟩ | ⟨-, -, he⟩ | ⟨session, staged, hp, he⟩
  · rw [he] at hc
    exact absurd hc hr
  · rw [he] at hc
    cases hc
  have hsettled := Grows.stepwise.commitPoll ticket batch deadline now j fun _ => trivial
  rw [he] at hsettled
  have ht := hp.transacted (batch.pending.ops.map (Mark.applied ticket.sessionId · deadline))
  have hroom := hp.room
  have hlen := Inner.transaction_length batch.pending session staged j.sequence
  have heq := Inner.transact_eq
    (i := j.record (batch.pending.ops.map (Mark.applied ticket.sessionId · deadline)))
    hp.stopped hp.found hroom
  refine ⟨_, _, _, ⟨ht.sessions, ht.log, fun u hu n => updates_fit hp _ hu n,
    fun op hop => topics_fit hsound.store hbatch hp hop, fun id c hid hlag => ?_⟩, by rw [he], ?_⟩
  · rw [heq] at hid
    exact emitAll_lagged
      (i := (j.record (batch.pending.ops.map (Mark.applied ticket.sessionId · deadline))).put
        (j.sessions.insert ticket.sessionId
          (Inner.transaction batch.pending session staged j.sequence).1))
      hcapped (fun u hu n => updates_fit hp _ hu n) hp.stopped
      (by simp only [Inner.put, Inner.record]; omega) hid hlag
  · intro later op t hop htopic s t' _ _ hstate
    obtain ⟨t₀, h₀, hfits⟩ := topics_fit hsound.store hbatch hp hop
    rw [htopic] at h₀
    cases h₀
    have hgrows := hsettled.trans (run_grows _ later)
    rw [hstate, hgrows.messageBytes, hgrows.runId]
    exact hfits

section examples

open TestSupport

theorem accepted_fits_published : ∃ session' us k,
    Published (run service (published.take 2)) ticket (count 7).pending.ops session' us k := by
  have hops : ∀ op ∈ published.take 2, op.Lawful [manifest] service.catalog := by
    intro op hop
    simp only [published, List.take, List.mem_cons, List.not_mem_nil, or_false] at hop
    rcases hop with rfl | rfl
    · refine ⟨trivial, fun t ht _ _ => ?_⟩
      rw [List.mem_singleton.mp ht]
      exact ⟨_, List.mem_singleton.mpr rfl, rfl⟩
    · exact ⟨trivial, trivial⟩
  have hbatch : (count 7).manifest ∈ [manifest] := List.mem_singleton.mpr rfl
  obtain ⟨session', us, k, hp, -⟩ :=
    accepted_fits new_service hops ticket hbatch (seconds 6) 0 (by decide +kernel)
  exact ⟨session', us, k, hp⟩

end examples

end Transport
end WfObserver
