import WfObserver.Sdk.Validation
import WfObserver.Transport.Delivery

/-!
# Lossless delivery

The baselines of the two sides agree after every frame in flight: `Chain` is the reader that takes
the frames in flight, and `Agree` says that then it has every baseline of the sender. Acknowledgements
only say which baselines the sender may use, so they may come late, or not at all.

A patch also needs a baseline that is older than its target. `Precedes` is what the items of a stream
have for this, and `Fresh` what is left of it for the items still queued.
-/

namespace WfObserver
namespace Transport

open Wire Sdk

/-- What the sender may rely on: the reader has its baselines, or it will never use them. -/
structure Agree (r : Reader) (d : Delivery) : Prop where
  baseline : ∀ key b, d.baselines.get? key = some b →
    if r.deltas then r.baselines.get? key = some b.snapshot else b.acknowledged = false
  topic : ∀ key b, d.baselines.get? key = some b → (ofLex key).2 ∈ d.topics

/-- What the service guarantees of an item: a snapshot has the source and the generation of its topic,
which is available, and its payload is text of `serde_json`. -/
structure Emitted [SerdeJson] (item : SubscriptionItem) : Prop where
  plain : ∀ frame, item ≠ .snapshot frame
  encoded : ∀ t d, topicOf item = some t → t.snapshot = some d → d.payload.Encoded
  whole : ∀ t d, topicOf item = some t → t.snapshot = some d →
    t = ⟨d.metadata.source, d.metadata.generation, .available, some ⟨d.metadata, d.payload⟩⟩

/-- An item with a snapshot is also not longer than a frame. -/
structure Sendable [Postcard] [SerdeJson] (limit : Nat) (item : SubscriptionItem) : Prop
    extends Emitted item where
  size : ∀ t d, topicOf item = some t → t.snapshot = some d →
    ∃ bytes, Postcard.item item = some bytes ∧ bytes ≤ limit

/-- The item's snapshot, if it has one of this topic, is later. -/
def Later (key : SessionRef ×ₗ TopicRef) (sequence : Nat) (item : SubscriptionItem) : Prop :=
  ∀ t d, topicOf item = some t → t.snapshot = some d → baselineKey t.source = key →
    sequence < d.metadata.sequence

/-- The snapshots of two items are in order. -/
def Precedes (item item' : SubscriptionItem) : Prop :=
  ∀ t d, topicOf item = some t → t.snapshot = some d →
    Later (baselineKey t.source) d.metadata.sequence item'

/-- The sender's baselines are older than what is queued. -/
def Fresh (d : Delivery) (queue : List SubscriptionItem) : Prop :=
  ∀ key b, d.baselines.get? key = some b →
    ∀ item ∈ queue, Later key b.snapshot.metadata.sequence item

/-! ## The reader without its checker -/

section reader

variable {r r' : Reader} {item frame : SubscriptionItem}

theorem forget_deltas (item : SubscriptionItem) (r : Reader) : (r.forget item).deltas = r.deltas := by
  unfold Reader.forget
  split <;> rfl

theorem forget_revalidate (item : SubscriptionItem) (v : Validation) (r : Reader) :
    { r with validation := v }.forget item = { r.forget item with validation := v } := by
  unfold Reader.forget
  split <;> rfl

variable [Blake3]

theorem keep_deltas (item : SubscriptionItem) (acknowledged : Bool) (r : Reader) :
    (r.keep item acknowledged).deltas = r.deltas := by
  unfold Reader.keep Reader.install
  split
  · exact forget_deltas item r
  split
  · exact forget_deltas item r
  · split <;> exact forget_deltas item r

theorem keep_revalidate (item : SubscriptionItem) (acknowledged : Bool) (v : Validation) (r : Reader) :
    { r with validation := v }.keep item acknowledged =
      { r.keep item acknowledged with validation := v } := by
  unfold Reader.keep
  rw [forget_revalidate]
  unfold Reader.install
  split
  · rfl
  split
  · rfl
  · dsimp only
    split <;> rfl

/-- A reader without deltas has nothing to acknowledge. -/
theorem keep_silent (hd : r.deltas = false) (hp : r.pendingAck = none) (acknowledged : Bool) :
    (r.keep item acknowledged).pendingAck = none := by
  have hforget : (r.forget item).pendingAck = r.pendingAck := by
    unfold Reader.forget
    split <;> rfl
  unfold Reader.keep Reader.install
  split
  · exact hforget.trans hp
  split
  · exact hforget.trans hp
  · rw [forget_deltas, hd, Bool.and_false]
    exact hforget.trans hp

variable [Postcard] [SerdeJson] [JsonPatch]

/-- What the reader does with a frame that stands for this item, but for its checker. -/
def Takes (limit : Nat) (r : Reader) (item frame : SubscriptionItem) (r' : Reader) : Prop :=
  r.resolve limit frame = .ok item ∧ r' = (r.keep item (Reader.isSnapshot frame)).acknowledge.2

theorem Takes.deltas {limit : Nat} (h : Takes limit r item frame r') : r'.deltas = r.deltas := by
  rw [h.2]
  exact keep_deltas item _ r

/-- The checker has no part in it. -/
theorem Takes.revalidate {limit : Nat} (h : Takes limit r item frame r') (v : Validation) :
    Takes limit { r with validation := v } item frame { r' with validation := v } := by
  refine ⟨?_, ?_⟩
  · rw [← h.1]
    cases frame <;> rfl
  · rw [h.2, keep_revalidate item _ v r]
    rfl

/-- What is left to the checker. -/
theorem Takes.next {limit : Nat} (h : Takes limit r item frame r') :
    r.next limit (.item frame) = match r.validation.accept item with
      | .error error => .error (.client error)
      | .ok validation =>
        .ok (item, { r with validation }.keep item (Reader.isSnapshot frame)) := by
  have hdecode : decode (.item frame) r.validation.begun = .ok frame := rfl
  cases haccept : r.validation.accept item <;> simp only [Reader.next, hdecode, h.1, haccept]

/-- The reader takes frames as these items, one after the other. -/
def Chain (limit : Nat) : Reader → List (SubscriptionItem × SubscriptionItem) → Reader → Prop
  | r, [], r' => r' = r
  | r, (item, frame) :: rest, r'' => ∃ r', Takes limit r item frame r' ∧ Chain limit r' rest r''

theorem Chain.snoc {limit : Nat} {r'' : Reader} {pairs : List (SubscriptionItem × SubscriptionItem)}
    (h : Chain limit r pairs r') (ht : Takes limit r' item frame r'') :
    Chain limit r (pairs ++ [(item, frame)]) r'' := by
  induction pairs generalizing r with
  | nil =>
    obtain rfl : r' = r := h
    exact ⟨r'', ht, rfl⟩
  | cons p pairs ih =>
    obtain ⟨r₁, h₁, h₂⟩ := h
    exact ⟨r₁, h₁, ih h₂⟩

theorem Chain.revalidate {limit : Nat} {pairs : List (SubscriptionItem × SubscriptionItem)}
    (h : Chain limit r pairs r') (v : Validation) :
    Chain limit { r with validation := v } pairs { r' with validation := v } := by
  induction pairs generalizing r with
  | nil =>
    obtain rfl : r' = r := h
    rfl
  | cons p pairs ih =>
    obtain ⟨r₁, h₁, h₂⟩ := h
    exact ⟨_, h₁.revalidate v, ih h₂⟩

end reader

/-! ## One frame -/

section frame

variable {r r' : Reader} {d d' : Delivery} {item : SubscriptionItem}

/-- Without baselines there is nothing to agree on. -/
theorem Agree.empty (h : d.baselines = ∅) : Agree r d :=
  ⟨fun key b hb => by simp [h] at hb, fun key b hb => by simp [h] at hb⟩

/-- Both sides keep these baselines. -/
theorem Agree.keep (h : Agree r d) (hdeltas : r'.deltas = r.deltas) (htopics : d'.topics = d.topics)
    (hkeep : ∀ key b, d'.baselines.get? key = some b → d.baselines.get? key = some b ∧
      r'.baselines.get? key = r.baselines.get? key) : Agree r' d' := by
  refine ⟨fun key b hb => ?_, fun key b hb => ?_⟩ <;> obtain ⟨hold, hsame⟩ := hkeep key b hb
  · rw [hdeltas, hsame]
    exact h.baseline key b hold
  · rw [htopics]
    exact h.topic key b hold

/-- Both sides store the snapshot. -/
theorem Agree.insert (h : Agree r' d) (key : SessionRef ×ₗ TopicRef) (snapshot : DataEnvelope)
    (hbase : r'.deltas = true → r'.baselines.get? key = some snapshot)
    (htopic : (ofLex key).2 ∈ d.topics) :
    Agree r' { d with baselines := d.baselines.insert key ⟨snapshot, false⟩ } := by
  have hcase : ∀ key' b, (d.baselines.insert key ⟨snapshot, false⟩).get? key' = some b →
      key' = key ∧ b = ⟨snapshot, false⟩ ∨ d.baselines.get? key' = some b := by
    intro key' b hb
    rw [OrdMap.get?_insert] at hb
    split at hb
    · rename_i heq
      cases hb
      exact .inl ⟨heq, rfl⟩
    · exact .inr hb
  refine ⟨fun key' b hb => ?_, fun key' b hb => ?_⟩ <;> rcases hcase key' b hb with ⟨rfl, rfl⟩ | hold
  · split
    · rename_i hd
      exact hbase hd
    · rfl
  · exact h.baseline key' b hold
  · exact htopic
  · exact h.topic key' b hold

variable [Blake3]

theorem Agree.acknowledge (h : Agree r d) (hd : r.deltas = true) (ack : SnapshotAck) :
    Agree r (d.acknowledge ack) ∧ ∀ queue, Fresh d queue → Fresh (d.acknowledge ack) queue := by
  have hget : ∀ key b, (d.acknowledge ack).baselines.get? key = some b →
      ∃ b₀, d.baselines.get? key = some b₀ ∧ b.snapshot = b₀.snapshot := by
    intro key b hb
    simp only [Delivery.acknowledge, OrdMap.get?_modify] at hb
    split at hb
    · obtain ⟨b₀, hb₀, rfl⟩ := Option.map_eq_some_iff.mp hb
      refine ⟨b₀, hb₀, ?_⟩
      split <;> rfl
    · exact ⟨b, hb, rfl⟩
  refine ⟨⟨fun key b hb => ?_, fun key b hb => ?_⟩, fun queue hf key b hb => ?_⟩ <;>
    obtain ⟨b₀, hb₀, hsame⟩ := hget key b hb
  · have hold := h.baseline key b₀ hb₀
    rw [if_pos hd] at hold ⊢
    rw [hsame]
    exact hold
  · exact h.topic key b₀ hb₀
  · rw [hsame]
    exact hf key b₀ hb₀

variable [Postcard] [SerdeJson] [JsonPatch]

/-- An item that is sent as it is. -/
theorem takes_plain {limit : Nat} (h : ∀ frame, item ≠ .snapshot frame) :
    Takes limit r item item (r.keep item false).acknowledge.2 := by
  cases item with
  | snapshot frame => exact absurd rfl (h frame)
  | _ => exact ⟨rfl, rfl⟩

/-- The payload that the sender chose leads the reader to the snapshot. -/
theorem restore_payload (laws : JsonLaws) (h : Agree r d) {key : SessionRef ×ₗ TopicRef}
    {target : DataEnvelope} {cache : Option (Hash × JsonPayload)} (hcache : target.payload.Caches cache)
    (hencoded : target.payload.Encoded)
    (hlater : ∀ b, d.baselines.get? key = some b →
      b.snapshot.metadata.sequence < target.metadata.sequence)
    {payload : SnapshotPayload}
    (hp : Delivery.payload (d.baselines.get? key) target cache = some payload) :
    payload.restore target.metadata (r.baselines.get? key) = .ok target.payload := by
  unfold Delivery.payload at hp
  dsimp only at hp
  split at hp
  · cases hp
    rfl
  rename_i base hbase
  obtain ⟨hget, huse⟩ := Option.filter_eq_some_iff.mp hbase
  simp only [Bool.and_eq_true, beq_iff_eq] at huse
  obtain ⟨⟨hacked, hsource⟩, hgeneration⟩ := huse
  split at hp
  · cases hp
    rfl
  rename_i delta hdelta
  split at hp
  · cases hp
    split
    · -- An acknowledged baseline is one that the reader has.
      have hread : r.baselines.get? key = some base.snapshot := by
        have hb := h.baseline key base hget
        split at hb
        · exact hb
        · rw [hacked] at hb
          cases hb
      rw [hread]
      exact SnapshotPayload.restore_between laws hcache hsource hgeneration (hlater base hget)
        hencoded hdelta
    · rfl
  · cases hp

/-- The frame of a topic state. -/
theorem encodeTopic_takes (laws : JsonLaws) {limit : Nat} (h : Agree r d) (hs : Sendable limit item)
    {bases : List JsonPayload} {t : TopicSnapshot} {cursor : Option ServiceCursor}
    (htopic : topicOf item = some t)
    (hitem : item = match cursor with
      | none => .topic t
      | some cursor => .update ⟨cursor, .topicChanged t⟩)
    (hlater : ∀ b, d.baselines.get? (baselineKey t.source) = some b →
      Later (baselineKey t.source) b.snapshot.metadata.sequence item)
    {frame : SubscriptionItem}
    (he : d.encodeTopic item cursor t (cellOf item bases) = some (frame, d')) :
    ∃ r', Takes limit r item frame r' ∧ Agree r' d' := by
  have hforget : r.forget item = r := by
    subst hitem
    cases cursor <;> rfl
  have hbase : ∀ acknowledged, ((r.keep item acknowledged).acknowledge.2).baselines =
      (r.install (some t) acknowledged).baselines := by
    intro acknowledged
    simp only [Reader.acknowledge, Reader.keep, htopic, hforget]
  have hdeltas : ∀ acknowledged, ((r.keep item acknowledged).acknowledge.2).deltas = r.deltas :=
    fun acknowledged => keep_deltas item acknowledged r
  unfold Delivery.encodeTopic at he
  dsimp only at he
  split at he
  · -- The topic is not sent as patches: the sender has no baseline for it.
    rename_i hplain
    cases he
    have hnot : t.source.topic ∉ d.topics := by simpa using hplain
    refine ⟨_, takes_plain hs.plain, h.keep (hdeltas _) rfl fun key b hb => ⟨hb, ?_⟩⟩
    have hne : key ≠ baselineKey t.source := by
      rintro rfl
      exact hnot (h.topic _ b hb)
    rw [hbase]
    unfold Reader.install
    dsimp only
    split
    · simp only [OrdMap.get?_erase_ne _ hne]
    · rfl
  rename_i hmem
  have hmem : t.source.topic ∈ d.topics := by simpa using hmem
  split at he
  · -- The topic has no snapshot any more: both sides drop its baseline.
    rename_i hnone
    cases he
    refine ⟨_, takes_plain hs.plain, h.keep (hdeltas _) rfl fun key b hb => ?_⟩
    simp only [OrdMap.get?_erase] at hb
    split at hb
    · cases hb
    · rename_i hne
      refine ⟨hb, ?_⟩
      rw [hbase]
      simp only [Reader.install, hnone, OrdMap.get?_erase_ne _ hne]
  · rename_i target htarget
    obtain ⟨payload, hpayload, heq⟩ := Option.map_eq_some_iff.mp he
    cases heq
    have hwhole := hs.whole t target htopic htarget
    have hsource : baselineKey target.metadata.source = baselineKey t.source := by rw [hwhole]
    obtain ⟨bytes, hbytes, hsize⟩ := hs.size t target htopic htarget
    have hcache : target.payload.Caches (cellOf item bases) := by
      rw [cellOf, htopic, Option.bind_some, htarget, Option.bind_some]
      exact target.payload.caches_cell bases
    -- The reader reconstructs the item.
    have hresolve : r.resolve limit (.snapshot ⟨cursor, target.metadata, payload⟩) = .ok item := by
      have hrestore := restore_payload laws h hcache (hs.encoded t target htopic htarget)
        (fun b hb => hlater b hb t target htopic htarget rfl) hpayload
      have hreconstruct : (SnapshotFrame.mk cursor target.metadata payload).reconstruct
          (r.baselines.get? (baselineKey target.metadata.source)) = .ok item := by
        rw [SnapshotFrame.reconstruct, hsource, hrestore, hitem]
        cases cursor with
        | none => simp only [Except.map, SnapshotFrame.item, ← hwhole]
        | some cursor => simp only [Except.map, SnapshotFrame.item, ← hwhole]
      unfold Reader.resolve
      dsimp only
      rw [hreconstruct]
      simp only [hbytes, if_neg (Nat.not_lt.mpr hsize)]
    refine ⟨_, ⟨hresolve, rfl⟩, ?_⟩
    -- Both sides store it; the other baselines stay.
    have hinstall : ∀ key, key ≠ baselineKey t.source →
        ((r.keep item true).acknowledge.2).baselines.get? key = r.baselines.get? key := by
      intro key hne
      rw [hbase]
      simp only [Reader.install, htarget]
      split
      · simp only [OrdMap.get?_insert_ne _ _ hne]
      · rfl
    have hrest : Agree (r.keep item true).acknowledge.2
        { d with baselines := d.baselines.erase (baselineKey t.source) } := by
      refine h.keep (hdeltas _) rfl fun key b hb => ?_
      simp only [OrdMap.get?_erase] at hb
      split at hb
      · cases hb
      · rename_i hne
        exact ⟨hb, hinstall key hne⟩
    have hinsert := hrest.insert (baselineKey t.source) target (fun hd => ?_) hmem
    · simpa only [Reader.isSnapshot, OrdMap.insert_erase] using hinsert
    · have hd : r.deltas = true := (hdeltas true).symm.trans hd
      rw [hbase]
      simp [Reader.install, htarget, hd]

/-- Whatever the sender makes of an item, the reader takes it as the item, and both agree again. -/
theorem encode_takes (laws : JsonLaws) {limit : Nat} (h : Agree r d) (hs : Sendable limit item)
    (hfresh : Fresh d [item]) {bases : List JsonPayload} {frame : SubscriptionItem}
    (he : d.encode item (cellOf item bases) = some (frame, d')) :
    ∃ r', Takes limit r item frame r' ∧ Agree r' d' := by
  -- An item that carries no topic state goes through as it is.
  have hpass : topicOf item = none → frame = item → d'.topics = d.topics →
      (∀ key b, d'.baselines.get? key = some b → d.baselines.get? key = some b ∧
        (r.forget item).baselines.get? key = r.baselines.get? key) →
      ∃ r', Takes limit r item frame r' ∧ Agree r' d' := by
    rintro hnone rfl htopics hkeep
    refine ⟨_, takes_plain hs.plain, h.keep (keep_deltas frame false r) htopics fun key b hb => ?_⟩
    obtain ⟨hold, hsame⟩ := hkeep key b hb
    refine ⟨hold, ?_⟩
    rw [← hsame]
    simp only [Reader.acknowledge, Reader.keep, hnone, Reader.install]
  have hlater : ∀ t : TopicSnapshot, ∀ b, d.baselines.get? (baselineKey t.source) = some b →
      Later (baselineKey t.source) b.snapshot.metadata.sequence item :=
    fun t b hb => hfresh _ b hb item (List.mem_singleton.mpr rfl)
  cases item with
  | topic t => exact encodeTopic_takes laws h hs rfl rfl (hlater t) he
  | update envelope =>
    obtain ⟨cursor, u⟩ := envelope
    cases u with
    | topicChanged t => exact encodeTopic_takes laws h hs rfl rfl (hlater t) he
    | topicReset source generation reason =>
      cases he
      refine hpass rfl rfl rfl fun key b hb => ?_
      simp only [OrdMap.get?_erase] at hb
      split at hb
      · cases hb
      · rename_i hne
        exact ⟨hb, OrdMap.get?_erase_ne _ hne⟩
    | sessionEnded session reason =>
      cases he
      refine hpass rfl rfl rfl fun key b hb => ?_
      obtain ⟨hold, hne⟩ := OrdMap.get?_filter_some.mp hb
      refine ⟨hold, ?_⟩
      simp only [Reader.forget]
      rw [OrdMap.get?_filter]
      cases r.baselines.get? key with
      | none => rfl
      | some x => rw [Option.filter, if_pos hne]
    | _ =>
      cases he
      exact hpass rfl rfl rfl fun key b hb => ⟨hb, rfl⟩
  | snapshot frame => exact absurd rfl (hs.plain frame)
  | _ =>
    cases he
    exact hpass rfl rfl rfl fun key b hb => ⟨hb, rfl⟩

/-- A baseline of the sender is an old one or the item's snapshot. -/
theorem encode_baseline {cache : Option (Hash × JsonPayload)} {frame : SubscriptionItem}
    (he : d.encode item cache = some (frame, d')) {key : SessionRef ×ₗ TopicRef} {b : Baseline}
    (hb : d'.baselines.get? key = some b) : d.baselines.get? key = some b ∨
      ∃ t, topicOf item = some t ∧ t.snapshot = some b.snapshot ∧ baselineKey t.source = key := by
  have htopic : ∀ cursor t, topicOf item = some t →
      d.encodeTopic item cursor t cache = some (frame, d') → d.baselines.get? key = some b ∨
        ∃ t, topicOf item = some t ∧ t.snapshot = some b.snapshot ∧ baselineKey t.source = key := by
    intro cursor t ht he
    unfold Delivery.encodeTopic at he
    dsimp only at he
    split at he
    · cases he
      exact .inl hb
    split at he
    · cases he
      simp only [OrdMap.get?_erase] at hb
      split at hb
      · cases hb
      · exact .inl hb
    · rename_i target htarget
      obtain ⟨payload, -, heq⟩ := Option.map_eq_some_iff.mp he
      cases heq
      simp only [OrdMap.get?_insert] at hb
      split at hb
      · rename_i hkey
        cases hb
        exact .inr ⟨t, ht, htarget, hkey.symm⟩
      · exact .inl hb
  cases item with
  | topic t => exact htopic _ t rfl he
  | update envelope =>
    obtain ⟨cursor, u⟩ := envelope
    cases u with
    | topicChanged t => exact htopic _ t rfl he
    | topicReset source generation reason =>
      cases he
      simp only [OrdMap.get?_erase] at hb
      split at hb
      · cases hb
      · exact .inl hb
    | sessionEnded session reason =>
      cases he
      exact .inl (OrdMap.get?_filter_some.mp hb).1
    | _ =>
      cases he
      exact .inl hb
  | _ =>
    cases he
    exact .inl hb

/-- What is still queued is later than the item that was sent. -/
theorem Fresh.encode {cache : Option (Hash × JsonPayload)} {frame : SubscriptionItem}
    {queue : List SubscriptionItem} (h : Fresh d (item :: queue))
    (hitem : ∀ x ∈ queue, Precedes item x) (he : d.encode item cache = some (frame, d')) :
    Fresh d' queue := by
  intro key b hb x hx
  rcases encode_baseline he hb with hold | ⟨t, ht, hs, rfl⟩
  · exact h key b hold x (List.mem_cons_of_mem _ hx)
  · exact hitem x hx t b.snapshot ht hs

end frame

/-! ## The connection -/

section link

variable [Blake3] [Postcard] [SerdeJson] [JsonPatch] {limit : Nat} {selection : Subscribe}
  {items : List SubscriptionItem} {l : Link}

/-- What is received, what the frames in flight stand for and what is queued are items of the
connection, in their order. -/
structure Flowing (limit : Nat) (items : List SubscriptionItem) (l : Link) : Prop where
  flight : ∃ pairs r', l.frames = pairs.map Prod.snd ∧ Chain limit l.reader pairs r' ∧
    Agree r' l.delivery ∧ r'.deltas = l.reader.deltas ∧
    l.received ++ pairs.map Prod.fst ++ l.queue <+: items
  fresh : Fresh l.delivery l.queue
  silent : l.reader.deltas = false → l.acks = []
  pending : l.reader.pendingAck = none
  failure : l.failure = none

/-- The checker did not accept the next item, as it was sent. -/
def Refused (items : List SubscriptionItem) (l : Link) : Prop :=
  ∃ item why, l.received ++ [item] <+: items ∧ l.reader.validation.accept item = .error why ∧
    l.failure = some (.client why)

/-- The invariant of a connection that has these items. -/
structure LinkOk (limit : Nat) (selection : Subscribe) (items : List SubscriptionItem) (l : Link) :
    Prop where
  accepted : (Validation.new selection).acceptAll l.received = .ok l.reader.validation
  state : Flowing limit items l ∨ Refused items l

theorem Flowing.queued (h : Flowing limit items l) : l.queue <:+: items := by
  obtain ⟨pairs, r', -, -, -, -, rest, hrest⟩ := h.flight
  exact ⟨_, rest, hrest⟩

theorem Flowing.send (laws : JsonLaws) (h : Flowing limit items l)
    (hs : ∀ item ∈ items, Sendable limit item) (hord : items.Pairwise Precedes)
    (bases : List JsonPayload) : Flowing limit items (l.step limit (.send bases)) := by
  have hqueued := h.queued
  obtain ⟨pairs, r', hframes, hchain, hagree, hdeltas, hitems⟩ := h.flight
  unfold Link.step
  dsimp only
  split
  · exact h
  rename_i item queue hqueue
  split
  · refine ⟨⟨pairs, r', hframes, hchain, hagree, hdeltas, ?_⟩, fun key b _ x hx => ?_, h.silent,
      h.pending, h.failure⟩
    · rw [List.append_nil]
      exact (List.prefix_append _ _).trans hitems
    · cases hx
  rename_i frame delivery hencode
  rw [hqueue] at hqueued hitems
  have hfresh : Fresh l.delivery (item :: queue) := hqueue ▸ h.fresh
  have hone : Fresh l.delivery [item] := fun key b hb x hx =>
    hfresh key b hb x (List.mem_singleton.mp hx ▸ List.mem_cons_self)
  obtain ⟨r'', htakes, hagree'⟩ := encode_takes laws hagree
    (hs item (hqueued.subset List.mem_cons_self)) hone hencode
  refine ⟨⟨pairs ++ [(item, frame)], r'', by simp [hframes], hchain.snoc htakes, hagree',
    htakes.deltas.trans hdeltas, ?_⟩, hfresh.encode ?_ hencode, h.silent, h.pending, h.failure⟩
  · simpa using hitems
  · exact (List.pairwise_cons.mp (hord.sublist hqueued.sublist)).1

theorem LinkOk.read (h : LinkOk limit selection items l) (hf : Flowing limit items l) :
    LinkOk limit selection items (l.step limit .read) := by
  obtain ⟨pairs, r', hframes, hchain, hagree, hdeltas, hitems⟩ := hf.flight
  unfold Link.step
  rw [hf.failure]
  cases pairs with
  | nil =>
    rw [hframes]
    exact h
  | cons p pairs =>
    obtain ⟨item, frame⟩ := p
    rw [hframes, List.map_cons]
    obtain ⟨r₁, htakes, hchain⟩ := hchain
    dsimp only
    rw [htakes.next]
    have hitems : l.received ++ [item] ++ (pairs.map Prod.fst ++ l.queue) <+: items := by
      simpa using hitems
    cases haccept : l.reader.validation.accept item with
    | error why =>
      exact ⟨h.accepted, .inr ⟨item, why, (List.prefix_append _ _).trans hitems, haccept, rfl⟩⟩
    | ok v =>
      dsimp only [Reader.acknowledge]
      -- The reader is the one that took the frame, but for its checker.
      have hr₁ : { ({ l.reader with validation := v }.keep item (Reader.isSnapshot frame)) with
          pendingAck := none } = { r₁ with validation := v } := by
        rw [keep_revalidate item _ v l.reader, htakes.2]
        rfl
      have hr₁' : ({ l.reader with validation := v }.keep item (Reader.isSnapshot frame)).deltas =
          l.reader.deltas := keep_deltas item _ _
      refine ⟨?_, .inl ⟨⟨pairs, { r' with validation := v }, rfl, ?_, hagree.keep rfl rfl
        fun key b hb => ⟨hb, rfl⟩, hdeltas.trans hr₁'.symm, ?_⟩, hf.fresh, fun hd => ?_, rfl, rfl⟩⟩
      · rw [Validation.acceptAll_append, h.accepted]
        simp only [Except.bind, Validation.acceptAll_cons, haccept, keep_revalidate item _ v l.reader]
        rfl
      · rw [hr₁]
        exact hchain.revalidate v
      · simpa using hitems
      · have hd : l.reader.deltas = false := hr₁'.symm.trans hd
        rw [hf.silent hd, keep_silent (r := { l.reader with validation := v }) hd hf.pending]
        rfl

theorem Flowing.acknowledge (h : Flowing limit items l) :
    Flowing limit items (l.step limit .acknowledge) := by
  obtain ⟨pairs, r', hframes, hchain, hagree, hdeltas, hitems⟩ := h.flight
  unfold Link.step
  dsimp only
  split
  · exact h
  rename_i ack acks hacks
  have hd : l.reader.deltas = true := by
    by_contra hd
    rw [h.silent (by simpa using hd)] at hacks
    cases hacks
  obtain ⟨hagree, hfresh⟩ := hagree.acknowledge (hdeltas.trans hd) ack
  refine ⟨⟨pairs, r', hframes, hchain, hagree, hdeltas, hitems⟩, hfresh _ h.fresh, fun hf => ?_,
    h.pending, h.failure⟩
  rw [hd] at hf
  cases hf

theorem Flowing.silence (h : Flowing limit items l) : Flowing limit items (l.step limit .silence) := by
  obtain ⟨pairs, r', hframes, hchain, -, hdeltas, hitems⟩ := h.flight
  exact ⟨⟨pairs, r', hframes, hchain, .empty rfl, hdeltas, hitems⟩,
    fun key b hb => by simp [Link.step, Delivery.silence] at hb, h.silent, h.pending, h.failure⟩

/-- Only a read has to do with the reader. -/
theorem Link.step_reader {move : Move} (h : move = .read → l.failure ≠ none) :
    (l.step limit move).received = l.received ∧ (l.step limit move).reader = l.reader ∧
      (l.step limit move).failure = l.failure := by
  unfold Link.step
  cases move with
  | send bases =>
    dsimp only
    split
    · exact ⟨rfl, rfl, rfl⟩
    · split <;> exact ⟨rfl, rfl, rfl⟩
  | read =>
    dsimp only
    split
    · rename_i hnone _
      exact absurd hnone (h rfl)
    · exact ⟨rfl, rfl, rfl⟩
  | acknowledge =>
    dsimp only
    split <;> exact ⟨rfl, rfl, rfl⟩
  | silence => exact ⟨rfl, rfl, rfl⟩

/-- Every step of either side keeps the invariant. -/
theorem LinkOk.step (laws : JsonLaws) (h : LinkOk limit selection items l)
    (hs : ∀ item ∈ items, Sendable limit item) (hord : items.Pairwise Precedes) (move : Move) :
    LinkOk limit selection items (l.step limit move) := by
  have hidle : (move = .read → l.failure ≠ none) →
      (Validation.new selection).acceptAll (l.step limit move).received =
        .ok (l.step limit move).reader.validation := by
    intro hmove
    obtain ⟨hreceived, hreader, -⟩ := Link.step_reader (l := l) hmove
    rw [hreceived, hreader]
    exact h.accepted
  rcases h.state with hf | ⟨item, why, hp, hwhy, hfailure⟩
  · cases move with
    | send bases => exact ⟨hidle (by simp), .inl (hf.send laws hs hord bases)⟩
    | read => exact h.read hf
    | acknowledge => exact ⟨hidle (by simp), .inl hf.acknowledge⟩
    | silence => exact ⟨hidle (by simp), .inl hf.silence⟩
  · -- Nothing is read any more.
    have hmove : move = .read → l.failure ≠ none := fun _ => by simp [hfailure]
    obtain ⟨hreceived, hreader, hsame⟩ := Link.step_reader (l := l) hmove
    refine ⟨hidle hmove, .inr ⟨item, why, ?_, ?_, hsame.trans hfailure⟩⟩
    · rw [hreceived]
      exact hp
    · rw [hreader]
      exact hwhy

/-- A new connection. -/
theorem linkOk_new (limit : Nat) (selection : Subscribe) (deltas : Bool)
    (items : List SubscriptionItem) (topics : List TopicRef) :
    LinkOk limit selection items (Link.new items topics (.new selection deltas)) :=
  ⟨rfl, .inl ⟨⟨[], _, rfl, rfl, .empty rfl, rfl, List.prefix_refl _⟩,
    fun key b hb => by simp [Link.new] at hb, fun _ => rfl, rfl, rfl⟩⟩

theorem run_linkOk (laws : JsonLaws) (h : LinkOk limit selection items l)
    (hs : ∀ item ∈ items, Sendable limit item) (hord : items.Pairwise Precedes) (moves : List Move) :
    LinkOk limit selection items (l.run limit moves) :=
  Runs.run_invariant (G := fun _ => True) (fun _ move _ h => h.step laws hs hord move)
    (fun _ _ => trivial) h

/-- What was received is what the service emitted. -/
theorem LinkOk.received (h : LinkOk limit selection items l) : l.received <+: items := by
  rcases h.state with hf | ⟨item, why, hp, -⟩
  · obtain ⟨pairs, r', -, -, -, -, hp⟩ := hf.flight
    rw [List.append_assoc] at hp
    exact (List.prefix_append _ _).trans hp
  · exact (List.prefix_append _ _).trans hp

end link

end Transport
end WfObserver
