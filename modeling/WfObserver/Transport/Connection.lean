import Mathlib
import WfObserver.Protocol.Patches
import WfObserver.Sdk.Agreement
import WfObserver.Service.Payloads
import WfObserver.Service.Queues
import WfObserver.Service.TestSupport
import WfObserver.Transport.Lossless

/-!
# The connections of a run

What a subscription of a run delivers is what `Transport.Lossless` asks of a connection's items: every
snapshot is its topic's (`recount_emitted`), and the snapshots of a topic come in the order of their
sequences (`recount_precedes`). Then the client receives what the subscription delivers.
-/

namespace WfObserver
namespace Transport

open Wire Protocol Service Sdk

/-! ## The items of a stream -/

section recount

variable {runId : String} {n : Nat} {sel : Subscribe} {R T : Replica} {item : SubscriptionItem}

theorem precedes_left {a : SubscriptionItem} (h : topicOf a = none) (b : SubscriptionItem) :
    Precedes a b := fun t d ht => by rw [h] at ht; cases ht

theorem precedes_right (a : SubscriptionItem) {b : SubscriptionItem} (h : topicOf b = none) :
    Precedes a b := fun _ _ _ _ t d ht => by rw [h] at ht; cases ht

/-- A topic that an update leaves was there, has no snapshot, or is the update's. -/
theorem apply_topics {e : UpdateEnvelope} {id : String} {s : Seen} {key : TopicRef} {t : TopicSnapshot}
    (hs : (apply R e).get? id = some s) (ht : s.topics.get? key = some t) :
    (∃ s₀, R.get? id = some s₀ ∧ s₀.topics.get? key = some t) ∨ t.snapshot = none ∨
      e.update = .topicChanged t := by
  have hinstall : ∀ id' key' t', (R.modify id' (·.install key' t')).get? id = some s →
      (∃ s₀, R.get? id = some s₀ ∧ s₀.topics.get? key = some t) ∨ t = t' := by
    intro id' key' t' hs
    rw [OrdMap.get?_modify] at hs
    split at hs
    · obtain ⟨s₀, hs₀, rfl⟩ := Option.map_eq_some_iff.mp hs
      simp only [Seen.install, OrdMap.get?_insert] at ht
      split at ht
      · exact .inr (Option.some.inj ht).symm
      · exact .inl ⟨s₀, hs₀, ht⟩
    · exact .inl ⟨s, hs, ht⟩
  unfold apply at hs
  cases hu : e.update with
  | sessionStarted info =>
    rw [hu] at hs
    simp only [OrdMap.get?_insert] at hs
    split at hs
    · cases hs
      simp at ht
    · exact .inl ⟨s, hs, ht⟩
  | sessionChanged info =>
    rw [hu] at hs
    simp only [OrdMap.get?_modify] at hs
    split at hs
    · obtain ⟨s₀, hs₀, rfl⟩ := Option.map_eq_some_iff.mp hs
      exact .inl ⟨s₀, hs₀, ht⟩
    · exact .inl ⟨s, hs, ht⟩
  | sessionEnded session reason =>
    rw [hu] at hs
    simp only [OrdMap.get?_erase] at hs
    split at hs
    · cases hs
    · exact .inl ⟨s, hs, ht⟩
  | topicReset source generation reason =>
    rw [hu] at hs
    rcases hinstall _ _ _ hs with hold | rfl
    · exact .inl hold
    · exact .inr (.inl rfl)
  | topicChanged t' =>
    rw [hu] at hs
    rcases hinstall _ _ _ hs with hold | rfl
    · exact .inl hold
    · exact .inr (.inr rfl)
  | event event =>
    rw [hu] at hs
    exact .inl ⟨s, hs, ht⟩

/-- What a replica holds was told. -/
theorem replay_written [SerdeJson] {us : List UpdateEnvelope} (hus : ∀ e ∈ us, WrittenUpdate e.update)
    (hR : ∀ id s key t, R.get? id = some s → s.topics.get? key = some t → Written t) :
    ∀ id s key t, (replay R us).get? id = some s → s.topics.get? key = some t → Written t := by
  induction us generalizing R with
  | nil => exact hR
  | cons e us ih =>
    refine ih (fun x hx => hus x (List.mem_cons_of_mem _ hx)) fun id s key t hs ht => ?_
    rcases apply_topics hs ht with ⟨s₀, hs₀, ht₀⟩ | hbare | hu
    · exact hR id s₀ key t hs₀ ht₀
    · exact .bare hbare
    · exact hus e List.mem_cons_self t hu

/-- The items that describe a replica. -/
theorem mem_described (h : item ∈ T.values.flatMap describe) :
    (topicOf item = none ∧ ∀ frame, item ≠ .snapshot frame) ∨ ∃ id s key t,
      T.get? id = some s ∧ s.topics.get? key = some t ∧ item = .topic t := by
  obtain ⟨s, hs, hitem⟩ := List.mem_flatMap.mp h
  obtain ⟨⟨id, s⟩, hentry, rfl⟩ := List.mem_map.mp hs
  rcases List.mem_cons.mp hitem with rfl | hitem
  · exact .inl ⟨rfl, fun frame hf => by cases hf⟩
  · obtain ⟨t, ht, rfl⟩ := List.mem_map.mp hitem
    obtain ⟨⟨key, t⟩, hkey, rfl⟩ := List.mem_map.mp ht
    exact .inr ⟨id, s, key, t, OrdMap.get?_eq_some.mpr hentry, OrdMap.get?_eq_some.mpr hkey, rfl⟩

/-- A replica has a topic once. -/
theorem described_precedes (h : Coherent runId n T) :
    (T.values.flatMap describe).Pairwise Precedes := by
  -- Topics of different keys or sessions do not meet.
  have hne : ∀ t t' : TopicSnapshot, baselineKey t.source ≠ baselineKey t'.source →
      Precedes (.topic t) (.topic t') := by
    rintro t t' hne t₀ d ⟨⟩ - t₁ d' ⟨⟩ - hkey
    exact absurd hkey.symm hne
  rw [OrdMap.values, List.flatMap_map, List.pairwise_flatMap]
  constructor
  · rintro ⟨id, s⟩ he
    have hs := OrdMap.get?_eq_some.mpr he
    rw [describe, List.pairwise_cons]
    refine ⟨fun x _ => precedes_left rfl x, ?_⟩
    rw [OrdMap.values, List.map_map, List.pairwise_map]
    refine (List.pairwise_map.mp s.topics.keys_nodup).imp_of_mem ?_
    rintro ⟨key, t⟩ ⟨key', t'⟩ ht ht' hkey
    refine hne t t' fun heq => hkey ?_
    have hsource := (h.topics id s key t hs (OrdMap.get?_eq_some.mpr ht)).source
    have hsource' := (h.topics id s key' t' hs (OrdMap.get?_eq_some.mpr ht')).source
    rw [baselineKey, baselineKey, hsource, hsource'] at heq
    exact (Prod.mk.inj (toLex.injective heq)).2
  · refine (List.pairwise_map.mp T.keys_nodup).imp_of_mem ?_
    rintro ⟨id, s⟩ ⟨id', s'⟩ he he' hid x hx y hy
    rcases List.mem_cons.mp hx with rfl | hx
    · exact precedes_left rfl y
    rcases List.mem_cons.mp hy with rfl | hy
    · exact precedes_right x rfl
    obtain ⟨t, ht, rfl⟩ := List.mem_map.mp hx
    obtain ⟨t', ht', rfl⟩ := List.mem_map.mp hy
    obtain ⟨⟨key, t⟩, hkey, rfl⟩ := List.mem_map.mp ht
    obtain ⟨⟨key', t'⟩, hkey', rfl⟩ := List.mem_map.mp ht'
    have hs := OrdMap.get?_eq_some.mpr he
    have hs' := OrdMap.get?_eq_some.mpr he'
    refine hne t t' fun heq => hid ?_
    have hsource := (h.topics id s key t hs (OrdMap.get?_eq_some.mpr hkey)).source
    have hsource' := (h.topics id' s' key' t' hs' (OrdMap.get?_eq_some.mpr hkey')).source
    rw [baselineKey, baselineKey, hsource, hsource', h.session id s hs, h.session id' s' hs'] at heq
    exact congrArg SessionRef.sessionId (Prod.mk.inj (toLex.injective heq)).1

/-- Of the updates, those that a selection follows. -/
theorem followed_sublist (sel : Subscribe) (R : Replica) (us : List UpdateEnvelope) :
    (followed sel R us).Sublist (us.map .update) := by
  induction us generalizing R with
  | nil => exact .slnil
  | cons e us ih =>
    rw [followed, List.map_cons]
    cases relevant sel R e.update with
    | false => exact (ih _).cons _
    | true => exact (ih _).cons_cons _

theorem mem_guarded {us : List UpdateEnvelope} (h : Runs.Guarded apply (Allowed runId) R us)
    {e : UpdateEnvelope} (he : e ∈ us) : ∃ R', Allowed runId R' e := by
  induction us generalizing R with
  | nil => cases he
  | cons e' us ih =>
    rcases List.mem_cons.mp he with rfl | he
    · exact ⟨R, h.1⟩
    · exact ih h.2 he

/-- The snapshot of an update carries the update's sequence. -/
theorem allowed_snapshot {cursor : ServiceCursor} {t : TopicSnapshot} {d : DataEnvelope}
    (h : Allowed runId R ⟨cursor, .topicChanged t⟩) (hd : t.snapshot = some d) :
    t.health = .available ∧ d.metadata = ⟨t.source, t.generation, cursor.sequence⟩ := by
  obtain ⟨source, s, -, -, -, -, -, -, hsnapshot⟩ := h
  exact hsnapshot d hd

section items

variable {request : Subscribe} {before after : List UpdateEnvelope}

/-- A topic with its own snapshot. -/
theorem whole_of {t : TopicSnapshot} {d : DataEnvelope} (hd : t.snapshot = some d)
    (hhealth : t.health = .available) (hsource : d.metadata.source = t.source)
    (hgeneration : d.metadata.generation = t.generation) :
    t = ⟨d.metadata.source, d.metadata.generation, .available, some ⟨d.metadata, d.payload⟩⟩ := by
  rw [hsource, hgeneration]
  cases t
  simp_all

/-- The updates `before` and `after` the subscription, at its cursor. -/
structure Split (runId : String) (before after : List UpdateEnvelope) (n : Nat) : Prop where
  allowed : Runs.Guarded apply (Allowed runId) ∅ (before ++ after)
  ordered : (before ++ after).Pairwise fun a b => a.cursor.sequence < b.cursor.sequence
  earlier : ∀ e ∈ before, 0 < e.cursor.sequence ∧ e.cursor.sequence ≤ n
  later : ∀ e ∈ after, n < e.cursor.sequence

theorem Split.coherent (h : Split runId before after n) : Coherent runId n (replay ∅ before) :=
  (Coherent.empty runId 0).replay (Runs.guarded_append.mp h.allowed).1
    (List.pairwise_append.mp h.ordered).1 (Nat.zero_le n) h.earlier

/-- The snapshot that an update of the stream carries. -/
theorem Split.snapshot (h : Split runId before after n) {e : UpdateEnvelope} (he : e ∈ after)
    {t : TopicSnapshot} {d : DataEnvelope} (ht : topicOf (.update e) = some t) (hd : t.snapshot = some d) :
    e.update = .topicChanged t ∧ t.health = .available ∧
      d.metadata = ⟨t.source, t.generation, e.cursor.sequence⟩ := by
  obtain ⟨R, hR⟩ := mem_guarded (Runs.guarded_append.mp h.allowed).2 he
  obtain ⟨cursor, u⟩ := e
  cases u with
  | topicChanged t' =>
    cases ht
    exact ⟨rfl, allowed_snapshot hR hd⟩
  | _ => cases ht

variable [SerdeJson]

theorem emitted_plain (h : topicOf item = none) (hplain : ∀ frame, item ≠ .snapshot frame) :
    Emitted item := by
  refine ⟨hplain, fun t d ht => ?_, fun t d ht => ?_⟩ <;>
    rw [h] at ht <;> cases ht

/-- Every snapshot of a stream is its topic's. -/
theorem recount_emitted (h : Split runId before after n)
    (hlog : ∀ e ∈ before ++ after, WrittenUpdate e.update)
    (hitem : item ∈ recount runId sel before after n) : Emitted item := by
  have hR := h.coherent
  rw [recount, bootstrap_eq hR] at hitem
  rcases List.mem_append.mp hitem with hitem | hitem
  · rcases List.mem_cons.mp hitem with rfl | hitem
    · exact emitted_plain rfl (by simp)
    rcases List.mem_append.mp hitem with hitem | hitem
    · rcases mem_described hitem with ⟨hnone, hplain⟩ | ⟨id, s, key, t, hs, ht, rfl⟩
      · exact emitted_plain hnone hplain
      · have hcoherent := (hR.visible sel).topics id s key t hs ht
        obtain ⟨s₀, hs₀, -, rfl⟩ := visible_eq_some.mp hs
        have hwritten := replay_written (R := ∅) (fun e he => hlog e (List.mem_append_left _ he))
          (by simp) id s₀ key t hs₀ (OrdMap.get?_filter_some.mp ht).1
        refine ⟨by simp, fun t' d h₁ hd => ?_, fun t' d h₁ hd => ?_⟩
        · cases h₁
          exact hwritten d hd
        · cases h₁
          obtain ⟨hhealth, hsource, hgeneration, -⟩ := hcoherent.snapshot d hd
          exact whole_of hd hhealth hsource hgeneration
    · rw [List.mem_singleton.mp hitem]
      exact emitted_plain rfl (by simp)
  · obtain ⟨e, he, rfl⟩ := List.mem_map.mp ((followed_sublist _ _ _).subset hitem)
    refine ⟨by simp, fun t d ht hd => ?_, fun t d ht hd => ?_⟩
    · exact hlog e (List.mem_append_right _ he) t (h.snapshot he ht hd).1 d hd
    · obtain ⟨-, hhealth, hmeta⟩ := h.snapshot he ht hd
      exact whole_of hd hhealth (by rw [hmeta]) (by rw [hmeta])

omit [SerdeJson] in
/-- The snapshots of a stream come in order. -/
theorem recount_precedes (h : Split runId before after n) :
    (recount runId sel before after n).Pairwise Precedes := by
  have hR := h.coherent
  rw [recount, bootstrap_eq hR, List.pairwise_append, List.pairwise_cons, List.pairwise_append]
  refine ⟨⟨fun b _ => precedes_left rfl b, described_precedes (hR.visible sel), by simp,
    fun a _ b hb => ?_⟩, ?_, fun a ha b hb => ?_⟩
  · rw [List.mem_singleton.mp hb]
    exact precedes_right a rfl
  · -- Later updates have later sequences.
    refine List.Pairwise.sublist (followed_sublist _ _ _) (List.pairwise_map.mpr ?_)
    refine (List.pairwise_append.mp h.ordered).2.1.imp_of_mem ?_
    intro e e' he he' hlt t d ht hd t' d' ht' hd' _
    rw [(h.snapshot he ht hd).2.2, (h.snapshot he' ht' hd').2.2]
    exact hlt
  · -- The bootstrap is older than the updates.
    obtain ⟨e, he, rfl⟩ := List.mem_map.mp ((followed_sublist _ _ _).subset hb)
    intro t d ht hd t' d' ht' hd' _
    rw [(h.snapshot he ht' hd').2.2]
    refine lt_of_le_of_lt ?_ (h.later e he)
    rcases List.mem_cons.mp ha with rfl | ha
    · cases ht
    rcases List.mem_append.mp ha with ha | ha
    · rcases mem_described ha with ⟨hnone, -⟩ | ⟨id, s, key, t₀, hs, ht₀, rfl⟩
      · rw [hnone] at ht
        cases ht
      · cases ht
        exact ((hR.visible sel).topics id s key t hs ht₀).snapshot d hd |>.2.2.2.2
    · rw [List.mem_singleton.mp ha] at ht
      cases ht

end items

end recount

/-! ## Connections -/

section runs

variable [Postcard] [SerdeJson] [JsonPatch] [Blake3] {manifests : List ProviderSdk.ProviderManifest}
  {i : Inner}

omit [JsonPatch] [Blake3] in
/-- Whatever a subscription of a run delivers can go over a connection. -/
theorem run_sendable {runId : String} {messageBytes : Nat}
    (h : ServiceState.new manifests runId messageBytes = .ok i) {ops : List Op}
    (hops : ∀ op ∈ ops, op.Hosted manifests) {id : Nat} {c : Channel}
    (hc : (run i ops).channels.get? id = some c) (hsize : messageBytes < u64Max) {limit : Nat}
    (hlimit : messageBytes ≤ limit) :
    (∀ item ∈ c.delivered, Sendable limit item) ∧ c.delivered.Pairwise Precedes := by
  obtain ⟨-, hf⟩ := run_truthful (P := fun _ => True) h fun op hop => ⟨hops op hop, op.starts_true⟩
  have hbytes : (run i ops).messageBytes = messageBytes :=
    (run_grows i ops).messageBytes.trans (new_messageBytes h)
  have hmeasured := run_every measured_kept (new_every h _) ops id c hc (hbytes.symm ▸ hsize)
  obtain ⟨log, items, hlog, hrec, hstream⟩ := (hf.channels id c trivial hc).past
  obtain ⟨before, after, n, rfl, -, hbefore, hafter, rfl⟩ := hrec.split
  have hsplit : Split (run i ops).runId before after n :=
    ⟨hf.allowed.of_prefix hlog, hf.ordered.sublist hlog.sublist, fun e he =>
      ⟨(hf.cursors e (hlog.mem (List.mem_append_left _ he))).2.1, hbefore e he⟩, hafter⟩
  have hemitted : ∀ item ∈ recount (run i ops).runId c.selection.normal before after n, Emitted item :=
    fun item => recount_emitted hsplit fun e he => (run_encodes h ops).told e (hlog.mem he)
  have hprecedes := @recount_precedes _ _ c.selection.normal _ _ hsplit
  -- The stream may have ended early.
  have hall : (∀ item ∈ c.stream, Emitted item) ∧ c.stream.Pairwise Precedes := by
    rcases hstream with hs | ⟨items, e, hp, -, hs⟩
    · rw [hs]
      exact ⟨hemitted, hprecedes⟩
    · rw [hs]
      refine ⟨fun item hitem => ?_, List.pairwise_append.mpr ⟨hprecedes.sublist hp.sublist, by simp,
        fun a _ b hb => ?_⟩⟩
      · rcases List.mem_append.mp hitem with hitem | hitem
        · exact hemitted item (hp.mem hitem)
        · rw [List.mem_singleton.mp hitem]
          exact emitted_plain rfl (by simp)
      · rw [List.mem_singleton.mp hb]
        exact precedes_right a rfl
  refine ⟨fun item hitem => ⟨hall.1 item (List.mem_append_left _ hitem), fun t d ht _ => ?_⟩,
    hall.2.sublist (List.sublist_append_left _ _)⟩
  rcases hmeasured.items item (List.mem_append_left _ hitem) with ⟨bytes, hb, hle⟩ | ⟨e, rfl⟩
  · exact ⟨bytes, hb, hle.trans (hbytes ▸ hlimit)⟩
  · cases ht

/-- Over any connection of a run, in any order of its frames and acknowledgements, the client receives
the items that its subscription delivers. It never misses a baseline, and it rebuilds no other payload:
if it fails, its checker refused an item as it was sent, and it does not with identifiers and metadata
that the checker allows. -/
theorem delivered_lossless (laws : JsonLaws) {runId : String} {messageBytes : Nat}
    (h : ServiceState.new manifests runId messageBytes = .ok i) {ops : List Op}
    (hops : ∀ op ∈ ops, op.Hosted manifests) {id : Nat} {c : Channel}
    (hc : (run i ops).channels.get? id = some c) (hsize : messageBytes < u64Max) {limit : Nat}
    (hlimit : messageBytes ≤ limit) (deltas : Bool) (topics : List TopicRef) (moves : List Move) :
    let l := (Link.new c.delivered topics (.new c.selection deltas)).run limit moves
    l.received <+: c.delivered ∧
      (Validation.new c.selection).acceptAll l.received = .ok l.reader.validation ∧
      (∀ error, l.failure = some error → ∃ item why, l.received ++ [item] <+: c.delivered ∧
        l.reader.validation.accept item = .error why ∧ error = .client why) ∧
      (identifier runId = true → (∀ op ∈ ops, Identifies op) →
        (∀ l, l <+: (run i ops).log →
          metadataBytes (visible c.selection.normal (replay ∅ l)) ≤ maxActiveMetadataBytes) →
        l.failure = none) := by
  intro l
  obtain ⟨hs, hord⟩ := run_sendable h hops hc hsize hlimit
  have hok : LinkOk limit c.selection c.delivered l :=
    run_linkOk laws (linkOk_new limit c.selection deltas c.delivered topics) hs hord moves
  have hrefused : ∀ error, l.failure = some error → ∃ item why, l.received ++ [item] <+: c.delivered ∧
      l.reader.validation.accept item = .error why ∧ error = .client why := by
    intro error herror
    rcases hok.state with hf | ⟨item, why, hp, hwhy, hfailure⟩
    · rw [hf.failure] at herror
      cases herror
    · rw [hfailure] at herror
      cases herror
      exact ⟨item, why, hp, hwhy, rfl⟩
  refine ⟨hok.received, hok.accepted, hrefused, fun hrun hid hbytes => ?_⟩
  by_contra hfailure
  obtain ⟨error, herror⟩ := Option.ne_none_iff_exists'.mp hfailure
  obtain ⟨item, why, hp, hwhy, -⟩ := hrefused error herror
  -- The checker accepts the whole stream, so it accepts this item.
  obtain ⟨v, hv⟩ := stream_accepted h hrun (fun op hop => ⟨hops op hop, hid op hop⟩) hc hbytes
  obtain ⟨w, hw⟩ := Validation.acceptAll_of_prefix hv (hp.trans (List.prefix_append _ _))
  rw [Validation.acceptAll_append, hok.accepted] at hw
  simp only [Except.bind, Validation.acceptAll_cons, hwhy] at hw
  cases hw

end runs

section examples

open TestSupport Patches

theorem hash_injective : Function.Injective Blake3.hash := fun _ _ h =>
  String.toByteArray_inj.mp (ByteArray.ext (Array.toList_inj.mp h))

/-- A batch whose snapshot is long, and differs from the other one in a flag. -/
def switched (value : Bool) : PollBatch :=
  ((PollBatch.new manifest).snapshot ⟨"fixture.count", 1, some .full, true⟩
    (Json.array (10 ^ 100) value)).2

/-- Two polls of one session, and what its subscription delivers. -/
def switching : List Op :=
  [.updateLifecycle (observing "one") 0, .subscribe selection ⟨0, 0, 0⟩ idle,
      .commitPoll ticket (switched false) (seconds 6) 0,
      .commitPoll ticket (switched true) (seconds 7) (seconds 1)]
    ++ List.replicate 6 (.pop 1)

/-- The first snapshot is acknowledged before the second one is sent. -/
def acknowledging : List Move :=
  List.replicate 5 (.send []) ++ List.replicate 5 .read ++ [.acknowledge, .send [], .read]

def isPatch : SubscriptionItem → Bool
  | .snapshot ⟨_, _, .delta _ _ _⟩ => true
  | _ => false

theorem switching_hosted : ∀ op ∈ switching, op.Hosted [manifest] ∧ Identifies op := by
  intro op hop
  simp only [switching, List.cons_append, List.nil_append, List.mem_cons, List.mem_replicate] at hop
  rcases hop with rfl | rfl | rfl | rfl | ⟨-, rfl⟩
  · refine ⟨trivial, fun t ht id hid => ?_⟩
    rw [List.mem_singleton.mp ht] at hid ⊢
    cases hid
    decide
  · exact ⟨trivial, trivial⟩
  · exact ⟨List.mem_singleton.mpr rfl, trivial⟩
  · exact ⟨List.mem_singleton.mpr rfl, trivial⟩
  · exact ⟨trivial, trivial⟩

theorem delivered_lossless_patched : ∃ c, (run service switching).channels.get? 1 = some c ∧
    let link := Link.new c.delivered [topic] (.new c.selection true)
    (link.run (1024 * 1024) (acknowledging.take 10)).acks.length = 1 ∧
      (link.run (1024 * 1024) (acknowledging.take 12)).frames.any isPatch = true ∧
      c.delivered.length = 6 ∧ (link.run (1024 * 1024) acknowledging).received = c.delivered ∧
      (link.run (1024 * 1024) acknowledging).failure = none := by
  have hview : ((run service switching).channels.get? 1).map (fun c =>
      let link := Link.new c.delivered [topic] (.new c.selection true)
      (c.selection, (link.run (1024 * 1024) (acknowledging.take 10)).acks.length,
        (link.run (1024 * 1024) (acknowledging.take 12)).frames.any isPatch, c.delivered.length,
        (link.run (1024 * 1024) acknowledging).received.length)) = some (selection, 1, true, 6, 6) := by
    decide +kernel
  obtain ⟨c, hc, hview⟩ := Option.map_eq_some_iff.mp hview
  simp only [Prod.mk.injEq] at hview
  obtain ⟨hselection, hacks, hpatch, hlength, hread⟩ := hview
  have hbytes : ∀ l ∈ (run service switching).log.inits,
      metadataBytes (visible selection.normal (replay ∅ l)) ≤ maxActiveMetadataBytes := by
    decide +kernel
  obtain ⟨hreceived, -, -, hfailure⟩ := delivered_lossless (patchLaws hash_injective) new_service
    (fun op hop => (switching_hosted op hop).1) hc (by decide) (le_refl _) true [topic] acknowledging
  refine ⟨c, hc, hacks, hpatch, hlength, hreceived.eq_of_length (hread.trans hlength.symm),
    hfailure (by decide) (fun op hop => (switching_hosted op hop).2) fun l hl => ?_⟩
  rw [hselection]
  exact hbytes l ((List.mem_inits l _).mpr hl)

end examples

end Transport
end WfObserver
