import Mathlib.Data.List.Infix
import WfObserver.Protocol.Client
import WfObserver.Sdk.Validation
import WfObserver.Service.Setup

/-!
# The checker accepts what the service sends

`Follows` relates the checker's state to a client's replica: the same sessions, and the generations
of the same topics. An offered bootstrap item and an allowed update are accepted
(`Follows.take_offered`, `Follows.take_update`), so a whole bootstrap and everything after it is,
and with it every item that any subscription of any run delivers (`delivered_accepted`).
-/

namespace WfObserver
namespace Sdk

open Wire Protocol Service

/-- The identities of a session have 1 to 256 bytes. -/
def Identified (info : SessionInfo) : Prop :=
  identifier info.session.sessionId = true ∧ identifier info.providerId = true ∧
    identifier info.gameId = true

/-- What the checker keeps of a session. -/
def checked (s : Seen) : SeenSession := ⟨s.info, s.topics.map fun _ t => t.generation⟩

/-- The bytes that the checker counts for a replica. -/
def metadataBytes [Postcard] (R : Replica) : Nat := R.sum fun _ s => (checked s).bytes

/-- The checker has seen the replica `R`. -/
structure Follows (sel : Subscribe) (runId : String) (R : Replica) (v : Validation) : Prop where
  selection : v.selection = sel
  run : ∃ n, v.checkpoint = some ⟨runId, n⟩
  sessions : v.sessions = R.map fun _ s => checked s

variable {sel : Subscribe} {runId : String} {n : Nat} {R T : Replica} {v : Validation}

/-- A part of a replica has at most its metadata. -/
theorem Part.bytes_le [Postcard] (h : Part R T) : metadataBytes R ≤ metadataBytes T := by
  refine OrdMap.sum_le fun id s hs => ?_
  obtain ⟨s', hs', hinfo, htopics⟩ := h id s hs
  refine ⟨s', hs', ?_⟩
  have hsum : ((checked s).topics.sum fun key _ =>
      key.providerId.utf8ByteSize + key.topic.utf8ByteSize + 256) ≤
      (checked s').topics.sum fun key _ =>
        key.providerId.utf8ByteSize + key.topic.utf8ByteSize + 256 := by
    refine OrdMap.sum_le fun key g hg => ?_
    simp only [checked, OrdMap.get?_map] at hg ⊢
    obtain ⟨t, ht, rfl⟩ := Option.map_eq_some_iff.mp hg
    exact ⟨t.generation, by rw [htopics key t ht]; rfl, le_refl _⟩
  simp only [SeenSession.bytes, saturatingAdd, checked, hinfo] at hsum ⊢
  omega

/-! ## The checks -/

namespace Follows

theorem get? (h : Follows sel runId R v) (id : String) :
    v.sessions.get? id = (R.get? id).map checked := by
  rw [h.sessions, OrdMap.get?_map]

theorem selected (h : Follows sel runId R v) {info : SessionInfo}
    (hrun : info.session.runId = runId) (hid : Identified info)
    (ht : takesInfo sel info = true) : v.selected info = true := by
  obtain ⟨n, hc⟩ := h.run
  obtain ⟨h₁, h₂, h₃⟩ := hid
  simp only [takesInfo, Bool.and_eq_true] at ht
  have hsession := ht.1
  unfold takesSession at hsession
  simp only [Validation.selected, hc, Option.any_some, hrun, BEq.rfl, h₁, h₂, h₃, h.selection, ht.2,
    Bool.true_and]
  exact hsession

/-- A session that is not there is added. -/
theorem addSession (h : Follows sel runId R v) {info : SessionInfo}
    (hsel : v.selected info = true) (hnew : R.get? info.session.sessionId = none) :
    ∃ v', v.addSession info = .ok v' ∧
      Follows sel runId (R.insert info.session.sessionId ⟨info, ∅⟩) v' ∧
      v'.ready = v.ready ∧ v'.sequence = v.sequence ∧ v'.checkpoint = v.checkpoint := by
  have habsent : v.sessions.contains info.session.sessionId = false := by
    rw [OrdMap.contains, h.get?, hnew]
    rfl
  refine ⟨{ v with sessions := v.sessions.insert info.session.sessionId ⟨info, ∅⟩ }, ?_,
    ⟨h.selection, h.run, ?_⟩, rfl, rfl, rfl⟩
  · simp only [Validation.addSession, hsel, habsent, Bool.not_false, Bool.and_self, check_true]
    rfl
  · refine OrdMap.ext_get? fun id => ?_
    simp only [OrdMap.get?_insert, OrdMap.get?_map, h.get?]
    split <;> rfl

/-- The source of a selected topic of a session that is there. -/
theorem source (h : Follows sel runId R v) {source : TopicSource} {s : Seen}
    (hs : R.get? source.session.sessionId = some s)
    (hsource : source = ⟨s.info.session, s.info.gameId, source.topic⟩)
    (hprov : source.topic.providerId = s.info.providerId)
    (hsel : sel.topics.contains source.topic = true) : v.source source = .ok (checked s) := by
  have hsession : (checked s).info.session = source.session := by rw [hsource]; rfl
  have hgame : (checked s).info.gameId = source.gameId := by rw [hsource]; rfl
  have hprov : (checked s).info.providerId = source.topic.providerId := hprov.symm
  simp only [Validation.source, h.get?, hs, Option.map_some, hsession, hgame, hprov, h.selection,
    hsel, BEq.rfl, Bool.and_self, check_true]
  rfl

theorem checked_install (s : Seen) (key : TopicRef) (t : TopicSnapshot) :
    checked (s.install key t) =
      { checked s with topics := (checked s).topics.insert key t.generation } := by
  simp only [checked, Seen.install, OrdMap.map_insert]

theorem bytes [Postcard] (h : Follows sel runId R v) : v.metadataBytes = metadataBytes R := by
  simp only [Validation.metadataBytes, h.sessions, metadataBytes, OrdMap.sum, OrdMap.map,
    List.map_map]
  rfl

/-- Storing a generation follows the installation of the topic. -/
theorem put (h : Follows sel runId R v) (t : TopicSnapshot) :
    Follows sel runId (R.modify t.source.session.sessionId (·.install t.source.topic t))
      (v.put t.source t.generation) := by
  refine ⟨h.selection, h.run, OrdMap.ext_get? fun id => ?_⟩
  simp only [Validation.put, OrdMap.get?_modify, OrdMap.get?_map, h.get?]
  split
  · simp only [Option.map_map]
    congr 1
    funext s
    exact (checked_install s _ t).symm
  · rfl

/-- A state of a selected topic, whose source and snapshot are right. -/
theorem topic (h : Follows sel runId R v) {t : TopicSnapshot} {s : Seen}
    (hs : R.get? t.source.session.sessionId = some s)
    (hc : TopicCoherent v.sequence s.info t.source.topic t)
    (hsel : sel.topics.contains t.source.topic = true) {bootstrap : Bool}
    (hnew : bootstrap = true → s.topics.get? t.source.topic = none)
    (hsame : bootstrap = false → ∀ old, s.topics.get? t.source.topic = some old →
      old.generation = t.generation) :
    v.topic t bootstrap = .ok (v.put t.source t.generation) := by
  have hold : (if bootstrap then ((checked s).topics.get? t.source.topic).isNone
      else ((checked s).topics.get? t.source.topic).all fun g => g == t.generation) = true := by
    simp only [checked, OrdMap.get?_map]
    cases bootstrap with
    | true => simp [hnew rfl]
    | false =>
      cases hold : s.topics.get? t.source.topic with
      | none => rfl
      | some old => simp [hsame rfl old hold]
  have hmatch : v.snapshotMatches t = true := by
    unfold Validation.snapshotMatches
    cases hd : t.snapshot with
    | none => rfl
    | some d =>
      obtain ⟨ha, hsrc, hg, hpos, hle⟩ := hc.snapshot d hd
      simp [ha, hsrc, hg, hpos, hle]
  simp only [Validation.topic, h.source hs hc.source hc.provider hsel, bind, Except.bind, hold,
    hc.generation, decide_true, Bool.and_self, check_true, hmatch]
  rfl

/-! ## Bootstrap items -/

/-- A bootstrap item that is offered is accepted by the match. -/
theorem take_offered (h : Follows sel runId R v) (hT : Suits sel runId v.sequence T)
    (hid : ∀ id s, T.get? id = some s → Identified s.info) (hpart : Part R T) (hready : v.ready = false) {item : SubscriptionItem}
    (ho : Offered T R item) : ∃ v', v.take item = .ok v' ∧
      Follows sel runId (receive R item) v' ∧ v'.ready = false ∧ v'.sequence = v.sequence ∧
      v'.checkpoint = v.checkpoint := by
  obtain ⟨m, hm⟩ := h.run
  have hbegun : v.begun = true := by rw [Validation.begun, hm]; rfl
  cases item with
  | session info =>
    obtain ⟨hnew, s, hs, rfl⟩ := ho
    have hsel := h.selected (by rw [hT.coherent.session _ s hs]) (hid _ s hs)
      (hT.takes _ s hs)
    obtain ⟨v', hv', hf, hr, hseq, hcp⟩ := h.addSession hsel hnew
    refine ⟨v', ?_, hf, hr.trans hready, hseq, hcp⟩
    simp only [Validation.take, hbegun, hready, Bool.not_false, Bool.and_self, check_true]
    exact hv'
  | topic t =>
    obtain ⟨⟨s, hs, hnew⟩, s', hs', ht⟩ := ho
    obtain ⟨s'', hs'', hinfo, -⟩ := hpart _ s hs
    obtain rfl : s'' = s' := by rw [hs'] at hs''; exact (Option.some.inj hs'').symm
    have hcoh := hT.coherent.topics _ _ _ t hs' ht
    rw [← hinfo] at hcoh
    have htopic : v.topic t true = .ok (v.put t.source t.generation) :=
      h.topic hs hcoh (hT.topics _ _ _ t hs' ht) (fun _ => hnew) (fun hf => by cases hf)
    refine ⟨v.put t.source t.generation, ?_, h.put t, hready, rfl, rfl⟩
    simp only [Validation.take, hbegun, hready, Bool.not_false, Bool.and_self, check_true]
    exact htopic
  | _ => exact ho.elim

/-- Offered items within the bound are accepted. -/
theorem accept_offered [Postcard] (hbytes : metadataBytes T ≤ maxActiveMetadataBytes)
    {items : List SubscriptionItem} (h : Follows sel runId R v) (hT : Suits sel runId v.sequence T)
    (hid : ∀ id s, T.get? id = some s → Identified s.info) (hpart : Part R T)
    (hready : v.ready = false) (ho : Runs.Guarded receive (Offered T) R items) : ∃ v', v.acceptAll items = .ok v' ∧
      Follows sel runId (items.foldl receive R) v' ∧ v'.ready = false ∧
      v'.sequence = v.sequence ∧ v'.checkpoint = v.checkpoint := by
  induction items generalizing R v with
  | nil => exact ⟨v, rfl, h, hready, rfl, rfl⟩
  | cons item items ih =>
    obtain ⟨v', hv', hf, hr, hseq, hcp⟩ := h.take_offered hT hid hpart hready ho.1
    have hpart' := hpart.receive ho.1
    have haccept : v.accept item = .ok v' :=
      Validation.accept_eq_ok.mpr ⟨hv', hf.bytes.trans_le ((Part.bytes_le hpart').trans hbytes)⟩
    obtain ⟨w, hw, hfw, hrw, hseqw, hcpw⟩ := ih hf (by rw [hseq]; exact hT) hpart' hr ho.2
    refine ⟨w, ?_, hfw, hrw, hseqw.trans hseq, hcpw.trans hcp⟩
    rw [Validation.acceptAll_cons, haccept]
    exact hw

/-- The selected topics of a session's provider are its topics. -/
theorem complete (h : Follows sel runId (visible sel R) v) (hR : Coherent runId n R)
    (hc : Complete sel R) (hnodup : sel.topics.Nodup) : v.complete = true := by
  simp only [Validation.complete, h.sessions, OrdMap.values_map, List.all_map, List.all_eq_true,
    Function.comp_apply, beq_iff_eq, h.selection]
  intro s hs
  obtain ⟨id, hs⟩ := OrdMap.mem_values.mp hs
  obtain ⟨s₀, hs₀, ht, rfl⟩ := visible_eq_some.mp hs
  -- Both lists have the selected topics of the provider, without repetition.
  have hperm : (s₀.select sel).topics.keys.Perm
      (sel.topics.filter fun t => t.providerId == s₀.info.providerId) := by
    refine (List.perm_ext_iff_of_nodup (OrdMap.keys_nodup _) (hnodup.filter _)).mpr fun key => ?_
    rw [OrdMap.mem_keys, List.mem_filter, beq_iff_eq]
    constructor
    · rintro ⟨t, ht⟩
      obtain ⟨ht, hsel⟩ := OrdMap.get?_filter_some.mp ht
      exact ⟨List.contains_iff_mem.mp hsel, (hR.topics id s₀ key t hs₀ ht).provider⟩
    · rintro ⟨hkey, hprov⟩
      obtain ⟨t, ht'⟩ := Option.isSome_iff_exists.mp (hc id s₀ hs₀ ht key hkey hprov)
      exact ⟨t, by rw [select_get? s₀ (List.contains_iff_mem.mpr hkey)]; exact ht'⟩
  have hlen := hperm.length_eq
  simpa [OrdMap.keys, OrdMap.size, checked, OrdMap.map] using hlen

/-! ## Updates -/

/-- The state in which `accept` checks the update `e`. -/
theorem next (h : Follows sel runId R v) (e : UpdateEnvelope) :
    Follows sel runId R { v with sequence := e.cursor.sequence } := ⟨h.selection, h.run, h.sessions⟩

/-- A relevant allowed update is accepted by the match. -/
theorem take_update (h : Follows sel runId (visible sel R) v) (hT : Suits sel runId n (visible sel R))
    (hident : ∀ id s, (visible sel R).get? id = some s → Identified s.info) {e : UpdateEnvelope}
    (hready : v.ready = true) (hrun : e.cursor.runId = runId)
    (hseq : v.sequence < e.cursor.sequence) (hn : n < e.cursor.sequence)
    (ha : Allowed runId R e) (hr : relevant sel R e.update = true)
    (hid : ∀ info, e.update = .sessionStarted info → Identified info) :
    ∃ v', v.take (.update e) = .ok v' ∧ Follows sel runId (visible sel (apply R e)) v' ∧
      v'.ready = true ∧ v'.sequence = e.cursor.sequence := by
  obtain ⟨hvis, hal⟩ := visible_take ha hr
  have hw := h.next e
  obtain ⟨m, hm⟩ := h.run
  have htake : v.take (.update e) =
      { v with sequence := e.cursor.sequence }.update e.update := by
    simp only [Validation.take, hready, hm, Option.any_some, hrun, BEq.rfl, hseq, decide_true, Bool.and_self, check_true]
    rfl
  rw [htake, hvis]
  obtain ⟨cursor, u⟩ := e
  cases u with
  | sessionStarted info =>
    obtain ⟨hnew, hrunId⟩ := hal
    obtain ⟨v', hv', hf, hrd, hsq, -⟩ := hw.addSession (hw.selected hrunId (hid info rfl) hr) hnew
    exact ⟨v', hv', hf, hrd.trans hready, hsq⟩
  | sessionChanged info =>
    obtain ⟨s, hs, hsession, hprov, hgame⟩ := hal
    have hinfo : Identified info := by
      obtain ⟨h₁, h₂, h₃⟩ := hident _ s hs
      exact ⟨by rw [hsession]; exact h₁, by rw [hprov]; exact h₂, by rw [hgame]; exact h₃⟩
    have hrunId : info.session.runId = runId := by rw [hsession, hT.coherent.session _ s hs]
    have hsel := hw.selected hrunId hinfo hr
    have hget := hw.get? info.session.sessionId
    rw [hs, Option.map_some] at hget
    refine ⟨{ v with
        sequence := cursor.sequence
        sessions := v.sessions.modify info.session.sessionId fun s => { s with info } }, ?_,
      ⟨h.selection, h.run, ?_⟩, hready, rfl⟩
    · simp only [Validation.update, hsel, check_true, bind, Except.bind, hget, checked, hprov,
        hgame, BEq.rfl, Bool.and_self]
      rfl
    · refine OrdMap.ext_get? fun id => ?_
      simp only [apply, OrdMap.get?_modify, OrdMap.get?_map, h.get?]
      split
      · simp only [Option.map_map]
        rfl
      · rfl
  | sessionEnded session reason =>
    obtain ⟨s, hs, hsession⟩ := hal
    have hget := hw.get? session.sessionId
    rw [hs, Option.map_some] at hget
    refine ⟨{ v with sequence := cursor.sequence, sessions := v.sessions.erase session.sessionId }, ?_,
      ⟨h.selection, h.run, ?_⟩, hready, rfl⟩
    · simp only [Validation.update, hget, Option.any_some, checked, hsession, BEq.rfl, check_true]
      rfl
    · refine OrdMap.ext_get? fun id => ?_
      simp only [apply, OrdMap.get?_erase, OrdMap.get?_map, h.get?]
      split <;> rfl
  | topicReset source generation reason =>
    obtain ⟨s, hs, hsrc, hprov, old, hold, hlt⟩ := (allowed_topic rfl).mp hal
    have hsrc : source = ⟨s.info.session, s.info.gameId, source.topic⟩ := Option.some.inj hsrc
    have hkey : sel.topics.contains source.topic = true := (Bool.and_eq_true_iff.mp hr).2
    refine ⟨_, ?_, hw.put ⟨source, generation, .initializing, none⟩, hready, rfl⟩
    simp only [Validation.update, hw.source hs hsrc hprov hkey, bind, Except.bind, checked,
      OrdMap.get?_map, hold, Option.map_some, Option.any_some, gt_iff_lt, hlt, decide_true,
      check_true]
    rfl
  | topicChanged t =>
    obtain ⟨s, hs, hallow⟩ := (allowed_topic rfl).mp hal
    have hcoh := hallow.coherent (fun t' ht' => hT.coherent.topics _ s _ t' hs ht') hn (t := t) rfl
    have hkey : sel.topics.contains t.source.topic = true := (Bool.and_eq_true_iff.mp hr).2
    have hnone : false = true → s.topics.get? t.source.topic = none := fun hf => by cases hf
    exact ⟨_, hw.topic hs hcoh hkey hnone (fun _ => hallow.2.2.2.1), hw.put t, hready, rfl⟩
  | event event =>
    obtain ⟨s, hs, hsrc, hprov, t, ht, hg, hseq'⟩ := (allowed_topic rfl).mp hal
    have hsrc : event.metadata.source =
        ⟨s.info.session, s.info.gameId, event.metadata.source.topic⟩ := Option.some.inj hsrc
    have hkey : sel.topics.contains event.metadata.source.topic = true :=
      (Bool.and_eq_true_iff.mp hr).2
    refine ⟨_, ?_, hw, hready, rfl⟩
    simp only [Validation.update, hw.source hs hsrc hprov hkey, bind, Except.bind, checked,
      OrdMap.get?_map, ht, Option.map_some, hg, hseq', BEq.rfl, Bool.and_self, check_true]
    rfl

end Follows

/-! ## Whole streams -/

/-- An allowed update keeps the sessions identified. -/
theorem identified_apply {e : UpdateEnvelope} (h : ∀ id s, R.get? id = some s → Identified s.info)
    (ha : Allowed runId R e) (hid : ∀ info, e.update = .sessionStarted info → Identified info)
    (id : String) (s : Seen) (hs : (apply R e).get? id = some s) : Identified s.info := by
  rcases update_cases e.update with ⟨info, hu⟩ | ⟨info, hu⟩ | ⟨session, r, hu⟩ | ⟨source, hsrc⟩
  · simp only [apply, hu, OrdMap.get?_insert] at hs
    split at hs
    · cases hs
      exact hid info hu
    · exact h id s hs
  · simp only [Allowed, hu] at ha
    obtain ⟨s₀, hs₀, hsession, hprov, hgame⟩ := ha
    simp only [apply, hu, OrdMap.get?_modify] at hs
    split at hs
    · rename_i hid'
      subst hid'
      rw [hs₀] at hs
      cases hs
      obtain ⟨h₁, h₂, h₃⟩ := h _ s₀ hs₀
      exact ⟨by rw [hsession]; exact h₁, by rw [hprov]; exact h₂, by rw [hgame]; exact h₃⟩
    · exact h id s hs
  · simp only [apply, hu, OrdMap.get?_erase] at hs
    split at hs
    · cases hs
    · exact h id s hs
  · obtain ⟨s₀, hs₀, -⟩ := (allowed_topic hsrc).mp ha
    rw [apply_topic hsrc hs₀, OrdMap.get?_insert] at hs
    split at hs
    · cases hs
      rw [Seen.update_info]
      exact h _ s₀ hs₀
    · exact h id s hs

/-- What the checker relies on in a log: legal updates in order, of sessions with identities. -/
structure Sound (runId : String) (R : Replica) (log : List UpdateEnvelope) : Prop where
  allowed : Runs.Guarded apply (Allowed runId) R log
  run : ∀ e ∈ log, e.cursor.runId = runId
  ordered : log.Pairwise fun a b => a.cursor.sequence < b.cursor.sequence
  starts : ∀ e ∈ log, ∀ info, e.update = .sessionStarted info → Identified info

theorem Sound.append {before after : List UpdateEnvelope} (h : Sound runId R (before ++ after)) :
    Sound runId R before ∧ Sound runId (replay R before) after := by
  obtain ⟨h₁, h₂⟩ := Runs.guarded_append.mp h.allowed
  obtain ⟨h₃, h₄, -⟩ := List.pairwise_append.mp h.ordered
  exact ⟨⟨h₁, fun e he => h.run e (List.mem_append_left _ he), h₃,
      fun e he => h.starts e (List.mem_append_left _ he)⟩,
    ⟨h₂, fun e he => h.run e (List.mem_append_right _ he), h₄,
      fun e he => h.starts e (List.mem_append_right _ he)⟩⟩

/-- A sound log leaves sessions with identities. -/
theorem Sound.identified {log : List UpdateEnvelope} (h : Sound runId R log)
    (hid : ∀ id s, R.get? id = some s → Identified s.info) (id : String) (s : Seen)
    (hs : (replay R log).get? id = some s) : Identified s.info := by
  induction log generalizing R with
  | nil => exact hid id s hs
  | cons e log ih =>
    have htail : Sound runId (apply R e) log := (Sound.append (show Sound runId R ([e] ++ log) from h)).2
    exact ih htail
      (identified_apply hid h.allowed.1 (h.starts e (by simp))) hs

variable [Postcard]

/-- The relevant updates after a replica are accepted. -/
theorem accept_followed {us : List UpdateEnvelope} (h : Follows sel runId (visible sel R) v)
    (hready : v.ready = true) (hseq : v.sequence ≤ n) (hR : Coherent runId n R)
    (hid : ∀ id s, R.get? id = some s → Identified s.info) (hus : Sound runId R us)
    (hn : ∀ e ∈ us, n < e.cursor.sequence)
    (hbytes : ∀ l, l <+: us → metadataBytes (visible sel (replay R l)) ≤ maxActiveMetadataBytes) :
    ∃ v', v.acceptAll (followed sel R us) = .ok v' := by
  induction us generalizing R v n with
  | nil => exact ⟨v, rfl⟩
  | cons e us ih =>
    have ha := hus.allowed.1
    have he := hn e (by simp)
    have hord := (List.pairwise_cons.mp hus.ordered).1
    have hR' := hR.apply ha he
    have hid' := identified_apply hid ha (hus.starts e (by simp))
    have hus' : Sound runId (apply R e) us := (Sound.append (show Sound runId R ([e] ++ us) from hus)).2
    have hbytes' : ∀ l, l <+: us →
        metadataBytes (visible sel (replay (apply R e) l)) ≤ maxActiveMetadataBytes := fun l hl =>
      hbytes (e :: l) (List.cons_prefix_cons.mpr ⟨rfl, hl⟩)
    rw [followed]
    cases hr : relevant sel R e.update with
    | false =>
      have hskip : Follows sel runId (visible sel (apply R e)) v := by
        rw [visible_skip ha hr]
        exact h
      exact ih hskip hready (hseq.trans he.le) hR' hid' hus' hord hbytes'
    | true =>
      obtain ⟨v', hv', hf, hrd, hsq⟩ := h.take_update (visible_suits hR) (visible_all hid) hready
        (hus.run e (by simp)) (hseq.trans_lt he) he ha hr (hus.starts e (by simp))
      have haccept : v.accept (.update e) = .ok v' := Validation.accept_eq_ok.mpr
        ⟨hv', hf.bytes.trans_le (hbytes' [] List.nil_prefix)⟩
      obtain ⟨w, hw⟩ := ih hf hrd hsq.le hR' hid' hus' hord hbytes'
      refine ⟨w, ?_⟩
      rw [if_pos rfl, List.singleton_append, Validation.acceptAll_cons, haccept]
      exact hw

/-- A bootstrap is accepted from the empty state. -/
theorem accept_bootstrap {request : Subscribe} (hR : Coherent runId n R)
    (hid : ∀ id s, R.get? id = some s → Identified s.info) (hc : Complete request.normal R)
    (hrun : identifier runId = true)
    (hbytes : metadataBytes (visible request.normal R) ≤ maxActiveMetadataBytes) :
    ∃ v, (Validation.new request).acceptAll (bootstrap request.normal R ⟨runId, n⟩) = .ok v ∧
      Follows request.normal runId (visible request.normal R) v ∧ v.ready = true ∧
      v.sequence = n := by
  rw [bootstrap_eq hR]
  -- Begin.
  let v₀ : Validation :=
    { Validation.new request with checkpoint := some ⟨runId, n⟩, sequence := n }
  have hbegin : (Validation.new request).take (.begin ⟨runId, n⟩) = .ok v₀ := by
    simp only [Validation.take, Validation.new, Validation.begun, Option.isSome_none, hrun,
      Bool.not_false, Bool.and_self, check_true]
    rfl
  have hf₀ : Follows request.normal runId ∅ v₀ := ⟨rfl, ⟨n, rfl⟩, rfl⟩
  have haccept₀ : (Validation.new request).accept (.begin ⟨runId, n⟩) = .ok v₀ :=
    Validation.accept_eq_ok.mpr
      ⟨hbegin, hf₀.bytes.trans_le ((Part.bytes_le (.empty _)).trans hbytes)⟩
  -- The sessions with their topics.
  obtain ⟨hoffered, hall⟩ := describe_all (hR.visible request.normal)
  obtain ⟨v₁, hv₁, hf₁, hready₁, hseq₁, hcp₁⟩ := hf₀.accept_offered hbytes
    (visible_suits hR) (visible_all hid) (.empty _) rfl hoffered
  rw [hall] at hf₁
  -- Ready.
  have hf₂ : Follows request.normal runId (visible request.normal R) { v₁ with ready := true } :=
    ⟨hf₁.selection, hf₁.run, hf₁.sessions⟩
  have htake : v₁.take (.ready ⟨runId, n⟩) = .ok { v₁ with ready := true } := by
    have hcp : v₁.checkpoint = some ⟨runId, n⟩ := hcp₁
    simp only [Validation.take, hready₁, hcp, BEq.rfl, Bool.not_false, Bool.and_self, check_true,
      hf₁.complete hR hc request.normal_nodup]
    rfl
  have haccept₂ : v₁.accept (.ready ⟨runId, n⟩) = .ok { v₁ with ready := true } :=
    Validation.accept_eq_ok.mpr ⟨htake, hf₂.bytes.trans_le hbytes⟩
  refine ⟨_, ?_, hf₂, rfl, hseq₁⟩
  rw [Validation.acceptAll_cons, haccept₀, Except.bind, Validation.acceptAll_append, hv₁, Except.bind,
    Validation.acceptAll_cons, haccept₂]
  rfl

/-- A stream that recounts a sound log is accepted. -/
theorem accept_recount {request : Subscribe} {log : List UpdateEnvelope}
    {items : List SubscriptionItem} (h : Recounts runId request.normal log items)
    (hlog : Sound runId ∅ log) (hpos : ∀ e ∈ log, 0 < e.cursor.sequence)
    (hrun : identifier runId = true)
    (hbytes : ∀ l, l <+: log →
      metadataBytes (visible request.normal (replay ∅ l)) ≤ maxActiveMetadataBytes) :
    ∃ v, (Validation.new request).acceptAll items = .ok v := by
  obtain ⟨before, after, n, rfl, hc, hbefore, hafter, rfl⟩ := h.split
  obtain ⟨hsound, hsound'⟩ := hlog.append
  have hR : Coherent runId n (replay ∅ before) :=
    (Coherent.empty runId 0).replay hsound.allowed hsound.ordered (Nat.zero_le n) fun e he =>
      ⟨hpos e (List.mem_append_left _ he), hbefore e he⟩
  have hid := hsound.identified (by simp)
  obtain ⟨v, hv, hf, hready, hseq⟩ := accept_bootstrap hR hid hc hrun
    (hbytes before (List.prefix_append _ _))
  obtain ⟨w, hw⟩ := accept_followed hf hready hseq.le hR hid hsound' hafter fun l hl => by
    have := hbytes (before ++ l) ((List.prefix_append_right_inj before).mpr hl)
    rwa [replay, List.foldl_append] at this
  refine ⟨w, ?_⟩
  rw [recount, Validation.acceptAll_append, hv]
  exact hw

/-! ## Runs -/

section runs

variable [SerdeJson] {manifests : List ProviderSdk.ProviderManifest} {i : Inner}

/-- The lifecycle updates of a run name sessions, providers and games with identities. -/
def Identifies : Op → Prop
  | .updateLifecycle status _ => ∀ t ∈ status.targets, ∀ id, t.activity = .observing id →
      identifier id = true ∧ identifier t.target.providerId = true ∧
        identifier t.target.gameId = true
  | _ => True

omit [Postcard] in
theorem Identifies.starts {op : Op} (h : Identifies op) : op.Starts Identified := by
  cases op with
  | updateLifecycle status now =>
    rintro i ⟨id, info⟩ he
    obtain ⟨target, ht, hm⟩ := List.mem_filterMap.mp
      (OrdMap.mem_of_get?_ofList (OrdMap.get?_eq_some.mpr he))
    split at hm
    · rename_i hact
      cases hm
      exact h target ht _ hact
    · cases hm
  | _ => trivial

/-- What a subscription of a run has delivered and still has to deliver is accepted by the checker of
its selection. -/
theorem stream_accepted {runId : String} {messageBytes : Nat}
    (h : ServiceState.new manifests runId messageBytes = .ok i) (hrun : identifier runId = true)
    {ops : List Op} (hops : ∀ op ∈ ops, op.Hosted manifests ∧ Identifies op) {id : Nat} {c : Channel}
    (hc : (run i ops).channels.get? id = some c)
    (hbytes : ∀ l, l <+: (run i ops).log →
      metadataBytes (visible c.selection.normal (replay ∅ l)) ≤ maxActiveMetadataBytes) :
    ∃ v, (Validation.new c.selection).acceptAll c.stream = .ok v := by
  obtain ⟨-, hf⟩ := run_truthful (P := Identified) h fun op hop =>
    ⟨(hops op hop).1, (hops op hop).2.starts⟩
  have hrunId : (run i ops).runId = runId := (run_grows i ops).runId.trans (new_runId h)
  obtain ⟨log, items, ⟨rest, hrest⟩, hrec, hstream⟩ := (hf.channels id c trivial hc).past
  rw [hrunId] at hrec
  have hmem : ∀ e ∈ log, e ∈ (run i ops).log := fun e he => hrest ▸ List.mem_append_left _ he
  have hsound : Sound runId ∅ (run i ops).log :=
    ⟨hrunId ▸ hf.allowed, fun e he => hrunId ▸ (hf.cursors e he).1, hf.ordered, hf.starts⟩
  rw [← hrest] at hsound
  obtain ⟨w, hw⟩ := accept_recount hrec hsound.append.1 (fun e he => (hf.cursors e (hmem e he)).2.1)
    hrun fun l hl => hbytes l (hl.trans (hrest ▸ List.prefix_append _ _))
  rcases hstream with hs | ⟨items', reason, hp, hne, hs⟩
  · exact ⟨w, hs ▸ hw⟩
  · obtain ⟨w', hw'⟩ := Validation.acceptAll_of_prefix hw hp
    obtain ⟨cursor, l, rfl⟩ := hrec.begin
    obtain ⟨l', rfl⟩ : ∃ l', items' = .begin cursor :: l' := by
      cases items' with
      | nil => exact absurd rfl hne
      | cons a l' => exact ⟨l', by rw [(List.cons_prefix_cons.mp hp).1]⟩
    refine ⟨w', ?_⟩
    rw [hs, Validation.acceptAll_append, hw', Except.bind, Validation.acceptAll_cons,
      Validation.accept_closed hw' reason]
    rfl

/-- Everything that a subscription of a run delivers is accepted, item by item, by the checker of its
selection; also what it delivers in the middle of an operation, and after it was dropped. -/
theorem delivered_accepted {runId : String} {messageBytes : Nat}
    (h : ServiceState.new manifests runId messageBytes = .ok i) (hrun : identifier runId = true)
    {ops : List Op} (hops : ∀ op ∈ ops, op.Hosted manifests ∧ Identifies op) {id : Nat} {c : Channel}
    (hc : (run i ops).channels.get? id = some c)
    (hbytes : ∀ l, l <+: (run i ops).log →
      metadataBytes (visible c.selection.normal (replay ∅ l)) ≤ maxActiveMetadataBytes) :
    ∃ v, (Validation.new c.selection).acceptAll c.delivered = .ok v := by
  obtain ⟨v, hv⟩ := stream_accepted h hrun hops hc hbytes
  -- What is delivered is the first part of the stream.
  exact Validation.acceptAll_of_prefix hv (List.prefix_append _ _)

end runs

end Sdk

open TestSupport Service Protocol Sdk in
/-- The subscription of the published run delivers four items, and they are accepted. -/
theorem Sdk.delivered_accepted_published : ∃ c v,
    (run service (published ++ List.replicate 4 (.pop 1))).channels.get? 1 = some c ∧
      c.delivered.length = 4 ∧ (Validation.new c.selection).acceptAll c.delivered = .ok v := by
  have hview : ((run service (published ++ List.replicate 4 (.pop 1))).channels.get? 1).map
      (fun c => (c.selection, c.delivered.length)) = some (selection, 4) := by decide +kernel
  obtain ⟨c, hc, hv⟩ := Option.map_eq_some_iff.mp hview
  have hops : ∀ op ∈ published ++ List.replicate 4 (Op.pop 1),
      op.Hosted [manifest] ∧ Identifies op := by
    intro op hop
    simp only [published, List.cons_append, List.nil_append, List.mem_cons, List.mem_replicate] at hop
    rcases hop with rfl | rfl | rfl | ⟨-, rfl⟩
    · refine ⟨trivial, fun t ht id hid => ?_⟩
      rw [List.mem_singleton.mp ht] at hid ⊢
      cases hid
      decide
    · exact ⟨trivial, trivial⟩
    · exact ⟨List.mem_singleton.mpr rfl, trivial⟩
    · exact ⟨trivial, trivial⟩
  have hbytes : ∀ l ∈ (run service (published ++ List.replicate 4 (.pop 1))).log.inits,
      metadataBytes (visible selection.normal (replay ∅ l)) ≤ maxActiveMetadataBytes := by
    decide +kernel
  obtain ⟨v, hv'⟩ := Sdk.delivered_accepted new_service (by decide) hops hc fun l hl => by
    rw [(Prod.mk.inj hv).1]
    exact hbytes l ((List.mem_inits l _).mpr hl)
  exact ⟨c, v, hc, (Prod.mk.inj hv).2, hv'⟩

end WfObserver
