import WfObserver.Sdk.Reader

/-!
# Any peer

What holds of a feed whatever frames the peer sends. The checker knows sessions and generations, the
feed has the state of the topic: `Joint` is the invariant of both, and `Joint.take` says that every
item that both take keeps it. `peer_safe` is what it gives for a stream of frames.
-/

namespace WfObserver
namespace Sdk

open Wire

/-- A snapshot is held only by an available topic, and is of its source and generation. -/
def Fits (n : Nat) (t : TopicSnapshot) : Prop :=
  ∀ d, t.snapshot = some d → t.health = .available ∧ d.metadata.source = t.source ∧
    d.metadata.generation = t.generation ∧ 0 < d.metadata.sequence ∧ d.metadata.sequence ≤ n

theorem Fits.mono {n m : Nat} {t : TopicSnapshot} (h : Fits n t) (hm : n ≤ m) : Fits m t :=
  fun d hd => ⟨(h d hd).1, (h d hd).2.1, (h d hd).2.2.1, (h d hd).2.2.2.1, (h d hd).2.2.2.2.trans hm⟩

/-! ## What the checker lets pass -/

/-- What the checker asks of a topic state. -/
theorem topic_ok {v v' : Validation} {t : TopicSnapshot} {bootstrap : Bool}
    (h : v.topic t bootstrap = .ok v') : ∃ s, v.source t.source = .ok s ∧ Fits v.sequence t ∧
      v' = v.put t.source t.generation ∧
        ∀ g, s.topics.get? t.source.topic = some g → g = t.generation := by
  unfold Validation.topic at h
  cases hs : v.source t.source with
  | error e =>
    rw [hs] at h
    cases h
  | ok s =>
    rw [hs] at h
    obtain ⟨hgen, h⟩ := Validation.check_bind.mp h
    obtain ⟨hsnap, h⟩ := Validation.check_bind.mp h
    cases h
    refine ⟨s, rfl, fun d hd => ?_, rfl, fun g hg => ?_⟩
    · simp only [Validation.snapshotMatches, hd, Bool.and_eq_true, beq_iff_eq,
        decide_eq_true_eq] at hsnap
      obtain ⟨⟨⟨⟨h₁, h₂⟩, h₃⟩, h₄⟩, h₅⟩ := hsnap
      exact ⟨h₁, h₂, h₃, h₄, h₅⟩
    · rw [hg] at hgen
      cases bootstrap with
      | true => simp at hgen
      | false =>
        have := (Bool.and_eq_true_iff.mp hgen).2
        simpa using this

/-- What the checker asks of a reset. -/
theorem reset_ok {v v' : Validation} {source : TopicSource} {generation : Nat} {reason : ResetReason}
    (h : v.update (.topicReset source generation reason) = .ok v') :
    ∃ s old, v.source source = .ok s ∧ s.topics.get? source.topic = some old ∧ old < generation ∧
      v' = v.put source generation := by
  simp only [Validation.update] at h
  cases hs : v.source source with
  | error e =>
    rw [hs] at h
    cases h
  | ok s =>
    rw [hs] at h
    obtain ⟨hold, h⟩ := Validation.check_bind.mp h
    obtain ⟨old, ho, hlt⟩ := (Option.any_eq_true _ _).mp hold
    cases h
    exact ⟨s, old, rfl, ho, by simpa using hlt, rfl⟩

theorem event_ok {v v' : Validation} {event : EventEnvelope} (h : v.update (.event event) = .ok v') :
    v' = v := by
  simp only [Validation.update] at h
  cases hs : v.source event.metadata.source with
  | error e =>
    rw [hs] at h
    cases h
  | ok s =>
    rw [hs] at h
    obtain ⟨-, h⟩ := Validation.check_bind.mp h
    cases h
    rfl

theorem sessionEnded_ok {v v' : Validation} {session : SessionRef} {reason : SessionEndReason}
    (h : v.update (.sessionEnded session reason) = .ok v') :
    ∃ s, v.sessions.get? session.sessionId = some s ∧ s.info.session = session ∧
      v' = { v with sessions := v.sessions.erase session.sessionId } := by
  obtain ⟨hknown, h⟩ := Validation.check_bind.mp h
  obtain ⟨s, hs, hsession⟩ := (Option.any_eq_true _ _).mp hknown
  cases h
  exact ⟨s, hs, beq_iff_eq.mp hsession, rfl⟩

/-- What the checker asks of the source of a topic. -/
theorem source_ok {v : Validation} {source : TopicSource} {s : SeenSession}
    (h : v.source source = .ok s) : v.sessions.get? source.session.sessionId = some s ∧
      s.info.session = source.session ∧ s.info.gameId = source.gameId ∧
      s.info.providerId = source.topic.providerId ∧ source.topic ∈ v.selection.topics := by
  unfold Validation.source at h
  split at h
  · cases h
  · rename_i s' hs'
    obtain ⟨hc, h⟩ := Validation.check_bind.mp h
    cases h
    simp only [Bool.and_eq_true, beq_iff_eq, List.contains_iff_mem] at hc
    exact ⟨hs', hc.1.1.1, hc.1.1.2, hc.1.2, hc.2⟩

/-- The known session that changes. -/
theorem sessionChanged_ok {v v' : Validation} {info : SessionInfo}
    (h : v.update (.sessionChanged info) = .ok v') :
    ∃ s, v.sessions.get? info.session.sessionId = some s ∧ v.selected info = true ∧
      s.info.providerId = info.providerId ∧ s.info.gameId = info.gameId ∧
        v' = { v with sessions := v.sessions.insert info.session.sessionId { s with info } } := by
  obtain ⟨hsel, h⟩ := Validation.check_bind.mp h
  split at h
  · cases h
  rename_i s hs
  obtain ⟨hown, h⟩ := Validation.check_bind.mp h
  cases h
  obtain ⟨hprov, hgame⟩ : s.info.providerId = info.providerId ∧ s.info.gameId = info.gameId := by
    simpa using hown
  exact ⟨s, hs, hsel, hprov, hgame, by rw [OrdMap.modify_eq_insert hs]⟩

/-- A session that is announced. -/
theorem addSession_ok {v v' : Validation} {info : SessionInfo} (h : v.addSession info = .ok v') :
    v.selected info = true ∧ v.sessions.get? info.session.sessionId = none ∧
      v' = { v with sessions := v.sessions.insert info.session.sessionId ⟨info, ∅⟩ } := by
  obtain ⟨hc, h⟩ := Validation.check_bind.mp h
  cases h
  obtain ⟨hsel, hnew⟩ := Bool.and_eq_true_iff.mp hc
  exact ⟨hsel, by simpa [OrdMap.contains, Option.isSome_iff_ne_none] using hnew, rfl⟩

/-! ## The sessions that the checker knows -/

/-- The checker knows selected sessions only, and none before Begin. -/
structure Owned (v : Validation) : Prop where
  fresh : v.begun = false → v.sessions = ∅
  owned : ∀ id s, v.sessions.get? id = some s →
    s.info.session.sessionId = id ∧ v.selected s.info = true

namespace Owned

variable {v v' : Validation}

theorem new (selection : Subscribe) : Owned (Validation.new selection) :=
  ⟨fun _ => rfl, by simp [Validation.new]⟩

/-- A session of this id is stored. -/
theorem insert (h : Owned v) (hb : v.begun = true) {s : SeenSession} (hs : v.selected s.info = true) :
    Owned { v with sessions := v.sessions.insert s.info.session.sessionId s } := by
  refine ⟨fun hf => ?_, fun id s' hs' => ?_⟩
  · rw [show v.begun = false from hf] at hb
    cases hb
  · simp only [OrdMap.get?_insert] at hs'
    split at hs'
    · rename_i hid
      cases hs'
      exact ⟨hid.symm, hs⟩
    · exact h.owned id s' hs'

/-- A known session means that the stream has begun. -/
theorem begun (h : Owned v) {id : String} {s : SeenSession} (hs : v.sessions.get? id = some s) :
    v.begun = true := by
  by_contra hb
  rw [h.fresh (by simpa using hb)] at hs
  cases hs

/-- The known session of this reference. -/
theorem known_ref (h : Owned v) {id : String} {s : SeenSession} {info : SessionInfo}
    (hs : v.sessions.get? id = some s) (hsel : v.selected info = true)
    (hid : info.session.sessionId = id) : s.info.session = info.session := by
  obtain ⟨hsid, hown⟩ := h.owned id s hs
  have hrun : ∀ {j : SessionInfo}, v.selected j = true →
      v.checkpoint.any (fun c => c.runId == j.session.runId) = true := fun hj => by
    simp only [Validation.selected, Bool.and_eq_true] at hj
    exact hj.1.1.1.1.1
  obtain ⟨c, hc, h₁⟩ := (Option.any_eq_true _ _).mp (hrun hsel)
  obtain ⟨c', hc', h₂⟩ := (Option.any_eq_true _ _).mp (hrun hown)
  rw [hc] at hc'
  cases hc'
  have hrunId : s.info.session.runId = info.session.runId :=
    (beq_iff_eq.mp h₂).symm.trans (beq_iff_eq.mp h₁)
  cases hi : s.info.session
  cases hj : info.session
  simp_all

theorem put (h : Owned v) (source : TopicSource) (generation : Nat) :
    Owned (v.put source generation) := by
  have hempty : v.sessions = ∅ → (v.put source generation).sessions = ∅ := fun he => by
    rw [Validation.put, he]
    rfl
  refine ⟨fun hf => hempty (h.fresh hf), fun id s hs => ?_⟩
  simp only [Validation.put, OrdMap.get?_modify] at hs
  split at hs
  · obtain ⟨s₀, hs₀, rfl⟩ := Option.map_eq_some_iff.mp hs
    exact h.owned id s₀ hs₀
  · exact h.owned id s hs

theorem addSession (h : Owned v) (hb : v.begun = true) {info : SessionInfo}
    (ha : v.addSession info = .ok v') : Owned v' := by
  obtain ⟨hsel, -, rfl⟩ := addSession_ok ha
  exact h.insert hb (s := ⟨info, ∅⟩) hsel

theorem erase (h : Owned v) (id : String) : Owned { v with sessions := v.sessions.erase id } := by
  refine ⟨fun hf => ?_, fun id' s hs => ?_⟩
  · rw [show v.sessions = ∅ from h.fresh hf]
    rfl
  · simp only [OrdMap.get?_erase] at hs
    split at hs
    · cases hs
    · exact h.owned id' s hs

theorem update (h : Owned v) (hb : v.begun = true) {u : SubscriptionUpdate}
    (ha : v.update u = .ok v') : Owned v' := by
  cases u with
  | sessionStarted info => exact h.addSession hb ha
  | sessionChanged info =>
    obtain ⟨s, -, hsel, -, -, rfl⟩ := sessionChanged_ok ha
    exact h.insert hb (s := { s with info }) hsel
  | sessionEnded session reason =>
    obtain ⟨s, -, -, rfl⟩ := sessionEnded_ok ha
    exact h.erase _
  | topicReset source generation reason =>
    obtain ⟨s, old, -, -, -, rfl⟩ := reset_ok ha
    exact h.put _ _
  | topicChanged t =>
    obtain ⟨s, -, -, rfl, -⟩ := topic_ok ha
    exact h.put _ _
  | event event =>
    rw [event_ok ha]
    exact h

theorem take (h : Owned v) {item : SubscriptionItem} (ha : v.take item = .ok v') : Owned v' := by
  cases item with
  | begin cursor =>
    obtain ⟨hc, ha⟩ := Validation.check_bind.mp ha
    cases ha
    have hempty := h.fresh (by simpa using (Bool.and_eq_true_iff.mp hc).1)
    refine ⟨fun hf => (by cases hf), fun id s hs => ?_⟩
    have hs : v.sessions.get? id = some s := hs
    rw [hempty] at hs
    cases hs
  | session info =>
    obtain ⟨hc, ha⟩ := Validation.check_bind.mp ha
    exact h.addSession (Bool.and_eq_true_iff.mp hc).1 ha
  | topic t =>
    obtain ⟨s, -, -, rfl, -⟩ := topic_ok (Validation.check_bind.mp ha).2
    exact h.put _ _
  | snapshot frame => cases ha
  | ready cursor =>
    obtain ⟨-, ha⟩ := Validation.check_bind.mp ha
    obtain ⟨-, ha⟩ := Validation.check_bind.mp ha
    cases ha
    exact ⟨h.fresh, h.owned⟩
  | update envelope =>
    obtain ⟨hc, ha⟩ := Validation.check_bind.mp ha
    simp only [Bool.and_eq_true] at hc
    obtain ⟨c, hcp, -⟩ := (Option.any_eq_true _ _).mp hc.1.2
    have hb : v.begun = true := by
      rw [Validation.begun, hcp]
      rfl
    have hraised : Owned { v with sequence := envelope.cursor.sequence } := ⟨h.fresh, h.owned⟩
    exact hraised.update hb ha
  | closed reason =>
    obtain ⟨-, ha⟩ := Validation.check_bind.mp ha
    cases ha
    exact h

end Owned

/-! ## The checker and the feed -/

/-- The stored topic is the one topic of the session that the checker has. -/
structure Stored (key : TopicRef) (n : Nat) (ref : SessionRef) (s : SeenSession) (t : TopicSnapshot) :
    Prop where
  session : s.info.session = ref
  source : t.source = ⟨ref, s.info.gameId, key⟩
  provider : key.providerId = s.info.providerId
  known : s.topics.get? key = some t.generation
  fits : Fits n t

/-- The checker and the feed agree. -/
structure Joint (sessions : SessionSelector) (key : TopicRef) (v : Validation) (f : Feed) : Prop where
  selection : v.selection = ⟨sessions, [key]⟩
  sequence : f.sequence = v.sequence
  owned : Owned v
  session : ∀ ref n info, f.current.sessions.get? ref = some (n, info) →
    ∃ s, v.sessions.get? ref.sessionId = some s ∧ s.info = info ∧ info.session = ref
  seen : ∀ id s, v.sessions.get? id = some s →
    ∃ n, f.current.sessions.get? s.info.session = some (n, s.info)
  topic : ∀ ref t, f.current.topics.get? ref = some t →
    ∃ s, v.sessions.get? ref.sessionId = some s ∧ Stored key v.sequence ref s t
  stored : ∀ id s g, v.sessions.get? id = some s → s.topics.get? key = some g →
    ∃ t, f.current.topics.get? s.info.session = some t

namespace Joint

variable {sel : SessionSelector} {key : TopicRef} {v v' : Validation} {f f' : Feed}

theorem new (sel : SessionSelector) (key : TopicRef) :
    Joint sel key (Validation.new ⟨sel, [key]⟩) {} := by
  refine ⟨rfl, rfl, .new _, ?_, ?_, ?_, ?_⟩
  all_goals simp [Validation.new]

theorem topics (h : Joint sel key v f) : v.selection.topics = [key] := by rw [h.selection]

/-- Other sessions are stored under other references. -/
theorem other (h : Joint sel key v f) {id id' : String} {s s' : SeenSession}
    (hs : v.sessions.get? id = some s) (hid : s'.info.session.sessionId = id') (hne : id ≠ id') :
    s.info.session ≠ s'.info.session := by
  intro heq
  exact hne (by rw [← (h.owned.owned id s hs).1, heq, hid])

/-- The sequence goes up. -/
theorem advance (h : Joint sel key v f) {n : Nat} (hn : v.sequence ≤ n) :
    Joint sel key { v with sequence := n } { f with sequence := n } where
  selection := h.selection
  sequence := rfl
  owned := ⟨h.owned.fresh, h.owned.owned⟩
  session := h.session
  seen := h.seen
  topic ref t ht := by
    obtain ⟨s, hs, hstored⟩ := h.topic ref t ht
    exact ⟨s, hs, { hstored with fits := hstored.fits.mono hn }⟩
  stored := h.stored

/-- Before Begin nothing is stored. -/
theorem begin (h : Joint sel key v f) {cursor : ServiceCursor} (ha : v.take (.begin cursor) = .ok v') :
    Joint sel key v' { f with sequence := cursor.sequence } := by
  have howned := h.owned.take ha
  obtain ⟨hc, ha⟩ := Validation.check_bind.mp ha
  cases ha
  have hempty := h.owned.fresh (by simpa using (Bool.and_eq_true_iff.mp hc).1)
  refine ⟨h.selection, rfl, howned, h.session, h.seen, fun ref t ht => ?_, h.stored⟩
  obtain ⟨s, hs, -⟩ := h.topic ref t ht
  rw [hempty] at hs
  cases hs

/-- A session is stored with its topics, or without topics where there were none. -/
theorem putSession (h : Joint sel key v f) {s : SeenSession} (howned : Owned
      { v with sessions := v.sessions.insert s.info.session.sessionId s })
    (hold : ∀ s₀, v.sessions.get? s.info.session.sessionId = some s₀ →
      s₀.info.session = s.info.session ∧ s₀.info.providerId = s.info.providerId ∧
        s₀.info.gameId = s.info.gameId ∧ s₀.topics = s.topics)
    (hnew : v.sessions.get? s.info.session.sessionId = none → s.topics = ∅) :
    Joint sel key { v with sessions := v.sessions.insert s.info.session.sessionId s }
      (f.change (.putSession f.sequence s.info)) := by
  refine ⟨h.selection, h.sequence, howned, fun ref n info hr => ?_, fun id s' hs' => ?_,
    fun ref t ht => ?_, fun id s' g hs' hg => ?_⟩
  · simp only [Feed.change, FeedState.putSession, OrdMap.get?_insert] at hr ⊢
    split at hr
    · rename_i heq
      cases hr
      exact ⟨s, by rw [if_pos (by rw [heq])], rfl, heq.symm⟩
    · rename_i hne
      obtain ⟨s₀, hs₀, hinfo, hsession⟩ := h.session ref n info hr
      refine ⟨s₀, ?_, hinfo, hsession⟩
      rw [if_neg fun hid => hne ?_]
      · exact hs₀
      · rw [hid] at hs₀
        rw [← hsession, ← hinfo, (hold s₀ hs₀).1]
  · simp only [OrdMap.get?_insert] at hs'
    simp only [Feed.change, FeedState.putSession, OrdMap.get?_insert]
    split at hs'
    · cases hs'
      exact ⟨f.sequence, if_pos rfl⟩
    · rename_i hid
      obtain ⟨n, hn⟩ := h.seen id s' hs'
      exact ⟨n, by rw [if_neg (h.other hs' rfl hid)]; exact hn⟩
  · obtain ⟨s₀, hs₀, hstored⟩ := h.topic ref t ht
    simp only [OrdMap.get?_insert]
    split
    · rename_i hid
      rw [hid] at hs₀
      obtain ⟨h₁, h₂, h₃, h₄⟩ := hold s₀ hs₀
      exact ⟨s, rfl, h₁.symm.trans hstored.session, h₃ ▸ hstored.source, h₂ ▸ hstored.provider,
        h₄ ▸ hstored.known, hstored.fits⟩
    · exact ⟨s₀, hs₀, hstored⟩
  · simp only [OrdMap.get?_insert] at hs'
    split at hs'
    · cases hs'
      cases hget : v.sessions.get? s.info.session.sessionId with
      | none =>
        rw [hnew hget] at hg
        cases hg
      | some s₀ =>
        obtain ⟨h₁, -, -, h₄⟩ := hold s₀ hget
        exact h₁ ▸ h.stored _ s₀ g hget (h₄ ▸ hg)
    · exact h.stored id s' g hs' hg

/-- A session is announced. -/
theorem addSession (h : Joint sel key v f) {info : SessionInfo} (ha : v.addSession info = .ok v')
    (hb : v.begun = true) : Joint sel key v' (f.change (.putSession f.sequence info)) := by
  have howned := h.owned.addSession hb ha
  obtain ⟨-, hnone, rfl⟩ := addSession_ok ha
  refine h.putSession (s := ⟨info, ∅⟩) howned (fun s₀ hs₀ => ?_) fun _ => rfl
  rw [hnone] at hs₀
  cases hs₀

/-- A session's metadata changes. -/
theorem changeSession (h : Joint sel key v f) {info : SessionInfo}
    (ha : v.update (.sessionChanged info) = .ok v') :
    Joint sel key v' (f.change (.putSession f.sequence info)) := by
  obtain ⟨s, hs, hsel, hprov, hgame, rfl⟩ := sessionChanged_ok ha
  have howned := h.owned.update (h.owned.begun hs) ha
  refine h.putSession (s := { s with info }) howned (fun s₀ hs₀ => ?_) fun hnone => ?_
  · have hs₀ : v.sessions.get? info.session.sessionId = some s₀ := hs₀
    rw [hs] at hs₀
    cases hs₀
    exact ⟨h.owned.known_ref hs hsel rfl, hprov, hgame, rfl⟩
  · have hnone : v.sessions.get? info.session.sessionId = none := hnone
    rw [hs] at hnone
    cases hnone

/-- A session ends. -/
theorem removeSession (h : Joint sel key v f) {session : SessionRef} {s : SeenSession}
    (hs : v.sessions.get? session.sessionId = some s) (hsession : s.info.session = session) :
    Joint sel key { v with sessions := v.sessions.erase session.sessionId }
      (f.change (.removeSession session)) := by
  have hother : ∀ {ref : SessionRef} {s' : SeenSession}, v.sessions.get? ref.sessionId = some s' →
      s'.info.session = ref → ref ≠ session → ref.sessionId ≠ session.sessionId := by
    intro ref s' hs' hr hne hid
    rw [hid, hs] at hs'
    cases hs'
    exact hne (hr.symm.trans hsession)
  refine ⟨h.selection, h.sequence, h.owned.erase _, fun ref n info hr => ?_, fun id s' hs' => ?_,
    fun ref t ht => ?_, fun id s' g hs' hg => ?_⟩
  · simp only [Feed.change, FeedState.removeSession, OrdMap.get?_erase] at hr ⊢
    split at hr
    · cases hr
    · rename_i hne
      obtain ⟨s', hs', hinfo, hr'⟩ := h.session ref n info hr
      exact ⟨s', by rw [if_neg (hother hs' (by rw [hinfo, hr']) hne)]; exact hs', hinfo, hr'⟩
  · simp only [OrdMap.get?_erase] at hs'
    split at hs'
    · cases hs'
    · rename_i hid
      obtain ⟨n, hn⟩ := h.seen id s' hs'
      refine ⟨n, ?_⟩
      simp only [Feed.change, FeedState.removeSession, OrdMap.get?_erase]
      rw [if_neg (hsession ▸ h.other hs' (by rw [hsession]) hid)]
      exact hn
  · simp only [Feed.change, FeedState.removeSession, OrdMap.get?_erase] at ht ⊢
    split at ht
    · cases ht
    · rename_i hne
      obtain ⟨s', hs', hstored⟩ := h.topic ref t ht
      exact ⟨s', by rw [if_neg (hother hs' hstored.session hne)]; exact hs', hstored⟩
  · simp only [OrdMap.get?_erase] at hs'
    split at hs'
    · cases hs'
    · rename_i hid
      obtain ⟨t, ht⟩ := h.stored id s' g hs' hg
      refine ⟨t, ?_⟩
      simp only [Feed.change, FeedState.removeSession, OrdMap.get?_erase]
      rw [if_neg (hsession ▸ h.other hs' (by rw [hsession]) hid)]
      exact ht

/-- The topic of a known session is set. -/
theorem putTopic (h : Joint sel key v f) {t : TopicSnapshot} {s : SeenSession}
    (hs : v.source t.source = .ok s) (hfits : Fits v.sequence t) :
    Joint sel key (v.put t.source t.generation) (f.change (.putTopic t)) := by
  obtain ⟨hget, hsession, hgame, hprov, hmem⟩ := source_ok hs
  have hkey : t.source.topic = key := by simpa [h.topics] using hmem
  let s' : SeenSession := { s with topics := s.topics.insert t.source.topic t.generation }
  have hput : ∀ id, (v.put t.source t.generation).sessions.get? id =
      if id = t.source.session.sessionId then some s' else v.sessions.get? id := by
    intro id
    simp only [Validation.put, OrdMap.get?_modify]
    split
    · rename_i hid
      rw [hid, hget]
      rfl
    · rfl
  have hstored : Stored key v.sequence t.source.session s' t := by
    refine ⟨hsession, ?_, ?_, ?_, hfits⟩
    · cases hsrc : t.source
      simp_all [s']
    · rw [← hkey]
      exact hprov.symm
    · simp [s', hkey]
  refine ⟨h.selection, h.sequence, h.owned.put _ _, fun ref n info hr => ?_, fun id s₁ hs₁ => ?_,
    fun ref t₁ ht₁ => ?_, fun id s₁ g hs₁ hg => ?_⟩
  · obtain ⟨s₁, hs₁, hinfo, hr'⟩ := h.session ref n info hr
    rw [hput]
    split
    · rename_i hid
      rw [hid, hget] at hs₁
      cases hs₁
      exact ⟨s', rfl, hinfo, hr'⟩
    · exact ⟨s₁, hs₁, hinfo, hr'⟩
  · rw [hput] at hs₁
    split at hs₁
    · cases hs₁
      exact h.seen _ s hget
    · exact h.seen id s₁ hs₁
  · simp only [Feed.change, FeedState.putTopic, OrdMap.get?_insert] at ht₁
    rw [hput]
    split at ht₁
    · rename_i href
      cases ht₁
      exact ⟨s', by rw [if_pos (by rw [href])], href ▸ hstored⟩
    · rename_i hne
      obtain ⟨s₁, hs₁, hold⟩ := h.topic ref t₁ ht₁
      refine ⟨s₁, ?_, hold⟩
      rw [if_neg fun hid => hne ?_]
      · exact hs₁
      · rw [hid, hget] at hs₁
        cases hs₁
        exact hold.session.symm.trans hsession
  · rw [hput] at hs₁
    simp only [Feed.change, FeedState.putTopic, OrdMap.get?_insert]
    split at hs₁
    · cases hs₁
      exact ⟨t, by rw [if_pos (show s.info.session = _ from hsession)]⟩
    · obtain ⟨t₁, ht₁⟩ := h.stored id s₁ g hs₁ hg
      split
      · exact ⟨t, rfl⟩
      · exact ⟨t₁, ht₁⟩

/-- An update that the checker accepts. -/
theorem update (h : Joint sel key v f) (hb : v.begun = true) {u : SubscriptionUpdate}
    (ha : v.update u = .ok v') : Joint sel key v' (f.update u) := by
  cases u with
  | sessionStarted info => exact h.addSession ha hb
  | sessionChanged info => exact h.changeSession ha
  | sessionEnded session reason =>
    obtain ⟨s, hs, hsession, rfl⟩ := sessionEnded_ok ha
    exact h.removeSession hs hsession
  | topicReset source generation reason =>
    obtain ⟨s, old, hs, -, -, rfl⟩ := reset_ok ha
    refine h.putTopic (t := ⟨source, generation, .initializing, none⟩) hs ?_
    rintro d ⟨⟩
  | topicChanged t =>
    obtain ⟨s, hs, hfits, rfl, -⟩ := topic_ok ha
    exact h.putTopic hs hfits
  | event event =>
    rw [event_ok ha]
    exact h

/-- An item that the checker and the feed take. -/
theorem take (h : Joint sel key v f) {item : SubscriptionItem} (ha : v.take item = .ok v')
    (hf : f.receive item = .ok f') : Joint sel key v' f' := by
  cases item with
  | begin cursor =>
    cases hf
    exact h.begin ha
  | session info =>
    obtain ⟨hc, ha⟩ := Validation.check_bind.mp ha
    cases hf
    exact h.addSession ha (Bool.and_eq_true_iff.mp hc).1
  | topic t =>
    obtain ⟨s, hs, hfits, rfl, -⟩ := topic_ok (Validation.check_bind.mp ha).2
    cases hf
    exact h.putTopic hs hfits
  | snapshot frame => cases ha
  | ready cursor =>
    have howned := h.owned.take ha
    obtain ⟨-, ha⟩ := Validation.check_bind.mp ha
    obtain ⟨-, ha⟩ := Validation.check_bind.mp ha
    cases ha
    cases hf
    exact ⟨h.selection, h.sequence, howned, h.session, h.seen, h.topic, h.stored⟩
  | update envelope =>
    obtain ⟨hc, ha⟩ := Validation.check_bind.mp ha
    cases hf
    simp only [Bool.and_eq_true, decide_eq_true_eq] at hc
    obtain ⟨⟨-, hrun⟩, hseq⟩ := hc
    obtain ⟨c, hcp, -⟩ := (Option.any_eq_true _ _).mp hrun
    exact (h.advance hseq.le).update (show v.checkpoint.isSome = true by rw [hcp]; rfl) ha
  | closed reason => cases hf

end Joint

/-! ## The order of a stream -/

/-- The sequence of an item that has one. -/
def sequence? : SubscriptionItem → Option Nat
  | .update envelope => some envelope.cursor.sequence
  | _ => none

/-- The item announces the session. -/
def announces (ref : SessionRef) : SubscriptionItem → Bool
  | .session info | .update ⟨_, .sessionStarted info⟩ => info.session == ref
  | _ => false

/-- The item resets the topic of the session to this generation. -/
def resets (ref : SessionRef) (generation : Nat) : SubscriptionItem → Bool
  | .update ⟨_, .topicReset source g _⟩ => source.session == ref && g == generation
  | _ => false

section take

variable {sel : SessionSelector} {key : TopicRef} {v v' : Validation} {f f' : Feed} {item : SubscriptionItem}

/-- Only updates have a sequence, and it is above all before. -/
theorem take_sequence (ha : v.take item = .ok v') (hb : v.begun = true) :
    v'.begun = true ∧ v.sequence ≤ v'.sequence ∧
      ∀ n, sequence? item = some n → v.sequence < n ∧ v'.sequence = n := by
  have hbegun := Validation.take_begun ha hb
  refine ⟨hbegun, ?_⟩
  have hadd : ∀ {info} {w w' : Validation}, w.addSession info = .ok w' → w'.sequence = w.sequence := by
    intro info w w' hw
    obtain ⟨-, -, rfl⟩ := addSession_ok hw
    rfl
  have htopic : ∀ {t b} {w w' : Validation}, w.topic t b = .ok w' → w'.sequence = w.sequence := by
    intro t b w w' hw
    obtain ⟨s, -, -, rfl, -⟩ := topic_ok hw
    rfl
  cases item with
  | begin cursor =>
    obtain ⟨hc, -⟩ := Validation.check_bind.mp ha
    rw [hb] at hc
    cases hc
  | session info =>
    exact ⟨(hadd (Validation.check_bind.mp ha).2).ge, fun n hn => by cases hn⟩
  | topic t => exact ⟨(htopic (Validation.check_bind.mp ha).2).ge, fun n hn => by cases hn⟩
  | snapshot frame => cases ha
  | ready cursor =>
    obtain ⟨-, ha⟩ := Validation.check_bind.mp ha
    obtain ⟨-, ha⟩ := Validation.check_bind.mp ha
    cases ha
    exact ⟨le_refl _, fun n hn => by cases hn⟩
  | update envelope =>
    obtain ⟨hc, ha⟩ := Validation.check_bind.mp ha
    have hseq : v.sequence < envelope.cursor.sequence := by
      simpa using (Bool.and_eq_true_iff.mp hc).2
    have hkeep : v'.sequence = envelope.cursor.sequence := by
      cases hu : envelope.update with
      | sessionStarted info =>
        rw [hu] at ha
        exact hadd ha
      | sessionChanged info =>
        rw [hu] at ha
        obtain ⟨s, -, -, -, -, rfl⟩ := sessionChanged_ok ha
        rfl
      | sessionEnded session reason =>
        rw [hu] at ha
        obtain ⟨s, -, -, rfl⟩ := sessionEnded_ok ha
        rfl
      | topicReset source generation reason =>
        rw [hu] at ha
        obtain ⟨s, old, -, -, -, rfl⟩ := reset_ok ha
        rfl
      | topicChanged t =>
        rw [hu] at ha
        exact htopic ha
      | event event =>
        rw [hu] at ha
        rw [event_ok ha]
    refine ⟨by omega, fun n hn => ?_⟩
    cases hn
    exact ⟨hseq, hkeep⟩
  | closed reason =>
    obtain ⟨-, ha⟩ := Validation.check_bind.mp ha
    cases ha
    exact ⟨le_refl _, fun n hn => by cases hn⟩

/-! ## Generations -/

/-- The checker does not know the session. -/
def Gone (ref : SessionRef) (v : Validation) : Prop :=
  ∀ s, v.sessions.get? ref.sessionId = some s → s.info.session ≠ ref

theorem Gone.topic (h : Joint sel key v f) {ref : SessionRef} (hg : Gone ref v) :
    f.current.topics.get? ref = none := by
  cases ht : f.current.topics.get? ref with
  | none => rfl
  | some t =>
    obtain ⟨s, hs, hstored⟩ := h.topic ref t ht
    exact absurd hstored.session (hg s hs)

theorem Gone.addSession {ref : SessionRef} {info : SessionInfo} (hg : Gone ref v)
    (ha : v.addSession info = .ok v') (hne : info.session ≠ ref) : Gone ref v' := by
  obtain ⟨-, -, rfl⟩ := addSession_ok ha
  intro s hs
  simp only [OrdMap.get?_insert] at hs
  split at hs
  · cases hs
    exact hne
  · exact hg s hs

theorem Gone.put {ref : SessionRef} (hg : Gone ref v) (source : TopicSource) (generation : Nat) :
    Gone ref (v.put source generation) := by
  intro s hs
  simp only [Validation.put, OrdMap.get?_modify] at hs
  split at hs
  · obtain ⟨s₀, hs₀, rfl⟩ := Option.map_eq_some_iff.mp hs
    exact hg s₀ hs₀
  · exact hg s hs

/-- A session that is gone comes back only with an announcement. -/
theorem Gone.take (h : Joint sel key v f) {ref : SessionRef} (hg : Gone ref v)
    (ha : v.take item = .ok v') (hnot : announces ref item = false) : Gone ref v' := by
  cases item with
  | begin cursor =>
    obtain ⟨-, ha⟩ := Validation.check_bind.mp ha
    cases ha
    exact hg
  | session info =>
    exact hg.addSession (Validation.check_bind.mp ha).2 (by simpa [announces] using hnot)
  | topic t =>
    obtain ⟨s, -, -, rfl, -⟩ := topic_ok (Validation.check_bind.mp ha).2
    exact hg.put _ _
  | snapshot frame => cases ha
  | ready cursor =>
    obtain ⟨-, ha⟩ := Validation.check_bind.mp ha
    obtain ⟨-, ha⟩ := Validation.check_bind.mp ha
    cases ha
    exact hg
  | update envelope =>
    obtain ⟨-, ha⟩ := Validation.check_bind.mp ha
    obtain ⟨cursor, u⟩ := envelope
    have hg : Gone ref { v with sequence := cursor.sequence } := hg
    cases u with
    | sessionStarted info => exact hg.addSession ha (by simpa [announces] using hnot)
    | sessionChanged info =>
      obtain ⟨s₀, hs₀, hsel, -, -, rfl⟩ := sessionChanged_ok ha
      intro s hs
      simp only [OrdMap.get?_insert] at hs
      split at hs
      · rename_i hid
        cases hs
        have href : s₀.info.session = info.session := h.owned.known_ref hs₀ hsel rfl
        have hold := hg s₀ (hid ▸ hs₀)
        exact fun hf => hold (href.trans hf)
      · exact hg s hs
    | sessionEnded session reason =>
      obtain ⟨s₀, -, -, rfl⟩ := sessionEnded_ok ha
      intro s hs
      simp only [OrdMap.get?_erase] at hs
      split at hs
      · cases hs
      · exact hg s hs
    | topicReset source generation reason =>
      obtain ⟨s, old, -, -, -, rfl⟩ := reset_ok ha
      exact hg.put _ _
    | topicChanged t =>
      obtain ⟨s, -, -, rfl, -⟩ := topic_ok ha
      exact hg.put _ _
    | event event =>
      rw [event_ok ha]
      exact hg
  | closed reason =>
    obtain ⟨-, ha⟩ := Validation.check_bind.mp ha
    cases ha
    exact hg

/-- The generation of a stored topic stays, or a reset raises it. -/
def Carried (ref : SessionRef) (item : SubscriptionItem) (t t' : TopicSnapshot) : Prop :=
  t.generation ≤ t'.generation ∧
    (t.generation ≠ t'.generation → resets ref t'.generation item = true)

theorem Carried.same {ref : SessionRef} {t t' : TopicSnapshot} (h : t.generation = t'.generation) :
    Carried ref item t t' := ⟨h.le, fun hne => absurd h hne⟩

/-- A topic state of the same generation, or of another session. -/
theorem carried_putTopic (h : Joint sel key v f) {ref : SessionRef} {t : TopicSnapshot}
    (new : TopicSnapshot) (ht : f.current.topics.get? ref = some t) {s : SeenSession} (hs : v.source new.source = .ok s)
    (hc : ∀ g, s.topics.get? new.source.topic = some g → new.source.session = ref →
      Carried ref item { t with generation := g } new) :
    ∃ t₁, (f.change (.putTopic new)).current.topics.get? ref = some t₁ ∧ Carried ref item t t₁ := by
  simp only [Feed.change, FeedState.putTopic, OrdMap.get?_insert]
  split
  · rename_i href
    refine ⟨new, rfl, ?_⟩
    obtain ⟨s₀, hs₀, hstored⟩ := h.topic ref t ht
    obtain ⟨hs', -, -, -, hmem⟩ := source_ok hs
    rw [← href, hs₀] at hs'
    cases hs'
    have hkey : new.source.topic = key := by simpa [h.topics] using hmem
    exact hc t.generation (by rw [hkey]; exact hstored.known) href.symm
  · exact ⟨t, ht, .same rfl⟩

/-- What an item that does not announce the session does to its stored topic. -/
theorem take_topic (h : Joint sel key v f) {ref : SessionRef} {t : TopicSnapshot}
    (ht : f.current.topics.get? ref = some t) (ha : v.take item = .ok v')
    (hf : f.receive item = .ok f') :
    Gone ref v' ∨ ∃ t₁, f'.current.topics.get? ref = some t₁ ∧ Carried ref item t t₁ := by
  cases item with
  | begin cursor =>
    cases hf
    exact .inr ⟨t, ht, .same rfl⟩
  | session info =>
    cases hf
    exact .inr ⟨t, ht, .same rfl⟩
  | topic new =>
    obtain ⟨s, hs, -, -, hgen⟩ := topic_ok (Validation.check_bind.mp ha).2
    cases hf
    exact .inr (carried_putTopic h _ ht hs fun g hg _ => .same (hgen g hg))
  | snapshot frame => cases ha
  | ready cursor =>
    cases hf
    exact .inr ⟨t, ht, .same rfl⟩
  | update envelope =>
    obtain ⟨hseq, ha⟩ := Validation.check_bind.mp ha
    obtain ⟨cursor, u⟩ := envelope
    have hseq : v.sequence < cursor.sequence := by
      simpa using (Bool.and_eq_true_iff.mp hseq).2
    have hj := h.advance hseq.le
    cases hf
    cases u with
    | sessionStarted info => exact .inr ⟨t, ht, .same rfl⟩
    | sessionChanged info => exact .inr ⟨t, ht, .same rfl⟩
    | sessionEnded session reason =>
      obtain ⟨s, hs, hsession, rfl⟩ := sessionEnded_ok ha
      by_cases href : session = ref
      · left
        intro s' hs'
        simp [href] at hs'
      · refine .inr ⟨t, ?_, .same rfl⟩
        simp only [Feed.update, Feed.change, FeedState.removeSession,
          OrdMap.get?_erase_ne _ (Ne.symm href)]
        exact ht
    | topicReset source generation reason =>
      obtain ⟨s, old, hs, hold, hlt, -⟩ := reset_ok ha
      refine .inr (carried_putTopic hj ⟨source, generation, .initializing, none⟩ ht hs
        fun g hg href => ?_)
      rw [hold] at hg
      cases hg
      exact ⟨hlt.le, fun _ => by simp [resets, ← href]⟩
    | topicChanged new =>
      obtain ⟨s, hs, -, -, hgen⟩ := topic_ok ha
      exact .inr (carried_putTopic hj _ ht hs fun g hg _ => .same (hgen g hg))
    | event event => exact .inr ⟨t, ht, .same rfl⟩
  | closed reason => cases hf

end take

/-! ## Streams -/

section streams

variable [Blake3] [Postcard] [SerdeJson] [JsonPatch] {limit : Nat} {sel : SessionSelector}
  {key : TopicRef}

/-- The checker and the feed of a stream agree. -/
def Agrees (sel : SessionSelector) (key : TopicRef) (u : Upstream) : Prop := Joint sel key u.reader.validation u.feed

omit [Blake3] [Postcard] [SerdeJson] [JsonPatch] in
theorem agrees_new (sel : SessionSelector) (key : TopicRef) (deltas : Bool) :
    Agrees sel key (Upstream.new ⟨sel, [key]⟩ deltas) := Joint.new sel key

/-- A turn is an item that both take. -/
theorem turn_take {frame : Frame} {u w : Upstream} {item : SubscriptionItem}
    (h : u.turn limit frame = .ok (item, w)) :
    u.reader.validation.take item = .ok w.reader.validation ∧ u.feed.receive item = .ok w.feed := by
  obtain ⟨reader, hnext, hfeed, hreader, -⟩ := Upstream.turn_eq_ok h
  rw [hreader]
  exact ⟨(Validation.accept_eq_ok.mp (Reader.next_accept hnext)).1, hfeed⟩

theorem turn_agrees {frame : Frame} {u w : Upstream} {item : SubscriptionItem}
    (h : u.turn limit frame = .ok (item, w)) (hu : Agrees sel key u) : Agrees sel key w :=
  Joint.take hu (turn_take h).1 (turn_take h).2

/-- The accepted updates are in the order of their sequences. -/
theorem receiveOnce_ordered {frames : List Frame} {u w : Upstream} {items : List SubscriptionItem}
    (h : Upstream.receiveOnce limit frames u = .ok (items, w))
    (hb : u.reader.validation.begun = true) :
    (items.filterMap sequence?).Pairwise (· < ·) ∧
      ∀ n ∈ items.filterMap sequence?, u.reader.validation.sequence < n := by
  induction frames generalizing u items with
  | nil =>
    cases h
    exact ⟨.nil, by simp⟩
  | cons frame frames ih =>
    simp only [Upstream.receiveOnce] at h
    split at h
    · cases h
    rename_i item v ht
    split at h
    · cases h
    rename_i rest w' hrest
    cases h
    obtain ⟨hbegun, hle, hseq⟩ := take_sequence (turn_take ht).1 hb
    obtain ⟨hpair, hlow⟩ := ih hrest hbegun
    rw [List.filterMap_cons]
    cases hs : sequence? item with
    | none => exact ⟨hpair, fun n hn => hle.trans_lt (hlow n hn)⟩
    | some m =>
      obtain ⟨hlt, heq⟩ := hseq m hs
      refine ⟨List.pairwise_cons.mpr ⟨fun n hn => heq ▸ hlow n hn, hpair⟩, fun n hn => ?_⟩
      rcases List.mem_cons.mp hn with rfl | hn
      · exact hlt
      · have := hlow n hn
        omega

/-- Between two announcements of a session its topic's generation goes up only by resets. -/
theorem receiveOnce_generation {frames : List Frame} {u w : Upstream}
    {items : List SubscriptionItem} (h : Upstream.receiveOnce limit frames u = .ok (items, w))
    (hu : Agrees sel key u) {ref : SessionRef} (hnot : ∀ item ∈ items, announces ref item = false) :
    (Gone ref u.reader.validation → Gone ref w.reader.validation) ∧
      ∀ t t', u.feed.current.topics.get? ref = some t → w.feed.current.topics.get? ref = some t' →
        t.generation ≤ t'.generation ∧ (t.generation ≠ t'.generation →
          ∃ item ∈ items, resets ref t'.generation item = true) := by
  induction frames generalizing u items with
  | nil =>
    cases h
    refine ⟨id, fun t t' ht ht' => ?_⟩
    rw [ht] at ht'
    cases ht'
    exact ⟨le_refl _, fun hne => absurd rfl hne⟩
  | cons frame frames ih =>
    simp only [Upstream.receiveOnce] at h
    split at h
    · cases h
    rename_i item v hturn
    split at h
    · cases h
    rename_i rest w' hrest
    cases h
    obtain ⟨htake, hfeed⟩ := turn_take hturn
    have hv := turn_agrees hturn hu
    obtain ⟨hgone, hlaw⟩ := ih hrest hv fun item hi => hnot item (List.mem_cons_of_mem _ hi)
    refine ⟨fun hg => hgone (hg.take hu htake (hnot item (by simp))), fun t t' ht ht' => ?_⟩
    rcases take_topic hu ht htake hfeed with hg | ⟨t₁, ht₁, hle, hreset⟩
    · have hw : Agrees sel key w := Upstream.receiveOnce_invariant turn_agrees hrest hv
      rw [(hgone hg).topic hw] at ht'
      cases ht'
    · obtain ⟨hle', hreset'⟩ := hlaw t₁ t' ht₁ ht'
      refine ⟨hle.trans hle', fun hne => ?_⟩
      by_cases heq : t₁.generation = t'.generation
      · exact ⟨item, by simp, heq ▸ hreset (heq ▸ hne)⟩
      · obtain ⟨item', hi, hr⟩ := hreset' heq
        exact ⟨item', List.mem_cons_of_mem _ hi, hr⟩

/-- The first accepted item is Begin, and it is the only one; Closed is never followed by anything. -/
theorem receiveOnce_begin {frames : List Frame} {u w : Upstream} {items : List SubscriptionItem}
    (h : Upstream.receiveOnce limit frames u = .ok (items, w)) :
    (u.reader.validation.begun = true → ∀ cursor, .begin cursor ∉ items) ∧
      (∀ reason, .closed reason ∉ items) ∧
      (u.reader.validation.begun = false → items = [] ∨ ∃ cursor rest,
        items = .begin cursor :: rest ∧ ∀ cursor', .begin cursor' ∉ rest) := by
  induction frames generalizing u items with
  | nil =>
    cases h
    exact ⟨by simp, by simp, fun _ => .inl rfl⟩
  | cons frame frames ih =>
    simp only [Upstream.receiveOnce] at h
    split at h
    · cases h
    rename_i item v hturn
    split at h
    · cases h
    rename_i rest w' hrest
    cases h
    obtain ⟨htake, hfeed⟩ := turn_take hturn
    obtain ⟨hno, hclosed, -⟩ := ih hrest
    refine ⟨fun hb cursor hm => ?_, fun reason hm => ?_, fun hb => .inr ?_⟩
    · rcases List.mem_cons.mp hm with rfl | hm
      · obtain ⟨hc, -⟩ := Validation.check_bind.mp htake
        rw [hb] at hc
        cases hc
      · exact hno (Validation.take_begun htake hb) cursor hm
    · rcases List.mem_cons.mp hm with rfl | hm
      · cases hfeed
      · exact hclosed reason hm
    · -- Before Begin every check fails.
      have hcp : u.reader.validation.checkpoint = none := by simpa [Validation.begun] using hb
      cases item with
      | begin cursor =>
        obtain ⟨hc, hv⟩ := Validation.check_bind.mp htake
        have hbegun : v.reader.validation.begun = true := by
          rw [← Except.ok.inj hv]
          rfl
        exact ⟨cursor, rest, rfl, hno hbegun⟩
      | session info =>
        obtain ⟨hc, -⟩ := Validation.check_bind.mp htake
        simp [hb] at hc
      | topic t =>
        obtain ⟨hc, -⟩ := Validation.check_bind.mp htake
        simp [hb] at hc
      | snapshot frame => cases htake
      | ready cursor =>
        obtain ⟨hc, -⟩ := Validation.check_bind.mp htake
        simp [hcp] at hc
      | update envelope =>
        obtain ⟨hc, -⟩ := Validation.check_bind.mp htake
        simp [hcp] at hc
      | closed reason => cases hfeed

omit [Blake3] [Postcard] [SerdeJson] [JsonPatch] in
/-- A stored topic is the selected one, of a known session that the selection takes. -/
theorem Joint.stored_topic {v : Validation} {f : Feed} (h : Joint sel key v f) {ref : SessionRef}
    {t : TopicSnapshot} (ht : f.current.topics.get? ref = some t) :
    t.source.session = ref ∧ t.source.topic = key ∧ Fits f.sequence t ∧
      (sel = .all ∨ sel = .session ref) ∧ ∃ n info, f.current.sessions.get? ref = some (n, info) ∧
        info.session = ref ∧ info.providerId = key.providerId ∧ info.gameId = t.source.gameId := by
  obtain ⟨s, hs, hstored⟩ := h.topic ref t ht
  obtain ⟨n, hn⟩ := h.seen _ s hs
  have hsel := (Bool.and_eq_true_iff.mp (h.owned.owned _ s hs).2).2
  rw [h.selection] at hsel
  refine ⟨by rw [hstored.source], by rw [hstored.source], h.sequence ▸ hstored.fits, ?_, n, s.info,
    hstored.session ▸ hn, hstored.session, hstored.provider.symm, by rw [hstored.source]⟩
  cases sel with
  | all => exact .inl rfl
  | session reference =>
    have href : reference = s.info.session := by simpa using hsel
    exact .inr (by rw [href, hstored.session])

/-- What a feed of one topic has, whatever frames its peer sends on the first stream or, after a delta
that did not apply, on the second. -/
theorem peer_safe (sel : SessionSelector) (key : TopicRef) {first second : List Frame}
    {items : List SubscriptionItem} {w : Upstream}
    (h : Upstream.receive limit ⟨sel, [key]⟩ first second = .ok (items, w)) :
    (∀ ref t, w.feed.current.topics.get? ref = some t →
      t.source.session = ref ∧ t.source.topic = key ∧ Fits w.feed.sequence t ∧
        (sel = .all ∨ sel = .session ref) ∧ ∃ n info, w.feed.current.sessions.get? ref = some (n, info) ∧
          info.session = ref ∧ info.providerId = key.providerId ∧ info.gameId = t.source.gameId) ∧
    (items.filterMap sequence?).Pairwise (· < ·) ∧
    (items = [] ∨ ∃ cursor rest, items = .begin cursor :: rest ∧ ∀ cursor', .begin cursor' ∉ rest) ∧
    (∀ reason, .closed reason ∉ items) ∧
    (∀ frame e frames, w.turn limit frame = .error e →
      Upstream.receiveOnce limit (frame :: frames) w = .error e) ∧
    ∃ deltas frames, Upstream.receiveOnce limit frames (.new ⟨sel, [key]⟩ deltas) = .ok (items, w) ∧
      ∀ fs gs, frames = fs ++ gs → ∃ before u after,
        Upstream.receiveOnce limit fs (.new ⟨sel, [key]⟩ deltas) = .ok (before, u) ∧
        Upstream.receiveOnce limit gs u = .ok (after, w) ∧ items = before ++ after ∧
          ∀ ref, (∀ item ∈ after, announces ref item = false) → ∀ t t',
            u.feed.current.topics.get? ref = some t → w.feed.current.topics.get? ref = some t' →
              t.generation ≤ t'.generation ∧ (t.generation ≠ t'.generation →
                ∃ item ∈ after, resets ref t'.generation item = true) := by
  obtain ⟨deltas, frames, hrun⟩ : ∃ deltas frames,
      Upstream.receiveOnce limit frames (.new ⟨sel, [key]⟩ deltas) = .ok (items, w) := by
    unfold Upstream.receive at h
    split at h
    · exact ⟨false, second, h⟩
    · exact ⟨true, first, h⟩
  have hagrees : Agrees sel key w :=
    Upstream.receiveOnce_invariant turn_agrees hrun (agrees_new sel key deltas)
  obtain ⟨-, hclosed, hbegin⟩ := receiveOnce_begin hrun
  refine ⟨fun ref t ht => hagrees.stored_topic ht, ?_, hbegin rfl, hclosed, fun frame e frames he => ?_,
    deltas, frames, hrun, fun fs gs hsplit => ?_⟩
  · -- The updates come after Begin, the first item.
    cases frames with
    | nil =>
      cases hrun
      exact .nil
    | cons frame frames =>
      simp only [Upstream.receiveOnce] at hrun
      split at hrun
      · cases hrun
      rename_i item v hturn
      split at hrun
      · cases hrun
      rename_i rest w' hrest
      cases hrun
      rcases hbegin rfl with hnil | ⟨cursor, rest', heq, -⟩
      · cases hnil
      · cases heq
        obtain ⟨-, hv⟩ := Validation.check_bind.mp (turn_take hturn).1
        have hbegun : v.reader.validation.begun = true := by
          rw [← Except.ok.inj hv]
          rfl
        exact (receiveOnce_ordered hrest hbegun).1
  · rw [Upstream.receiveOnce, he]
  · obtain ⟨before, u, after, hu, hw, rfl⟩ := Upstream.receiveOnce_append.mp (hsplit ▸ hrun)
    have hau : Agrees sel key u :=
      Upstream.receiveOnce_invariant turn_agrees hu (agrees_new sel key deltas)
    exact ⟨before, u, after, hu, hw, rfl, fun ref hnot => (receiveOnce_generation hw hau hnot).2⟩

end streams

open TestSupport Service in
/-- A bootstrap, a reset, and a snapshot frame that the reader reconstructs. -/
theorem peer_safe_frames :
    let info : SessionInfo := one.info
    let source : TopicSource := ⟨⟨"run", "one"⟩, "fixture", topic⟩
    let frames : List Frame :=
      [.item (.begin ⟨"run", 5⟩), .item (.session info), .item (.topic ⟨source, 1, .idle, none⟩),
        .item (.ready ⟨"run", 5⟩), .item (.update ⟨⟨"run", 6⟩, .topicReset source 2 .demandResumed⟩),
        .item (.snapshot ⟨some ⟨"run", 7⟩, ⟨source, 2, 7⟩, .full ⟨"7"⟩⟩)]
    ∃ items w, Upstream.receive 1000 ⟨.all, [topic]⟩ frames [] = .ok (items, w) ∧
      items.length = 6 ∧ (items.filterMap sequence?).Pairwise (· < ·) := by
  intro info source frames
  have hlen : ((Upstream.receive 1000 ⟨.all, [topic]⟩ frames []).toOption.map fun p => p.1.length) =
      some 6 := by decide +kernel
  obtain ⟨⟨items, w⟩, hp, hlen⟩ := Option.map_eq_some_iff.mp hlen
  have hrun : Upstream.receive 1000 ⟨.all, [topic]⟩ frames [] = .ok (items, w) := by
    cases hr : Upstream.receive 1000 ⟨.all, [topic]⟩ frames [] with
    | error e =>
      rw [hr] at hp
      cases hp
    | ok p =>
      rw [hr] at hp
      cases hp
      rfl
  exact ⟨items, w, hrun, hlen, (peer_safe .all topic hrun).2.1⟩

end Sdk
end WfObserver
