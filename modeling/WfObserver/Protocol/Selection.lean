import WfObserver.Protocol.Replica

/-!
# What a selection sees

`visible` is the part of a replica that a selection asks for, `relevant` says which updates concern
it. They agree: an allowed update that is not relevant does not change the visible part
(`visible_skip`), and a relevant one is an allowed update of the visible part (`visible_take`).

`bootstrap` describes the visible part in one piece; `followed` are the relevant updates after it.
-/

namespace WfObserver
namespace Protocol

open Wire

/-- The selection asks for this session. -/
def takesSession (sel : Subscribe) (session : SessionRef) : Bool :=
  match sel.sessions with
  | .all => true
  | .session reference => reference == session

/-- The selection asks for this topic of this session. -/
def takes (sel : Subscribe) (session : SessionRef) (topic : TopicRef) : Bool :=
  takesSession sel session && sel.topics.contains topic

/-- The selection asks for the session and for a topic of its provider. -/
def takesInfo (sel : Subscribe) (info : SessionInfo) : Bool :=
  takesSession sel info.session && sel.topics.any fun t => t.providerId == info.providerId

/-- The update concerns the selection. An end is announced while the session is still there. -/
def relevant (sel : Subscribe) (R : Replica) (u : SubscriptionUpdate) : Bool :=
  match u with
  | .sessionStarted info | .sessionChanged info => takesInfo sel info
  | .sessionEnded session _ =>
    match R.get? session.sessionId with
    | some s => takesInfo sel s.info
    | none => takesSession sel session
  | .topicReset source _ _ => takes sel source.session source.topic
  | .topicChanged topic => takes sel topic.source.session topic.source.topic
  | .event event => takes sel event.metadata.source.session event.metadata.source.topic

def Seen.select (sel : Subscribe) (s : Seen) : Seen :=
  { s with topics := s.topics.filter fun key _ => sel.topics.contains key }

@[simp] theorem Seen.select_info (sel : Subscribe) (s : Seen) : (s.select sel).info = s.info := rfl

/-- The part of the replica that the selection asks for. -/
def visible (sel : Subscribe) (R : Replica) : Replica :=
  (R.filter fun _ s => takesInfo sel s.info).map fun _ s => s.select sel

/-- Every selected topic of a visible session has been announced. -/
def Complete (sel : Subscribe) (R : Replica) : Prop :=
  ∀ id s, R.get? id = some s → takesInfo sel s.info = true → ∀ key ∈ sel.topics,
    key.providerId = s.info.providerId → (s.topics.get? key).isSome

/-- The items of a bootstrap of one session. -/
def sessionItems (sel : Subscribe) (s : Seen) : List SubscriptionItem :=
  .session s.info :: (s.topics.values.filter fun t =>
    takes sel t.source.session t.source.topic).map .topic

/-- The items that describe the visible part at a cursor. -/
def bootstrap (sel : Subscribe) (R : Replica) (cursor : ServiceCursor) : List SubscriptionItem :=
  .begin cursor :: (R.values.filter fun s => takesInfo sel s.info).flatMap (sessionItems sel) ++
    [.ready cursor]

/-- The relevant ones of the updates after `R`. -/
def followed (sel : Subscribe) : Replica → List UpdateEnvelope → List SubscriptionItem
  | _, [] => []
  | R, e :: us =>
    (if relevant sel R e.update then [.update e] else []) ++ followed sel (apply R e) us

theorem followed_append (sel : Subscribe) (R : Replica) (us vs : List UpdateEnvelope) :
    followed sel R (us ++ vs) = followed sel R us ++ followed sel (replay R us) vs := by
  induction us generalizing R with
  | nil => rfl
  | cons e us ih => simp [followed, ih, replay]

variable {sel : Subscribe} {R : Replica} {e : UpdateEnvelope} {runId : String} {n : Nat}

theorem visible_get? (id : String) : (visible sel R).get? id =
    (R.get? id).bind fun s => if takesInfo sel s.info then some (s.select sel) else none := by
  rw [visible, OrdMap.get?_map, OrdMap.get?_filter]
  cases R.get? id with
  | none => rfl
  | some s => by_cases h : takesInfo sel s.info <;> simp [h, Option.filter]

/-- A visible session is a session of the replica that the selection asks for. -/
theorem visible_eq_some {id : String} {s : Seen} : (visible sel R).get? id = some s ↔
    ∃ s₀, R.get? id = some s₀ ∧ takesInfo sel s₀.info = true ∧ s₀.select sel = s := by
  rw [visible_get?, Option.bind_eq_some_iff]
  simp

theorem visible_some {id : String} {s : Seen} (hs : R.get? id = some s)
    (ht : takesInfo sel s.info = true) : (visible sel R).get? id = some (s.select sel) := by
  simp [visible_get?, hs, ht]

theorem visible_none {id : String} {s : Seen} (hs : R.get? id = some s)
    (ht : takesInfo sel s.info = false) : (visible sel R).get? id = none := by
  simp [visible_get?, hs, ht]

/-- One session of the visible part changes with that session. -/
theorem visible_insert (id : String) (s : Seen) : visible sel (R.insert id s) =
    if takesInfo sel s.info then (visible sel R).insert id (s.select sel)
    else (visible sel R).erase id := by
  refine OrdMap.ext_get? fun k => ?_
  rw [visible_get?, OrdMap.get?_insert]
  by_cases hk : k = id
  · subst hk
    by_cases ht : takesInfo sel s.info = true <;> simp [ht]
  · rw [if_neg hk, ← visible_get?]
    split
    · rw [OrdMap.get?_insert_ne _ _ hk]
    · rw [OrdMap.get?_erase_ne _ hk]

theorem visible_erase (id : String) : visible sel (R.erase id) = (visible sel R).erase id := by
  refine OrdMap.ext_get? fun k => ?_
  rw [visible_get?, OrdMap.get?_erase, OrdMap.get?_erase, visible_get?]
  split <;> rfl

/-- A topic of the selection is one of a session that the selection asks for. -/
theorem takesInfo_of_takes {info : SessionInfo} {key : TopicRef}
    (hp : key.providerId = info.providerId) (h : takes sel info.session key = true) :
    takesInfo sel info = true := by
  simp only [takes, takesInfo, Bool.and_eq_true, List.any_eq_true, beq_iff_eq,
    List.contains_iff_mem] at h ⊢
  exact ⟨h.1, key, h.2, hp⟩

theorem takes_of_takesInfo {info : SessionInfo} (h : takesInfo sel info = true) (key : TopicRef) :
    takes sel info.session key = sel.topics.contains key := by
  simp only [takesInfo, Bool.and_eq_true] at h
  simp [takes, h.1]

theorem select_get? (s : Seen) {key : TopicRef} (h : sel.topics.contains key = true) :
    (s.select sel).topics.get? key = s.topics.get? key := by
  unfold Seen.select
  rw [OrdMap.get?_filter]
  cases s.topics.get? key with
  | none => rfl
  | some t => rw [Option.filter, if_pos h]

theorem select_get?_other {key : TopicRef} (s : Seen) (h : sel.topics.contains key = false) :
    (s.select sel).topics.get? key = none := by
  unfold Seen.select
  rw [OrdMap.get?_filter]
  cases s.topics.get? key with
  | none => rfl
  | some t => rw [Option.filter, if_neg (by rw [h]; simp)]

/-- Installing a topic is visible if the selection asks for the topic. -/
theorem select_install (s : Seen) (key : TopicRef) (t : TopicSnapshot) :
    (s.install key t).select sel =
      if sel.topics.contains key then (s.select sel).install key t else s.select sel := by
  have hother : sel.topics.contains key = false → (s.select sel).topics.get? key = none :=
    select_get?_other s
  unfold Seen.install Seen.select at *
  dsimp only at *
  rw [OrdMap.filter_insert]
  split
  · rfl
  · rename_i h
    rw [OrdMap.erase_absent (hother (by simpa using h))]

theorem select_update (s : Seen) (key : TopicRef) (topic : Option TopicSnapshot) :
    (s.update key topic).select sel =
      if sel.topics.contains key then (s.select sel).update key topic else s.select sel := by
  cases topic with
  | none => simp [Seen.update]
  | some t => exact select_install s key t

theorem relevant_topic {source : TopicSource} (h : source? e.update = some source) :
    relevant sel R e.update = takes sel source.session source.topic := by
  cases hu : e.update <;> rw [hu] at h <;> cases h <;> rfl

/-- An allowed update that does not concern the selection changes nothing visible. -/
theorem visible_skip (ha : Allowed runId R e) (hr : relevant sel R e.update = false) :
    visible sel (apply R e) = visible sel R := by
  rcases update_cases e.update with ⟨info, hu⟩ | ⟨info, hu⟩ | ⟨session, r, hu⟩ | ⟨source, hsrc⟩
  · simp only [Allowed, hu] at ha
    simp only [relevant, hu] at hr
    simp only [apply, hu, visible_insert, hr]
    exact OrdMap.erase_absent (by simp [visible_get?, ha.1])
  · simp only [Allowed, hu] at ha
    simp only [relevant, hu] at hr
    obtain ⟨s, hs, hsess, hprov, -⟩ := ha
    have hold : takesInfo sel s.info = false := by
      rw [← hr, takesInfo, takesInfo, hsess, hprov]
    simp only [apply, hu, OrdMap.modify_eq_insert hs, visible_insert, hr]
    exact OrdMap.erase_absent (visible_none hs hold)
  · simp only [Allowed, hu] at ha
    obtain ⟨s, hs, -⟩ := ha
    simp only [relevant, hu, hs] at hr
    simp only [apply, hu, visible_erase]
    exact OrdMap.erase_absent (visible_none hs hr)
  · obtain ⟨s, hs, hsrc', hprov, -⟩ := (allowed_topic hsrc).mp ha
    rw [hsrc] at hsrc'
    have hsession : source.session = s.info.session := by rw [Option.some.inj hsrc']
    rw [relevant_topic hsrc] at hr
    rw [apply_topic hsrc hs, visible_insert]
    -- Either the session is not visible, or the topic is not.
    cases ht : takesInfo sel s.info with
    | false =>
      rw [Seen.update_info, ht]
      exact OrdMap.erase_absent (visible_none hs ht)
    | true =>
      have hkey : sel.topics.contains source.topic = false := by
        rw [← takes_of_takesInfo ht, ← hsession]; exact hr
      rw [Seen.update_info, ht, if_pos rfl, select_update, hkey]
      exact OrdMap.insert_get? (visible_some hs ht)

/-- An allowed update that concerns the selection is an allowed update of the visible part. -/
theorem visible_take (ha : Allowed runId R e) (hr : relevant sel R e.update = true) :
    visible sel (apply R e) = apply (visible sel R) e ∧ Allowed runId (visible sel R) e := by
  rcases update_cases e.update with ⟨info, hu⟩ | ⟨info, hu⟩ | ⟨session, r, hu⟩ | ⟨source, hsrc⟩
  · simp only [Allowed, hu] at ha
    simp only [relevant, hu] at hr
    simp only [apply, Allowed, hu, visible_insert, hr, if_true]
    exact ⟨rfl, by simp [visible_get?, ha.1], ha.2⟩
  · simp only [Allowed, hu] at ha
    simp only [relevant, hu] at hr
    obtain ⟨s, hs, hsess, hprov, hgame⟩ := ha
    have hold : takesInfo sel s.info = true := by
      rw [← hr, takesInfo, takesInfo, hsess, hprov]
    have hvis := visible_some hs hold
    simp only [apply, Allowed, hu, OrdMap.modify_eq_insert hs, OrdMap.modify_eq_insert hvis,
      visible_insert, hr, if_true]
    exact ⟨rfl, _, hvis, hsess, hprov, hgame⟩
  · simp only [Allowed, hu] at ha
    obtain ⟨s, hs, hsess⟩ := ha
    simp only [relevant, hu, hs] at hr
    simp only [apply, Allowed, hu, visible_erase]
    exact ⟨trivial, _, visible_some hs hr, hsess⟩
  · obtain ⟨s, hs, hal⟩ := (allowed_topic hsrc).mp ha
    have hsession : source.session = s.info.session := by
      have := hal.1
      rw [hsrc] at this
      rw [Option.some.inj this]
    rw [relevant_topic hsrc] at hr
    have ht : takesInfo sel s.info = true := takesInfo_of_takes hal.2.1 (hsession ▸ hr)
    have hkey : sel.topics.contains source.topic = true := by
      rw [← takes_of_takesInfo ht, ← hsession]; exact hr
    have hvis := visible_some hs ht
    have hget := select_get? s hkey
    refine ⟨?_, (allowed_topic hsrc).mpr ⟨_, hvis, by rw [hget]; exact hal⟩⟩
    rw [apply_topic hsrc hs, apply_topic hsrc hvis, visible_insert, hget, Seen.update_info, ht,
      if_pos rfl, select_update, hkey, if_pos rfl]

/-- The visible part of a coherent replica is coherent. -/
theorem Coherent.visible (h : Coherent runId n R) (sel : Subscribe) :
    Coherent runId n (visible sel R) := by
  refine ⟨fun id s hs => ?_, fun id s key t hs ht => ?_⟩
  · obtain ⟨s₀, hs₀, -, rfl⟩ := visible_eq_some.mp hs
    exact h.session id s₀ hs₀
  · obtain ⟨s₀, hs₀, -, rfl⟩ := visible_eq_some.mp hs
    exact h.topics id s₀ key t hs₀ (OrdMap.get?_filter_some.mp ht).1

end Protocol
end WfObserver
