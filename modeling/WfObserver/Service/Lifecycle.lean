import WfObserver.Service.Discard

/-!
# What the lifecycle operations do

`addSession_cases` lists the outcomes of `add_session` in the form of `transact_eq`: the new session
is stored, then announced with its topics.
-/

namespace WfObserver
namespace Service

open Wire

namespace Inner

/-- The service with a new session stored. -/
def stored (p : ProviderDescriptor) (info : SessionInfo) (i : Inner) : Inner :=
  (i.put (i.sessions.insert info.session.sessionId ⟨info, newTopics p info⟩)).record
    [.started info.session.sessionId]

/-- What announces a new session. -/
def arrival (p : ProviderDescriptor) (info : SessionInfo) : List SubscriptionUpdate :=
  .sessionStarted info :: (newTopics p info).values.map fun t => .topicChanged t.state

/-- There are no sequences for what announces a new session. -/
def Crowded (info : SessionInfo) (i : Inner) : Prop :=
  ∃ p, i.catalog.providers.find? (fun p => p.id == info.providerId) = some p ∧
    u64Max < i.sequence + (1 + p.capabilities.length)

variable {p : ProviderDescriptor} {info : SessionInfo} {key : TopicRef} {t : Topic} {i : Inner}

theorem newTopics_get? (h : (newTopics p info).get? key = some t) : t = newTopic info key := by
  obtain ⟨cap, -, he⟩ := List.mem_map.mp (OrdMap.mem_of_get?_ofList h)
  cases he
  rfl

/-- A session's topics are as many as its provider's capabilities, at most. -/
theorem newTopics_size (p : ProviderDescriptor) (info : SessionInfo) :
    (newTopics p info).size ≤ p.capabilities.length := by
  unfold newTopics
  exact (OrdMap.size_ofList_le _).trans (by simp)

/-- The sessions of a status are sessions of this run. -/
theorem incoming_session {status : HostStatus} {id : String}
    (h : (id, info) ∈ (i.incoming status).entries) : info.session = ⟨i.runId, id⟩ := by
  obtain ⟨target, -, ht⟩ := List.mem_filterMap.mp
    (OrdMap.mem_of_get?_ofList (OrdMap.get?_eq_some.mpr h))
  split at ht
  · cases ht; rfl
  · cases ht

variable [Postcard]

/-- The outcomes of `add_session`: the provider is unknown, the service has stopped, closes for lack of
sequences, or the session is stored and announced. -/
theorem addSession_cases (info : SessionInfo) (i : Inner) :
    (i.catalog.providers.find? (fun p => p.id == info.providerId) = none ∧
      i.addSession info = (.error (invalid "unregistered session provider"), i)) ∨
    (i.stopped = true ∧ i.addSession info = (.ok (), i)) ∨
    ((i.stopped = false ∧ i.Crowded info) ∧ i.addSession info = (.ok (), i.close exhausted)) ∨
    ∃ p ∈ i.catalog.providers, p.id = info.providerId ∧
      (i.stopped = false ∧ i.catalog.providers.find? (fun p => p.id == info.providerId) = some p) ∧
      i.sequence + (arrival p info).length ≤ u64Max ∧
      i.addSession info = (.ok (), (i.stored p info).emitAll (arrival p info)) := by
  unfold addSession
  split
  · rename_i hp; exact .inl ⟨hp, rfl⟩
  rename_i p hp
  cases hstop : i.stopped with
  | true => exact .inr (.inl ⟨rfl, by simp only [ensureSequences, hstop, if_true]⟩)
  | false =>
    rcases ensureSequences_cases hstop (1 + p.capabilities.length) with ⟨hc, he⟩ | ⟨hc, he⟩
    · rw [he]
      have hsize := newTopics_size p info
      have hlen : i.sequence + (arrival p info).length ≤ u64Max := by
        simp only [arrival, List.length_cons, List.length_map, OrdMap.values, OrdMap.size] at hsize ⊢
        omega
      have hroom : i.sequence < u64Max := by
        simp only [arrival, List.length_cons] at hlen
        omega
      have hid : p.id = info.providerId := by simpa using List.find?_some hp
      refine .inr (.inr (.inr ⟨p, List.mem_of_find?_eq_some hp, hid, ⟨rfl, hp⟩, hlen, ?_⟩))
      have hemit := emit_room (i := i.stored p info) hstop hroom (.sessionStarted info)
      have hget : ((i.stored p info).announce (.sessionStarted info)).sessions.get?
          info.session.sessionId = some ⟨info, newTopics p info⟩ := by
        simp [announce, stored, put, record]
      simp only [stored, put, record] at hemit hget
      simp only [arrival, emitAll_cons, stored, put, record]
      rw [hemit, hget]
      simp only [List.map_map]
      rfl
    · rw [he]
      exact .inr (.inr (.inl ⟨⟨rfl, p, hp, hc⟩, rfl⟩))

end Inner

end Service
end WfObserver
