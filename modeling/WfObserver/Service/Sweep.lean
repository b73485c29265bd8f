import WfObserver.Service.Discard

/-!
# Sweeps over the topics

A sweep changes every topic by a function of that topic and collects the changes in order. A pass
that did not stop is a sweep (`pass_sweep`), and so is what a discarded poll does
(`discard_sweep`). Of the changes of a sweep, those of one topic are the ones that its own step made
(`filter_swept`).
-/

namespace WfObserver
namespace Service

open Wire

/-- A step of each topic, by session and topic. -/
abbrev Steps := String → Session → TopicRef → Topic → Topic × List Change

/-- Every topic after its step. -/
def sweep (g : Steps) (sessions : OrdMap String Session) : OrdMap String Session :=
  sessions.map fun id s => { s with topics := s.topics.map fun key t => (g id s key t).1 }

/-- The changes of all steps, in order. -/
def swept (g : Steps) (sessions : OrdMap String Session) : List Change :=
  sessions.entries.flatMap fun e => e.2.topics.entries.flatMap fun t => (g e.1 e.2 t.1 t.2).2

variable {g : Steps} {sessions : OrdMap String Session}

theorem mem_swept {c : Change} (h : c ∈ swept g sessions) : ∃ id s key t,
    sessions.get? id = some s ∧ s.topics.get? key = some t ∧ c ∈ (g id s key t).2 := by
  obtain ⟨⟨id, s⟩, hs, hc⟩ := List.mem_flatMap.mp h
  obtain ⟨⟨key, t⟩, ht, hc⟩ := List.mem_flatMap.mp hc
  exact ⟨id, s, key, t, OrdMap.get?_eq_some.mpr hs, OrdMap.get?_eq_some.mpr ht, hc⟩

/-- What the step of one topic changed. -/
def steppedAt (g : Steps) (sessions : OrdMap String Session) (id : String) (key : TopicRef) :
    List Change :=
  ((sessions.get? id).bind fun s => (s.topics.get? key).map fun t => (g id s key t).2).getD []

theorem steppedAt_some {id : String} {s : Session} {key : TopicRef} {t : Topic}
    (hs : sessions.get? id = some s) (ht : s.topics.get? key = some t) :
    steppedAt g sessions id key = (g id s key t).2 := by simp [steppedAt, hs, ht]

/-- A filter that the changes of one topic pass, and no others. -/
theorem filter_swept {q : Change → Bool} {id : String} {key : TopicRef}
    (hown : ∀ s t, sessions.get? id = some s → s.topics.get? key = some t →
      ∀ c ∈ (g id s key t).2, q c = true)
    (hother : ∀ id' s key' t, sessions.get? id' = some s → s.topics.get? key' = some t →
      (id', key') ≠ (id, key) → ∀ c ∈ (g id' s key' t).2, q c = false) :
    (swept g sessions).filter q = steppedAt g sessions id key := by
  have hsession := OrdMap.filter_flatMap (m := sessions) (k := id) (q := q)
    (f := fun id s => s.topics.entries.flatMap fun t => (g id s t.1 t.2).2) <| by
      intro id' s hs hne c hc
      obtain ⟨⟨key', t⟩, ht, hc⟩ := List.mem_flatMap.mp hc
      exact hother id' s key' t hs (OrdMap.get?_eq_some.mpr ht) (by simp [hne]) c hc
  rw [swept, hsession, steppedAt]
  cases hs : sessions.get? id with
  | none => rfl
  | some s =>
    have htopic := OrdMap.filter_flatMap (m := s.topics) (k := key) (q := q)
      (f := fun key t => (g id s key t).2) <| by
        intro key' t ht hne
        exact hother id s key' t hs ht (by simpa using hne)
    simp only [Option.map_some, Option.getD_some, Option.bind_some, htopic]
    cases ht : s.topics.get? key with
    | none => rfl
    | some t =>
      simp only [Option.map_some, Option.getD_some]
      exact List.filter_eq_self.mpr (hown s t hs ht)

theorem sweep_get? (id : String) : (sweep g sessions).get? id = (sessions.get? id).map fun s =>
    { s with topics := s.topics.map fun key t => (g id s key t).1 } := OrdMap.get?_map _ _ _

namespace Inner

/-- A pass that did not stop is a sweep. -/
theorem pass_sweep {f : String → Session → TopicRef → Topic → Topic × List Change × Bool}
    (h : (pass f sessions).2.2 = false) :
    (pass f sessions).1 = sweep (fun id s key t => ((f id s key t).1, (f id s key t).2.1)) sessions ∧
      (pass f sessions).2.1 =
        swept (fun id s key t => ((f id s key t).1, (f id s key t).2.1)) sessions := by
  refine ⟨pass_map h, ?_⟩
  unfold pass at h ⊢
  rw [OrdMap.visit_out h]
  refine List.flatMap_congr fun e he => ?_
  have hgo : (e.2.topics.visit (f e.1 e.2)).2.2 = false :=
    OrdMap.visit_go h (OrdMap.get?_eq_some.mpr he)
  exact OrdMap.visit_out hgo

/-- The steps of a discarded poll. -/
def discardSteps (ticket : PollTicket) (resets : List TopicRef) (failed : Bool)
    (session : Session) : Steps := fun id _ key t =>
  if id = ticket.sessionId then
    (discardedTopic ticket.sessionId (affected ticket resets failed session) key t,
      discardChanges ticket.sessionId (affected ticket resets failed session) key t)
  else (t, [])

variable {i : Inner} {ticket : PollTicket} {session : Session}

/-- What a discarded poll does to the sessions is a sweep. -/
theorem discard_sweep (resets : List TopicRef) (failed : Bool)
    (h : i.sessions.get? ticket.sessionId = some session) :
    (i.discardStored ticket resets failed session).sessions =
        sweep (discardSteps ticket resets failed session) i.sessions ∧
      discardList ticket resets failed session =
        swept (discardSteps ticket resets failed session) i.sessions := by
  constructor
  · refine OrdMap.ext_get? fun id => ?_
    rw [sweep_get?]
    simp only [discardStored, put, record, OrdMap.get?_insert]
    split
    · rename_i hid
      subst hid
      simp [h, discardSteps]
    · rename_i hid
      cases hs : i.sessions.get? id with
      | none => rfl
      | some s =>
        have : s.topics.map (fun _ t => t) = s.topics := OrdMap.map_id fun _ _ _ => rfl
        simp [discardSteps, hid, this]
  · have hone := OrdMap.filter_flatMap (m := i.sessions) (k := ticket.sessionId) (q := fun _ => true)
      (f := fun id s => s.topics.entries.flatMap fun t =>
        (discardSteps ticket resets failed session id s t.1 t.2).2) <| by
          intro id s _ hid c hc
          simp [discardSteps, hid] at hc
    rw [h] at hone
    simp only [List.filter_true, Option.map_some, Option.getD_some] at hone
    rw [swept, hone]
    simp only [discardSteps, if_true]
    rfl

end Inner

end Service
end WfObserver
