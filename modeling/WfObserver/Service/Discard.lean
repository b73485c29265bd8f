import WfObserver.Service.Transaction

/-!
# What discarding a poll does

`discard_poll` in the form of `transact_eq`: the session's topics change in one step
(`discardedTopic`), then the changes are announced (`discardChanges`). `discardPoll_cases` lists the
outcomes.
-/

namespace WfObserver
namespace Service

open Wire

namespace Inner

variable [Postcard]

section discard

variable {ticket : PollTicket} {resets : List TopicRef} {failed : Bool} {session : Session}
  {key : TopicRef}

omit [Postcard] in
/-- What `discard_poll` touches: demanded topics at the ticket's generation. -/
theorem affected_some {reset : Bool}
    (h : (affected ticket resets failed session).get? key = some reset) :
    ∃ d ∈ ticket.topics, d.key = key ∧ ∃ t, session.topics.get? key = some t ∧
      t.demanded = true ∧ t.state.generation = d.generation ∧ reset = resets.contains key ∧
      (reset = true ∨ failed = true ∧ t.epoch = d.epoch) := by
  obtain ⟨d, hd, hk⟩ := List.mem_filterMap.mp (OrdMap.mem_of_get?_ofList h)
  unfold Demand.affected at hk
  split at hk
  · cases hk
  rename_i t ht
  split at hk
  · cases hk
  rename_i hdem
  dsimp only at hk
  split at hk
  · rename_i hr
    cases hk
    simp only [Bool.or_eq_true, Bool.not_eq_true', not_or, Bool.not_eq_false, decide_eq_true_eq,
      ne_eq, not_not] at hdem
    simp only [Bool.or_eq_true, Bool.and_eq_true, beq_iff_eq] at hr
    exact ⟨d, hd, rfl, t, ht, hdem.1, hdem.2, rfl, hr⟩
  · cases hk

omit [Postcard] in
/-- A declared reset is applied to a topic that is demanded at the ticket's generation. -/
theorem affected_reset {d : Demand} (hd : d ∈ ticket.topics) (hk : d.key = key) {t : Topic}
    (ht : session.topics.get? key = some t) (hdem : t.demanded = true)
    (hgen : t.state.generation = d.generation) (hr : key ∈ resets) :
    (affected ticket resets failed session).get? key = some true := by
  have hc : (affected ticket resets failed session).contains key = true := by
    refine OrdMap.contains_ofList.mpr ⟨true, List.mem_filterMap.mpr ⟨d, hd, ?_⟩⟩
    subst hk
    simp [Demand.affected, ht, hdem, hgen, hr]
  obtain ⟨reset, hreset⟩ := OrdMap.contains_iff.mp hc
  obtain ⟨-, -, -, -, -, -, -, rfl, -⟩ := affected_some hreset
  rw [hreset, List.contains_iff_mem.mpr hr]

omit [Postcard] in
theorem discardTopics_go (sessionId : String) (a : OrdMap TopicRef Bool) (session : Session) :
    (discardTopics sessionId a session).2.2 = false := by
  unfold discardTopics OrdMap.visit
  dsimp only
  induction session.topics.entries with
  | nil => rfl
  | cons e l ih =>
    rw [OrdMap.visitList]
    cases a.get? e.1 <;> exact ih

/-- What `discard_poll` makes of a topic. -/
def discardedTopic (sessionId : String) (a : OrdMap TopicRef Bool) (key : TopicRef) (t : Topic) :
    Topic :=
  match a.get? key with
  | none => t
  | some reset => (t.discard sessionId key reset).1

/-- What `discard_poll` announces for a topic. -/
def discardChanges (sessionId : String) (a : OrdMap TopicRef Bool) (key : TopicRef) (t : Topic) :
    List Change :=
  match a.get? key with
  | none => []
  | some reset => (t.discard sessionId key reset).2

omit [Postcard] in
theorem discardTopics_eq (sessionId : String) (a : OrdMap TopicRef Bool) (session : Session) :
    (discardTopics sessionId a session).1 = session.topics.map (discardedTopic sessionId a) ∧
      (discardTopics sessionId a session).2.1 =
        session.topics.entries.flatMap fun e => discardChanges sessionId a e.1 e.2 := by
  have hgo := discardTopics_go sessionId a session
  unfold discardTopics at hgo ⊢
  rw [OrdMap.visit_map hgo, OrdMap.visit_out hgo]
  constructor
  · congr 1
    funext key t
    unfold discardedTopic
    cases a.get? key <;> rfl
  · congr 1
    funext e
    unfold discardChanges
    cases a.get? e.1 <;> rfl

omit [Postcard] in
/-- Exactly as many updates as `discard_poll` reserves. -/
theorem discardChanges_length (ticket : PollTicket) (resets : List TopicRef) (failed : Bool)
    (session : Session) (sessionId : String) :
    let a := affected ticket resets failed session
    (session.topics.entries.flatMap fun e => discardChanges sessionId a e.1 e.2).length =
      a.size + (a.filter fun _ reset => reset).size := by
  intro a
  have hkey : ∀ k r, a.get? k = some r → ∃ t, session.topics.get? k = some t := by
    intro k r hr
    obtain ⟨-, -, -, t, ht, -⟩ := affected_some hr
    exact ⟨t, ht⟩
  -- The affected topics and the reset ones, read off the session's topics.
  have h₁ : a.size = (session.topics.filter fun k _ => (a.get? k).isSome).size := by
    have : a.map (fun _ _ => ()) =
        (session.topics.filter fun k _ => (a.get? k).isSome).map fun _ _ => () := by
      refine OrdMap.ext_get? fun k => ?_
      rw [OrdMap.get?_map, OrdMap.get?_map, OrdMap.get?_filter]
      cases hr : a.get? k with
      | none => cases session.topics.get? k <;> rfl
      | some r => obtain ⟨t, ht⟩ := hkey k r hr; simp [ht]
    rw [← OrdMap.size_map (fun _ _ => ()) a, this, OrdMap.size_map]
  have h₂ : (a.filter fun _ reset => reset).size =
      (session.topics.filter fun k _ => a.get? k == some true).size := by
    have : (a.filter fun _ reset => reset).map (fun _ _ => ()) =
        (session.topics.filter fun k _ => a.get? k == some true).map fun _ _ => () := by
      refine OrdMap.ext_get? fun k => ?_
      rw [OrdMap.get?_map, OrdMap.get?_map, OrdMap.get?_filter, OrdMap.get?_filter]
      cases hr : a.get? k with
      | none => cases session.topics.get? k <;> rfl
      | some r =>
        obtain ⟨t, ht⟩ := hkey k r hr
        cases r with
        | false => simp [ht]
        | true => simp [ht]; rfl
    rw [← OrdMap.size_map (fun _ _ => ()) (a.filter _), this, OrdMap.size_map]
  rw [h₁, h₂]
  simp only [OrdMap.size, OrdMap.filter]
  induction session.topics.entries with
  | nil => rfl
  | cons e l ih =>
    rw [List.flatMap_cons, List.length_append, ih, List.filter_cons, List.filter_cons]
    unfold discardChanges
    rcases hr : a.get? e.1 with _ | ⟨_ | _⟩
    · simp
    · simp [Topic.discard]; omega
    · simp [Topic.discard]; omega

end discard

/-- The changes of a discarded poll. -/
def discardList (ticket : PollTicket) (resets : List TopicRef) (failed : Bool) (session : Session) :
    List Change :=
  session.topics.entries.flatMap fun e =>
    discardChanges ticket.sessionId (affected ticket resets failed session) e.1 e.2

/-- The poll of a ticket can be discarded. -/
structure Discards (i : Inner) (ticket : PollTicket) (resets : List TopicRef) (failed : Bool)
    (session : Session) : Prop where
  stopped : i.stopped = false
  found : i.sessions.get? ticket.sessionId = some session
  unspent : ∀ key t, (affected ticket resets failed session).get? key = some true →
    session.topics.get? key = some t → t.spent = false
  room : i.sequence + (discardList ticket resets failed session).length ≤ u64Max

/-- The discarded poll's topics, stored and recorded. -/
def discardStored (ticket : PollTicket) (resets : List TopicRef) (failed : Bool)
    (session : Session) (i : Inner) : Inner :=
  (i.put (i.sessions.insert ticket.sessionId
    { session with
      topics := session.topics.map
        (discardedTopic ticket.sessionId (affected ticket resets failed session)) })).record
    ((discardList ticket resets failed session).map Change.mark)

/-- The discarded poll's effect before `settle`. -/
def discardTransaction (ticket : PollTicket) (resets : List TopicRef) (failed : Bool)
    (session : Session) (i : Inner) : Inner :=
  (i.discardStored ticket resets failed session).emitAll
    ((discardList ticket resets failed session).map Change.update)

/-- A counter that the discarded poll's resets need is exhausted. -/
def DiscardExhausts (i : Inner) (ticket : PollTicket) (resets : List TopicRef) (failed : Bool) :
    Prop :=
  ∃ session, i.sessions.get? ticket.sessionId = some session ∧
    ((∃ key t, (affected ticket resets failed session).get? key = some true ∧
        session.topics.get? key = some t ∧ t.spent = true) ∨
      u64Max < i.sequence + (discardList ticket resets failed session).length)

/-- The outcomes of `discard_poll`: nothing happens, a counter is exhausted, or the resets and the
failure are applied. -/
theorem discardPoll_cases (ticket : PollTicket) (resets : List TopicRef) (failed : Bool)
    (now : Instant) (i : Inner) :
    ((i.stopped = true ∨ i.sessions.get? ticket.sessionId = none) ∧
      i.discardPoll ticket resets failed now = (none, i)) ∨
    (i.stopped = false ∧ DiscardExhausts i ticket resets failed ∧
      i.discardPoll ticket resets failed now = (none, i.close exhausted)) ∨
    ∃ session, Discards i ticket resets failed session ∧
      (i.discardPoll ticket resets failed now).2 =
        (i.discardTransaction ticket resets failed session).settle now := by
  unfold discardPoll
  split
  · rename_i h; exact .inl ⟨.inl h, rfl⟩
  rename_i hstop
  have hstop : i.stopped = false := by simpa using hstop
  split
  · rename_i h; exact .inl ⟨.inr h, rfl⟩
  rename_i session hs
  have hlen := discardChanges_length ticket resets failed session ticket.sessionId
  dsimp only at hlen ⊢
  split
  · rename_i hspent
    refine .inr (.inl ⟨hstop, ⟨session, hs, .inl ?_⟩, rfl⟩)
    obtain ⟨key, reset, ha, hr⟩ := OrdMap.any_iff.mp hspent
    obtain ⟨rfl, hr⟩ := Bool.and_eq_true_iff.mp hr
    obtain ⟨t, ht, hsp⟩ := (Option.any_eq_true _ _).mp hr
    exact ⟨key, t, ha, ht, hsp⟩
  rename_i hspent
  rcases ensureSequences_cases hstop ((affected ticket resets failed session).size +
      ((affected ticket resets failed session).filter fun _ reset => reset).size) with
    ⟨hc, he⟩ | ⟨hc, he⟩
  · rw [he]
    refine .inr (.inr ⟨session, ⟨hstop, hs, fun key t ha ht => ?_, by rw [discardList, hlen]; exact hc⟩, ?_⟩)
    · by_contra hn
      exact hspent (OrdMap.any_iff.mpr ⟨key, true, ha, by simpa [ht] using hn⟩)
    · obtain ⟨h₁, h₂⟩ := discardTopics_eq ticket.sessionId (affected ticket resets failed session)
        session
      simp only [discardTransaction, discardStored, discardList, put, record, h₁, h₂, OrdMap.modify_eq_insert hs]
  · rw [he]
    exact .inr (.inl ⟨hstop, ⟨session, hs, .inr (by rw [discardList, hlen]; exact hc)⟩, rfl⟩)

/-- If a counter that the discarded poll's updates need is exhausted, the service closes as it is. -/
theorem discardPoll_exhausts {i : Inner} {ticket : PollTicket} {resets : List TopicRef} {failed : Bool}
    (now : Instant) (hopen : i.stopped = false) (hex : i.DiscardExhausts ticket resets failed) :
    i.discardPoll ticket resets failed now = (none, i.close exhausted) := by
  obtain ⟨session, hs, hwhy⟩ := hex
  rcases discardPoll_cases ticket resets failed now i with
    ⟨hnot, -⟩ | ⟨-, -, he⟩ | ⟨session', hd, -⟩
  · rcases hnot with hstop | hnone
    · rw [hopen] at hstop; cases hstop
    · rw [hs] at hnone; cases hnone
  · exact he
  · obtain rfl : session = session' := Option.some.inj (hs.symm.trans hd.found)
    rcases hwhy with ⟨key, t, ha, ht, hspent⟩ | hroom
    · rw [hd.unspent key t ha ht] at hspent
      cases hspent
    · have := hd.room
      omega

/-- A poll that can be discarded is. -/
theorem Discards.discardPoll_eq {i : Inner} {ticket : PollTicket} {resets : List TopicRef}
    {failed : Bool} {session : Session} (hd : i.Discards ticket resets failed session) (now : Instant) :
    (i.discardPoll ticket resets failed now).2 =
      (i.discardTransaction ticket resets failed session).settle now := by
  rcases discardPoll_cases ticket resets failed now i with
    ⟨hnot, -⟩ | ⟨-, ⟨session', hs, hwhy⟩, -⟩ | ⟨session', hd', he⟩
  · rcases hnot with hstop | hnone
    · rw [hd.stopped] at hstop
      cases hstop
    · rw [hd.found] at hnone
      cases hnone
  · obtain rfl : session = session' := Option.some.inj (hd.found.symm.trans hs)
    rcases hwhy with ⟨key, t, ha, ht, hspent⟩ | hroom
    · rw [hd.unspent key t ha ht] at hspent
      cases hspent
    · have := hd.room
      omega
  · obtain rfl : session = session' := Option.some.inj (hd.found.symm.trans hd'.found)
    exact he

end Inner

end Service
end WfObserver
