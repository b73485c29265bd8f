import WfObserver.Service.Staging

/-!
# What a commit does

`transact_eq` says what the interleaved loops of `commit` amount to when the sequences are
reserved: the sessions change in one step, then the updates of the transaction are announced.
`commitPoll_cases` lists the outcomes of `commit_poll`.
-/

namespace WfObserver
namespace Service

open Wire

/-! ## Announcements do not depend on the stored topics -/

/-- Whether a session starts or ends. For an end `emit` looks the session up. -/
def movesSession : SubscriptionUpdate → Bool
  | .sessionStarted _ | .sessionEnded _ _ => true
  | _ => false

namespace Inner

variable [Postcard]

omit [Postcard] in
/-- The service with these sessions. -/
def put (sessions : OrdMap String Session) (i : Inner) : Inner := { i with sessions }

omit [Postcard] in
theorem wants_put {u : SubscriptionUpdate} (hu : movesSession u = false) (i : Inner)
    (sessions : OrdMap String Session) (s : Subscriber) :
    (i.put sessions).wants u s = i.wants u s := by
  cases u <;> simp_all [wants, endedInfo, movesSession]

theorem announce_put {u : SubscriptionUpdate} (hu : movesSession u = false) (i : Inner)
    (sessions : OrdMap String Session) :
    (i.put sessions).announce u = (i.announce u).put sessions := by
  simp only [announce, nextEnvelope, wants_put hu]
  rfl

/-- With room in the sequence, the topics may be stored before or after an announcement. -/
theorem emitAll_put {i : Inner} {us : List SubscriptionUpdate} (h : i.stopped = false)
    (hs : i.sequence + us.length ≤ u64Max) (hu : ∀ u ∈ us, movesSession u = false)
    (sessions : OrdMap String Session) :
    (i.put sessions).emitAll us = (i.emitAll us).put sessions := by
  induction us generalizing i with
  | nil => rfl
  | cons u us ih =>
    simp only [List.length_cons] at hs
    have hroom : i.sequence < u64Max := by omega
    rw [emitAll_cons, emitAll_cons, emit_room h hroom, emit_room (i := i.put sessions) h hroom,
      announce_put (hu u (by simp))]
    exact ih h (by simp only [announce]; omega) fun v hv => hu v (List.mem_cons_of_mem _ hv)

end Inner

/-! ## The loops of `commit` -/

namespace StagedPublication

variable [Postcard]

omit [Postcard] in
/-- What the first loop announces. -/
def resetUpdates (staged : StagedPublication) : List SubscriptionUpdate :=
  staged.resets.filterMap fun key => (staged.topics.get? key).map fun t =>
    .topicReset t.state.source t.state.generation .sourceChanged

/-- What the second loop makes of a session's topics and announces, starting after sequence `n`. -/
def publishTopics (topics : OrdMap TopicRef Topic) :
    Nat → List (TopicRef × Topic) → OrdMap TopicRef Topic × List SubscriptionUpdate
  | _, [] => (topics, [])
  | n, (key, t) :: rest =>
    match topics.get? key with
    | none => publishTopics topics n rest
    | some old =>
      let t' := settled old.state (n + 1) t
      if changed old.state t.state then
        let p := publishTopics (topics.insert key t') (n + 1) rest
        (p.1, .topicChanged t'.state :: p.2)
      else publishTopics (topics.insert key t') n rest

/-- What the third loop announces, starting after sequence `n`. -/
def eventUpdates (topics : OrdMap TopicRef Topic) :
    Nat → List (TopicRef × JsonPayload) → List SubscriptionUpdate
  | _, [] => []
  | n, (key, payload) :: rest =>
    match topics.get? key with
    | none => eventUpdates topics n rest
    | some t =>
      .event ⟨⟨t.state.source, t.state.generation, n + 1⟩, payload⟩ :: eventUpdates topics (n + 1) rest

theorem commitResets_eq (staged : StagedPublication) (i : Inner) :
    staged.resets.foldl staged.commitReset i = i.emitAll staged.resetUpdates := by
  unfold resetUpdates
  generalize staged.resets = l
  induction l generalizing i with
  | nil => rfl
  | cons key l ih =>
    rw [List.foldl_cons, ih, commitReset]
    cases h : staged.topics.get? key with
    | none => rw [List.filterMap_cons_none (by simp [h])]
    | some t => rw [List.filterMap_cons_some (by simp [h]; rfl), Inner.emitAll_cons]

omit [Postcard] in
theorem publishTopics_length (topics : OrdMap TopicRef Topic) (n : Nat)
    (l : List (TopicRef × Topic)) : (publishTopics topics n l).2.length ≤ l.length := by
  induction l generalizing topics n with
  | nil => simp [publishTopics]
  | cons e l ih =>
    rw [publishTopics, List.length_cons]
    split
    · exact (ih _ _).trans (Nat.le_succ _)
    · dsimp only
      split
      · exact Nat.succ_le_succ (ih _ _)
      · exact (ih _ _).trans (Nat.le_succ _)

omit [Postcard] in
theorem eventUpdates_length (topics : OrdMap TopicRef Topic) (n : Nat)
    (l : List (TopicRef × JsonPayload)) : (eventUpdates topics n l).length ≤ l.length := by
  fun_induction eventUpdates topics n l with
  | case1 => simp
  | case2 => simp only [List.length_cons]; omega
  | case3 => simp only [List.length_cons]; omega

omit [Postcard] in
/-- The second loop of a commit announces changed topics. -/
theorem publishTopics_changed {topics : OrdMap TopicRef Topic} {n : Nat}
    {l : List (TopicRef × Topic)} {u : SubscriptionUpdate} (hu : u ∈ (publishTopics topics n l).2) :
    ∃ e ∈ l, ∃ state : TopicSnapshot, u = .topicChanged state ∧ state.source = e.2.state.source := by
  induction l generalizing topics n with
  | nil => simp [publishTopics] at hu
  | cons e l ih =>
    rw [publishTopics] at hu
    split at hu
    · obtain ⟨x, hx, hu⟩ := ih hu
      exact ⟨x, List.mem_cons_of_mem _ hx, hu⟩
    · dsimp only at hu
      split at hu
      · rcases List.mem_cons.mp hu with rfl | hu
        · exact ⟨e, by simp, _, rfl, rfl⟩
        · obtain ⟨x, hx, hu⟩ := ih hu
          exact ⟨x, List.mem_cons_of_mem _ hx, hu⟩
      · obtain ⟨x, hx, hu⟩ := ih hu
        exact ⟨x, List.mem_cons_of_mem _ hx, hu⟩

omit [Postcard] in
theorem publishTopics_ends {topics : OrdMap TopicRef Topic} {n : Nat} {l : List (TopicRef × Topic)}
    {u : SubscriptionUpdate} (hu : u ∈ (publishTopics topics n l).2) : movesSession u = false := by
  obtain ⟨-, -, state, rfl, -⟩ := publishTopics_changed hu
  rfl

omit [Postcard] in
/-- The third loop of a commit announces events. -/
theorem eventUpdates_event {topics : OrdMap TopicRef Topic} {n : Nat}
    {l : List (TopicRef × JsonPayload)} {u : SubscriptionUpdate}
    (hu : u ∈ eventUpdates topics n l) : ∃ event, u = .event event := by
  induction l generalizing n with
  | nil => simp [eventUpdates] at hu
  | cons e l ih =>
    rw [eventUpdates] at hu
    split at hu
    · exact ih hu
    · rcases List.mem_cons.mp hu with rfl | hu
      · exact ⟨_, rfl⟩
      · exact ih hu

omit [Postcard] in
theorem eventUpdates_ends {topics : OrdMap TopicRef Topic} {n : Nat}
    {l : List (TopicRef × JsonPayload)} {u : SubscriptionUpdate}
    (hu : u ∈ eventUpdates topics n l) : movesSession u = false := by
  obtain ⟨event, rfl⟩ := eventUpdates_event hu
  rfl

theorem commitTopics_eq {sessionId : String} {l : List (TopicRef × Topic)} {i : Inner} {s : Session}
    (h : i.stopped = false) (hs : i.sessions.get? sessionId = some s)
    (hroom : i.sequence + l.length ≤ u64Max) :
    l.foldl (commitTopic sessionId) i =
      (i.put (i.sessions.insert sessionId
        { s with topics := (publishTopics s.topics i.sequence l).1 })).emitAll
          (publishTopics s.topics i.sequence l).2 := by
  induction l generalizing i s with
  | nil => simp [publishTopics, OrdMap.insert_get? hs, Inner.put]
  | cons e l ih =>
    obtain ⟨key, t⟩ := e
    simp only [List.length_cons] at hroom
    rw [List.foldl_cons]
    cases hold : s.topics.get? key with
    | none =>
      have : commitTopic sessionId i (key, t) = i := by simp [commitTopic, hs, hold]
      rw [this, publishTopics, hold]
      exact ih h hs (by omega)
    | some old =>
      let t' := settled old.state (i.sequence + 1) t
      let s' : Session := { s with topics := s.topics.insert key t' }
      let j : Inner := i.put (i.sessions.insert sessionId s')
      have hstep : commitTopic sessionId i (key, t) =
          if changed old.state t.state then j.emit (.topicChanged t'.state) else j := by
        simp [commitTopic, hs, hold, OrdMap.modify_eq_insert hs, j, s', t', Inner.put]
      have hget : j.sessions.get? sessionId = some s' := by simp [j, Inner.put]
      rw [hstep, publishTopics, hold]
      by_cases hc : changed old.state t.state = true
      · have hroom' : j.sequence < u64Max := by simp only [j, Inner.put]; omega
        have hj := ih (i := j.announce (.topicChanged t'.state)) (s := s') h hget
          (by simp only [Inner.announce, j, Inner.put]; omega)
        have he : j.emit (.topicChanged t'.state) = j.announce (.topicChanged t'.state) :=
          Inner.emit_room (i := j) h hroom' _
        have he' : ∀ sessions, (i.put sessions).emit (.topicChanged t'.state) =
            (i.put sessions).announce (.topicChanged t'.state) := fun sessions =>
          Inner.emit_room (i := i.put sessions) h hroom' _
        simp only [hc, if_true, Inner.emitAll_cons]
        rw [he, hj, he', Inner.announce_put rfl, Inner.announce_put rfl]
        simp [Inner.announce, Inner.put, s', t']
      · have hj := ih (i := j) (s := s') h hget (by simp only [j, Inner.put]; omega)
        simp only [if_neg hc]
        rw [hj]
        simp [j, s', t', Inner.put]

theorem commitEvents_eq {sessionId : String} {l : List (TopicRef × JsonPayload)} {i : Inner}
    {s : Session} (h : i.stopped = false) (hs : i.sessions.get? sessionId = some s)
    (hroom : i.sequence + l.length ≤ u64Max) :
    l.foldl (commitEvent sessionId) i = i.emitAll (eventUpdates s.topics i.sequence l) := by
  induction l generalizing i with
  | nil => rfl
  | cons e l ih =>
    obtain ⟨key, payload⟩ := e
    simp only [List.length_cons] at hroom
    rw [List.foldl_cons, eventUpdates]
    cases ht : s.topics.get? key with
    | none =>
      have : commitEvent sessionId i (key, payload) = i := by simp [commitEvent, hs, ht]
      rw [this]
      exact ih h hs (by omega)
    | some t =>
      have hstep : commitEvent sessionId i (key, payload) =
          i.emit (.event ⟨⟨t.state.source, t.state.generation, i.sequence + 1⟩, payload⟩) := by
        simp [commitEvent, hs, ht]
      have hj := ih (i := i.announce
          (.event ⟨⟨t.state.source, t.state.generation, i.sequence + 1⟩, payload⟩)) h hs
        (by simp only [Inner.announce]; omega)
      rw [hstep, Inner.emit_room h (by omega), hj, Inner.emitAll_cons,
        Inner.emit_room h (by omega)]
      rfl

end StagedPublication

/-! ## The transaction -/

namespace Inner

/-- What the transaction of a poll announces before the topics change. -/
def opening (pending : Pending) (session : Session) (staged : StagedPublication) :
    List SubscriptionUpdate :=
  ((metadata session pending).map SubscriptionUpdate.sessionChanged).toList ++ staged.resetUpdates

/-- What the transaction of a poll makes of its session, and what it announces after sequence `n`. -/
def transaction (pending : Pending) (session : Session) (staged : StagedPublication) (n : Nat) :
    Session × List SubscriptionUpdate :=
  let n := n + (opening pending session staged).length
  let topics := StagedPublication.publishTopics session.topics n staged.topics.entries
  (⟨(metadata session pending).getD session.info, topics.1⟩,
    opening pending session staged ++ (topics.2 ++
      StagedPublication.eventUpdates topics.1 (n + topics.2.length) staged.events))

/-- The sequences that `commit_poll` reserves. -/
def reserved (pending : Pending) (session : Session) (staged : StagedPublication) : Nat :=
  staged.updates + if (metadata session pending).isSome then 1 else 0

theorem opening_length (pending : Pending) (session : Session) (staged : StagedPublication) :
    (opening pending session staged).length ≤
      staged.resets.length + if (metadata session pending).isSome then 1 else 0 := by
  have h : staged.resetUpdates.length ≤ staged.resets.length := List.length_filterMap_le _ _
  cases hm : metadata session pending <;> simp [opening, hm] <;> omega

/-- The reservation covers everything that the transaction announces. -/
theorem transaction_length (pending : Pending) (session : Session) (staged : StagedPublication)
    (n : Nat) : (transaction pending session staged n).2.length ≤ reserved pending session staged := by
  have h₁ := opening_length pending session staged
  have h₂ := StagedPublication.publishTopics_length session.topics
    (n + (opening pending session staged).length) staged.topics.entries
  have h₃ := fun ts n => StagedPublication.eventUpdates_length ts n staged.events
  simp only [transaction, reserved, StagedPublication.updates, List.length_append, OrdMap.size]
  have := h₃ (StagedPublication.publishTopics session.topics
    (n + (opening pending session staged).length) staged.topics.entries).1
  grind

theorem opening_ends {pending : Pending} {session : Session} {staged : StagedPublication}
    {u : SubscriptionUpdate} (hu : u ∈ opening pending session staged) : movesSession u = false := by
  rcases List.mem_append.mp hu with hu | hu
  · cases hm : metadata session pending with
    | none => simp [hm] at hu
    | some info => simp [hm] at hu; rw [hu]; rfl
  · obtain ⟨key, -, hk⟩ := List.mem_filterMap.mp hu
    obtain ⟨t, -, rfl⟩ := Option.map_eq_some_iff.mp hk
    rfl

theorem transaction_ends {pending : Pending} {session : Session} {staged : StagedPublication}
    {n : Nat} {u : SubscriptionUpdate} (hu : u ∈ (transaction pending session staged n).2) :
    movesSession u = false := by
  rcases List.mem_append.mp hu with hu | hu
  · exact opening_ends hu
  · rcases List.mem_append.mp hu with hu | hu
    · exact StagedPublication.publishTopics_ends hu
    · exact StagedPublication.eventUpdates_ends hu

variable [Postcard]

/-- The start of a transaction: the metadata is stored, then announced with the resets. -/
theorem transact_opening {ticket : PollTicket} {pending : Pending} {session : Session}
    {staged : StagedPublication} {i : Inner} (hs : i.sessions.get? ticket.sessionId = some session) :
    staged.resets.foldl staged.commitReset
        (i.changeMetadata ticket.sessionId (metadata session pending)) =
      (i.put (i.sessions.insert ticket.sessionId
        { session with info := (metadata session pending).getD session.info })).emitAll
        (opening pending session staged) := by
  rw [StagedPublication.commitResets_eq, opening, emitAll_append]
  cases metadata session pending with
  | none => simp [changeMetadata, OrdMap.insert_get? hs, put]
  | some info => simp [changeMetadata, OrdMap.modify_eq_insert hs, put]

/-- A poll's transaction with enough room: the session changes, then everything is announced. -/
theorem transact_eq {ticket : PollTicket} {pending : Pending} {session : Session}
    {staged : StagedPublication} {i : Inner} (h : i.stopped = false)
    (hs : i.sessions.get? ticket.sessionId = some session)
    (hroom : i.sequence + reserved pending session staged ≤ u64Max) :
    i.transact ticket pending session staged =
      (i.put (i.sessions.insert ticket.sessionId
        (transaction pending session staged i.sequence).1)).emitAll
        (transaction pending session staged i.sequence).2 := by
  have hlen := opening_length pending session staged
  simp only [reserved, StagedPublication.updates, OrdMap.size] at hroom
  let info := (metadata session pending).getD session.info
  let j : Inner := i.put (i.sessions.insert ticket.sessionId { session with info })
  obtain ⟨hq, -, hseq, -⟩ := emitAll_room (i := j) (opening pending session staged) h
    (by simp only [j, put]; omega)
  have hstopped := hq.stopped.trans h
  have hget : (j.emitAll (opening pending session staged)).sessions.get? ticket.sessionId =
      some { session with info } := by rw [hq.sessions]; simp [j, put]
  have hjseq : j.sequence = i.sequence := rfl
  -- The topics are stored before everything: nothing announced so far depends on them.
  let topics := StagedPublication.publishTopics session.topics
    (i.sequence + (opening pending session staged).length) staged.topics.entries
  let k : Inner := i.put (i.sessions.insert ticket.sessionId ⟨info, topics.1⟩)
  have hk : (j.emitAll (opening pending session staged)).put
      ((j.emitAll (opening pending session staged)).sessions.insert ticket.sessionId
        ⟨info, topics.1⟩) = k.emitAll (opening pending session staged) := by
    rw [hq.sessions, ← emitAll_put (i := j) h (by omega) fun _ => opening_ends]
    simp [j, k, put]
  have htopics := StagedPublication.publishTopics_length session.topics
    (i.sequence + (opening pending session staged).length) staged.topics.entries
  obtain ⟨hq', -, hseq', -⟩ := emitAll_room (i := k) (opening pending session staged ++ topics.2)
    h (by simp only [k, put, List.length_append, topics]; omega)
  have hget' : (k.emitAll (opening pending session staged ++ topics.2)).sessions.get?
      ticket.sessionId = some ⟨info, topics.1⟩ := by rw [hq'.sessions]; simp [k, put]
  unfold transact StagedPublication.commit
  dsimp only
  rw [transact_opening hs, StagedPublication.commitTopics_eq hstopped hget (by omega), hseq, hjseq,
    hk, ← emitAll_append, StagedPublication.commitEvents_eq (hq'.stopped.trans h) hget'
      (by rw [hseq', List.length_append]; simp only [k, put, topics]; omega), hseq',
    ← emitAll_append]
  simp only [transaction, List.length_append, List.append_assoc, k, put, Nat.add_assoc, topics, info]

/-! ## The stored topics -/

omit [Postcard] in
theorem envelopes_append (runId : String) (n : Nat) (us vs : List SubscriptionUpdate) :
    envelopes runId n (us ++ vs) = envelopes runId n us ++ envelopes runId (n + us.length) vs := by
  induction us generalizing n with
  | nil => simp [envelopes]
  | cons u us ih => simp [envelopes, ih, Nat.add_assoc, Nat.add_comm 1]

omit [Postcard] in
/-- Topics that are not staged stay. -/
theorem publishTopics_other {topics : OrdMap TopicRef Topic} {n : Nat}
    {l : List (TopicRef × Topic)} {key : TopicRef} (h : ∀ t, (key, t) ∉ l) :
    (StagedPublication.publishTopics topics n l).1.get? key = topics.get? key := by
  induction l generalizing topics n with
  | nil => rfl
  | cons e l ih =>
    have hl : ∀ t, (key, t) ∉ l := fun t ht => h t (List.mem_cons_of_mem _ ht)
    have hne : key ≠ e.1 := fun he => h e.2 (by simp [he])
    rw [StagedPublication.publishTopics]
    split
    · exact ih hl
    · dsimp only
      split
      · exact (ih hl).trans (OrdMap.get?_insert_ne _ _ hne)
      · exact (ih hl).trans (OrdMap.get?_insert_ne _ _ hne)

omit [Postcard] in
/-- A staged topic is stored; if it changed, it is announced with the sequence it is stored with. -/
theorem publishTopics_staged {topics : OrdMap TopicRef Topic} {n : Nat}
    {l : List (TopicRef × Topic)} {key : TopicRef} {t old : Topic}
    (hl : l.Pairwise fun a b => a.1 < b.1) (ht : (key, t) ∈ l) (hold : topics.get? key = some old)
    (runId : String) :
    ∃ m, n ≤ m ∧ (StagedPublication.publishTopics topics n l).1.get? key =
        some (StagedPublication.settled old.state (m + 1) t) ∧
      (StagedPublication.changed old.state t.state = true →
        (⟨⟨runId, m + 1⟩, .topicChanged (StagedPublication.settled old.state (m + 1) t).state⟩ :
          UpdateEnvelope) ∈ envelopes runId n (StagedPublication.publishTopics topics n l).2) := by
  induction l generalizing topics n with
  | nil => simp at ht
  | cons e l ih =>
    obtain ⟨hlt, hl⟩ := List.pairwise_cons.mp hl
    rw [StagedPublication.publishTopics]
    rcases List.mem_cons.mp ht with rfl | ht
    · have hnot : ∀ t', (key, t') ∉ l := fun t' h' => absurd (hlt _ h') (lt_irrefl _)
      refine ⟨n, le_refl n, ?_⟩
      simp only [hold]
      split
      · rename_i hc
        rw [publishTopics_other hnot]
        simp [envelopes]
      · rename_i hc
        rw [publishTopics_other hnot]
        simp [hc]
    · have hne : key ≠ e.1 := ne_of_gt (hlt _ ht)
      split
      · exact ih hl ht hold
      · dsimp only
        split
        · obtain ⟨m, hm, h₁, h₂⟩ := ih hl ht (n := n + 1)
            ((OrdMap.get?_insert_ne _ topics hne).trans hold)
          exact ⟨m, by omega, h₁, fun hc => List.mem_cons_of_mem _ (h₂ hc)⟩
        · exact ih hl ht ((OrdMap.get?_insert_ne _ topics hne).trans hold)

omit [Postcard] in
theorem mem_envelopes {runId : String} {n : Nat} {us : List SubscriptionUpdate} {e : UpdateEnvelope}
    (h : e ∈ envelopes runId n us) :
    e.cursor.runId = runId ∧ n < e.cursor.sequence ∧ e.cursor.sequence ≤ n + us.length ∧
      e.update ∈ us := by
  induction us generalizing n with
  | nil => simp [envelopes] at h
  | cons u us ih =>
    simp only [envelopes, List.mem_cons] at h
    rcases h with rfl | h
    · simp
    · obtain ⟨h₁, h₂, h₃, h₄⟩ := ih h
      refine ⟨h₁, by omega, ?_, List.mem_cons_of_mem _ h₄⟩
      simp only [List.length_cons]
      omega

section transaction

variable {ticket : PollTicket} {pending : Pending} {deadline : Instant} {session : Session}
  {staged : StagedPublication} {key : TopicRef}

omit [Postcard] in
/-- A topic without operations stays. -/
theorem transaction_other (n : Nat) (h : staged.topics.get? key = none) :
    (transaction pending session staged n).1.topics.get? key = session.topics.get? key :=
  publishTopics_other (OrdMap.get?_eq_none.mp h)

omit [Postcard] in
/-- A staged topic is stored, announced if it changed, and gets a reserved sequence. -/
theorem transaction_staged {t old : Topic} (pending : Pending) (n : Nat)
    (ht : staged.topics.get? key = some t)
    (hold : session.topics.get? key = some old) (runId : String) :
    ∃ m, n ≤ m ∧ (transaction pending session staged n).1.topics.get? key =
        some (StagedPublication.settled old.state (m + 1) t) ∧
      (StagedPublication.changed old.state t.state = true →
        (⟨⟨runId, m + 1⟩, .topicChanged (StagedPublication.settled old.state (m + 1) t).state⟩ :
          UpdateEnvelope) ∈ envelopes runId n (transaction pending session staged n).2) := by
  obtain ⟨m, hm, h₁, h₂⟩ := publishTopics_staged staged.topics.sorted (OrdMap.get?_eq_some.mp ht)
    hold (n := n + (opening pending session staged).length) runId
  refine ⟨m, by omega, h₁, fun hc => ?_⟩
  have := h₂ hc
  simp only [transaction]
  rw [envelopes_append, envelopes_append]
  exact List.mem_append_right _ (List.mem_append_left _ this)

omit [Postcard] in
theorem transaction_contains (h : StagedPublication.Prepared session ticket deadline pending.ops staged)
    (n : Nat) (key : TopicRef) :
    (transaction pending session staged n).1.topics.contains key = session.topics.contains key := by
  unfold OrdMap.contains
  cases ht : staged.topics.get? key with
  | none => rw [transaction_other n ht]
  | some t =>
    obtain ⟨-, old, hold, -⟩ := h.of_get? ht
    obtain ⟨m, -, hget, -⟩ := transaction_staged pending n ht hold ""
    rw [hget, hold]
    rfl

omit [Postcard] in
/-- Only the game build of the session's metadata changes. -/
theorem transaction_info (pending : Pending) (session : Session) (staged : StagedPublication)
    (n : Nat) :
    (transaction pending session staged n).1.info =
      { session.info with gameBuild := pending.gameBuild } := by
  simp only [transaction, metadata]
  split
  · rfl
  · rename_i h
    have h : pending.gameBuild = session.info.gameBuild := by simpa using h
    rw [h]
    rfl

end transaction

/-! ## The outcomes of `commit_poll` -/

/-- The poll passes every check of `commit_poll`. -/
structure Publishes (i : Inner) (ticket : PollTicket) (pending : Pending) (deadline : Instant)
    (session : Session) (staged : StagedPublication) : Prop where
  stopped : i.stopped = false
  found : i.sessions.get? ticket.sessionId = some session
  fresh : stale ticket session = false
  checked : i.checkPoll ticket pending deadline session = .ok staged
  prepared : StagedPublication.Prepared session ticket deadline pending.ops staged
  valid : staged.validate i session = .ok ()
  room : i.sequence + reserved pending session staged ≤ u64Max

/-- A counter that the poll's publication needs is exhausted. -/
def Exhausts (i : Inner) (ticket : PollTicket) (pending : Pending) (deadline : Instant) : Prop :=
  ∃ session, i.sessions.get? ticket.sessionId = some session ∧
    ((∃ key t, key ∈ pending.ops.filterMap Operation.resetKey? ∧
        session.topics.get? key = some t ∧ t.spent = true) ∨
      ∃ staged, StagedPublication.Prepared session ticket deadline pending.ops staged ∧
        u64Max < i.sequence + reserved pending session staged)

omit [Postcard] in
/-- Every topic of a ticket that is not stale is as the ticket recorded it. -/
theorem of_not_stale {ticket : PollTicket} {session : Session} (h : stale ticket session = false)
    {d : Demand} (hd : d ∈ ticket.topics) : ∃ t, session.topics.get? d.key = some t ∧
      t.demanded = true ∧ t.state.generation = d.generation ∧ t.epoch = d.epoch := by
  have := List.any_eq_false.mp h d hd
  split at this
  · simp at this
  · rename_i t ht
    simp only [Bool.or_eq_true, Bool.not_eq_true', decide_eq_true_eq, not_or, Bool.not_eq_false,
      not_not, ne_eq] at this
    exact ⟨t, ht, this.1.1, this.1.2, this.2⟩

theorem checkPoll_ok {i : Inner} {ticket : PollTicket} {pending : Pending} {deadline : Instant}
    {session : Session} {staged : StagedPublication}
    (h : i.checkPoll ticket pending deadline session = .ok staged) :
    StagedPublication.Prepared session ticket deadline pending.ops staged ∧
      staged.validate i session = .ok () := by
  unfold checkPoll at h
  split at h
  · cases h
  rename_i st hst
  split at h
  · cases h
  rename_i hv
  have hp := StagedPublication.prepare_prepared hst
  split at h
  · cases h; exact ⟨hp, hv⟩
  · split at h
    · cases h
    · cases h; exact ⟨hp, hv⟩

/-- The outcomes of `commit_poll`: nothing happens, a counter is exhausted, or the poll is
published. -/
theorem commitPoll_cases [SerdeJson] (ticket : PollTicket) (batch : PollBatch)
    (deadline now : Instant) (i : Inner) :
    (∃ r, r ≠ .ok true ∧ i.commitPoll ticket batch deadline now = (r, i)) ∨
    (i.stopped = false ∧ Exhausts i ticket batch.pending deadline ∧
      i.commitPoll ticket batch deadline now = (.ok false, i.close exhausted)) ∨
    ∃ session staged, Publishes i ticket batch.pending deadline session staged ∧
      i.commitPoll ticket batch deadline now =
        (.ok true, ((i.record (batch.pending.ops.map
          (Mark.applied ticket.sessionId · deadline))).transact ticket batch.pending session
            staged).settle now) := by
  unfold commitPoll
  dsimp only
  split
  · exact .inl ⟨_, by simp, rfl⟩
  split
  · exact .inl ⟨_, by simp, rfl⟩
  rename_i hstop
  have hstop : i.stopped = false := by simpa using hstop
  split
  · exact .inl ⟨_, by simp, rfl⟩
  rename_i session hs
  split
  · exact .inl ⟨_, by simp, rfl⟩
  rename_i hfresh
  split
  · rename_i hspent
    refine .inr (.inl ⟨hstop, ⟨session, hs, .inl ?_⟩, rfl⟩)
    obtain ⟨op, hop, hr⟩ := List.any_eq_true.mp hspent
    obtain ⟨key, hk, hr⟩ := (Option.any_eq_true _ _).mp hr
    obtain ⟨t, ht, hsp⟩ := (Option.any_eq_true _ _).mp hr
    exact ⟨key, t, List.mem_filterMap.mpr ⟨op, hop, hk⟩, ht, hsp⟩
  split
  · exact .inl ⟨_, by simp, rfl⟩
  rename_i staged hok
  obtain ⟨hp, hv⟩ := checkPoll_ok hok
  rcases ensureSequences_cases hstop (staged.updates +
      if (metadata session batch.pending).isSome then 1 else 0) with ⟨hc, he⟩ | ⟨hc, he⟩
  · rw [he]
    exact .inr (.inr ⟨session, staged, ⟨hstop, hs, by simpa using hfresh, hok, hp, hv, hc⟩, rfl⟩)
  · rw [he]
    exact .inr (.inl ⟨hstop, ⟨session, hs, .inr ⟨staged, hp, hc⟩⟩, rfl⟩)

/-- A poll that passes every check is published, unless a call on its sink was rejected. -/
theorem Publishes.commitPoll_eq [SerdeJson] {i : Inner} {ticket : PollTicket} {batch : PollBatch}
    {deadline : Instant} {session : Session} {staged : StagedPublication}
    (hp : i.Publishes ticket batch.pending deadline session staged)
    (hfailed : batch.pending.failed = false) (now : Instant) :
    i.commitPoll ticket batch deadline now =
      (.ok true, ((i.record (batch.pending.ops.map
        (Mark.applied ticket.sessionId · deadline))).transact ticket batch.pending session
          staged).settle now) := by
  unfold commitPoll
  dsimp only
  rw [hfailed, if_neg (by simp), if_neg (by simp [hp.stopped]), hp.found]
  dsimp only
  rw [if_neg (by simp [hp.fresh]), if_neg (by simp [hp.prepared.unspent]), hp.checked]
  dsimp only
  rcases ensureSequences_cases hp.stopped (staged.updates +
      if (metadata session batch.pending).isSome then 1 else 0) with ⟨-, he⟩ | ⟨hfull, -⟩
  · rw [he]
  · exact absurd hp.room (Nat.not_le_of_lt hfull)

/-- The service between the transaction of a poll and `settle`. -/
structure Transacted (i : Inner) (marks : List Mark) (sessionId : String)
    (result : Session × List SubscriptionUpdate) (k : Inner) : Prop where
  stopped : k.stopped = false
  catalog : k.catalog = i.catalog
  runId : k.runId = i.runId
  sessions : k.sessions = i.sessions.insert sessionId result.1
  subscribers : k.subscribers = i.subscribers
  history : k.history = i.history ++ marks
  sequence : k.sequence = i.sequence + result.2.length
  log : k.log = i.log ++ envelopes i.runId i.sequence result.2

/-- A poll that passes every check is published as a whole. -/
theorem Publishes.transacted {i : Inner} {ticket : PollTicket} {pending : Pending}
    {deadline : Instant} {session : Session} {staged : StagedPublication}
    (hp : i.Publishes ticket pending deadline session staged) (marks : List Mark) :
    Transacted i marks ticket.sessionId (transaction pending session staged i.sequence)
      ((i.record marks).transact ticket pending session staged) := by
  have hlen := transaction_length pending session staged i.sequence
  have hroom := hp.room
  rw [transact_eq (i := i.record marks) hp.stopped hp.found hroom]
  obtain ⟨hq, hsub, hseq, hlog⟩ := emitAll_room
    (i := (i.record marks).put (i.sessions.insert ticket.sessionId
      (transaction pending session staged i.sequence).1))
    (transaction pending session staged i.sequence).2 hp.stopped
    (by simp only [put, record]; omega)
  exact ⟨hq.stopped.trans hp.stopped, hq.catalog, hq.runId, hq.sessions, hsub, hq.history, hseq, hlog⟩

end Inner

end Service
end WfObserver
