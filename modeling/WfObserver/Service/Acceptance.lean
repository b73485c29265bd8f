import WfObserver.Service.Store

/-!
# What a commit rejects

`prepare` accepts the operations of a current ticket if every topic is reset at most once and no
counter is exhausted (`prepare_ok`). `checkPoll` then rejects a batch only for its size, if each topic
that ends available has the snapshot or the events that its capability promises (`checkPoll_tooLarge`).
-/

namespace WfObserver
namespace Service

open Wire

/-- The errors of a batch that does not fit. -/
inductive TooLarge : RequestError → Prop
  | encoding : TooLarge (invalid "response encoding failed")
  | message : TooLarge (limit .messageBytes)
  | retained : TooLarge (limit .retainedSnapshotBytes)

theorem updateFits_tooLarge [Postcard] {i : Inner} {update : SubscriptionUpdate} {e : RequestError}
    (h : i.updateFits update = .error e) : TooLarge e := by
  unfold Inner.updateFits messageFits at h
  split at h
  · cases h
    exact .encoding
  · split at h
    · cases h
      exact .message
    · cases h

namespace StagedPublication

variable {session : Session} {ticket : PollTicket} {deadline : Instant} {ops : List Operation}

/-- Without a reset the counters of a topic stay. -/
theorem applyOps_counters {key : TopicRef} {old t : Topic} (h : applyOps deadline key ops old = .ok t)
    (hreset : .reset key ∉ ops) : t.state.generation = old.state.generation ∧ t.epoch = old.epoch := by
  refine applyOps_rule (T := fun t =>
    t.state.generation = old.state.generation ∧ t.epoch = old.epoch) ?_ ⟨rfl, rfl⟩ h
  intro op hop hk t₀ t₁ h₀ hs
  cases op with
  | reset k =>
    obtain rfl : k = key := hk
    exact absurd hop hreset
  | snapshot | event | health =>
    cases hs
    exact h₀

/-- The operations that `prepare` accepts. -/
structure Preparable (session : Session) (ticket : PollTicket) (ops : List Operation) : Prop where
  covered : ∀ op ∈ ops, ∃ d ∈ ticket.topics, d.key = op.key
  known : ∀ op ∈ ops, ∃ t, session.topics.get? op.key = some t
  nodup : (ops.filterMap Operation.resetKey?).Nodup
  room : ∀ key t, .reset key ∈ ops → session.topics.get? key = some t →
    t.state.generation < u64Max ∧ t.epoch < u64Max

/-- One operation is staged. -/
theorem stage_ok {done rest : List Operation} {op : Operation} {staged : StagedPublication}
    (hs : Preparable session ticket (done ++ op :: rest))
    (h : Prepared session ticket deadline done staged) :
    ∃ staged', stage session ticket deadline staged op = .ok staged' := by
  have hop : op ∈ done ++ op :: rest := by simp
  obtain ⟨d, hd, hdk⟩ := hs.covered op hop
  obtain ⟨current, hcurrent⟩ := hs.known op hop
  have hcovered : (ticket.topics.any fun d => d.key == op.key) = true :=
    List.any_eq_true.mpr ⟨d, hd, by simpa using hdk⟩
  suffices ∃ topic, stageTopic deadline op ((staged.topics.get? op.key).getD current) = .ok topic by
    obtain ⟨topic, htopic⟩ := this
    refine ⟨⟨staged.topics.insert op.key topic, stageResets op staged.resets,
      stageEvents op staged.events⟩, ?_⟩
    simp [stage, hcovered, hcurrent, htopic]
  cases op with
  | reset key =>
    obtain ⟨hgeneration, hepoch⟩ := hs.room key current hop hcurrent
    have hfirst : .reset key ∉ done := by
      intro hmem
      have hnodup := hs.nodup
      rw [List.filterMap_append, List.nodup_append] at hnodup
      exact hnodup.2.2 key (List.mem_filterMap.mpr ⟨_, hmem, rfl⟩) key (by simp [Operation.resetKey?])
        rfl
    -- The staged copy has the counters of the session's topic.
    have hcounters : ((staged.topics.get? key).getD current).state.generation
          = current.state.generation ∧
        ((staged.topics.get? key).getD current).epoch = current.epoch := by
      cases ht : staged.topics.get? key with
      | none => exact ⟨rfl, rfl⟩
      | some t =>
        obtain ⟨-, old, hold, happly⟩ := (h.topics key t).mp ht
        obtain rfl : current = old := Option.some.inj (hcurrent.symm.trans hold)
        exact applyOps_counters happly hfirst
    obtain ⟨generation, hgen⟩ : ∃ n, checkedAdd current.state.generation 1 = some n :=
      ⟨_, checkedAdd_eq_some.mpr ⟨rfl, by omega⟩⟩
    obtain ⟨epoch, hep⟩ : ∃ n, checkedAdd current.epoch 1 = some n :=
      ⟨_, checkedAdd_eq_some.mpr ⟨rfl, by omega⟩⟩
    simp [stageTopic, Operation.key, hcounters.1, hcounters.2, hgen, hep]
  | snapshot | event | health => exact ⟨_, rfl⟩

theorem prepare_ok (hs : Preparable session ticket ops) (deadline : Instant) :
    ∃ staged, prepare session ticket deadline {} ops = .ok staged := by
  suffices ∀ rest done staged, ops = done ++ rest → Prepared session ticket deadline done staged →
      ∃ staged', prepare session ticket deadline staged rest = .ok staged' from
    this ops [] {} rfl (.nil session ticket deadline)
  intro rest
  induction rest with
  | nil => exact fun _ staged _ _ => ⟨staged, rfl⟩
  | cons op rest ih =>
    intro done staged hops h
    obtain ⟨staged', hstage⟩ := stage_ok (hops ▸ hs) h
    obtain ⟨last, hlast⟩ := ih (done ++ [op]) staged' (by simp [hops]) (h.stage hstage)
    exact ⟨last, by rw [prepare, hstage]; exact hlast⟩

variable [Postcard] {i : Inner} {staged : StagedPublication}

/-- What `validate` asks of a batch, apart from its size. -/
structure Sensible (i : Inner) (staged : StagedPublication) : Prop where
  topics : ∀ key t, staged.topics.get? key = some t → ∃ cap, i.capability key = .ok cap ∧
    (t.state.health = .available → cap.snapshots = true → t.state.snapshot.isSome)
  events : ∀ e ∈ staged.events, ∀ t, staged.topics.get? e.1 = some t → t.state.health = .available

theorem validateTopics_tooLarge {l : List (TopicRef × Topic)} {e : RequestError}
    (hs : ∀ key t, (key, t) ∈ l → ∃ cap, i.capability key = .ok cap ∧
      (t.state.health = .available → cap.snapshots = true → t.state.snapshot.isSome))
    (h : validateTopics i l = .error e) : TooLarge e := by
  induction l with
  | nil => cases h
  | cons entry l ih =>
    obtain ⟨cap, hcap, hsnapshot⟩ := hs entry.1 entry.2 List.mem_cons_self
    rw [validateTopics, hcap] at h
    dsimp only at h
    split at h
    · rename_i hmissing
      obtain ⟨havailable, hsnapshots, hnone⟩ := hmissing
      have hsome := hsnapshot havailable hsnapshots
      rw [Option.isNone_iff_eq_none.mp hnone] at hsome
      cases hsome
    · split at h
      · rename_i hfits
        cases h
        exact updateFits_tooLarge hfits
      · exact ih (fun key t hmem => hs key t (List.mem_cons_of_mem _ hmem)) h

theorem validateEvents_tooLarge {l : List (TopicRef × JsonPayload)} {e : RequestError}
    (hs : ∀ e ∈ l, ∀ t, staged.topics.get? e.1 = some t → t.state.health = .available)
    (h : validateEvents i staged.topics l = .error e) : TooLarge e := by
  induction l with
  | nil => cases h
  | cons event l ih =>
    have hrest := ih fun e he => hs e (List.mem_cons_of_mem _ he)
    rw [validateEvents] at h
    split at h
    · exact hrest h
    · rename_i t ht
      split at h
      · rename_i hhealth
        exact absurd (hs event List.mem_cons_self t ht) hhealth
      · split at h
        · rename_i hfits
          cases h
          exact updateFits_tooLarge hfits
        · exact hrest h

theorem validate_tooLarge {e : RequestError} (hs : Sensible i staged)
    (h : staged.validate i session = .error e) : TooLarge e := by
  unfold validate at h
  split at h
  · rename_i htopics
    cases h
    exact validateTopics_tooLarge (fun key t hmem =>
      hs.topics key t (OrdMap.get?_eq_some.mpr hmem)) htopics
  · split at h
    · rename_i hevents
      cases h
      exact validateEvents_tooLarge hs.events hevents
    · dsimp only at h
      split at h
      · cases h
        exact .retained
      · cases h

end StagedPublication

namespace Inner

open StagedPublication

variable [Postcard] {i : Inner} {ticket : PollTicket} {pending : Pending} {deadline : Instant}
  {session : Session}

theorem checkPoll_tooLarge {e : RequestError} (hprep : Preparable session ticket pending.ops)
    (hsensible : ∀ staged, Prepared session ticket deadline pending.ops staged → Sensible i staged)
    (h : i.checkPoll ticket pending deadline session = .error e) : TooLarge e := by
  obtain ⟨staged, hstaged⟩ := prepare_ok hprep deadline
  rw [checkPoll, hstaged] at h
  dsimp only at h
  split at h
  · rename_i hvalidate
    cases h
    exact validate_tooLarge (hsensible staged (prepare_prepared hstaged)) hvalidate
  · split at h
    · cases h
    · split at h
      · rename_i hfits
        cases h
        exact updateFits_tooLarge hfits
      · cases h

/-- A batch of a current ticket that no sink call has spoiled is rejected only for its size. -/
theorem commitPoll_tooLarge [SerdeJson] {batch : PollBatch} {now : Instant} {e : RequestError}
    (hfailed : batch.pending.failed = false)
    (hcovered : ∀ op ∈ batch.pending.ops, ∃ d ∈ ticket.topics, d.key = op.key)
    (hwithin : ∀ session key t, i.sessions.get? ticket.sessionId = some session →
      session.topics.get? key = some t → t.state.generation ≤ u64Max ∧ t.epoch ≤ u64Max)
    (hsensible : ∀ session staged, i.sessions.get? ticket.sessionId = some session →
      Prepared session ticket deadline batch.pending.ops staged → Sensible i staged)
    (h : (i.commitPoll ticket batch deadline now).1 = .error e) : TooLarge e := by
  unfold commitPoll at h
  dsimp only at h
  rw [hfailed] at h
  simp only [Bool.false_eq_true, if_false] at h
  split at h
  · cases h
  split at h
  · cases h
  rename_i session hs
  split at h
  · cases h
  rename_i hfresh
  split at h
  · cases h
  rename_i hspent
  split at h
  · rename_i hcheck
    cases h
    refine checkPoll_tooLarge ⟨hcovered, fun op hop => ?_, ?_, fun key t hop ht => ?_⟩
      (fun staged hprepared => hsensible session staged hs hprepared) hcheck
    · obtain ⟨d, hd, hk⟩ := hcovered op hop
      obtain ⟨t, ht, -⟩ := Inner.of_not_stale (by simpa using hfresh) hd
      exact ⟨t, hk ▸ ht⟩
    · exact batch.wf.resets ▸ batch.wf.nodup
    · obtain ⟨hg, he⟩ := hwithin session key t hs ht
      have hunspent : t.spent = false := by
        by_contra hnot
        exact hspent (List.any_eq_true.mpr ⟨_, hop, by
          simp [Operation.resetKey?, ht, Bool.eq_true_of_not_eq_false hnot]⟩)
      simp only [Topic.spent, Bool.or_eq_false_iff, beq_eq_false_iff_ne] at hunspent
      omega
  · split at h
    · cases h
    · cases h

end Inner

end Service
end WfObserver
