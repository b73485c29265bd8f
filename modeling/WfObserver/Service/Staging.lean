import Mathlib.Data.List.Induction
import WfObserver.Service.Frames

/-!
# What a staged publication is

`Prepared` says what `prepare` made of a list of operations: every touched topic is the session's
topic after its own operations in order (`applyOps`). `prepare_prepared` derives it from the loop.
-/

namespace WfObserver
namespace Service

open Wire

namespace StagedPublication

/-- The operations on one topic, in order. -/
def applyOps (deadline : Instant) (key : TopicRef) (ops : List Operation) (topic : Topic) :
    Except RequestError Topic :=
  (ops.filter fun op => op.key = key).foldlM (fun t op => stageTopic deadline op t) topic

theorem applyOps_append (deadline : Instant) (key : TopicRef) (ops : List Operation)
    (op : Operation) (topic : Topic) :
    applyOps deadline key (ops ++ [op]) topic =
      (applyOps deadline key ops topic).bind fun t =>
        if op.key = key then stageTopic deadline op t else .ok t := by
  unfold applyOps
  rw [List.filter_append, List.foldlM_append]
  by_cases h : op.key = key
  · simp [h]; rfl
  · simp only [List.filter_singleton, h, decide_false, cond_false, List.foldlM_nil]
    cases List.foldlM (fun t op => stageTopic deadline op t) topic
      (ops.filter fun op => decide (op.key = key)) <;> rfl

theorem applyOps_absent {deadline : Instant} {key : TopicRef} {ops : List Operation}
    (h : ∀ op ∈ ops, op.key ≠ key) (topic : Topic) : applyOps deadline key ops topic = .ok topic := by
  have : ops.filter (fun op => op.key = key) = [] := by simpa using h
  rw [applyOps, this]
  rfl

/-- The last of several operations, if it is one on this topic. -/
theorem applyOps_snoc {deadline : Instant} {key : TopicRef} {ops : List Operation} {op : Operation}
    {topic t' : Topic} (h : applyOps deadline key (ops ++ [op]) topic = .ok t') :
    ∃ t, applyOps deadline key ops topic = .ok t ∧
      ((op.key = key ∧ stageTopic deadline op t = .ok t') ∨ (op.key ≠ key ∧ t' = t)) := by
  rw [applyOps_append] at h
  cases ht : applyOps deadline key ops topic with
  | error e => rw [ht] at h; cases h
  | ok t =>
    rw [ht] at h
    refine ⟨t, rfl, ?_⟩
    by_cases hk : op.key = key
    · exact .inl ⟨hk, by simpa [Except.bind, hk] using h⟩
    · exact .inr ⟨hk, by simpa [Except.bind, hk, eq_comm] using h⟩

/-- A property that each operation preserves holds of the topic after all of them. -/
theorem applyOps_rule {T : Topic → Prop} {deadline : Instant} {key : TopicRef}
    {ops : List Operation}
    (hstep : ∀ op ∈ ops, op.key = key → ∀ t t', T t → stageTopic deadline op t = .ok t' → T t')
    {topic t : Topic} (h : T topic) (ht : applyOps deadline key ops topic = .ok t) : T t := by
  induction ops using List.reverseRecOn generalizing t with
  | nil => cases ht; exact h
  | append_singleton ops op ih =>
    obtain ⟨t₀, h₀, ⟨hk, hs⟩ | ⟨-, rfl⟩⟩ := applyOps_snoc ht
    · exact hstep op (by simp) hk t₀ t (ih (fun o ho => hstep o (by simp [ho])) h₀) hs
    · exact ih (fun o ho => hstep o (by simp [ho])) h₀

/-- What `prepare` has made of the operations `done`. -/
structure Prepared (session : Session) (ticket : PollTicket) (deadline : Instant)
    (done : List Operation) (staged : StagedPublication) : Prop where
  topics : ∀ key t, staged.topics.get? key = some t ↔
    (∃ op ∈ done, op.key = key) ∧
      ∃ old, session.topics.get? key = some old ∧ applyOps deadline key done old = .ok t
  covered : ∀ op ∈ done, ∃ d ∈ ticket.topics, d.key = op.key
  known : ∀ op ∈ done, ∃ old t, session.topics.get? op.key = some old ∧
    applyOps deadline op.key done old = .ok t
  resets : staged.resets = done.filterMap Operation.resetKey?
  events : staged.events = done.foldl (fun events op => stageEvents op events) []

variable {session : Session} {ticket : PollTicket} {deadline : Instant} {done : List Operation}
  {staged staged' : StagedPublication} {op : Operation}

theorem Prepared.nil (session : Session) (ticket : PollTicket) (deadline : Instant) :
    Prepared session ticket deadline [] {} := ⟨by simp, by simp, by simp, rfl, rfl⟩

/-- One turn of `prepare`'s loop. -/
theorem Prepared.stage (h : Prepared session ticket deadline done staged)
    (hs : stage session ticket deadline staged op = .ok staged') :
    Prepared session ticket deadline (done ++ [op]) staged' := by
  unfold StagedPublication.stage at hs
  split at hs
  · cases hs
  rename_i hcov
  split at hs
  · cases hs
  rename_i current hcur
  split at hs
  · cases hs
  rename_i topic htop
  cases hs
  have hcov : ∃ d ∈ ticket.topics, d.key = op.key := by simpa using hcov
  -- The staged copy, or the session's topic if there is none yet, is `done` applied to it.
  have hbase : applyOps deadline op.key done current =
      .ok ((staged.topics.get? op.key).getD current) := by
    cases hst : staged.topics.get? op.key with
    | none =>
      refine applyOps_absent (fun o ho hk => ?_) current
      obtain ⟨old, t, hold, hap⟩ := h.known o ho
      have := (h.topics o.key t).mpr ⟨⟨o, ho, rfl⟩, old, hold, hap⟩
      rw [hk, hst] at this
      cases this
    | some t =>
      obtain ⟨-, old, hold, hap⟩ := (h.topics _ _).mp hst
      rw [hcur] at hold
      cases hold
      exact hap
  have happ : applyOps deadline op.key (done ++ [op]) current = .ok topic := by
    rw [applyOps_append, hbase]
    simpa [Except.bind] using htop
  have hother : ∀ key old, op.key ≠ key →
      applyOps deadline key (done ++ [op]) old = applyOps deadline key done old := by
    intro key old hne
    rw [applyOps_append]
    cases applyOps deadline key done old <;> simp [Except.bind, hne]
  refine ⟨fun key t => ?_, ?_, ?_, ?_, ?_⟩
  · rw [OrdMap.get?_insert]
    by_cases hk : key = op.key
    · subst hk
      rw [if_pos rfl]
      constructor
      · rintro ⟨⟩
        exact ⟨⟨op, by simp, rfl⟩, current, hcur, happ⟩
      · rintro ⟨-, old, hold, hap⟩
        rw [hcur] at hold
        cases hold
        rw [happ] at hap
        cases hap
        rfl
    · rw [if_neg hk, h.topics]
      have hne : op.key ≠ key := fun e => hk e.symm
      simp only [hother key _ hne, List.mem_append, List.mem_singleton]
      constructor
      · rintro ⟨⟨o, ho, hok⟩, hr⟩
        exact ⟨⟨o, .inl ho, hok⟩, hr⟩
      · rintro ⟨⟨o, ho | rfl, hok⟩, hr⟩
        · exact ⟨⟨o, ho, hok⟩, hr⟩
        · exact absurd hok hne
  · intro o ho
    rcases List.mem_append.mp ho with ho | ho
    · exact h.covered o ho
    · rw [List.mem_singleton.mp ho]; exact hcov
  · intro o ho
    by_cases hk : o.key = op.key
    · rw [hk]; exact ⟨current, topic, hcur, happ⟩
    · rcases List.mem_append.mp ho with ho | ho
      · obtain ⟨old, t, hold, hap⟩ := h.known o ho
        exact ⟨old, t, hold, by rw [hother _ _ (Ne.symm hk)]; exact hap⟩
      · exact absurd (by rw [List.mem_singleton.mp ho]) hk
  · rw [List.filterMap_append, ← h.resets]
    cases op <;> simp [stageResets, Operation.resetKey?]
  · rw [List.foldl_append, ← h.events]
    rfl

/-- What `prepare` returns. -/
theorem prepare_spec {ops : List Operation} (h : Prepared session ticket deadline done staged)
    (hs : prepare session ticket deadline staged ops = .ok staged') :
    Prepared session ticket deadline (done ++ ops) staged' := by
  induction ops generalizing done staged with
  | nil => cases hs; simpa using h
  | cons op ops ih =>
    rw [prepare] at hs
    split at hs
    · cases hs
    · rename_i st hst
      simpa using ih (h.stage hst) hs

theorem prepare_prepared {ops : List Operation}
    (hs : prepare session ticket deadline {} ops = .ok staged) :
    Prepared session ticket deadline ops staged := by
  simpa using prepare_spec (.nil session ticket deadline) hs

/-- A staged topic is one of the session's, and the ticket covers it. -/
theorem Prepared.of_get? (h : Prepared session ticket deadline done staged) {key : TopicRef}
    {t : Topic} (ht : staged.topics.get? key = some t) :
    (∃ d ∈ ticket.topics, d.key = key) ∧
      ∃ old, session.topics.get? key = some old ∧ applyOps deadline key done old = .ok t := by
  obtain ⟨⟨op, hop, rfl⟩, old, hold, hap⟩ := (h.topics _ _).mp ht
  exact ⟨h.covered op hop, old, hold, hap⟩

/-- Every operation's topic is staged. -/
theorem Prepared.op_staged (h : Prepared session ticket deadline done staged) (hop : op ∈ done) :
    ∃ t, staged.topics.get? op.key = some t := by
  obtain ⟨old, t, hold, hap⟩ := h.known op hop
  exact ⟨t, (h.topics _ _).mpr ⟨⟨op, hop, rfl⟩, old, hold, hap⟩⟩

theorem mem_stageEvents {ops : List Operation} {e : TopicRef × JsonPayload}
    (h : e ∈ ops.foldl (fun events op => stageEvents op events) []) :
    Operation.event e.1 e.2 ∈ ops := by
  have key : ∀ (ops : List Operation) (events : List (TopicRef × JsonPayload)),
      e ∈ ops.foldl (fun events op => stageEvents op events) events →
        e ∈ events ∨ Operation.event e.1 e.2 ∈ ops := by
    intro ops
    induction ops with
    | nil => exact fun _ h => .inl h
    | cons op ops ih =>
      intro events he
      rcases ih _ he with he | he
      · cases op <;> simp [stageEvents] at he ⊢
        · exact .inl he.1
        · exact .inl he
        · rcases he with he | rfl
          · exact .inl he
          · exact .inr (.inl ⟨rfl, rfl⟩)
        · exact .inl he
      · exact .inr (List.mem_cons_of_mem _ he)
  simpa using key ops [] h

theorem Prepared.event_staged (h : Prepared session ticket deadline done staged)
    {e : TopicRef × JsonPayload} (he : e ∈ staged.events) :
    ∃ t, staged.topics.get? e.1 = some t := by
  rw [h.events] at he
  exact h.op_staged (mem_stageEvents he)

theorem Prepared.reset_staged (h : Prepared session ticket deadline done staged) {key : TopicRef}
    (hk : key ∈ staged.resets) : ∃ t, staged.topics.get? key = some t := by
  rw [h.resets, List.mem_filterMap] at hk
  obtain ⟨op, hop, hr⟩ := hk
  have : op.key = key := by cases op <;> simp_all [Operation.resetKey?, Operation.key]
  exact this ▸ h.op_staged hop

theorem stageTopic_demanded {t t' : Topic} (h : stageTopic deadline op t = .ok t') :
    t'.demanded = t.demanded := by
  cases op with
  | reset k =>
    simp only [stageTopic] at h
    split at h
    · cases h
    · split at h
      · cases h
      · cases h
        rfl
  | _ => cases h; rfl

theorem stageTopic_generation {t t' : Topic} (h : stageTopic deadline op t = .ok t') :
    t'.state.generation = t.state.generation + if op.resetKey?.isSome then 1 else 0 := by
  cases op with
  | reset key =>
    simp only [stageTopic] at h
    split at h
    · cases h
    · rename_i g hg
      split at h
      · cases h
      · cases h
        exact (checkedAdd_eq_some.mp hg).1
  | _ => cases h; rfl

/-- A topic's generation grows by the number of its resets. -/
theorem applyOps_generation {key : TopicRef} {ops : List Operation} {old t : Topic}
    (h : applyOps deadline key ops old = .ok t) :
    t.state.generation = old.state.generation + (ops.filterMap Operation.resetKey?).count key := by
  induction ops using List.reverseRecOn generalizing t with
  | nil => cases h; simp
  | append_singleton ops op ih =>
    rw [List.filterMap_append, List.count_append]
    obtain ⟨t₀, h₀, ⟨hk, hs⟩ | ⟨hk, rfl⟩⟩ := applyOps_snoc h
    · rw [stageTopic_generation hs, ih h₀]
      cases op with
      | reset k =>
        have : k = key := hk
        simp [Operation.resetKey?, this]
        omega
      | _ => simp [Operation.resetKey?, List.filterMap_cons]
    · rw [ih h₀]
      cases op with
      | reset k =>
        have : k ≠ key := hk
        simp [Operation.resetKey?, this]
      | _ => simp [Operation.resetKey?, List.filterMap_cons]

/-- A staged reset has raised both counters, so neither was exhausted. -/
theorem stageTopic_reset {t t' : Topic} {key : TopicRef}
    (h : stageTopic deadline (.reset key) t = .ok t') :
    t.state.generation < u64Max ∧ t.epoch < u64Max := by
  simp only [stageTopic] at h
  split at h
  · cases h
  · rename_i g hg
    split at h
    · cases h
    · rename_i e he
      have hgen := checkedAdd_eq_some.mp hg
      have hepoch := checkedAdd_eq_some.mp he
      omega

theorem stageTopic_epoch {t t' : Topic} (h : stageTopic deadline op t = .ok t') :
    t.epoch ≤ t'.epoch := by
  cases op with
  | reset key =>
    simp only [stageTopic] at h
    split at h
    · cases h
    · split at h
      · cases h
      · rename_i e he
        cases h
        exact (checkedAdd_eq_some.mp he).1 ▸ Nat.le_succ _
  | _ => cases h; exact le_refl _

/-- Operations that can be applied reset no topic whose counters are exhausted. -/
theorem applyOps_unspent {key : TopicRef} {ops : List Operation} {old t : Topic}
    (h : applyOps deadline key ops old = .ok t) :
    old.state.generation ≤ t.state.generation ∧ old.epoch ≤ t.epoch ∧
      (.reset key ∈ ops → old.spent = false) := by
  induction ops using List.reverseRecOn generalizing t with
  | nil =>
    cases h
    exact ⟨le_refl _, le_refl _, by simp⟩
  | append_singleton ops op ih =>
    obtain ⟨t₀, h₀, ⟨hk, hs⟩ | ⟨hk, rfl⟩⟩ := applyOps_snoc h
    · obtain ⟨hgen, hepoch, hunspent⟩ := ih h₀
      refine ⟨hgen.trans (stageTopic_generation hs ▸ Nat.le_add_right _ _),
        hepoch.trans (stageTopic_epoch hs), fun hmem => ?_⟩
      rcases List.mem_append.mp hmem with hmem | hmem
      · exact hunspent hmem
      · rw [← List.mem_singleton.mp hmem] at hs
        obtain ⟨hg, he⟩ := stageTopic_reset hs
        simp only [Topic.spent, Bool.or_eq_false_iff, beq_eq_false_iff_ne]
        omega
    · obtain ⟨hgen, hepoch, hunspent⟩ := ih h₀
      refine ⟨hgen, hepoch, fun hmem => ?_⟩
      rcases List.mem_append.mp hmem with hmem | hmem
      · exact hunspent hmem
      · exact absurd (by rw [← List.mem_singleton.mp hmem]; rfl) hk

/-- A batch that can be prepared resets no topic whose counters are exhausted. -/
theorem Prepared.unspent {ops : List Operation} (h : Prepared session ticket deadline ops staged) :
    (ops.any fun op => op.resetKey?.any fun key => (session.topics.get? key).any Topic.spent) =
      false := by
  by_contra hany
  obtain ⟨op, hop, hr⟩ := List.any_eq_true.mp (eq_true_of_ne_false hany)
  obtain ⟨key, hk, hr⟩ := (Option.any_eq_true _ _).mp hr
  obtain ⟨t, ht, hspent⟩ := (Option.any_eq_true _ _).mp hr
  obtain ⟨key', rfl⟩ : ∃ key', op = .reset key' := by
    cases op with
    | reset key' => exact ⟨key', rfl⟩
    | _ => cases hk
  cases hk
  obtain ⟨old, t', hold, happly⟩ := h.known _ hop
  rw [show Operation.key (.reset key) = key from rfl, ht] at hold
  cases hold
  rw [(applyOps_unspent happly).2.2 hop] at hspent
  cases hspent

end StagedPublication

end Service
end WfObserver
