import WfObserver.Warframe.Session.Polls

/-!
# The batches of a poll are well formed

Every step of a poll appends operations of demanded capabilities, and to a capability that is not
published yet (`Extends`). So for each capability a batch has resets and failures first, and then at
most one publication (`Staged`), whether the poll fails or not (`poll_wellFormed`).
-/

namespace WfObserver
namespace Warframe
namespace Session

open ProviderSdk
open Stateful
open Service (PollBatch Platform Operation publicHealth)
open Wire (JsonPayload TopicRef)

/-! ## The operations of one capability -/

/-- The operations of a topic, in their order. -/
def opsOf (k : TopicRef) (ops : List Operation) : List Operation := ops.filter fun op => op.key = k

theorem mem_opsOf {k : TopicRef} {ops : List Operation} {op : Operation} :
    op ∈ opsOf k ops ↔ op ∈ ops ∧ op.key = k := by simp [opsOf]

@[simp] theorem opsOf_append (k : TopicRef) (xs ys : List Operation) :
    opsOf k (xs ++ ys) = opsOf k xs ++ opsOf k ys := List.filter_append ..

theorem opsOf_eq_self {k : TopicRef} {ops : List Operation} (h : ∀ op ∈ ops, op.key = k) :
    opsOf k ops = ops := List.filter_eq_self.mpr fun op hop => decide_eq_true (h op hop)

theorem opsOf_eq_nil {k : TopicRef} {ops : List Operation} (h : ∀ op ∈ ops, op.key ≠ k) :
    opsOf k ops = [] := List.filter_eq_nil_iff.mpr fun op hop => by simpa using h op hop

/-- What a poll stages for a capability. Nothing follows what it publishes. -/
inductive Staged (cap : CapabilityDescriptor) : List Operation → Prop
  /-- Resets and failures. -/
  | silent {ops} (h : ∀ op ∈ ops, published op = false) : Staged cap ops
  | snapshot {before payload} (h : ∀ op ∈ before, published op = false)
    (hsnapshots : cap.snapshots.isSome) : Staged cap (before ++ [.snapshot (key cap) payload])
  | events {before events} (h : ∀ op ∈ before, published op = false) (hcap : cap.snapshots = none)
    (hevents : ∀ op ∈ events, ∃ payload, op = .event (key cap) payload) :
    Staged cap (before ++ .health (key cap) .available :: events)

theorem Staged.append {cap : CapabilityDescriptor} {before ops : List Operation}
    (hbefore : ∀ op ∈ before, published op = false) (h : Staged cap ops) :
    Staged cap (before ++ ops) := by
  have hall {ops : List Operation} (h : ∀ op ∈ ops, published op = false) :
      ∀ op ∈ before ++ ops, published op = false :=
    fun op hop => (List.mem_append.mp hop).elim (hbefore op) (h op)
  cases h with
  | silent h => exact .silent (hall h)
  | snapshot h hsnapshots =>
    rw [← List.append_assoc]
    exact .snapshot (hall h) hsnapshots
  | events h hcap hevents =>
    rw [← List.append_assoc]
    exact .events (hall h) hcap hevents

theorem Staged.one {cap : CapabilityDescriptor} {op : Operation} (h : published op = false) :
    Staged cap [op] := .silent (by simpa using h)

theorem Staged.one_snapshot {cap : CapabilityDescriptor} (h : cap.snapshots.isSome)
    (payload : JsonPayload) : Staged cap [.snapshot (key cap) payload] :=
  @Staged.snapshot cap [] payload (by simp) h

/-- The operations are those of demanded capabilities, each with its operations in order. -/
structure Arranged (demand : List CapabilityDescriptor) (ops : List Operation) : Prop where
  demanded : ∀ op ∈ ops, ∃ cap ∈ manifest.capabilities, op.key = key cap ∧ demands demand cap = true
  staged : ∀ cap ∈ manifest.capabilities, Staged cap (opsOf (key cap) ops)

/-- A batch that the host has no reason to reject, apart from its size. -/
structure WellFormed (demand : List CapabilityDescriptor) (ops : List Operation) : Prop extends
    Arranged demand ops where
  resets : (ops.filterMap Operation.resetKey?).Nodup

/-! ## The capabilities -/

theorem mem_capabilities {cap : CapabilityDescriptor} : cap ∈ manifest.capabilities ↔
    (∃ topic : AccountTopic, cap = topic.cap) ∨ ∃ topic : VisualTopic, cap = topic.cap := by
  constructor
  · intro h
    simp only [manifest, List.mem_cons, List.not_mem_nil, or_false] at h
    rcases h with rfl | rfl | rfl | rfl | rfl | rfl | rfl | rfl | rfl
    · exact .inl ⟨.inventory, rfl⟩
    · exact .inl ⟨.currencies, rfl⟩
    · exact .inl ⟨.player, rfl⟩
    · exact .inl ⟨.chat, rfl⟩
    · exact .inr ⟨.screens, rfl⟩
    · exact .inr ⟨.relicRewards, rfl⟩
    · exact .inl ⟨.mastery, rfl⟩
    · exact .inl ⟨.intrinsics, rfl⟩
    · exact .inl ⟨.starChart, rfl⟩
  · rintro (⟨topic, rfl⟩ | ⟨topic, rfl⟩)
    · exact topic.declared
    · exact topic.declared

/-- A capability is known by its wire key. -/
theorem key_inj {a b : CapabilityDescriptor} (ha : a ∈ manifest.capabilities)
    (hb : b ∈ manifest.capabilities) (h : key a = key b) : a = b := by
  rcases mem_capabilities.mp ha with ⟨x, rfl⟩ | ⟨x, rfl⟩ <;>
    rcases mem_capabilities.mp hb with ⟨y, rfl⟩ | ⟨y, rfl⟩
  · exact congrArg _ (AccountTopic.key_inj.mp h)
  · exact absurd h.symm (y.key_ne x)
  · exact absurd h (x.key_ne y)
  · exact congrArg _ (VisualTopic.key_inj.mp h)

variable [SerdeJson] {P : Duration → Prop} {now : Duration} {g : Game} {s t u : PollState}
  {demand : List CapabilityDescriptor}

/-! ## What a step appends -/

/-- The operations after `s` are those of demanded capabilities, and nothing is appended to what is
already published. -/
def Extends (demand : List CapabilityDescriptor) (s t : PollState) : Prop :=
  ∃ ops, t.batch.pending.ops = s.batch.pending.ops ++ ops ∧
    (∀ op ∈ ops, ∃ cap ∈ manifest.capabilities, op.key = key cap ∧ demands demand cap = true) ∧
    ∀ cap ∈ manifest.capabilities, opsOf (key cap) ops = [] ∨
      (∀ op ∈ opsOf (key cap) s.batch.pending.ops, published op = false) ∧
        Staged cap (opsOf (key cap) ops)

theorem Extends.of_eq (h : t.batch.pending.ops = s.batch.pending.ops) : Extends demand s t :=
  ⟨[], by rw [h, List.append_nil], by simp, fun _ _ => .inl rfl⟩

/-- The step speaks of one capability. -/
theorem Extends.of_appended {cap : CapabilityDescriptor} {ops : List Operation} {batch : PollBatch}
    {session : WarframeSession} (hcap : cap ∈ manifest.capabilities)
    (hdemand : demands demand cap = true)
    (hun : ∀ op ∈ s.batch.pending.ops, op.key = key cap → published op = false)
    (happended : Appended s.batch ops batch) (hkeys : ∀ op ∈ ops, op.key = key cap)
    (hstaged : Staged cap ops) : Extends demand s { s with session, batch } := by
  refine ⟨ops, happended.ops, fun op hop => ⟨cap, hcap, hkeys op hop, hdemand⟩, fun other ho => ?_⟩
  by_cases h : key cap = key other
  · obtain rfl := key_inj hcap ho h
    refine .inr ⟨fun op hop => ?_, by rwa [opsOf_eq_self hkeys]⟩
    obtain ⟨hop, hk⟩ := mem_opsOf.mp hop
    exact hun op hop hk
  · exact .inl (opsOf_eq_nil fun op hop => hkeys op hop ▸ h)

/-- The step appends one operation. -/
theorem Extends.of_single {cap : CapabilityDescriptor} {op : Operation} {batch : PollBatch}
    {session : WarframeSession} (hcap : cap ∈ manifest.capabilities)
    (hdemand : demands demand cap = true)
    (hun : ∀ op ∈ s.batch.pending.ops, op.key = key cap → published op = false)
    (happended : Appended s.batch [op] batch) (hk : op.key = key cap) (hstaged : Staged cap [op]) :
    Extends demand s { s with session, batch } :=
  .of_appended hcap hdemand hun happended (by simpa using hk) hstaged

/-- The step resets some topics. -/
theorem Resets.extends {topics : List AccountTopic} {batch : PollBatch} {session : WarframeSession}
    (h : Resets topics s batch)
    (hdemand : ∀ topic, (s.session.topics topic).demanded = demands demand topic.cap) :
    Extends demand s { s with session, batch } := by
  refine ⟨_, h.appended.ops, fun op hop => ?_, fun cap hcap => ?_⟩
  · obtain ⟨topic, ht, rfl⟩ := List.mem_map.mp hop
    exact ⟨topic.cap, topic.declared, rfl, by rw [← hdemand]; exact (List.mem_filter.mp ht).2⟩
  · by_cases hex : ∃ topic ∈ s.session.demanded topics, key cap = topic.key
    · obtain ⟨topic, ht, hk⟩ := hex
      refine .inr ⟨fun op hop => ?_, .silent fun op hop => ?_⟩
      · obtain ⟨hop, hk'⟩ := mem_opsOf.mp hop
        exact h.unpublished topic (List.mem_filter.mp ht).1 op hop (hk'.trans hk)
      · obtain ⟨_, -, rfl⟩ := List.mem_map.mp (mem_opsOf.mp hop).1
        rfl
    · refine .inl (opsOf_eq_nil fun op hop hk => ?_)
      obtain ⟨topic, ht, rfl⟩ := List.mem_map.mp hop
      exact hex ⟨topic, ht, hk.symm⟩

theorem EventOps.events [Payloads] {events : List ChatEvent} {ops : List Operation}
    (h : EventOps events ops) : ∀ op ∈ ops, ∃ payload, op = .event AccountTopic.chat.key payload := by
  intro op hop
  obtain ⟨i, hi, rfl⟩ := List.getElem_of_mem hop
  obtain ⟨value, payload, -, -, heq⟩ := h.get (h.length_eq ▸ hi) hi
  exact ⟨payload, heq⟩

/-- The events of chat, after its health. -/
theorem EventOps.staged [Payloads] {events : List ChatEvent} {ops : List Operation}
    (h : EventOps events ops) :
    (∀ op ∈ .health AccountTopic.chat.key .available :: ops, op.key = AccountTopic.chat.key) ∧
      Staged AccountTopic.chat.cap (.health AccountTopic.chat.key .available :: ops) := by
  refine ⟨fun op hop => ?_, @Staged.events _ [] _ (by simp) rfl h.events⟩
  rcases List.mem_cons.mp hop with rfl | hop
  · rfl
  · obtain ⟨payload, rfl⟩ := h.events op hop
    rfl

variable [Payloads]

theorem VisualStep.extends
    (hdemand : ∀ topic, s.session.visual.demanded topic = demands demand topic.cap)
    (h : VisualStep P now g s t) : Extends demand s t := by
  cases h with
  | noted h => exact .of_eq (by rw [h.batch])
  | retimed | ownerLost | ownerFound => exact .of_eq rfl
  | @health topic _ _ hd hunshown happended =>
    exact .of_single topic.declared (hdemand topic ▸ hd) hunshown happended rfl (.one rfl)
  | screensReset hd huntouched happended =>
    exact .of_single VisualTopic.screens.declared (hdemand .screens ▸ hd) huntouched.unshown
      happended rfl (.one rfl)
  | screensSnapshot hd hunshown _ _ happended =>
    exact .of_single VisualTopic.screens.declared (hdemand .screens ▸ hd) hunshown
      happended rfl (.one_snapshot rfl _)
  | relicReset hd huntouched happended =>
    exact .of_single VisualTopic.relicRewards.declared (hdemand .relicRewards ▸ hd)
      huntouched.unshown happended rfl (.one rfl)
  | relicSnapshot hd hunshown _ _ _ _ happended =>
    exact .of_single VisualTopic.relicRewards.declared (hdemand .relicRewards ▸ hd) hunshown
      happended rfl (.one_snapshot rfl _)

theorem Step.extends
    (hdemand : ∀ topic, (s.session.topics topic).demanded = demands demand topic.cap)
    (h : Step P now g s t) : Extends demand s t := by
  cases h with
  | calm h =>
    cases h with
    | noted h => exact .of_eq (by rw [h.batch])
    | @deferred topic _ _ hd hunpublished _ happended =>
      exact .of_single topic.declared (hdemand topic ▸ hd) hunpublished happended rfl (.one rfl)
  | accountReset _ hresets | dataReset hresets | playerReset hresets => exact hresets.extends hdemand
  | loginLost | dataLost | loginFound | dataFound | chatPrepared => exact .of_eq rfl
  | @snapshot topic _ _ _ hd hunpublished _ _ htopic happended =>
    exact .of_single topic.declared (hdemand topic ▸ hd) hunpublished happended rfl
      (.one_snapshot (topic.snapshots_isSome htopic) _)
  | chatCut hd hunpublished _ _ hops happended =>
    exact .of_appended AccountTopic.chat.declared (hdemand .chat ▸ hd) hunpublished happended
      hops.staged.1 hops.staged.2
  | chatPublished hd hunpublished _ hops happended =>
    exact .of_appended AccountTopic.chat.declared (hdemand .chat ▸ hd) hunpublished happended
      hops.staged.1 hops.staged.2

/-! ## Whole polls -/

omit [Payloads] in
theorem Arranged.extends (hs : Arranged demand s.batch.pending.ops) (h : Extends demand s t) :
    Arranged demand t.batch.pending.ops := by
  obtain ⟨ops, hops, hdemanded, hstaged⟩ := h
  rw [hops]
  refine ⟨fun op hop => (List.mem_append.mp hop).elim (hs.demanded op) (hdemanded op),
    fun cap hcap => ?_⟩
  rw [opsOf_append]
  rcases hstaged cap hcap with hnil | ⟨hun, hstaged⟩
  · rw [hnil, List.append_nil]
    exact hs.staged cap hcap
  · exact .append hun hstaged

omit [Payloads] in
theorem Arranged.wellFormed (h : Arranged demand s.batch.pending.ops) :
    WellFormed demand s.batch.pending.ops where
  demanded := h.demanded
  resets := s.batch.wf.resets ▸ s.batch.wf.nodup
  staged := h.staged

omit [SerdeJson] [Payloads] in
theorem Arranged.of_nil {ops : List Operation} (h : ops = []) : Arranged demand ops := by
  subst h
  exact ⟨by simp, fun cap _ => .silent (by simp [opsOf])⟩

theorem VisualSteps.arranged (h : VisualSteps P now g s t)
    (hdemand : ∀ topic, s.session.visual.demanded topic = demands demand topic.cap)
    (hs : Arranged demand s.batch.pending.ops) : Arranged demand t.batch.pending.ops := by
  induction h with
  | refl => exact hs
  | tail h step ih =>
    exact ih.extends (step.extends fun topic => (VisualSteps.seen h).demanded topic ▸ hdemand topic)

theorem Steps.arranged (hP : ∀ t, P t → now < t ∨ t = durationMax) (h : Steps P now g s t)
    (hdemand : ∀ topic, (s.session.topics topic).demanded = demands demand topic.cap)
    (hs : Arranged demand s.batch.pending.ops) : Arranged demand t.batch.pending.ops := by
  induction h with
  | refl => exact hs
  | tail h step ih =>
    exact ih.extends (step.extends fun topic => (Steps.grown hP h).demanded topic ▸ hdemand topic)

omit [Payloads] in
/-- What a sink refuses changes no operation. -/
theorem Failed.ops {R : PollState → PollState → Prop} (h : Failed R s t) :
    ∃ u, R s u ∧ t.batch.pending.ops = u.batch.pending.ops := by
  obtain ⟨u, hu, -, -, hdropped⟩ := h
  exact ⟨u, hu, hdropped.ops⟩

omit [SerdeJson] [Payloads] in
theorem demandVisual_demanded (now : Duration) (session : WarframeSession) (topic : VisualTopic) :
    (session.demandVisual demand now).visual.demanded topic = demands demand topic.cap := by
  cases topic with
  | screens => exact VisualTopics.demand_screensDemanded ..
  | relicRewards => exact VisualTopics.demand_relicDemanded ..

variable [Platform]

/-- The times at which a failure may be tried again, when nothing is known of the session. -/
def Ahead (now : Duration) (t : Duration) : Prop := now < t ∨ t = durationMax

omit [Payloads] [Platform] in
/-- A poll can be started from every session. -/
theorem opening_new (session : WarframeSession) (now : Duration) :
    Opening (Ahead now) now ⟨session, PollBatch.new manifest, 0⟩ where
  manifest := rfl
  ops := rfl
  deadlines := ⟨fun _ hd _ => lt_later hd, fun _ h => h, fun _ _ h => .inl h⟩
  retry := lt_later (lt_max_of_lt_right (by decide))

omit [Platform] in
theorem Polled.arranged (hs : Opening P now s) (h : Polled P now g demand s u t) :
    Arranged demand t.batch.pending.ops := by
  refine Steps.arranged hs.deadlines.settled h.account (u.session.demandTopics_demanded demand now) ?_
  exact h.visual.arranged (demandVisual_demanded now s.session) (.of_nil hs.ops)

omit [Platform] in
theorem Broken.arranged (hs : Opening P now s) (h : Broken P now g demand s t) :
    Arranged demand t.batch.pending.ops := by
  cases h with
  | visual h =>
    obtain ⟨u, hu, hops⟩ := h.ops
    rw [hops]
    exact hu.arranged (demandVisual_demanded now s.session) (.of_nil hs.ops)
  | @account u hu h =>
    obtain ⟨v, hv, hops⟩ := h.ops
    rw [hops]
    refine Steps.arranged hs.deadlines.settled hv (u.session.demandTopics_demanded demand now) ?_
    exact hu.arranged (demandVisual_demanded now s.session) (.of_nil hs.ops)

/-- Whatever the memory gives, what the session remembers and what is demanded: the batch of a poll is
well formed, also when the poll fails. A poll fails only because its batch has reached its size, a value
cannot be encoded or chat cannot be prepared, and no call of a poll that returns was rejected. -/
theorem poll_wellFormed (g : Game) (now : Duration) (demand : List CapabilityDescriptor)
    (session : WarframeSession) :
    match runFrom (poll g now demand) ⟨session, PollBatch.new manifest, 0⟩ with
    | (.ok _, t) => WellFormed demand t.batch.pending.ops ∧ t.batch.pending.failed = false
    | (.error e, t) => WellFormed demand t.batch.pending.ops ∧ Refused g e := by
  have hs := opening_new session now
  rcases h : runFrom (poll g now demand) ⟨session, PollBatch.new manifest, 0⟩ with ⟨e | result, t⟩
  · obtain ⟨hrefused, hbroken⟩ := poll_error hs h
    exact ⟨(hbroken.arranged hs).wellFormed, hrefused⟩
  · obtain ⟨-, u, hpolled⟩ := poll_ok hs h
    refine ⟨(hpolled.arranged hs).wellFormed, ?_⟩
    exact (Steps.grown (fun _ h => h) hpolled.account).failed.trans hpolled.visual.seen.failed

end Session
end Warframe
end WfObserver
