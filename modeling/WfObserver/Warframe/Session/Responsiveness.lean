import Mathlib.Order.Bounds.Defs
import WfObserver.Warframe.Provider
import WfObserver.Warframe.Session.Batches
import WfObserver.Warframe.Session.Horizon

/-!
# No demanded topic is skipped

A demanded topic that was due, and a topic that was reset, stays due until something is said of it
(`Owed`). No topic is due after the account part, so everything owed is answered, and everything
demanded is due again within five seconds (`poll_responsive`).
-/

namespace WfObserver
namespace Warframe
namespace Session

open ProviderSdk
open Stateful
open Service (PollBatch Platform Operation)

section Polls

variable [SerdeJson] {P : Duration → Prop} {now : Duration} {g : Game} {s t u : PollState}
  {demand : List CapabilityDescriptor} {session : WarframeSession}

/-! ## Topics that are owed an answer -/

/-- The topic is due, or the last word on it is not a reset. -/
def Heard (now : Duration) (s : PollState) (topic : AccountTopic) : Prop :=
  (s.session.topics topic).nextPoll ≤ now ∨ Answered topic.key s.batch.pending.ops

/-- A topic that was due, or of which something is staged, is not left without an answer. -/
def Owed (now : Duration) (due : Prop) (s : PollState) (topic : AccountTopic) : Prop :=
  due ∨ (∃ op ∈ s.batch.pending.ops, op.key = topic.key) → Heard now s topic

variable {due : Prop} {topic : AccountTopic}

/-- Nothing of the topic changes. -/
theorem Owed.frame (h : Owed now due s topic) {ops : List Operation}
    (hops : t.batch.pending.ops = s.batch.pending.ops ++ ops) (hkeys : ∀ op ∈ ops, op.key ≠ topic.key)
    (htopic : (t.session.topics topic).nextPoll = (s.session.topics topic).nextPoll) :
    Owed now due t topic := by
  intro howed
  have howed : due ∨ ∃ op ∈ s.batch.pending.ops, op.key = topic.key := by
    refine howed.imp_right ?_
    rintro ⟨op, hop, hk⟩
    rw [hops] at hop
    rcases List.mem_append.mp hop with hop | hop
    · exact ⟨op, hop, hk⟩
    · exact absurd hk (hkeys op hop)
  rcases h howed with hdue | hanswered
  · exact .inl (htopic.trans_le hdue)
  · exact .inr (hops ▸ hanswered.append hkeys)

theorem Owed.of_eq (h : Owed now due s topic) (hops : t.batch.pending.ops = s.batch.pending.ops)
    (htopics : t.session.topics = s.session.topics) : Owed now due t topic :=
  h.frame (hops.trans (List.append_nil _).symm) (by simp) (by rw [htopics])

/-- A topic is answered, and may be set to be polled later. -/
theorem Owed.of_answer (h : Owed now due s topic) {other : AccountTopic} {ops : List Operation}
    {batch : PollBatch} {session : WarframeSession} (happended : Appended s.batch ops batch)
    (hkeys : ∀ op ∈ ops, op.key = other.key) (hanswer : Answered other.key batch.pending.ops)
    (htopic : topic ≠ other → session.topics topic = s.session.topics topic) :
    Owed now due { s with session, batch } topic := by
  by_cases ho : topic = other
  · subst ho
    exact fun _ => .inr hanswer
  · refine h.frame happended.ops (fun op hop hk => ho ?_) (by rw [← htopic ho])
    exact (AccountTopic.key_inj.mp ((hkeys op hop).symm.trans hk)).symm

/-- The last of the events is an answer, or the health before them. -/
theorem EventOps.answered [Payloads] {events : List ChatEvent} {ops : List Operation}
    (h : EventOps events ops) (before : List Operation) :
    Answered AccountTopic.chat.key (before ++ .health AccountTopic.chat.key .available :: ops) := by
  have hops := h.events
  rcases List.eq_nil_or_concat ops with rfl | ⟨ops, op, rfl⟩
  · exact .of_last rfl rfl
  · obtain ⟨payload, rfl⟩ := hops op (by simp)
    rw [List.concat_eq_append, ← List.cons_append, ← List.append_assoc]
    exact .of_last rfl rfl

/-- The topics that are reset become due. -/
theorem Owed.of_resets (h : Owed now due s topic) {topics : List AccountTopic} {batch : PollBatch}
    {session : WarframeSession} (hd : (s.session.topics topic).demanded = true)
    (hresets : Resets topics s batch)
    (htopics : session.topics = (s.session.wake topics now).topics) :
    Owed now due { s with session, batch } topic := by
  by_cases ht : topic ∈ topics
  · refine fun _ => .inl (le_of_eq ?_)
    dsimp only
    rw [htopics, WarframeSession.wake]
    dsimp only
    rw [if_pos ⟨ht, hd⟩]
  · refine h.frame hresets.appended.ops (fun op hop hk => ht ?_) ?_
    · obtain ⟨other, ho, rfl⟩ := List.mem_map.mp hop
      exact AccountTopic.key_inj.mp hk ▸ (List.mem_filter.mp ho).1
    · dsimp only
      rw [htopics, WarframeSession.wake]
      dsimp only
      rw [if_neg fun h => ht h.1]

variable [Payloads]

theorem Owed.step (h : Owed now due s topic) (hd : (s.session.topics topic).demanded = true)
    (hstep : Step P now g s t) : Owed now due t topic := by
  cases hstep with
  | calm hcalm =>
    cases hcalm with
    | noted hn => exact h.of_eq (by rw [hn.batch]) (by rw [hn.session])
    | @deferred other retry _ _ _ _ happended =>
      exact h.of_answer happended (by simp [Operation.key]) (happended.ops ▸ .of_last rfl rfl)
        fun ho => WarframeSession.setNext_of_ne ho ..
  | accountReset _ hresets | dataReset hresets | playerReset hresets =>
    exact h.of_resets hd hresets rfl
  | loginLost | dataLost | loginFound | dataFound | chatPrepared => exact h.of_eq rfl rfl
  | @snapshot other _ _ _ _ _ _ _ _ happended =>
    exact h.of_answer happended (by simp [Operation.key]) (happended.ops ▸ .of_last rfl rfl)
      fun ho => WarframeSession.setNext_of_ne ho ..
  | chatCut _ _ _ _ hops happended =>
    exact h.of_answer happended hops.staged.1 (happended.ops ▸ hops.answered _) fun _ => rfl
  | chatPublished _ _ _ hops happended =>
    exact h.of_answer happended hops.staged.1 (happended.ops ▸ hops.answered _)
      fun ho => WarframeSession.setNext_of_ne ho ..

theorem Owed.steps (hP : ∀ t, P t → now < t ∨ t = durationMax) (h : Owed now due s topic)
    (hd : (s.session.topics topic).demanded = true) (hsteps : Steps P now g s t) :
    Owed now due t topic := by
  induction hsteps with
  | refl => exact h
  | tail hsteps hstep ih =>
    exact ih.step (((Steps.grown hP hsteps).demanded topic).trans hd) hstep

omit [Payloads] in
theorem opsOf_visual {topic : VisualTopic} {ops : List Operation} {batch : PollBatch}
    (h : Appended s.batch ops batch) (hkeys : ∀ op ∈ ops, ∃ account : AccountTopic, op.key = account.key) :
    opsOf topic.key batch.pending.ops = opsOf topic.key s.batch.pending.ops := by
  have hnil : opsOf topic.key ops = [] := by
    refine opsOf_eq_nil fun op hop => ?_
    obtain ⟨account, hk⟩ := hkeys op hop
    exact hk ▸ (topic.key_ne account).symm
  rw [h.ops, opsOf_append, hnil, List.append_nil]

/-- The account part stages nothing for a visual topic. -/
theorem Step.opsOf_visual (h : Step P now g s t) (topic : VisualTopic) :
    opsOf topic.key t.batch.pending.ops = opsOf topic.key s.batch.pending.ops := by
  have one {op : Operation} {account : AccountTopic} (hk : op.key = account.key) :
      ∀ op' ∈ [op], ∃ account : AccountTopic, op'.key = account.key := by
    simpa using ⟨account, hk⟩
  cases h with
  | calm hcalm =>
    cases hcalm with
    | noted hn => rw [hn.batch]
    | deferred _ _ _ happended => exact Session.opsOf_visual happended (one rfl)
  | accountReset _ hresets | dataReset hresets | playerReset hresets =>
    refine Session.opsOf_visual hresets.appended fun op hop => ?_
    obtain ⟨account, -, rfl⟩ := List.mem_map.mp hop
    exact ⟨account, rfl⟩
  | loginLost | dataLost | loginFound | dataFound | chatPrepared => rfl
  | snapshot _ _ _ _ _ happended => exact Session.opsOf_visual happended (one rfl)
  | chatCut _ _ _ _ hops happended | chatPublished _ _ _ hops happended =>
    exact Session.opsOf_visual happended fun op hop => ⟨.chat, hops.staged.1 op hop⟩

theorem Steps.opsOf_visual (h : Steps P now g s t) (topic : VisualTopic) :
    opsOf topic.key t.batch.pending.ops = opsOf topic.key s.batch.pending.ops := by
  induction h with
  | refl => rfl
  | tail _ hstep ih => exact (hstep.opsOf_visual topic).trans ih

/-! ## Sessions that have come from polls -/

omit [Payloads] in
/-- A poll can be started from it. -/
theorem Bounded.opening (h : Bounded now session) :
    Opening (Soon now) now ⟨session, PollBatch.new manifest, 0⟩ where
  manifest := rfl
  ops := rfl
  deadlines := ⟨fun _ hd hle => .of_later hd hle, fun _ h => h.ahead,
    fun retry hr hn => ⟨.inl hn, h.cached retry hr⟩⟩
  retry := .of_later (lt_max_of_lt_right (by decide))
    (max_le (h.relicReadDelay.trans (by decide)) (by decide))

theorem Bounded.polled (h : Bounded now session) (hnow : now ≤ durationMax)
    (hpolled : Polled (Soon now) now g demand ⟨session, PollBatch.new manifest, 0⟩ u t) :
    Bounded now t.session :=
  ((((h.demandVisual hnow).visualSteps hpolled.visual).demandTopics hnow).steps hnow hpolled.account)

variable [Platform]

/-- What a poll leaves, returned or failed. -/
theorem Bounded.poll (h : Bounded now session) (hnow : now ≤ durationMax)
    {result : Except ProviderError PollResult}
    (hrun : runFrom (poll g now demand) ⟨session, PollBatch.new manifest, 0⟩ = (result, t)) :
    Bounded now t.session := by
  cases result with
  | error e =>
    cases (poll_error h.opening hrun).2 with
    | visual hfailed =>
      obtain ⟨v, hv, hsession, -⟩ := hfailed
      exact hsession ▸ (h.demandVisual hnow).visualSteps hv
    | account hu hfailed =>
      obtain ⟨v, hv, hsession, -⟩ := hfailed
      exact hsession ▸ (((h.demandVisual hnow).visualSteps hu).demandTopics hnow).steps hnow hv
  | ok result =>
    obtain ⟨-, u, hpolled⟩ := poll_ok h.opening hrun
    exact h.polled hnow hpolled

/-- What the hooks of the provider make of a new session, while time passes. -/
inductive Reachable : Duration → WarframeSession → Prop
  | attached : Reachable 0 {}
  | passed {now now' : Duration} {session : WarframeSession} (h : Reachable now session)
    (hle : now ≤ now') : Reachable now' session
  | generation {now : Duration} {session : WarframeSession} (h : Reachable now session)
    (cap : CapabilityDescriptor) : Reachable now (session.beginGeneration cap)
  | completed {now : Duration} {session : WarframeSession} (h : Reachable now session)
    (committed : Bool) : Reachable now (session.pollCompleted committed)
  | polled {now : Duration} {session : WarframeSession} {g : Game} {demand : List CapabilityDescriptor}
    {result : Except ProviderError PollResult} {t : PollState} (h : Reachable now session)
    (hnow : now ≤ durationMax)
    (hrun : runFrom (poll g now demand) ⟨session, PollBatch.new manifest, 0⟩ = (result, t)) :
    Reachable now t.session

theorem Reachable.bounded (h : Reachable now session) : Bounded now session := by
  induction h with
  | attached =>
    refine ⟨fun retry hr => ?_, fun _ => Nat.zero_le _, nofun, nofun, Nat.zero_le _, Nat.zero_le _, nofun⟩
    cases hr with
    | executable h | layout h => cases h
  | passed _ hle ih => exact ih.mono hle
  | generation _ cap ih => exact ih.beginGeneration cap
  | completed _ committed ih => exact ih.pollCompleted committed
  | polled _ hnow hrun ih => exact ih.poll hnow hrun

/-! ## What a poll leaves -/

/-- The times that the session waits for. -/
inductive Awaited (demand : List CapabilityDescriptor) (s : WarframeSession) : Duration → Prop
  | topic {topic : AccountTopic} (h : demands demand topic.cap = true) :
    Awaited demand s (s.topics topic).nextPoll
  | source {next : Duration} (h : s.visual.source.next = some next) : Awaited demand s next

/-- What was due is answered, and everything demanded, and nothing else, is due again. -/
structure Responsive (now : Duration) (demand : List CapabilityDescriptor) (session : WarframeSession)
    (result : PollResult) (t : PollState) : Prop where
  topics : ∀ topic : AccountTopic, demands demand topic.cap = true →
    ((session.topics topic).demanded = true → (session.topics topic).nextPoll ≤ now) →
      Answered topic.key t.batch.pending.ops
  screens : demands demand screensCap = true →
    (session.demandVisual demand now).visual.source.due now = true →
      Answered VisualTopic.screens.key t.batch.pending.ops
  relicRewards : demands demand relicRewardsCap = true →
    (session.demandVisual demand now).visual.source.due now = true →
      (session.visual.relicDemanded = true → session.visual.relicRetry ≤ now) →
        Answered VisualTopic.relicRewards.key t.batch.pending.ops
  /-- Nothing is reset without an answer. -/
  resets : ∀ cap ∈ manifest.capabilities, .reset (key cap) ∈ t.batch.pending.ops →
    Answered (key cap) t.batch.pending.ops
  sampled : demands demand screensCap = true ∨ demands demand relicRewardsCap = true →
    t.session.visual.source.next.isSome
  unsampled : demands demand screensCap = false → demands demand relicRewardsCap = false →
    t.session.visual.source.next = none
  within : ∀ next, Awaited demand t.session next → now < next ∧ next ≤ now + seconds 5
  schedule : (∀ cap ∈ manifest.capabilities, demands demand cap = false) ∧ result = .idle ∨
    ∃ next, IsLeast { time | Awaited demand t.session time } next ∧ result = .after (next - now)
  idle : (∀ cap ∈ manifest.capabilities, demands demand cap = false) → result = .idle

omit [SerdeJson] [Payloads] [Platform] in
/-- The source waits exactly if a visual topic is demanded. -/
theorem Bounded.source_next (h : Bounded now session) (hnow : now ≤ durationMax)
    (hdue : (session.demandVisual demand now).visual.source.due now = false) :
    (∃ next, (session.demandVisual demand now).visual.source.next = some next ∧ Soon now next) ∨
      (demands demand screensCap = false ∧ demands demand relicRewardsCap = false ∧
        (session.demandVisual demand now).visual.source.next = none) := by
  have hb : Bounded now (session.demandVisual demand now) := h.demandVisual hnow
  cases hnext : (session.demandVisual demand now).visual.source.next with
  | some next =>
    rw [ScreenSource.due, hnext, Option.any_some, decide_eq_false_iff_not, not_le] at hdue
    exact .inl ⟨next, rfl, .inl hdue, hb.next next hnext⟩
  | none =>
    refine .inr ?_
    have harmed := hb.armed
    rw [hnext, WarframeSession.demandVisual, VisualTopics.demand_source, ScreenSource.update_plan]
      at harmed
    revert harmed
    cases demands demand screensCap <;> cases demands demand relicRewardsCap <;> decide

omit [Platform] in
/-- The source after a poll. -/
theorem Polled.source_next (h : Bounded now session) (hnow : now ≤ durationMax)
    (hpolled : Polled (Soon now) now g demand ⟨session, PollBatch.new manifest, 0⟩ u t) :
    (∃ next, t.session.visual.source.next = some next ∧ Soon now next) ∨
      (demands demand screensCap = false ∧ demands demand relicRewardsCap = false ∧
        t.session.visual.source.next = none) := by
  have hvisual : t.session.visual = u.session.visual :=
    (Steps.grown (fun _ h => h.ahead) hpolled.account).visual.trans
      (u.session.demandTopics_visual demand now)
  have hscreens := hpolled.screens
  rw [hvisual]
  split at hscreens
  · exact .inl hscreens.next
  · rename_i hdue
    rw [hscreens]
    exact h.source_next hnow (Bool.eq_false_iff.mpr hdue)

omit [Platform] in
/-- The source does not wait for topics that are not demanded. -/
theorem Polled.source_none
    (hpolled : Polled (Soon now) now g demand ⟨session, PollBatch.new manifest, 0⟩ u t)
    (hscreens : demands demand screensCap = false) (hrelic : demands demand relicRewardsCap = false) :
    t.session.visual.source.next = none := by
  have hvisual : t.session.visual = u.session.visual :=
    (Steps.grown (fun _ h => h.ahead) hpolled.account).visual.trans
      (u.session.demandTopics_visual demand now)
  have hnext : (session.demandVisual demand now).visual.source.next = none := by
    simp only [WarframeSession.demandVisual, VisualTopics.demand_source, hscreens, hrelic]
    rfl
  have hpart := hpolled.screens
  rw [hvisual]
  split at hpart
  · rename_i hdue
    simp only [PollState.demandVisual, ScreenSource.due, hnext] at hdue
    cases hdue
  · rw [hpart]
    exact hnext

omit [Platform] in
/-- Everything awaited is soon. -/
theorem Polled.awaited (h : Bounded now session) (hnow : now ≤ durationMax)
    (hpolled : Polled (Soon now) now g demand ⟨session, PollBatch.new manifest, 0⟩ u t)
    {next : Duration} (hnext : Awaited demand t.session next) : Soon now next := by
  cases hnext with
  | topic hd =>
    refine ⟨hpolled.settled _ ?_, (h.polled hnow hpolled).topics _⟩
    exact ((Steps.grown (fun _ h => h.ahead) hpolled.account).demanded _).trans <|
      (u.session.demandTopics_demanded demand now _).trans hd
  | source hs =>
    rcases hpolled.source_next h hnow with ⟨next', hnext', hsoon⟩ | ⟨-, -, hnone⟩
    · exact Option.some.inj (hnext'.symm.trans hs) ▸ hsoon
    · cases hnone.symm.trans hs

omit [SerdeJson] [Payloads] [Platform] in
/-- The schedule is the first of the awaited times. -/
theorem schedule_least {s : WarframeSession} (hahead : ∀ next, Awaited demand s next → now < next)
    (hdemanded : ∀ topic, (s.topics topic).demanded = demands demand topic.cap)
    (hsource : demands demand screensCap = true ∨ demands demand relicRewardsCap = true →
      s.visual.source.next.isSome) :
    (∀ cap ∈ manifest.capabilities, demands demand cap = false) ∧ s.schedule now = .idle ∨
      ∃ next, IsLeast { time | Awaited demand s time } next ∧ s.schedule now = .after (next - now) := by
  have hmem (delay : Duration) : delay ∈ ((s.demanded accountTopics).map fun topic =>
      (s.topics topic).nextPoll - now) ++ (s.visual.source.deadline.map (· - now)).toList ↔
        ∃ next, Awaited demand s next ∧ next - now = delay := by
    simp only [List.mem_append, List.mem_map, WarframeSession.demanded, List.mem_filter, hdemanded,
      Option.mem_toList, Option.map_eq_some_iff, ScreenSource.deadline]
    constructor
    · rintro (⟨topic, ⟨-, hd⟩, rfl⟩ | ⟨next, hnext, rfl⟩)
      · exact ⟨_, .topic hd, rfl⟩
      · exact ⟨_, .source hnext, rfl⟩
    · rintro ⟨next, hnext, rfl⟩
      cases hnext with
      | @topic topic hd => exact .inl ⟨topic, ⟨mem_accountTopics topic, hd⟩, rfl⟩
      | source hs => exact .inr ⟨next, hs, rfl⟩
  unfold WarframeSession.schedule
  dsimp only
  revert hmem
  generalize ((s.demanded accountTopics).map fun topic => (s.topics topic).nextPoll - now) ++
    (s.visual.source.deadline.map (· - now)).toList = delays
  intro hmem
  cases hmin : delays.min? with
  | none =>
    have hnil := List.min?_eq_none_iff.mp hmin
    have hnone (next : Duration) : ¬ Awaited demand s next := by
      intro hnext
      have := (hmem _).mpr ⟨next, hnext, rfl⟩
      rw [hnil] at this
      cases this
    refine .inl ⟨fun cap hcap => Bool.eq_false_iff.mpr fun hd => ?_, rfl⟩
    have visual (h : s.visual.source.next.isSome) : False := by
      obtain ⟨next, hnext⟩ := Option.isSome_iff_exists.mp h
      exact hnone _ (.source hnext)
    rcases mem_capabilities.mp hcap with ⟨topic, rfl⟩ | ⟨topic, rfl⟩
    · exact hnone _ (.topic hd)
    · cases topic with
      | screens => exact visual (hsource (.inl hd))
      | relicRewards => exact visual (hsource (.inr hd))
  | some delay =>
    obtain ⟨hdelay, hleast⟩ := List.min?_eq_some_iff.mp hmin
    obtain ⟨next, hnext, rfl⟩ := (hmem delay).mp hdelay
    refine .inr ⟨next, ⟨hnext, fun other hother => ?_⟩, rfl⟩
    have hle := hleast _ ((hmem _).mpr ⟨other, hother, rfl⟩)
    exact (Nat.sub_le_sub_iff_right (hahead other hother).le).mp hle

omit [Platform] in
theorem Polled.responsive (h : Bounded now session) (hroom : now + seconds 5 ≤ durationMax)
    (hpolled : Polled (Soon now) now g demand ⟨session, PollBatch.new manifest, 0⟩ u t) :
    Responsive now demand session (t.session.schedule now) t := by
  have hnow : now ≤ durationMax := (Nat.le_add_right ..).trans hroom
  have hwithin (next : Duration) (hnext : Awaited demand t.session next) :
      now < next ∧ next ≤ now + seconds 5 := (hpolled.awaited h hnow hnext).within hroom
  have hgrown := Steps.grown (fun _ h => h.ahead) hpolled.account
  have hdemanded (topic : AccountTopic) :
      (t.session.topics topic).demanded = demands demand topic.cap :=
    (hgrown.demanded topic).trans (u.session.demandTopics_demanded demand now topic)
  have hsampled : demands demand screensCap = true ∨ demands demand relicRewardsCap = true →
      t.session.visual.source.next.isSome := by
    intro hd
    rcases hpolled.source_next h hnow with ⟨next, hnext, -⟩ | ⟨hscreens, hrelic, -⟩
    · rw [hnext]
      rfl
    · rw [hscreens, hrelic] at hd
      simp at hd
  have hschedule := schedule_least (fun next hnext => (hwithin next hnext).1) hdemanded hsampled
  -- Nothing is staged for an account topic before the account part.
  have howed (topic : AccountTopic) (hd : demands demand topic.cap = true) :
      (((session.topics topic).demanded = true → (session.topics topic).nextPoll ≤ now) ∨
        ∃ op ∈ t.batch.pending.ops, op.key = topic.key) → Answered topic.key t.batch.pending.ops := by
    intro hdue
    have hfirst : Owed now
        ((session.topics topic).demanded = true → (session.topics topic).nextPoll ≤ now)
        (u.demandTopics demand now) topic := by
      rintro (hdue | ⟨op, hop, hk⟩)
      · refine .inl ?_
        have htopic : (u.session.topics topic) = session.topics topic := by
          rw [hpolled.visual.seen.session]
          rfl
        simp only [PollState.demandTopics, WarframeSession.demandTopics_topics, TopicState.demand,
          htopic, hd, Bool.true_and]
        split
        · exact le_rfl
        · rename_i hnot
          exact hdue (by simpa using hnot)
      · obtain ⟨ops, hops, hkeys⟩ := hpolled.visual.seen.ops
        have hop : op ∈ u.batch.pending.ops := hop
        rw [hops] at hop
        obtain ⟨visual, hv⟩ := hkeys op (by simpa [PollState.demandVisual, PollBatch.new] using hop)
        exact absurd (hv.symm.trans hk) (visual.key_ne topic)
    have hd' : ((u.demandTopics demand now).session.topics topic).demanded = true :=
      (u.session.demandTopics_demanded demand now topic).trans hd
    refine (hfirst.steps (fun _ h => h.ahead) hd' hpolled.account hdue).resolve_left ?_
    exact not_le.mpr (hwithin _ (.topic hd)).1
  -- The account part stages nothing for a visual topic.
  have hops (topic : VisualTopic) :
      opsOf topic.key t.batch.pending.ops = opsOf topic.key u.batch.pending.ops :=
    hpolled.account.opsOf_visual topic
  have hvisual (topic : VisualTopic) (h : Answered topic.key u.batch.pending.ops) :
      Answered topic.key t.batch.pending.ops := by
    obtain ⟨op, hlast, hr⟩ := h
    exact ⟨op, (congrArg List.getLast? (hops topic)).trans hlast, hr⟩
  have hscreens := hpolled.screens
  have hpart (hdue : (session.demandVisual demand now).visual.source.due now = true) :
      VisualPolled (Soon now) now
        (PollState.demandVisual demand now ⟨session, PollBatch.new manifest, 0⟩) u := by
    split at hscreens
    · exact hscreens
    · contradiction
  refine ⟨fun topic hd hdue => howed topic hd (.inl hdue), fun hd hdue => ?_,
    fun hd hdue hretry => ?_, fun cap hcap hreset => ?_, hsampled, hpolled.source_none, hwithin, hschedule,
    fun hnone => ?_⟩
  · exact hvisual .screens ((hpart hdue).screens ((VisualTopics.demand_screensDemanded ..).trans hd))
  · refine hvisual .relicRewards ((hpart hdue).relicRewards
      ((VisualTopics.demand_relicDemanded ..).trans hd) (.inl ?_))
    simp only [PollState.demandVisual, WarframeSession.demandVisual, VisualTopics.demand_retry, hd,
      Bool.true_and]
    split
    · exact le_rfl
    · rename_i hnot
      exact hretry (by simpa using hnot)
  · obtain ⟨wanted, hwanted, hk, hd⟩ := (hpolled.arranged h.opening).demanded _ hreset
    obtain rfl := key_inj hcap hwanted hk
    rcases mem_capabilities.mp hcap with ⟨topic, rfl⟩ | ⟨topic, rfl⟩
    · exact howed topic hd (.inr ⟨_, hreset, rfl⟩)
    · refine hvisual topic ?_
      obtain ⟨hop, -⟩ := mem_opsOf.mp ((hops topic) ▸ mem_opsOf.mpr ⟨hreset, rfl⟩)
      split at hscreens
      · cases topic with
        | screens => exact hscreens.screens ((VisualTopics.demand_screensDemanded ..).trans hd)
        | relicRewards =>
          exact hscreens.relicRewards ((VisualTopics.demand_relicDemanded ..).trans hd)
            (.inr ⟨_, hop, rfl⟩)
      · rw [hscreens] at hop
        cases hop
  · refine (hschedule.resolve_right ?_).2
    rintro ⟨next, ⟨hawaited, -⟩, -⟩
    cases hawaited with
    | @topic topic hd =>
      cases hd.symm.trans (hnone _ (mem_capabilities.mpr (.inl ⟨topic, rfl⟩)))
    | source hs =>
      have hidle := hpolled.source_none (hnone _ (mem_capabilities.mpr (.inr ⟨.screens, rfl⟩)))
        (hnone _ (mem_capabilities.mpr (.inr ⟨.relicRewards, rfl⟩)))
      cases hidle.symm.trans hs

/-- A poll of a session that has come from earlier polls answers every demanded topic that was due, and
every topic that it resets, whatever the memory gives. Every demanded topic is due again within five
seconds, and the schedule is the first of these times, or idle when nothing is demanded. -/
theorem poll_responsive (hreach : Reachable now session) (hroom : now + seconds 5 ≤ durationMax)
    {result : PollResult}
    (hrun : runFrom (poll g now demand) ⟨session, PollBatch.new manifest, 0⟩ = (.ok result, t)) :
    Responsive now demand session result t := by
  obtain ⟨rfl, u, hpolled⟩ := poll_ok hreach.bounded.opening hrun
  exact hpolled.responsive hreach.bounded hroom

end Polls

section examples

open Fixture TestSupport

/-- The first poll of a game that is played, with everything demanded. -/
def first : Except ProviderError PollResult × PollState :=
  runFrom (poll playing 0 manifest.capabilities) ⟨{}, PollBatch.new manifest, 0⟩

theorem first_ok : first.1 = .ok (.after (milliseconds 50)) := by decide +kernel

theorem poll_responsive_first :
    Responsive 0 manifest.capabilities {} (.after (milliseconds 50)) first.2 := by
  have hrun : first = (.ok (.after (milliseconds 50)), first.2) := by
    rw [← first_ok]
  exact poll_responsive .attached (by decide) hrun

end examples

end Session
end Warframe
end WfObserver
