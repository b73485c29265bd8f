import WfObserver.Warframe.Session.Turns
import WfObserver.Warframe.Session.VisualTurns

/-!
# A poll as a whole

A poll is the demand of the visual topics, their steps, the demand of the account topics, and their
steps (`poll_ok`). One that fails stops in one of the two parts (`poll_error`).
-/

namespace WfObserver
namespace Warframe

open ProviderSdk
open Stateful
open Service (PollBatch Platform Operation)

/-! ## Demand -/

namespace ScreenSource

@[simp] theorem update_plan (plan : SourcePlan) (now : Duration) (source : ScreenSource) :
    (source.update plan now).plan = plan := by
  rw [update]
  split
  · rfl
  · split <;> rfl

/-- A source without requests is not due. -/
theorem update_due {plan : SourcePlan} {now : Duration} {source : ScreenSource}
    (h : (source.update plan now).due now = true) : plan.interval.isSome := by
  cases hinterval : plan.interval with
  | none => simp [update, hinterval, due] at h
  | some _ => rfl

end ScreenSource

namespace VisualTopics

variable (demand : List CapabilityDescriptor) (now : Duration) (v : VisualTopics)

@[simp] theorem demand_source : (v.demand demand now).source
    = v.source.update (plan (demands demand screensCap) (demands demand relicRewardsCap)) now := by
  simp only [VisualTopics.demand]
  split <;> split <;> split <;> rfl

@[simp] theorem demand_screensDemanded :
    (v.demand demand now).screensDemanded = demands demand screensCap := by
  simp only [VisualTopics.demand]
  split <;> split <;> split <;> rfl

@[simp] theorem demand_relicDemanded :
    (v.demand demand now).relicDemanded = demands demand relicRewardsCap := by
  simp only [VisualTopics.demand]
  split <;> split <;> split <;> rfl

/-- New demand for the rewards makes them due. -/
theorem demand_retry : (v.demand demand now).relicRetry =
    if demands demand relicRewardsCap && !v.relicDemanded then now else v.relicRetry := by
  simp only [VisualTopics.demand]
  split <;> split <;> split <;> rfl

theorem demand_delay : (v.demand demand now).relicReadDelay =
    if demands demand relicRewardsCap && !v.relicDemanded then 0 else v.relicReadDelay := by
  simp only [VisualTopics.demand]
  split <;> split <;> split <;> rfl

/-- The source is due only if a visual topic is demanded. -/
theorem demand_due (h : (v.demand demand now).source.due now = true) :
    (v.demand demand now).screensDemanded = true ∨ (v.demand demand now).relicDemanded = true := by
  rw [demand_source] at h
  have hinterval := ScreenSource.update_due h
  rw [demand_screensDemanded, demand_relicDemanded]
  revert hinterval
  cases demands demand screensCap <;> cases demands demand relicRewardsCap <;> decide

end VisualTopics

namespace WarframeSession

variable (demand : List CapabilityDescriptor) (now : Duration) (s : WarframeSession)

/-- The visual part of a poll starts with its demand. -/
def demandVisual : WarframeSession := { s with visual := s.visual.demand demand now }

theorem demandTopics_topics (topic : AccountTopic) : (s.demandTopics demand now).topics topic
    = (s.topics topic).demand (demands demand topic.cap) now := by
  simp only [demandTopics]
  split <;> split <;> split <;> rfl

@[simp] theorem demandTopics_demanded (topic : AccountTopic) :
    ((s.demandTopics demand now).topics topic).demanded = demands demand topic.cap := by
  rw [demandTopics_topics]
  rfl

theorem demandTopics_visual : (s.demandTopics demand now).visual = s.visual := by
  simp only [demandTopics]
  split <;> split <;> split <;> rfl

theorem demandTopics_layouts : (s.demandTopics demand now).layouts = s.layouts := by
  simp only [demandTopics]
  split <;> split <;> split <;> rfl

theorem demandTopics_executable : (s.demandTopics demand now).executable = s.executable := by
  simp only [demandTopics]
  split <;> split <;> split <;> rfl

end WarframeSession

namespace PollState

variable [SerdeJson]

/-- The poll after its demand for visual topics. -/
def demandVisual (demand : List CapabilityDescriptor) (now : Duration) (s : PollState) : PollState :=
  { s with session := s.session.demandVisual demand now }

/-- The poll after its demand for account topics. -/
def demandTopics (demand : List CapabilityDescriptor) (now : Duration) (s : PollState) : PollState :=
  { s with session := s.session.demandTopics demand now }

end PollState

namespace Session

variable [SerdeJson] {P : Duration → Prop} {now : Duration} {g : Game} {s : PollState}
  {demand : List CapabilityDescriptor}

/-- What a poll is started from. -/
structure Opening (P : Duration → Prop) (now : Duration) (s : PollState) : Prop where
  manifest : s.batch.manifest = manifest
  ops : s.batch.pending.ops = []
  deadlines : Deadlines P now s.session
  retry : P (later now (max s.session.visual.relicReadDelay relicInterval))

theorem Opening.visualReady (hs : Opening P now s) (demand : List CapabilityDescriptor) :
    VisualReady P now (s.demandVisual demand now) where
  manifest := hs.manifest
  deadlines := hs.deadlines.of_checks rfl rfl
  untouched topic op hop := by
    rw [PollState.demandVisual, hs.ops] at hop
    cases hop
  plan := by simp [PollState.demandVisual, WarframeSession.demandVisual]
  demanded := VisualTopics.demand_due demand now s.session.visual
  retry := by
    simp only [PollState.demandVisual, WarframeSession.demandVisual, VisualTopics.demand_delay]
    split
    · exact hs.deadlines.later _ (by decide) (by decide)
    · exact hs.retry

variable [Payloads]

/-- The account part starts without an operation of its own. -/
theorem Opening.accountReady (hs : Opening P now s) {u : PollState}
    (hu : VisualSteps P now g (s.demandVisual demand now) u) :
    Ready P now accountTopics (u.demandTopics demand now) ∧
      Fresh accountTopics (u.demandTopics demand now) := by
  have hseen := hu.seen
  obtain ⟨ops, hops, hkeys⟩ := hseen.ops
  have hother : ∀ topic : AccountTopic, ∀ op ∈ u.batch.pending.ops, op.key ≠ topic.key := by
    intro topic op hop
    rw [hops, PollState.demandVisual, hs.ops, List.nil_append] at hop
    obtain ⟨visual, hk⟩ := hkeys op hop
    exact hk ▸ visual.key_ne topic
  refine ⟨⟨hseen.manifest.trans hs.manifest, fun topic _ op hop hk => absurd hk (hother topic op hop),
    ?_⟩, fun topic _ hop => hother topic _ hop rfl⟩
  exact (hseen.deadlines (hs.visualReady demand).deadlines).of_checks
    (u.session.demandTopics_layouts demand now) (u.session.demandTopics_executable demand now)

variable [Platform]

theorem runFrom_poll (demand : List CapabilityDescriptor) (s : PollState) :
    runFrom (poll g now demand) s =
      match runFrom (pollScreens g now) (s.demandVisual demand now) with
      | (.error e, t) => (.error e, t)
      | (.ok (), u) =>
        match runFrom (pollAccount g now) (u.demandTopics demand now) with
        | (.error e, t) => (.error e, t)
        | (.ok (), t) => (.ok (t.session.schedule now), t) := by
  unfold poll
  rw [runFrom_bind]
  change runFrom _ (s.demandVisual demand now) = _
  rw [runFrom_bind]
  rcases runFrom (pollScreens g now) (s.demandVisual demand now) with ⟨e | ⟨⟩, u⟩
  · rfl
  · dsimp only
    rw [runFrom_bind]
    change runFrom _ (u.demandTopics demand now) = _
    rw [runFrom_bind]
    rcases runFrom (pollAccount g now) (u.demandTopics demand now) with ⟨e | ⟨⟩, t⟩ <;> rfl

/-- A poll that has returned, with the state between its two parts. -/
structure Polled (P : Duration → Prop) (now : Duration) (g : Game)
    (demand : List CapabilityDescriptor) (s u t : PollState) : Prop where
  visual : VisualSteps P now g (s.demandVisual demand now) u
  screens : if (s.demandVisual demand now).session.visual.source.due now then
      VisualPolled P now (s.demandVisual demand now) u
    else u = s.demandVisual demand now
  account : Steps P now g (u.demandTopics demand now) t
  settled : ∀ topic, (t.session.topics topic).Settled now

/-- A poll that has failed, in one of its parts. -/
inductive Broken (P : Duration → Prop) (now : Duration) (g : Game)
    (demand : List CapabilityDescriptor) (s t : PollState) : Prop
  | visual (h : Failed (VisualSteps P now g) (s.demandVisual demand now) t)
  | account {u : PollState} (hu : VisualSteps P now g (s.demandVisual demand now) u)
    (h : Failed (Steps P now g) (u.demandTopics demand now) t)

theorem poll_ok (hs : Opening P now s) {result : PollResult} {t : PollState}
    (h : runFrom (poll g now demand) s = (.ok result, t)) :
    result = t.session.schedule now ∧ ∃ u, Polled P now g demand s u t := by
  have hscreens := pollScreens_spec (g := g) (hs.visualReady demand)
  rw [runFrom_poll] at h
  rcases hu : runFrom (pollScreens g now) (s.demandVisual demand now) with ⟨e | ⟨⟩, u⟩ <;>
    rw [hu] at h
  · cases h
  obtain ⟨hvisual, hpolled⟩ := hscreens.ok hu
  obtain ⟨hready, hfresh⟩ := hs.accountReady hvisual
  have haccount := pollAccount_spec (g := g) hready hfresh
  dsimp only at h
  rcases ht : runFrom (pollAccount g now) (u.demandTopics demand now) with ⟨e | ⟨⟩, t⟩ <;>
    rw [ht] at h
  · cases h
  · cases h
    obtain ⟨hsteps, hsettled⟩ := haccount.ok ht
    exact ⟨rfl, u, hvisual, hpolled, hsteps, hsettled⟩

theorem poll_error (hs : Opening P now s) {e : ProviderError} {t : PollState}
    (h : runFrom (poll g now demand) s = (.error e, t)) :
    Refused g e ∧ Broken P now g demand s t := by
  have hscreens := pollScreens_spec (g := g) (hs.visualReady demand)
  rw [runFrom_poll] at h
  rcases hu : runFrom (pollScreens g now) (s.demandVisual demand now) with ⟨e | ⟨⟩, u⟩ <;>
    rw [hu] at h
  · cases h
    obtain ⟨hfailed, hrefused⟩ := hscreens.error hu
    exact ⟨hrefused, .visual hfailed⟩
  obtain ⟨hvisual, -⟩ := hscreens.ok hu
  obtain ⟨hready, hfresh⟩ := hs.accountReady hvisual
  have haccount := pollAccount_spec (g := g) hready hfresh
  dsimp only at h
  rcases ht : runFrom (pollAccount g now) (u.demandTopics demand now) with ⟨e | ⟨⟩, t⟩ <;>
    rw [ht] at h
  · cases h
    obtain ⟨hfailed, hrefused⟩ := haccount.error ht
    exact ⟨hrefused, .account hvisual hfailed⟩
  · cases h

end Session
end Warframe
end WfObserver
