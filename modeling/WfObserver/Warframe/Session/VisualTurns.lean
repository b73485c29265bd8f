import WfObserver.Warframe.Session.Screens

/-!
# The visual part of a poll, as a whole

After it every demanded visual topic whose turn it was is answered, and the source has a time at which
the screens are read next.
-/

namespace WfObserver
namespace Warframe
namespace Session

open ProviderSdk
open Stateful
open Service (PollBatch Platform Operation publicHealth)
open Wire (JsonPayload TopicRef)

/-! ## The plan of the source -/

theorem plan_fits (screens relic : Bool) (shown : List Screen) :
    (VisualTopics.plan screens relic).fits .relicRewards shown = true ↔
      relic = true ∧ .relicRewards ∈ shown := by
  cases screens <;> cases relic <;>
    simp [VisualTopics.plan, SourcePlan.fits, SourcePlan.requireScreens]

/-- Demand for a visual topic has an interval: half a second at most. -/
theorem plan_interval {screens relic : Bool} (h : screens = true ∨ relic = true) :
    ∃ d, (VisualTopics.plan screens relic).interval = some d ∧ 0 < d ∧ d ≤ seconds 5 := by
  cases screens <;> cases relic
  · simp at h
  all_goals exact ⟨_, rfl, by decide, by decide⟩

theorem screensDelay_bounds (error : ReadError) (v : VisualTopics) :
    0 < screensDelay error v ∧ screensDelay error v ≤ seconds 5 := by
  cases error <;> simp only [screensDelay] <;> first | decide | (split <;> decide)

variable [SerdeJson] {P : Duration → Prop} {now : Duration} {g : Game} {s : PollState}

/-- What the visual part of a poll starts from. -/
structure VisualReady (P : Duration → Prop) (now : Duration) (s : PollState) : Prop where
  manifest : s.batch.manifest = manifest
  deadlines : Deadlines P now s.session
  untouched : ∀ topic, Untouched s topic
  plan : s.session.visual.source.plan
    = VisualTopics.plan s.session.visual.screensDemanded s.session.visual.relicDemanded
  demanded : s.session.visual.source.due now = true →
    s.session.visual.screensDemanded = true ∨ s.session.visual.relicDemanded = true
  retry : P (later now (max s.session.visual.relicReadDelay relicInterval))

theorem VisualReady.of_noted {t : PollState} (hs : VisualReady P now s) (h : Noted P s t) :
    VisualReady P now t where
  manifest := by rw [h.batch, hs.manifest]
  deadlines := (Seen.of_noted h).deadlines hs.deadlines
  untouched topic := by
    rw [Untouched, h.batch]
    exact hs.untouched topic
  plan := by
    rw [h.session]
    exact hs.plan
  demanded := by
    rw [h.session]
    exact hs.demanded
  retry := by
    rw [h.session]
    exact hs.retry

/-- What it leaves. -/
structure VisualPolled (P : Duration → Prop) (now : Duration) (s t : PollState) : Prop where
  screens : s.session.visual.screensDemanded = true →
    Answered VisualTopic.screens.key t.batch.pending.ops
  relicRewards : s.session.visual.relicDemanded = true →
    (s.session.visual.relicRetry ≤ now ∨
      ∃ op ∈ t.batch.pending.ops, op.key = VisualTopic.relicRewards.key) →
    Answered VisualTopic.relicRewards.key t.batch.pending.ops
  next : ∃ next, t.session.visual.source.next = some next ∧ P next

theorem VisualPolled.of_noted {t u : PollState} (hs : Noted P s t) (h : VisualPolled P now t u) :
    VisualPolled P now s u where
  screens := by
    have := h.screens
    rwa [hs.session] at this
  relicRewards := by
    have := h.relicRewards
    rwa [hs.session] at this
  next := h.next

variable [Payloads]

section Outputs

variable [Platform]

/-- The health of one visual topic, if it is demanded. -/
theorem visualHealth_spec (hm : s.batch.manifest = manifest) {topic : VisualTopic}
    (huntouched : Untouched s topic) (reason : UnavailableReason) :
    Ensures (VisualSteps P now g) (Failed (VisualSteps P now g)) s
      (if s.session.visual.demanded topic then sink (·.health topic.cap (.unavailable reason))
        else pure ())
      (fun _ t => t.session = s.session ∧
        (∃ ops, t.batch.pending.ops = s.batch.pending.ops ++ ops ∧ ∀ op ∈ ops, op.key = topic.key) ∧
        (s.session.visual.demanded topic = true → Answered topic.key t.batch.pending.ops))
      (refused g) := by
  split
  · rename_i hdemand
    refine (health_spec hm hdemand huntouched.unshown reason).imp ?_
    rintro _ t - ⟨batch, rfl, happended⟩
    exact ⟨rfl, ⟨_, happended.ops, by simp [Operation.key]⟩,
      fun _ => happended.ops ▸ .of_last rfl rfl⟩
  · rename_i hdemand
    exact .pure ⟨rfl, ⟨[], (List.append_nil _).symm, by simp⟩, fun h => absurd h hdemand⟩

theorem visualUnavailable_spec (hs : VisualReady P now s) {retry : Retry} (hretry : P retry.retryAt) :
    Ensures (VisualSteps P now g) (Failed (VisualSteps P now g)) s (visualUnavailable retry)
      (fun _ t => VisualPolled P now s t) (refused g) := by
  refine session_bind ?_
  dsimp only
  simp only [List.forM]
  refine Ensures.bind (Q := fun _ t => t.session = s.session ∧
      (s.session.visual.screensDemanded = true →
        Answered VisualTopic.screens.key t.batch.pending.ops) ∧
      (s.session.visual.relicDemanded = true →
        Answered VisualTopic.relicRewards.key t.batch.pending.ops)) ?_ ?_
  · refine (visualHealth_spec hs.manifest (hs.untouched .screens) retry.reason).bind ?_
    rintro _ t ht ⟨hsession, ⟨ops, hops, hkeys⟩, hscreens⟩
    have huntouched : Untouched t .relicRewards := by
      intro op hop
      rw [hops] at hop
      rcases List.mem_append.mp hop with hop | hop
      · exact hs.untouched .relicRewards op hop
      · rw [hkeys op hop]
        decide
    have hrelic := @visualHealth_spec _ P now g _ _ _
      (ht.seen.manifest.trans hs.manifest) _ huntouched retry.reason
    rw [hsession] at hrelic
    refine hrelic.bind ?_
    rintro _ u - ⟨hsession', ⟨ops', hops', hkeys'⟩, hrelic⟩
    refine .pure ⟨hsession', fun hd => ?_, hrelic⟩
    rw [hops']
    refine (hscreens hd).append fun op hop => ?_
    rw [hkeys' op hop]
    decide
  · rintro _ t - ⟨hsession, hscreens, hrelic⟩
    exact ⟨.single (.retimed ⟨rfl, rfl, rfl, rfl, .inr ⟨_, rfl, hretry⟩, .inl rfl, .inl rfl,
      .inl rfl⟩),
      hscreens, fun hd _ => hrelic hd, _, rfl, hretry⟩

/-- The screens' turn. -/
theorem publishScreens_spec (hs : VisualReady P now s) (sample : ScreenSample) :
    Ensures (VisualSteps P now g) (Failed (VisualSteps P now g)) s (publishScreens sample)
      (fun _ t => t.session = s.session ∧ s.moment ≤ t.moment ∧
        (∃ ops, t.batch.pending.ops = s.batch.pending.ops ++ ops ∧
          ∀ op ∈ ops, op.key = VisualTopic.screens.key) ∧
        (s.session.visual.screensDemanded = true →
          Answered VisualTopic.screens.key t.batch.pending.ops)) (refused g) := by
  refine session_bind ?_
  dsimp only
  split
  · rename_i hdemand
    refine Ensures.bind (Q := fun _ t => t.session = s.session ∧ s.moment ≤ t.moment ∧
        t.batch.manifest = manifest ∧ Unshown t .screens ∧
        ∃ ops, t.batch.pending.ops = s.batch.pending.ops ++ ops ∧
          ∀ op ∈ ops, op.key = VisualTopic.screens.key) ?_ ?_
    · split
      · obtain ⟨batch, hrun, happended⟩ := sink_reset hs.manifest VisualTopic.screens.declared
          fun hop => hs.untouched .screens _ hop rfl
        have hrun : runFrom (sink (·.reset screensCap)) s = _ := hrun
        rw [Ensures, hrun]
        refine ⟨.single (.screensReset hdemand (hs.untouched .screens) happended), rfl, le_rfl,
          happended.manifest.trans hs.manifest, fun op hop hk => ?_, _, happended.ops, ?_⟩
        · rw [happended.ops] at hop
          rcases List.mem_append.mp hop with hop | hop
          · exact absurd hk (hs.untouched .screens op hop)
          · rw [List.mem_singleton.mp hop]
            rfl
        · simp only [List.mem_singleton, forall_eq]
          rfl
      · exact .pure ⟨rfl, le_rfl, hs.manifest, (hs.untouched .screens).unshown, [],
          (List.append_nil _).symm, by simp⟩
    · rintro _ t - ⟨hsession, hmoment, hm, hunshown, ops, hops, hkeys⟩
      have hdemand' : t.session.visual.screensDemanded = true := by rwa [hsession]
      refine (publish_spec .screens hm (fun message h => .screens h)
        fun value payload batch hvalue hpayload happended =>
          .single (.screensSnapshot hdemand' hunshown hvalue hpayload happended)).imp ?_
      rintro _ u - ⟨payload, batch, rfl, happended⟩
      refine ⟨hsession, hmoment, ⟨ops ++ [.snapshot VisualTopic.screens.key payload], ?_, ?_⟩,
        fun _ => happended.ops ▸ .of_last rfl rfl⟩
      · rw [happended.ops, hops, List.append_assoc]
      · intro op hop
        rcases List.mem_append.mp hop with hop | hop
        · exact hkeys op hop
        · rw [List.mem_singleton.mp hop]
          rfl
  · rename_i hdemand
    exact .pure ⟨rfl, le_rfl, ⟨[], (List.append_nil _).symm, by simp⟩, fun h => absurd h hdemand⟩

/-- What is done with a sample of the screens. -/
theorem publishSample_spec (hs : VisualReady P now s)
    (hdue : s.session.visual.source.due now = true) {image : Executable} {sample : ScreenSample}
    {before : Option (Except Retry (Roots.AccountIdentity × WorldIdentity))} {retryAt : Duration}
    (hrelic : s.session.visual.relicDemanded = true →
      s.session.visual.relicRetry ≤ now → before.isSome)
    (hdemanded : before.isSome → s.session.visual.relicDemanded = true) (hretry : P retryAt)
    (herror : ∀ retry, before = some (.error retry) → P retry.retryAt)
    (hbefore : ∀ login world, before = some (.ok (login, world)) →
      world.client = sample.owner.client →
        OwnerFirst g image ⟨login, world, sample.owner⟩ sample s.moment) :
    Ensures (VisualSteps P now g) (Failed (VisualSteps P now g)) s
      (do
        publishScreens sample
        updateVisual fun v => { v with ui := some sample.owner, source := v.source.sampled now }
        match before with
        | some before => pollRelic now g image ⟨sample, before, retryAt⟩
        | none => pure ())
      (fun _ t => VisualPolled P now s t) (refused g) := by
  refine (publishScreens_spec hs sample).bind ?_
  rintro _ t ht ⟨hsession, hmoment, ⟨ops, hops, hkeys⟩, hscreens⟩
  obtain ⟨d, hinterval, hpos, hle⟩ := plan_interval (hs.demanded hdue)
  rw [← hs.plan] at hinterval
  have hnext : P (later now d) := hs.deadlines.later d hpos hle
  have hsampled : (t.session.visual.source.sampled now).next = some (later now d) := by
    rw [ScreenSource.sampled, hsession, hinterval]
    rfl
  refine Ensures.bind (Q := fun _ u => u.batch = t.batch ∧ u.moment = t.moment ∧
      u.session.visual.source = t.session.visual.source.sampled now)
    ⟨.single (.retimed ⟨rfl, rfl, rfl, rfl, .inr ⟨_, hsampled, hnext⟩, .inr rfl, .inl rfl,
      .inl rfl⟩),
      rfl, rfl, rfl⟩ ?_
  rintro _ u hu ⟨hbatch, hmoment', hsource⟩
  have hseen := ht.seen.trans hu.seen
  have hnext' : u.session.visual.source.next = some (later now d) := by rw [hsource, hsampled]
  cases hread : before with
  | none =>
    refine .pure ⟨fun hd => hbatch ▸ hscreens hd, fun hd hr => ?_, _, hnext', hnext⟩
    -- The rewards were not due, and the operations of the screens are not theirs.
    rcases hr with hr | ⟨op, hop, hk⟩
    · simp [hread, hd, hr] at hrelic
    · rw [hbatch, hops] at hop
      rcases List.mem_append.mp hop with hop | hop
      · exact absurd hk (hs.untouched .relicRewards op hop)
      · exact absurd ((hkeys op hop).symm.trans hk) (by decide)
  | some read =>
    have hdemand : s.session.visual.relicDemanded = true := hdemanded (by rw [hread]; rfl)
    have huntouched : Untouched u .relicRewards := by
      intro op hop
      rw [hbatch, hops] at hop
      rcases List.mem_append.mp hop with hop | hop
      · exact hs.untouched .relicRewards op hop
      · rw [hkeys op hop]
        decide
    have hready : RelicReady P now u :=
      ⟨hseen.manifest.trans hs.manifest, hseen.deadlines hs.deadlines,
        (hseen.demanded .relicRewards).trans hdemand⟩
    refine (pollRelic_spec hready huntouched hretry ?_ ?_ ?_).imp ?_
    · intro retry hok
      exact herror retry (by rw [hread, ← hok])
    · intro login world hok hclient
      exact (hbefore login world (by rw [hread, ← hok]) hclient).mono (hmoment' ▸ hmoment)
    · rw [hseen.plan, hs.plan, plan_fits, hdemand]
      simp
    · rintro _ w - ⟨hturn, hanswered⟩
      refine ⟨fun hd => ?_, fun _ _ => hanswered, later now d, ?_, hnext⟩
      · obtain ⟨ops', hops', hkeys'⟩ := hturn.ops
        rw [hops', hbatch]
        refine (hscreens hd).append fun op hop => ?_
        rw [hkeys' op hop]
        decide
      · rw [hturn.source]
        exact hnext'

variable (g)

/-- The visual part of a poll. -/
theorem pollVisual_spec (hs : VisualReady P now s)
    (hdue : s.session.visual.source.due now = true) (image : Executable) :
    Ensures (VisualSteps P now g) (Failed (VisualSteps P now g)) s (pollVisual now g image)
      (fun _ t => VisualPolled P now s t) (refused g) := by
  have hchecks : Ensures (Noted P) (Noted P) s
      (do check g now .client image; check g now (.topic screensCap) image)
      (fun _ _ => True) (fun retry _ => P retry.retryAt) :=
    (check_spec hs.deadlines _ image).bind fun _ t ht _ =>
      check_spec (ht.deadlines hs.deadlines) _ image
  refine (Ensures.of_read hchecks.attempt).bind ?_
  rintro (retry | ⟨⟩) t - ⟨hnoted₀, hr⟩
  · exact (visualUnavailable_spec (hs.of_noted hnoted₀) hr).imp fun _ _ _ h => h.of_noted hnoted₀
  have ht := hs.of_noted hnoted₀
  refine session_bind ?_
  dsimp only
  refine (Ensures.of_read (relicBefore_spec ht.deadlines image _ ht.retry)).bind ?_
  rintro before u - ⟨hnoted', hrelic, hdemanded, herror, hbefore⟩
  have hu := ht.of_noted hnoted'
  refine (Ensures.of_read (look_spec (noted_look u))).bind ?_
  rintro r v - ⟨hlook, hread, rfl⟩
  have hv := hu.of_noted hlook
  have hnoted := (hnoted₀.trans hnoted').trans hlook
  cases r with
  | error error =>
    have hdelay := screensDelay_bounds error t.session.visual
    exact (visualUnavailable_spec hv (hv.deadlines.later _ hdelay.1 hdelay.2)).imp
      fun _ _ _ h => h.of_noted hnoted
  | ok sample =>
    have hdue' : u.session.visual.source.due now = true := by
      rwa [(hnoted₀.trans hnoted').session]
    refine (publishSample_spec hv hdue' ?_ ?_ ht.retry herror ?_).imp fun _ _ _ h => h.of_noted hnoted
    · rw [(hnoted'.trans hlook).session]
      exact hrelic
    · rw [(hnoted'.trans hlook).session]
      exact hdemanded
    · rintro login world rfl hclient
      obtain ⟨l, w, hlw, hwu, hlogin, hworld⟩ := hbefore _ rfl
      exact ⟨l, w, u.moment, hlw, hwu, Nat.lt_succ_self _, hlogin, hworld, hread.symm, rfl, hclient⟩

/-- When the source is not due, nothing happens. -/
theorem pollScreens_spec (hs : VisualReady P now s) :
    Ensures (VisualSteps P now g) (Failed (VisualSteps P now g)) s (pollScreens g now)
      (fun _ t => if s.session.visual.source.due now then VisualPolled P now s t else t = s)
      (refused g) := by
  refine session_bind ?_
  split
  · rename_i hdue
    refine (Ensures.of_read (identified_spec (g := g) hs.deadlines).attempt).bind ?_
    rintro (retry | image) t - ⟨hnoted, hr⟩
    · exact (visualUnavailable_spec (hs.of_noted hnoted) hr).imp fun _ _ _ h => h.of_noted hnoted
    · refine (Ensures.of_read (nameBuild_spec image)).bind ?_
      rintro _ u - ⟨hnoted', -⟩
      have hnoted := hnoted.trans hnoted'
      exact (pollVisual_spec g (hs.of_noted hnoted) (by rwa [hnoted.session]) image).imp
        fun _ _ _ h => h.of_noted hnoted
  · exact .pure rfl

end Outputs

end Session
end Warframe
end WfObserver
