import Mathlib.Order.Bounds.Defs
import WfObserver.Warframe.Provider
import WfObserver.Warframe.Session.Polls

/-!
# What a session waits for

In a session that has come from earlier polls nothing lies more than five seconds ahead: no failure is
kept for longer, and every topic and the source of the screens are due by then (`Bounded`).
-/

namespace WfObserver
namespace Warframe
namespace Session

open ProviderSdk
open Stateful
open Service (PollBatch Platform Operation)

/-! ## Deadlines -/

/-- The latest time at which something is tried again. -/
def horizon (now : Duration) : Duration := later now (seconds 5)

theorem later_mono {now now' d d' : Duration} (h : now ≤ now') (hd : d ≤ d') :
    later now d ≤ later now' d' :=
  min_le_min_right _ (Nat.add_le_add h hd)

theorem le_horizon {now : Duration} (h : now ≤ durationMax) : now ≤ horizon now :=
  le_min (Nat.le_add_right ..) h

/-- A time that is still to come, at most five seconds away. -/
structure Soon (now t : Duration) : Prop where
  ahead : now < t ∨ t = durationMax
  bound : t ≤ horizon now

theorem Soon.of_later {now d : Duration} (hd : 0 < d) (hle : d ≤ seconds 5) : Soon now (later now d) :=
  ⟨lt_later hd, later_mono le_rfl hle⟩

theorem Soon.within {now t : Duration} (h : Soon now t) (hroom : now + seconds 5 ≤ durationMax) :
    now < t ∧ t ≤ now + seconds 5 := by
  refine ⟨h.ahead.elim id fun hmax => ?_, h.bound.trans (min_le_left ..)⟩
  rw [hmax]
  exact (Nat.lt_add_of_pos_right (by decide)).trans_le hroom

/-- Nothing that the session remembers lies more than five seconds ahead. -/
structure Bounded (now : Duration) (s : WarframeSession) : Prop where
  cached : ∀ retry, Cached s retry → retry.retryAt ≤ horizon now
  topics : ∀ topic, (s.topics topic).nextPoll ≤ horizon now
  next : ∀ next, s.visual.source.next = some next → next ≤ horizon now
  last : ∀ last, s.visual.source.last = some last → last ≤ now
  relicRetry : s.visual.relicRetry ≤ horizon now
  relicReadDelay : s.visual.relicReadDelay ≤ readRetry
  armed : s.visual.source.plan.interval.isSome → s.visual.source.next.isSome

variable {now now' : Duration} {session : WarframeSession} {demand : List CapabilityDescriptor}

theorem Bounded.mono (h : Bounded now session) (hle : now ≤ now') : Bounded now' session := by
  have hmono : horizon now ≤ horizon now' := later_mono hle le_rfl
  exact ⟨fun retry hr => (h.cached retry hr).trans hmono, fun topic => (h.topics topic).trans hmono,
    fun next hn => (h.next next hn).trans hmono, fun last hl => (h.last last hl).trans hle,
    h.relicRetry.trans hmono, h.relicReadDelay, h.armed⟩

theorem cached_of_checks {s s' : WarframeSession} {retry : Retry} (h : Cached s' retry)
    (he : s'.executable = s.executable) (hl : s'.layouts = s.layouts) : Cached s retry := by
  cases h with
  | executable h => exact .executable (he ▸ h)
  | layout h => exact .layout (hl ▸ h)

/-- The times of the visual topics change. -/
theorem Bounded.of_visual (h : Bounded now session) {visual : VisualTopics}
    (hnext : ∀ next, visual.source.next = some next → next ≤ horizon now)
    (hlast : ∀ last, visual.source.last = some last → last ≤ now)
    (hretry : visual.relicRetry ≤ horizon now) (hdelay : visual.relicReadDelay ≤ readRetry)
    (harmed : visual.source.plan.interval.isSome → visual.source.next.isSome) :
    Bounded now { session with visual } :=
  ⟨fun retry hr => h.cached retry (cached_of_checks hr rfl rfl), h.topics, hnext, hlast, hretry,
    hdelay, harmed⟩

/-- The times of the topics change. -/
theorem Bounded.of_topics (h : Bounded now session) {s' : WarframeSession}
    (htopics : ∀ topic, (s'.topics topic).nextPoll = (session.topics topic).nextPoll ∨
      (s'.topics topic).nextPoll ≤ horizon now)
    (hexecutable : s'.executable = session.executable) (hlayouts : s'.layouts = session.layouts)
    (hvisual : s'.visual = session.visual) : Bounded now s' where
  cached retry hr := h.cached retry (cached_of_checks hr hexecutable hlayouts)
  topics topic := (htopics topic).elim (fun he => he ▸ h.topics topic) id
  next := hvisual ▸ h.next
  last := hvisual ▸ h.last
  relicRetry := hvisual ▸ h.relicRetry
  relicReadDelay := hvisual ▸ h.relicReadDelay
  armed := hvisual ▸ h.armed

/-! ## Demand and hooks -/

theorem Bounded.demandVisual (h : Bounded now session) (hnow : now ≤ durationMax) :
    Bounded now (session.demandVisual demand now) := by
  refine h.of_visual (fun next hn => ?_) (fun last hl => ?_) ?_ ?_ fun hi => ?_
  · simp only [VisualTopics.demand_source, ScreenSource.update] at hn
    split at hn
    · cases hn
    rename_i interval hinterval
    split at hn
    · exact h.next next hn
    have hnext := Option.some.inj hn
    split at hnext
    · exact hnext ▸ le_horizon hnow
    · have hd : interval ≤ seconds 5 := by
        obtain ⟨d, hd, -, hle⟩ := @plan_interval (demands demand screensCap)
          (demands demand relicRewardsCap) (by
            by_contra hnot
            simp only [not_or, Bool.not_eq_true] at hnot
            rw [hnot.1, hnot.2] at hinterval
            cases hinterval)
        exact Option.some.inj (hinterval.symm.trans hd) ▸ hle
      have hlast : session.visual.source.last.getD now ≤ now := by
        cases hl : session.visual.source.last with
        | none => exact le_rfl
        | some last => exact h.last last hl
      exact hnext ▸ max_le (later_mono hlast hd) (le_horizon hnow)
  · simp only [VisualTopics.demand_source, ScreenSource.update] at hl
    split at hl
    · cases hl
    · split at hl <;> exact h.last last hl
  · rw [VisualTopics.demand_retry]
    split
    · exact le_horizon hnow
    · exact h.relicRetry
  · rw [VisualTopics.demand_delay]
    split
    · exact Nat.zero_le _
    · exact h.relicReadDelay
  · simp only [VisualTopics.demand_source, ScreenSource.update_plan] at hi
    simp only [VisualTopics.demand_source, ScreenSource.update]
    split
    · rename_i hnone
      rw [hnone] at hi
      cases hi
    · split
      · rename_i hsame
        exact h.armed (hsame ▸ hi)
      · rfl

theorem Bounded.demandTopics (h : Bounded now session) (hnow : now ≤ durationMax) :
    Bounded now (session.demandTopics demand now) := by
  refine h.of_topics (fun topic => ?_) (session.demandTopics_executable demand now)
    (session.demandTopics_layouts demand now) (session.demandTopics_visual demand now)
  rw [WarframeSession.demandTopics_topics, TopicState.demand]
  dsimp only
  split
  · exact .inr (le_horizon hnow)
  · exact .inl rfl

/-- What wakes a topic does not move it away. -/
theorem Bounded.of_woken {s s' : WarframeSession} (h : Bounded now s)
    (hexecutable : s'.executable = s.executable) (hlayouts : s'.layouts = s.layouts)
    (htopics : ∀ topic, (s'.topics topic).nextPoll ≤ (s.topics topic).nextPoll)
    (hvisual : s'.visual = s.visual ∨
      s'.visual = { s.visual with source := s.visual.source.wake, relicRetry := 0 }) :
    Bounded now s' := by
  suffices ∀ visual, s'.visual = visual → Bounded now { s with visual } → Bounded now s' from
    hvisual.elim (fun hv => this _ hv h) fun hv => this _ hv <| by
      refine h.of_visual (fun next hn => ?_) (fun last hl => ?_) (Nat.zero_le _) h.relicReadDelay
        fun hi => ?_
      · simp only [ScreenSource.wake] at hn
        split at hn
        · cases hn
          exact Nat.zero_le _
        · exact h.next next hn
      · simp only [ScreenSource.wake] at hl
        split at hl <;> exact h.last last hl
      · unfold ScreenSource.wake at hi ⊢
        split
        · rfl
        · rename_i hnext
          rw [if_neg hnext] at hi
          exact h.armed hi
  intro visual hv hb
  exact hb.of_topics (fun topic => .inr ((htopics topic).trans (h.topics topic))) hexecutable hlayouts hv

theorem setNext_le (topic other : AccountTopic) (s : WarframeSession) :
    ((s.setNext topic 0).topics other).nextPoll ≤ (s.topics other).nextPoll := by
  by_cases ho : other = topic
  · subst ho
    rw [WarframeSession.setNext_self]
    exact Nat.zero_le _
  · rw [WarframeSession.setNext_of_ne ho]

theorem Bounded.pollCompleted (h : Bounded now session) (committed : Bool) :
    Bounded now (session.pollCompleted committed) := by
  have hvisual : (session.visual.pollCompleted committed) = session.visual ∨
      session.visual.pollCompleted committed
        = { session.visual with source := session.visual.source.wake, relicRetry := 0 } := by
    cases committed
    · exact .inr rfl
    · exact .inl rfl
  have hcases : (session.pollCompleted committed).executable = session.executable ∧
      (session.pollCompleted committed).layouts = session.layouts ∧
      (session.pollCompleted committed).visual = session.visual.pollCompleted committed ∧
      ∀ topic, ((session.pollCompleted committed).topics topic).nextPoll
        ≤ (session.topics topic).nextPoll := by
    unfold WarframeSession.pollCompleted
    dsimp only
    split
    · exact ⟨rfl, rfl, rfl, fun _ => le_rfl⟩
    · split
      · split <;> exact ⟨rfl, rfl, rfl, fun _ => le_rfl⟩
      · exact ⟨rfl, rfl, rfl, fun topic => setNext_le .chat topic _⟩
  obtain ⟨he, hl, hv, htopics⟩ := hcases
  exact h.of_woken he hl htopics (hv ▸ hvisual)

theorem Bounded.beginGeneration (h : Bounded now session) (cap : CapabilityDescriptor) :
    Bounded now (session.beginGeneration cap) := by
  have hvisual : session.visual.wake cap = session.visual ∨ session.visual.wake cap
      = { session.visual with source := session.visual.source.wake, relicRetry := 0 } := by
    unfold VisualTopics.wake
    split
    · exact .inr rfl
    · exact .inl rfl
  have hfold (topics : List AccountTopic) (s : WarframeSession) (h : Bounded now s) :
      Bounded now (topics.foldl
        (fun s topic => if topic.cap.topic = cap.topic then s.setNext topic 0 else s) s) := by
    induction topics generalizing s with
    | nil => exact h
    | cons topic topics ih =>
      rw [List.foldl_cons]
      refine ih _ ?_
      split
      · exact h.of_woken rfl rfl (fun other => setNext_le topic other s) (.inl rfl)
      · exact h
  unfold WarframeSession.beginGeneration
  refine hfold accountTopics _ ?_
  split
  · exact h.of_woken rfl rfl (fun _ => le_rfl) hvisual
  · exact h.of_woken rfl rfl (fun _ => le_rfl) hvisual

/-! ## What the steps keep -/

theorem setNext_cases (topic other : AccountTopic) {next : Duration} (hnext : next ≤ horizon now)
    (s : WarframeSession) : ((s.setNext topic next).topics other).nextPoll = (s.topics other).nextPoll ∨
      ((s.setNext topic next).topics other).nextPoll ≤ horizon now := by
  by_cases ho : other = topic
  · subst ho
    rw [WarframeSession.setNext_self]
    exact .inr hnext
  · rw [WarframeSession.setNext_of_ne ho]
    exact .inl rfl

theorem wake_cases (topics : List AccountTopic) (hnow : now ≤ durationMax) (s : WarframeSession)
    (topic : AccountTopic) : ((s.wake topics now).topics topic).nextPoll = (s.topics topic).nextPoll ∨
      ((s.wake topics now).topics topic).nextPoll ≤ horizon now := by
  simp only [WarframeSession.wake]
  split
  · exact .inr (le_horizon hnow)
  · exact .inl rfl

variable [SerdeJson] [Payloads] {g : Game} {s t u : PollState}

omit [Payloads] in
theorem Bounded.of_noted (h : Bounded now s.session) (hn : Noted (Soon now) s t) :
    Bounded now t.session where
  cached retry hr := (hn.cached retry hr).elim (h.cached retry) Soon.bound
  topics topic := by
    rw [hn.session]
    exact h.topics topic
  next := by
    rw [hn.session]
    exact h.next
  last := by
    rw [hn.session]
    exact h.last
  relicRetry := by
    rw [hn.session]
    exact h.relicRetry
  relicReadDelay := by
    rw [hn.session]
    exact h.relicReadDelay
  armed := by
    rw [hn.session]
    exact h.armed

theorem Bounded.step (h : Bounded now s.session) (hnow : now ≤ durationMax)
    (hstep : Step (Soon now) now g s t) : Bounded now t.session := by
  cases hstep with
  | calm hcalm =>
    cases hcalm with
    | noted hn => exact h.of_noted hn
    | deferred _ _ hretry _ =>
      exact h.of_topics (fun other => setNext_cases _ other hretry.bound _) rfl rfl rfl
  | accountReset => exact h.of_topics (wake_cases accountTopics hnow s.session) rfl rfl rfl
  | dataReset => exact h.of_topics (wake_cases dataTopics hnow s.session) rfl rfl rfl
  | playerReset => exact h.of_topics (wake_cases [.player] hnow s.session) rfl rfl rfl
  | loginLost | dataLost | loginFound | dataFound | chatPrepared | chatCut =>
    exact h.of_topics (fun _ => .inl rfl) rfl rfl rfl
  | snapshot =>
    exact h.of_topics
      (fun other => setNext_cases _ other (later_mono le_rfl (by decide)) _) rfl rfl rfl
  | chatPublished =>
    refine h.of_topics (fun other => setNext_cases _ other (later_mono le_rfl ?_) _) rfl rfl rfl
    split <;> decide

theorem Bounded.visualStep (h : Bounded now s.session) (hstep : VisualStep (Soon now) now g s t) :
    Bounded now t.session := by
  cases hstep with
  | noted hn => exact h.of_noted hn
  | @retimed visual hv =>
    refine h.of_visual (fun next hn => ?_) (fun last hl => ?_) ?_ ?_ fun hi => ?_
    · rcases hv.next with he | ⟨next', he, hsoon⟩
      · exact h.next next (he ▸ hn)
      · exact Option.some.inj (he.symm.trans hn) ▸ hsoon.bound
    · rcases hv.last with he | he
      · exact h.last last (he ▸ hl)
      · exact (Option.some.inj (he.symm.trans hl)).ge
    · rcases hv.retry with he | hsoon
      · exact he.trans_le h.relicRetry
      · exact hsoon.bound
    · rcases hv.delay with he | hle
      · exact he.trans_le h.relicReadDelay
      · exact hle
    · rcases hv.next with he | ⟨next, he, -⟩
      · rw [he]
        exact h.armed (hv.plan ▸ hi)
      · rw [he]
        rfl
  | health | screensReset | screensSnapshot | relicSnapshot => exact h
  | relicReset | ownerLost | ownerFound =>
    exact h.of_visual h.next h.last h.relicRetry h.relicReadDelay h.armed

theorem Bounded.steps (h : Bounded now s.session) (hnow : now ≤ durationMax)
    (hsteps : Steps (Soon now) now g s t) : Bounded now t.session := by
  induction hsteps with
  | refl => exact h
  | tail _ hstep ih => exact ih.step hnow hstep

theorem Bounded.visualSteps (h : Bounded now s.session)
    (hsteps : VisualSteps (Soon now) now g s t) : Bounded now t.session := by
  induction hsteps with
  | refl => exact h
  | tail _ hstep ih => exact ih.visualStep hstep

end Session
end Warframe
end WfObserver
