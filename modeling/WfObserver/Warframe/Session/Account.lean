import WfObserver.Warframe.Session.Steps

/-!
# The account part of a poll follows the steps

One statement for each function: what it does is a sequence of steps, what its result says of the state
after it, and that a failure of it is a refusal of the host or of chat (`Refused`).
-/

namespace WfObserver
namespace Warframe

open ProviderSdk
open Stateful
open Service (PollBatch Platform Operation publicHealth)
open Wire (JsonPayload)
open Roots (AccountIdentity ProfileDataIdentity)

/-- A check fails for a time that it keeps: the failure is an earlier one, or a new one. -/
theorem CachedCheck.ensure_error {α : Type} {now : Duration} {check : Except UnavailableReason α}
    {c : CachedCheck α} {retry : Retry} (h : (c.ensure now check).1 = .error retry) :
    (c = .failed retry ∧ now < retry.retryAt) ∨ retry.retryAt = later now validationRetry := by
  unfold CachedCheck.ensure at h
  cases c with
  | passed value => cases h
  | unchecked =>
    cases check with
    | ok value => cases h
    | error reason => cases h; exact .inr rfl
  | failed old =>
    dsimp only at h
    split at h
    · rename_i hn
      cases h
      exact .inl ⟨rfl, hn⟩
    · cases check with
      | ok value => cases h
      | error reason => cases h; exact .inr rfl

theorem CachedCheck.ensure_failed {α : Type} {now : Duration} {check : Except UnavailableReason α}
    {c : CachedCheck α} {retry : Retry} (h : (c.ensure now check).2 = .failed retry) :
    c = .failed retry ∨ retry.retryAt = later now validationRetry := by
  unfold CachedCheck.ensure at h
  cases c with
  | passed value => cases h
  | unchecked =>
    cases check with
    | ok value => cases h
    | error reason => cases h; exact .inr rfl
  | failed old =>
    dsimp only at h
    split at h
    · exact .inl h
    · cases check with
      | ok value => cases h
      | error reason => cases h; exact .inr rfl

namespace Session

variable [SerdeJson] {P : Duration → Prop} {now : Duration} {g : Game} {s : PollState}

/-! ## Reads and checks -/

theorem Noted.deadlines {t : PollState} (h : Noted P s t) (hs : Deadlines P now s.session) :
    Deadlines P now t.session where
  later := hs.later
  settled := hs.settled
  cached retry hr hn := (h.cached retry hr).elim (fun hr => hs.cached retry hr hn) id

omit [SerdeJson] in
theorem Deadlines.sample {s : WarframeSession} (h : Deadlines P now s) :
    P (Warframe.later now sampleInterval) :=
  h.later _ (by simp [sampleInterval, seconds]) (by simp [sampleInterval, seconds])

omit [SerdeJson] in
theorem Deadlines.missing {s : WarframeSession} (h : Deadlines P now s) (reason : UnavailableReason)
    (dependency : String) : P (missing now reason dependency).retryAt :=
  h.sample

omit [SerdeJson] in
theorem Deadlines.of_checks {s t : WarframeSession} (h : Deadlines P now s)
    (hlayouts : t.layouts = s.layouts) (hexecutable : t.executable = s.executable) :
    Deadlines P now t where
  later := h.later
  settled := h.settled
  cached retry hr := h.cached retry <| by
    cases hr with
    | executable h => exact .executable (hexecutable ▸ h)
    | layout h => exact .layout (hlayouts ▸ h)

theorem noted_look (s : PollState) : Noted P s { s with moment := s.moment + 1 } :=
  ⟨rfl, rfl, Nat.le_succ _, fun _ h => .inl h⟩

theorem look_spec {R S : PollState → PollState → Prop} {ε α : Type} {E : ε → PollState → Prop}
    {read : Nat → α} (h : R s { s with moment := s.moment + 1 }) :
    Ensures R S s (look read) (fun a t => a = read s.moment ∧ t = { s with moment := s.moment + 1 })
      E :=
  ⟨h, rfl, rfl⟩

/-- What a layout check gives now, and what is kept of it. -/
theorem runFrom_check (layout : Layout) (image : Executable) (s : PollState) :
    runFrom (check g now layout image) s =
      let ensured := (s.session.layouts layout).ensure now
        ((g.layout layout image s.moment).mapError layout.rejected)
      (ensured.1, { s with
        session := { s.session with layouts := Function.update s.session.layouts layout ensured.2 }
        moment := s.moment + 1 }) :=
  rfl

section Checks

variable (hd : Deadlines P now s.session)
include hd

theorem Deadlines.validation : P (Warframe.later now validationRetry) :=
  hd.later _ (by decide) le_rfl

theorem check_spec (layout : Layout) (image : Executable) :
    Ensures (Noted P) (Noted P) s (check g now layout image) (fun _ _ => True)
      (fun retry _ => P retry.retryAt) := by
  have hnoted : Noted P s (runFrom (check g now layout image) s).2 := by
    refine ⟨rfl, rfl, Nat.le_succ _, fun retry hr => ?_⟩
    cases hr with
    | executable h => exact .inl (.executable h)
    | @layout other h =>
      by_cases ho : other = layout
      · subst ho
        rw [runFrom_check] at h
        dsimp only at h
        rw [Function.update_self] at h
        rcases CachedCheck.ensure_failed h with h | h
        · exact .inl (.layout h)
        · exact .inr (h ▸ hd.validation)
      · rw [runFrom_check] at h
        dsimp only at h
        rw [Function.update_of_ne ho] at h
        exact .inl (.layout h)
  rw [Ensures]
  rcases h : runFrom (check g now layout image) s with ⟨retry | _, t⟩ <;> rw [h] at hnoted
  · refine ⟨hnoted, ?_⟩
    rcases CachedCheck.ensure_error (congrArg Prod.fst h) with ⟨hc, hn⟩ | h
    · exact hd.cached retry (.layout hc) hn
    · exact h ▸ hd.validation
  · exact ⟨hnoted, trivial⟩

theorem identified_spec :
    Ensures (Noted P) (Noted P) s (identified g now) (fun _ _ => True)
      (fun retry _ => P retry.retryAt) := by
  have hnoted : Noted P s (runFrom (identified g now) s).2 := by
    refine ⟨rfl, rfl, Nat.le_succ _, fun retry hr => ?_⟩
    cases hr with
    | executable h =>
      rcases CachedCheck.ensure_failed h with h | h
      · exact .inl (.executable h)
      · exact .inr (h ▸ hd.validation)
    | layout h => exact .inl (.layout h)
  rw [Ensures]
  rcases h : runFrom (identified g now) s with ⟨retry | _, t⟩ <;> rw [h] at hnoted
  · refine ⟨hnoted, ?_⟩
    rcases CachedCheck.ensure_error (congrArg Prod.fst h) with ⟨hc, hn⟩ | h
    · exact hd.cached retry (.executable hc) hn
    · exact h ▸ hd.validation
  · exact ⟨hnoted, trivial⟩

omit hd in
theorem nameBuild_spec {ε : Type} {E : ε → PollState → Prop} (image : Executable) :
    Ensures (Noted P) (Noted P) s (nameBuild image) (fun _ _ => True) E := by
  refine ⟨⟨rfl, rfl, le_rfl, fun _ h => .inl ?_⟩, trivial⟩
  cases h with
  | executable h => exact .executable h
  | layout h => exact .layout h

theorem inventoryOwner_spec (image : Executable) :
    Ensures (Noted P) (Noted P) s (inventoryOwner g now image) (fun _ _ => True)
      (fun retry _ => P retry.retryAt) :=
  (check_spec hd _ image).bind fun _ _ ht _ => check_spec (ht.deadlines hd) _ image

theorem itemPaths_spec (image : Executable) :
    Ensures (Noted P) (Noted P) s (itemPaths g now image) (fun _ _ => True)
      (fun retry _ => P retry.retryAt) :=
  (check_spec hd _ image).bind fun _ _ ht _ => check_spec (ht.deadlines hd) _ image

theorem validateTopic_spec (topic : AccountTopic) (image : Executable) :
    Ensures (Noted P) (Noted P) s (validateTopic g now topic image) (fun _ _ => True)
      (fun retry _ => P retry.retryAt) := by
  refine Ensures.bind (Q := fun _ _ => True) ?_ fun _ _ ht _ => check_spec (ht.deadlines hd) _ image
  cases topic with
  | inventory | mastery =>
    exact (itemPaths_spec hd image).bind fun _ _ ht _ => inventoryOwner_spec (ht.deadlines hd) image
  | intrinsics => exact check_spec hd _ image
  | starChart => exact (check_spec hd _ image).bind fun _ _ ht _ => check_spec (ht.deadlines hd) _ image
  | currencies | player | chat => exact .pure trivial

end Checks

/-- What the functions of a poll that publish or reset need: the sinks accept the capabilities, nothing
is published for the topics, and failures may be tried again at times in `P`. -/
structure Ready (P : Duration → Prop) (now : Duration) (topics : List AccountTopic) (s : PollState) :
    Prop where
  manifest : s.batch.manifest = manifest
  unpublished : ∀ topic ∈ topics, Unpublished s topic
  deadlines : Deadlines P now s.session

namespace Ready

variable {topics : List AccountTopic}

theorem of_kept {t : PollState} (hs : Ready P now topics s) (h : Kept P now s t) :
    Ready P now topics t :=
  ⟨h.manifest.trans hs.manifest, fun topic ht => h.unpublished (hs.unpublished topic ht),
    h.deadlines hs.deadlines⟩

theorem kept {t : PollState} (hs : Ready P now topics s) (h : Calm P s t) : Kept P now s t :=
  h.kept hs.deadlines.settled

theorem of_calm {t : PollState} (hs : Ready P now topics s) (h : Calm P s t) :
    Ready P now topics t :=
  hs.of_kept (hs.kept h)

theorem mono {topics' : List AccountTopic} (hs : Ready P now topics s)
    (h : ∀ topic ∈ topics', topic ∈ topics) : Ready P now topics' s :=
  ⟨hs.manifest, fun topic ht => hs.unpublished topic (h topic ht), hs.deadlines⟩

end Ready

/-! ## Resets -/

/-- The first reset of a topic is accepted. -/
theorem resetTopic_run (now : Duration) {topic : AccountTopic} (hm : s.batch.manifest = manifest)
    (hunreset : Unreset s topic) :
    ∃ batch, runFrom (resetTopic now topic) s
        = (.ok (), { s with session := s.session.wake [topic] now, batch }) ∧
      Appended s.batch ((s.session.demanded [topic]).map fun topic => .reset topic.key) batch := by
  have hrun : runFrom (resetTopic now topic) s
      = runFrom (if (s.session.topics topic).demanded = true then do
          sink (·.reset topic.cap)
          update (·.setNext topic now)
        else pure ()) s := runFrom_bind ..
  rw [hrun]
  by_cases hdemand : (s.session.topics topic).demanded = true
  · obtain ⟨batch, hreset, happended⟩ := sink_reset hm topic.declared hunreset
    have hwake : s.session.setNext topic now = s.session.wake [topic] now := by
      rw [WarframeSession.setNext, WarframeSession.setTopic, WarframeSession.wake]
      congr 1
      funext other
      by_cases ho : other = topic
      · subst ho
        simp [hdemand]
      · simp [ho]
    refine ⟨batch, ?_, ?_⟩
    · rw [if_pos hdemand, runFrom_bind, hreset, ← hwake]
      rfl
    · rw [show s.session.demanded [topic] = [topic] by simp [WarframeSession.demanded, hdemand]]
      exact happended
  · have hwake : s.session.wake [topic] now = s.session := by
      rw [WarframeSession.wake]
      congr 1
      funext other
      by_cases ho : other = topic
      · subst ho
        simp [hdemand]
      · simp [ho]
    refine ⟨s.batch, ?_, ?_⟩
    · rw [if_neg hdemand, hwake]
      rfl
    · rw [show s.session.demanded [topic] = [] by simp [WarframeSession.demanded, hdemand]]
      exact .refl s.batch

theorem resetTopics_run (now : Duration) (topics : List AccountTopic) (hnodup : topics.Nodup)
    (hm : s.batch.manifest = manifest) (hf : Fresh topics s) :
    ∃ batch, runFrom (resetTopics now topics) s
        = (.ok (), { s with session := s.session.wake topics now, batch }) ∧
      Appended s.batch ((s.session.demanded topics).map fun topic => .reset topic.key) batch := by
  induction topics generalizing s with
  | nil =>
    refine ⟨s.batch, ?_, .refl s.batch⟩
    rw [WarframeSession.wake_nil]
    rfl
  | cons topic topics ih =>
    obtain ⟨hne, hnodup⟩ := List.nodup_cons.mp hnodup
    obtain ⟨batch, hrun, happended⟩ :=
      resetTopic_run now hm (hf topic List.mem_cons_self)
    obtain ⟨batch', hrun', happended'⟩ :=
      ih (s := { s with session := s.session.wake [topic] now, batch }) hnodup
        (happended.manifest.trans hm) fun other ho hop => by
          rw [happended.ops] at hop
          rcases List.mem_append.mp hop with hop | hop
          · exact hf other (List.mem_cons_of_mem _ ho) hop
          · obtain ⟨same, hsame, hk⟩ := List.mem_map.mp hop
            obtain rfl := List.mem_singleton.mp (List.mem_filter.mp hsame).1
            obtain rfl := AccountTopic.key_inj.mp (Operation.reset.inj hk)
            exact hne ho
    refine ⟨batch', ?_, ?_⟩
    · rw [show resetTopics now (topic :: topics)
          = (resetTopic now topic >>= fun _ => resetTopics now topics) from rfl]
      rw [runFrom_bind, hrun]
      exact hrun'.trans (by rw [WarframeSession.wake_cons])
    · have h := happended.trans happended'
      simp only [WarframeSession.demanded, WarframeSession.wake_demanded] at h
      rwa [← List.map_append, ← List.filter_append] at h

theorem resetAccount_run (hs : Ready P now accountTopics s) (hf : Fresh accountTopics s) :
    ∃ batch, runFrom (resetAccount now) s = (.ok (), { s with
        session := { s.session.wake accountTopics now with profileData := none }.clearChat
        batch }) ∧
      Resets accountTopics s batch := by
  obtain ⟨batch, hrun, happended⟩ := resetTopics_run
    (s := { s with session := { s.session with profileData := none }.clearChat }) now accountTopics
    (by decide) hs.manifest hf
  refine ⟨batch, ?_, hs.unpublished, hf, happended⟩
  rw [resetAccount, runFrom_bind]
  exact hrun

/-- A reset keeps what the rest of a poll needs. -/
theorem Resets.ready {topics topics' : List AccountTopic} {session : WarframeSession}
    {batch : PollBatch} (h : Resets topics s batch) (hs : Ready P now topics' s)
    (hlayouts : session.layouts = s.session.layouts)
    (hexecutable : session.executable = s.session.executable) :
    Ready P now topics' { s with session, batch } where
  manifest := h.appended.manifest.trans hs.manifest
  unpublished topic ht op hop hk := by
    rw [h.appended.ops] at hop
    rcases List.mem_append.mp hop with hop | hop
    · exact hs.unpublished topic ht op hop hk
    · obtain ⟨_, -, rfl⟩ := List.mem_map.mp hop
      rfl
  deadlines := hs.deadlines.of_checks hlayouts hexecutable

theorem Resets.allReset {topics : List AccountTopic} {session : WarframeSession} {batch : PollBatch}
    (h : Resets topics s batch)
    (hdemand : ∀ topic, (session.topics topic).demanded = (s.session.topics topic).demanded) :
    AllReset topics { s with session, batch } := by
  intro topic ht hd
  rw [h.appended.ops]
  refine List.mem_append_right _ (List.mem_map.mpr ⟨topic, ?_, rfl⟩)
  exact List.mem_filter.mpr ⟨ht, (hdemand topic).symm.trans hd⟩

/-! ## Unavailable topics -/

instance {R : PollState → PollState → Prop} [Std.Refl R] : Std.Refl (Failed R) :=
  ⟨fun s => ⟨s, Std.Refl.refl s, rfl, rfl, rfl, rfl⟩⟩

instance {R : PollState → PollState → Prop} [IsTrans PollState R] : Trans R (Failed R) (Failed R) :=
  ⟨fun h ⟨u, hu, hfailed⟩ => ⟨u, Trans.trans h hu, hfailed⟩⟩

@[simp] theorem runFrom_getSession {ε : Type} (s : PollState) :
    runFrom (getSession : ExceptT ε (StateM PollState) WarframeSession) s = (.ok s.session, s) := rfl

@[simp] theorem runFrom_update {ε : Type} (f : WarframeSession → WarframeSession) (s : PollState) :
    runFrom (update f : ExceptT ε (StateM PollState) Unit) s
      = (.ok (), { s with session := f s.session }) := rfl

/-- The rest of a computation that reads the session. -/
theorem session_bind {R S : PollState → PollState → Prop} {ε α : Type}
    {f : WarframeSession → ExceptT ε (StateM PollState) α} {Q : α → PollState → Prop}
    {E : ε → PollState → Prop} (h : Ensures R S s (f s.session) Q E) :
    Ensures R S s (getSession >>= f) Q E := by
  rw [Ensures, runFrom_bind]
  exact h

variable [Payloads]

/-- What a failure of a poll is. -/
abbrev refused (g : Game) : ProviderError → PollState → Prop := fun e _ => Refused g e

theorem attempt_spec {ε α : Type} {x : ExceptT ε (StateM PollState) α} {Q : α → PollState → Prop}
    {E : ε → PollState → Prop} (h : Ensures (Noted P) (Noted P) s x Q E) :
    Ensures (Calm P) (Failed (Calm P)) s (attempt x)
      (fun r t => match r with
        | .ok a => Q a t
        | .error e => E e t) (refused g) :=
  h.attempt.mono (fun _ _ ht hq => ⟨.single (.noted ht), hq⟩) fun _ _ ht he => ⟨ht, he⟩

theorem Calm.steps {s t : PollState} (h : Calm P s t) : Steps P now g s t :=
  Relation.ReflTransGen.mono (fun _ _ h => Step.calm h) _ _ h

theorem Ensures.of_calm {α : Type} {x : Poll α} {Q : α → PollState → Prop}
    {E : ProviderError → PollState → Prop} (hs : Deadlines P now s.session)
    (h : Ensures (Calm P) (Failed (Calm P)) s x Q E) :
    Ensures (Steps P now g) (Failed (Steps P now g)) s x (fun a t => Kept P now s t ∧ Q a t) E :=
  h.mono (fun _ _ ht hq => ⟨Calm.steps ht, Calm.kept hs.settled ht, hq⟩)
    fun _ _ ⟨u, hu, hfailed⟩ he => ⟨⟨u, Calm.steps hu, hfailed⟩, he⟩

variable [Platform]

/-- The topic's turn ends with its health. -/
theorem unavailable_spec {topic : AccountTopic} {retry : Retry} (hs : Ready P now [topic] s)
    (hdemand : (s.session.topics topic).demanded = true) (hretry : P retry.retryAt) :
    Ensures (Calm P) (Failed (Calm P)) s (unavailable topic retry)
      (fun _ t => (t.session.topics topic).Settled now) (refused g) := by
  have hunpublished := hs.unpublished topic List.mem_cons_self
  rw [Ensures, unavailable, runFrom_bind]
  rcases sink_health (g := g) hs.manifest topic.declared (.unavailable retry.reason) with
    ⟨op, batch, rfl, hrun, happended⟩ | ⟨e, batch, hrun, hdropped, hrefused⟩
  · rw [hrun]
    refine ⟨.single (.deferred hdemand hunpublished hretry happended), fun _ => ?_⟩
    rw [WarframeSession.setNext_self]
    exact hs.deadlines.settled _ hretry
  · rw [hrun]
    exact ⟨⟨s, .refl, rfl, rfl, hdropped⟩, hrefused⟩

theorem allUnavailable_spec {topics : List AccountTopic} {retry : Retry}
    (hs : Ready P now topics s) (hretry : P retry.retryAt) :
    Ensures (Calm P) (Failed (Calm P)) s (allUnavailable topics retry)
      (fun _ t => ∀ topic ∈ topics, (t.session.topics topic).Settled now) (refused g) := by
  refine Ensures.forM
    (I := fun done _ (t : PollState) => ∀ topic ∈ done, (t.session.topics topic).Settled now)
    topics (fun done topic rest hl t ht hdone => ?_) (by simp)
  have hready := hs.of_calm ht
  have htopic : topic ∈ topics := by rw [hl]; simp
  refine session_bind ?_
  split
  · rename_i hdemand
    refine (unavailable_spec (hready.mono (by simpa using htopic)) hdemand hretry).imp ?_
    intro _ u hu hsettled other ho
    rcases List.mem_append.mp ho with ho | ho
    · exact (hready.kept hu).settled other (hdone other ho)
    · rw [List.mem_singleton.mp ho]; exact hsettled
  · rename_i hdemand
    refine .pure fun other ho => ?_
    rcases List.mem_append.mp ho with ho | ho
    · exact hdone other ho
    · rw [List.mem_singleton.mp ho]
      exact fun h => absurd h hdemand

/-! ## Validation -/

theorem validateProfileData_spec (hs : Ready P now accountTopics s) (image : Executable) :
    Ensures (Calm P) (Failed (Calm P)) s (validateProfileData g now image) (fun _ _ => True)
      (refused g) := by
  refine session_bind ?_
  split
  · refine (attempt_spec (check_spec hs.deadlines .profileData image)).bind fun r t ht hr => ?_
    cases r with
    | ok _ => exact .pure trivial
    | error retry =>
      have hready := (hs.of_calm ht).mono fun topic (_ : topic ∈ dataTopics) => mem_accountTopics topic
      exact (allUnavailable_spec hready hr).imp fun _ _ _ _ => trivial
  · exact .pure trivial

theorem validateDueTopic_spec (hs : Ready P now accountTopics s) (image : Executable)
    (topic : AccountTopic) :
    Ensures (Calm P) (Failed (Calm P)) s (validateDueTopic g now image topic) (fun _ _ => True)
      (refused g) := by
  refine session_bind ?_
  split
  · rename_i hdue
    have hdemand := TopicState.demanded_of_due hdue
    refine (attempt_spec (validateTopic_spec hs.deadlines topic image)).bind fun r t ht hr => ?_
    cases r with
    | ok _ => exact .pure trivial
    | error retry =>
      have hready := (hs.of_calm ht).mono fun other (_ : other ∈ [topic]) => mem_accountTopics other
      refine (unavailable_spec hready ?_ hr).imp fun _ _ _ _ => trivial
      rwa [(hs.kept ht).demanded]
  · exact .pure trivial

theorem validateDue_spec (hs : Ready P now accountTopics s) (image : Executable) :
    Ensures (Calm P) (Failed (Calm P)) s (validateDue g now image) (fun _ _ => True) (refused g) := by
  refine (validateProfileData_spec hs image).bind fun _ t ht _ => ?_
  refine Ensures.forM (I := fun _ _ _ => True) validated (fun _ topic _ _ u hu _ => ?_) trivial
  exact validateDueTopic_spec ((hs.of_calm ht).of_calm hu) image topic

/-! ## The login -/

omit [Payloads] [Platform] in
theorem update_self {ε : Type} {f : WarframeSession → WarframeSession}
    (h : f s.session = s.session) :
    runFrom (update f : ExceptT ε (StateM PollState) Unit) s = (.ok (), s) := by
  rw [runFrom_update, h]

omit [Platform] in
theorem clearLogin_spec (hs : Ready P now accountTopics s) (hf : Fresh accountTopics s) :
    Ensures (Steps P now g) (Failed (Steps P now g)) s (clearLogin now)
      (fun _ t => Ready P now accountTopics t) (refused g) := by
  refine session_bind ?_
  rw [Ensures, runFrom_bind]
  cases hlogin : s.session.login with
  | none =>
    rw [update_self (by rw [← hlogin])]
    exact ⟨.refl, hs⟩
  | some login =>
    obtain ⟨batch, hrun, hresets⟩ := resetAccount_run (P := P)
      (s := { s with session := { s.session with login := none } })
      ⟨hs.manifest, hs.unpublished, hs.deadlines.of_checks rfl rfl⟩ hf
    have hresets' : Resets accountTopics s batch :=
      ⟨hresets.unpublished, hresets.fresh, hresets.appended⟩
    dsimp only [runFrom_update, Option.isSome_some]
    rw [if_pos rfl, hrun]
    exact ⟨.single (.accountReset (.inl rfl) hresets'), hresets'.ready hs rfl rfl⟩

theorem loginMissing_spec (hs : Ready P now accountTopics s) (hf : Fresh accountTopics s)
    (reason : UnavailableReason) :
    Ensures (Steps P now g) (Failed (Steps P now g)) s (loginMissing now reason)
      (fun _ t => ∀ topic, (t.session.topics topic).Settled now) (refused g) := by
  refine (clearLogin_spec hs hf).bind fun _ t _ ht => ?_
  have hretry := ht.deadlines.missing reason "account identity"
  refine (Ensures.of_calm ht.deadlines (allUnavailable_spec ht hretry)).imp fun _ u _ h topic => ?_
  exact h.2 topic (mem_accountTopics topic)

end Session
end Warframe
end WfObserver
