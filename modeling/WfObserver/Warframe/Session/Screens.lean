import WfObserver.Warframe.Session.VisualSteps

/-!
# The visual part of a poll follows its steps

One statement for each function, as for the account part.
-/

namespace WfObserver
namespace Warframe
namespace Session

open ProviderSdk
open Stateful
open Service (PollBatch Platform Operation publicHealth)
open Wire (JsonPayload TopicRef)
open Roots (AccountIdentity)

variable [SerdeJson] {P : Duration → Prop} {now : Duration} {g : Game} {s : PollState}

/-! ## Reads -/

theorem resolveOwner_spec (image : Executable) (retryAt : Duration) :
    Ensures (Noted P) (Noted P) s (resolveOwner g image retryAt)
      (fun r t => ∃ login world, s.moment ≤ login ∧ login < world ∧ world < t.moment ∧
        g.resolveAccount image login = .ok (.present r.1) ∧ g.resolveWorld image world = .ok r.2)
      (fun retry _ => retry.retryAt = retryAt) := by
  refine (look_spec (noted_look s)).bind ?_
  rintro r t - ⟨hr, rfl⟩
  rcases r with reason | ⟨_ | login⟩
  · exact .throw rfl
  · exact .throw rfl
  · refine (look_spec (noted_look _)).bind ?_
    rintro r' t - ⟨hr', rfl⟩
    cases r' with
    | error error => exact .throw rfl
    | ok world =>
      exact .pure ⟨s.moment, s.moment + 1, le_rfl, Nat.lt_succ_self _, Nat.lt_succ_self _, hr.symm,
        hr'.symm⟩

theorem validateRelic_spec (hd : Deadlines P now s.session) (image : Executable) :
    Ensures (Noted P) (Noted P) s (validateRelic g now image) (fun _ _ => True)
      (fun retry _ => P retry.retryAt) := by
  refine (check_spec hd _ image).bind fun _ t ht _ => ?_
  exact (check_spec (ht.deadlines hd) _ image).bind fun _ u hu _ =>
    check_spec ((ht.trans hu).deadlines hd) _ image

theorem relicBefore_spec (hd : Deadlines P now s.session) (image : Executable) (v : VisualTopics)
    {retryAt : Duration} (hretry : P retryAt) :
    Ensures (Noted P) (Noted P) s (relicBefore now g image v retryAt)
      (fun r t => (v.relicDemanded = true → v.relicRetry ≤ now → r.isSome) ∧
        (r.isSome → v.relicDemanded = true) ∧
        (∀ retry, r = some (.error retry) → P retry.retryAt) ∧
        ∀ owner, r = some (.ok owner) → ∃ login world, login < world ∧ world < t.moment ∧
          g.resolveAccount image login = .ok (.present owner.1) ∧
          g.resolveWorld image world = .ok owner.2) (fun _ _ => False) := by
  rw [relicBefore]
  split
  · rename_i hdue
    rw [Bool.and_eq_true] at hdue
    have hread : Ensures (Noted P) (Noted P) s
        (do validateRelic g now image; resolveOwner g image retryAt)
        (fun owner t => ∃ login world, login < world ∧ world < t.moment ∧
          g.resolveAccount image login = .ok (.present owner.1) ∧
          g.resolveWorld image world = .ok owner.2) (fun retry _ => P retry.retryAt) := by
      refine (validateRelic_spec hd image).bind fun _ t _ _ => ?_
      refine (resolveOwner_spec (P := P) image retryAt).mono ?_ ?_
      · rintro owner u hu ⟨login, world, -, hlt, hlast, hlogin, hworld⟩
        exact ⟨hu, login, world, hlt, hlast, hlogin, hworld⟩
      · rintro retry u hu rfl
        exact ⟨hu, hretry⟩
    refine Ensures.map (hread.attempt.imp fun r t _ hr => ⟨fun _ _ => rfl, fun _ => hdue.1, ?_, ?_⟩)
    · rintro retry ⟨⟩
      exact hr
    · rintro owner ⟨⟩
      exact hr
  · rename_i hdue
    refine .pure ⟨fun hdemand hretry => ?_, nofun, nofun, nofun⟩
    simp [hdemand, hretry] at hdue

theorem recheckScreens_spec (image : Executable) (sample : ScreenSample) (shown : Bool)
    (retryAt : Duration) :
    Ensures (Noted P) (Noted P) s (recheckScreens g image sample shown retryAt)
      (fun _ t => shown = true → ∃ m, s.moment ≤ m ∧ m < t.moment ∧ g.readScreens image m = .ok sample)
      (fun retry _ => retry.retryAt = retryAt) := by
  rw [recheckScreens]
  split
  · refine (look_spec (noted_look s)).bind ?_
    rintro r t - ⟨hr, rfl⟩
    cases r with
    | error error => exact .throw rfl
    | ok after =>
      dsimp only
      split
      · exact .throw rfl
      · rename_i hsame
        refine .pure fun _ => ⟨s.moment, le_rfl, Nat.lt_succ_self _, ?_⟩
        rw [← hr, not_not.mp hsame]
  · rename_i hshown
    exact .pure fun h => absurd h hshown

theorem readChoices_spec (hd : Deadlines P now s.session) (image : Executable) (owner : RelicOwner)
    {retryAt : Duration} (hretry : P retryAt) :
    Ensures (Noted P) (Noted P) s (readChoices g now image owner retryAt)
      (fun picker t => ∃ rules choices m, s.moment ≤ m ∧ m < t.moment ∧
        owner.world.rules = some rules ∧ picker = .shown choices ∧
        g.readRelicRewards image rules owner.login.accountId m = .ok choices)
      (fun retry _ => P retry.retryAt) := by
  refine (itemPaths_spec hd image).bind fun _ t ht _ => ?_
  cases hrules : owner.world.rules with
  | none => exact .throw hretry
  | some rules =>
    refine (look_spec (noted_look t)).bind ?_
    rintro r u - ⟨hr, rfl⟩
    cases r with
    | error error => exact .throw hretry
    | ok choices =>
      exact .pure ⟨rules, choices, t.moment, ht.moment, Nat.lt_succ_self _, rfl, rfl, hr.symm⟩

/-! ## The relic's rewards -/

/-- The turn of the relic's rewards: other topics and the source are not touched. -/
structure RelicTurn (s t : PollState) : Prop where
  source : t.session.visual.source = s.session.visual.source
  demanded : t.session.visual.relicDemanded = s.session.visual.relicDemanded
  manifest : t.batch.manifest = s.batch.manifest
  ops : ∃ ops, t.batch.pending.ops = s.batch.pending.ops ++ ops ∧
    ∀ op ∈ ops, op.key = VisualTopic.relicRewards.key
  moment : s.moment ≤ t.moment

theorem RelicTurn.refl (s : PollState) : RelicTurn s s :=
  ⟨rfl, rfl, rfl, ⟨[], by simp, by simp⟩, le_rfl⟩

theorem RelicTurn.trans {s t u : PollState} (h : RelicTurn s t) (h' : RelicTurn t u) :
    RelicTurn s u where
  source := h'.source.trans h.source
  demanded := h'.demanded.trans h.demanded
  manifest := h'.manifest.trans h.manifest
  ops := by
    obtain ⟨xs, hxs, hx⟩ := h.ops
    obtain ⟨ys, hys, hy⟩ := h'.ops
    refine ⟨xs ++ ys, by rw [hys, hxs, List.append_assoc], fun op hop => ?_⟩
    exact (List.mem_append.mp hop).elim (hx op) (hy op)
  moment := h.moment.trans h'.moment

/-- The turn stages one operation. -/
theorem RelicTurn.of_appended {batch : PollBatch} {op : Operation} {visual : VisualTopics}
    (h : Appended s.batch [op] batch) (hk : op.key = VisualTopic.relicRewards.key)
    (hsource : visual.source = s.session.visual.source)
    (hdemanded : visual.relicDemanded = s.session.visual.relicDemanded) :
    RelicTurn s { s with session := { s.session with visual }, batch } :=
  ⟨hsource, hdemanded, h.manifest, ⟨_, h.ops, by simpa using hk⟩, le_rfl⟩

theorem RelicTurn.of_noted {t : PollState} (h : Noted P s t) : RelicTurn s t :=
  ⟨by rw [h.session], by rw [h.session], by rw [h.batch], ⟨[], by rw [h.batch]; simp, by simp⟩,
    h.moment⟩

theorem Untouched.unshown {topic : VisualTopic} (h : Untouched s topic) : Unshown s topic :=
  fun op hop hk => absurd hk (h op hop)

variable [Payloads]

/-- What only reads and remembers. -/
theorem Ensures.of_read {α : Type} {x : Poll α} {Q : α → PollState → Prop}
    (h : Ensures (Noted P) (Noted P) s x Q fun _ _ => False) :
    Ensures (VisualSteps P now g) (Failed (VisualSteps P now g)) s x (fun a t => Noted P s t ∧ Q a t)
      (refused g) :=
  h.mono (fun _ _ ht hq => ⟨.single (.noted ht), ht, hq⟩) fun _ _ _ he => he.elim

/-- The owner is cleared, or was not there; the flag says whether the rewards are reset. -/
structure OwnerCleared (s : PollState) (reset : Bool) (t : PollState) : Prop where
  turn : RelicTurn s t
  unshown : Unshown t .relicRewards
  isReset : reset = true → .reset VisualTopic.relicRewards.key ∈ t.batch.pending.ops
  untouched : reset = false → Untouched t .relicRewards

theorem clearOwner_spec (hm : s.batch.manifest = manifest)
    (hdemand : s.session.visual.relicDemanded = true) (hunshown : Unshown s .relicRewards)
    (reset : Bool) (hreset : reset = true → .reset VisualTopic.relicRewards.key ∈ s.batch.pending.ops)
    (huntouched : reset = false → Untouched s .relicRewards) :
    Ensures (VisualSteps P now g) (Failed (VisualSteps P now g)) s (clearOwner reset)
      (fun reset' t => OwnerCleared s reset' t ∧ t.session.visual.owner = none) (refused g) := by
  cases howner : s.session.visual.owner with
  | none =>
    refine session_bind ?_
    rw [Ensures, runFrom_bind, howner, updateVisual, update_self (by rw [← howner])]
    exact ⟨.refl, ⟨.refl s, hunshown, hreset, huntouched⟩, howner⟩
  | some owner =>
    cases reset with
    | true =>
      refine session_bind ?_
      dsimp only
      rw [howner]
      exact ⟨.single (.ownerLost (hreset rfl)), ⟨⟨rfl, rfl, rfl, ⟨[], (List.append_nil _).symm,
        by simp⟩, le_rfl⟩, hunshown, fun _ => hreset rfl, fun h => by cases h⟩, rfl⟩
    | false =>
      have huntouched := huntouched rfl
      obtain ⟨batch, hrun, happended⟩ := sink_reset
        (s := { s with
          session := { s.session with visual := { s.session.visual with owner := none } } })
        hm VisualTopic.relicRewards.declared fun hop => huntouched _ hop rfl
      have hdone : runFrom (clearOwner false) s = (.ok true, { s with
          session := { s.session with visual := { s.session.visual with owner := none } }
          batch }) := by
        have hrun : runFrom (sink (·.reset relicRewardsCap)) _ = _ := hrun
        simp only [clearOwner, runFrom_bind, runFrom_getSession, updateVisual, runFrom_update, howner,
          Option.isSome_some, Bool.not_false, Bool.and_self, if_true, hrun, runFrom_pure]
      rw [Ensures, hdone]
      refine ⟨.single (.relicReset hdemand huntouched happended),
        ⟨.of_appended happended rfl rfl rfl, fun op hop hk => ?_, fun _ => ?_,
          fun h => by cases h⟩, rfl⟩
      · rw [happended.ops] at hop
        rcases List.mem_append.mp hop with hop | hop
        · exact absurd hk (huntouched op hop)
        · rw [List.mem_singleton.mp hop]
          rfl
      · rw [happended.ops]
        exact List.mem_append_right _ (List.mem_singleton.mpr rfl)

variable [Platform]

theorem health_spec (hm : s.batch.manifest = manifest) {topic : VisualTopic}
    (hdemand : s.session.visual.demanded topic = true) (hunshown : Unshown s topic)
    (reason : UnavailableReason) :
    Ensures (VisualSteps P now g) (Failed (VisualSteps P now g)) s
      (sink (·.health topic.cap (.unavailable reason)))
      (fun _ t => ∃ batch, t = { s with batch } ∧
        Appended s.batch [.health topic.key (publicHealth (.unavailable reason))] batch)
      (refused g) := by
  rw [Ensures]
  rcases sink_health (g := g) hm topic.declared (.unavailable reason) with
    ⟨op, batch, rfl, hrun, happended⟩ | ⟨e, batch, hrun, hdropped, hrefused⟩ <;> rw [hrun]
  · exact ⟨.single (.health hdemand hunshown happended), batch, rfl, happended⟩
  · exact ⟨⟨s, .refl, rfl, rfl, hdropped⟩, hrefused⟩

/-- What the poll knows when it comes to the relic's rewards. -/
structure RelicReady (P : Duration → Prop) (now : Duration) (s : PollState) : Prop where
  manifest : s.batch.manifest = manifest
  deadlines : Deadlines P now s.session
  demanded : s.session.visual.relicDemanded = true

/-- Whatever the failure, the turn ends with the health of the rewards. -/
theorem relicUnavailable_spec (hs : RelicReady P now s) (hunshown : Unshown s .relicRewards)
    {retry : Retry} (hretry : P retry.retryAt) :
    Ensures (VisualSteps P now g) (Failed (VisualSteps P now g)) s (relicUnavailable now retry)
      (fun _ t => RelicTurn s t ∧ Answered VisualTopic.relicRewards.key t.batch.pending.ops)
      (refused g) := by
  refine session_bind ?_
  dsimp only
  have hbackoff : P (relicBackoff now retry s.session.visual.relicReadDelay).1.retryAt ∧
      (relicBackoff now retry s.session.visual.relicReadDelay).2 ≤ readRetry := by
    rw [relicBackoff]
    split
    · exact ⟨hs.deadlines.later _ (by decide) (by decide), Nat.zero_le _⟩
    · exact ⟨hretry, min_le_right ..⟩
  refine Ensures.bind (Q := fun _ t => RelicTurn s t ∧ t.batch = s.batch)
    ⟨.single (.retimed ⟨rfl, rfl, rfl, rfl, .inl rfl, .inl rfl, .inl rfl, .inr hbackoff.2⟩),
      ⟨rfl, rfl, rfl, ⟨[], (List.append_nil _).symm, by simp⟩, le_rfl⟩, rfl⟩ ?_
  rintro _ t - ⟨hturn, hbatch⟩
  have hunshown : Unshown t .relicRewards := by
    rw [Unshown, hbatch]
    exact hunshown
  have hdemand : t.session.visual.demanded .relicRewards = true :=
    hturn.demanded.trans hs.demanded
  refine (health_spec (hturn.manifest.trans hs.manifest) hdemand hunshown _).bind ?_
  rintro _ u - ⟨batch, rfl, happended⟩
  refine ⟨.single (.retimed ⟨rfl, rfl, rfl, rfl, .inl rfl, .inl rfl, .inr hbackoff.1, .inl rfl⟩),
    hturn.trans (.of_appended happended rfl rfl rfl), ?_⟩
  exact happended.ops ▸ .of_last rfl rfl

/-- A snapshot that the sinks accept, or an error. -/
theorem publish_spec (topic : VisualTopic) {sample : Sample} {R : PollState → PollState → Prop}
    [Std.Refl R] (hm : s.batch.manifest = manifest)
    (hvalue : ∀ message, sample = .error message → ValueError g message)
    (hstep : ∀ value payload batch, sample = .ok value → JsonPayload.fromValue value = some payload →
      Appended s.batch [.snapshot topic.key payload] batch → R s { s with batch }) :
    Ensures R (Failed R) s (publish topic.cap sample)
      (fun _ t => ∃ payload batch, t = { s with batch } ∧
        Appended s.batch [.snapshot topic.key payload] batch) (refused g) := by
  have hsnapshots : topic.cap.snapshots.isSome := by cases topic <;> rfl
  cases sample with
  | error message => exact .throw (.value (hvalue message rfl))
  | ok value =>
    have hpublish : runFrom (publish topic.cap (.ok value)) s
        = runFrom (sink (·.snapshot topic.cap value)) s := runFrom_bind ..
    rw [Ensures, hpublish]
    rcases sink_snapshot (g := g) hm topic.declared hsnapshots value with
      ⟨op, batch, ⟨payload, hpayload, rfl⟩, hrun, happended⟩ | ⟨e, batch, hrun, hdropped, hrefused⟩ <;>
      rw [hrun]
    · exact ⟨hstep value payload batch rfl hpayload happended, payload, batch, rfl, happended⟩
    · exact ⟨⟨s, Std.Refl.refl s, rfl, rfl, hdropped⟩, hrefused⟩

omit [Payloads] [Platform] in
theorem OwnerFirst.mono {image : Executable} {owner : RelicOwner} {sample : ScreenSample} {m m' : Nat}
    (h : OwnerFirst g image owner sample m) (hm : m ≤ m') : OwnerFirst g image owner sample m' := by
  obtain ⟨login, world, screens, hlogin, hworld, hscreens, hread⟩ := h
  exact ⟨login, world, screens, hlogin, hworld, hscreens.trans_le hm, hread⟩

omit [Payloads] [Platform] in
/-- The reads between the two reads of the owner. -/
theorem readRelic_spec (hd : Deadlines P now s.session) {image : Executable}
    {acquisition : RelicAcquisition} {before : RelicOwner} (hretry : P acquisition.retryAt)
    (hfirst : OwnerFirst g image before acquisition.screens s.moment)
    (hshown : s.session.visual.source.plan.fits .relicRewards acquisition.screens.screens = true ↔
      .relicRewards ∈ acquisition.screens.screens) :
    Ensures (Noted P) (Noted P) s (readRelic now g image acquisition before)
      (fun r _ => (∀ picker, r.1 = .ok picker → r.2 = .ok before → RelicOwned g before picker) ∧
        (∀ retry, r.1 = .error retry → P retry.retryAt) ∧
        ∀ retry, r.2 = .error retry → P retry.retryAt) (fun _ _ => False) := by
  refine session_bind ?_
  dsimp only
  generalize s.session.visual.source.plan.fits .relicRewards acquisition.screens.screens = shown at hshown
  have hchoices : Ensures (Noted P) (Noted P) s
      (if shown then readChoices g now image before acquisition.retryAt else pure .closed)
      (fun picker t => if shown then ∃ rules choices m, s.moment ≤ m ∧ m < t.moment ∧
          before.world.rules = some rules ∧ picker = .shown choices ∧
          g.readRelicRewards image rules before.login.accountId m = .ok choices
        else picker = .closed) (fun retry _ => P retry.retryAt) := by
    cases shown with
    | true => exact readChoices_spec hd image before hretry
    | false => exact .pure rfl
  refine hchoices.attempt.bind fun result t ht hresult => ?_
  refine (Ensures.attempt (R := Noted P)
    (Q := fun after _ => after = before → ∃ again, t.moment ≤ again ∧
      OwnerLast g image before again ∧
      (shown = true → ∃ m, t.moment ≤ m ∧ m < again ∧
        g.readScreens image m = .ok acquisition.screens))
    (E := fun retry _ => retry.retryAt = acquisition.retryAt) ?_).bind
      fun after u _ hafter => .pure ⟨?_, ?_, ?_⟩
  · refine (recheckScreens_spec image acquisition.screens shown acquisition.retryAt).bind ?_
    intro _ u hu hagain
    refine (resolveOwner_spec image acquisition.retryAt).bind ?_
    rintro ⟨login, world⟩ v - ⟨l, w, hl, hlw, -, hlogin, hworld⟩
    refine .pure ?_
    rintro rfl
    exact ⟨u.moment, hu.moment, ⟨l, w, hl, hlw, hlogin, hworld⟩, hagain⟩
  rotate_left
  · rintro retry rfl
    exact hresult
  · rintro retry rfl
    rw [show retry.retryAt = acquisition.retryAt from hafter]
    exact hretry
  rintro picker rfl rfl
  obtain ⟨again, htm, hlast, hscreens⟩ := hafter rfl
  cases shown with
  | false =>
    obtain rfl : picker = .closed := hresult
    have hlast' : OwnerLast g image before s.moment := by
      obtain ⟨login, world, hl, hread⟩ := hlast
      exact ⟨login, world, (ht.moment.trans htm).trans hl, hread⟩
    exact .closed hfirst hlast' fun h => by cases hshown.mpr h
  | true =>
    obtain ⟨rules, choices, m, hsm, hmt, hrules, rfl, hread⟩ := hresult
    obtain ⟨later, htl, hla, hsame⟩ := hscreens rfl
    exact .shown (hfirst.mono hsm) hlast (hshown.mp rfl) hrules hread
      (hmt.trans_le htm) ⟨later, hmt.trans_le htl, hla, hsame⟩

omit [Platform] in
theorem RelicReady.of_turn {t : PollState} (hs : RelicReady P now s) (h : VisualSteps P now g s t)
    (hturn : RelicTurn s t) : RelicReady P now t :=
  ⟨hturn.manifest.trans hs.manifest, h.seen.deadlines hs.deadlines, hturn.demanded.trans hs.demanded⟩

theorem publishRelic_spec (hs : RelicReady P now s) {acquisition : RelicAcquisition}
    {before : RelicOwner} {reset : Bool} {result : Except Retry RelicRewardPicker}
    {after : Except Retry RelicOwner} (howner : s.session.visual.owner = some before)
    (hunshown : Unshown s .relicRewards)
    (hreset : reset = true → .reset VisualTopic.relicRewards.key ∈ s.batch.pending.ops)
    (huntouched : reset = false → Untouched s .relicRewards)
    (howned : ∀ picker, result = .ok picker → after = .ok before → RelicOwned g before picker)
    (hretry : P acquisition.retryAt) (hresult : ∀ retry, result = .error retry → P retry.retryAt)
    (hafter : ∀ retry, after = .error retry → P retry.retryAt) :
    Ensures (VisualSteps P now g) (Failed (VisualSteps P now g)) s
      (publishRelic now acquisition before reset result after)
      (fun _ t => RelicTurn s t ∧ Answered VisualTopic.relicRewards.key t.batch.pending.ops)
      (refused g) := by
  unfold publishRelic
  split
  · rename_i hsame
    have hsame : after = .ok before := by
      cases after with
      | error e => cases hsame
      | ok owner => rw [Option.some.inj hsame]
    cases result with
    | error retry => exact relicUnavailable_spec hs hunshown (hresult retry rfl)
    | ok picker =>
      refine Ensures.bind (Q := fun _ t => RelicTurn s t ∧ t.batch = s.batch ∧
          t.session.visual.owner = s.session.visual.owner)
        ⟨.single (.retimed ⟨rfl, rfl, rfl, rfl, .inl rfl, .inl rfl, .inl rfl, .inr (Nat.zero_le _)⟩),
          ⟨rfl, rfl, rfl, ⟨[], (List.append_nil _).symm, by simp⟩, le_rfl⟩, rfl, rfl⟩ ?_
      rintro _ t - ⟨hturn, hbatch, howner'⟩
      refine (publish_spec .relicRewards (hturn.manifest.trans hs.manifest)
        (fun message h => .relicRewards h) fun value payload batch hvalue hpayload happended => .single
          (.relicSnapshot (hturn.demanded.trans hs.demanded) (by rw [Unshown, hbatch]; exact hunshown)
            (howner'.trans howner) (howned picker rfl hsame) hvalue hpayload happended)).imp ?_
      rintro _ u - ⟨payload, batch, rfl, happended⟩
      exact ⟨hturn.trans (.of_appended happended rfl rfl rfl), happended.ops ▸ .of_last rfl rfl⟩
  · refine Ensures.bind (Q := fun _ t => RelicTurn s t ∧ Unshown t .relicRewards) (Ensures.map
      ((clearOwner_spec hs.manifest hs.demanded hunshown reset hreset huntouched).imp
        fun _ t _ h => ⟨h.1.turn, h.1.unshown⟩)) ?_
    rintro _ t ht ⟨hturn, hunshown⟩
    refine (relicUnavailable_spec (hs.of_turn ht hturn) hunshown ?_).imp ?_
    · cases after with
      | error retry => exact hafter retry rfl
      | ok owner => exact hretry
    · rintro _ u - ⟨hturn', hanswered⟩
      exact ⟨hturn.trans hturn', hanswered⟩

omit [Platform] in
theorem replaceOwner_spec (hs : RelicReady P now s) (huntouched : Untouched s .relicRewards)
    (before : RelicOwner) :
    Ensures (VisualSteps P now g) (Failed (VisualSteps P now g)) s (replaceOwner before)
      (fun reset t => OwnerCleared s reset t ∧
        (t.session.visual.owner = none ∨ t.session.visual.owner = some before)) (refused g) := by
  refine session_bind ?_
  dsimp only
  split
  · refine (clearOwner_spec hs.manifest hs.demanded huntouched.unshown false nofun
      fun _ => huntouched).imp ?_
    rintro reset t - ⟨hcleared, hnone⟩
    exact ⟨hcleared, .inl hnone⟩
  · rename_i hsame
    refine .pure ⟨⟨.refl s, huntouched.unshown, nofun, fun _ => huntouched⟩, ?_⟩
    cases howner : s.session.visual.owner with
    | none => exact .inl rfl
    | some owner =>
      rw [howner, Option.any_some, decide_eq_true_eq, not_not] at hsame
      exact .inr (congrArg some hsame)

/-- The relic's turn, from the owner that was read before the screens. -/
theorem pollRelic_spec (hs : RelicReady P now s) (huntouched : Untouched s .relicRewards)
    {image : Executable} {acquisition : RelicAcquisition} (hretry : P acquisition.retryAt)
    (hbefore : ∀ retry, acquisition.before = .error retry → P retry.retryAt)
    (hfirst : ∀ login world, acquisition.before = .ok (login, world) →
      world.client = acquisition.screens.owner.client →
        OwnerFirst g image ⟨login, world, acquisition.screens.owner⟩ acquisition.screens s.moment)
    (hshown : s.session.visual.source.plan.fits .relicRewards acquisition.screens.screens = true ↔
      .relicRewards ∈ acquisition.screens.screens) :
    Ensures (VisualSteps P now g) (Failed (VisualSteps P now g)) s (pollRelic now g image acquisition)
      (fun _ t => RelicTurn s t ∧ Answered VisualTopic.relicRewards.key t.batch.pending.ops)
      (refused g) := by
  unfold pollRelic
  cases howner : acquisition.owner with
  | error retry =>
    refine Ensures.bind (Q := fun _ t => OwnerCleared s false t ∨ OwnerCleared s true t) (Ensures.map
      ((clearOwner_spec hs.manifest hs.demanded huntouched.unshown false nofun
        fun _ => huntouched).imp fun reset t _ h => ?_)) ?_
    · cases reset with
      | false => exact .inl h.1
      | true => exact .inr h.1
    rintro _ t ht hcleared
    obtain ⟨hturn, hunshown⟩ : RelicTurn s t ∧ Unshown t .relicRewards :=
      hcleared.elim (fun h => ⟨h.turn, h.unshown⟩) fun h => ⟨h.turn, h.unshown⟩
    refine (relicUnavailable_spec (hs.of_turn ht hturn) hunshown ?_).imp ?_
    · rw [RelicAcquisition.owner] at howner
      split at howner
      · rename_i hread
        cases howner
        exact hbefore _ hread
      · split at howner <;> cases howner
        exact hretry
    · rintro _ u - ⟨hturn', hanswered⟩
      exact ⟨hturn.trans hturn', hanswered⟩
  | ok before =>
    have hfirst : OwnerFirst g image before acquisition.screens s.moment := by
      rw [RelicAcquisition.owner] at howner
      split at howner
      · cases howner
      · rename_i login world hread
        split at howner
        · cases howner
        · rename_i hclient
          cases howner
          exact hfirst login world hread (not_not.mp hclient)
    refine (replaceOwner_spec hs huntouched before).bind ?_
    rintro reset t ht ⟨hcleared, hnone⟩
    refine Ensures.bind (Q := fun _ u => u = { t with
        session := { t.session with visual := { t.session.visual with owner := some before } } })
      ⟨.single (.ownerFound hnone), rfl⟩ ?_
    rintro _ u hu rfl
    have hd : Deadlines P now t.session := ht.seen.deadlines hs.deadlines
    have hsource := hcleared.turn.source
    have hread := readRelic_spec (hu.seen.deadlines hd) hretry (hfirst.mono hcleared.turn.moment)
      (by dsimp only; rw [hsource]; exact hshown)
    refine (Ensures.of_read hread).bind ?_
    rintro ⟨result, after⟩ v - ⟨hnoted, howned, hresult, hafter⟩
    have hsession := hnoted.session
    have hbatch := hnoted.batch
    have hturn : RelicTurn s v :=
      hcleared.turn.trans ((show RelicTurn t { t with
          session := { t.session with visual := { t.session.visual with owner := some before } } }
        from ⟨rfl, rfl, rfl, ⟨[], (List.append_nil _).symm, by simp⟩, le_rfl⟩).trans
          (.of_noted hnoted))
    refine (publishRelic_spec ⟨hturn.manifest.trans hs.manifest,
      (Seen.of_noted hnoted).deadlines (hu.seen.deadlines hd), hturn.demanded.trans hs.demanded⟩
      (by rw [hsession]) ?_ ?_ ?_ howned hretry hresult hafter).imp ?_
    · rw [Unshown, hbatch]
      exact hcleared.unshown
    · rw [hbatch]
      exact hcleared.isReset
    · rw [Untouched, hbatch]
      exact hcleared.untouched
    · rintro _ w - ⟨hturn', hanswered⟩
      exact ⟨hturn.trans hturn', hanswered⟩

end Session
end Warframe
end WfObserver
