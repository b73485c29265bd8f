import WfObserver.Warframe.Session.Account

/-!
# The owners of a poll follow the steps

`Acquiring` is what `acquire` knows between the first read of the login and the last one: the session has
that login, and the flags `reset` and `dataReset` say which topics the poll has reset already.
-/

namespace WfObserver
namespace Warframe
namespace Session

open ProviderSdk
open Stateful
open Service (PollBatch Platform Operation)
open Roots (AccountIdentity ProfileDataIdentity)

variable [SerdeJson] {P : Duration → Prop} {now : Duration} {g : Game} {s : PollState}

/-- The flag says whether the topics are reset. -/
def Marked (topics : List AccountTopic) (flag : Bool) (s : PollState) : Prop :=
  if flag then AllReset topics s else Fresh topics s

theorem Kept.marked {t : PollState} (h : Kept P now s t) {topics : List AccountTopic} {flag : Bool}
    (hs : Marked topics flag s) : Marked topics flag t := by
  cases flag with
  | true => exact h.allReset hs
  | false => exact fun topic ht => h.unreset (hs topic ht)

/-- The reset of other topics changes nothing for these ones. -/
theorem Resets.marked {topics others : List AccountTopic} {flag : Bool} {batch : PollBatch}
    {session : WarframeSession} (h : Resets topics s batch) (hs : Marked others flag s)
    (hdisjoint : ∀ topic ∈ others, topic ∉ topics)
    (hdemand : ∀ topic, (session.topics topic).demanded = (s.session.topics topic).demanded) :
    Marked others flag { s with session, batch } := by
  cases flag with
  | true =>
    intro topic ht hd
    rw [h.appended.ops]
    exact List.mem_append_left _ (hs topic ht ((hdemand topic).symm.trans hd))
  | false =>
    intro topic ht hop
    rw [h.appended.ops] at hop
    rcases List.mem_append.mp hop with hop | hop
    · exact hs topic ht hop
    · obtain ⟨other, ho, hk⟩ := List.mem_map.mp hop
      obtain rfl := AccountTopic.key_inj.mp (Operation.reset.inj hk)
      exact hdisjoint other ht (List.mem_filter.mp ho).1

theorem Marked.of_all {topics : List AccountTopic} {flag : Bool} (h : Marked accountTopics flag s) :
    Marked topics flag s := by
  cases flag with
  | true => exact fun topic _ => h topic (mem_accountTopics topic)
  | false => exact fun topic _ => h topic (mem_accountTopics topic)

theorem allReset_of_marked (hplayer : Marked [.player] true s) (hdata : Marked dataTopics true s) :
    AllReset accountTopics s := by
  intro topic _
  by_cases h : topic = .player
  · exact hplayer topic (by simp [h])
  · exact hdata topic (mem_dataTopics.mpr h)

/-- `acquire` has read the login `before`. -/
structure Acquiring (P : Duration → Prop) (now : Duration) (g : Game) (image : Executable)
    (before : AccountIdentity) (reset dataReset : Bool) (s : PollState) : Prop where
  ready : Ready P now accountTopics s
  login : s.session.login = some before
  read : ∃ m < s.moment, g.resolveAccount image m = .ok (.present before)
  player : Marked [.player] reset s
  data : Marked dataTopics dataReset s
  le : reset = true → dataReset = true

theorem Acquiring.of_kept {image : Executable} {before : AccountIdentity} {reset dataReset : Bool}
    {t : PollState} (hs : Acquiring P now g image before reset dataReset s) (h : Kept P now s t) :
    Acquiring P now g image before reset dataReset t where
  ready := hs.ready.of_kept h
  login := h.login.trans hs.login
  read := by
    obtain ⟨m, hm, hread⟩ := hs.read
    exact ⟨m, hm.trans_le h.moment, hread⟩
  player := h.marked hs.player
  data := h.marked hs.data
  le := hs.le

variable [Payloads]

/-! ## Before the reads -/

theorem resetAccount_spec (hs : Ready P now accountTopics s) (hf : Fresh accountTopics s) :
    Ensures (Steps P now g) (Failed (Steps P now g)) s (resetAccount now)
      (fun _ t => Ready P now accountTopics t ∧ t.session.login = s.session.login ∧
        AllReset accountTopics t) (refused g) := by
  obtain ⟨batch, hrun, hresets⟩ := resetAccount_run hs hf
  rw [Ensures, hrun]
  refine ⟨.single (@Step.accountReset _ _ _ _ _ _ s.session.login _ (.inr rfl) hresets),
    hresets.ready hs rfl rfl, rfl, hresets.allReset (s.session.wake_demanded accountTopics now)⟩

variable [Platform]

theorem replaceLogin_spec (hs : Ready P now accountTopics s) (hf : Fresh accountTopics s)
    (image : Executable) (reset : Bool) :
    Ensures (Steps P now g) (Failed (Steps P now g)) s (replaceLogin g now image reset)
      (fun _ t => Ready P now accountTopics t ∧ t.session.login = s.session.login ∧
        Marked accountTopics reset t) (refused g) := by
  cases reset with
  | false => exact .pure ⟨hs, rfl, hf⟩
  | true =>
    refine (resetAccount_spec hs hf).bind fun _ t _ ⟨hready, hlogin, hreset⟩ => ?_
    refine (Ensures.of_calm hready.deadlines (validateDue_spec hready image)).imp ?_
    rintro _ u - ⟨hkept, -⟩
    exact ⟨hready.of_kept hkept, hkept.login.trans hlogin, hkept.allReset hreset⟩

theorem accountBefore_spec (hs : Ready P now accountTopics s) (hf : Fresh accountTopics s)
    (image : Executable) :
    Ensures (Steps P now g) (Failed (Steps P now g)) s (accountBefore g now image)
      (fun r t => match r with
        | some (before, reset) => Acquiring P now g image before reset reset t
        | none => ∀ topic, (t.session.topics topic).Settled now) (refused g) := by
  have hlooked := noted_look (P := P) s
  refine (look_spec (.single (.calm (.noted hlooked)))).bind ?_
  rintro r t - ⟨hr, rfl⟩
  have hready := hs.of_calm (.single (.noted hlooked))
  rcases r with reason | ⟨_ | before⟩
  · exact (loginMissing_spec hready hf reason).bind fun _ t _ h => .pure h
  · exact (loginMissing_spec hready hf .targetNotReady).bind fun _ t _ h => .pure h
  · refine session_bind ?_
    generalize hreset : s.session.login.any (fun login => decide (login ≠ before)) = reset
    refine (replaceLogin_spec hready hf image reset).bind ?_
    rintro _ t ht ⟨hready, hlogin, hmarked⟩
    have howner : t.session.login = none ∨ t.session.login = some before ∨
        AllReset accountTopics t := by
      cases reset with
      | true => exact .inr (.inr hmarked)
      | false =>
        rw [hlogin]
        cases h : s.session.login with
        | none => exact .inl rfl
        | some login =>
          rw [h] at hreset
          exact .inr (.inl (by simpa using hreset))
    refine Ensures.bind (Q := fun _ u => u = { t with
      session := { t.session with login := some before } }) ⟨.single (.loginFound howner), rfl⟩ ?_
    rintro _ _ - rfl
    refine .pure ?_
    have hread : s.moment < t.moment := (Steps.grown hready.deadlines.settled ht).moment
    exact ⟨⟨hready.manifest, hready.unpublished, hready.deadlines.of_checks rfl rfl⟩, rfl,
      ⟨s.moment, hread, hr.symm⟩, hmarked.of_all, hmarked.of_all, id⟩

/-! ## The profile data -/

/-- What has happened to the profile data, and not to the player. -/
structure DataCleared (P : Duration → Prop) (now : Duration) (s : PollState) (dataReset : Bool)
    (t : PollState) : Prop where
  ready : ∀ topics, Ready P now topics s → Ready P now topics t
  login : t.session.login = s.session.login
  profileData : t.session.profileData = none
  player : ∀ flag, Marked [.player] flag s → Marked [.player] flag t
  settled : (s.session.topics .player).Settled now → (t.session.topics .player).Settled now
  data : Marked dataTopics dataReset t

omit [Payloads] [Platform] in
theorem DataCleared.of_kept {dataReset : Bool} {t u : PollState}
    (h : DataCleared P now s dataReset t) (hkept : Kept P now t u) : DataCleared P now s dataReset u where
  ready topics hs := (h.ready topics hs).of_kept hkept
  login := hkept.login.trans h.login
  profileData := hkept.profileData.trans h.profileData
  player flag hs := hkept.marked (h.player flag hs)
  settled hs := hkept.settled _ (h.settled hs)
  data := hkept.marked h.data

omit [Payloads] [Platform] in
/-- Profile data that is lost, before the data topics are reset. -/
theorem clearProfileData_run {owner : ProfileDataIdentity} (hs : Ready P now dataTopics s)
    (hf : Fresh dataTopics s) (hdata : s.session.profileData = some owner) :
    ∃ batch, runFrom (clearProfileData now false) s = (.ok true, { s with
        session := { s.session.wake dataTopics now with profileData := none }.clearChat
        batch }) ∧
      Resets dataTopics s batch := by
  obtain ⟨batch, hrun, happended⟩ := resetTopics_run
    (s := { s with session := { s.session with profileData := none }.clearChat }) now dataTopics
    (by decide) hs.manifest hf
  refine ⟨batch, ?_, hs.unpublished, hf, happended⟩
  simp only [clearProfileData, runFrom_bind, runFrom_getSession, runFrom_update, hdata,
    Option.isSome_some, if_true, Bool.false_eq_true, if_false, hrun, runFrom_pure]
  rfl

omit [Platform] in
theorem clearProfileData_spec {dataReset : Bool} (hs : Ready P now dataTopics s)
    (hm : Marked dataTopics dataReset s) :
    Ensures (Steps P now g) (Failed (Steps P now g)) s (clearProfileData now dataReset)
      (fun dataReset' t => DataCleared P now s dataReset' t ∧
        (dataReset = true → dataReset' = true)) (refused g) := by
  cases hdata : s.session.profileData with
  | none =>
    refine session_bind ?_
    rw [Ensures, runFrom_bind, hdata]
    rw [update_self (by rw [← hdata])]
    exact ⟨.refl, ⟨fun _ h => h, rfl, hdata, fun _ h => h, id, hm⟩, id⟩
  | some owner =>
    cases dataReset with
    | true =>
      refine session_bind ?_
      rw [hdata]
      refine ⟨.single (.dataLost hm), ⟨fun topics h => ?_, rfl, rfl, fun flag h => ?_, id, hm⟩, id⟩
      · exact ⟨h.manifest, h.unpublished, h.deadlines.of_checks rfl rfl⟩
      · cases flag <;> exact h
    | false =>
      obtain ⟨batch, hrun, hresets⟩ := clearProfileData_run hs hm hdata
      have hdemand := s.session.wake_demanded dataTopics now
      rw [Ensures, hrun]
      refine ⟨.single (.dataReset hresets), ⟨fun topics h => ?_, rfl, rfl, fun flag h => ?_,
        fun h => ?_, hresets.allReset hdemand⟩, fun _ => rfl⟩
      · exact hresets.ready h rfl rfl
      · exact hresets.marked h (by decide) hdemand
      · exact h

/-- The end of the data topics' turn without an owner. -/
theorem dataMissing_spec {dataReset : Bool} (hs : Ready P now dataTopics s)
    (hm : Marked dataTopics dataReset s) (reason : UnavailableReason) :
    Ensures (Steps P now g) (Failed (Steps P now g)) s (dataMissing now reason dataReset)
      (fun dataReset' t => DataCleared P now s dataReset' t ∧ (dataReset = true → dataReset' = true) ∧
        ∀ topic ∈ dataTopics, (t.session.topics topic).Settled now) (refused g) := by
  refine (clearProfileData_spec hs hm).bind fun dataReset' t _ ⟨hcleared, hle⟩ => ?_
  have hready := hcleared.ready _ hs
  have hretry := hready.deadlines.missing reason "profile data"
  refine (Ensures.of_calm hready.deadlines (allUnavailable_spec hready hretry)).bind ?_
  rintro _ u - ⟨hkept, hsettled⟩
  exact .pure ⟨hcleared.of_kept hkept, hle, hsettled⟩

/-- What `profile_data_before` knows of the owner that it has found. -/
def DataFound (g : Game) (now : Duration) (image : Executable) (before : AccountIdentity)
    (data : Option ProfileDataIdentity) (s : PollState) : Prop :=
  match data with
  | some owner => s.session.profileData = some owner ∧
    ∃ m < s.moment, g.resolveProfileData image before m = .ok (some owner)
  | none => ∀ topic ∈ dataTopics, (s.session.topics topic).Settled now

omit [Payloads] [Platform] in
theorem Acquiring.of_cleared {image : Executable} {before : AccountIdentity}
    {reset dataReset dataReset' : Bool} {t : PollState}
    (hs : Acquiring P now g image before reset dataReset s) (h : DataCleared P now s dataReset' t)
    (hmoment : s.moment ≤ t.moment) (hle : dataReset = true → dataReset' = true) :
    Acquiring P now g image before reset dataReset' t where
  ready := h.ready _ hs.ready
  login := h.login.trans hs.login
  read := by
    obtain ⟨m, hm, hread⟩ := hs.read
    exact ⟨m, hm.trans_le hmoment, hread⟩
  player := h.player _ hs.player
  data := h.data
  le := hle ∘ hs.le

theorem replaceData_spec {image : Executable} {before : AccountIdentity} {reset dataReset : Bool}
    (hs : Acquiring P now g image before reset dataReset s) (stale : Bool) :
    Ensures (Steps P now g) (Failed (Steps P now g)) s (replaceData g now image stale dataReset)
      (fun dataReset' t => Acquiring P now g image before reset dataReset' t ∧
        t.session.profileData = if stale then none else s.session.profileData) (refused g) := by
  cases stale with
  | false => exact .pure ⟨hs, rfl⟩
  | true =>
    have hdata : Ready P now dataTopics s := hs.ready.mono fun topic _ => mem_accountTopics topic
    refine (clearProfileData_spec hdata hs.data).bind fun dataReset' t ht ⟨hcleared, hle⟩ => ?_
    have hacquiring := hs.of_cleared hcleared (Steps.grown hs.ready.deadlines.settled ht).moment hle
    refine (Ensures.of_calm hacquiring.ready.deadlines
      (validateDue_spec hacquiring.ready image)).bind ?_
    rintro _ u - ⟨hkept, -⟩
    exact .pure ⟨hacquiring.of_kept hkept, hkept.profileData.trans hcleared.profileData⟩

theorem profileDataBefore_spec {image : Executable} {before : AccountIdentity}
    {reset dataReset : Bool} (hs : Acquiring P now g image before reset dataReset s) :
    Ensures (Steps P now g) (Failed (Steps P now g)) s
      (profileDataBefore g now image before dataReset)
      (fun r t => Acquiring P now g image before reset r.2 t ∧ DataFound g now image before r.1 t)
      (refused g) := by
  refine session_bind ?_
  split
  · have hlooked := noted_look (P := P) s
    refine (look_spec (.single (.calm (.noted hlooked)))).bind ?_
    rintro r t - ⟨hr, rfl⟩
    have hs := hs.of_kept (hs.ready.kept (.single (.noted hlooked)))
    have hdata := hs.ready.mono fun topic (_ : topic ∈ dataTopics) => mem_accountTopics topic
    rcases r with reason | _ | owner
    · refine (dataMissing_spec hdata hs.data reason).bind fun _ t ht ⟨hcleared, hle, hsettled⟩ => ?_
      exact .pure ⟨hs.of_cleared hcleared (Steps.grown hs.ready.deadlines.settled ht).moment hle,
        hsettled⟩
    · refine (dataMissing_spec hdata hs.data .targetNotReady).bind
        fun _ t ht ⟨hcleared, hle, hsettled⟩ => ?_
      exact .pure ⟨hs.of_cleared hcleared (Steps.grown hs.ready.deadlines.settled ht).moment hle,
        hsettled⟩
    · refine session_bind ?_
      generalize hstale : s.session.profileData.any (fun old => decide (old ≠ owner)) = stale
      refine (replaceData_spec hs stale).bind fun dataReset' t ht ⟨hacquiring, hprofile⟩ => ?_
      have howner : t.session.profileData = none ∨ t.session.profileData = some owner ∨
          AllReset dataTopics t := by
        cases stale with
        | true => exact .inl hprofile
        | false =>
          rw [hprofile]
          cases h : s.session.profileData with
          | none => exact .inl (by rw [if_neg (by decide)])
          | some old =>
            rw [h] at hstale
            exact .inr (.inl (by simpa using hstale))
      refine Ensures.bind (Q := fun _ u => u = { t with
        session := { t.session with profileData := some owner } })
        ⟨.single (.dataFound howner), rfl⟩ ?_
      rintro _ _ - rfl
      have hread : s.moment < t.moment := (Steps.grown hacquiring.ready.deadlines.settled ht).moment
      refine .pure ⟨⟨⟨hacquiring.ready.manifest, hacquiring.ready.unpublished,
        hacquiring.ready.deadlines.of_checks rfl rfl⟩, hacquiring.login, hacquiring.read, ?_, ?_,
        hacquiring.le⟩, rfl, s.moment, hread, hr.symm⟩
      · have h := hacquiring.player
        cases reset <;> exact h
      · have h := hacquiring.data
        cases dataReset' <;> exact h
  · rename_i hdue
    refine .pure ⟨hs, fun topic ht => TopicState.settled_of_not_due ?_⟩
    simp only [WarframeSession.anyDue, List.any_eq_true, not_exists, not_and] at hdue
    exact Bool.eq_false_iff.mpr (hdue topic ht)

/-! ## After the reads -/

omit [Platform] in
/-- The poll has reset all topics when it gives the login up. -/
theorem resetLost_spec {image : Executable} {before : AccountIdentity} {reset dataReset : Bool}
    (hs : Acquiring P now g image before reset dataReset s) :
    Ensures (Steps P now g) (Failed (Steps P now g)) s (resetLost now reset dataReset)
      (fun _ t => Ready P now accountTopics t ∧ AllReset accountTopics t) (refused g) := by
  have hplayer := hs.player
  have hdata := hs.data
  cases reset with
  | true =>
    obtain rfl := hs.le rfl
    exact .pure ⟨hs.ready, allReset_of_marked hplayer hdata⟩
  | false =>
    cases dataReset with
    | true =>
      obtain ⟨batch, hrun, happended⟩ := resetTopics_run now [.player] (by decide)
        hs.ready.manifest hplayer
      have hresets : Resets [.player] s batch :=
        ⟨fun topic _ => hs.ready.unpublished topic (mem_accountTopics topic), hplayer, happended⟩
      have hdemand := s.session.wake_demanded [.player] now
      rw [Ensures, show runFrom (resetLost now false true) s = _ from hrun]
      exact ⟨.single (.playerReset hresets), hresets.ready hs.ready rfl rfl, allReset_of_marked
        (hresets.allReset hdemand) (hresets.marked (show Marked dataTopics true s from hdata) (by decide) hdemand)⟩
    | false =>
      have hfresh : Fresh accountTopics s := fun topic _ => by
        by_cases h : topic = .player
        · exact hplayer topic (by simp [h])
        · exact hdata topic (mem_dataTopics.mpr h)
      exact (resetAccount_spec hs.ready hfresh).imp fun _ t _ h => ⟨h.1, h.2.2⟩

theorem accountUnchanged_spec {image : Executable} {before : AccountIdentity}
    {reset dataReset : Bool} (hs : Acquiring P now g image before reset dataReset s) :
    Ensures (Steps P now g) (Failed (Steps P now g)) s
      (accountUnchanged g now image before reset dataReset)
      (fun unchanged t => if unchanged then
          g.resolveAccount image s.moment = .ok (.present before) ∧ t = { s with moment := s.moment + 1 }
        else ∀ topic, (t.session.topics topic).Settled now) (refused g) := by
  have hlooked := noted_look (P := P) s
  refine (look_spec (.single (.calm (.noted hlooked)))).bind ?_
  rintro r t - ⟨hr, rfl⟩
  split
  · rename_i hsame
    refine .pure ⟨?_, rfl⟩
    rw [← hr]
    cases r with
    | error e => cases hsame
    | ok after => rw [Option.some.inj hsame]
  · have hs := hs.of_kept (hs.ready.kept (.single (.noted hlooked)))
    refine (resetLost_spec hs).bind fun _ t _ ⟨hready, hreset⟩ => ?_
    refine Ensures.bind (Q := fun _ u => u = { t with
      session := { t.session with login := none, profileData := none }.clearChat })
      ⟨.single (.loginLost hreset), rfl⟩ ?_
    rintro _ _ - rfl
    have hready : Ready P now accountTopics { t with
        session := { t.session with login := none, profileData := none }.clearChat } :=
      ⟨hready.manifest, hready.unpublished, hready.deadlines.of_checks rfl rfl⟩
    refine (Ensures.of_calm hready.deadlines (allUnavailable_spec hready
      (hready.deadlines.missing .targetNotReady "account identity"))).bind ?_
    rintro _ u - ⟨-, hsettled⟩
    exact .pure fun topic => hsettled topic (mem_accountTopics topic)

end Session
end Warframe
end WfObserver
