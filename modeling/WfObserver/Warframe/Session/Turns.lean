import WfObserver.Warframe.Session.Publishing

/-!
# The account part of a poll, as a whole

`acquire` and `pollAccount` follow the steps, and no demanded topic is due after them.
-/

namespace WfObserver
namespace Warframe
namespace Session

open ProviderSdk
open Stateful
open Service (PollBatch Platform Operation)
open Wire (JsonPayload)
open Roots (AccountIdentity ProfileDataIdentity)

variable [SerdeJson] [Payloads] {P : Duration → Prop} {now : Duration} {g : Game} {s : PollState}

theorem Ensures.of_noted {α : Type} {x : Poll α} {Q : α → PollState → Prop}
    (h : Ensures (Noted P) (Noted P) s x Q fun _ _ => False) :
    Ensures (Steps P now g) (Failed (Steps P now g)) s x (fun a t => Noted P s t ∧ Q a t) (refused g) :=
  h.mono (fun _ _ ht hq => ⟨.single (.calm (.noted ht)), ht, hq⟩) fun _ _ _ he => he.elim

section Reads

variable {image : Executable} {login : AccountIdentity} {data : Option ProfileDataIdentity}
  {last : Nat} {a : Acquired}

/-- The login was read before `first`, and at `last` or later. -/
def LoginRead (g : Game) (image : Executable) (login : AccountIdentity) (first last : Nat) : Prop :=
  (∃ m < first, g.resolveAccount image m = .ok (.present login)) ∧
    ∃ m ≥ last, g.resolveAccount image m = .ok (.present login)

omit [Payloads] in
theorem LoginRead.around {first last m : Nat} (h : LoginRead g image login first last)
    (hfirst : first ≤ m) (hlast : m < last) : LoginAround g image login m := by
  obtain ⟨⟨before, hbefore, hread⟩, after, hafter, hread'⟩ := h
  exact ⟨before, after, hbefore.trans_le hfirst, hlast.trans_le hafter, hread, hread'⟩

/-- So was the owner of the profile data. -/
def OwnerRead (g : Game) (image : Executable) (login : AccountIdentity)
    (data : Option ProfileDataIdentity) (first last : Nat) : Prop :=
  ∀ owner, data = some owner →
    (∃ m < first, g.resolveProfileData image login m = .ok (some owner)) ∧
      ∃ m ≥ last, g.resolveProfileData image login m = .ok (some owner)

omit [Payloads] in
theorem OwnerRead.around {first last m : Nat} (h : OwnerRead g image login data first last)
    {owner : ProfileDataIdentity} (howner : data = some owner) (hfirst : first ≤ m)
    (hlast : m < last) : DataAround g image login owner m := by
  obtain ⟨⟨before, hbefore, hread⟩, after, hafter, hread'⟩ := h owner howner
  exact ⟨before, after, hbefore.trans_le hfirst, hlast.trans_le hafter, hread, hread'⟩

theorem Reads.player_publishable (h : Reads P now g image login data s last a)
    (hlogin : LoginRead g image login s.moment last) :
    Sampled P now (s.session.topics .player) (Publishable g login data .player) a.player := by
  refine h.player.imp ?_
  rintro sample ⟨player, ⟨m, hfirst, hlast, hread⟩, rfl⟩
  refine ⟨fun message hvalue => .player hread hvalue, fun value payload hvalue hpayload => ?_⟩
  exact .player (hlogin.around hfirst hlast) hread hvalue hpayload

/-- The samples of the profile data. -/
theorem publishable_of_read {topic : AccountTopic} (htopic : topic ≠ .player)
    {sample : Option (Except Retry Sample)}
    (h : Sampled P now (s.session.topics topic)
      (DataRead data (g.sample topic image) s.moment last) sample)
    (hlogin : LoginRead g image login s.moment last)
    (howner : OwnerRead g image login data s.moment last) :
    Sampled P now (s.session.topics topic) (Publishable g login data topic) sample := by
  refine h.imp ?_
  rintro value ⟨owner, hdata, m, hfirst, hlast, hread⟩
  refine ⟨fun message hvalue => .sample (hvalue ▸ hread), fun value payload hvalue hpayload => ?_⟩
  exact .data (hlogin.around hfirst hlast) (howner.around hdata hfirst hlast) hdata htopic
    (hvalue ▸ hread) hpayload

omit [Payloads] in
theorem Reads.chat_publishable (h : Reads P now g image login data s last a)
    (hlogin : LoginRead g image login s.moment last)
    (howner : OwnerRead g image login data s.moment last) :
    Sampled P now (s.session.topics .chat) (ChatRead g login data s) a.chat := by
  refine h.chat.imp fun history hread hpending => ?_
  obtain ⟨owner, hdata, m, hfirst, hlast, hread⟩ := hread hpending
  exact ⟨image, owner, m, hlogin.around hfirst hlast, howner.around hdata hfirst hlast, hdata, hread⟩

end Reads

variable [Platform]

open AccountTopic in
theorem publishData_spec {image : Executable} {login : AccountIdentity}
    {data : Option ProfileDataIdentity} {dataReset : Bool} {s₀ : PollState} {last : Nat} {a : Acquired}
    (hs : Publishing P now login data dataReset s₀
      [inventory, currencies, mastery, intrinsics, starChart, chat] s)
    (h : Reads P now g image login data s₀ last a) (hlogin : LoginRead g image login s₀.moment last)
    (howner : OwnerRead g image login data s₀.moment last) :
    Ensures (Steps P now g) (Failed (Steps P now g)) s (publishData now login a)
      (fun _ t => ∀ topic, (t.session.topics topic).Settled now) (refused g) := by
  refine (snapshot_turn hs (by decide) (by decide)
    (publishable_of_read (by decide) h.inventory hlogin howner)).bind fun _ _ _ hs => ?_
  refine (snapshot_turn hs (by decide) (by decide)
    (publishable_of_read (by decide) h.currencies hlogin howner)).bind fun _ _ _ hs => ?_
  refine (snapshot_turn hs (by decide) (by decide)
    (publishable_of_read (by decide) h.mastery hlogin howner)).bind fun _ _ _ hs => ?_
  refine (snapshot_turn hs (by decide) (by decide)
    (publishable_of_read (by decide) h.intrinsics hlogin howner)).bind fun _ _ _ hs => ?_
  refine (snapshot_turn hs (by decide) (by decide)
    (publishable_of_read (by decide) h.starChart hlogin howner)).bind fun _ _ _ hs => ?_
  exact publishChat_spec hs (h.chat_publishable hlogin howner)

open AccountTopic in
theorem publishAcquired_spec {image : Executable} {login : AccountIdentity}
    {data : Option ProfileDataIdentity} {dataReset : Bool} {s₀ : PollState} {last : Nat} {a : Acquired}
    {dataAfter : Option (Except UnavailableReason (Option ProfileDataIdentity))}
    (hs : Publishing P now login data dataReset s₀
      [player, inventory, currencies, mastery, intrinsics, starChart, chat] s)
    (h : Reads P now g image login data s₀ last a) (hlogin : LoginRead g image login s₀.moment last)
    (hbefore : ∀ owner, data = some owner →
      ∃ m < s₀.moment, g.resolveProfileData image login m = .ok (some owner))
    (hafter : ∀ owner, data = some owner →
      ∃ m ≥ last, some (g.resolveProfileData image login m) = dataAfter) :
    Ensures (Steps P now g) (Failed (Steps P now g)) s
      (publishAcquired now login data dataReset a dataAfter)
      (fun _ t => ∀ topic, (t.session.topics topic).Settled now) (refused g) := by
  refine (snapshot_turn hs (by decide) (by decide) (h.player_publishable hlogin)).bind ?_
  rintro _ t - hs
  split
  · refine Ensures.map ?_
    have hready : Ready P now dataTopics t := hs.ready.mono (by decide)
    refine (dataMissing_spec hready hs.reset .targetNotReady).imp ?_
    rintro _ u - ⟨hcleared, -, hsettled⟩ topic
    by_cases htopic : topic = player
    · rw [htopic]
      exact hcleared.settled (hs.settled player (by decide))
    · exact hsettled topic (mem_dataTopics.mpr htopic)
  · rename_i hsame
    refine publishData_spec hs h hlogin fun owner howner => ⟨hbefore owner howner, ?_⟩
    obtain ⟨m, hm, hread⟩ := hafter owner howner
    refine ⟨m, hm, ?_⟩
    subst howner
    simp only [Option.isSome_some, Bool.true_and, Bool.not_eq_true', decide_eq_false_iff_not,
      not_not] at hsame
    exact Option.some.inj (hread.trans hsame)

omit [Payloads] [Platform] in
theorem resolveDataAfter_spec (image : Executable) (login : AccountIdentity)
    (data : Option ProfileDataIdentity) :
    Ensures (Noted P) (Noted P) s (resolveDataAfter g image login data)
      (fun r t => Noted P s t ∧ ∀ owner, data = some owner →
        ∃ m ≥ s.moment, some (g.resolveProfileData image login m) = r) (fun _ _ => False) := by
  cases data with
  | none => exact .pure ⟨.refl s, fun owner h => by cases h⟩
  | some owner =>
    refine Ensures.map ((look_spec (noted_look s)).imp ?_)
    rintro r t - ⟨rfl, rfl⟩
    exact ⟨noted_look s, fun _ _ => ⟨s.moment, le_rfl, rfl⟩⟩

open AccountTopic in
theorem acquire_spec (hs : Ready P now accountTopics s) (hf : Fresh accountTopics s)
    (image : Executable) :
    Ensures (Steps P now g) (Failed (Steps P now g)) s (acquire g now image)
      (fun _ t => ∀ topic, (t.session.topics topic).Settled now) (refused g) := by
  refine (accountBefore_spec hs hf image).bind ?_
  rintro (_ | ⟨before, reset⟩) t - hacquiring
  · exact .pure hacquiring
  refine (profileDataBefore_spec hacquiring).bind ?_
  rintro ⟨data, dataReset⟩ s₀ - ⟨hs₀, hdata⟩
  have hnone : data = none → ∀ topic ∈ dataTopics, (s₀.session.topics topic).Settled now := by
    rintro rfl
    exact hdata
  refine (Ensures.of_noted (readDue_spec hs₀.ready.deadlines hnone image before)).bind ?_
  rintro a s₁ - ⟨h₁, hreads⟩
  refine (Ensures.of_noted (resolveDataAfter_spec image before data)).bind ?_
  rintro dataAfter s₂ - ⟨-, h₂, hafter⟩
  have hnoted := h₁.trans h₂
  have hkept := hs₀.ready.kept (.single (.noted hnoted))
  have hs₂ := hs₀.of_kept hkept
  refine (accountUnchanged_spec hs₂).bind ?_
  rintro unchanged t - hunchanged
  cases unchanged with
  | false => exact .pure hunchanged
  | true =>
    obtain ⟨hread, rfl⟩ := hunchanged
    have hsession := hnoted.session
    have hpublishing : Publishing P now before data dataReset s₀
        [player, inventory, currencies, mastery, intrinsics, starChart, chat]
        { s₂ with moment := s₂.moment + 1 } :=
      { ready := ⟨hs₂.ready.manifest, fun topic _ => hs₂.ready.unpublished topic
          (mem_accountTopics topic), hs₂.ready.deadlines⟩
        login := hs₂.login
        profileData := by
          rintro owner rfl
          exact hkept.profileData.trans hdata.1
        chat := ⟨hkept.chat.1, hkept.chat.2.1, hkept.chat.2.2.1⟩
        same := fun topic _ => by rw [hsession]
        settled := fun topic h => absurd h (by cases topic <;> decide)
        reset := by
          have h := hs₂.data
          cases dataReset <;> exact h }
    refine publishAcquired_spec hpublishing hreads
      ⟨hs₀.read, s₂.moment, h₂.moment, hread⟩ ?_ hafter
    rintro owner rfl
    exact hdata.2

omit [Payloads] [Platform] in
theorem ready_spec (hd : Deadlines P now s.session) :
    Ensures (Noted P) (Noted P) s (ready g now) (fun _ _ => True) (fun retry _ => P retry.retryAt) := by
  refine (identified_spec hd).bind fun image t ht _ => ?_
  refine (nameBuild_spec image).bind fun _ u hu _ => ?_
  exact (check_spec ((ht.trans hu).deadlines hd) .account image).bind fun _ _ _ _ => .pure trivial

/-- The account part of a poll: after it no demanded topic is due. -/
theorem pollAccount_spec (hs : Ready P now accountTopics s) (hf : Fresh accountTopics s) :
    Ensures (Steps P now g) (Failed (Steps P now g)) s (pollAccount g now)
      (fun _ t => ∀ topic, (t.session.topics topic).Settled now) (refused g) := by
  have not_due (t : PollState) (h : ¬ t.session.anyDue accountTopics now = true)
      (topic : AccountTopic) : (t.session.topics topic).Settled now := by
    simp only [WarframeSession.anyDue, List.any_eq_true, not_exists, not_and] at h
    exact TopicState.settled_of_not_due (Bool.eq_false_iff.mpr (h topic (mem_accountTopics topic)))
  refine session_bind ?_
  split
  · refine (Ensures.of_calm hs.deadlines (attempt_spec (ready_spec hs.deadlines))).bind ?_
    rintro (retry | image) t - ⟨hkept, hr⟩
    · have hready := hs.of_kept hkept
      refine (Ensures.of_calm hready.deadlines (allUnavailable_spec hready hr)).imp ?_
      rintro _ u - ⟨-, hsettled⟩ topic
      exact hsettled topic (mem_accountTopics topic)
    · have hready := hs.of_kept hkept
      refine (Ensures.of_calm hready.deadlines (validateDue_spec hready image)).bind ?_
      rintro _ u - ⟨hkept', -⟩
      refine session_bind ?_
      split
      · exact acquire_spec (hready.of_kept hkept')
          (fun topic ht => hkept'.unreset (hkept.unreset (hf topic ht))) image
      · rename_i hdue
        exact .pure (not_due u hdue)
  · rename_i hdue
    exact .pure (not_due s hdue)

end Session
end Warframe
end WfObserver
