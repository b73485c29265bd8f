import WfObserver.Warframe.Session.Ownership

/-!
# The acquisition of a poll follows the steps

What is read between the two reads of the login is `Sampled`: a topic without a sample has nothing to
do, and what a sample holds was read while its owners were the current ones. `Publishing` lists the
topics whose turn is still to come.
-/

namespace WfObserver
namespace Warframe
namespace Session

open ProviderSdk
open Stateful
open Service (PollBatch Platform Operation publicHealth)
open Wire (JsonPayload)
open Roots (AccountIdentity ProfileDataIdentity)

/-! ## Reads -/

section Sampled

variable {P : Duration → Prop} {now : Duration}

/-- What the reads of a poll gave for a topic: `Got` holds of a value. -/
inductive Sampled (P : Duration → Prop) (now : Duration) (t : TopicState) {α : Type} (Got : α → Prop) :
    Option (Except Retry α) → Prop
  | none (h : t.Settled now) : Sampled P now t Got none
  | error {retry : Retry} (hdemand : t.demanded = true) (h : P retry.retryAt) :
    Sampled P now t Got (some (.error retry))
  | ok {a : α} (hdemand : t.demanded = true) (h : Got a) : Sampled P now t Got (some (.ok a))

theorem Sampled.imp {t : TopicState} {α : Type} {Got Got' : α → Prop}
    {sample : Option (Except Retry α)} (h : Sampled P now t Got sample)
    (himp : ∀ a, Got a → Got' a) : Sampled P now t Got' sample := by
  cases h with
  | none h => exact .none h
  | error hdemand h => exact .error hdemand h
  | ok hdemand h => exact .ok hdemand (himp _ h)

/-- Something that was read at one of the moments. -/
def ReadIn {α : Type} (read : Nat → Except UnavailableReason α) (first last : Nat) (a : α) : Prop :=
  ∃ m, first ≤ m ∧ m < last ∧ read m = .ok a

theorem ReadIn.mono {α : Type} {read : Nat → Except UnavailableReason α} {first first' last last' : Nat}
    {a : α} (h : ReadIn read first last a) (hfirst : first' ≤ first) (hlast : last ≤ last') :
    ReadIn read first' last' a := by
  obtain ⟨m, hm, hm', hread⟩ := h
  exact ⟨m, hfirst.trans hm, hm'.trans_le hlast, hread⟩

/-- What was read with the owner of the profile data. -/
def DataRead {α : Type} (data : Option ProfileDataIdentity)
    (read : ProfileDataIdentity → Nat → Except UnavailableReason α) (first last : Nat) (a : α) : Prop :=
  ∃ owner, data = some owner ∧ ReadIn (read owner) first last a

theorem DataRead.mono {α : Type} {data : Option ProfileDataIdentity}
    {read : ProfileDataIdentity → Nat → Except UnavailableReason α} {first first' last last' : Nat}
    {a : α} (h : DataRead data read first last a) (hfirst : first' ≤ first) (hlast : last ≤ last') :
    DataRead data read first' last' a := by
  obtain ⟨owner, howner, hread⟩ := h
  exact ⟨owner, howner, hread.mono hfirst hlast⟩

end Sampled

variable [SerdeJson] {P : Duration → Prop} {now : Duration} {g : Game} {s : PollState}

theorem acquired_spec {topic : AccountTopic} {α : Type} {read : Nat → Except UnavailableReason α}
    {m : Nat} {t : TopicState} (hd : Deadlines P now s.session) (hdemand : t.demanded = true) :
    Sampled P now t (ReadIn read m (m + 1)) (some (acquired now topic (read m))) := by
  cases h : read m with
  | error reason => exact .error hdemand hd.sample
  | ok a => exact .ok hdemand ⟨m, le_rfl, Nat.lt_succ_self m, h⟩

theorem sampleData_spec (hd : Deadlines P now s.session) {data : Option ProfileDataIdentity}
    {topic : AccountTopic} (hnone : data = none → (s.session.topics topic).Settled now)
    (image : Executable) :
    Ensures (Noted P) (Noted P) s (sampleData g now image data topic)
      (fun r t => Sampled P now (s.session.topics topic)
        (DataRead data (g.sample topic image) s.moment t.moment) r) (fun _ _ => False) := by
  cases data with
  | none => exact .pure (.none (hnone rfl))
  | some owner =>
    refine session_bind ?_
    split
    · rename_i hdue
      refine (look_spec (noted_look s)).bind ?_
      rintro r t - ⟨rfl, rfl⟩
      refine .pure ?_
      exact (acquired_spec hd (TopicState.demanded_of_due hdue)).imp fun a h => ⟨owner, rfl, h⟩
    · rename_i hdue
      exact .pure (.none (TopicState.settled_of_not_due (Bool.eq_false_iff.mpr hdue)))

theorem samplePlayer_spec (hd : Deadlines P now s.session) (image : Executable)
    (login : AccountIdentity) :
    Ensures (Noted P) (Noted P) s (samplePlayer g now image login)
      (fun player t => ReadIn (g.readPlayer image login) s.moment t.moment player)
      (fun retry _ => P retry.retryAt) := by
  refine (check_spec hd _ image).bind fun _ t ht _ => ?_
  refine (look_spec (noted_look t)).bind ?_
  rintro r u - ⟨rfl, rfl⟩
  refine .lift (fun player h => ?_) fun retry h => ?_
  · cases hread : g.readPlayer image login t.moment with
    | error reason => rw [hread] at h; cases h
    | ok read =>
      rw [hread] at h
      cases h
      exact ⟨t.moment, ht.moment, Nat.lt_succ_self _, hread⟩
  · cases hread : g.readPlayer image login t.moment with
    | error reason => rw [hread] at h; cases h; exact hd.sample
    | ok read => rw [hread] at h; cases h

theorem readPlayer_spec (hd : Deadlines P now s.session) (image : Executable)
    (login : AccountIdentity) :
    Ensures (Noted P) (Noted P) s (readPlayer g now image login)
      (fun r t => Sampled P now (s.session.topics .player)
        (fun sample => ∃ player, ReadIn (g.readPlayer image login) s.moment t.moment player ∧
          sample = player.value) r.1) (fun _ _ => False) := by
  refine session_bind ?_
  dsimp only
  split
  · refine (samplePlayer_spec hd image login).attempt.bind fun r t _ hr => ?_
    refine .pure ?_
    dsimp only
    split
    · rename_i hdue
      have hdemand := TopicState.demanded_of_due hdue
      cases r with
      | error retry => exact .error hdemand hr
      | ok player => exact .ok hdemand ⟨player, hr, rfl⟩
    · rename_i hdue
      exact .none (TopicState.settled_of_not_due (Bool.eq_false_iff.mpr hdue))
  · rename_i hdue
    rw [Bool.or_eq_true, not_or] at hdue
    exact .pure (.none (TopicState.settled_of_not_due (Bool.eq_false_iff.mpr hdue.1)))

theorem readChat_spec (hd : Deadlines P now s.session) {data : Option ProfileDataIdentity}
    (hnone : data = none → (s.session.topics .chat).Settled now) (image : Executable) :
    Ensures (Noted P) (Noted P) s (readChat g now image data)
      (fun r t => Sampled P now (s.session.topics .chat)
        (fun history => s.session.pendingChat = none →
          DataRead data (fun owner => g.readChat image owner s.session.chatHistory) s.moment t.moment
            history) r) (fun _ _ => False) := by
  cases data with
  | none => exact .pure (.none (hnone rfl))
  | some owner =>
    refine session_bind ?_
    split
    · rename_i hdue
      have hdemand := TopicState.demanded_of_due hdue
      split
      · rename_i hpending
        refine .pure (.ok hdemand fun h => ?_)
        rw [h] at hpending
        cases hpending
      · refine (look_spec (noted_look s)).bind ?_
        rintro r t - ⟨rfl, rfl⟩
        exact .pure ((acquired_spec hd hdemand).imp fun a h _ => ⟨owner, rfl, h⟩)
    · rename_i hdue
      exact .pure (.none (TopicState.settled_of_not_due (Bool.eq_false_iff.mpr hdue)))

/-- The samples of one pass, read before `last`. -/
structure Reads (P : Duration → Prop) (now : Duration) (g : Game) (image : Executable)
    (login : AccountIdentity) (data : Option ProfileDataIdentity) (s : PollState) (last : Nat)
    (a : Acquired) : Prop where
  inventory : Sampled P now (s.session.topics .inventory)
    (DataRead data (g.sample .inventory image) s.moment last) a.inventory
  currencies : Sampled P now (s.session.topics .currencies)
    (DataRead data (g.sample .currencies image) s.moment last) a.currencies
  mastery : Sampled P now (s.session.topics .mastery)
    (DataRead data (g.sample .mastery image) s.moment last) a.mastery
  intrinsics : Sampled P now (s.session.topics .intrinsics)
    (DataRead data (g.sample .intrinsics image) s.moment last) a.intrinsics
  starChart : Sampled P now (s.session.topics .starChart)
    (DataRead data (g.sample .starChart image) s.moment last) a.starChart
  player : Sampled P now (s.session.topics .player)
    (fun sample => ∃ player, ReadIn (g.readPlayer image login) s.moment last player ∧
      sample = player.value) a.player
  chat : Sampled P now (s.session.topics .chat)
    (fun history => s.session.pendingChat = none →
      DataRead data (fun owner => g.readChat image owner s.session.chatHistory) s.moment last history)
    a.chat

/-- A read that comes after others of the same poll. -/
theorem sampleData_after (hd : Deadlines P now s.session) {data : Option ProfileDataIdentity}
    {topic : AccountTopic} (hnone : data = none → (s.session.topics topic).Settled now)
    (image : Executable) {t : PollState} (ht : Noted P s t) :
    Ensures (Noted P) (Noted P) t (sampleData g now image data topic)
      (fun r u => Noted P s u ∧ Sampled P now (s.session.topics topic)
        (DataRead data (g.sample topic image) s.moment u.moment) r) (fun _ _ => False) := by
  have htopics : t.session.topics = s.session.topics := by rw [ht.session]
  rw [← htopics] at hnone ⊢
  refine (sampleData_spec (ht.deadlines hd) hnone image).imp fun r u hu hr => ⟨ht.trans hu, ?_⟩
  exact hr.imp fun a h => h.mono ht.moment le_rfl

theorem readDue_spec (hd : Deadlines P now s.session) {data : Option ProfileDataIdentity}
    (hnone : data = none → ∀ topic ∈ dataTopics, (s.session.topics topic).Settled now)
    (image : Executable) (login : AccountIdentity) :
    Ensures (Noted P) (Noted P) s (readDue g now image login data)
      (fun a t => Reads P now g image login data s t.moment a) (fun _ _ => False) := by
  have hnone (topic : AccountTopic) (htopic : topic ∈ dataTopics) (h : data = none) :
      (s.session.topics topic).Settled now := hnone h topic htopic
  refine (sampleData_after hd (hnone .inventory (by decide)) image (.refl s)).bind ?_
  rintro inventory t₁ - ⟨h₁, hinventory⟩
  refine (sampleData_after hd (hnone .currencies (by decide)) image h₁).bind ?_
  rintro currencies t₂ hm₂ ⟨h₂, hcurrencies⟩
  refine (sampleData_after hd (hnone .mastery (by decide)) image h₂).bind ?_
  rintro mastery t₃ hm₃ ⟨h₃, hmastery⟩
  refine (sampleData_after hd (hnone .intrinsics (by decide)) image h₃).bind ?_
  rintro intrinsics t₄ hm₄ ⟨h₄, hintrinsics⟩
  refine (sampleData_after hd (hnone .starChart (by decide)) image h₄).bind ?_
  rintro starChart t₅ hm₅ ⟨h₅, hstarChart⟩
  refine (readPlayer_spec (h₅.deadlines hd) image login).bind ?_
  rintro ⟨player, localName⟩ t₆ hm₆ hplayer
  have h₆ := h₅.trans hm₆
  have hsession := h₆.session
  refine (readChat_spec (h₆.deadlines hd) (by rw [hsession]; exact hnone .chat (by decide)) image).bind
    ?_
  rintro chat t₇ hm₇ hchat
  have hlast₆ := hm₇.moment
  have hlast₅ := hm₆.moment.trans hlast₆
  have hlast₄ := hm₅.moment.trans hlast₅
  have hlast₃ := hm₄.moment.trans hlast₄
  have hlast₂ := hm₃.moment.trans hlast₃
  have hlast₁ := hm₂.moment.trans hlast₂
  refine .pure
    { inventory := hinventory.imp fun _ h => h.mono le_rfl hlast₁
      currencies := hcurrencies.imp fun _ h => h.mono le_rfl hlast₂
      mastery := hmastery.imp fun _ h => h.mono le_rfl hlast₃
      intrinsics := hintrinsics.imp fun _ h => h.mono le_rfl hlast₄
      starChart := hstarChart.imp fun _ h => h.mono le_rfl hlast₅
      player := ?_
      chat := ?_ }
  · rw [h₅.session] at hplayer
    refine hplayer.imp ?_
    rintro sample ⟨player, hread, hvalue⟩
    exact ⟨player, hread.mono h₅.moment hlast₆, hvalue⟩
  · rw [hsession] at hchat
    exact hchat.imp fun _ h hpending => (h hpending).mono h₆.moment le_rfl

end Session
end Warframe
end WfObserver
