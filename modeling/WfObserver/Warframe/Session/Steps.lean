import Mathlib.Logic.Relation
import WfObserver.Warframe.Session.Sinks

/-!
# The steps of the account part of a poll

What a poll does to the session and to the batch, apart from the screens, is a sequence of `Step`s: a
topic is unavailable, a group of topics is reset, the owner is lost or found, something is published.
Each says what holds when it is made. `P` holds of the times at which a failure may be tried again.

`Noted` is what the reads and the checks do, `Calm` is what a poll does while the owners stay.
-/

namespace WfObserver
namespace Warframe

open ProviderSdk
open Service (PollBatch Platform Operation publicHealth publicReason)
open Wire (JsonPayload)
open Roots (AccountIdentity ProfileDataIdentity)

/-- The topic is not due at `now`, nor at the end of the clock. -/
def TopicState.Settled (now : Duration) (t : TopicState) : Prop :=
  t.demanded = true → now < t.nextPoll ∨ t.nextPoll = durationMax

theorem TopicState.settled_of_not_due {now : Duration} {t : TopicState} (h : t.due now = false) :
    t.Settled now := by
  intro hd
  rw [TopicState.due, hd, Bool.true_and, decide_eq_false_iff_not] at h
  exact .inl (not_le.mp h)

theorem TopicState.demanded_of_due {now : Duration} {t : TopicState} (h : t.due now = true) :
    t.demanded = true := by
  rw [TopicState.due, Bool.and_eq_true] at h
  exact h.1

/-- `later` is later. -/
theorem lt_later {now d : Duration} (hd : 0 < d) : now < later now d ∨ later now d = durationMax := by
  rw [later]
  rcases Nat.le_total (now + d) durationMax with h | h
  · rw [min_eq_left h]
    exact .inl (Nat.lt_add_of_pos_right hd)
  · exact .inr (min_eq_right h)

/-- A check of the session has failed, and its failure is kept. -/
inductive Cached (s : WarframeSession) (retry : Retry) : Prop
  | executable (h : s.executable = .failed retry)
  | layout {layout : Layout} (h : s.layouts layout = .failed retry)

namespace WarframeSession

@[simp] theorem setNext_self (topic : AccountTopic) (next : Duration) (s : WarframeSession) :
    (s.setNext topic next).topics topic = { s.topics topic with nextPoll := next } :=
  Function.update_self ..

theorem setNext_of_ne {topic other : AccountTopic} (h : other ≠ topic) (next : Duration)
    (s : WarframeSession) : (s.setNext topic next).topics other = s.topics other :=
  Function.update_of_ne h ..

@[simp] theorem setNext_demanded (topic other : AccountTopic) (next : Duration)
    (s : WarframeSession) :
    ((s.setNext topic next).topics other).demanded = (s.topics other).demanded := by
  by_cases h : other = topic
  · rw [h, setNext_self]
  · rw [setNext_of_ne h]

/-- The demanded ones of the topics are due at once. -/
def wake (topics : List AccountTopic) (now : Duration) (s : WarframeSession) : WarframeSession :=
  { s with
    topics := fun topic =>
      if topic ∈ topics ∧ (s.topics topic).demanded then { s.topics topic with nextPoll := now }
      else s.topics topic }

@[simp] theorem wake_demanded (topics : List AccountTopic) (now : Duration) (s : WarframeSession)
    (topic : AccountTopic) : ((s.wake topics now).topics topic).demanded = (s.topics topic).demanded := by
  rw [wake]
  dsimp only
  split <;> rfl

theorem wake_nil (now : Duration) (s : WarframeSession) : s.wake [] now = s := by simp [wake]

theorem wake_cons (topic : AccountTopic) (topics : List AccountTopic) (now : Duration)
    (s : WarframeSession) : (s.wake [topic] now).wake topics now = s.wake (topic :: topics) now := by
  simp only [wake]
  congr 1
  funext other
  by_cases ho : other = topic <;> by_cases hd : (s.topics other).demanded = true <;> simp_all

end WarframeSession

namespace Session

variable [SerdeJson]

/-- Nothing is published for the topic. -/
def Unpublished (s : PollState) (topic : AccountTopic) : Prop :=
  ∀ op ∈ s.batch.pending.ops, op.key = topic.key → published op = false

/-- The topic is not reset. -/
def Unreset (s : PollState) (topic : AccountTopic) : Prop :=
  .reset topic.key ∉ s.batch.pending.ops

/-- The demanded ones of the topics are reset. -/
def AllReset (topics : List AccountTopic) (s : PollState) : Prop :=
  ∀ topic ∈ topics, (s.session.topics topic).demanded = true →
    .reset topic.key ∈ s.batch.pending.ops

/-- No topic of them is reset. -/
def Fresh (topics : List AccountTopic) (s : PollState) : Prop := ∀ topic ∈ topics, Unreset s topic

/-- The demanded ones of the topics get their first reset, before anything is published for them. -/
structure Resets (topics : List AccountTopic) (s : PollState) (batch : PollBatch) : Prop where
  unpublished : ∀ topic ∈ topics, Unpublished s topic
  fresh : Fresh topics s
  appended : Appended s.batch ((s.session.demanded topics).map fun topic => .reset topic.key) batch

/-- The login was read before and after the moment. -/
def LoginAround (g : Game) (image : Executable) (login : AccountIdentity) (m : Nat) : Prop :=
  ∃ before after, before < m ∧ m < after ∧ g.resolveAccount image before = .ok (.present login) ∧
    g.resolveAccount image after = .ok (.present login)

/-- The profile data was read before and after the moment. -/
def DataAround (g : Game) (image : Executable) (login : AccountIdentity) (owner : ProfileDataIdentity)
    (m : Nat) : Prop :=
  ∃ before after, before < m ∧ m < after ∧ g.resolveProfileData image login before = .ok (some owner) ∧
    g.resolveProfileData image login after = .ok (some owner)

/-- The payload is what the game gave for the topic while its owners were those. -/
inductive Owned (g : Game) (login : AccountIdentity) (data : Option ProfileDataIdentity) :
    AccountTopic → JsonPayload → Prop
  | player {image m sample value payload} (hlogin : LoginAround g image login m)
    (hread : g.readPlayer image login m = .ok sample) (hvalue : sample.value = .ok value)
    (hpayload : JsonPayload.fromValue value = some payload) : Owned g login data .player payload
  | data {topic image owner m value payload} (hlogin : LoginAround g image login m)
    (hdata : DataAround g image login owner m) (howner : data = some owner)
    (htopic : topic ≠ .player) (hread : g.sample topic image owner m = .ok (.ok value))
    (hpayload : JsonPayload.fromValue value = some payload) : Owned g login data topic payload

/-- What chat read while its owners were those. -/
def ChatOwned (g : Game) (login : AccountIdentity) (data : Option ProfileDataIdentity)
    (past history : Option History) : Prop :=
  ∃ image owner m, LoginAround g image login m ∧ DataAround g image login owner m ∧
    data = some owner ∧ g.readChat image owner past m = .ok history

/-- The events are encoded as these operations. -/
def EventOps [Payloads] (events : List ChatEvent) (ops : List Operation) : Prop :=
  List.Forall₂ (fun event op => ∃ value payload, Payloads.chatEvent event = .ok value ∧
    JsonPayload.fromValue value = some payload ∧ op = .event AccountTopic.chat.key payload) events ops

variable (P : Duration → Prop) (now : Duration)

/-- A failure of the session, or one that a check of this poll makes, may be tried again at a time in
`P`. -/
structure Deadlines (s : WarframeSession) : Prop where
  later : ∀ d, 0 < d → d ≤ seconds 5 → P (later now d)
  settled : ∀ t, P t → now < t ∨ t = durationMax
  cached : ∀ retry, Cached s retry → now < retry.retryAt → P retry.retryAt

/-- Only checks and the clock differ. -/
structure Noted (s t : PollState) : Prop where
  session : t.session = { s.session with
    layouts := t.session.layouts
    executable := t.session.executable
    buildName := t.session.buildName }
  batch : t.batch = s.batch
  moment : s.moment ≤ t.moment
  cached : ∀ retry, Cached t.session retry → Cached s.session retry ∨ P retry.retryAt

/-- A step while the owners stay: something is noted, or a demanded topic is unavailable. -/
inductive CalmStep (s : PollState) : PollState → Prop
  | noted {t} (h : Noted P s t) : CalmStep s t
  | deferred {topic : AccountTopic} {retry : Retry} {batch : PollBatch}
    (hdemand : (s.session.topics topic).demanded = true) (hunpublished : Unpublished s topic)
    (hretry : P retry.retryAt)
    (happended : Appended s.batch
      [.health topic.key (publicHealth (.unavailable retry.reason))] batch) :
    CalmStep s { s with session := s.session.setNext topic retry.retryAt, batch }

abbrev Calm : PollState → PollState → Prop := Relation.ReflTransGen (CalmStep P)

/-- A step of the account part of a poll. -/
inductive Step [Payloads] (g : Game) (s : PollState) : PollState → Prop
  | calm {t} (h : CalmStep P s t) : Step g s t
  | accountReset {login : Option AccountIdentity} {batch : PollBatch}
    (hlogin : login = none ∨ login = s.session.login) (hresets : Resets accountTopics s batch) :
    Step g s { s with
      session := { s.session.wake accountTopics now with profileData := none, login }.clearChat
      batch }
  | dataReset {batch : PollBatch} (hresets : Resets dataTopics s batch) :
    Step g s { s with
      session := { s.session.wake dataTopics now with profileData := none }.clearChat
      batch }
  | playerReset {batch : PollBatch} (hresets : Resets [.player] s batch) :
    Step g s { s with session := s.session.wake [.player] now, batch }
  | loginLost (hreset : AllReset accountTopics s) :
    Step g s { s with session := { s.session with login := none, profileData := none }.clearChat }
  | dataLost (hreset : AllReset dataTopics s) :
    Step g s { s with session := { s.session with profileData := none }.clearChat }
  | loginFound {login : AccountIdentity} (howner : s.session.login = none ∨
      s.session.login = some login ∨ AllReset accountTopics s) :
    Step g s { s with session := { s.session with login := some login } }
  | dataFound {owner : ProfileDataIdentity} (howner : s.session.profileData = none ∨
      s.session.profileData = some owner ∨ AllReset dataTopics s) :
    Step g s { s with session := { s.session with profileData := some owner } }
  | snapshot {topic : AccountTopic} {login : AccountIdentity} {payload : JsonPayload}
    {batch : PollBatch} (hdemand : (s.session.topics topic).demanded = true)
    (hunpublished : Unpublished s topic) (hlogin : s.session.login = some login)
    (howned : Owned g login s.session.profileData topic payload) (htopic : topic ≠ .chat)
    (happended : Appended s.batch [.snapshot topic.key payload] batch) :
    Step g s { s with session := s.session.setNext topic (later now sampleInterval), batch }
  | chatPrepared {login : AccountIdentity} {history : Option History} {localName : Option String}
    {pending : PendingChat} (hlogin : s.session.login = some login)
    (hdemand : (s.session.topics .chat).demanded = true)
    (howned : s.session.pendingChat = none →
      ChatOwned g login s.session.profileData s.session.chatHistory history)
    (hbatch : s.session.chatSession.batch login.accountId.text history localName = .ok pending) :
    Step g s { s with session := { s.session with pendingChat := some pending, chatStaged := true } }
  | chatCut {pending : PendingChat} {events rest : List ChatEvent} {ops : List Operation}
    {batch : PollBatch} (hdemand : (s.session.topics .chat).demanded = true)
    (hunpublished : Unpublished s .chat) (hpending : s.session.pendingChat = some pending)
    (hevents : pending.events = events ++ rest) (hops : EventOps events ops)
    (happended : Appended s.batch (.health AccountTopic.chat.key .available :: ops) batch) :
    Step g s { s with batch }
  | chatPublished {pending : PendingChat} {ops : List Operation} {batch : PollBatch}
    (hdemand : (s.session.topics .chat).demanded = true) (hunpublished : Unpublished s .chat)
    (hpending : s.session.pendingChat = some pending) (hops : EventOps pending.events ops)
    (happended : Appended s.batch (.health AccountTopic.chat.key .available :: ops) batch) :
    Step g s { s with
      session := s.session.setNext .chat
        (later now (if pending.more then chatBacklogInterval else chatInterval))
      batch }

abbrev Steps [Payloads] (g : Game) : PollState → PollState → Prop :=
  Relation.ReflTransGen (Step P now g)

/-- Some steps, and a sink that has failed after them. -/
def Failed (R : PollState → PollState → Prop) (s t : PollState) : Prop :=
  ∃ u, R s u ∧ t.session = u.session ∧ t.moment = u.moment ∧ Dropped u.batch t.batch

/-! ## What calm steps keep -/

variable {P} {now}

theorem Noted.refl (s : PollState) : Noted P s s := ⟨rfl, rfl, le_rfl, fun _ h => .inl h⟩

theorem Noted.trans {s t u : PollState} (h : Noted P s t) (h' : Noted P t u) : Noted P s u where
  session := by rw [h'.session, h.session]
  batch := h'.batch.trans h.batch
  moment := h.moment.trans h'.moment
  cached retry hr := (h'.cached retry hr).elim (h.cached retry) .inr

instance : Std.Refl (Noted P) := ⟨.refl⟩

instance : IsTrans PollState (Noted P) := ⟨fun _ _ _ h h' => h.trans h'⟩

/-- The owners, the demand and what is published are the same, and nothing gets due. -/
structure Kept (P : Duration → Prop) (now : Duration) (s t : PollState) : Prop where
  session : t.session = { s.session with
    layouts := t.session.layouts
    executable := t.session.executable
    buildName := t.session.buildName
    topics := t.session.topics }
  demanded : ∀ topic, (t.session.topics topic).demanded = (s.session.topics topic).demanded
  settled : ∀ topic, (s.session.topics topic).Settled now → (t.session.topics topic).Settled now
  manifest : t.batch.manifest = s.batch.manifest
  failed : t.batch.pending.failed = s.batch.pending.failed
  ops : ∃ ops, t.batch.pending.ops = s.batch.pending.ops ++ ops ∧
    ∀ op ∈ ops, ∃ (topic : AccountTopic) (reason : _), op = .health topic.key (.unavailable reason)
  moment : s.moment ≤ t.moment
  cached : ∀ retry, Cached t.session retry → Cached s.session retry ∨ P retry.retryAt

theorem Kept.refl (s : PollState) : Kept P now s s where
  session := rfl
  demanded _ := rfl
  settled _ h := h
  manifest := rfl
  failed := rfl
  ops := ⟨[], by simp, by simp⟩
  moment := le_rfl
  cached _ h := .inl h

theorem Kept.trans {s t u : PollState} (h : Kept P now s t) (h' : Kept P now t u) :
    Kept P now s u where
  session := by rw [h'.session, h.session]
  demanded topic := (h'.demanded topic).trans (h.demanded topic)
  settled topic hs := h'.settled topic (h.settled topic hs)
  manifest := h'.manifest.trans h.manifest
  failed := h'.failed.trans h.failed
  ops := by
    obtain ⟨xs, hxs, hx⟩ := h.ops
    obtain ⟨ys, hys, hy⟩ := h'.ops
    refine ⟨xs ++ ys, by rw [hys, hxs, List.append_assoc], fun op hop => ?_⟩
    exact (List.mem_append.mp hop).elim (hx op) (hy op)
  moment := h.moment.trans h'.moment
  cached retry hr := (h'.cached retry hr).elim (h.cached retry) .inr

theorem CalmStep.kept {s t : PollState} (hP : ∀ t, P t → now < t ∨ t = durationMax)
    (h : CalmStep P s t) : Kept P now s t := by
  cases h with
  | noted h =>
    have hsession := h.session
    exact
      { session := by rw [hsession]
        demanded := fun topic => by rw [hsession]
        settled := fun topic => by rw [hsession]; exact id
        manifest := by rw [h.batch]
        failed := by rw [h.batch]
        ops := ⟨[], by rw [h.batch]; simp, by simp⟩
        moment := h.moment
        cached := h.cached }
  | @deferred topic retry batch hdemand hunpublished hretry happended =>
    refine ⟨rfl, fun other => s.session.setNext_demanded .., fun other hs => ?_, happended.manifest,
      happended.failed, ⟨_, happended.ops, ?_⟩, le_rfl, fun retry hr => .inl ?_⟩
    · by_cases ho : other = topic
      · rw [ho]
        intro _
        rw [WarframeSession.setNext_self]
        exact hP _ hretry
      · rwa [WarframeSession.setNext_of_ne ho]
    · intro op hop
      exact ⟨topic, _, List.mem_singleton.mp hop⟩
    · cases hr with
      | executable h => exact .executable h
      | layout h => exact .layout h

theorem Calm.kept {s t : PollState} (hP : ∀ t, P t → now < t ∨ t = durationMax) (h : Calm P s t) :
    Kept P now s t := by
  induction h with
  | refl => exact .refl s
  | tail _ h ih => exact ih.trans (h.kept hP)

namespace Kept

variable {s t : PollState} (h : Kept P now s t)
include h

theorem login : t.session.login = s.session.login := by rw [h.session]

theorem profileData : t.session.profileData = s.session.profileData := by rw [h.session]

theorem chat : t.session.chatHistory = s.session.chatHistory ∧
    t.session.chatCursor = s.session.chatCursor ∧ t.session.pendingChat = s.session.pendingChat ∧
    t.session.chatStaged = s.session.chatStaged := by
  rw [h.session]
  exact ⟨rfl, rfl, rfl, rfl⟩

theorem unpublished {topic : AccountTopic} (hs : Unpublished s topic) : Unpublished t topic := by
  obtain ⟨ops, hops, hhealth⟩ := h.ops
  intro op hop hk
  rw [hops] at hop
  rcases List.mem_append.mp hop with hop | hop
  · exact hs op hop hk
  · obtain ⟨_, _, rfl⟩ := hhealth op hop
    rfl

theorem unreset {topic : AccountTopic} (hs : Unreset s topic) : Unreset t topic := by
  obtain ⟨ops, hops, hhealth⟩ := h.ops
  intro hop
  rw [hops] at hop
  rcases List.mem_append.mp hop with hop | hop
  · exact hs hop
  · obtain ⟨_, _, hop⟩ := hhealth _ hop
    cases hop

theorem allReset {topics : List AccountTopic} (hs : AllReset topics s) : AllReset topics t := by
  obtain ⟨ops, hops, -⟩ := h.ops
  intro topic ht hd
  rw [hops]
  exact List.mem_append_left _ (hs topic ht (by rwa [← h.demanded]))

theorem deadlines (hs : Deadlines P now s.session) : Deadlines P now t.session where
  later := hs.later
  settled := hs.settled
  cached retry hr hn := (h.cached retry hr).elim (fun hr => hs.cached retry hr hn) id

end Kept

/-! ## What every step keeps -/

/-- The demand is the same, the batch has only grown, and no call of it has failed. -/
structure Grown (s t : PollState) : Prop where
  demanded : ∀ topic, (t.session.topics topic).demanded = (s.session.topics topic).demanded
  visual : t.session.visual = s.session.visual
  manifest : t.batch.manifest = s.batch.manifest
  failed : t.batch.pending.failed = s.batch.pending.failed
  ops : s.batch.pending.ops <+: t.batch.pending.ops
  moment : s.moment ≤ t.moment

theorem Grown.refl (s : PollState) : Grown s s :=
  ⟨fun _ => rfl, rfl, rfl, rfl, List.prefix_rfl, le_rfl⟩

theorem Grown.trans {s t u : PollState} (h : Grown s t) (h' : Grown t u) : Grown s u where
  demanded topic := (h'.demanded topic).trans (h.demanded topic)
  visual := h'.visual.trans h.visual
  manifest := h'.manifest.trans h.manifest
  failed := h'.failed.trans h.failed
  ops := h.ops.trans h'.ops
  moment := h.moment.trans h'.moment

/-- The steps that append operations to the batch. -/
theorem Appended.grown {s : PollState} {ops : List Operation} {batch : PollBatch}
    (h : Appended s.batch ops batch) {session : WarframeSession}
    (hdemanded : ∀ topic, (session.topics topic).demanded = (s.session.topics topic).demanded)
    (hvisual : session.visual = s.session.visual) : Grown s { s with session, batch } :=
  ⟨hdemanded, hvisual, h.manifest, h.failed, h.ops ▸ List.prefix_append .., le_rfl⟩

variable [Payloads] {g : Game}

theorem Step.grown {s t : PollState} (hP : ∀ t, P t → now < t ∨ t = durationMax)
    (h : Step P now g s t) : Grown s t := by
  cases h with
  | calm h =>
    have hkept := h.kept hP
    obtain ⟨ops, hops, -⟩ := hkept.ops
    exact ⟨hkept.demanded, by rw [hkept.session], hkept.manifest, hkept.failed,
      hops ▸ List.prefix_append .., hkept.moment⟩
  | accountReset _ hresets =>
    exact hresets.appended.grown (s.session.wake_demanded accountTopics now) rfl
  | dataReset hresets => exact hresets.appended.grown (s.session.wake_demanded dataTopics now) rfl
  | playerReset hresets => exact hresets.appended.grown (s.session.wake_demanded [.player] now) rfl
  | loginLost | dataLost | loginFound | dataFound | chatPrepared =>
    exact ⟨fun _ => rfl, rfl, rfl, rfl, List.prefix_rfl, le_rfl⟩
  | snapshot _ _ _ _ _ happended | chatPublished _ _ _ _ happended =>
    exact happended.grown (fun _ => s.session.setNext_demanded ..) rfl
  | chatCut _ _ _ _ _ happended => exact happended.grown (fun _ => rfl) rfl

theorem Steps.grown {s t : PollState} (hP : ∀ t, P t → now < t ∨ t = durationMax)
    (h : Steps P now g s t) : Grown s t := by
  induction h with
  | refl => exact .refl s
  | tail _ h ih => exact ih.trans (h.grown hP)

end Session
end Warframe
end WfObserver
