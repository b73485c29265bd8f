import WfObserver.Warframe.Session.Acquisition

/-!
# What a poll publishes follows the steps

`Publishing` lists the topics whose turn is still to come: nothing is published for them, and they are as
they were when they were read. When the list is empty no demanded topic is due any more.
-/

namespace WfObserver
namespace Warframe
namespace Session

open ProviderSdk
open Stateful
open Service (PollBatch Platform Operation publicHealth)
open Wire (JsonPayload)
open Roots (AccountIdentity ProfileDataIdentity)

variable [SerdeJson] {P : Duration → Prop} {now : Duration} {g : Game} {s : PollState}

/-- A sample that belongs to the owners, or cannot be encoded. -/
def Publishable [Payloads] (g : Game) (login : AccountIdentity) (data : Option ProfileDataIdentity)
    (topic : AccountTopic) (sample : Sample) : Prop :=
  (∀ message, sample = .error message → ValueError g message) ∧
    ∀ value payload, sample = .ok value → JsonPayload.fromValue value = some payload →
      Owned g login data topic payload

theorem Owned.of_data {login : AccountIdentity} {data data' : Option ProfileDataIdentity}
    {topic : AccountTopic} {payload : JsonPayload} (h : Owned g login data topic payload)
    (hdata : ∀ owner, data = some owner → data' = some owner) : Owned g login data' topic payload := by
  cases h with
  | player hlogin hread hvalue hpayload => exact .player hlogin hread hvalue hpayload
  | data hlogin haround howner htopic hread hpayload =>
    exact .data hlogin haround (hdata _ howner) htopic hread hpayload

/-- The topics whose turn is still to come are as they were in `s₀`. -/
structure Publishing (P : Duration → Prop) (now : Duration) (login : AccountIdentity)
    (data : Option ProfileDataIdentity) (dataReset : Bool) (s₀ : PollState)
    (topics : List AccountTopic) (s : PollState) : Prop where
  ready : Ready P now topics s
  login : s.session.login = some login
  profileData : ∀ owner, data = some owner → s.session.profileData = some owner
  chat : s.session.chatHistory = s₀.session.chatHistory ∧
    s.session.chatCursor = s₀.session.chatCursor ∧ s.session.pendingChat = s₀.session.pendingChat
  same : ∀ topic ∈ topics, s.session.topics topic = s₀.session.topics topic
  settled : ∀ topic, topic ∉ topics → (s.session.topics topic).Settled now
  reset : Marked dataTopics dataReset s

/-- The turn of a topic: none of its operations is a reset, and its next poll is set. -/
theorem Publishing.turn {login : AccountIdentity} {data : Option ProfileDataIdentity}
    {dataReset : Bool} {s₀ : PollState} {topic : AccountTopic} {topics : List AccountTopic}
    (hs : Publishing P now login data dataReset s₀ (topic :: topics) s)
    (hnodup : (topic :: topics).Nodup) {ops : List Operation} {next : Duration} {batch : PollBatch}
    (hops : ∀ op ∈ ops, op.key = topic.key ∧ op.resetKey? = none)
    (hnext : now < next ∨ next = durationMax) (happended : Appended s.batch ops batch) :
    Publishing P now login data dataReset s₀ topics
      { s with session := s.session.setNext topic next, batch } where
  ready :=
    { manifest := happended.manifest.trans hs.ready.manifest
      unpublished := fun other ho op' hop hk => by
        rw [happended.ops] at hop
        rcases List.mem_append.mp hop with hop | hop
        · exact hs.ready.unpublished other (List.mem_cons_of_mem _ ho) op' hop hk
        · rw [(hops op' hop).1, AccountTopic.key_inj] at hk
          exact absurd (hk ▸ ho) (List.nodup_cons.mp hnodup).1
      deadlines := hs.ready.deadlines.of_checks rfl rfl }
  login := hs.login
  profileData := hs.profileData
  chat := hs.chat
  same other ho := by
    have hne : other ≠ topic := fun h => (List.nodup_cons.mp hnodup).1 (h ▸ ho)
    rw [WarframeSession.setNext_of_ne hne]
    exact hs.same other (List.mem_cons_of_mem _ ho)
  settled other ho := by
    by_cases h : other = topic
    · rw [h]
      intro _
      rwa [WarframeSession.setNext_self]
    · rw [WarframeSession.setNext_of_ne h]
      exact hs.settled other (by simp [h, ho])
  reset := by
    have hr := hs.reset
    cases dataReset with
    | true =>
      intro other ho hd
      rw [happended.ops]
      refine List.mem_append_left _ (hr other ho ?_)
      rwa [WarframeSession.setNext_demanded] at hd
    | false =>
      intro other ho hop
      rw [happended.ops] at hop
      rcases List.mem_append.mp hop with hop | hop
      · exact hr other ho hop
      · cases (hops _ hop).2

/-- A topic that has nothing to do has its turn without an operation. -/
theorem Publishing.skip {login : AccountIdentity} {data : Option ProfileDataIdentity}
    {dataReset : Bool} {s₀ : PollState} {topic : AccountTopic} {topics : List AccountTopic}
    (hs : Publishing P now login data dataReset s₀ (topic :: topics) s)
    (hsettled : (s.session.topics topic).Settled now) :
    Publishing P now login data dataReset s₀ topics s :=
  { hs with
    ready := hs.ready.mono fun _ => List.mem_cons_of_mem topic
    same := fun other ho => hs.same other (List.mem_cons_of_mem _ ho)
    settled := fun other ho => by
      by_cases h : other = topic
      · rwa [h]
      · exact hs.settled other (by simp [h, ho]) }

variable [Payloads]

theorem toValue_spec {R : PollState → PollState → Prop} [Std.Refl R] {sample : Sample}
    (h : ∀ message, sample = .error message → ValueError g message) :
    Ensures R (Failed R) s (toValue sample) (fun value t => sample = .ok value ∧ t = s) (refused g) := by
  cases sample with
  | ok value => exact .pure ⟨rfl, rfl⟩
  | error message => exact .throw (.value (h message rfl))

section Turns

variable [Platform] {login : AccountIdentity} {data : Option ProfileDataIdentity} {dataReset : Bool}
  {s₀ : PollState} {topic : AccountTopic} {topics : List AccountTopic}

theorem unavailable_turn (hs : Publishing P now login data dataReset s₀ (topic :: topics) s)
    (hnodup : (topic :: topics).Nodup) {retry : Retry}
    (hdemand : (s.session.topics topic).demanded = true) (hretry : P retry.retryAt) :
    Ensures (Steps P now g) (Failed (Steps P now g)) s (unavailable topic retry)
      (fun _ t => Publishing P now login data dataReset s₀ topics t) (refused g) := by
  have hunpublished := hs.ready.unpublished topic List.mem_cons_self
  rw [Ensures, unavailable, runFrom_bind]
  rcases sink_health (g := g) hs.ready.manifest topic.declared (.unavailable retry.reason) with
    ⟨op, batch, rfl, hrun, happended⟩ | ⟨e, batch, hrun, hdropped, hrefused⟩ <;> rw [hrun]
  · refine ⟨.single (.calm (.deferred hdemand hunpublished hretry happended)), ?_⟩
    exact hs.turn hnodup (by simp [Operation.key, Operation.resetKey?, AccountTopic.key])
      (hs.ready.deadlines.settled _ hretry) happended
  · exact ⟨⟨s, .refl, rfl, rfl, hdropped⟩, hrefused⟩

theorem snapshot_turn (hs : Publishing P now login data dataReset s₀ (topic :: topics) s)
    (hnodup : (topic :: topics).Nodup) (hchat : topic ≠ .chat)
    {sample : Option (Except Retry Sample)}
    (hsample : Sampled P now (s₀.session.topics topic) (Publishable g login data topic) sample) :
    Ensures (Steps P now g) (Failed (Steps P now g)) s (snapshot now topic sample)
      (fun _ t => Publishing P now login data dataReset s₀ topics t) (refused g) := by
  rw [← hs.same topic List.mem_cons_self] at hsample
  cases hsample with
  | none h => exact .pure (hs.skip h)
  | error hdemand hretry => exact unavailable_turn hs hnodup hdemand hretry
  | ok hdemand hpublishable =>
    obtain ⟨herror, howned⟩ := hpublishable
    refine (toValue_spec herror).bind ?_
    rintro value t - ⟨hvalue, rfl⟩
    have hunpublished := hs.ready.unpublished topic List.mem_cons_self
    rw [Ensures, runFrom_bind]
    rcases sink_snapshot (g := g) hs.ready.manifest topic.declared
        (AccountTopic.snapshots_isSome hchat) value with
      ⟨op, batch, ⟨payload, hpayload, rfl⟩, hrun, happended⟩ | ⟨e, batch, hrun, hdropped, hrefused⟩ <;>
      rw [hrun]
    · have howned := (howned value payload hvalue hpayload).of_data hs.profileData
      refine ⟨.single (.snapshot hdemand hunpublished hs.login howned hchat happended), ?_⟩
      exact hs.turn hnodup (by simp [Operation.key, Operation.resetKey?, AccountTopic.key])
        (lt_later (by simp [sampleInterval, seconds])) happended
    · exact ⟨⟨t, .refl, rfl, rfl, hdropped⟩, hrefused⟩

/-! ## Chat -/

/-- The events are staged one after the other, until one is refused. -/
theorem events_run (hm : s.batch.manifest = manifest) (events : List ChatEvent) :
    (∃ ops batch, EventOps events ops ∧ Appended s.batch ops batch ∧
      runFrom (events.forM publishEvent) s = (.ok (), { s with batch })) ∨
    ∃ done rest ops batch batch' e, events = done ++ rest ∧ EventOps done ops ∧
      Appended s.batch ops batch ∧ Dropped batch batch' ∧ Refused g e ∧
      runFrom (events.forM publishEvent) s = (.error e, { s with batch := batch' }) := by
  induction events generalizing s with
  | nil => exact .inl ⟨[], s.batch, .nil, .refl s.batch, rfl⟩
  | cons event events ih =>
    have hcons : runFrom ((event :: events).forM publishEvent) s
        = runFrom (publishEvent event >>= fun _ => events.forM publishEvent) s := rfl
    rw [hcons]
    cases hvalue : Payloads.chatEvent event with
    | error message =>
      refine .inr ⟨[], event :: events, [], s.batch, s.batch, .failed message, rfl, .nil, .refl _,
        ⟨rfl, rfl⟩, .value (.chatEvent hvalue), ?_⟩
      rw [runFrom_bind, publishEvent, hvalue]
      rfl
    | ok value =>
      have hevent : runFrom (publishEvent event) s
          = runFrom (sink (·.event AccountTopic.chat.cap value)) s := by
        rw [publishEvent, hvalue]
        exact runFrom_bind ..
      rw [runFrom_bind, hevent]
      rcases sink_event (g := g) hm AccountTopic.chat.declared rfl value with
        ⟨op, batch, ⟨payload, hpayload, rfl⟩, hrun, happended⟩ | ⟨e, batch, hrun, hdropped, hrefused⟩ <;>
        rw [hrun]
      · have hop : ∃ value payload', Payloads.chatEvent event = .ok value ∧
            JsonPayload.fromValue value = some payload' ∧
            Operation.event (key AccountTopic.chat.cap) payload
              = .event AccountTopic.chat.key payload' :=
          ⟨value, payload, hvalue, hpayload, rfl⟩
        rcases ih (s := { s with batch }) (happended.manifest.trans hm) with
          ⟨ops, batch', hops, happended', hrun'⟩ |
          ⟨done, rest, ops, batch', batch'', e, rfl, hops, happended', hdropped, hrefused, hrun'⟩
        · exact .inl ⟨_ :: ops, batch', .cons hop hops, happended.trans happended', hrun'⟩
        · exact .inr ⟨event :: done, rest, _ :: ops, batch', batch'', e, rfl, .cons hop hops,
            happended.trans happended', hdropped, hrefused, hrun'⟩
      · exact .inr ⟨[], event :: events, [], s.batch, batch, e, rfl, .nil, .refl _, hdropped, hrefused,
          rfl⟩

omit [Platform] in
theorem eventOps_key {events : List ChatEvent} {ops : List Operation} (h : EventOps events ops) :
    ∀ op ∈ ops, op.key = AccountTopic.chat.key ∧ op.resetKey? = none := by
  induction h with
  | nil => simp
  | cons hop _ ih =>
    obtain ⟨value, payload, -, -, rfl⟩ := hop
    intro op hmem
    rcases List.mem_cons.mp hmem with rfl | hmem
    · exact ⟨rfl, rfl⟩
    · exact ih op hmem

omit [SerdeJson] [Payloads] [Platform] in
theorem chat_delay (more : Bool) :
    now < later now (if more then chatBacklogInterval else chatInterval) ∨
      later now (if more then chatBacklogInterval else chatInterval) = durationMax := by
  refine lt_later ?_
  cases more <;> simp [chatBacklogInterval, chatInterval, milliseconds]

/-- The outputs of the pending batch: a refused one leaves a part of the events. -/
theorem pendingOutputs_spec (hs : Publishing P now login data dataReset s₀ [.chat] s)
    (hdemand : (s.session.topics .chat).demanded = true) {pending : PendingChat}
    (hpending : s.session.pendingChat = some pending) :
    Ensures (Steps P now g) (Failed (Steps P now g)) s
      (do
        sink (·.health AccountTopic.chat.cap .available)
        pending.events.forM publishEvent
        update (·.setNext .chat
          (later now (if pending.more then chatBacklogInterval else chatInterval))))
      (fun _ t => Publishing P now login data dataReset s₀ [] t) (refused g) := by
  have hunpublished := hs.ready.unpublished .chat List.mem_cons_self
  rw [Ensures, runFrom_bind]
  rcases sink_health (g := g) hs.ready.manifest AccountTopic.chat.declared .available with
    ⟨op, batch, rfl, hrun, happended⟩ | ⟨e, batch, hrun, hdropped, hrefused⟩ <;> rw [hrun]
  · dsimp only
    rw [runFrom_bind]
    rcases events_run (g := g) (s := { s with batch }) (happended.manifest.trans hs.ready.manifest)
        pending.events with
      ⟨ops, batch', hops, happended', hrun'⟩ |
      ⟨done, rest, ops, batch', batch'', e, hevents, hops, happended', hdropped, hrefused, hrun'⟩ <;>
      rw [hrun']
    · refine ⟨.single (.chatPublished hdemand hunpublished hpending hops
        (happended.trans happended')), ?_⟩
      refine hs.turn (List.nodup_singleton _) (fun op hop => ?_) (chat_delay pending.more)
        (happended.trans happended')
      rcases List.mem_cons.mp hop with rfl | hop
      · exact ⟨rfl, rfl⟩
      · exact eventOps_key hops op hop
    · exact ⟨⟨_, .single (.chatCut hdemand hunpublished hpending hevents hops
        (happended.trans happended')), rfl, rfl, hdropped⟩, hrefused⟩
  · exact ⟨⟨s, .refl, rfl, rfl, hdropped⟩, hrefused⟩

omit [Platform] in
theorem batch_error {session : ChatSession} {account : String} {history : Option History}
    {localName : Option String} {e : ProviderError}
    (h : session.batch account history localName = .error e) : Refused g e := by
  unfold ChatSession.batch at h
  split at h
  · cases h
  · split at h
    · cases h
      exact .chatBaseline
    · split at h
      · rename_i hprepare
        cases h
        exact .chatPrepare hprepare
      · cases h

/-- What chat has read, unless a publication is pending. -/
def ChatRead (g : Game) (login : AccountIdentity) (data : Option ProfileDataIdentity)
    (s : PollState) (history : Option History) : Prop :=
  s.session.pendingChat = none → ChatOwned g login data s.session.chatHistory history

theorem publishChat_spec (hs : Publishing P now login data dataReset s₀ [.chat] s)
    {chat : Option (Except Retry (Option History))} {localName : Option String}
    (hchat : Sampled P now (s₀.session.topics .chat) (ChatRead g login data s₀) chat) :
    Ensures (Steps P now g) (Failed (Steps P now g)) s (publishChat now login chat localName)
      (fun _ t => ∀ topic, (t.session.topics topic).Settled now) (refused g) := by
  rw [← hs.same .chat List.mem_cons_self] at hchat
  cases hchat with
  | none h => exact .pure fun topic => (hs.skip h).settled topic (by simp)
  | error hdemand hretry =>
    refine (unavailable_turn hs (List.nodup_singleton _) hdemand hretry).imp fun _ t _ h topic => ?_
    exact h.settled topic (by simp)
  | @ok history hdemand hread =>
    refine session_bind ?_
    refine Ensures.bind (Q := fun pending t => t = s ∧
        s.session.chatSession.batch login.accountId.text history localName = .ok pending)
      (.lift (fun pending h => ⟨rfl, h⟩) fun e h => batch_error h) ?_
    rintro pending t - ⟨rfl, hbatch⟩
    obtain ⟨hhistory, -, hpending⟩ := hs.chat
    have howned : t.session.pendingChat = none →
        ChatOwned g login t.session.profileData t.session.chatHistory history := by
      intro h
      rw [hpending] at h
      obtain ⟨image, owner, m, hlogin, hdata, howner, hread⟩ := hread h
      rw [hhistory]
      exact ⟨image, owner, m, hlogin, hdata, hs.profileData _ howner, hread⟩
    refine Ensures.bind (Q := fun _ u => u = { t with
        session := { t.session with pendingChat := some pending, chatStaged := true } })
      ⟨.single (.chatPrepared hs.login hdemand howned hbatch), rfl⟩ ?_
    rintro _ _ - rfl
    have hprepared : Publishing P now login data dataReset
        { t with session := { t.session with pendingChat := some pending, chatStaged := true } } [.chat]
        { t with session := { t.session with pendingChat := some pending, chatStaged := true } } :=
      { ready := ⟨hs.ready.manifest, hs.ready.unpublished, hs.ready.deadlines.of_checks rfl rfl⟩
        login := hs.login
        profileData := hs.profileData
        chat := ⟨rfl, rfl, rfl⟩
        same := fun _ _ => rfl
        settled := hs.settled
        reset := by
          have hreset := hs.reset
          cases dataReset <;> exact hreset }
    exact (pendingOutputs_spec hprepared hdemand rfl).imp fun _ u _ h topic => h.settled topic (by simp)

end Turns

end Session
end Warframe
end WfObserver
