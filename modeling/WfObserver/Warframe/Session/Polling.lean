import WfObserver.Warframe.Session.Visual

/-!
# Polling an observed game (`polling.rs`, `profile_data.rs`)

`acquire` reads everything that is due between two reads of the login, and the topics of the profile
data also between two reads of its owner. What was read is published only when both reads gave the
same; what a topic published for another owner is reset before.
-/

namespace WfObserver
namespace Warframe

open ProviderSdk
open Stateful (attempt)
open Service (PollBatch Platform)
open Roots (AccountIdentity ProfileDataIdentity)

/-! ## Demand -/

namespace WarframeSession

/-- The account part of a poll starts with its demand. -/
def demandTopics (demand : List CapabilityDescriptor) (now : Duration) (s : WarframeSession) :
    WarframeSession :=
  let s := { s with topics := fun topic => (s.topics topic).demand (demands demand topic.cap) now }
  let s := if (s.topics .chat).demanded then s else s.clearChat
  let s := if dataTopics.any fun topic => (s.topics topic).demanded then s
    else { s with profileData := none }
  if accountTopics.any fun topic => (s.topics topic).demanded then s else { s with login := none }

/-- One of the topics is due. -/
def anyDue (topics : List AccountTopic) (now : Duration) (s : WarframeSession) : Bool :=
  topics.any fun topic => (s.topics topic).due now

end WarframeSession

namespace Session

variable [SerdeJson]

/-! ## The end of a topic's turn -/

section Outputs

variable [Platform] (now : Duration)

/-- `unavailable`. -/
def unavailable (topic : AccountTopic) (retry : Retry) : Poll Unit := do
  sink (·.health topic.cap (.unavailable retry.reason))
  update (·.setNext topic retry.retryAt)

/-- `snapshot`. -/
def snapshot (topic : AccountTopic) (sample : Option (Except Retry Sample)) : Poll Unit := do
  match sample with
  | some (.ok sample) => do
    let value ← toValue sample
    sink (·.snapshot topic.cap value)
    update (·.setNext topic (later now sampleInterval))
  | some (.error retry) => unavailable topic retry
  | none => pure ()

/-- All demanded ones of the topics are unavailable. -/
def allUnavailable (topics : List AccountTopic) (retry : Retry) : Poll Unit :=
  topics.forM fun topic => do
    if ((← getSession).topics topic).demanded then unavailable topic retry else pure ()

/-- `account_unavailable`. -/
def accountUnavailable (retry : Retry) : Poll Unit := allUnavailable accountTopics retry

/-- `data_unavailable`. -/
def dataUnavailable (retry : Retry) : Poll Unit := allUnavailable dataTopics retry

end Outputs

/-! ## Resets -/

section Resets

variable (now : Duration)

/-- Resets the topic if it is demanded, and wakes it. -/
def resetTopic (topic : AccountTopic) : Poll Unit := do
  if ((← getSession).topics topic).demanded then do
    sink (·.reset topic.cap)
    update (·.setNext topic now)
  else pure ()

/-- Resets the demanded ones of the topics, and wakes them. -/
def resetTopics (topics : List AccountTopic) : Poll Unit := topics.forM (resetTopic now)

/-- `reset_account`. -/
def resetAccount : Poll Unit := do
  update fun s => { s with profileData := none }.clearChat
  resetTopics now accountTopics

/-- `reset_player`. -/
def resetPlayer : Poll Unit := resetTopics now [.player]

/-- `clear_login`. -/
def clearLogin : Poll Unit := do
  let login := (← getSession).login
  update fun s => { s with login := none }
  if login.isSome then resetAccount now else pure ()

/-- `clear_profile_data`. The result says whether the data topics are reset. -/
def clearProfileData (reset : Bool) : Poll Bool := do
  let data := (← getSession).profileData
  update fun s => { s with profileData := none }
  if data.isSome then do
    update (·.clearChat)
    if reset then pure true
    else do
      resetTopics now dataTopics
      pure true
  else pure reset

end Resets

/-! ## Validation -/

section Validation

variable [Platform] (g : Game) (now : Duration)

/-- The shared layouts that a topic depends on. -/
def validateShared (topic : AccountTopic) (image : Executable) : Attempt Unit :=
  match topic with
  | .inventory | .mastery => do
    itemPaths g now image
    inventoryOwner g now image
  | .intrinsics => check g now .profileCommit image
  | .starChart => do
    check g now .profileCommit image
    check g now .strings image
  | .currencies | .player | .chat => pure ()

/-- The checks of a topic's layouts. -/
def validateTopic (topic : AccountTopic) (image : Executable) : Attempt Unit := do
  validateShared g now topic image
  check g now (.topic topic.cap) image

/-- `validate_profile_data`. -/
def validateProfileData (image : Executable) : Poll Unit := do
  if (← getSession).anyDue dataTopics now then do
    match ← attempt (check g now .profileData image) with
    | .error retry => dataUnavailable retry
    | .ok () => pure ()
  else pure ()

open AccountTopic in
/-- The topics in the order of `validate_due`. -/
def validated : List AccountTopic :=
  [inventory, mastery, intrinsics, starChart, currencies, player, chat]

/-- `validate_due` for one topic. -/
def validateDueTopic (image : Executable) (topic : AccountTopic) : Poll Unit := do
  if ((← getSession).topics topic).due now then do
    match ← attempt (validateTopic g now topic image) with
    | .error retry => unavailable topic retry
    | .ok () => pure ()
  else pure ()

/-- `validate_due`. -/
def validateDue (image : Executable) : Poll Unit := do
  validateProfileData g now image
  validated.forM (validateDueTopic g now image)

end Validation

/-! ## Ownership -/

section Ownership

variable [Platform] (g : Game) (now : Duration)

/-- The retry of a missing dependency. -/
def missing (reason : UnavailableReason) (dependency : String) : Retry :=
  ⟨reason.withDependency dependency, later now sampleInterval⟩

/-- Another login has replaced the one whose data was published. -/
def replaceLogin (image : Executable) (reset : Bool) : Poll Unit :=
  if reset then do
    resetAccount now
    -- Reset also wakes previously deferred topics; their cached failures still apply.
    validateDue g now image
  else pure ()

/-- The end of `account_before` without a login. -/
def loginMissing (reason : UnavailableReason) : Poll Unit := do
  clearLogin now
  accountUnavailable (missing now reason "account identity")

/-- `account_before`. -/
def accountBefore (image : Executable) : Poll (Option (AccountIdentity × Bool)) := do
  match ← look (g.resolveAccount image) with
  | .ok (.present before) => do
    let reset := (← getSession).login.any (· ≠ before)
    replaceLogin g now image reset
    update fun s => { s with login := some before }
    pure (some (before, reset))
  | .ok .absent => do
    loginMissing now .targetNotReady
    pure none
  | .error reason => do
    loginMissing now reason
    pure none

/-- The resets of `account_unchanged`: those that the poll has not made yet. -/
def resetLost (reset dataReset : Bool) : Poll Unit :=
  if reset then pure ()
  else if dataReset then resetPlayer now
  else resetAccount now

/-- `account_unchanged`. -/
def accountUnchanged (image : Executable) (before : AccountIdentity) (reset dataReset : Bool) :
    Poll Bool := do
  let after ← look (g.resolveAccount image)
  if after.toOption = some (.present before) then pure true
  else do
    resetLost now reset dataReset
    update fun s => { s with login := none, profileData := none }.clearChat
    accountUnavailable (missing now .targetNotReady "account identity")
    pure false

/-- The end of `profile_data_before` without an owner. -/
def dataMissing (reason : UnavailableReason) (reset : Bool) : Poll Bool := do
  let reset ← clearProfileData now reset
  dataUnavailable (missing now reason "profile data")
  pure reset

/-- Another profile's data has replaced the one that was published. -/
def replaceData (image : Executable) (stale reset : Bool) : Poll Bool :=
  if stale then do
    let reset ← clearProfileData now reset
    -- Reset wakes consumers; cached layout failures still retain their deadlines.
    validateDue g now image
    pure reset
  else pure reset

/-- `profile_data_before`. The second result is the flag `reset`. -/
def profileDataBefore (image : Executable) (account : AccountIdentity) (reset : Bool) :
    Poll (Option ProfileDataIdentity × Bool) := do
  if (← getSession).anyDue dataTopics now then do
    match ← look (g.resolveProfileData image account) with
    | .ok (some owner) => do
      let stale := (← getSession).profileData.any (· ≠ owner)
      let reset ← replaceData g now image stale reset
      update fun s => { s with profileData := some owner }
      pure (some owner, reset)
    | .ok none => do
      let reset ← dataMissing now .targetNotReady reset
      pure (none, reset)
    | .error reason => do
      let reset ← dataMissing now reason reset
      pure (none, reset)
  else pure (none, reset)

end Ownership

/-! ## Acquisition -/

section Acquisition

variable (g : Game) (now : Duration)

/-- `read_retry`. -/
def acquired {α : Type} (topic : AccountTopic) (read : Except UnavailableReason α) : Except Retry α :=
  read.mapError fun reason => ⟨reason.withDependency topic.cap.topic, later now sampleInterval⟩

/-- The sample of a topic of the profile data, if it is due. -/
def sampleData (image : Executable) (data : Option ProfileDataIdentity) (topic : AccountTopic) :
    Poll (Option (Except Retry Sample)) := do
  match data with
  | some owner => do
    if ((← getSession).topics topic).due now then do
      let read ← look (g.sample topic image owner)
      pure (some (acquired now topic read))
    else pure none
  | none => pure none

/-- `sample_player`. -/
def samplePlayer (image : Executable) (login : AccountIdentity) : Attempt PlayerSample := do
  check g now (.topic AccountTopic.player.cap) image
  liftM (acquired now .player (← look (g.readPlayer image login)))

/-- What one pass over the due topics gave. -/
structure Acquired where
  inventory : Option (Except Retry Sample)
  currencies : Option (Except Retry Sample)
  mastery : Option (Except Retry Sample)
  intrinsics : Option (Except Retry Sample)
  starChart : Option (Except Retry Sample)
  player : Option (Except Retry Sample)
  chat : Option (Except Retry (Option History))
  localName : Option String

/-- The sample of the player. Chat needs its name: a failed read affects the health of the player only
when the player itself is due. -/
def readPlayer (image : Executable) (login : AccountIdentity) :
    Poll (Option (Except Retry Sample) × Option String) := do
  let s ← getSession
  let playerDue := (s.topics .player).due now
  let nameNeeded := (s.topics .chat).due now && s.pendingChat.isNone
  if playerDue || nameNeeded then do
    let player ← attempt (samplePlayer g now image login)
    pure (if playerDue then some (player.map (·.value)) else none,
      player.toOption.map (·.username))
  else pure (none, none)

/-- The entries of chat. A pending publication needs none. -/
def readChat (image : Executable) (data : Option ProfileDataIdentity) :
    Poll (Option (Except Retry (Option History))) := do
  match data with
  | some owner => do
    let s ← getSession
    if (s.topics .chat).due now then do
      if s.pendingChat.isSome then pure (some (.ok none))
      else do
        let read ← look (g.readChat image owner s.chatHistory)
        pure (some (acquired now .chat read))
    else pure none
  | none => pure none

/-- The reads of `acquire` between those of the owners. -/
def readDue (image : Executable) (login : AccountIdentity) (data : Option ProfileDataIdentity) :
    Poll Acquired := do
  let inventory ← sampleData g now image data .inventory
  let currencies ← sampleData g now image data .currencies
  let mastery ← sampleData g now image data .mastery
  let intrinsics ← sampleData g now image data .intrinsics
  let starChart ← sampleData g now image data .starChart
  let (player, localName) ← readPlayer g now image login
  let chat ← readChat g now image data
  pure { inventory, currencies, mastery, intrinsics, starChart, player, chat, localName }

/-- The owner of the profile data, read again. -/
def resolveDataAfter (image : Executable) (login : AccountIdentity) (data : Option ProfileDataIdentity) :
    Poll (Option (Except UnavailableReason (Option ProfileDataIdentity))) := do
  match data with
  | some _ => some <$> look (g.resolveProfileData image login)
  | none => pure none

end Acquisition

/-! ## Publication -/

section Publication

variable [Platform] [Payloads] (g : Game) (now : Duration)

/-- Publishes an event of chat. -/
def publishEvent (event : ChatEvent) : Poll Unit := do
  let payload ← toValue (Payloads.chatEvent event)
  sink (·.event AccountTopic.chat.cap payload)

/-- Publishes the pending batch of chat. -/
def publishPending (pending : PendingChat) : Poll Unit := do
  -- Retain both events and tentative positions before any sink can fail.
  update fun s => { s with pendingChat := some pending, chatStaged := true }
  sink (·.health AccountTopic.chat.cap .available)
  pending.events.forM publishEvent
  update (·.setNext .chat (later now (if pending.more then chatBacklogInterval else chatInterval)))

/-- `publish_chat`. -/
def publishChat (before : AccountIdentity) (chat : Option (Except Retry (Option History)))
    (localName : Option String) : Poll Unit := do
  match chat with
  | some (.ok history) => do
    let pending ← liftM ((← getSession).chatSession.batch before.accountId.text history localName)
    publishPending now pending
  | some (.error retry) => unavailable .chat retry
  | none => pure ()

/-- The snapshots of the profile data, and chat. -/
def publishData (before : AccountIdentity) (acquired : Acquired) : Poll Unit := do
  snapshot now .inventory acquired.inventory
  snapshot now .currencies acquired.currencies
  snapshot now .mastery acquired.mastery
  snapshot now .intrinsics acquired.intrinsics
  snapshot now .starChart acquired.starChart
  publishChat now before acquired.chat acquired.localName

/-- The end of `acquire`, when the login has not changed. -/
def publishAcquired (before : AccountIdentity) (data : Option ProfileDataIdentity) (dataReset : Bool)
    (acquired : Acquired)
    (dataAfter : Option (Except UnavailableReason (Option ProfileDataIdentity))) : Poll Unit := do
  snapshot now .player acquired.player
  if data.isSome && !decide (dataAfter = some (.ok data)) then
    discard (dataMissing now .targetNotReady dataReset)
  else publishData now before acquired

/-- `acquire`. -/
def acquire (image : Executable) : Poll Unit := do
  match ← accountBefore g now image with
  | none => pure ()
  | some (before, reset) => do
    let (data, dataReset) ← profileDataBefore g now image before reset
    let acquired ← readDue g now image before data
    let dataAfter ← resolveDataAfter g image before data
    -- Results stay local until all account-scoped reads have completed.
    if ← accountUnchanged g now image before reset dataReset then
      publishAcquired now before data dataReset acquired dataAfter
    else pure ()

/-! ## A poll -/

/-- The visual part of a poll. -/
def pollScreens : Poll Unit := do
  if (← getSession).visual.source.due now then do
    match ← attempt (identified g now) with
    | .ok image => do
      nameBuild image
      pollVisual now g image
    | .error retry => visualUnavailable retry
  else pure ()

/-- The checks that all account topics share. -/
def ready : Attempt Executable := do
  let image ← identified g now
  nameBuild image
  check g now .account image
  pure image

/-- The account part of a poll. -/
def pollAccount : Poll Unit := do
  if (← getSession).anyDue accountTopics now then do
    match ← attempt (ready g now) with
    | .ok image => do
      validateDue g now image
      if (← getSession).anyDue accountTopics now then acquire g now image else pure ()
    | .error retry => accountUnavailable retry
  else pure ()

/-- `poll`. -/
def poll (demand : List CapabilityDescriptor) : Poll PollResult := do
  update fun s => { s with visual := s.visual.demand demand now }
  pollScreens g now
  update (·.demandTopics demand now)
  -- Without demand for an account topic none is due.
  pollAccount g now
  pure ((← getSession).schedule now)

end Publication

end Session
end Warframe
end WfObserver
