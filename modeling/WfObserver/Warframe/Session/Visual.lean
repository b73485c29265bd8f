import WfObserver.Warframe.Session.State

/-!
# Polling the visual topics (`visual.rs`)

One sample of the screens serves both visual topics. The rewards of a relic are read between two reads
of their owner (login, world and user interface), and a reward is published only if both gave the same.
-/

namespace WfObserver
namespace Warframe
namespace Session

open ProviderSdk
open Stateful (attempt)
open Service (PollBatch Platform)

variable [SerdeJson]

/-- What a read failure means for a topic. -/
def retry (error : ReadError) (retryAt : Duration) (dependency : String) : Retry :=
  ⟨error.reason.withDependency dependency, retryAt⟩

def updateVisual {ε : Type} (f : VisualTopics → VisualTopics) : ExceptT ε (StateM PollState) Unit :=
  update fun s => { s with visual := f s.visual }

section Relic

variable (g : Game) (now : Duration)

/-- `validate_relic`. -/
def validateRelic (image : Executable) : Attempt Unit := do
  check g now .account image
  check g now .world image
  check g now (.topic relicRewardsCap) image

/-- `resolve_owner`. -/
def resolveOwner (image : Executable) (retryAt : Duration) :
    Attempt (Roots.AccountIdentity × WorldIdentity) := do
  match ← look (g.resolveAccount image) with
  | .ok (.present login) =>
    match ← look (g.resolveWorld image) with
    | .ok world => pure (login, world)
    | .error error => throw (retry error retryAt "world ownership")
  | .ok .absent => throw ⟨UnavailableReason.targetNotReady.withDependency "account identity", retryAt⟩
  | .error reason => throw ⟨reason.withDependency "account identity", retryAt⟩

/-- `recheck_screens`. -/
def recheckScreens (image : Executable) (sample : ScreenSample) (shown : Bool) (retryAt : Duration) :
    Attempt Unit :=
  if shown then do
    match ← look (g.readScreens image) with
    | .ok after =>
      if after ≠ sample then throw (retry (.changed "reward screen") retryAt screensCap.topic)
      else pure ()
    | .error error => throw (retry error retryAt screensCap.topic)
  else pure ()

/-- `read_choices`. -/
def readChoices (image : Executable) (owner : RelicOwner) (retryAt : Duration) :
    Attempt RelicRewardPicker := do
  itemPaths g now image
  match owner.world.rules with
  | none => throw (retry (.changed "reward world") retryAt "world ownership")
  | some rules =>
    match ← look (g.readRelicRewards image rules owner.login.accountId) with
    | .ok choices => pure (.shown choices)
    | .error error => throw (retry error retryAt relicRewardsCap.topic)

end Relic

/-- The retry of `relic_unavailable`, and the delay that the next failure starts from. Missing reward
items and changing owners are expected during transitions; other failures back off. -/
def relicBackoff (now : Duration) (retry : Retry) (delay : Duration) : Retry × Duration :=
  if retry.reason.failure = .targetNotReady then ({ retry with retryAt := later now relicInterval }, 0)
  else (retry, min (min (max delay relicInterval * 2) durationMax) readRetry)

variable [Platform] (now : Duration)

/-- `relic_unavailable`. -/
def relicUnavailable (retry : Retry) : Poll Unit := do
  let v := (← getSession).visual
  let (retry, relicReadDelay) := relicBackoff now retry v.relicReadDelay
  updateVisual fun v => { v with relicReadDelay }
  sink (·.health relicRewardsCap (.unavailable retry.reason))
  updateVisual fun v => { v with relicRetry := retry.retryAt }

/-- `clear_owner`. -/
def clearOwner (reset : Bool) : Poll Bool := do
  let v := (← getSession).visual
  updateVisual fun v => { v with owner := none }
  if v.owner.isSome && !reset then do
    sink (·.reset relicRewardsCap)
    pure true
  else pure reset

/-- `VisualTopics::unavailable`. -/
def visualUnavailable (retry : Retry) : Poll Unit := do
  let v := (← getSession).visual
  [(screensCap, v.screensDemanded), (relicRewardsCap, v.relicDemanded)].forM fun topic =>
    if topic.2 then sink (·.health topic.1 (.unavailable retry.reason)) else pure ()
  updateVisual fun v => { v with source := v.source.defer retry.retryAt }

/-- `publish`. -/
def publish (cap : CapabilityDescriptor) (sample : Sample) : Poll Unit := do
  let value ← toValue sample
  sink (·.snapshot cap value)

structure RelicAcquisition where
  screens : ScreenSample
  before : Except Retry (Roots.AccountIdentity × WorldIdentity)
  retryAt : Duration

/-- The owner before the rewards are read. -/
def RelicAcquisition.owner (acquisition : RelicAcquisition) : Except Retry RelicOwner :=
  match acquisition.before with
  | .error retry => .error retry
  | .ok (login, world) =>
    if world.client ≠ acquisition.screens.owner.client then
      .error (retry (.changed "reward client") acquisition.retryAt "world ownership")
    else .ok ⟨login, world, acquisition.screens.owner⟩

variable [Payloads] (g : Game)

/-- What `poll_relic` does with the owner before the read: the rewards, and the owner after it. -/
def readRelic (image : Executable) (acquisition : RelicAcquisition) (before : RelicOwner) :
    Poll (Except Retry RelicRewardPicker × Except Retry RelicOwner) := do
  let plan := (← getSession).visual.source.plan
  let sample := acquisition.screens
  let shown := plan.fits .relicRewards sample.screens
  let result ←
    attempt (if shown then readChoices g now image before acquisition.retryAt else pure .closed)
  -- The screens, the login and the world are checked around the complete acquisition.
  let after ← attempt do
    recheckScreens g image sample shown acquisition.retryAt
    let (login, world) ← resolveOwner g image acquisition.retryAt
    pure (⟨login, world, sample.owner⟩ : RelicOwner)
  pure (result, after)

/-- The end of `poll_relic`. -/
def publishRelic (acquisition : RelicAcquisition) (before : RelicOwner) (reset : Bool)
    (result : Except Retry RelicRewardPicker) (after : Except Retry RelicOwner) : Poll Unit := do
  if after.toOption = some before then
    match result with
    | .ok picker => do
      updateVisual fun v => { v with relicReadDelay := 0 }
      publish relicRewardsCap (Payloads.relicRewards ⟨before.login.accountId, picker⟩)
    | .error retry => relicUnavailable now retry
  else do
    discard (clearOwner reset)
    relicUnavailable now <| match after with
      | .error retry => retry
      | .ok _ =>
        ⟨UnavailableReason.targetNotReady.withDependency "relic ownership", acquisition.retryAt⟩

/-- Another owner has replaced the one whose rewards were published. -/
def replaceOwner (before : RelicOwner) : Poll Bool := do
  let v := (← getSession).visual
  if v.owner.any (· ≠ before) then clearOwner false else pure false

/-- `poll_relic`. -/
def pollRelic (image : Executable) (acquisition : RelicAcquisition) : Poll Unit := do
  match acquisition.owner with
  | .error retry => do
    discard (clearOwner false)
    relicUnavailable now retry
  | .ok before => do
    let reset ← replaceOwner before
    updateVisual fun v => { v with owner := some before }
    let (result, after) ← readRelic now g image acquisition before
    publishRelic now acquisition before reset result after

/-- The delay after the screens could not be read. -/
def screensDelay (error : ReadError) (v : VisualTopics) : Duration :=
  match error with
  | .notReady _ | .unstable _ => if v.relicDemanded then relicInterval else screensInterval
  | _ => readRetry

/-- Publishes the screens. -/
def publishScreens (sample : ScreenSample) : Poll Unit := do
  let v := (← getSession).visual
  if v.screensDemanded then do
    (if v.ui.any (· ≠ sample.owner) then sink (·.reset screensCap) else pure ())
    publish screensCap (Payloads.screens sample.screens)
  else pure ()

/-- The owner of the relic's rewards before the screens are read, if the rewards are due. -/
def relicBefore (image : Executable) (v : VisualTopics) (retryAt : Duration) :
    Poll (Option (Except Retry (Roots.AccountIdentity × WorldIdentity))) :=
  if v.relicDemanded && decide (v.relicRetry ≤ now) then
    some <$> attempt (do validateRelic g now image; resolveOwner g image retryAt)
  else pure none

/-- `VisualTopics::poll`. -/
def pollVisual (image : Executable) : Poll Unit := do
  match ← attempt (do check g now .client image; check g now (.topic screensCap) image) with
  | .error retry => visualUnavailable retry
  | .ok () => do
    let v := (← getSession).visual
    let retryAt := later now (max v.relicReadDelay relicInterval)
    -- The sample of the screens is between the reads of the relic's owner.
    let before ← relicBefore now g image v retryAt
    match ← look (g.readScreens image) with
    | .error error =>
      visualUnavailable (retry error (later now (screensDelay error v)) screensCap.topic)
    | .ok sample => do
      publishScreens sample
      updateVisual fun v => { v with ui := some sample.owner, source := v.source.sampled now }
      match before with
      | some before => pollRelic now g image ⟨sample, before, retryAt⟩
      | none => pure ()

end Session
end Warframe
end WfObserver
