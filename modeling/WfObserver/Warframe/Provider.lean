import WfObserver.Host.Session
import WfObserver.Service.TestSupport
import WfObserver.Warframe.Session.Polling

/-!
# The Warframe provider (`provider.rs`)

`WarframeSession` as the host sees it. A poll writes to the batch that the host gives it: every
computation of a poll does (`Stages`).
-/

namespace WfObserver
namespace Warframe

open ProviderSdk
open Stateful
open Service (PollBatch Platform)

section Staging

variable [SerdeJson]

/-- The computation writes to the batch that it is given. -/
class Stages {ε α : Type} (x : ExceptT ε (StateM PollState) α) : Prop where
  manifest : ∀ s, (runFrom x s).2.batch.manifest = s.batch.manifest

namespace Stages

variable {ε ε' α β : Type} {x : ExceptT ε (StateM PollState) α}

instance pure (a : α) : Stages (Pure.pure a : ExceptT ε (StateM PollState) α) := ⟨fun _ => rfl⟩

instance throw (e : ε) : Stages (MonadExcept.throw e : ExceptT ε (StateM PollState) α) :=
  ⟨fun _ => rfl⟩

instance lift (y : Except ε α) : Stages (liftM y : ExceptT ε (StateM PollState) α) := ⟨fun _ => rfl⟩

theorem bind {f : α → ExceptT ε (StateM PollState) β} (hx : Stages x) (hf : ∀ a, Stages (f a)) :
    Stages (x >>= f) where
  manifest s := by
    have hs := hx.manifest s
    rw [runFrom_bind]
    rcases h : runFrom x s with ⟨e | a, t⟩ <;> rw [h] at hs
    · exact hs
    · exact ((hf a).manifest t).trans hs

instance [hx : Stages x] {f : α → ExceptT ε (StateM PollState) β} [hf : ∀ a, Stages (f a)] :
    Stages (x >>= f) := hx.bind hf

instance map {f : α → β} [Stages x] : Stages (f <$> x) :=
  inferInstanceAs (Stages (x >>= fun a => Pure.pure (f a)))

instance discard [Stages x] : Stages (discard x) :=
  inferInstanceAs (Stages ((fun _ => PUnit.unit) <$> x))

instance ite {c : Prop} [Decidable c] {y : ExceptT ε (StateM PollState) α} [Stages x] [Stages y] :
    Stages (if c then x else y) := by
  split <;> infer_instance

instance attempt [hx : Stages x] :
    Stages (Stateful.attempt x : ExceptT ε' (StateM PollState) (Except ε α)) := ⟨hx.manifest⟩

instance forM {γ : Type} {f : γ → ExceptT ε (StateM PollState) PUnit} [hf : ∀ c, Stages (f c)]
    (l : List γ) : Stages (l.forM f) := by
  induction l with
  | nil => exact pure ..
  | cons c l ih => exact (hf c).bind fun _ => ih

end Stages

namespace Session

section Reads

variable {ε α : Type} (g : Game) (now : Duration) (image : Executable)

instance : Stages (getSession : ExceptT ε (StateM PollState) WarframeSession) := ⟨fun _ => rfl⟩

instance (f : WarframeSession → WarframeSession) :
    Stages (update f : ExceptT ε (StateM PollState) Unit) := ⟨fun _ => rfl⟩

instance (f : VisualTopics → VisualTopics) :
    Stages (updateVisual f : ExceptT ε (StateM PollState) Unit) := ⟨fun _ => rfl⟩

instance (read : Nat → α) : Stages (look read : ExceptT ε (StateM PollState) α) := ⟨fun _ => rfl⟩

instance (sample : Sample) : Stages (toValue sample) := by
  cases sample
  · exact Stages.throw ..
  · exact Stages.pure ..

instance (layout : Layout) : Stages (check g now layout image) := ⟨fun _ => rfl⟩

instance : Stages (identified g now) := ⟨fun _ => rfl⟩

instance : Stages (nameBuild image : ExceptT ε (StateM PollState) Unit) := ⟨fun _ => rfl⟩

instance : Stages (inventoryOwner g now image) := by
  unfold inventoryOwner
  infer_instance

instance : Stages (itemPaths g now image) := by
  unfold itemPaths
  infer_instance

instance : Stages (ready g now) := by
  unfold ready
  infer_instance

instance (topic : AccountTopic) : Stages (validateTopic g now topic image) := by
  unfold validateTopic validateShared
  cases topic <;> infer_instance

instance : Stages (validateRelic g now image) := by
  unfold validateRelic
  infer_instance

instance (retryAt : Duration) : Stages (resolveOwner g image retryAt) := by
  unfold resolveOwner
  refine .bind inferInstance fun r => ?_
  split
  · refine .bind inferInstance fun r => ?_
    split <;> infer_instance
  all_goals infer_instance

instance (sample : ScreenSample) (shown : Bool) (retryAt : Duration) :
    Stages (recheckScreens g image sample shown retryAt) := by
  unfold recheckScreens
  split
  · refine .bind inferInstance fun r => ?_
    split <;> infer_instance
  · infer_instance

instance (owner : RelicOwner) (retryAt : Duration) :
    Stages (readChoices g now image owner retryAt) := by
  unfold readChoices
  refine .bind inferInstance fun r => ?_
  split
  · infer_instance
  · refine .bind inferInstance fun r => ?_
    split <;> infer_instance

instance (v : VisualTopics) (retryAt : Duration) : Stages (relicBefore now g image v retryAt) := by
  unfold relicBefore
  infer_instance

instance (login : Roots.AccountIdentity) : Stages (samplePlayer g now image login) := by
  unfold samplePlayer
  infer_instance

instance (login : Roots.AccountIdentity) (data : Option Roots.ProfileDataIdentity) :
    Stages (resolveDataAfter g image login data) := by
  unfold resolveDataAfter
  split <;> infer_instance

instance (data : Option Roots.ProfileDataIdentity) (topic : AccountTopic) :
    Stages (sampleData g now image data topic) := by
  unfold sampleData
  split <;> infer_instance

instance (login : Roots.AccountIdentity) : Stages (readPlayer g now image login) := by
  unfold readPlayer
  infer_instance

instance (data : Option Roots.ProfileDataIdentity) : Stages (readChat g now image data) := by
  unfold readChat
  split <;> infer_instance

instance (login : Roots.AccountIdentity) (data : Option Roots.ProfileDataIdentity) :
    Stages (readDue g now image login data) := by
  unfold readDue
  infer_instance

end Reads

section Resets

variable (now : Duration)

instance (cap : CapabilityDescriptor) : Stages (sink (·.reset cap)) := ⟨fun _ => rfl⟩

instance (topics : List AccountTopic) : Stages (resetTopics now topics) := by
  unfold resetTopics resetTopic
  infer_instance

instance : Stages (resetAccount now) := by
  unfold resetAccount
  infer_instance

instance : Stages (resetPlayer now) := by
  unfold resetPlayer
  infer_instance

instance : Stages (clearLogin now) := by
  unfold clearLogin
  infer_instance

instance (reset : Bool) : Stages (clearProfileData now reset) := by
  unfold clearProfileData
  infer_instance

instance (reset dataReset : Bool) : Stages (resetLost now reset dataReset) := by
  unfold resetLost
  infer_instance

instance (reset : Bool) : Stages (clearOwner reset) := by
  unfold clearOwner
  infer_instance

instance (before : RelicOwner) : Stages (replaceOwner before) := by
  unfold replaceOwner
  infer_instance

end Resets

section Outputs

variable [Platform] (g : Game) (now : Duration) (image : Executable)

instance (cap : CapabilityDescriptor) (health : CapabilityHealth) : Stages (sink (·.health cap health)) :=
  ⟨fun _ => rfl⟩

instance (cap : CapabilityDescriptor) (value : SerdeJson.Value) : Stages (sink (·.snapshot cap value)) :=
  ⟨fun _ => rfl⟩

instance (cap : CapabilityDescriptor) (value : SerdeJson.Value) : Stages (sink (·.event cap value)) :=
  ⟨fun _ => rfl⟩

instance (topic : AccountTopic) (retry : Retry) : Stages (unavailable topic retry) := by
  unfold unavailable
  infer_instance

instance (topic : AccountTopic) (sample : Option (Except Retry Sample)) :
    Stages (snapshot now topic sample) := by
  unfold snapshot
  split <;> infer_instance

instance (topics : List AccountTopic) (retry : Retry) : Stages (allUnavailable topics retry) := by
  unfold allUnavailable
  infer_instance

instance (retry : Retry) : Stages (accountUnavailable retry) := by
  unfold accountUnavailable
  infer_instance

instance (retry : Retry) : Stages (dataUnavailable retry) := by
  unfold dataUnavailable
  infer_instance

instance : Stages (validateProfileData g now image) := by
  unfold validateProfileData
  refine .bind inferInstance fun s => ?_
  split
  · refine .bind inferInstance fun r => ?_
    split <;> infer_instance
  · infer_instance

instance (topic : AccountTopic) : Stages (validateDueTopic g now image topic) := by
  unfold validateDueTopic
  refine .bind inferInstance fun s => ?_
  split
  · refine .bind inferInstance fun r => ?_
    split <;> infer_instance
  · infer_instance

instance : Stages (validateDue g now image) := by
  unfold validateDue
  infer_instance

instance (reason : UnavailableReason) : Stages (loginMissing now reason) := by
  unfold loginMissing
  infer_instance

instance (reset : Bool) : Stages (replaceLogin g now image reset) := by
  unfold replaceLogin
  infer_instance

instance : Stages (accountBefore g now image) := by
  unfold accountBefore
  refine .bind inferInstance fun r => ?_
  split <;> infer_instance

instance (before : Roots.AccountIdentity) (reset dataReset : Bool) :
    Stages (accountUnchanged g now image before reset dataReset) := by
  unfold accountUnchanged
  infer_instance

instance (reason : UnavailableReason) (reset : Bool) : Stages (dataMissing now reason reset) := by
  unfold dataMissing
  infer_instance

instance (stale reset : Bool) : Stages (replaceData g now image stale reset) := by
  unfold replaceData
  infer_instance

instance (account : Roots.AccountIdentity) (reset : Bool) :
    Stages (profileDataBefore g now image account reset) := by
  unfold profileDataBefore
  refine .bind inferInstance fun s => ?_
  split
  · refine .bind inferInstance fun r => ?_
    split <;> infer_instance
  · infer_instance

instance (cap : CapabilityDescriptor) (sample : Sample) : Stages (publish cap sample) := by
  unfold publish
  infer_instance

instance (retry : Retry) : Stages (visualUnavailable retry) := by
  unfold visualUnavailable
  infer_instance

instance (retry : Retry) : Stages (relicUnavailable now retry) := by
  unfold relicUnavailable
  infer_instance

variable [Payloads]

instance (pending : PendingChat) : Stages (publishPending now pending) := by
  unfold publishPending publishEvent
  infer_instance

instance (before : Roots.AccountIdentity) (chat : Option (Except Retry (Option History)))
    (localName : Option String) : Stages (publishChat now before chat localName) := by
  unfold publishChat
  split <;> infer_instance

instance (before : Roots.AccountIdentity) (acquired : Acquired) :
    Stages (publishData now before acquired) := by
  unfold publishData
  infer_instance

instance (before : Roots.AccountIdentity) (data : Option Roots.ProfileDataIdentity) (dataReset : Bool)
    (acquired : Acquired)
    (dataAfter : Option (Except UnavailableReason (Option Roots.ProfileDataIdentity))) :
    Stages (publishAcquired now before data dataReset acquired dataAfter) := by
  unfold publishAcquired
  infer_instance

instance : Stages (acquire g now image) := by
  unfold acquire
  refine .bind inferInstance fun r => ?_
  split <;> infer_instance

instance : Stages (pollAccount g now) := by
  unfold pollAccount
  refine .bind inferInstance fun s => ?_
  split
  · refine .bind inferInstance fun r => ?_
    split <;> infer_instance
  · infer_instance

instance (acquisition : RelicAcquisition) (before : RelicOwner) :
    Stages (readRelic now g image acquisition before) := by
  unfold readRelic
  infer_instance

instance (acquisition : RelicAcquisition) (before : RelicOwner) (reset : Bool)
    (result : Except Retry RelicRewardPicker) (after : Except Retry RelicOwner) :
    Stages (publishRelic now acquisition before reset result after) := by
  unfold publishRelic
  split
  · split <;> infer_instance
  · infer_instance

instance (acquisition : RelicAcquisition) : Stages (pollRelic now g image acquisition) := by
  unfold pollRelic
  split <;> infer_instance

instance (sample : ScreenSample) : Stages (publishScreens sample) := by
  unfold publishScreens
  infer_instance

instance : Stages (pollVisual now g image) := by
  unfold pollVisual
  refine .bind inferInstance fun r => ?_
  split
  · infer_instance
  · refine .bind inferInstance fun s => .bind inferInstance fun before => .bind inferInstance fun r => ?_
    split
    · infer_instance
    · refine .bind inferInstance fun _ => .bind inferInstance fun _ => ?_
      split <;> infer_instance

instance : Stages (pollScreens g now) := by
  unfold pollScreens
  refine .bind inferInstance fun s => ?_
  split
  · refine .bind inferInstance fun r => ?_
    split <;> infer_instance
  · infer_instance

instance (demand : List CapabilityDescriptor) : Stages (poll g now demand) := by
  unfold poll
  infer_instance

end Outputs

end Session

/-- `WarframeProvider`. -/
def warframe [Platform] [Payloads] : Host.Provider WarframeSession Game where
  manifest := manifest
  beginGeneration cap s := s.beginGeneration cap
  poll demand now g batch s :=
    match runFrom (Session.poll g now demand) ⟨s, batch, 0⟩ with
    | (result, t) => (result, t.batch, t.session)
  gameBuild s := s.buildName
  pollCompleted committed s := s.pollCompleted committed
  staged demand now g batch s := Stages.manifest (x := Session.poll g now demand) ⟨s, batch, 0⟩

end Staging

/-! ## A game that stays as it is -/

namespace Fixture

open TestSupport Service
open Wire (Subscribe)

instance payloads : Payloads where
  chatEvent _ := .ok (1 : Nat)
  screens screens := .ok screens.length
  relicRewards _ := .ok (2 : Nat)

def object (n : Nat) : Roots.ObjectIdentity := ⟨n + 1, Nat.succ_ne_zero n⟩

def shared (n : Nat) : SharedObject := ⟨object n, object (n + 1)⟩

def accountId : AccountId := ⟨"000000000000000000000001", by decide⟩

def login : Roots.AccountIdentity := ⟨accountId, object 0, object 1, object 2, object 3⟩

def ui : UiIdentity := ⟨some (shared 10), some (shared 12), some (shared 14)⟩

def world : WorldIdentity := ⟨some (shared 10), some (shared 16), some (shared 18), some (shared 20)⟩

/-- A login plays, and chooses a relic's reward. -/
def playing : Game where
  identify _ := .ok ⟨0, ⟨1, 2⟩⟩
  layout _ _ _ := .ok ()
  resolveAccount _ _ := .ok (.present login)
  resolveProfileData _ login _ := .ok (some ⟨login, object 4, object 5⟩)
  sample _ _ _ _ := .ok (.ok (7 : Nat))
  readPlayer _ _ _ := .ok ⟨"Tenno", .ok (7 : Nat)⟩
  readChat _ _ _ _ := .error .targetNotReady
  readScreens _ _ := .ok ⟨ui, [.relicRewards], []⟩
  resolveWorld _ _ := .ok world
  readRelicRewards _ _ _ _ := .ok []

instance clock : Host.Clock where
  limit := 2 ^ 62

/-- The service with the provider. -/
def service (messageBytes : Nat) : Inner where
  catalog := ⟨[publicProvider Warframe.manifest]⟩
  messageBytes
  runId := "run"

theorem new_service (messageBytes : Nat) :
    ServiceState.new [Warframe.manifest] "run" messageBytes = .ok (service messageBytes) := by rfl

/-- What is published for one session. -/
def observing (id : String) : HostStatus where
  targets :=
    [⟨⟨⟨1, 1⟩, "Warframe.x64.exe", "opengameinterop.warframe", "warframe"⟩, .observing id⟩]

/-- A selection of one capability. -/
def only (cap : CapabilityDescriptor) : Subscribe :=
  ⟨.all, [topicKey Warframe.manifest cap]⟩

end Fixture

end Warframe
end WfObserver
