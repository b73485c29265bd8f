import WfObserver.Lib.Stateful
import WfObserver.Service.Batch
import WfObserver.Warframe.Chat.Session
import WfObserver.Warframe.RelicRewards
import WfObserver.Warframe.Roots

/-!
# The state of an observed game (`session`)

`WarframeSession` is what the provider remembers of one attachment: its cached checks
(`validation.rs`), the screen source and the visual topics (`screen_demand.rs`, `visual.rs`), and the
topics that share the login (`polling.rs`). `Poll` is a computation of one poll on it, which also
writes to the batch of the host.

The reads of a poll are a parameter: `Game` says what each of them gives at each moment, so memory may
change between any two of them. The caches of item types and strings are part of what a read gives.
-/

namespace WfObserver
namespace Warframe

open ProviderSdk
open Service (PollBatch)

/-- `Duration::MAX`. -/
def durationMax : Duration := u64Max * 1000000000 + 999999999

/-- `Duration::saturating_add`. -/
def later (now delay : Duration) : Duration := min (now + delay) durationMax

/-! ## Cached checks (`validation.rs`) -/

def validationRetry : Duration := seconds 5

structure ExecutableFingerprint where
  timestamp : Nat
  imageSize : Nat
  deriving DecidableEq, Repr

/-- `{timestamp:08x}-{image_size:08x}`. -/
def ExecutableFingerprint.text (f : ExecutableFingerprint) : String :=
  let hex := fun n => String.ofList ((Nat.toDigits 16 n).leftpad 8 '0')
  s!"{hex f.timestamp}-{hex f.imageSize}"

structure Executable where
  base : Nat
  actual : ExecutableFingerprint
  deriving DecidableEq, Repr

/-- A failure with its own deadline. -/
structure Retry where
  reason : UnavailableReason
  retryAt : Duration
  deriving DecidableEq, Repr

inductive CachedCheck (α : Type) where
  | unchecked
  | passed (value : α)
  | failed (retry : Retry)

/-- `CachedCheck::ensure`. `check` is what the check gives when it is made. -/
def CachedCheck.ensure {α : Type} (now : Duration) (check : Except UnavailableReason α)
    (c : CachedCheck α) : Except Retry α × CachedCheck α :=
  let made : Except Retry α × CachedCheck α :=
    match check with
    | .ok value => (.ok value, .passed value)
    | .error reason =>
      let retry : Retry := ⟨reason, later now validationRetry⟩
      (.error retry, .failed retry)
  match c with
  | .passed value => (.ok value, c)
  | .failed retry => if now < retry.retryAt then (.error retry, c) else made
  | .unchecked => made

/-- The checks of executable layouts: the shared ones, and those of the topics. -/
inductive Layout where
  | account
  | profileData
  | profileCommit
  | client
  | world
  | strings
  | items
  | inventoryOwner
  | topic (cap : CapabilityDescriptor)
  deriving DecidableEq, Repr

/-- The name of a check. -/
def Layout.label : Layout → String
  | .account => "account identity"
  | .profileData => "profile data"
  | .profileCommit => "profile commit"
  | .client => "client root"
  | .world => "world ownership"
  | .strings => "string pool"
  | .items => "item types"
  | .inventoryOwner => "inventory ownership"
  | .topic cap => cap.topic

/-- What `CachedCheck::validate` makes of a rejection. An unreadable instruction window is not evidence
of an incompatible layout. -/
def Layout.rejected (layout : Layout) (reason : UnavailableReason) : UnavailableReason :=
  let reason : UnavailableReason :=
    match reason with
    | .readFailed message => .readFailed message
    | _ => .unsupportedBuild
  reason.withDependency layout.label

/-! ## Screens (`screen_demand.rs`) -/

inductive Screen where
  | loadout
  | navigation
  | progress
  | relicRewards
  | other (assetPath : String)
  deriving DecidableEq, Repr

inductive Consumer where
  | screens
  | relicRewards
  deriving DecidableEq, Repr

inductive ScreenCondition where
  | any
  | visible (screen : Screen)
  deriving DecidableEq, Repr

structure ScreenRequirement where
  condition : ScreenCondition
  preferredInterval : Duration
  deriving DecidableEq, Repr

structure SourcePlan where
  requests : List (Consumer × ScreenRequirement) := []
  deriving DecidableEq, Repr

namespace SourcePlan

def requireScreens (consumer : Consumer) (requirement : ScreenRequirement) (plan : SourcePlan) :
    SourcePlan :=
  { requests := plan.requests ++ [(consumer, requirement)] }

def interval (plan : SourcePlan) : Option Duration :=
  (plan.requests.map fun request => request.2.preferredInterval).min?

def fits (plan : SourcePlan) (consumer : Consumer) (screens : List Screen) : Bool :=
  plan.requests.any fun request => request.1 == consumer &&
    match request.2.condition with
    | .any => true
    | .visible screen => screens.contains screen

end SourcePlan

structure ScreenSource where
  plan : SourcePlan := {}
  next : Option Duration := none
  last : Option Duration := none
  deriving DecidableEq, Repr

namespace ScreenSource

/-- New consumers need a current baseline. Removing demand can slow the source down. -/
def update (plan : SourcePlan) (now : Duration) (source : ScreenSource) : ScreenSource :=
  match plan.interval with
  | none => { plan, next := none, last := none }
  | some interval =>
    if plan = source.plan then { source with plan }
    else
      let added := plan.requests.any fun request => !source.plan.requests.contains request
      let next := if added then now else max (later (source.last.getD now) interval) now
      { source with plan, next := some next }

def wake (source : ScreenSource) : ScreenSource :=
  if source.next.isSome then { source with next := some 0 } else source

def due (now : Duration) (source : ScreenSource) : Bool := source.next.any fun next => decide (next ≤ now)

def deadline (source : ScreenSource) : Option Duration := source.next

def sampled (now : Duration) (source : ScreenSource) : ScreenSource :=
  { source with last := some now, next := source.plan.interval.map (later now) }

def defer (time : Duration) (source : ScreenSource) : ScreenSource := { source with next := some time }

end ScreenSource

/-! ## Visual topics (`visual.rs`) -/

def screensCap : CapabilityDescriptor := ⟨"warframe.screens", 1, some .full, false⟩

def relicRewardsCap : CapabilityDescriptor := ⟨"warframe.relic_rewards", 1, some .full, false⟩

def screensInterval : Duration := milliseconds 250

def relicInterval : Duration := milliseconds 50

def readRetry : Duration := seconds 1

structure SharedObject where
  control : Roots.ObjectIdentity
  object : Roots.ObjectIdentity
  deriving DecidableEq

structure WorldIdentity where
  client : Option SharedObject
  context : Option SharedObject
  region : Option SharedObject
  rules : Option SharedObject
  deriving DecidableEq

structure UiIdentity where
  client : Option SharedObject
  overlay : Option SharedObject
  flash : Option SharedObject
  deriving DecidableEq

structure ScreenSample where
  owner : UiIdentity
  screens : List Screen
  visibleMovies : List (SharedObject × SharedObject × Screen)
  deriving DecidableEq

structure RelicOwner where
  login : Roots.AccountIdentity
  world : WorldIdentity
  ui : UiIdentity
  deriving DecidableEq

inductive RelicRewardPicker where
  | closed
  | shown (choices : List RelicRewardChoice)
  deriving DecidableEq

structure RelicRewardsSnapshot where
  accountId : AccountId
  picker : RelicRewardPicker
  deriving DecidableEq

structure VisualTopics where
  source : ScreenSource := {}
  screensDemanded : Bool := false
  relicDemanded : Bool := false
  relicRetry : Duration := 0
  relicReadDelay : Duration := 0
  ui : Option UiIdentity := none
  owner : Option RelicOwner := none
  deriving DecidableEq

/-- A capability is demanded in this poll. -/
def demands (demand : List CapabilityDescriptor) (cap : CapabilityDescriptor) : Bool :=
  demand.any fun wanted => wanted.topic == cap.topic && wanted.schemaVersion == cap.schemaVersion

namespace VisualTopics

/-- The requests of the demanded topics. -/
def plan (screens relic : Bool) : SourcePlan :=
  let plan : SourcePlan := {}
  let plan := if screens then plan.requireScreens .screens ⟨.any, screensInterval⟩ else plan
  if relic then plan.requireScreens .relicRewards ⟨.visible .relicRewards, relicInterval⟩ else plan

def demand (demand : List CapabilityDescriptor) (now : Duration) (v : VisualTopics) : VisualTopics :=
  let screens := demands demand screensCap
  let relic := demands demand relicRewardsCap
  let v := { v with screensDemanded := screens }
  let v := if relic && !v.relicDemanded then { v with relicRetry := now, relicReadDelay := 0 } else v
  let v := { v with relicDemanded := relic, source := v.source.update (plan screens relic) now }
  let v := if relic then v else { v with owner := none }
  if !relic && !screens then { v with ui := none } else v

def wake (cap : CapabilityDescriptor) (v : VisualTopics) : VisualTopics :=
  if cap.topic = screensCap.topic ∨ cap.topic = relicRewardsCap.topic then
    { v with source := v.source.wake, relicRetry := 0 }
  else v

def pollCompleted (committed : Bool) (v : VisualTopics) : VisualTopics :=
  if committed then v else { v with source := v.source.wake, relicRetry := 0 }

end VisualTopics

/-! ## Topics of the account (`polling.rs`) -/

def sampleInterval : Duration := seconds 1

/-- The topics that share login ownership. -/
inductive AccountTopic where
  | inventory
  | currencies
  | player
  | chat
  | mastery
  | intrinsics
  | starChart
  deriving DecidableEq, Repr

namespace AccountTopic

def cap : AccountTopic → CapabilityDescriptor
  | inventory => ⟨"warframe.inventory", 1, some .delta, false⟩
  | currencies => ⟨"warframe.currencies", 1, some .full, false⟩
  | player => ⟨"warframe.player", 1, some .full, false⟩
  | chat => ⟨"warframe.chat", 1, none, true⟩
  | mastery => ⟨"warframe.mastery", 1, some .delta, false⟩
  | intrinsics => ⟨"warframe.intrinsics", 1, some .full, false⟩
  | starChart => ⟨"warframe.star_chart", 1, some .delta, false⟩

end AccountTopic

open AccountTopic in
/-- `account_topics`. -/
def accountTopics : List AccountTopic :=
  [inventory, currencies, player, chat, mastery, intrinsics, starChart]

open AccountTopic in
/-- `data_topics` (`profile_data.rs`). -/
def dataTopics : List AccountTopic := [inventory, currencies, chat, mastery, intrinsics, starChart]

/-- `MANIFEST` (`provider.rs`). -/
def manifest : ProviderManifest where
  id := "opengameinterop.warframe"
  name := "Warframe"
  version := "0.1.0"
  game := ⟨"warframe", "Warframe"⟩
  capabilities := [AccountTopic.inventory.cap, AccountTopic.currencies.cap, AccountTopic.player.cap,
    AccountTopic.chat.cap, screensCap, relicRewardsCap, AccountTopic.mastery.cap,
    AccountTopic.intrinsics.cap, AccountTopic.starChart.cap]

/-- Demand controls acquisition, not the lifetime of a successful layout check. -/
structure TopicState where
  demanded : Bool := false
  nextPoll : Duration := 0
  deriving DecidableEq, Repr

namespace TopicState

def demand (demanded : Bool) (now : Duration) (t : TopicState) : TopicState :=
  let t := if demanded && !t.demanded then { t with nextPoll := now } else t
  { t with demanded }

def due (now : Duration) (t : TopicState) : Bool := t.demanded && decide (t.nextPoll ≤ now)

end TopicState

/-- The layout checks of the topics are with the shared ones. -/
structure WarframeSession where
  visual : VisualTopics := {}
  executable : CachedCheck Executable := .unchecked
  buildName : Option String := none
  layouts : Layout → CachedCheck Unit := fun _ => .unchecked
  topics : AccountTopic → TopicState := fun _ => {}
  login : Option Roots.AccountIdentity := none
  profileData : Option Roots.ProfileDataIdentity := none
  chatHistory : Option History := none
  chatCursor : ChatCursor := .default
  pendingChat : Option PendingChat := none
  chatStaged : Bool := false

namespace WarframeSession

def setTopic (topic : AccountTopic) (state : TopicState) (s : WarframeSession) : WarframeSession :=
  { s with topics := Function.update s.topics topic state }

/-- Sets when the topic is polled next. -/
def setNext (topic : AccountTopic) (next : Duration) (s : WarframeSession) : WarframeSession :=
  s.setTopic topic { s.topics topic with nextPoll := next }

def clearChat (s : WarframeSession) : WarframeSession :=
  { s with chatHistory := none, chatCursor := .default, pendingChat := none, chatStaged := false }

/-- The chat part. -/
def chatSession (s : WarframeSession) : ChatSession :=
  { chatHistory := s.chatHistory, chatCursor := s.chatCursor, pendingChat := s.pendingChat,
    chatStaged := s.chatStaged, nextPoll := (s.topics .chat).nextPoll }

/-- `begin_generation`. -/
def beginGeneration (cap : CapabilityDescriptor) (s : WarframeSession) : WarframeSession :=
  let s := { s with visual := s.visual.wake cap }
  let s := if cap.topic = AccountTopic.chat.cap.topic then s.clearChat else s
  accountTopics.foldl (fun s topic => if topic.cap.topic = cap.topic then s.setNext topic 0 else s) s

/-- `poll_completed`. An unrelated accepted poll must not commit a pending chat retry. -/
def pollCompleted (committed : Bool) (s : WarframeSession) : WarframeSession :=
  let s := { s with visual := s.visual.pollCompleted committed }
  if !s.chatStaged then s
  else
    let s := { s with chatStaged := false }
    if committed then
      match s.pendingChat with
      | some pending =>
        { s with
          pendingChat := none
          chatHistory := pending.history.or s.chatHistory
          chatCursor := pending.cursor }
      | none => s
    else s.setNext .chat 0

/-- The demanded ones of the topics. -/
def demanded (topics : List AccountTopic) (s : WarframeSession) : List AccountTopic :=
  topics.filter fun topic => (s.topics topic).demanded

/-- `schedule`. -/
def schedule (now : Duration) (s : WarframeSession) : PollResult :=
  let topics := (s.demanded accountTopics).map fun topic => (s.topics topic).nextPoll - now
  match (topics ++ (s.visual.source.deadline.map (· - now)).toList).min? with
  | none => .idle
  | some delay => .after delay

end WarframeSession

/-! ## The observed process -/

/-- What `serde_json::to_value` makes of a sample. -/
abbrev Sample [SerdeJson] : Type := Except String SerdeJson.Value

/-- `PlayerSnapshot`: the name that chat needs, and the payload. -/
structure PlayerSample [SerdeJson] where
  username : String
  value : Sample

/-- What the reads of one poll give at each moment. A failure of an acquisition is the health that it
becomes (`health.rs`). -/
structure Game [SerdeJson] where
  identify : Nat → Except UnavailableReason Executable
  layout : Layout → Executable → Nat → Except UnavailableReason Unit
  resolveAccount : Executable → Nat → Except UnavailableReason Roots.AccountResolution
  resolveProfileData : Executable → Roots.AccountIdentity → Nat →
    Except UnavailableReason (Option Roots.ProfileDataIdentity)
  /-- `read_inventory`, `read_currencies`, `read_mastery`, `read_intrinsics` and `read_star_chart`. -/
  sample : AccountTopic → Executable → Roots.ProfileDataIdentity → Nat → Except UnavailableReason Sample
  readPlayer : Executable → Roots.AccountIdentity → Nat → Except UnavailableReason PlayerSample
  readChat : Executable → Roots.ProfileDataIdentity → Option History → Nat →
    Except UnavailableReason (Option History)
  readScreens : Executable → Nat → Except ReadError ScreenSample
  resolveWorld : Executable → Nat → Except ReadError WorldIdentity
  readRelicRewards : Executable → SharedObject → AccountId → Nat →
    Except ReadError (List RelicRewardChoice)

/-- `serde_json::to_value` on the values that the session builds itself. -/
class Payloads [SerdeJson] where
  chatEvent : ChatEvent → Sample
  screens : List Screen → Sample
  relicRewards : RelicRewardsSnapshot → Sample

/-- What a poll works on: the session, the host's batch, and the moment of the next read. -/
structure PollState [SerdeJson] where
  session : WarframeSession
  batch : PollBatch
  moment : Nat := 0

/-- A computation of a poll. -/
abbrev Poll [SerdeJson] (α : Type) : Type := ExceptT ProviderError (StateM PollState) α

/-- A computation of a poll that may have to be tried again. -/
abbrev Attempt [SerdeJson] (α : Type) : Type := ExceptT Retry (StateM PollState) α

namespace Session

variable [SerdeJson] {ε α : Type}

def getSession : ExceptT ε (StateM PollState) WarframeSession :=
  Stateful.action fun s => (.ok s.session, s)

/-- A change of the session. -/
def update (f : WarframeSession → WarframeSession) : ExceptT ε (StateM PollState) Unit :=
  Stateful.action fun s => (.ok (), { s with session := f s.session })

/-- One read of the process. -/
def look (read : Nat → α) : ExceptT ε (StateM PollState) α :=
  Stateful.action fun s => (.ok (read s.moment), { s with moment := s.moment + 1 })

/-- A call of the host's sinks. -/
def sink (call : PollBatch → Except ProviderError Unit × PollBatch) : Poll Unit :=
  Stateful.action fun s => ((call s.batch).1, { s with batch := (call s.batch).2 })

/-- `serde_json::to_value`. -/
def toValue (sample : Sample) : Poll SerdeJson.Value :=
  match sample with
  | .ok value => pure value
  | .error message => throw (.failed message)

variable (g : Game) (now : Duration)

/-- `CachedCheck::validate` on the check of a layout. -/
def check (layout : Layout) (image : Executable) : Attempt Unit :=
  Stateful.action fun s =>
    let made := (g.layout layout image s.moment).mapError layout.rejected
    let (result, cached) := (s.session.layouts layout).ensure now made
    let session := { s.session with layouts := Function.update s.session.layouts layout cached }
    (result, { s with session, moment := s.moment + 1 })

/-- `self.executable.ensure`. -/
def identified : Attempt Executable :=
  Stateful.action fun s =>
    let made := (g.identify s.moment).mapError (·.withDependency "executable")
    let (result, executable) := s.session.executable.ensure now made
    (result, { s with session := { s.session with executable }, moment := s.moment + 1 })

/-- `self.build_name.get_or_insert_with`. -/
def nameBuild (image : Executable) : ExceptT ε (StateM PollState) Unit :=
  update fun s => { s with buildName := s.buildName.or (some image.actual.text) }

/-- `SharedLayouts::inventory_owner`. -/
def inventoryOwner (image : Executable) : Attempt Unit := do
  check g now .profileCommit image
  check g now .inventoryOwner image

/-- `SharedLayouts::item_paths`. -/
def itemPaths (image : Executable) : Attempt Unit := do
  check g now .strings image
  check g now .items image

end Session

end Warframe
end WfObserver
