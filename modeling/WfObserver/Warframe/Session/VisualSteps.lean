import WfObserver.Warframe.Session.Account

/-!
# The steps of the visual part of a poll

The operations of the screens and of the relic's rewards, and what holds when each is staged. The
account part of the session is not touched.
-/

namespace WfObserver
namespace Warframe

open ProviderSdk
open Stateful
open Service (PollBatch Platform Operation publicHealth)
open Wire (JsonPayload TopicRef)
open Roots (AccountIdentity)

/-- The visual topics. -/
inductive VisualTopic where
  | screens
  | relicRewards
  deriving DecidableEq

namespace VisualTopic

def cap : VisualTopic → CapabilityDescriptor
  | screens => screensCap
  | relicRewards => relicRewardsCap

def key (topic : VisualTopic) : TopicRef := Warframe.key topic.cap

theorem declared (topic : VisualTopic) : topic.cap ∈ manifest.capabilities := by
  cases topic <;> simp [cap, manifest]

theorem key_inj {a b : VisualTopic} : a.key = b.key ↔ a = b := by
  cases a <;> cases b <;> decide

theorem key_ne (topic : VisualTopic) (other : AccountTopic) : topic.key ≠ other.key := by
  cases topic <;> cases other <;> decide

end VisualTopic

/-- The topic is demanded. -/
def VisualTopics.demanded (v : VisualTopics) : VisualTopic → Bool
  | .screens => v.screensDemanded
  | .relicRewards => v.relicDemanded

namespace Session

variable [SerdeJson]

/-- No operation of the topic is staged. -/
def Untouched (s : PollState) (topic : VisualTopic) : Prop :=
  ∀ op ∈ s.batch.pending.ops, op.key ≠ topic.key

/-- Nothing is published for the topic. -/
def Unshown (s : PollState) (topic : VisualTopic) : Prop :=
  ∀ op ∈ s.batch.pending.ops, op.key = topic.key → published op = false

/-- The owner of a relic's rewards was read in this order: its login, its world, its screens. -/
def OwnerFirst (g : Game) (image : Executable) (owner : RelicOwner) (sample : ScreenSample)
    (m : Nat) : Prop :=
  ∃ login world screens, login < world ∧ world < screens ∧ screens < m ∧
    g.resolveAccount image login = .ok (.present owner.login) ∧
    g.resolveWorld image world = .ok owner.world ∧ g.readScreens image screens = .ok sample ∧
    sample.owner = owner.ui ∧ owner.world.client = owner.ui.client

/-- The owner's login and world were read again. -/
def OwnerLast (g : Game) (image : Executable) (owner : RelicOwner) (m : Nat) : Prop :=
  ∃ login world, m ≤ login ∧ login < world ∧
    g.resolveAccount image login = .ok (.present owner.login) ∧
    g.resolveWorld image world = .ok owner.world

/-- The rewards that belong to the owner: the picker is closed on the owner's screens, or its choices
were read while the screens did not change. -/
inductive RelicOwned (g : Game) (owner : RelicOwner) : RelicRewardPicker → Prop
  | closed {image sample m} (hfirst : OwnerFirst g image owner sample m)
    (hlast : OwnerLast g image owner m) (hscreens : .relicRewards ∉ sample.screens) :
    RelicOwned g owner .closed
  | shown {image sample choices rules m again} (hfirst : OwnerFirst g image owner sample m)
    (hlast : OwnerLast g image owner again) (hscreens : .relicRewards ∈ sample.screens)
    (hrules : owner.world.rules = some rules)
    (hread : g.readRelicRewards image rules owner.login.accountId m = .ok choices)
    (hagain : m < again) (hsame : ∃ later, m < later ∧ later < again ∧
      g.readScreens image later = .ok sample) :
    RelicOwned g owner (.shown choices)

variable (P : Duration → Prop) (now : Duration)

/-- What a step may change of the visual topics besides the owner: times and the user interface. -/
structure Retimed (v w : VisualTopics) : Prop where
  screensDemanded : w.screensDemanded = v.screensDemanded
  relicDemanded : w.relicDemanded = v.relicDemanded
  owner : w.owner = v.owner
  plan : w.source.plan = v.source.plan
  next : w.source.next = v.source.next ∨ ∃ next, w.source.next = some next ∧ P next
  last : w.source.last = v.source.last ∨ w.source.last = some now
  retry : w.relicRetry = v.relicRetry ∨ P w.relicRetry
  delay : w.relicReadDelay = v.relicReadDelay ∨ w.relicReadDelay ≤ readRetry

/-- A step of the visual part of a poll. -/
inductive VisualStep [Payloads] (g : Game) (s : PollState) : PollState → Prop
  | noted {t} (h : Noted P s t) : VisualStep g s t
  | retimed {visual : VisualTopics} (h : Retimed P now s.session.visual visual) :
    VisualStep g s { s with session := { s.session with visual } }
  | health {topic : VisualTopic} {reason : UnavailableReason} {batch : PollBatch}
    (hdemand : s.session.visual.demanded topic = true) (hunshown : Unshown s topic)
    (happended : Appended s.batch [.health topic.key (publicHealth (.unavailable reason))] batch) :
    VisualStep g s { s with batch }
  | screensReset {batch : PollBatch} (hdemand : s.session.visual.screensDemanded = true)
    (huntouched : Untouched s .screens)
    (happended : Appended s.batch [.reset VisualTopic.screens.key] batch) :
    VisualStep g s { s with batch }
  | screensSnapshot {screens : List Screen} {value : SerdeJson.Value} {payload : JsonPayload}
    {batch : PollBatch} (hdemand : s.session.visual.screensDemanded = true)
    (hunshown : Unshown s .screens) (hvalue : Payloads.screens screens = .ok value)
    (hpayload : JsonPayload.fromValue value = some payload)
    (happended : Appended s.batch [.snapshot VisualTopic.screens.key payload] batch) :
    VisualStep g s { s with batch }
  | relicReset {batch : PollBatch} (hdemand : s.session.visual.relicDemanded = true)
    (huntouched : Untouched s .relicRewards)
    (happended : Appended s.batch [.reset VisualTopic.relicRewards.key] batch) :
    VisualStep g s { s with
      session := { s.session with visual := { s.session.visual with owner := none } }
      batch }
  | ownerLost (hreset : .reset VisualTopic.relicRewards.key ∈ s.batch.pending.ops) :
    VisualStep g s { s with
      session := { s.session with visual := { s.session.visual with owner := none } } }
  | ownerFound {owner : RelicOwner} (howner : s.session.visual.owner = none ∨
      s.session.visual.owner = some owner) :
    VisualStep g s { s with
      session := { s.session with visual := { s.session.visual with owner := some owner } } }
  | relicSnapshot {owner : RelicOwner} {picker : RelicRewardPicker} {value : SerdeJson.Value}
    {payload : JsonPayload} {batch : PollBatch}
    (hdemand : s.session.visual.relicDemanded = true) (hunshown : Unshown s .relicRewards)
    (howner : s.session.visual.owner = some owner) (howned : RelicOwned g owner picker)
    (hvalue : Payloads.relicRewards ⟨owner.login.accountId, picker⟩ = .ok value)
    (hpayload : JsonPayload.fromValue value = some payload)
    (happended : Appended s.batch [.snapshot VisualTopic.relicRewards.key payload] batch) :
    VisualStep g s { s with batch }

abbrev VisualSteps [Payloads] (g : Game) : PollState → PollState → Prop :=
  Relation.ReflTransGen (VisualStep P now g)

/-! ## What every step keeps -/

variable {P} {now}

/-- Only the visual topics and the checks differ, and the batch has grown by operations of visual
topics. -/
structure Seen (P : Duration → Prop) (s t : PollState) : Prop where
  session : t.session = { s.session with
    visual := t.session.visual
    layouts := t.session.layouts
    executable := t.session.executable
    buildName := t.session.buildName }
  demanded : ∀ topic, t.session.visual.demanded topic = s.session.visual.demanded topic
  plan : t.session.visual.source.plan = s.session.visual.source.plan
  manifest : t.batch.manifest = s.batch.manifest
  failed : t.batch.pending.failed = s.batch.pending.failed
  ops : ∃ ops, t.batch.pending.ops = s.batch.pending.ops ++ ops ∧
    ∀ op ∈ ops, ∃ topic : VisualTopic, op.key = topic.key
  moment : s.moment ≤ t.moment
  cached : ∀ retry, Cached t.session retry → Cached s.session retry ∨ P retry.retryAt

namespace Seen

theorem refl (s : PollState) : Seen P s s :=
  ⟨rfl, fun _ => rfl, rfl, rfl, rfl, ⟨[], (List.append_nil _).symm, by simp⟩, le_rfl,
    fun _ h => .inl h⟩

theorem trans {s t u : PollState} (h : Seen P s t) (h' : Seen P t u) : Seen P s u where
  session := by rw [h'.session, h.session]
  demanded topic := (h'.demanded topic).trans (h.demanded topic)
  plan := h'.plan.trans h.plan
  manifest := h'.manifest.trans h.manifest
  failed := h'.failed.trans h.failed
  ops := by
    obtain ⟨xs, hxs, hx⟩ := h.ops
    obtain ⟨ys, hys, hy⟩ := h'.ops
    refine ⟨xs ++ ys, by rw [hys, hxs, List.append_assoc], fun op hop => ?_⟩
    exact (List.mem_append.mp hop).elim (hx op) (hy op)
  moment := h.moment.trans h'.moment
  cached retry hr := (h'.cached retry hr).elim (h.cached retry) .inr

theorem of_noted {s t : PollState} (h : Noted P s t) : Seen P s t where
  session := by rw [h.session]
  demanded topic := by rw [h.session]
  plan := by rw [h.session]
  manifest := by rw [h.batch]
  failed := by rw [h.batch]
  ops := ⟨[], by rw [h.batch, List.append_nil], by simp⟩
  moment := h.moment
  cached := h.cached

/-- The step changes the visual topics and stages an operation of one. -/
theorem of_appended {s : PollState} {op : Operation} {batch : PollBatch} {visual : VisualTopics}
    {topic : VisualTopic} (h : Appended s.batch [op] batch) (hk : op.key = topic.key)
    (hdemanded : ∀ other, visual.demanded other = s.session.visual.demanded other)
    (hplan : visual.source.plan = s.session.visual.source.plan) :
    Seen P s { s with session := { s.session with visual }, batch } where
  session := rfl
  demanded := hdemanded
  plan := hplan
  manifest := h.manifest
  failed := h.failed
  ops := ⟨_, h.ops, fun _ hop => ⟨topic, by rw [List.mem_singleton.mp hop, hk]⟩⟩
  moment := le_rfl
  cached _ hr := .inl <| match hr with
    | .executable h => .executable h
    | .layout h => .layout h

/-- The step changes only the visual topics. -/
theorem of_visual {s : PollState} {visual : VisualTopics}
    (hdemanded : ∀ other, visual.demanded other = s.session.visual.demanded other)
    (hplan : visual.source.plan = s.session.visual.source.plan) :
    Seen P s { s with session := { s.session with visual } } where
  session := rfl
  demanded := hdemanded
  plan := hplan
  manifest := rfl
  failed := rfl
  ops := ⟨[], (List.append_nil _).symm, by simp⟩
  moment := le_rfl
  cached _ hr := .inl <| match hr with
    | .executable h => .executable h
    | .layout h => .layout h

theorem deadlines {s t : PollState} (h : Seen P s t) (hs : Deadlines P now s.session) :
    Deadlines P now t.session where
  later := hs.later
  settled := hs.settled
  cached retry hr hn := (h.cached retry hr).elim (fun hr => hs.cached retry hr hn) id

end Seen

omit [SerdeJson] in
theorem Retimed.demanded {v w : VisualTopics} (h : Retimed P now v w) (topic : VisualTopic) :
    w.demanded topic = v.demanded topic := by
  cases topic with
  | screens => exact h.screensDemanded
  | relicRewards => exact h.relicDemanded

variable [Payloads] {g : Game}

theorem VisualStep.seen {s t : PollState} (h : VisualStep P now g s t) : Seen P s t := by
  cases h with
  | noted h => exact .of_noted h
  | retimed h => exact .of_visual h.demanded h.plan
  | health _ _ happended | screensReset _ _ happended | screensSnapshot _ _ _ _ happended
  | relicReset _ _ happended | relicSnapshot _ _ _ _ _ _ happended =>
    exact .of_appended happended rfl (fun other => by cases other <;> rfl) rfl
  | ownerLost | ownerFound => exact .of_visual (fun other => by cases other <;> rfl) rfl

theorem VisualSteps.seen {s t : PollState} (h : VisualSteps P now g s t) : Seen P s t := by
  induction h with
  | refl => exact .refl s
  | tail _ h ih => exact ih.trans h.seen

end Session
end Warframe
end WfObserver
