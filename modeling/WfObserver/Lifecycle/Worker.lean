import WfObserver.Service.Catalog

/-!
# The lifecycle worker (`wf-observer-cli`, `lifecycle/worker.rs`)

`Lifecycle.step` drops the attachments of processes that have gone, enumerates the processes when
that is due and attempts each eligible one; `Lifecycle.turn` is the loop of `run`: a step, and one
poll of each attachment. What the operating system, the clock, the provider and the stop channel
answer comes from `Answers`: every call that is made at most once in a turn has its own answer.

Publication succeeds. `made`, `attempts` and `published` are not in the source: the attachments made
so far, each with its process and session id, so that an attachment is told from another by its place
there; the attempts so far, each with the reading of the clock that allowed it; and every published
status with the processes that had an attachment then.
-/

namespace WfObserver
namespace Worker

open Wire Service

/-- The derived `Ord`: fields in order. -/
def processKey (p : RecordedProcess) : Nat ×ₗ Nat := toLex (p.pid, p.startMarker)

theorem processKey_injective : Function.Injective processKey := by
  rintro ⟨_, _⟩ ⟨_, _⟩ h
  simpa [processKey] using h

instance : LinearOrder RecordedProcess := LinearOrder.lift' processKey processKey_injective

/-- `DISCOVERY_INTERVAL`. -/
def discoveryInterval : Duration := seconds 1

/-- `RETRY_INTERVAL`. -/
def retryInterval : Duration := seconds 5

structure TrackedTarget where
  status : TargetStatus
  attachment : Option Nat := none
  retryAt : Option Instant := none
  deriving DecidableEq

/-- `TrackedTarget::retry`. -/
def TrackedTarget.retry (error : String) (now : Instant) (t : TrackedTarget) : TrackedTarget where
  status := { t.status with activity := .retrying error }
  retryAt := some (now + retryInterval)

/-- The places where a turn looks at the stop channel. -/
inductive Checkpoint where
  | step
  | retained
  | discovered
  | candidate (process : RecordedProcess)
  | attaching (process : RecordedProcess)
  | attached (process : RecordedProcess)
  | poll (process : RecordedProcess)

/-- What the rest of the world answers in one turn. -/
structure Answers where
  stopping : Checkpoint → Bool
  /-- `is_current` of a held attachment. -/
  isCurrent : RecordedProcess → Bool
  /-- The clock, where the step asks whether the enumeration is due. -/
  due : Instant
  /-- `discover`, each candidate by its `target`. -/
  discover : Except String (List TargetInfo)
  /-- The clock after the enumeration. -/
  discoveredAt : Instant
  /-- The clock, where the step asks whether the process may be tried again. -/
  now : RecordedProcess → Instant
  /-- `Backend::attach`; the attachment itself is told by its place in `made`. -/
  attach : RecordedProcess → Except String Unit
  /-- `is_current` of the new attachment. -/
  isStillCurrent : RecordedProcess → Bool
  /-- The id of `Activity::observing`. -/
  observing : RecordedProcess → Except String String
  /-- The clock after a failed attempt. -/
  failedAt : RecordedProcess → Instant
  /-- `HostedSession::poll`. -/
  poll : RecordedProcess → Except String (Option Duration)
  /-- The clock after a failed poll. -/
  retiredAt : RecordedProcess → Instant

structure Lifecycle where
  targets : OrdMap RecordedProcess TrackedTarget := ∅
  discoveryError : Option String := none
  nextDiscovery : Option Instant := none
  made : List (RecordedProcess × String) := []
  attempts : List (RecordedProcess × Instant) := []
  published : List (HostStatus × List RecordedProcess) := []
  stopped : Bool := false

/-- `Lifecycle::attach`: the id of the new session. -/
def attach (a : Answers) (process : RecordedProcess) : Except String String :=
  match a.attach process with
  | .error error => .error error
  | .ok () =>
    if a.isStillCurrent process then a.observing process
    else .error "target exited during attachment"

/-- A process that has an attachment, or whose retry is not due. -/
def waits (now : Instant) (target : Option TrackedTarget) : Bool :=
  target.any fun t => t.attachment.isSome || t.retryAt.any fun deadline => decide (now < deadline)

/-- The candidates in order of their processes; of two with one process the later one counts. -/
def candidates (targets : List TargetInfo) : OrdMap RecordedProcess TargetInfo :=
  OrdMap.ofList (targets.map fun target => (target.process, target))

namespace Lifecycle

/-- `Lifecycle::status`. -/
def status (l : Lifecycle) : HostStatus where
  discoveryError := l.discoveryError
  targets := l.targets.values.map (·.status)

/-- The processes with an attachment. -/
def held (l : Lifecycle) : List RecordedProcess :=
  (l.targets.filter fun _ t => t.attachment.isSome).keys

def publish (l : Lifecycle) : Lifecycle := { l with published := l.published ++ [(l.status, l.held)] }

def put (process : RecordedProcess) (target : TrackedTarget) (l : Lifecycle) : Lifecycle :=
  { l with targets := l.targets.insert process target }

/-- The first `retain` of a step: attachments of other processes than the current ones go. -/
def retainCurrent (a : Answers) (l : Lifecycle) : Lifecycle :=
  { l with targets := l.targets.filter fun p t => t.attachment.isNone || a.isCurrent p }

/-- The second `retain` of a step: attempts at processes that are not listed any more go. -/
def retainListed (listed : OrdMap RecordedProcess TargetInfo) (l : Lifecycle) : Lifecycle :=
  { l with targets := l.targets.filter fun p t => t.attachment.isSome || listed.contains p }

/-- The entry that an attempt leaves. -/
def tracked (a : Answers) (process : RecordedProcess) (target : TargetInfo) (number : Nat) :
    TrackedTarget :=
  match attach a process with
  | .ok id => { status := ⟨target, .observing id⟩, attachment := some number }
  | .error error =>
    { status := ⟨target, .retrying error⟩
      retryAt := some (a.failedAt process + retryInterval) }

/-- An attempt that was not stopped. -/
def finish (a : Answers) (process : RecordedProcess) (target : TargetInfo) (l : Lifecycle) :
    Lifecycle :=
  { l.put process (tracked a process target l.made.length) with
    made := l.made ++ ((attach a process).toOption.map fun id => (process, id)).toList }.publish

/-- The body of the loop over the candidates. The second component: the loop goes on. -/
def visit (a : Answers) (process : RecordedProcess) (target : TargetInfo) (l : Lifecycle) :
    Lifecycle × Bool :=
  if a.stopping (.candidate process) then (l, false)
  else if waits (a.now process) (l.targets.get? process) then (l, true)
  else
    let l := (l.put process { status := ⟨target, .attaching⟩ }).publish
    if a.stopping (.attaching process) then (l, false)
    else
      let l := { l with attempts := l.attempts ++ [(process, a.now process)] }
      if a.stopping (.attached process) then (l, false)
      else (l.finish a process target, true)

/-- The loop over the candidates. -/
def visitAll (a : Answers) : List (RecordedProcess × TargetInfo) → Lifecycle → Lifecycle × Bool
  | [], l => (l, true)
  | (process, target) :: rest, l =>
    match l.visit a process target with
    | (l, true) => visitAll a rest l
    | (l, false) => (l, false)

/-- `Lifecycle::step`. `none` means stop. -/
def step (a : Answers) (l : Lifecycle) : Lifecycle × Option Duration :=
  if a.stopping .step then (l, none)
  else
    let l := (l.retainCurrent a).publish
    if a.stopping .retained then (l, none)
    else if l.nextDiscovery.any fun deadline => decide (a.due < deadline) then
      (l, some discoveryInterval)
    else if a.stopping .discovered then (l, none)
    else
      match a.discover with
      | .error error =>
        ({ l with
          discoveryError := some error
          nextDiscovery := some (a.discoveredAt + retryInterval) }.publish, some discoveryInterval)
      | .ok found =>
        let l := { l with
          discoveryError := none
          nextDiscovery := some (a.discoveredAt + discoveryInterval) }
        match ((l.retainListed (candidates found)).publish).visitAll a (candidates found).entries with
        | (l, true) => (l, some discoveryInterval)
        | (l, false) => (l, none)

/-- One poll in the loop of `run`: the entry that it leaves, the delay or the retirement, and whether
the worker stops. -/
def poll (a : Answers) (process : RecordedProcess) (t : TrackedTarget) :
    TrackedTarget × List (Option Duration) × Bool :=
  if a.stopping (.poll process) then (t, [], true)
  else
    match t.attachment, t.status.activity with
    | some _, .observing _ =>
      match a.poll process with
      | .ok (some delay) => (t, [some delay], false)
      | .ok none => (t, [], false)
      | .error error => (t.retry error (a.retiredAt process), [none], false)
    | _, _ => (t, [], false)

/-- The body of the loop of `run`: the delay that it waits for; `none` means stop. -/
def turn (a : Answers) (l : Lifecycle) : Lifecycle × Option Duration :=
  if l.stopped then (l, none)
  else
    match l.step a with
    | (l, none) => ({ l with stopped := true }, none)
    | (l, some delay) =>
      match l.targets.visit (poll a) with
      | (targets, _, true) => ({ l with targets, stopped := true }, none)
      | (targets, polled, false) =>
        let l := { l with targets }
        (if none ∈ polled then l.publish else l, some (polled.reduceOption.foldl min delay))

/-- The worker after some turns. -/
def run (answers : List Answers) : Lifecycle :=
  answers.foldl (fun l a => (l.turn a).1) {}

end Lifecycle

end Worker
end WfObserver
