import WfObserver.Service.Subscriptions

/-!
# The service's public operations (`service/state.rs`) and its runs

`Op` lists everything that can happen to a service: the operations of `ServiceState` and of
`ServiceView`, and the pops of the subscriptions. Every public operation holds the lock, so a run
is a list of them in the order in which they took it. `pop` and the consumers' `pace` (`Channel`)
interleave the consumers with the operations and with their steps on the queues.

A read (`snapshot`, `status`) changes the service as `expire` does, so `expire` stands for it.
-/

namespace WfObserver
namespace Service

open Wire
open ProviderSdk (ProviderManifest)

variable [Postcard] [SerdeJson]

namespace ServiceState

omit [Postcard] [SerdeJson] in
/-- `ServiceState::new`: the run id is random, `irpc` gives the message limit. -/
def new (manifests : List ProviderManifest) (runId : String) (messageBytes : Nat) :
    Except String Inner :=
  match catalog manifests with
  | .error e => .error e
  | .ok catalog => .ok { catalog, messageBytes, runId }

/-- `ServiceState::shutdown`. -/
def shutdown (i : Inner) : Inner := i.close .serviceStopped

end ServiceState

/-- `ServiceView::snapshot`: the value read, and the service after the read. -/
def ServiceView.snapshot (request : GetSnapshot) (now : Instant) (i : Inner) :
    Except RequestError DataEnvelope × Inner :=
  let i := i.expire now
  (match i.session request.session with
    | .error e => .error e
    | .ok session =>
      match i.capability request.topic with
      | .error e => .error e
      | .ok cap =>
        if request.topic.providerId ≠ session.info.providerId then
          .error (invalid "topic does not belong to session")
        else if !cap.snapshots then .error (.snapshotsUnsupported request.topic)
        else match session.topics.get? request.topic with
          | none => .error (invalid "session capability is missing")
          | some topic =>
            match topic.state.health with
            | .idle => .error .idle
            | .initializing => .error .notSampled
            | .unavailable reason => .error (.unavailable reason)
            | .available =>
              match topic.state.snapshot with
              | none => .error .notSampled
              | some envelope => .ok envelope, i)

/-! ## Runs -/

inductive Op where
  | updateLifecycle (status : HostStatus) (now : Instant)
  | subscribe (request : Subscribe) (clock : Readings) (pace : Nat → Nat)
  | drop (id : Nat) (now : Instant)
  | commitPoll (ticket : PollTicket) (batch : PollBatch) (deadline now : Instant)
  | discardPoll (ticket : PollTicket) (resets : List TopicRef) (failed : Bool) (now : Instant)
  | expire (now : Instant)
  | shutdown
  | pop (id : Nat)

/-- The service after one operation. -/
def step (i : Inner) : Op → Inner
  | .updateLifecycle status now => (i.syncRuntime status now).2
  | .subscribe request clock pace => (i.subscribe request clock pace).2
  | .drop id now => i.drop id now
  | .commitPoll ticket batch deadline now => (i.commitPoll ticket batch deadline now).2
  | .discardPoll ticket resets failed now => (i.discardPoll ticket resets failed now).2
  | .expire now => i.expire now
  | .shutdown => ServiceState.shutdown i
  | .pop id => i.pop id

/-- The service after a run. -/
def run (i : Inner) (ops : List Op) : Inner := ops.foldl step i

@[simp] theorem run_nil (i : Inner) : run i [] = i := rfl

@[simp] theorem run_cons (i : Inner) (op : Op) (ops : List Op) :
    run i (op :: ops) = run (step i op) ops := rfl

theorem run_append (i : Inner) (ops ops' : List Op) : run i (ops ++ ops') = run (run i ops) ops' :=
  List.foldl_append

end Service
end WfObserver
