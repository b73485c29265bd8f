import WfObserver.Wire

/-!
# Provider contracts (`provider_sdk`)

The compiled manifest of a provider, the health it reports and its errors
(`crates/provider-sdk/src/contract`). These are host-side types: `Service.Batch` turns them into
wire values.
-/

namespace WfObserver
namespace ProviderSdk

inductive SnapshotDelivery where
  | full
  | delta
  deriving DecidableEq, Repr

structure CapabilityDescriptor where
  topic : String
  schemaVersion : Nat
  snapshots : Option SnapshotDelivery
  events : Bool
  deriving DecidableEq, Repr

structure GameDescriptor where
  id : String
  name : String
  deriving DecidableEq, Repr

structure ProviderManifest where
  id : String
  name : String
  version : String
  game : GameDescriptor
  capabilities : List CapabilityDescriptor
  deriving DecidableEq, Repr

inductive DependencyFailure where
  | targetNotReady
  | unsupportedBuild
  | readFailed
  | validationFailed
  | providerFailed
  deriving DecidableEq, Repr

inductive UnavailableReason where
  | targetNotReady
  | unsupportedBuild
  | readFailed (message : String)
  | validationFailed (message : String)
  | providerFailed (message : String)
  | dependencyUnavailable (dependency : String) (failure : DependencyFailure)
  deriving DecidableEq, Repr

namespace UnavailableReason

/-- The failure category, also for a named dependency. -/
def failure : UnavailableReason → DependencyFailure
  | .targetNotReady => .targetNotReady
  | .unsupportedBuild => .unsupportedBuild
  | .readFailed _ => .readFailed
  | .validationFailed _ => .validationFailed
  | .providerFailed _ => .providerFailed
  | .dependencyUnavailable _ failure => failure

/-- Names the dependency, unless one is already named. -/
def withDependency (reason : UnavailableReason) (dependency : String) : UnavailableReason :=
  match reason with
  | .dependencyUnavailable d f => .dependencyUnavailable d f
  | reason => .dependencyUnavailable dependency reason.failure

@[simp] theorem failure_withDependency (reason : UnavailableReason) (dependency : String) :
    (reason.withDependency dependency).failure = reason.failure := by
  cases reason <;> rfl

end UnavailableReason

inductive CapabilityHealth where
  | available
  | unavailable (reason : UnavailableReason)
  deriving DecidableEq, Repr

inductive ProviderError where
  | memory (error : String)
  | invalidTarget
  | failed (message : String)
  deriving DecidableEq, Repr

inductive PollResult where
  | after (delay : Duration)
  | idle
  deriving DecidableEq, Repr

end ProviderSdk
end WfObserver
