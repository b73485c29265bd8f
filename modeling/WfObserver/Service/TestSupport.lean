import WfObserver.Protocol.Delta
import WfObserver.Service.State
import WfObserver.Wire.Encoding

/-!
# The counter service of the tests (`test_support.rs`)

A provider with two capabilities, and instances of the parameters that the service is generic in:
`postcard` has the sizes of `Wire.Encoding`, `serdeJson` is `serde_json` on natural numbers, whose
patches replace the whole value. The concrete runs of this development use them.
-/

namespace WfObserver
namespace TestSupport

open Wire Service
open ProviderSdk (ProviderManifest)

/-! ## Encodings -/

instance postcard : Postcard where
  item i := some (Encoding.item i)
  subscribe s := some (Encoding.subscribe s)
  sessionInfo i := some (Encoding.sessionInfo i)
  snapshotPayload p := some (Encoding.snapshotPayload p)

instance serdeJson : SerdeJson where
  Value := Nat
  fromStr s := s.toNat?
  toString n := some (toString n)

instance jsonPatch : JsonPatch where
  diff _ after := [.replace "" after]
  patch _
    | [.replace "" after] => some after
    | _ => none
  fromStr s := s.toNat?.map fun after => [.replace "" after]
  toString
    | [.replace "" after] => SerdeJson.toString after
    | _ => none

/-- The text stands for its own hash. -/
instance blake3 : Blake3 where
  hash s := s.toByteArray.data.toList

instance platform : Platform where
  operationSize := 128

/-! ## The provider -/

/-- `CAPS`. -/
def caps : List ProviderSdk.CapabilityDescriptor :=
  [⟨"fixture.count", 1, some .full, true⟩, ⟨"fixture.shared", 1, some .full, false⟩]

/-- `MANIFEST`. -/
def manifest : ProviderManifest where
  id := "fixture.provider"
  name := "Fixture"
  version := "test"
  game := ⟨"fixture", "Fixture"⟩
  capabilities := caps

/-- `topic(0)`. -/
def topic : TopicRef := ⟨"fixture.provider", "fixture.count", 1⟩

/-- `state()`, with a fixed run id and one MiB messages. -/
def service : Inner where
  catalog := ⟨[publicProvider manifest]⟩
  messageBytes := 1024 * 1024
  runId := "run"

theorem new_service : ServiceState.new [manifest] "run" (1024 * 1024) = .ok service := by rfl

/-- What `observe` publishes for one session. -/
def observing (id : String) : HostStatus where
  targets :=
    [⟨⟨⟨1, 1⟩, "fixture.exe", "fixture.provider", "fixture"⟩, .observing id⟩]

/-- `selection()`. -/
def selection : Subscribe := ⟨.all, [topic]⟩

/-- A consumer that only `pop` operations drive. -/
def idle : Nat → Nat := fun _ => 0

/-- A batch with one snapshot. -/
def count (n : Nat) : PollBatch :=
  ((PollBatch.new manifest).snapshot ⟨"fixture.count", 1, some .full, true⟩ n).2

/-- The ticket of session `one` after its first subscription. -/
def ticket : PollTicket := ⟨"one", [⟨topic, 2, 1⟩]⟩

/-- One session, one subscription, one published poll. -/
def published : List Op :=
  [.updateLifecycle (observing "one") 0, .subscribe selection ⟨0, 0, 0⟩ idle,
    .commitPoll ticket (count 7) (seconds 6) 0]

/-- The session after `published`. -/
def one : Session := ((run service published).sessions.get? "one").getD
  ⟨⟨⟨"run", "one"⟩, "fixture.provider", "fixture", ⟨1, "fixture.exe"⟩, none⟩, ∅⟩

/-- The topic that the poll published. -/
def counted : Topic where
  state :=
    { source := ⟨⟨"run", "one"⟩, "fixture", topic⟩
      generation := 2
      health := .available
      snapshot := some ⟨⟨⟨⟨"run", "one"⟩, "fixture", topic⟩, 2, 6⟩, ⟨"7"⟩⟩ }
  demanded := true
  epoch := 1
  deadline := some (seconds 6)

theorem published_one : (run service published).sessions.get? "one" = some one := by
  decide +kernel

theorem one_counted : one.topics.get? topic = some counted := by decide +kernel

end TestSupport
end WfObserver
