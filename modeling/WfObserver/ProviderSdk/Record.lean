import WfObserver.ProviderSdk.Memory

/-!
# Fields of a record (`provider_sdk::memory::record`)
-/

namespace WfObserver
namespace ProviderSdk

inductive RecordError where
  | overflow (place : String)
  | outOfBounds (place : String)
  deriving DecidableEq, Repr

def RecordError.toReadError : RecordError → ReadError
  | .overflow place => .overflow place
  | .outOfBounds place => .invalid place

/-- Bytes already read, with a label for errors. -/
structure RecordView where
  bytes : List UInt8
  place : String
  deriving DecidableEq, Repr

namespace RecordView

def field (record : RecordView) (offset length : Nat) : Except RecordError (List UInt8) :=
  if addressEnd ≤ offset + length then .error (.overflow record.place)
  else if record.bytes.length < offset + length then .error (.outOfBounds record.place)
  else .ok ((record.bytes.drop offset).take length)

def u32 (record : RecordView) (offset : Nat) : Except RecordError Nat :=
  fromLeBytes <$> record.field offset 4

def u64 (record : RecordView) (offset : Nat) : Except RecordError Nat :=
  fromLeBytes <$> record.field offset 8

end RecordView

end ProviderSdk
end WfObserver
