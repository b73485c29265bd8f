import WfObserver.Lib.Chunks
import WfObserver.Warframe.ProfileInventory

/-!
# Mastery records (`topics/mastery/layout.rs`)
-/

namespace WfObserver
namespace Warframe
namespace Mastery

open ProviderSdk ProfileInventory

structure MasteryFacts where
  recordBytes : Nat
  itemType : Nat
  xp : AddressEncodedScalarFacts
  deriving DecidableEq, Repr

def mastery : MasteryFacts where
  recordBytes := 16
  itemType := 0
  xp := {
    check := 8
    stored := 12
    rotateLeft := 17
    addressShift := 3
    valueXor := 0x8637d1b6
    checkXor := 0x2c67b217 }

structure NativeItem where
  itemType : Nat
  affinity : Nat
  deriving DecidableEq, Repr

/-- The item of one record. The game skips null item slots. -/
def decodeRecord (payloadAddress : Nat) (record : List UInt8 × Nat) :
    Except ReadError (Option NativeItem) := do
  let view : RecordView := ⟨record.1, "mastery record"⟩
  let itemType ← (view.u64 mastery.itemType).mapError (·.toReadError)
  if itemType = 0 then pure none
  else if !isUserAddress itemType then .error (.invalid "mastery item type")
  else
    let recordAddress := payloadAddress + record.2 * mastery.recordBytes
    if addressEnd ≤ recordAddress ∨ addressEnd ≤ recordAddress + mastery.xp.stored then
      .error (.overflow "mastery record address")
    else do
      let check ← (view.u32 mastery.xp.check).mapError (·.toReadError)
      let stored ← (view.u32 mastery.xp.stored).mapError (·.toReadError)
      match mastery.xp.decode (BitVec.ofNat 32 check) (BitVec.ofNat 32 stored)
          (recordAddress + mastery.xp.stored) with
      | some affinity => pure (some ⟨itemType, affinity.toNat⟩)
      | none => .error (.invalid "mastery affinity integrity")

def decodeRecords (payloadAddress : Nat) (payload : List UInt8) : Except ReadError (List NativeItem) :=
  if mastery.recordBytes = 0 ∨ payload.length % mastery.recordBytes ≠ 0 then
    .error (.invalid "mastery record stride")
  else do
    let items ← (Chunks.chunksExact mastery.recordBytes payload).zipIdx.mapM
      (decodeRecord payloadAddress)
    pure items.reduceOption

end Mastery
end Warframe
end WfObserver
