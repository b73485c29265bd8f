import Mathlib.Data.BitVec
import WfObserver.ProviderSdk.Record

/-!
# Inventory vectors of a profile (`profile_inventory`) and protected scalars (`scalar.rs`)
-/

namespace WfObserver
namespace Warframe

open ProviderSdk

/-! ## Scalars -/

structure AddressEncodedScalarFacts where
  check : Nat
  stored : Nat
  rotateLeft : Nat
  addressShift : Nat
  valueXor : BitVec 32
  checkXor : BitVec 32
  deriving DecidableEq, Repr

/-- A scalar is bound to the address of its stored word in the game. -/
def AddressEncodedScalarFacts.decode (facts : AddressEncodedScalarFacts) (check stored : BitVec 32)
    (storedAddress : Nat) : Option (BitVec 32) :=
  if 32 ≤ facts.rotateLeft ∨ 64 ≤ facts.addressShift then none
  else if check = stored ^^^ facts.checkXor then
    some (stored.rotateLeft facts.rotateLeft ^^^ BitVec.ofNat 32 (storedAddress >>> facts.addressShift)
      ^^^ facts.valueXor)
  else none

namespace ProfileInventory

/-! ## Facts (`facts.rs`) -/

/-- `INVENTORY_OWNER`: where the inventory lies in the profile data. -/
def inventoryOwnerOffset : Nat := 0xd608

/-- `PROFILE_COMMIT`: the flag of a rebuild, and the tokens that change with a commit. -/
def forceUpdate : Nat := 0x00011ff8

def syncTokens : Nat := 0xffe0

/-! ## Vectors -/

def vectorHeaderBytes : Nat := 16

def maxVectorBytes : Nat := 8 * 1024 * 1024

def maxUserAddress : Nat := 0x00007fffffffffff

structure NativeVectorHeader where
  pointer : Nat
  bytes : Nat
  capacity : Nat
  deriving DecidableEq, Repr

def isUserAddress (address : Nat) : Bool := 0x10000 ≤ address && address ≤ maxUserAddress

def isUserRange (address bytes : Nat) : Bool :=
  if bytes = 0 then address == 0 || isUserAddress address
  else isUserAddress address && address + (bytes - 1) < addressEnd &&
    address + (bytes - 1) ≤ maxUserAddress

def decodeHeader (bytes : Vector UInt8 16) (recordBytes : Nat) : Except ReadError NativeVectorHeader :=
  if recordBytes = 0 then .error (.invalid "native vector stride")
  else
    let header : NativeVectorHeader := {
      pointer := fromLeBytes (bytes.toList.take 8)
      bytes := fromLeBytes ((bytes.toList.drop 8).take 4)
      capacity := fromLeBytes (bytes.toList.drop 12) }
    if header.capacity < header.bytes then .error (.invalid "native vector length/capacity")
    else if maxVectorBytes < header.capacity then .error (.limit "native vector capacity")
    else if header.bytes % recordBytes ≠ 0 ∨ header.capacity % recordBytes ≠ 0 then
      .error (.invalid "native vector records")
    else if !isUserRange header.pointer header.capacity then .error (.invalid "native vector payload")
    else .ok header

/-- The header is read again after the payload. -/
def readVector (reader : TargetReader) (inventory vector recordBytes : Nat) :
    Except ReadError (Nat × List UInt8) := do
  let address ← reader.objectAddress inventory vector vectorHeaderBytes
  let before ← reader.readAt address 16
  let header ← decodeHeader before recordBytes
  let payload ← reader.readAt header.pointer header.bytes
  let address ← reader.objectAddress inventory vector vectorHeaderBytes
  let again ← reader.readAt address 16
  if before ≠ again then .error (.changed "inventory vector header")
  else pure (header.pointer, payload.toList)

def readCommitState (reader : TargetReader) (profileData : Nat) : Except ReadError (Vector UInt8 24) := do
  let rebuilding ← reader.readObjectU8 profileData forceUpdate
  if rebuilding ≠ 0 then .error (.notReady "profile inventory rebuild")
  else do
    let address ← reader.objectAddress profileData syncTokens 24
    reader.readAt address 24

end ProfileInventory

end Warframe
end WfObserver
