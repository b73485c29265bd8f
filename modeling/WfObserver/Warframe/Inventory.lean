import WfObserver.Lib.Chunks
import WfObserver.Lib.Tally
import WfObserver.Warframe.ItemType
import WfObserver.Warframe.Model.Inventory
import WfObserver.Warframe.ProfileInventory
import WfObserver.Warframe.Roots
import WfObserver.Wire

/-!
# Reading an inventory (`topics/inventory`)

Each family of the inventory is a vector of native records. Its counts are aggregated by item type
(`decodeRecords`) and then by item path (`projectItems`), over any way to resolve a path.
-/

namespace WfObserver
namespace Warframe
namespace Inventory

open ProviderSdk Stateful StringPool ItemType ProfileInventory

/-! ## Facts (`facts.rs`) -/

inductive InventoryRecordCountFacts where
  /-- One vector record is one owned instance. -/
  | single
  /-- One vector record is a protected stack count. -/
  | addressEncoded (codec : AddressEncodedScalarFacts)
  /-- One vector record carries a plain unsigned stack count. -/
  | plain (count : Nat)
  deriving DecidableEq, Repr

structure InventoryRecordFacts where
  bytes : Nat
  itemType : Nat
  count : InventoryRecordCountFacts
  deriving DecidableEq, Repr

structure InventoryFamilyFacts where
  family : InventoryFamily
  vector : Nat
  record : InventoryRecordFacts
  deriving DecidableEq, Repr

def equipment : InventoryRecordFacts where
  bytes := 304
  itemType := 0x8
  count := .single

def skins : InventoryRecordFacts where
  bytes := 80
  itemType := 0x0
  count := .plain 0x38

def upgrades : InventoryRecordFacts where
  bytes := 80
  itemType := 0x0
  count := .plain 0x38

def consumables : InventoryRecordFacts where
  bytes := 16
  itemType := 0x0
  count := .plain 0x8

def beasts : InventoryRecordFacts where
  bytes := 528
  itemType := 0x8
  count := .single

def vessels : InventoryRecordFacts where
  bytes := 1248
  itemType := 0x8
  count := .single

def wreckage : InventoryRecordFacts where
  bytes := 304
  itemType := 0x8
  count := .single

def stackRecords : InventoryRecordFacts where
  bytes := 16
  itemType := 0x0
  count := .addressEncoded {
    check := 0x8
    stored := 0xc
    rotateLeft := 0x13
    addressShift := 0x3
    valueXor := 0xac7e8740
    checkXor := 0x9c084a47 }

/-- `INVENTORY`. -/
def families : List InventoryFamilyFacts :=
  [⟨.longGuns, 0x0, equipment⟩, ⟨.pistols, 0x10, equipment⟩, ⟨.warframes, 0x20, equipment⟩,
    ⟨.melee, 0x30, equipment⟩, ⟨.weaponSkins, 0x50, skins⟩, ⟨.rawUpgrades, 0x60, upgrades⟩,
    ⟨.consumables, 0xb0, consumables⟩, ⟨.miscItems, 0xd0, stackRecords⟩, ⟨.sentinels, 0x100, equipment⟩,
    ⟨.sentinelWeapons, 0x110, equipment⟩, ⟨.kubrowPets, 0x178, beasts⟩, ⟨.spaceSuits, 0x198, equipment⟩,
    ⟨.spaceGuns, 0x1a8, equipment⟩, ⟨.spaceMelee, 0x1b8, equipment⟩, ⟨.scoops, 0x208, equipment⟩,
    ⟨.fusionBundles, 0x228, stackRecords⟩, ⟨.shipDecorations, 0x1d8, stackRecords⟩, ⟨.emailItems, 0x1e8, stackRecords⟩,
    ⟨.foundToday, 0x1c8, stackRecords⟩, ⟨.levelKeys, 0x120, stackRecords⟩, ⟨.recipes, 0xe0, stackRecords⟩,
    ⟨.operatorAmps, 0x258, equipment⟩, ⟨.specialItems, 0x268, equipment⟩, ⟨.moaPets, 0x278, equipment⟩,
    ⟨.hoverboards, 0x288, equipment⟩, ⟨.crewShips, 0x298, vessels⟩,
    ⟨.crewShipWeapons, 0x2f8, equipment⟩, ⟨.crewShipSalvagedWeapons, 0x308, wreckage⟩,
    ⟨.drifterGuns, 0x2a8, equipment⟩, ⟨.drifterMelee, 0x2b8, equipment⟩, ⟨.gadgets, 0x2c8, equipment⟩,
    ⟨.horses, 0x2d8, equipment⟩, ⟨.crewShipRawSalvage, 0x358, stackRecords⟩, ⟨.dataKnives, 0x368, equipment⟩,
    ⟨.mechSuits, 0x378, equipment⟩, ⟨.crewShipHarnesses, 0x388, equipment⟩,
    ⟨.motorcycles, 0x398, equipment⟩, ⟨.operatorSuits, 0x3a8, equipment⟩, ⟨.antiques, 0x3b8, equipment⟩,
    ⟨.bonusMiscItems, 0xc68, stackRecords⟩]

/-! ## Records (`layout.rs`) -/

inductive LayoutError where
  | record (error : ReadError)
  | invalidItemType (index itemType : Nat)
  | invalidCount (index : Nat)
  | countOverflow
  deriving DecidableEq, Repr

def ofRecord {α : Type} (x : Except RecordError α) : Except LayoutError α :=
  x.mapError fun error => .record error.toReadError

/-- What one record counts. -/
def recordCount (payloadAddress : Nat) (facts : InventoryRecordFacts) (index : Nat)
    (record : RecordView) : Except LayoutError Nat :=
  match facts.count with
  | .single => .ok 1
  | .plain count => ofRecord (record.u32 count)
  | .addressEncoded codec => do
    let check ← ofRecord (record.u32 codec.check)
    let stored ← ofRecord (record.u32 codec.stored)
    let storedAddress := payloadAddress + (index * facts.bytes + codec.stored)
    if addressEnd ≤ storedAddress then .error .countOverflow
    else match codec.decode (BitVec.ofNat 32 check) (BitVec.ofNat 32 stored) storedAddress with
      | some count => .ok count.toNat
      | none => .error (.invalidCount index)

/-- The item type and the count of one record. -/
def decodeRecord (payloadAddress : Nat) (facts : InventoryRecordFacts) (record : List UInt8 × Nat) :
    Except LayoutError (Nat × Nat) := do
  let view : RecordView := ⟨record.1, "inventory record"⟩
  let itemType ← ofRecord (view.u64 facts.itemType)
  if !isUserAddress itemType then .error (.invalidItemType record.2 itemType)
  else pure (itemType, ← recordCount payloadAddress facts record.2 view)

/-- An amount added to the counts. -/
def aggregate {κ : Type} [LinearOrder κ] (counts : OrdMap κ Nat) (key : κ) (quantity : Nat) :
    Except LayoutError (OrdMap κ Nat) :=
  if u64Max < counts.count key + quantity then .error .countOverflow
  else .ok (counts.add key quantity)

/-- One round of the loop over the records. -/
def countRecord (payloadAddress : Nat) (facts : InventoryRecordFacts) (counts : OrdMap Nat Nat)
    (record : List UInt8 × Nat) : Except LayoutError (OrdMap Nat Nat) := do
  let (itemType, count) ← decodeRecord payloadAddress facts record
  if count = 0 then pure counts else aggregate counts itemType count

def decodeRecords (payloadAddress : Nat) (payload : List UInt8) (facts : InventoryRecordFacts) :
    Except LayoutError (OrdMap Nat Nat) :=
  if facts.bytes = 0 ∨ payload.length % facts.bytes ≠ 0 then
    .error (.record (.invalid "inventory record stride"))
  else (Chunks.chunksExact facts.bytes payload).zipIdx.foldlM (countRecord payloadAddress facts) ∅

/-! ## Acquisition (`acquisition.rs`) -/

inductive InventoryError where
  | read (error : ReadError)
  | layout (error : LayoutError)
  | itemType (error : ItemTypeError)
  | invalidModel (error : InvalidInventory)
  deriving DecidableEq, Repr

section

variable {m : Type → Type} [Monad m] [MonadLiftT (Except InventoryError) m]
  (resolve : Nat → m ItemKey) (start : m Unit)

/-- One round of the loop over the counts. -/
def projectItem (counts : OrdMap ItemKey Nat) (item : Nat × Nat) : m (OrdMap ItemKey Nat) := do
  let itemKey ← resolve item.1
  liftM ((aggregate counts itemKey item.2).mapError InventoryError.layout)

def projectItems (itemCounts : OrdMap Nat Nat) : m (List InventoryItemCount) := do
  let counts ← itemCounts.entries.foldlM (projectItem resolve) ∅
  pure (counts.entries.map fun item => ⟨item.1, item.2⟩)

/-- The items of a family's payload. `start` starts a batch of resolutions. -/
def familyItems (address : Nat) (payload : List UInt8) (facts : InventoryRecordFacts) :
    m (List InventoryItemCount) := do
  let counts ← liftM ((decodeRecords address payload facts).mapError InventoryError.layout)
  start
  projectItems resolve counts

def readFamily (reader : TargetReader) (inventory : Nat) (facts : InventoryFamilyFacts) :
    m InventoryFamilySnapshot := do
  let (address, payload) ← liftM ((readVector reader inventory facts.vector facts.record.bytes).mapError
    InventoryError.read)
  let items ← familyItems resolve start address payload facts.record
  pure ⟨facts.family, items⟩

/-- `read_inventory` over any way to resolve item paths. -/
def readInventoryWith (reader : TargetReader) (login : Roots.ProfileDataIdentity) :
    m InventorySnapshot := do
  let profileData := login.object.get
  let inventory ← liftM ((reader.objectAddress profileData inventoryOwnerOffset
    vectorHeaderBytes).mapError InventoryError.read)
  let before ← liftM ((readCommitState reader profileData).mapError InventoryError.read)
  let families ← families.mapM (readFamily resolve start reader inventory)
  let again ← liftM ((readCommitState reader profileData).mapError InventoryError.read)
  if before ≠ again then
    liftM (Except.error (.read (.changed "inventory commit markers")) :
      Except InventoryError InventorySnapshot)
  else liftM ((InventorySnapshot.new login.account.accountId families).mapError
    InventoryError.invalidModel)

end

/-- Item paths through the caches. -/
def resolveItemPath (reader : TargetReader) (itemType : Nat) :
    ExceptT InventoryError (StateM Resolver) ItemKey :=
  ExceptT.adapt InventoryError.itemType (Resolver.resolveItemPath reader itemTypes itemType)

/-- The pool is resolved once in each family. -/
def startBatch : ExceptT InventoryError (StateM Resolver) Unit := do
  let state ← get
  set { state with pool := none }

def readInventory (reader : TargetReader) (login : Roots.ProfileDataIdentity) :
    ExceptT InventoryError (StateM Resolver) InventorySnapshot :=
  readInventoryWith (resolveItemPath reader) startBatch reader login

end Inventory
end Warframe
end WfObserver
