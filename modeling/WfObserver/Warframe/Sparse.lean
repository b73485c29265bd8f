import WfObserver.Warframe.Inventory

/-!
# Objects in a target (`session/fixture.rs`)

A memory that holds what was put there and nothing else. `login` lays out an account, `inventory` the
data of its profile, with one family that is not empty. The concrete runs of the readers use them.
-/

namespace WfObserver
namespace Warframe
namespace Sparse

open ProviderSdk ProfileInventory

/-- `to_le_bytes` of a number of `width` bytes. -/
def toLeBytes (width n : Nat) : List UInt8 := (List.range width).map fun i => UInt8.ofNat (n / 256 ^ i)

/-- A record of 16 bytes: its number is bound to the address of its stored word. -/
def scalarRecord (codec : AddressEncodedScalarFacts) (record item : Nat) (value : BitVec 32) :
    List UInt8 :=
  let addressWord : BitVec 32 := BitVec.ofNat 32 ((record + 12) >>> codec.addressShift)
  let stored := (value ^^^ addressWord ^^^ codec.valueXor).rotateRight codec.rotateLeft
  toLeBytes 8 item ++ toLeBytes 4 (stored ^^^ codec.checkXor).toNat ++ toLeBytes 4 stored.toNat

/-- The records that lie at `payload`, with the numbers that they stand for. -/
def scalarRecords (codec : AddressEncodedScalarFacts) (payload : Nat) (items : List (Nat × BitVec 32)) :
    List UInt8 :=
  items.zipIdx.flatMap fun item => scalarRecord codec (payload + item.2 * 16) item.1.1 item.1.2

/-- The codec of the counts of stacks. -/
def stackCodec : AddressEncodedScalarFacts where
  check := 8
  stored := 12
  rotateLeft := 19
  addressShift := 3
  valueXor := 0xac7e8740
  checkXor := 0x9c084a47

example : Inventory.stackRecords.count = .addressEncoded stackCodec := rfl

/-- The byte at an address. -/
def byteAt (parts : List (Nat × List UInt8)) (address : Nat) : Option UInt8 :=
  match parts with
  | [] => none
  | (start, bytes) :: parts =>
    match Nat.ble start address && Nat.blt address (start + bytes.length) with
    | true => bytes[address - start]?
    | false => byteAt parts address

structure Memory where
  base : Nat
  /-- What was put where, the latest first. -/
  bytes : List (Nat × List UInt8) := []

namespace Memory

variable (memory : Memory)

def heap : Nat := memory.base + 0x10000000

def account : Nat := memory.heap + 0x50000

def data : Nat := memory.heap + 0x100000

def payload : Nat := memory.heap + 0x200000

def put (address : Nat) (bytes : List UInt8) : Memory :=
  { memory with bytes := (address, bytes) :: memory.bytes }

/-- `read_into`. -/
def processMemory : ProcessMemory where
  readInto address n :=
    match (List.range n).mapM fun i => byteAt memory.bytes (address + i) with
    | some bytes => .ok (Vector.ofFn fun i => bytes.getD i 0)
    | none => .error "invalid read range"

/-- A reader of the addresses of the user, with the executable at `base`. -/
def reader : TargetReader where
  memory := memory.processMemory
  moduleBase := memory.base
  imageSize := 0x3000000
  limits := ⟨0x10000, maxUserAddress⟩

def putPointers (pointers : List (Nat × Nat)) : Memory :=
  pointers.foldl (fun memory pointer => memory.put pointer.1 (toLeBytes 8 pointer.2)) memory

def manager : Nat := memory.heap + 0x10000

def control : Nat := memory.heap + 0x30000

def profile : Nat := memory.heap + 0x40000

def login : Memory :=
  let base := memory.base
  let vector := memory.heap + 0x20000
  let dataControl := memory.heap + 0x60000
  let memory' := memory.putPointers
    [(base + 0x0278a2d0, memory.heap), (memory.heap, memory.manager), (memory.manager, base + 0x021185f0),
      (base + 0x021185f0 + 0xb8, base + 0x00a52ec0), (base + 0x021185f0 + 0x148, base + 0x013fdf80),
      (memory.manager + 0x230, vector), (vector, memory.control), (memory.control, memory.profile),
      (memory.profile, base + 0x0211ddc8), (base + 0x0211ddc8 + 0x18, base + 0x0119f7a0),
      (base + 0x0211ddc8 + 0x28, base + 0x002c1760), (base + 0x0211ddc8 + 0x388, base + 0x00866c20),
      (memory.profile + 0x1d8, 0), (memory.profile + 0x208, dataControl), (dataControl, memory.data),
      (memory.data, base + 0x0234c958)]
  memory'.put (memory.manager + 0x168) (toLeBytes 4 4)
    |>.put (memory.manager + 0x238) (toLeBytes 4 8)
    |>.put (memory.manager + 0x23c) (toLeBytes 4 8)
    |>.put (memory.profile + 0x1e1) [1]
    |>.put (memory.profile + 0x118) (List.replicate 16 0)
    |>.put (memory.profile + 0x118) (toLeBytes 8 memory.account)
    |>.put (memory.profile + 0x120) (toLeBytes 4 24)
    |>.put (memory.profile + 0x127) [0xff]
    |>.put memory.account "0123456789abcdef01234567".toUTF8.toList

/-- The vector of a family, with its records at `payload`. -/
def putVector (vector payload : Nat) (records : List UInt8) : Memory :=
  memory.put (memory.data + inventoryOwnerOffset + vector)
      (toLeBytes 8 payload ++ toLeBytes 4 records.length ++ toLeBytes 4 records.length)
    |>.put payload records

def firstType : Nat := memory.heap + 0x300000

def secondType : Nat := memory.heap + 0x310000

def typePrefix : Nat := memory.heap + 0x330000

/-- The descriptor of an item type whose path ends in a token. -/
def putDescriptor (itemType token : Nat) : Memory :=
  memory.put itemType (List.replicate 48 0)
    |>.put itemType (toLeBytes 8 (memory.base + 0x0200ad18))
    |>.put (itemType + 16) (toLeBytes 8 memory.typePrefix)
    |>.put (itemType + 44) (toLeBytes 4 token)

def putToken (token : Nat) (text : String) : Memory :=
  let pool := memory.heap + 0x320000
  let address := memory.heap + 0x340000 + token * 0x1000
  memory.put (pool + token * 16) (toLeBytes 8 address)
    |>.put address (List.replicate 64 0)
    |>.put address text.toUTF8.toList

def inventory : Memory :=
  let empty := (memory.put (memory.data + forceUpdate) [0]).put (memory.data + syncTokens)
    (List.replicate 24 0)
  let families := Inventory.families.foldl (fun (memory : Memory) facts =>
    memory.put (memory.data + inventoryOwnerOffset + facts.vector) (List.replicate 16 0)) empty
  families.putVector 0xd0 memory.payload (scalarRecords stackCodec memory.payload
      [(memory.firstType, 3), (memory.secondType, 5), (memory.firstType, 7)])
    |>.put (memory.base + 0x0288d610) (toLeBytes 8 (memory.heap + 0x320000))
    |>.put memory.typePrefix (toLeBytes 4 1)
    |>.putDescriptor memory.firstType 2
    |>.putDescriptor memory.secondType 3
    |>.putToken 1 "/Lotus/Types/Items/MiscItems/"
    |>.putToken 2 "AlloyPlate"
    |>.putToken 3 "OrokinCell"

end Memory

end Sparse
end Warframe
end WfObserver
