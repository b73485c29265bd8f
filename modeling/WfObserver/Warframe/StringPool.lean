import Mathlib.Data.Vector.Basic
import Mathlib.Data.Prod.Lex
import WfObserver.Lib.OrdMap
import WfObserver.Lib.Stateful
import WfObserver.ProviderSdk.Memory

/-!
# Strings of the game's pool (`string_pool`)

`read_c_string` reads a string up to its NUL in chunks that end at multiples of 64 bytes. It is written over
any way to read the target (`readAt`), so that it runs through a budgeted reader as well.
-/

namespace WfObserver
namespace Warframe
namespace StringPool

open ProviderSdk Stateful

def maxStringTokens : Nat := 16384

def maxStringBytes : Nat := 255

def maxDecodedBytes : Nat := 1024 * 1024

def stringReadBytes : Nat := 64

/-- `u8::is_ascii_graphic`. -/
def isAsciiGraphic (byte : UInt8) : Bool := 0x21 ≤ byte && byte ≤ 0x7e

section

variable {m : Type → Type} [Monad m] [MonadExcept ReadError m]

/-- The string of the bytes before a NUL. -/
def terminated (value : List UInt8) : m String :=
  if maxStringBytes < value.length || value.any (fun byte => !isAsciiGraphic byte) then
    throw (.invalid "string-pool string")
  else match String.fromUTF8? ⟨value.toArray⟩ with
    | some text => pure text
    | none => throw (.invalid "string-pool string")

/-- How many bytes a chunk takes: to the next multiple of 64, or what the longest string still needs. -/
def readBytes (chunkAddress length : Nat) : Nat :=
  min (maxStringBytes + 1 - length) (stringReadBytes - chunkAddress % stringReadBytes)

/-- The loop of `read_c_string`, with the bytes read so far. -/
def readChunks (readAt : Nat → (n : Nat) → m (Vector UInt8 n)) (address : Nat)
    (value : List UInt8) : m String :=
  if _h : value.length ≤ maxStringBytes then
    if addressEnd ≤ address + value.length then throw (.overflow "string-pool string address")
    else do
      let chunkAddress := address + value.length
      let chunk ← readAt chunkAddress (readBytes chunkAddress value.length)
      match chunk.toList.findIdx? (· == 0) with
      | some nul => terminated (value ++ chunk.toList.take nul)
      | none => readChunks readAt address (value ++ chunk.toList)
  else throw (.limit "string-pool string length")
termination_by maxStringBytes + 1 - value.length
decreasing_by
  rw [List.length_append, Vector.length_toList]
  unfold readBytes stringReadBytes maxStringBytes at *
  omega

def readCString (readAt : Nat → (n : Nat) → m (Vector UInt8 n)) (address : Nat) : m String :=
  readChunks readAt address []

end

/-! ## Tokens -/

structure StringPoolFacts where
  root : Nat
  deriving DecidableEq, Repr

def strings : StringPoolFacts where
  root := 0x0288d610

def requireAligned (address alignment : Nat) (location : String) : Except ReadError Unit :=
  if address ≠ 0 ∧ address % alignment = 0 then .ok () else .error (.invalid location)

structure StringTokenCache where
  values : OrdMap (Nat ×ₗ Nat) String
  decodedBytes : Nat

instance : Inhabited StringTokenCache := ⟨⟨∅, 0⟩⟩

/-- The address of the pool. -/
def StringTokenCache.pool (reader : TargetReader) (facts : StringPoolFacts) : Except ReadError Nat := do
  let root ← reader.moduleAddress facts.root 8
  let pool ← reader.readU64 root
  requireAligned pool 8 "root"
  pure pool

/-- A token read from the pool: its low half names a bucket, its high half a place there. -/
def readToken (reader : TargetReader) (pool token : Nat) : Except ReadError String :=
  if addressEnd ≤ pool + token % 0x10000 * 16 then .error (.overflow "string token address")
  else do
    let bucket ← reader.readU64 (pool + token % 0x10000 * 16)
    requireAligned bucket 8 "token bucket"
    if addressEnd ≤ bucket + token / 0x10000 then .error (.overflow "string token address")
    else readCString reader.readAt (bucket + token / 0x10000)

def StringTokenCache.resolve (reader : TargetReader) (pool token : Nat) :
    ExceptT ReadError (StateM StringTokenCache) String := do
  let cache ← get
  match cache.values.get? (toLex (pool, token)) with
  | some value => pure value
  | none =>
    let value ← liftM (readToken reader pool token)
    if cache.values.size < maxStringTokens ∧
        cache.decodedBytes + value.utf8ByteSize ≤ maxDecodedBytes then
      set ({
        values := cache.values.insert (toLex (pool, token)) value
        decodedBytes := cache.decodedBytes + value.utf8ByteSize } : StringTokenCache)
    pure value

end StringPool
end Warframe
end WfObserver
