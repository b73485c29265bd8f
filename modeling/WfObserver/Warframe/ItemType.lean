import WfObserver.ProviderSdk.Record
import WfObserver.Warframe.Model.Identifiers
import WfObserver.Warframe.StringPool

/-!
# Item types and their paths (`item_type`)

A native item descriptor names a path by two string tokens. `resolveItemPath` goes through two caches and
shares the address of the string pool with the other resolutions of its batch (`Resolver`).
-/

namespace WfObserver
namespace Warframe
namespace ItemType

open ProviderSdk Stateful StringPool

inductive ItemTypeError where
  | read (error : ReadError)
  | invalid (place : String)
  deriving DecidableEq, Repr

def maxItemTypes : Nat := 4096

def maxPathBytes : Nat := 512

def descriptorBytes : Nat := 48

structure ItemTypeFacts where
  leafVtable : Nat
  prefixObject : Nat
  suffixToken : Nat
  strings : StringPoolFacts
  deriving DecidableEq, Repr

def itemTypes : ItemTypeFacts where
  leafVtable := 0x0200ad18
  prefixObject := 0x10
  suffixToken := 0x2c
  strings := StringPool.strings

structure ItemTypeCache where
  paths : OrdMap Nat ItemKey

instance : Inhabited ItemTypeCache := ⟨⟨∅⟩⟩

/-- What the resolutions of a batch share. -/
structure Resolver where
  items : ItemTypeCache
  strings : StringTokenCache
  pool : Option Nat

instance : Inhabited Resolver := ⟨⟨default, default, none⟩⟩

/-- A read error on its way out of the resolver. -/
def ofRead {α : Type} (x : Except ReadError α) : Except ItemTypeError α := x.mapError .read

def requireAligned (address alignment : Nat) (location : String) : Except ItemTypeError Unit :=
  if address ≠ 0 ∧ address % alignment = 0 then .ok () else .error (.invalid location)

def joinPath (head suffix : String) : Except ItemTypeError ItemKey :=
  if suffix.isEmpty || (!head.isEmpty &&
      (head.toList.getLast? != some '/' || suffix.toList.head? == some '/')) then
    .error (.invalid "item type path")
  else if maxPathBytes < head.utf8ByteSize + suffix.utf8ByteSize then .error (.invalid "item type path")
  else match ItemKey.new (head ++ suffix) with
    | some key => .ok key
    | none => .error (.invalid "type path")

section

variable {m : Type → Type} [Monad m] [MonadLiftT (Except ItemTypeError) m]

/-- The first token of a descriptor's path. Without an object for it the path is the suffix alone. -/
def resolveHead (reader : TargetReader) (prefixObject : Nat) (resolve : Nat → m String) : m String :=
  if prefixObject = 0 then pure "" else do
    liftM (requireAligned prefixObject 4 "type prefix")
    let token ← liftM (ofRead (reader.readU32 prefixObject))
    resolve token

/-- The path of a descriptor, given a way to resolve its tokens. -/
def resolvePath (reader : TargetReader) (facts : ItemTypeFacts) (expectedVtable descriptor : Nat)
    (resolve : Nat → m String) : m ItemKey := do
  liftM (requireAligned descriptor 8 "type descriptor")
  let bytes ← liftM (ofRead (reader.readAt descriptor descriptorBytes))
  let record : RecordView := ⟨bytes.toList, "type descriptor"⟩
  if fromLeBytes (bytes.toList.take 8) ≠ expectedVtable then
    liftM (Except.error (ItemTypeError.invalid "type descriptor vtable") : Except ItemTypeError ItemKey)
  else
    let prefixObject ← liftM (ofRead ((record.u64 facts.prefixObject).mapError (·.toReadError)))
    let head ← resolveHead reader prefixObject resolve
    let suffixToken ← liftM (ofRead ((record.u32 facts.suffixToken).mapError (·.toReadError)))
    let suffix ← resolve suffixToken
    liftM (joinPath head suffix)

end

namespace Resolver

/-- `StringTokenCache::resolve` on the strings of a resolver. -/
def resolve (reader : TargetReader) (pool token : Nat) :
    ExceptT ItemTypeError (StateM Resolver) String := do
  let state ← get
  let (value, strings) := runFrom (StringTokenCache.resolve reader pool token) state.strings
  set { state with strings }
  liftM (ofRead value)

/-- The pool of this batch, read by its first miss. -/
def batchPool (reader : TargetReader) (facts : ItemTypeFacts) :
    ExceptT ItemTypeError (StateM Resolver) Nat := do
  let state ← get
  match state.pool with
  | some pool => pure pool
  | none =>
    let current ← liftM (ofRead (StringTokenCache.pool reader facts.strings))
    set { state with pool := some current }
    pure current

def resolveItemPath (reader : TargetReader) (facts : ItemTypeFacts) (itemType : Nat) :
    ExceptT ItemTypeError (StateM Resolver) ItemKey := do
  let state ← get
  match state.items.paths.get? itemType with
  | some path => pure path
  | none =>
    let stringPool ← batchPool reader facts
    let leafVtable ← liftM (ofRead (reader.moduleAddress facts.leafVtable 8))
    let itemKey ← resolvePath reader facts leafVtable itemType (resolve reader stringPool)
    let state ← get
    if state.items.paths.size < maxItemTypes then
      set { state with items := ⟨state.items.paths.insert itemType itemKey⟩ }
    pure itemKey

end Resolver

/-! ## A run of resolutions -/

inductive Request where
  /-- The next read batch starts without a pool. -/
  | batch
  | token (pool token : Nat)
  | item (itemType : Nat)
  deriving DecidableEq, Repr

inductive Answer where
  | batch
  | token (value : Except ItemTypeError String)
  | item (path : Except ItemTypeError ItemKey)

namespace Resolver

variable (reader : TargetReader) (facts : ItemTypeFacts)

def answer (state : Resolver) : Request → Answer × Resolver
  | .batch => (.batch, { state with pool := none })
  | .token pool token =>
    let (value, state) := runFrom (resolve reader pool token) state
    (.token value, state)
  | .item itemType =>
    let (path, state) := runFrom (resolveItemPath reader facts itemType) state
    (.item path, state)

def run (state : Resolver) : List Request → List Answer × Resolver
  | [] => ([], state)
  | request :: requests =>
    let (answer, state) := state.answer reader facts request
    let (answers, state) := state.run requests
    (answer :: answers, state)

end Resolver

end ItemType
end Warframe
end WfObserver
