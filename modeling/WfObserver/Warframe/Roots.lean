import WfObserver.Lib.Chunks
import WfObserver.ProviderSdk.Memory
import WfObserver.Warframe.Model.Identifiers

/-!
# The logged-in account (`roots`)

From the executable's manager root to the manager, its vector of profile controls, and the one active
profile (`selectProfile`), whose account names what is published.
-/

namespace WfObserver
namespace Warframe
namespace Roots

open ProviderSdk

def loggedInManagerState : Nat := 4

def maxProfileControls : Nat := 16

def profileVectorBytes : Nat := maxProfileControls * 8

/-! ## Facts (`facts.rs`) -/

structure ProfileManagerFacts where
  root : Nat
  vtable : Nat
  lookup : Nat
  loggedIn : Nat
  lookupSlot : Nat
  loggedInSlot : Nat
  state : Nat
  vector : Nat
  vectorSize : Nat
  vectorCapacity : Nat
  deriving DecidableEq, Repr

structure ActiveProfileFacts where
  vtable : Nat
  identityGetter : Nat
  accountGetter : Nat
  identitySlot : Nat
  accountSlot : Nat
  selector : Nat
  loggedIn : Nat
  account : Nat
  deriving DecidableEq, Repr

structure AccountRootFacts where
  sharedNullSentinel : Nat
  manager : ProfileManagerFacts
  profile : ActiveProfileFacts
  deriving DecidableEq, Repr

def account : AccountRootFacts where
  sharedNullSentinel := 0x027083a8
  manager := {
    root := 0x0278a2d0
    vtable := 0x021185f0
    lookup := 0x00a52ec0
    loggedIn := 0x013fdf80
    lookupSlot := 0xb8
    loggedInSlot := 0x148
    state := 0x168
    vector := 0x230
    vectorSize := 0x238
    vectorCapacity := 0x23c }
  profile := {
    vtable := 0x0211ddc8
    identityGetter := 0x0119f7a0
    accountGetter := 0x002c1760
    identitySlot := 0x18
    accountSlot := 0x28
    selector := 0x1d8
    loggedIn := 0x1e1
    account := 0x118 }

/-! ## Identities (`identity.rs`) -/

/-- The address of an object, never null. -/
structure ObjectIdentity where
  get : Nat
  nonzero : get ≠ 0
  deriving DecidableEq

def ObjectIdentity.new (value : Nat) : Option ObjectIdentity :=
  if h : value ≠ 0 then some ⟨value, h⟩ else none

def ObjectIdentity.fromAddress (value : Nat) : Option ObjectIdentity :=
  if value % 8 = 0 then ObjectIdentity.new value else none

structure AccountIdentity where
  accountId : AccountId
  managerControl : ObjectIdentity
  manager : ObjectIdentity
  profileControl : ObjectIdentity
  profile : ObjectIdentity
  deriving DecidableEq

structure ProfileDataIdentity where
  account : AccountIdentity
  control : ObjectIdentity
  object : ObjectIdentity
  deriving DecidableEq

inductive AccountResolution where
  | absent
  | present (identity : AccountIdentity)
  deriving DecidableEq

inductive DecodeError where
  | unsupportedStringRepresentation
  | invalidAccountLength
  | invalidAccountBytes
  deriving DecidableEq, Repr

inductive ResolveError where
  | read (error : ReadError)
  | decode (error : DecodeError)
  | contradiction (place : String)
  | ambiguousProfile
  deriving DecidableEq, Repr

def ofRead {α : Type} (x : Except ReadError α) : Except ResolveError α := x.mapError .read

def objectIdentity (value : Nat) (location : String) : Except ResolveError ObjectIdentity :=
  match ObjectIdentity.fromAddress value with
  | some identity => .ok identity
  | none => .error (.contradiction location)

/-! ## The account's name (`account.rs`) -/

def decodeAccountStringHeader (header : Vector UInt8 16) : Except DecodeError Nat :=
  if header[15]! ≠ 0xff then .error .unsupportedStringRepresentation
  else if fromLeBytes ((header.toList.drop 8).take 4) % 0x10000000 ≠ 24 then
    .error .invalidAccountLength
  else .ok (fromLeBytes (header.toList.take 8))

def decodeAccountId (bytes : Vector UInt8 24) : Except DecodeError AccountId :=
  match String.fromUTF8? ⟨bytes.toArray⟩ >>= AccountId.new with
  | some accountId => .ok accountId
  | none => .error .invalidAccountBytes

/-! ## Resolution (`resolve.rs`) -/

section

variable (reader : TargetReader)

def readControlTarget (control sentinel : Nat) :
    Except ResolveError (Option (ObjectIdentity × ObjectIdentity)) :=
  if control = 0 ∨ control = sentinel then pure none
  else do
    let control ← objectIdentity control "shared ownership control"
    let target ← ofRead (reader.readU64 control.get)
    if target = 0 then pure none
    else pure (some (control, ← objectIdentity target "shared ownership target"))

def readProfileVector (manager : Nat) (facts : ProfileManagerFacts) :
    Except ResolveError (List UInt8) := do
  let pointer ← ofRead (reader.readObjectU64 manager facts.vector)
  let bytes ← ofRead (reader.readObjectU32 manager facts.vectorSize)
  let capacity ← ofRead (reader.readObjectU32 manager facts.vectorCapacity)
  if capacity < bytes ∨ profileVectorBytes < capacity ∨ bytes % 8 ≠ 0 ∨ capacity % 8 ≠ 0 ∨
      (capacity ≠ 0 ∧ pointer = 0) then .error (.contradiction "profile vector header")
  else do
    if pointer ≠ 0 then
      let _ ← objectIdentity pointer "profile vector allocation"
    pure (← ofRead (reader.readAt pointer bytes)).toList

/-- The pointers of a vector, without the bytes that do not make up one. -/
def entries (controls : List UInt8) : List Nat := (Chunks.chunksExact 8 controls).map fromLeBytes

/-- The profile of an entry, unless the entry is null or not the active one. -/
def candidate (facts : ActiveProfileFacts) (controlValue : Nat) :
    Except ResolveError (Option (ObjectIdentity × ObjectIdentity)) :=
  if controlValue = 0 then pure none
  else do
    let control ← objectIdentity controlValue "profile control"
    let profileValue ← ofRead (reader.readU64 control.get)
    if profileValue = 0 then pure none
    else do
      let profile ← objectIdentity profileValue "profile object"
      let selector ← ofRead (reader.readObjectU64 profile.get facts.selector)
      if selector ≠ 0 then pure none
      else do
        let loggedIn ← ofRead (reader.readObjectU8 profile.get facts.loggedIn)
        if loggedIn = 0 then pure none else pure (some (control, profile))

/-- The checks of an active profile's vtable. -/
def checkProfile (facts : ActiveProfileFacts) (profile : ObjectIdentity) : Except ReadError Unit := do
  let profileVtable ← reader.readU64 profile.get
  reader.requireModulePointer profileVtable facts.vtable "profile vtable"
  reader.requireVtableSlotLe64 profile.get facts.identitySlot facts.identityGetter
    "profile identity slot"
  reader.requireVtableSlotLe64 profile.get facts.accountSlot facts.accountGetter
    "profile account slot"

/-- One round of the loop of `select_profile`. -/
def consider (facts : ActiveProfileFacts) (selected : Option (ObjectIdentity × ObjectIdentity))
    (controlValue : Nat) : Except ResolveError (Option (ObjectIdentity × ObjectIdentity)) := do
  match ← candidate reader facts controlValue with
  | none => pure selected
  | some found => do
    ofRead (checkProfile reader facts found.2)
    match selected with
    | some _ => .error .ambiguousProfile
    | none => pure (some found)

def selectProfile (controls : List UInt8) (facts : ActiveProfileFacts) :
    Except ResolveError (ObjectIdentity × ObjectIdentity) := do
  match ← (entries controls).foldlM (consider reader facts) none with
  | some selected => pure selected
  | none => .error (.contradiction "active profile selection")

def readAccountId (profile offset : Nat) : Except ResolveError AccountId := do
  let address ← ofRead (reader.objectAddress profile offset 16)
  let firstHeader ← ofRead (reader.readAt address 16)
  let storage ← (decodeAccountStringHeader firstHeader).mapError .decode
  let _ ← objectIdentity storage "account identifier storage"
  let bytes ← ofRead (reader.readAt storage 24)
  let secondHeader ← ofRead (reader.readAt address 16)
  if firstHeader ≠ secondHeader then .error (.read (.changed "account identifier"))
  else (decodeAccountId bytes).mapError .decode

def resolveOnce (facts : AccountRootFacts) : Except ResolveError AccountResolution := do
  let managerRoot ← ofRead (reader.moduleAddress facts.manager.root 8)
  let managerControl ← ofRead (reader.readU64 managerRoot)
  let sentinel ← ofRead (reader.moduleAddress facts.sharedNullSentinel 1)
  match ← readControlTarget reader managerControl sentinel with
  | none => pure .absent
  | some (managerControl, manager) => do
    let managerVtable ← ofRead (reader.readU64 manager.get)
    ofRead (reader.requireModulePointer managerVtable facts.manager.vtable "profile manager vtable")
    ofRead (reader.requireVtableSlotLe64 manager.get facts.manager.lookupSlot facts.manager.lookup
      "profile manager lookup slot")
    ofRead (reader.requireVtableSlotLe64 manager.get facts.manager.loggedInSlot
      facts.manager.loggedIn "profile manager login slot")
    let state ← ofRead (reader.readObjectU32 manager.get facts.manager.state)
    if state ≠ loggedInManagerState then pure .absent
    else do
      let vector ← readProfileVector reader manager.get facts.manager
      if vector.isEmpty then pure .absent
      else do
        let (profileControl, profile) ← selectProfile reader vector facts.profile
        let accountId ← readAccountId reader profile.get facts.profile.account
        pure (.present { accountId, managerControl, manager, profileControl, profile })

/-- Two traversals that must agree. -/
def resolveAccount : Except ResolveError AccountResolution :=
  readStable (resolveOnce reader account) (.read (.changed "login roots"))

end

end Roots
end Warframe
end WfObserver
