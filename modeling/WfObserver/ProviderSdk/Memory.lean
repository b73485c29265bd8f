import Mathlib.Data.Vector.Basic
import WfObserver.Lib.Fallible
import WfObserver.ProviderSdk

/-!
# Bounded reads of target memory (`provider_sdk::memory`)

`TargetReader` checks the addresses of a provider's reads (`reader.rs`). A process is what it answers
to reads (`ProcessMemory`). One answer holds throughout, so a run of reads sees one state of the target.
The read and byte budgets are left out: the acquisitions modelled here stay below them by their own
limits.
-/

namespace WfObserver
namespace ProviderSdk

open Fallible

inductive MemoryError where
  | addressOverflow
  | invalidTargetRange (address length : Nat)
  | invalidModuleRange (rva length : Nat)
  | read (message : String)
  deriving DecidableEq, Repr

/-- `{:#x}`. -/
def hexadecimal (n : Nat) : String := "0x" ++ String.ofList (Nat.toDigits 16 n)

def MemoryError.text : MemoryError → String
  | .addressOverflow => "target address arithmetic overflowed"
  | .invalidTargetRange address length =>
    s!"target address {hexadecimal address} with length {length} is outside the permitted range"
  | .invalidModuleRange rva length =>
    s!"module RVA {hexadecimal rva} with length {length} is outside the mapped image"
  | .read message => s!"native target read failed: {message}"

/-- The failure of a bounded acquisition, with the place that failed. -/
inductive ReadError where
  | memory (error : MemoryError)
  | layoutMismatch (place : String)
  | invalidData (place : String)
  | notReady (place : String)
  | unstable (place : String)
  | limitExceeded (place : String)
  | overflow (place : String)
  deriving DecidableEq, Repr

namespace ReadError

def layout (place : String) : ReadError := .layoutMismatch place

def invalid (place : String) : ReadError := .invalidData place

def changed (place : String) : ReadError := .unstable place

def limit (place : String) : ReadError := .limitExceeded place

/-- The message of a read failure. -/
def text : ReadError → String
  | .memory error => error.text
  | .layoutMismatch place => s!"target layout failed validation at {place}"
  | .invalidData place => s!"target data is invalid at {place}"
  | .notReady place => s!"target data at {place} is not ready"
  | .unstable place => s!"target data at {place} changed during acquisition"
  | .limitExceeded place => s!"source limit exceeded at {place}"
  | .overflow place => s!"source arithmetic overflowed at {place}"

/-- The health that a read failure becomes. -/
def reason : ReadError → UnavailableReason
  | .notReady _ | .unstable _ => .targetNotReady
  | .memory (.read _) => .readFailed "target memory could not be read"
  | _ => .validationFailed "target memory failed validation"

end ReadError

/-- Addresses are 64-bit. -/
def addressEnd : Nat := 2 ^ 64

/-- Reads `n` bytes at an address, or says why it cannot. -/
structure ProcessMemory where
  readInto : Nat → (n : Nat) → Except String (Vector UInt8 n)

structure ReadLimits where
  minAddress : Nat
  maxAddress : Nat
  deriving DecidableEq, Repr

def ReadLimits.validateRange (limits : ReadLimits) (address length : Nat) : Except ReadError Unit :=
  if length = 0 then .ok ()
  else if address < limits.minAddress || limits.maxAddress < address then
    .error (.memory (.invalidTargetRange address length))
  else if addressEnd ≤ address + (length - 1) then .error (.memory .addressOverflow)
  else if limits.maxAddress < address + (length - 1) then
    .error (.memory (.invalidTargetRange address length))
  else .ok ()

/-- The `length` bytes from `address` lie within the limits, and their addresses are 64-bit. -/
def ReadLimits.Permits (limits : ReadLimits) (address length : Nat) : Prop :=
  limits.minAddress ≤ address ∧ address + (length - 1) ≤ limits.maxAddress ∧
    address + (length - 1) < addressEnd

theorem ReadLimits.validateRange_eq_ok {limits : ReadLimits} {address length : Nat}
    (hn : 0 < length) : limits.validateRange address length = .ok () ↔ limits.Permits address length := by
  simp only [validateRange, if_neg (Nat.ne_of_gt hn), ite_eq_ok, Bool.or_eq_true, decide_eq_true_eq,
    Permits, and_true]
  omega

/-- A span of the image at a relative address. -/
def ReadLimits.moduleAddress (limits : ReadLimits) (moduleBase imageSize rva length : Nat) :
    Except ReadError Nat :=
  if addressEnd ≤ rva + length then .error (.memory .addressOverflow)
  else if imageSize < rva + length then .error (.memory (.invalidModuleRange rva length))
  else if addressEnd ≤ moduleBase + rva then .error (.memory .addressOverflow)
  else do
    limits.validateRange (moduleBase + rva) length
    pure (moduleBase + rva)

def ReadLimits.objectAddress (limits : ReadLimits) (object offset length : Nat) :
    Except ReadError Nat :=
  if addressEnd ≤ object + offset then .error (.memory .addressOverflow)
  else do
    limits.validateRange (object + offset) length
    pure (object + offset)

theorem ReadLimits.moduleAddress_eq_ok {limits : ReadLimits} {base size rva length address : Nat}
    (h : limits.moduleAddress base size rva length = .ok address) :
    address = base + rva ∧ rva + length ≤ size ∧ (0 < length → limits.Permits address length) := by
  simp only [moduleAddress, ite_eq_ok, bind_eq_ok, pure_eq_ok] at h
  obtain ⟨-, hsize, -, ⟨⟩, hrange, rfl⟩ := h
  exact ⟨rfl, by omega, fun hn => (validateRange_eq_ok hn).mp hrange⟩

theorem ReadLimits.objectAddress_eq_ok {limits : ReadLimits} {object offset length address : Nat}
    (h : limits.objectAddress object offset length = .ok address) :
    address = object + offset ∧ (0 < length → limits.Permits address length) := by
  simp only [objectAddress, ite_eq_ok, bind_eq_ok, pure_eq_ok] at h
  obtain ⟨-, ⟨⟩, hrange, rfl⟩ := h
  exact ⟨rfl, fun hn => (validateRange_eq_ok hn).mp hrange⟩

structure TargetReader where
  memory : ProcessMemory
  moduleBase : Nat
  imageSize : Nat
  limits : ReadLimits

namespace TargetReader

def new (memory : ProcessMemory) (moduleBase imageSize : Nat) (limits : ReadLimits) :
    Except ReadError TargetReader :=
  if imageSize = 0 then .error (.memory (.invalidModuleRange 0 0))
  else do
    limits.validateRange moduleBase imageSize
    pure { memory, moduleBase, imageSize, limits }

def moduleAddress (reader : TargetReader) (rva length : Nat) : Except ReadError Nat :=
  reader.limits.moduleAddress reader.moduleBase reader.imageSize rva length

/-- What an empty read gives. -/
def emptyRead {n : Nat} (h : n = 0) : Vector UInt8 n := h ▸ #v[]

/-- Empty reads do not access memory. -/
def readUnchecked (reader : TargetReader) (address n : Nat) : Except ReadError (Vector UInt8 n) :=
  if h : n = 0 then .ok (emptyRead h)
  else (reader.memory.readInto address n).mapError fun message => .memory (.read message)

def readAt (reader : TargetReader) (address n : Nat) : Except ReadError (Vector UInt8 n) := do
  reader.limits.validateRange address n
  reader.readUnchecked address n

def objectAddress (reader : TargetReader) (object offset length : Nat) : Except ReadError Nat :=
  reader.limits.objectAddress object offset length

end TargetReader

/-- The number that bytes spell, lowest byte first. -/
def fromLeBytes (bytes : List UInt8) : Nat := bytes.foldr (fun b n => b.toNat + 256 * n) 0

theorem fromLeBytes_lt (bytes : List UInt8) : fromLeBytes bytes < 256 ^ bytes.length := by
  induction bytes with
  | nil => exact Nat.one_pos
  | cons b bytes ih =>
    have hb := b.toNat_lt
    simp only [fromLeBytes, List.foldr_cons, List.length_cons, Nat.pow_succ] at ih ⊢
    omega

namespace TargetReader

def readU64 (reader : TargetReader) (address : Nat) : Except ReadError Nat := do
  pure (fromLeBytes (← reader.readAt address 8).toList)

def readU32 (reader : TargetReader) (address : Nat) : Except ReadError Nat := do
  pure (fromLeBytes (← reader.readAt address 4).toList)

def readObjectU32 (reader : TargetReader) (object offset : Nat) : Except ReadError Nat := do
  let address ← reader.objectAddress object offset 4
  pure (fromLeBytes (← reader.readAt address 4).toList)

def readObjectU64 (reader : TargetReader) (object offset : Nat) : Except ReadError Nat := do
  let address ← reader.objectAddress object offset 8
  pure (fromLeBytes (← reader.readAt address 8).toList)

def readObjectU8 (reader : TargetReader) (object offset : Nat) : Except ReadError Nat := do
  let address ← reader.objectAddress object offset 1
  pure (fromLeBytes (← reader.readAt address 1).toList)

def readVtableSlotLe64 (reader : TargetReader) (object slot : Nat) : Except ReadError Nat := do
  let vtable ← reader.readU64 object
  let address ← reader.objectAddress vtable slot 8
  reader.readU64 address

def requireModulePointer (reader : TargetReader) (actual expected : Nat) (place : String) :
    Except ReadError Unit := do
  let address ← reader.moduleAddress expected 1
  if actual = address then pure () else .error (.invalid place)

def requireVtableSlotLe64 (reader : TargetReader) (object slot expected : Nat) (place : String) :
    Except ReadError Unit := do
  reader.requireModulePointer (← reader.readVtableSlotLe64 object slot) expected place

end TargetReader

/-- Reads twice and requires agreement. -/
def readStable {ε τ : Type*} [DecidableEq τ] (read : Except ε τ) (changed : ε) : Except ε τ := do
  let first ← read
  let second ← read
  if first = second then pure second else .error changed

/-- Over one state of the target the second read agrees. -/
@[simp] theorem readStable_eq {ε τ : Type*} [DecidableEq τ] (read : Except ε τ) (changed : ε) :
    readStable read changed = read := by
  cases read with
  | error e => rfl
  | ok v => simp [readStable, pure, Except.pure]

theorem TargetReader.objectAddress_eq {reader : TargetReader} {object offset length address : Nat}
    (h : reader.objectAddress object offset length = .ok address) : address = object + offset :=
  (ReadLimits.objectAddress_eq_ok h).1

end ProviderSdk
end WfObserver
