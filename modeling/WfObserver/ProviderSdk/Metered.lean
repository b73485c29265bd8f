import WfObserver.Lib.Stateful
import WfObserver.ProviderSdk.Memory

/-!
# Budgeted reads of target memory (`provider_sdk::memory::reader`)

`TargetReader` with its byte and read budgets, over any memory backend (`ProcessMemory`): its answer to a
read may depend on what was read before. The requests that reach the backend are recorded by a backend
that keeps a log of them (`Recorded`). Every run of reader calls keeps within what the reader was given
(`reads_confined`).
-/

namespace WfObserver
namespace ProviderSdk
namespace Metered

open Fallible Stateful

/-- A memory backend. -/
class ProcessMemory (μ : Type) where
  readInto : μ → Nat → (n : Nat) → Except String (Vector UInt8 n) × μ

/-- A target that does not change. -/
instance : ProcessMemory ProviderSdk.ProcessMemory where
  readInto memory address n := (memory.readInto address n, memory)

/-- A backend with the address and the length of each read that reached it. -/
structure Recorded (μ : Type) where
  memory : μ
  requests : List (Nat × Nat)

instance {μ : Type} [ProcessMemory μ] : ProcessMemory (Recorded μ) where
  readInto recorded address n :=
    let (answer, memory) := ProcessMemory.readInto recorded.memory address n
    (answer, { memory, requests := recorded.requests ++ [(address, n)] })

structure ReadLimits extends ProviderSdk.ReadLimits where
  bytes : Nat
  reads : Nat
  deriving DecidableEq, Repr

structure TargetReader (μ : Type) where
  memory : μ
  moduleBase : Nat
  imageSize : Nat
  limits : ReadLimits

/-- A computation that reads through a reader. A failure keeps the budgets that it used. -/
abbrev Reading (μ α : Type) := ExceptT ReadError (StateM (TargetReader μ)) α

def TargetReader.new {μ : Type} (memory : μ) (moduleBase imageSize : Nat) (limits : ReadLimits) :
    Except ReadError (TargetReader μ) :=
  if imageSize = 0 then .error (.memory (.invalidModuleRange 0 0))
  else do
    limits.validateRange moduleBase imageSize
    pure { memory, moduleBase, imageSize, limits }

section

variable {μ : Type} [ProcessMemory μ]

def readUnchecked (address n : Nat) : Reading μ (Vector UInt8 n) :=
  if h : n = 0 then pure (ProviderSdk.TargetReader.emptyRead h)
  else do
    let reader ← get
    if reader.limits.bytes < n then throw (.limit "acquisition byte budget")
    else if reader.limits.reads < 1 then throw (.limit "acquisition read budget")
    else
      let (answer, memory) := ProcessMemory.readInto reader.memory address n
      set { reader with
        memory
        limits := { reader.limits with
          bytes := reader.limits.bytes - n
          reads := reader.limits.reads - 1 } }
      liftM (answer.mapError fun message => ReadError.memory (.read message))

def readModule (rva n : Nat) : Reading μ (Vector UInt8 n) := do
  let reader ← get
  let address ← liftM (reader.limits.moduleAddress reader.moduleBase reader.imageSize rva n)
  readUnchecked address n

def readAt (address n : Nat) : Reading μ (Vector UInt8 n) := do
  let reader ← get
  liftM (reader.limits.validateRange address n)
  readUnchecked address n

def readObject (object offset n : Nat) : Reading μ (Vector UInt8 n) := do
  let reader ← get
  let address ← liftM (reader.limits.objectAddress object offset n)
  readAt address n

def readU64 (address : Nat) : Reading μ Nat := do
  pure (fromLeBytes (← readAt address 8).toList)

def readVtableSlotLe64 (object slot : Nat) : Reading μ Nat := do
  let vtable ← readU64 object
  let reader ← get
  let address ← liftM (reader.limits.objectAddress vtable slot 8)
  readU64 address

def requireModulePointer (actual expected : Nat) (place : String) : Reading μ Unit := do
  let reader ← get
  let address ← liftM (reader.limits.moduleAddress reader.moduleBase reader.imageSize expected 1)
  if actual = address then pure () else throw (.invalid place)

def requireVtableSlotLe64 (object slot expected : Nat) (place : String) : Reading μ Unit := do
  requireModulePointer (← readVtableSlotLe64 object slot) expected place

/-- The calls of a reader. The helpers for integers and arrays are reads of their sizes. -/
inductive ReaderCall where
  | readModule (rva length : Nat)
  | readAt (address length : Nat)
  | readObject (object offset length : Nat)
  | readVtableSlotLe64 (object slot : Nat)
  | requireModulePointer (actual expected : Nat) (place : String)
  | requireVtableSlotLe64 (object slot expected : Nat) (place : String)
  deriving DecidableEq, Repr

def ReaderCall.call : ReaderCall → Reading μ Unit
  | .readModule rva length => discard (Metered.readModule rva length)
  | .readAt address length => discard (Metered.readAt address length)
  | .readObject object offset length => discard (Metered.readObject object offset length)
  | .readVtableSlotLe64 object slot => discard (Metered.readVtableSlotLe64 object slot)
  | .requireModulePointer actual expected place => Metered.requireModulePointer actual expected place
  | .requireVtableSlotLe64 object slot expected place =>
    Metered.requireVtableSlotLe64 object slot expected place

/-- The reader after a call, whether it succeeded or not. -/
def TargetReader.after (reader : TargetReader μ) (call : ReaderCall) : TargetReader μ :=
  (runFrom call.call reader).2

end

/-- The spans that a call may ask the backend for. -/
def ReaderCall.Spans (base size : Nat) (address length : Nat) : ReaderCall → Prop
  | .readModule rva n =>
    address = base + rva ∧ length = n ∧ base ≤ address ∧ address + length ≤ base + size
  | .readAt a n => address = a ∧ length = n
  | .readObject object offset n => address = object + offset ∧ length = n
  | .readVtableSlotLe64 object slot =>
    length = 8 ∧ (address = object ∨ ∃ vtable < addressEnd, address = vtable + slot)
  | .requireModulePointer _ _ _ => False
  | .requireVtableSlotLe64 object slot _ _ =>
    length = 8 ∧ (address = object ∨ ∃ vtable < addressEnd, address = vtable + slot)

/-- What a step of a reader asked of the backend was paid for, and lay within the limits. A step that
asked nothing left everything as it was. -/
structure Granted {μ : Type} (reader reader' : TargetReader (Recorded μ)) (asked : List (Nat × Nat)) :
    Prop where
  requests : reader'.memory.requests = reader.memory.requests ++ asked
  bytes : (asked.map Prod.snd).sum + reader'.limits.bytes = reader.limits.bytes
  reads : asked.length + reader'.limits.reads = reader.limits.reads
  moduleBase : reader'.moduleBase = reader.moduleBase
  imageSize : reader'.imageSize = reader.imageSize
  limits : reader'.limits.toReadLimits = reader.limits.toReadLimits
  permitted : ∀ request ∈ asked, 0 < request.2 ∧ reader.limits.Permits request.1 request.2
  untouched : asked = [] → reader' = reader

/-- A step asked the backend for spans of the kind `P` only. -/
def Asks {μ : Type} (P : Nat → Nat → Prop) (reader reader' : TargetReader (Recorded μ)) : Prop :=
  ∃ asked, Granted reader reader' asked ∧ ∀ request ∈ asked, P request.1 request.2

section

variable {μ : Type} {P : Nat → Nat → Prop} {reader reader' : TargetReader (Recorded μ)}

theorem Granted.refl (reader : TargetReader (Recorded μ)) : Granted reader reader [] where
  requests := (List.append_nil _).symm
  bytes := Nat.zero_add _
  reads := Nat.zero_add _
  moduleBase := rfl
  imageSize := rfl
  limits := rfl
  permitted := by simp
  untouched _ := rfl

theorem Granted.trans {reader'' : TargetReader (Recorded μ)} {asked asked' : List (Nat × Nat)}
    (h : Granted reader reader' asked) (h' : Granted reader' reader'' asked') :
    Granted reader reader'' (asked ++ asked') where
  requests := by rw [h'.requests, h.requests, List.append_assoc]
  bytes := by
    rw [List.map_append, List.sum_append]
    have := h.bytes
    have := h'.bytes
    omega
  reads := by
    rw [List.length_append]
    have := h.reads
    have := h'.reads
    omega
  moduleBase := h'.moduleBase.trans h.moduleBase
  imageSize := h'.imageSize.trans h.imageSize
  limits := h'.limits.trans h.limits
  permitted request hr := by
    rcases List.mem_append.mp hr with hr | hr
    · exact h.permitted request hr
    · simpa only [h.limits] using h'.permitted request hr
  untouched hnil := by
    obtain ⟨rfl, rfl⟩ := List.append_eq_nil_iff.mp hnil
    exact (h'.untouched rfl).trans (h.untouched rfl)

instance : Std.Refl (Asks P (μ := μ)) where
  refl reader := ⟨[], Granted.refl reader, by simp⟩

instance : IsTrans (TargetReader (Recorded μ)) (Asks P) where
  trans _ _ _ := by
    rintro ⟨asked, h, hP⟩ ⟨asked', h', hP'⟩
    refine ⟨asked ++ asked', h.trans h', fun request hr => ?_⟩
    rcases List.mem_append.mp hr with hr | hr
    exacts [hP request hr, hP' request hr]

theorem Asks.mono {Q : Nat → Nat → Prop} (hPQ : ∀ a n, P a n → Q a n) (h : Asks P reader reader') :
    Asks Q reader reader' := by
  obtain ⟨asked, h, hP⟩ := h
  exact ⟨asked, h, fun request hr => hPQ _ _ (hP request hr)⟩

theorem requireModulePointer_follows {actual expected : Nat} {place : String} :
    Follows (Asks P) reader (requireModulePointer actual expected place) := by
  refine Follows.get_bind (Follows.lift_bind fun address _ => ?_)
  split
  · exact Follows.pure _ _
  · exact Follows.throw _ _

variable [ProcessMemory μ]

/-- A read that the budgets do not allow is refused before the backend. Every other is paid for, also
one that fails. -/
theorem readUnchecked_follows {address n : Nat}
    (hpermits : 0 < n → reader.limits.Permits address n) (hP : P address n) :
    Follows (Asks P) reader (readUnchecked address n) := by
  unfold readUnchecked
  split
  · exact Follows.pure _ _
  · rename_i hn
    refine Follows.get_bind ?_
    split
    · exact Follows.throw _ _
    split
    · exact Follows.throw _ _
    rename_i hbytes hreads
    exact ⟨[(address, n)], {
      requests := by simp [runFrom_bind, ProcessMemory.readInto]
      bytes := by simp [runFrom_bind]; omega
      reads := by simp [runFrom_bind]; omega
      moduleBase := by simp [runFrom_bind]
      imageSize := by simp [runFrom_bind]
      limits := by simp [runFrom_bind]
      permitted := by simpa using ⟨Nat.pos_of_ne_zero hn, hpermits (Nat.pos_of_ne_zero hn)⟩
      untouched := by simp }, by simpa using hP⟩

theorem readAt_follows {address n : Nat} (hP : P address n) :
    Follows (Asks P) reader (readAt address n) := by
  refine Follows.get_bind (Follows.lift_bind fun _ hrange => ?_)
  exact readUnchecked_follows (fun hn => (ReadLimits.validateRange_eq_ok hn).mp hrange) hP

theorem readModule_follows {rva n : Nat}
    (hP : rva + n ≤ reader.imageSize → P (reader.moduleBase + rva) n) :
    Follows (Asks P) reader (readModule rva n) := by
  refine Follows.get_bind (Follows.lift_bind fun address h => ?_)
  obtain ⟨rfl, hsize, hpermits⟩ := ReadLimits.moduleAddress_eq_ok h
  exact readUnchecked_follows hpermits (hP hsize)

theorem readObject_follows {object offset n : Nat} (hP : P (object + offset) n) :
    Follows (Asks P) reader (readObject object offset n) := by
  refine Follows.get_bind (Follows.lift_bind fun address h => ?_)
  obtain ⟨rfl, -⟩ := ReadLimits.objectAddress_eq_ok h
  exact readAt_follows hP

theorem readU64_follows {address : Nat} (hP : P address 8) :
    Follows (Asks P) reader (readU64 address) :=
  Follows.bind (readAt_follows hP) fun _ _ _ => Follows.pure _ _

/-- Eight bytes spell a 64-bit number. -/
theorem readU64_lt {address value : Nat} (h : runFrom (readU64 address) reader = (.ok value, reader')) :
    value < addressEnd := by
  obtain ⟨bytes, t, -, hvalue⟩ := runFrom_bind_eq_ok.mp h
  obtain ⟨rfl, -⟩ : fromLeBytes bytes.toList = value ∧ t = reader' := by simpa using hvalue
  simpa [addressEnd] using fromLeBytes_lt bytes.toList

theorem readVtableSlotLe64_follows {object slot : Nat} (hobject : P object 8)
    (hslot : ∀ vtable < addressEnd, P (vtable + slot) 8) :
    Follows (Asks P) reader (readVtableSlotLe64 object slot) := by
  refine Follows.bind (readU64_follows hobject) fun vtable _ hvtable => ?_
  refine Follows.get_bind (Follows.lift_bind fun address h => ?_)
  obtain ⟨rfl, -⟩ := ReadLimits.objectAddress_eq_ok h
  exact readU64_follows (hslot vtable (readU64_lt hvtable))

/-- Each call asks for the spans that are its own. -/
theorem call_follows (reader : TargetReader (Recorded μ)) (call : ReaderCall) :
    Asks (fun a n => call.Spans reader.moduleBase reader.imageSize a n) reader (reader.after call) := by
  cases call with
  | readModule rva n =>
    exact Follows.bind (readModule_follows fun hsize => ⟨rfl, rfl, by omega, by omega⟩)
      fun _ _ _ => Follows.pure _ _
  | readAt address n => exact Follows.bind (readAt_follows ⟨rfl, rfl⟩) fun _ _ _ => Follows.pure _ _
  | readObject object offset n =>
    exact Follows.bind (readObject_follows ⟨rfl, rfl⟩) fun _ _ _ => Follows.pure _ _
  | readVtableSlotLe64 object slot =>
    exact Follows.bind (readVtableSlotLe64_follows ⟨rfl, .inl rfl⟩
      fun vtable h => ⟨rfl, .inr ⟨vtable, h, rfl⟩⟩) fun _ _ _ => Follows.pure _ _
  | requireModulePointer actual expected place => exact requireModulePointer_follows
  | requireVtableSlotLe64 object slot expected place =>
    exact Follows.bind (readVtableSlotLe64_follows ⟨rfl, .inl rfl⟩
      fun vtable h => ⟨rfl, .inr ⟨vtable, h, rfl⟩⟩) fun _ _ _ => requireModulePointer_follows

/-- A run of calls, failed ones included, spends its budgets on what it asked for. -/
theorem calls_granted (calls : List ReaderCall) (reader : TargetReader (Recorded μ)) :
    ∃ asked, Granted reader (calls.foldl TargetReader.after reader) asked := by
  induction calls generalizing reader with
  | nil => exact ⟨[], Granted.refl reader⟩
  | cons call calls ih =>
    obtain ⟨asked, h, -⟩ := call_follows reader call
    obtain ⟨asked', h'⟩ := ih (reader.after call)
    exact ⟨asked ++ asked', h.trans h'⟩

/-- The requests so far lie within the limits, and with what is left they make up the budgets. -/
structure Confined (limits : ReadLimits) (reader : TargetReader (Recorded μ)) : Prop where
  inside : ∀ request ∈ reader.memory.requests,
    0 < request.2 ∧ limits.Permits request.1 request.2
  bytes : (reader.memory.requests.map Prod.snd).sum + reader.limits.bytes = limits.bytes
  reads : reader.memory.requests.length + reader.limits.reads = limits.reads

/-- What a reader asks of the backend over any calls lies within its limits and its budgets. The next
call asks for its own spans only, computed exactly, and one refused before the backend costs nothing. -/
theorem reads_confined {memory : μ} {moduleBase imageSize : Nat} {limits : ReadLimits}
    {reader : TargetReader (Recorded μ)}
    (h : TargetReader.new (Recorded.mk memory []) moduleBase imageSize limits = .ok reader)
    (calls : List ReaderCall) :
    let reader := calls.foldl TargetReader.after reader
    Confined limits reader ∧ ∀ call : ReaderCall, ∃ asked,
      (reader.after call).memory.requests = reader.memory.requests ++ asked ∧
      (∀ request ∈ asked, call.Spans moduleBase imageSize request.1 request.2) ∧
      (asked = [] → reader.after call = reader) := by
  obtain rfl : reader = ⟨⟨memory, []⟩, moduleBase, imageSize, limits⟩ := by
    simp only [TargetReader.new, ite_eq_ok, bind_eq_ok, pure_eq_ok] at h
    obtain ⟨-, ⟨⟩, -, rfl⟩ := h
    rfl
  obtain ⟨asked, hrun⟩ := calls_granted calls ⟨⟨memory, []⟩, moduleBase, imageSize, limits⟩
  refine ⟨⟨?_, ?_, ?_⟩, fun call => ?_⟩
  · rw [hrun.requests]
    exact hrun.permitted
  · rw [hrun.requests]
    exact hrun.bytes
  · rw [hrun.requests]
    exact hrun.reads
  · obtain ⟨next, hnext, hspans⟩ := call_follows
      (calls.foldl TargetReader.after (⟨⟨memory, []⟩, moduleBase, imageSize, limits⟩ : TargetReader _)) call
    rw [hrun.moduleBase, hrun.imageSize] at hspans
    exact ⟨next, hnext.requests, hspans, hnext.untouched⟩

theorem reads_confined_zeros :
    let reader := [ReaderCall.readModule 8 16, .readVtableSlotLe64 0x10000 24].foldl TargetReader.after
      (⟨⟨⟨fun _ n => .ok (Vector.replicate n 0)⟩, []⟩, 0x10000, 0x1000, ⟨⟨0x10000, 0x1ffff⟩, 64, 2⟩⟩ :
        TargetReader (Recorded ProviderSdk.ProcessMemory))
    Confined ⟨⟨0x10000, 0x1ffff⟩, 64, 2⟩ reader ∧ ∀ call : ReaderCall, ∃ asked,
      (reader.after call).memory.requests = reader.memory.requests ++ asked ∧
      (∀ request ∈ asked, call.Spans 0x10000 0x1000 request.1 request.2) ∧
      (asked = [] → reader.after call = reader) :=
  @reads_confined ProviderSdk.ProcessMemory _ ⟨fun _ n => .ok (Vector.replicate n 0)⟩ _ _ _ _ rfl _

end

/-! ## A target that does not change -/

/-- The reader of an unchanging target, with its budgets left out. -/
def TargetReader.still (reader : TargetReader (Recorded ProviderSdk.ProcessMemory)) :
    ProviderSdk.TargetReader where
  memory := reader.memory.memory
  moduleBase := reader.moduleBase
  imageSize := reader.imageSize
  limits := reader.limits.toReadLimits

/-- A read that the budgets do not allow. -/
def OverBudget (error : ReadError) : Prop :=
  error = .limit "acquisition byte budget" ∨ error = .limit "acquisition read budget"

/-- The budgets do not allow a read of `n` bytes. -/
def TargetReader.Short {μ : Type} (n : Nat) (reader : TargetReader μ) : Prop :=
  reader.limits.bytes < n ∨ reader.limits.reads = 0

theorem TargetReader.Short.mono {μ : Type} {reader : TargetReader μ} {m n : Nat} (h : reader.Short m)
    (hmn : m ≤ n) : reader.Short n :=
  h.imp_left fun hbytes => Nat.lt_of_lt_of_le hbytes hmn

/-- From an unchanging target, `x` returns what `y` is, unless a budget does not allow a read of `n`
bytes. -/
def Mirrors {α : Type} (n : Nat) (reader : ProviderSdk.TargetReader)
    (x : Reading (Recorded ProviderSdk.ProcessMemory) α) (y : Except ReadError α) : Prop :=
  ∀ metered : TargetReader (Recorded ProviderSdk.ProcessMemory), metered.still = reader →
    (runFrom x metered).2.still = reader ∧
    ((∃ error, (runFrom x metered).1 = .error error ∧ OverBudget error ∧
      (runFrom x metered).2.Short n) ∨ (runFrom x metered).1 = y)

section

variable {α β : Type} {n : Nat} {reader : ProviderSdk.TargetReader}
  {x : Reading (Recorded ProviderSdk.ProcessMemory) α} {y : Except ReadError α}

theorem Mirrors.pure (a : α) : Mirrors n reader (Pure.pure a) (.ok a) :=
  fun _ h => ⟨h, .inr rfl⟩

theorem Mirrors.throw (e : ReadError) : Mirrors (α := α) n reader (MonadExcept.throw e) (.error e) :=
  fun _ h => ⟨h, .inr rfl⟩

theorem Mirrors.lift (y : Except ReadError α) : Mirrors n reader (liftM y) y :=
  fun _ h => ⟨h, .inr rfl⟩

theorem Mirrors.mono {m : Nat} (hx : Mirrors m reader x y) (hmn : m ≤ n) : Mirrors n reader x y := by
  intro metered h
  obtain ⟨hstill, ⟨error, herror, hbudget, hshort⟩ | hy⟩ := hx metered h
  · exact ⟨hstill, .inl ⟨error, herror, hbudget, hshort.mono hmn⟩⟩
  · exact ⟨hstill, .inr hy⟩

theorem Mirrors.bind {f : α → Reading (Recorded ProviderSdk.ProcessMemory) β}
    {g : α → Except ReadError β} (hx : Mirrors n reader x y)
    (hf : ∀ a, y = .ok a → Mirrors n reader (f a) (g a)) : Mirrors n reader (x >>= f) (y >>= g) := by
  intro metered h
  obtain ⟨hstill, hout⟩ := hx metered h
  rw [runFrom_bind]
  rcases hrun : runFrom x metered with ⟨e | a, next⟩ <;> rw [hrun] at hstill hout
  · refine ⟨hstill, ?_⟩
    rcases hout with ⟨error, herror, hbudget⟩ | hy
    · exact .inl ⟨error, by simpa using herror, hbudget⟩
    · exact .inr (by rw [← hy]; rfl)
  · rcases hout with ⟨error, herror, -⟩ | hy
    · exact absurd herror (by simp)
    · rw [← hy]
      exact hf a hy.symm next hstill

/-- What a computation that mirrors `y` returned. -/
theorem Mirrors.eq_ok {metered next : TargetReader (Recorded ProviderSdk.ProcessMemory)} {a : α}
    (hx : Mirrors n reader x y) (h : metered.still = reader) (hrun : runFrom x metered = (.ok a, next)) :
    y = .ok a ∧ next.still = reader := by
  obtain ⟨hstill, hout⟩ := hx metered h
  rw [hrun] at hstill hout
  rcases hout with ⟨error, herror, -⟩ | hy
  · exact absurd herror (by simp)
  · exact ⟨hy.symm, hstill⟩

end

theorem readUnchecked_mirrors (reader : ProviderSdk.TargetReader) (address n : Nat) :
    Mirrors n reader (readUnchecked address n) (reader.readUnchecked address n) := by
  rintro metered rfl
  unfold readUnchecked ProviderSdk.TargetReader.readUnchecked
  split
  · exact ⟨rfl, .inr rfl⟩
  rw [runFrom_bind, runFrom_get]
  dsimp only
  split
  · rename_i hbytes
    exact ⟨rfl, .inl ⟨_, rfl, .inl rfl, .inl hbytes⟩⟩
  split
  · rename_i hreads
    exact ⟨rfl, .inl ⟨_, rfl, .inr rfl, .inr (Nat.lt_one_iff.mp hreads)⟩⟩
  · exact ⟨rfl, .inr rfl⟩

theorem readAt_mirrors (reader : ProviderSdk.TargetReader) (address n : Nat) :
    Mirrors n reader (readAt address n) (reader.readAt address n) := by
  rintro metered rfl
  unfold readAt ProviderSdk.TargetReader.readAt
  rw [runFrom_bind, runFrom_get]
  exact Mirrors.bind (Mirrors.lift _) (fun _ _ => readUnchecked_mirrors _ address n) metered rfl

/-- A read that the budgets allow is answered, and costs one read of its length. -/
theorem readUnchecked_paid {metered : TargetReader (Recorded ProviderSdk.ProcessMemory)}
    {address n : Nat} (hn : 0 < n) (hpaid : ¬metered.Short n) :
    ∃ next, runFrom (readUnchecked address n) metered = (metered.still.readUnchecked address n, next) ∧
      next.limits.bytes = metered.limits.bytes - n ∧
      next.limits.reads = metered.limits.reads - 1 := by
  have hbytes : ¬metered.limits.bytes < n := fun h => hpaid (.inl h)
  have hreads : ¬metered.limits.reads < 1 := fun h => hpaid (.inr (Nat.lt_one_iff.mp h))
  unfold readUnchecked ProviderSdk.TargetReader.readUnchecked
  rw [dif_neg (Nat.ne_of_gt hn), dif_neg (Nat.ne_of_gt hn), runFrom_bind, runFrom_get]
  simp only [if_neg hbytes, if_neg hreads]
  exact ⟨_, rfl, rfl, rfl⟩

theorem readAt_paid {metered : TargetReader (Recorded ProviderSdk.ProcessMemory)} {address n : Nat}
    (hn : 0 < n) (hpaid : ¬metered.Short n) :
    (runFrom (readAt address n) metered).1 = metered.still.readAt address n ∧
      ∀ bytes next, runFrom (readAt address n) metered = (.ok bytes, next) →
        next.limits.bytes = metered.limits.bytes - n ∧
          next.limits.reads = metered.limits.reads - 1 := by
  obtain ⟨next, hread, hspent⟩ := @readUnchecked_paid metered address n hn hpaid
  have hstill : metered.still.limits = metered.limits.toReadLimits := rfl
  unfold readAt ProviderSdk.TargetReader.readAt
  rw [runFrom_bind, runFrom_get, hstill]
  dsimp only
  rw [runFrom_bind, runFrom_lift]
  cases metered.limits.toReadLimits.validateRange address n with
  | error e => exact ⟨rfl, fun bytes next h => by cases h⟩
  | ok u =>
    simp only [hread]
    refine ⟨rfl, fun bytes next' h => ?_⟩
    obtain rfl := (Prod.mk.inj h).2
    exact hspent

end Metered
end ProviderSdk
end WfObserver
