import WfObserver.Lib.Ascii
import WfObserver.ProviderSdk.Metered
import WfObserver.Warframe.StringPool

/-!
# Reading in chunks is scanning the bytes

A memory is readable in blocks of 64 bytes (`BlockMemory`), as the pages of a process are. Over such a
memory the chunks of `readCString` find the string that a scan of single bytes finds (`scanCString`), and
none of them reaches past the block of its NUL (`chunks_scan`).
-/

namespace WfObserver
namespace Warframe
namespace StringPool

open ProviderSdk Fallible Stateful

/-- The byte at an address, when a read of it alone succeeds. -/
def byteAt (reader : TargetReader) (address : Nat) : Option UInt8 :=
  match reader.readAt address 1 with
  | .ok byte => some byte[0]
  | .error _ => none

/-- The bytes before the first NUL, which is one of `n` bytes. -/
def scanBytes (byte : Nat → Option UInt8) (address : Nat) : Nat → Option (List UInt8)
  | 0 => none
  | n + 1 =>
    match byte address with
    | none => none
    | some b => if b = 0 then some [] else (b :: ·) <$> scanBytes byte (address + 1) n

/-- The string that a scan of at most 256 single bytes finds. -/
def scanCString (byte : Nat → Option UInt8) (address : Nat) : Option String :=
  match scanBytes byte address (maxStringBytes + 1) with
  | none => none
  | some bytes => if bytes.all isAsciiGraphic then some (Ascii.text bytes) else none

/-- A read returns the bytes that reads of them alone return, and blocks of 64 bytes are readable as a
whole or not at all. -/
structure BlockMemory (memory : ProcessMemory) : Prop where
  bytewise : ∀ address n (bytes : Vector UInt8 n), 0 < n →
    (memory.readInto address n = .ok bytes ↔
      ∀ i (h : i < n), memory.readInto (address + i) 1 = .ok #v[bytes[i]])
  blocks : ∀ address address', address / 64 = address' / 64 →
    (memory.readInto address 1).isOk = (memory.readInto address' 1).isOk

/-- The limits of a reader are borders of blocks. -/
structure BlockLimits (limits : ProviderSdk.ReadLimits) : Prop where
  minAddress : limits.minAddress % 64 = 0
  maxAddress : (limits.maxAddress + 1) % 64 = 0

/-! ## Single bytes and chunks -/

/-- The list stands in memory from `address` on. -/
def Holds (byte : Nat → Option UInt8) (address : Nat) (l : List UInt8) : Prop :=
  ∀ i (h : i < l.length), byte (address + i) = some l[i]

theorem Holds.tail {byte : Nat → Option UInt8} {address : Nat} {b : UInt8} {l : List UInt8}
    (h : Holds byte address (b :: l)) : byte address = some b ∧ Holds byte (address + 1) l := by
  refine ⟨h 0 (Nat.succ_pos _), fun i hi => ?_⟩
  have := h (i + 1) (by simpa using hi)
  rw [show address + 1 + i = address + (i + 1) by omega]
  simpa using this

theorem Holds.append {byte : Nat → Option UInt8} {address : Nat} {l l' : List UInt8}
    (h : Holds byte address l) (h' : Holds byte (address + l.length) l') :
    Holds byte address (l ++ l') := by
  intro i hi
  rw [List.length_append] at hi
  by_cases hil : i < l.length
  · rw [List.getElem_append_left hil]
    exact h i hil
  · have := h' (i - l.length) (by omega)
    rw [show address + l.length + (i - l.length) = address + i by omega] at this
    rw [List.getElem_append_right (by omega)]
    exact this

/-- A scan passes over a part of memory that has no NUL, and stops at its first one otherwise. -/
theorem scanBytes_append {byte : Nat → Option UInt8} {address : Nat} {l : List UInt8}
    (h : Holds byte address l) (n : Nat) :
    scanBytes byte address (l.length + n) =
      match l.findIdx? (· == 0) with
      | some nul => some (l.take nul)
      | none => (l ++ ·) <$> scanBytes byte (address + l.length) n := by
  induction l generalizing address with
  | nil => simp
  | cons b l ih =>
    obtain ⟨hb, htail⟩ := h.tail
    rw [List.length_cons, show l.length + 1 + n = l.length + n + 1 by omega, scanBytes, hb]
    by_cases hzero : b = 0
    · simp [List.findIdx?_cons, hzero]
    · simp only [if_neg hzero, ih htail, List.findIdx?_cons, beq_iff_eq]
      cases l.findIdx? (· == 0) with
      | some nul => simp
      | none => simp [show address + 1 + l.length = address + (l.length + 1) by omega]; rfl

section

variable {reader : TargetReader} {address n : Nat}

theorem eq_singleton (byte : Vector UInt8 1) : byte = #v[byte[0]] := by
  refine Vector.ext fun i hi => ?_
  obtain rfl : i = 0 := by omega
  rfl

theorem permits_iff {limits : ProviderSdk.ReadLimits} (hn : 0 < n) :
    limits.Permits address n ↔ ∀ i < n, limits.Permits (address + i) 1 := by
  unfold ProviderSdk.ReadLimits.Permits
  constructor
  · intro h i hi
    omega
  · intro h
    have hfirst := h 0 hn
    have hlast := h (n - 1) (by omega)
    omega

theorem readAt_eq_ok {bytes : Vector UInt8 n} (hn : 0 < n) : reader.readAt address n = .ok bytes ↔
    reader.limits.Permits address n ∧ reader.memory.readInto address n = .ok bytes := by
  simp only [TargetReader.readAt, TargetReader.readUnchecked, bind_eq_ok, dif_neg (Nat.ne_of_gt hn)]
  constructor
  · rintro ⟨⟨⟩, hrange, hread⟩
    refine ⟨(ReadLimits.validateRange_eq_ok hn).mp hrange, ?_⟩
    cases h : reader.memory.readInto address n <;> simp_all [Except.mapError]
  · rintro ⟨hrange, hread⟩
    exact ⟨(), (ReadLimits.validateRange_eq_ok hn).mpr hrange, by rw [hread]; rfl⟩

theorem byteAt_eq_some {b : UInt8} : byteAt reader address = some b ↔
    reader.limits.Permits address 1 ∧ reader.memory.readInto address 1 = .ok #v[b] := by
  rw [← readAt_eq_ok Nat.one_pos]
  unfold byteAt
  split
  · rename_i byte h
    rw [h]
    simp only [Option.some.injEq, Except.ok.injEq]
    rw [eq_singleton byte]
    simp
  · rename_i e h
    simp [h]

/-- A chunk is its bytes. -/
theorem readAt_iff_holds (hmemory : BlockMemory reader.memory) {bytes : Vector UInt8 n} (hn : 0 < n) :
    reader.readAt address n = .ok bytes ↔ Holds (byteAt reader) address bytes.toList := by
  rw [readAt_eq_ok hn, permits_iff hn, hmemory.bytewise _ _ _ hn]
  unfold Holds
  simp only [byteAt_eq_some, Vector.length_toList, Vector.getElem_toList]
  constructor
  · exact fun h i hi => ⟨h.1 i hi, h.2 i hi⟩
  · exact fun h => ⟨fun i hi => (h i hi).1, fun i hi => (h i hi).2⟩

theorem isSome_byteAt : (byteAt reader address).isSome ↔
    reader.limits.Permits address 1 ∧ (reader.memory.readInto address 1).isOk := by
  rw [Option.isSome_iff_exists]
  simp only [byteAt_eq_some]
  constructor
  · rintro ⟨b, hpermits, hread⟩
    exact ⟨hpermits, by rw [hread]; rfl⟩
  · rintro ⟨hpermits, hread⟩
    cases h : reader.memory.readInto address 1 with
    | error e => simp [h, Except.isOk, Except.toBool] at hread
    | ok byte =>
      exact ⟨byte[0], hpermits, congrArg _ (eq_singleton byte)⟩

/-- The bytes of one block can be read all or none. -/
theorem isSome_byteAt_block (hmemory : BlockMemory reader.memory)
    (hlimits : BlockLimits reader.limits) {address' : Nat} (h : address / 64 = address' / 64) :
    (byteAt reader address).isSome ↔ (byteAt reader address').isSome := by
  have := hlimits.minAddress
  have := hlimits.maxAddress
  rw [isSome_byteAt, isSome_byteAt, hmemory.blocks _ _ h]
  unfold ProviderSdk.ReadLimits.Permits addressEnd
  refine and_congr_left fun _ => ?_
  omega

/-- A chunk within one block can be read when its first byte can. -/
theorem readAt_block (hmemory : BlockMemory reader.memory)
    (hlimits : BlockLimits reader.limits) (hn : 0 < n) (hblock : address % 64 + n ≤ 64)
    (h : (byteAt reader address).isSome) : ∃ bytes, reader.readAt address n = .ok bytes := by
  have hbyte : ∀ i : Fin n, ∃ b, byteAt reader (address + i) = some b := fun i =>
    Option.isSome_iff_exists.mp
      ((isSome_byteAt_block hmemory hlimits (by have := i.isLt; omega)).mp h)
  choose b hb using hbyte
  refine ⟨Vector.ofFn b, (readAt_iff_holds hmemory hn).mpr fun i hi => ?_⟩
  simpa using hb ⟨i, by simpa using hi⟩

end

/-! ## The loop -/

/-- The bytes before a NUL are a string when there are few enough of them and all are graphic. -/
theorem terminated_eq_ok {value : List UInt8} {text : String} :
    (terminated value : Except ReadError String) = .ok text ↔
      value.length ≤ maxStringBytes ∧ value.all isAsciiGraphic ∧ text = Ascii.text value := by
  by_cases h : value.length ≤ maxStringBytes ∧ value.all isAsciiGraphic
  · have hascii : ∀ b ∈ value, b.toNat < 128 := fun b hb => by
      have := List.all_eq_true.mp h.2 b hb
      simp only [isAsciiGraphic, Bool.and_eq_true, decide_eq_true_eq, UInt8.le_iff_toNat_le] at this
      have : (0x7e : UInt8).toNat = 126 := rfl
      omega
    have hgraphic : ¬(maxStringBytes < value.length || value.any fun byte => !isAsciiGraphic byte) := by
      simpa [List.all_eq_true] using h
    simp only [terminated, if_neg hgraphic, Ascii.fromUTF8_eq hascii, pure_eq_ok, h, true_and]
    exact eq_comm
  · have hrejected : (maxStringBytes < value.length || value.any fun byte => !isAsciiGraphic byte) := by
      by_contra hno
      exact h (by simpa [List.all_eq_true] using hno)
    rw [terminated, if_pos hrejected]
    exact iff_of_false (fun hok => by cases hok) fun hok => h ⟨hok.1, hok.2.1⟩

theorem readBytes_pos (address : Nat) {length : Nat} (h : length ≤ maxStringBytes) :
    0 < readBytes address length := by
  unfold readBytes stringReadBytes
  omega

theorem readBytes_block (address length : Nat) : address % 64 + readBytes address length ≤ 64 := by
  unfold readBytes stringReadBytes
  omega

theorem readBytes_le (address length : Nat) : readBytes address length ≤ stringReadBytes := by
  unfold readBytes stringReadBytes
  omega

/-- The rest of the loop finds what the rest of the scan finds. -/
theorem readChunks_eq_ok {reader : TargetReader} (hmemory : BlockMemory reader.memory)
    (hlimits : BlockLimits reader.limits) (address : Nat) (value : List UInt8) (text : String) :
    readChunks reader.readAt address value = .ok text ↔
      ∃ bytes, scanBytes (byteAt reader) (address + value.length)
        (maxStringBytes + 1 - value.length) = some bytes ∧
        (terminated (value ++ bytes) : Except ReadError String) = .ok text := by
  induction h : maxStringBytes + 1 - value.length using Nat.strong_induction_on generalizing value with
  | _ left ih =>
    rw [readChunks]
    split
    · rename_i hlength
      obtain ⟨rest, rfl⟩ : ∃ rest, left = rest + 1 := ⟨left - 1, by omega⟩
      have hn := readBytes_pos (address + value.length) hlength
      cases hfirst : byteAt reader (address + value.length) with
      | none =>
        refine iff_of_false (fun hok => ?_) fun ⟨_, hscan, _⟩ => by simp [scanBytes, hfirst] at hscan
        split at hok
        · exact nomatch hok
        obtain ⟨chunk, hchunk, -⟩ := bind_eq_ok.mp hok
        have hholds := (readAt_iff_holds hmemory hn).mp hchunk
        have := hholds 0 (by rw [Vector.length_toList]; exact hn)
        exact absurd (hfirst.symm.trans this) nofun
      | some b =>
        obtain ⟨chunk, hchunk⟩ := readAt_block hmemory hlimits hn
          (readBytes_block (address + value.length) value.length) (by rw [hfirst]; rfl)
        have hholds := (readAt_iff_holds hmemory hn).mp hchunk
        obtain ⟨k, hk⟩ : ∃ k, rest + 1 = chunk.toList.length + k := by
          refine ⟨rest + 1 - chunk.toList.length, ?_⟩
          rw [Vector.length_toList]
          unfold readBytes at *
          omega
        have hend : ¬addressEnd ≤ address + value.length := by
          have := (byteAt_eq_some.mp hfirst).1.2.2
          omega
        rw [if_neg hend]
        dsimp only
        rw [hchunk, ok_bind, hk, scanBytes_append hholds]
        cases hnul : chunk.toList.findIdx? (· == 0) with
        | some nul => simp
        | none =>
          have := ih k (by rw [Vector.length_toList] at hk; omega) (value ++ chunk.toList)
            (by rw [List.length_append]; omega)
          simp only [this, List.length_append, ← Nat.add_assoc]
          cases scanBytes (byteAt reader) (address + value.length + chunk.toList.length) k with
          | none => simp
          | some bytes => simp
    · obtain rfl : left = 0 := by omega
      exact iff_of_false nofun fun ⟨_, hscan, _⟩ => nomatch hscan

theorem scanBytes_length {byte : Nat → Option UInt8} {address n : Nat} {bytes : List UInt8}
    (h : scanBytes byte address n = some bytes) : bytes.length < n := by
  induction n generalizing address bytes with
  | zero => cases h
  | succ n ih =>
    rw [scanBytes] at h
    split at h
    · cases h
    split at h
    · cases h
      exact Nat.succ_pos n
    · obtain ⟨rest, hrest, rfl⟩ := Option.map_eq_some_iff.mp h
      exact Nat.succ_lt_succ (ih hrest)

theorem readCString_eq_ok {reader : TargetReader} (hmemory : BlockMemory reader.memory)
    (hlimits : BlockLimits reader.limits) (address : Nat) (text : String) :
    readCString reader.readAt address = .ok text ↔
      scanCString (byteAt reader) address = some text := by
  rw [readCString, readChunks_eq_ok hmemory hlimits]
  unfold scanCString
  simp only [terminated_eq_ok, List.nil_append, List.length_nil, Nat.add_zero, Nat.sub_zero]
  cases hscan : scanBytes (byteAt reader) address (maxStringBytes + 1) with
  | none => simp
  | some bytes =>
    have hlength := scanBytes_length hscan
    simp only [Option.some.injEq, exists_eq_left', Nat.le_of_lt_succ hlength, true_and,
      Option.ite_none_right_eq_some]
    exact and_congr_right fun _ => eq_comm

/-! ## Through a budgeted reader -/

section

open Metered

variable {reader : ProviderSdk.TargetReader} {address : Nat} {value : List UInt8}

theorem runFrom_terminated {σ : Type} (value : List UInt8) (s : σ) :
    runFrom (terminated value : ExceptT ReadError (StateM σ) String) s = (terminated value, s) := by
  unfold terminated
  split
  · rfl
  · split <;> rfl

theorem readChunks_mirrors (reader : ProviderSdk.TargetReader) (address : Nat) (value : List UInt8) :
    Mirrors stringReadBytes reader (readChunks Metered.readAt address value)
      (readChunks reader.readAt address value) := by
  induction h : maxStringBytes + 1 - value.length using Nat.strong_induction_on generalizing value with
  | _ left ih =>
    rw [readChunks, readChunks]
    split
    · split
      · exact Mirrors.throw _
      have hblock := readBytes_le (address + value.length) value.length
      refine Mirrors.bind ((readAt_mirrors reader _ _).mono hblock) fun chunk _ => ?_
      split
      · intro metered hstill
        rw [runFrom_terminated]
        exact ⟨hstill, .inr rfl⟩
      · refine ih _ ?_ _ rfl
        have := readBytes_pos (address + value.length) ‹_›
        rw [List.length_append, Vector.length_toList]
        omega
    · exact Mirrors.throw _

/-- Budgets for the bytes that the longest string still needs, and for the blocks they lie in, last to
the end of the loop. -/
theorem readChunks_paid {metered : Metered.TargetReader (Recorded ProcessMemory)}
    (hbytes : maxStringBytes + 1 - value.length ≤ metered.limits.bytes)
    (hreads : value.length ≤ maxStringBytes → (address + value.length) % stringReadBytes +
      (maxStringBytes + 1 - value.length) ≤ stringReadBytes * metered.limits.reads) :
    (runFrom (readChunks Metered.readAt address value) metered).1 =
      readChunks metered.still.readAt address value := by
  induction h : maxStringBytes + 1 - value.length using Nat.strong_induction_on
    generalizing value metered with
  | _ left ih =>
    rw [readChunks, readChunks]
    split
    · rename_i hlength
      split
      · rfl
      have hn := readBytes_pos (address + value.length) hlength
      have hreads := hreads hlength
      have hpaid : ¬metered.Short (readBytes (address + value.length) value.length) := by
        rintro (hshort | hshort)
        · unfold readBytes at hshort
          omega
        · rw [hshort] at hreads
          omega
      obtain ⟨hread, hspent⟩ := @readAt_paid metered (address + value.length) _ hn hpaid
      dsimp only
      rw [← hread, runFrom_bind]
      rcases hrun : runFrom (Metered.readAt (address + value.length)
        (readBytes (address + value.length) value.length)) metered with ⟨e | chunk, next⟩
      · rfl
      obtain ⟨hnextBytes, hnextReads⟩ := hspent chunk next hrun
      have hstill := ((readAt_mirrors metered.still _ _).eq_ok rfl hrun).2
      rw [ok_bind]
      dsimp only
      split
      · rw [runFrom_terminated]
      · rw [← hstill]
        have hlong : (value ++ chunk.toList).length =
            value.length + readBytes (address + value.length) value.length := by
          rw [List.length_append, Vector.length_toList]
        refine ih _ ?_ ?_ (fun hshort => ?_) rfl
        · omega
        · omega
        · -- A chunk that leaves the string short of its end has reached the end of its block.
          rw [hlong] at hshort ⊢
          rw [hnextReads]
          unfold readBytes stringReadBytes at *
          omega
    · rfl

/-- The bytes so far are no NULs, so a NUL lies in this block or a later one. -/
theorem readChunks_follows (hmemory : BlockMemory reader.memory)
    {metered : Metered.TargetReader (Recorded ProcessMemory)} (hstill : metered.still = reader)
    (hvalue : Holds (byteAt reader) address value) (hzero : ∀ b ∈ value, b ≠ 0) :
    Follows (Asks fun a n => ∀ k, byteAt reader (address + k) = some 0 →
      a + n ≤ (address + k) / 64 * 64 + 64) metered (readChunks Metered.readAt address value) := by
  induction h : maxStringBytes + 1 - value.length using Nat.strong_induction_on
    generalizing value metered with
  | _ left ih =>
    rw [readChunks]
    split
    · rename_i hlength
      split
      · exact Follows.throw _ _
      have hn := readBytes_pos (address + value.length) hlength
      refine Follows.bind (readAt_follows fun k hk => ?_) fun chunk next hrun => ?_
      · have hbehind : value.length ≤ k := by
          by_contra hlt
          have hbyte := (hvalue k (by omega)).symm.trans hk
          exact hzero _ (List.getElem_mem _) (Option.some.inj hbyte)
        have := readBytes_block (address + value.length) value.length
        omega
      · obtain ⟨hchunk, hstill'⟩ := (readAt_mirrors reader _ _).eq_ok hstill hrun
        have hholds := (readAt_iff_holds hmemory hn).mp hchunk
        split
        · unfold Follows
          rw [runFrom_terminated]
          exact Std.Refl.refl _
        · rename_i hnul
          refine ih _ ?_ hstill' (hvalue.append hholds) ?_ rfl
          · rw [List.length_append, Vector.length_toList]
            omega
          · intro b hb
            rcases List.mem_append.mp hb with hb | hb
            · exact hzero b hb
            · simpa using List.findIdx?_eq_none_iff.mp hnul b hb
    · exact Follows.throw _ _

/-- With budgets for the longest string, `readCString` succeeds exactly when the scan of single bytes
does, with the same string. With smaller ones, it does so or it runs out of them. It asks for no byte past
the block of a NUL of the string. -/
theorem chunks_scan (metered : Metered.TargetReader (Recorded ProcessMemory))
    (hmemory : BlockMemory metered.memory.memory) (hlimits : BlockLimits metered.limits.toReadLimits)
    (address : Nat) :
    let out := runFrom (readCString Metered.readAt address) metered
    let byte := byteAt metered.still
    (256 ≤ metered.limits.bytes → 5 ≤ metered.limits.reads →
      ∀ text, out.1 = .ok text ↔ scanCString byte address = some text) ∧
    ((∃ error, out.1 = .error error ∧ OverBudget error ∧ out.2.Short stringReadBytes) ∨
      ∀ text, out.1 = .ok text ↔ scanCString byte address = some text) ∧
    ∃ asked, out.2.memory.requests = metered.memory.requests ++ asked ∧
      ∀ request ∈ asked, ∀ nul, byte (address + nul) = some 0 →
        request.1 + request.2 ≤ (address + nul) / 64 * 64 + 64 := by
  intro out byte
  have hscan : ∀ text, readCString metered.still.readAt address = .ok text ↔
      scanCString byte address = some text :=
    readCString_eq_ok hmemory hlimits address
  refine ⟨fun hbytes hreads text => ?_, ?_, ?_⟩
  · have hpaid : out.1 = readCString metered.still.readAt address :=
      readChunks_paid hbytes fun _ => by
        unfold stringReadBytes maxStringBytes
        simp only [List.length_nil]
        omega
    rw [hpaid]
    exact hscan text
  · refine (readChunks_mirrors metered.still address [] metered rfl).2.imp_right fun hout text => ?_
    rw [← hscan, ← show out.1 = readCString metered.still.readAt address from hout]
  · have hempty : Holds (byteAt metered.still) address [] := by
      intro i hi
      simp at hi
    obtain ⟨asked, hgranted, hasked⟩ :=
      readChunks_follows hmemory rfl hempty (List.forall_mem_nil _)
    exact ⟨asked, hgranted.requests, hasked⟩

/-- A target with nothing after the page that ends at `0x21000`, where a string ends. -/
def endOfPage : ProcessMemory where
  readInto address n :=
    if address + n ≤ 0x21000 then .ok (Vector.ofFn fun i => byte (address + i))
    else .error "invalid read range"
where
  byte : Nat → UInt8
    | 0x20ffc => 0x45
    | 0x20ffd => 0x6e
    | 0x20ffe => 0x64
    | _ => 0

theorem endOfPage_blocks : BlockMemory endOfPage where
  bytewise address n bytes hn := by
    simp only [endOfPage]
    constructor
    · intro h i hi
      split at h
      · cases h
        rw [if_pos (by omega), eq_singleton (Vector.ofFn _)]
        simp
      · exact nomatch h
    · intro h
      have hlast := h (n - 1) (by omega)
      rw [if_pos (by by_contra hno; rw [if_neg (by omega)] at hlast; exact nomatch hlast)]
      refine congrArg _ (Vector.ext fun i hi => ?_)
      have hbyte := h i hi
      rw [if_pos (by by_contra hno; rw [if_neg hno] at hbyte; exact nomatch hbyte)] at hbyte
      have := congrArg (fun bytes : Vector UInt8 1 => bytes[0]) (Except.ok.inj hbyte)
      simpa using this
  blocks address address' h := by
    have : address + 1 ≤ 0x21000 ↔ address' + 1 ≤ 0x21000 := by omega
    simp only [endOfPage, this]
    split <;> rfl

theorem chunks_scan_endOfPage :
    let metered : Metered.TargetReader (Recorded ProcessMemory) :=
      ⟨⟨endOfPage, []⟩, 0x10000, 0x20000, ⟨⟨0x10000, 0x7fffffffffff⟩, 4096, 64⟩⟩
    let out := runFrom (readCString Metered.readAt 0x20ffc) metered
    out.1 = .ok "End" ∧
    ∃ asked, out.2.memory.requests = [] ++ asked ∧
      ∀ request ∈ asked, ∀ nul, byteAt metered.still (0x20ffc + nul) = some 0 →
        request.1 + request.2 ≤ (0x20ffc + nul) / 64 * 64 + 64 := by
  have h := chunks_scan ⟨⟨endOfPage, []⟩, 0x10000, 0x20000, ⟨⟨0x10000, 0x7fffffffffff⟩, 4096, 64⟩⟩
    endOfPage_blocks ⟨rfl, rfl⟩ 0x20ffc
  exact ⟨(h.1 (by decide) (by decide) "End").mpr (by decide +kernel), h.2.2⟩

end

end StringPool
end Warframe
end WfObserver
