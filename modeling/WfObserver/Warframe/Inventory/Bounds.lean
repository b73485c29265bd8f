import WfObserver.Warframe.Inventory.Conservation
import WfObserver.Warframe.Mastery

/-!
# Accepted vector headers make the decoders' arithmetic safe

A header that `decodeHeader` accepts bounds its vector (`decodeHeader_bounded`): every record lies in the
user's address range, and there are too few records for any sum of 32-bit counts to overflow. So the
overflow errors of the decoders cannot happen (`accepted_header_safe`).
-/

namespace WfObserver
namespace Warframe
namespace Inventory

open ProviderSdk Stateful Fallible ItemType ProfileInventory Chunks

/-- The bounds of an accepted header. -/
structure Bounded (header : NativeVectorHeader) (recordBytes : Nat) : Prop where
  stride : 0 < recordBytes
  length : header.bytes ≤ header.capacity
  capacity : header.capacity ≤ maxVectorBytes
  divides : recordBytes ∣ header.bytes
  range : 0 < header.capacity → header.pointer + (header.capacity - 1) ≤ maxUserAddress

theorem decodeHeader_bounded {bytes : Vector UInt8 16} {recordBytes : Nat}
    {header : NativeVectorHeader} (h : ProfileInventory.decodeHeader bytes recordBytes = .ok header) :
    Bounded header recordBytes := by
  simp only [ProfileInventory.decodeHeader, ite_eq_ok, Except.ok.injEq] at h
  obtain ⟨hstride, hlength, hcapacity, hdivides, hrange, rfl⟩ := h
  simp only [Bool.not_eq_true', Bool.not_eq_false] at hrange
  refine ⟨Nat.pos_of_ne_zero hstride, Nat.le_of_not_lt hlength, Nat.le_of_not_lt hcapacity,
    Nat.dvd_of_mod_eq_zero (not_not.mp (not_or.mp hdivides).1), fun hpos => ?_⟩
  rw [isUserRange, if_neg (Nat.ne_of_gt hpos)] at hrange
  simp only [Bool.and_eq_true, decide_eq_true_eq] at hrange
  exact hrange.2

/-- A place within a record of the vector. -/
theorem Bounded.address {header : NativeVectorHeader} {recordBytes : Nat}
    (h : Bounded header recordBytes) {index offset : Nat} (hindex : index < header.bytes / recordBytes)
    (hoffset : offset < recordBytes) :
    index * recordBytes + offset < header.bytes ∧
      header.pointer + (index * recordBytes + offset) ≤ maxUserAddress := by
  have hend : (index + 1) * recordBytes ≤ header.bytes := by
    calc (index + 1) * recordBytes ≤ header.bytes / recordBytes * recordBytes :=
          Nat.mul_le_mul_right _ hindex
      _ = header.bytes := Nat.div_mul_cancel h.divides
  rw [Nat.succ_mul] at hend
  have hplace : index * recordBytes + offset < header.bytes := by omega
  have := h.length
  have := h.range (by omega)
  exact ⟨hplace, by omega⟩

theorem maxUserAddress_lt : maxUserAddress < addressEnd := by decide

/-! ## Records -/

/-- Counts are 32-bit. -/
def countEnd : Nat := 2 ^ 32

theorem record_field {view : RecordView} {offset length : Nat} {bytes : List UInt8}
    (h : view.field offset length = .ok bytes) :
    offset + length ≤ view.bytes.length ∧ bytes.length = length := by
  simp only [RecordView.field, ite_eq_ok, Except.ok.injEq] at h
  obtain ⟨-, hinside, rfl⟩ := h
  rw [List.length_take, List.length_drop]
  omega

theorem record_u32 {view : RecordView} {offset value : Nat} (h : view.u32 offset = .ok value) :
    offset + 4 ≤ view.bytes.length ∧ value < countEnd := by
  cases hfield : view.field offset 4 with
  | error e => simp [RecordView.u32, hfield] at h
  | ok bytes =>
    obtain ⟨hinside, hlength⟩ := record_field hfield
    rw [RecordView.u32, hfield] at h
    cases h
    have := fromLeBytes_lt bytes
    rw [hlength] at this
    exact ⟨hinside, by simpa [countEnd] using this⟩


theorem ofRecord_ne {α : Type} (x : Except RecordError α) : ofRecord x ≠ .error .countOverflow := by
  cases x <;> simp [ofRecord, Except.mapError]

section

variable {header : NativeVectorHeader} {facts : InventoryRecordFacts} {index : Nat} {view : RecordView}
  {chunk : List UInt8 × Nat} {counts : OrdMap Nat Nat}

theorem recordCount_lt {address count : Nat} (h : recordCount address facts index view = .ok count) :
    count < countEnd := by
  unfold recordCount at h
  cases hfacts : facts.count with
  | single =>
    rw [hfacts] at h
    cases h
    decide
  | plain offset =>
    rw [hfacts] at h
    exact (record_u32 (mapError_eq_ok.mp h)).2
  | addressEncoded codec =>
    rw [hfacts] at h
    obtain ⟨check, -, h⟩ := bind_eq_ok.mp h
    obtain ⟨stored, -, h⟩ := bind_eq_ok.mp h
    obtain ⟨-, h⟩ := ite_eq_ok.mp h
    split at h
    · cases h
      exact BitVec.isLt _
    · exact nomatch h

/-- The stored word of a record that is large enough for it has an address. -/
theorem recordCount_safe (h : Bounded header facts.bytes) (hindex : index < header.bytes / facts.bytes)
    (hview : view.bytes.length = facts.bytes) :
    recordCount header.pointer facts index view ≠ .error .countOverflow := by
  unfold recordCount
  cases facts.count with
  | single => exact nofun
  | plain offset => exact ofRecord_ne _
  | addressEncoded codec =>
    refine bind_ne_error (ofRecord_ne _) fun check _ => bind_ne_error (ofRecord_ne _) fun stored hstored => ?_
    have hinside := (record_u32 (mapError_eq_ok.mp hstored)).1
    have haddress := (h.address hindex (show codec.stored < facts.bytes by omega)).2
    dsimp only
    rw [if_neg (Nat.not_le.mpr (lt_of_le_of_lt haddress maxUserAddress_lt))]
    split <;> exact nofun

theorem decodeRecord_lt {address : Nat} {record : Nat × Nat}
    (h : decodeRecord address facts chunk = .ok record) : record.2 < countEnd := by
  obtain ⟨itemType, -, h⟩ := bind_eq_ok.mp h
  obtain ⟨-, h⟩ := ite_eq_ok.mp h
  obtain ⟨count, hcount, h⟩ := bind_eq_ok.mp h
  cases h
  exact recordCount_lt hcount

theorem decodeRecord_safe (h : Bounded header facts.bytes) (hindex : chunk.2 < header.bytes / facts.bytes)
    (hchunk : chunk.1.length = facts.bytes) :
    decodeRecord header.pointer facts chunk ≠ .error .countOverflow := by
  refine bind_ne_error (ofRecord_ne _) fun itemType _ => ?_
  split
  · exact nofun
  · exact bind_ne_error (recordCount_safe h hindex hchunk) fun count _ => nofun

theorem aggregate_safe {κ : Type} [LinearOrder κ] {counts : OrdMap κ Nat} {key : κ} {quantity : Nat}
    (h : (counts.sum fun _ n => n) + quantity ≤ u64Max) :
    aggregate counts key quantity = .ok (counts.add key quantity) :=
  aggregate_eq_ok.mpr ⟨rfl, (Nat.add_le_add_right (OrdMap.count_le_sum counts key) quantity).trans h⟩

theorem countRecord_safe (h : Bounded header facts.bytes) (hindex : chunk.2 < header.bytes / facts.bytes)
    (hchunk : chunk.1.length = facts.bytes) (hcounts : (counts.sum fun _ n => n) + countEnd ≤ u64Max) :
    countRecord header.pointer facts counts chunk ≠ .error .countOverflow := by
  refine bind_ne_error (decodeRecord_safe h hindex hchunk) fun record hrecord => ?_
  have hlt := decodeRecord_lt hrecord
  dsimp only
  split
  · exact nofun
  · rw [aggregate_safe (by omega)]
    exact nofun

/-- A record adds what it counts. -/
theorem countRecord_sum {address : Nat} {next : OrdMap Nat Nat}
    (h : countRecord address facts counts chunk = .ok next) :
    (next.sum fun _ n => n) ≤ (counts.sum fun _ n => n) + countEnd := by
  obtain ⟨record, hrecord, h⟩ := bind_eq_ok.mp h
  have hlt := decodeRecord_lt hrecord
  dsimp only at h
  split at h
  · cases h
    exact Nat.le_add_right _ _
  · obtain ⟨rfl, -⟩ := aggregate_eq_ok.mp h
    rw [OrdMap.sum_add fun _ _ _ => rfl]
    omega

/-- What the loop has counted stays below what its records can count. -/
theorem foldlM_countRecord_safe (h : Bounded header facts.bytes) {chunks : List (List UInt8 × Nat)}
    (hchunks : ∀ chunk ∈ chunks, chunk.1.length = facts.bytes ∧ chunk.2 < header.bytes / facts.bytes)
    (hcounts : (counts.sum fun _ n => n) + chunks.length * countEnd ≤ u64Max) :
    chunks.foldlM (countRecord header.pointer facts) counts ≠ .error .countOverflow := by
  induction chunks generalizing counts with
  | nil => exact nofun
  | cons chunk chunks ih =>
    obtain ⟨⟨hlength, hindex⟩, hrest⟩ := List.forall_mem_cons.mp hchunks
    rw [List.length_cons, Nat.succ_mul] at hcounts
    rw [List.foldlM_cons]
    refine bind_ne_error (countRecord_safe h hindex hlength (by omega)) fun next hnext => ih hrest ?_
    have := countRecord_sum hnext
    omega

theorem foldlM_countRecord_sum {address : Nat} {chunks : List (List UInt8 × Nat)}
    {result : OrdMap Nat Nat} (h : chunks.foldlM (countRecord address facts) counts = .ok result) :
    (result.sum fun _ n => n) ≤ (counts.sum fun _ n => n) + chunks.length * countEnd := by
  induction chunks generalizing counts with
  | nil =>
    cases h
    exact Nat.le_add_right _ _
  | cons chunk chunks ih =>
    obtain ⟨next, hnext, hrest⟩ := foldlM_cons_eq_ok.mp h
    have := countRecord_sum hnext
    have := ih hrest
    rw [List.length_cons, Nat.succ_mul]
    omega

end

/-! ## Paths -/

section

variable {σ : Type} (resolve : Nat → ExceptT ItemTypeError (StateM σ) ItemKey)

/-- A resolver with its errors as those of an inventory. -/
def resolving (itemType : Nat) : ExceptT InventoryError (StateM σ) ItemKey :=
  ExceptT.adapt InventoryError.itemType (resolve itemType)

theorem resolving_safe (itemType : Nat) (state : σ) :
    (runFrom (resolving resolve itemType) state).1 ≠ .error (.layout .countOverflow) := by
  have hrun : (runFrom (resolving resolve itemType) state).1 =
    (runFrom (resolve itemType) state).1.mapError .itemType := rfl
  rw [hrun]
  cases (runFrom (resolve itemType) state).1 <;> simp [Except.mapError]

theorem foldlM_projectItem_safe {items : List (Nat × Nat)} {counts : OrdMap ItemKey Nat} {state : σ}
    (hcounts : (counts.sum fun _ n => n) + (items.map (·.2)).sum ≤ u64Max) :
    (runFrom (items.foldlM (projectItem (resolving resolve)) counts) state).1 ≠
      .error (.layout .countOverflow) := by
  induction items generalizing counts state with
  | nil => exact nofun
  | cons item items ih =>
    rw [List.map_cons, List.sum_cons] at hcounts
    have hadd : ∀ key, aggregate counts key item.2 = .ok (counts.add key item.2) :=
      fun key => aggregate_safe (by omega)
    rw [List.foldlM_cons]
    refine runFrom_bind_ne_error ?_ fun next state' hnext => ih ?_
    · refine runFrom_bind_ne_error (resolving_safe resolve item.1 state) fun key state' _ => ?_
      rw [hadd key]
      exact nofun
    · obtain ⟨key, _, -, hrest⟩ := runFrom_bind_eq_ok.mp hnext
      rw [hadd key] at hrest
      cases hrest
      rw [OrdMap.sum_add fun _ _ _ => rfl]
      omega

theorem projectItems_safe {counts : OrdMap Nat Nat} (hcounts : (counts.sum fun _ n => n) ≤ u64Max)
    (state : σ) : (runFrom (projectItems (resolving resolve) counts) state).1 ≠
      .error (.layout .countOverflow) :=
  runFrom_bind_ne_error (foldlM_projectItem_safe resolve (by rwa [OrdMap.sum_empty, Nat.zero_add]))
    fun _ _ _ => nofun

end

/-! ## Vectors -/

/-- The chunks of a payload of the announced length. -/
theorem chunk_bounds {header : NativeVectorHeader} {recordBytes : Nat} {payload : List UInt8}
    (hlength : payload.length = header.bytes) : ∀ chunk ∈ (chunksExact recordBytes payload).zipIdx,
      chunk.1.length = recordBytes ∧ chunk.2 < header.bytes / recordBytes := by
  intro chunk hchunk
  obtain ⟨hindex, hmem⟩ := List.mem_zipIdx' hchunk
  rw [length_chunksExact, hlength] at hindex
  exact ⟨length_of_mem (hmem ▸ List.getElem_mem _), hindex⟩

/-- All the counts that a vector has room for. -/
theorem Bounded.room {header : NativeVectorHeader} {recordBytes : Nat}
    (h : Bounded header recordBytes) : header.bytes / recordBytes * countEnd ≤ u64Max := by
  have hrecords : header.bytes / recordBytes ≤ maxVectorBytes :=
    (Nat.div_le_self _ _).trans (h.length.trans h.capacity)
  exact (Nat.mul_le_mul_right countEnd hrecords).trans (by decide)

/-- A field that cannot be read is reported under its record's own label. -/
theorem field_ne {view : RecordView} {place : String} (h : view.place ≠ place) (offset length : Nat) :
    (fromLeBytes <$> view.field offset length).mapError (·.toReadError) ≠
      .error (ReadError.overflow place) := by
  unfold RecordView.field
  split
  · intro herror
    cases herror
    exact h rfl
  · split <;> exact nofun

theorem mastery_decodeRecord_safe {header : NativeVectorHeader}
    (h : Bounded header Mastery.mastery.recordBytes) {chunk : List UInt8 × Nat}
    (hindex : chunk.2 < header.bytes / Mastery.mastery.recordBytes) :
    Mastery.decodeRecord header.pointer chunk ≠ .error (.overflow "mastery record address") := by
  have hlabel : "mastery record" ≠ "mastery record address" := by decide
  have haddress := (h.address hindex
    (show Mastery.mastery.xp.stored < Mastery.mastery.recordBytes by decide)).2
  have hfits := lt_of_le_of_lt haddress maxUserAddress_lt
  refine bind_ne_error (field_ne hlabel _ 8) fun itemType _ => ?_
  split
  · exact nofun
  split
  · exact nofun
  dsimp only
  rw [if_neg (by omega)]
  refine bind_ne_error (field_ne hlabel _ 4) fun check _ =>
    bind_ne_error (field_ne hlabel _ 4) fun stored _ => ?_
  split <;> exact nofun

/-- Behind an accepted header the decoders' arithmetic is safe: the records are all of the payload, every
place in them has an address, and no count overflows, whatever the paths are. -/
theorem accepted_header_safe {bytes : Vector UInt8 16} {recordBytes : Nat}
    {header : NativeVectorHeader} (h : ProfileInventory.decodeHeader bytes recordBytes = .ok header)
    {payload : List UInt8} (hlength : payload.length = header.bytes) :
    let records := chunksExact recordBytes payload
    (records.length = header.bytes / recordBytes ∧ records.flatten = payload) ∧
    (∀ index < header.bytes / recordBytes, ∀ offset < recordBytes,
      index * recordBytes + offset < header.bytes ∧
      header.pointer + (index * recordBytes + offset) < addressEnd) ∧
    (∀ facts : InventoryRecordFacts, facts.bytes = recordBytes →
      decodeRecords header.pointer payload facts =
        records.zipIdx.foldlM (countRecord header.pointer facts) ∅ ∧
      decodeRecords header.pointer payload facts ≠ .error .countOverflow ∧
      ∀ counts, decodeRecords header.pointer payload facts = .ok counts →
        ∀ {σ : Type} (resolve : Nat → ExceptT ItemTypeError (StateM σ) ItemKey) (state : σ),
          (runFrom (projectItems (resolving resolve) counts) state).1 ≠
            .error (.layout .countOverflow)) ∧
    (recordBytes = Mastery.mastery.recordBytes →
      Mastery.decodeRecords header.pointer payload =
        (records.zipIdx.mapM (Mastery.decodeRecord header.pointer)).map List.reduceOption ∧
      Mastery.decodeRecords header.pointer payload ≠ .error (.overflow "mastery record address")) := by
  intro records
  have hbounded := decodeHeader_bounded h
  have hdivides : recordBytes ∣ payload.length := hlength ▸ hbounded.divides
  have hstride : ¬(recordBytes = 0 ∨ payload.length % recordBytes ≠ 0) := by
    have := Nat.mod_eq_zero_of_dvd hdivides
    have := hbounded.stride
    omega
  refine ⟨⟨?_, flatten_chunksExact hdivides⟩, fun index hindex offset hoffset => ?_, ?_, ?_⟩
  · rw [length_chunksExact, hlength]
  · obtain ⟨hplace, haddress⟩ := hbounded.address hindex hoffset
    exact ⟨hplace, lt_of_le_of_lt haddress maxUserAddress_lt⟩
  · rintro facts rfl
    have hloop : decodeRecords header.pointer payload facts =
        records.zipIdx.foldlM (countRecord header.pointer facts) ∅ := by
      rw [decodeRecords, if_neg hstride]
    have hroom : records.zipIdx.length * countEnd ≤ u64Max := by
      rw [List.length_zipIdx, length_chunksExact, hlength]
      exact hbounded.room
    refine ⟨hloop, ?_, fun counts hcounts σ resolve state => ?_⟩
    · rw [hloop]
      refine foldlM_countRecord_safe hbounded (chunk_bounds hlength) ?_
      rwa [OrdMap.sum_empty, Nat.zero_add]
    · rw [hloop] at hcounts
      have hsum := foldlM_countRecord_sum hcounts
      rw [OrdMap.sum_empty, Nat.zero_add] at hsum
      exact projectItems_safe resolve (hsum.trans hroom) state
  · rintro rfl
    have hloop : Mastery.decodeRecords header.pointer payload =
        (records.zipIdx.mapM (Mastery.decodeRecord header.pointer)).map List.reduceOption := by
      rw [Mastery.decodeRecords, if_neg hstride]
      cases records.zipIdx.mapM (Mastery.decodeRecord header.pointer) <;> rfl
    refine ⟨hloop, ?_⟩
    rw [Mastery.decodeRecords, if_neg hstride]
    exact bind_ne_error (mapM_ne_error fun chunk hchunk =>
      mastery_decodeRecord_safe hbounded (chunk_bounds hlength chunk hchunk).2) fun _ _ h => by cases h

/-- Three items at `0x150200000`, one of them twice. -/
def repeatedItems (codec : AddressEncodedScalarFacts) : List UInt8 :=
  Sparse.scalarRecords codec 0x150200000
    [(0x150300000, 3), (0x150310000, 0xffffffff), (0x150300000, 7), (0x150311000, 4)]

theorem accepted_header_safe_repeated :
    (chunksExact 16 (repeatedItems Sparse.stackCodec)).length = 4 ∧
    (∀ index < 4, ∀ offset < 16, 0x150200000 + (index * 16 + offset) < addressEnd) ∧
    (decodeRecords 0x150200000 (repeatedItems Sparse.stackCodec) stackRecords).map (·.entries) =
      .ok [(0x150300000, 10), (0x150310000, 0xffffffff), (0x150311000, 4)] ∧
    decodeRecords 0x150200000 (repeatedItems Sparse.stackCodec) stackRecords ≠ .error .countOverflow ∧
    Mastery.decodeRecords 0x150200000 (repeatedItems Mastery.mastery.xp) =
      .ok [⟨0x150300000, 3⟩, ⟨0x150310000, 0xffffffff⟩, ⟨0x150300000, 7⟩, ⟨0x150311000, 4⟩] ∧
    Mastery.decodeRecords 0x150200000 (repeatedItems Mastery.mastery.xp) ≠
      .error (.overflow "mastery record address") := by
  have haccepted : ProfileInventory.decodeHeader
      #v[0, 0, 0x20, 0x50, 1, 0, 0, 0, 64, 0, 0, 0, 64, 0, 0, 0] 16 = .ok ⟨0x150200000, 64, 64⟩ := rfl
  have hstacks : (repeatedItems Sparse.stackCodec).length = 64 := by decide +kernel
  have haffinity : (repeatedItems Mastery.mastery.xp).length = 64 := by decide +kernel
  obtain ⟨⟨hlength, -⟩, haddress, hinventory, -⟩ := accepted_header_safe haccepted hstacks
  obtain ⟨-, -, -, hmastery⟩ := accepted_header_safe haccepted haffinity
  exact ⟨hlength, fun index hindex offset hoffset => (haddress index hindex offset hoffset).2,
    by decide +kernel, (hinventory stackRecords rfl).2.1, by decide +kernel, (hmastery rfl).2⟩

end Inventory
end Warframe
end WfObserver
