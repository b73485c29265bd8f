import WfObserver.Warframe.Sparse
import WfObserver.Warframe.ItemType.Caches

/-!
# Inventory counts are conserved

Two loops add up the counts of a family, by item type and by item path. Each is a tally of what it was
given (`decodeRecords_eq_ok`, `projectItems_conserved`), so the items of a family count what its records
count, path by path (`inventory_conserved`).
-/

namespace WfObserver
namespace Warframe
namespace Inventory

open ProviderSdk Stateful Fallible ItemType ProfileInventory Chunks

/-! ## The loops -/

section

variable {κ : Type} [LinearOrder κ]

theorem le_foldl_add (l : List (κ × Nat)) (counts : OrdMap κ Nat) (k : κ) :
    counts.count k ≤ (l.foldl (fun m e => m.add e.1 e.2) counts).count k := by
  rw [OrdMap.count_foldl_add]
  exact Nat.le_add_right _ _

theorem aggregate_eq_ok {counts next : OrdMap κ Nat} {key : κ} {quantity : Nat} :
    aggregate counts key quantity = .ok next ↔
      next = counts.add key quantity ∧ counts.count key + quantity ≤ u64Max := by
  rw [aggregate, ite_eq_ok, Nat.not_lt, Except.ok.injEq]
  exact ⟨fun h => ⟨h.2.symm, h.1⟩, fun h => ⟨h.2, h.1.symm⟩⟩

/-- Amounts can be added up when the final counts fit. -/
theorem foldlM_aggregate {counts : OrdMap κ Nat} (hcounts : ∀ k, counts.count k ≤ u64Max)
    (l : List (κ × Nat)) (result : OrdMap κ Nat) :
    l.foldlM (fun m e => aggregate m e.1 e.2) counts = .ok result ↔
      result = l.foldl (fun m e => m.add e.1 e.2) counts ∧ ∀ k, result.count k ≤ u64Max := by
  induction l generalizing counts with
  | nil =>
    rw [List.foldlM_nil, pure_eq_ok, List.foldl_nil]
    exact ⟨fun h => ⟨h.symm, h ▸ hcounts⟩, fun h => h.1.symm⟩
  | cons e l ih =>
    rw [foldlM_cons_eq_ok, List.foldl_cons]
    constructor
    · rintro ⟨next, hnext, hrest⟩
      obtain ⟨rfl, hfits⟩ := aggregate_eq_ok.mp hnext
      refine (ih fun k => ?_).mp hrest
      rw [OrdMap.count_add]
      split
      · rename_i hk
        exact hk ▸ hfits
      · exact hcounts k
    · rintro ⟨hresult, hfits⟩
      have hnext : ∀ k, (counts.add e.1 e.2).count k ≤ u64Max := fun k =>
        (le_foldl_add l _ k).trans (hresult ▸ hfits k)
      refine ⟨counts.add e.1 e.2, aggregate_eq_ok.mpr ⟨rfl, ?_⟩, (ih hnext).mpr ⟨hresult, hfits⟩⟩
      have := hnext e.1
      rwa [OrdMap.count_add, if_pos rfl] at this

end

/-! ## Records -/

/-- The records of a payload, as pairs of a type and a count. -/
def Decoded (address : Nat) (payload : List UInt8) (facts : InventoryRecordFacts)
    (records : List (Nat × Nat)) : Prop :=
  List.Forall₂ (fun chunk record => decodeRecord address facts chunk = .ok record)
    (chunksExact facts.bytes payload).zipIdx records

/-- The records that count something. -/
def nonzero (records : List (Nat × Nat)) : List (Nat × Nat) := records.filter fun record => record.2 ≠ 0

theorem foldlM_countRecord {address : Nat} {facts : InventoryRecordFacts}
    (chunks : List (List UInt8 × Nat)) (counts result : OrdMap Nat Nat) :
    chunks.foldlM (countRecord address facts) counts = .ok result ↔
      ∃ records, List.Forall₂ (fun chunk record => decodeRecord address facts chunk = .ok record)
          chunks records ∧
        (nonzero records).foldlM (fun m e => aggregate m e.1 e.2) counts = .ok result := by
  induction chunks generalizing counts with
  | nil => simp [nonzero]
  | cons chunk chunks ih =>
    simp only [foldlM_cons_eq_ok, List.forall₂_cons_left_iff, countRecord, bind_eq_ok]
    constructor
    · rintro ⟨next, ⟨record, hrecord, hnext⟩, hrest⟩
      obtain ⟨records, hrecords, hfold⟩ := (ih next).mp hrest
      refine ⟨record :: records, ⟨record, records, hrecord, hrecords, rfl⟩, ?_⟩
      by_cases hzero : record.2 = 0
      · rw [if_pos hzero, pure_eq_ok] at hnext
        subst hnext
        rwa [nonzero, List.filter_cons_of_neg (by simpa using hzero)]
      · rw [if_neg hzero] at hnext
        rw [nonzero, List.filter_cons_of_pos (by simpa using hzero), foldlM_cons_eq_ok]
        exact ⟨next, hnext, hfold⟩
    · rintro ⟨_, ⟨record, records, hrecord, hrecords, rfl⟩, hfold⟩
      by_cases hzero : record.2 = 0
      · rw [nonzero, List.filter_cons_of_neg (by simpa using hzero)] at hfold
        exact ⟨counts, ⟨record, hrecord, by rw [if_pos hzero]; rfl⟩, (ih counts).mpr ⟨records, hrecords, hfold⟩⟩
      · rw [nonzero, List.filter_cons_of_pos (by simpa using hzero), foldlM_cons_eq_ok] at hfold
        obtain ⟨next, hnext, hrest⟩ := hfold
        exact ⟨next, ⟨record, hrecord, by rw [if_neg hzero]; exact hnext⟩,
          (ih next).mpr ⟨records, hrecords, hrest⟩⟩

/-- The counts of a payload tally its records, when they fit. -/
theorem decodeRecords_eq_ok {address : Nat} {payload : List UInt8} {facts : InventoryRecordFacts}
    {counts : OrdMap Nat Nat} : decodeRecords address payload facts = .ok counts ↔
      (facts.bytes ≠ 0 ∧ payload.length % facts.bytes = 0) ∧
      ∃ records, Decoded address payload facts records ∧
        counts = OrdMap.tally (nonzero records) ∧ ∀ k, counts.count k ≤ u64Max := by
  have hempty : ∀ k, (∅ : OrdMap Nat Nat).count k ≤ u64Max := fun k => Nat.zero_le _
  rw [decodeRecords, ite_eq_ok, not_or, not_not, foldlM_countRecord]
  simp only [foldlM_aggregate hempty, Decoded, OrdMap.tally]

theorem nonzero_pos {records : List (Nat × Nat)} : ∀ record ∈ nonzero records, 0 < record.2 := by
  intro record hrecord
  have := (List.mem_filter.mp hrecord).2
  simp at this
  omega

/-! ## Paths -/

/-- The counts of the records whose type resolves to a key. -/
def total (path : Nat → Except InventoryError ItemKey) (records : List (Nat × Nat)) (key : ItemKey) :
    Nat :=
  (records.map fun record => if (path record.1).toOption = some key then record.2 else 0).sum

theorem total_nonzero (path : Nat → Except InventoryError ItemKey) (records : List (Nat × Nat))
    (key : ItemKey) : total path (nonzero records) key = total path records key := by
  induction records with
  | nil => rfl
  | cons record records ih =>
    unfold total nonzero at ih ⊢
    by_cases hzero : record.2 = 0
    · rw [List.filter_cons_of_neg (by simpa using hzero), ih]
      simp [hzero]
    · rw [List.filter_cons_of_pos (by simpa using hzero), List.map_cons, List.sum_cons, ih,
        List.map_cons, List.sum_cons]

/-- Counting by type first loses nothing. -/
theorem total_tally (path : Nat → Except InventoryError ItemKey) (records : List (Nat × Nat))
    (key : ItemKey) : total path (OrdMap.tally records).entries key = total path records key :=
  OrdMap.sum_tally (F := fun t n => if (path t).toOption = some key then n else 0)
    (fun t a b => by split <;> rfl) records

theorem foldlM_projectItem {path : Nat → Except InventoryError ItemKey} {items : List (Nat × Nat)}
    {counts result : OrdMap ItemKey Nat} (h : items.foldlM (projectItem path) counts = .ok result) :
    ∃ pairs : List (ItemKey × Nat),
      List.Forall₂ (fun item pair => path item.1 = .ok pair.1 ∧ pair.2 = item.2) items pairs ∧
      pairs.foldlM (fun m e => aggregate m e.1 e.2) counts = .ok result := by
  induction items generalizing counts with
  | nil => exact ⟨[], .nil, by simpa using h⟩
  | cons item items ih =>
    obtain ⟨next, hnext, hrest⟩ := foldlM_cons_eq_ok.mp h
    obtain ⟨key, hkey, hadd⟩ := bind_eq_ok.mp hnext
    obtain ⟨pairs, hpairs, hfold⟩ := ih hrest
    have hadd : aggregate counts key item.2 = .ok next := mapError_eq_ok.mp hadd
    exact ⟨(key, item.2) :: pairs, .cons ⟨hkey, rfl⟩ hpairs, foldlM_cons_eq_ok.mpr ⟨next, hadd, hfold⟩⟩

theorem amount_eq_total {path : Nat → Except InventoryError ItemKey} {items : List (Nat × Nat)}
    {pairs : List (ItemKey × Nat)}
    (h : List.Forall₂ (fun item pair => path item.1 = .ok pair.1 ∧ pair.2 = item.2) items pairs)
    (key : ItemKey) : OrdMap.amount pairs key = total path items key := by
  unfold total
  induction h with
  | nil => rfl
  | cons hpair _ ih =>
    rw [OrdMap.amount_cons, List.map_cons, List.sum_cons, ih, hpair.1, hpair.2]
    simp [Except.toOption]

/-- What a family lists: each key of its records once, in order, with all that they count. -/
structure Conserved (path : Nat → Except InventoryError ItemKey) (records : List (Nat × Nat))
    (family : InventoryFamilySnapshot) : Prop where
  ordered : family.Ordered
  counted : ∀ item ∈ family.items, item.quantity = total path records item.itemKey
  complete : ∀ key, total path records key ≠ 0 → ∃ item ∈ family.items, item.itemKey = key

theorem projectItems_conserved {path : Nat → Except InventoryError ItemKey}
    {records : List (Nat × Nat)} {items : List InventoryItemCount} (family : InventoryFamily)
    (h : projectItems path (OrdMap.tally (nonzero records)) = .ok items) :
    Conserved path records ⟨family, items⟩ := by
  obtain ⟨counts, hcounts, hitems⟩ := bind_eq_ok.mp h
  obtain rfl : counts.entries.map (fun item => ⟨item.1, item.2⟩) = items := pure_eq_ok.mp hitems
  obtain ⟨pairs, hpairs, hfold⟩ := foldlM_projectItem hcounts
  have htally : counts = OrdMap.tally pairs :=
    ((foldlM_aggregate (fun k => Nat.zero_le _) pairs counts).mp hfold).1
  have hcount : ∀ key, counts.count key = total path records key := fun key => by
    rw [htally, OrdMap.count_tally, amount_eq_total hpairs, total_tally, total_nonzero]
  have hpositive : counts.Positive := by
    rw [htally]
    refine OrdMap.Positive.tally fun pair hpair => ?_
    obtain ⟨item, hitem, hsame⟩ := (forall₂_mem hpairs).1 pair hpair
    rw [hsame.2]
    exact OrdMap.Positive.tally nonzero_pos item.1 item.2 (OrdMap.get?_eq_some.mpr hitem)
  refine ⟨⟨?_, ?_⟩, ?_, ?_⟩
  · exact List.pairwise_map.mpr counts.sorted
  · rintro item hitem
    obtain ⟨entry, hentry, rfl⟩ := List.mem_map.mp hitem
    exact Nat.ne_of_gt (hpositive entry.1 entry.2 (OrdMap.get?_eq_some.mpr hentry))
  · rintro item hitem
    obtain ⟨entry, hentry, rfl⟩ := List.mem_map.mp hitem
    rw [← hcount, OrdMap.count, OrdMap.get?_eq_some.mpr hentry]
    rfl
  · intro key hkey
    rw [← hcount] at hkey
    cases hget : counts.get? key with
    | none => exact absurd (by rw [OrdMap.count, hget]; rfl) hkey
    | some n => exact ⟨⟨key, n⟩, List.mem_map.mpr ⟨(key, n), OrdMap.get?_eq_some.mp hget, rfl⟩, rfl⟩

/-! ## Families -/

theorem familyItems_conserved {path : Nat → Except InventoryError ItemKey} {address : Nat}
    {payload : List UInt8} {facts : InventoryRecordFacts} {items : List InventoryItemCount}
    (family : InventoryFamily)
    (h : familyItems path (pure ()) address payload facts = .ok items) :
    ∃ records, Decoded address payload facts records ∧ Conserved path records ⟨family, items⟩ := by
  obtain ⟨counts, hcounts, hitems⟩ := bind_eq_ok.mp h
  have hcounts : decodeRecords address payload facts = .ok counts := mapError_eq_ok.mp hcounts
  obtain ⟨-, records, hrecords, rfl, -⟩ := decodeRecords_eq_ok.mp hcounts
  exact ⟨records, hrecords, projectItems_conserved family hitems⟩

/-- Where the payload of a family lies, and its bytes. -/
def Payload (reader : TargetReader) (inventory : Nat) (facts : InventoryFamilyFacts) (address : Nat)
    (payload : List UInt8) : Prop :=
  readVector reader inventory facts.vector facts.record.bytes = .ok (address, payload)

theorem readFamily_conserved {path : Nat → Except InventoryError ItemKey} {reader : TargetReader}
    {inventory : Nat} {facts : InventoryFamilyFacts} {family : InventoryFamilySnapshot}
    (h : readFamily path (pure ()) reader inventory facts = .ok family) :
    family.family = facts.family ∧ ∃ address payload records,
      Payload reader inventory facts address payload ∧ Decoded address payload facts.record records ∧
      Conserved path records family := by
  obtain ⟨⟨address, payload⟩, hvector, hrest⟩ := bind_eq_ok.mp h
  have hvector : readVector reader inventory facts.vector facts.record.bytes = .ok (address, payload) :=
    mapError_eq_ok.mp hvector
  obtain ⟨items, hitems, hfamily⟩ := bind_eq_ok.mp hrest
  obtain rfl : (⟨facts.family, items⟩ : InventoryFamilySnapshot) = family := pure_eq_ok.mp hfamily
  obtain ⟨records, hrecords, hconserved⟩ := familyItems_conserved facts.family hitems
  exact ⟨rfl, address, payload, records, hvector, hrecords, hconserved⟩

theorem families_complete : families.map (·.family) = InventoryFamily.all := rfl

section

variable {path : Nat → Except InventoryError ItemKey} {reader : TargetReader} {inventory : Nat}
  {fams : List InventoryFamilySnapshot}

theorem fams_complete (h : families.mapM (readFamily path (pure ()) reader inventory) = .ok fams) :
    fams.map (·.family) = InventoryFamily.all := by
  rw [← families_complete]
  have hfams := mapM_eq_ok.mp h
  have hsame : List.Forall₂ (fun (a : InventoryFamilyFacts) (b : InventoryFamilySnapshot) =>
      a.family = b.family) families fams := hfams.imp fun _ _ hok => (readFamily_conserved hok).1.symm
  exact (List.forall₂_eq_eq_eq ▸ List.forall₂_map_left_iff.mpr (List.forall₂_map_right_iff.mpr hsame) :
    families.map (·.family) = fams.map (·.family)).symm

/-- The model accepts the families that were read. -/
theorem fams_accepted (h : families.mapM (readFamily path (pure ()) reader inventory) = .ok fams)
    (accountId : AccountId) :
    InventorySnapshot.new accountId fams = .ok ⟨accountId, fams, fams_complete h, fun family hfamily =>
      by
        obtain ⟨facts, -, hok⟩ := (forall₂_mem (mapM_eq_ok.mp h)).1 family hfamily
        obtain ⟨-, _, _, _, -, -, hconserved⟩ := readFamily_conserved hok
        exact hconserved.ordered⟩ :=
  InventorySnapshot.new_eq _ _

end

theorem Conserved.quantity {path : Nat → Except InventoryError ItemKey} {records : List (Nat × Nat)}
    {snapshot : InventorySnapshot} {entry : InventoryFamilySnapshot} (h : Conserved path records entry)
    (hentry : entry ∈ snapshot.families) (key : ItemKey) :
    snapshot.quantity entry.family key = total path records key := by
  by_cases hlisted : ∃ item ∈ entry.items, item.itemKey = key
  · obtain ⟨item, hitem, rfl⟩ := hlisted
    rw [InventorySnapshot.quantity_of_mem hentry hitem, h.counted item hitem]
  · have habsent : ∀ item ∈ entry.items, item.itemKey ≠ key :=
      fun item hitem hkey => hlisted ⟨item, hitem, hkey⟩
    rw [InventorySnapshot.quantity_absent hentry habsent]
    by_contra hne
    exact hlisted (h.complete key (Ne.symm hne))

/-- What an accepted inventory says about the records of a family. -/
structure FamilyLaw (path : Nat → Except InventoryError ItemKey) (reader : TargetReader)
    (login : Roots.ProfileDataIdentity) (snapshot : InventorySnapshot) (facts : InventoryFamilyFacts)
    (address : Nat) (payload : List UInt8) (records : List (Nat × Nat))
    (entry : InventoryFamilySnapshot) : Prop where
  source : Payload reader (login.object.get + inventoryOwnerOffset) facts address payload
  decoded : Decoded address payload facts.record records
  listed : snapshot.family facts.family = some entry
  conserved : Conserved path records entry
  quantity : ∀ key, snapshot.quantity facts.family key = total path records key

theorem readInventoryWith_conserved {path : Nat → Except InventoryError ItemKey}
    {reader : TargetReader} {login : Roots.ProfileDataIdentity} {snapshot : InventorySnapshot}
    (h : readInventoryWith path (pure ()) reader login = .ok snapshot) :
    ∀ facts ∈ families, ∃ address payload records entry,
      FamilyLaw path reader login snapshot facts address payload records entry := by
  obtain ⟨inventory, hinventory, h⟩ := bind_eq_ok.mp h
  have hinventory : reader.objectAddress login.object.get inventoryOwnerOffset vectorHeaderBytes =
    .ok inventory := mapError_eq_ok.mp hinventory
  obtain rfl := TargetReader.objectAddress_eq hinventory
  obtain ⟨before, -, h⟩ := bind_eq_ok.mp h
  obtain ⟨fams, hfams, h⟩ := bind_eq_ok.mp h
  obtain ⟨again, -, h⟩ := bind_eq_ok.mp h
  split at h
  · exact nomatch h
  have hnew : InventorySnapshot.new login.account.accountId fams = .ok snapshot := mapError_eq_ok.mp h
  have hsnapshot : snapshot.families = fams := by
    rw [← Except.ok.inj ((fams_accepted hfams _).symm.trans hnew)]
  intro facts hfacts
  obtain ⟨entry, hentry, hread⟩ := (forall₂_mem (mapM_eq_ok.mp hfams)).2 facts hfacts
  obtain ⟨hfamily, address, payload, records, hpayload, hrecords, hconserved⟩ :=
    readFamily_conserved hread
  rw [← hsnapshot] at hentry
  refine ⟨address, payload, records, entry, hpayload, hrecords, ?_, hconserved, fun key => ?_⟩
  · rw [← hfamily]
    exact InventorySnapshot.family_of_mem hentry
  · rw [← hfamily]
    exact hconserved.quantity hentry key

/-! ## Any way to resolve paths -/

section

variable {σ : Type} {I : σ → Prop} {resolve : Nat → ExceptT InventoryError (StateM σ) ItemKey}
  {start : ExceptT InventoryError (StateM σ) Unit} {path : Nat → Except InventoryError ItemKey}

theorem familyItems_answers (hresolve : ∀ t, Answers I (resolve t) (path t))
    (hstart : Answers I start (.ok ())) (address : Nat) (payload : List UInt8)
    (facts : InventoryRecordFacts) :
    Answers I (familyItems resolve start address payload facts)
      (familyItems path (pure ()) address payload facts) := by
  refine Answers.bind (Answers.lift _) fun counts _ => Answers.bind hstart fun _ _ => ?_
  refine Answers.bind (Answers.foldlM (fun counts item => ?_) counts.entries ∅) fun result _ =>
    Answers.pure _
  exact Answers.bind (hresolve item.1) fun key _ => Answers.lift _

theorem readFamily_answers (hresolve : ∀ t, Answers I (resolve t) (path t))
    (hstart : Answers I start (.ok ())) (reader : TargetReader) (inventory : Nat)
    (facts : InventoryFamilyFacts) :
    Answers I (readFamily resolve start reader inventory facts)
      (readFamily path (pure ()) reader inventory facts) :=
  Answers.bind (Answers.lift _) fun payload _ =>
    Answers.bind (familyItems_answers hresolve hstart payload.1 payload.2 facts.record)
      fun _ _ => Answers.pure _

theorem readInventoryWith_answers (hresolve : ∀ t, Answers I (resolve t) (path t))
    (hstart : Answers I start (.ok ())) (reader : TargetReader) (login : Roots.ProfileDataIdentity) :
    Answers I (readInventoryWith resolve start reader login)
      (readInventoryWith path (pure ()) reader login) := by
  refine Answers.bind (Answers.lift _) fun inventory _ => Answers.bind (Answers.lift _) fun before _ => ?_
  refine Answers.bind (Answers.mapM (readFamily_answers hresolve hstart reader inventory) families)
    fun fams _ => Answers.bind (Answers.lift _) fun again _ => ?_
  split
  · exact Answers.lift _
  · exact Answers.lift _

end

/-! ## The order of records -/

/-- Counts that are not bound to their address. -/
def Unbound (facts : InventoryRecordFacts) : Prop := ∀ codec, facts.count ≠ .addressEncoded codec

theorem recordCount_unbound {facts : InventoryRecordFacts} (h : Unbound facts)
    (address address' index index' : Nat) (view : RecordView) :
    recordCount address facts index view = recordCount address' facts index' view := by
  unfold recordCount
  cases hcount : facts.count with
  | single => rfl
  | plain count => rfl
  | addressEncoded codec => exact absurd hcount (h codec)

theorem decodeRecord_unbound {facts : InventoryRecordFacts} (h : Unbound facts)
    {address index : Nat} {chunk : List UInt8} {record : Nat × Nat}
    (hrecord : decodeRecord address facts (chunk, index) = .ok record) (address' index' : Nat) :
    decodeRecord address' facts (chunk, index') = .ok record := by
  obtain ⟨itemType, htype, hrest⟩ := bind_eq_ok.mp hrecord
  refine bind_eq_ok.mpr ⟨itemType, htype, ?_⟩
  rw [ite_eq_ok] at hrest ⊢
  rw [recordCount_unbound h address' address index' index]
  exact hrest

theorem decoded_unbound {facts : InventoryRecordFacts} (h : Unbound facts) (address : Nat)
    (chunks : List (List UInt8)) (index : Nat) (records : List (Nat × Nat)) :
    List.Forall₂ (fun chunk record => decodeRecord address facts chunk = .ok record)
        (chunks.zipIdx index) records ↔
      List.Forall₂ (fun chunk record => decodeRecord 0 facts (chunk, 0) = .ok record)
        chunks records := by
  induction chunks generalizing index records with
  | nil => rw [List.zipIdx_nil, List.forall₂_nil_left_iff, List.forall₂_nil_left_iff]
  | cons chunk chunks ih =>
    simp only [List.zipIdx_cons, List.forall₂_cons_left_iff, ih]
    refine exists_congr fun record => exists_congr fun rest => and_congr_left fun _ => ?_
    exact ⟨fun hok => decodeRecord_unbound h hok 0 0, fun hok => decodeRecord_unbound h hok address index⟩

/-- The records of a payload whose counts are not bound to addresses, in another order. -/
theorem decoded_perm {facts : InventoryRecordFacts} (h : Unbound facts) {address : Nat}
    {payload payload' : List UInt8}
    (hperm : (chunksExact facts.bytes payload').Perm (chunksExact facts.bytes payload))
    {records : List (Nat × Nat)} (hrecords : Decoded address payload facts records) (address' : Nat) :
    ∃ records', Decoded address' payload' facts records' ∧ records'.Perm records := by
  obtain ⟨records', hrecords', hsame⟩ :=
    List.perm_comp_forall₂ hperm ((decoded_unbound h address _ 0 records).mp hrecords)
  exact ⟨records', (decoded_unbound h address' _ 0 records').mpr hrecords', hsame⟩

theorem tally_perm {records records' : List (Nat × Nat)} (h : records'.Perm records) :
    OrdMap.tally (nonzero records') = OrdMap.tally (nonzero records) := by
  refine (OrdMap.Positive.tally nonzero_pos).ext (OrdMap.Positive.tally nonzero_pos) fun k => ?_
  rw [OrdMap.count_tally, OrdMap.count_tally]
  exact OrdMap.amount_perm (h.filter _) k

theorem decodeRecords_perm {facts : InventoryRecordFacts} (h : Unbound facts) {address : Nat}
    {payload payload' : List UInt8} (hlength : payload'.length = payload.length)
    (hperm : (chunksExact facts.bytes payload').Perm (chunksExact facts.bytes payload))
    {counts : OrdMap Nat Nat} (hcounts : decodeRecords address payload facts = .ok counts)
    (address' : Nat) : decodeRecords address' payload' facts = .ok counts := by
  obtain ⟨hstride, records, hrecords, rfl, hfits⟩ := decodeRecords_eq_ok.mp hcounts
  obtain ⟨records', hrecords', hsame⟩ := decoded_perm h hperm hrecords address'
  exact decodeRecords_eq_ok.mpr
    ⟨by rwa [hlength], records', hrecords', (tally_perm hsame).symm, hfits⟩

/-- The counts of an accepted inventory are those of its records, path by path, whatever way the paths
are resolved. The model accepts the families that were read, and the order of records whose counts are
not bound to addresses does not matter. -/
theorem inventory_conserved {σ : Type} {I : σ → Prop}
    {resolve : Nat → ExceptT InventoryError (StateM σ) ItemKey}
    {start : ExceptT InventoryError (StateM σ) Unit} {path : Nat → Except InventoryError ItemKey}
    (hresolve : ∀ t, Answers I (resolve t) (path t)) (hstart : Answers I start (.ok ()))
    (reader : TargetReader) (login : Roots.ProfileDataIdentity) {state : σ} (hstate : I state) :
    (∀ snapshot, (runFrom (readInventoryWith resolve start reader login) state).1 = .ok snapshot →
      ∀ facts ∈ families, ∃ address payload records entry,
        FamilyLaw path reader login snapshot facts address payload records entry) ∧
    (∀ inventory fams,
      (runFrom (families.mapM (readFamily resolve start reader inventory)) state).1 = .ok fams →
      ∀ accountId, ∃ snapshot, InventorySnapshot.new accountId fams = .ok snapshot) ∧
    ∀ facts, Unbound facts → ∀ address payload payload' items,
      payload'.length = payload.length →
      (chunksExact facts.bytes payload').Perm (chunksExact facts.bytes payload) →
      (runFrom (familyItems resolve start address payload facts) state).1 = .ok items →
      (runFrom (familyItems resolve start address payload' facts) state).1 = .ok items := by
  refine ⟨fun snapshot h => ?_, fun inventory fams h accountId => ?_, ?_⟩
  · rw [(readInventoryWith_answers hresolve hstart reader login state hstate).1] at h
    exact readInventoryWith_conserved h
  · have hanswers := Answers.mapM (readFamily_answers hresolve hstart reader inventory) families
    rw [(hanswers state hstate).1] at h
    exact ⟨_, fams_accepted h accountId⟩
  · intro facts hfacts address payload payload' items hlength hperm h
    rw [(familyItems_answers hresolve hstart address payload facts state hstate).1] at h
    rw [(familyItems_answers hresolve hstart address payload' facts state hstate).1]
    obtain ⟨counts, hcounts, hitems⟩ := bind_eq_ok.mp h
    have hcounts : decodeRecords address payload facts = .ok counts := mapError_eq_ok.mp hcounts
    refine bind_eq_ok.mpr ⟨counts, mapError_eq_ok.mpr ?_, hitems⟩
    exact decodeRecords_perm hfacts hlength hperm hcounts address

/-! ## Through the caches -/

theorem resolveItemPath_answers (reader : TargetReader) (itemType : Nat) :
    Answers (Resolver.Sound reader itemTypes) (resolveItemPath reader itemType)
      ((itemPath reader itemTypes itemType).mapError .itemType) :=
  Answers.adapt _ (Resolver.resolveItemPath_answers itemType)

theorem startBatch_answers (reader : TargetReader) :
    Answers (Resolver.Sound reader itemTypes) startBatch (.ok ()) :=
  fun _ hstate => ⟨rfl, { hstate with pool := nofun }⟩

/-- An inventory in which a third item type has the path of the second one. -/
def stocked : Sparse.Memory :=
  let memory := (Sparse.Memory.mk 0x140000000 []).inventory
  let third := memory.heap + 0x311000
  let consumed := memory.heap + 0x210000
  memory.putDescriptor third 3
    |>.putVector 0xd0 memory.payload (Sparse.scalarRecords Sparse.stackCodec memory.payload
      [(memory.firstType, 3), (memory.secondType, 5), (memory.firstType, 7), (third, 4)])
    |>.putVector 0xb0 consumed (Sparse.toLeBytes 8 third ++ Sparse.toLeBytes 8 2)

def stockedLogin : Roots.ProfileDataIdentity where
  account := {
    accountId := ⟨"0123456789abcdef01234567", by decide +kernel⟩
    managerControl := ⟨0x150000000, by decide⟩
    manager := ⟨0x150010000, by decide⟩
    profileControl := ⟨0x150030000, by decide⟩
    profile := ⟨0x150040000, by decide⟩ }
  control := ⟨0x150060000, by decide⟩
  object := ⟨0x150100000, by decide⟩

def alloyPlate : ItemKey := ⟨"/Lotus/Types/Items/MiscItems/AlloyPlate", by decide +kernel⟩

def orokinCell : ItemKey := ⟨"/Lotus/Types/Items/MiscItems/OrokinCell", by decide +kernel⟩

theorem inventory_conserved_stocked : ∃ snapshot,
    (runFrom (readInventory stocked.reader stockedLogin) default).1 = .ok snapshot ∧
    (snapshot.quantity .miscItems alloyPlate = 3 + 7 ∧ snapshot.quantity .miscItems orokinCell = 5 + 4 ∧
      snapshot.quantity .consumables orokinCell = 2) ∧
    ∀ facts ∈ families, ∃ address payload records entry,
      FamilyLaw (fun t => (itemPath stocked.reader itemTypes t).mapError .itemType) stocked.reader
        stockedLogin snapshot facts address payload records entry := by
  have hcounts : ((runFrom (readInventory stocked.reader stockedLogin) default).1.toOption.map
      fun snapshot => (snapshot.quantity .miscItems alloyPlate, snapshot.quantity .miscItems orokinCell,
        snapshot.quantity .consumables orokinCell)) = some (10, 9, 2) := by decide +kernel
  obtain ⟨snapshot, hsnapshot, hcounts⟩ := Option.map_eq_some_iff.mp hcounts
  have hok := toOption_eq_some.mp hsnapshot
  simp only [Prod.mk.injEq] at hcounts
  exact ⟨snapshot, hok, hcounts, (inventory_conserved (resolveItemPath_answers stocked.reader)
    (startBatch_answers stocked.reader) stocked.reader stockedLogin
    (Resolver.Sound.empty stocked.reader itemTypes)).1 snapshot hok⟩

end Inventory
end Warframe
end WfObserver
