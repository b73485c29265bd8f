import Mathlib.Data.List.Sort
import WfObserver.Lib.Fallible
import WfObserver.Warframe.Model.Identifiers

/-!
# The inventory of an account (`model/src/inventory`)

An `InventorySnapshot` lists every family in the schema's order, and the items of a family by increasing
keys and with positive quantities. `InventorySnapshot.new` checks this of what it is given.
-/

namespace WfObserver
namespace Warframe

inductive InventoryFamily where
  | longGuns | pistols | warframes | melee | weaponSkins | rawUpgrades | consumables | miscItems
  | sentinels | sentinelWeapons | kubrowPets | spaceSuits | spaceGuns | spaceMelee | scoops
  | fusionBundles | shipDecorations | emailItems | foundToday | levelKeys | recipes | operatorAmps
  | specialItems | moaPets | hoverboards | crewShips | crewShipWeapons | crewShipSalvagedWeapons
  | drifterGuns | drifterMelee | gadgets | horses | crewShipRawSalvage | dataKnives | mechSuits
  | crewShipHarnesses | motorcycles | operatorSuits | antiques | bonusMiscItems
  deriving DecidableEq, Repr

/-- Every family in schema order. -/
def InventoryFamily.all : List InventoryFamily :=
  [.longGuns, .pistols, .warframes, .melee, .weaponSkins, .rawUpgrades, .consumables, .miscItems,
    .sentinels, .sentinelWeapons, .kubrowPets, .spaceSuits, .spaceGuns, .spaceMelee, .scoops,
    .fusionBundles, .shipDecorations, .emailItems, .foundToday, .levelKeys, .recipes, .operatorAmps,
    .specialItems, .moaPets, .hoverboards, .crewShips, .crewShipWeapons, .crewShipSalvagedWeapons,
    .drifterGuns, .drifterMelee, .gadgets, .horses, .crewShipRawSalvage, .dataKnives, .mechSuits,
    .crewShipHarnesses, .motorcycles, .operatorSuits, .antiques, .bonusMiscItems]

structure InventoryItemCount where
  itemKey : ItemKey
  quantity : Nat
  deriving DecidableEq

structure InventoryFamilySnapshot where
  family : InventoryFamily
  items : List InventoryItemCount
  deriving DecidableEq

inductive InvalidInventory where
  | families
  | itemOrder
  | zeroQuantity
  deriving DecidableEq, Repr

/-- Keys that increase from each item to the next, and no empty counts. -/
def InventoryFamilySnapshot.Ordered (family : InventoryFamilySnapshot) : Prop :=
  family.items.Pairwise (fun a b => a.itemKey < b.itemKey) ∧ ∀ item ∈ family.items, item.quantity ≠ 0

/-- A complete inventory. -/
structure InventorySnapshot where
  accountId : AccountId
  families : List InventoryFamilySnapshot
  complete : families.map (·.family) = InventoryFamily.all
  ordered : ∀ family ∈ families, family.Ordered

/-- `windows(2).any`: some item is not before the next. -/
def outOfOrder (items : List InventoryItemCount) : Bool :=
  (items.zip items.tail).any fun pair => decide (pair.2.itemKey ≤ pair.1.itemKey)

theorem outOfOrder_eq_false {items : List InventoryItemCount} :
    outOfOrder items = false ↔ items.Pairwise fun a b => a.itemKey < b.itemKey := by
  rw [← List.isChain_iff_pairwise]
  induction items with
  | nil => simp [outOfOrder]
  | cons item items ih =>
    cases items with
    | nil => simp [outOfOrder]
    | cons next items =>
      rw [List.isChain_cons_cons, ← ih]
      simp [outOfOrder]

/-- The checks of one family. -/
def checkFamily (family : InventoryFamilySnapshot) : Except InvalidInventory Unit :=
  if outOfOrder family.items then .error .itemOrder
  else if family.items.any fun item => item.quantity == 0 then .error .zeroQuantity
  else .ok ()

theorem checkFamily_eq_ok {family : InventoryFamilySnapshot} :
    checkFamily family = .ok () ↔ family.Ordered := by
  simp only [checkFamily, Fallible.ite_eq_ok, Bool.not_eq_true, outOfOrder_eq_false, and_true,
    InventoryFamilySnapshot.Ordered, List.any_eq_false, beq_iff_eq, ne_eq]

theorem forM_checkFamily_eq_ok {families : List InventoryFamilySnapshot} :
    families.forM checkFamily = .ok () ↔ ∀ family ∈ families, family.Ordered := by
  induction families with
  | nil => simp [pure, Except.pure]
  | cons family families ih =>
    show (checkFamily family >>= fun _ => families.forM checkFamily) = .ok () ↔ _
    rw [Fallible.bind_eq_ok, List.forall_mem_cons, ← ih, ← checkFamily_eq_ok]
    exact ⟨fun ⟨_, h⟩ => h, fun h => ⟨(), h⟩⟩

namespace InventorySnapshot

def new (accountId : AccountId) (families : List InventoryFamilySnapshot) :
    Except InvalidInventory InventorySnapshot :=
  if hcomplete : families.map (·.family) = InventoryFamily.all then
    match hchecked : families.forM checkFamily with
    | .error e => .error e
    | .ok () => .ok ⟨accountId, families, hcomplete, forM_checkFamily_eq_ok.mp hchecked⟩
  else .error .families

/-- `new` accepts exactly the complete and ordered inventories. -/
theorem new_eq {accountId : AccountId} {families : List InventoryFamilySnapshot}
    (hcomplete : families.map (·.family) = InventoryFamily.all)
    (hordered : ∀ family ∈ families, family.Ordered) :
    new accountId families = .ok ⟨accountId, families, hcomplete, hordered⟩ := by
  rw [new, dif_pos hcomplete]
  split
  · rename_i e herror
    rw [forM_checkFamily_eq_ok.mpr hordered] at herror
    cases herror
  · rfl

def family (snapshot : InventorySnapshot) (family : InventoryFamily) :
    Option InventoryFamilySnapshot :=
  snapshot.families.find? fun entry => entry.family = family

/-- Absent item keys represent zero owned items. -/
def quantity (snapshot : InventorySnapshot) (family : InventoryFamily) (itemKey : ItemKey) : Nat :=
  match snapshot.family family with
  | none => 0
  | some family =>
    ((family.items.find? fun item => item.itemKey = itemKey).map (·.quantity)).getD 0

theorem nodup_all : InventoryFamily.all.Nodup := by decide

/-- The key of a list by keys finds its entry. -/
theorem find?_of_mem {α κ : Type} [DecidableEq κ] {f : α → κ} {l : List α} (hnodup : (l.map f).Nodup)
    {a : α} (h : a ∈ l) : l.find? (fun b => f b = f a) = some a := by
  induction l with
  | nil => cases h
  | cons b l ih =>
    rw [List.map_cons, List.nodup_cons] at hnodup
    rcases List.mem_cons.mp h with rfl | h
    · simp
    · have hne : f b ≠ f a := fun heq => hnodup.1 (heq ▸ List.mem_map_of_mem h)
      rw [List.find?_cons_of_neg (by simpa using hne)]
      exact ih hnodup.2 h

theorem family_of_mem {snapshot : InventorySnapshot} {entry : InventoryFamilySnapshot}
    (h : entry ∈ snapshot.families) : snapshot.family entry.family = some entry :=
  find?_of_mem (snapshot.complete ▸ nodup_all) h

/-- A listed item counts what it says. -/
theorem quantity_of_mem {snapshot : InventorySnapshot} {entry : InventoryFamilySnapshot}
    (h : entry ∈ snapshot.families) {item : InventoryItemCount} (hitem : item ∈ entry.items) :
    snapshot.quantity entry.family item.itemKey = item.quantity := by
  have hkeys : (entry.items.map (·.itemKey)).Nodup :=
    (List.pairwise_map.mpr (snapshot.ordered entry h).1).imp fun hlt => ne_of_lt hlt
  rw [quantity, family_of_mem h]
  simp only [find?_of_mem hkeys hitem, Option.map_some, Option.getD_some]

/-- A key that is not listed counts nothing. -/
theorem quantity_absent {snapshot : InventorySnapshot} {entry : InventoryFamilySnapshot}
    (h : entry ∈ snapshot.families) {key : ItemKey} (habsent : ∀ item ∈ entry.items, item.itemKey ≠ key) :
    snapshot.quantity entry.family key = 0 := by
  rw [quantity, family_of_mem h]
  have hnone : entry.items.find? (fun item => item.itemKey = key) = none :=
    List.find?_eq_none.mpr fun item hitem => by simpa using habsent item hitem
  simp only [hnone, Option.map_none, Option.getD_none]

end InventorySnapshot

end Warframe
end WfObserver
