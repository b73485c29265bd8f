import Mathlib.Data.List.Sort
import Mathlib.Data.Prod.Lex
import WfObserver.ProviderSdk.Memory
import WfObserver.Warframe.Model.Identifiers

/-!
# Relic rewards of the Warframe provider (`topics/relic_rewards/mod.rs`)

The picker shows the local player's reward first and then the other players' in the order of their
accounts. `display_order_law` says that this order depends only on which player has which reward.
-/

namespace WfObserver
namespace Warframe

open ProviderSdk (ReadError)

structure RelicRewardChoice where
  itemKey : ItemKey
  deriving DecidableEq

/-- What the sort compares: the local account comes first. -/
def displayKey (localId : AccountId) (p : AccountId × RelicRewardChoice) : Bool ×ₗ AccountId :=
  toLex (decide (p.1 ≠ localId), p.1)

def Displayed (localId : AccountId) (p q : AccountId × RelicRewardChoice) : Prop :=
  displayKey localId p ≤ displayKey localId q

instance (localId : AccountId) : DecidableRel (Displayed localId) :=
  fun p q => inferInstanceAs (Decidable (displayKey localId p ≤ displayKey localId q))

/-- An account is in the list before itself. -/
def repeated (accounts : List AccountId) : Bool :=
  accounts.zipIdx.any fun p => (accounts.take p.2).contains p.1

/-- `display_order`. Every sort gives the same list, since no two keys are equal (`arranged_unique`). -/
def displayOrder (accounts : List AccountId) (choices : List RelicRewardChoice) (localId : AccountId) :
    Except ReadError (List (AccountId × RelicRewardChoice)) :=
  if accounts.length ≠ choices.length
      || (!choices.isEmpty && (accounts.filter (· == localId)).length != 1)
      || repeated accounts then .error (.invalid "reward display order")
  else .ok ((accounts.zip choices).insertionSort (Displayed localId))

/-! ## The order -/

/-- The local player's reward is first, and the others follow in the order of their accounts. -/
def Arranged (localId : AccountId) (ordered : List (AccountId × RelicRewardChoice)) : Prop :=
  ordered = [] ∨ ∃ choice rest, ordered = (localId, choice) :: rest ∧
    (∀ p ∈ rest, p.1 ≠ localId) ∧ rest.Pairwise fun p q => p.1 < q.1

/-- Two lists of one reward for each player, with the local player once among them. -/
structure Accepted (localId : AccountId) (accounts : List AccountId) (choices : List RelicRewardChoice) :
    Prop where
  length : accounts.length = choices.length
  nodup : accounts.Nodup
  present : choices ≠ [] → accounts.count localId = 1

theorem repeated_eq_false {accounts : List AccountId} : repeated accounts = false ↔ accounts.Nodup := by
  unfold repeated
  rw [List.any_eq_false]
  constructor
  · intro h
    refine List.nodup_iff_getElem?_ne_getElem?.mpr fun i j hij hj heq => ?_
    have hi : i < accounts.length := hij.trans hj
    refine h (accounts[j], j) ?_ ?_
    · rw [List.mem_zipIdx_iff_getElem?]
      exact List.getElem?_eq_getElem hj
    · rw [List.contains_iff_mem, List.mem_take_iff_getElem]
      rw [List.getElem?_eq_getElem hi, List.getElem?_eq_getElem hj] at heq
      exact ⟨i, by omega, Option.some.inj heq⟩
  · rintro h ⟨id, j⟩ hmem hcontains
    rw [List.mem_zipIdx_iff_getElem?] at hmem
    rw [List.contains_iff_mem, List.mem_take_iff_getElem] at hcontains
    obtain ⟨i, hi, hget⟩ := hcontains
    have hj := (List.getElem?_eq_some_iff.mp hmem).1
    refine List.nodup_iff_getElem?_ne_getElem?.mp h i j (by omega) hj ?_
    rw [List.getElem?_eq_getElem (by omega), hget]
    exact hmem.symm

variable {localId : AccountId} {accounts accounts' : List AccountId}
  {choices choices' : List RelicRewardChoice} {ordered ordered' : List (AccountId × RelicRewardChoice)}

/-- The checks of `display_order` reject exactly the other lists. -/
theorem displayOrder_cases (localId : AccountId) (accounts : List AccountId)
    (choices : List RelicRewardChoice) :
    (Accepted localId accounts choices ∧ displayOrder accounts choices localId =
      .ok ((accounts.zip choices).insertionSort (Displayed localId))) ∨
    (¬ Accepted localId accounts choices ∧
      displayOrder accounts choices localId = .error (.invalid "reward display order")) := by
  have hpresent : (!choices.isEmpty && (accounts.filter (· == localId)).length != 1) = false ↔
      (choices ≠ [] → accounts.count localId = 1) := by
    rw [← List.count_eq_length_filter, Bool.and_eq_false_iff, Bool.not_eq_false', List.isEmpty_iff,
      bne_eq_false_iff_eq]
    tauto
  unfold displayOrder
  split
  · rename_i h
    refine .inr ⟨fun ha => ?_, rfl⟩
    simp only [Bool.or_eq_true, decide_eq_true_eq] at h
    rcases h with (h | h) | h
    · exact h ha.length
    · rw [hpresent.mpr ha.present] at h
      cases h
    · rw [repeated_eq_false.mpr ha.nodup] at h
      cases h
  · rename_i h
    simp only [Bool.or_eq_true, decide_eq_true_eq, not_or, Bool.not_eq_true, not_not] at h
    exact .inl ⟨⟨h.1.1, repeated_eq_false.mp h.2, hpresent.mp h.1.2⟩, rfl⟩

theorem displayOrder_eq_ok : displayOrder accounts choices localId = .ok ordered ↔
    Accepted localId accounts choices ∧
      ordered = (accounts.zip choices).insertionSort (Displayed localId) := by
  rcases displayOrder_cases localId accounts choices with ⟨ha, he⟩ | ⟨hn, he⟩ <;> rw [he]
  · simp [ha, eq_comm]
  · simp [hn]

/-- Only one arrangement of the rewards is sorted, so every sort finds the same. -/
theorem arranged_unique (hnodup : (ordered.map Prod.fst).Nodup) (hperm : ordered.Perm ordered')
    (hs : ordered.Pairwise (Displayed localId)) (hs' : ordered'.Pairwise (Displayed localId)) :
    ordered = ordered' := by
  refine hperm.eq_of_pairwise (fun p q hp hq hpq hqp => ?_) hs hs'
  have hkey : displayKey localId p = displayKey localId q := le_antisymm hpq hqp
  have haccount : p.1 = q.1 := congrArg (fun k => (ofLex k).2) hkey
  exact List.inj_on_of_nodup_map hnodup hp (hperm.mem_iff.mpr hq) haccount

theorem displayed_iff {p q : AccountId × RelicRewardChoice} : Displayed localId p q ↔
    (p.1 = localId ∧ q.1 ≠ localId) ∨ ((p.1 = localId ↔ q.1 = localId) ∧ p.1 ≤ q.1) := by
  unfold Displayed displayKey
  rw [Prod.Lex.toLex_le_toLex]
  by_cases hp : p.1 = localId <;> by_cases hq : q.1 = localId <;> simp [hp, hq]

/-- A sorted list of different players begins with the local one. -/
theorem arranged (hnodup : (ordered.map Prod.fst).Nodup) (hs : ordered.Pairwise (Displayed localId))
    (hmem : ordered ≠ [] → localId ∈ ordered.map Prod.fst) : Arranged localId ordered := by
  cases ordered with
  | nil => exact .inl rfl
  | cons p rest =>
    obtain ⟨hfirst, hrest⟩ := List.pairwise_cons.mp hs
    rw [List.map_cons, List.nodup_cons] at hnodup
    have hlocal : p.1 = localId := by
      by_contra hne
      obtain ⟨q, hq, hq'⟩ := List.mem_map.mp (hmem (List.cons_ne_nil _ _))
      rcases List.mem_cons.mp hq with rfl | hq
      · exact hne hq'
      · rcases displayed_iff.mp (hfirst q hq) with ⟨h, -⟩ | ⟨h, -⟩
        · exact hne h
        · exact hne (h.mpr hq')
    have hother : ∀ q ∈ rest, q.1 ≠ localId := by
      intro q hq heq
      exact hnodup.1 (List.mem_map.mpr ⟨q, hq, heq.trans hlocal.symm⟩)
    refine .inr ⟨p.2, rest, by rw [← hlocal], hother, ?_⟩
    have hne : rest.Pairwise fun p q => p.1 ≠ q.1 := List.pairwise_map.mp hnodup.2
    refine (hrest.and hne).imp_of_mem fun {q r} hq hr h => ?_
    rcases displayed_iff.mp h.1 with ⟨h', -⟩ | ⟨-, hle⟩
    · exact absurd h' (hother q hq)
    · exact lt_of_le_of_ne hle h.2

instance (localId : AccountId) : Std.Total (Displayed localId) :=
  ⟨fun p q => le_total (displayKey localId p) (displayKey localId q)⟩

instance (localId : AccountId) : IsTrans _ (Displayed localId) := ⟨fun _ _ _ => le_trans⟩

/-- The accounts of the pairs are the first list. -/
theorem map_zip (h : accounts.length = choices.length) :
    (accounts.zip choices).map Prod.fst = accounts := List.map_fst_zip (le_of_eq h)

/-- Rearranged in the same way, two lists are accepted as before. -/
theorem Accepted.of_perm (h : Accepted localId accounts choices)
    (hlength : accounts'.length = choices'.length)
    (hperm : (accounts'.zip choices').Perm (accounts.zip choices)) :
    Accepted localId accounts' choices' := by
  have haccounts : accounts'.Perm accounts := by
    have := hperm.map Prod.fst
    rwa [map_zip hlength, map_zip h.length] at this
  refine ⟨hlength, haccounts.nodup_iff.mpr h.nodup, fun hne => ?_⟩
  rw [haccounts.count_eq]
  refine h.present fun hempty => hne (List.eq_nil_of_length_eq_zero ?_)
  rw [← hlength, haccounts.length_eq, h.length, hempty]
  rfl

/-- What `display_order` makes of two lists. -/
structure OrderLaw (localId : AccountId) (accounts : List AccountId) (choices : List RelicRewardChoice) :
    Prop where
  rejected : (∃ e, displayOrder accounts choices localId = .error e) ↔
    accounts.length ≠ choices.length ∨ ¬ accounts.Nodup ∨
      (choices ≠ [] ∧ accounts.count localId ≠ 1)
  paired : ∀ ordered, displayOrder accounts choices localId = .ok ordered →
    ordered.Perm (accounts.zip choices) ∧ Arranged localId ordered
  canonical : accounts.length = choices.length → ∀ accounts' choices',
    accounts'.length = choices'.length → (accounts'.zip choices').Perm (accounts.zip choices) →
      displayOrder accounts' choices' localId = displayOrder accounts choices localId
  /-- Any sort of the pairs gives the same list. -/
  unique : ∀ ordered, displayOrder accounts choices localId = .ok ordered → ∀ other,
    other.Perm (accounts.zip choices) → other.Pairwise (Displayed localId) → other = ordered

theorem display_order_law (localId : AccountId) (accounts : List AccountId)
    (choices : List RelicRewardChoice) : OrderLaw localId accounts choices := by
  have hsorted : ∀ l : List (AccountId × RelicRewardChoice),
      (l.insertionSort (Displayed localId)).Pairwise (Displayed localId) :=
    fun l => List.pairwise_insertionSort _ l
  have hunique : ∀ ordered, displayOrder accounts choices localId = .ok ordered → ∀ other,
      other.Perm (accounts.zip choices) → other.Pairwise (Displayed localId) → other = ordered := by
    intro ordered h other hperm hs
    obtain ⟨ha, rfl⟩ := displayOrder_eq_ok.mp h
    refine arranged_unique ?_ (hperm.trans (List.perm_insertionSort _ _).symm) hs (hsorted _)
    rw [(hperm.map Prod.fst).nodup_iff, map_zip ha.length]
    exact ha.nodup
  refine ⟨?_, fun ordered h => ?_, fun hlength accounts' choices' hlength' hperm => ?_, hunique⟩
  · have hiff : Accepted localId accounts choices ↔ accounts.length = choices.length ∧
        accounts.Nodup ∧ (choices ≠ [] → accounts.count localId = 1) :=
      ⟨fun h => ⟨h.length, h.nodup, h.present⟩, fun h => ⟨h.1, h.2.1, h.2.2⟩⟩
    rcases displayOrder_cases localId accounts choices with ⟨ha, he⟩ | ⟨hn, he⟩ <;> rw [he]
    · obtain ⟨hlength, hnodup, hpresent⟩ := hiff.mp ha
      simp only [reduceCtorEq, exists_false, false_iff]
      tauto
    · rw [hiff] at hn
      simp only [Except.error.injEq, exists_eq', true_iff]
      tauto
  · obtain ⟨ha, rfl⟩ := displayOrder_eq_ok.mp h
    have hperm := List.perm_insertionSort (Displayed localId) (accounts.zip choices)
    have haccounts := hperm.map Prod.fst
    rw [map_zip ha.length] at haccounts
    refine ⟨hperm, arranged (haccounts.nodup_iff.mpr ha.nodup) (hsorted _) fun hne => ?_⟩
    rw [haccounts.mem_iff]
    refine List.count_pos_iff.mp ?_
    rw [ha.present]
    · exact Nat.one_pos
    · rintro rfl
      rw [List.zip_nil_right] at hne
      exact hne rfl
  · rcases displayOrder_cases localId accounts choices with ⟨ha, he⟩ | ⟨hn, he⟩
    · have ha' := ha.of_perm hlength' hperm
      have h' := displayOrder_eq_ok.mpr ⟨ha', rfl⟩
      rw [h', he]
      refine congrArg _ (hunique _ he _ ((List.perm_insertionSort _ _).trans hperm) (hsorted _))
    · have hn' : ¬ Accepted localId accounts' choices' := fun ha' => hn (ha'.of_perm hlength hperm.symm)
      rcases displayOrder_cases localId accounts' choices' with ⟨ha', -⟩ | ⟨-, he'⟩
      · exact absurd ha' hn'
      · rw [he, he']

end Warframe
end WfObserver
