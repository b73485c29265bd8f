import WfObserver.Lib.OrdMap

/-!
# Tallies

A map of counts, to which amounts are added by key (`OrdMap.add`). A tally of a list of amounts
(`OrdMap.tally`) counts for each key the sum of its amounts, in whatever order they came.
-/

namespace OrdMap

variable {κ : Type*} [LinearOrder κ]

/-- The count of a key, zero without an entry. -/
def count (m : OrdMap κ Nat) (k : κ) : Nat := (m.get? k).getD 0

def add (k : κ) (n : Nat) (m : OrdMap κ Nat) : OrdMap κ Nat := m.insert k (m.count k + n)

def tally (l : List (κ × Nat)) : OrdMap κ Nat := l.foldl (fun m e => m.add e.1 e.2) ∅

/-- The amounts of a key in a list. -/
def amount (l : List (κ × Nat)) (k : κ) : Nat := ((l.filter (·.1 = k)).map (·.2)).sum

@[simp] theorem amount_nil (k : κ) : amount [] k = 0 := rfl

@[simp] theorem amount_cons (e : κ × Nat) (l : List (κ × Nat)) (k : κ) :
    amount (e :: l) k = (if e.1 = k then e.2 else 0) + amount l k := by
  by_cases h : e.1 = k <;> simp [amount, h]

theorem amount_perm {l l' : List (κ × Nat)} (h : l.Perm l') (k : κ) : amount l k = amount l' k :=
  ((h.filter _).map _).sum_eq

theorem count_add (k : κ) (n : Nat) (m : OrdMap κ Nat) (a : κ) :
    (m.add k n).count a = m.count a + if k = a then n else 0 := by
  rw [add, count, get?_insert]
  by_cases h : a = k
  · simp [h, count]
  · simp [h, count, Ne.symm h]

theorem count_foldl_add (l : List (κ × Nat)) (m : OrdMap κ Nat) (k : κ) :
    (l.foldl (fun m e => m.add e.1 e.2) m).count k = m.count k + amount l k := by
  induction l generalizing m with
  | nil => rfl
  | cons e l ih => rw [List.foldl_cons, ih, count_add, amount_cons, Nat.add_assoc]

/-- A tally counts the amounts of each key. -/
theorem count_tally (l : List (κ × Nat)) (k : κ) : (tally l).count k = amount l k := by
  rw [tally, count_foldl_add]
  exact Nat.zero_add _

/-- Counts that are never zero say which keys are there. -/
def Positive (m : OrdMap κ Nat) : Prop := ∀ k n, m.get? k = some n → 0 < n

theorem Positive.empty : (∅ : OrdMap κ Nat).Positive := fun _ _ h => nomatch h

theorem Positive.add {m : OrdMap κ Nat} (h : m.Positive) {n : Nat} (hn : 0 < n) (k : κ) :
    (m.add k n).Positive := by
  intro a c hget
  rw [OrdMap.add, get?_insert] at hget
  split at hget
  · cases hget
    exact Nat.add_pos_right _ hn
  · exact h a c hget

theorem Positive.tally {l : List (κ × Nat)} (h : ∀ e ∈ l, 0 < e.2) : (tally l).Positive := by
  suffices hgo : ∀ m : OrdMap κ Nat, m.Positive → (l.foldl (fun m e => m.add e.1 e.2) m).Positive from
    hgo ∅ Positive.empty
  induction l with
  | nil => exact fun m hm => hm
  | cons e l ih =>
    exact fun m hm => ih (fun x hx => h x (List.mem_cons_of_mem _ hx)) _
      (hm.add (h e (List.mem_cons_self ..)) e.1)

/-- Positive counts are told apart by what they count. -/
theorem Positive.ext {m n : OrdMap κ Nat} (hm : m.Positive) (hn : n.Positive)
    (h : ∀ k, m.count k = n.count k) : m = n := by
  refine ext_get? fun k => ?_
  have := h k
  unfold count at this
  cases hmk : m.get? k with
  | none =>
    cases hnk : n.get? k with
    | none => rfl
    | some b =>
      have := hn k b hnk
      simp_all
  | some a =>
    have := hm k a hmk
    cases hnk : n.get? k with
    | none => simp_all
    | some b => simp_all

@[simp] theorem sum_empty (F : κ → Nat → Nat) : (∅ : OrdMap κ Nat).sum F = 0 := rfl

/-- A sum that is additive in the counts grows by what an addition adds to it. -/
theorem sum_add {F : κ → Nat → Nat} (hF : ∀ k a b, F k (a + b) = F k a + F k b) (k : κ) (n : Nat)
    (m : OrdMap κ Nat) : (m.add k n).sum F = m.sum F + F k n := by
  have hzero : F k 0 = 0 := by
    have := hF k 0 0
    rw [Nat.add_zero] at this
    omega
  rw [add, sum_insert, hF]
  cases h : m.get? k with
  | none =>
    rw [count, h, Option.getD_none, hzero, erase_absent h]
    omega
  | some c =>
    rw [sum_eq_erase F h, count, h, Option.getD_some]
    omega

theorem sum_foldl_add {F : κ → Nat → Nat} (hF : ∀ k a b, F k (a + b) = F k a + F k b)
    (l : List (κ × Nat)) (m : OrdMap κ Nat) :
    (l.foldl (fun m e => m.add e.1 e.2) m).sum F = m.sum F + (l.map fun e => F e.1 e.2).sum := by
  induction l generalizing m with
  | nil => rfl
  | cons e l ih => rw [List.foldl_cons, ih, sum_add hF, List.map_cons, List.sum_cons, Nat.add_assoc]

/-- A tally sums to what its amounts sum to. -/
theorem sum_tally {F : κ → Nat → Nat} (hF : ∀ k a b, F k (a + b) = F k a + F k b)
    (l : List (κ × Nat)) : (tally l).sum F = (l.map fun e => F e.1 e.2).sum := by
  rw [tally, sum_foldl_add hF]
  exact Nat.zero_add _

theorem count_le_sum (m : OrdMap κ Nat) (k : κ) : m.count k ≤ m.sum fun _ v => v := by
  cases h : m.get? k with
  | none => simp [count, h]
  | some c =>
    rw [sum_eq_erase (fun _ v => v) h, count, h]
    exact Nat.le_add_right _ _

end OrdMap
