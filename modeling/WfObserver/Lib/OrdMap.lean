import Mathlib.Algebra.GroupWithZero.Nat
import Mathlib.Algebra.Order.BigOperators.Group.Finset
import Mathlib.Algebra.Order.BigOperators.Group.List
import Mathlib.Algebra.Order.Group.Nat
import Mathlib.Data.List.Sort
import Mathlib.Data.Prod.Lex

/-!
# Ordered finite maps

`OrdMap κ ν` is a finite map whose entries are kept in strictly increasing key order, the order in
which an ordered map of a programming language iterates. Two maps with the same lookups are equal
(`OrdMap.ext_get?`), so the lemmas below describe every operation by its lookups.

`OrdMap.visit` is a loop over the entries that replaces each value, collects outputs in key order
and may stop early. `visit_get?` says what the loop leaves at a key, `visit_out` what it collects.
-/

/-- A finite map with its entries in strictly increasing key order. -/
structure OrdMap (κ ν : Type*) [LinearOrder κ] where
  entries : List (κ × ν)
  sorted : entries.Pairwise fun a b => a.1 < b.1

namespace OrdMap

variable {κ ν μ β : Type*} [LinearOrder κ]

instance [DecidableEq ν] : DecidableEq (OrdMap κ ν) := fun m n =>
  decidable_of_iff (m.entries = n.entries) (by cases m; cases n; simp)

def empty : OrdMap κ ν := ⟨[], .nil⟩

instance : EmptyCollection (OrdMap κ ν) := ⟨empty⟩
instance : Inhabited (OrdMap κ ν) := ⟨empty⟩

def get? (m : OrdMap κ ν) (k : κ) : Option ν := m.entries.lookup k

def contains (m : OrdMap κ ν) (k : κ) : Bool := (m.get? k).isSome

def keys (m : OrdMap κ ν) : List κ := m.entries.map (·.1)

def values (m : OrdMap κ ν) : List ν := m.entries.map (·.2)

def size (m : OrdMap κ ν) : Nat := m.entries.length

def any (m : OrdMap κ ν) (p : κ → ν → Bool) : Bool := m.entries.any fun e => p e.1 e.2

/-! ## Lookups -/

theorem get?_eq_some {m : OrdMap κ ν} {k : κ} {v : ν} : m.get? k = some v ↔ (k, v) ∈ m.entries := by
  obtain ⟨l, hl⟩ := m
  simp only [get?]
  induction l with
  | nil => simp
  | cons e l ih =>
    obtain ⟨a, b⟩ := e
    obtain ⟨hlt, hl⟩ := List.pairwise_cons.mp hl
    rw [List.lookup_cons, List.mem_cons, Prod.mk.injEq]
    by_cases hk : k = a
    · subst hk
      have hn : (k, v) ∉ l := fun h => lt_irrefl k (hlt _ h)
      simp [hn, eq_comm]
    · have : (k == a) = false := by simpa using hk
      simp [this, hk, ih hl]

theorem get?_eq_none {m : OrdMap κ ν} {k : κ} : m.get? k = none ↔ ∀ v, (k, v) ∉ m.entries := by
  rw [Option.eq_none_iff_forall_ne_some]
  simp only [ne_eq, get?_eq_some]

theorem ext_get? {m n : OrdMap κ ν} (h : ∀ k, m.get? k = n.get? k) : m = n := by
  obtain ⟨l, hl⟩ := m
  obtain ⟨l', hl'⟩ := n
  have hm : ∀ e, e ∈ l ↔ e ∈ l' := fun e => by
    rw [← get?_eq_some (m := ⟨l, hl⟩), ← get?_eq_some (m := ⟨l', hl'⟩), h]
  have : Std.Irrefl fun a b : κ × ν => a.1 < b.1 := ⟨fun a => lt_irrefl a.1⟩
  have : Std.Antisymm fun a b : κ × ν => a.1 < b.1 := ⟨fun a b h h' => absurd h (lt_asymm h')⟩
  congr 1
  exact List.Pairwise.eq_of_mem_iff hl hl' (by simpa using hm)

theorem contains_iff {m : OrdMap κ ν} {k : κ} : m.contains k = true ↔ ∃ v, m.get? k = some v :=
  Option.isSome_iff_exists

@[simp] theorem get?_empty (k : κ) : (∅ : OrdMap κ ν).get? k = none := rfl

theorem any_iff {m : OrdMap κ ν} {p : κ → ν → Bool} :
    m.any p = true ↔ ∃ k v, m.get? k = some v ∧ p k v = true := by
  simp [any, get?_eq_some]

theorem mem_keys {m : OrdMap κ ν} {k : κ} : k ∈ m.keys ↔ ∃ v, m.get? k = some v := by
  simp [keys, get?_eq_some]

theorem mem_values {m : OrdMap κ ν} {v : ν} : v ∈ m.values ↔ ∃ k, m.get? k = some v := by
  simp [values, get?_eq_some]

theorem keys_nodup (m : OrdMap κ ν) : m.keys.Nodup := by
  rw [keys, List.Nodup, List.pairwise_map]
  exact m.sorted.imp fun h => ne_of_lt h

/-! ## Changing every value, dropping entries -/

/-- Replaces every value; the keys stay. -/
def map (f : κ → ν → μ) (m : OrdMap κ ν) : OrdMap κ μ where
  entries := m.entries.map fun e => (e.1, f e.1 e.2)
  sorted := by rw [List.pairwise_map]; exact m.sorted

@[simp] theorem get?_map (f : κ → ν → μ) (m : OrdMap κ ν) (k : κ) :
    (m.map f).get? k = (m.get? k).map (f k) := by
  ext w
  rw [get?_eq_some, Option.map_eq_some_iff]
  simp only [map, List.mem_map, Prod.mk.injEq, Prod.exists, get?_eq_some]
  constructor
  · rintro ⟨a, b, hab, rfl, rfl⟩; exact ⟨b, hab, rfl⟩
  · rintro ⟨b, hb, rfl⟩; exact ⟨k, b, hb, rfl, rfl⟩

@[simp] theorem contains_map (f : κ → ν → μ) (m : OrdMap κ ν) (k : κ) :
    (m.map f).contains k = m.contains k := by simp [contains]

theorem values_map (f : ν → μ) (m : OrdMap κ ν) : (m.map fun _ v => f v).values = m.values.map f := by
  simp [values, map]

@[simp] theorem map_empty (f : κ → ν → μ) : (∅ : OrdMap κ ν).map f = ∅ := rfl

theorem map_id {f : κ → ν → ν} {m : OrdMap κ ν} (h : ∀ k v, m.get? k = some v → f k v = v) :
    m.map f = m := by
  refine ext_get? fun k => ?_
  rw [get?_map]
  cases hk : m.get? k with
  | none => rfl
  | some v => rw [Option.map_some, h k v hk]

/-- Keeps the entries that satisfy `p`. -/
def filter (p : κ → ν → Bool) (m : OrdMap κ ν) : OrdMap κ ν where
  entries := m.entries.filter fun e => p e.1 e.2
  sorted := m.sorted.sublist List.filter_sublist

theorem get?_filter (p : κ → ν → Bool) (m : OrdMap κ ν) (k : κ) :
    (m.filter p).get? k = (m.get? k).filter (p k) := by
  ext v
  rw [get?_eq_some, Option.filter_eq_some_iff, get?_eq_some]
  simp [filter]

theorem get?_filter_some {p : κ → ν → Bool} {m : OrdMap κ ν} {k : κ} {v : ν} :
    (m.filter p).get? k = some v ↔ m.get? k = some v ∧ p k v = true := by
  rw [get?_filter, Option.filter_eq_some_iff]

theorem size_filter_le (p : κ → ν → Bool) (m : OrdMap κ ν) : (m.filter p).size ≤ m.size :=
  List.length_filter_le _ _

/-- Dropping at least one entry makes the map smaller. -/
theorem size_filter_lt {p : κ → ν → Bool} {m : OrdMap κ ν} {k : κ} {v : ν} (h : m.get? k = some v)
    (hp : p k v = false) : (m.filter p).size < m.size :=
  List.length_filter_lt_length_iff_exists.mpr ⟨(k, v), get?_eq_some.mp h, by simp [hp]⟩

def erase (m : OrdMap κ ν) (k : κ) : OrdMap κ ν := m.filter fun a _ => decide (a ≠ k)

theorem get?_erase (m : OrdMap κ ν) (k a : κ) :
    (m.erase k).get? a = if a = k then none else m.get? a := by
  rw [erase, get?_filter]
  by_cases h : a = k
  · simp [h]
  · cases m.get? a <;> simp [h]

@[simp] theorem get?_erase_self (m : OrdMap κ ν) (k : κ) : (m.erase k).get? k = none := by
  simp [get?_erase]

theorem erase_absent {m : OrdMap κ ν} {k : κ} (h : m.get? k = none) : m.erase k = m := by
  refine ext_get? fun a => ?_
  rw [get?_erase]
  split
  · rename_i ha; rw [ha, h]
  · rfl

theorem get?_erase_ne (m : OrdMap κ ν) {k a : κ} (h : a ≠ k) : (m.erase k).get? a = m.get? a := by
  simp [get?_erase, h]

/-! ## Insertion -/

def insertList (k : κ) (v : ν) : List (κ × ν) → List (κ × ν)
  | [] => [(k, v)]
  | e :: l =>
    if k < e.1 then (k, v) :: e :: l
    else if k = e.1 then (k, v) :: l
    else e :: insertList k v l

theorem mem_insertList {k : κ} {v : ν} {l : List (κ × ν)}
    (hl : l.Pairwise fun a b => a.1 < b.1) {e : κ × ν} :
    e ∈ insertList k v l ↔ e = (k, v) ∨ e.1 ≠ k ∧ e ∈ l := by
  induction l with
  | nil => simp [insertList]
  | cons a l ih =>
    obtain ⟨hlt, hl⟩ := List.pairwise_cons.mp hl
    simp only [insertList]
    split
    · rename_i h
      have : ∀ x ∈ a :: l, x.1 ≠ k := by
        intro x hx
        rcases List.mem_cons.mp hx with rfl | hx
        · exact (ne_of_lt h).symm
        · exact (ne_of_lt (h.trans (hlt x hx))).symm
      grind
    · split
      · rename_i h
        have : ∀ x ∈ l, x.1 ≠ k := fun x hx => h ▸ (ne_of_lt (hlt x hx)).symm
        grind
      · rename_i h
        rw [List.mem_cons, ih hl]
        grind

theorem insertList_sorted {k : κ} {v : ν} {l : List (κ × ν)}
    (hl : l.Pairwise fun a b => a.1 < b.1) :
    (insertList k v l).Pairwise fun a b => a.1 < b.1 := by
  induction l with
  | nil => simp [insertList]
  | cons a l ih =>
    have hal := hl
    obtain ⟨hlt, hl⟩ := List.pairwise_cons.mp hl
    simp only [insertList]
    split
    · rename_i h
      refine List.pairwise_cons.mpr ⟨fun x hx => ?_, hal⟩
      rcases List.mem_cons.mp hx with rfl | hx
      · exact h
      · exact h.trans (hlt x hx)
    · split
      · rename_i h
        exact List.pairwise_cons.mpr ⟨fun x hx => h ▸ hlt x hx, hl⟩
      · rename_i h₁ h₂
        refine List.pairwise_cons.mpr ⟨fun x hx => ?_, ih hl⟩
        rcases (mem_insertList hl).mp hx with rfl | ⟨-, hx⟩
        · exact lt_of_le_of_ne (not_lt.mp h₁) (Ne.symm h₂)
        · exact hlt x hx

def insert (k : κ) (v : ν) (m : OrdMap κ ν) : OrdMap κ ν :=
  ⟨insertList k v m.entries, insertList_sorted m.sorted⟩

theorem get?_insert (k : κ) (v : ν) (m : OrdMap κ ν) (a : κ) :
    (m.insert k v).get? a = if a = k then some v else m.get? a := by
  ext w
  rw [get?_eq_some]
  simp only [insert]
  rw [mem_insertList m.sorted]
  by_cases h : a = k
  · subst h; simp [eq_comm]
  · simp [h, get?_eq_some]

@[simp] theorem get?_insert_self (k : κ) (v : ν) (m : OrdMap κ ν) :
    (m.insert k v).get? k = some v := by simp [get?_insert]

theorem get?_insert_ne {k a : κ} (v : ν) (m : OrdMap κ ν) (h : a ≠ k) :
    (m.insert k v).get? a = m.get? a := by simp [get?_insert, h]

theorem get?_insert_eq_some {k a : κ} {v w : ν} {m : OrdMap κ ν} (h : (m.insert k v).get? a = some w) :
    (a = k ∧ w = v) ∨ (a ≠ k ∧ m.get? a = some w) := by
  rw [get?_insert] at h
  split at h
  · exact .inl ⟨‹a = k›, (Option.some.inj h).symm⟩
  · exact .inr ⟨‹¬ a = k›, h⟩

theorem insert_erase (m : OrdMap κ ν) (k : κ) (v : ν) : (m.erase k).insert k v = m.insert k v := by
  refine ext_get? fun a => ?_
  rw [get?_insert, get?_insert]
  split
  · rfl
  · rename_i h
    exact get?_erase_ne m h

theorem insert_get? {m : OrdMap κ ν} {k : κ} {v : ν} (h : m.get? k = some v) :
    m.insert k v = m := by
  refine ext_get? fun a => ?_
  by_cases ha : a = k
  · subst ha; simp [h]
  · simp [get?_insert, ha]

theorem map_insert (f : κ → ν → μ) (m : OrdMap κ ν) (k : κ) (v : ν) :
    (m.insert k v).map f = (m.map f).insert k (f k v) := by
  refine ext_get? fun a => ?_
  rw [get?_map, get?_insert, get?_insert]
  by_cases ha : a = k
  · simp [ha]
  · simp [ha]

/-- Changes the value of one key, if it is there. -/
def modify (k : κ) (f : ν → ν) (m : OrdMap κ ν) : OrdMap κ ν :=
  m.map fun a v => if a = k then f v else v

theorem get?_modify (k : κ) (f : ν → ν) (m : OrdMap κ ν) (a : κ) :
    (m.modify k f).get? a = if a = k then (m.get? a).map f else m.get? a := by
  rw [modify, get?_map]
  by_cases h : a = k <;> simp [h]

@[simp] theorem get?_modify_self (k : κ) (f : ν → ν) (m : OrdMap κ ν) :
    (m.modify k f).get? k = (m.get? k).map f := by simp [get?_modify]

theorem get?_modify_ne {k a : κ} (f : ν → ν) (m : OrdMap κ ν) (h : a ≠ k) :
    (m.modify k f).get? a = m.get? a := by simp [get?_modify, h]

theorem modify_eq_insert {m : OrdMap κ ν} {k : κ} {v : ν} (h : m.get? k = some v) (f : ν → ν) :
    m.modify k f = m.insert k (f v) := by
  refine ext_get? fun a => ?_
  by_cases ha : a = k
  · subst ha; simp [h]
  · rw [get?_modify_ne f m ha, get?_insert_ne _ m ha]

theorem modify_absent {m : OrdMap κ ν} {k : κ} (h : m.get? k = none) (f : ν → ν) :
    m.modify k f = m := by
  refine ext_get? fun a => ?_
  by_cases ha : a = k
  · subst ha; simp [h]
  · exact get?_modify_ne f m ha

@[simp] theorem contains_modify (k : κ) (f : ν → ν) (m : OrdMap κ ν) (a : κ) :
    (m.modify k f).contains a = m.contains a := contains_map _ m a

theorem filter_insert (p : κ → ν → Bool) (m : OrdMap κ ν) (k : κ) (v : ν) :
    (m.insert k v).filter p =
      if p k v then (m.filter p).insert k v else (m.filter p).erase k := by
  refine ext_get? fun a => ?_
  rw [get?_filter, get?_insert]
  by_cases ha : a = k
  · subst ha
    by_cases h : p a v = true <;> simp [h, Option.filter]
  · rw [if_neg ha, ← get?_filter]
    split
    · rw [get?_insert_ne _ _ ha]
    · rw [get?_erase_ne _ ha]

@[simp] theorem insert_insert (m : OrdMap κ ν) (k : κ) (v w : ν) :
    (m.insert k v).insert k w = m.insert k w := by
  refine ext_get? fun a => ?_
  by_cases ha : a = k
  · subst ha; simp
  · simp [get?_insert_ne _ _ ha]

/-- The map of a list of entries; a later entry replaces an earlier one of the same key. -/
def ofList (l : List (κ × ν)) : OrdMap κ ν := l.foldl (fun m e => m.insert e.1 e.2) ∅

theorem mem_of_get?_foldl_insert {l : List (κ × ν)} {m : OrdMap κ ν} {k : κ} {v : ν}
    (h : (l.foldl (fun m e => m.insert e.1 e.2) m).get? k = some v) :
    m.get? k = some v ∨ (k, v) ∈ l := by
  induction l generalizing m with
  | nil => exact .inl h
  | cons e l ih =>
    rcases ih h with h | h
    · rw [get?_insert] at h
      split at h
      · rename_i hk
        cases h
        exact .inr (by simp [hk])
      · exact .inl h
    · exact .inr (List.mem_cons_of_mem _ h)

theorem mem_of_get?_ofList {l : List (κ × ν)} {k : κ} {v : ν} (h : (ofList l).get? k = some v) :
    (k, v) ∈ l := by
  rcases mem_of_get?_foldl_insert h with h | h
  · simp at h
  · exact h

theorem isSome_foldl_insert {l : List (κ × ν)} {m : OrdMap κ ν} {k : κ}
    (h : (m.get? k).isSome ∨ ∃ v, (k, v) ∈ l) :
    ((l.foldl (fun m e => m.insert e.1 e.2) m).get? k).isSome := by
  induction l generalizing m with
  | nil => simpa using h
  | cons e l ih =>
    refine ih ?_
    by_cases hk : k = e.1
    · subst hk; simp
    · rw [get?_insert_ne _ _ hk]
      rcases h with h | ⟨v, h⟩
      · exact .inl h
      · rcases List.mem_cons.mp h with rfl | h
        · exact absurd rfl hk
        · exact .inr ⟨v, h⟩

/-- The keys of `ofList` are those of the list. -/
theorem contains_ofList {l : List (κ × ν)} {k : κ} :
    (ofList l).contains k = true ↔ ∃ v, (k, v) ∈ l := by
  rw [contains_iff]
  constructor
  · rintro ⟨v, hv⟩; exact ⟨v, mem_of_get?_ofList hv⟩
  · intro h; exact Option.isSome_iff_exists.mp (isSome_foldl_insert (.inr h))

/-- A map is the map of its entries. -/
theorem ofList_entries (m : OrdMap κ ν) : ofList m.entries = m := by
  refine ext_get? fun k => ?_
  cases hk : m.get? k with
  | none =>
    cases ho : (ofList m.entries).get? k with
    | none => rfl
    | some v =>
      have := get?_eq_some.mpr (mem_of_get?_ofList ho)
      rw [hk] at this
      cases this
  | some v =>
    obtain ⟨w, hw⟩ := contains_iff.mp (contains_ofList.mpr ⟨v, get?_eq_some.mp hk⟩)
    have := get?_eq_some.mpr (mem_of_get?_ofList hw)
    rw [hk] at this
    rw [hw, this]

/-! ## Sums over the entries -/

def sum (f : κ → ν → Nat) (m : OrdMap κ ν) : Nat := (m.entries.map fun e => f e.1 e.2).sum

/-- A sum over a part is at most the sum over the whole. -/
theorem sum_le {m : OrdMap κ ν} {n : OrdMap κ μ} {f : κ → ν → Nat} {g : κ → μ → Nat}
    (h : ∀ k v, m.get? k = some v → ∃ w, n.get? k = some w ∧ f k v ≤ g k w) :
    m.sum f ≤ n.sum g := by
  -- Both sums run over keys; the keys of the part are some of the keys of the whole.
  let G (k : κ) : Nat := ((n.get? k).map (g k)).getD 0
  have hm : m.sum f ≤ (m.keys.map G).sum := by
    rw [sum, keys, List.map_map]
    refine List.sum_le_sum fun e he => ?_
    obtain ⟨w, hw, hle⟩ := h e.1 e.2 (get?_eq_some.mpr he)
    simpa [G, hw] using hle
  have hn : (n.keys.map G).sum = n.sum g := by
    rw [sum, keys, List.map_map]
    refine congrArg List.sum (List.map_congr_left fun e he => ?_)
    simp [G, get?_eq_some.mpr he]
  have hkeys : m.keys ⊆ n.keys := by
    intro k hk
    obtain ⟨v, hv⟩ := mem_keys.mp hk
    obtain ⟨w, hw, -⟩ := h k v hv
    exact mem_keys.mpr ⟨w, hw⟩
  obtain ⟨l, hl, hsub⟩ := List.subperm_of_subset m.keys_nodup hkeys
  calc m.sum f ≤ (m.keys.map G).sum := hm
    _ = (l.map G).sum := (hl.map G).sum_eq.symm
    _ ≤ (n.keys.map G).sum := (hsub.map G).sum_le_sum fun _ _ => Nat.zero_le _
    _ = n.sum g := hn

/-- A sum splits into the part at one key and the rest. -/
theorem sum_eq_erase {m : OrdMap κ ν} {k : κ} {v : ν} (f : κ → ν → Nat) (h : m.get? k = some v) :
    m.sum f = f k v + (m.erase k).sum f := by
  have hnodup : ∀ m : OrdMap κ ν, m.entries.Nodup := fun m =>
    m.sorted.imp fun hlt heq => absurd hlt (by rw [heq]; exact lt_irrefl _)
  have hnot : (k, v) ∉ (m.erase k).entries := fun hm => by
    have := get?_eq_some.mpr hm
    rw [get?_erase_self] at this
    cases this
  have hperm : m.entries.Perm ((k, v) :: (m.erase k).entries) := by
    rw [List.perm_ext_iff_of_nodup (hnodup m) (List.nodup_cons.mpr ⟨hnot, hnodup _⟩)]
    rintro ⟨a, w⟩
    rw [List.mem_cons, ← get?_eq_some, ← get?_eq_some, get?_erase]
    by_cases ha : a = k
    · subst ha
      simp [h, eq_comm]
    · simp [ha]
  rw [sum, (hperm.map _).sum_eq, List.map_cons, List.sum_cons]
  rfl

theorem sum_insert (f : κ → ν → Nat) (m : OrdMap κ ν) (k : κ) (v : ν) :
    (m.insert k v).sum f = f k v + (m.erase k).sum f := by
  rw [sum_eq_erase f (get?_insert_self k v m)]
  congr 2
  refine ext_get? fun a => ?_
  rw [get?_erase, get?_erase, get?_insert]
  split <;> rfl

theorem sum_eq_finset (f : κ → ν → Nat) (m : OrdMap κ ν) :
    m.sum f = m.keys.toFinset.sum fun k => ((m.get? k).map (f k)).getD 0 := by
  rw [List.sum_toFinset _ m.keys_nodup, sum, keys, List.map_map]
  refine congrArg List.sum (List.map_congr_left fun e he => ?_)
  simp [get?_eq_some.mpr he]

theorem sum_keys_le (f : κ → ν → Nat) {m : OrdMap κ ν} {n : OrdMap κ μ}
    (h : ∀ k ∈ n.keys, k ∈ m.keys) :
    (n.keys.map fun k => ((m.get? k).map (f k)).getD 0).sum ≤ m.sum f := by
  rw [sum_eq_finset, ← List.sum_toFinset _ n.keys_nodup]
  exact Finset.sum_le_sum_of_subset fun k hk =>
    List.mem_toFinset.mpr (h k (List.mem_toFinset.mp hk))

/-- A sum over a map whose values at the keys of `n` are replaced by those of `n`. -/
theorem sum_overlay {m n : OrdMap κ ν} (f : κ → ν → Nat) (h : ∀ k ∈ n.keys, k ∈ m.keys) :
    (m.map fun k v => (n.get? k).getD v).sum f +
        (n.keys.map fun k => ((m.get? k).map (f k)).getD 0).sum = m.sum f + n.sum f := by
  let F (k : κ) : Nat := ((m.get? k).map (f k)).getD 0
  let G (k : κ) : Nat := ((n.get? k).map (f k)).getD 0
  have hsub : n.keys.toFinset ⊆ m.keys.toFinset := fun k hk =>
    List.mem_toFinset.mpr (h k (List.mem_toFinset.mp hk))
  have hkeys : (m.map fun k v => (n.get? k).getD v).keys = m.keys := by
    simp [keys, map]
  have hover : (m.map fun k v => (n.get? k).getD v).sum f =
      (m.keys.toFinset \ n.keys.toFinset).sum F + n.keys.toFinset.sum G := by
    rw [sum_eq_finset, hkeys, ← Finset.sum_sdiff hsub]
    congr 1
    · refine Finset.sum_congr rfl fun k hk => ?_
      obtain ⟨-, hnot⟩ := Finset.mem_sdiff.mp hk
      have hnone : n.get? k = none := by
        cases hn : n.get? k with
        | none => rfl
        | some v => exact absurd (List.mem_toFinset.mpr (mem_keys.mpr ⟨v, hn⟩)) hnot
      cases hm : m.get? k <;> simp [F, hm, hnone]
    · refine Finset.sum_congr rfl fun k hk => ?_
      obtain ⟨v, hv⟩ := mem_keys.mp (List.mem_toFinset.mp hk)
      obtain ⟨w, hw⟩ := mem_keys.mp (List.mem_toFinset.mp (hsub hk))
      simp [G, hv, hw]
  have hm : m.sum f = (m.keys.toFinset \ n.keys.toFinset).sum F + n.keys.toFinset.sum F := by
    rw [sum_eq_finset, ← Finset.sum_sdiff hsub]
  have hold : (n.keys.map fun k => ((m.get? k).map (f k)).getD 0).sum = n.keys.toFinset.sum F :=
    (List.sum_toFinset F n.keys_nodup).symm
  have hnew : n.sum f = n.keys.toFinset.sum G := sum_eq_finset f n
  omega

theorem length_insertList_le (k : κ) (v : ν) (l : List (κ × ν)) :
    (insertList k v l).length ≤ l.length + 1 := by
  induction l with
  | nil => simp [insertList]
  | cons e l ih =>
    simp only [insertList]
    split
    · simp
    · split
      · simp
      · simp only [List.length_cons]; omega

theorem size_insert_le (k : κ) (v : ν) (m : OrdMap κ ν) : (m.insert k v).size ≤ m.size + 1 :=
  length_insertList_le k v m.entries

theorem size_ofList_le (l : List (κ × ν)) : (ofList l).size ≤ l.length := by
  have key : ∀ (l : List (κ × ν)) (m : OrdMap κ ν),
      (l.foldl (fun m e => m.insert e.1 e.2) m).size ≤ m.size + l.length := by
    intro l
    induction l with
    | nil => simp
    | cons e l ih =>
      intro m
      have h₁ := ih (m.insert e.1 e.2)
      have h₂ := size_insert_le e.1 e.2 m
      simp only [List.foldl_cons, List.length_cons]
      omega
  exact (key l ∅).trans (Nat.le_of_eq (Nat.zero_add _))

@[simp] theorem size_map (f : κ → ν → μ) (m : OrdMap κ ν) : (m.map f).size = m.size :=
  List.length_map _

/-! ## Visiting the entries in order -/

/-- One pass over the entries. `f` gives the new value, outputs, and whether to stop after this
entry; a stopped pass leaves the later entries as they are. The last component: it stopped. -/
def visitList (f : κ → ν → ν × List β × Bool) : List (κ × ν) → List (κ × ν) × List β × Bool
  | [] => ([], [], false)
  | e :: l =>
    match f e.1 e.2 with
    | (v, out, true) => ((e.1, v) :: l, out, true)
    | (v, out, false) =>
      let (l', out', stop) := visitList f l
      ((e.1, v) :: l', out ++ out', stop)

omit [LinearOrder κ] in
theorem visitList_keys (f : κ → ν → ν × List β × Bool) (l : List (κ × ν)) :
    (visitList f l).1.map (·.1) = l.map (·.1) := by
  induction l with
  | nil => rfl
  | cons e l ih =>
    simp only [visitList]
    split <;> simp_all

def visit (f : κ → ν → ν × List β × Bool) (m : OrdMap κ ν) : OrdMap κ ν × List β × Bool :=
  (⟨(visitList f m.entries).1, by
    have h : (m.entries.map (·.1)).Pairwise (· < ·) := List.pairwise_map.mpr m.sorted
    rw [← visitList_keys f] at h
    exact List.pairwise_map.mp h⟩,
   (visitList f m.entries).2.1, (visitList f m.entries).2.2)

omit [LinearOrder κ] in
theorem visitList_full {f : κ → ν → ν × List β × Bool} {l : List (κ × ν)}
    (h : (visitList f l).2.2 = false) :
    (visitList f l).1 = l.map (fun e => (e.1, (f e.1 e.2).1)) ∧
      (visitList f l).2.1 = l.flatMap (fun e => (f e.1 e.2).2.1) ∧
      ∀ e ∈ l, (f e.1 e.2).2.2 = false := by
  induction l with
  | nil => simp [visitList]
  | cons e l ih =>
    simp only [visitList] at h ⊢
    split at h
    · simp at h
    · rename_i v out hf
      obtain ⟨h₁, h₂, h₃⟩ := ih h
      simp [hf, h₁, h₂]
      exact fun a b hab => h₃ (a, b) hab

/-- A pass that did not stop replaced every value. -/
theorem visit_map {f : κ → ν → ν × List β × Bool} {m : OrdMap κ ν} (h : (m.visit f).2.2 = false) :
    (m.visit f).1 = m.map fun k v => (f k v).1 := by
  have := (visitList_full h).1
  simp only [visit, map, this]

theorem visit_out {f : κ → ν → ν × List β × Bool} {m : OrdMap κ ν} (h : (m.visit f).2.2 = false) :
    (m.visit f).2.1 = m.entries.flatMap fun e => (f e.1 e.2).2.1 := (visitList_full h).2.1

theorem visit_go {f : κ → ν → ν × List β × Bool} {m : OrdMap κ ν} (h : (m.visit f).2.2 = false)
    {k : κ} {v : ν} (hk : m.get? k = some v) : (f k v).2.2 = false :=
  (visitList_full h).2.2 (k, v) (get?_eq_some.mp hk)

/-- A pass that stopped did so at some entry. -/
theorem visit_stop {f : κ → ν → ν × List β × Bool} {m : OrdMap κ ν} (h : (m.visit f).2.2 = true) :
    ∃ k v, m.get? k = some v ∧ (f k v).2.2 = true := by
  have key : ∀ l : List (κ × ν), (visitList f l).2.2 = true → ∃ e ∈ l, (f e.1 e.2).2.2 = true := by
    intro l
    induction l with
    | nil => simp [visitList]
    | cons e l ih =>
      intro hstop
      simp only [visitList] at hstop
      split at hstop
      · rename_i v out hf
        exact ⟨e, by simp, by rw [hf]⟩
      · obtain ⟨x, hx, hstop⟩ := ih hstop
        exact ⟨x, List.mem_cons_of_mem _ hx, hstop⟩
  obtain ⟨e, he, hstop⟩ := key m.entries h
  exact ⟨e.1, e.2, get?_eq_some.mpr he, hstop⟩

omit [LinearOrder κ] in
theorem mem_visitList {f : κ → ν → ν × List β × Bool} {l : List (κ × ν)} {k : κ} {w : ν}
    (h : (k, w) ∈ (visitList f l).1) : ∃ v, (k, v) ∈ l ∧ (w = v ∨ w = (f k v).1) := by
  induction l with
  | nil => simp [visitList] at h
  | cons e l ih =>
    simp only [visitList] at h
    split at h
    · rename_i v out hf
      rcases List.mem_cons.mp h with h | h
      · cases h; exact ⟨e.2, by simp, .inr (by rw [hf])⟩
      · exact ⟨w, List.mem_cons_of_mem _ h, .inl rfl⟩
    · rename_i v out hf
      rcases List.mem_cons.mp h with h | h
      · cases h; exact ⟨e.2, by simp, .inr (by rw [hf])⟩
      · obtain ⟨v, hv, hw⟩ := ih h
        exact ⟨v, List.mem_cons_of_mem _ hv, hw⟩

/-- What a pass leaves at a key, stopped or not: the old value, or the one that `f` gives. -/
theorem visit_get? {f : κ → ν → ν × List β × Bool} {m : OrdMap κ ν} {k : κ} {w : ν}
    (h : (m.visit f).1.get? k = some w) :
    ∃ v, m.get? k = some v ∧ (w = v ∨ w = (f k v).1) := by
  obtain ⟨v, hv, hw⟩ := mem_visitList (get?_eq_some.mp h)
  exact ⟨v, get?_eq_some.mpr hv, hw⟩

/-- Every output of a pass, stopped or not, is one of some entry. -/
theorem mem_visit_out {f : κ → ν → ν × List β × Bool} {m : OrdMap κ ν} {c : β}
    (h : c ∈ (m.visit f).2.1) : ∃ k v, m.get? k = some v ∧ c ∈ (f k v).2.1 := by
  have key : ∀ l : List (κ × ν), c ∈ (visitList f l).2.1 → ∃ e ∈ l, c ∈ (f e.1 e.2).2.1 := by
    intro l
    induction l with
    | nil => simp [visitList]
    | cons e l ih =>
      intro hc
      simp only [visitList] at hc
      split at hc
      · rename_i v out hf
        exact ⟨e, by simp, by rw [hf]; exact hc⟩
      · rename_i v out hf
        rcases List.mem_append.mp hc with hc | hc
        · exact ⟨e, by simp, by rw [hf]; exact hc⟩
        · obtain ⟨x, hx, hc⟩ := ih hc
          exact ⟨x, List.mem_cons_of_mem _ hx, hc⟩
  obtain ⟨e, he, hc⟩ := key m.entries h
  exact ⟨e.1, e.2, get?_eq_some.mpr he, hc⟩

theorem visit_keys (f : κ → ν → ν × List β × Bool) (m : OrdMap κ ν) :
    (m.visit f).1.keys = m.keys := visitList_keys f m.entries

/-- A pass keeps the keys. -/
theorem visit_contains (f : κ → ν → ν × List β × Bool) (m : OrdMap κ ν) (k : κ) :
    (m.visit f).1.contains k = m.contains k := by
  rw [Bool.eq_iff_iff, contains_iff, contains_iff, ← mem_keys, ← mem_keys, visit_keys]

/-! ## Outputs of one entry -/

/-- Of the outputs of all entries, a filter that only those of one entry pass leaves that entry's. -/
theorem filter_flatMap {m : OrdMap κ ν} {f : κ → ν → List β} {q : β → Bool} {k : κ}
    (h : ∀ a v, m.get? a = some v → a ≠ k → ∀ b ∈ f a v, q b = false) :
    (m.entries.flatMap fun e => f e.1 e.2).filter q =
      ((m.get? k).map fun v => (f k v).filter q).getD [] := by
  have key : ∀ l : List (κ × ν), (l.Pairwise fun a b => a.1 < b.1) →
      (∀ a v, (a, v) ∈ l → a ≠ k → ∀ b ∈ f a v, q b = false) →
      (l.flatMap fun e => f e.1 e.2).filter q =
        ((l.lookup k).map fun v => (f k v).filter q).getD [] := by
    intro l hl hq
    induction l with
    | nil => rfl
    | cons e l ih =>
      obtain ⟨hlt, hl⟩ := List.pairwise_cons.mp hl
      have ih := ih hl fun a v hav => hq a v (List.mem_cons_of_mem _ hav)
      rw [List.flatMap_cons, List.filter_append, ih, List.lookup_cons]
      by_cases hk : k = e.1
      · have hnone : l.lookup k = none := by
          rw [List.lookup_eq_none_iff]
          intro x hx
          simpa [hk] using ne_of_lt (hlt x hx)
        subst hk
        simp [hnone]
      · have hempty : (f e.1 e.2).filter q = [] :=
          List.filter_eq_nil_iff.mpr fun b hb => by
            simpa using hq e.1 e.2 List.mem_cons_self (Ne.symm hk) b hb
        simp [hempty, beq_false_of_ne hk]
  exact key m.entries m.sorted fun a v hav => h a v (get?_eq_some.mpr hav)

end OrdMap
