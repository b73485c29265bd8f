import Mathlib.Data.List.Nodup

/-!
# Doubly linked rings

The nodes of a circular doubly linked list, read in order from its sentinel, are a list of records with
an address and links. `Seg p xs q` says that the links of `xs` chain its nodes between the nodes at `p`
and `q`; a ring is a segment from the sentinel to itself (`Ring`). `first` and `last` are what the
outer nodes of a segment point to.
-/

/-- The two link fields of a node. -/
structure Ring.Links (α : Type*) where
  next : α
  previous : α
  deriving DecidableEq, Repr

namespace Ring

variable {ν α : Type*} (addr : ν → α) (links : ν → Links α)

/-- What the node before the segment points to, `q` being the node behind it. -/
def first : List ν → α → α
  | [], q => q
  | x :: _, _ => addr x

/-- What the node behind the segment points back to, `p` being the node before it. -/
def last (p : α) : List ν → α
  | [] => p
  | x :: xs => last (addr x) xs

/-- The nodes `xs` are chained between the nodes at `p` and `q`. -/
def Seg (p : α) : List ν → α → Prop
  | [], _ => True
  | x :: xs, q => links x = ⟨first addr xs q, p⟩ ∧ Seg (addr x) xs q

variable {addr links} {p q : α} {x : ν} {xs ys : List ν}

@[simp] theorem first_nil : first addr [] q = q := rfl
@[simp] theorem first_cons : first addr (x :: xs) q = addr x := rfl
@[simp] theorem last_nil : last addr p [] = p := rfl
@[simp] theorem last_cons : last addr p (x :: xs) = last addr (addr x) xs := rfl
@[simp] theorem seg_nil : Seg addr links p [] q := trivial

@[simp] theorem seg_cons :
    Seg addr links p (x :: xs) q ↔ links x = ⟨first addr xs q, p⟩ ∧ Seg addr links (addr x) xs q := Iff.rfl

theorem first_append : first addr (xs ++ ys) q = first addr xs (first addr ys q) := by cases xs <;> rfl

theorem last_append : last addr p (xs ++ ys) = last addr (last addr p xs) ys := by
  induction xs generalizing p with
  | nil => rfl
  | cons x xs ih => exact ih

@[simp] theorem last_concat : last addr p (xs ++ [x]) = addr x := by rw [last_append]; rfl

theorem seg_append : Seg addr links p (xs ++ ys) q ↔
    Seg addr links p xs (first addr ys q) ∧ Seg addr links (last addr p xs) ys q := by
  induction xs generalizing p with
  | nil => simp
  | cons x xs ih => simp only [List.cons_append, seg_cons, last_cons, ih, first_append, and_assoc]

/-- A node of a segment points back to the node before it. -/
theorem Seg.previous_eq (h : Seg addr links p (xs ++ x :: ys) q) :
    (links x).previous = last addr p xs := by
  obtain ⟨-, hx, -⟩ := seg_append.mp h
  rw [hx]

theorem first_mem (h : xs ≠ []) : first addr xs q ∈ xs.map addr := by
  obtain ⟨x, xs, rfl⟩ := List.exists_cons_of_ne_nil h
  simp

/-- The links of a segment depend on the addresses only. -/
theorem Seg.links_eq {μ : Type*} {addr' : μ → α} {links' : μ → Links α} {ys : List μ}
    (hx : Seg addr links p xs q) (hy : Seg addr' links' p ys q) (h : xs.map addr = ys.map addr') :
    xs.map links = ys.map links' := by
  induction xs generalizing p ys with
  | nil => cases ys <;> simp_all
  | cons x xs ih =>
    obtain ⟨y, ys, rfl, hxy, hxys⟩ := List.map_eq_cons_iff.mp h.symm
    have hfirst : first addr xs q = first addr' ys q := by
      cases xs <;> cases ys <;> simp_all
    rw [List.map_cons, List.map_cons, hx.1, hy.1, hfirst, ih (hxy ▸ hx.2) hy.2 hxys.symm]

section Map

variable {μ : Type*} {f : μ → ν} {zs : List μ}

theorem first_map : first addr (zs.map f) q = first (fun z => addr (f z)) zs q := by cases zs <;> rfl

theorem last_map : last addr p (zs.map f) = last (fun z => addr (f z)) p zs := by
  induction zs generalizing p with
  | nil => rfl
  | cons z zs ih => exact ih

theorem seg_map : Seg addr links p (zs.map f) q ↔
    Seg (fun z => addr (f z)) (fun z => links (f z)) p zs q := by
  induction zs generalizing p with
  | nil => rfl
  | cons z zs ih => simp only [List.map_cons, seg_cons, first_map, ih]

end Map

/-- Two lists that agree in one view agree in every view that it determines. -/
theorem map_eq_of_map_eq {μ κ τ : Type*} {f : ν → κ} {g : μ → κ} {f' : ν → τ} {g' : μ → τ}
    {xs : List ν} {ys : List μ} (h : xs.map f = ys.map g)
    (hfg : ∀ x ∈ xs, ∀ y ∈ ys, f x = g y → f' x = g' y) : xs.map f' = ys.map g' := by
  induction xs generalizing ys with
  | nil => cases ys <;> simp_all
  | cons x xs ih =>
    obtain ⟨y, ys, rfl, hxy, hxys⟩ := List.map_eq_cons_iff.mp h.symm
    rw [List.map_cons, List.map_cons, hfg x (by simp) y (by simp) hxy.symm,
      ih hxys.symm fun a ha b hb => hfg a (List.mem_cons_of_mem _ ha) b (List.mem_cons_of_mem _ hb)]

/-! ## Rings -/

/-- `xs` is chained from the sentinel at `s` back to it, all nodes at places of their own. -/
structure Closed (addr : ν → α) (links : ν → Links α) (s : α) (xs : List ν) : Prop where
  seg : Seg addr links s xs s
  nodup : (s :: xs.map addr).Nodup

variable {s : α}

theorem closed_map {μ : Type*} {f : μ → ν} {zs : List μ} : Closed addr links s (zs.map f) ↔
    Closed (fun z => addr (f z)) (fun z => links (f z)) s zs := by
  constructor
  · rintro ⟨hseg, hnd⟩
    exact ⟨seg_map.mp hseg, by rwa [List.map_map] at hnd⟩
  · rintro ⟨hseg, hnd⟩
    exact ⟨seg_map.mpr hseg, by rwa [List.map_map]⟩

theorem Closed.addr_ne (h : Closed addr links s xs) (hx : x ∈ xs) : addr x ≠ s := by
  rintro rfl
  exact (List.nodup_cons.mp h.nodup).1 (List.mem_map_of_mem hx)

theorem Closed.addr_inj (h : Closed addr links s xs) {y : ν} (hx : x ∈ xs) (hy : y ∈ xs)
    (he : addr x = addr y) : x = y :=
  List.inj_on_of_nodup_map (List.nodup_cons.mp h.nodup).2 hx hy he

theorem Closed.first_eq (h : Closed addr links s xs) : first addr xs s = s ↔ xs = [] := by
  constructor
  · intro he
    by_contra hne
    exact (List.nodup_cons.mp h.nodup).1 (he ▸ first_mem hne)
  · rintro rfl
    rfl

/-- Two rings behind one sentinel whose nodes read back from the same memory are the same. -/
theorem Closed.map_addr_eq {μ β : Type*} {addr' : μ → α} {links' : μ → Links α} {ys : List μ}
    (read : α → β) (mk : Links α → β) (hmk : Function.Injective mk)
    (hx : Closed addr links s xs) (hy : Closed addr' links' s ys)
    (hrx : ∀ x ∈ xs, read (addr x) = mk (links x)) (hry : ∀ y ∈ ys, read (addr' y) = mk (links' y))
    (h : first addr xs s = first addr' ys s) : xs.map addr = ys.map addr' := by
  have hsx := fun x hx' => hx.addr_ne (x := x) hx'
  have hsy := fun y hy' => hy.addr_ne (x := y) hy'
  obtain ⟨hx, -⟩ := hx
  obtain ⟨hy, -⟩ := hy
  -- the two segments are walked together, whatever comes before them
  suffices ∀ p p', Seg addr links p xs s → Seg addr' links' p' ys s → xs.map addr = ys.map addr' from
    this s s hx hy
  clear hx hy
  induction xs generalizing ys with
  | nil =>
    intro p p' _ _
    cases ys with
    | nil => rfl
    | cons y ys => exact absurd h.symm (hsy y (by simp))
  | cons x xs ih =>
    intro p p' hx hy
    cases ys with
    | nil => exact absurd h (hsx x (by simp))
    | cons y ys =>
      simp only [first_cons] at h
      have hlinks : links x = links' y := by
        apply hmk
        rw [← hrx x (by simp), ← hry y (by simp), h]
      have hnext : first addr xs s = first addr' ys s := by
        rw [hx.1, hy.1] at hlinks
        exact (Links.mk.injEq .. ▸ hlinks).1
      rw [List.map_cons, List.map_cons, h,
        ih (fun a ha => hrx a (List.mem_cons_of_mem _ ha)) (fun a ha => hry a (List.mem_cons_of_mem _ ha))
          hnext (fun a ha => hsx a (List.mem_cons_of_mem _ ha))
          (fun a ha => hsy a (List.mem_cons_of_mem _ ha)) _ _ hx.2 hy.2]

/-- If the nodes before `x` were cut down to `kept`, then `x` points back to the same node if and only
if its neighbour is still there. -/
theorem Closed.last_trimmed {pre kept : List ν} (h : Closed addr links s (pre ++ x :: ys))
    (hk : (kept.map addr).Sublist (pre.map addr)) :
    last addr s kept = last addr s pre ↔ (kept.map addr).getLast? = (pre.map addr).getLast? := by
  have hnd : (s :: pre.map addr).Nodup :=
    h.nodup.sublist (by simp)
  have hlast : ∀ l : List ν, (l.map addr).getLast? = none ∧ last addr s l = s ∨
      (l.map addr).getLast? = some (last addr s l) ∧ last addr s l ∈ l.map addr := by
    intro l
    rcases List.eq_nil_or_concat l with rfl | ⟨l', y, rfl⟩
    · simp
    · simp
  rcases hlast kept with ⟨hk₁, hk₂⟩ | ⟨hk₁, hk₂⟩ <;> rcases hlast pre with ⟨hp₁, hp₂⟩ | ⟨hp₁, hp₂⟩
  · simp [hk₁, hk₂, hp₁, hp₂]
  · simp only [hk₁, hk₂, hp₁, reduceCtorEq, iff_false]
    exact fun he => (List.nodup_cons.mp hnd).1 (he ▸ hp₂)
  · simp only [hk₁, hp₁, hp₂, reduceCtorEq, iff_false]
    exact fun he => (List.nodup_cons.mp hnd).1 (he ▸ hk.subset hk₂)
  · simp [hk₁, hp₁]

end Ring
