import Mathlib.Data.List.Forall2

/-!
# Computations that may fail

Rules that take a successful `Except` computation apart: what each step of it returned
(`bind_eq_ok`), and that no check of it failed (`ite_eq_ok`).
-/

namespace Fallible

universe u

variable {ε : Type*} {α β : Type u}

@[simp] theorem bind_eq_ok {x : Except ε α} {f : α → Except ε β} {b : β} :
    x >>= f = .ok b ↔ ∃ a, x = .ok a ∧ f a = .ok b := by
  cases x <;> simp [bind, Except.bind]

@[simp] theorem pure_eq_ok {a b : α} : (pure a : Except ε α) = .ok b ↔ a = b := by
  simp [pure, Except.pure]

/-- A check that rejects was passed. -/
@[simp] theorem ite_eq_ok {p : Prop} [Decidable p] {e : ε} {x : Except ε α} {a : α} :
    (if p then .error e else x) = .ok a ↔ ¬p ∧ x = .ok a := by
  split <;> simp_all

@[simp] theorem ok_bind {a : α} {f : α → Except ε β} : (Except.ok a : Except ε α) >>= f = f a := rfl

@[simp] theorem error_bind {e : ε} {f : α → Except ε β} :
    (Except.error e : Except ε α) >>= f = .error e := rfl

@[simp] theorem mapError_eq_ok {ε' : Type*} {f : ε → ε'} {x : Except ε α} {a : α} :
    x.mapError f = .ok a ↔ x = .ok a := by
  cases x <;> simp [Except.mapError]

theorem toOption_eq_some {x : Except ε α} {a : α} : x.toOption = some a ↔ x = .ok a := by
  cases x <;> simp [Except.toOption]

/-- An error that no step returns is not returned. -/
theorem bind_ne_error {e : ε} {x : Except ε α} {f : α → Except ε β} (hx : x ≠ .error e)
    (hf : ∀ a, x = .ok a → f a ≠ .error e) : x >>= f ≠ .error e := by
  cases x with
  | error e' =>
    intro h
    cases h
    exact hx rfl
  | ok a => exact hf a rfl

/-! ## Loops -/

variable {σ : Type u} {f : σ → α → Except ε σ}

@[simp] theorem foldlM_cons_eq_ok {s t : σ} {a : α} {l : List α} :
    (a :: l).foldlM f s = .ok t ↔ ∃ u, f s a = .ok u ∧ l.foldlM f u = .ok t := by
  rw [List.foldlM_cons, bind_eq_ok]

/-- A loop that ran to its end ran over each part of its list. -/
theorem foldlM_append_eq_ok {s t : σ} {l l' : List α} :
    (l ++ l').foldlM f s = .ok t ↔ ∃ u, l.foldlM f s = .ok u ∧ l'.foldlM f u = .ok t := by
  rw [List.foldlM_append, bind_eq_ok]

/-- A list of computations that all succeeded. -/
theorem mapM_eq_ok {f : α → Except ε β} {l : List α} {l' : List β} :
    l.mapM f = .ok l' ↔ List.Forall₂ (fun a b => f a = .ok b) l l' := by
  induction l generalizing l' with
  | nil =>
    rw [List.mapM_nil, pure_eq_ok, List.forall₂_nil_left_iff]
    exact eq_comm
  | cons a l ih =>
    rw [List.mapM_cons, bind_eq_ok, List.forall₂_cons_left_iff]
    refine exists_congr fun b => ?_
    rw [bind_eq_ok]
    constructor
    · rintro ⟨hb, rest, hrest, hl'⟩
      exact ⟨rest, hb, ih.mp hrest, (pure_eq_ok.mp hl').symm⟩
    · rintro ⟨rest, hb, hrest, rfl⟩
      exact ⟨hb, rest, ih.mpr hrest, rfl⟩

theorem mapM_ne_error {e : ε} {f : α → Except ε β} {l : List α} (h : ∀ a ∈ l, f a ≠ .error e) :
    l.mapM f ≠ .error e := by
  induction l with
  | nil => exact nofun
  | cons a l ih =>
    obtain ⟨ha, hl⟩ := List.forall_mem_cons.mp h
    rw [List.mapM_cons]
    exact bind_ne_error ha fun b _ => bind_ne_error (ih hl) fun l' _ => nofun

/-- Each result came from an element of the list, and each element gave one. -/
theorem forall₂_mem {R : α → β → Prop} {l : List α} {l' : List β} (h : List.Forall₂ R l l') :
    (∀ b ∈ l', ∃ a ∈ l, R a b) ∧ ∀ a ∈ l, ∃ b ∈ l', R a b := by
  induction h with
  | nil => simp
  | cons hab _ ih =>
    constructor
    · rintro b (_ | ⟨_, hb⟩)
      · exact ⟨_, List.mem_cons_self .., hab⟩
      · obtain ⟨a, ha, hR⟩ := ih.1 b hb
        exact ⟨a, List.mem_cons_of_mem _ ha, hR⟩
    · rintro a (_ | ⟨_, ha⟩)
      · exact ⟨_, List.mem_cons_self .., hab⟩
      · obtain ⟨b, hb, hR⟩ := ih.2 a ha
        exact ⟨b, List.mem_cons_of_mem _ hb, hR⟩

end Fallible
