import Mathlib.Data.List.Basic

/-!
# Runs of a deterministic machine

A machine is a step function `σ → α → σ`; a run folds it over a list of inputs. The rules below turn
a fact about one step into a fact about every run: an invariant (`run_invariant`), and a reflexive and
transitive relation between the two ends of a run (`run_relation`).

A guard says which inputs a state allows; `Guarded` is a run of allowed inputs. A machine is local in
a family of views if an input changes one view only (`Local`); a run then acts on each view with the
inputs of that view (`Local.foldl`), and is guarded if it is guarded at each view (`Local.guarded`).
-/

namespace Runs

variable {σ α : Type*} {f : σ → α → σ}

theorem run_invariant {I : σ → Prop} {G : α → Prop}
    (hstep : ∀ s a, G a → I s → I (f s a)) {s : σ} {ops : List α}
    (hok : ∀ a ∈ ops, G a) (h : I s) : I (ops.foldl f s) := by
  induction ops generalizing s with
  | nil => exact h
  | cons a ops ih =>
    exact ih (fun b hb => hok b (List.mem_cons_of_mem _ hb)) (hstep s a (hok a (by simp)) h)

theorem run_relation {R : σ → σ → Prop} {G : α → Prop} (hrefl : ∀ s, R s s)
    (htrans : ∀ {a b c}, R a b → R b c → R a c) (hstep : ∀ s a, G a → R s (f s a)) {s : σ}
    {ops : List α} (hok : ∀ a ∈ ops, G a) : R s (ops.foldl f s) :=
  run_invariant (I := R s) (fun t a ha h => htrans h (hstep t a ha)) hok (hrefl s)

/-- The states of a run, first and last included. -/
def states (f : σ → α → σ) (s : σ) : List α → List σ
  | [] => [s]
  | a :: ops => s :: states f (f s a) ops

theorem mem_states_self (s : σ) (ops : List α) : s ∈ states f s ops := by
  cases ops <;> simp [states]

/-! ## Guarded runs -/

/-- Every input of the run is allowed where it comes. -/
def Guarded (f : σ → α → σ) (G : σ → α → Prop) : σ → List α → Prop
  | _, [] => True
  | s, a :: ops => G s a ∧ Guarded f G (f s a) ops

variable {G : σ → α → Prop}

@[simp] theorem guarded_nil (s : σ) : Guarded f G s [] := trivial

@[simp] theorem guarded_cons {s : σ} {a : α} {ops : List α} :
    Guarded f G s (a :: ops) ↔ G s a ∧ Guarded f G (f s a) ops := Iff.rfl

@[simp] theorem guarded_append {s : σ} {ops ops' : List α} :
    Guarded f G s (ops ++ ops') ↔ Guarded f G s ops ∧ Guarded f G (ops.foldl f s) ops' := by
  induction ops generalizing s with
  | nil => simp
  | cons a ops ih => simp [ih, and_assoc]

theorem Guarded.of_prefix {s : σ} {ops ops' : List α} (h : Guarded f G s ops') (hp : ops <+: ops') :
    Guarded f G s ops := by
  obtain ⟨l, rfl⟩ := hp
  exact (guarded_append.mp h).1

/-- What every allowed input preserves holds after a guarded run. -/
theorem Guarded.invariant {I : σ → Prop} (hstep : ∀ s a, I s → G s a → I (f s a)) {s : σ}
    {ops : List α} (hg : Guarded f G s ops) (h : I s) : I (ops.foldl f s) := by
  induction ops generalizing s with
  | nil => exact h
  | cons a ops ih => exact ih hg.2 (hstep s a h hg.1)

/-! ## Local machines -/

/-- The inputs `T` change one view each: the one at `key`. -/
def Local {κ τ : Type*} (f : σ → α → σ) (view : σ → κ → τ) (g : τ → α → τ) (key : α → κ)
    (T : α → Prop) : Prop :=
  ∀ s a, T a → view (f s a) (key a) = g (view s (key a)) a ∧
    ∀ k, k ≠ key a → view (f s a) k = view s k

section Local

variable {κ τ : Type*} [DecidableEq κ] {view : σ → κ → τ} {g : τ → α → τ} {key : α → κ}
  {T : α → Prop}

theorem Local.foldl (h : Local f view g key T) {s : σ} {ops : List α} (hT : ∀ a ∈ ops, T a) (k : κ) :
    view (ops.foldl f s) k = (ops.filter fun a => key a = k).foldl g (view s k) := by
  induction ops generalizing s with
  | nil => rfl
  | cons a ops ih =>
    rw [List.foldl_cons, ih fun b hb => hT b (List.mem_cons_of_mem _ hb), List.filter_cons]
    obtain ⟨hself, hother⟩ := h s a (hT a (by simp))
    by_cases hk : key a = k
    · subst hk
      simp [hself]
    · simp [hk, hother k (Ne.symm hk)]

/-- A run is guarded if the inputs of each view are, with a guard that implies the machine's. -/
theorem Local.guarded (h : Local f view g key T) {H : κ → τ → α → Prop}
    (hG : ∀ s a, T a → H (key a) (view s (key a)) a → G s a) {s : σ} {ops : List α}
    (hT : ∀ a ∈ ops, T a)
    (hg : ∀ k, Guarded g (H k) (view s k) (ops.filter fun a => key a = k)) : Guarded f G s ops := by
  induction ops generalizing s with
  | nil => trivial
  | cons a ops ih =>
    have ha := hT a (by simp)
    obtain ⟨hself, hother⟩ := h s a ha
    have hhead := hg (key a)
    rw [List.filter_cons, if_pos (by simp)] at hhead
    refine ⟨hG s a ha hhead.1, ih (fun b hb => hT b (List.mem_cons_of_mem _ hb)) fun k => ?_⟩
    by_cases hk : k = key a
    · rw [hk, hself]
      exact hhead.2
    · rw [hother k hk]
      have := hg k
      rwa [List.filter_cons, if_neg (by simpa using Ne.symm hk)] at this

end Local

end Runs
