import Mathlib.Order.Defs.Unbundled

/-!
# Computations that keep their state when they fail

What a computation does to its state (`Follows`): the state after it, a failed one too, is one that
the relation `R` allows from the state before. What a computation returns that only remembers in its
state (`Answers`): the same from every state that satisfies `I`. The rules follow the steps of the
computation.
-/

namespace Stateful

variable {ε σ α β : Type} {R : σ → σ → Prop}

/-- What a computation returns from `s`, and the state it leaves. -/
def runFrom (x : ExceptT ε (StateM σ) α) (s : σ) : Except ε α × σ := x.run.run s

@[simp] theorem runFrom_pure (a : α) (s : σ) :
    runFrom (Pure.pure a : ExceptT ε (StateM σ) α) s = (.ok a, s) := rfl

@[simp] theorem runFrom_throw (e : ε) (s : σ) :
    runFrom (throw e : ExceptT ε (StateM σ) α) s = (.error e, s) := rfl

@[simp] theorem runFrom_get (s : σ) : runFrom (get : ExceptT ε (StateM σ) σ) s = (.ok s, s) := rfl

@[simp] theorem runFrom_set (s t : σ) :
    runFrom (set t : ExceptT ε (StateM σ) PUnit) s = (.ok ⟨⟩, t) := rfl

/-- A computation that does not touch the state. -/
@[simp] theorem runFrom_lift (x : Except ε α) (s : σ) :
    runFrom (liftM x : ExceptT ε (StateM σ) α) s = (x, s) := rfl

/-- The computation that does `f`. -/
def action (f : σ → Except ε α × σ) : ExceptT ε (StateM σ) α := ExceptT.mk (StateT.mk f)

@[simp] theorem runFrom_action (f : σ → Except ε α × σ) (s : σ) : runFrom (action f) s = f s := rfl

/-- The computation that always returns what `x` returns, also its error. -/
def attempt {ε' : Type} (x : ExceptT ε' (StateM σ) α) : ExceptT ε (StateM σ) (Except ε' α) :=
  action fun s => (.ok (runFrom x s).1, (runFrom x s).2)

@[simp] theorem runFrom_attempt {ε' : Type} (x : ExceptT ε' (StateM σ) α) (s : σ) :
    runFrom (attempt x : ExceptT ε (StateM σ) (Except ε' α)) s
      = (.ok (runFrom x s).1, (runFrom x s).2) := rfl

theorem runFrom_bind (x : ExceptT ε (StateM σ) α) (f : α → ExceptT ε (StateM σ) β) (s : σ) :
    runFrom (x >>= f) s = match runFrom x s with
      | (.ok a, t) => runFrom (f a) t
      | (.error e, t) => (.error e, t) := by
  rcases h : runFrom x s with ⟨e | a, t⟩
  · simp only [runFrom, ExceptT.run_bind, StateT.run_bind] at h ⊢
    rw [h]
    rfl
  · simp only [runFrom, ExceptT.run_bind, StateT.run_bind] at h ⊢
    rw [h]
    rfl

theorem runFrom_bind_eq_ok {x : ExceptT ε (StateM σ) α} {f : α → ExceptT ε (StateM σ) β} {s u : σ}
    {b : β} : runFrom (x >>= f) s = (.ok b, u) ↔
      ∃ a t, runFrom x s = (.ok a, t) ∧ runFrom (f a) t = (.ok b, u) := by
  rw [runFrom_bind]
  rcases runFrom x s with ⟨e | a, t⟩
  · simp
  · simp [and_assoc]

/-- An error that no step returns is not returned. -/
theorem runFrom_bind_ne_error {e : ε} {x : ExceptT ε (StateM σ) α} {f : α → ExceptT ε (StateM σ) β}
    {s : σ} (hx : (runFrom x s).1 ≠ .error e)
    (hf : ∀ a t, runFrom x s = (.ok a, t) → (runFrom (f a) t).1 ≠ .error e) :
    (runFrom (x >>= f) s).1 ≠ .error e := by
  rw [runFrom_bind]
  rcases h : runFrom x s with ⟨e' | a, t⟩
  · intro he
    rw [h] at hx
    exact hx (congrArg Except.error (Except.error.inj he))
  · exact hf a t h

/-- The state after a run from `s` is one that `R` allows, whether the run failed or not. -/
def Follows (R : σ → σ → Prop) (s : σ) (x : ExceptT ε (StateM σ) α) : Prop := R s (runFrom x s).2

theorem Follows.mono {R' : σ → σ → Prop} (h : ∀ s t, R s t → R' s t) {s : σ}
    {x : ExceptT ε (StateM σ) α} (hx : Follows R s x) : Follows R' s x :=
  h _ _ hx

theorem Follows.pure [Std.Refl R] (s : σ) (a : α) :
    Follows R s (Pure.pure a : ExceptT ε (StateM σ) α) :=
  Std.Refl.refl s

theorem Follows.throw [Std.Refl R] (s : σ) (e : ε) :
    Follows R s (MonadExcept.throw e : ExceptT ε (StateM σ) α) :=
  Std.Refl.refl s

theorem Follows.lift [Std.Refl R] (s : σ) (x : Except ε α) :
    Follows R s (liftM x : ExceptT ε (StateM σ) α) :=
  Std.Refl.refl s

/-- A computation may do what its first step does, and then what the rest does with its result. -/
theorem Follows.bind [IsTrans σ R] {s : σ} {x : ExceptT ε (StateM σ) α}
    {f : α → ExceptT ε (StateM σ) β} (hx : Follows R s x)
    (hf : ∀ a t, runFrom x s = (.ok a, t) → Follows R t (f a)) : Follows R s (x >>= f) := by
  unfold Follows at hx ⊢
  rw [runFrom_bind]
  rcases h : runFrom x s with ⟨e | a, t⟩
  · rwa [h] at hx
  · rw [h] at hx
    exact Trans.trans hx (hf a t h)

/-- A step that only computes does nothing to the state. -/
theorem Follows.lift_bind [Std.Refl R] {s : σ} {x : Except ε α} {f : α → ExceptT ε (StateM σ) β}
    (hf : ∀ a, x = .ok a → Follows R s (f a)) : Follows R s (liftM x >>= f) := by
  unfold Follows at hf ⊢
  rw [runFrom_bind, runFrom_lift]
  cases x with
  | error e => exact Std.Refl.refl s
  | ok a => exact hf a rfl

theorem Follows.get_bind {s : σ} {f : σ → ExceptT ε (StateM σ) β} (hf : Follows R s (f s)) :
    Follows R s (get >>= f) := by
  unfold Follows at hf ⊢
  rwa [runFrom_bind, runFrom_get]

/-! ## What a computation makes true -/

/-- A run from `s` that returns `a` does what `R` allows, and `Q a` holds of the state after it. One
that fails with `e` does what `S` allows, and `E e` holds of the state that it leaves. -/
def Ensures (R S : σ → σ → Prop) (s : σ) (x : ExceptT ε (StateM σ) α) (Q : α → σ → Prop)
    (E : ε → σ → Prop) : Prop :=
  match runFrom x s with
  | (.ok a, t) => R s t ∧ Q a t
  | (.error e, t) => S s t ∧ E e t

section Ensures

variable {S : σ → σ → Prop} {s : σ} {x : ExceptT ε (StateM σ) α} {Q : α → σ → Prop}
  {E : ε → σ → Prop}

theorem Ensures.ok (hx : Ensures R S s x Q E) {a : α} {t : σ} (h : runFrom x s = (.ok a, t)) :
    R s t ∧ Q a t := by
  rwa [Ensures, h] at hx

theorem Ensures.error (hx : Ensures R S s x Q E) {e : ε} {t : σ} (h : runFrom x s = (.error e, t)) :
    S s t ∧ E e t := by
  rwa [Ensures, h] at hx

theorem Ensures.pure [Std.Refl R] {a : α} (h : Q a s) :
    Ensures R S s (Pure.pure a : ExceptT ε (StateM σ) α) Q E :=
  ⟨Std.Refl.refl s, h⟩

theorem Ensures.throw [Std.Refl S] {e : ε} (h : E e s) :
    Ensures R S s (MonadExcept.throw e : ExceptT ε (StateM σ) α) Q E :=
  ⟨Std.Refl.refl s, h⟩

theorem Ensures.lift [Std.Refl R] [Std.Refl S] {y : Except ε α} (hQ : ∀ a, y = .ok a → Q a s)
    (hE : ∀ e, y = .error e → E e s) : Ensures R S s (liftM y : ExceptT ε (StateM σ) α) Q E := by
  rw [Ensures, runFrom_lift]
  cases y with
  | error e => exact ⟨Std.Refl.refl s, hE e rfl⟩
  | ok a => exact ⟨Std.Refl.refl s, hQ a rfl⟩

/-- What the first step makes true holds where the rest starts. -/
theorem Ensures.bind [IsTrans σ R] [Trans R S S] {f : α → ExceptT ε (StateM σ) β}
    {T : β → σ → Prop} (hx : Ensures R S s x Q E)
    (hf : ∀ a t, R s t → Q a t → Ensures R S t (f a) T E) : Ensures R S s (x >>= f) T E := by
  rw [Ensures, runFrom_bind]
  rcases h : runFrom x s with ⟨e | a, t⟩
  · exact hx.error h
  · obtain ⟨hR, hQ⟩ := hx.ok h
    have hfa := hf a t hR hQ
    dsimp only
    rcases h' : runFrom (f a) t with ⟨e | b, u⟩
    · exact ⟨Trans.trans hR (hfa.error h').1, (hfa.error h').2⟩
    · exact ⟨Trans.trans hR (hfa.ok h').1, (hfa.ok h').2⟩

theorem Ensures.mono {R' S' : σ → σ → Prop} {Q' : α → σ → Prop} {E' : ε → σ → Prop}
    (hx : Ensures R S s x Q E) (hok : ∀ a t, R s t → Q a t → R' s t ∧ Q' a t)
    (herror : ∀ e t, S s t → E e t → S' s t ∧ E' e t) : Ensures R' S' s x Q' E' := by
  rw [Ensures]
  rcases h : runFrom x s with ⟨e | a, t⟩
  · exact herror e t (hx.error h).1 (hx.error h).2
  · exact hok a t (hx.ok h).1 (hx.ok h).2

/-- A weaker statement about the result. -/
theorem Ensures.imp {Q' : α → σ → Prop} (hx : Ensures R S s x Q E)
    (hQ : ∀ a t, R s t → Q a t → Q' a t) : Ensures R S s x Q' E :=
  hx.mono (fun a t h hq => ⟨h, hQ a t h hq⟩) fun _ _ h he => ⟨h, he⟩

/-- A function of the result. -/
theorem Ensures.map {f : α → β} {T : β → σ → Prop}
    (hx : Ensures R S s x (fun a t => T (f a) t) E) : Ensures R S s (f <$> x) T E := by
  have hrun : runFrom (f <$> x) s = ((runFrom x s).1.map f, (runFrom x s).2) := by
    rcases h : runFrom x s with ⟨e | a, t⟩ <;>
    · simp only [runFrom, ExceptT.run_map, StateT.run_map] at h ⊢
      rw [h]
      rfl
  rw [Ensures, hrun]
  rcases h : runFrom x s with ⟨e | a, t⟩
  · exact hx.error h
  · exact hx.ok h

/-- A failure that is caught is a result. -/
theorem Ensures.attempt {ε' : Type} {E' : ε' → σ → Prop} (hx : Ensures R R s x Q E) :
    Ensures R S s (attempt x : ExceptT ε' (StateM σ) (Except ε α))
      (fun r t => match r with
        | .ok a => Q a t
        | .error e => E e t) E' := by
  rw [Ensures, runFrom_attempt]
  rcases h : runFrom x s with ⟨e | a, t⟩
  · exact hx.error h
  · exact hx.ok h

/-- A loop keeps its invariant, which may speak of the elements that are done and of those to do. -/
theorem Ensures.forM [Std.Refl R] [IsTrans σ R] [Trans R S S] {γ : Type}
    {f : γ → ExceptT ε (StateM σ) PUnit} {I : List γ → List γ → σ → Prop} (l : List γ)
    (hf : ∀ done c rest, l = done ++ c :: rest → ∀ t, R s t → I done (c :: rest) t →
      Ensures R S t (f c) (fun _ u => I (done ++ [c]) rest u) E)
    (h : I [] l s) : Ensures R S s (l.forM f) (fun _ t => I l [] t) E := by
  suffices ∀ rest done t, l = done ++ rest → R s t → I done rest t →
      Ensures R S t (rest.forM f) (fun _ u => I l [] u) E from this l [] s rfl (Std.Refl.refl s) h
  intro rest
  induction rest with
  | nil =>
    intro done t hl _ hI
    rw [List.append_nil] at hl
    exact .pure (hl ▸ hI)
  | cons c rest ih =>
    intro done t hl ht hI
    refine Ensures.bind (f := fun _ => rest.forM f) (hf done c rest hl t ht hI) fun _ u hu hI => ?_
    exact ih (done ++ [c]) u (by rw [hl]; simp) (Trans.trans ht hu) hI

end Ensures

/-! ## Computations that only remember -/

variable {I : σ → Prop} {x : ExceptT ε (StateM σ) α} {y : Except ε α}

/-- From every state that satisfies `I` the computation returns `y`, and leaves such a state. -/
def Answers (I : σ → Prop) (x : ExceptT ε (StateM σ) α) (y : Except ε α) : Prop :=
  ∀ s, I s → (runFrom x s).1 = y ∧ I (runFrom x s).2

theorem Answers.pure (a : α) : Answers I (Pure.pure a : ExceptT ε (StateM σ) α) (.ok a) :=
  fun _ h => ⟨rfl, h⟩

theorem Answers.lift (y : Except ε α) : Answers I (liftM y : ExceptT ε (StateM σ) α) y :=
  fun _ h => ⟨rfl, h⟩

theorem Answers.bind {f : α → ExceptT ε (StateM σ) β} {g : α → Except ε β} (hx : Answers I x y)
    (hf : ∀ a, y = .ok a → Answers I (f a) (g a)) : Answers I (x >>= f) (y >>= g) := by
  intro s hs
  obtain ⟨hy, hI⟩ := hx s hs
  rw [runFrom_bind]
  rcases h : runFrom x s with ⟨e | a, t⟩ <;> rw [h] at hy hI
  · exact ⟨by rw [← hy]; rfl, hI⟩
  · rw [← hy]
    exact hf a hy.symm t hI

/-- A last step that only remembers what was found. -/
theorem Answers.bind_self {f : α → ExceptT ε (StateM σ) α} (hx : Answers I x y)
    (hf : ∀ a, y = .ok a → Answers I (f a) (.ok a)) : Answers I (x >>= f) y := by
  have h := Answers.bind (g := fun a => .ok a) hx hf
  rwa [show (y >>= fun a => Except.ok a) = y by cases y <;> rfl] at h

theorem Answers.adapt {ε' : Type} (f : ε → ε') (hx : Answers I x y) :
    Answers I (ExceptT.adapt f x) (y.mapError f) := by
  intro s hs
  obtain ⟨hy, hI⟩ := hx s hs
  have hrun : runFrom (ExceptT.adapt f x) s = ((runFrom x s).1.mapError f, (runFrom x s).2) := rfl
  rw [hrun, hy]
  exact ⟨rfl, hI⟩

/-! ### Loops -/

variable {γ : Type}

theorem Answers.foldlM {f : β → γ → ExceptT ε (StateM σ) β} {g : β → γ → Except ε β}
    (h : ∀ b c, Answers I (f b c) (g b c)) (l : List γ) (b : β) :
    Answers I (l.foldlM f b) (l.foldlM g b) := by
  induction l generalizing b with
  | nil => exact Answers.pure b
  | cons c l ih =>
    rw [List.foldlM_cons, List.foldlM_cons]
    exact Answers.bind (h b c) fun b' _ => ih b'

theorem Answers.mapM {f : γ → ExceptT ε (StateM σ) β} {g : γ → Except ε β}
    (h : ∀ c, Answers I (f c) (g c)) (l : List γ) : Answers I (l.mapM f) (l.mapM g) := by
  induction l with
  | nil => exact Answers.pure []
  | cons c l ih =>
    rw [List.mapM_cons, List.mapM_cons]
    exact Answers.bind (h c) fun b _ => Answers.bind ih fun l' _ => Answers.pure (b :: l')

end Stateful
