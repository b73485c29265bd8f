import WfObserver.Service.Fencing

/-!
# What moves a demanded topic

A topic's demand and generation change only with a mark that `shifts` it. A demanded topic that was
shifted is not demanded any more, or is demanded in a higher generation: while its session lasts, it
never comes back to where it was (`Between.shifted`).
-/

namespace WfObserver
namespace Service

open Wire

/-- The transition changes the topic's demand or its generation. -/
def Mark.shifts (id : String) (key : TopicRef) : Mark → Bool
  | .toggled id' key' _ | .reset id' key' => id' == id && key' == key
  | .applied id' op _ => id' == id && op.resetKey? == some key
  | _ => false

/-- The generation of a topic that is demanded. -/
def Inner.demandedAt (i : Inner) (id : String) (key : TopicRef) : Option Nat :=
  (((i.sessions.get? id).bind fun s => s.topics.get? key).filter fun t => t.demanded).map fun t =>
    t.state.generation

theorem Inner.demandedAt_eq_some {i : Inner} {id : String} {key : TopicRef} {n : Nat} :
    i.demandedAt id key = some n ↔ ∃ s t, i.sessions.get? id = some s ∧ s.topics.get? key = some t ∧
      t.demanded = true ∧ t.state.generation = n := by
  simp only [Inner.demandedAt, Option.map_eq_some_iff, Option.filter_eq_some_iff,
    Option.bind_eq_some_iff]
  constructor
  · rintro ⟨t, ⟨⟨s, hs, ht⟩, hd⟩, hn⟩
    exact ⟨s, t, hs, ht, hd, hn⟩
  · rintro ⟨s, t, hs, ht, hd, hn⟩
    exact ⟨t, ⟨⟨s, hs, ht⟩, hd⟩, hn⟩

/-! ## Accounts -/

namespace Account

variable {id : String} {key : TopicRef} {m : Mark} {marks : List Mark}

/-- The marks neither start nor end the session. -/
def Lasts (id : String) (marks : List Mark) : Prop := .started id ∉ marks ∧ .ended id ∉ marks

theorem Lasts.tail (h : Lasts id (m :: marks)) : Lasts id marks :=
  ⟨fun hm => h.1 (List.mem_cons_of_mem _ hm), fun hm => h.2 (List.mem_cons_of_mem _ hm)⟩

/-- A mark that does not shift the topic. -/
theorem post_still (a : Account) (hlasts : Lasts id [m]) (hc : m.concerns id key = true)
    (hs : m.shifts id key = false) :
    (a.post m).generation = a.generation ∧ (a.post m).demanded = a.demanded := by
  cases m with
  | started id' | ended id' =>
    obtain rfl : id' = id := by simpa [Mark.concerns] using hc
    simp [Lasts] at hlasts
  | toggled id' key' d => exact absurd hc (by simpa [Mark.shifts, Mark.concerns] using hs)
  | reset id' key' => exact absurd hc (by simpa [Mark.shifts, Mark.concerns] using hs)
  | applied id' op deadline =>
    cases op with
    | reset k => exact absurd hc (by simpa [Mark.shifts, Mark.concerns, Operation.resetKey?,
        Operation.key] using hs)
    | _ => exact ⟨rfl, rfl⟩
  | _ => exact ⟨rfl, rfl⟩

/-- A mark that shifts the topic raises its generation or takes its demand. -/
theorem post_shifted (a : Account) (hs : m.shifts id key = true) :
    m.concerns id key = true ∧ ((a.post m).generation = a.generation + 1 ∨
      (a.post m).generation = a.generation ∧ (a.post m).demanded = false) := by
  cases m with
  | toggled id' key' d =>
    refine ⟨hs, ?_⟩
    cases d with
    | true => exact .inl rfl
    | false => exact .inr ⟨rfl, rfl⟩
  | reset id' key' => exact ⟨hs, .inl rfl⟩
  | applied id' op deadline =>
    cases op with
    | reset k => exact ⟨by simpa [Mark.shifts, Mark.concerns, Operation.resetKey?, Operation.key]
        using hs, .inl rfl⟩
    | _ => simp [Mark.shifts, Operation.resetKey?] at hs
  | _ => cases hs

theorem posted_cons (a : Account) : a.posted id key (m :: marks) =
    (if m.concerns id key then a.post m else a).posted id key marks := by
  unfold posted
  rw [List.filter_cons]
  split <;> rfl

/-- Without a shift, the demand and the generation stay. -/
theorem posted_still (a : Account) (hlasts : Lasts id marks)
    (hs : ∀ m ∈ marks, m.shifts id key = false) :
    (a.posted id key marks).generation = a.generation ∧
      (a.posted id key marks).demanded = a.demanded := by
  induction marks generalizing a with
  | nil => exact ⟨rfl, rfl⟩
  | cons m marks ih =>
    have hrest := fun a => ih a hlasts.tail fun m hm => hs m (List.mem_cons_of_mem _ hm)
    rw [posted_cons]
    split
    · rename_i hc
      have hone : Lasts id [m] :=
        ⟨fun hm => hlasts.1 (by simp_all), fun hm => hlasts.2 (by simp_all)⟩
      obtain ⟨hg, hd⟩ := a.post_still hone hc (hs m (by simp))
      exact ⟨(hrest _).1.trans hg, (hrest _).2.trans hd⟩
    · exact hrest a

/-- The generation does not go down, and it has gone up if the topic is demanded again or was
shifted. -/
theorem posted_rises (a : Account) (hlasts : Lasts id marks) :
    a.generation ≤ (a.posted id key marks).generation ∧
      ((a.demanded = false ∨ ∃ m ∈ marks, m.shifts id key = true) →
        (a.posted id key marks).demanded = true →
          a.generation < (a.posted id key marks).generation) := by
  induction marks generalizing a with
  | nil =>
    refine ⟨le_refl _, fun hwhy hd => ?_⟩
    rcases hwhy with hn | ⟨m, hm, -⟩
    · rw [posted_nil, hn] at hd
      cases hd
    · cases hm
  | cons m marks ih =>
    rw [posted_cons]
    cases hs : m.shifts id key with
    | true =>
      obtain ⟨hc, hpost⟩ := a.post_shifted hs
      rw [if_pos hc]
      obtain ⟨hle, hlt⟩ := ih (a.post m) hlasts.tail
      rcases hpost with hg | ⟨hg, hd⟩
      · exact ⟨by omega, fun _ _ => by omega⟩
      · exact ⟨by omega, fun _ hdem => hg ▸ hlt (.inl hd) hdem⟩
    | false =>
      have hsame : (if m.concerns id key then a.post m else a).generation = a.generation ∧
          (if m.concerns id key then a.post m else a).demanded = a.demanded := by
        split
        · rename_i hc
          have hone : Lasts id [m] :=
            ⟨fun hm => hlasts.1 (by simp_all), fun hm => hlasts.2 (by simp_all)⟩
          exact a.post_still hone hc hs
        · exact ⟨rfl, rfl⟩
      obtain ⟨hle, hlt⟩ := ih (if m.concerns id key then a.post m else a) hlasts.tail
      rw [hsame.1] at hle hlt
      rw [hsame.2] at hlt
      refine ⟨hle, fun hwhy hdem => hlt ?_ hdem⟩
      rcases hwhy with hn | ⟨m', hm', hs'⟩
      · exact .inl hn
      · rcases List.mem_cons.mp hm' with rfl | hm'
        · rw [hs] at hs'
          cases hs'
        · exact .inr ⟨m', hm', hs'⟩

end Account

/-! ## Sessions that last -/

variable {i₀ i i' : Inner}

/-- Every session of `i'` comes from one of `i` with the same topics. -/
def Recedes (i i' : Inner) : Prop :=
  ∀ id s', i'.sessions.get? id = some s' → ∃ s, i.sessions.get? id = some s ∧
    ∀ key, s'.topics.contains key = s.topics.contains key

/-- The sessions that have not started since `i₀` were there with the same topics. -/
def Lasting (i₀ i : Inner) : Prop :=
  ∃ marks, i.history = i₀.history ++ marks ∧ ∀ id s, i.sessions.get? id = some s →
    .started id ∉ marks → ∃ s₀, i₀.sessions.get? id = some s₀ ∧
      ∀ key, s.topics.contains key = s₀.topics.contains key

theorem Lasting.refl (i : Inner) : Lasting i i :=
  ⟨[], by simp, fun _ s hs _ => ⟨s, hs, fun _ => rfl⟩⟩

theorem Lasting.recedes (h : Lasting i₀ i) (hr : Recedes i i') (hh : i.history <+: i'.history) :
    Lasting i₀ i' := by
  obtain ⟨old, hold, hlast⟩ := h
  obtain ⟨marks, hh⟩ := hh
  refine ⟨old ++ marks, by rw [← hh, hold, List.append_assoc], fun id s' hs' hnot => ?_⟩
  obtain ⟨s, hs, hkeys⟩ := hr id s' hs'
  obtain ⟨s₀, hs₀, hkeys₀⟩ := hlast id s hs fun hm => hnot (List.mem_append_left _ hm)
  exact ⟨s₀, hs₀, fun key => (hkeys key).trans (hkeys₀ key)⟩

theorem recedes_same (h : i'.sessions = i.sessions) : Recedes i i' :=
  fun _ s' hs' => ⟨s', h ▸ hs', fun _ => rfl⟩

theorem close_recedes (e : SubscriptionEnd) (i : Inner) : Recedes i (i.close e) := by
  intro id s' hs'
  rw [Inner.close_get?] at hs'
  obtain ⟨s, hs, rfl⟩ := Option.map_eq_some_iff.mp hs'
  exact ⟨s, hs, fun key => by simp⟩

theorem pass_recedes {p : OrdMap String Session × List Change × Bool} (hp : Inner.Passing i p) :
    Recedes i (i.enter p) := by
  intro id s' hs'
  obtain ⟨now, rfl | rfl⟩ := hp
  · obtain ⟨s, hs, -, hkeys, -⟩ := Inner.pass_get? hs'
    exact ⟨s, hs, hkeys⟩
  · obtain ⟨s, hs, -, hkeys, -⟩ := Inner.pass_get? hs'
    exact ⟨s, hs, hkeys⟩

theorem discard_recedes {ticket : PollTicket} {resets : List TopicRef} {failed : Bool}
    {session : Session} (hd : i.Discards ticket resets failed session) :
    Recedes i (i.discardStored ticket resets failed session) := by
  intro id s' hs'
  rw [(Inner.discard_sweep resets failed hd.found).1, sweep_get?] at hs'
  obtain ⟨s, hs, rfl⟩ := Option.map_eq_some_iff.mp hs'
  exact ⟨s, hs, fun key => by simp⟩

theorem publish_recedes [Postcard] {ticket : PollTicket} {pending : Pending} {deadline : Instant}
    {session : Session} {staged : StagedPublication} (marks : List Mark)
    (hp : i.Publishes ticket pending deadline session staged) :
    Recedes i ((i.put (i.sessions.insert ticket.sessionId
      (Inner.transaction pending session staged i.sequence).1)).record marks) := by
  intro id s' hs'
  simp only [Inner.put, Inner.record, OrdMap.get?_insert] at hs'
  split at hs'
  · rename_i hid
    subst hid
    cases hs'
    exact ⟨session, hp.found, Inner.transaction_contains hp.prepared i.sequence⟩
  · exact ⟨s', hs', fun _ => rfl⟩

theorem lasting_effects [Postcard] (i₀ : Inner) (J : String → Prop) : Effects J (Lasting i₀) where
  quiet hq h := h.recedes (recedes_same hq.sessions) (hq.history ▸ List.prefix_refl _)
  close e h := h.recedes (close_recedes e _) (List.prefix_append _ _)
  pass hp h _ := h.recedes (pass_recedes hp) (List.prefix_append _ _)
  halt e hp h := (h.recedes (pass_recedes hp) (List.prefix_append _ _)).recedes
    (close_recedes e _) (List.prefix_append _ _)
  discard hd h := h.recedes (discard_recedes hd) (List.prefix_append _ _)
  publish hp h := h.recedes (publish_recedes _ hp) (List.prefix_append _ _)
  ended _ _ h := by
    refine h.recedes (fun id s' hs' => ?_) (List.prefix_append _ _)
    simp only [Inner.put, Inner.record, OrdMap.get?_erase] at hs'
    split at hs'
    · cases hs'
    · exact ⟨s', hs', fun _ => rfl⟩
  started {i p info} _ _ _ _ h := by
    obtain ⟨old, hold, hlast⟩ := h
    refine ⟨old ++ [.started info.session.sessionId], by
      simp [Inner.stored, Inner.put, Inner.record, hold], fun id s hs hnot => ?_⟩
    simp only [Inner.stored, Inner.put, Inner.record, OrdMap.get?_insert] at hs
    split at hs
    · rename_i hid
      exact absurd (List.mem_append_right _ (by simp [hid])) hnot
    · exact hlast id s hs fun hm => hnot (List.mem_append_left _ hm)

theorem Lasting.trans {j : Inner} (h : Lasting i₀ i) (h' : Lasting i j) : Lasting i₀ j := by
  obtain ⟨old, hold, hlast⟩ := h
  obtain ⟨marks, hm, hlast'⟩ := h'
  refine ⟨old ++ marks, by rw [hm, hold, List.append_assoc], fun id s hs hnot => ?_⟩
  obtain ⟨s', hs', hkeys'⟩ := hlast' id s hs fun hm => hnot (List.mem_append_right _ hm)
  obtain ⟨s₀, hs₀, hkeys⟩ := hlast id s' hs' fun hm => hnot (List.mem_append_left _ hm)
  exact ⟨s₀, hs₀, fun key => (hkeys' key).trans (hkeys key)⟩

/-! ## Two states of a run -/

/-- Two states of a run of a new service, also halfway through an operation, and what happened
between them. -/
structure Leads (i j : Inner) (marks : List Mark) : Prop where
  history : j.history = i.history ++ marks
  lasting : Lasting i j
  accounted : Accounted i ∧ Accounted j
  counted : Counted i ∧ Counted j

namespace Leads

variable {j k : Inner} {marks marks' : List Mark} {id : String}

theorem trans (h : Leads i j marks) (h' : Leads j k marks') : Leads i k (marks ++ marks') where
  history := by rw [h'.history, h.history, List.append_assoc]
  lasting := h.lasting.trans h'.lasting
  accounted := ⟨h.accounted.1, h'.accounted.2⟩
  counted := ⟨h.counted.1, h'.counted.2⟩

/-- A service that is open was open before. -/
theorem running (h : Leads i j marks) (hopen : j.stopped = false) : i.stopped = false := by
  by_contra hstop
  have hmem := h.counted.1.closed.mpr (by simpa using hstop)
  rw [h.counted.2.closed.mp (h.history ▸ List.mem_append_left _ hmem)] at hopen
  cases hopen

/-- A session that has not started was there before. -/
theorem contains (h : Leads i j marks) (hnot : .started id ∉ marks)
    (hc : j.sessions.contains id = true) : i.sessions.contains id = true := by
  obtain ⟨s, hs⟩ := OrdMap.contains_iff.mp hc
  obtain ⟨marks', hm', hlast⟩ := h.lasting
  obtain rfl : marks = marks' := List.append_cancel_left (h.history.symm.trans hm')
  obtain ⟨s₀, hs₀, -⟩ := hlast id s hs hnot
  exact OrdMap.contains_iff.mpr ⟨s₀, hs₀⟩

/-- A part of a run at whose end a session is there that has not started in it. -/
theorem between (h : Leads i j marks) (hopen : j.stopped = false) (hnot : .started id ∉ marks)
    (hc : j.sessions.contains id = true) : Between id i j marks := by
  refine ⟨h.history, h.accounted.1, h.accounted.2, h.running hopen, hopen, hnot, ?_, fun hmem => ?_⟩
  · have h₁ := h.counted.1.count id
    have h₂ := h.counted.2.count id
    rw [h.history, List.count_append, List.count_append, List.count_eq_zero_of_not_mem hnot, hc] at h₂
    rw [h.contains hnot hc] at h₁
    exact List.count_eq_zero.mp (by omega)
  · rw [h.counted.2.closed.mp (h.history ▸ List.mem_append_right _ hmem)] at hopen
    cases hopen

/-- What a run does to a service. -/
theorem run [Postcard] [SerdeJson] {manifests : List ProviderSdk.ProviderManifest} {runId : String}
    {messageBytes : Nat} (hnew : ServiceState.new manifests runId messageBytes = .ok i₀)
    (ops ops' : List Op) :
    ∃ marks, Leads (Service.run i₀ ops) (Service.run (Service.run i₀ ops) ops') marks := by
  have hlasting : Lasting (Service.run i₀ ops) (Service.run (Service.run i₀ ops) ops') :=
    Runs.run_invariant (I := Lasting (Service.run i₀ ops)) (G := fun _ => True)
      (fun _ _ _ h => (lasting_effects _ _).step h) (fun _ _ => trivial) (.refl _)
  obtain ⟨marks, hm, -⟩ := id hlasting
  refine ⟨marks, hm, hlasting, ⟨run_accounted hnew ops, ?_⟩,
    run_counted (new_counted hnew) ops, run_counted (run_counted (new_counted hnew) ops) ops'⟩
  rw [← run_append]
  exact run_accounted hnew (ops ++ ops')

/-- What `settle` does to an open service. -/
theorem settle [Postcard] (h : Leads i j marks) (hopen : j.stopped = false) (now : Instant) :
    ∃ marks, Leads j (j.settle now) marks := by
  have hlasting := (lasting_effects j fun _ => True).announced.settle now (.refl j)
  obtain ⟨marks, hm, hmatch⟩ := (posted_effects j fun _ => True).announced.settle now (.refl j)
  refine ⟨marks, hm, hlasting, ⟨h.accounted.2, fun hopen' id s key t hs ht => ?_⟩, h.counted.2,
    (counted_lives fun _ => True).effects.announced.settle now h.counted.2⟩
  rw [hm, account, Account.posted_append, ← account]
  exact hmatch hopen' id s key t hs ht _ fun s₀ t₀ hs₀ ht₀ =>
    h.accounted.2 hopen id s₀ key t₀ hs₀ ht₀

end Leads

namespace Between

variable {id : String} {j : Inner} {marks : List Mark} {key : TopicRef}

/-- The account of a topic goes on with the marks in between. -/
theorem account_eq (h : Between id i j marks) (key : TopicRef) :
    account id key j.history = (account id key i.history).posted id key marks := by
  rw [h.history, account, Account.posted_append, ← account]

/-- Without a shift, a topic is demanded as before. -/
theorem still (h : Between id i j marks) (hl : Lasting i j) (hc : j.sessions.contains id = true)
    (hs : ∀ m ∈ marks, m.shifts id key = false) : j.demandedAt id key = i.demandedAt id key := by
  obtain ⟨s', hs'⟩ := OrdMap.contains_iff.mp hc
  obtain ⟨marks', hm', hlast⟩ := hl
  obtain rfl : marks = marks' := List.append_cancel_left (h.history.symm.trans hm')
  obtain ⟨s, hsess, hkeys⟩ := hlast id s' hs' h.lasted.1
  have hkey := hkeys key
  unfold Inner.demandedAt
  rw [hsess, hs', Option.bind_some, Option.bind_some]
  cases ht : s.topics.get? key with
  | none =>
    cases ht' : s'.topics.get? key with
    | none => rfl
    | some t' => simp [OrdMap.contains, ht, ht'] at hkey
  | some t =>
    cases ht' : s'.topics.get? key with
    | none => simp [OrdMap.contains, ht, ht'] at hkey
    | some t' =>
      have h₁ := h.before h.running id s key t hsess ht
      have h₂ := h.after h.open_ id s' key t' hs' ht'
      rw [h.account_eq] at h₂
      obtain ⟨hg, hd⟩ := (account id key i.history).posted_still ⟨h.lasted.1, h.lasted.2.1⟩ hs
      have hgen : t'.state.generation = t.state.generation := by
        rw [h₂.generation, hg, h₁.generation]
      have hdem : t'.demanded = t.demanded := by rw [h₂.demanded, hd, h₁.demanded]
      simp [Option.filter, hgen, hdem]

/-- A topic that was shifted and is demanded is in a higher generation. -/
theorem shifted (h : Between id i j marks) (hs : ∃ m ∈ marks, m.shifts id key = true) {g g' : Nat}
    (hg : i.demandedAt id key = some g) (hg' : j.demandedAt id key = some g') : g < g' := by
  obtain ⟨s, t, hsess, ht, -, rfl⟩ := Inner.demandedAt_eq_some.mp hg
  obtain ⟨s', t', hsess', ht', hd', rfl⟩ := Inner.demandedAt_eq_some.mp hg'
  have h₁ := h.before h.running id s key t hsess ht
  have h₂ := h.after h.open_ id s' key t' hsess' ht'
  rw [h.account_eq] at h₂
  have hlt := ((account id key i.history).posted_rises ⟨h.lasted.1, h.lasted.2.1⟩).2 (.inr hs)
    (by rw [← h₂.demanded]; exact hd')
  rw [h₁.generation, h₂.generation]
  exact hlt

end Between

end Service
end WfObserver
