import WfObserver.Service.Discard

/-!
# The invariant of the stored topics

`TopicOk` relates the fields of one topic: demand, health, freshness deadline and snapshot. Every
step on a topic keeps it (`reconcile_ok`, `lapse_ok`, `discard_ok`, `settled_ok`). A pass that stops
halfway leaves topics that are only `TopicOwned`, and the `close` that follows repairs them
(`TopicOwned.shut`).

`StoreOk` is the invariant of the whole store; `StoreOk.step` and `run_storeOk` are its step and run
lemmas.
-/

namespace WfObserver
namespace Service

open Wire
open ProviderSdk (ProviderManifest)

/-! ## The steps on one topic -/

namespace Topic

/-- The topic is demanded again. -/
def resumed (now : Instant) (t : Topic) : Topic where
  state := { t.state with
    generation := t.state.generation + 1, health := .initializing, snapshot := none }
  demanded := true
  epoch := t.epoch + 1
  deadline := some (now + pollGrace)

/-- The topic is no longer demanded. -/
def idled (t : Topic) : Topic where
  state := { t.state with health := .idle, snapshot := none }
  demanded := false
  epoch := t.epoch + 1
  deadline := none

/-- The topic's deadline has passed. -/
def lapsed (t : Topic) : Topic where
  state := { t.state with health := overdue, snapshot := none }
  demanded := t.demanded
  epoch := t.epoch + 1
  deadline := none

def due (now : Instant) (t : Topic) : Bool := t.deadline.any fun deadline => decide (now ≥ deadline)

variable (id : String) (key : TopicRef) (d : Bool) (now : Instant) (t : Topic)

/-- What `settle` does to a topic. -/
theorem reconcile_cases :
    (t.demanded = d ∧ t.reconcile id key d now = (t, [], false)) ∨
    (t.demanded = false ∧ d = true ∧ t.reconcile id key d now = (t.resumed now,
      [⟨.toggled id key true, .topicReset t.state.source (t.state.generation + 1) .demandResumed⟩],
      false)) ∨
    (t.demanded = true ∧ d = false ∧ t.reconcile id key d now =
      (t.idled, [⟨.toggled id key false, .topicChanged t.idled.state⟩], false)) ∨
    ∃ t', t.reconcile id key d now = (t', [], true) ∧ t'.state.source = t.state.source ∧
      t'.state.generation = t.state.generation := by
  by_cases hd : t.demanded = d
  · exact .inl ⟨hd, if_pos (by rw [hd, beq_self_eq_true])⟩
  have hd' : (d == t.demanded) = false := beq_eq_false_iff_ne.mpr (Ne.symm hd)
  cases he : checkedAdd t.epoch 1 with
  | none => exact .inr (.inr (.inr ⟨{ t with demanded := d }, by simp [reconcile, hd', he], rfl, rfl⟩))
  | some e =>
    obtain ⟨rfl, -⟩ := checkedAdd_eq_some.mp he
    cases d with
    | false =>
      have hdem : t.demanded = true := by simpa using hd
      exact .inr (.inr (.inl ⟨hdem, rfl, by simp [reconcile, hdem, he, idled]⟩))
    | true =>
      have hdem : t.demanded = false := by simpa using hd
      cases hg : checkedAdd t.state.generation 1 with
      | none =>
        refine .inr (.inr (.inr ⟨⟨{ t.state with snapshot := none }, true, t.epoch + 1,
          some (now + pollGrace)⟩, ?_, rfl, rfl⟩))
        simp [reconcile, hdem, he, hg]
      | some g =>
        obtain ⟨rfl, -⟩ := checkedAdd_eq_some.mp hg
        exact .inr (.inl ⟨hdem, rfl, by simp [reconcile, hdem, he, hg, resumed]⟩)

/-- What `expire` does to a topic. -/
theorem lapse_cases :
    (t.due now = false ∧ t.lapse id key now = (t, [], false)) ∨
    (t.due now = true ∧ t.lapse id key now =
      (t.lapsed, [⟨.expired id key, .topicChanged t.lapsed.state⟩], false)) ∨
    ∃ t', t.lapse id key now = (t', [], true) ∧ t'.state.source = t.state.source ∧
      t'.state.generation = t.state.generation := by
  cases hd : t.due now with
  | false => exact .inl ⟨rfl, if_neg (by simpa [due] using hd)⟩
  | true =>
    have hd' : (t.deadline.any fun deadline => decide (now ≥ deadline)) = true := hd
    cases he : checkedAdd t.epoch 1 with
    | none =>
      exact .inr (.inr ⟨{ t with deadline := none }, by simp only [lapse, hd', he, if_true], rfl, rfl⟩)
    | some e =>
      obtain ⟨rfl, -⟩ := checkedAdd_eq_some.mp he
      exact .inr (.inl ⟨rfl, by simp only [lapse, hd', he, if_true, lapsed]⟩)

end Topic

/-! ## One topic -/

/-- The provider declares the topic. -/
def declares (p : ProviderDescriptor) (key : TopicRef) : Prop :=
  p.id = key.providerId ∧
    ∃ cap ∈ p.capabilities, cap.topic = key.topic ∧ cap.schemaVersion = key.schemaVersion

/-- The topic's capability publishes snapshots. -/
def publishes (c : Catalog) (key : TopicRef) : Prop :=
  ∃ p ∈ c.providers, p.id = key.providerId ∧ ∃ cap ∈ p.capabilities,
    cap.topic = key.topic ∧ cap.schemaVersion = key.schemaVersion ∧ cap.snapshots = true

/-- What every topic of a session satisfies, also halfway through a pass. -/
structure TopicOwned (info : SessionInfo) (key : TopicRef) (t : Topic) : Prop where
  source : t.state.source = ⟨info.session, info.gameId, key⟩
  generation : 0 < t.state.generation

/-- The invariant of a topic when the service is at sequence `n`. -/
structure TopicOk (c : Catalog) (n : Nat) (info : SessionInfo) (key : TopicRef) (t : Topic) : Prop
    extends TopicOwned info key t where
  idle : t.state.health = .idle ↔ t.demanded = false
  deadline : t.deadline.isSome ↔ t.state.health = .initializing ∨ t.state.health = .available
  snapshot : t.state.snapshot.isSome ↔ t.state.health = .available ∧ publishes c key
  envelope : ∀ d, t.state.snapshot = some d → d.metadata.source = t.state.source ∧
    d.metadata.generation = t.state.generation ∧ 0 < d.metadata.sequence ∧ d.metadata.sequence ≤ n

variable {c : Catalog} {n : Nat} {info : SessionInfo} {key : TopicRef} {t : Topic}

theorem TopicOk.mono {m : Nat} (h : TopicOk c n info key t) (hm : n ≤ m) :
    TopicOk c m info key t where
  toTopicOwned := h.toTopicOwned
  idle := h.idle
  deadline := h.deadline
  snapshot := h.snapshot
  envelope d hd := by
    obtain ⟨h₁, h₂, h₃, h₄⟩ := h.envelope d hd
    exact ⟨h₁, h₂, h₃, h₄.trans hm⟩

/-- A topic without data: its demand, health and deadline decide the invariant. -/
theorem TopicOwned.bare (h : TopicOwned info key t) (hs : t.state.snapshot = none)
    (hav : t.state.health = .available → ¬publishes c key)
    (hidle : t.state.health = .idle ↔ t.demanded = false)
    (hdl : t.deadline.isSome ↔ t.state.health = .initializing ∨ t.state.health = .available) :
    TopicOk c n info key t where
  toTopicOwned := h
  idle := hidle
  deadline := hdl
  snapshot := by
    rw [hs]
    simp only [Option.isSome_none, Bool.false_eq_true, false_iff, not_and]
    exact hav
  envelope d hd := by rw [hs] at hd; cases hd

/-- `close` repairs every topic. -/
theorem TopicOwned.shut (h : TopicOwned info key t) : TopicOk c n info key t.shut :=
  TopicOwned.bare ⟨h.source, h.generation⟩ rfl (by simp [Topic.shut]) (by simp [Topic.shut])
    (by simp [Topic.shut])

theorem reconcile_owned (h : TopicOwned info key t) (id : String) (d : Bool) (now : Instant) :
    TopicOwned info key (t.reconcile id key d now).1 := by
  rcases t.reconcile_cases id key d now with ⟨-, he⟩ | ⟨-, -, he⟩ | ⟨-, -, he⟩ | ⟨t', he, hs, hg⟩ <;>
    rw [he]
  · exact h
  · exact ⟨h.source, Nat.succ_pos _⟩
  · exact ⟨h.source, h.generation⟩
  · exact ⟨hs.trans h.source, hg ▸ h.generation⟩

theorem reconcile_ok (h : TopicOk c n info key t) (id : String) (d : Bool) (now : Instant)
    (hgo : (t.reconcile id key d now).2.2 = false) :
    TopicOk c n info key (t.reconcile id key d now).1 := by
  have hown := reconcile_owned h.toTopicOwned id d now
  rcases t.reconcile_cases id key d now with ⟨-, he⟩ | ⟨-, -, he⟩ | ⟨-, -, he⟩ | ⟨t', he, -⟩ <;>
    rw [he] at hown hgo ⊢
  · exact h
  · exact hown.bare rfl (by simp [Topic.resumed]) (by simp [Topic.resumed]) (by simp [Topic.resumed])
  · exact hown.bare rfl (by simp [Topic.idled]) (by simp [Topic.idled]) (by simp [Topic.idled])
  · cases hgo

theorem lapse_owned (h : TopicOwned info key t) (id : String) (now : Instant) :
    TopicOwned info key (t.lapse id key now).1 := by
  rcases t.lapse_cases id key now with ⟨-, he⟩ | ⟨-, he⟩ | ⟨t', he, hs, hg⟩ <;> rw [he]
  · exact h
  · exact ⟨h.source, h.generation⟩
  · exact ⟨hs.trans h.source, hg ▸ h.generation⟩

/-- Only a demanded topic has a deadline. -/
theorem TopicOk.demanded_of_due (h : TopicOk c n info key t) {now : Instant}
    (hd : t.due now = true) : t.demanded = true := by
  have hdl : t.deadline.isSome := by
    obtain ⟨x, hx, -⟩ := (Option.any_eq_true _ _).mp hd
    simp [hx]
  by_contra hn
  have hidle := h.idle.mpr (by simpa using hn)
  have := h.deadline.mp hdl
  rw [hidle] at this
  simp at this

theorem lapse_ok (h : TopicOk c n info key t) (id : String) (now : Instant)
    (hgo : (t.lapse id key now).2.2 = false) : TopicOk c n info key (t.lapse id key now).1 := by
  have hown := lapse_owned h.toTopicOwned id now
  rcases t.lapse_cases id key now with ⟨-, he⟩ | ⟨hd, he⟩ | ⟨t', he, -⟩ <;> rw [he] at hown hgo ⊢
  · exact h
  · have hdem := h.demanded_of_due hd
    exact hown.bare rfl (by simp [Topic.lapsed, Topic.overdue])
      (by simp [Topic.lapsed, Topic.overdue, hdem]) (by simp [Topic.lapsed, Topic.overdue])
  · cases hgo

theorem discard_ok (h : TopicOwned info key t) (hdem : t.demanded = true) (id : String)
    (reset : Bool) : TopicOk c n info key (t.discard id key reset).1 := by
  cases reset with
  | false =>
    exact TopicOwned.bare ⟨h.source, h.generation⟩ rfl (by simp [Topic.discard, discarded])
      (by simp [Topic.discard, discarded, hdem]) (by simp [Topic.discard, discarded])
  | true =>
    exact TopicOwned.bare ⟨h.source, Nat.succ_pos _⟩ rfl (by simp [Topic.discard, discarded])
      (by simp [Topic.discard, discarded, hdem]) (by simp [Topic.discard, discarded])

/-! ## Staged topics -/

/-- The invariant of a staged copy. Its new snapshot has no sequence yet, and an Available
capability may still be waiting for its snapshot. -/
structure StagedOk (c : Catalog) (info : SessionInfo) (key : TopicRef) (t : Topic) : Prop
    extends TopicOwned info key t where
  demanded : t.demanded = true
  idle : t.state.health ≠ .idle
  deadline : t.deadline.isSome ↔ t.state.health = .initializing ∨ t.state.health = .available
  snapshot : t.state.snapshot.isSome → t.state.health = .available ∧ publishes c key
  envelope : ∀ d, t.state.snapshot = some d → d.metadata.source = t.state.source ∧
    d.metadata.generation = t.state.generation

theorem TopicOk.staged (h : TopicOk c n info key t) (hd : t.demanded = true) :
    StagedOk c info key t where
  toTopicOwned := h.toTopicOwned
  demanded := hd
  idle he := by rw [h.idle.mp he] at hd; cases hd
  deadline := h.deadline
  snapshot := h.snapshot.mp
  envelope d hs := ⟨(h.envelope d hs).1, (h.envelope d hs).2.1⟩

theorem declared_publishes [SerdeJson] {manifests : List ProviderManifest} {m : ProviderManifest}
    {payload : JsonPayload} (hr : Registered manifests c) (hm : m ∈ manifests)
    (h : (Operation.snapshot key payload).Declared m) : publishes c key := by
  obtain ⟨cap, hcap, hk, hs, -⟩ := h
  refine ⟨publicProvider m, ?_, ?_, publicCapability cap, List.mem_map.mpr ⟨cap, hcap, rfl⟩, ?_⟩
  · rw [hr.providers]; exact List.mem_map.mpr ⟨m, hm, rfl⟩
  · have := congrArg TopicRef.providerId hk
    exact this.symm
  · have h₁ := congrArg TopicRef.topic hk
    have h₂ := congrArg TopicRef.schemaVersion hk
    exact ⟨h₁.symm, h₂.symm, hs⟩

/-- Each operation of a batch keeps the invariant of the staged copy. -/
theorem stageTopic_ok [SerdeJson] {manifests : List ProviderManifest} {m : ProviderManifest}
    {deadline : Instant} {op : Operation} {t' : Topic} (hr : Registered manifests c)
    (hm : m ∈ manifests) (hop : op.Declared m) (hk : op.key = key) (h : StagedOk c info key t)
    (hs : StagedPublication.stageTopic deadline op t = .ok t') : StagedOk c info key t' := by
  cases op with
  | reset k =>
    simp only [StagedPublication.stageTopic] at hs
    split at hs
    · cases hs
    rename_i g hg
    split at hs
    · cases hs
    obtain ⟨rfl, -⟩ := checkedAdd_eq_some.mp hg
    cases hs
    exact ⟨⟨h.source, Nat.succ_pos _⟩, h.demanded, by simp, by simp, by simp, by simp⟩
  | snapshot k payload =>
    have hk : k = key := hk
    subst hk
    cases hs
    refine ⟨⟨h.source, h.generation⟩, h.demanded, by simp, by simp,
      fun _ => ⟨rfl, declared_publishes hr hm hop⟩, ?_⟩
    intro d hd
    cases hd
    exact ⟨rfl, rfl⟩
  | event k payload => cases hs; exact h
  | health k value =>
    obtain ⟨-, -, -, hi, hn⟩ := hop
    cases hs
    by_cases hv : value = .available
    · subst hv
      exact ⟨⟨h.source, h.generation⟩, h.demanded, by simp, by simp,
        fun hs => ⟨rfl, (h.snapshot hs).2⟩, h.envelope⟩
    · refine ⟨⟨h.source, h.generation⟩, h.demanded, hi, ?_, ?_, ?_⟩
      · simp [hv, hn]
      · simp [hv]
      · simp [hv]

/-- What `commit` stores of a staged copy that `validate` accepted. -/
theorem settled_ok {old : Topic} {m N : Nat} (hold : TopicOk c n info key old)
    (h : StagedOk c info key t)
    (hv : t.state.health = .available → publishes c key → t.state.snapshot.isSome) (hn : n ≤ N)
    (hm : StagedPublication.changed old.state t.state = true → m + 1 ≤ N) : TopicOk c N info key (StagedPublication.settled old.state (m + 1) t) := by
  unfold StagedPublication.settled
  cases hc : StagedPublication.changed old.state t.state with
  | true =>
    simp only [if_true]
    refine ⟨⟨h.source, h.generation⟩, ?_, h.deadline, ?_, ?_⟩
    · simp [h.idle, h.demanded]
    · rw [Option.isSome_map]
      exact ⟨h.snapshot, fun ⟨h₁, h₂⟩ => hv h₁ h₂⟩
    · intro d hd
      obtain ⟨d₀, hd₀, rfl⟩ := Option.map_eq_some_iff.mp hd
      obtain ⟨h₁, h₂⟩ := h.envelope d₀ hd₀
      exact ⟨h₁, h₂, Nat.succ_pos _, hm hc⟩
  | false =>
    -- An unchanged topic keeps the old envelope, and it agrees with the new state.
    obtain ⟨⟨hgen, hhealth⟩, hdata⟩ : (old.state.generation = t.state.generation ∧
        old.state.health = t.state.health) ∧
        old.state.snapshot.map (·.payload) = t.state.snapshot.map (·.payload) := by
      simpa [StagedPublication.changed] using hc
    have hsome : old.state.snapshot.isSome = t.state.snapshot.isSome := by
      have := congrArg Option.isSome hdata
      simpa using this
    simp only [Bool.false_eq_true, if_false]
    refine ⟨⟨h.source, h.generation⟩, ?_, h.deadline, ?_, ?_⟩
    · simp [h.idle, h.demanded]
    · rw [hsome]
      exact ⟨h.snapshot, fun ⟨h₁, h₂⟩ => hv h₁ h₂⟩
    · intro d hd
      obtain ⟨h₁, h₂, h₃, h₄⟩ := hold.envelope d hd
      refine ⟨?_, h₂.trans hgen, h₃, h₄.trans hn⟩
      rw [h₁, hold.source]
      exact h.source.symm

end Service
end WfObserver
