import WfObserver.Service.Demand
import WfObserver.Service.Fencing
import WfObserver.Service.Setup

/-!
# The counters

The sequence, the generations and the epochs go up and stop at `u64Max`: an operation that needs one
more closes the service instead. `Rises` is what every step does to a topic's counters, `Course` what
every operation does to the service: if it closes it, there is a moment of the close at which a counter
is too short, and after which nothing happens any more.
-/

namespace WfObserver
namespace Service

open Wire Protocol
open ProviderSdk (ProviderManifest)

/-! ## The counters of a topic -/

/-- The counters do not go down, and do not pass the bound. -/
structure Topic.Rises (t t' : Topic) : Prop where
  generation : t.state.generation ≤ t'.state.generation
  epoch : t.epoch ≤ t'.epoch
  generationMax : t.state.generation ≤ u64Max → t'.state.generation ≤ u64Max
  epochMax : t.epoch ≤ u64Max → t'.epoch ≤ u64Max

namespace Topic

variable {t t' t'' : Topic}

theorem Rises.same (hg : t'.state.generation = t.state.generation) (he : t'.epoch = t.epoch) :
    Rises t t' := ⟨hg.ge, he.ge, fun h => hg ▸ h, fun h => he ▸ h⟩

theorem Rises.refl (t : Topic) : Rises t t := .same rfl rfl

theorem Rises.trans (h : Rises t t') (h' : Rises t' t'') : Rises t t'' :=
  ⟨h.generation.trans h'.generation, h.epoch.trans h'.epoch, h'.generationMax ∘ h.generationMax,
    h'.epochMax ∘ h.epochMax⟩

/-- One more epoch, and perhaps one more generation. -/
theorem Rises.next (he : t'.epoch = t.epoch + 1) (hroom : t.epoch + 1 ≤ u64Max)
    (hg : t'.state.generation = t.state.generation ∨
      t'.state.generation = t.state.generation + 1 ∧ t.state.generation + 1 ≤ u64Max) :
    Rises t t' := by
  refine ⟨?_, by omega, ?_, fun _ => he ▸ hroom⟩ <;> rcases hg with hg | ⟨hg, hmax⟩ <;> omega

theorem reconcile_rises (id : String) (key : TopicRef) (d : Bool) (now : Instant) (t : Topic) :
    Rises t (t.reconcile id key d now).1 := by
  unfold reconcile
  split
  · exact .refl t
  dsimp only
  split
  · exact .same rfl rfl
  rename_i epoch he
  obtain ⟨rfl, hroom⟩ := checkedAdd_eq_some.mp he
  split
  · split
    · exact .next rfl hroom (.inl rfl)
    · rename_i generation hg
      obtain ⟨rfl, hmax⟩ := checkedAdd_eq_some.mp hg
      exact .next rfl hroom (.inr ⟨rfl, hmax⟩)
  · exact .next rfl hroom (.inl rfl)

theorem lapse_rises (id : String) (key : TopicRef) (now : Instant) (t : Topic) :
    Rises t (t.lapse id key now).1 := by
  unfold lapse
  split
  · dsimp only
    split
    · exact .same rfl rfl
    · rename_i epoch he
      obtain ⟨rfl, hroom⟩ := checkedAdd_eq_some.mp he
      exact .next rfl hroom (.inl rfl)
  · exact .refl t

theorem discard_rises (id : String) (key : TopicRef) {reset : Bool} (t : Topic)
    (h : reset = true → t.spent = false) : Rises t (t.discard id key reset).1 := by
  cases reset with
  | false => exact .same rfl rfl
  | true =>
    obtain ⟨hg, he⟩ : t.state.generation ≠ u64Max ∧ t.epoch ≠ u64Max := by
      simpa [spent] using h rfl
    refine ⟨Nat.le_succ _, Nat.le_succ _, fun h => ?_, fun h => ?_⟩
    · exact lt_of_le_of_ne h hg
    · exact lt_of_le_of_ne h he

end Topic

theorem stageTopic_rises {deadline : Instant} {op : Operation} {t t' : Topic}
    (h : StagedPublication.stageTopic deadline op t = .ok t') : t.Rises t' := by
  cases op with
  | reset k =>
    simp only [StagedPublication.stageTopic] at h
    split at h
    · cases h
    rename_i g hg
    split at h
    · cases h
    rename_i e he
    obtain ⟨rfl, hmax⟩ := checkedAdd_eq_some.mp hg
    obtain ⟨rfl, hroom⟩ := checkedAdd_eq_some.mp he
    cases h
    exact .next rfl hroom (.inr ⟨rfl, hmax⟩)
  | _ =>
    cases h
    exact .same rfl rfl

/-! ## The counters of all topics -/

/-- Every topic of `i'` comes from one of `i`. -/
def Descends (i i' : Inner) : Prop :=
  ∀ id s' key t', i'.sessions.get? id = some s' → s'.topics.get? key = some t' →
    ∃ s t, i.sessions.get? id = some s ∧ s.topics.get? key = some t ∧ t.Rises t'

variable {i i' i₀ : Inner}

theorem descends_same (h : i'.sessions = i.sessions) : Descends i i' :=
  fun _ s' _ t' hs' ht' => ⟨s', t', h ▸ hs', ht', .refl t'⟩

theorem close_descends (e : SubscriptionEnd) (i : Inner) : Descends i (i.close e) := by
  intro id s' key t' hs' ht'
  rw [Inner.close_get?] at hs'
  obtain ⟨s, hs, rfl⟩ := Option.map_eq_some_iff.mp hs'
  rw [OrdMap.get?_map] at ht'
  obtain ⟨t, ht, rfl⟩ := Option.map_eq_some_iff.mp ht'
  exact ⟨s, t, hs, ht, .same rfl rfl⟩

theorem pass_descends {p : OrdMap String Session × List Change × Bool} (hp : Inner.Passing i p) :
    Descends i (i.enter p) := by
  have key : ∀ f : String → Session → TopicRef → Topic → Topic × List Change × Bool,
      (∀ id s key (t : Topic), t.Rises (f id s key t).1) → Descends i (i.enter (Inner.pass f i.sessions)) := by
    intro f hf id s' key t' hs' ht'
    obtain ⟨s, hs, -, -, hkeys⟩ := Inner.pass_get? hs'
    obtain ⟨t, ht, rfl | rfl⟩ := hkeys key t' ht'
    · exact ⟨s, t', hs, ht, .refl t'⟩
    · exact ⟨s, t, hs, ht, hf id s key t⟩
  obtain ⟨now, rfl | rfl⟩ := hp
  · exact key _ fun id s key t => t.reconcile_rises id key _ now
  · exact key _ fun id _ key t => t.lapse_rises id key now

theorem discard_descends {ticket : PollTicket} {resets : List TopicRef} {failed : Bool}
    {session : Session} (hd : i.Discards ticket resets failed session) :
    Descends i (i.discardStored ticket resets failed session) := by
  intro id s' key t' hs' ht'
  rw [(Inner.discard_sweep resets failed hd.found).1, sweep_get?] at hs'
  obtain ⟨s, hs, rfl⟩ := Option.map_eq_some_iff.mp hs'
  rw [OrdMap.get?_map] at ht'
  obtain ⟨t, ht, rfl⟩ := Option.map_eq_some_iff.mp ht'
  refine ⟨s, t, hs, ht, ?_⟩
  unfold Inner.discardSteps Inner.discardedTopic
  split
  · rename_i hid
    subst hid
    obtain rfl : session = s := Option.some.inj (hd.found.symm.trans hs)
    cases ha : (Inner.affected ticket resets failed session).get? key with
    | none => exact .refl t
    | some reset => exact t.discard_rises ticket.sessionId key fun hr => hd.unspent key t (hr ▸ ha) ht
  · exact .refl t

theorem publish_descends [Postcard] {ticket : PollTicket} {pending : Pending}
    {deadline : Instant} {session : Session} {staged : StagedPublication} (marks : List Mark)
    (hp : i.Publishes ticket pending deadline session staged) :
    Descends i ((i.put (i.sessions.insert ticket.sessionId
      (Inner.transaction pending session staged i.sequence).1)).record marks) := by
  intro id s' key t' hs' ht'
  simp only [Inner.put, Inner.record, OrdMap.get?_insert] at hs'
  split at hs'
  · rename_i hid
    subst hid
    cases hs'
    cases hst : staged.topics.get? key with
    | none =>
      rw [Inner.transaction_other _ hst] at ht'
      exact ⟨session, t', hp.found, ht', .refl t'⟩
    | some t =>
      obtain ⟨-, old, hold, hap⟩ := hp.prepared.of_get? hst
      obtain ⟨n, -, hget, -⟩ := Inner.transaction_staged pending i.sequence hst hold ""
      rw [hget] at ht'
      cases ht'
      have hrises : old.Rises t :=
        StagedPublication.applyOps_rule (fun _ _ _ _ _ h hs => h.trans (stageTopic_rises hs))
          (.refl old) hap
      exact ⟨session, old, hp.found, hold, hrises.trans (.same rfl rfl)⟩
  · exact ⟨s', t', hs', ht', .refl t'⟩

/-- No topic's counter is past the bound. -/
def Within (i : Inner) : Prop :=
  ∀ id s key t, i.sessions.get? id = some s → s.topics.get? key = some t →
    t.state.generation ≤ u64Max ∧ t.epoch ≤ u64Max

theorem Within.descends (h : Within i) (hd : Descends i i') : Within i' := by
  intro id s' key t' hs' ht'
  obtain ⟨s, t, hs, ht, hr⟩ := hd id s' key t' hs' ht'
  obtain ⟨hg, he⟩ := h id s key t hs ht
  exact ⟨hr.generationMax hg, hr.epochMax he⟩

/-- The counters of the topics whose session has not started again since `i₀` have not gone down. -/
def Risen (i₀ i : Inner) : Prop :=
  ∃ marks, i.history = i₀.history ++ marks ∧ ∀ id s key t, i.sessions.get? id = some s →
    s.topics.get? key = some t → .started id ∉ marks → ∀ s₀ t₀, i₀.sessions.get? id = some s₀ →
      s₀.topics.get? key = some t₀ → t₀.Rises t

theorem Risen.refl (i : Inner) : Risen i i := by
  refine ⟨[], by simp, fun id s key t hs ht _ s₀ t₀ hs₀ ht₀ => ?_⟩
  obtain rfl : s = s₀ := Option.some.inj (hs.symm.trans hs₀)
  obtain rfl : t = t₀ := Option.some.inj (ht.symm.trans ht₀)
  exact .refl t

theorem Risen.descends (h : Risen i₀ i) (hd : Descends i i') (hh : i.history <+: i'.history) :
    Risen i₀ i' := by
  obtain ⟨old, hold, hrises⟩ := h
  obtain ⟨marks, hh⟩ := hh
  refine ⟨old ++ marks, by rw [← hh, hold, List.append_assoc], ?_⟩
  intro id s' key t' hs' ht' hnot s₀ t₀ hs₀ ht₀
  obtain ⟨s, t, hs, ht, hr⟩ := hd id s' key t' hs' ht'
  exact (hrises id s key t hs ht (fun hm => hnot (List.mem_append_left _ hm)) s₀ t₀ hs₀ ht₀).trans hr

section effects

variable [Postcard]

theorem within_effects (J : String → Prop) : Effects J Within where
  quiet hq h := h.descends (descends_same hq.sessions)
  close e h := h.descends (close_descends e _)
  pass hp h _ := h.descends (pass_descends hp)
  halt e hp h := (h.descends (pass_descends hp)).descends (close_descends e _)
  discard hd h := h.descends (discard_descends hd)
  publish hp h := h.descends (publish_descends _ hp)
  ended _ _ h := by
    intro id s key t hs ht
    simp only [Inner.put, Inner.record, OrdMap.get?_erase] at hs
    split at hs
    · cases hs
    · exact h id s key t hs ht
  started _ _ _ _ h := by
    intro id s key t hs ht
    simp only [Inner.stored, Inner.put, Inner.record, OrdMap.get?_insert] at hs
    split at hs
    · cases hs
      rw [Inner.newTopics_get? ht]
      exact ⟨by simp [Inner.newTopic, u64Max], Nat.zero_le _⟩
    · exact h id s key t hs ht

theorem risen_effects (i₀ : Inner) (J : String → Prop) : Effects J (Risen i₀) where
  quiet hq h := h.descends (descends_same hq.sessions) (hq.history ▸ List.prefix_refl _)
  close e h := h.descends (close_descends e _) (List.prefix_append _ _)
  pass hp h _ := h.descends (pass_descends hp) (List.prefix_append _ _)
  halt e hp h := (h.descends (pass_descends hp) (List.prefix_append _ _)).descends
    (close_descends e _) (List.prefix_append _ _)
  discard hd h := h.descends (discard_descends hd) (List.prefix_append _ _)
  publish hp h := h.descends (publish_descends _ hp) (List.prefix_append _ _)
  ended _ _ h := by
    refine h.descends (fun id s' key t' hs' ht' => ?_) (List.prefix_append _ _)
    simp only [Inner.put, Inner.record, OrdMap.get?_erase] at hs'
    split at hs'
    · cases hs'
    · exact ⟨s', t', hs', ht', .refl t'⟩
  started {i p info} _ _ _ _ h := by
    obtain ⟨old, hold, hrises⟩ := h
    refine ⟨old ++ [.started info.session.sessionId], by
      simp [Inner.stored, Inner.put, Inner.record, hold], ?_⟩
    intro id s key t hs ht hnot s₀ t₀ hs₀ ht₀
    simp only [Inner.stored, Inner.put, Inner.record, OrdMap.get?_insert] at hs
    split at hs
    · rename_i hid
      exact absurd (List.mem_append_right _ (by simp [hid])) hnot
    · exact hrises id s key t hs ht (fun hm => hnot (List.mem_append_left _ hm)) s₀ t₀ hs₀ ht₀

variable [SerdeJson]

theorem run_within (h : Within i) (ops : List Op) : Within (run i ops) :=
  Runs.run_invariant (I := Within) (G := fun _ => True)
    (fun _ _ _ h => (within_effects _).step h) (fun _ _ => trivial) h

theorem run_risen (i : Inner) (ops : List Op) : Risen i (run i ops) :=
  Runs.run_invariant (I := Risen i) (G := fun _ => True)
    (fun _ _ _ h => (risen_effects i _).step h) (fun _ _ => trivial) (.refl i)

end effects

/-! ## The course of an operation -/

/-- A service that was closed for lack of a counter in the state `j`: nothing has happened to the
first `n` subscriptions since. -/
structure ClosedAt (n : Nat) (j i : Inner) : Prop where
  before : j.stopped = false
  stopped : i.stopped = true
  subscribers : i.subscribers = ∅
  channels : ∀ id ≤ n, i.channels.get? id = (j.close Inner.exhausted).channels.get? id
  log : i.log = j.log
  sequence : i.sequence = j.sequence

/-- The steps of an operation on a closed service. -/
structure Dormant (i i' : Inner) : Prop where
  subscribers : i'.subscribers = ∅
  channels : ∀ id ≤ i.nextSubscription, i'.channels.get? id = i.channels.get? id
  log : i'.log = i.log
  sequence : i'.sequence = i.sequence

/-- What the steps of an operation do to the service. -/
structure Course (N : Inner → Prop) (i i' : Inner) : Prop where
  grows : Grows i i'
  /-- A closed service stays as it is. -/
  dormant : i.stopped = true → i.subscribers = ∅ → Dormant i i'
  /-- An open service stays open, or is closed at some moment because a counter is too short. -/
  exhausts : i.stopped = false → i'.stopped = true →
    ∃ j, Grows i j ∧ (j.Starved ∨ N j) ∧ ClosedAt i.nextSubscription j i'
  room : i.sequence ≤ u64Max → i'.sequence ≤ u64Max

/-- Without subscribers nothing is finished. -/
theorem close_channels {i : Inner} (h : i.subscribers = ∅) (e : SubscriptionEnd) :
    (i.close e).channels = i.channels := by
  change i.channels.map (fun id c => if i.subscribers.contains id then c.finish e true else c) = _
  refine OrdMap.map_id fun _ _ _ => ?_
  rw [h]
  rfl

namespace Course

variable {N : Inner → Prop} {k : Inner}

/-- Steps of an open service that stays open. -/
theorem opened (hg : Grows i i') (ho : i.stopped = false) (ho' : i'.stopped = false)
    (hs : i.sequence ≤ u64Max → i'.sequence ≤ u64Max) : Course N i i' where
  grows := hg
  dormant hs := by rw [ho] at hs; cases hs
  exhausts _ hs := by rw [ho'] at hs; cases hs
  room := hs

/-- Steps that neither announce nor close. -/
theorem same (hg : Grows i i') (hstop : i'.stopped = i.stopped)
    (h : i.subscribers = ∅ → i'.subscribers = ∅ ∧ i'.channels = i.channels)
    (hl : i'.log = i.log) (hs : i'.sequence = i.sequence) : Course N i i' where
  grows := hg
  dormant _ hsub := ⟨(h hsub).1, fun _ _ => by rw [(h hsub).2], hl, hs⟩
  exhausts ho hs := by rw [hstop, ho] at hs; cases hs
  room h := hs ▸ h

theorem refl (i : Inner) : Course N i i := same (.refl i) rfl (fun h => ⟨h, rfl⟩) rfl rfl

theorem trans (h : Course N i i') (h' : Course N i' k) : Course N i k where
  grows := h.grows.trans h'.grows
  dormant hstop hsub := by
    have h₁ := h.dormant hstop hsub
    have h₂ := h'.dormant (h.grows.stopped hstop) h₁.subscribers
    refine ⟨h₂.subscribers, fun id hid => ?_, h₂.log.trans h₁.log, h₂.sequence.trans h₁.sequence⟩
    exact (h₂.channels id (hid.trans h.grows.nextSubscription)).trans (h₁.channels id hid)
  exhausts ho hs := by
    cases hj : i'.stopped with
    | false =>
      obtain ⟨m, hm, hshort, hclosed⟩ := h'.exhausts hj hs
      exact ⟨m, h.grows.trans hm, hshort, { hclosed with
        channels := fun id hid => hclosed.channels id (hid.trans h.grows.nextSubscription) }⟩
    | true =>
      -- Closed on the way: the rest of the operation leaves it as it is.
      obtain ⟨m, hm, hshort, hclosed⟩ := h.exhausts ho hj
      have hd := h'.dormant hj hclosed.subscribers
      refine ⟨m, hm, hshort, hclosed.before, hs, hd.subscribers, fun id hid => ?_, hd.log.trans hclosed.log,
        hd.sequence.trans hclosed.sequence⟩
      exact (hd.channels id (hid.trans h.grows.nextSubscription)).trans (hclosed.channels id hid)
  room := h'.room ∘ h.room

theorem stepwise [Postcard] : Stepwise N (Course N) where
  refl := refl
  trans := trans
  close {i} hshort :=
    { grows := .closed i _
      dormant := fun _ h => ⟨rfl, fun _ _ => by rw [close_channels h], rfl, rfl⟩
      exhausts := fun ho _ => ⟨i, .refl i, hshort, ho, rfl, rfl, fun _ _ => rfl, rfl, rfl⟩
      room := id }
  announce i u ho hroom := opened (Grows.stepwise.announce i u ho hroom) ho ho fun _ => hroom
  advance i ho hroom := opened (Grows.stepwise.advance i ho hroom) ho ho fun _ => hroom
  store i sessions marks :=
    same (Grows.stepwise.store i sessions marks) rfl (fun h => ⟨h, rfl⟩) rfl rfl
  revise i revision := same (Grows.stepwise.revise i revision) rfl (fun h => ⟨h, rfl⟩) rfl rfl
  observe i runtime := same (Grows.stepwise.observe i runtime) rfl (fun h => ⟨h, rfl⟩) rfl rfl
  retain i p := same (Grows.stepwise.retain i p) rfl (fun h => ⟨by rw [h]; rfl, rfl⟩) rfl rfl
  release i p := by
    refine same (Grows.stepwise.release i p) rfl (fun h => ⟨?_, ?_⟩) rfl rfl
    · rw [Inner.release, h]
      rfl
    · change i.channels.map (fun id c =>
        if (i.subscribers.get? id).any p then c.finish .sessionEnded false else c) = _
      refine OrdMap.map_id fun _ _ _ => ?_
      rw [h]
      rfl

variable [Postcard]

theorem subscribe (request : Subscribe) (clock : Readings) (pace : Nat → Nat) (i : Inner) :
    Course N i (i.subscribe request clock pace).2 := by
  unfold Inner.subscribe
  split
  · exact refl i
  have he : Course N i (i.expire clock.expire) := stepwise.expire clock.expire i
  dsimp only
  split
  · exact he
  rename_i hstop
  have hopen : (i.expire clock.expire).stopped = false := by simpa using hstop
  split
  · exact he
  split
  · exact he
  split
  · exact he
  rename_i id hid
  obtain ⟨rfl, -⟩ := checkedAdd_eq_some.mp hid
  have hgrows : ∀ j : Inner, Grows j (j.register (j.nextSubscription + 1) request pace) := fun j =>
    { Grows.refl j with nextSubscription := Nat.le_succ _ }
  have hs := he.trans ((opened (hgrows _) hopen hopen fun h => h).trans
    (stepwise.settle clock.settle _))
  have hsettled : Course N _ _ := (opened (hgrows _) hopen hopen fun h => h).trans
    (stepwise.settle clock.settle _)
  generalize hk : ((i.expire clock.expire).register ((i.expire clock.expire).nextSubscription + 1)
    request pace).settle clock.settle = k at hs hsettled ⊢
  split
  · -- A captured subscriber is still there, so the service is open.
    rename_i frames hcap
    have hk : k.stopped = false := by
      by_contra hne
      obtain ⟨j, -, -, hclosed⟩ := hsettled.exhausts hopen (by simpa using hne)
      unfold Inner.capture at hcap
      rw [hclosed.subscribers] at hcap
      split at hcap <;> cases hcap
    exact hs.trans (opened { Grows.refl k with } hk hk fun h => h)
  · -- The failed subscription's own queue goes with it.
    have hun : Course N (i.expire clock.expire)
        (k.unregister ((i.expire clock.expire).nextSubscription + 1)) := by
      refine ⟨hsettled.grows.trans { Grows.refl k with }, fun hs => ?_, fun ho hs => ?_, hsettled.room⟩
      · rw [hopen] at hs
        cases hs
      · obtain ⟨j, hj, hshort, hclosed⟩ := hsettled.exhausts ho hs
        refine ⟨j, hj, hshort, { hclosed with subscribers := ?_, channels := fun id hid => ?_ }⟩
        · rw [Inner.unregister, hclosed.subscribers]
          rfl
        · rw [← hclosed.channels id hid]
          exact OrdMap.get?_erase_ne _ (by omega)
    exact he.trans (hun.trans (stepwise.settle clock.undo _))

end Course

section

variable [Postcard] [SerdeJson]

/-- In the state `j`, the operation on `i` finds a counter too short for all that it is about to
announce. -/
def Op.Short (i : Inner) (op : Op) (j : Inner) : Prop :=
  match op with
  | .updateLifecycle status _ => ∃ e ∈ (i.incoming status).entries,
      j.sessions.contains e.1 = false ∧ j.Crowded e.2
  | .commitPoll ticket batch deadline _ => j = i ∧ i.Exhausts ticket batch.pending deadline
  | .discardPoll ticket resets failed _ => j = i ∧ i.DiscardExhausts ticket resets failed
  | _ => False

theorem step_course {op : Op} (hs : op ≠ .shutdown) (hp : ∀ id, op ≠ .pop id) :
    Course (op.Short i) i (step i op) := by
  cases op with
  | updateLifecycle status now =>
    exact Course.stepwise.syncRuntime status now i fun e he j hnew hcrowded => ⟨e, he, hnew, hcrowded⟩
  | subscribe request clock pace => exact .subscribe request clock pace i
  | drop id now => exact Course.stepwise.drop id now i
  | commitPoll ticket batch deadline now =>
    exact Course.stepwise.commitPoll ticket batch deadline now i fun hshort => ⟨rfl, hshort⟩
  | discardPoll ticket resets failed now =>
    exact Course.stepwise.discardPoll ticket resets failed now i fun hshort => ⟨rfl, hshort⟩
  | expire now => exact Course.stepwise.expire now i
  | shutdown => exact absurd rfl hs
  | pop id => exact absurd rfl (hp id)

theorem step_room (op : Op) (h : i.sequence ≤ u64Max) : (step i op).sequence ≤ u64Max := by
  by_cases hs : op = .shutdown
  · rw [hs]
    exact h
  by_cases hp : ∃ id, op = .pop id
  · obtain ⟨id, rfl⟩ := hp
    exact h
  · exact (step_course hs fun id hid => hp ⟨id, hid⟩).room h

/-- Nothing is emitted any more. -/
structure Silent (i i' : Inner) : Prop where
  stopped : i'.stopped = true
  subscribers : i'.subscribers = ∅
  log : i'.log = i.log
  sequence : i'.sequence = i.sequence

theorem step_silent (op : Op) (hstop : i.stopped = true) (hsub : i.subscribers = ∅) :
    Silent i (step i op) := by
  by_cases hs : op = .shutdown
  · rw [hs]
    exact ⟨rfl, rfl, rfl, rfl⟩
  by_cases hp : ∃ id, op = .pop id
  · obtain ⟨id, rfl⟩ := hp
    exact ⟨hstop, hsub, rfl, rfl⟩
  · have hc := step_course (i := i) hs fun id hid => hp ⟨id, hid⟩
    have hd := hc.dormant hstop hsub
    exact ⟨hc.grows.stopped hstop, hd.subscribers, hd.log, hd.sequence⟩

theorem run_silent (ops : List Op) (hstop : i.stopped = true) (hsub : i.subscribers = ∅) :
    Silent i (run i ops) := by
  refine Runs.run_invariant (I := Silent i) (G := fun _ => True) (fun j op _ hj => ?_)
    (fun _ _ => trivial) ⟨hstop, hsub, rfl, rfl⟩
  have hd := step_silent op hj.stopped hj.subscribers
  exact ⟨hd.stopped, hd.subscribers, hd.log.trans hj.log, hd.sequence.trans hj.sequence⟩

end

/-! ## Sequences -/

/-- The sequence numbers of a stream, that of its Begin first. -/
def sequences (items : List SubscriptionItem) : List Nat :=
  items.filterMap fun
    | .begin cursor => some cursor.sequence
    | .update envelope => some envelope.cursor.sequence
    | _ => none

theorem sequences_followed (sel : Subscribe) (R : Replica) (us : List UpdateEnvelope) :
    (sequences (followed sel R us)).Sublist (us.map fun e => e.cursor.sequence) := by
  induction us generalizing R with
  | nil => exact .slnil
  | cons e us ih =>
    rw [followed, sequences, List.filterMap_append, List.map_cons]
    split
    · exact (ih _).cons_cons _
    · exact (ih _).cons _

theorem sequences_bootstrap (sel : Subscribe) (R : Replica) (cursor : ServiceCursor) :
    sequences (bootstrap sel R cursor) = [cursor.sequence] := by
  have hquiet : ∀ l : List Seen, sequences (l.flatMap (sessionItems sel)) = [] := by
    intro l
    refine List.filterMap_eq_nil_iff.mpr fun item hitem => ?_
    obtain ⟨s, -, hitem⟩ := List.mem_flatMap.mp hitem
    rcases List.mem_cons.mp hitem with rfl | hitem
    · rfl
    · obtain ⟨t, -, rfl⟩ := List.mem_map.mp hitem
      rfl
  rw [bootstrap, sequences, List.filterMap_append, List.filterMap_cons]
  have := hquiet (R.values.filter fun s => takesInfo sel s.info)
  rw [sequences] at this
  simp [this]

theorem Recounts.increasing {runId : String} {sel : Subscribe} {log : List UpdateEnvelope}
    {items : List SubscriptionItem} (h : Recounts runId sel log items)
    (ho : log.Pairwise fun a b => a.cursor.sequence < b.cursor.sequence) :
    (sequences items).Pairwise (· < ·) := by
  obtain ⟨before, after, n, rfl, -, -, hafter, rfl⟩ := h.split
  have hsub := sequences_followed sel (replay ∅ before) after
  rw [recount, sequences, List.filterMap_append]
  change (sequences (bootstrap _ _ _) ++ sequences (followed _ _ _)).Pairwise _
  rw [sequences_bootstrap, List.singleton_append, List.pairwise_cons]
  refine ⟨fun m hm => ?_, (List.pairwise_map.mpr (List.pairwise_append.mp ho).2.1).sublist hsub⟩
  obtain ⟨e, he, rfl⟩ := List.mem_map.mp (hsub.subset hm)
  exact hafter e he

/-- What a consumer has got has increasing sequence numbers. -/
theorem ChannelOk.increasing {runId : String} {n : Nat} {log : List UpdateEnvelope}
    {registered : Option Subscriber} {c : Channel} (h : ChannelOk runId n log registered c)
    (ho : log.Pairwise fun a b => a.cursor.sequence < b.cursor.sequence) :
    (sequences c.delivered).Pairwise (· < ·) := by
  obtain ⟨log', items, hlog, hr, hs⟩ := h.past
  have hitems := hr.increasing (ho.sublist hlog.sublist)
  have hstream : (sequences c.stream).Pairwise (· < ·) := by
    rcases hs with hs | ⟨items', e, hp, -, hs⟩
    · rwa [hs]
    · have hcut : sequences c.stream = sequences items' := by
        simp [hs, sequences, List.filterMap_append]
      rw [hcut]
      exact hitems.sublist (hp.sublist.filterMap _)
  exact hstream.sublist ((List.sublist_append_left _ _).filterMap _)

/-! ## Generations in the log -/

/-- While a session is not announced again, a higher generation of its topic was announced by a
reset. -/
theorem generation_reset {runId : String} {R : Replica} {us : List UpdateEnvelope}
    (hus : Runs.Guarded apply (Allowed runId) R us) {id : String} {key : TopicRef} {s : Seen}
    {t : TopicSnapshot} (hs : R.get? id = some s) (ht : s.topics.get? key = some t)
    (hnot : ∀ e ∈ us, ∀ info, e.update = .sessionStarted info → info.session.sessionId ≠ id) :
    ∀ s', (replay R us).get? id = some s' → ∃ t', s'.topics.get? key = some t' ∧
      (t.generation ≠ t'.generation → ∃ e ∈ us, ∃ source reason,
        e.update = .topicReset source t'.generation reason ∧ source.session.sessionId = id ∧
          source.topic = key) := by
  induction us using List.reverseRecOn with
  | nil =>
    intro s' hs'
    rw [show replay R [] = R from rfl, hs] at hs'
    cases hs'
    exact ⟨t, ht, fun h => absurd rfl h⟩
  | append_singleton us e ih =>
    obtain ⟨hus, ha, -⟩ := Runs.guarded_append.mp hus
    intro s' hs'
    rw [replay, List.foldl_append] at hs'
    change (apply (replay R us) e).get? id = some s' at hs'
    have ih := ih hus fun e' he' => hnot e' (List.mem_append_left _ he')
    -- The topic as it was before this update.
    have hold : ∀ s₀, (replay R us).get? id = some s₀ →
        s₀.topics.get? key = s'.topics.get? key → ∃ t', s'.topics.get? key = some t' ∧
          (t.generation ≠ t'.generation → ∃ e' ∈ us ++ [e], ∃ source reason,
            e'.update = .topicReset source t'.generation reason ∧ source.session.sessionId = id ∧
              source.topic = key) := by
      intro s₀ hs₀ hkey
      obtain ⟨t', ht', hreset⟩ := ih s₀ hs₀
      refine ⟨t', hkey ▸ ht', fun hne => ?_⟩
      obtain ⟨e', he', h⟩ := hreset hne
      exact ⟨e', List.mem_append_left _ he', h⟩
    rcases update_cases e.update with ⟨info, hu⟩ | ⟨info, hu⟩ | ⟨session, r, hu⟩ | ⟨source, hsrc⟩
    · simp only [apply, hu, OrdMap.get?_insert] at hs'
      split at hs'
      · rename_i hid
        exact absurd hid.symm (hnot e (by simp) info hu)
      · exact hold s' hs' rfl
    · simp only [apply, hu, OrdMap.get?_modify] at hs'
      split at hs'
      · obtain ⟨s₀, hs₀, rfl⟩ := Option.map_eq_some_iff.mp hs'
        exact hold s₀ hs₀ rfl
      · exact hold s' hs' rfl
    · simp only [apply, hu, OrdMap.get?_erase] at hs'
      split at hs'
      · cases hs'
      · exact hold s' hs' rfl
    · obtain ⟨s₀, hs₀, hal⟩ := (allowed_topic hsrc).mp ha
      change (replay R us).get? _ = _ at hs₀
      rw [apply_topic hsrc hs₀, OrdMap.get?_insert] at hs'
      split at hs'
      · rename_i hid
        cases hs'
        have hs₀' : (replay R us).get? id = some s₀ := by rw [hid]; exact hs₀
        by_cases hkey : key = source.topic
        · obtain ⟨t₀, ht₀, hreset⟩ := ih s₀ hs₀'
          have ht₀' : s₀.topics.get? source.topic = some t₀ := hkey ▸ ht₀
          obtain ⟨-, -, hcase⟩ := hal
          cases hu : e.update with
          | topicReset src g r =>
            rw [hu] at hsrc
            cases hsrc
            refine ⟨⟨source, g, .initializing, none⟩, ?_, fun _ => ⟨e, by simp, source, r, hu,
              hid.symm, hkey.symm⟩⟩
            simp [applyTopic, Seen.update, Seen.install, hkey]
          | topicChanged t₁ =>
            rw [hu] at hcase
            have hg : t₀.generation = t₁.generation := hcase.2.1 t₀ ht₀'
            refine ⟨t₁, ?_, fun hne => ?_⟩
            · simp [applyTopic, Seen.update, Seen.install, hkey]
            · obtain ⟨e', he', h⟩ := hreset (hg ▸ hne)
              exact ⟨e', List.mem_append_left _ he', hg ▸ h⟩
          | event ev =>
            rw [← hu]
            refine hold s₀ hs₀' ?_
            simp only [hu, applyTopic, ht₀', Seen.update, Seen.install]
            rw [hkey, ht₀', OrdMap.get?_insert_self]
          | _ => rw [hu] at hsrc; cases hsrc
        · refine hold s₀ hs₀' ?_
          cases applyTopic (s₀.topics.get? source.topic) e.update with
          | none => rfl
          | some t₁ => simp [Seen.update, Seen.install, OrdMap.get?_insert_ne _ _ hkey]
      · exact hold s' hs' rfl

end Service
end WfObserver
