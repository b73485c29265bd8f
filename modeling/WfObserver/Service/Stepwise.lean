import WfObserver.Service.Lifecycle
import WfObserver.Service.Topics

/-!
# Step relations

Every operation is made of a few kinds of steps: it announces, stores sessions, drops subscribers,
closes. A reflexive and transitive relation that contains these steps (`Stepwise`) therefore relates
the service before and after every operation but `subscribe`, which also adds a subscriber, and
`pop`.

An operation closes the service only when a counter is at its bound: one that the next step needs
(`Inner.Starved`), or one that the operation checks before it starts (the parameter `N` of `Stepwise`).

Two relations are stated here. `Grows`: the catalog, the run id and the message limit stay, counters
do not go down, the log and the history are extended, a closed service stays closed. `Narrows`: no
subscriber and no queue appears, and no queue is lost.
-/

namespace WfObserver
namespace Service

open Wire

namespace Inner

/-- `sync_runtime` ends the subscribers of one session. -/
def release (p : Subscriber → Bool) (i : Inner) : Inner :=
  { i with
    channels := i.channels.map fun id c =>
      if (i.subscribers.get? id).any p then c.finish .sessionEnded false else c
    subscribers := i.subscribers.filter fun _ s => !p s }

/-- Stores what a pass left, and records it. -/
def enter (pass : OrdMap String Session × List Change × Bool) (i : Inner) : Inner :=
  { i with sessions := pass.1, history := i.history ++ pass.2.1.map Change.mark }

end Inner

/-! ## Short counters -/

namespace Topic

variable {id : String} {key : TopicRef} {demanded : Bool} {now : Instant} {t : Topic}

/-- The topic has to be toggled, and a counter that this needs is at its bound. -/
def Stuck (demanded : Bool) (t : Topic) : Prop :=
  t.demanded ≠ demanded ∧
    (u64Max ≤ t.epoch ∨ demanded = true ∧ u64Max ≤ t.state.generation)

theorem reconcile_stuck (h : (t.reconcile id key demanded now).2.2 = true) : t.Stuck demanded := by
  unfold reconcile at h
  split at h
  · cases h
  rename_i hne
  refine ⟨fun he => hne (by rw [he, beq_self_eq_true]), ?_⟩
  dsimp only at h
  split at h
  · rename_i he
    have := checkedAdd_eq_none.mp he
    exact .inl (by omega)
  · split at h
    · rename_i hd
      split at h
      · rename_i hg
        have := checkedAdd_eq_none.mp hg
        exact .inr ⟨hd, Nat.lt_succ_iff.mp this⟩
      · cases h
    · cases h

theorem lapse_stuck (h : (t.lapse id key now).2.2 = true) : t.due now = true ∧ u64Max ≤ t.epoch := by
  unfold lapse at h
  split at h
  · rename_i hdue
    refine ⟨hdue, ?_⟩
    dsimp only at h
    split at h
    · rename_i he
      have := checkedAdd_eq_none.mp he
      omega
    · cases h
  · cases h

end Topic

namespace Inner

/-- A counter that the next step of an operation needs is at its bound. -/
inductive Starved (i : Inner) : Prop
  /-- The next announcement has no sequence. -/
  | sequence : u64Max ≤ i.sequence → Starved i
  /-- `settle` was halted at a topic whose demand has to change. -/
  | toggle {k : Inner} {now : Instant} {id : String} {s : Session} {key : TopicRef} {t : Topic} :
      i = k.enter (k.reconcile now) → k.sessions.get? id = some s → s.topics.get? key = some t →
        t.Stuck (k.wanted s.info.session key) → Starved i
  /-- `expire` was halted at a topic that is overdue. -/
  | expiry {k : Inner} {now : Instant} {id : String} {s : Session} {key : TopicRef} {t : Topic} :
      i = k.enter (k.lapse now) → k.sessions.get? id = some s → s.topics.get? key = some t →
        t.due now = true → u64Max ≤ t.epoch → Starved i

theorem pass_stop {f : String → Session → TopicRef → Topic → Topic × List Change × Bool}
    {sessions : OrdMap String Session} (h : (pass f sessions).2.2 = true) :
    ∃ id s key t, sessions.get? id = some s ∧ s.topics.get? key = some t ∧
      (f id s key t).2.2 = true := by
  obtain ⟨id, s, hs, hstop⟩ := OrdMap.visit_stop h
  obtain ⟨key, t, ht, hstop⟩ := OrdMap.visit_stop hstop
  exact ⟨id, s, key, t, hs, ht, hstop⟩

theorem reconcile_starved {now : Instant} {i : Inner} (h : (i.reconcile now).2.2 = true) :
    (i.enter (i.reconcile now)).Starved := by
  obtain ⟨id, s, key, t, hs, ht, hstop⟩ := pass_stop h
  exact .toggle rfl hs ht (Topic.reconcile_stuck hstop)

theorem lapse_starved {now : Instant} {i : Inner} (h : (i.lapse now).2.2 = true) :
    (i.enter (i.lapse now)).Starved := by
  obtain ⟨id, s, key, t, hs, ht, hstop⟩ := pass_stop h
  obtain ⟨hdue, hmax⟩ := Topic.lapse_stuck hstop
  exact .expiry rfl hs ht hdue hmax

end Inner

variable [Postcard]

/-- A reflexive and transitive relation that contains the steps of the operations. `N` says when an
operation finds a counter too short for all that it is about to announce. -/
structure Stepwise (N : Inner → Prop) (R : Inner → Inner → Prop) : Prop where
  refl : ∀ i, R i i
  trans : ∀ {i j k}, R i j → R j k → R i k
  close : ∀ {i}, i.Starved ∨ N i → R i (i.close Inner.exhausted)
  announce : ∀ i u, i.stopped = false → i.sequence < u64Max → R i (i.announce u)
  advance : ∀ i, i.stopped = false → i.sequence < u64Max → R i { i with sequence := i.sequence + 1 }
  store : ∀ i sessions marks, R i { i with sessions, history := i.history ++ marks }
  revise : ∀ i revision, R i { i with revision }
  observe : ∀ i runtime, R i { i with runtime }
  retain : ∀ i p, R i { i with subscribers := i.subscribers.filter p }
  release : ∀ i p, R i (i.release p)

namespace Stepwise

variable {N : Inner → Prop} {R : Inner → Inner → Prop}

theorem foldl {α : Type} {f : Inner → α → Inner} (h : Stepwise N R) (hf : ∀ i a, R i (f i a))
    (l : List α) (i : Inner) : R i (l.foldl f i) := by
  induction l generalizing i with
  | nil => exact h.refl i
  | cons a l ih => exact h.trans (hf i a) (ih _)

theorem put (h : Stepwise N R) (i : Inner) (sessions : OrdMap String Session) :
    R i { i with sessions } := by
  simpa using h.store i sessions []

theorem record (h : Stepwise N R) (i : Inner) (marks : List Mark) : R i (i.record marks) :=
  h.store i i.sessions marks

theorem advanced (h : Stepwise N R) (i : Inner) : R i i.advance.2 := by
  unfold Inner.advance
  split
  · exact h.refl i
  · rename_i hstop
    split
    · rename_i next hn
      obtain ⟨rfl, hroom⟩ := checkedAdd_eq_some.mp hn
      exact h.advance i (by simpa using hstop) hroom
    · rename_i hn
      have := checkedAdd_eq_none.mp hn
      exact h.close (.inl (.sequence (by omega)))

theorem emit (h : Stepwise N R) (u : SubscriptionUpdate) (i : Inner) : R i (i.emit u) := by
  rcases i.emit_cases u with ⟨-, he⟩ | ⟨-, hfull, he⟩ | ⟨hstop, hroom, he⟩ <;> rw [he]
  · exact h.refl i
  · exact h.close (.inl (.sequence hfull))
  · exact h.announce i u hstop hroom

theorem emitAll (h : Stepwise N R) (us : List SubscriptionUpdate) (i : Inner) : R i (i.emitAll us) :=
  h.foldl (fun i u => h.emit u i) us i

theorem applyPass (h : Stepwise N R) {p : OrdMap String Session × List Change × Bool} (i : Inner)
    (hstop : p.2.2 = true → (i.enter p).Starved) : R i (i.applyPass p) := by
  have hstore := h.store i p.1 (p.2.1.map Change.mark)
  unfold Inner.applyPass
  dsimp only
  split
  · rename_i hhalt
    exact h.trans hstore (h.close (.inl (hstop hhalt)))
  · refine h.trans ?_ (h.emitAll _ _)
    split
    · exact hstore
    · exact h.trans hstore (h.revise _ _)

theorem settle (h : Stepwise N R) (now : Instant) (i : Inner) : R i (i.settle now) :=
  Inner.settle_rule (I := R i)
    (fun j hj => h.trans hj (h.trans (h.retain j _)
      (h.applyPass j.retainLive Inner.reconcile_starved))) (h.refl i)

theorem expire (h : Stepwise N R) (now : Instant) (i : Inner) : R i (i.expire now) := by
  have hpass := h.applyPass i (@Inner.lapse_starved now i)
  unfold Inner.expire
  dsimp only
  split
  · exact hpass
  · exact h.trans hpass (h.settle now _)

theorem endSession (h : Stepwise N R) (status : HostStatus) (i : Inner) (id : String) :
    R i (i.endSession status id) := by
  unfold Inner.endSession
  split
  · exact h.refl i
  · rename_i s _
    dsimp only
    exact h.trans (h.emit _ _) (h.trans (h.store _ _ _) (h.release _ fun s' =>
      s'.selection.sessions == .session s.info.session))

theorem addSession (h : Stepwise N R) (info : SessionInfo) (i : Inner) (hN : i.Crowded info → N i) :
    R i (i.addSession info).2 := by
  rcases Inner.addSession_cases info i with
    ⟨-, he⟩ | ⟨-, he⟩ | ⟨⟨-, hcrowded⟩, he⟩ | ⟨p, -, -, -, -, he⟩ <;> rw [he]
  · exact h.refl i
  · exact h.refl i
  · exact h.close (.inr (hN hcrowded))
  · exact h.trans (h.store i _ _) (h.emitAll _ _)

theorem addSessions (h : Stepwise N R) (l : List (String × SessionInfo)) (i : Inner)
    (hN : ∀ e ∈ l, ∀ j : Inner, j.sessions.contains e.1 = false → j.Crowded e.2 → N j) :
    R i (Inner.addSessions l i).2 := by
  induction l generalizing i with
  | nil => exact h.refl i
  | cons e l ih =>
    have hl := fun x hx => hN x (List.mem_cons_of_mem _ hx)
    rw [Inner.addSessions]
    split
    · exact ih i hl
    · rename_i hnew
      have hs := h.addSession e.2 i (hN e (by simp) i (by simpa using hnew))
      split
      · rename_i he; rw [he] at hs; exact hs
      · rename_i he; rw [he] at hs; exact h.trans hs (ih _ hl)

theorem syncRuntime (h : Stepwise N R) (status : HostStatus) (now : Instant) (i : Inner)
    (hN : ∀ e ∈ (i.incoming status).entries, ∀ j : Inner,
      j.sessions.contains e.1 = false → j.Crowded e.2 → N j) :
    R i (i.syncRuntime status now).2 := by
  unfold Inner.syncRuntime
  split
  · exact h.refl i
  dsimp only
  have hs := h.trans (h.foldl (h.endSession status)
    (i.sessions.keys.filter fun id => !(i.incoming status).contains id) i)
    (h.addSessions (i.incoming status).entries _ hN)
  split
  · rename_i he; rw [he] at hs; exact hs
  · rename_i j he
    rw [he] at hs
    exact h.trans hs (h.trans (h.observe j status) (h.trans (h.advanced _) (h.settle now _)))

theorem changeMetadata (h : Stepwise N R) (id : String) (m : Option SessionInfo) (i : Inner) :
    R i (i.changeMetadata id m) := by
  unfold Inner.changeMetadata
  split
  · exact h.refl i
  · exact h.trans (h.put i _) (h.emit _ _)

theorem commit (h : Stepwise N R) (ticket : PollTicket) (staged : StagedPublication) (i : Inner) :
    R i (staged.commit ticket i) := by
  have h₁ : ∀ i key, R i (staged.commitReset i key) := by
    intro i key
    unfold StagedPublication.commitReset
    split
    · exact h.refl i
    · exact h.emit _ i
  have h₂ : ∀ i e, R i (StagedPublication.commitTopic ticket.sessionId i e) := by
    intro i e
    unfold StagedPublication.commitTopic
    split
    · exact h.refl i
    · dsimp only
      split
      · exact h.trans (h.put i _) (h.emit _ _)
      · exact h.put i _
  have h₃ : ∀ i e, R i (StagedPublication.commitEvent ticket.sessionId i e) := by
    intro i e
    unfold StagedPublication.commitEvent
    split
    · exact h.refl i
    · exact h.emit _ i
  exact h.trans (h.foldl h₁ _ _) (h.trans (h.foldl h₂ _ _) (h.foldl h₃ _ _))

theorem commitPoll [SerdeJson] (h : Stepwise N R) (ticket : PollTicket) (batch : PollBatch)
    (deadline now : Instant) (i : Inner) (hN : i.Exhausts ticket batch.pending deadline → N i) :
    R i (i.commitPoll ticket batch deadline now).2 := by
  rcases Inner.commitPoll_cases ticket batch deadline now i with
    ⟨r, -, he⟩ | ⟨-, hshort, he⟩ | ⟨session, staged, -, he⟩ <;> rw [he]
  · exact h.refl i
  · exact h.close (.inr (hN hshort))
  · exact h.trans (h.record i _)
      (h.trans (h.trans (h.changeMetadata _ _ _) (h.commit ticket staged _)) (h.settle now _))

theorem discardPoll (h : Stepwise N R) (ticket : PollTicket) (resets : List TopicRef) (failed : Bool)
    (now : Instant) (i : Inner) (hN : i.DiscardExhausts ticket resets failed → N i) :
    R i (i.discardPoll ticket resets failed now).2 := by
  rcases Inner.discardPoll_cases ticket resets failed now i with
    ⟨-, he⟩ | ⟨-, hshort, he⟩ | ⟨session, -, he⟩ <;> rw [he]
  · exact h.refl i
  · exact h.close (.inr (hN hshort))
  · exact h.trans (h.store i _ _) (h.trans (h.emitAll _ _) (h.settle now _))

theorem drop (h : Stepwise N R) (id : Nat) (now : Instant) (i : Inner) : R i (i.drop id now) :=
  h.trans (h.retain i _) (h.settle now _)

end Stepwise

/-! ## What only grows -/

/-- The service after some steps. -/
structure Grows (i i' : Inner) : Prop where
  catalog : i'.catalog = i.catalog
  messageBytes : i'.messageBytes = i.messageBytes
  runId : i'.runId = i.runId
  stopped : i.stopped = true → i'.stopped = true
  sequence : i.sequence ≤ i'.sequence
  nextSubscription : i.nextSubscription ≤ i'.nextSubscription
  log : i.log <+: i'.log
  history : i.history <+: i'.history

namespace Grows

variable {i j k : Inner}

omit [Postcard] in
theorem refl (i : Inner) : Grows i i :=
  ⟨rfl, rfl, rfl, id, le_refl _, le_refl _, List.prefix_refl _, List.prefix_refl _⟩

omit [Postcard] in
theorem trans (h : Grows i j) (h' : Grows j k) : Grows i k :=
  ⟨h'.catalog.trans h.catalog, h'.messageBytes.trans h.messageBytes, h'.runId.trans h.runId,
    h'.stopped ∘ h.stopped, h.sequence.trans h'.sequence, h.nextSubscription.trans h'.nextSubscription,
    h.log.trans h'.log, h.history.trans h'.history⟩

omit [Postcard] in
theorem closed (i : Inner) (e : SubscriptionEnd) : Grows i (i.close e) :=
  { refl i with stopped := fun _ => rfl, history := List.prefix_append _ _ }

theorem stepwise : Stepwise (fun _ => True) Grows where
  refl := refl
  trans := trans
  close _ := closed _ _
  announce i _ _ _ := { refl i with sequence := Nat.le_succ _, log := List.prefix_append _ _ }
  advance i _ _ := { refl i with sequence := Nat.le_succ _ }
  store i _ _ := { refl i with history := List.prefix_append _ _ }
  revise i _ := { refl i with }
  observe i _ := { refl i with }
  retain i _ := { refl i with }
  release i _ := { refl i with }

theorem subscribe (request : Subscribe) (clock : Readings) (pace : Nat → Nat) (i : Inner) :
    Grows i (i.subscribe request clock pace).2 := by
  unfold Inner.subscribe
  split
  · exact refl i
  have he := stepwise.expire clock.expire i
  dsimp only
  split
  · exact he
  split
  · exact he
  split
  · exact he
  split
  · exact he
  · rename_i id hid
    obtain ⟨rfl, -⟩ := checkedAdd_eq_some.mp hid
    have hreg : ∀ j : Inner, Grows j (j.register (j.nextSubscription + 1) request pace) := fun j =>
      { refl j with nextSubscription := Nat.le_succ _ }
    have hs := he.trans ((hreg _).trans (stepwise.settle clock.settle _))
    split
    · have hact : ∀ (j : Inner) (id : Nat) frames, Grows j (j.activate id frames) := fun j _ _ =>
        { refl j with }
      exact hs.trans (hact _ _ _)
    · have hun : ∀ (j : Inner) (id : Nat), Grows j (j.unregister id) := fun j _ => { refl j with }
      exact hs.trans ((hun _ _).trans (stepwise.settle clock.undo _))

end Grows

section

variable [SerdeJson]

theorem step_grows (i : Inner) (op : Op) : Grows i (step i op) := by
  cases op with
  | updateLifecycle status now =>
    exact Grows.stepwise.syncRuntime status now i fun _ _ _ _ _ => trivial
  | subscribe request clock pace => exact .subscribe request clock pace i
  | drop id now => exact Grows.stepwise.drop id now i
  | commitPoll ticket batch deadline now =>
    exact Grows.stepwise.commitPoll ticket batch deadline now i fun _ => trivial
  | discardPoll ticket resets failed now =>
    exact Grows.stepwise.discardPoll ticket resets failed now i fun _ => trivial
  | expire now => exact Grows.stepwise.expire now i
  | shutdown => exact Grows.closed i _
  | pop id => exact { Grows.refl i with }

theorem run_grows (i : Inner) (ops : List Op) : Grows i (run i ops) :=
  Runs.run_relation (R := Grows) (G := fun _ => True) .refl .trans (fun i op _ => step_grows i op)
    fun _ _ => trivial

end

omit [Postcard] in
theorem new_runId {manifests : List ProviderSdk.ProviderManifest} {runId : String}
    {messageBytes : Nat} {i : Inner}
    (h : ServiceState.new manifests runId messageBytes = .ok i) : i.runId = runId := by
  unfold ServiceState.new at h
  split at h
  · cases h
  · cases h; rfl

omit [Postcard] in
theorem new_messageBytes {manifests : List ProviderSdk.ProviderManifest} {runId : String}
    {messageBytes : Nat} {i : Inner}
    (h : ServiceState.new manifests runId messageBytes = .ok i) : i.messageBytes = messageBytes := by
  unfold ServiceState.new at h
  split at h
  · cases h
  · cases h; rfl

/-! ## What no step adds -/

/-- The subscribers of `i'` are subscribers of `i`, and the queues are still there. -/
structure Narrows (i i' : Inner) : Prop where
  subscribers : ∀ id s, i'.subscribers.get? id = some s → i.subscribers.get? id = some s
  channels : ∀ id, i'.channels.contains id = i.channels.contains id
  nextSubscription : i'.nextSubscription = i.nextSubscription

omit [Postcard] in
theorem Narrows.closed (i : Inner) (e : SubscriptionEnd) : Narrows i (i.close e) :=
  ⟨fun _ _ h => by simp at h, fun _ => OrdMap.contains_map _ _ _, rfl⟩

theorem Narrows.stepwise : Stepwise (fun _ => True) Narrows where
  refl _ := ⟨fun _ _ h => h, fun _ => rfl, rfl⟩
  trans h h' := ⟨fun id s hs => h.subscribers id s (h'.subscribers id s hs),
    fun id => (h'.channels id).trans (h.channels id),
    h'.nextSubscription.trans h.nextSubscription⟩
  close _ := closed _ _
  announce _ _ _ _ := ⟨fun _ _ h => h, fun _ => OrdMap.contains_map _ _ _, rfl⟩
  advance _ _ _ := ⟨fun _ _ h => h, fun _ => rfl, rfl⟩
  store _ _ _ := ⟨fun _ _ h => h, fun _ => rfl, rfl⟩
  revise _ _ := ⟨fun _ _ h => h, fun _ => rfl, rfl⟩
  observe _ _ := ⟨fun _ _ h => h, fun _ => rfl, rfl⟩
  retain _ _ := ⟨fun _ _ h => (OrdMap.get?_filter_some.mp h).1, fun _ => rfl, rfl⟩
  release _ _ := ⟨fun _ _ h => (OrdMap.get?_filter_some.mp h).1, fun _ => OrdMap.contains_map _ _ _,
    rfl⟩

end Service
end WfObserver
