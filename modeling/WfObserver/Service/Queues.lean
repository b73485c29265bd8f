import WfObserver.Service.Stepwise

/-!
# What holds of every queue

A property of a queue that its consumer's pops and the service's steps on it keep (`Kept`) holds of
every queue along a run (`run_every`). `Measured` is one: what a queue holds was measured, and is
within the queue's limit.
-/

namespace WfObserver
namespace Service

open Wire

/-- Every queue of the service is as `P` says, with the service's limit. -/
def Every (P : Nat → Channel → Prop) (i : Inner) : Prop :=
  ∀ id c, i.channels.get? id = some c → P i.messageBytes c

/-- The item was measured, and fits. -/
def FitsFrame [Postcard] (messageBytes : Nat) (item : SubscriptionItem) : Prop :=
  ∃ size, Postcard.item item = some size ∧ size ≤ messageBytes

/-- Kept by each step on a queue. -/
structure Kept [Postcard] (P : Nat → Channel → Prop) : Prop where
  opened : ∀ {n selection pace}, P n { selection, queue := Queue.new n, pace }
  initial : ∀ {n c frames}, P n c → (∀ frame ∈ frames, FitsFrame n frame) →
    P n { c with queue := c.queue.setInitial frames }
  next : ∀ {n c}, P n c → P n c.next
  turn : ∀ {n c turn}, P n c → P n { c with turn }
  offer : ∀ {n c} item, P n c → P n { c with queue := (c.queue.offer item).2 }
  finish : ∀ {n c} e discard, P n c → P n { c with queue := c.queue.finish e discard }

/-! ## The frames of a bootstrap -/

section capture

variable [Postcard] {i : Inner}

omit [Postcard] in
theorem messageFits_ok {size : Option Nat} {n : Nat} (h : messageFits size n = .ok ()) :
    ∃ bytes, size = some bytes ∧ bytes ≤ n := by
  unfold messageFits at h
  split at h
  · cases h
  · split at h
    · cases h
    · rename_i bytes hle
      exact ⟨bytes, rfl, Nat.le_of_not_lt hle⟩

theorem push_fits {frame : SubscriptionItem} {frames frames' : List SubscriptionItem × Nat}
    (h : i.push frame frames = .ok frames') :
    FitsFrame i.messageBytes frame ∧ frames'.1 = frames.1 ++ [frame] := by
  unfold Inner.push at h
  split at h
  · cases h
  rename_i hfits
  split at h
  · cases h
  split at h
  · cases h
  split at h
  · cases h
  · cases h
    exact ⟨messageFits_ok hfits, rfl⟩

theorem pushAll_fits {items : List SubscriptionItem} {frames frames' : List SubscriptionItem × Nat}
    (h : i.pushAll items frames = .ok frames') (hf : ∀ frame ∈ frames.1, FitsFrame i.messageBytes frame) :
    ∀ frame ∈ frames'.1, FitsFrame i.messageBytes frame := by
  induction items generalizing frames with
  | nil =>
    cases h
    exact hf
  | cons item items ih =>
    rw [Inner.pushAll] at h
    split at h
    · cases h
    · rename_i frames₁ hpush
      obtain ⟨hfits, heq⟩ := push_fits hpush
      refine ih h fun frame hframe => ?_
      rw [heq] at hframe
      rcases List.mem_append.mp hframe with hframe | hframe
      · exact hf frame hframe
      · rw [List.mem_singleton.mp hframe]
        exact hfits

/-- Every frame of a bootstrap fits. -/
theorem capture_fits {id : Nat} {frames : List SubscriptionItem} (h : i.capture id = .ok frames) :
    ∀ frame ∈ frames, FitsFrame i.messageBytes frame := by
  unfold Inner.capture at h
  split at h
  · cases h
  rename_i begun hbegun
  split at h
  · cases h
  · cases hp : i.pushAll (i.frames _ ++ [.ready i.cursor]) begun with
    | error e =>
      rw [hp] at h
      cases h
    | ok done =>
      rw [hp] at h
      cases h
      exact pushAll_fits hp (pushAll_fits hbegun (by simp))

end capture

/-! ## The steps of the service -/

namespace Kept

variable [Postcard] {P : Nat → Channel → Prop} {i : Inner}

theorem race (h : Kept P) {n : Nat} {c : Channel} (hc : P n c) : P n c.race := by
  have key : ∀ m (c : Channel), P n c → P n (Channel.nexts m c) := by
    intro m
    induction m with
    | zero => exact fun _ hc => hc
    | succ m ih => exact fun c hc => ih c.next (h.next hc)
  exact h.turn (key _ c hc)

theorem announce (h : Kept P) (hi : Every P i) (u : SubscriptionUpdate) : Every P (i.announce u) := by
  intro id c hc
  simp only [Inner.announce, OrdMap.get?_map] at hc
  obtain ⟨c₀, hc₀, rfl⟩ := Option.map_eq_some_iff.mp hc
  split
  · exact h.offer _ (h.race (hi id c₀ hc₀))
  · exact hi id c₀ hc₀

theorem close (h : Kept P) (hi : Every P i) (e : SubscriptionEnd) : Every P (i.close e) := by
  intro id c hc
  simp only [Inner.close, OrdMap.get?_map] at hc
  obtain ⟨c₀, hc₀, rfl⟩ := Option.map_eq_some_iff.mp hc
  split
  · exact h.finish e true (h.race (hi id c₀ hc₀))
  · exact hi id c₀ hc₀

theorem release (h : Kept P) (hi : Every P i) (p : Subscriber → Bool) : Every P (i.release p) := by
  intro id c hc
  simp only [Inner.release, OrdMap.get?_map] at hc
  obtain ⟨c₀, hc₀, rfl⟩ := Option.map_eq_some_iff.mp hc
  split
  · exact h.finish _ _ (h.race (hi id c₀ hc₀))
  · exact hi id c₀ hc₀

omit [Postcard] in
/-- One queue changes. -/
theorem modify (hi : Every P i) (n : Nat) {f : Channel → Channel}
    (hf : ∀ c, P i.messageBytes c → P i.messageBytes (f c)) {id : Nat} {c : Channel}
    (hc : (i.channels.modify n f).get? id = some c) : P i.messageBytes c := by
  rw [OrdMap.get?_modify] at hc
  split at hc
  · obtain ⟨c₀, hc₀, rfl⟩ := Option.map_eq_some_iff.mp hc
    exact hf c₀ (hi id c₀ hc₀)
  · exact hi id c hc

theorem stepwise (h : Kept P) : Stepwise (fun _ => True) fun i j => Every P i → Every P j where
  refl _ := id
  trans h₁ h₂ := h₂ ∘ h₁
  close _ hi := h.close hi _
  announce _ u _ _ hi := h.announce hi u
  advance _ _ _ hi := hi
  store _ _ _ hi := hi
  revise _ _ hi := hi
  observe _ _ hi := hi
  retain _ _ hi := hi
  release _ p hi := h.release hi p

theorem subscribe (h : Kept P) (hi : Every P i) (request : Subscribe) (clock : Readings)
    (pace : Nat → Nat) : Every P (i.subscribe request clock pace).2 := by
  unfold Inner.subscribe
  split
  · exact hi
  have he := h.stepwise.expire clock.expire i hi
  dsimp only
  split
  · exact he
  split
  · exact he
  split
  · exact he
  split
  · exact he
  · rename_i id _
    have hreg : Every P ((i.expire clock.expire).register id request pace) := by
      intro n c hc
      simp only [Inner.register, OrdMap.get?_insert] at hc
      split at hc
      · cases hc
        exact h.opened
      · exact he n c hc
    have hs := h.stepwise.settle clock.settle _ hreg
    split
    · rename_i frames hcapture
      exact fun n c hc => modify hs id (fun c hc => h.initial hc (capture_fits hcapture)) hc
    · refine h.stepwise.settle clock.undo _ fun n c hc => ?_
      simp only [Inner.unregister, OrdMap.get?_erase] at hc
      split at hc
      · cases hc
      · exact hs n c hc

theorem step [SerdeJson] (h : Kept P) (hi : Every P i) (op : Op) : Every P (step i op) := by
  have hs := h.stepwise
  cases op with
  | updateLifecycle status now =>
    exact hs.syncRuntime status now i (fun _ _ _ _ _ => trivial) hi
  | subscribe request clock pace => exact h.subscribe hi request clock pace
  | drop id now => exact hs.drop id now i hi
  | commitPoll ticket batch deadline now =>
    exact hs.commitPoll ticket batch deadline now i (fun _ => trivial) hi
  | discardPoll ticket resets failed now =>
    exact hs.discardPoll ticket resets failed now i (fun _ => trivial) hi
  | expire now => exact hs.expire now i hi
  | shutdown => exact h.close hi _
  | pop id => exact fun n c hc => modify hi id (fun c hc => h.next hc) hc

end Kept

theorem run_every [Postcard] [SerdeJson] {P : Nat → Channel → Prop} {i : Inner} (h : Kept P)
    (hi : Every P i) (ops : List Op) : Every P (run i ops) :=
  Runs.run_invariant (I := Every P) (G := fun _ => True) (fun _ op _ hj => h.step hj op)
    (fun _ _ => trivial) hi

/-- A new service has no queue. -/
theorem new_every {manifests : List ProviderSdk.ProviderManifest} {runId : String} {messageBytes : Nat}
    {i : Inner} (h : ServiceState.new manifests runId messageBytes = .ok i)
    (P : Nat → Channel → Prop) : Every P i := by
  unfold ServiceState.new at h
  split at h
  · cases h
  · cases h
    intro id c hc
    cases hc

/-! ## What a queue holds fits -/

section within

variable [Postcard]

/-- What the consumer has got or will get, but for the end, was measured and fits. -/
structure Measured (n : Nat) (c : Channel) : Prop where
  bound : c.queue.messageBytes = n
  items : ∀ item ∈ c.stream, FitsFrame n item ∨ ∃ e, item = .closed e

omit [Postcard] in
theorem discard_pending {q : Queue} {item : SubscriptionItem} (h : item ∈ q.discard.initial) :
    item ∈ q.initial := by
  unfold Queue.discard at h
  dsimp only at h
  split at h
  · rename_i cursor rest hq
    rw [hq]
    exact List.mem_cons.mpr (.inl (List.mem_singleton.mp h))
  · cases h

/-- A queue that was cut short. -/
theorem Measured.cut {n : Nat} {c : Channel} (h : Measured n c) {q : Queue}
    (hbound : q.messageBytes = c.queue.messageBytes)
    (hinitial : ∀ item ∈ q.initial, item ∈ c.queue.initial)
    (hupdates : ∀ item ∈ q.updates.map Prod.fst, item ∈ c.queue.updates.map Prod.fst) :
    Measured n { c with queue := q } := by
  refine ⟨hbound.trans h.bound, fun item hitem => ?_⟩
  simp only [Channel.stream, Queue.pending, List.mem_append] at hitem
  have hold := h.items item
  simp only [Channel.stream, Queue.pending, List.mem_append] at hold
  rcases hitem with hitem | (hitem | hitem) | hitem
  · exact hold (.inl hitem)
  · exact hold (.inr (.inl (.inl (hinitial item hitem))))
  · exact hold (.inr (.inl (.inr (hupdates item hitem))))
  · obtain ⟨e, -, rfl⟩ := Option.map_eq_some_iff.mp (Option.mem_toList.mp hitem)
    exact .inr ⟨e, rfl⟩

theorem Measured.offer {n : Nat} {c : Channel} (h : Measured n c) (hn : n < u64Max)
    (item : SubscriptionItem) : Measured n { c with queue := (c.queue.offer item).2 } := by
  unfold Queue.offer
  split
  · exact h
  dsimp only
  split
  · exact h.cut rfl (fun x hx => discard_pending hx) (by simp [Queue.discard])
  · rename_i hexceeded
    refine ⟨h.bound, fun x hx => ?_⟩
    simp only [Channel.stream, Queue.pending, List.map_append, List.map_cons, List.map_nil,
      List.mem_append, List.mem_singleton] at hx
    have hold := h.items x
    simp only [Channel.stream, Queue.pending, List.mem_append] at hold
    by_cases heq : x = item
    · -- An item that cannot be measured counts as longer than any limit.
      subst heq
      refine .inl ?_
      unfold Queue.exceeded at hexceeded
      split at hexceeded
      · cases hexceeded
      · rename_i hle
        rw [h.bound] at hle
        cases hsize : Postcard.item x with
        | none =>
          rw [hsize, Option.getD_none] at hle
          omega
        | some size =>
          rw [hsize, Option.getD_some] at hle
          exact ⟨size, hsize, Nat.le_of_not_lt hle⟩
    · tauto

/-- A `u32` limit is below the size of what cannot be measured. -/
theorem measured_kept : Kept fun n c => n < u64Max → Measured n c where
  opened _ := ⟨rfl, by simp [Channel.stream, Queue.pending, Queue.new]⟩
  initial h hf hn := by
    refine ⟨(h hn).bound, fun item hitem => ?_⟩
    have hold := (h hn).items item
    simp only [Channel.stream, Queue.pending, Queue.setInitial, List.mem_append] at hitem hold
    rcases hitem with hitem | (hitem | hitem) | hitem
    · exact hold (.inl hitem)
    · exact .inl (hf item hitem)
    · exact hold (.inr (.inl (.inr hitem)))
    · exact hold (.inr (.inr hitem))
  next {n c} h hn := by
    refine ⟨(c.queue.pop_messageBytes).trans (h hn).bound, ?_⟩
    rw [Channel.stream_next]
    exact (h hn).items
  turn h hn := ⟨(h hn).bound, (h hn).items⟩
  offer item h hn := (h hn).offer hn item
  finish e discard h hn := by
    unfold Queue.finish
    split
    · exact h hn
    · split
      · exact (h hn).cut rfl (fun x hx => discard_pending hx) (by simp [Queue.discard])
      · exact (h hn).cut rfl (fun _ hx => hx) (fun _ hx => hx)

end within

end Service
end WfObserver
