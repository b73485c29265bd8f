import WfObserver.Service.Stepwise

/-!
# What the operations do to sessions and history

An operation changes the stored sessions in six ways: a pass of `settle` or `expire` (whole, or
halted by a counter), a discarded poll, a published poll, the end of a session and a new session.
`Effects` collects a property's preservation under each of them, and `Effects.step` concludes that
every operation preserves it. The sessions that start in the operation satisfy `J`, and those that
end do not. A property of the log, too, has to look at what announces the change (`Announced`).
-/

namespace WfObserver
namespace Service

open Wire

namespace Inner

/-- The passes of `settle` and `expire`. -/
def Passing (i : Inner) (pass : OrdMap String Session × List Change × Bool) : Prop :=
  ∃ now, pass = i.reconcile now ∨ pass = i.lapse now

end Inner

/-- Preserved by every change of the sessions. -/
structure Effects [Postcard] (J : String → Prop) (I : Inner → Prop) : Prop
    extends Inner.StoreInvariant I where
  pass : ∀ {i p}, Inner.Passing i p → I i → p.2.2 = false → I (i.enter p)
  halt : ∀ {i p} e, Inner.Passing i p → I i → I ((i.enter p).close e)
  discard : ∀ {i ticket resets failed session}, i.Discards ticket resets failed session → I i →
    I (i.discardStored ticket resets failed session)
  publish : ∀ {i ticket pending deadline session staged},
    i.Publishes ticket pending deadline session staged → I i →
      I ((i.put (i.sessions.insert ticket.sessionId
        (Inner.transaction pending session staged i.sequence).1)).record
          (pending.ops.map (Mark.applied ticket.sessionId · deadline)))
  ended : ∀ {i id s}, i.sessions.get? id = some s → ¬ J id → I i →
    I ((i.put (i.sessions.erase id)).record [.ended id])
  started : ∀ {i p info}, p ∈ i.catalog.providers → p.id = info.providerId →
    i.sessions.get? info.session.sessionId = none → J info.session.sessionId → I i →
      I (i.stored p info)

/-- Preserved by every change of the sessions together with the updates that announce it. The published
batches satisfy `K`. -/
structure Announced [Postcard] (K : Pending → Prop) (J : String → Prop) (I : Inner → Prop) : Prop where
  calm : ∀ {i i'}, I i → Inner.Quiet i i' → i'.log = i.log → I i'
  close : ∀ {i} e, I i → I (i.close e)
  halt : ∀ {i p} e, Inner.Passing i p → I i → I ((i.enter p).close e)
  /-- An update that tells no topic's state. -/
  tell : ∀ {i} u, (∀ t, u ≠ .topicChanged t) → I i → I (i.emit u)
  pass : ∀ {i p}, Inner.Passing i p → I i → p.2.2 = false →
    I ((i.enter p).emitAll (p.2.1.map Change.update))
  discard : ∀ {i ticket resets failed session}, i.Discards ticket resets failed session → I i →
    I (i.discardTransaction ticket resets failed session)
  publish : ∀ {i ticket pending deadline session staged},
    i.Publishes ticket pending deadline session staged → K pending → I i →
      I (((i.put (i.sessions.insert ticket.sessionId
        (Inner.transaction pending session staged i.sequence).1)).record
          (pending.ops.map (Mark.applied ticket.sessionId · deadline))).emitAll
            (Inner.transaction pending session staged i.sequence).2)
  ended : ∀ {i id s}, i.sessions.get? id = some s → ¬ J id → I i →
    I ((i.put (i.sessions.erase id)).record [.ended id])
  started : ∀ {i p info}, p ∈ i.catalog.providers → p.id = info.providerId →
    i.sessions.get? info.session.sessionId = none → J info.session.sessionId → I i →
      I ((i.stored p info).emitAll (Inner.arrival p info))

theorem Effects.announced [Postcard] {J : String → Prop} {I : Inner → Prop} (h : Effects J I) :
    Announced (fun _ => True) J I where
  calm hi hq _ := h.quiet hq hi
  close := h.close
  halt := h.halt
  tell u _ hi := h.emit hi u
  pass hp hi hgo := h.emitAll (h.pass hp hi hgo) _
  discard hd hi := h.emitAll (h.discard hd hi) _
  publish hp _ hi := h.emitAll (h.publish hp hi) _
  ended := h.ended
  started hp hid hnew hJ hi := h.emitAll (h.started hp hid hnew hJ hi) _

namespace Announced

variable [Postcard] {K : Pending → Prop} {J : String → Prop} {I : Inner → Prop} {i : Inner}

theorem applyPass (h : Announced K J I) {p : OrdMap String Session × List Change × Bool}
    (hp : Inner.Passing i p) (hi : I i) : I (i.applyPass p) := by
  unfold Inner.applyPass
  dsimp only
  split
  · exact h.halt _ hp hi
  · rename_i hgo
    have hgo : p.2.2 = false := by simpa using hgo
    split
    · exact h.pass hp hi hgo
    · -- the revision could as well have changed before
      have hi' : I { i with revision := saturatingAdd i.revision 1 } :=
        h.calm hi ⟨rfl, rfl, rfl, rfl, rfl, le_refl _⟩ rfl
      have hp' : Inner.Passing { i with revision := saturatingAdd i.revision 1 } p := hp
      exact h.pass hp' hi' hgo

theorem settle (h : Announced K J I) (now : Instant) (hi : I i) : I (i.settle now) := by
  refine Inner.settle_rule (fun j hj => ?_) hi
  exact h.applyPass ⟨now, .inl rfl⟩ (h.calm hj (Inner.retainLive_quiet j) rfl)

theorem expire (h : Announced K J I) (now : Instant) (hi : I i) : I (i.expire now) := by
  have hp := h.applyPass ⟨now, .inr rfl⟩ hi
  unfold Inner.expire
  dsimp only
  split
  · exact hp
  · exact h.settle now hp

theorem endSession (h : Announced K J I) (status : HostStatus) {id : String} (hJ : ¬ J id) (hi : I i) :
    I (i.endSession status id) := by
  unfold Inner.endSession
  split
  · exact hi
  rename_i s hs
  dsimp only
  generalize hu : SubscriptionUpdate.sessionEnded s.info.session _ = u
  have hemit : I (i.emit u) := h.tell u (fun t he => by rw [← hu] at he; cases he) hi
  have hkeep : ∃ s', (i.emit u).sessions.get? id = some s' := by
    rcases i.emit_cases u with ⟨-, he⟩ | ⟨-, -, he⟩ | ⟨-, -, he⟩ <;> rw [he]
    · exact ⟨s, hs⟩
    · rw [Inner.close_get?, hs]
      exact ⟨_, rfl⟩
    · exact ⟨s, hs⟩
  obtain ⟨s', hs'⟩ := hkeep
  exact h.calm (h.ended hs' hJ hemit) ⟨rfl, rfl, rfl, rfl, rfl, le_refl _⟩ rfl

theorem endSessions (h : Announced K J I) (status : HostStatus) {ids : List String}
    (hJ : ∀ id ∈ ids, ¬ J id) (hi : I i) : I (ids.foldl (Inner.endSession status) i) := by
  induction ids generalizing i with
  | nil => exact hi
  | cons id ids ih =>
    exact ih (fun x hx => hJ x (List.mem_cons_of_mem _ hx))
      (h.endSession status (hJ id (by simp)) hi)

theorem addSession (h : Announced K J I) {info : SessionInfo} (hJ : J info.session.sessionId)
    (hnew : i.sessions.get? info.session.sessionId = none) (hi : I i) : I (i.addSession info).2 := by
  rcases Inner.addSession_cases info i with
    ⟨-, he⟩ | ⟨-, he⟩ | ⟨-, he⟩ | ⟨p, hp, hid, -, -, he⟩ <;> rw [he]
  · exact hi
  · exact hi
  · exact h.close _ hi
  · exact h.started hp hid hnew hJ hi

theorem addSessions (h : Announced K J I) {l : List (String × SessionInfo)}
    (hl : ∀ e ∈ l, e.2.session.sessionId = e.1 ∧ J e.1) (hi : I i) : I (Inner.addSessions l i).2 := by
  induction l generalizing i with
  | nil => exact hi
  | cons e l ih =>
    have hl' := fun x hx => hl x (List.mem_cons_of_mem _ hx)
    obtain ⟨hid, hJ⟩ := hl e (by simp)
    rw [Inner.addSessions]
    split
    · exact ih hl' hi
    · rename_i hnew
      have hadd : I (i.addSession e.2).2 := h.addSession (hid.symm ▸ hJ)
        (by rw [hid]; simpa [OrdMap.contains, Option.isSome_iff_ne_none] using hnew) hi
      split
      · rename_i ha; rw [ha] at hadd; exact hadd
      · rename_i ha; rw [ha] at hadd; exact ih hl' hadd

theorem advance (h : Announced K J I) (hi : I i) : I i.advance.2 := by
  unfold Inner.advance
  split
  · exact hi
  split
  · rename_i next hnext
    obtain ⟨rfl, -⟩ := checkedAdd_eq_some.mp hnext
    exact h.calm hi ⟨rfl, rfl, rfl, rfl, rfl, Nat.le_succ _⟩ rfl
  · exact h.close _ hi

theorem syncRuntime {status : HostStatus}
    (h : Announced K (fun id => (i.incoming status).contains id = true) I) (now : Instant) (hi : I i) :
    I (i.syncRuntime status now).2 := by
  unfold Inner.syncRuntime
  split
  · exact hi
  dsimp only
  have hgone : ∀ id ∈ i.sessions.keys.filter fun id => !(i.incoming status).contains id,
      ¬ (i.incoming status).contains id = true := fun id hid => by
    simpa using (List.mem_filter.mp hid).2
  have he := h.endSessions status hgone hi
  have ha := h.addSessions (l := (i.incoming status).entries) (fun e hm =>
    ⟨by rw [Inner.incoming_session hm], OrdMap.contains_iff.mpr ⟨e.2, OrdMap.get?_eq_some.mpr hm⟩⟩) he
  split
  · rename_i heq; rw [heq] at ha; exact ha
  · rename_i j heq
    rw [heq] at ha
    have hj : I { j with runtime := status } := h.calm ha ⟨rfl, rfl, rfl, rfl, rfl, le_refl _⟩ rfl
    exact h.settle now (h.advance hj)

theorem commitPoll [SerdeJson] (h : Announced K J I) (ticket : PollTicket) {batch : PollBatch}
    (hK : K batch.pending) (deadline now : Instant) (hi : I i) : I (i.commitPoll ticket batch deadline now).2 := by
  rcases Inner.commitPoll_cases ticket batch deadline now i with
    ⟨r, -, he⟩ | ⟨-, -, he⟩ | ⟨session, staged, hp, he⟩ <;> rw [he]
  · exact hi
  · exact h.close _ hi
  refine h.settle now ?_
  rw [Inner.transact_eq (i := i.record _) hp.stopped hp.found hp.room]
  exact h.publish hp hK hi

theorem discardPoll (h : Announced K J I) (ticket : PollTicket) (resets : List TopicRef) (failed : Bool)
    (now : Instant) (hi : I i) : I (i.discardPoll ticket resets failed now).2 := by
  rcases Inner.discardPoll_cases ticket resets failed now i with
    ⟨-, he⟩ | ⟨-, -, he⟩ | ⟨session, hd, he⟩ <;> rw [he]
  · exact hi
  · exact h.close _ hi
  · exact h.settle now (h.discard hd hi)

theorem subscribe (h : Announced K J I) (request : Subscribe) (clock : Readings) (pace : Nat → Nat)
    (hi : I i) : I (i.subscribe request clock pace).2 := by
  unfold Inner.subscribe
  split
  · exact hi
  have he := h.expire clock.expire hi
  dsimp only
  split
  · exact he
  split
  · exact he
  split
  · exact he
  split
  · exact he
  · rename_i id _
    have hreg : I ((i.expire clock.expire).register id request pace) :=
      h.calm he ⟨rfl, rfl, rfl, rfl, rfl, le_refl _⟩ rfl
    have hs := h.settle clock.settle hreg
    split
    · exact h.calm hs ⟨rfl, rfl, rfl, rfl, rfl, le_refl _⟩ rfl
    · have hun : I ((((i.expire clock.expire).register id request pace).settle
          clock.settle).unregister id) := h.calm hs ⟨rfl, rfl, rfl, rfl, rfl, le_refl _⟩ rfl
      exact h.settle clock.undo hun

end Announced

/-- The sessions that a lifecycle update observes. -/
def Op.observes [SerdeJson] (i : Inner) : Op → String → Prop
  | .updateLifecycle status _ => fun id => (i.incoming status).contains id = true
  | _ => fun _ => False

/-- The batches that the operation publishes satisfy `K`. -/
def Op.Publishing [SerdeJson] (K : Pending → Prop) : Op → Prop
  | .commitPoll _ batch _ _ => K batch.pending
  | _ => True

/-- Every operation preserves what all its effects preserve. -/
theorem Announced.step [Postcard] [SerdeJson] {K : Pending → Prop} {I : Inner → Prop} {i : Inner} {op : Op}
    (h : Announced K (op.observes i) I) (hop : op.Publishing K) (hi : I i) : I (step i op) := by
  cases op with
  | updateLifecycle status now => exact Announced.syncRuntime h now hi
  | subscribe request clock pace => exact h.subscribe request clock pace hi
  | drop id now =>
    exact h.settle now (h.calm hi ⟨rfl, rfl, rfl, rfl, rfl, le_refl _⟩ rfl)
  | commitPoll ticket batch deadline now => exact h.commitPoll ticket hop deadline now hi
  | discardPoll ticket resets failed now => exact h.discardPoll ticket resets failed now hi
  | expire now => exact h.expire now hi
  | shutdown => exact h.close _ hi
  | pop id => exact h.calm hi ⟨rfl, rfl, rfl, rfl, rfl, le_refl _⟩ rfl

theorem Effects.step [Postcard] [SerdeJson] {I : Inner → Prop} {i : Inner} {op : Op}
    (h : Effects (op.observes i) I) (hi : I i) : I (Service.step i op) :=
  h.announced.step (by cases op <;> trivial) hi

end Service
end WfObserver
