import WfObserver.Host.Generations

/-!
# A source reset takes effect once

Every poll that passes its final verification ends in a published commit, or in a discard after a
refused commit or a provider error. Whichever it is, the declared topics are reset once
(`source_resets_once`), and the ticket resets none of them again.
-/

namespace WfObserver
namespace Host

open Service
open Wire hiding CapabilityDescriptor ProviderDescriptor
open ProviderSdk (CapabilityDescriptor PollResult ProviderError ProviderManifest)

/-- No source reset of the topic is announced, and its generation stays. -/
def Spared (i i' : Inner) (id : String) (key : TopicRef) : Prop :=
  ∃ us, i'.log = i.log ++ us ∧ sourceResets (id, key) (us.map (·.update)) = [] ∧
    ∀ s t, i.sessions.get? id = some s → s.topics.get? key = some t →
      ∃ s' t', i'.sessions.get? id = some s' ∧ s'.topics.get? key = some t' ∧
        t'.state.generation = t.state.generation

theorem Spared.refl (i : Inner) (id : String) (key : TopicRef) : Spared i i id key :=
  ⟨[], by simp, rfl, fun s t hs ht => ⟨s, t, hs, ht, rfl⟩⟩

theorem close_spared (e : SubscriptionEnd) (i : Inner) (id : String) (key : TopicRef) :
    Spared i (i.close e) id key := by
  refine ⟨[], by simp, rfl, fun s t hs ht => ?_⟩
  obtain ⟨s', t', hs', -, ht', hw⟩ := (close_wanes e i).topic id s key t hs ht
  exact ⟨s', t', hs', ht', hw.generation⟩

theorem resets_spared {hit : String → TopicRef → Bool} {i i' : Inner} (h : Resets hit i i')
    {id : String} {s : Session} {key : TopicRef} {t : Topic} (hs : i.sessions.get? id = some s)
    (ht : s.topics.get? key = some t) (hnot : hit id key = false) : Spared i i' id key := by
  obtain ⟨us, hl, hus⟩ := h.announced
  refine ⟨us, hl, by rw [hus id s key t hs ht, hnot]; rfl, fun s t hs ht => ?_⟩
  obtain ⟨s', t', hs', ht', -, hg⟩ := h.topic id s key t hs ht
  rw [hnot] at hg
  exact ⟨s', t', hs', ht', hg⟩

section

variable {σ μ : Type} [SerdeJson] [Postcard] [Clock] {P : Provider σ μ}
  {manifests : List ProviderManifest} {w : World σ}

/-- The service closes as it is. -/
def Closes (i i' : Inner) : Prop := i.stopped = false ∧ i' = i.close Inner.exhausted

omit [SerdeJson] [Clock] in
/-- What discarding a poll does to the service: nothing, if the service or the session is gone; it
closes it as it is exactly if a counter that its own updates need is exhausted; otherwise it resets
the declared topics once, and if the poll was merely stale it leaves the others to `settle`. -/
inductive Discarded (ticket : PollTicket) (resets : List TopicRef) (failed : Bool) (i i' : Inner) :
    Prop where
  | gone : i.stopped = true ∨ i.sessions.get? ticket.sessionId = none → i' = i →
      Discarded ticket resets failed i i'
  | closed : i.DiscardExhausts ticket resets failed → Closes i i' →
      Discarded ticket resets failed i i'
  | applied : ¬ (i.stopped = false ∧ i.DiscardExhausts ticket resets failed) →
      Resets (declared ticket resets i) i i' →
      (failed = false → ∀ id s key t, i.sessions.get? id = some s → s.topics.get? key = some t →
        declared ticket resets i id key = false →
          ∃ s' t', i'.sessions.get? id = some s' ∧ s'.topics.get? key = some t' ∧
            t.Wanes i'.stopped t') →
      Discarded ticket resets failed i i'

omit [SerdeJson] [Clock] in
theorem discardPoll_discarded {i : Inner} (h : Sound manifests i) (ticket : PollTicket)
    (resets : List TopicRef) (failed : Bool) (now : Instant) :
    Discarded ticket resets failed i (i.discardPoll ticket resets failed now).2 := by
  by_cases hex : i.stopped = false ∧ i.DiscardExhausts ticket resets failed
  · exact .closed hex.2 ⟨hex.1, congrArg Prod.snd (Inner.discardPoll_exhausts now hex.1 hex.2)⟩
  rcases discardPoll_resets h.store h.settled.covered ticket resets failed now with
    ⟨hgone, he⟩ | ⟨hopen, hd, -⟩ | ⟨session, hs, hresets, hkept⟩
  · exact .gone hgone he
  · exact absurd ⟨hopen, hd⟩ hex
  refine .applied hex ?_ fun hstale id s key t hid ht hnot => ?_
  · exact hresets.congr fun id s key t hid ht => discardHits_declared hs hid ht
  · refine hkept id s key t hid ht fun hsame => ?_
    subst hsame hstale
    obtain rfl : session = s := Option.some.inj (hs.symm.trans hid)
    exact affected_stale hs ht hnot

omit [SerdeJson] [Clock] in
/-- Discarding a poll spares the topics that are not declared. -/
theorem discardPoll_spares {i : Inner} (h : Sound manifests i) {ticket : PollTicket}
    {resets : List TopicRef} (failed : Bool) (now : Instant) {id : String} {s : Session}
    {key : TopicRef} {t : Topic} (hs : i.sessions.get? id = some s)
    (ht : s.topics.get? key = some t) (hnot : declared ticket resets i id key = false) :
    Spared i (i.discardPoll ticket resets failed now).2 id key := by
  cases discardPoll_discarded h ticket resets failed now with
  | gone _ he =>
    rw [he]
    exact .refl i id key
  | closed _ he =>
    rw [he.2]
    exact close_spared _ i id key
  | applied _ hresets _ => exact resets_spared hresets hs ht hnot

omit [SerdeJson] [Clock] in
theorem discardPoll_stopped {i : Inner} (h : i.stopped = true) (ticket : PollTicket)
    (resets : List TopicRef) (failed : Bool) (now : Instant) :
    (i.discardPoll ticket resets failed now).2 = i := by
  unfold Inner.discardPoll
  rw [if_pos h]

omit [Clock] in
/-- A discarded ticket resets nothing again. -/
theorem discardPoll_again {i : Inner} (h : Sound manifests i) {ticket : PollTicket}
    (hkeyed : ticket.Keyed) {resets : List TopicRef} {failed : Bool} {now : Instant} {ops : List Op}
    (hops : ∀ op ∈ ops, op.Lawful manifests i.catalog) {marks : List Mark}
    (hmarks : (Service.run (i.discardPoll ticket resets failed now).2 ops).history =
      (i.discardPoll ticket resets failed now).2.history ++ marks)
    {id : String} (hlasts : .started id ∉ marks) {s s' : Session} {key : TopicRef} {t t' : Topic}
    (hs : i.sessions.get? id = some s) (ht : s.topics.get? key = some t)
    (hd : declared ticket resets i id key = true)
    (hs' : (Service.run (i.discardPoll ticket resets failed now).2 ops).sessions.get? id = some s')
    (ht' : s'.topics.get? key = some t') (failed' : Bool) (now' : Instant) :
    Spared (Service.run (i.discardPoll ticket resets failed now).2 ops)
      ((Service.run (i.discardPoll ticket resets failed now).2 ops).discardPoll ticket resets failed'
        now').2 id key := by
  have hstopped : (i.discardPoll ticket resets failed now).2.stopped = true →
      Spared (Service.run (i.discardPoll ticket resets failed now).2 ops)
        ((Service.run (i.discardPoll ticket resets failed now).2 ops).discardPoll ticket resets
          failed' now').2 id key := by
    intro hstop
    rw [discardPoll_stopped ((run_grows _ ops).stopped hstop)]
    exact .refl _ id key
  cases discardPoll_discarded h ticket resets failed now with
  | gone hgone he =>
    rcases hgone with hstop | hnone
    · exact hstopped (by rw [he]; exact hstop)
    · obtain ⟨rfl, -⟩ := (declared_iff hs ht).mp hd
      rw [hnone] at hs
      cases hs
  | closed _ hclosed => exact hstopped (by rw [hclosed.2]; rfl)
  | applied _ hresets _ =>
    have hall : ∀ op ∈ Op.discardPoll ticket resets failed now :: ops,
        op.Lawful manifests i.catalog := by
      intro op hop
      rcases List.mem_cons.mp hop with rfl | hop
      · exact ⟨trivial, trivial⟩
      · exact hops op hop
    have hsound : Sound manifests (Service.run (i.discardPoll ticket resets failed now).2 ops) :=
      run_sound h hall
    refine discardPoll_spares hsound failed' now' hs' ht' ?_
    refine declared_once hkeyed (fun id s key t hs ht hd => ?_) hmarks hlasts hs ht hd resets
    obtain ⟨s', t', hs', ht', -, hg⟩ := hresets.topic id s key t hs ht
    rw [hd, if_pos rfl] at hg
    exact ⟨s', t', hs', ht', hg⟩

end

section examples

open TestSupport

/-- A session is observed and its topic demanded; the provider fails after a reset. -/
def failMoves : List (Move Command) :=
  [.service (.updateLifecycle (observing "one") 0), .service (.subscribe selection ⟨0, 0, 0⟩ idle),
    .start ⟨0, true, .fail, true, 0⟩]

/-- A service whose queues hold no large update, and that has few sequences left. -/
def brink : Inner := { service with messageBytes := 180, sequence := u64Max - 7 }

theorem brink_sound : Sound [manifest] brink := by
  have hnew : ServiceState.new [manifest] "run" 180 = .ok { service with messageBytes := 180 } := rfl
  exact (new_sound hnew).later (Nat.zero_le _) (Nat.sub_le _ _)

def failed : World Unit := (World.attached "one" () 0 brink).run probe failMoves

theorem failMoves_lawful : ∀ m ∈ failMoves, m.Lawful [manifest] brink.catalog := by
  intro m hm
  simp only [failMoves, List.mem_cons, List.not_mem_nil, or_false] at hm
  rcases hm with rfl | rfl | rfl
  · refine ⟨trivial, fun t ht _ _ => ?_⟩
    rw [List.mem_singleton.mp ht]
    exact ⟨_, List.mem_singleton.mpr rfl, rfl⟩
  · exact ⟨trivial, trivial⟩
  · trivial

/-- The generations of a session's topics. -/
def generations (i : Inner) (id : String) : List Nat :=
  ((i.sessions.get? id).map fun s => s.topics.values.map fun t => t.state.generation).getD []

end examples

end Host
end WfObserver
