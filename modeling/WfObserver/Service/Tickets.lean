import WfObserver.Service.Fencing

/-!
# Tickets

A ticket that the service has given out names a topic at most once (`PollTicket.Keyed`), and names
exactly the demanded topics of its session, at their counters (`PollTicket.find?_current`). Rebasing
a ticket moves the demands of the reset topics (`PollTicket.find?_rebaseResets`).
-/

namespace WfObserver
namespace Service

open Wire

namespace PollTicket

variable {ticket previous : PollTicket} {key : TopicRef} {resets : List TopicRef}

/-- No topic is named twice. -/
def Keyed (ticket : PollTicket) : Prop := (ticket.topics.map Demand.key).Nodup

theorem find?_mem {d : Demand} (h : ticket.find? key = some d) : d ∈ ticket.topics ∧ d.key = key :=
  ⟨List.mem_of_find?_eq_some h, by simpa using List.find?_some h⟩

theorem Keyed.find? (h : ticket.Keyed) {d : Demand} (hd : d ∈ ticket.topics) :
    ticket.find? d.key = some d := by
  unfold Keyed at h
  unfold PollTicket.find?
  generalize ticket.topics = topics at h hd
  induction topics with
  | nil => cases hd
  | cons e l ih =>
    obtain ⟨hnot, hl⟩ := List.nodup_cons.mp h
    rcases List.mem_cons.mp hd with rfl | hd
    · simp
    · have hne : e.key ≠ d.key := fun he => hnot (he ▸ List.mem_map_of_mem hd)
      rw [List.find?_cons_of_neg (by simpa using hne)]
      exact ih hl hd

theorem find?_rebaseResets (ticket : PollTicket) (resets : List TopicRef) (key : TopicRef) :
    (ticket.rebaseResets resets).find? key = (ticket.find? key).map fun d =>
      if resets.contains key then
        { d with generation := saturatingAdd d.generation 1, epoch := saturatingAdd d.epoch 1 }
      else d := by
  unfold find? rebaseResets
  dsimp only
  induction ticket.topics with
  | nil => rfl
  | cons e l ih =>
    rw [List.map_cons]
    by_cases hk : e.key = key
    · subst hk
      split
      · rw [List.find?_cons_of_pos (by simp), List.find?_cons_of_pos (by simp)]
        rfl
      · rw [List.find?_cons_of_pos (by simp), List.find?_cons_of_pos (by simp)]
        rfl
    · rw [List.find?_cons_of_neg (by split <;> simpa using hk),
        List.find?_cons_of_neg (by simpa using hk), ih]

/-- A topic goes on if both tickets name it at one generation. -/
theorem sameGeneration_eq {d : Demand} (h : ticket.find? key = some d) :
    ticket.sameGeneration previous key =
      (previous.find? key).any fun p => decide (d.generation = p.generation) := by
  unfold sameGeneration
  rw [h]
  cases previous.find? key with
  | none => rfl
  | some p => simp [BEq.beq]

theorem current_some {i : Inner} {id : String} (h : current i id = some ticket) :
    i.stopped = false ∧ ∃ s, i.sessions.get? id = some s ∧ ticket = ⟨id, demands s.topics⟩ := by
  unfold current at h
  split at h
  · cases h
  rename_i hstop
  obtain ⟨s, hs, rfl⟩ := Option.map_eq_some_iff.mp h
  exact ⟨by simpa using hstop, s, hs, rfl⟩

theorem current_keyed {i : Inner} {id : String} (h : current i id = some ticket) : ticket.Keyed := by
  obtain ⟨-, s, -, rfl⟩ := current_some h
  unfold Keyed demands
  rw [List.map_map]
  exact (s.topics.filter fun _ t => t.demanded).keys_nodup

/-- A ticket of the service names the demanded topics. -/
theorem find?_current {i : Inner} {id : String} (h : current i id = some ticket) {s : Session}
    (hs : i.sessions.get? id = some s) (key : TopicRef) :
    ticket.find? key = ((s.topics.get? key).filter fun t => t.demanded).map fun t =>
      ⟨key, t.state.generation, t.epoch⟩ := by
  have hkeyed := current_keyed h
  obtain ⟨-, s', hs', rfl⟩ := current_some h
  obtain rfl : s = s' := Option.some.inj (hs.symm.trans hs')
  ext d
  constructor
  · intro hd
    obtain ⟨hm, rfl⟩ := find?_mem hd
    obtain ⟨e, he, rfl⟩ := List.mem_map.mp hm
    have := OrdMap.get?_filter_some.mp (OrdMap.get?_eq_some.mpr he)
    simp [this.1, this.2]
  · intro hd
    obtain ⟨t, ht, rfl⟩ := Option.map_eq_some_iff.mp hd
    obtain ⟨ht, hdem⟩ := Option.filter_eq_some_iff.mp ht
    refine hkeyed.find? (d := ⟨key, t.state.generation, t.epoch⟩) (List.mem_map.mpr ⟨(key, t), ?_, rfl⟩)
    exact OrdMap.get?_eq_some.mp (OrdMap.get?_filter_some.mpr ⟨ht, hdem⟩)

end PollTicket

end Service
end WfObserver
