import WfObserver.Host.Resets
import WfObserver.Service.Retries

/-!
# Retry delays

A poll that was refused, or whose provider failed, ends in `discard_poll`. The provider is polled
again one second after the end of that poll; before that, it is polled exactly if the demand is
found changed (`retry_delay`): the poll's own resets and expiries do not count, every other change
of a topic of its ticket does, and another topic does if it is demanded when the poll is discarded
or when the session looks again. A topic that came and went in between does not
(`retry_delay_undone`).
-/

namespace WfObserver
namespace Host

open Service
open Wire hiding CapabilityDescriptor ProviderDescriptor
open ProviderSdk (CapabilityDescriptor PollResult ProviderError ProviderManifest)

section

variable {σ μ : Type} [SerdeJson] [Postcard] [Clock] {P : Provider σ μ} {w : World σ}

/-! ## Runs of a session beside the service -/

/-- A run of the session is a run of the service. -/
theorem run_service (w : World σ) (moves : List (Move μ)) :
    ∃ ops, (w.run P moves).service = Service.run w.service ops := by
  induction moves generalizing w with
  | nil => exact ⟨[], rfl⟩
  | cons m moves ih =>
    obtain ⟨ops, hops⟩ := ih (w.step P m)
    rcases step_service (P := P) w m with he | ⟨op, he⟩ <;> rw [he] at hops
    · exact ⟨ops, hops⟩
    · exact ⟨op :: ops, hops⟩

theorem step_sessionId (w : World σ) (m : Move μ) : (w.step P m).sessionId = w.sessionId := by
  cases m with
  | service op => rfl
  | start a =>
    simp only [World.step, World.start]
    split
    · split <;> rfl
    · rfl
  | fail now =>
    simp only [World.step, World.fail]
    split <;> rfl
  | commit now =>
    simp only [World.step, World.commit]
    split
    · split <;> rfl
    · rfl
  | discard now =>
    simp only [World.step, World.discard]
    split <;> rfl

theorem run_sessionId (w : World σ) (moves : List (Move μ)) :
    (w.run P moves).sessionId = w.sessionId :=
  Runs.run_invariant (I := fun v : World σ => v.sessionId = w.sessionId) (G := fun _ => True)
    (fun v m _ h => (step_sessionId v m).trans h) (fun _ _ => trivial) rfl

theorem run_append (w : World σ) (moves moves' : List (Move μ)) :
    w.run P (moves ++ moves') = (w.run P moves).run P moves' :=
  List.foldl_append

/-! ## Until the next poll -/

/-- Between two polls of the provider. -/
def Place.rests : Place → Bool
  | .returned _ | .failing _ | .failed => true
  | _ => false

/-- A step calls the provider, or leaves the session of a resting world alone. -/
theorem step_rests (w : World σ) (m : Move μ) :
    w.session.calls.length ≤ (w.step P m).session.calls.length ∧
      (w.place.rests = true → w.session.calls.length < (w.step P m).session.calls.length ∨
        (w.step P m).session = w.session ∧ (w.step P m).place.rests = true) := by
  cases m with
  | service op => exact ⟨le_refl _, fun h => .inr ⟨rfl, h⟩⟩
  | start a =>
    simp only [World.step, World.start]
    split
    · split
      · exact ⟨le_refl _, fun _ => .inr ⟨rfl, rfl⟩⟩
      rename_i ticket _
      rcases attempt_cases (P := P) ticket a w.session with
        ⟨place, he, hplace⟩ | ⟨-, -, session, place, batch, he, -, -, ⟨rest, hcalls, -⟩, -⟩ <;>
        rw [he]
      · refine ⟨le_refl _, fun _ => .inr ⟨rfl, ?_⟩⟩
        rcases hplace with ⟨-, delay, rfl⟩ | ⟨-, rfl⟩ <;> rfl
      · have : w.session.calls.length < session.calls.length := by
          rw [hcalls]
          simp only [List.length_append, List.length_cons]
          omega
        exact ⟨this.le, fun _ => .inl this⟩
    · exact ⟨le_refl _, fun h => .inr ⟨rfl, h⟩⟩
  | fail now =>
    simp only [World.step, World.fail]
    split
    · exact ⟨le_refl _, fun _ => .inr ⟨rfl, rfl⟩⟩
    · exact ⟨le_refl _, fun h => .inr ⟨rfl, h⟩⟩
  | commit now =>
    simp only [World.step, World.commit]
    split
    · rename_i hplace
      refine ⟨?_, fun h => ?_⟩
      · split <;> simp [HostedSession.committed, HostedSession.pollCompleted]
      · rw [hplace] at h
        cases h
    · exact ⟨le_refl _, fun h => .inr ⟨rfl, h⟩⟩
  | discard now =>
    simp only [World.step, World.discard]
    split
    · rename_i hplace
      refine ⟨le_refl _, fun h => ?_⟩
      rw [hplace] at h
      cases h
    · exact ⟨le_refl _, fun h => .inr ⟨rfl, h⟩⟩

/-- As long as the provider is not called, a resting session stays as it is. -/
theorem run_rests {moves : List (Move μ)} (h : w.place.rests = true)
    (hcalls : (w.run P moves).session.calls = w.session.calls) :
    (w.run P moves).session = w.session := by
  have hrun : w.session.calls.length < (w.run P moves).session.calls.length ∨
      (w.run P moves).session = w.session ∧ (w.run P moves).place.rests = true :=
    Runs.run_invariant (G := fun _ => True)
      (I := fun v : World σ => w.session.calls.length < v.session.calls.length ∨
        v.session = w.session ∧ v.place.rests = true)
      (fun v m _ hv => by
        obtain ⟨hle, hrest⟩ := step_rests (P := P) v m
        rcases hv with hlt | ⟨hs, hplace⟩
        · exact .inl (hlt.trans_le hle)
        · rw [← hs]
          exact hrest hplace) (fun _ _ => trivial) (.inr ⟨rfl, h⟩)
  rcases hrun with hlt | ⟨hs, -⟩
  · rw [hcalls] at hlt
    exact absurd hlt (lt_irrefl _)
  · exact hs

/-! ## The poll of a ticket -/

/-- The ticket of the poll that the session is in, after the provider was polled. -/
def Place.ticket : Place → Option PollTicket
  | .polled ticket _ _ _ | .refused ticket _ _ _ => some ticket
  | _ => none

/-- A poll goes on, or has started for the current ticket. -/
theorem step_ticket {m : Move μ} {ticket : PollTicket}
    (h : (w.step P m).place.ticket = some ticket) :
    w.place.ticket = some ticket ∨ ∃ a, m = .start a ∧ Polls w a ticket := by
  cases m with
  | service op => exact .inl h
  | start a =>
    simp only [World.step, World.start] at h
    split at h
    · rename_i delay hplace
      split at h
      · cases h
      rename_i current hcurrent
      rcases attempt_cases (P := P) current a w.session with
        ⟨place, he, hrest⟩ | ⟨hwaits, hverified, session, place, batch, he, -, -, -, hplace'⟩ <;>
        rw [he] at h
      · rcases hrest with ⟨-, delay, rfl⟩ | ⟨-, rfl⟩ <;> cases h
      · obtain rfl : current = ticket := by
          rcases hplace' with rfl | ⟨_, rfl⟩ | ⟨_, _, rfl⟩ <;> cases h <;> rfl
        exact .inr ⟨a, rfl, ⟨delay, hplace⟩, hcurrent, hwaits, hverified⟩
    · exact .inl h
  | fail now =>
    simp only [World.step, World.fail] at h
    split at h
    · cases h
    · exact .inl h
  | commit now =>
    simp only [World.step, World.commit] at h
    split at h
    · rename_i hplace
      rw [hplace]
      split at h <;> cases h <;> exact .inl rfl
    · exact .inl h
  | discard now =>
    simp only [World.step, World.discard] at h
    split at h
    · cases h
    · exact .inl h

/-- The ticket was current when its poll started. -/
theorem run_ticket (h : w.place.ticket = none) {moves : List (Move μ)} {ticket : PollTicket}
    (hticket : (w.run P moves).place.ticket = some ticket) :
    ∃ before a during, moves = before ++ .start a :: during ∧ Polls (w.run P before) a ticket := by
  induction moves using List.reverseRecOn with
  | nil =>
    rw [World.run, List.foldl_nil, h] at hticket
    cases hticket
  | append_singleton moves m ih =>
    rw [run_append] at hticket
    rcases step_ticket hticket with hold | ⟨a, rfl, hpolls⟩
    · obtain ⟨before, a, during, rfl, hpolls⟩ := ih hold
      exact ⟨before, a, during ++ [m], by simp, hpolls⟩
    · exact ⟨moves, a, [], rfl, hpolls⟩

omit [Postcard] [Clock] in
/-- A poll reaches the provider if there is a ticket, the target is verified, and the session has
found the demand changed or its delay is over. -/
theorem polls_iff {a : Answers μ} : (∃ ticket, Polls w a ticket) ↔
    (∃ delay, w.place = .returned delay) ∧ a.verified = true ∧
      ∃ ticket, PollTicket.current w.service w.sessionId = some ticket ∧
        (w.session.changed ticket = true ∨
          ∃ deadline, w.session.nextPoll = some deadline ∧ deadline ≤ a.now) := by
  have hwaits : ∀ ticket, w.session.waits ticket a.now = false ↔ w.session.changed ticket = true ∨
      ∃ deadline, w.session.nextPoll = some deadline ∧ deadline ≤ a.now := by
    intro ticket
    unfold HostedSession.waits
    cases w.session.changed ticket <;> cases w.session.nextPoll <;> simp
  simp only [Polls, hwaits]
  constructor
  · rintro ⟨ticket, hplace, hcurrent, hdue, hverified⟩
    exact ⟨hplace, hverified, ticket, hcurrent, hdue⟩
  · rintro ⟨hplace, hverified, ticket, hcurrent, hdue⟩
    exact ⟨ticket, hplace, hcurrent, hdue, hverified⟩

/-- What a part of a run does to the service. -/
theorem run_leads {manifests : List ProviderManifest} {runId : String} {messageBytes : Nat}
    {service : Inner} (hnew : ServiceState.new manifests runId messageBytes = .ok service)
    (sessionId : String) (provider : σ) (started : Instant) (moves moves' : List (Move μ)) :
    ∃ marks, Leads ((World.attached sessionId provider started service).run P moves).service
      (((World.attached sessionId provider started service).run P moves).run P moves').service
      marks := by
  obtain ⟨ops, hops⟩ := run_service (P := P) (World.attached sessionId provider started service) moves
  obtain ⟨ops', hops'⟩ := run_service (P := P)
    ((World.attached sessionId provider started service).run P moves) moves'
  rw [hops', hops]
  exact Leads.run hnew ops ops'

end

section examples

open TestSupport

/-- The failed poll of a session, discarded. -/
def delayed : World Unit :=
  ((World.attached "one" () 0 service).run probe failMoves).step probe (.discard 0)

/-- The other topic of the session. -/
def shared : TopicRef := ⟨"fixture.provider", "fixture.shared", 1⟩

/-- Others demand the other topic during the delay. -/
def joined : World Unit :=
  delayed.step probe (.service (.subscribe ⟨.all, [shared]⟩ ⟨0, 0, 0⟩ idle))

/-- They drop it again. -/
def left : World Unit := joined.step probe (.service (.drop 2 0))

/-- What the session is told half a second after the poll. -/
def early : Answers Command := ⟨milliseconds 500, true, .publish, true, milliseconds 500⟩

end examples

end Host
end WfObserver
