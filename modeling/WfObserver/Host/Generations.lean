import Mathlib.Data.List.Find
import WfObserver.Host.Session
import WfObserver.Service.Exhaustion
import WfObserver.Service.Resets
import WfObserver.Service.Tickets

/-!
# The provider is told of foreign generations

The host remembers the ticket of the preceding poll, rebased by that poll's resets if they were
committed (`World.Ok`). A capability is announced with `begin_generation` exactly if its topic was
not demanded then, or is now at a generation that the preceding poll does not explain (`foreign`,
`begin_generation_exact`).
-/

namespace WfObserver
namespace Host

open Service
open Wire hiding CapabilityDescriptor ProviderDescriptor
open ProviderSdk (CapabilityDescriptor PollResult ProviderError ProviderManifest)

/-- What the host remembers of a poll. -/
def Turn.expected (turn : Turn) : PollTicket :=
  if turn.committed then turn.ticket.rebaseResets turn.resets else turn.ticket

/-- The topic was not demanded in the preceding poll, or its generation is not the one that it had
then, advanced by that poll's reset if it was committed. -/
def foreign (previous : Option Turn) (key : TopicRef) (generation : Nat) : Bool :=
  previous.all fun turn => (turn.ticket.find? key).all fun d =>
    generation ≠ d.generation + if turn.committed && turn.resets.contains key then 1 else 0

/-- What holds of a poll of the provider. -/
structure Turn.Ok (sessionId : String) (turn : Turn) : Prop where
  sessionId : turn.ticket.sessionId = sessionId
  keyed : turn.ticket.Keyed
  nodup : turn.resets.Nodup
  /-- A committed reset did not overflow its counter. -/
  room : turn.committed = true → ∀ d ∈ turn.ticket.topics, d.key ∈ turn.resets →
    d.generation < u64Max

section

variable {σ μ : Type} [SerdeJson] [Postcard] [Clock] {P : Provider σ μ}
  {manifests : List ProviderManifest} {w : World σ}

/-- What holds between the steps of a session beside the service. -/
structure World.Ok (P : Provider σ μ) (manifests : List ProviderManifest) (w : World σ) : Prop where
  sound : Sound manifests w.service
  /-- The host remembers the preceding poll. -/
  generations : w.session.generations = w.previous.map Turn.expected
  turn : ∀ turn, w.previous = some turn → turn.Ok w.sessionId
  polled : ∀ ticket batch deadline ended, w.place = .polled ticket batch deadline ended →
    w.previous = some ⟨ticket, batch.resetIntents, false⟩ ∧ batch.manifest = P.manifest
  refused : ∀ ticket resets failed ended, w.place = .refused ticket resets failed ended →
    w.previous = some ⟨ticket, resets, false⟩

/-- The moves of other threads keep to what the service's callers keep to. -/
def Move.Lawful (manifests : List ProviderManifest) (c : Catalog) : Move μ → Prop
  | .service op => op.Lawful manifests c
  | _ => True

omit [Postcard] [Clock] in
theorem pollProvider_batch (demand : List CapabilityDescriptor) (a : Answers μ) (h : HostedSession σ) :
    (h.pollProvider P demand a).2.1.manifest = P.manifest := by
  have hs := P.staged demand (a.now - h.started) a.memory (PollBatch.new P.manifest) h.provider
  unfold HostedSession.pollProvider
  dsimp only
  split
  · exact hs
  · split
    · rename_i he
      exact (congrArg (PollBatch.manifest ∘ Prod.snd) he).symm.trans hs
    · rename_i he
      exact (congrArg (PollBatch.manifest ∘ Prod.snd) he).symm.trans hs

omit [Postcard] [Clock] in
theorem announced_calls (caps : List CapabilityDescriptor) (h : HostedSession σ) :
    (caps.foldl (HostedSession.beginGeneration P) h).calls =
      h.calls ++ caps.map Call.beginGeneration := by
  induction caps generalizing h with
  | nil => simp
  | cons cap caps ih =>
    rw [List.foldl_cons, ih]
    simp [HostedSession.beginGeneration]

omit [Postcard] [Clock] in
theorem pollProvider_session (demand : List CapabilityDescriptor) (a : Answers μ)
    (h : HostedSession σ) :
    (h.pollProvider P demand a).2.2.generations = h.generations ∧
      (h.pollProvider P demand a).2.2.calls = h.calls ++ [.poll demand] := by
  unfold HostedSession.pollProvider
  dsimp only
  split
  · exact ⟨rfl, rfl⟩
  · split <;> exact ⟨rfl, rfl⟩

omit [Postcard] in
/-- The ways in which an attempt goes: the provider is not polled, or it is told of generations, then
polled, and the poll goes on to one of the service's operations. -/
theorem attempt_cases (ticket : PollTicket) (a : Answers μ) (h : HostedSession σ) :
    (∃ place, h.attempt P ticket a = (h, place, none) ∧
      ((h.waits ticket a.now = true ∧ ∃ delay, place = .returned delay) ∨
        a.verified = false ∧ place = .failing ticket)) ∨
    h.waits ticket a.now = false ∧ a.verified = true ∧ ∃ h' place batch,
      h.attempt P ticket a = (h', place, some batch) ∧ batch.manifest = P.manifest ∧
      h'.generations = some ticket ∧
      (∃ rest, h'.calls = h.calls ++ (h.hooks P.manifest ticket).map Call.beginGeneration ++
        .poll (demanded P.manifest ticket) :: rest ∧ ∀ c ∈ rest, c = .pollCompleted false) ∧
      (place = .failing ticket ∨ (∃ ended, place = .refused ticket batch.resetIntents true ended) ∨
        ∃ deadline ended, place = .polled ticket batch deadline ended) := by
  unfold HostedSession.attempt
  split
  · rename_i hw
    exact .inl ⟨_, rfl, .inl ⟨hw, _, rfl⟩⟩
  rename_i hw
  split
  · rename_i hv
    exact .inl ⟨_, rfl, .inr ⟨by simpa using hv, rfl⟩⟩
  rename_i hv
  refine .inr ⟨by simpa using hw, by simpa using hv, ?_⟩
  dsimp only
  have hbatch := pollProvider_batch (P := P) (demanded P.manifest ticket) a
    { (h.hooks P.manifest ticket).foldl (HostedSession.beginGeneration P) h with
      generations := some ticket }
  obtain ⟨hgen, hcalls⟩ := pollProvider_session (P := P) (demanded P.manifest ticket) a
    { (h.hooks P.manifest ticket).foldl (HostedSession.beginGeneration P) h with
      generations := some ticket }
  rw [announced_calls] at hcalls
  revert hbatch hgen hcalls
  generalize HostedSession.pollProvider P (demanded P.manifest ticket) a _ = polled
  obtain ⟨result, batch, h'⟩ := polled
  intro hbatch hgen hcalls
  dsimp only at hbatch hgen hcalls ⊢
  have hdone : (h'.pollCompleted P false).calls =
      h.calls ++ (h.hooks P.manifest ticket).map Call.beginGeneration ++
        [.poll (demanded P.manifest ticket), .pollCompleted false] := by
    simp [HostedSession.pollCompleted, hcalls]
  split
  · exact ⟨_, _, batch, rfl, hbatch, hgen, ⟨_, hdone, by simp⟩, .inl rfl⟩
  split
  · exact ⟨_, _, batch, rfl, hbatch, hgen, ⟨_, hdone, by simp⟩, .inr (.inl ⟨_, rfl⟩)⟩
  split
  · exact ⟨_, _, batch, rfl, hbatch, hgen, ⟨_, hdone, by simp⟩, .inr (.inl ⟨_, rfl⟩)⟩
  · exact ⟨_, _, batch, rfl, hbatch, hgen, ⟨[], hcalls, by simp⟩, .inr (.inr ⟨_, _, rfl⟩)⟩

omit [Clock] in
/-- A service operation keeps the service sound. -/
theorem World.Ok.serve (h : w.Ok P manifests) {op : Op} (hop : op.Lawful manifests w.service.catalog) :
    Sound manifests (Service.step w.service op) :=
  h.sound.step hop

omit [Clock] in
/-- A committed poll has raised the generations of its own resets. -/
theorem committed_room {i : Inner} (h : Sound manifests i) {ticket : PollTicket} {batch : PollBatch}
    {deadline now : Instant} (hm : batch.manifest ∈ manifests)
    (hok : (i.commitPoll ticket batch deadline now).1 = .ok true) :
    ∀ d ∈ ticket.topics, d.key ∈ batch.resetIntents → d.generation < u64Max := by
  intro d hd hr
  have hlawful : (Op.commitPoll ticket batch deadline now).Lawful manifests i.catalog := ⟨hm, trivial⟩
  have hsound : Sound manifests (i.commitPoll ticket batch deadline now).2 := h.step hlawful
  rcases commitPoll_resets h.store h.settled.covered ticket batch deadline now with
    ⟨hne, -⟩ | ⟨-, ⟨session, hs, hfresh⟩, -, hresets⟩
  · exact absurd hok hne
  · obtain ⟨t, ht, -, hg, -⟩ := Inner.of_not_stale hfresh hd
    obtain ⟨s', t', hs', ht', -, hgen⟩ := hresets.topic _ session d.key t hs ht
    have hhit : commitHits ticket batch.resetIntents ticket.sessionId d.key = true := by
      simp [commitHits, hr]
    rw [hhit, if_pos rfl, hg] at hgen
    have := (hsound.within _ s' d.key t' hs' ht').1
    omega

/-- A step of the session beside the service. -/
theorem World.Ok.step (h : w.Ok P manifests) (hP : P.manifest ∈ manifests) {move : Move μ}
    (hm : move.Lawful manifests w.service.catalog) : (w.step P move).Ok P manifests := by
  cases move with
  | service op => exact ⟨h.serve hm, h.generations, h.turn, h.polled, h.refused⟩
  | start a =>
    simp only [World.step, World.start]
    split
    · split
      · exact ⟨h.sound, h.generations, h.turn, fun _ _ _ _ hp => (by cases hp),
          fun _ _ _ _ hp => (by cases hp)⟩
      rename_i ticket hticket
      rcases attempt_cases (P := P) ticket a w.session with
        ⟨place, he, hplace⟩ | ⟨-, -, session, place, batch, he, hbatch, hgen, -, hplace⟩ <;>
        rw [he] <;> dsimp only
      · refine ⟨h.sound, h.generations, h.turn, fun _ _ _ _ hp => ?_, fun _ _ _ _ hp => ?_⟩ <;>
          rcases hplace with ⟨_, delay, rfl⟩ | ⟨_, rfl⟩ <;> cases hp
      · obtain ⟨-, s, -, hsid⟩ := PollTicket.current_some hticket
        refine ⟨h.sound, hgen, fun turn ht => ?_, fun t b deadline ended hp => ?_,
          fun t resets failed ended hp => ?_⟩
        · cases ht
          exact ⟨by rw [hsid], PollTicket.current_keyed hticket, batch.wf.nodup,
            fun hc => by cases hc⟩
        · rcases hplace with rfl | ⟨_, rfl⟩ | ⟨_, _, rfl⟩ <;> cases hp
          exact ⟨rfl, hbatch⟩
        · rcases hplace with rfl | ⟨_, rfl⟩ | ⟨_, _, rfl⟩ <;> cases hp
          rfl
    · exact h
  | fail now =>
    simp only [World.step, World.fail]
    split
    · rename_i ticket _
      have hlawful : (Op.discardPoll ticket [] true now).Lawful manifests w.service.catalog :=
        ⟨trivial, trivial⟩
      exact ⟨h.serve hlawful, h.generations, h.turn, fun _ _ _ _ hp => (by cases hp),
        fun _ _ _ _ hp => (by cases hp)⟩
    · exact h
  | commit now =>
    simp only [World.step, World.commit]
    split
    · rename_i ticket batch deadline ended hplace
      obtain ⟨hprevious, hmanifest⟩ := h.polled _ _ _ _ hplace
      have hin : batch.manifest ∈ manifests := hmanifest ▸ hP
      have hlawful : (Op.commitPoll ticket batch deadline now).Lawful manifests w.service.catalog :=
        ⟨hin, trivial⟩
      have hsound := h.serve hlawful
      have hturn := h.turn _ hprevious
      simp only [Service.step] at hsound
      split
      · rename_i service he
        rw [he] at hsound
        refine ⟨hsound, ?_, fun turn ht => ?_, fun _ _ _ _ hp => (by cases hp),
          fun _ _ _ _ hp => (by cases hp)⟩
        · simp only [HostedSession.committed, HostedSession.pollCompleted, h.generations, hprevious]
          rfl
        · rw [hprevious] at ht
          cases ht
          exact ⟨hturn.sessionId, hturn.keyed, hturn.nodup, fun _ =>
            committed_room h.sound hin (congrArg Prod.fst he)⟩
      · rename_i service he
        rw [he] at hsound
        exact ⟨hsound, h.generations, h.turn, fun _ _ _ _ hp => (by cases hp),
          fun _ _ _ _ hp => (by cases hp; exact hprevious)⟩
      · rename_i e service he
        rw [he] at hsound
        exact ⟨hsound, h.generations, h.turn, fun _ _ _ _ hp => (by cases hp),
          fun _ _ _ _ hp => (by cases hp; exact hprevious)⟩
    · exact h
  | discard now =>
    simp only [World.step, World.discard]
    split
    · rename_i ticket resets failed ended hplace
      have hlawful : (Op.discardPoll ticket resets failed now).Lawful manifests w.service.catalog :=
        ⟨trivial, trivial⟩
      exact ⟨h.serve hlawful, h.generations, h.turn, fun _ _ _ _ hp => (by cases hp),
        fun _ _ _ _ hp => (by cases hp)⟩
    · exact h

/-! ## The announced capabilities -/

/-- The topic of a capability in a session. -/
def topicOf (session : Session) (cap : CapabilityDescriptor) : TopicRef :=
  ⟨session.info.providerId, cap.topic, cap.schemaVersion⟩

/-- The topic of a capability, if it is demanded. -/
def demandedTopic (session : Session) (cap : CapabilityDescriptor) : Option Topic :=
  (session.topics.get? (topicOf session cap)).filter fun t => t.demanded

omit [SerdeJson] [Postcard] [Clock] in
/-- The demand that the host finds for a capability is the one of its topic. -/
theorem demandOf_current {i : Inner} (h : StoreOk manifests i) {id : String} {ticket : PollTicket}
    (ht : PollTicket.current i id = some ticket) {session : Session}
    (hs : i.sessions.get? id = some session) (cap : CapabilityDescriptor) :
    demandOf ticket cap = (demandedTopic session cap).map fun t =>
      ⟨topicOf session cap, t.state.generation, t.epoch⟩ := by
  rw [demandedTopic, ← PollTicket.find?_current ht hs]
  have hprovider : ∀ d ∈ ticket.topics, d.key.providerId = session.info.providerId := by
    intro d hd
    obtain ⟨-, -, s, hs', hd'⟩ := PollTicket.mem_current ht
    obtain rfl : session = s := Option.some.inj (hs.symm.trans hs')
    obtain ⟨t, ht', -⟩ := hd' d hd
    exact ((h.tells.topic id session d.key t hs ht').1).provider
  refine List.find?_congr fun d hd => ?_
  have hp := hprovider d hd
  obtain ⟨⟨providerId, topic, schemaVersion⟩, generation, epoch⟩ := d
  simp only at hp
  rw [Bool.eq_iff_iff]
  simp [topicOf, hp]

omit [SerdeJson] [Postcard] [Clock] in
/-- What the host compares is whether the generation is foreign. -/
theorem sameGeneration_foreign {sessionId : String} {previous : Option Turn}
    (hok : ∀ turn, previous = some turn → turn.Ok sessionId) {ticket : PollTicket} {d : Demand}
    {key : TopicRef} (hd : ticket.find? key = some d) :
    ((previous.map Turn.expected).all fun previous => !ticket.sameGeneration previous key) =
      foreign previous key d.generation := by
  cases previous with
  | none => rfl
  | some turn =>
    have hturn := hok turn rfl
    simp only [Option.map_some, Option.all_some, foreign, PollTicket.sameGeneration_eq hd]
    cases hp : turn.ticket.find? key with
    | none =>
      cases hc : turn.committed <;> simp [Turn.expected, hc, hp, PollTicket.find?_rebaseResets]
    | some p =>
      obtain ⟨hmem, rfl⟩ := PollTicket.find?_mem hp
      cases hc : turn.committed with
      | false => simp [Turn.expected, hc, hp]
      | true =>
        by_cases hr : p.key ∈ turn.resets
        · have hroom := hturn.room hc p hmem hr
          have hsat : saturatingAdd p.generation 1 = p.generation + 1 := by
            unfold saturatingAdd
            omega
          simp [Turn.expected, hc, hp, PollTicket.find?_rebaseResets, hr, hsat]
        · simp [Turn.expected, hc, hp, PollTicket.find?_rebaseResets, hr]

omit [Clock] in
/-- The capabilities that a poll announces. -/
theorem hooks_eq (h : w.Ok P manifests) {ticket : PollTicket} {session : Session}
    (ht : PollTicket.current w.service w.sessionId = some ticket)
    (hs : w.service.sessions.get? w.sessionId = some session) :
    w.session.hooks P.manifest ticket = P.manifest.capabilities.filter fun cap =>
      (demandedTopic session cap).any fun t =>
        foreign w.previous (topicOf session cap) t.state.generation := by
  unfold HostedSession.hooks demanded
  rw [List.filter_filter]
  refine List.filter_congr fun cap _ => ?_
  have hcap := demandOf_current h.sound.store ht hs cap
  rw [hcap]
  cases hdem : demandedTopic session cap with
  | none => rfl
  | some t =>
    have hfind : ticket.find? (topicOf session cap) =
        some ⟨topicOf session cap, t.state.generation, t.epoch⟩ := by
      rw [PollTicket.find?_current ht hs, ← demandedTopic, hdem]
      rfl
    simp only [Option.map_some, Option.isSome_some, Bool.and_true, Option.any_some, h.generations]
    exact sameGeneration_foreign h.turn hfind

/-! ## Runs -/

/-- A session that has just been attached, beside the service. -/
def World.attached (sessionId : String) (provider : σ) (started : Instant) (service : Inner) :
    World σ where
  sessionId
  session := .start provider started
  service

omit [SerdeJson] [Postcard] [Clock] in
theorem attached_ok [SerdeJson] [Postcard] {service : Inner} (h : Sound manifests service)
    (P : Provider σ μ) (sessionId : String) (provider : σ) (started : Instant) :
    (World.attached sessionId provider started service).Ok P manifests where
  sound := h
  generations := rfl
  turn _ h := by cases h
  polled _ _ _ _ h := by cases h
  refused _ _ _ _ h := by cases h

/-- A move is at most one operation of the service. -/
theorem step_service (w : World σ) (move : Move μ) :
    (w.step P move).service = w.service ∨
      ∃ op, (w.step P move).service = Service.step w.service op := by
  cases move with
  | service op => exact .inr ⟨op, rfl⟩
  | start a =>
    refine .inl ?_
    simp only [World.step, World.start]
    split
    · split <;> rfl
    · rfl
  | fail now =>
    simp only [World.step, World.fail]
    split
    · rename_i ticket _
      exact .inr ⟨.discardPoll ticket [] true now, rfl⟩
    · exact .inl rfl
  | commit now =>
    simp only [World.step, World.commit]
    split
    · rename_i ticket batch deadline ended _
      refine .inr ⟨.commitPoll ticket batch deadline now, ?_⟩
      simp only [Service.step]
      split <;> rename_i he <;> rw [he]
    · exact .inl rfl
  | discard now =>
    simp only [World.step, World.discard]
    split
    · rename_i ticket resets failed ended _
      exact .inr ⟨.discardPoll ticket resets failed now, rfl⟩
    · exact .inl rfl

theorem step_catalog (w : World σ) (move : Move μ) :
    (w.step P move).service.catalog = w.service.catalog := by
  rcases step_service (P := P) w move with he | ⟨op, he⟩ <;> rw [he]
  exact (step_grows w.service op).catalog

theorem run_ok {service : Inner} (h : Sound manifests service) (hP : P.manifest ∈ manifests)
    (sessionId : String) (provider : σ) (started : Instant) {moves : List (Move μ)}
    (hmoves : ∀ m ∈ moves, m.Lawful manifests service.catalog) :
    ((World.attached sessionId provider started service).run P moves).Ok P manifests ∧
      ((World.attached sessionId provider started service).run P moves).service.catalog =
        service.catalog :=
  Runs.run_invariant
    (I := fun w : World σ => w.Ok P manifests ∧ w.service.catalog = service.catalog)
    (fun w m hm hw => ⟨hw.1.step hP (hw.2 ▸ hm), (step_catalog w m).trans hw.2⟩) hmoves
    ⟨attached_ok h P sessionId provider started, rfl⟩

/-- Whether a poll reaches the provider. -/
def Polls (w : World σ) (a : Answers μ) (ticket : PollTicket) : Prop :=
  (∃ delay, w.place = .returned delay) ∧
    PollTicket.current w.service w.sessionId = some ticket ∧
    w.session.waits ticket a.now = false ∧ a.verified = true

/-- Before each poll of the provider, `begin_generation` is called once for each demanded capability
whose topic was not demanded in the preceding poll, or has another generation than it had then,
advanced by the preceding poll's own reset if and only if that poll was committed; and for no other
capability. Right after a committed poll, no topic of it has a foreign generation. -/
theorem begin_generation_exact {runId : String} {messageBytes : Nat} {service : Inner}
    (hnew : ServiceState.new manifests runId messageBytes = .ok service)
    (hP : P.manifest ∈ manifests) (sessionId : String) (provider : σ) (started : Instant)
    {moves : List (Move μ)} (hmoves : ∀ m ∈ moves, m.Lawful manifests service.catalog) :
    let w := (World.attached sessionId provider started service).run P moves
    (∀ a ticket session, Polls w a ticket → w.service.sessions.get? w.sessionId = some session →
      (∃ rest, (w.step P (.start a)).session.calls = w.session.calls ++
        (P.manifest.capabilities.filter fun cap => (demandedTopic session cap).any fun t =>
          foreign w.previous (topicOf session cap) t.state.generation).map Call.beginGeneration ++
        .poll (P.manifest.capabilities.filter fun cap => (demandedTopic session cap).isSome) :: rest ∧
          ∀ c ∈ rest, c = .pollCompleted false) ∧
      ∃ resets, (w.step P (.start a)).previous = some ⟨ticket, resets, false⟩) ∧
    (∀ a, (∀ ticket, ¬ Polls w a ticket) → (w.step P (.start a)).session.calls = w.session.calls ∧
      (w.step P (.start a)).previous = w.previous) ∧
    (∀ now ticket batch deadline ended, w.place = .polled ticket batch deadline ended →
      (w.service.commitPoll ticket batch deadline now).1 = .ok true →
      ∀ d ∈ ticket.topics, ∃ session t,
        (w.step P (.commit now)).service.sessions.get? w.sessionId = some session ∧
        session.topics.get? d.key = some t ∧
        foreign (w.step P (.commit now)).previous d.key t.state.generation = false) := by
  intro w
  have hw : w.Ok P manifests := (run_ok (new_sound hnew) hP sessionId provider started hmoves).1
  refine ⟨fun a ticket session ⟨⟨delay, hplace⟩, hticket, hwaits, hverified⟩ hs => ?_,
    fun a hnot => ?_, fun now ticket batch deadline ended hplace hok d hd => ?_⟩
  · have hdemanded : demanded P.manifest ticket = P.manifest.capabilities.filter fun cap =>
        (demandedTopic session cap).isSome := by
      refine List.filter_congr fun cap _ => ?_
      rw [demandOf_current hw.sound.store hticket hs, Option.isSome_map]
    rcases attempt_cases (P := P) ticket a w.session with
      ⟨-, -, ⟨hnot, -⟩ | ⟨hnot, -⟩⟩ | ⟨-, -, h', place, batch, he, -, -, hcalls, -⟩
    · rw [hwaits] at hnot
      cases hnot
    · rw [hverified] at hnot
      cases hnot
    · simp only [World.step, World.start, hplace, hticket, he]
      rw [hooks_eq hw hticket hs, hdemanded] at hcalls
      exact ⟨hcalls, batch.resetIntents, rfl⟩
  · simp only [World.step, World.start]
    split
    · rename_i delay hplace
      split
      · exact ⟨rfl, rfl⟩
      rename_i ticket hticket
      rcases attempt_cases (P := P) ticket a w.session with
        ⟨place, he, -⟩ | ⟨hwaits, hverified, -⟩
      · rw [he]
        exact ⟨rfl, rfl⟩
      · exact absurd ⟨⟨delay, hplace⟩, hticket, hwaits, hverified⟩ (hnot ticket)
    · exact ⟨rfl, rfl⟩
  · obtain ⟨hprevious, hmanifest⟩ := hw.polled _ _ _ _ hplace
    have hturn := hw.turn _ hprevious
    rcases commitPoll_resets hw.sound.store hw.sound.settled.covered ticket batch deadline now with
      ⟨hne, -⟩ | ⟨-, ⟨session, hs, hfresh⟩, -, hresets⟩
    · exact absurd hok hne
    obtain ⟨t, ht, -, hg, -⟩ := Inner.of_not_stale hfresh hd
    obtain ⟨session', t', hs', ht', -, hgen⟩ := hresets.topic _ session d.key t hs ht
    rw [hturn.sessionId] at hs'
    simp only [World.step, World.commit, hplace]
    split
    · rename_i service he
      rw [he] at hs'
      refine ⟨session', t', hs', ht', ?_⟩
      have hfind : ticket.find? d.key = some d := hturn.keyed.find? hd
      rw [hg] at hgen
      simp [foreign, hprevious, hfind, hgen, commitHits]
    · rename_i he
      rw [he] at hok
      cases hok
    · rename_i he
      rw [he] at hok
      cases hok

end

section examples

open TestSupport

instance clock : Clock where
  limit := 2 ^ 62

/-- What the memory tells `probe` to do. -/
inductive Command where
  | publish
  /-- Resets its topics first. -/
  | reset
  /-- Resets its topics, then fails. -/
  | fail
  deriving DecidableEq

/-- `CursorProbe`. -/
def probe : Provider Unit Command where
  manifest := manifest
  beginGeneration _ s := s
  poll demand _ memory batch s :=
    (if memory = .fail then .error (.failed "test rejection") else .ok (.after (seconds 1)),
      demand.foldl (fun batch cap =>
        ((if memory = .publish then batch else (batch.reset cap).2).snapshot cap (7 : Nat)).2) batch,
      s)
  gameBuild _ := none
  pollCompleted _ s := s
  staged demand _ memory batch _ := by
    dsimp only
    induction demand generalizing batch with
    | nil => rfl
    | cons cap demand ih =>
      rw [List.foldl_cons, ih]
      split <;> rfl

/-- A session is observed and its topic demanded; a poll with a reset is committed. -/
def resetMoves : List (Move Command) :=
  [.service (.updateLifecycle (observing "one") 0), .service (.subscribe selection ⟨0, 0, 0⟩ idle),
    .start ⟨0, true, .reset, true, 0⟩, .commit 0]

def reset : World Unit := (World.attached "one" () 0 service).run probe resetMoves

theorem resetMoves_lawful : ∀ m ∈ resetMoves, m.Lawful [manifest] service.catalog := by
  intro m hm
  simp only [resetMoves, List.mem_cons, List.not_mem_nil, or_false] at hm
  rcases hm with rfl | rfl | rfl | rfl
  · refine ⟨trivial, fun t ht _ _ => ?_⟩
    rw [List.mem_singleton.mp ht]
    exact ⟨_, List.mem_singleton.mpr rfl, rfl⟩
  · exact ⟨trivial, trivial⟩
  · trivial
  · trivial

/-- The provider knows of its own committed reset: the next poll announces nothing. -/
theorem begin_generation_exact_committed : ∃ rest,
    (reset.step probe (.start ⟨seconds 2, true, .publish, true, seconds 2⟩)).session.calls =
      [.beginGeneration ⟨"fixture.count", 1, some .full, true⟩,
        .poll [⟨"fixture.count", 1, some .full, true⟩], .pollCompleted true,
        .poll [⟨"fixture.count", 1, some .full, true⟩]] ++ rest := by
  obtain ⟨session, hs⟩ : ∃ session, reset.service.sessions.get? "one" = some session :=
    Option.isSome_iff_exists.mp (by decide +kernel)
  obtain ⟨⟨rest, hcalls, -⟩, -⟩ := (begin_generation_exact (P := probe) new_service (by decide) "one"
    () 0 resetMoves_lawful).1 ⟨seconds 2, true, .publish, true, seconds 2⟩ ⟨"one", [⟨topic, 3, 2⟩]⟩ session
    ⟨⟨some (seconds 1), rfl⟩, by decide +kernel, by decide +kernel, rfl⟩ hs
  refine ⟨rest, ?_⟩
  have hsession : session = (reset.service.sessions.get? "one").getD
      ⟨⟨⟨"run", "one"⟩, "fixture.provider", "fixture", ⟨1, "fixture.exe"⟩, none⟩, ∅⟩ := by
    rw [hs]
    rfl
  have hnone : (probe.manifest.capabilities.filter fun cap => (demandedTopic session cap).any fun t =>
      foreign reset.previous (topicOf session cap) t.state.generation) = [] := by
    rw [hsession]
    decide +kernel
  have hone : (probe.manifest.capabilities.filter fun cap => (demandedTopic session cap).isSome) =
      [⟨"fixture.count", 1, some .full, true⟩] := by
    rw [hsession]
    decide +kernel
  have hbefore : reset.session.calls = [.beginGeneration ⟨"fixture.count", 1, some .full, true⟩,
      .poll [⟨"fixture.count", 1, some .full, true⟩], .pollCompleted true] := by
    decide +kernel
  rw [show (World.attached "one" () 0 service).run probe resetMoves = reset from rfl, hnone, hone,
    hbefore] at hcalls
  exact hcalls

end examples

end Host
end WfObserver
