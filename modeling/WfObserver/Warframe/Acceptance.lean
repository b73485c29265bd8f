import WfObserver.Host.Generations
import WfObserver.Service.Acceptance
import WfObserver.Warframe.Provider
import WfObserver.Warframe.Session.Batches

/-!
# The host rejects polls only for their size

A batch of the provider is well formed (`Session.poll_wellFormed`). So in every run of the host beside
the service, a poll that returned can be rejected for its size, or because its ticket has become stale,
but not for what it has staged (`commit_rejects_size`).
-/

namespace WfObserver
namespace Warframe

open ProviderSdk (CapabilityDescriptor ProviderManifest)
open Service hiding topicKey
open Wire hiding CapabilityDescriptor ProviderDescriptor
open Session
open Host (World HostedSession Move Answers demandOf)

/-! ## Well-formed operations -/

theorem applyOps_opsOf (deadline : Instant) (k : TopicRef) (ops : List Operation) (old : Topic) :
    StagedPublication.applyOps deadline k (opsOf k ops) old
      = StagedPublication.applyOps deadline k ops old := by
  rw [StagedPublication.applyOps, StagedPublication.applyOps, opsOf, List.filter_filter]
  simp only [Bool.and_self]

/-- An event does not change its topic. -/
theorem applyOps_events {deadline : Instant} {k : TopicRef} {before events : List Operation}
    {old t : Topic} (hevents : ∀ op ∈ events, ∃ payload, op = .event k payload)
    (hap : StagedPublication.applyOps deadline k (before ++ events) old = .ok t) :
    StagedPublication.applyOps deadline k before old = .ok t := by
  induction events using List.reverseRecOn with
  | nil => rwa [List.append_nil] at hap
  | append_singleton events op ih =>
    obtain ⟨payload, rfl⟩ := hevents op (by simp)
    rw [← List.append_assoc] at hap
    obtain ⟨t₀, h₀, ⟨-, hs⟩ | ⟨-, rfl⟩⟩ := StagedPublication.applyOps_snoc hap
    · cases hs
      exact ih (fun op hop => hevents op (by simp [hop])) h₀
    · exact ih (fun op hop => hevents op (by simp [hop])) h₀

/-- What is reset or unavailable is not available. -/
theorem applyOps_silent {deadline : Instant} {k : TopicRef} {ops : List Operation} {old t : Topic}
    (hne : ops ≠ []) (hkeys : ∀ op ∈ ops, op.key = k) (h : ∀ op ∈ ops, published op = false)
    (hap : StagedPublication.applyOps deadline k ops old = .ok t) : t.state.health ≠ .available := by
  obtain ⟨before, op, rfl⟩ := (List.eq_nil_or_concat ops).resolve_left hne
  rw [List.concat_eq_append] at hkeys h hap
  have hop : published op = false := h op (by simp)
  obtain ⟨t₀, -, ⟨-, hs⟩ | ⟨hk, -⟩⟩ := StagedPublication.applyOps_snoc hap
  · cases op with
    | reset key =>
      simp only [StagedPublication.stageTopic] at hs
      split at hs
      · cases hs
      · split at hs <;> cases hs
        intro hhealth
        cases hhealth
    | snapshot | event => cases hop
    | health key health =>
      cases hs
      rintro rfl
      cases hop
  · exact absurd (hkeys op (by simp)) hk

/-- A topic that ends available has what its capability promises. -/
theorem Session.Staged.sensible {cap : CapabilityDescriptor} {deadline : Instant} {ops : List Operation}
    {old t : Topic} (h : Staged cap (opsOf (key cap) ops)) (hne : ∃ op ∈ ops, op.key = key cap)
    (hap : StagedPublication.applyOps deadline (key cap) ops old = .ok t) :
    (t.state.health = .available → cap.snapshots.isSome → t.state.snapshot.isSome) ∧
      ∀ payload, .event (key cap) payload ∈ ops → t.state.health = .available := by
  have hmem : opsOf (key cap) ops ≠ [] := by
    obtain ⟨op, hop, hk⟩ := hne
    exact List.ne_nil_of_mem (mem_opsOf.mpr ⟨hop, hk⟩)
  have hkeys : ∀ op ∈ opsOf (key cap) ops, op.key = key cap := fun op hop => (mem_opsOf.mp hop).2
  have hevent : ∀ payload, .event (key cap) payload ∈ ops →
      .event (key cap) payload ∈ opsOf (key cap) ops :=
    fun payload hop => mem_opsOf.mpr ⟨hop, rfl⟩
  rw [← applyOps_opsOf] at hap
  revert h hap hmem hkeys hevent
  generalize opsOf (key cap) ops = xs
  intro h hap hmem hkeys hevent
  cases h with
  | silent h =>
    have hhealth := applyOps_silent hmem hkeys h hap
    refine ⟨fun havailable => absurd havailable hhealth, fun payload hop => ?_⟩
    cases h _ (hevent payload hop)
  | snapshot h hsnapshots =>
    obtain ⟨t₀, -, ⟨-, hs⟩ | ⟨hk, -⟩⟩ := StagedPublication.applyOps_snoc hap
    · cases hs
      exact ⟨fun _ _ => rfl, fun _ _ => rfl⟩
    · exact absurd rfl hk
  | @events before events h hcap hevents =>
    rw [show before ++ .health (key cap) .available :: events
      = before ++ [.health (key cap) .available] ++ events by simp] at hap
    obtain ⟨t₀, -, ⟨-, hs⟩ | ⟨hk, -⟩⟩ := StagedPublication.applyOps_snoc (applyOps_events hevents hap)
    · cases hs
      refine ⟨fun _ hsome => ?_, fun _ _ => rfl⟩
      rw [hcap] at hsome
      cases hsome
    · exact absurd rfl hk

/-! ## The catalog -/

/-- The service finds every capability of the provider. -/
theorem capability_found {i : Inner} (h : i.catalog.providers = [publicProvider manifest])
    {cap : CapabilityDescriptor} (hcap : cap ∈ manifest.capabilities) :
    i.capability (key cap) = .ok (publicCapability cap) := by
  unfold Inner.capability
  rw [h]
  simp only [manifest, List.mem_cons, List.not_mem_nil, or_false] at hcap
  rcases hcap with rfl | rfl | rfl | rfl | rfl | rfl | rfl | rfl | rfl <;> decide +kernel

/-! ## The host -/

section Host

variable [SerdeJson] [Postcard] [Host.Clock] [Platform] [Payloads] {w : World WarframeSession}

omit [Postcard] [Host.Clock] in
/-- What a poll of the provider stages, when it and the report of the build have succeeded. -/
theorem pollProvider_wellFormed {demand : List CapabilityDescriptor} {a : Answers Game}
    {h h' : HostedSession WarframeSession} {schedule : ProviderSdk.PollResult} {batch : PollBatch}
    (hrun : h.pollProvider warframe demand a = (.ok schedule, batch, h')) :
    batch.pending.failed = false ∧ WellFormed demand batch.pending.ops := by
  have hpoll := poll_wellFormed a.memory (a.now - h.started) demand h.provider
  unfold HostedSession.pollProvider warframe at hrun
  dsimp only at hrun
  rcases ht : Stateful.runFrom (poll a.memory (a.now - h.started) demand)
    ⟨h.provider, PollBatch.new manifest, 0⟩ with ⟨e | result, t⟩ <;> rw [ht] at hrun hpoll
  · cases hrun
  dsimp only at hrun
  split at hrun
  · cases hrun
  rename_i built hbuild
  cases hrun
  have hpending := congrArg (fun r => r.2.pending) hbuild
  have hresult := congrArg (fun r => r.1) hbuild
  simp only [PollBatch.gameBuild, Pending.setGameBuild, Pending.reject] at hpending hresult
  split at hresult
  · cases hresult
  rename_i hfits
  rw [if_neg hfits] at hpending
  rw [← hpending]
  exact ⟨hpoll.2, hpoll.1⟩

omit [Postcard] [Platform] [Payloads] in
/-- A poll comes to its commit with what the provider staged for the ticket. -/
theorem attempt_polled {σ μ : Type} {P : Host.Provider σ μ} {ticket t : PollTicket} {a : Answers μ}
    {h : HostedSession σ} {batch : PollBatch} {deadline ended : Instant}
    (hplace : (h.attempt P ticket a).2.1 = .polled t batch deadline ended) :
    t = ticket ∧ ∃ h₀ h₁ schedule,
      HostedSession.pollProvider P (Host.demanded P.manifest ticket) a h₀ = (.ok schedule, batch, h₁) := by
  unfold HostedSession.attempt at hplace
  split at hplace
  · cases hplace
  split at hplace
  · cases hplace
  dsimp only at hplace
  generalize hpoll : HostedSession.pollProvider P (Host.demanded P.manifest ticket) a _ = polled
    at hplace
  obtain ⟨result, batch', h'⟩ := polled
  split at hplace
  · cases hplace
  dsimp only at hplace
  split at hplace
  · cases hplace
  · split at hplace
    · cases hplace
    · cases hplace
      exact ⟨rfl, _, _, _, hpoll⟩

/-- What a poll brings to its commit. -/
structure Offered (w : World WarframeSession) : Prop where
  polled : ∀ ticket batch deadline ended, w.place = .polled ticket batch deadline ended →
    batch.pending.failed = false ∧ WellFormed (Host.demanded manifest ticket) batch.pending.ops ∧
      ∀ d ∈ ticket.topics, d.key.providerId = manifest.id

omit [Postcard] [Host.Clock] [Platform] [Payloads] in
theorem Offered.of_place {w' : World WarframeSession}
    (h : ∀ ticket batch deadline ended, w'.place ≠ .polled ticket batch deadline ended) : Offered w' :=
  ⟨fun ticket batch deadline ended hp => absurd hp (h ticket batch deadline ended)⟩

omit [SerdeJson] [Host.Clock] [Platform] [Payloads] in
/-- A ticket names topics of the provider. -/
theorem ticket_provider {i : Inner} (h : Sound [manifest] i) {id : String} {ticket : PollTicket}
    (hticket : PollTicket.current i id = some ticket) :
    ∀ d ∈ ticket.topics, d.key.providerId = manifest.id := by
  intro d hd
  obtain ⟨-, -, session, hs, htopics⟩ := PollTicket.mem_current hticket
  obtain ⟨t, ht, -⟩ := htopics d hd
  obtain ⟨p, hp, hid, -⟩ := (h.store.sessions id session hs).provider
  rw [h.store.registered.providers, List.map_singleton, List.mem_singleton] at hp
  exact ((h.store.tells.topic id session d.key t hs ht).1).provider.trans (hid.symm.trans (hp ▸ rfl))

theorem Offered.step (hw : w.Ok warframe [manifest]) (h : Offered w) (move : Move Game) :
    Offered (w.step warframe move) := by
  cases move with
  | service op => exact ⟨h.polled⟩
  | start a =>
    simp only [World.step, World.start]
    split
    · split
      · exact .of_place (by simp)
      · rename_i ticket hticket
        refine ⟨fun t batch deadline ended hplace => ?_⟩
        obtain ⟨rfl, h₀, h₁, schedule, hpoll⟩ := attempt_polled hplace
        obtain ⟨hfailed, hwf⟩ := pollProvider_wellFormed hpoll
        exact ⟨hfailed, hwf, ticket_provider hw.sound hticket⟩
    · exact h
  | fail now =>
    simp only [World.step, World.fail]
    split
    · exact .of_place (by simp)
    · exact h
  | commit now =>
    simp only [World.step, World.commit]
    split
    · split <;> exact .of_place (by simp)
    · exact h
  | discard now =>
    simp only [World.step, World.discard]
    split
    · exact .of_place (by simp)
    · exact h

omit [SerdeJson] [Postcard] [Host.Clock] [Platform] [Payloads] in
/-- The operations of a demanded capability are covered by the ticket. -/
theorem covered_of_demands {ticket : PollTicket}
    (hticket : ∀ d ∈ ticket.topics, d.key.providerId = manifest.id) {cap : CapabilityDescriptor}
    (h : demands (Host.demanded manifest ticket) cap = true) : ∃ d ∈ ticket.topics, d.key = key cap := by
  obtain ⟨wanted, hwanted, hsame⟩ := List.any_eq_true.mp h
  obtain ⟨d, hd⟩ := Option.isSome_iff_exists.mp (List.mem_filter.mp hwanted).2
  have hmem := List.mem_of_find?_eq_some hd
  have hkey := List.find?_some hd
  simp only [Bool.and_eq_true, beq_iff_eq] at hsame hkey
  refine ⟨d, hmem, ?_⟩
  have hprovider := hticket d hmem
  obtain ⟨⟨provider, topic, version⟩, generation, epoch⟩ := d
  simp only at hprovider hkey
  rw [key, Service.topicKey, hprovider, hkey.1, hkey.2, hsame.1, hsame.2]

omit [Host.Clock] in
theorem Offered.tooLarge (hw : w.Ok warframe [manifest]) (h : Offered w) {ticket : PollTicket}
    {batch : PollBatch} {deadline ended now : Instant} {e : RequestError}
    (hplace : w.place = .polled ticket batch deadline ended)
    (he : (w.service.commitPoll ticket batch deadline now).1 = .error e) : TooLarge e := by
  obtain ⟨hfailed, hwf, hticket⟩ := h.polled _ _ _ _ hplace
  have hproviders : w.service.catalog.providers = [publicProvider manifest] :=
    hw.sound.store.registered.providers
  refine Inner.commitPoll_tooLarge hfailed (fun op hop => ?_)
    (fun session key t hs ht => hw.sound.within _ session key t hs ht)
    (fun session staged hs hprepared => ⟨fun k t ht => ?_, fun event hevent t ht => ?_⟩) he
  · obtain ⟨cap, -, hk, hd⟩ := hwf.demanded op hop
    exact hk ▸ covered_of_demands hticket hd
  · obtain ⟨⟨op, hop, rfl⟩, old, hold, hap⟩ := (hprepared.topics k t).mp ht
    obtain ⟨cap, hcap, hk, -⟩ := hwf.demanded op hop
    rw [hk] at hap ⊢
    exact ⟨publicCapability cap, capability_found hproviders hcap,
      ((hwf.staged cap hcap).sensible ⟨op, hop, hk⟩ hap).1⟩
  · rw [hprepared.events] at hevent
    have hop := StagedPublication.mem_stageEvents hevent
    obtain ⟨-, old, hold, hap⟩ := (hprepared.topics _ t).mp ht
    obtain ⟨cap, hcap, hk, -⟩ := hwf.demanded _ hop
    have hk : event.1 = key cap := hk
    rw [hk] at hap hop
    exact ((hwf.staged cap hcap).sensible ⟨_, hop, rfl⟩ hap).2 event.2 hop

/-- In every run of the host beside the service, whatever the process's memory gives: a poll of the
provider that has returned is rejected by the service only because its announcements or snapshots are
too large. -/
theorem commit_rejects_size {runId : String} {messageBytes : Nat} {service : Inner}
    (hnew : ServiceState.new [manifest] runId messageBytes = .ok service) (sessionId : String)
    (session : WarframeSession) (started : Instant) {moves : List (Move Game)}
    (hmoves : ∀ m ∈ moves, m.Lawful [manifest] service.catalog) {ticket : PollTicket}
    {batch : PollBatch} {deadline ended : Instant}
    (hplace : ((World.attached sessionId session started service).run warframe moves).place
      = .polled ticket batch deadline ended) (now : Instant) {e : RequestError}
    (he : (((World.attached sessionId session started service).run warframe moves).service.commitPoll
      ticket batch deadline now).1 = .error e) : TooLarge e := by
  obtain ⟨⟨hw, -⟩, hoffered⟩ := Runs.run_invariant
    (I := fun w : World WarframeSession =>
      (w.Ok warframe [manifest] ∧ w.service.catalog = service.catalog) ∧ Offered w)
    (fun w m hm hw => ⟨⟨hw.1.1.step (List.mem_singleton.mpr rfl) (hw.1.2 ▸ hm),
      (Host.step_catalog w m).trans hw.1.2⟩, hw.2.step hw.1.1 m⟩) hmoves
    ⟨⟨Host.attached_ok (new_sound hnew) warframe sessionId session started, rfl⟩, .of_place nofun⟩
  exact hoffered.tooLarge hw hplace he

end Host

section examples

open Fixture hiding observing service
open TestSupport hiding observing service new_service manifest

/-- A session is observed, the player is selected and polled. -/
def moves : List (Move Game) :=
  [.service (.updateLifecycle (Fixture.observing "one") 0),
    .service (.subscribe (only AccountTopic.player.cap) ⟨0, 0, 0⟩ idle),
    .start ⟨0, true, playing, true, 0⟩]

theorem moves_lawful (messageBytes : Nat) :
    ∀ m ∈ moves, m.Lawful [manifest] (Fixture.service messageBytes).catalog := by
  intro m hm
  simp only [moves, List.mem_cons, List.not_mem_nil, or_false] at hm
  rcases hm with rfl | rfl | rfl
  · refine ⟨trivial, fun t ht _ _ => ?_⟩
    rw [List.mem_singleton.mp ht]
    exact ⟨_, List.mem_singleton.mpr rfl, rfl⟩
  · exact ⟨trivial, trivial⟩
  · trivial

/-- What a poll brings to its commit. -/
def offer? (w : World WarframeSession) : Option (PollTicket × PollBatch × Instant × Instant) :=
  match w.place with
  | .polled ticket batch deadline ended => some (ticket, batch, deadline, ended)
  | _ => none

/-- Messages of 150 bytes are too short for the snapshot. -/
def brief : World WarframeSession :=
  (World.attached "one" {} 0 (Fixture.service 150)).run warframe moves

theorem brief_rejected : ((offer? brief).map fun offer =>
    (brief.service.commitPoll offer.1 offer.2.1 offer.2.2.1 0).1) = some (.error (limit .messageBytes)) := by
  decide +kernel

theorem commit_rejects_size_brief : ∃ ticket batch deadline ended,
    brief.place = .polled ticket batch deadline ended ∧
      (brief.service.commitPoll ticket batch deadline 0).1 = .error (limit .messageBytes) ∧
      TooLarge (limit .messageBytes) := by
  obtain ⟨⟨ticket, batch, deadline, ended⟩, hoffer, he⟩ := Option.map_eq_some_iff.mp brief_rejected
  have hplace : brief.place = .polled ticket batch deadline ended := by
    unfold offer? at hoffer
    split at hoffer
    · rename_i hplace
      cases hoffer
      exact hplace
    · cases hoffer
  exact ⟨ticket, batch, deadline, ended, hplace, he,
    commit_rejects_size (Fixture.new_service 150) "one" {} 0 (moves_lawful 150) hplace 0 he⟩

end examples

end Warframe
end WfObserver
