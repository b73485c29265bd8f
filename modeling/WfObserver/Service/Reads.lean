import WfObserver.Service.Demand
import WfObserver.Service.Ledger
import WfObserver.Service.Setup
import WfObserver.Service.TestSupport

/-!
# What a read returns

`ServiceView::snapshot` returns what a topic holds after `expire`. The topic's account says where
that comes from (`held_split`): the last snapshot committed for the topic, with nothing after it
that takes it back, and a deadline that the last renewal set. Its sequence is that of the update
that announced it, since the log tells what the service stores (`snapshot_announced`).
-/

namespace WfObserver
namespace Service

open Wire Protocol
open ProviderSdk (ProviderManifest)

/-! ## The last committed snapshot -/

namespace Mark

/-- The mark replaces or takes back what the topic holds. -/
def disturbs (id : String) (key : TopicRef) : Mark → Bool
  | .applied id' op _ => id' == id && op.key == key &&
    match op with
    | .reset _ | .snapshot _ _ => true
    | .event _ _ => false
    | .health _ health => health != .available
  | m => m.concerns id key

/-- The freshness deadline that an Available health sets. -/
def renews (id : String) (key : TopicRef) : Mark → Option Instant
  | .applied id' (.health key' .available) deadline =>
    if id' = id ∧ key' = key then some deadline else none
  | _ => none

end Mark

/-- The last freshness deadline of a snapshot that was committed with `deadline`. -/
def lastDeadline (id : String) (key : TopicRef) (deadline : Instant) (after : List Mark) : Instant :=
  ((after.filterMap (Mark.renews id key)).getLast?).getD deadline

/-- What one more mark makes of the snapshot that is held. -/
theorem post_held {id : String} {key : TopicRef} {m : Mark} {a : Account} {payload : JsonPayload}
    {deadline : Instant} (hc : m.concerns id key = true)
    (h : (a.post m).held = some (payload, deadline)) :
    m = .applied id (.snapshot key payload) deadline ∨
    m.disturbs id key = false ∧ ∃ before, a.held = some (payload, before) ∧
      deadline = (m.renews id key).getD before := by
  cases m with
  | applied id' op deadline' =>
    obtain ⟨rfl, rfl⟩ : id' = id ∧ op.key = key := by simpa [Mark.concerns] using hc
    cases op with
    | reset k => cases h
    | snapshot k p =>
      simp only [Account.post, Account.apply, Option.some.injEq, Prod.mk.injEq] at h
      obtain ⟨rfl, rfl⟩ := h
      exact .inl rfl
    | event k p => exact .inr ⟨by simp [Mark.disturbs], deadline, h, rfl⟩
    | health k health =>
      by_cases hav : health = .available
      · subst hav
        simp only [Account.post, Account.apply, if_true] at h
        obtain ⟨e, he, heq⟩ := Option.map_eq_some_iff.mp h
        cases heq
        exact .inr ⟨by simp [Mark.disturbs], e.2, he, by simp [Mark.renews, Operation.key]⟩
      · simp [Account.post, Account.apply, hav] at h
  | _ => cases h

/-- A held snapshot is the last one committed, nothing has taken it back since, and its deadline is
the last one set. -/
theorem held_split {id : String} {key : TopicRef} {history : List Mark} {payload : JsonPayload}
    {deadline : Instant} (h : (account id key history).held = some (payload, deadline)) :
    ∃ before committed after,
      history = before ++ .applied id (.snapshot key payload) committed :: after ∧
      (∀ m ∈ after, m.disturbs id key = false) ∧
      deadline = lastDeadline id key committed after := by
  induction history using List.reverseRecOn generalizing deadline with
  | nil => cases h
  | append_singleton history m ih =>
    -- Another mark after the last snapshot keeps the split.
    have hkeep : ∀ before, (account id key history).held = some (payload, before) →
        m.disturbs id key = false → deadline = (m.renews id key).getD before →
        ∃ before committed after,
          history ++ [m] = before ++ .applied id (.snapshot key payload) committed :: after ∧
          (∀ m ∈ after, m.disturbs id key = false) ∧
          deadline = lastDeadline id key committed after := by
      intro dl hheld hm hdl
      obtain ⟨before, committed, after, rfl, hafter, rfl⟩ := ih hheld
      refine ⟨before, committed, after ++ [m], by simp, fun m' hm' => ?_, ?_⟩
      · rcases List.mem_append.mp hm' with hm' | hm'
        · exact hafter m' hm'
        · rw [List.mem_singleton.mp hm']
          exact hm
      · rw [hdl, lastDeadline, lastDeadline, List.filterMap_append]
        cases hr : m.renews id key with
        | none => simp [hr]
        | some dl' => simp [hr]
    rw [account, Account.posted_append, ← account, Account.posted] at h
    by_cases hc : m.concerns id key = true
    · rw [List.filter_cons_of_pos hc] at h
      rcases post_held hc h with rfl | ⟨hm, dl, hheld, hdl⟩
      · exact ⟨history, deadline, [], rfl, by simp, rfl⟩
      · exact hkeep dl hheld hm hdl
    · rw [List.filter_cons_of_neg hc] at h
      have hnot : m.disturbs id key = false ∧ m.renews id key = none := by
        cases m with
        | applied id' op deadline' =>
          have hc : ¬(id' = id ∧ op.key = key) := by simpa [Mark.concerns] using hc
          refine ⟨?_, ?_⟩
          · simp only [Mark.disturbs, Bool.and_eq_false_imp, Bool.and_eq_true, beq_iff_eq]
            exact fun hb => absurd hb hc
          · unfold Mark.renews
            split
            · rename_i heq
              cases heq
              exact if_neg hc
            · rfl
        | _ => exact ⟨by simpa [Mark.disturbs] using hc, rfl⟩
      exact hkeep deadline h hnot.1 (by rw [hnot.2]; rfl)

/-! ## The update that announced it -/

/-- Every snapshot that a log tells was announced with the update of its sequence. -/
theorem snapshot_announced {runId : String} {log : List UpdateEnvelope}
    (hlog : Runs.Guarded apply (Allowed runId) ∅ log) {id : String} {s : Seen} {key : TopicRef}
    {t : TopicSnapshot} {d : DataEnvelope} (hs : (replay ∅ log).get? id = some s)
    (ht : s.topics.get? key = some t) (hd : t.snapshot = some d) :
    ∃ e ∈ log, e.update = .topicChanged t ∧ e.cursor.sequence = d.metadata.sequence := by
  induction log using List.reverseRecOn generalizing s with
  | nil => simp [replay] at hs
  | append_singleton log e ih =>
    obtain ⟨hlog, ha, -⟩ := Runs.guarded_append.mp hlog
    rw [replay, List.foldl_append] at hs
    change (apply (replay ∅ log) e).get? id = some s at hs
    -- A topic that was there before this update.
    have hold : ∀ s₀, (replay ∅ log).get? id = some s₀ → s₀.topics.get? key = some t →
        ∃ e' ∈ log ++ [e], e'.update = .topicChanged t ∧ e'.cursor.sequence = d.metadata.sequence :=
      fun s₀ hs₀ ht₀ => by
        obtain ⟨e', he', h⟩ := ih hlog hs₀ ht₀
        exact ⟨e', List.mem_append_left _ he', h⟩
    rcases update_cases e.update with ⟨info, hu⟩ | ⟨info, hu⟩ | ⟨session, r, hu⟩ | ⟨source, hsrc⟩
    · simp only [apply, hu, OrdMap.get?_insert] at hs
      split at hs
      · cases hs
        simp at ht
      · exact hold s hs ht
    · simp only [apply, hu, OrdMap.get?_modify] at hs
      split at hs
      · obtain ⟨s₀, hs₀, rfl⟩ := Option.map_eq_some_iff.mp hs
        exact hold s₀ hs₀ ht
      · exact hold s hs ht
    · simp only [apply, hu, OrdMap.get?_erase] at hs
      split at hs
      · cases hs
      · exact hold s hs ht
    · obtain ⟨s₀, hs₀, hal⟩ := (allowed_topic hsrc).mp ha
      change (replay ∅ log).get? _ = _ at hs₀
      rw [apply_topic hsrc hs₀, OrdMap.get?_insert] at hs
      split at hs
      · rename_i hid
        cases hs
        cases hap : applyTopic (s₀.topics.get? source.topic) e.update with
        | none => exact hold s₀ (by rw [hid]; exact hs₀) (by simpa [Seen.update, hap] using ht)
        | some t' =>
          rw [hap] at ht
          simp only [Seen.update, Seen.install, OrdMap.get?_insert] at ht
          split at ht
          · rename_i hkey
            cases ht
            -- The update itself installed the topic, or left the one before it.
            obtain ⟨hsource, -, hcase⟩ := hal
            cases hu : e.update with
            | topicChanged t'' =>
              rw [hu] at hap hcase
              cases hap
              refine ⟨e, by simp, hu, ?_⟩
              rw [(hcase.2.2 d hd).2]
            | topicReset src g r =>
              rw [hu] at hap
              cases hap
              cases hd
            | event ev =>
              rw [hu] at hap
              exact hold s₀ (by rw [hid]; exact hs₀) (by rw [hkey]; exact hap)
            | _ => rw [hu] at hsrc; cases hsrc
          · exact hold s₀ (by rw [hid]; exact hs₀) ht
      · exact hold s hs ht

/-! ## The deadline of what is left after `expire` -/

section

variable [Postcard]

/-- In an open service every snapshot has a deadline after `now`, or none. -/
def Timely (now : Instant) (i : Inner) : Prop :=
  i.stopped = false → ∀ id s key t, i.sessions.get? id = some s → s.topics.get? key = some t →
    t.state.snapshot.isSome → t.due now = false

omit [Postcard] in
theorem timely_invariant (now : Instant) : Inner.StoreInvariant (Timely now) where
  quiet hq h hstop id s key t hs ht := by
    rw [hq.sessions] at hs
    exact h (hq.stopped ▸ hstop) id s key t hs ht
  close _ _ hstop := by cases hstop

/-- A pass that leaves timely topics. -/
theorem timely_pass {now : Instant} {i : Inner}
    {f : String → Session → TopicRef → Topic → Topic × List Change × Bool}
    (hf : ∀ id s key t, i.sessions.get? id = some s → s.topics.get? key = some t →
      (f id s key t).2.2 = false → (f id s key t).1.state.snapshot.isSome →
        (f id s key t).1.due now = false) : Timely now (i.applyPass (Inner.pass f i.sessions)) := by
  have H := timely_invariant now
  unfold Inner.applyPass
  dsimp only
  split
  · exact fun hstop => by cases hstop
  rename_i hgo
  have hgo : (Inner.pass f i.sessions).2.2 = false := by simpa using hgo
  have hstored : Timely now (i.enter (Inner.pass f i.sessions)) := by
    intro _ id s key t hs ht hsome
    simp only [Inner.enter, (Inner.pass_sweep hgo).1] at hs
    rw [sweep_get?] at hs
    obtain ⟨s₀, hs₀, rfl⟩ := Option.map_eq_some_iff.mp hs
    rw [OrdMap.get?_map] at ht
    obtain ⟨t₀, ht₀, rfl⟩ := Option.map_eq_some_iff.mp ht
    exact hf id s₀ key t₀ hs₀ ht₀ (Inner.pass_go hgo hs₀ ht₀) hsome
  refine H.emitAll ?_ _
  split
  · exact hstored
  · exact H.quiet ⟨rfl, rfl, rfl, rfl, rfl, le_refl _⟩ hstored

theorem timely_settle {now : Instant} {i : Inner} (h : Timely now i) (later : Instant) :
    Timely now (i.settle later) := by
  refine Inner.settle_rule (fun j hj => ?_) h
  by_cases hstop : j.stopped = true
  · intro hopen
    rw [Inner.settleOnce_stopped later hstop] at hopen
    cases hopen
  refine timely_pass fun id s key t hs ht hgo hsome => ?_
  -- A topic whose demand changes has no snapshot.
  generalize j.retainLive.wanted s.info.session key = d at hgo hsome ⊢
  rcases t.reconcile_cases id key d later with ⟨-, he⟩ | ⟨-, -, he⟩ | ⟨-, -, he⟩ | ⟨t', he, -⟩ <;>
    rw [he] at hgo hsome ⊢
  · exact hj (by simpa using hstop) id s key t hs ht hsome
  · cases hsome
  · cases hsome
  · cases hgo

theorem timely_expire (now : Instant) (i : Inner) : Timely now (i.expire now) := by
  have hpass : Timely now (i.applyPass (i.lapse now)) := by
    refine timely_pass fun id s key t _ _ hgo hsome => ?_
    rcases t.lapse_cases id key now with ⟨hdue, he⟩ | ⟨-, he⟩ | ⟨t', he, -⟩ <;>
      rw [he] at hgo hsome ⊢
    · exact hdue
    · cases hsome
    · cases hgo
  unfold Inner.expire
  dsimp only
  split
  · exact hpass
  · exact timely_settle hpass now

/-! ## The read -/

variable {manifests : List ProviderManifest} {runId : String} {messageBytes : Nat} {i : Inner}
  {request : GetSnapshot} {now : Instant} {envelope : DataEnvelope}

/-- A value is read from the topic as `expire` leaves it. -/
theorem snapshot_ok (h : (ServiceView.snapshot request now i).1 = .ok envelope) :
    request.session.runId = (i.expire now).runId ∧
      ∃ s t, (i.expire now).sessions.get? request.session.sessionId = some s ∧
        s.topics.get? request.topic = some t ∧ t.state.snapshot = some envelope := by
  unfold ServiceView.snapshot at h
  dsimp only at h
  split at h
  · cases h
  rename_i s hs
  split at h
  · cases h
  split at h
  · cases h
  split at h
  · cases h
  split at h
  · cases h
  rename_i t ht
  split at h
  · cases h
  · cases h
  · cases h
  split at h
  · cases h
  rename_i e he
  cases h
  unfold Inner.session at hs
  split at hs
  · cases hs
  split at hs
  · cases hs
  rename_i hrun
  split at hs
  · rename_i hs'
    cases hs
    exact ⟨by simpa using hrun, s, t, hs', ht, he⟩
  · cases hs

/-- A read returns the payload of the last snapshot that was committed for this session and topic,
at the topic's generation and with the sequence of the update that announced it. Nothing has taken
the snapshot back since, and the deadline that was set last has not passed. -/
theorem snapshot_current [SerdeJson] (hnew : ServiceState.new manifests runId messageBytes = .ok i)
    {ops : List Op} (hops : ∀ op ∈ ops, op.Hosted manifests)
    (hread : (ServiceView.snapshot request now (run i ops)).1 = .ok envelope) :
    ∃ before committed after s t,
      (ServiceView.snapshot request now (run i ops)).2.history = before ++
        .applied request.session.sessionId (.snapshot request.topic envelope.payload) committed ::
          after ∧
      (∀ m ∈ after, m.disturbs request.session.sessionId request.topic = false) ∧
      now < lastDeadline request.session.sessionId request.topic committed after ∧
      (ServiceView.snapshot request now (run i ops)).2.sessions.get? request.session.sessionId =
        some s ∧
      s.topics.get? request.topic = some t ∧
      envelope.metadata.source = ⟨request.session, s.info.gameId, request.topic⟩ ∧
      envelope.metadata.generation = t.state.generation ∧
      ∃ e ∈ (ServiceView.snapshot request now (run i ops)).2.log,
        e.cursor.sequence = envelope.metadata.sequence ∧
        e.update = .topicChanged t.state ∧ t.state.snapshot = some envelope := by
  obtain ⟨hrunId, s, t, hs, ht, hsnap⟩ := snapshot_ok hread
  change ∃ before committed after s t, ((run i ops).expire now).history = _ ∧ _ ∧ _ ∧
    ((run i ops).expire now).sessions.get? _ = _ ∧ _ ∧ _ ∧ _ ∧
    ∃ e ∈ ((run i ops).expire now).log, _
  have hj : (run i ops).expire now = run i (ops ++ [.expire now]) := by
    rw [run_append]
    rfl
  have hhosted : ∀ op ∈ ops ++ [Op.expire now], op.Hosted manifests ∧ op.Starts fun _ => True := by
    intro op hop
    refine ⟨?_, op.starts_true⟩
    rcases List.mem_append.mp hop with hop | hop
    · exact hops op hop
    · rw [List.mem_singleton.mp hop]
      trivial
  have htimely := timely_expire now (run i ops)
  have hsettled := expire_settled now (run i ops)
  rw [hj] at hs hrunId htimely hsettled ⊢
  obtain ⟨hok, hfaithful⟩ := run_truthful hnew hhosted
  have haccounted := run_accounted hnew (ops ++ [.expire now])
  generalize run i (ops ++ [.expire now]) = j at hs hrunId htimely hsettled hok hfaithful haccounted ⊢
  have hsession := hok.sessions _ s hs
  have htopic := hsession.topics _ t ht
  -- A closed service has no demand, so no topic with a snapshot.
  have hstop : j.stopped = false := by
    by_contra hne
    have hidle := htopic.idle.mpr
      ((hsettled.demand _ s _ t hs ht).trans (wanted_empty (hfaithful.empty (by simpa using hne)) _ _))
    have hav := (htopic.snapshot.mp (by rw [hsnap]; rfl)).1
    rw [hidle] at hav
    cases hav
  obtain ⟨deadline, hheld, hdeadline⟩ := (haccounted hstop _ s _ t hs ht).held envelope hsnap
  obtain ⟨before, committed, after, hhistory, hafter, rfl⟩ := held_split hheld
  have hfresh := htimely hstop _ s _ t hs ht (by rw [hsnap]; rfl)
  obtain ⟨hsource, hgeneration, -⟩ := htopic.envelope envelope hsnap
  have hseen : (replay ∅ j.log).get? request.session.sessionId = some s.seen := by
    rw [hfaithful.mirror hstop, mirror_get?, hs]
    rfl
  have hseenTopic : s.seen.topics.get? request.topic = some t.state := by
    simp [Session.seen, OrdMap.get?_map, ht]
  obtain ⟨e, he, hu, hseq⟩ := snapshot_announced hfaithful.allowed hseen hseenTopic hsnap
  refine ⟨before, committed, after, s, t, hhistory, hafter, ?_, hs, ht, ?_, hgeneration, e, he, hseq,
    hu, hsnap⟩
  · simpa [Topic.due, hdeadline] using hfresh
  · rw [hsource, htopic.source, hsession.session, ← hrunId]

end

section

open TestSupport

/-- One second after the poll, its snapshot is read. -/
theorem snapshot_current_published : ∃ before committed after,
    (ServiceView.snapshot ⟨⟨"run", "one"⟩, topic⟩ (seconds 1) (run service published)).2.history =
      before ++ .applied "one" (.snapshot topic ⟨"7"⟩) committed :: after ∧
    seconds 1 < lastDeadline "one" topic committed after := by
  have hops : ∀ op ∈ published, op.Hosted [manifest] := by
    intro op hop
    simp only [published, List.mem_cons, List.not_mem_nil, or_false] at hop
    rcases hop with rfl | rfl | rfl
    · trivial
    · trivial
    · exact List.mem_singleton.mpr rfl
  have hread : (ServiceView.snapshot ⟨⟨"run", "one"⟩, topic⟩ (seconds 1) (run service published)).1 =
      .ok ⟨⟨⟨⟨"run", "one"⟩, "fixture", topic⟩, 2, 6⟩, ⟨"7"⟩⟩ := by decide +kernel
  obtain ⟨before, committed, after, _, _, hhistory, -, hdeadline, -⟩ :=
    snapshot_current new_service hops hread
  exact ⟨before, committed, after, hhistory, hdeadline⟩

end

end Service
end WfObserver
