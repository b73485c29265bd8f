import WfObserver.Protocol.Client
import WfObserver.Sdk.Validation
import WfObserver.Service.Setup

/-!
# The SDK's feed (`wf-observer-sdk`, `subscription/feed.rs`)

A feed folds the items of a subscription with one topic into the current sessions and the current
state of the topic in each of them. It refines the client's replica: `Holds` says that the feed has
the sessions of a replica and their topic, and every item keeps that (`Holds.offered`,
`Holds.update`). So a feed whose subscription is open and drained has what the service stores
(`feed_projection`).

The listeners of a feed get the current state after every change; `WfObserver.Sdk.Listener` models
them.
-/

namespace WfObserver
namespace Sdk

open Wire Protocol Service

structure FeedState where
  sessions : OrdMap SessionRef (Nat × SessionInfo) := ∅
  topics : OrdMap SessionRef TopicSnapshot := ∅
  deriving DecidableEq

/-- The loop state of `receive_once`. -/
structure Feed where
  sequence : Nat := 0
  current : FeedState := {}
  ready : Bool := false
  deriving DecidableEq

namespace FeedState

def putSession (sequence : Nat) (info : SessionInfo) (state : FeedState) : FeedState :=
  { state with sessions := state.sessions.insert info.session (sequence, info) }

def putTopic (topic : TopicSnapshot) (state : FeedState) : FeedState :=
  { state with topics := state.topics.insert topic.source.session topic }

def removeSession (session : SessionRef) (state : FeedState) : FeedState :=
  { sessions := state.sessions.erase session, topics := state.topics.erase session }

end FeedState

namespace Feed

/-- `Feed::change`. -/
def change (update : FeedState → FeedState) (f : Feed) : Feed := { f with current := update f.current }

/-- The match of `receive_once` on an update. -/
def update (update : SubscriptionUpdate) (f : Feed) : Feed :=
  match update with
  | .sessionStarted info | .sessionChanged info => f.change (.putSession f.sequence info)
  | .sessionEnded session _ => f.change (.removeSession session)
  | .topicReset source generation _ => f.change (.putTopic ⟨source, generation, .initializing, none⟩)
  | .topicChanged topic => f.change (.putTopic topic)
  | .event _ => f

/-- One turn of the loop of `receive_once`. An error is what the function returns: the end of the
subscription, or a client error. -/
def receive (f : Feed) (item : SubscriptionItem) : Except (Except ClientError SubscriptionEnd) Feed :=
  match item with
  | .begin cursor => .ok { f with sequence := cursor.sequence }
  | .session info => .ok (f.change (.putSession f.sequence info))
  | .topic topic => .ok (f.change (.putTopic topic))
  | .snapshot _ => .error (.error (.protocol "snapshot was not reconstructed"))
  | .ready _ => .ok { f with ready := true }
  | .closed reason => .error (.ok reason)
  | .update envelope => .ok ({ f with sequence := envelope.cursor.sequence }.update envelope.update)

/-- Items one after the other. -/
def receiveAll (items : List SubscriptionItem) (f : Feed) :
    Except (Except ClientError SubscriptionEnd) Feed := items.foldlM receive f

theorem receiveAll_cons (item : SubscriptionItem) (items : List SubscriptionItem) (f : Feed) :
    f.receiveAll (item :: items) = (f.receive item).bind (receiveAll items) := rfl

theorem receiveAll_append (items items' : List SubscriptionItem) (f : Feed) :
    f.receiveAll (items ++ items') = (f.receiveAll items).bind (receiveAll items') :=
  List.foldlM_append

end Feed

/-! ## The feed refines the replica -/

/-- The session with this reference. -/
def sessionAt (R : Replica) (r : SessionRef) : Option Seen :=
  (R.get? r.sessionId).filter fun s => s.info.session == r

/-- The feed has the sessions of the replica, and their topic `key`. -/
structure Holds (key : TopicRef) (R : Replica) (state : FeedState) : Prop where
  sessions : ∀ r, (state.sessions.get? r).map (·.2) = (sessionAt R r).map (·.info)
  topics : ∀ r, state.topics.get? r = (sessionAt R r).bind fun s => s.topics.get? key

theorem sessionAt_insert (R : Replica) {id : String} {s : Seen} (hid : s.info.session.sessionId = id)
    (r : SessionRef) (hold : ∀ s₀, R.get? id = some s₀ → s₀.info.session = s.info.session) :
    sessionAt (R.insert id s) r = if r = s.info.session then some s else sessionAt R r := by
  unfold sessionAt
  rw [OrdMap.get?_insert]
  by_cases hr : r = s.info.session
  · subst hr
    simp [hid]
  · rw [if_neg hr]
    split
    · rename_i hk
      -- Another run's session of this name is neither in the old nor in the new replica.
      rw [hk]
      cases hR : R.get? id with
      | none => simp [Option.filter, Ne.symm hr]
      | some s₀ => simp [Option.filter, hold s₀ hR, Ne.symm hr]
    · rfl

theorem sessionAt_some {R : Replica} {r : SessionRef} {s : Seen} (hs : R.get? r.sessionId = some s)
    (hr : s.info.session = r) : sessionAt R r = some s := by
  simp [sessionAt, hs, hr]

namespace Holds

variable {key : TopicRef} {R : Replica} {state : FeedState}

theorem empty : Holds key ∅ {} := ⟨fun _ => rfl, fun _ => rfl⟩

/-- A session is stored with its topics, or without topics where there were none. -/
theorem putSession (h : Holds key R state) (sequence : Nat) {s : Seen}
    (hold : ∀ s₀, R.get? s.info.session.sessionId = some s₀ → s₀.info.session = s.info.session ∧
      s₀.topics = s.topics)
    (hnew : R.get? s.info.session.sessionId = none → s.topics.get? key = none) :
    Holds key (R.insert s.info.session.sessionId s) (state.putSession sequence s.info) := by
  have hat := fun r => sessionAt_insert R rfl r fun s₀ hs₀ => (hold s₀ hs₀).1
  refine ⟨fun r => ?_, fun r => ?_⟩
  · rw [hat]
    simp only [FeedState.putSession, OrdMap.get?_insert]
    split
    · rfl
    · exact h.sessions r
  · rw [hat]
    simp only [FeedState.putSession, h.topics]
    split
    · rename_i hr
      subst hr
      cases hR : R.get? s.info.session.sessionId with
      | none => simp [sessionAt, hR, hnew hR]
      | some s₀ => rw [sessionAt_some hR (hold s₀ hR).1]; simp [(hold s₀ hR).2]
    · rfl

/-- The topic of a session is stored. -/
theorem putTopic (h : Holds key R state) {t : TopicSnapshot} {s : Seen}
    (hs : R.get? t.source.session.sessionId = some s) (hsession : t.source.session = s.info.session)
    (hkey : t.source.topic = key) :
    Holds key (R.insert t.source.session.sessionId (s.install t.source.topic t))
      (state.putTopic t) := by
  have hat : ∀ r, sessionAt (R.insert t.source.session.sessionId (s.install t.source.topic t)) r = _ :=
    fun r => sessionAt_insert R (by rw [hsession]; rfl) r fun s₀ hs₀ => by
      rw [hs] at hs₀
      cases hs₀
      rfl
  have hself : sessionAt R t.source.session = some s := sessionAt_some hs hsession.symm
  refine ⟨fun r => ?_, fun r => ?_⟩
  · rw [hat]
    simp only [FeedState.putTopic, h.sessions]
    split
    · rename_i hr
      rw [hr, show (s.install t.source.topic t).info.session = t.source.session from hsession.symm,
        hself]
      rfl
    · rfl
  · rw [hat]
    simp only [FeedState.putTopic, OrdMap.get?_insert, hsession,
      show (s.install t.source.topic t).info.session = s.info.session from rfl]
    split
    · simp [Seen.install, hkey]
    · exact h.topics r

theorem removeSession (h : Holds key R state) {session : SessionRef} {s : Seen}
    (hs : R.get? session.sessionId = some s) (hsession : s.info.session = session) :
    Holds key (R.erase session.sessionId) (state.removeSession session) := by
  have hat : ∀ r, sessionAt (R.erase session.sessionId) r =
      if r = session then none else sessionAt R r := by
    intro r
    unfold sessionAt
    rw [OrdMap.get?_erase]
    by_cases hr : r = session
    · simp [hr]
    · rw [if_neg hr]
      split
      · rename_i hk
        rw [hk, hs]
        simp [Option.filter, hsession, Ne.symm hr]
      · rfl
  refine ⟨fun r => ?_, fun r => ?_⟩ <;> rw [hat] <;>
    simp only [FeedState.removeSession, OrdMap.get?_erase, h.topics] <;> split
  · rfl
  · exact h.sessions r
  · rfl
  · rfl

/-! ## Items -/

variable {sel : Subscribe} {runId : String} {n : Nat} {T : Replica} {f : Feed}

/-- A bootstrap item of a selection with this topic. -/
theorem offered (h : Holds key R f.current) (hT : Suits sel runId n T) (hsel : sel.topics = [key])
    (hpart : Part R T) {item : SubscriptionItem} (ho : Offered T R item) :
    ∃ f', f.receive item = .ok f' ∧ Holds key (Protocol.receive R item) f'.current := by
  cases item with
  | session info =>
    obtain ⟨hnew, -⟩ := ho
    exact ⟨_, rfl, h.putSession f.sequence (s := ⟨info, ∅⟩) (fun s₀ hs₀ => by
      rw [hnew] at hs₀
      cases hs₀) fun _ => rfl⟩
  | topic t =>
    obtain ⟨⟨s, hs, -⟩, s', hs', ht⟩ := ho
    obtain ⟨s'', hs'', hinfo, -⟩ := hpart _ s hs
    obtain rfl : s'' = s' := by rw [hs'] at hs''; exact (Option.some.inj hs'').symm
    have hkey : t.source.topic = key := by
      have := hT.topics _ _ _ t hs' ht
      simpa [hsel] using this
    have hsession : t.source.session = s.info.session := by
      rw [hinfo, (hT.coherent.topics _ _ _ t hs' ht).source]
    refine ⟨_, rfl, ?_⟩
    simp only [Protocol.receive, OrdMap.modify_eq_insert hs]
    exact h.putTopic hs hsession hkey
  | _ => exact ho.elim

/-- An update of the visible part of a selection with this topic. -/
theorem update (h : Holds key R f.current) (hsel : sel.topics = [key]) {e : UpdateEnvelope}
    {R₀ : Replica} (ha : Allowed runId R e) (hr : relevant sel R₀ e.update = true) :
    ∃ f', f.receive (.update e) = .ok f' ∧ Holds key (apply R e) f'.current ∧
      f'.ready = f.ready := by
  have hkey : ∀ source : TopicSource, takes sel source.session source.topic = true →
      source.topic = key := fun source ht => by
    have := (Bool.and_eq_true_iff.mp ht).2
    simpa [hsel] using this
  obtain ⟨cursor, u⟩ := e
  cases u with
  | sessionStarted info =>
    obtain ⟨hnew, -⟩ := ha
    exact ⟨_, rfl, h.putSession cursor.sequence (s := ⟨info, ∅⟩) (fun s₀ hs₀ => by
      rw [hnew] at hs₀
      cases hs₀) (fun _ => rfl), rfl⟩
  | sessionChanged info =>
    obtain ⟨s, hs, hsession, -⟩ := ha
    refine ⟨_, rfl, ?_, rfl⟩
    simp only [apply, OrdMap.modify_eq_insert hs]
    exact h.putSession cursor.sequence (s := { s with info }) (fun s₀ hs₀ => by
      rw [hs] at hs₀
      cases hs₀
      exact ⟨hsession.symm, rfl⟩) (fun hnone => by rw [hs] at hnone; cases hnone)
  | sessionEnded session reason =>
    obtain ⟨s, hs, hsession⟩ := ha
    exact ⟨_, rfl, h.removeSession hs hsession, rfl⟩
  | topicReset source generation reason =>
    obtain ⟨s, hs, hal⟩ := (allowed_topic rfl).mp ha
    have hsession : source.session = s.info.session := by rw [Option.some.inj hal.1]
    refine ⟨_, rfl, ?_, rfl⟩
    simp only [apply, OrdMap.modify_eq_insert hs]
    exact h.putTopic (t := ⟨source, generation, .initializing, none⟩) hs hsession (hkey source hr)
  | topicChanged t =>
    obtain ⟨s, hs, hal⟩ := (allowed_topic rfl).mp ha
    have hsession : t.source.session = s.info.session := by rw [Option.some.inj hal.1]
    refine ⟨_, rfl, ?_, rfl⟩
    simp only [apply, OrdMap.modify_eq_insert hs]
    exact h.putTopic hs hsession (hkey t.source hr)
  | event event => exact ⟨_, rfl, h, rfl⟩

/-- A described replica is received. -/
theorem described (h : Holds key R f.current) (hT : Suits sel runId n T) (hsel : sel.topics = [key])
    (hpart : Part R T) {items : List SubscriptionItem}
    (ho : Runs.Guarded Protocol.receive (Offered T) R items) : ∃ f', f.receiveAll items = .ok f' ∧
      Holds key (items.foldl Protocol.receive R) f'.current := by
  induction items generalizing R f with
  | nil => exact ⟨f, rfl, h⟩
  | cons item items ih =>
    obtain ⟨f', hf', h'⟩ := h.offered hT hsel hpart ho.1
    obtain ⟨g, hg, h''⟩ := ih h' (hpart.receive ho.1) ho.2
    refine ⟨g, ?_, h''⟩
    rw [Feed.receiveAll_cons, hf']
    exact hg

/-- The relevant updates after a replica are received. -/
theorem followed {us : List UpdateEnvelope} (h : Holds key (visible sel R) f.current)
    (hsel : sel.topics = [key]) (hus : Runs.Guarded apply (Allowed runId) R us) :
    ∃ f', f.receiveAll (followed sel R us) = .ok f' ∧
      Holds key (visible sel (replay R us)) f'.current ∧ f'.ready = f.ready := by
  induction us generalizing R f with
  | nil => exact ⟨f, rfl, h, rfl⟩
  | cons e us ih =>
    rw [Protocol.followed]
    cases hr : relevant sel R e.update with
    | false => exact ih (by rw [visible_skip hus.1 hr]; exact h) hus.2
    | true =>
      obtain ⟨hvis, hal⟩ := visible_take hus.1 hr
      obtain ⟨f', hf', h', hready⟩ := h.update hsel hal hr
      rw [← hvis] at h'
      obtain ⟨g, hg, h'', hready'⟩ := ih h' hus.2
      refine ⟨g, ?_, h'', hready'.trans hready⟩
      rw [if_pos rfl, List.singleton_append, Feed.receiveAll_cons, hf']
      exact hg

/-- A stream that recounts a log leaves the feed with the visible part of what the log says. -/
theorem recounted {log : List UpdateEnvelope} {items : List SubscriptionItem}
    (h : Recounts runId sel log items) (hsel : sel.topics = [key])
    (hlog : Runs.Guarded apply (Allowed runId) ∅ log)
    (hcoherent : ∀ l, l <+: log → ∃ m, Coherent runId m (replay ∅ l)) :
    ∃ f, Feed.receiveAll items {} = .ok f ∧ Holds key (visible sel (replay ∅ log)) f.current ∧
      f.ready = true := by
  obtain ⟨before, after, n, rfl, -, -, -, rfl⟩ := h.split
  obtain ⟨m, hR⟩ := hcoherent before (List.prefix_append _ _)
  obtain ⟨hoffered, hall⟩ := describe_all (hR.visible sel)
  have hstart : Holds key ∅ ({ sequence := n } : Feed).current := .empty
  obtain ⟨f, hf, hheld⟩ := described hstart (visible_suits hR) hsel (.empty _) hoffered
  rw [hall] at hheld
  obtain ⟨g, hg, hheld', hready⟩ := followed (f := { f with ready := true }) hheld hsel
    (Runs.guarded_append.mp hlog).2
  refine ⟨g, ?_, ?_, hready⟩
  · rw [recount, bootstrap_eq hR, Feed.receiveAll_append, Feed.receiveAll_cons, Feed.receive,
      Except.bind, Feed.receiveAll_append, hf, Except.bind, Feed.receiveAll_cons, Feed.receive]
    exact hg
  · rw [replay, List.foldl_append]
    exact hheld'

end Holds

/-! ## Runs -/

section runs

variable [Postcard] [SerdeJson] {manifests : List ProviderSdk.ProviderManifest} {i : Inner}

/-- The session with this reference that the subscriber is told about. -/
def matching (i : Inner) (sub : Subscriber) (r : SessionRef) : Option Session :=
  (i.sessions.get? r.sessionId).filter fun s => s.info.session == r && sub.matchesInfo s.info

omit [Postcard] [SerdeJson] in
theorem sessionAt_visible (i : Inner) (sub : Subscriber) (r : SessionRef) :
    sessionAt (visible sub.selection (mirror i.sessions)) r =
      (matching i sub r).map fun s => s.seen.select sub.selection := by
  unfold sessionAt matching
  rw [visible_get?, mirror_get?]
  cases i.sessions.get? r.sessionId with
  | none => rfl
  | some s =>
    change (if takesInfo sub.selection s.info = true then _ else _ : Option Seen).filter _ = _
    by_cases ht : takesInfo sub.selection s.info = true
    · have hm : sub.matchesInfo s.info = true := ht
      by_cases hr : s.info.session = r <;> simp [ht, hm, hr, Option.filter, Session.seen]
    · have hm : sub.matchesInfo s.info = false := Bool.eq_false_iff.mpr ht
      simp [ht, hm, Option.filter]

/-- A feed of an open subscription with one topic, whose queue is drained, has what the service
stores for that selection: the matching sessions, and the state of the topic in each of them. -/
theorem feed_projection {runId : String} {messageBytes : Nat}
    (h : ServiceState.new manifests runId messageBytes = .ok i) {ops : List Op}
    (hops : ∀ op ∈ ops, op.Hosted manifests) {id : Nat} {sub : Subscriber} {c : Channel}
    (hsub : (run i ops).subscribers.get? id = some sub)
    (hc : (run i ops).channels.get? id = some c) (hopen : c.ended = false)
    (hdrained : c.queue.pending = []) {key : TopicRef} (hkey : sub.selection.topics = [key]) :
    ∃ f, Feed.receiveAll c.delivered {} = .ok f ∧ f.ready = true ∧ ∀ r,
      (f.current.sessions.get? r).map (·.2) = (matching (run i ops) sub r).map (·.info) ∧
      f.current.topics.get? r =
        (matching (run i ops) sub r).bind fun s => (s.topics.get? key).map Topic.state := by
  obtain ⟨-, hf⟩ := run_truthful (P := fun _ => True) h fun op hop =>
    ⟨hops op hop, op.starts_true⟩
  have hstop : (run i ops).stopped = false := by
    by_contra hstop
    rw [hf.empty (by simpa using hstop)] at hsub
    simp at hsub
  obtain ⟨hsel, hlive⟩ := (hf.channels id c trivial hc).live sub hsub
  obtain ⟨hrec, -⟩ := hlive hopen
  have hstream : c.stream = c.delivered := by rw [Channel.stream, hdrained, List.append_nil]
  rw [hstream, show c.selection.normal = sub.selection by rw [hsel]] at hrec
  obtain ⟨f, hreceived, hheld, hready⟩ := Holds.recounted hrec hkey hf.allowed
    fun l hl => ⟨_, hf.coherent hl⟩
  rw [hf.mirror hstop] at hheld
  refine ⟨f, hreceived, hready, fun r => ⟨?_, ?_⟩⟩
  · rw [hheld.sessions, sessionAt_visible, Option.map_map]
    rfl
  · rw [hheld.topics, sessionAt_visible, Option.bind_map]
    congr 1
    funext s
    have hcontains : sub.selection.topics.contains key = true := by simp [hkey]
    simp only [Function.comp_apply, select_get? _ hcontains, Session.seen, OrdMap.get?_map]

end runs

open TestSupport in
/-- The drained feed of the published run has the published count. -/
theorem feed_projection_published : ∃ f c,
    (run service (published ++ List.replicate 8 (.pop 1))).channels.get? 1 = some c ∧
      Feed.receiveAll c.delivered {} = .ok f ∧
      f.current.topics.get? ⟨"run", "one"⟩ = some counted.state := by
  let final := run service (published ++ List.replicate 8 (.pop 1))
  have hview : (final.channels.get? 1).map (fun c => (c.ended, c.queue.pending)) = some (false, []) := by
    decide +kernel
  obtain ⟨c, hc, hv⟩ := Option.map_eq_some_iff.mp hview
  have hsub : final.subscribers.get? 1 = some ⟨selection, true⟩ := by decide +kernel
  have hmatch : ((matching final ⟨selection, true⟩ ⟨"run", "one"⟩).bind fun s =>
      (s.topics.get? topic).map Topic.state) = some counted.state := by decide +kernel
  have hops : ∀ op ∈ published ++ List.replicate 8 (Op.pop 1), op.Hosted [manifest] := by
    intro op hop
    simp only [published, List.cons_append, List.nil_append, List.mem_cons, List.mem_replicate] at hop
    rcases hop with rfl | rfl | rfl | ⟨-, rfl⟩
    · trivial
    · trivial
    · exact List.mem_singleton.mpr rfl
    · trivial
  obtain ⟨f, hf, -, hall⟩ := feed_projection new_service hops hsub hc (Prod.mk.inj hv).1
    (Prod.mk.inj hv).2 (show _ = [topic] from rfl)
  exact ⟨f, c, hc, hf, (hall ⟨"run", "one"⟩).2.trans hmatch⟩

end Sdk
end WfObserver
