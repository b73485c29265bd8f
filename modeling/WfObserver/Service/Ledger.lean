import WfObserver.Service.Effects
import WfObserver.Service.Sweep
import WfObserver.Service.Topics

/-!
# What the history says about a topic

The marks of a topic add up to an `Account`: its generation, its epoch, its demand, and the snapshot
that it holds with the deadline of its freshness. In every reachable state of an open service the topic is
as its account says (`run_accounted`), so what happened to a topic can be read off its fields, and
the other way round.
-/

namespace WfObserver
namespace Service

open Wire

namespace Mark

/-- The mark is about the topic, its session or the whole service. -/
def concerns (id : String) (key : TopicRef) : Mark → Bool
  | .started id' | .ended id' => id' == id
  | .toggled id' key' _ | .expired id' key' | .reset id' key' | .failed id' key' =>
    id' == id && key' == key
  | .applied id' op _ => id' == id && op.key == key
  | .closed => true

/-- The mark is about this topic only. -/
def Own (id : String) (key : TopicRef) (m : Mark) : Prop :=
  ∀ id' key', m.concerns id' key' = true ↔ id' = id ∧ key' = key

end Mark

structure Account where
  generation : Nat := 1
  epoch : Nat := 0
  held : Option (JsonPayload × Instant) := none
  demanded : Bool := false
  deriving DecidableEq

namespace Account

/-- What an operation of a published batch does to the account of its topic. -/
def apply (op : Operation) (deadline : Instant) (a : Account) : Account :=
  match op with
  | .reset _ => { a with generation := a.generation + 1, epoch := a.epoch + 1, held := none }
  | .snapshot _ payload => { a with held := some (payload, deadline) }
  | .event _ _ => a
  | .health _ health =>
    { a with held := if health = .available then a.held.map fun e => (e.1, deadline) else none }

/-- What a mark that concerns the topic does to its account. -/
def post (a : Account) : Mark → Account
  | .started _ | .ended _ => {}
  | .toggled _ _ demanded =>
    ⟨a.generation + (if demanded then 1 else 0), a.epoch + 1, none, demanded⟩
  | .expired _ _ => { a with epoch := a.epoch + 1, held := none }
  | .reset _ _ => { a with generation := a.generation + 1, epoch := a.epoch + 1, held := none }
  | .failed _ _ => { a with held := none }
  | .applied _ op deadline => a.apply op deadline
  | .closed => { a with held := none }

end Account

/-- What the marks of a topic among `marks` do to its account. -/
def Account.posted (id : String) (key : TopicRef) (marks : List Mark) (a : Account) : Account :=
  (marks.filter (Mark.concerns id key)).foldl Account.post a

/-- The account of a topic after a history. -/
def account (id : String) (key : TopicRef) (history : List Mark) : Account :=
  ({} : Account).posted id key history

namespace Account

@[simp] theorem posted_nil (id : String) (key : TopicRef) (a : Account) : a.posted id key [] = a :=
  rfl

theorem posted_append (id : String) (key : TopicRef) (history marks : List Mark) (a : Account) :
    a.posted id key (history ++ marks) = (a.posted id key history).posted id key marks := by
  simp [posted, List.foldl_append]

/-- Marks of other topics do not count. -/
theorem posted_other {id : String} {key : TopicRef} {marks : List Mark}
    (h : ∀ m ∈ marks, m.concerns id key = false) (a : Account) : a.posted id key marks = a := by
  rw [posted, List.filter_eq_nil_iff.mpr fun m hm => by simp [h m hm]]
  rfl

end Account

/-- The topic is as its account says. -/
structure Topic.Matches (a : Account) (t : Topic) : Prop where
  generation : t.state.generation = a.generation
  epoch : t.epoch = a.epoch
  held : ∀ d, t.state.snapshot = some d →
    ∃ deadline, a.held = some (d.payload, deadline) ∧ t.deadline = some deadline
  demanded : t.demanded = a.demanded

/-! ## Each step of a topic posts its marks -/

/-- The topic's changes are of this topic, and its account follows them. -/
def Posts (id : String) (key : TopicRef) (t : Topic) (result : Topic × List Change) : Prop :=
  (∀ c ∈ result.2, c.mark.Own id key) ∧
    ∀ a, t.Matches a → result.1.Matches ((result.2.map Change.mark).foldl Account.post a)

section steps

variable {id : String} {key : TopicRef} {t : Topic}

theorem own_of_concerns {m : Mark}
    (h : ∀ id' key', m.concerns id' key' = (id == id' && key == key')) : m.Own id key := by
  intro id' key'
  rw [h, Bool.and_eq_true, beq_iff_eq, beq_iff_eq]
  exact and_congr eq_comm eq_comm

theorem posts_nil (id : String) (key : TopicRef) (t : Topic) : Posts id key t (t, []) :=
  ⟨by simp, fun _ h => h⟩

theorem reconcile_posts {d : Bool} {now : Instant} (hgo : (t.reconcile id key d now).2.2 = false) :
    Posts id key t ((t.reconcile id key d now).1, (t.reconcile id key d now).2.1) := by
  rcases t.reconcile_cases id key d now with ⟨-, he⟩ | ⟨-, -, he⟩ | ⟨-, -, he⟩ | ⟨t', he, -⟩ <;>
    rw [he] at hgo ⊢
  · exact posts_nil id key t
  · refine ⟨fun c hc => ?_, fun a h => ⟨?_, ?_, fun d hd => (by cases hd), ?_⟩⟩
    · rw [List.mem_singleton.mp hc]
      exact own_of_concerns fun _ _ => rfl
    · simp [Topic.resumed, Account.post, h.generation]
    · simp [Topic.resumed, Account.post, h.epoch]
    · simp [Topic.resumed, Account.post]
  · refine ⟨fun c hc => ?_, fun a h => ⟨?_, ?_, fun d hd => (by cases hd), ?_⟩⟩
    · rw [List.mem_singleton.mp hc]
      exact own_of_concerns fun _ _ => rfl
    · simp [Topic.idled, Account.post, h.generation]
    · simp [Topic.idled, Account.post, h.epoch]
    · simp [Topic.idled, Account.post]
  · cases hgo

theorem lapse_posts {now : Instant} (hgo : (t.lapse id key now).2.2 = false) :
    Posts id key t ((t.lapse id key now).1, (t.lapse id key now).2.1) := by
  rcases t.lapse_cases id key now with ⟨-, he⟩ | ⟨-, he⟩ | ⟨t', he, -⟩ <;> rw [he] at hgo ⊢
  · exact posts_nil id key t
  · refine ⟨fun c hc => ?_, fun a h => ⟨?_, ?_, fun d hd => (by cases hd), ?_⟩⟩
    · rw [List.mem_singleton.mp hc]
      exact own_of_concerns fun _ _ => rfl
    · simp [Topic.lapsed, Account.post, h.generation]
    · simp [Topic.lapsed, Account.post, h.epoch]
    · simp [Topic.lapsed, Account.post, h.demanded]
  · cases hgo

theorem discard_posts (reset : Bool) : Posts id key t (t.discard id key reset) := by
  refine ⟨fun c hc => ?_, fun a h => ?_⟩
  · cases reset with
    | true =>
      simp only [Topic.discard, if_true, List.singleton_append, List.mem_cons, List.not_mem_nil,
        or_false] at hc
      rcases hc with rfl | rfl
      · exact own_of_concerns fun _ _ => rfl
      · exact own_of_concerns fun _ _ => rfl
    | false =>
      simp only [Topic.discard, Bool.false_eq_true, if_false, List.nil_append,
        List.mem_singleton] at hc
      rw [hc]
      exact own_of_concerns fun _ _ => rfl
  · cases reset <;> refine ⟨?_, ?_, fun d hd => (by cases hd), ?_⟩ <;>
      simp [Topic.discard, Account.post, h.generation, h.epoch, h.demanded]

theorem stageTopic_matches {deadline : Instant} {op : Operation} {t t' : Topic} {a : Account}
    (h : t.Matches a) (hs : StagedPublication.stageTopic deadline op t = .ok t') :
    t'.Matches (a.apply op deadline) := by
  cases op with
  | reset k =>
    simp only [StagedPublication.stageTopic] at hs
    split at hs
    · cases hs
    rename_i g hg
    split at hs
    · cases hs
    rename_i e he
    obtain ⟨rfl, -⟩ := checkedAdd_eq_some.mp hg
    obtain ⟨rfl, -⟩ := checkedAdd_eq_some.mp he
    cases hs
    exact ⟨congrArg (· + 1) h.generation, congrArg (· + 1) h.epoch, fun d hd => (by cases hd),
      h.demanded⟩
  | snapshot k payload =>
    cases hs
    exact ⟨h.generation, h.epoch, fun d hd => (by cases hd; exact ⟨deadline, rfl, rfl⟩),
      h.demanded⟩
  | event k payload =>
    cases hs
    exact h
  | health k health =>
    cases hs
    refine ⟨h.generation, h.epoch, fun d hd => ?_, h.demanded⟩
    by_cases hav : health = .available
    · simp only [hav, if_true] at hd ⊢
      obtain ⟨dl, hheld, -⟩ := h.held d hd
      exact ⟨deadline, by simp [Account.apply, hheld], rfl⟩
    · simp [hav] at hd

/-- The operations on a topic post their marks. -/
theorem applyOps_matches {deadline : Instant} {ops : List Operation} {old t : Topic} {a : Account}
    (h : old.Matches a) (ht : StagedPublication.applyOps deadline key ops old = .ok t)
    (id : String) :
    t.Matches (((ops.map (Mark.applied id · deadline)).filter (Mark.concerns id key)).foldl
      Account.post a) := by
  induction ops using List.reverseRecOn generalizing t with
  | nil => cases ht; exact h
  | append_singleton ops op ih =>
    rw [List.map_append, List.filter_append, List.foldl_append]
    obtain ⟨t₀, h₀, ⟨hk, hs⟩ | ⟨hk, rfl⟩⟩ := StagedPublication.applyOps_snoc ht
    · simpa [Mark.concerns, hk, Account.post] using stageTopic_matches (ih h₀) hs
    · simpa [Mark.concerns, hk] using ih h₀

/-- Storing the topic keeps the payload of its snapshot. -/
theorem settled_matches {old : TopicSnapshot} {n : Nat} {a : Account} (h : t.Matches a) :
    (StagedPublication.settled old n t).Matches a := by
  refine ⟨h.generation, h.epoch, fun d hd => ?_, h.demanded⟩
  simp only [StagedPublication.settled] at hd ⊢
  split at hd
  · obtain ⟨d₀, hd₀, rfl⟩ := Option.map_eq_some_iff.mp hd
    exact h.held d₀ hd₀
  · -- The topic did not change, so the old snapshot has the payload of the new one.
    rename_i hc
    have hsame : old.snapshot.map (·.payload) = t.state.snapshot.map (·.payload) := by
      simp only [StagedPublication.changed, Bool.or_eq_true, bne_iff_ne, ne_eq, not_or,
        not_not] at hc
      exact hc.2
    rw [hd, Option.map_some] at hsame
    obtain ⟨d₀, hd₀, hp⟩ := Option.map_eq_some_iff.mp hsame.symm
    rw [← hp]
    exact h.held d₀ hd₀

end steps

/-! ## Every effect -/

/-- In an open service the topics are as the marks since `i₀` have left them. -/
def Posted (i₀ i : Inner) : Prop :=
  ∃ marks, i.history = i₀.history ++ marks ∧ (i.stopped = false → ∀ id s key t,
    i.sessions.get? id = some s → s.topics.get? key = some t → ∀ a : Account,
      (∀ s₀ t₀, i₀.sessions.get? id = some s₀ → s₀.topics.get? key = some t₀ → t₀.Matches a) →
        t.Matches (a.posted id key marks))

theorem Posted.refl (i : Inner) : Posted i i :=
  ⟨[], by simp, fun _ _ _ _ _ hs ht _ ha => ha _ _ hs ht⟩

/-- A sweep whose steps post their marks. -/
theorem sweep_matches {g : Steps} {sessions : OrdMap String Session} {id : String} {key : TopicRef}
    {a : Account} (hg : ∀ id s key t, sessions.get? id = some s → s.topics.get? key = some t →
      Posts id key t (g id s key t))
    (h : ∀ s t, sessions.get? id = some s → s.topics.get? key = some t → t.Matches a)
    {s : Session} {t : Topic} (hs : (sweep g sessions).get? id = some s)
    (ht : s.topics.get? key = some t) :
    t.Matches (a.posted id key ((swept g sessions).map Change.mark)) := by
  rw [sweep_get?] at hs
  obtain ⟨s₀, hs₀, rfl⟩ := Option.map_eq_some_iff.mp hs
  rw [OrdMap.get?_map] at ht
  obtain ⟨t₀, ht₀, rfl⟩ := Option.map_eq_some_iff.mp ht
  have hfilter : (swept g sessions).filter (fun c => c.mark.concerns id key) =
      steppedAt g sessions id key := by
    refine filter_swept (fun s' t' hs' ht' c hc => ?_) fun id' s' key' t' hs' ht' hne c hc => ?_
    · exact ((hg id s' key t' hs' ht').1 c hc id key).mpr ⟨rfl, rfl⟩
    · refine Bool.eq_false_iff.mpr fun hcon => hne ?_
      obtain ⟨rfl, rfl⟩ := ((hg id' s' key' t' hs' ht').1 c hc id key).mp hcon
      rfl
  rw [Account.posted, List.filter_map]
  change (g id s₀ key t₀).1.Matches ((((swept g sessions).filter fun c =>
    c.mark.concerns id key).map Change.mark).foldl Account.post _)
  rw [hfilter, steppedAt_some hs₀ ht₀]
  exact (hg id s₀ key t₀ hs₀ ht₀).2 _ (h s₀ t₀ hs₀ ht₀)

variable {i₀ i : Inner}

/-- More marks, which the topics have followed. -/
theorem Posted.more (h : Posted i₀ i) (hstop : i.stopped = false) {i' : Inner} {marks : List Mark}
    (hm : i'.history = i.history ++ marks)
    (ht : ∀ id s key t, i'.sessions.get? id = some s → s.topics.get? key = some t → ∀ a : Account,
      (∀ s₀ t₀, i.sessions.get? id = some s₀ → s₀.topics.get? key = some t₀ → t₀.Matches a) →
        t.Matches (a.posted id key marks)) : Posted i₀ i' := by
  obtain ⟨old, hold, hmatch⟩ := h
  refine ⟨old ++ marks, by rw [hm, hold, List.append_assoc], fun _ id s key t hs ht' a ha => ?_⟩
  rw [Account.posted_append]
  exact ht id s key t hs ht' _ fun s₀ t₀ hs₀ ht₀ => hmatch hstop id s₀ key t₀ hs₀ ht₀ a ha

theorem posted_closed (h : Posted i₀ i) {i' : Inner} (hstop : i'.stopped = true)
    (hm : i.history <+: i'.history) : Posted i₀ i' := by
  obtain ⟨old, hold, -⟩ := h
  obtain ⟨marks, hm⟩ := hm
  exact ⟨old ++ marks, by rw [← hm, hold, List.append_assoc],
    fun hopen => by rw [hstop] at hopen; cases hopen⟩

/-- A stopped service tells nothing more. -/
theorem Posted.effect (h : Posted i₀ i) {i' : Inner} {marks : List Mark}
    (hstop : i'.stopped = i.stopped) (hm : i'.history = i.history ++ marks)
    (ht : i.stopped = false → ∀ id s key t, i'.sessions.get? id = some s →
      s.topics.get? key = some t → ∀ a : Account,
        (∀ s₀ t₀, i.sessions.get? id = some s₀ → s₀.topics.get? key = some t₀ → t₀.Matches a) →
          t.Matches (a.posted id key marks)) : Posted i₀ i' := by
  cases hopen : i.stopped with
  | true => exact posted_closed h (hstop.trans hopen) (hm ▸ List.prefix_append _ _)
  | false => exact h.more hopen hm (ht hopen)

theorem posted_pass {p : OrdMap String Session × List Change × Bool}
    (hp : Inner.Passing i p) (h : Posted i₀ i) (hgo : p.2.2 = false) : Posted i₀ (i.enter p) := by
  refine h.effect rfl rfl fun _ id s key t hs ht a ha => ?_
  obtain ⟨now, rfl | rfl⟩ := hp
  · simp only [Inner.enter, Inner.reconcile] at hs ⊢
    rw [Inner.reconcile] at hgo
    rw [(Inner.pass_sweep hgo).1] at hs
    rw [(Inner.pass_sweep hgo).2]
    exact sweep_matches (fun id s key t hs ht => reconcile_posts (Inner.pass_go hgo hs ht)) ha hs ht
  · simp only [Inner.enter, Inner.lapse] at hs ⊢
    rw [Inner.lapse] at hgo
    rw [(Inner.pass_sweep hgo).1] at hs
    rw [(Inner.pass_sweep hgo).2]
    exact sweep_matches (fun id s key t hs ht => lapse_posts (Inner.pass_go hgo hs ht)) ha hs ht

theorem posted_discard {ticket : PollTicket} {resets : List TopicRef} {failed : Bool}
    {session : Session} (hd : i.Discards ticket resets failed session) (h : Posted i₀ i) :
    Posted i₀ (i.discardStored ticket resets failed session) := by
  refine h.more hd.stopped rfl fun id s key t hs ht a ha => ?_
  obtain ⟨hsessions, hlist⟩ := Inner.discard_sweep resets failed hd.found
  rw [hsessions] at hs
  rw [hlist]
  refine sweep_matches (fun id s key t _ _ => ?_) ha hs ht
  unfold Inner.discardSteps Inner.discardedTopic Inner.discardChanges
  split
  · rename_i hid
    cases (Inner.affected ticket resets failed session).get? key with
    | none => exact posts_nil id key t
    | some reset => rw [hid]; exact discard_posts reset
  · exact posts_nil id key t

theorem posted_publish [Postcard] {ticket : PollTicket} {pending : Pending}
    {deadline : Instant} {session : Session} {staged : StagedPublication}
    (hp : i.Publishes ticket pending deadline session staged) (h : Posted i₀ i) :
    Posted i₀ ((i.put (i.sessions.insert ticket.sessionId
      (Inner.transaction pending session staged i.sequence).1)).record
        (pending.ops.map (Mark.applied ticket.sessionId · deadline))) := by
  refine h.more hp.stopped rfl fun id s key t hs ht a ha => ?_
  simp only [Inner.put, Inner.record, OrdMap.get?_insert] at hs
  split at hs
  · rename_i hid
    subst hid
    cases hs
    cases hst : staged.topics.get? key with
    | none =>
      -- No operation is about this topic.
      rw [Inner.transaction_other _ hst] at ht
      have hnone : ∀ op ∈ pending.ops, op.key ≠ key := fun op hop hk => by
        obtain ⟨t', ht'⟩ := hp.prepared.op_staged hop
        rw [hk, hst] at ht'
        cases ht'
      exact applyOps_matches (ha _ t hp.found ht) (StagedPublication.applyOps_absent hnone t) _
    | some t' =>
      obtain ⟨-, old, hold, hap⟩ := hp.prepared.of_get? hst
      obtain ⟨n, -, hget, -⟩ := Inner.transaction_staged pending i.sequence hst hold ""
      rw [hget] at ht
      cases ht
      exact settled_matches (applyOps_matches (ha _ old hp.found hold) hap _)
  · rename_i hid
    rw [Account.posted_other fun m hm => ?_]
    · exact ha s t hs ht
    · obtain ⟨op, -, rfl⟩ := List.mem_map.mp hm
      simp [Mark.concerns, Ne.symm hid]

theorem posted_effects [Postcard] (i₀ : Inner) (J : String → Prop) : Effects J (Posted i₀) where
  quiet {i i'} hq h := by
    have hm : i'.history = i.history ++ [] := by rw [hq.history, List.append_nil]
    exact h.effect hq.stopped hm fun _ _ _ _ _ hs ht _ ha => ha _ _ (hq.sessions ▸ hs) ht
  close e h := posted_closed h rfl (List.prefix_append _ _)
  pass := posted_pass
  halt e _ h := posted_closed h rfl ((List.prefix_append _ _).trans (List.prefix_append _ _))
  discard := posted_discard
  publish := posted_publish
  ended {i id s} _ _ h := by
    refine h.effect rfl rfl fun _ id' s' key t hs' ht a ha => ?_
    simp only [Inner.put, Inner.record, OrdMap.get?_erase] at hs'
    split at hs'
    · cases hs'
    · rename_i hne
      rw [Account.posted_other fun m hm => by
        rw [List.mem_singleton.mp hm]
        simpa [Mark.concerns] using Ne.symm hne]
      exact ha s' t hs' ht
  started {i p info} _ _ _ _ h := by
    refine h.effect rfl rfl fun _ id s key t hs ht a ha => ?_
    simp only [Inner.stored, Inner.put, Inner.record, OrdMap.get?_insert] at hs
    split at hs
    · rename_i hid
      cases hs
      rw [Inner.newTopics_get? ht, hid, Account.posted]
      have hc : (Mark.started info.session.sessionId).concerns info.session.sessionId key = true := by
        simp [Mark.concerns]
      rw [List.filter_cons_of_pos hc]
      exact ⟨rfl, rfl, fun d hd => (by cases hd), rfl⟩
    · rename_i hne
      rw [Account.posted_other fun m hm => by
        rw [List.mem_singleton.mp hm]
        simpa [Mark.concerns] using Ne.symm hne]
      exact ha s t hs ht

/-- From any state, an open service does to its topics what the new marks say. -/
theorem run_posted [Postcard] [SerdeJson] (i : Inner) (ops : List Op) : Posted i (run i ops) :=
  Runs.run_invariant (I := Posted i) (G := fun _ => True)
    (fun _ _ _ h => (posted_effects i _).step h) (fun _ _ => trivial) (.refl i)

/-- In an open service the topics are as their accounts say. -/
def Accounted (i : Inner) : Prop :=
  i.stopped = false → ∀ id s key t, i.sessions.get? id = some s → s.topics.get? key = some t →
    t.Matches (account id key i.history)

theorem new_history {manifests : List ProviderSdk.ProviderManifest} {runId : String}
    {messageBytes : Nat} (h : ServiceState.new manifests runId messageBytes = .ok i) :
    i.history = [] ∧ i.sessions = ∅ ∧ i.stopped = false := by
  unfold ServiceState.new at h
  split at h
  · cases h
  · cases h
    exact ⟨rfl, rfl, rfl⟩

/-- In every reachable state of an open service, the topics are as their accounts say. -/
theorem run_accounted [Postcard] [SerdeJson] {manifests : List ProviderSdk.ProviderManifest}
    {runId : String} {messageBytes : Nat}
    (h : ServiceState.new manifests runId messageBytes = .ok i) (ops : List Op) :
    Accounted (run i ops) := by
  obtain ⟨hhistory, hsessions, -⟩ := new_history h
  obtain ⟨marks, hm, hmatch⟩ := run_posted i ops
  intro hstop id s key t hs ht
  rw [hm, hhistory, List.nil_append]
  exact hmatch hstop id s key t hs ht {} fun s₀ t₀ hs₀ _ => by
    rw [hsessions] at hs₀
    cases hs₀

end Service
end WfObserver
