import WfObserver.Service.Ledger
import WfObserver.Service.Stepwise
import WfObserver.Service.TestSupport

/-!
# A poll's fence

A commit compares the generations and the epochs that its ticket recorded. Epochs never return: the
epoch of a topic counts the transitions in its account, a session whose id is not reused keeps one
account (`Retired`, `Counted`), so an unchanged epoch means that no fencing transition has happened
since the ticket was taken (`commitPoll_fenced`).
-/

namespace WfObserver
namespace Service

open Wire

/-- The mark is a transition that a poll of the topic must not cross. -/
def Mark.fences (id : String) (key : TopicRef) : Mark → Bool
  | .toggled id' key' _ | .expired id' key' | .reset id' key' => id' == id && key' == key
  | .applied id' op _ => id' == id && op.resetKey? == some key
  | .ended id' => id' == id
  | .closed => true
  | _ => false

/-! ## Sessions in the history -/

/-- The mark starts or ends a session, or closes the service. -/
def Mark.moves : Mark → Bool
  | .started _ | .ended _ | .closed => true
  | _ => false

/-- No session starts or ends. -/
structure Stays (i i' : Inner) : Prop where
  contains : ∀ id, i'.sessions.contains id = i.sessions.contains id
  stopped : i'.stopped = i.stopped
  history : ∃ marks, i'.history = i.history ++ marks ∧ ∀ m ∈ marks, m.moves = false

theorem pass_stays {i : Inner} {p : OrdMap String Session × List Change × Bool}
    (hp : Inner.Passing i p) : Stays i (i.enter p) := by
  have key : ∀ f : String → Session → TopicRef → Topic → Topic × List Change × Bool,
      (∀ id s key t, ∀ c ∈ (f id s key t).2.1, c.mark.moves = false) →
      Stays i (i.enter (Inner.pass f i.sessions)) := by
    intro f hf
    refine ⟨Inner.pass_contains f i.sessions, rfl, _, rfl, fun m hm => ?_⟩
    obtain ⟨c, hc, rfl⟩ := List.mem_map.mp hm
    obtain ⟨id, s, -, hc⟩ := OrdMap.mem_visit_out hc
    obtain ⟨key, t, -, hc⟩ := OrdMap.mem_visit_out hc
    exact hf id s key t c hc
  obtain ⟨now, rfl | rfl⟩ := hp
  · refine key _ fun id s key t c hc => ?_
    generalize i.wanted s.info.session key = d at hc
    rcases t.reconcile_cases id key d now with ⟨-, he⟩ | ⟨-, -, he⟩ | ⟨-, -, he⟩ | ⟨t', he, -⟩ <;>
      rw [he] at hc
    · cases hc
    · rw [List.mem_singleton.mp hc]; rfl
    · rw [List.mem_singleton.mp hc]; rfl
    · cases hc
  · refine key _ fun id s key t c hc => ?_
    rcases t.lapse_cases id key now with ⟨-, he⟩ | ⟨-, he⟩ | ⟨t', he, -⟩ <;> rw [he] at hc
    · cases hc
    · rw [List.mem_singleton.mp hc]; rfl
    · cases hc

theorem discard_stays {i : Inner} {ticket : PollTicket} {resets : List TopicRef} {failed : Bool}
    {session : Session} (hd : i.Discards ticket resets failed session) :
    Stays i (i.discardStored ticket resets failed session) := by
  refine ⟨fun id => ?_, rfl, _, rfl, fun m hm => ?_⟩
  · simp only [Inner.discardStored, Inner.put, Inner.record, OrdMap.contains, OrdMap.get?_insert]
    split
    · rename_i hid; rw [hid, hd.found]; rfl
    · rfl
  · obtain ⟨c, hc, rfl⟩ := List.mem_map.mp hm
    obtain ⟨e, -, hc⟩ := List.mem_flatMap.mp hc
    unfold Inner.discardChanges Topic.discard at hc
    split at hc
    · cases hc
    · rename_i reset _
      cases reset <;> simp at hc
      · rw [hc]; rfl
      · rcases hc with rfl | rfl <;> rfl

theorem publish_stays [Postcard] {i : Inner} {ticket : PollTicket} {pending : Pending}
    {deadline : Instant} {session : Session} {staged : StagedPublication}
    (hp : i.Publishes ticket pending deadline session staged) :
    Stays i ((i.put (i.sessions.insert ticket.sessionId
      (Inner.transaction pending session staged i.sequence).1)).record
        (pending.ops.map (Mark.applied ticket.sessionId · deadline))) := by
  refine ⟨fun id => ?_, rfl, _, rfl, fun m hm => ?_⟩
  · simp only [Inner.put, Inner.record, OrdMap.contains, OrdMap.get?_insert]
    split
    · rename_i hid; rw [hid, hp.found]; rfl
    · rfl
  · obtain ⟨op, -, rfl⟩ := List.mem_map.mp hm
    rfl

/-- A property of which sessions are there, what happened to them, and whether the service closed. -/
structure Lives (J : String → Prop) (I : Inner → Prop) : Prop where
  stays : ∀ {i i'}, Stays i i' → I i → I i'
  close : ∀ {i} e, I i → I (i.close e)
  ended : ∀ {i : Inner} {id s}, i.sessions.get? id = some s → ¬ J id → I i →
    I ((i.put (i.sessions.erase id)).record [.ended id])
  started : ∀ {i : Inner} {p info}, i.sessions.get? info.session.sessionId = none →
    J info.session.sessionId → I i → I (i.stored p info)

theorem Lives.effects [Postcard] {J : String → Prop} {I : Inner → Prop} (h : Lives J I) :
    Effects J I where
  quiet hq := h.stays ⟨fun id => by rw [hq.sessions], hq.stopped, [], by simp [hq.history], by simp⟩
  close := h.close
  pass hp hi _ := h.stays (pass_stays hp) hi
  halt e hp hi := h.close e (h.stays (pass_stays hp) hi)
  discard hd := h.stays (discard_stays hd)
  publish hp := h.stays (publish_stays hp)
  ended := h.ended
  started _ _ := h.started

/-- Sessions that have ended are gone, and do not start any more in the operation. -/
def Retired (J : String → Prop) (i : Inner) : Prop :=
  ∀ id, .ended id ∈ i.history → i.sessions.contains id = false ∧ ¬ J id

theorem retired_lives (J : String → Prop) : Lives J (Retired J) where
  stays hs h id hid := by
    obtain ⟨marks, hm, hmoves⟩ := hs.history
    rw [hs.contains]
    rw [hm] at hid
    rcases List.mem_append.mp hid with hid | hid
    · exact h id hid
    · have := hmoves _ hid
      cases this
  close e h id hid := by
    rcases List.mem_append.mp hid with hid | hid
    · obtain ⟨hc, hJ⟩ := h id hid
      exact ⟨by simpa [Inner.close] using hc, hJ⟩
    · simp at hid
  ended {i id s} _ hJ h id' hid := by
    simp only [Inner.put, Inner.record, OrdMap.contains, OrdMap.get?_erase] at hid ⊢
    rcases List.mem_append.mp hid with hid | hid
    · obtain ⟨hc, hJ'⟩ := h id' hid
      refine ⟨?_, hJ'⟩
      split
      · rfl
      · exact hc
    · cases List.mem_singleton.mp hid
      exact ⟨by simp, hJ⟩
  started {i p info} _ hJ h id hid := by
    simp only [Inner.stored, Inner.put, Inner.record, OrdMap.contains, OrdMap.get?_insert] at hid ⊢
    rcases List.mem_append.mp hid with hid | hid
    · obtain ⟨hc, hJ'⟩ := h id hid
      refine ⟨?_, hJ'⟩
      split
      · rename_i heq; exact absurd (heq ▸ hJ) hJ'
      · exact hc
    · simp at hid

/-- A session starts when it is not there, and ends when it is; a closed service is stopped. -/
structure Counted (i : Inner) : Prop where
  count : ∀ id, i.history.count (.started id) =
    i.history.count (.ended id) + (i.sessions.contains id).toNat
  closed : .closed ∈ i.history ↔ i.stopped = true

theorem counted_lives (J : String → Prop) : Lives J Counted where
  stays hs h := by
    obtain ⟨marks, hm, hmoves⟩ := hs.history
    have hnot : ∀ m : Mark, m.moves = true → m ∉ marks := fun m hm' hmem => by
      rw [hmoves m hmem] at hm'
      cases hm'
    refine ⟨fun id => ?_, ?_⟩
    · rw [hm, List.count_append, List.count_append, List.count_eq_zero_of_not_mem (hnot (.started id) rfl),
        List.count_eq_zero_of_not_mem (hnot (.ended id) rfl), hs.contains]
      exact h.count id
    · rw [hm, List.mem_append, or_iff_left (hnot .closed rfl), hs.stopped]
      exact h.closed
  close e h := by
    refine ⟨fun id => ?_, by simp [Inner.close]⟩
    have := h.count id
    simpa [Inner.close, List.count_append] using this
  ended {i id s} hs _ h := by
    refine ⟨fun id' => ?_, ?_⟩
    · have hcount := h.count id'
      have hthere : i.sessions.contains id = true := OrdMap.contains_iff.mpr ⟨s, hs⟩
      simp only [Inner.put, Inner.record, List.count_append, OrdMap.contains,
        OrdMap.get?_erase] at hcount hthere ⊢
      by_cases hid : id' = id
      · subst hid
        rw [hthere] at hcount
        simpa using hcount
      · have hne : (Mark.ended id == Mark.ended id') = false := by simpa using Ne.symm hid
        simpa [hid, List.count_singleton, hne] using hcount
    · simpa [Inner.put, Inner.record] using h.closed
  started {i p info} hnew _ h := by
    refine ⟨fun id => ?_, ?_⟩
    · have hcount := h.count id
      simp only [Inner.stored, Inner.put, Inner.record, List.count_append, OrdMap.contains,
        OrdMap.get?_insert] at hcount ⊢
      by_cases hid : id = info.session.sessionId
      · subst hid
        rw [hnew] at hcount
        simpa using hcount
      · have hne : (Mark.started info.session.sessionId == Mark.started id) = false := by
          simpa using Ne.symm hid
        simpa [hid, List.count_singleton, hne] using hcount
    · simpa [Inner.stored, Inner.put, Inner.record] using h.closed

/-! ## Runs with fresh session ids -/

section runs

variable [Postcard] [SerdeJson]

/-- No session that has ended is observed again. -/
def Op.Fresh (i : Inner) (op : Op) : Prop := ∀ id, op.observes i id → .ended id ∉ i.history

theorem Retired.step {i : Inner} {op : Op} (h : Retired (fun _ => False) i) (hf : op.Fresh i) :
    Retired (fun _ => False) (step i op) := by
  have hJ : Retired (op.observes i) i := fun id hid => ⟨(h id hid).1, fun ho => hf id ho hid⟩
  intro id hid
  exact ⟨((retired_lives _).effects.step hJ id hid).1, not_false⟩

theorem run_retired {i : Inner} {ops : List Op} (h : Retired (fun _ => False) i)
    (hf : Runs.Guarded Service.step (fun i op => op.Fresh i) i ops) :
    Retired (fun _ => False) (run i ops) :=
  hf.invariant (I := Retired fun _ => False) (fun _ _ h hf => h.step hf) h

theorem run_counted {i : Inner} (h : Counted i) (ops : List Op) : Counted (run i ops) :=
  Runs.run_invariant (I := Counted) (G := fun _ => True)
    (fun _ _ _ h => (counted_lives _).effects.step h) (fun _ _ => trivial) h

end runs

section new

variable {manifests : List ProviderSdk.ProviderManifest} {runId : String} {messageBytes : Nat}
  {i : Inner}

theorem new_retired (h : ServiceState.new manifests runId messageBytes = .ok i) :
    Retired (fun _ => False) i := by
  intro id hid
  rw [(new_history h).1] at hid
  simp at hid

theorem new_counted (h : ServiceState.new manifests runId messageBytes = .ok i) : Counted i := by
  obtain ⟨hh, hs, hst⟩ := new_history h
  refine ⟨fun id => ?_, ?_⟩
  · rw [hh, hs]
    rfl
  · simp [hh, hst]

end new

/-! ## What an unchanged epoch says -/

/-- The marks that the fence must see are about the topic. -/
theorem Mark.fences_concerns {id : String} {key : TopicRef} {m : Mark} (h : m.fences id key = true) :
    m.concerns id key = true := by
  cases m with
  | applied id' op deadline =>
    simp only [Mark.fences, Bool.and_eq_true, beq_iff_eq] at h
    cases op with
    | reset k => simpa [Mark.concerns, Operation.key, Operation.resetKey?] using h
    | _ => simp [Operation.resetKey?] at h
  | _ => first | exact h | cases h

/-- While the session lives on, a topic's epoch counts the marks that fence it. -/
theorem Account.posted_epoch {id : String} {key : TopicRef} (a : Account) {marks : List Mark}
    (hm : .started id ∉ marks ∧ .ended id ∉ marks ∧ .closed ∉ marks) :
    (a.posted id key marks).epoch = a.epoch + marks.countP (Mark.fences id key) := by
  unfold Account.posted
  obtain ⟨hstarted, hended, hclosed⟩ := hm
  induction marks generalizing a with
  | nil => rfl
  | cons m marks ih =>
    rw [List.mem_cons, not_or] at hstarted hended hclosed
    have hrest := fun a => ih a hstarted.2 hended.2 hclosed.2
    rw [List.countP_cons, List.filter_cons]
    by_cases hc : m.concerns id key = true
    · rw [if_pos hc, List.foldl_cons, hrest]
      have hpost : (a.post m).epoch = a.epoch + if m.fences id key = true then 1 else 0 := by
        cases m with
        | started id' => exact absurd (beq_iff_eq.mp hc) fun h => hstarted.1 (h ▸ rfl)
        | ended id' => exact absurd (beq_iff_eq.mp hc) fun h => hended.1 (h ▸ rfl)
        | closed => exact absurd rfl hclosed.1
        | applied id' op deadline =>
          obtain ⟨hid, hk⟩ : id' = id ∧ op.key = key := by simpa [Mark.concerns] using hc
          cases op with
          | reset k =>
            have hk : k = key := hk
            simp [Account.post, Account.apply, Mark.fences, Operation.resetKey?, hid, hk]
          | _ => simp [Account.post, Account.apply, Mark.fences, Operation.resetKey?]
        | failed id' key' => rfl
        | _ =>
          simp only [Mark.concerns] at hc
          simp [Account.post, Mark.fences, hc]
      rw [hpost]
      omega
    · have hf : m.fences id key = false :=
        Bool.eq_false_iff.mpr fun h => hc (Mark.fences_concerns h)
      rw [if_neg hc, hrest, hf]
      rfl

/-- A mark that does not fence a topic leaves its generation, epoch and demand. -/
theorem Account.post_unfenced {id : String} {key : TopicRef} {m : Mark} (a : Account)
    (hc : m.concerns id key = true) (hf : m.fences id key = false) (hs : m ≠ .started id) :
    (a.post m).generation = a.generation ∧ (a.post m).epoch = a.epoch ∧
      (a.post m).demanded = a.demanded := by
  cases m with
  | started id' => exact absurd (congrArg Mark.started (beq_iff_eq.mp hc)) hs
  | applied id' op deadline =>
    obtain ⟨hid, hk⟩ : id' = id ∧ op.key = key := by simpa [Mark.concerns] using hc
    cases op with
    | reset k =>
      have hk : k = key := hk
      simp [Mark.fences, Operation.resetKey?, hid, hk] at hf
    | _ => exact ⟨rfl, rfl, rfl⟩
  | failed id' key' => exact ⟨rfl, rfl, rfl⟩
  | closed => cases hf
  | _ =>
    simp only [Mark.concerns] at hc
    simp [Mark.fences, hc] at hf

theorem Account.posted_unfenced {id : String} {key : TopicRef} (a : Account) {marks : List Mark}
    (hs : .started id ∉ marks) (hf : ∀ m ∈ marks, m.fences id key = false) :
    (a.posted id key marks).generation = a.generation ∧
      (a.posted id key marks).epoch = a.epoch ∧ (a.posted id key marks).demanded = a.demanded := by
  unfold Account.posted
  induction marks generalizing a with
  | nil => exact ⟨rfl, rfl, rfl⟩
  | cons m marks ih =>
    rw [List.mem_cons, not_or] at hs
    have hrest := fun a => ih a hs.2 (fun m hm => hf m (List.mem_cons_of_mem _ hm))
    rw [List.filter_cons]
    split
    · rename_i hc
      obtain ⟨hg, he, hd⟩ := a.post_unfenced hc (hf m (by simp)) (Ne.symm hs.1)
      obtain ⟨hg', he', hd'⟩ := hrest (a.post m)
      exact ⟨hg'.trans hg, he'.trans he, hd'.trans hd⟩
    · exact hrest a

/-! ## The fence -/

/-- What a session that is there now went through since it was there before. -/
theorem Counted.lasted {i j : Inner} {id : String} {marks : List Mark} (hi : Counted i)
    (hj : Counted j) (hr : Retired (fun _ => False) j) (hm : j.history = i.history ++ marks)
    (hstop : j.stopped = false) (hci : i.sessions.contains id = true)
    (hcj : j.sessions.contains id = true) :
    .started id ∉ marks ∧ .ended id ∉ marks ∧ .closed ∉ marks := by
  have hended : .ended id ∉ marks := fun hmem => by
    have := (hr id (by rw [hm]; exact List.mem_append_right _ hmem)).1
    rw [hcj] at this
    cases this
  refine ⟨?_, hended, fun hmem => ?_⟩
  · have h₁ := hi.count id
    have h₂ := hj.count id
    rw [hm, List.count_append, List.count_append, List.count_eq_zero_of_not_mem hended, hcj] at h₂
    rw [hci] at h₁
    exact List.count_eq_zero.mp (by omega)
  · rw [hj.closed.mp (by rw [hm]; exact List.mem_append_right _ hmem)] at hstop
    cases hstop

theorem PollTicket.mem_current {i : Inner} {id : String} {ticket : PollTicket}
    (h : PollTicket.current i id = some ticket) :
    i.stopped = false ∧ ticket.sessionId = id ∧ ∃ s, i.sessions.get? id = some s ∧
      ∀ d ∈ ticket.topics, ∃ t, s.topics.get? d.key = some t ∧ t.demanded = true ∧
        t.state.generation = d.generation ∧ t.epoch = d.epoch := by
  unfold PollTicket.current at h
  split at h
  · cases h
  rename_i hstop
  obtain ⟨s, hs, rfl⟩ := Option.map_eq_some_iff.mp h
  refine ⟨by simpa using hstop, rfl, s, hs, fun d hd => ?_⟩
  obtain ⟨e, he, rfl⟩ := List.mem_map.mp hd
  obtain ⟨ht, hdem⟩ := OrdMap.get?_filter_some.mp (OrdMap.get?_eq_some.mpr he)
  exact ⟨e.2, ht, by simpa using hdem, rfl, rfl⟩

/-- Two states of a run in which a session lives on, and what happened between them. -/
structure Between (id : String) (i j : Inner) (marks : List Mark) : Prop where
  history : j.history = i.history ++ marks
  before : Accounted i
  after : Accounted j
  running : i.stopped = false
  open_ : j.stopped = false
  lasted : .started id ∉ marks ∧ .ended id ∉ marks ∧ .closed ∉ marks

namespace Between

variable {id : String} {i j : Inner} {marks : List Mark} {key : TopicRef} {s s' : Session}
  {t t' : Topic}

/-- If the epoch is the same, nothing has fenced the topic. -/
theorem unfenced (h : Between id i j marks) (hs : i.sessions.get? id = some s)
    (ht : s.topics.get? key = some t) (hs' : j.sessions.get? id = some s')
    (ht' : s'.topics.get? key = some t') (he : t'.epoch = t.epoch) :
    ∀ m ∈ marks, m.fences id key = false := by
  have h₁ := (h.before h.running id s key t hs ht).epoch
  have h₂ := (h.after h.open_ id s' key t' hs' ht').epoch
  rw [h.history, account, Account.posted_append, Account.posted_epoch _ h.lasted] at h₂
  rw [account] at h₁
  have hzero : marks.countP (Mark.fences id key) = 0 := by omega
  intro m hm
  simpa using List.countP_eq_zero.mp hzero m hm

/-- If nothing has fenced the topic, its demand, generation and epoch are the same. -/
theorem same (h : Between id i j marks) (hs : i.sessions.get? id = some s)
    (ht : s.topics.get? key = some t) (hs' : j.sessions.get? id = some s')
    (ht' : s'.topics.get? key = some t') (hf : ∀ m ∈ marks, m.fences id key = false) :
    t'.demanded = t.demanded ∧ t'.state.generation = t.state.generation ∧ t'.epoch = t.epoch := by
  have h₁ := h.before h.running id s key t hs ht
  have h₂ := h.after h.open_ id s' key t' hs' ht'
  rw [h.history, account, Account.posted_append, ← account] at h₂
  obtain ⟨hg, he, hd⟩ := (account id key i.history).posted_unfenced h.lasted.1 hf
  exact ⟨by rw [h₂.demanded, hd, h₁.demanded], by rw [h₂.generation, hg, h₁.generation],
    by rw [h₂.epoch, he, h₁.epoch]⟩

end Between

section fence

variable [Postcard] [SerdeJson] {manifests : List ProviderSdk.ProviderManifest} {runId : String}
  {messageBytes : Nat} {i₀ : Inner} {ops ops' : List Op}

/-- The service before and after a part of a run during which the session is there at both ends. -/
theorem between (hnew : ServiceState.new manifests runId messageBytes = .ok i₀)
    (hfresh : Runs.Guarded Service.step (fun i op => op.Fresh i) i₀ (ops ++ ops')) {id : String}
    {marks : List Mark} (hm : (run i₀ (ops ++ ops')).history = (run i₀ ops).history ++ marks)
    (hi : (run i₀ ops).stopped = false) (hj : (run i₀ (ops ++ ops')).stopped = false)
    (hci : (run i₀ ops).sessions.contains id = true)
    (hcj : (run i₀ (ops ++ ops')).sessions.contains id = true) :
    Between id (run i₀ ops) (run i₀ (ops ++ ops')) marks where
  history := hm
  before := run_accounted hnew _
  after := run_accounted hnew _
  running := hi
  open_ := hj
  lasted := (run_counted (new_counted hnew) ops).lasted (run_counted (new_counted hnew) _)
    (run_retired (new_retired hnew) hfresh) hm hj hci hcj

/-- A session and a service that last until the end are there before it. -/
theorem Between.of_prefix (hnew : ServiceState.new manifests runId messageBytes = .ok i₀)
    {before : List Op} {id : String} {marks : List Mark}
    (h : Between id (run i₀ ops) (run i₀ (ops ++ ops')) marks) (hp : before <+: ops') :
    ∃ marks', marks' <+: marks ∧ Between id (run i₀ ops) (run i₀ (ops ++ before)) marks' := by
  obtain ⟨after, rfl⟩ := hp
  obtain ⟨marks₁, hm₁⟩ := (run_grows (run i₀ ops) before).history
  obtain ⟨marks₂, hm₂⟩ := (run_grows (run i₀ (ops ++ before)) after).history
  rw [← run_append] at hm₁ hm₂
  have hsplit : marks = marks₁ ++ marks₂ := by
    have := h.history
    rw [← List.append_assoc, ← hm₂, ← hm₁, List.append_assoc] at this
    exact (List.append_cancel_left this).symm
  subst hsplit
  obtain ⟨hstarted, hended, hclosed⟩ := h.lasted
  simp only [List.mem_append, not_or] at hstarted hended hclosed
  refine ⟨marks₁, List.prefix_append _ _, hm₁.symm, h.before, run_accounted hnew _,
    h.running, ?_, hstarted.1, hended.1, hclosed.1⟩
  have hcount := (run_counted (new_counted hnew) (ops ++ before)).closed
  have hcount₀ := (run_counted (new_counted hnew) ops).closed
  rw [← hm₁, List.mem_append, or_iff_left hclosed.1, hcount₀, h.running] at hcount
  simpa using hcount

/-- A poll is published only if no transition has fenced any of its topics since its ticket was
taken, and otherwise nothing is published. While none has, each topic stays as the ticket has it. -/
theorem commitPoll_fenced (hnew : ServiceState.new manifests runId messageBytes = .ok i₀)
    (hfresh : Runs.Guarded Service.step (fun i op => op.Fresh i) i₀ (ops ++ ops')) {id : String}
    {ticket : PollTicket} (hticket : PollTicket.current (run i₀ ops) id = some ticket)
    (batch : PollBatch) (deadline now : Instant) :
    ∃ marks, (run i₀ (ops ++ ops')).history = (run i₀ ops).history ++ marks ∧
      (((run i₀ (ops ++ ops')).commitPoll ticket batch deadline now).1 = .ok true →
        ∀ d ∈ ticket.topics, (∀ m ∈ marks, m.fences id d.key = false) ∧
          ∀ before, before <+: ops' → ∀ s t, (run i₀ (ops ++ before)).sessions.get? id = some s →
            s.topics.get? d.key = some t →
              t.demanded = true ∧ t.state.generation = d.generation ∧ t.epoch = d.epoch) ∧
      ((∃ d ∈ ticket.topics, ∃ m ∈ marks, m.fences id d.key = true) →
        ((run i₀ (ops ++ ops')).commitPoll ticket batch deadline now).1 ≠ .ok true ∧
        ((run i₀ (ops ++ ops')).commitPoll ticket batch deadline now).2.log =
          (run i₀ (ops ++ ops')).log) := by
  obtain ⟨hstop, rfl, s, hs, hdemands⟩ := PollTicket.mem_current hticket
  obtain ⟨marks, hm⟩ := (run_grows (run i₀ ops) ops').history
  rw [← run_append] at hm
  have hpublished : ((run i₀ (ops ++ ops')).commitPoll ticket batch deadline now).1 = .ok true →
      Between ticket.sessionId (run i₀ ops) (run i₀ (ops ++ ops')) marks ∧
        ∀ d ∈ ticket.topics, ∀ m ∈ marks, m.fences ticket.sessionId d.key = false := by
    intro hok
    rcases Inner.commitPoll_cases ticket batch deadline now (run i₀ (ops ++ ops')) with
      ⟨r, hr, he⟩ | ⟨-, -, he⟩ | ⟨session, staged, hp, -⟩
    · rw [he] at hok
      exact absurd hok hr
    · rw [he] at hok
      cases hok
    have hb := between hnew hfresh hm.symm hstop hp.stopped (OrdMap.contains_iff.mpr ⟨s, hs⟩)
      (OrdMap.contains_iff.mpr ⟨session, hp.found⟩)
    refine ⟨hb, fun d hd => ?_⟩
    obtain ⟨t, ht, -, -, het⟩ := hdemands d hd
    obtain ⟨t', ht', -, -, het'⟩ := Inner.of_not_stale hp.fresh hd
    exact hb.unfenced hs ht hp.found ht' (het'.trans het.symm)
  refine ⟨marks, hm.symm, fun hok d hd => ?_, fun ⟨d, hd, m, hmem, hf⟩ => ?_⟩
  · obtain ⟨hb, hunfenced⟩ := hpublished hok
    refine ⟨hunfenced d hd, fun before hp s' t' hs' ht' => ?_⟩
    obtain ⟨t, ht, hdem, hgt, het⟩ := hdemands d hd
    obtain ⟨marks', hmarks', hb'⟩ := hb.of_prefix hnew hp
    obtain ⟨hd', hg', he'⟩ := hb'.same hs ht hs' ht' fun m hm' =>
      hunfenced d hd m (hmarks'.subset hm')
    exact ⟨hd'.trans hdem, hg'.trans hgt, he'.trans het⟩
  · have hnot : ((run i₀ (ops ++ ops')).commitPoll ticket batch deadline now).1 ≠ .ok true :=
      fun hok => by
        rw [(hpublished hok).2 d hd m hmem] at hf
        cases hf
    refine ⟨hnot, ?_⟩
    rcases Inner.commitPoll_cases ticket batch deadline now (run i₀ (ops ++ ops')) with
      ⟨r, -, he⟩ | ⟨-, -, he⟩ | ⟨session, staged, -, he⟩
    · rw [he]
    · rw [he]
      rfl
    · rw [he] at hnot
      exact absurd rfl hnot

end fence

section

open TestSupport

/-- The subscriber goes and comes back: its topic is demanded again, and the poll is not published. -/
theorem commitPoll_fenced_resubscribed :
    ((run service (published.take 2 ++ [.drop 1 0, .subscribe selection ⟨0, 0, 0⟩ idle])).commitPoll
      ticket (count 7) (seconds 6) 0).1 ≠ .ok true := by
  have hfresh : Runs.Guarded step (fun i op => op.Fresh i) service
      (published.take 2 ++ [.drop 1 0, .subscribe selection ⟨0, 0, 0⟩ idle]) :=
    ⟨fun id _ h => by simp [service] at h, fun _ h => h.elim, fun _ h => h.elim,
      fun _ h => h.elim, trivial⟩
  obtain ⟨marks, hm, -, hno⟩ := commitPoll_fenced new_service hfresh
    (show PollTicket.current _ "one" = some ticket by decide +kernel) (count 7) (seconds 6) 0
  have hmarks : (run service (published.take 2 ++
      [.drop 1 0, .subscribe selection ⟨0, 0, 0⟩ idle])).history =
        (run service (published.take 2)).history ++
          [.toggled "one" topic false, .toggled "one" topic true] := by decide +kernel
  rw [List.append_cancel_left (hm.symm.trans hmarks)] at hno
  exact (hno ⟨⟨topic, 2, 1⟩, by simp [ticket], .toggled "one" topic false, by simp, by decide⟩).1

end

end Service
end WfObserver
