import WfObserver.Service.Counters
import WfObserver.Service.Sweep

/-!
# The service with unbounded counters

What `settle`, `expire`, `sync_runtime`, `Subscription::drop` and `subscribe` do if sequences,
generations and epochs have no bound: the same without the checks. An operation that leaves the service
open has done just that (`settle_open`, `expire_open`, `syncRuntime_open`, `drop_open`,
`subscribe_open`). So where it would take a counter past `u64Max`, it closes the service.
-/

namespace WfObserver
namespace Service

open Wire

/-! ## Topics -/

namespace Topic

variable {id : String} {key : TopicRef} {demanded : Bool} {now : Instant} {t : Topic}

/-- `settle`'s step of a topic. -/
def toggle (id : String) (key : TopicRef) (demanded : Bool) (now : Instant) (t : Topic) :
    Topic × List Change :=
  if t.demanded = demanded then (t, [])
  else if demanded then (t.resumed now,
    [⟨.toggled id key true, .topicReset t.state.source (t.state.generation + 1) .demandResumed⟩])
  else (t.idled, [⟨.toggled id key false, .topicChanged t.idled.state⟩])

/-- `expire`'s step of a topic. -/
def overrun (id : String) (key : TopicRef) (now : Instant) (t : Topic) : Topic × List Change :=
  if t.due now then (t.lapsed, [⟨.expired id key, .topicChanged t.lapsed.state⟩]) else (t, [])

theorem reconcile_toggle (h : (t.reconcile id key demanded now).2.2 = false) :
    t.reconcile id key demanded now =
      ((t.toggle id key demanded now).1, (t.toggle id key demanded now).2, false) := by
  unfold toggle
  rcases t.reconcile_cases id key demanded now with
    ⟨hd, he⟩ | ⟨hd, rfl, he⟩ | ⟨hd, rfl, he⟩ | ⟨t', he, -⟩
  · rw [he, if_pos hd]
  · rw [he, if_neg (by simp [hd]), if_pos rfl]
  · rw [he, if_neg (by simp [hd]), if_neg (by simp)]
  · rw [he] at h
    cases h

theorem lapse_overrun (h : (t.lapse id key now).2.2 = false) :
    t.lapse id key now = ((t.overrun id key now).1, (t.overrun id key now).2, false) := by
  unfold overrun
  rcases t.lapse_cases id key now with ⟨hd, he⟩ | ⟨hd, he⟩ | ⟨t', he, -⟩
  · rw [he, if_neg (by simp [hd])]
  · rw [he, if_pos hd]
  · rw [he] at h
    cases h

end Topic

/-! ## Operations -/

namespace Unbounded

variable [Postcard]

def emitAll (updates : List SubscriptionUpdate) (i : Inner) : Inner :=
  updates.foldl (fun i update => i.announce update) i

/-- A pass of `settle` or `expire`: every topic takes its step, and the changes are announced. -/
def applyPass (g : Steps) (i : Inner) : Inner :=
  let changes := swept g i.sessions
  let i := { i with
    sessions := sweep g i.sessions
    history := i.history ++ changes.map Change.mark }
  let i := if changes.isEmpty then i else { i with revision := saturatingAdd i.revision 1 }
  emitAll (changes.map Change.update) i

def settleOnce (now : Instant) (i : Inner) : Inner :=
  let i := i.retainLive
  applyPass (fun id session key topic =>
    topic.toggle id key (i.wanted session.info.session key) now) i

def settleLoop : Nat → Instant → Inner → Inner
  | 0, _, i => i
  | fuel + 1, now, i =>
    let i := settleOnce now i
    if i.lagging then settleLoop fuel now i else i

def settle (now : Instant) (i : Inner) : Inner := settleLoop (i.subscribers.size + 1) now i

def expire (now : Instant) (i : Inner) : Inner :=
  settle now (applyPass (fun id _ key topic => topic.overrun id key now) i)

def endSession (status : HostStatus) (i : Inner) (id : String) : Inner :=
  match i.sessions.get? id with
  | none => i
  | some s =>
    let i := i.announce (.sessionEnded s.info.session
      (if i.retrying status id then .providerFailed else .targetExited))
    { i.release (fun s' => s'.selection.sessions == .session s.info.session) with
      sessions := i.sessions.erase id
      history := i.history ++ [.ended id] }

def addSession (info : SessionInfo) (i : Inner) : Except RequestError Unit × Inner :=
  match i.catalog.providers.find? fun p => p.id == info.providerId with
  | none => (.error (invalid "unregistered session provider"), i)
  | some p => (.ok (), emitAll (Inner.arrival p info) (i.stored p info))

def addSessions : List (String × SessionInfo) → Inner → Except RequestError Unit × Inner
  | [], i => (.ok (), i)
  | (id, info) :: rest, i =>
    if i.sessions.contains id then addSessions rest i
    else match addSession info i with
      | (.error e, i) => (.error e, i)
      | (.ok (), i) => addSessions rest i

def syncRuntime (status : HostStatus) (now : Instant) (i : Inner) : Inner :=
  if i.stopped || i.runtime == status then i
  else
    let incoming := i.incoming status
    let ended := i.sessions.keys.filter fun id => !incoming.contains id
    match addSessions incoming.entries (ended.foldl (endSession status) i) with
    | (.error _, i) => i
    | (.ok (), i) => settle now { i with runtime := status, sequence := i.sequence + 1 }

def drop (id : Nat) (now : Instant) (i : Inner) : Inner :=
  settle now { i with subscribers := i.subscribers.erase id }

/-- The identity of a subscription keeps its bound: without one, `subscribe` is refused. -/
def subscribe (request : Subscribe) (clock : Readings) (pace : Nat → Nat) (i : Inner) : Inner :=
  match messageFits (Postcard.subscribe request) i.messageBytes with
  | .error _ => i
  | .ok () =>
    let i := expire clock.expire i
    if request.normal.topics.isEmpty then i
    else match i.checkSelection request.normal with
      | .error _ => i
      | .ok () =>
        match checkedAdd i.nextSubscription 1 with
        | none => i
        | some id =>
          let i := settle clock.settle (i.register id request pace)
          match i.capture id with
          | .ok frames => i.activate id frames
          | .error _ => settle clock.undo (i.unregister id)

end Unbounded

/-! ## What an open service has done -/

theorem Grows.opened {i i' : Inner} (h : Grows i i') (ho : i'.stopped = false) : i.stopped = false := by
  by_contra hstop
  rw [h.stopped (by simpa using hstop)] at ho
  cases ho

section

variable [Postcard] {i : Inner} {now : Instant}

open WfObserver.Service.Inner

theorem emitAll_open {us : List SubscriptionUpdate} (h : (i.emitAll us).stopped = false) :
    i.emitAll us = Unbounded.emitAll us i := by
  induction us generalizing i with
  | nil => rfl
  | cons u us ih =>
    rw [emitAll_cons] at h ⊢
    have ho := (Grows.stepwise.emitAll us _).opened h
    rcases i.emit_cases u with ⟨hstop, he⟩ | ⟨-, -, he⟩ | ⟨-, -, he⟩ <;> rw [he] at h ho ⊢
    · rw [hstop] at ho
      cases ho
    · cases ho
    · exact ih h

omit [Postcard] in
theorem sweep_congr {g g' : Steps} {sessions : OrdMap String Session}
    (h : ∀ id s key t, sessions.get? id = some s → s.topics.get? key = some t →
      g id s key t = g' id s key t) :
    sweep g sessions = sweep g' sessions ∧ swept g sessions = swept g' sessions := by
  constructor
  · refine OrdMap.ext_get? fun id => ?_
    rw [sweep_get?, sweep_get?]
    refine Option.map_congr fun s hs => ?_
    have htopics : s.topics.map (fun key t => (g id s key t).1) =
        s.topics.map fun key t => (g' id s key t).1 := by
      refine OrdMap.ext_get? fun key => ?_
      rw [OrdMap.get?_map, OrdMap.get?_map]
      exact Option.map_congr fun t ht => by rw [h id s key t hs ht]
    rw [htopics]
  · refine List.flatMap_congr fun e he => List.flatMap_congr fun t ht => ?_
    rw [h e.1 e.2 t.1 t.2 (OrdMap.get?_eq_some.mpr he) (OrdMap.get?_eq_some.mpr ht)]

/-- A pass that leaves the service open has given every topic its step. -/
theorem applyPass_open {f : String → Session → TopicRef → Topic → Topic × List Change × Bool}
    {g : Steps} (hf : ∀ id s key t, (f id s key t).2.2 = false →
      f id s key t = ((g id s key t).1, (g id s key t).2, false))
    (h : (i.applyPass (pass f i.sessions)).stopped = false) :
    i.applyPass (pass f i.sessions) = Unbounded.applyPass g i := by
  cases hgo : (pass f i.sessions).2.2 with
  | true =>
    unfold applyPass at h
    dsimp only at h
    rw [if_pos hgo] at h
    cases h
  | false =>
    let kept : Steps := fun id s key t => ((f id s key t).1, (f id s key t).2.1)
    have hsame : sweep kept i.sessions = sweep g i.sessions ∧
        swept kept i.sessions = swept g i.sessions :=
      sweep_congr fun id s key t hs ht => by simp only [kept, hf id s key t (pass_go hgo hs ht)]
    obtain ⟨hsweep, hswept⟩ := pass_sweep hgo
    rw [hsame.1] at hsweep
    rw [hsame.2] at hswept
    unfold applyPass at h ⊢
    unfold Unbounded.applyPass
    dsimp only at h ⊢
    rw [hgo, hsweep, hswept, if_neg (by simp)] at h ⊢
    exact emitAll_open h

theorem settleOnce_open (h : (i.settleOnce now).stopped = false) :
    i.settleOnce now = Unbounded.settleOnce now i :=
  applyPass_open (fun _ _ _ _ hgo => Topic.reconcile_toggle hgo) h

theorem settleLoop_open {fuel : Nat} {j : Inner} (hj : settleLoop fuel now i = some j)
    (h : j.stopped = false) : j = Unbounded.settleLoop fuel now i := by
  induction fuel generalizing i with
  | zero => cases hj
  | succ fuel ih =>
    rw [settleLoop] at hj
    have ho : (i.settleOnce now).stopped = false := by
      by_contra hstop
      have hstop : (i.settleOnce now).stopped = true := by simpa using hstop
      split at hj
      · rw [settleLoop_rule (I := fun k => k.stopped = true) (fun _ => settleOnce_stopped now) hstop
          hj] at h
        cases h
      · cases hj
        rw [hstop] at h
        cases h
    rw [settleOnce_open ho] at hj
    rw [Unbounded.settleLoop]
    split at hj
    · rename_i hl
      rw [if_pos hl]
      exact ih hj
    · rename_i hl
      rw [if_neg hl]
      exact (Option.some.inj hj).symm

theorem settle_open (h : (i.settle now).stopped = false) : i.settle now = Unbounded.settle now i :=
  settleLoop_open (settle_eq now i) h

theorem expire_open (h : (i.expire now).stopped = false) : i.expire now = Unbounded.expire now i := by
  unfold Inner.expire at h ⊢
  dsimp only at h ⊢
  cases hgo : (i.lapse now).2.2 with
  | true =>
    rw [if_pos hgo] at h
    unfold applyPass at h
    dsimp only at h
    rw [if_pos hgo] at h
    cases h
  | false =>
    rw [if_neg (by simp [hgo])] at h ⊢
    have hpass := applyPass_open (g := fun id _ key topic => topic.overrun id key now)
      (fun _ _ _ _ hgo => Topic.lapse_overrun hgo)
      ((Grows.stepwise.settle now (i.applyPass (i.lapse now))).opened h)
    rw [settle_open h]
    exact congrArg (Unbounded.settle now) hpass

theorem drop_open {id : Nat} (h : (i.drop id now).stopped = false) :
    i.drop id now = Unbounded.drop id now i := settle_open h

theorem endSession_open {status : HostStatus} {id : String}
    (h : (i.endSession status id).stopped = false) :
    i.endSession status id = Unbounded.endSession status i id := by
  unfold Inner.endSession at h ⊢
  unfold Unbounded.endSession
  cases hs : i.sessions.get? id with
  | none => rfl
  | some s =>
    rw [hs] at h
    dsimp only at h ⊢
    have hemit := @emitAll_open _ _ [_] h
    simp only [emitAll_cons, emitAll_nil, Unbounded.emitAll, List.foldl_cons, List.foldl_nil] at hemit
    rw [hemit]
    rfl

theorem endSessions_open {status : HostStatus} {ids : List String}
    (h : (ids.foldl (Inner.endSession status) i).stopped = false) :
    ids.foldl (Inner.endSession status) i = ids.foldl (Unbounded.endSession status) i := by
  induction ids generalizing i with
  | nil => rfl
  | cons id ids ih =>
    rw [List.foldl_cons] at h
    have ho := (Grows.stepwise.foldl (Grows.stepwise.endSession status) ids _).opened h
    rw [List.foldl_cons, List.foldl_cons, ← endSession_open ho]
    exact ih h

theorem addSession_open {info : SessionInfo} (h : (i.addSession info).2.stopped = false) :
    i.addSession info = Unbounded.addSession info i := by
  unfold Unbounded.addSession
  rcases Inner.addSession_cases info i with
    ⟨hp, he⟩ | ⟨hstop, he⟩ | ⟨-, he⟩ | ⟨p, -, -, ⟨-, hp⟩, -, he⟩ <;> rw [he] at h ⊢
  · rw [hp]
  · rw [hstop] at h
    cases h
  · cases h
  · rw [hp]
    exact congrArg _ (emitAll_open h)

theorem addSessions_open {l : List (String × SessionInfo)}
    (h : (Inner.addSessions l i).2.stopped = false) :
    Inner.addSessions l i = Unbounded.addSessions l i := by
  induction l generalizing i with
  | nil => rfl
  | cons e l ih =>
    have hrest := fun j : Inner => (Grows.stepwise.addSessions l j fun _ _ _ _ _ => trivial).opened
    rw [Inner.addSessions] at h ⊢
    rw [Unbounded.addSessions]
    split at h
    · rename_i hin
      rw [if_pos hin, if_pos hin]
      exact ih h
    · rename_i hin
      rw [if_neg hin, if_neg hin]
      have ho : (i.addSession e.2).2.stopped = false := by
        rcases he : i.addSession e.2 with ⟨_ | _, j⟩ <;> rw [he] at h
        · exact h
        · exact hrest j h
      rw [addSession_open ho] at h ⊢
      rcases he : Unbounded.addSession e.2 i with ⟨_ | _, j⟩
      · rfl
      · rw [he] at h
        exact ih h

omit [Postcard] in
theorem advance_open (h : i.advance.2.stopped = false) :
    i.advance.2 = { i with sequence := i.sequence + 1 } := by
  by_cases hstop : i.stopped = true
  · rw [advance, if_pos hstop, hstop] at h
    cases h
  rcases Nat.lt_or_ge i.sequence u64Max with hroom | hfull
  · rw [advance_room (by simpa using hstop) hroom]
  · have hnone : checkedAdd i.sequence 1 = none := checkedAdd_eq_none.mpr (by omega)
    rw [advance, if_neg hstop, hnone] at h
    cases h

theorem syncRuntime_open {status : HostStatus} (h : (i.syncRuntime status now).2.stopped = false) :
    (i.syncRuntime status now).2 = Unbounded.syncRuntime status now i := by
  unfold Inner.syncRuntime at h ⊢
  unfold Unbounded.syncRuntime
  split at h
  · rename_i hsame
    rw [if_pos hsame, if_pos hsame]
  rename_i hsame
  rw [if_neg hsame, if_neg hsame]
  dsimp only at h ⊢
  have hadd : (Inner.addSessions (i.incoming status).entries
      ((i.sessions.keys.filter fun id => !(i.incoming status).contains id).foldl
        (Inner.endSession status) i)).2.stopped = false := by
    rcases he : Inner.addSessions (i.incoming status).entries
      ((i.sessions.keys.filter fun id => !(i.incoming status).contains id).foldl
        (Inner.endSession status) i) with ⟨_ | _, j⟩ <;> rw [he] at h
    · exact h
    · exact ((Grows.stepwise.advanced { j with runtime := status }).trans
        (Grows.stepwise.settle now _)).opened h
  have hend := (Grows.stepwise.addSessions (i.incoming status).entries _
    fun _ _ _ _ _ => trivial).opened hadd
  rw [addSessions_open hadd, endSessions_open hend] at h ⊢
  rcases he : Unbounded.addSessions (i.incoming status).entries
    ((i.sessions.keys.filter fun id => !(i.incoming status).contains id).foldl
      (Unbounded.endSession status) i) with ⟨_ | _, j⟩
  · rfl
  · rw [he] at h
    dsimp only at h ⊢
    have ho := (Grows.stepwise.settle now _).opened h
    rw [settle_open h]
    rw [advance_open ho]

theorem subscribe_open {request : Subscribe} {clock : Readings} {pace : Nat → Nat}
    (h : (i.subscribe request clock pace).2.stopped = false) :
    (i.subscribe request clock pace).2 = Unbounded.subscribe request clock pace i := by
  unfold Inner.subscribe at h ⊢
  unfold Unbounded.subscribe
  cases hfits : messageFits (Postcard.subscribe request) i.messageBytes with
  | error => rfl
  | ok =>
    rw [hfits] at h
    dsimp only at h ⊢
    have ho : (i.expire clock.expire).stopped = false := by
      by_contra hstop
      rw [if_pos (by simpa using hstop)] at h
      exact hstop h
    have he := expire_open ho
    rw [he] at h ho ⊢
    generalize Unbounded.expire clock.expire i = j at h ho ⊢
    rw [if_neg (by simp [ho])] at h ⊢
    by_cases hempty : request.normal.topics.isEmpty = true
    · rw [if_pos hempty, if_pos hempty]
    rw [if_neg hempty] at h
    rw [if_neg hempty, if_neg hempty]
    cases hsel : j.checkSelection request.normal with
    | error => rfl
    | ok =>
      rw [hsel] at h
      dsimp only at h ⊢
      cases hid : checkedAdd j.nextSubscription 1 with
      | none => rfl
      | some id =>
        rw [hid] at h
        dsimp only at h ⊢
        have hs : ((j.register id request pace).settle clock.settle).stopped = false := by
          cases hcap : ((j.register id request pace).settle clock.settle).capture id with
          | ok =>
            rw [hcap] at h
            exact h
          | error =>
            rw [hcap] at h
            exact (Grows.stepwise.settle clock.undo (unregister id _)).opened h
        rw [settle_open hs] at h ⊢
        cases hcap : (Unbounded.settle clock.settle (j.register id request pace)).capture id with
        | ok => rfl
        | error =>
          rw [hcap] at h
          exact settle_open h

end

end Service
end WfObserver
