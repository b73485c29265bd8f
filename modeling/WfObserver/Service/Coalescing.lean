import WfObserver.Service.Commit

/-!
# A batch is published as its net result

`applyInOrder` applies a batch's operations one after the other to the session's topics, and
`netUpdates` announces only what that changed. `prepare` and `commit` work on the copies of the touched
topics instead, and publish these topic by topic. `transaction_net` says that both give the same topics
and the same updates.
-/

namespace WfObserver
namespace Service

open Wire

namespace Topic

/-- The topic with its snapshot published at `sequence`. -/
def stamp (sequence : Nat) (t : Topic) : Topic :=
  { t with
    state := { t.state with
      snapshot := t.state.snapshot.map fun s => { s with metadata := { s.metadata with sequence } } } }

end Topic

namespace StagedPublication

/-! ## One operation after the other -/

/-- One operation, applied at once to the topics of the session. -/
def applyOp (deadline : Instant) (op : Operation) (topics : OrdMap TopicRef Topic) :
    Except RequestError (OrdMap TopicRef Topic) :=
  match topics.get? op.key with
  | none => .error undemanded
  | some t =>
    match stageTopic deadline op t with
    | .error e => .error e
    | .ok t' => .ok (topics.insert op.key t')

def applyInOrder (deadline : Instant) :
    List Operation → OrdMap TopicRef Topic → Except RequestError (OrdMap TopicRef Topic)
  | [], topics => .ok topics
  | op :: ops, topics =>
    match applyOp deadline op topics with
    | .error e => .error e
    | .ok topics' => applyInOrder deadline ops topics'

/-- The events that no later reset of their topic takes back. -/
def keptEvents : List Operation → List (TopicRef × JsonPayload)
  | [] => []
  | .event key payload :: ops =>
    if .reset key ∈ ops then keptEvents ops else (key, payload) :: keptEvents ops
  | _ :: ops => keptEvents ops

/-- The topics whose visible state has changed. -/
def differing (old net : OrdMap TopicRef Topic) : OrdMap TopicRef Topic :=
  net.filter fun key t => (old.get? key).any fun o => changed o.state t.state

/-- The net topics as they are stored after sequence `n`: those that changed get the next sequences, in
their order, and the others keep their snapshot as it was. -/
def netStored (old net : OrdMap TopicRef Topic) (n : Nat) : OrdMap TopicRef Topic :=
  net.map fun key t =>
    match old.get? key with
    | none => t
    | some o =>
      if changed o.state t.state then t.stamp (n + (differing old net).keys.idxOf key + 1)
      else { t with state := { t.state with snapshot := o.state.snapshot } }

def netResets (net : OrdMap TopicRef Topic) (ops : List Operation) : List SubscriptionUpdate :=
  (ops.filterMap Operation.resetKey?).filterMap fun key =>
    (net.get? key).map fun t => .topicReset t.state.source t.state.generation .sourceChanged

def netChanges (old net : OrdMap TopicRef Topic) (n : Nat) : List SubscriptionUpdate :=
  (differing old net).entries.mapIdx fun j e => .topicChanged (e.2.stamp (n + j + 1)).state

def netEvents (net : OrdMap TopicRef Topic) (ops : List Operation) (n : Nat) :
    List SubscriptionUpdate :=
  ((keptEvents ops).filterMap fun e =>
    (net.get? e.1).map fun t => (t.state.source, t.state.generation, e.2)).mapIdx
      fun j e => .event ⟨⟨e.1, e.2.1, n + j + 1⟩, e.2.2⟩

/-- What is announced of the net result after sequence `n`. -/
def netUpdates (old net : OrdMap TopicRef Topic) (ops : List Operation) (n : Nat) :
    List SubscriptionUpdate :=
  let resets := netResets net ops
  let changes := netChanges old net (n + resets.length)
  resets ++ (changes ++ netEvents net ops (n + resets.length + changes.length))

/-! ## The staged copies are the net topics -/

/-- The topics of the session with the staged copies in their place. -/
def Overlaid (session : Session) (staged : StagedPublication) (net : OrdMap TopicRef Topic) : Prop :=
  ∀ key, net.get? key = (staged.topics.get? key).or (session.topics.get? key)

section prepare

variable {session : Session} {ticket : PollTicket} {deadline : Instant} {ops : List Operation}
  {op : Operation} {staged staged' : StagedPublication} {net : OrdMap TopicRef Topic}

/-- One turn of `prepare`'s loop is one operation. -/
theorem Overlaid.stage (h : Overlaid session staged net)
    (hs : StagedPublication.stage session ticket deadline staged op = .ok staged') :
    ∃ net', applyOp deadline op net = .ok net' ∧ Overlaid session staged' net' := by
  unfold StagedPublication.stage at hs
  split at hs
  · cases hs
  split at hs
  · cases hs
  rename_i current hcurrent
  split at hs
  · cases hs
  rename_i t ht
  cases hs
  have hget : net.get? op.key = some ((staged.topics.get? op.key).getD current) := by
    rw [h op.key, hcurrent]
    cases staged.topics.get? op.key <;> rfl
  refine ⟨net.insert op.key t, ?_, fun key => ?_⟩
  · unfold applyOp
    rw [hget]
    simp only [ht]
  · rw [OrdMap.get?_insert, OrdMap.get?_insert]
    split
    · rfl
    · exact h key

theorem Overlaid.prepare (h : Overlaid session staged net)
    (hs : StagedPublication.prepare session ticket deadline staged ops = .ok staged') :
    ∃ net', applyInOrder deadline ops net = .ok net' ∧ Overlaid session staged' net' := by
  induction ops generalizing staged net with
  | nil =>
    cases hs
    exact ⟨net, rfl, h⟩
  | cons op ops ih =>
    rw [StagedPublication.prepare] at hs
    split at hs
    · cases hs
    · rename_i st hst
      obtain ⟨net₁, happ, h₁⟩ := h.stage hst
      obtain ⟨net', hrest, h'⟩ := ih h₁ hs
      refine ⟨net', ?_, h'⟩
      rw [applyInOrder, happ]
      exact hrest

theorem prepare_net (hs : prepare session ticket deadline {} ops = .ok staged) :
    ∃ net, applyInOrder deadline ops session.topics = .ok net ∧ Overlaid session staged net := by
  have h : Overlaid session {} session.topics := fun key => by simp
  exact h.prepare hs

end prepare

theorem stageEvents_kept (ops : List Operation) (events : List (TopicRef × JsonPayload)) :
    ops.foldl (fun events op => stageEvents op events) events =
      (events.filter fun e => Operation.reset e.1 ∉ ops) ++ keptEvents ops := by
  induction ops generalizing events with
  | nil => simp [keptEvents]
  | cons op ops ih =>
    rw [List.foldl_cons, ih]
    cases op with
    | reset key =>
      simp only [stageEvents, keptEvents, List.filter_filter]
      congr 1
      refine List.filter_congr fun e _ => ?_
      simp [Bool.and_comm]
    | event key payload =>
      simp only [stageEvents, keptEvents, List.filter_append, List.mem_cons, reduceCtorEq, false_or,
        List.append_assoc, List.filter_singleton]
      split
      · rename_i h
        simp [h]
      · rename_i h
        simp [h]
    | snapshot key payload => simp [stageEvents, keptEvents]
    | health key value => simp [stageEvents, keptEvents]

/-! ## What the loops of `commit` make of the staged copies -/

section publish

variable {old topics : OrdMap TopicRef Topic} {l : List (TopicRef × Topic)} {key : TopicRef}
  {t o : Topic}

/-- The staged copies that differ. -/
def differs (old : OrdMap TopicRef Topic) (e : TopicRef × Topic) : Bool :=
  (old.get? e.1).any fun o => changed o.state e.2.state

theorem settled_changed (h : changed o.state t.state = true) (n : Nat) :
    settled o.state n t = t.stamp n := by
  simp [settled, Topic.stamp, h]

theorem settled_same (h : changed o.state t.state = false) (n : Nat) :
    settled o.state n t = { t with state := { t.state with snapshot := o.state.snapshot } } := by
  simp [settled, h]

/-- The second loop announces the copies that differ, at the next sequences. -/
theorem publishTopics_updates (hl : l.Pairwise fun a b => a.1 < b.1)
    (hold : ∀ e ∈ l, topics.get? e.1 = old.get? e.1) (n : Nat) :
    (publishTopics topics n l).2 =
      (l.filter (differs old)).mapIdx fun j e => .topicChanged (e.2.stamp (n + j + 1)).state := by
  induction l generalizing topics n with
  | nil => rfl
  | cons e l ih =>
    obtain ⟨key, t⟩ := e
    obtain ⟨hlt, hl⟩ := List.pairwise_cons.mp hl
    have hrest : ∀ (t' : Topic), ∀ e ∈ l, (topics.insert key t').get? e.1 = old.get? e.1 := by
      intro t' e he
      rw [OrdMap.get?_insert_ne _ _ (ne_of_gt (hlt e he))]
      exact hold e (List.mem_cons_of_mem _ he)
    have hkey := hold (key, t) List.mem_cons_self
    rw [publishTopics]
    cases ho : topics.get? key with
    | none =>
      have hd : differs old (key, t) = false := by simp [differs, ← hkey, ho]
      rw [List.filter_cons_of_neg (by simp [hd])]
      exact ih hl (fun e he => hold e (List.mem_cons_of_mem _ he)) n
    | some o =>
      have hd : differs old (key, t) = changed o.state t.state := by simp [differs, ← hkey, ho]
      dsimp only
      split
      · rename_i hc
        rw [List.filter_cons_of_pos (hd.trans hc), List.mapIdx_cons, ih hl (hrest _),
          settled_changed hc]
        simp only [Nat.add_zero, List.cons.injEq, true_and]
        congr 1
        funext j e
        rw [Nat.add_right_comm n 1 j]
        rfl
      · rename_i hc
        rw [List.filter_cons_of_neg (by simp [hd, hc])]
        exact ih hl (hrest _) n

/-- The second loop stores each copy with the sequence that it is announced with. -/
theorem publishTopics_stored (hl : l.Pairwise fun a b => a.1 < b.1)
    (hold : ∀ e ∈ l, topics.get? e.1 = old.get? e.1) (n : Nat) (ht : (key, t) ∈ l)
    (ho : old.get? key = some o) :
    (publishTopics topics n l).1.get? key =
      some (settled o.state (n + ((l.filter (differs old)).map Prod.fst).idxOf key + 1) t) := by
  induction l generalizing topics n with
  | nil => cases ht
  | cons e l ih =>
    obtain ⟨key', t'⟩ := e
    obtain ⟨hlt, hl⟩ := List.pairwise_cons.mp hl
    have hrest : ∀ (t' : Topic), ∀ e ∈ l, (topics.insert key' t').get? e.1 = old.get? e.1 := by
      intro t' e he
      rw [OrdMap.get?_insert_ne _ _ (ne_of_gt (hlt e he))]
      exact hold e (List.mem_cons_of_mem _ he)
    have hkey := hold (key', t') List.mem_cons_self
    rw [publishTopics]
    rcases List.mem_cons.mp ht with heq | ht
    · cases heq
      have hnot : ∀ t', (key, t') ∉ l := fun t' h' => absurd (hlt _ h') (lt_irrefl _)
      rw [hkey, ho]
      dsimp only
      split
      · rename_i hc
        have hd : differs old (key, t) = true := by simp [differs, ho, hc]
        rw [Inner.publishTopics_other hnot, OrdMap.get?_insert, if_pos rfl,
          List.filter_cons_of_pos hd]
        simp
      · rename_i hc
        rw [Inner.publishTopics_other hnot, OrdMap.get?_insert, if_pos rfl,
          settled_same (by simpa using hc), settled_same (by simpa using hc)]
    · have hne : key ≠ key' := ne_of_gt (hlt _ ht)
      cases ho' : topics.get? key' with
      | none =>
        have hd : differs old (key', t') = false := by simp [differs, ← hkey, ho']
        rw [List.filter_cons_of_neg (by simp [hd])]
        exact ih hl (fun e he => hold e (List.mem_cons_of_mem _ he)) n ht
      | some o' =>
        have hd : differs old (key', t') = changed o'.state t'.state := by
          simp [differs, ← hkey, ho']
        dsimp only
        split
        · rename_i hc
          rw [List.filter_cons_of_pos (hd.trans hc), List.map_cons,
            List.idxOf_cons_ne _ (Ne.symm hne), ih hl (hrest _) (n + 1) ht]
          congr 2
          simp only [Nat.succ_eq_add_one]
          omega
        · rename_i hc
          rw [List.filter_cons_of_neg (by simp [hd, hc])]
          exact ih hl (hrest _) n ht

/-- The third loop announces one event after the other. -/
theorem eventUpdates_eq (topics : OrdMap TopicRef Topic) (n : Nat)
    (l : List (TopicRef × JsonPayload)) :
    eventUpdates topics n l =
      (l.filterMap fun e => (topics.get? e.1).map fun t =>
        (t.state.source, t.state.generation, e.2)).mapIdx
          fun j e => .event ⟨⟨e.1, e.2.1, n + j + 1⟩, e.2.2⟩ := by
  fun_induction eventUpdates topics n l with
  | case1 => rfl
  | case2 n key payload rest h ih =>
    rw [List.filterMap_cons_none (by simp [h])]
    exact ih
  | case3 n key payload rest t h ih =>
    rw [List.filterMap_cons_some (by simp [h]; rfl), List.mapIdx_cons, ih]
    simp only [Nat.add_zero, List.cons.injEq, true_and]
    congr 1
    funext j e
    rw [Nat.add_right_comm n 1 j]
    rfl

end publish

section net

variable {session : Session} {ticket : PollTicket} {deadline : Instant} {ops : List Operation}
  {staged : StagedPublication} {net : OrdMap TopicRef Topic}

theorem changed_self (state : TopicSnapshot) : changed state state = false := by simp [changed]

/-- Only staged copies differ. -/
theorem Overlaid.differing (h : Overlaid session staged net) :
    (StagedPublication.differing session.topics net).entries =
      staged.topics.entries.filter (differs session.topics) := by
  have heq : StagedPublication.differing session.topics net =
      staged.topics.filter fun key t => differs session.topics (key, t) := by
    refine OrdMap.ext_get? fun key => ?_
    rw [StagedPublication.differing, OrdMap.get?_filter, OrdMap.get?_filter, h key]
    cases hst : staged.topics.get? key with
    | some t => rfl
    | none =>
      cases ho : session.topics.get? key with
      | none => rfl
      | some o => simp [Option.filter, changed_self]
  rw [heq]
  rfl

theorem Overlaid.of_staged (h : Overlaid session staged net) {key : TopicRef} {t : Topic}
    (ht : staged.topics.get? key = some t) : net.get? key = some t := by
  rw [h key, ht]
  rfl

/-- Every reset's topic is staged, so the net topics can be looked up in its place. -/
theorem Overlaid.resetUpdates (h : Overlaid session staged net)
    (hp : Prepared session ticket deadline ops staged) :
    staged.resetUpdates = netResets net ops := by
  unfold StagedPublication.resetUpdates netResets
  rw [← hp.resets]
  refine List.filterMap_congr fun key hk => ?_
  obtain ⟨t, ht⟩ := hp.reset_staged hk
  rw [ht, h.of_staged ht]

theorem Overlaid.topicUpdates (h : Overlaid session staged net) (n : Nat) :
    (publishTopics session.topics n staged.topics.entries).2 = netChanges session.topics net n := by
  rw [publishTopics_updates staged.topics.sorted (fun _ _ => rfl), netChanges, h.differing]

theorem Overlaid.stored (h : Overlaid session staged net)
    (hp : Prepared session ticket deadline ops staged) (n : Nat) :
    (publishTopics session.topics n staged.topics.entries).1 = netStored session.topics net n := by
  refine OrdMap.ext_get? fun key => ?_
  rw [netStored, OrdMap.get?_map]
  cases hst : staged.topics.get? key with
  | none =>
    rw [Inner.publishTopics_other (OrdMap.get?_eq_none.mp hst), h key, hst, Option.none_or]
    cases ho : session.topics.get? key with
    | none => rfl
    | some o => simp [changed_self]
  | some t =>
    obtain ⟨-, o, ho, -⟩ := hp.of_get? hst
    rw [publishTopics_stored staged.topics.sorted (fun _ _ => rfl) n (OrdMap.get?_eq_some.mp hst) ho,
      h.of_staged hst, OrdMap.keys, h.differing]
    simp only [Option.map_some, ho, Option.some.injEq]
    split
    · rename_i hc
      exact settled_changed hc _
    · rename_i hc
      exact settled_same (by simpa using hc) _

/-- A stored topic has the source and the generation of the net topic. -/
theorem netStored_fields (old net : OrdMap TopicRef Topic) (n : Nat) {key : TopicRef} {t : Topic}
    (ht : net.get? key = some t) : ∃ t', (netStored old net n).get? key = some t' ∧
      t'.state.source = t.state.source ∧ t'.state.generation = t.state.generation ∧
      t'.state.health = t.state.health ∧ t'.demanded = t.demanded ∧ t'.epoch = t.epoch ∧
      t'.deadline = t.deadline ∧
      t'.state.snapshot.map (·.payload) = t.state.snapshot.map (·.payload) := by
  rw [netStored, OrdMap.get?_map, ht]
  refine ⟨_, rfl, ?_⟩
  cases ho : old.get? key with
  | none => simp
  | some o =>
    dsimp only
    split
    · simp [Topic.stamp, Function.comp_def]
    · rename_i hc
      have hpayload : o.state.snapshot.map (·.payload) = t.state.snapshot.map (·.payload) := by
        have hc : changed o.state t.state = false := by simpa using hc
        simp only [changed, Bool.or_eq_false_iff, bne_eq_false_iff_eq] at hc
        exact hc.2
      exact ⟨rfl, rfl, rfl, rfl, rfl, rfl, hpayload⟩

theorem Prepared.eventUpdates (hp : Prepared session ticket deadline ops staged)
    (net : OrdMap TopicRef Topic) (m n : Nat) :
    StagedPublication.eventUpdates (netStored session.topics net m) n staged.events =
      netEvents net ops n := by
  rw [eventUpdates_eq, netEvents, hp.events, stageEvents_kept, List.filter_nil, List.nil_append]
  congr 1
  refine List.filterMap_congr fun e he => ?_
  cases ht : net.get? e.1 with
  | none => rw [netStored, OrdMap.get?_map, ht]; rfl
  | some t =>
    obtain ⟨t', ht', hsource, hgen, -⟩ := netStored_fields session.topics net m ht
    rw [ht', Option.map_some, Option.map_some, hsource, hgen]

end net

end StagedPublication

namespace Inner

open StagedPublication

variable {session : Session} {ticket : PollTicket} {deadline : Instant} {pending : Pending}
  {staged : StagedPublication}

/-- What the batch changes in the session's metadata. -/
def infoUpdates (pending : Pending) (session : Session) : List SubscriptionUpdate :=
  ((metadata session pending).map SubscriptionUpdate.sessionChanged).toList

/-- A poll's transaction stores and announces the net result of its operations. -/
theorem transaction_net (hs : prepare session ticket deadline {} pending.ops = .ok staged) (n : Nat) :
    ∃ net, applyInOrder deadline pending.ops session.topics = .ok net ∧
      (∀ op ∈ pending.ops, net.contains op.key = true) ∧
      let m := n + (infoUpdates pending session).length
      (transaction pending session staged n).1.topics =
        netStored session.topics net (m + (netResets net pending.ops).length) ∧
      (transaction pending session staged n).2 =
        infoUpdates pending session ++ netUpdates session.topics net pending.ops m := by
  have hp := prepare_prepared hs
  obtain ⟨net, happ, h⟩ := prepare_net hs
  refine ⟨net, happ, fun op hop => ?_, ?_⟩
  · obtain ⟨t, ht⟩ := hp.op_staged hop
    exact OrdMap.contains_iff.mpr ⟨t, h.of_staged ht⟩
  · simp only [transaction, opening, netUpdates, infoUpdates, List.length_append,
      h.resetUpdates hp, h.topicUpdates, h.stored hp, hp.eventUpdates net, Nat.add_assoc,
      List.append_assoc, and_self]

/-- The service after a published batch, before `settle`: the operations are applied one after the
other, the net topics are stored, and what differs in them is announced after the metadata. -/
structure Sequential (i : Inner) (ticket : PollTicket) (pending : Pending) (deadline : Instant)
    (session session' : Session) (net : OrdMap TopicRef Topic) (k : Inner) : Prop where
  found : i.sessions.get? ticket.sessionId = some session
  applied : applyInOrder deadline pending.ops session.topics = .ok net
  covered : ∀ op ∈ pending.ops, net.contains op.key = true
  sessions : k.sessions = i.sessions.insert ticket.sessionId session'
  topics : session'.topics = netStored session.topics net
    (i.sequence + (infoUpdates pending session).length + (netResets net pending.ops).length)
  log : k.log = i.log ++ envelopes i.runId i.sequence (infoUpdates pending session ++
    netUpdates session.topics net pending.ops (i.sequence + (infoUpdates pending session).length))
  /-- Storing changes nothing of a net topic but the sequence of its snapshot. -/
  stored : ∀ key t, net.get? key = some t → ∃ t', session'.topics.get? key = some t' ∧
    t'.state.source = t.state.source ∧ t'.state.generation = t.state.generation ∧
    t'.state.health = t.state.health ∧ t'.demanded = t.demanded ∧ t'.epoch = t.epoch ∧
    t'.deadline = t.deadline ∧
    t'.state.snapshot.map (·.payload) = t.state.snapshot.map (·.payload)

/-- A batch is published as the net result of its operations, one after the other. -/
theorem commitPoll_sequential [Postcard] [SerdeJson] (i : Inner) (ticket : PollTicket)
    (batch : PollBatch) (deadline now : Instant)
    (h : (i.commitPoll ticket batch deadline now).1 = .ok true) :
    ∃ session session' net k,
      Sequential i ticket batch.pending deadline session session' net k ∧
      (i.commitPoll ticket batch deadline now).2 = k.settle now := by
  rcases commitPoll_cases ticket batch deadline now i with
    ⟨r, hr, he⟩ | ⟨-, -, he⟩ | ⟨session, staged, hp, he⟩
  · rw [he] at h
    exact absurd h hr
  · rw [he] at h
    cases h
  · have hprepare : prepare session ticket deadline {} batch.pending.ops = .ok staged := by
      have hc := hp.checked
      unfold checkPoll at hc
      split at hc
      · cases hc
      · rename_i staged' hst
        rw [hst]
        split at hc
        · cases hc
        · split at hc
          · exact hc
          · split at hc
            · cases hc
            · exact hc
    have ht := hp.transacted (batch.pending.ops.map (Mark.applied ticket.sessionId · deadline))
    obtain ⟨net, happ, hmem, htopics, hupdates⟩ := transaction_net hprepare i.sequence
    refine ⟨session, _, net, _, ⟨hp.found, happ, hmem, ht.sessions, htopics, ?_, ?_⟩, by rw [he]⟩
    · rw [ht.log, hupdates]
    · intro key t hkey
      rw [htopics]
      exact netStored_fields _ _ _ hkey

end Inner

section examples

open TestSupport

namespace Coalescing

/-- Six operations on one topic: an event, a reset, a snapshot, a failure, a snapshot and an event. -/
def busy : PollBatch :=
  let capability : ProviderSdk.CapabilityDescriptor := ⟨"fixture.count", 1, some .full, true⟩
  let batch := ((PollBatch.new manifest).event capability (1 : Nat)).2
  let batch := (batch.reset capability).2
  let batch := (batch.snapshot capability (8 : Nat)).2
  let batch := (batch.health capability (.unavailable .targetNotReady)).2
  let batch := (batch.snapshot capability (9 : Nat)).2
  (batch.event capability (2 : Nat)).2

/-- What the six operations announce after `published`. -/
def busyUpdates : List SubscriptionUpdate :=
  let source := counted.state.source
  [.topicReset source 3 .sourceChanged,
    .topicChanged ⟨source, 3, .available, some ⟨⟨source, 3, 8⟩, ⟨"9"⟩⟩⟩,
    .event ⟨⟨source, 3, 9⟩, ⟨"2"⟩⟩]

theorem busy_committed :
    ((run service published).commitPoll ticket busy (seconds 8) (seconds 1)).1 = .ok true := by
  decide +kernel

theorem busy_announced :
    (((run service published).commitPoll ticket busy (seconds 8) (seconds 1)).2.log.drop
      (run service published).log.length).map (·.update) = busyUpdates := by
  decide +kernel

end Coalescing

open Coalescing in
/-- Six operations are published as the reset, the last snapshot and the last event. -/
theorem commitPoll_sequential_published : (∃ session session' net k,
    Inner.Sequential (run service published) ticket busy.pending (seconds 8) session session' net k ∧
    ((run service published).commitPoll ticket busy (seconds 8) (seconds 1)).2 =
      k.settle (seconds 1)) ∧
    (((run service published).commitPoll ticket busy (seconds 8) (seconds 1)).2.log.drop
      (run service published).log.length).map (·.update) = busyUpdates :=
  ⟨Inner.commitPoll_sequential (run service published) ticket busy (seconds 8) (seconds 1)
    busy_committed, busy_announced⟩

end examples

end Service
end WfObserver
