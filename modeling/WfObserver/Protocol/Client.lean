import WfObserver.Protocol.Selection

/-!
# What a client makes of a stream

`receive` is the meaning of a stream item. `Offered` says what each bootstrap item adds: a part of the
final replica that is not there yet. A client that starts with nothing and receives the items of a
bootstrap has the visible part of the replica (`describe_all`).
-/

namespace WfObserver
namespace Protocol

open Wire

/-- The meaning of an item. -/
def receive (R : Replica) : SubscriptionItem → Replica
  | .session info => R.insert info.session.sessionId ⟨info, ∅⟩
  | .topic t => R.modify t.source.session.sessionId (·.install t.source.topic t)
  | .update e => apply R e
  | _ => R

/-- The item tells a part of `T` that is not in `R`. -/
def Offered (T R : Replica) : SubscriptionItem → Prop
  | .session info => R.get? info.session.sessionId = none ∧
      ∃ s, T.get? info.session.sessionId = some s ∧ s.info = info
  | .topic t => (∃ s, R.get? t.source.session.sessionId = some s ∧
        s.topics.get? t.source.topic = none) ∧
      ∃ s, T.get? t.source.session.sessionId = some s ∧ s.topics.get? t.source.topic = some t
  | _ => False

/-- `R` is a part of `T`. -/
def Part (R T : Replica) : Prop :=
  ∀ id s, R.get? id = some s → ∃ s', T.get? id = some s' ∧ s.info = s'.info ∧
    ∀ key t, s.topics.get? key = some t → s'.topics.get? key = some t

theorem Part.empty (T : Replica) : Part ∅ T := by simp [Part]

/-- An offered item keeps the replica a part. -/
theorem Part.receive {T R : Replica} {item : SubscriptionItem} (h : Part R T)
    (ho : Offered T R item) : Part (receive R item) T := by
  cases item with
  | session info =>
    obtain ⟨-, s, hs, rfl⟩ := ho
    intro id s' hs'
    simp only [Protocol.receive, OrdMap.get?_insert] at hs'
    split at hs'
    · rename_i hid
      cases hs'
      exact ⟨s, hid ▸ hs, rfl, by simp⟩
    · exact h id s' hs'
  | topic t =>
    obtain ⟨⟨s, hs, -⟩, s', hs', ht⟩ := ho
    intro id q hq
    simp only [Protocol.receive, OrdMap.get?_modify] at hq
    split at hq
    · rename_i hid
      subst hid
      rw [hs] at hq
      cases hq
      obtain ⟨s'', hs'', hinfo, htopics⟩ := h _ s hs
      rw [hs'] at hs''
      cases hs''
      refine ⟨s', hs', hinfo, fun key v hv => ?_⟩
      simp only [Seen.install, OrdMap.get?_insert] at hv
      split at hv
      · rename_i hk
        cases hv
        rw [hk]
        exact ht
      · exact htopics key v hv
    · exact h id q hq
  | _ => exact ho.elim

/-! ## Describing a replica -/

/-- The items that describe one session with all its topics. -/
def describe (s : Seen) : List SubscriptionItem := .session s.info :: s.topics.values.map .topic

section describe

variable {T R : Replica} {id : String} {s : Seen}

theorem describe_topics {l : List (TopicRef × TopicSnapshot)} (hs : T.get? id = some s)
    (hsource : ∀ key t, s.topics.get? key = some t →
      t.source.session.sessionId = id ∧ t.source.topic = key)
    (hl : ∀ e ∈ l, s.topics.get? e.1 = some e.2) (hd : (l.map (·.1)).Nodup)
    {topics : OrdMap TopicRef TopicSnapshot} (hnew : ∀ e ∈ l, topics.get? e.1 = none) :
    Runs.Guarded receive (Offered T) (R.insert id ⟨s.info, topics⟩) (l.map fun e => .topic e.2) ∧
      (l.map fun e => SubscriptionItem.topic e.2).foldl receive (R.insert id ⟨s.info, topics⟩) =
        R.insert id ⟨s.info, l.foldl (fun m e => m.insert e.1 e.2) topics⟩ := by
  induction l generalizing topics with
  | nil => exact ⟨trivial, rfl⟩
  | cons e l ih =>
    obtain ⟨key, t⟩ := e
    rw [List.map_cons, List.nodup_cons] at hd
    have ht := hl _ (List.mem_cons_self ..)
    obtain ⟨hid, hkey⟩ := hsource key t ht
    -- The step installs this topic; the others are still missing.
    have hstep : receive (R.insert id ⟨s.info, topics⟩) (.topic t) =
        R.insert id ⟨s.info, topics.insert key t⟩ := by
      rw [receive, hid, OrdMap.modify_eq_insert (OrdMap.get?_insert_self ..), OrdMap.insert_insert,
        hkey]
      rfl
    have hrest : ∀ e ∈ l, (topics.insert key t).get? e.1 = none := fun e he => by
      have hne : e.1 ≠ key := fun h => hd.1 (List.mem_map.mpr ⟨e, he, h⟩)
      rw [OrdMap.get?_insert_ne _ _ hne]
      exact hnew e (List.mem_cons_of_mem _ he)
    obtain ⟨hg, hf⟩ := ih (fun e he => hl e (List.mem_cons_of_mem _ he)) hd.2 hrest
    refine ⟨⟨⟨⟨_, by rw [hid]; exact OrdMap.get?_insert_self .., ?_⟩, s, by rw [hid]; exact hs, ?_⟩,
      ?_⟩, ?_⟩
    · rw [hkey]
      exact hnew _ (List.mem_cons_self ..)
    · rw [hkey]
      exact ht
    · rw [hstep]
      exact hg
    · rw [List.map_cons, List.foldl_cons, hstep]
      exact hf

/-- The items of one session rebuild it. -/
theorem describe_session (hs : T.get? id = some s) (hid : s.info.session.sessionId = id)
    (hsource : ∀ key t, s.topics.get? key = some t →
      t.source.session.sessionId = id ∧ t.source.topic = key) (hnew : R.get? id = none) :
    Runs.Guarded receive (Offered T) R (describe s) ∧
      (describe s).foldl receive R = R.insert id s := by
  have hnone : ∀ e ∈ s.topics.entries, (∅ : OrdMap TopicRef TopicSnapshot).get? e.1 = none := by
    simp
  have htopics := describe_topics (R := R) hs hsource (fun e he => OrdMap.get?_eq_some.mpr he)
    s.topics.keys_nodup hnone
  have hstart : receive R (.session s.info) = R.insert id ⟨s.info, ∅⟩ := by rw [receive, hid]
  rw [describe, OrdMap.values, List.map_map, List.foldl_cons, hstart]
  refine ⟨⟨⟨by rw [hid]; exact hnew, s, by rw [hid]; exact hs, rfl⟩, ?_⟩, ?_⟩
  · rw [hstart]
    exact htopics.1
  · refine htopics.2.trans ?_
    rw [show s.topics.entries.foldl (fun m e => m.insert e.1 e.2) ∅ = s.topics from
      OrdMap.ofList_entries s.topics]

/-- The description of a replica rebuilds it from nothing. -/
theorem describe_all {runId : String} {n : Nat} (h : Coherent runId n T) :
    Runs.Guarded receive (Offered T) ∅ (T.values.flatMap describe) ∧
      (T.values.flatMap describe).foldl receive ∅ = T := by
  have key : ∀ (l : List (String × Seen)) (R : Replica), (∀ e ∈ l, T.get? e.1 = some e.2) →
      (l.map (·.1)).Nodup → (∀ e ∈ l, R.get? e.1 = none) →
      Runs.Guarded receive (Offered T) R (l.flatMap fun e => describe e.2) ∧
        (l.flatMap fun e => describe e.2).foldl receive R =
          l.foldl (fun m e => m.insert e.1 e.2) R := by
    intro l
    induction l with
    | nil => exact fun R _ _ _ => ⟨trivial, rfl⟩
    | cons e l ih =>
      intro R hl hd hnew
      rw [List.map_cons, List.nodup_cons] at hd
      have hs := hl e (List.mem_cons_self ..)
      have hsession := h.session e.1 e.2 hs
      obtain ⟨hg, hf⟩ := describe_session hs (by rw [hsession]) (fun key t ht => by
        rw [(h.topics _ _ key t hs ht).source, hsession]
        exact ⟨rfl, rfl⟩) (hnew e (List.mem_cons_self ..))
      obtain ⟨hg', hf'⟩ := ih (R.insert e.1 e.2) (fun x hx => hl x (List.mem_cons_of_mem _ hx)) hd.2
        fun x hx => by
          have hne : x.1 ≠ e.1 := fun heq => hd.1 (List.mem_map.mpr ⟨x, hx, heq⟩)
          rw [OrdMap.get?_insert_ne _ _ hne]
          exact hnew x (List.mem_cons_of_mem _ hx)
      rw [List.flatMap_cons, List.foldl_append, hf]
      exact ⟨Runs.guarded_append.mpr ⟨hg, by rw [hf]; exact hg'⟩, hf'⟩
  have hall := key T.entries ∅ (fun e he => OrdMap.get?_eq_some.mpr he) T.keys_nodup (by simp)
  rw [OrdMap.values, List.flatMap_map]
  exact ⟨hall.1, hall.2.trans (OrdMap.ofList_entries T)⟩

end describe

/-! ## Following a selection -/

variable {sel : Subscribe} {R : Replica} {runId : String} {n : Nat}

/-- What a selection may see at sequence `n`. -/
structure Suits (sel : Subscribe) (runId : String) (n : Nat) (T : Replica) : Prop where
  coherent : Coherent runId n T
  takes : ∀ id s, T.get? id = some s → takesInfo sel s.info = true
  topics : ∀ id s key t, T.get? id = some s → s.topics.get? key = some t →
    sel.topics.contains key = true

/-- The visible part of a replica suits the selection. -/
theorem visible_suits (h : Coherent runId n R) : Suits sel runId n (visible sel R) := by
  refine ⟨h.visible sel, fun id s hs => ?_, fun id s key t hs ht => ?_⟩
  · obtain ⟨s₀, -, ht, rfl⟩ := visible_eq_some.mp hs
    exact ht
  · obtain ⟨s₀, -, -, rfl⟩ := visible_eq_some.mp hs
    exact (OrdMap.get?_filter_some.mp ht).2

/-- What holds of all sessions holds of the visible ones. -/
theorem visible_all {P : SessionInfo → Prop} (h : ∀ id s, R.get? id = some s → P s.info)
    (id : String) (s : Seen) (hs : (visible sel R).get? id = some s) : P s.info := by
  obtain ⟨s₀, hs₀, -, rfl⟩ := visible_eq_some.mp hs
  exact h id s₀ hs₀

/-- The bootstrap describes the visible part. -/
theorem bootstrap_eq (h : Coherent runId n R) (cursor : ServiceCursor) :
    bootstrap sel R cursor =
      .begin cursor :: ((visible sel R).values.flatMap describe ++ [.ready cursor]) := by
  have hitems : ∀ e ∈ R.entries, takesInfo sel e.2.info = true →
      sessionItems sel e.2 = describe (e.2.select sel) := by
    intro e he ht
    have hs := OrdMap.get?_eq_some.mpr he
    simp only [sessionItems, describe, Seen.select, OrdMap.values, OrdMap.filter, List.filter_map]
    refine congrArg (fun (l : List (TopicRef × TopicSnapshot)) =>
      SubscriptionItem.session e.2.info :: (l.map (·.2)).map SubscriptionItem.topic) ?_
    refine List.filter_congr fun x hx => ?_
    have hsource := (h.topics _ _ x.1 x.2 hs (OrdMap.get?_eq_some.mpr hx)).source
    simp only [Function.comp_apply, hsource, takes_of_takesInfo ht]
  rw [bootstrap, List.cons_append]
  refine congrArg (fun l => _ :: (l ++ _)) ?_
  simp only [visible, OrdMap.values, OrdMap.map, OrdMap.filter, List.map_map, List.filter_map,
    List.flatMap_map]
  refine List.flatMap_congr fun e he => ?_
  obtain ⟨he, ht⟩ := List.mem_filter.mp he
  exact hitems e he ht

end Protocol
end WfObserver
