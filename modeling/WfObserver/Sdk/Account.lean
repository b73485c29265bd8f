import WfObserver.Sdk.Listening
import WfObserver.Service.TestSupport

/-!
# No event is lost or repeated

The account of a listener with a feed has the events that `next` has returned, those in the queue and
the one on its way. A move adds to the account of one session and topic what the feed accepts in it
and changes nothing else (`Hub.Ok.account_step`), as long as the listener stays open and the move does
not end the session or its generation.
-/

namespace WfObserver
namespace Sdk

open Wire

/-- The event is of this session and topic. -/
def ofTopic (session : SessionRef) (key : TopicRef) (event : EventEnvelope) : Bool :=
  event.metadata.source.session == session && event.metadata.source.topic == key

/-- The events among the items that `next` has returned. -/
def returnedEvents (items : List Observation) : List EventEnvelope :=
  items.filterMap fun item => match item with
    | .event event => some event
    | _ => none

/-- The event that the feed still brings to the listener. -/
def SharedFeed.owed (f : SharedFeed) (id : Nat) : List EventEnvelope :=
  match f.delivering with
  | some (event, rest) => if id ∈ rest then [event] else []
  | none => []

/-- The events of a session and topic that the listener returned and has in its queue. -/
def Listener.kept (session : SessionRef) (key : TopicRef) (l : Listener) : List EventEnvelope :=
  (returnedEvents l.returned ++ l.events.map (·.2)).filter (ofTopic session key)

/-- With those that the feed still brings. -/
def account (session : SessionRef) (f : SharedFeed) (id : Nat) (l : Listener) : List EventEnvelope :=
  l.kept session f.key ++ (f.owed id).filter (ofTopic session f.key)

/-- The move ends what the feed has of the session's topic. -/
def Move.Ends (feed : Nat) (session : SessionRef) : Move → Prop
  | .resync i => i = feed
  | .receive i item => i = feed ∧ Sdk.Ends session item
  | _ => False

namespace Listener

variable {session : SessionRef} {key : TopicRef} {l : Listener}

/-- Two listeners with the same account of a topic, of which the second is not more open. -/
structure Carries (session : SessionRef) (key : TopicRef) (l l' : Listener) : Prop where
  events : l'.receiveEvents = l.receiveEvents
  closed : l'.closed = false → l.closed = false
  lagging : l'.lagging = false → l.lagging = false
  kept : l'.closed = false → l'.lagging = false → l'.kept session key = l.kept session key

theorem Carries.refl (session : SessionRef) (key : TopicRef) (l : Listener) :
    Carries session key l l := ⟨rfl, id, id, fun _ _ => rfl⟩

theorem returnedEvents_append (items : List Observation) (item : Observation) :
    returnedEvents (items ++ [item]) = returnedEvents items ++ match item with
      | .event event => [event]
      | _ => [] := by
  rw [returnedEvents, List.filterMap_append]
  cases item <;> rfl

theorem next_carries (session : SessionRef) (key : TopicRef) (l : Listener) :
    Carries session key l l.next := by
  unfold Listener.next
  split
  · refine ⟨rfl, id, id, fun _ _ => ?_⟩
    simp only [kept, returnedEvents_append, List.append_nil]
  · exact ⟨rfl, id, id, fun _ _ => rfl⟩
  split
  · exact .refl _ _ _
  split
  · refine ⟨rfl, id, id, fun _ _ => ?_⟩
    simp only [kept, returnedEvents_append, List.append_nil]
  split
  · exact .refl _ _ _
  · rename_i size event events hevents
    refine ⟨rfl, id, id, fun _ _ => ?_⟩
    simp only [kept, returnedEvents_append, hevents, List.map_cons, List.append_assoc,
      List.singleton_append]

theorem finish_carries (session : SessionRef) (key : TopicRef) (terminal : Terminal) (l : Listener) :
    Carries session key l (l.finish terminal) := by
  obtain ⟨-, hevents, hlagging⟩ := finish_frame terminal l
  exact ⟨hevents, fun hc => (by simp at hc), fun hl => hlagging ▸ hl, fun hc => (by simp at hc)⟩

/-- A state of another topic, or one that keeps the session's events. -/
theorem state_carries {topic : TopicRef} {st : FeedState}
    (h : topic = key → ∀ entry ∈ l.events, ofTopic session key entry.2 = true →
      st.keeps entry.2 = true) : Carries session key l (l.state topic st) := by
  unfold Listener.state
  split
  · exact .refl _ _ _
  refine ⟨rfl, id, id, fun _ _ => ?_⟩
  simp only [kept, List.filter_append, Listener.retained, List.filter_map, List.filter_filter]
  congr 2
  refine List.filter_congr fun entry he => ?_
  by_cases hof : ofTopic session key entry.2 = true
  · simp only [Function.comp_apply, hof, Bool.true_and]
    by_cases htopic : topic = key
    · simp [h htopic entry he hof]
    · obtain ⟨-, hk⟩ := Bool.and_eq_true_iff.mp hof
      simp [beq_iff_eq.mp hk, Ne.symm htopic]
  · simp [hof]

/-- An event is queued last, if there is room for it. -/
theorem event_kept [PostcardEvent] {budget : Nat} {event : EventEnvelope}
    (hevents : l.receiveEvents = true) (hopen : (l.event budget event).closed = false)
    (hroom : (l.event budget event).lagging = false) :
    (l.event budget event).kept session key =
      l.kept session key ++ [event].filter (ofTopic session key) := by
  have hclosed : l.closed = false := (event_frame budget event l).2.1 ▸ hopen
  unfold Listener.event at hroom ⊢
  rw [if_neg (by simp [hevents, hclosed])] at hroom ⊢
  split at hroom <;> rename_i hsize
  · cases hroom
  · rw [if_neg hsize]
    simp only [kept, List.map_append, List.map_cons, List.map_nil, ← List.append_assoc,
      List.filter_append]

end Listener

/-- What a move does to a feed and to one of its listeners. -/
structure Continues (session : SessionRef) (id : Nat) (f f' : SharedFeed) (l l' : Listener) : Prop where
  key : f'.key = f.key
  events : l'.receiveEvents = l.receiveEvents
  closed : l'.closed = false → l.closed = false
  lagging : l'.lagging = false → l.lagging = false
  account : l'.closed = false → l'.lagging = false → id ∈ f'.listeners ∧
    ∃ new, f'.announced = f.announced ++ new ∧
      account session f' id l' = account session f id l ++ new.filter (ofTopic session f.key)

section moves

variable {session : SessionRef} {h : Hub} {i id : Nat} {f : SharedFeed} {l : Listener}

theorem Continues.quiet {f' : SharedFeed} {l' : Listener} (hkey : f'.key = f.key)
    (hin : l'.closed = false → id ∈ f'.listeners) (hd : f'.delivering = f.delivering)
    (ha : f'.announced = f.announced) (hc : Listener.Carries session f.key l l') :
    Continues session id f f' l l' := by
  refine ⟨hkey, hc.events, hc.closed, hc.lagging, fun hopen hroom => ⟨hin hopen, [], ?_, ?_⟩⟩
  · rw [ha, List.append_nil]
  · simp only [Sdk.account, SharedFeed.owed, hkey, hd, hc.kept hopen hroom, List.filter_nil,
      List.append_nil]

theorem Continues.refl (hin : id ∈ f.listeners) : Continues session id f f l l :=
  .quiet rfl (fun _ => hin) rfl rfl (.refl _ _ _)

/-- A state that a feed publishes reaches the listener, or does not concern it. -/
theorem publishState_carries (session : SessionRef) (p : SharedFeed) (key : TopicRef)
    (hp : id ∈ p.listeners → p.key = key → ∀ entry ∈ l.events, ofTopic session key entry.2 = true →
      p.feed.ready = true → p.feed.current.keeps entry.2 = true)
    (hl : h.listeners.get? id = some l) : ∃ l',
      (publishState p h.listeners).get? id = some l' ∧ Listener.Carries session key l l' := by
  refine ⟨_, (Hub.Ok.publishState_get? p h.listeners id).trans (by rw [hl]; rfl), ?_⟩
  split
  · rename_i hc
    exact Listener.state_carries fun hk entry he hof => hp hc.2 hk entry he hof hc.1
  · exact .refl _ _ _

/-- What the listener has in its queue, a ready feed still has. -/
theorem Hub.Ok.queue_kept (ok : h.Ok) (hf : h.feeds.get? i = some f) (hl : h.listeners.get? id = some l)
    (hin : id ∈ f.listeners) (hstop : f.stopped = false) {entry : Nat × EventEnvelope}
    (he : entry ∈ l.events) (hof : ofTopic session f.key entry.2 = true) :
    f.feed.current.keeps entry.2 = true := by
  obtain ⟨-, hkey⟩ := Bool.and_eq_true_iff.mp hof
  obtain ⟨state, hstate, -, t, -, ht, -, -, hgen⟩ := (ok.listeners id l hl).queued entry he
  have hopen : l.closed = false := by
    by_contra hc
    rw [((ok.listeners id l hl).ended (by simpa using hc)).2] at he
    cases he
  have htold := ok.told i f id l hf hl hin hopen
  rw [beq_iff_eq.mp hkey] at hstate
  by_cases hready : f.feed.ready = true
  · rw [Told, if_pos hready, hstate] at htold
    obtain ⟨shown, hshown, hsame, -⟩ := htold
    cases hshown
    rw [← hsame hstop]
    exact (Option.any_eq_true _ _).mpr ⟨t, ht, beq_iff_eq.mpr hgen⟩
  · rw [Told, if_neg hready] at htold
    rw [htold state hstate] at ht
    simp at ht

variable [Postcard]

theorem Hub.Ok.receive_account (ok : h.Ok) {j : Nat} {item : SubscriptionItem}
    (hlive : (Move.receive j item).Live h) (hnot : ¬ (Move.receive j item).Ends i session)
    (hf : h.feeds.get? i = some f) (hl : h.listeners.get? id = some l) (hin : id ∈ f.listeners) :
    ∃ f' l', (h.receive j item).feeds.get? i = some f' ∧
      (h.receive j item).listeners.get? id = some l' ∧ Continues session id f f' l l' := by
  rcases Hub.Ok.receive_cases j item h with hsame | ⟨g, validation, state, hg, hd, ha, hr, hcase⟩
  · rw [hsame]
    exact ⟨f, l, hf, hl, .refl hin⟩
  by_cases hij : i = j
  · subst hij
    rw [hf] at hg
    cases hg
    rcases hcase with ⟨cursor, rfl, heq⟩ | ⟨cursor, event, rfl, heq⟩ | ⟨hpublishes, heq⟩ <;>
      rw [heq]
    · exact ⟨_, l, OrdMap.get?_insert_self _ _ _, hl, .quiet rfl (fun _ => hin) rfl rfl (.refl _ _ _)⟩
    · refine ⟨_, l, OrdMap.get?_insert_self _ _ _, hl, rfl, rfl, fun hc => hc, fun hc => hc,
        fun _ _ => ⟨hin, [event], rfl, ?_⟩⟩
      simp only [account, SharedFeed.owed, hd, if_pos hin, List.filter_nil, List.append_nil]
    · have hstop : f.stopped = false := by
        by_contra hs
        rw [(ok.feeds i f hf).idle (by simpa using hs) (hlive hpublishes f hf)] at hin
        cases hin
      obtain ⟨sel, -, hjoint⟩ := (ok.feeds i f hf).joint
      have hkeep : ∀ entry ∈ l.events, ofTopic session f.key entry.2 = true →
          state.current.keeps entry.2 = true := by
        intro entry he hof
        refine (hjoint hstop).keeps_event ha hr (fun hends => hnot ⟨rfl, ?_⟩)
          (ok.queue_kept hf hl hin hstop he hof)
        rwa [← beq_iff_eq.mp (Bool.and_eq_true_iff.mp hof).1]
      obtain ⟨l', hl', hcarries⟩ := publishState_carries session { f with validation, feed := state }
        f.key (fun _ _ entry he hof _ => hkeep entry he hof) hl
      exact ⟨_, l', OrdMap.get?_insert_self _ _ _, hl', .quiet rfl (fun _ => hin) rfl rfl hcarries⟩
  · have hkeep : ∀ g', (h.feeds.insert j g').get? i = some f := fun g' =>
      (OrdMap.get?_insert_ne _ _ hij).trans hf
    rcases hcase with ⟨cursor, rfl, heq⟩ | ⟨cursor, event, rfl, heq⟩ | ⟨-, heq⟩ <;> rw [heq]
    · exact ⟨f, l, hkeep _, hl, .refl hin⟩
    · exact ⟨f, l, hkeep _, hl, .refl hin⟩
    · obtain ⟨l', hl', hcarries⟩ := publishState_carries session { g with validation, feed := state }
        f.key (fun hin' hk => absurd (ok.once i j f g id hf hg hin hin' hk.symm) hij) hl
      exact ⟨f, l', hkeep _, hl', .quiet rfl (fun _ => hin) rfl rfl hcarries⟩

omit [Postcard] in
theorem Hub.Ok.deliver_account [PostcardEvent] (ok : h.Ok) {budget j : Nat}
    (hf : h.feeds.get? i = some f) (hl : h.listeners.get? id = some l) (hin : id ∈ f.listeners)
    (hevents : l.receiveEvents = true) :
    ∃ f' l', (h.deliver budget j).feeds.get? i = some f' ∧
      (h.deliver budget j).listeners.get? id = some l' ∧ Continues session id f f' l l' := by
  unfold Hub.deliver
  split
  · exact ⟨f, l, hf, hl, .refl hin⟩
  rename_i g hg
  split
  · exact ⟨f, l, hf, hl, .refl hin⟩
  · rename_i event hd
    by_cases hij : i = j
    · subst hij
      rw [hf] at hg
      cases hg
      refine ⟨_, l, OrdMap.get?_insert_self _ _ _, hl, rfl, rfl, fun hc => hc, fun hc => hc,
        fun _ _ => ⟨hin, [], (List.append_nil _).symm, ?_⟩⟩
      simp [account, SharedFeed.owed, hd]
    · exact ⟨f, l, (OrdMap.get?_insert_ne _ _ hij).trans hf, hl, .refl hin⟩
  rename_i event target rest hd
  by_cases htarget : target = id
  · subst htarget
    obtain ⟨-, hclosed, hsame, hlagging⟩ := Listener.event_frame budget event l
    have hl' : (h.listeners.modify target (Listener.event budget event)).get? target =
        some (l.event budget event) := by
      rw [OrdMap.get?_modify_self, hl]
      rfl
    by_cases hij : i = j
    · -- The event leaves the way and goes into the queue.
      subst hij
      rw [hf] at hg
      cases hg
      refine ⟨_, _, OrdMap.get?_insert_self _ _ _, hl', rfl, hsame, fun hc => hclosed ▸ hc, hlagging,
        fun hopen hroom => ⟨hin, [], (List.append_nil _).symm, ?_⟩⟩
      have hgone : target ∉ rest :=
        (List.nodup_cons.mp ((ok.feeds i f hf).bringing event _ hd)).1
      simp only [account, SharedFeed.owed, hd, Listener.event_kept hevents hopen hroom, if_neg hgone,
        List.mem_cons_self, if_true, List.filter_nil, List.append_nil]
    · -- The event is of another topic.
      refine ⟨f, _, (OrdMap.get?_insert_ne _ _ hij).trans hf, hl', rfl, hsame, fun hc => hclosed ▸ hc,
        hlagging, fun hopen hroom => ⟨hin, [], (List.append_nil _).symm, ?_⟩⟩
      obtain ⟨hmem, htopic, -⟩ := ok.bound j g target l hg hl event _ hd (by simp) (hclosed ▸ hopen)
      have hother : ofTopic session f.key event = false := by
        by_contra hof
        have hof : ofTopic session f.key event = true := by simpa using hof
        have hk := (Bool.and_eq_true_iff.mp hof).2
        exact hij (ok.once i j f g target hf hg hin hmem ((beq_iff_eq.mp hk).symm.trans htopic))
      simp only [account, Listener.event_kept hevents hopen hroom, List.filter_cons, hother,
        Bool.false_eq_true, if_false, List.filter_nil, List.append_nil]
  · have hl' : (h.listeners.modify target (Listener.event budget event)).get? id = some l :=
      (OrdMap.get?_modify_ne _ _ (Ne.symm htarget)).trans hl
    by_cases hij : i = j
    · subst hij
      rw [hf] at hg
      cases hg
      refine ⟨_, l, OrdMap.get?_insert_self _ _ _, hl', rfl, rfl, fun hc => hc, fun hc => hc,
        fun _ _ => ⟨hin, [], (List.append_nil _).symm, ?_⟩⟩
      simp only [account, SharedFeed.owed, hd, List.mem_cons, Ne.symm htarget, false_or,
        List.filter_nil, List.append_nil]
    · exact ⟨f, l, (OrdMap.get?_insert_ne _ _ hij).trans hf, hl', .refl hin⟩

/-- A move continues every feed and every listener on it, unless it ends what they share. -/
theorem Hub.Ok.account_step [PostcardEvent] (ok : h.Ok) {budget : Nat} {m : Move} (hlaw : m.Lawful h)
    (hlive : m.Live h) (hnot : ¬ m.Ends i session) (hf : h.feeds.get? i = some f)
    (hl : h.listeners.get? id = some l) (hin : id ∈ f.listeners) (hevents : l.receiveEvents = true) :
    ∃ f' l', (h.step budget m).feeds.get? i = some f' ∧
      (h.step budget m).listeners.get? id = some l' ∧ Continues session id f f' l l' := by
  cases m with
  | listen other receiveEvents =>
    simp only [Hub.step]
    split
    · exact ⟨f, l, hf, hl, .refl hin⟩
    · rename_i hnew
      refine ⟨f, l, hf, (OrdMap.get?_insert_ne _ _ fun heq => hnew ?_).trans hl, .refl hin⟩
      exact OrdMap.contains_iff.mpr ⟨l, heq ▸ hl⟩
  | start j sessions key =>
    simp only [Hub.step]
    split
    · exact ⟨f, l, hf, hl, .refl hin⟩
    · rename_i hnew
      refine ⟨f, l, (OrdMap.get?_insert_ne _ _ fun heq => hnew ?_).trans hf, hl, .refl hin⟩
      exact OrdMap.contains_iff.mpr ⟨f, heq ▸ hf⟩
  | attach j other =>
    obtain ⟨-, hlaw⟩ := hlaw
    simp only [Hub.step, Hub.attach]
    split
    · exact ⟨f, l, hf, hl, .refl hin⟩
    rename_i g hg
    split
    · exact ⟨f, l, hf, hl, .refl hin⟩
    -- The feed is attached to a listener that has no feed of this topic.
    have hl' : ∃ l', OrdMap.get? (if g.feed.ready = true then
        h.listeners.modify other (Listener.state g.key g.feed.current) else h.listeners) id = some l' ∧
        Listener.Carries session f.key l l' := by
      split
      · by_cases hid : id = other
        · subst hid
          refine ⟨l.state g.key g.feed.current, by rw [OrdMap.get?_modify_self, hl]; rfl, ?_⟩
          exact Listener.state_carries fun hk => absurd hin (hlaw g f i hg hf hk.symm)
        · exact ⟨l, (OrdMap.get?_modify_ne _ _ hid).trans hl, .refl _ _ _⟩
      · exact ⟨l, hl, .refl _ _ _⟩
    obtain ⟨l', hl', hcarries⟩ := hl'
    by_cases hij : i = j
    · subst hij
      rw [hf] at hg
      cases hg
      exact ⟨_, l', OrdMap.get?_insert_self _ _ _, hl',
        .quiet rfl (fun _ => List.mem_append_left _ hin) rfl rfl hcarries⟩
    · exact ⟨f, l', (OrdMap.get?_insert_ne _ _ hij).trans hf, hl',
        .quiet rfl (fun _ => hin) rfl rfl hcarries⟩
  | detach j other =>
    by_cases hij : i = j
    · subst hij
      refine ⟨f.detach other, l, by rw [Hub.step, OrdMap.get?_modify_self, hf]; rfl, hl, ?_⟩
      rw [Hub.Ok.detach_eq]
      refine .quiet rfl (fun hopen => List.mem_filter.mpr ⟨hin, ?_⟩) rfl rfl (.refl _ _ _)
      by_contra hne
      obtain rfl : id = other := by simpa using hne
      rw [hlaw l hl] at hopen
      cases hopen
    · exact ⟨f, l, (OrdMap.get?_modify_ne _ _ hij).trans hf, hl, .refl hin⟩
  | receive j item => exact ok.receive_account hlive hnot hf hl hin
  | deliver j => exact ok.deliver_account hf hl hin hevents
  | resync j =>
    have hij : i ≠ j := fun heq => hnot heq.symm
    simp only [Hub.step, Hub.resync]
    split
    · exact ⟨f, l, hf, hl, .refl hin⟩
    rename_i g hg
    split
    · exact ⟨f, l, hf, hl, .refl hin⟩
    obtain ⟨l', hl', hcarries⟩ := publishState_carries session
      { g with feed := { g.feed with current := {} } } f.key
      (fun hin' hk => absurd (ok.once i j f g id hf hg hin hin' hk.symm) hij) hl
    exact ⟨f, l', (OrdMap.get?_insert_ne _ _ hij).trans hf, hl',
      .quiet rfl (fun _ => hin) rfl rfl hcarries⟩
  | finishFeed j terminal =>
    by_cases hij : i = j
    · subst hij
      exact ⟨f.finish terminal, l, by rw [Hub.step, OrdMap.get?_modify_self, hf]; rfl, hl,
        .quiet rfl (fun _ => hin) rfl rfl (.refl _ _ _)⟩
    · exact ⟨f, l, (OrdMap.get?_modify_ne _ _ hij).trans hf, hl, .refl hin⟩
  | finish other terminal =>
    by_cases hid : id = other
    · subst hid
      exact ⟨f, l.finish terminal, hf, by rw [Hub.step, OrdMap.get?_modify_self, hl]; rfl,
        .quiet rfl (fun _ => hin) rfl rfl (Listener.finish_carries _ _ _ _)⟩
    · exact ⟨f, l, hf, (OrdMap.get?_modify_ne _ _ hid).trans hl, .refl hin⟩
  | next other =>
    by_cases hid : id = other
    · subst hid
      exact ⟨f, l.next, hf, by rw [Hub.step, OrdMap.get?_modify_self, hl]; rfl,
        .quiet rfl (fun _ => hin) rfl rfl (Listener.next_carries _ _ _)⟩
    · exact ⟨f, l, hf, (OrdMap.get?_modify_ne _ _ hid).trans hl, .refl hin⟩

/-- A listener stays, and what has closed or lagged does not come back. -/
theorem Hub.step_listener [PostcardEvent] (budget : Nat) (m : Move)
    (hl : h.listeners.get? id = some l) : ∃ l', (h.step budget m).listeners.get? id = some l' ∧
      (l'.closed = false → l.closed = false) ∧ (l'.lagging = false → l.lagging = false) := by
  have hsame : ∃ l', h.listeners.get? id = some l' ∧
      (l'.closed = false → l.closed = false) ∧ (l'.lagging = false → l.lagging = false) :=
    ⟨l, hl, fun hc => hc, fun hc => hc⟩
  have hmodify : ∀ (other : Nat) (g : Listener → Listener),
      ((g l).closed = false → l.closed = false) ∧ ((g l).lagging = false → l.lagging = false) →
      ∃ l', (h.listeners.modify other g).get? id = some l' ∧
        (l'.closed = false → l.closed = false) ∧ (l'.lagging = false → l.lagging = false) := by
    intro other g hg
    by_cases hid : id = other
    · subst hid
      exact ⟨g l, by rw [OrdMap.get?_modify_self, hl]; rfl, hg⟩
    · rw [OrdMap.get?_modify_ne _ _ hid]
      exact hsame
  have hstate : ∀ topic st, ((l.state topic st).closed = false → l.closed = false) ∧
      ((l.state topic st).lagging = false → l.lagging = false) := by
    intro topic st
    refine ⟨fun hc => by simpa using hc, fun hc => ?_⟩
    unfold Listener.state at hc
    split at hc <;> exact hc
  have hpublish : ∀ p : SharedFeed, ∃ l', (publishState p h.listeners).get? id = some l' ∧
      (l'.closed = false → l.closed = false) ∧ (l'.lagging = false → l.lagging = false) := by
    intro p
    refine ⟨_, (Hub.Ok.publishState_get? p h.listeners id).trans (by rw [hl]; rfl), ?_⟩
    split
    · exact hstate _ _
    · exact ⟨fun hc => hc, fun hc => hc⟩
  cases m with
  | listen other receiveEvents =>
    simp only [Hub.step]
    split
    · exact hsame
    · rename_i hnew
      rw [OrdMap.get?_insert_ne _ _ fun heq : id = other => hnew (OrdMap.contains_iff.mpr ⟨l, heq ▸ hl⟩)]
      exact hsame
  | start j sessions key =>
    simp only [Hub.step]
    split <;> exact hsame
  | attach j other =>
    simp only [Hub.step, Hub.attach]
    split
    · exact hsame
    split
    · exact hsame
    · split
      · exact hmodify _ _ (hstate _ _)
      · exact hsame
  | detach j other => exact hsame
  | receive j item =>
    rcases Hub.Ok.receive_cases j item h with heq | ⟨g, validation, state, -, -, -, -, hcase⟩
    · rw [Hub.step, heq]
      exact hsame
    · rw [Hub.step]
      rcases hcase with ⟨cursor, -, heq⟩ | ⟨cursor, event, -, heq⟩ | ⟨-, heq⟩ <;> rw [heq]
      · exact hsame
      · exact hsame
      · exact hpublish _
  | deliver j =>
    simp only [Hub.step, Hub.deliver]
    split
    · exact hsame
    split
    · exact hsame
    · exact hsame
    · rename_i event target rest hd
      obtain ⟨-, hclosed, -, hlagging⟩ := Listener.event_frame budget event l
      exact hmodify _ _ ⟨fun hc => hclosed ▸ hc, hlagging⟩
  | resync j =>
    simp only [Hub.step, Hub.resync]
    split
    · exact hsame
    split
    · exact hsame
    · exact hpublish _
  | finishFeed j terminal => exact hsame
  | finish other terminal =>
    obtain ⟨hclosed, -, hlagging⟩ := Listener.finish_frame terminal l
    exact hmodify _ _ ⟨fun hc => (by rw [hclosed] at hc; cases hc), fun hc => hlagging ▸ hc⟩
  | next other =>
    have hcarries := Listener.next_carries ⟨"", ""⟩ ⟨"", "", 0⟩ l
    exact hmodify _ _ ⟨hcarries.closed, hcarries.lagging⟩

theorem Hub.run_listener [PostcardEvent] (budget : Nat) (moves : List Move)
    (hl : h.listeners.get? id = some l) : ∃ l', (h.run budget moves).listeners.get? id = some l' ∧
      (l'.closed = false → l.closed = false) ∧ (l'.lagging = false → l.lagging = false) := by
  induction moves generalizing h l with
  | nil => exact ⟨l, hl, fun hc => hc, fun hc => hc⟩
  | cons m moves ih =>
    obtain ⟨l₁, hl₁, hclosed, hlagging⟩ := h.step_listener budget m hl
    obtain ⟨l', hl', hclosed', hlagging'⟩ := ih hl₁
    exact ⟨l', hl', fun hc => hclosed (hclosed' hc), fun hc => hlagging (hlagging' hc)⟩

/-- The moves that the callers and the task may make. -/
def Move.Allowed (h : Hub) (m : Move) : Prop := m.Lawful h ∧ m.Live h

/-- Over a run without an end the account grows by what the feed accepts. -/
theorem Hub.Ok.account_run [PostcardEvent] {budget : Nat} {moves : List Move} (ok : h.Ok)
    (hg : Runs.Guarded (Hub.step budget) Move.Allowed h moves)
    (hnot : ∀ m ∈ moves, ¬ m.Ends i session) (hf : h.feeds.get? i = some f)
    (hl : h.listeners.get? id = some l) (hin : id ∈ f.listeners) (hevents : l.receiveEvents = true)
    {f' : SharedFeed} {l' : Listener} (hf' : (h.run budget moves).feeds.get? i = some f')
    (hl' : (h.run budget moves).listeners.get? id = some l') (hopen : l'.closed = false)
    (hroom : l'.lagging = false) : ∃ new, f'.announced = f.announced ++ new ∧
      account session f' id l' = account session f id l ++ new.filter (ofTopic session f.key) := by
  induction moves generalizing h f l with
  | nil =>
    rw [Hub.run, List.foldl_nil] at hf' hl'
    rw [hf] at hf'
    rw [hl] at hl'
    cases hf'
    cases hl'
    exact ⟨[], by simp, by simp⟩
  | cons m moves ih =>
    obtain ⟨⟨hlaw, hlive⟩, hrest⟩ := hg
    obtain ⟨f₁, l₁, hf₁, hl₁, hc⟩ :=
      ok.account_step hlaw hlive (hnot m (by simp)) hf hl hin hevents
    obtain ⟨l₂, hl₂, hclosed, hlagging⟩ := Hub.run_listener budget moves hl₁
    have hl' : ((h.step budget m).run budget moves).listeners.get? id = some l' := hl'
    rw [hl₂] at hl'
    cases hl'
    obtain ⟨hin₁, new, hann, hacc⟩ := hc.account (hclosed hopen) (hlagging hroom)
    obtain ⟨new', hann', hacc'⟩ := ih (ok.step hlaw hlive) hrest
      (fun m' hm' => hnot m' (List.mem_cons_of_mem _ hm')) hf₁ hl₁ hin₁ (hc.events ▸ hevents) hf' hl₂
    refine ⟨new ++ new', by rw [hann', hann, List.append_assoc], ?_⟩
    rw [hacc', hacc, hc.key, List.filter_append, List.append_assoc]

omit [Postcard] in
/-- Nothing of a feed's topic comes from before the attachment. -/
theorem Hub.Ok.attach_empty (ok : h.Ok) (hlaw : (Move.attach i id).Lawful h)
    (hf : (h.attach i id).feeds.get? i = some f) (hl : (h.attach i id).listeners.get? id = some l)
    (hin : id ∈ f.listeners) (hopen : l.closed = false) :
    (∀ entry ∈ l.events, entry.2.metadata.source.topic ≠ f.key) ∧ f.owed id = [] := by
  obtain ⟨-, hlaw⟩ := hlaw
  unfold Hub.attach at hf hl
  split at hf
  · rename_i hnone
    rw [hnone] at hf
    cases hf
  rename_i g hg
  rw [hg] at hl
  split at hf
  · rw [hg] at hf
    cases hf
    exact absurd hin (hlaw _ _ i hg hg rfl)
  rename_i hstop
  rw [OrdMap.get?_insert_self] at hf
  cases hf
  -- The queue has nothing more than before.
  obtain ⟨l₀, hl₀, hclosed, hsub⟩ : ∃ l₀, h.listeners.get? id = some l₀ ∧ l₀.closed = false ∧
      ∀ entry ∈ l.events, entry ∈ l₀.events := by
    simp only [if_neg hstop] at hl
    split at hl
    · rw [OrdMap.get?_modify_self] at hl
      obtain ⟨l₀, hl₀, rfl⟩ := Option.map_eq_some_iff.mp hl
      have hclosed : l₀.closed = false := by simpa using hopen
      refine ⟨l₀, hl₀, hclosed, fun entry he => ?_⟩
      simp only [Listener.state, hclosed, Bool.false_eq_true, if_false] at he
      exact List.mem_of_mem_filter he
    · exact ⟨l, hl, hopen, fun _ he => he⟩
  constructor
  · intro entry he hkey
    obtain ⟨state, hstate, -⟩ := (ok.listeners id l₀ hl₀).queued entry (hsub entry he)
    obtain ⟨j, g', hg', hk, hmem⟩ := ok.origin id l₀ _ state hl₀ hstate
    exact hlaw g g' j hg hg' (hk.trans hkey) hmem
  · change g.owed id = []
    unfold SharedFeed.owed
    cases hd : g.delivering with
    | none => rfl
    | some entry =>
      refine if_neg fun hmem => ?_
      exact hlaw g g i hg hg rfl (ok.bound i g id l₀ hg hl₀ entry.1 entry.2 hd hmem hclosed).1

end moves

/-! ## The law -/

/-- What holds of the listeners after a run in which no task changes the state of a finished feed: every
event was returned after a state that has its session and generation, and the queued bytes are those
of the queue. While a listener is attached to a feed, is open and has not lagged, and neither the
session nor its generation ends, what was returned, is queued and is on its way grows by the events
that the feed accepts; just after the attachment nothing is queued or on its way. -/
theorem listener_law [Postcard] [PostcardEvent] (budget : Nat) {moves : List Move}
    (hg : Runs.Guarded (Hub.step budget) Move.Allowed {} moves) :
    (∀ id l, (Hub.run budget {} moves).listeners.get? id = some l → Ordered l.returned ∧
      l.eventBytes = (l.events.map (·.1)).sum ∧
      (∀ topic state, l.removedBytes topic state ≤ l.eventBytes) ∧
      ∀ entry ∈ l.events, entry.1 ≤ l.eventBytes) ∧
    (∀ before after i id session f l f' l', moves = before ++ after →
      (∀ m ∈ after, ¬ m.Ends i session) →
      (Hub.run budget {} before).feeds.get? i = some f →
      (Hub.run budget {} before).listeners.get? id = some l → id ∈ f.listeners →
      l.receiveEvents = true →
      (Hub.run budget {} moves).feeds.get? i = some f' →
      (Hub.run budget {} moves).listeners.get? id = some l' →
      l'.closed = false → l'.lagging = false → ∃ new, f'.announced = f.announced ++ new ∧
        account session f' id l' = account session f id l ++ new.filter (ofTopic session f.key)) ∧
    ∀ before i id f l, moves = before ++ [.attach i id] →
      (Hub.run budget {} moves).feeds.get? i = some f →
      (Hub.run budget {} moves).listeners.get? id = some l → id ∈ f.listeners → l.closed = false →
      (∀ entry ∈ l.events, entry.2.metadata.source.topic ≠ f.key) ∧ f.owed id = [] := by
  have hrun : ∀ {moves'}, Runs.Guarded (Hub.step budget) Move.Allowed {} moves' →
      (Hub.run budget {} moves').Ok := fun hg' =>
    hg'.invariant (fun h m ok hm => ok.step hm.1 hm.2) Hub.ok_empty
  refine ⟨fun id l hl => ?_, ?_, ?_⟩
  · have ok := (hrun hg).listeners id l hl
    refine ⟨ok.ordered, ok.bytes, ok.removed_le, fun entry he => ?_⟩
    simpa using ok.sum_le (List.singleton_sublist.mpr he)
  · rintro before after i id session f l f' l' rfl hnot hf hl hin hevents hf' hl' hopen hroom
    obtain ⟨hb, ha⟩ := Runs.guarded_append.mp hg
    have happ : Hub.run budget {} (before ++ after) = (Hub.run budget {} before).run budget after :=
      List.foldl_append
    rw [happ] at hf' hl'
    exact (hrun hb).account_run ha hnot hf hl hin hevents hf' hl' hopen hroom
  · rintro before i id f l rfl hf hl hin hopen
    obtain ⟨hb, ⟨hlaw, -⟩, -⟩ := Runs.guarded_append.mp hg
    have ok := hrun hb
    have happ : Hub.run budget {} (before ++ [.attach i id]) =
        (Hub.run budget {} before).attach i id := List.foldl_append
    rw [happ] at hf hl
    exact ok.attach_empty hlaw hf hl hin hopen

namespace Watching

instance postcardEvent : PostcardEvent where
  event e := some (Encoding.metadata e.metadata + Encoding.str e.payload.text)

/-- `irpc::rpc::MAX_MESSAGE_SIZE`. -/
def budget : Nat := 1024 * 1024 * 16

def info : SessionInfo := ⟨⟨"run", "one"⟩, "fixture.provider", "fixture", ⟨1, "fixture.exe"⟩, none⟩

def source : TopicSource := ⟨info.session, "fixture", TestSupport.topic⟩

def ready : TopicSnapshot := ⟨source, 1, .initializing, none⟩

/-- A listener on a feed that got its bootstrap, after its first state. -/
def attached : List Move :=
  [.listen 1 true, .start 1 .all TestSupport.topic, .attach 1 1, .receive 1 (.begin ⟨"run", 1⟩),
    .receive 1 (.session info), .receive 1 (.topic ready), .receive 1 (.ready ⟨"run", 1⟩), .next 1]

def event (n : Nat) : EventEnvelope := ⟨⟨source, 1, n⟩, ⟨"7"⟩⟩

/-- An event and `next`; then the client closes while the task folds one more event. -/
def heard : List Move :=
  [.receive 1 (.update ⟨⟨"run", 2⟩, .event (event 2)⟩), .deliver 1, .deliver 1, .next 1,
    .finishFeed 1 (.error .closed), .receive 1 (.update ⟨⟨"run", 3⟩, .event (event 3)⟩), .deliver 1,
    .next 1]

/-- The client closes while the task folds a state and an event. -/
def closing : List Move :=
  [.finishFeed 1 (.error .closed), .receive 1 (.update ⟨⟨"run", 2⟩, .topicChanged ready⟩),
    .receive 1 (.update ⟨⟨"run", 3⟩, .event (event 3)⟩), .deliver 1, .next 1, .next 1]

theorem attach_lawful : (Move.attach 1 1).Lawful
    (Hub.run budget {} [.listen 1 true, .start 1 .all TestSupport.topic]) := by
  refine ⟨by decide +kernel, fun f g other _ hg _ => ?_⟩
  have hg : OrdMap.get? ((∅ : OrdMap Nat SharedFeed).insert 1 (.new .all TestSupport.topic)) other =
      some g := hg
  rcases OrdMap.get?_insert_eq_some hg with ⟨-, rfl⟩ | ⟨-, hg⟩
  · exact List.not_mem_nil
  · simp at hg

theorem live_of {h : Hub} {i : Nat} {item : SubscriptionItem}
    (hlive : ((h.feeds.get? i).all fun f => f.terminal.isNone) = true) :
    (Move.receive i item).Live h := fun _ f hf => by
  rw [hf] at hlive
  simpa using hlive

theorem heard_allowed : Runs.Guarded (Hub.step budget) Move.Allowed {} (attached ++ heard) := by
  refine ⟨⟨trivial, trivial⟩, ⟨trivial, trivial⟩, ⟨attach_lawful, trivial⟩, ⟨trivial, live_of ?_⟩,
    ⟨trivial, live_of ?_⟩, ⟨trivial, live_of ?_⟩, ⟨trivial, live_of ?_⟩, ⟨trivial, trivial⟩,
    ⟨trivial, live_of ?_⟩, ⟨trivial, trivial⟩, ⟨trivial, trivial⟩, ⟨trivial, trivial⟩,
    ⟨trivial, trivial⟩, ⟨trivial, fun hpublishes => (by cases hpublishes)⟩, ⟨trivial, trivial⟩,
    ⟨trivial, trivial⟩, trivial⟩
  all_goals decide +kernel

/-- The listener of the run returned its state and the events. -/
theorem heard_returned : ((Hub.run budget {} (attached ++ heard)).listeners.get? 1).map
    (fun l => (l.returned, l.events)) =
      some ([.state ⟨[info], [ready]⟩, .event (event 2), .event (event 3)], []) := by
  decide +kernel

end Watching

open Watching in
/-- The run with two events, the last one after the end of its feed, obeys the law. -/
theorem listener_law_heard : ∃ l, (Hub.run budget {} (attached ++ heard)).listeners.get? 1 = some l ∧
    l.returned = [.state ⟨[info], [ready]⟩, .event (event 2), .event (event 3)] ∧
      Ordered l.returned ∧ l.eventBytes = 0 := by
  obtain ⟨l, hl, hv⟩ := Option.map_eq_some_iff.mp heard_returned
  obtain ⟨hreturned, hevents⟩ := Prod.mk.inj hv
  obtain ⟨hordered, hbytes, -⟩ := (listener_law budget heard_allowed).1 1 l hl
  exact ⟨l, hl, hreturned, hordered, by rw [hbytes, hevents]; rfl⟩

open Watching in
/-- Lawful callers are not enough: a feed that was finished has lost its sessions, and publishes the
topic of one more state without them. -/
theorem finished_feed_publishes : ¬ ∀ moves, Runs.Guarded (Hub.step budget) Move.Lawful {} moves →
    ∀ id l, (Hub.run budget {} moves).listeners.get? id = some l → Ordered l.returned := by
  intro hall
  have hview : ((Hub.run budget {} (attached ++ closing)).listeners.get? 1).map (·.returned) =
      some [.state ⟨[info], [ready]⟩, .state ⟨[], [ready]⟩, .event (event 3)] := by decide +kernel
  obtain ⟨l, hl, hreturned⟩ := Option.map_eq_some_iff.mp hview
  have hg : Runs.Guarded (Hub.step budget) Move.Lawful {} (attached ++ closing) :=
    ⟨trivial, trivial, attach_lawful, trivial, trivial, trivial, trivial, trivial, trivial, trivial,
      trivial, trivial, trivial, trivial, trivial⟩
  have hordered := hall _ hg 1 l hl
  rw [hreturned] at hordered
  obtain ⟨state, hstate, ⟨i, hi, -⟩, -⟩ := hordered
    [.state ⟨[info], [ready]⟩, .state ⟨[], [ready]⟩] (event 3) [] rfl
  cases hstate
  cases hi

end Sdk
end WfObserver
