import WfObserver.Sdk.Hub

/-!
# What a listener observes

The invariant of a hub (`Hub.Ok`) says that a listener's state of a topic is the one of the feed it
is attached to, and that it has every event that the feed still brings. So `next` returns an event
after a state that has its session and its generation (`listener_law`), and between two ends of a
generation the events returned, queued and on their way are those that the feed accepted
(`Hub.Ok.account_step`).

A feed that was finished has lost its state, but its task may still fold an item into it. An event does
no harm, as the listeners still have the state (`SharedFeed.Shows`); an item that publishes is the one
way to an event without its session (`finished_feed_publishes`).
-/

namespace WfObserver
namespace Sdk

open Wire

/-! ## One feed -/

/-- A whole state: the topics are those of the checker, with their sessions. -/
theorem Joint.whole {sel : SessionSelector} {key : TopicRef} {v : Validation} {f : Feed}
    (h : Joint sel key v f) : f.current.Whole key where
  session r entry he := by
    obtain ⟨s, -, hinfo, hsession⟩ := h.session r entry.1 entry.2 he
    exact hsession
  topic r t ht := by
    obtain ⟨s, hs, hstored⟩ := h.topic r t ht
    obtain ⟨n, hn⟩ := h.seen _ s hs
    rw [hstored.session] at hn
    exact ⟨by rw [hstored.source], by rw [hstored.source], _, hn⟩

/-- A checker accepts an event only when it is ready. -/
theorem event_ready {v v' : Validation} {cursor : ServiceCursor} {event : EventEnvelope}
    (ha : v.take (.update ⟨cursor, .event event⟩) = .ok v') : v.ready = true := by
  obtain ⟨hc, -⟩ := Validation.check_bind.mp ha
  simp only [Bool.and_eq_true] at hc
  exact hc.1.1

/-- An accepted event is of a topic that the feed has. -/
theorem Joint.has_event {sel : SessionSelector} {key : TopicRef} {v v' : Validation} {f : Feed}
    (h : Joint sel key v f) {cursor : ServiceCursor} {event : EventEnvelope}
    (ha : v.take (.update ⟨cursor, .event event⟩) = .ok v') :
    event.metadata.source.topic = key ∧ f.current.Has event := by
  obtain ⟨-, ha⟩ := Validation.check_bind.mp ha
  simp only [Validation.update] at ha
  cases hs : Validation.source event.metadata.source { v with sequence := cursor.sequence } with
  | error e =>
    rw [hs] at ha
    cases ha
  | ok s =>
    rw [hs] at ha
    obtain ⟨hgen, -⟩ := Validation.check_bind.mp ha
    obtain ⟨hknown, hsession, -, -, hmem⟩ := source_ok hs
    have hkey : event.metadata.source.topic = key := by simpa [h.topics] using hmem
    have hgen : s.topics.get? key = some event.metadata.generation := by
      have := (Bool.and_eq_true_iff.mp hgen).1
      rw [hkey] at this
      simpa using this
    obtain ⟨t, ht⟩ := h.stored _ s _ hknown hgen
    obtain ⟨n, hn⟩ := h.seen _ s hknown
    rw [hsession] at ht hn
    obtain ⟨s', hs', hstored⟩ := h.topic _ t ht
    rw [show v.sessions.get? event.metadata.source.session.sessionId = some s from hknown] at hs'
    cases hs'
    have heq : t.generation = event.metadata.generation :=
      Option.some.inj (hstored.known.symm.trans hgen)
    exact ⟨hkey, _, t, hn, ht, by rw [hstored.source], by rw [hstored.source, hkey], heq⟩

/-- The item ends what the feed has of the session's topic. -/
def Ends (session : SessionRef) : SubscriptionItem → Prop
  | .update ⟨_, .sessionEnded ended _⟩ => ended = session
  | .update ⟨_, .topicReset source _ _⟩ => source.session = session
  | _ => False

theorem ends_of_resets {session : SessionRef} {generation : Nat} {item : SubscriptionItem}
    (h : resets session generation item = true) : Ends session item := by
  unfold resets at h
  split at h
  · exact beq_iff_eq.mp (Bool.and_eq_true_iff.mp h).1
  · cases h

/-- A topic goes only with its session. -/
theorem Feed.receive_topic {f f' : Feed} {item : SubscriptionItem} (hf : f.receive item = .ok f')
    {r : SessionRef} (hnot : ¬ Ends r item) {t : TopicSnapshot}
    (ht : f.current.topics.get? r = some t) : ∃ t', f'.current.topics.get? r = some t' := by
  have hput : ∀ new : TopicSnapshot, ∃ t', (f.current.putTopic new).topics.get? r = some t' := by
    intro new
    simp only [FeedState.putTopic, OrdMap.get?_insert]
    split
    · exact ⟨new, rfl⟩
    · exact ⟨t, ht⟩
  cases item with
  | begin | ready | session => cases hf; exact ⟨t, ht⟩
  | snapshot | closed => cases hf
  | topic new => cases hf; exact hput new
  | update envelope =>
    obtain ⟨cursor, u⟩ := envelope
    cases hf
    cases u with
    | sessionStarted | sessionChanged | event => exact ⟨t, ht⟩
    | sessionEnded session reason =>
      exact ⟨t, (OrdMap.get?_erase_ne _ fun hr => hnot hr.symm).trans ht⟩
    | topicReset | topicChanged => exact hput _

theorem Feed.receive_ready {f f' : Feed} {item : SubscriptionItem} (hf : f.receive item = .ok f')
    (hr : f.ready = true) : f'.ready = true := by
  cases item with
  | begin | session | topic => cases hf; exact hr
  | ready => cases hf; rfl
  | snapshot | closed => cases hf
  | update envelope =>
    obtain ⟨cursor, u⟩ := envelope
    cases hf
    cases u <;> exact hr

/-- An item that is no end leaves the generation of the topic. -/
theorem Joint.keeps_event {sel : SessionSelector} {key : TopicRef} {v v' : Validation} {f f' : Feed}
    (h : Joint sel key v f) {item : SubscriptionItem} (ha : v.take item = .ok v')
    (hf : f.receive item = .ok f') {event : EventEnvelope}
    (hnot : ¬ Ends event.metadata.source.session item) (hk : f.current.keeps event = true) :
    f'.current.keeps event = true := by
  obtain ⟨t, ht, hgen⟩ := (Option.any_eq_true _ _).mp hk
  have hgen := beq_iff_eq.mp hgen
  obtain ⟨t', ht'⟩ := Feed.receive_topic hf hnot ht
  rcases take_topic h ht ha hf with hgone | ⟨t'', ht'', -, hreset⟩
  · rw [hgone.topic (h.take ha hf)] at ht'
    cases ht'
  · refine (Option.any_eq_true _ _).mpr ⟨t'', ht'', beq_iff_eq.mpr ?_⟩
    by_contra hne
    exact hnot (ends_of_resets (hreset fun heq => hne (heq ▸ hgen)))

/-- The feed is ready when the checker is. -/
theorem take_ready {v v' : Validation} {f f' : Feed} {item : SubscriptionItem}
    (ha : v.take item = .ok v') (hf : f.receive item = .ok f') (h : f.ready = v.ready) :
    f'.ready = v'.ready := by
  cases item with
  | begin cursor =>
    obtain ⟨-, ha⟩ := Validation.check_bind.mp ha
    cases ha
    cases hf
    exact h
  | session info =>
    obtain ⟨-, -, rfl⟩ := addSession_ok (Validation.check_bind.mp ha).2
    cases hf
    exact h
  | topic t =>
    obtain ⟨s, -, -, rfl, -⟩ := topic_ok (Validation.check_bind.mp ha).2
    cases hf
    exact h
  | snapshot frame => cases ha
  | ready cursor =>
    obtain ⟨-, ha⟩ := Validation.check_bind.mp ha
    obtain ⟨-, ha⟩ := Validation.check_bind.mp ha
    cases ha
    cases hf
    rfl
  | update envelope =>
    obtain ⟨-, ha⟩ := Validation.check_bind.mp ha
    obtain ⟨cursor, u⟩ := envelope
    cases hf
    cases u with
    | sessionStarted info =>
      obtain ⟨-, -, rfl⟩ := addSession_ok ha
      exact h
    | sessionChanged info =>
      obtain ⟨s, -, -, -, -, rfl⟩ := sessionChanged_ok ha
      exact h
    | sessionEnded session reason =>
      obtain ⟨s, -, -, rfl⟩ := sessionEnded_ok ha
      exact h
    | topicReset source generation reason =>
      obtain ⟨s, old, -, -, -, rfl⟩ := reset_ok ha
      exact h
    | topicChanged t =>
      obtain ⟨s, -, -, rfl, -⟩ := topic_ok ha
      exact h
    | event event =>
      rw [event_ok ha]
      exact h
  | closed reason => cases hf

/-! ## The invariant of a hub -/

/-- The invariant of one feed. A feed that has stopped was finished, or has no listener. -/
structure SharedFeed.Ok (f : SharedFeed) : Prop where
  joint : ∃ sel, f.selection = ⟨sel, [f.key]⟩ ∧
    (f.stopped = false → Joint sel f.key f.validation f.feed)
  ready : f.feed.ready = f.validation.ready
  idle : f.stopped = true → f.terminal = none → f.listeners = []
  nodup : f.listeners.Nodup
  bringing : ∀ e rest, f.delivering = some (e, rest) → rest.Nodup

/-- What the listeners of the feed have: its state, or the one that it lost when it was finished. -/
def SharedFeed.Shows (f : SharedFeed) (state : FeedState) : Prop :=
  (f.stopped = false → state = f.feed.current) ∧
    ∃ sel, Joint sel f.key f.validation { f.feed with current := state }

/-- The listener has the state that the feed shows, once the feed is ready. -/
def Told (f : SharedFeed) (l : Listener) : Prop :=
  if f.feed.ready then ∃ state, l.states.get? f.key = some state ∧ f.Shows state
  else ∀ state, l.states.get? f.key = some state → state.topics = ∅

theorem Told.imp {f f' : SharedFeed} {l : Listener} (htold : Told f l) (hkey : f'.key = f.key)
    (hready : f'.feed.ready = f.feed.ready) (hshows : ∀ state, f.Shows state → f'.Shows state) :
    Told f' l := by
  unfold Told at htold ⊢
  rw [hkey, hready]
  split at htold
  · rename_i hf
    obtain ⟨state, hget, hs⟩ := htold
    rw [if_pos hf]
    exact ⟨state, hget, hshows state hs⟩
  · rename_i hf
    rwa [if_neg hf]

/-- An open listener has the event that the feed still brings it. -/
def Bound (f : SharedFeed) (id : Nat) (l : Listener) : Prop :=
  ∀ e rest, f.delivering = some (e, rest) → id ∈ rest → l.closed = false →
    id ∈ f.listeners ∧ e.metadata.source.topic = f.key ∧ l.Holding e

/-- The feed has the listener, or an event for it. -/
def SharedFeed.Reaches (f : SharedFeed) (id : Nat) : Prop :=
  id ∈ f.listeners ∨ ∃ e rest, f.delivering = some (e, rest) ∧ id ∈ rest

structure Hub.Ok (h : Hub) : Prop where
  feeds : ∀ i f, h.feeds.get? i = some f → f.Ok
  listeners : ∀ id l, h.listeners.get? id = some l → l.Ok
  /-- The feeds of a listener are of different topics. -/
  once : ∀ i j f g id, h.feeds.get? i = some f → h.feeds.get? j = some g → id ∈ f.listeners →
    id ∈ g.listeners → f.key = g.key → i = j
  told : ∀ i f id l, h.feeds.get? i = some f → h.listeners.get? id = some l → id ∈ f.listeners →
    l.closed = false → Told f l
  bound : ∀ i f id l, h.feeds.get? i = some f → h.listeners.get? id = some l → Bound f id l
  /-- A state in the queue is the one of a feed. -/
  origin : ∀ id l key state, h.listeners.get? id = some l → l.states.get? key = some state →
    ∃ i f, h.feeds.get? i = some f ∧ f.key = key ∧ id ∈ f.listeners
  known : ∀ i f id, h.feeds.get? i = some f → f.Reaches id → h.listeners.contains id = true

namespace Hub

theorem ok_empty : Ok {} where
  feeds i f h := by simp at h
  listeners id l h := by simp at h
  once i j f g id h := by simp at h
  told i f id l h := by simp at h
  bound i f id l h := by simp at h
  origin id l key state h := by simp at h
  known i f id h := by simp at h

namespace Ok

variable {h : Hub}

/-- A listener takes an item, gets an event or ends: its states stay while it is open. -/
theorem modifyListener (ok : Ok h) {id : Nat} {g : Listener → Listener}
    (hg : ∀ l, h.listeners.get? id = some l →
      (g l).Ok ∧ ((g l).closed = false → l.closed = false ∧ (g l).states = l.states)) :
    Ok { h with listeners := h.listeners.modify id g } := by
  have hget : ∀ id' l', (h.listeners.modify id g).get? id' = some l' →
      ∃ l, h.listeners.get? id' = some l ∧ l'.Ok ∧
        (l'.closed = false → l.closed = false ∧ l'.states = l.states) := by
    intro id' l' hl'
    rw [OrdMap.get?_modify] at hl'
    split at hl'
    · rename_i heq
      subst heq
      obtain ⟨l, hl, rfl⟩ := Option.map_eq_some_iff.mp hl'
      exact ⟨l, hl, hg l hl⟩
    · exact ⟨l', hl', ok.listeners id' l' hl', fun hopen => ⟨hopen, rfl⟩⟩
  refine ⟨ok.feeds, fun id' l' hl' => ?_, ok.once, fun i f id' l' hf hl' hin hopen => ?_,
    fun i f id' l' hf hl' e rest he hin hopen => ?_, fun id' l' key state hl' hs => ?_,
    fun i f id' hf hin => ?_⟩
  · obtain ⟨l, -, hok, -⟩ := hget id' l' hl'
    exact hok
  · obtain ⟨l, hl, -, hkeep⟩ := hget id' l' hl'
    obtain ⟨hwas, hstates⟩ := hkeep hopen
    have := ok.told i f id' l hf hl hin hwas
    rwa [Told, hstates]
  · obtain ⟨l, hl, -, hkeep⟩ := hget id' l' hl'
    obtain ⟨hwas, hstates⟩ := hkeep hopen
    obtain ⟨hmem, hkey, state, hstate⟩ := ok.bound i f id' l hf hl e rest he hin hwas
    exact ⟨hmem, hkey, state, by rwa [hstates]⟩
  · obtain ⟨l, hl, hok, hkeep⟩ := hget id' l' hl'
    have hopen : l'.closed = false := by
      by_contra hc
      rw [(hok.ended (by simpa using hc)).1] at hs
      simp at hs
    rw [(hkeep hopen).2] at hs
    exact ok.origin id' l key state hl hs
  · rw [OrdMap.contains_modify]
    exact ok.known i f id' hf hin

/-- A feed goes on: it may lose listeners that are closed, and stop. -/
theorem replaceFeed (ok : Ok h) {i : Nat} {f : SharedFeed} (hf : h.feeds.get? i = some f)
    (f' : SharedFeed) (hok : f'.Ok) (hkey : f'.key = f.key) (hless : ∀ id ∈ f'.listeners, id ∈ f.listeners)
    (hreach : ∀ id, f'.Reaches id → f.Reaches id)
    (hleft : ∀ id ∈ f.listeners, id ∉ f'.listeners →
      ∀ l, h.listeners.get? id = some l → l.closed = true)
    (htold : f'.listeners ≠ [] → ∀ l, Told f l → Told f' l)
    (hbound : ∀ id l, h.listeners.get? id = some l → Bound f' id l) :
    Ok { h with feeds := h.feeds.insert i f' } := by
  have hold : ∀ j g, (h.feeds.insert i f').get? j = some g →
      ∃ g₀, h.feeds.get? j = some g₀ ∧ g.key = g₀.key ∧ ∀ id ∈ g.listeners, id ∈ g₀.listeners := by
    intro j g hg
    rcases OrdMap.get?_insert_eq_some hg with ⟨rfl, rfl⟩ | ⟨-, hg⟩
    · exact ⟨f, hf, hkey, hless⟩
    · exact ⟨g, hg, rfl, fun _ hin => hin⟩
  refine ⟨fun j g hg => ?_, ok.listeners, fun j k g g' id hg hg' hin hin' hk => ?_,
    fun j g id l hg hl hin hopen => ?_, fun j g id l hg hl => ?_,
    fun id l key state hl hs => ?_, fun j g id hg hin => ?_⟩
  · rcases OrdMap.get?_insert_eq_some hg with ⟨rfl, rfl⟩ | ⟨-, hg⟩
    · exact hok
    · exact ok.feeds j g hg
  · obtain ⟨g₀, hg₀, hkey₀, hsub⟩ := hold j g hg
    obtain ⟨g₁, hg₁, hkey₁, hsub'⟩ := hold k g' hg'
    exact ok.once j k g₀ g₁ id hg₀ hg₁ (hsub id hin) (hsub' id hin')
      (hkey₀.symm.trans (hk.trans hkey₁))
  · rcases OrdMap.get?_insert_eq_some hg with ⟨rfl, rfl⟩ | ⟨-, hg⟩
    · exact htold (List.ne_nil_of_mem hin) l (ok.told j f id l hf hl (hless id hin) hopen)
    · exact ok.told j g id l hg hl hin hopen
  · rcases OrdMap.get?_insert_eq_some hg with ⟨rfl, rfl⟩ | ⟨-, hg⟩
    · exact hbound id l hl
    · exact ok.bound j g id l hg hl
  · obtain ⟨j, g, hg, hk, hin⟩ := ok.origin id l key state hl hs
    by_cases hj : j = i
    · subst hj
      rw [hf] at hg
      cases hg
      refine ⟨j, f', OrdMap.get?_insert_self _ _ _, hkey.trans hk, ?_⟩
      by_contra hgone
      rw [((ok.listeners id l hl).ended (hleft id hin hgone l hl)).1] at hs
      simp at hs
    · exact ⟨j, g, (OrdMap.get?_insert_ne _ _ hj).trans hg, hk, hin⟩
  · rcases OrdMap.get?_insert_eq_some hg with ⟨rfl, rfl⟩ | ⟨-, hg⟩
    · exact ok.known j f id hf (hreach id hin)
    · exact ok.known j g id hg hin

/-- A feed tells its listeners, old and new ones: their states of its topic change and no others. -/
theorem tell (ok : Ok h) {i : Nat} {f : SharedFeed} (hf : h.feeds.get? i = some f)
    (f' : SharedFeed) (hok : f'.Ok) (hkey : f'.key = f.key) (hall : ∀ id ∈ f.listeners, id ∈ f'.listeners)
    (hmore : ∀ id ∈ f'.listeners, id ∈ f.listeners ∨ h.listeners.contains id = true ∧
      ∀ j g, h.feeds.get? j = some g → g.key = f.key → id ∉ g.listeners)
    (hrest : f'.delivering = f.delivering ∨ f'.delivering = none)
    {ls : OrdMap Nat Listener} (hcontains : ∀ id, ls.contains id = h.listeners.contains id)
    (hls : ∀ id l', ls.get? id = some l' → ∃ l, h.listeners.get? id = some l ∧ l'.Ok ∧
      l'.closed = l.closed ∧ (l' = l ∨ id ∈ f'.listeners ∧
        ∀ key, key ≠ f.key → l'.states.get? key = l.states.get? key))
    (htold : ∀ id l', ls.get? id = some l' → id ∈ f'.listeners → l'.closed = false → Told f' l')
    (hbound : ∀ id l', ls.get? id = some l' → Bound f' id l') :
    Ok { feeds := h.feeds.insert i f', listeners := ls } := by
  -- No other feed of this topic has one of these listeners.
  have hother : ∀ j g id, j ≠ i → h.feeds.get? j = some g → id ∈ f'.listeners → id ∈ g.listeners →
      g.key ≠ f.key := by
    intro j g id hj hg hin hin' hk
    rcases hmore id hin with hold | ⟨-, hnew⟩
    · exact hj (ok.once j i g f id hg hf hin' hold hk)
    · exact hnew j g hg hk hin'
  refine ⟨fun j g hg => ?_, fun id l' hl' => ?_, fun j k g g' id hg hg' hin hin' hk => ?_,
    fun j g id l' hg hl' hin hopen => ?_, fun j g id l' hg hl' => ?_,
    fun id l' key state hl' hs => ?_, fun j g id hg hin => ?_⟩
  · rcases OrdMap.get?_insert_eq_some hg with ⟨rfl, rfl⟩ | ⟨-, hg⟩
    · exact hok
    · exact ok.feeds j g hg
  · obtain ⟨l, -, hok', -⟩ := hls id l' hl'
    exact hok'
  · rcases OrdMap.get?_insert_eq_some hg with ⟨hj, hg₀⟩ | ⟨hj, hg₀⟩ <;> rcases OrdMap.get?_insert_eq_some hg' with ⟨hk', hg₁⟩ | ⟨hk', hg₁⟩
    · rw [hj, hk']
    · subst hg₀
      exact absurd (hk.symm.trans hkey) (hother k g' id hk' hg₁ hin hin')
    · subst hg₁
      exact absurd (hk.trans hkey) (hother j g id hj hg₀ hin' hin)
    · exact ok.once j k g g' id hg₀ hg₁ hin hin' hk
  · rcases OrdMap.get?_insert_eq_some hg with ⟨rfl, rfl⟩ | ⟨hj, hg⟩
    · exact htold id l' hl' hin hopen
    · obtain ⟨l, hl, -, hclosed, hsame | ⟨hin', hsame⟩⟩ := hls id l' hl'
      · rw [hsame] at hopen ⊢
        exact ok.told j g id l hg hl hin hopen
      · have := ok.told j g id l hg hl hin (hclosed ▸ hopen)
        rwa [Told, hsame _ (hother j g id hj hg hin' hin)]
  · rcases OrdMap.get?_insert_eq_some hg with ⟨rfl, rfl⟩ | ⟨hj, hg⟩
    · exact hbound id l' hl'
    · intro e rest he hin hopen
      obtain ⟨l, hl, -, hclosed, hsame⟩ := hls id l' hl'
      obtain ⟨hmem, htopic, state, hstate, hhas⟩ :=
        ok.bound j g id l hg hl e rest he hin (hclosed ▸ hopen)
      refine ⟨hmem, htopic, state, ?_, hhas⟩
      rcases hsame with rfl | ⟨hin', hsame⟩
      · exact hstate
      · rw [hsame _ (htopic ▸ hother j g id hj hg hin' hmem)]
        exact hstate
  · obtain ⟨l, hl, -, -, hsame⟩ := hls id l' hl'
    have hnew : ∀ j g, h.feeds.get? j = some g → g.key = key → id ∈ g.listeners →
        ∃ j g, (h.feeds.insert i f').get? j = some g ∧ g.key = key ∧ id ∈ g.listeners := by
      intro j g hg hk hin
      by_cases hj : j = i
      · subst hj
        rw [hf] at hg
        cases hg
        exact ⟨j, f', OrdMap.get?_insert_self _ _ _, hkey.trans hk, hall id hin⟩
      · exact ⟨j, g, (OrdMap.get?_insert_ne _ _ hj).trans hg, hk, hin⟩
    by_cases hk : key = f.key
    · rcases hsame with rfl | ⟨hin, -⟩
      · obtain ⟨j, g, hg, hk, hin⟩ := ok.origin id _ key state hl hs
        exact hnew j g hg hk hin
      · exact ⟨i, f', OrdMap.get?_insert_self _ _ _, hkey.trans hk.symm, hin⟩
    · have hs : l.states.get? key = some state := by
        rcases hsame with rfl | ⟨-, hsame⟩
        · exact hs
        · exact (hsame key hk).symm.trans hs
      obtain ⟨j, g, hg, hk, hin⟩ := ok.origin id l key state hl hs
      exact hnew j g hg hk hin
  · rw [hcontains]
    rcases OrdMap.get?_insert_eq_some hg with ⟨rfl, rfl⟩ | ⟨-, hg⟩
    · rcases hin with hin | ⟨e, rest, he, hin⟩
      · rcases hmore id hin with hold | ⟨hc, -⟩
        · exact ok.known j f id hf (.inl hold)
        · exact hc
      · rcases hrest with hsame | hnone
        · exact ok.known j f id hf (.inr ⟨e, rest, hsame ▸ he, hin⟩)
        · rw [hnone] at he
          cases he
    · exact ok.known j g id hg hin

theorem listen (ok : Ok h) {id : Nat} (hnew : h.listeners.contains id = false)
    (receiveEvents : Bool) :
    Ok { h with listeners := h.listeners.insert id { receiveEvents } } := by
  have hfree : ∀ i f, h.feeds.get? i = some f → ¬ f.Reaches id := fun i f hf hin => by
    rw [ok.known i f id hf hin] at hnew
    cases hnew
  refine ⟨ok.feeds, fun id' l' hl' => ?_, ok.once, fun i f id' l' hf hl' hin hopen => ?_,
    fun i f id' l' hf hl' e rest he hin hopen => ?_, fun id' l' key state hl' hs => ?_,
    fun i f id' hf hin => ?_⟩
  · rcases OrdMap.get?_insert_eq_some hl' with ⟨-, rfl⟩ | ⟨-, hl⟩
    · exact .new _
    · exact ok.listeners id' l' hl
  · rcases OrdMap.get?_insert_eq_some hl' with ⟨rfl, -⟩ | ⟨-, hl⟩
    · exact absurd (.inl hin) (hfree i f hf)
    · exact ok.told i f id' l' hf hl hin hopen
  · rcases OrdMap.get?_insert_eq_some hl' with ⟨rfl, -⟩ | ⟨-, hl⟩
    · exact absurd (.inr ⟨e, rest, he, hin⟩) (hfree i f hf)
    · exact ok.bound i f id' l' hf hl e rest he hin hopen
  · rcases OrdMap.get?_insert_eq_some hl' with ⟨-, rfl⟩ | ⟨-, hl⟩
    · simp at hs
    · exact ok.origin id' l' key state hl hs
  · obtain ⟨l, hl⟩ := OrdMap.contains_iff.mp (ok.known i f id' hf hin)
    refine OrdMap.contains_iff.mpr ⟨l, (OrdMap.get?_insert_ne _ _ fun heq => ?_).trans hl⟩
    exact hfree i f hf (heq ▸ hin)

theorem start (ok : Ok h) {i : Nat} (hnew : h.feeds.contains i = false) (sessions : SessionSelector)
    (key : TopicRef) : Ok { h with feeds := h.feeds.insert i (.new sessions key) } := by
  have hidle : ¬ (SharedFeed.new sessions key).stopped = true := by simp [SharedFeed.new]
  refine ⟨fun j g hg => ?_, ok.listeners, fun j k g g' id hg hg' hin hin' hk => ?_,
    fun j g id l hg hl hin hopen => ?_, fun j g id l hg hl => ?_,
    fun id l key' state hl hs => ?_, fun j g id hg hin => ?_⟩
  · rcases OrdMap.get?_insert_eq_some hg with ⟨-, rfl⟩ | ⟨-, hg⟩
    · exact ⟨⟨sessions, rfl, fun _ => .new sessions key⟩, rfl, fun hs => absurd hs hidle, .nil,
        fun e rest he => by cases he⟩
    · exact ok.feeds j g hg
  · rcases OrdMap.get?_insert_eq_some hg with ⟨-, rfl⟩ | ⟨-, hg⟩
    · cases hin
    rcases OrdMap.get?_insert_eq_some hg' with ⟨-, rfl⟩ | ⟨-, hg'⟩
    · cases hin'
    exact ok.once j k g g' id hg hg' hin hin' hk
  · rcases OrdMap.get?_insert_eq_some hg with ⟨-, rfl⟩ | ⟨-, hg⟩
    · cases hin
    · exact ok.told j g id l hg hl hin hopen
  · rcases OrdMap.get?_insert_eq_some hg with ⟨-, rfl⟩ | ⟨-, hg⟩
    · intro e rest he
      cases he
    · exact ok.bound j g id l hg hl
  · obtain ⟨j, g, hg, hk, hin⟩ := ok.origin id l key' state hl hs
    refine ⟨j, g, (OrdMap.get?_insert_ne _ _ fun hj => ?_).trans hg, hk, hin⟩
    rw [← hj, OrdMap.contains_iff.mpr ⟨g, hg⟩] at hnew
    cases hnew
  · rcases OrdMap.get?_insert_eq_some hg with ⟨-, rfl⟩ | ⟨-, hg⟩
    · rcases hin with hin | ⟨e, rest, he, -⟩
      · cases hin
      · cases he
    · exact ok.known j g id hg hin

theorem attach (ok : Ok h) {i id : Nat} (hlaw : (Move.attach i id).Lawful h) : Ok (h.attach i id) := by
  obtain ⟨hknown, hlaw⟩ := hlaw
  unfold Hub.attach
  split
  · exact ok
  rename_i f hf
  split
  · exact ok
  rename_i hstop
  have hstop : f.stopped = false := by simpa using hstop
  have hfok := ok.feeds i f hf
  obtain ⟨sel, hsel, hjoint⟩ := hfok.joint
  have hj := hjoint hstop
  have hnotin : id ∉ f.listeners := hlaw f f i hf hf rfl
  have hget : ∀ id' l', OrdMap.get? (if f.feed.ready = true then
        h.listeners.modify id (Listener.state f.key f.feed.current) else h.listeners) id' = some l' →
      ∃ l, h.listeners.get? id' = some l ∧
        l' = if f.feed.ready = true ∧ id' = id then l.state f.key f.feed.current else l := by
    intro id' l' hl'
    split at hl'
    · rename_i hready
      rw [OrdMap.get?_modify] at hl'
      split at hl'
      · obtain ⟨l, hl, rfl⟩ := Option.map_eq_some_iff.mp hl'
        exact ⟨l, hl, by rw [if_pos ⟨hready, ‹_›⟩]⟩
      · exact ⟨l', hl', by rw [if_neg fun hc => ‹¬ id' = id› hc.2]⟩
    · exact ⟨l', hl', by rw [if_neg fun hc => ‹¬ f.feed.ready = true› hc.1]⟩
  refine ok.tell hf { f with listeners := f.listeners ++ [id] }
    ⟨⟨sel, hsel, hjoint⟩, hfok.ready, fun hs => ?_, ?_, hfok.bringing⟩ rfl (fun id' hin => ?_)
    (fun id' hin => ?_) (.inl rfl) (fun id' => ?_) (fun id' l' hl' => ?_)
    (fun id' l' hl' hin hopen => ?_) (fun id' l' hl' e rest he hin hopen => ?_)
  · rw [show f.stopped = true from hs] at hstop
    cases hstop
  · refine List.nodup_append.mpr ⟨hfok.nodup, by simp, ?_⟩
    rintro a ha b hb rfl
    exact hnotin (List.mem_singleton.mp hb ▸ ha)
  · exact List.mem_append_left _ hin
  · rcases List.mem_append.mp hin with hin | hin
    · exact .inl hin
    · obtain rfl := List.mem_singleton.mp hin
      exact .inr ⟨hknown, fun j g hg hk => hlaw f g j hf hg hk⟩
  · split <;> simp
  · obtain ⟨l, hl, rfl⟩ := hget id' l' hl'
    refine ⟨l, hl, ?_⟩
    split
    · rename_i hc
      exact ⟨(ok.listeners id' l hl).state hj.whole, by simp, .inr ⟨by simp [hc.2], fun key hkey =>
        Listener.state_get?_ne _ _ hkey⟩⟩
    · exact ⟨ok.listeners id' l hl, rfl, .inl rfl⟩
  · obtain ⟨l, hl, rfl⟩ := hget id' l' hl'
    by_cases hid : id' = id
    · subst hid
      by_cases hready : f.feed.ready = true
      · simp only [hready, and_self, if_true, Listener.state_closed, Told] at hopen ⊢
        exact ⟨_, Listener.state_get?_self hopen _ _, fun _ => rfl, sel, hj⟩
      · -- A state of this topic would be the one of another feed.
        simp only [hready, Bool.false_eq_true, false_and, if_false, Told]
        intro state hs
        obtain ⟨j, g, hg, hk, hin⟩ := ok.origin id' l f.key state hl hs
        exact absurd hin (hlaw f g j hf hg hk)
    · rw [if_neg fun hc => hid hc.2] at hopen ⊢
      have hold : id' ∈ f.listeners := by simpa [hid] using hin
      exact ok.told i f id' l hf hl hold hopen
  · obtain ⟨l, hl, rfl⟩ := hget id' l' hl'
    have hopen : l.closed = false := by
      split at hopen
      · rwa [Listener.state_closed] at hopen
      · exact hopen
    obtain ⟨hmem, htopic, hhold⟩ := ok.bound i f id' l hf hl e rest he hin hopen
    have hid : id' ≠ id := fun heq => hnotin (heq ▸ hmem)
    refine ⟨List.mem_append_left _ hmem, htopic, ?_⟩
    rw [if_neg fun hc => hid hc.2]
    exact hhold

omit h in
theorem publishState_get? (f : SharedFeed) (ls : OrdMap Nat Listener) (id : Nat) :
    (publishState f ls).get? id = (ls.get? id).map fun l =>
      if f.feed.ready = true ∧ id ∈ f.listeners then l.state f.key f.feed.current else l := by
  unfold publishState
  split
  · rename_i hready
    simp [hready]
  · rename_i hready
    simp [hready]

/-- A feed that is free tells its listeners a state. -/
theorem publish (ok : Ok h) {i : Nat} {f : SharedFeed} (hf : h.feeds.get? i = some f)
    (f' : SharedFeed) (hok : f'.Ok) (hkey : f'.key = f.key) (hlist : f'.listeners = f.listeners)
    (hrest : f'.delivering = none) (p : SharedFeed) (hp : p.key = f.key)
    (hplist : p.listeners = f.listeners) (hwhole : f.listeners ≠ [] → p.feed.current.Whole f.key)
    (htold : ∀ id l, h.listeners.get? id = some l → id ∈ f.listeners → l.closed = false →
      Told f' (if p.feed.ready = true then l.state f.key p.feed.current else l)) :
    Ok { feeds := h.feeds.insert i f', listeners := publishState p h.listeners } := by
  have hget : ∀ id l', (publishState p h.listeners).get? id = some l' →
      ∃ l, h.listeners.get? id = some l ∧
        l' = if p.feed.ready = true ∧ id ∈ f.listeners then l.state f.key p.feed.current else l := by
    intro id l' hl'
    rw [publishState_get?, hp, hplist] at hl'
    obtain ⟨l, hl, rfl⟩ := Option.map_eq_some_iff.mp hl'
    exact ⟨l, hl, rfl⟩
  refine ok.tell hf f' hok hkey (fun id hin => hlist ▸ hin) (fun id hin => .inl (hlist ▸ hin))
    (.inr hrest) (fun id => ?_) (fun id l' hl' => ?_) (fun id l' hl' hin hopen => ?_)
    (fun id l' hl' e rest he => ?_)
  · unfold publishState
    split <;> simp
  · obtain ⟨l, hl, rfl⟩ := hget id l' hl'
    refine ⟨l, hl, ?_⟩
    split
    · rename_i hc
      exact ⟨(ok.listeners id l hl).state (hwhole (List.ne_nil_of_mem hc.2)), by simp,
        .inr ⟨hlist ▸ hc.2, fun key hkey => Listener.state_get?_ne _ _ hkey⟩⟩
    · exact ⟨ok.listeners id l hl, rfl, .inl rfl⟩
  · obtain ⟨l, hl, rfl⟩ := hget id l' hl'
    have hin : id ∈ f.listeners := hlist ▸ hin
    simp only [hin, and_true] at hopen ⊢
    refine htold id l hl hin ?_
    split at hopen
    · rwa [Listener.state_closed] at hopen
    · exact hopen
  · rw [hrest] at he
    cases he

section receive

variable [Postcard]

omit h in
/-- What a task does with an item: nothing, or it folds an accepted item while it is free. -/
theorem receive_cases (i : Nat) (item : SubscriptionItem) (h : Hub) : h.receive i item = h ∨
    ∃ f validation state, h.feeds.get? i = some f ∧ f.delivering = none ∧
      f.validation.take item = .ok validation ∧ f.feed.receive item = .ok state ∧
      ((∃ cursor, item = .begin cursor ∧
          h.receive i item = { h with feeds := h.feeds.insert i { f with validation, feed := state } }) ∨
        (∃ cursor event, item = .update ⟨cursor, .event event⟩ ∧
          h.receive i item = { h with feeds := h.feeds.insert i { f with
            validation
            feed := state
            delivering := some (event, f.listeners)
            announced := f.announced ++ [event] } }) ∨
        Publishes item = true ∧ h.receive i item = {
          feeds := h.feeds.insert i { f with validation, feed := state }
          listeners := publishState { f with validation, feed := state } h.listeners }) := by
  unfold Hub.receive
  split
  · exact .inl rfl
  rename_i f hf
  split
  · rename_i validation state hd hv hr
    refine .inr ⟨f, validation, state, hf, hd, (Validation.accept_eq_ok.mp hv).1, hr, ?_⟩
    split
    · exact .inl ⟨_, rfl, rfl⟩
    · exact .inr (.inl ⟨_, _, rfl, rfl⟩)
    · rename_i hbegin hevent
      refine .inr (.inr ⟨?_, rfl⟩)
      unfold Publishes
      split
      · exact absurd rfl (hbegin _)
      · exact absurd rfl (hevent _ _)
      · rfl
  · exact .inl rfl

omit h [Postcard] in
/-- A feed that folded an item. -/
theorem folded {f : SharedFeed} (hfok : f.Ok) {item : SubscriptionItem} {validation : Validation}
    {state : Feed} (ha : f.validation.take item = .ok validation)
    (hr : f.feed.receive item = .ok state) (delivering : Option (EventEnvelope × List Nat))
    (announced : List EventEnvelope) (hd : ∀ e rest, delivering = some (e, rest) → rest.Nodup) :
    SharedFeed.Ok { f with validation, feed := state, delivering, announced } := by
  obtain ⟨sel, hsel, hjoint⟩ := hfok.joint
  exact ⟨⟨sel, hsel, fun hs => (hjoint hs).take ha hr⟩, take_ready ha hr hfok.ready, hfok.idle,
    hfok.nodup, hd⟩

omit h [Postcard] in
/-- An item that leaves the state leaves what the feed shows, also when the feed was finished. -/
theorem told_folded {f : SharedFeed} {item : SubscriptionItem} {validation : Validation}
    {state : Feed} (hquiet : Publishes item = false) (ha : f.validation.take item = .ok validation)
    (hr : f.feed.receive item = .ok state) (delivering : Option (EventEnvelope × List Nat))
    (announced : List EventEnvelope) {l : Listener} (htold : Told f l) :
    Told { f with validation, feed := state, delivering, announced } l := by
  obtain ⟨hcurrent, hready, hother⟩ : state.current = f.feed.current ∧
      state.ready = f.feed.ready ∧ ∀ shown, Feed.receive { f.feed with current := shown } item =
        .ok { state with current := shown } := by
    unfold Publishes at hquiet
    split at hquiet
    · cases hr
      exact ⟨rfl, rfl, fun _ => rfl⟩
    · cases hr
      exact ⟨rfl, rfl, fun _ => rfl⟩
    · cases hquiet
  refine htold.imp rfl hready fun shown hshows => ?_
  obtain ⟨hsame, sel, hjoint⟩ := hshows
  exact ⟨fun hs => (hsame hs).trans hcurrent.symm, sel, hjoint.take ha (hother shown)⟩

theorem receive (ok : Ok h) {i : Nat} {item : SubscriptionItem} (hlive : (Move.receive i item).Live h) :
    Ok (h.receive i item) := by
  rcases receive_cases i item h with hsame | ⟨f, validation, state, hf, hd, ha, hr, hcase⟩
  · rwa [hsame]
  have hfok := ok.feeds i f hf
  rcases hcase with ⟨cursor, rfl, heq⟩ | ⟨cursor, event, rfl, heq⟩ | ⟨hpublishes, heq⟩ <;> rw [heq]
  · exact ok.replaceFeed hf { f with validation, feed := state }
      (folded hfok ha hr f.delivering f.announced hfok.bringing) rfl (fun _ hin => hin)
      (fun _ hin => hin) (fun id hin hgone => absurd hin hgone)
      (fun _ l => told_folded rfl ha hr f.delivering f.announced) (ok.bound i f · · hf ·)
  · refine ok.replaceFeed hf { f with
        validation
        feed := state
        delivering := some (event, f.listeners)
        announced := f.announced ++ [event] }
      (folded hfok ha hr _ _ fun e rest he => ?_) rfl (fun _ hin => hin) (fun id hin => ?_)
      (fun id hin hgone => absurd hin hgone) (fun _ l => told_folded rfl ha hr _ _)
      (fun id l hl e rest he hin hopen => ?_)
    · cases he
      exact hfok.nodup
    · rcases hin with hin | ⟨e, rest, he, hin⟩
      · exact .inl hin
      · cases he
        exact .inl hin
    · -- The listener has the state that the checker has, also when the feed has lost it.
      cases he
      have htold := ok.told i f id l hf hl hin hopen
      rw [Told, if_pos (hfok.ready.trans (event_ready ha))] at htold
      obtain ⟨shown, hget, -, sel, hjoint⟩ := htold
      obtain ⟨hkey, hhas⟩ := hjoint.has_event ha
      exact ⟨hin, hkey, shown, by rw [hkey]; exact hget, hhas⟩
  · -- A feed that stopped was not finished, so that it has no listener.
    have hrun : ∀ id ∈ f.listeners, f.stopped = false := fun id hin => by
      by_contra hs
      rw [hfok.idle (by simpa using hs) (hlive hpublishes f hf)] at hin
      cases hin
    obtain ⟨sel, -, hjoint⟩ := hfok.joint
    refine ok.publish hf { f with validation, feed := state }
      (folded hfok ha hr f.delivering f.announced hfok.bringing) rfl rfl hd
      { f with validation, feed := state } rfl rfl (fun hne => ?_) (fun id l hl hin hopen => ?_)
    · obtain ⟨id, hin⟩ := List.exists_mem_of_ne_nil _ hne
      exact ((hjoint (hrun id hin)).take ha hr).whole
    · have htold := ok.told i f id l hf hl hin hopen
      unfold Told
      by_cases hready : state.ready = true
      · simp only [hready, if_true]
        exact ⟨_, Listener.state_get?_self hopen _ _, fun _ => rfl, sel,
          (hjoint (hrun id hin)).take ha hr⟩
      · have hnot : f.feed.ready = false := by
          by_contra hc
          exact hready (Feed.receive_ready hr (by simpa using hc))
        rw [Told, if_neg (by simp [hnot])] at htold
        simp only [hready, Bool.false_eq_true, if_false]
        exact htold

end receive

theorem resync (ok : Ok h) {i : Nat} : Ok (h.resync i) := by
  unfold Hub.resync
  split
  · exact ok
  rename_i f hf
  split
  · exact ok
  rename_i hd
  have hd : f.delivering = none := by simpa using hd
  have hfok := ok.feeds i f hf
  obtain ⟨sel, hsel, hjoint⟩ := hfok.joint
  refine ok.publish hf f.restart
    ⟨⟨sel, hsel, fun _ => ?_⟩, rfl, hfok.idle, hfok.nodup, hfok.bringing⟩
    rfl rfl hd { f with feed := { f.feed with current := {} } } rfl rfl
    (fun _ => FeedState.whole_empty _) (fun id l hl hin hopen => ?_)
  · rw [SharedFeed.restart, hsel]
    exact .new sel f.key
  · simp only [Told, SharedFeed.restart, Bool.false_eq_true, if_false]
    intro state hstate
    by_cases hready : f.feed.ready = true
    · rw [if_pos hready, Listener.state_get?_self hopen] at hstate
      cases hstate
      rfl
    · have htold := ok.told i f id l hf hl hin hopen
      rw [if_neg hready] at hstate
      rw [Told, if_neg hready] at htold
      exact htold state hstate

theorem deliver [PostcardEvent] (ok : Ok h) {budget i : Nat} : Ok (h.deliver budget i) := by
  unfold Hub.deliver
  split
  · exact ok
  rename_i f hf
  have hfok := ok.feeds i f hf
  split
  · exact ok
  · refine ok.replaceFeed hf { f with delivering := none }
      ⟨hfok.joint, hfok.ready, hfok.idle, hfok.nodup, fun e rest he => (by cases he)⟩ rfl (fun _ hin => hin)
      (fun id hin => hin.imp_right fun ⟨e, rest, he, _⟩ => (by cases he))
      (fun id hin hgone => absurd hin hgone) (fun _ _ htold => htold)
      (fun id l hl e rest he => (by cases he))
  · rename_i event id rest hd
    have hnodup := hfok.bringing event _ hd
    have hnext : Ok { h with feeds := h.feeds.insert i { f with delivering := some (event, rest) } } := by
      refine ok.replaceFeed hf { f with delivering := some (event, rest) }
        ⟨hfok.joint, hfok.ready, hfok.idle, hfok.nodup, fun e rest' he => ?_⟩ rfl
        (fun _ hin => hin) (fun id' hin => ?_) (fun id' hin hgone => absurd hin hgone)
        (fun _ _ htold => htold)
        (fun id' l hl e rest' he hin hopen => ?_)
      · cases he
        exact hnodup.of_cons
      · refine hin.imp_right fun ⟨e, rest', he, hin⟩ => ?_
        cases he
        exact ⟨event, _, hd, List.mem_cons_of_mem _ hin⟩
      · cases he
        exact ok.bound i f id' l hf hl event _ hd (List.mem_cons_of_mem _ hin) hopen
    refine hnext.modifyListener fun l hl => ⟨(ok.listeners id l hl).event fun hopen =>
      (ok.bound i f id l hf hl event _ hd (by simp) hopen).2.2, fun hopen => ?_⟩
    obtain ⟨hstates, hclosed, -⟩ := Listener.event_frame budget event l
    exact ⟨hclosed ▸ hopen, hstates⟩

omit h in
theorem detach_eq (id : Nat) (f : SharedFeed) : f.detach id =
    { f with
      listeners := f.listeners.filter (· ≠ id)
      stopped := f.stopped || (f.listeners.filter (· ≠ id)).isEmpty
      feed := if (f.listeners.filter (· ≠ id)).isEmpty then { f.feed with current := {} }
        else f.feed } := by
  simp only [SharedFeed.detach]
  by_cases he : (f.listeners.filter (· ≠ id)).isEmpty = true
  · simp only [he, if_true, Bool.or_true]
  · simp only [he, Bool.false_eq_true, if_false, Bool.or_false]

theorem detach (ok : Ok h) {i id : Nat} (hlaw : (Move.detach i id).Lawful h) :
    Ok { h with feeds := h.feeds.modify i (.detach id) } := by
  cases hf : h.feeds.get? i with
  | none => rwa [OrdMap.modify_absent hf]
  | some f =>
    rw [OrdMap.modify_eq_insert hf, detach_eq]
    have hfok := ok.feeds i f hf
    have hkeep : (f.stopped || (f.listeners.filter (· ≠ id)).isEmpty) = false →
        f.stopped = false ∧ (f.listeners.filter (· ≠ id)).isEmpty = false :=
      fun hs => Bool.or_eq_false_iff.mp hs
    refine ok.replaceFeed hf _ ⟨?_, ?_, fun hs ht => ?_, hfok.nodup.filter _, hfok.bringing⟩ rfl
      (fun id' hin => List.mem_of_mem_filter hin) (fun id' hin => hin.imp_left List.mem_of_mem_filter)
      (fun id' hin hgone l hl => ?_) (fun hne l htold => ?_)
      (fun id' l hl e rest he hin hopen => ?_)
    · obtain ⟨sel, hsel, hjoint⟩ := hfok.joint
      refine ⟨sel, hsel, fun hs => ?_⟩
      obtain ⟨hwas, hne⟩ := hkeep hs
      simp only [hne, Bool.false_eq_true, if_false]
      exact hjoint hwas
    · split <;> exact hfok.ready
    · -- A feed that stops here has lost its last listener.
      rcases Bool.or_eq_true_iff.mp hs with hs | hs
      · exact List.filter_eq_nil_iff.mpr fun id' hin => by
          rw [hfok.idle hs ht] at hin
          cases hin
      · exact List.isEmpty_iff.mp hs
    · obtain rfl : id' = id := by
        by_contra hne
        exact hgone (List.mem_filter.mpr ⟨hin, by simpa using hne⟩)
      exact hlaw l hl
    · have hmore : (f.listeners.filter (· ≠ id)).isEmpty = false := by
        simpa using fun hnil => hne (List.isEmpty_iff.mp hnil)
      simp only [hmore, Bool.false_eq_true, if_false, Bool.or_false]
      exact htold
    · obtain ⟨hmem, htopic, hhold⟩ := ok.bound i f id' l hf hl e rest he hin hopen
      refine ⟨List.mem_filter.mpr ⟨hmem, ?_⟩, htopic, hhold⟩
      by_contra hne
      obtain rfl : id' = id := by simpa using hne
      rw [hlaw l hl] at hopen
      cases hopen

theorem finishFeed (ok : Ok h) {i : Nat} {terminal : Except ListenerError SubscriptionEnd} :
    Ok { h with feeds := h.feeds.modify i (.finish terminal) } := by
  cases hf : h.feeds.get? i with
  | none => rwa [OrdMap.modify_absent hf]
  | some f =>
    rw [OrdMap.modify_eq_insert hf]
    have hfok := ok.feeds i f hf
    obtain ⟨sel, hsel, -⟩ := hfok.joint
    refine ok.replaceFeed hf (f.finish terminal)
      ⟨⟨sel, hsel, fun hs => (by cases hs)⟩, hfok.ready, fun _ ht => (by cases ht), hfok.nodup,
        hfok.bringing⟩
      rfl (fun _ hin => hin) (fun _ hin => hin) (fun id hin hgone => absurd hin hgone)
      (fun _ l htold => ?_) (ok.bound i f · · hf ·)
    -- The feed loses its state, and its listeners keep it.
    exact htold.imp rfl rfl fun shown hshows => ⟨fun hs => (by cases hs), hshows.2⟩

/-- Every move that the callers and the task may make keeps the invariant. -/
theorem step [Postcard] [PostcardEvent] (ok : Ok h) {budget : Nat} {m : Move} (hlaw : m.Lawful h)
    (hlive : m.Live h) : Ok (h.step budget m) := by
  cases m with
  | listen id receiveEvents =>
    simp only [Hub.step]
    split
    · exact ok
    · exact ok.listen (by simpa using ‹¬ h.listeners.contains id = true›) receiveEvents
  | start i sessions key =>
    simp only [Hub.step]
    split
    · exact ok
    · exact ok.start (by simpa using ‹¬ h.feeds.contains i = true›) sessions key
  | attach i id => exact ok.attach hlaw
  | detach i id => exact ok.detach hlaw
  | receive i item => exact ok.receive hlive
  | deliver i => exact ok.deliver
  | resync i => exact ok.resync
  | finishFeed i terminal => exact ok.finishFeed
  | finish id terminal =>
    exact ok.modifyListener fun l hl =>
      ⟨(ok.listeners id l hl).finish terminal, fun hopen => (by simp at hopen)⟩
  | next id =>
    refine ok.modifyListener fun l hl => ⟨(ok.listeners id l hl).next, fun hopen => ?_⟩
    obtain ⟨hstates, hclosed⟩ := l.next_frame
    exact ⟨hclosed ▸ hopen, hstates⟩

end Ok

end Hub

end Sdk
end WfObserver
