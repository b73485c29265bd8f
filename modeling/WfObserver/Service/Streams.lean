import WfObserver.Protocol.Selection
import WfObserver.Service.Inner

/-!
# The stream of one subscription

What the service's steps on a queue do to its stream: an update is appended (`offer`), or the stream
ends with Closed after a prefix that still has its Begin (`finish`, or an offer to a full queue).

`Recounts` says that a stream is a bootstrap of an earlier replica and the relevant updates since;
`ChannelOk` is the invariant of a queue, registered or not, next to the log of all updates.
-/

namespace WfObserver
namespace Service

open Wire Protocol

namespace Channel

/-- The queue's updates are updates, so its Begin is in the bootstrap frames. -/
def Plain (c : Channel) : Prop := ∀ x ∈ c.queue.updates, ∃ e, x.1 = .update e

theorem plain_next {c : Channel} (h : c.Plain) : c.next.Plain := by
  intro x hx
  refine h x ?_
  unfold next Queue.pop at hx
  rcases hi : c.queue.initial with _ | ⟨a, l⟩ <;> simp only [hi] at hx
  · rcases hu : c.queue.updates with _ | ⟨⟨b, n⟩, l⟩ <;> simp only [hu] at hx
    · rcases ht : c.queue.terminal with _ | t <;> simp only [ht, hu] at hx <;> exact absurd hx (by simp)
    · exact List.mem_cons_of_mem _ hx
  · exact hx

theorem plain_race {c : Channel} (h : c.Plain) : c.race.Plain := by
  have key : ∀ n (c : Channel), c.Plain → (nexts n c).Plain := by
    intro n
    induction n with
    | zero => exact fun _ h => h
    | succ n ih => exact fun c h => ih c.next (plain_next h)
  exact key _ c h

/-- The stream ends after a part of it that is not empty. -/
def Cut (c c' : Channel) : Prop :=
  c'.ended = true ∧ ∃ items e, items <+: c.stream ∧ items ≠ [] ∧ c'.stream = items ++ [.closed e]

/-- An open queue that drops what it holds keeps the Begin for its consumer. -/
theorem cut_discard {c c' : Channel} {cursor : ServiceCursor} {rest : List SubscriptionItem}
    (hq : c.Plain) (hend : c.ended = false) (hb : c.stream = .begin cursor :: rest)
    {ending : SubscriptionEnd}
    (h : c'.queue = { c.queue.discard with terminal := some ending } ∧ c'.delivered = c.delivered) :
    Cut c c' := by
  obtain ⟨hqueue, hdel⟩ := h
  obtain ⟨hterm, -⟩ : c.queue.terminal = none ∧ c.queue.completed = false := by
    simpa [ended, Queue.ended] using hend
  refine ⟨by simp [ended, Queue.ended, hqueue], c.delivered ++ c.queue.discard.initial, ending, ?_,
    ?_, ?_⟩
  · unfold stream
    refine (List.prefix_append_right_inj _).mpr ?_
    unfold Queue.discard Queue.pending
    split
    · rename_i cur l hi
      rw [hi]
      exact ⟨l ++ c.queue.updates.map (·.1) ++ (c.queue.terminal.map SubscriptionItem.closed).toList,
        by simp⟩
    · exact List.nil_prefix
  · intro hnil
    obtain ⟨hd, hi⟩ := List.append_eq_nil_iff.mp hnil
    rw [stream, hd, List.nil_append, Queue.pending, hterm] at hb
    cases hinit : c.queue.initial with
    | nil =>
      rw [hinit] at hb
      simp only [List.nil_append, Option.map_none, Option.toList_none, List.append_nil] at hb
      obtain ⟨x, l, hx, hu, -⟩ := List.map_eq_cons_iff.mp hb
      obtain ⟨e, he⟩ := hq x (hx ▸ List.mem_cons_self)
      rw [hu] at he
      cases he
    | cons a l =>
      rw [hinit] at hb
      simp only [List.cons_append] at hb
      have ha := (List.cons.inj hb).1
      simp [Queue.discard, hinit, ha] at hi
  · simp [stream, hdel, hqueue, Queue.pending, Queue.discard]

theorem consumed_cut {a b c : Channel} (h : Consumed a b) (hc : Cut b c) : Cut a c := by
  obtain ⟨he, items, e, hp, hne, hs⟩ := hc
  exact ⟨he, items, e, h.stream ▸ hp, hne, hs⟩

/-- An offer appends to an open stream or cuts it. -/
theorem offer_open [Postcard] {c : Channel} {cursor : ServiceCursor} {rest : List SubscriptionItem}
    (hq : c.Plain) (hend : c.ended = false) (hb : c.stream = .begin cursor :: rest)
    (item : SubscriptionItem) :
    ((c.offer item).ended = false ∧ (c.offer item).stream = c.stream ++ [item]) ∨
      Cut c (c.offer item) := by
  have hrace := consumed_race c
  have hend' : c.race.ended = false := hrace.ended.trans hend
  have hopen : c.race.queue.ended = false := hend'
  unfold offer Queue.offer
  rw [hopen]
  simp only [Bool.false_eq_true, if_false]
  split
  · right
    exact consumed_cut hrace (cut_discard (plain_race hq) hend' (hrace.stream.trans hb) ⟨rfl, rfl⟩)
  · left
    obtain ⟨hterm, hcomp⟩ : c.race.queue.terminal = none ∧ c.race.queue.completed = false := by
      simpa [Queue.ended] using hopen
    refine ⟨by simp [ended, Queue.ended, hterm, hcomp], ?_⟩
    rw [← hrace.stream]
    simp [stream, Queue.pending, hterm]

theorem offer_ended [Postcard] {c : Channel} (h : c.ended = true) (item : SubscriptionItem) :
    (c.offer item).ended = true ∧ (c.offer item).stream = c.stream := by
  have hrace := consumed_race c
  have hend : c.race.queue.ended = true := hrace.ended.trans h
  unfold offer Queue.offer
  rw [hend]
  exact ⟨hend, hrace.stream⟩

theorem plain_offer [Postcard] {c : Channel} (h : c.Plain) (e : UpdateEnvelope) :
    (c.offer (.update e)).Plain := by
  unfold offer Queue.offer
  split
  · exact plain_race h
  · dsimp only
    split
    · exact fun x hx => absurd hx (by simp [Queue.discard])
    · intro x hx
      rcases List.mem_append.mp hx with hx | hx
      · exact plain_race h x hx
      · rw [List.mem_singleton.mp hx]; exact ⟨e, rfl⟩

/-- A terminal item ends an open stream. -/
theorem finish_open {c : Channel} {cursor : ServiceCursor} {rest : List SubscriptionItem}
    (hq : c.Plain) (hend : c.ended = false) (hb : c.stream = .begin cursor :: rest)
    (ending : SubscriptionEnd) (discard : Bool) : Cut c (c.finish ending discard) := by
  have hrace := consumed_race c
  have hend' : c.race.ended = false := hrace.ended.trans hend
  have hopen : c.race.queue.ended = false := hend'
  unfold finish Queue.finish
  rw [hopen]
  simp only [Bool.false_eq_true, if_false]
  cases discard with
  | true =>
    exact consumed_cut hrace (cut_discard (plain_race hq) hend' (hrace.stream.trans hb) ⟨rfl, rfl⟩)
  | false =>
    obtain ⟨hterm, hcomp⟩ : c.race.queue.terminal = none ∧ c.race.queue.completed = false := by
      simpa [Queue.ended] using hopen
    refine consumed_cut hrace ⟨by simp [ended, Queue.ended], c.race.stream, ending,
      List.prefix_refl _, ?_, ?_⟩
    · rw [hrace.stream, hb]; simp
    · simp [stream, Queue.pending, hterm]

theorem finish_ended {c : Channel} (h : c.ended = true) (ending : SubscriptionEnd)
    (discard : Bool) :
    (c.finish ending discard).ended = true ∧ (c.finish ending discard).stream = c.stream := by
  have hrace := consumed_race c
  have hend : c.race.queue.ended = true := hrace.ended.trans h
  unfold finish Queue.finish
  rw [hend]
  exact ⟨hend, hrace.stream⟩

theorem plain_finish {c : Channel} (h : c.Plain) (ending : SubscriptionEnd) (discard : Bool) :
    (c.finish ending discard).Plain := by
  unfold finish Queue.finish
  split
  · exact plain_race h
  · cases discard
    · exact plain_race h
    · exact fun x hx => absurd hx (by simp [Queue.discard])

end Channel

/-! ## What a stream recounts -/

/-- The stream of a subscription that began at sequence `n`, between the updates `before` and
`after`. -/
def recount (runId : String) (sel : Subscribe) (before after : List UpdateEnvelope) (n : Nat) :
    List SubscriptionItem :=
  bootstrap sel (replay ∅ before) ⟨runId, n⟩ ++ followed sel (replay ∅ before) after

/-- `items` is the stream after the updates `log`. -/
structure Recounts (runId : String) (sel : Subscribe) (log : List UpdateEnvelope)
    (items : List SubscriptionItem) : Prop where
  split : ∃ before after n, log = before ++ after ∧ Complete sel (replay ∅ before) ∧
    (∀ e ∈ before, e.cursor.sequence ≤ n) ∧ (∀ e ∈ after, n < e.cursor.sequence) ∧
    items = recount runId sel before after n

theorem Recounts.begin {runId : String} {sel : Subscribe} {log : List UpdateEnvelope}
    {items : List SubscriptionItem} (h : Recounts runId sel log items) :
    ∃ cursor rest, items = .begin cursor :: rest := by
  obtain ⟨before, after, n, -, -, -, -, rfl⟩ := h.split
  exact ⟨_, _, rfl⟩

/-- One more update, relevant or not. -/
theorem Recounts.snoc {runId : String} {sel : Subscribe} {log : List UpdateEnvelope}
    {items : List SubscriptionItem} (h : Recounts runId sel log items) {e : UpdateEnvelope}
    {n : Nat} (hn : ∀ x ∈ log, x.cursor.sequence ≤ n) (he : n < e.cursor.sequence)
    (hm : ∀ cursor rest, items = .begin cursor :: rest → cursor.sequence ≤ n) :
    Recounts runId sel (log ++ [e])
      (items ++ if relevant sel (replay ∅ log) e.update then [.update e] else []) := by
  obtain ⟨before, after, m, rfl, hc, hb, ha, rfl⟩ := h.split
  have hmn : m ≤ n := hm ⟨runId, m⟩ _ rfl
  refine ⟨before, after ++ [e], m, by simp, hc, hb, fun x hx => ?_, ?_⟩
  · rcases List.mem_append.mp hx with hx | hx
    · exact ha x hx
    · rw [List.mem_singleton.mp hx]; omega
  · have hreplay : replay ∅ (before ++ after) = replay (replay ∅ before) after := by
      simp [replay, List.foldl_append]
    simp [recount, followed_append, followed, hreplay]

/-- The invariant of a queue next to the log of all updates. `registered` is its subscriber. -/
structure ChannelOk (runId : String) (n : Nat) (log : List UpdateEnvelope)
    (registered : Option Subscriber) (c : Channel) : Prop where
  plain : c.Plain
  /-- The stream follows the log up to some point, and may have ended before that. -/
  past : ∃ log' items, log' <+: log ∧ Recounts runId c.selection.normal log' items ∧
    (c.stream = items ∨ ∃ items' e, items' <+: items ∧ items' ≠ [] ∧ c.stream = items' ++ [.closed e])
  /-- A registered open queue has followed the whole log. -/
  live : ∀ s, registered = some s → s = ⟨c.selection.normal, true⟩ ∧
    (c.ended = false → Recounts runId c.selection.normal log c.stream ∧
      ∀ cursor rest, c.stream = .begin cursor :: rest → cursor.sequence ≤ n)

namespace ChannelOk

variable {runId : String} {n m : Nat} {log log' : List UpdateEnvelope}
  {registered : Option Subscriber} {c c' : Channel}

/-- Without its subscriber a queue only remembers. -/
theorem forget (h : ChannelOk runId n log registered c) (hl : log <+: log') :
    ChannelOk runId m log' none c := by
  obtain ⟨l, items, hp, hr, hs⟩ := h.past
  exact ⟨h.plain, ⟨l, items, hp.trans hl, hr, hs⟩, by simp⟩

theorem mono (h : ChannelOk runId n log registered c) (hm : n ≤ m) :
    ChannelOk runId m log registered c :=
  ⟨h.plain, h.past, fun s hs => ⟨(h.live s hs).1, fun hc =>
    ⟨((h.live s hs).2 hc).1, fun cursor rest he => (((h.live s hs).2 hc).2 cursor rest he).trans hm⟩⟩⟩

theorem consumed (h : ChannelOk runId n log registered c) (hc : c'.Plain)
    (hcons : Channel.Consumed c c') : ChannelOk runId n log registered c' := by
  refine ⟨hc, ?_, ?_⟩ <;> rw [hcons.selection]
  · rw [hcons.stream]
    exact h.past
  · rw [hcons.stream, hcons.ended]
    exact h.live

/-- What cuts an open stream, and what leaves an ended one. -/
theorem cut (h : ChannelOk runId n log registered c) (hs : registered.isSome) (hplain : c'.Plain)
    (hsel : c'.selection = c.selection)
    (hopen : c.ended = false → Channel.Cut c c')
    (hended : c.ended = true → c'.ended = true ∧ c'.stream = c.stream) {r : Option Subscriber}
    (hr : r = registered ∨ r = none) (hl : log <+: log') :
    ChannelOk runId m log' r c' := by
  obtain ⟨s, hs⟩ := Option.isSome_iff_exists.mp hs
  have hend : c'.ended = true := by
    cases hc : c.ended with
    | true => exact (hended hc).1
    | false => exact (hopen hc).1
  refine ⟨hplain, ?_, fun s' hs' => ⟨?_, fun he => by rw [hend] at he; cases he⟩⟩
  · rw [hsel]
    cases hc : c.ended with
    | true =>
      obtain ⟨l, items, hp, hr, hst⟩ := h.past
      rw [(hended hc).2]
      exact ⟨l, items, hp.trans hl, hr, hst⟩
    | false =>
      obtain ⟨-, items', e, hp, hne, hst⟩ := hopen hc
      exact ⟨log, c.stream, hl, ((h.live s hs).2 hc).1, .inr ⟨items', e, hp, hne, hst⟩⟩
  · rw [hsel]
    rcases hr with rfl | rfl
    · exact (h.live s' hs').1
    · cases hs'

/-- An update that the subscriber does not want. -/
theorem skip (h : ChannelOk runId n log registered c) {e : UpdateEnvelope}
    (hlog : ∀ x ∈ log, x.cursor.sequence ≤ n) (he : n < e.cursor.sequence)
    (hw : ∀ s, registered = some s → relevant s.selection (replay ∅ log) e.update = false) :
    ChannelOk runId e.cursor.sequence (log ++ [e]) registered c := by
  obtain ⟨l, items, hp, hr, hst⟩ := h.past
  refine ⟨h.plain, ⟨l, items, hp.trans (List.prefix_append _ _), hr, hst⟩, fun s hs => ?_⟩
  obtain ⟨hsel, hlive⟩ := h.live s hs
  refine ⟨hsel, fun hc => ?_⟩
  obtain ⟨hrec, hm⟩ := hlive hc
  refine ⟨?_, fun cursor rest hb => (hm cursor rest hb).trans he.le⟩
  have := hrec.snoc hlog he hm
  rwa [show relevant c.selection.normal (replay ∅ log) e.update = false by
    have := hw s hs; rwa [hsel] at this, if_neg (by simp), List.append_nil] at this

/-- An update that the subscriber wants. -/
theorem offer [Postcard] (h : ChannelOk runId n log registered c) {e : UpdateEnvelope}
    (hlog : ∀ x ∈ log, x.cursor.sequence ≤ n) (he : n < e.cursor.sequence) {s : Subscriber}
    (hs : registered = some s) (hw : relevant s.selection (replay ∅ log) e.update = true) :
    ChannelOk runId e.cursor.sequence (log ++ [e]) registered (c.offer (.update e)) := by
  have hplain := Channel.plain_offer h.plain e
  have hcons := Channel.consumed_race c
  have hsel : (c.offer (.update e)).selection = c.selection := hcons.selection
  have hsome : registered.isSome := by rw [hs]; rfl
  have hcut : (c.ended = false → Channel.Cut c (c.offer (.update e))) →
      ChannelOk runId e.cursor.sequence (log ++ [e]) registered (c.offer (.update e)) := fun hopen =>
    h.cut hsome hplain hsel hopen (fun hc => Channel.offer_ended hc _) (.inl rfl)
      (List.prefix_append _ _)
  cases hc : c.ended with
  | true => exact hcut fun hf => by rw [hc] at hf; cases hf
  | false =>
    obtain ⟨hsub, hlive⟩ := h.live s hs
    obtain ⟨hrec, hm⟩ := hlive hc
    obtain ⟨cursor, rest, hb⟩ := hrec.begin
    rcases Channel.offer_open h.plain hc hb (.update e) with ⟨-, hst⟩ | hcut'
    · have hnew := hrec.snoc hlog he hm
      rw [show relevant c.selection.normal (replay ∅ log) e.update = true by
        rwa [hsub] at hw, if_pos rfl, ← hst] at hnew
      refine ⟨hplain, ⟨_, _, List.prefix_refl _, hsel ▸ hnew, .inl rfl⟩, fun s' hs' => ?_⟩
      refine ⟨by rw [hsel]; exact (h.live s' hs').1, fun _ => ⟨hsel ▸ hnew, fun cursor' rest' hb' => ?_⟩⟩
      rw [hst, hb] at hb'
      cases (List.cons.inj hb').1
      exact (hm cursor rest hb).trans he.le
    · exact hcut fun _ => hcut'

end ChannelOk

end Service
end WfObserver
