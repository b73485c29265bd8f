import WfObserver.Warframe.Chat.Gaps
import WfObserver.Warframe.Chat.Polls

/-!
# Chat messages are delivered exactly once

`native` is the list of all nodes that a channel had since some state of a play; its list is the end of
`native`. A mark into `native` says how far the commits have come: behind the anchor, or not anchored
anywhere (`Mark`). What one batch tells of the channel advances the mark (`Advance`, `turn_advances`), so
commits without a gap between them deliver a part of `native` and what a gap skipped is not delivered
later (`Marked`). `Play.deliveries` puts this together for runs of polls.
-/

namespace WfObserver
namespace Warframe

open ProviderSdk
open ChatCursor (Prepared allowance_pos)

/-- What a batch tells of a channel. -/
inductive Turn where
  /-- A gap, prepared while these nodes were in the list. -/
  | gap (listed : List Slot)
  | messages (slots : List Slot)
  deriving DecidableEq

/-- The nodes that the turn delivers. -/
def Turn.slots : Turn → List Slot
  | .gap _ => []
  | .messages slots => slots

def Turn.IsGap : Turn → Prop
  | .gap _ => True
  | .messages _ => False

/-! ## Marks -/

/-- How far a channel's nodes were delivered or skipped, and whether the cursor is anchored there. -/
structure Mark where
  count : Nat
  anchored : Bool

/-- A turn at a mark delivers the nodes behind it, or from some later node if it is not anchored. -/
def Advance (native : List Slot) (m : Mark) (turn : Turn) (m' : Mark) : Prop :=
  m'.count ≤ native.length ∧
    match turn with
    | .gap listed => m.count ≤ m'.count ∧ listed ⊆ native.take m'.count
    | .messages slots => ∃ from', m.count ≤ from' ∧ from' ≤ m'.count ∧
        (m.anchored = true → from' = m.count) ∧ slots = (native.take m'.count).drop from' ∧
        (∀ slot ∈ slots, slot.line ≠ none) ∧
        (m'.anchored = false → m.anchored = false ∧ slots = [])

/-- The mark behind the turns, the latest first. -/
inductive Marked (native : List Slot) : List Turn → Mark → Prop where
  | nil : Marked native [] ⟨0, false⟩
  | cons {turns : List Turn} {turn : Turn} {m m' : Mark} (h : Marked native turns m)
      (ha : Advance native m turn m') : Marked native (turn :: turns) m'

section Marks

variable {native : List Slot} {turns : List Turn} {turn : Turn} {m m' : Mark}

theorem Advance.mono (h : Advance native m turn m') (more : List Slot) :
    Advance (native ++ more) m turn m' := by
  obtain ⟨hle, h⟩ := h
  refine ⟨hle.trans (by simp), ?_⟩
  cases turn <;> simpa only [List.take_append_of_le_length hle] using h

theorem Marked.mono (h : Marked native turns m) (more : List Slot) : Marked (native ++ more) turns m := by
  induction h with
  | nil => exact .nil
  | cons _ ha ih => exact .cons ih (ha.mono more)

theorem Marked.count_le (h : Marked native turns m) : m.count ≤ native.length := by
  cases h with
  | nil => exact Nat.zero_le _
  | cons _ ha => exact ha.1

theorem Advance.count_le (h : Advance native m turn m') : m.count ≤ m'.count := by
  obtain ⟨-, h⟩ := h
  cases turn with
  | gap listed => exact h.1
  | messages slots =>
    obtain ⟨_, h₁, h₂, -⟩ := h
    exact h₁.trans h₂

/-- What a turn delivers is behind the mark. -/
theorem Advance.slot_mem (h : Advance native m turn m') {slot : Slot} (hs : slot ∈ turn.slots) :
    slot ∈ native.drop m.count ∧ slot.line ≠ none := by
  obtain ⟨-, h⟩ := h
  cases turn with
  | gap listed => cases hs
  | messages slots =>
    obtain ⟨start, hle, -, -, rfl, hread, -⟩ := h
    refine ⟨?_, hread slot hs⟩
    have hs := (List.take_sublist _ _).drop start |>.subset hs
    rw [← Nat.add_sub_cancel' hle, ← List.drop_drop] at hs
    exact List.mem_of_mem_drop hs

theorem drop_take_append {α : Type*} {l : List α} {i j k : Nat} (hij : i ≤ j) (hjk : j ≤ k) :
    (l.take j).drop i ++ (l.take k).drop j = (l.take k).drop i := by
  obtain ⟨d, rfl⟩ := Nat.exists_eq_add_of_le hij
  have htake : l.take (i + d) = (l.take k).take (i + d) := by rw [List.take_take, min_eq_left hjk]
  rw [htake, List.drop_take, ← List.drop_drop, Nat.add_sub_cancel_left, List.take_append_drop]

/-- A turn that follows another one goes on where that ended. -/
theorem Advance.trans {a b : List Slot} {m₁ m₂ : Mark} (ha : Advance native m (.messages a) m₁)
    (hb : Advance native m₁ (.messages b) m₂) : Advance native m (.messages (a ++ b)) m₂ := by
  obtain ⟨-, i, h₁, h₂, h₃, h₄, h₅, h₆⟩ := ha
  obtain ⟨hle, j, k₁, k₂, k₃, k₄, k₅, k₆⟩ := hb
  refine ⟨hle, ?_⟩
  by_cases hanch : m₁.anchored = true
  · have hj := k₃ hanch
    subst hj
    refine ⟨i, h₁, h₂.trans k₂, h₃, ?_, ?_, ?_⟩
    · rw [h₄, k₄, drop_take_append h₂ k₂]
    · intro slot hs
      exact (List.mem_append.mp hs).elim (h₅ slot) (k₅ slot)
    · intro hno
      rw [(k₆ hno).1] at hanch
      cases hanch
  · obtain ⟨hno, rfl⟩ := h₆ (Bool.eq_false_iff.mpr hanch)
    refine ⟨j, (h₁.trans h₂).trans k₁, k₂, fun hm => ?_, k₄, k₅, fun hm' => ⟨hno, ?_⟩⟩
    · rw [hno] at hm
      cases hm
    · rw [(k₆ hm').2, List.nil_append]

theorem Advance.refl (h : m.count ≤ native.length) : Advance native m (.messages []) m :=
  ⟨h, m.count, le_rfl, le_rfl, fun _ => rfl, by simp, by simp, by simp⟩

/-- Turns without a gap are like one turn. -/
theorem Marked.stretch {stretch older : List Turn} (h : Marked native (stretch ++ older) m')
    (hs : ∀ turn ∈ stretch, ¬ turn.IsGap) :
    ∃ m, Advance native m (.messages (stretch.reverse.flatMap Turn.slots)) m' := by
  induction stretch generalizing m' with
  | nil => exact ⟨m', .refl h.count_le⟩
  | cons turn stretch ih =>
    cases h with
    | cons h ha =>
      obtain ⟨m, hm⟩ := ih h fun t ht => hs t (by simp [ht])
      refine ⟨m, ?_⟩
      cases turn with
      | gap listed => exact absurd trivial (hs (.gap listed) (by simp))
      | messages slots => simpa [Turn.slots] using hm.trans ha

/-- What later turns deliver is behind the mark. -/
theorem Marked.later {newer older : List Turn} (h : Marked native (newer ++ turn :: older) m') :
    ∃ m₀ m, Advance native m₀ turn m ∧ m.count ≤ m'.count ∧ ∀ t ∈ newer, ∀ slot ∈ t.slots,
      slot ∈ native.drop m.count ∧ slot.line ≠ none := by
  induction newer generalizing m' with
  | nil =>
    cases h with
    | cons h ha => exact ⟨_, _, ha, le_rfl, by simp⟩
  | cons t newer ih =>
    cases h with
    | @cons _ _ m₁ _ h ha =>
      obtain ⟨m₀, m, hm, hle, hnewer⟩ := ih h
      refine ⟨m₀, m, hm, hle.trans ha.count_le, ?_⟩
      rintro t' (_ | ⟨_, ht'⟩) slot hs
      · obtain ⟨hmem, hread⟩ := ha.slot_mem hs
        refine ⟨?_, hread⟩
        rw [← Nat.add_sub_cancel' hle, ← List.drop_drop] at hmem
        exact List.mem_of_mem_drop hmem
      · exact hnewer t' ht' slot hs

/-! ## Exactly once -/

/-- The turns, the latest first, deliver nodes once and in order. -/
structure Once (native : List Slot) (turns : List Turn) : Prop where
  /-- What is delivered without a gap in between is a part of the native list. -/
  stretch : ∀ newer stretch older, turns = newer ++ stretch ++ older →
    (∀ turn ∈ stretch, ¬ turn.IsGap) →
      stretch.reverse.flatMap Turn.slots <:+: native ∧ (stretch.reverse.flatMap Turn.slots).Nodup
  /-- What was in the list when a gap was prepared is not delivered later. -/
  gap : ∀ newer listed older, turns = newer ++ .gap listed :: older →
    ∀ slot ∈ listed, ∀ turn ∈ newer, slot ∉ turn.slots

theorem Marked.of_append {newer older : List Turn} (h : Marked native (newer ++ older) m) :
    ∃ m', Marked native older m' := by
  induction newer generalizing m with
  | nil => exact ⟨m, h⟩
  | cons _ newer ih =>
    cases h with
    | cons h _ => exact ih h

theorem Marked.once (h : Marked native turns m) (hn : Unrepeated native) : Once native turns where
  stretch newer stretch older hturns hs := by
    rw [hturns, List.append_assoc] at h
    obtain ⟨m', h⟩ := h.of_append
    obtain ⟨-, -, i, -, -, -, heq, hread, -⟩ := h.stretch hs
    have hwithin : stretch.reverse.flatMap Turn.slots <:+: native :=
      heq ▸ (List.drop_suffix _ _).isInfix.trans (List.take_prefix _ _).isInfix
    refine ⟨hwithin, (List.Pairwise.sublist hwithin.sublist hn).imp_of_mem ?_⟩
    exact fun _ hb hne => hne (hread _ hb)
  gap newer listed older hturns slot hslot turn hturn hmem := by
    rw [hturns] at h
    obtain ⟨m₀, m', ⟨-, -, hlisted⟩, -, hnewer⟩ := h.later
    obtain ⟨hdrop, hread⟩ := hnewer turn hturn slot hmem
    have hpw := hn
    rw [Unrepeated, ← List.take_append_drop m'.count native, List.pairwise_append] at hpw
    exact hpw.2.2 slot (hlisted hslot) slot hdrop hread rfl

end Marks

/-! ## One turn -/

/-- A position that belongs to a mark, the first `trimmed` nodes being gone. -/
structure AtMark (native : List Slot) (trimmed : Nat) (anchor : Option Entry) (m : Mark) : Prop where
  anchored : m.anchored = true → ∃ e, anchor = some e ∧ (native.take m.count).getLast? = some e.slot
  free : m.anchored = false → m.count = 0 ∨ anchor = none ∧ m.count ≤ trimmed

namespace ChatCursor

/-- What the turn of a channel tells. -/
def turn (cursor : ChatCursor) (allowance : Nat) (channel : Channel) : Turn :=
  if cursor.awaiting channel = none then .gap (channel.entries.map Entry.slot)
  else .messages ((cursor.delivered allowance channel).map Entry.slot)

variable {native : List Slot} {m : Mark} {cursor : ChatCursor} {channel : Channel} {n trimmed : Nat}

theorem map_slot_readable {entries : List Entry} : ∀ slot ∈ entries.map Entry.slot, slot.line ≠ none := by
  intro slot hs
  obtain ⟨entry, -, rfl⟩ := List.mem_map.mp hs
  exact Option.some_ne_none _

/-- Delivering the first of the entries `es` behind `start`. -/
theorem take_advances {es : List Entry} {anchor : Option Entry} {start : Nat}
    (hm : m.count ≤ start) (hstart : start ≤ native.length) (hes : es.map Entry.slot = native.drop start)
    (hfree : m.anchored = true → start = m.count)
    (hanchor : ∀ e, anchor = some e → (native.take start).getLast? = some e.slot)
    (hat : AtMark native trimmed anchor m) :
    ∃ m', Advance native m (.messages ((es.take n).map Entry.slot)) m' ∧
      AtMark native trimmed ((es.take n).getLast?.or anchor) m' := by
  rcases List.eq_nil_or_concat' (es.take n) with hnil | ⟨ys, e, he⟩
  · rw [hnil, List.getLast?_nil, Option.none_or, List.map_nil]
    cases anchor with
    | none => exact ⟨m, .refl (hm.trans hstart), hat⟩
    | some e =>
      refine ⟨⟨start, true⟩, ⟨hstart, start, hm, le_rfl, hfree, ?_, by simp, by simp⟩, ?_, by simp⟩
      · exact (List.drop_eq_nil_of_le (by simp)).symm
      · exact fun _ => ⟨e, rfl, hanchor e rfl⟩
  · have hslots : (es.take n).map Entry.slot = (native.take (start + (es.take n).length)).drop start := by
      rw [List.drop_take, Nat.add_sub_cancel_left, ← hes, ← List.map_take]
      congr 1
      rw [List.take_eq_take_iff, List.length_take]
      omega
    have hlen : (es.take n).length ≤ native.length - start := by
      rw [← List.length_drop, ← hes, List.length_map]
      exact List.length_take_le' _ _
    refine ⟨⟨start + (es.take n).length, true⟩, ⟨?_, start, hm, Nat.le_add_right _ _, hfree, hslots,
      map_slot_readable, by simp⟩, fun _ => ⟨e, ?_, ?_⟩, by simp⟩
    · simp only
      omega
    · rw [he, List.getLast?_concat, Option.some_or]
    · rw [← List.take_append_drop start (native.take (start + (es.take n).length)), ← hslots, he]
      simp

/-- A readable node stands at one place only. -/
theorem take_getLast?_inj {i j : Nat} {slot : Slot} (hn : Unrepeated native) (hline : slot.line ≠ none)
    (hi : i ≤ native.length) (hj : j ≤ native.length) (hsi : (native.take i).getLast? = some slot)
    (hsj : (native.take j).getLast? = some slot) : i = j := by
  wlog hij : i ≤ j generalizing i j
  · exact (this hj hi hsj hsi (Nat.le_of_not_le hij)).symm
  refine hij.eq_of_not_lt fun hlt => ?_
  have hsplit := drop_take_append (l := native) (Nat.zero_le i) hij
  rw [List.drop_zero, List.drop_zero] at hsplit
  have hpw : Unrepeated (native.take j) := List.Pairwise.sublist (List.take_sublist _ _) hn
  rw [Unrepeated, ← hsplit, List.pairwise_append] at hpw
  have hne : (native.take j).drop i ≠ [] := by
    rw [ne_eq, List.drop_eq_nil_iff, List.length_take]
    omega
  rw [← hsplit, List.getLast?_append_of_ne_nil _ hne] at hsj
  exact hpw.2.2 slot (List.mem_of_getLast? hsi) slot (List.mem_of_getLast? hsj) hline rfl

/-- A position behind the whole list. -/
theorem atMark_end (hentries : channel.entries.map Entry.slot = native.drop trimmed) :
    AtMark native trimmed channel.entries.getLast? ⟨native.length, !channel.entries.isEmpty⟩ := by
  rcases List.eq_nil_or_concat' channel.entries with hnil | ⟨es, e, he⟩
  · rw [hnil, List.map_nil, eq_comm, List.drop_eq_nil_iff] at hentries
    exact ⟨by simp [hnil], fun _ => .inr ⟨by simp [hnil], hentries⟩⟩
  · refine ⟨fun _ => ⟨e, by simp [he], ?_⟩, by simp [he]⟩
    rw [List.take_length, ← List.take_append_drop trimmed native, ← hentries, he]
    simp

/-- What the turn of a channel tells advances the mark. -/
theorem turn_advances (hentries : channel.entries.map Entry.slot = native.drop trimmed)
    (htrimmed : trimmed ≤ native.length) (hn : Unrepeated native) (hm : m.count ≤ native.length)
    (hat : AtMark native trimmed ((cursor.previous channel).bind (·.anchor)) m) :
    ∃ m', Advance native m (cursor.turn n channel) m' ∧
      AtMark native trimmed (cursor.anchorAfter n channel) m' := by
  cases hc : cursor.positions with
  | none =>
    -- the first reading ever only sets the anchor
    have hprev : cursor.previous channel = none := by simp [previous, hc]
    have hfree : m.anchored ≠ true := by
      intro h
      obtain ⟨e, he, -⟩ := hat.anchored h
      simp [hprev] at he
    have hturn : cursor.turn n channel = .messages [] := by simp [turn, awaiting, delivered, hc]
    rw [hturn, anchorAfter, if_pos (.inl hc)]
    refine ⟨_, ⟨le_rfl, native.length, hm, le_rfl, fun h => absurd h hfree, by simp, by simp, ?_⟩,
      atMark_end hentries⟩
    exact fun _ => ⟨Bool.eq_false_iff.mpr hfree, rfl⟩
  | some positions =>
    have hawait : cursor.awaiting channel =
        pendingAfter ((cursor.previous channel).bind (·.anchor)) channel.entries := by
      simp [awaiting, hc]
    simp only [turn, anchorAfter, delivered, hc, hawait, reduceCtorEq, false_or]
    generalize (cursor.previous channel).bind (·.anchor) = anchor at hat ⊢
    cases hp : pendingAfter anchor channel.entries with
    | none =>
      -- the gap skips the whole list
      simp only [if_true]
      refine ⟨_, ⟨le_rfl, hm, ?_⟩, atMark_end hentries⟩
      rw [hentries, List.take_length]
      exact List.drop_subset _ _
    | some es =>
      simp only [reduceCtorEq, if_false, Option.getD_some]
      cases anchor with
      | none =>
        obtain rfl : channel.entries = es := Option.some.inj hp
        have hfree : m.anchored ≠ true := by
          intro h
          obtain ⟨e, he, -⟩ := hat.anchored h
          cases he
        refine take_advances ?_ htrimmed hentries (fun h => absurd h hfree) (by simp) hat
        rcases hat.free (Bool.eq_false_iff.mpr hfree) with h | ⟨-, h⟩ <;> omega
      | some anchor =>
        obtain ⟨l, e, hsplit, hsame⟩ := pendingAfter_split hp
        have hslot : e.slot = anchor.slot := by
          obtain ⟨hline, -⟩ := Entry.sameOccurrence_iff.mp hsame
          rw [Entry.slot, Entry.slot, hline, Entry.sameOccurrence_address hsame]
        have hnative : native =
            native.take trimmed ++ l.map Entry.slot ++ [e.slot] ++ es.map Entry.slot := by
          conv_lhs => rw [← List.take_append_drop trimmed native, ← hentries, hsplit]
          simp
        have hlast : (native.take trimmed ++ l.map Entry.slot ++ [e.slot]).getLast? =
            some anchor.slot := by rw [List.getLast?_concat, hslot]
        generalize native.take trimmed ++ l.map Entry.slot ++ [e.slot] = old at hnative hlast
        have hold : old.length ≤ native.length := by simp [hnative]
        have htake : (native.take old.length).getLast? = some anchor.slot := by
          rw [hnative, List.take_left, hlast]
        -- the mark is right behind the anchor
        have hfree : m.anchored = true → old.length = m.count := by
          intro h
          obtain ⟨e', he', hlast'⟩ := hat.anchored h
          cases he'
          exact take_getLast?_inj hn (Option.some_ne_none _) hold hm htake hlast'
        refine take_advances ?_ hold (by rw [hnative, List.drop_left]) hfree ?_ hat
        · cases h : m.anchored with
          | true => exact (hfree h).ge
          | false =>
            rcases hat.free h with h | ⟨h, -⟩
            · omega
            · cases h
        · rintro _ ⟨rfl⟩
          exact htake

end ChatCursor

/-! ## Commits -/

/-- The updates that say the turn of a channel. -/
inductive Turn.Says (channel : Channel) (id : String) (localName : Option String) :
    Turn → List ChatUpdate → Prop where
  | gap : Says channel id localName (.gap (channel.entries.map Entry.slot))
      [.gap (Layout.channel channel.key)]
  | messages (entries : List Entry) : Says channel id localName (.messages (entries.map Entry.slot))
      (entries.map fun entry => .message (Layout.message entry channel.key id localName))

/-- The commit tells the turn of the channel at `address`, and beside it turns of other channels. -/
def Commit.Tells (address : Nat) (commit : Commit) (turn : Turn) : Prop :=
  ∃ (account : String) (localName : Option String) (told : Channel → List ChatUpdate),
    commit.events = (commit.channels.flatMap told).map (fun update => ⟨account, update⟩) ∧
    (commit.channels.map (·.address)).Nodup ∧
    (∀ channel ∈ commit.channels, ∃ turn : Turn,
      turn.Says channel (commit.id channel) localName (told channel)) ∧
    ∃ channel ∈ commit.channels, channel.address = address ∧
      turn.Says channel (commit.id channel) localName (told channel)

theorem ChatCursor.turn_says (cursor : ChatCursor) (n : Nat) (channel : Channel) (id : String)
    (localName : Option String) :
    (cursor.turn n channel).Says channel id localName (cursor.told n localName id channel) := by
  unfold ChatCursor.turn ChatCursor.told
  split
  · exact .gap
  · exact .messages _

section Plays

variable {target : Target} {play : Play} {account : String} {localName : Option String}
  {pending : PendingChat} {current : History} {channel : Channel}

theorem Play.Fresh.tells (h : play.Fresh target account localName pending current)
    (hg : play.game.Placed) (hc : channel ∈ current.channels) :
    Commit.Tells channel.address
        ⟨pending.history.or play.run.session.chatHistory, pending.cursor, pending.events⟩
        (play.run.session.chatCursor.turn current.allowance channel) ∧
      (pending.cursor.previous channel).bind (·.anchor) =
        play.run.session.chatCursor.anchorAfter current.allowance channel := by
  obtain ⟨updates, hprep, hev⟩ := h.prepared
  obtain ⟨id, hp⟩ := ChatCursor.prepare_ok h.distinct.keys hprep
  rw [h.history]
  let commit : Commit := ⟨some current, pending.cursor, pending.events⟩
  have hp : Prepared play.run.session.chatCursor current localName pending.cursor updates pending.more
      commit.id := by
    refine hp.congr fun x hx => ?_
    simp [commit, Commit.id, hp.previous x hx]
  refine ⟨⟨account, localName, fun x => play.run.session.chatCursor.told current.allowance localName
    (commit.id x) x, ?_, ?_, fun x _ => ⟨_, ChatCursor.turn_says _ _ _ _ _⟩, channel, hc, rfl,
    ChatCursor.turn_says _ _ _ _ _⟩, by rw [hp.previous channel hc]; rfl⟩
  · rw [hev, hp.updates]
    rfl
  · have := hg.nodup
    rw [← h.chats, List.map_map] at this
    exact this

/-! ## Runs -/

/-- The cursor stands at the mark of the channel. -/
def AtCursor (native : List Slot) (trimmed address : Nat) (key : String) (cursor : ChatCursor) (m : Mark) :
    Prop :=
  ∀ channel : Channel, channel.address = address → channel.key = key →
    AtMark native trimmed ((cursor.previous channel).bind (·.anchor)) m

/-- What is known of a channel that stays: `old` are the commits made before it was followed. -/
structure Tracked (native : List Slot) (address : Nat) (key : String) (old : List Commit) (play : Play)
    (trimmed : Nat) (news : List Commit) (turns : List Turn) (m : Mark) : Prop where
  trimmed_le : trimmed ≤ native.length
  listed : ⟨address, key, native.drop trimmed⟩ ∈ play.game.chats
  unrepeated : Unrepeated native
  past : native ⊆ play.game.past
  commits : play.run.commits = news ++ old
  tells : List.Forall₂ (Commit.Tells address) news turns
  marked : Marked native turns m
  cursor : play.run.session.pendingChat = none →
    AtCursor native trimmed address key play.run.session.chatCursor m
  pending : ∀ pending, play.run.session.pendingChat = some pending → ∃ turn m',
    Commit.Tells address
      ⟨pending.history.or play.run.session.chatHistory, pending.cursor, pending.events⟩ turn ∧
    Advance native m turn m' ∧ AtCursor native trimmed address key pending.cursor m'

theorem AtMark.mono {native : List Slot} {trimmed trimmed' : Nat} {anchor : Option Entry} {m : Mark}
    (h : AtMark native trimmed anchor m) (hm : m.count ≤ native.length) (ht : trimmed ≤ trimmed')
    (more : List Slot) : AtMark (native ++ more) trimmed' anchor m where
  anchored ha := by
    rw [List.take_append_of_le_length hm]
    exact h.anchored ha
  free hf := (h.free hf).imp id fun ⟨hnone, hle⟩ => ⟨hnone, hle.trans ht⟩

variable {native : List Slot} {address trimmed : Nat} {key : String} {old news : List Commit}
  {turns : List Turn} {m : Mark}

/-- The game changes its lists. -/
theorem Tracked.change (h : Tracked native address key old play trimmed news turns m)
    (hg : play.game.Placed) {c : ChatChange} (ha : play.game.Allows c)
    (hp : address ∈ (play.game.change c).chats.map (·.address)) :
    ∃ trimmed', Tracked (native ++ c.appended address) address key old (play.step target (.change c))
      trimmed' news turns m := by
  obtain ⟨⟨place, key', slots⟩, hmem, hplace⟩ := List.mem_map.mp hp
  obtain rfl : address = place := hplace.symm
  obtain ⟨hkey, pre, hpre⟩ := hg.change_at ha h.listed hmem rfl
  obtain rfl : key' = key := hkey
  simp only at hpre
  rw [← List.drop_append_of_le_length h.trimmed_le] at hpre
  have hlen := congrArg List.length hpre
  rw [List.length_append, List.length_drop] at hlen
  obtain ⟨hunrep, hpast⟩ := GameChat.change_past ha address h.unrepeated h.past
  have hle : trimmed ≤ trimmed + pre.length := Nat.le_add_right _ _
  refine ⟨trimmed + pre.length, ?_, ?_, hunrep, hpast, h.commits, h.tells, h.marked.mono _, ?_, ?_⟩
  · have := h.trimmed_le
    rw [List.length_append] at hlen ⊢
    omega
  · rw [← List.drop_drop, ← hpre, List.drop_left]
    exact hmem
  · intro hnone x hx hk
    exact (h.cursor hnone x hx hk).mono h.marked.count_le hle _
  · intro p hp
    obtain ⟨turn, m', htells, hadv, hat⟩ := h.pending p hp
    exact ⟨turn, m', htells, hadv.mono _, fun x hx hk => (hat x hx hk).mono hadv.1 hle _⟩

/-- A poll prepares a batch from what the lists are, or leaves everything as it is. -/
theorem Tracked.poll (h : Tracked native address key old play trimmed news turns m)
    (ok : play.Ok target) {memory : ProcessMemory} {now retryAt : Duration} {account : String}
    {localName : Option String} {refused : Option ProviderError} {due : Bool}
    (ha : play.Allows target (.poll due memory now retryAt account localName refused)) :
    Tracked native address key old
      (play.step target (.poll due memory now retryAt account localName refused)) trimmed news turns m := by
  obtain ⟨hcom, hcur, hhist, hpend⟩ := ok.poll_cases ha
  refine ⟨h.trimmed_le, h.listed, h.unrepeated, h.past, hcom.trans h.commits, h.tells, h.marked, ?_, ?_⟩
  · intro hnone
    rw [hcur]
    rcases hpend with hsame | ⟨hnone, -⟩
    · exact h.cursor (hsame ▸ hnone)
    · exact h.cursor hnone
  · intro p hp
    rw [hhist]
    rcases hpend with hsame | ⟨hnone, pending, current, hnew, hfresh⟩
    · exact h.pending p (hsame ▸ hp)
    · rw [hnew, Option.some.injEq] at hp
      subst hp
      -- the channel is among those that were read
      obtain ⟨x, hx, hchat⟩ := List.mem_map.mp (hfresh.chats ▸ h.listed)
      rw [Channel.chat, Chat.mk.injEq] at hchat
      obtain ⟨rfl, rfl, hslots⟩ := hchat
      obtain ⟨m', hadv, hat⟩ := ChatCursor.turn_advances (n := current.allowance) hslots h.trimmed_le
        h.unrepeated h.marked.count_le (h.cursor hnone x rfl rfl)
      obtain ⟨htells, hanchor⟩ := hfresh.tells ok.placed hx
      refine ⟨_, m', htells, hadv, fun y hy hk => ?_⟩
      rw [ChatCursor.previous_congr (a := y) (b := x) ⟨hk, hy⟩, hanchor]
      exact hat

/-- A completed poll commits the pending batch, or leaves everything as it is. -/
theorem Tracked.completed (h : Tracked native address key old play trimmed news turns m)
    (committed : Bool) : ∃ news' turns' m', Tracked native address key old
      (play.step target (.completed committed)) trimmed news' turns' m' := by
  rcases play.run.completed_cases committed with ⟨hcom, hcur, hhist, hpend⟩ |
    ⟨p, hp, hcur, hhist, hpend, hcom⟩
  · refine ⟨news, turns, m, h.trimmed_le, h.listed, h.unrepeated, h.past, hcom.trans h.commits, h.tells,
      h.marked, ?_, ?_⟩
    · simp only [Play.step, hpend, hcur]
      exact h.cursor
    · simp only [Play.step, hpend, hhist]
      exact h.pending
  · obtain ⟨turn, m', htells, hadv, hat⟩ := h.pending p hp
    refine ⟨_ :: news, turn :: turns, m', h.trimmed_le, h.listed, h.unrepeated, h.past, ?_,
      .cons htells h.tells, h.marked.cons hadv, ?_, ?_⟩
    · simp only [Play.step, hcom, h.commits, List.cons_append]
    · intro _
      simp only [Play.step, hcur]
      exact hat
    · simp [Play.step, hpend]

/-- What a move appends to the list at `address`. -/
def PlayMove.appended (address : Nat) : PlayMove → List Slot
  | .change c => c.appended address
  | _ => []

theorem Tracked.run (h : Tracked native address key old play trimmed news turns m)
    (ok : play.Ok target) {moves : List PlayMove}
    (hg : Runs.Guarded (Play.step target) (Play.Allows target) play moves)
    (hp : ∀ s ∈ Runs.states (Play.step target) play moves, address ∈ s.game.chats.map (·.address)) :
    ∃ trimmed' news' turns' m', Tracked (native ++ moves.flatMap (PlayMove.appended address)) address key
      old (moves.foldl (Play.step target) play) trimmed' news' turns' m' := by
  induction moves generalizing native play trimmed news turns m with
  | nil => exact ⟨trimmed, news, turns, m, by simpa using h⟩
  | cons move moves ih =>
    obtain ⟨ha, hg⟩ := hg
    have hp' := fun s hs => hp s (List.mem_cons_of_mem _ hs)
    rw [List.flatMap_cons, ← List.append_assoc]
    cases move with
    | change c =>
      obtain ⟨trimmed', h'⟩ := h.change ok.placed ha (hp' _ (Runs.mem_states_self _ _))
      exact ih h' (ok.step ha) hg hp'
    | poll due memory now retryAt account localName refused =>
      simp only [PlayMove.appended, List.append_nil]
      exact ih (h.poll ok ha) (ok.step ha) hg hp'
    | completed committed =>
      obtain ⟨news', turns', m', h'⟩ := h.completed committed
      simp only [PlayMove.appended, List.append_nil]
      exact ih h' (ok.step ha) hg hp'

/-- A channel is followed from any state without a pending batch. -/
theorem Tracked.start {chat : Chat} (ok : play.Ok target) (hc : chat ∈ play.game.chats)
    (hnone : play.run.session.pendingChat = none) :
    Tracked chat.slots chat.address chat.key play.run.commits play 0 [] [] ⟨0, false⟩ where
  trimmed_le := Nat.zero_le _
  listed := hc
  unrepeated := ok.placed.slots chat hc
  past := ok.placed.past chat hc
  commits := rfl
  tells := .nil
  marked := .nil
  cursor _ _ _ _ := ⟨by simp, fun _ => .inl rfl⟩
  pending := by simp [hnone]

/-! ## Rejected batches -/

/-- From `play` on, the pending batch is staged again, without reading, until it is the first commit. -/
def Restaged (target : Target) (pending : PendingChat) (play play' : Play) : Prop :=
  (play'.run.commits = play.run.commits ∧ play'.run.session.pendingChat = some pending ∧
    (∀ memory retryAt, play'.run.session.reading target memory retryAt = .read none) ∧
    ∀ account history localName, play'.run.session.batch account history localName = .ok pending) ∨
  ∃ history newer, play'.run.commits =
    newer ++ ⟨history, pending.cursor, pending.events⟩ :: play.run.commits

theorem Restaged.of_pending {play' : Play} (hcom : play'.run.commits = play.run.commits)
    (hp : play'.run.session.pendingChat = some pending) : Restaged target pending play play' :=
  .inl ⟨hcom, hp, by simp [ChatSession.reading, hp], by simp [ChatSession.batch, hp]⟩

theorem Restaged.step {play' : Play} (h : Restaged target pending play play') (ok : play'.Ok target)
    {move : PlayMove} (ha : play'.Allows target move) :
    Restaged target pending play (play'.step target move) := by
  rcases h with ⟨hcom, hp, -⟩ | ⟨history, newer, hcom⟩
  · cases move with
    | change c => exact .of_pending hcom hp
    | poll due memory now retryAt account localName refused =>
      obtain ⟨hcom', -, -, hsame | ⟨hnone, -⟩⟩ := ok.poll_cases ha
      · exact .of_pending (hcom'.trans hcom) (hsame.trans hp)
      · rw [hp] at hnone
        cases hnone
    | completed committed =>
      rcases play'.run.completed_cases committed with ⟨hcom', -, -, hsame⟩ | ⟨q, hq, -, -, -, hcom'⟩
      · exact .of_pending (hcom'.trans hcom) (hsame.trans hp)
      · obtain rfl : pending = q := Option.some.inj (hp.symm.trans hq)
        exact .inr ⟨_, [], hcom'.trans (congrArg (_ :: ·) hcom)⟩
  · right
    cases move with
    | change c => exact ⟨history, newer, hcom⟩
    | poll due memory now retryAt account localName refused =>
      exact ⟨history, newer, (ok.poll_cases ha).1.trans hcom⟩
    | completed committed =>
      rcases play'.run.completed_cases committed with ⟨hcom', -⟩ | ⟨q, -, -, -, -, hcom'⟩
      · exact ⟨history, newer, hcom'.trans hcom⟩
      · exact ⟨history, _ :: newer, hcom'.trans (congrArg (_ :: ·) hcom)⟩

theorem Restaged.run {play' : Play} (h : Restaged target pending play play') (ok : play'.Ok target)
    {moves : List PlayMove} (hg : Runs.Guarded (Play.step target) (Play.Allows target) play' moves) :
    Restaged target pending play (moves.foldl (Play.step target) play') :=
  (Runs.Guarded.invariant (I := fun s => s.Ok target ∧ Restaged target pending play s)
    (fun _ _ ⟨ok, h⟩ ha => ⟨ok.step ha, h.step ok ha⟩) hg ⟨ok, h⟩).2

/-! ## Deliveries -/

/-- What the commits of a play tell of a channel that stays, and what becomes of rejected batches. -/
structure Play.Deliveries (target : Target) (play : Play) (chat : Chat) (moves : List PlayMove) :
    Prop where
  /-- A batch is prepared from what the lists are. -/
  current : ∀ done move later pending, moves = done ++ move :: later →
    (done.foldl (Play.step target) play).run.session.pendingChat = none →
    ((done ++ [move]).foldl (Play.step target) play).run.session.pendingChat = some pending →
    ∃ history : History,
      pending.history.or (done.foldl (Play.step target) play).run.session.chatHistory = some history ∧
      history.channels.map Channel.chat = (done.foldl (Play.step target) play).game.chats
  once : ∃ news turns,
    (moves.foldl (Play.step target) play).run.commits = news ++ play.run.commits ∧
    List.Forall₂ (Commit.Tells chat.address) news turns ∧
    Once (chat.slots ++ moves.flatMap (PlayMove.appended chat.address)) turns
  restaged : ∀ done rest later pending, moves = done ++ rest ++ later →
    (done.foldl (Play.step target) play).run.session.pendingChat = some pending →
    Restaged target pending (done.foldl (Play.step target) play)
      ((done ++ rest).foldl (Play.step target) play)

theorem Play.run_ok {game : GameChat} (hgame : game.Placed) {moves : List PlayMove}
    (hg : Runs.Guarded (Play.step target) (Play.Allows target) (.start game) moves) :
    (moves.foldl (Play.step target) (.start game)).Ok target :=
  hg.invariant (fun _ _ ok ha => ok.step ha) (.start hgame)

/-- Over every play, a channel that stays is told exactly once. -/
theorem Play.deliveries {game : GameChat} (hgame : game.Placed) {before moves : List PlayMove}
    (hrun : Runs.Guarded (Play.step target) (Play.Allows target) (.start game) (before ++ moves))
    {play : Play} (hplay : play = before.foldl (Play.step target) (.start game))
    (hnone : play.run.session.pendingChat = none) {chat : Chat} (hc : chat ∈ play.game.chats)
    (hstays : ∀ s ∈ Runs.states (Play.step target) play moves,
      chat.address ∈ s.game.chats.map (·.address)) :
    Play.Deliveries target play chat moves := by
  obtain ⟨hbefore, hmoves⟩ := Runs.guarded_append.mp hrun
  rw [← hplay] at hmoves
  have ok : play.Ok target := hplay ▸ Play.run_ok hgame hbefore
  constructor
  case current =>
    rintro done move later pending rfl hno hp
    obtain ⟨hdone, ha, -⟩ := Runs.guarded_append.mp hmoves
    have ok' := hdone.invariant (fun _ _ ok ha => ok.step ha) ok
    rw [List.foldl_append, List.foldl_cons, List.foldl_nil] at hp
    obtain ⟨account, localName, history, hfresh⟩ := ok'.prepared ha hno hp
    exact ⟨history, hfresh.history, hfresh.chats⟩
  case once =>
    obtain ⟨_, news, turns, m, h⟩ := (Tracked.start ok hc hnone).run ok hmoves hstays
    exact ⟨news, turns, h.commits, h.tells, h.marked.once h.unrepeated⟩
  case restaged =>
    rintro done rest later pending rfl hp
    obtain ⟨hg, -⟩ := Runs.guarded_append.mp hmoves
    obtain ⟨hdone, hrest⟩ := Runs.guarded_append.mp hg
    rw [List.foldl_append]
    have ok' := hdone.invariant (fun _ _ ok ha => ok.step ha) ok
    exact (Restaged.of_pending rfl hp).run ok' hrest

/-- A poll that reads the chat. -/
theorem Play.step_read {memory : ProcessMemory} {history cached : Option History}
    (hnone : play.run.session.pendingChat = none) (hcached : play.run.session.chatHistory = cached)
    (hread : readChat memory target.base target.size target.login cached = .ok history)
    (now retryAt : Duration) (account : String) :
    play.step target (.poll true memory now retryAt account none none) =
      { play with run := play.run.step (.publish now account (.read history) none none) } := by
  simp [Play.step, ChatSession.reading, hnone, hcached, hread]

/-! A region channel at 0x3000000 whose entry `k` says "a" and its number. Its list has the entries from
`first` to `last`. -/

def regionTarget : Target := ⟨0x10000, 0x1000000, 0x1000000⟩

def regionNode (k : Nat) : Nat := 0x4000000 + k * 0x100

def regionLinks (first last k : Nat) : Links :=
  ⟨if k = last then 0x3000028 else regionNode (k + 1),
    if k = first then 0x3000028 else regionNode (k - 1)⟩

def regionHead (first last : Nat) : List (Nat × Nat) :=
  [(0x1000000, 0x2000000), (0x2000248, 0xf1f100),
    -- the channel list of the profile data at 0x1000000
    (0x1011ea8, 0x3000000), (0x1011eb0, 0x3000000), (0x3000000, 0x1011ea8), (0x3000008, 0x1011ea8),
    (0x3000018, 0x4e455f4723), (0x3000020, 0x0a00000000000000), (0x3000028, regionNode first),
    (0x3000030, regionNode last)]

def regionWord (first last address : Nat) : Nat :=
  if address < regionNode 0 then ((regionHead first last).lookup address).getD 0
  else
    let k := (address - regionNode 0) / 0x100
    let links := regionLinks first last k
    ([(0x00, links.next), (0x08, links.previous), (0x18, 0x6563696c41), (0x20, 0x0a00000000000000),
      (0x28, 0x3061 + k * 0x100), (0x30, 0x0d00000000000000), (0x40, 0x0f00000000000000)].lookup
      ((address - regionNode 0) % 0x100)).getD 0

def regionMemory (first last : Nat) : ProcessMemory where
  readInto address n := .ok (Vector.ofFn fun i : Fin n =>
    UInt8.ofNat (regionWord first last ((address + i) / 8 * 8) / 256 ^ ((address + i) % 8)))

def regionEntry (first last k : Nat) : Entry :=
  ⟨regionNode k, regionLinks first last k, 0, "Alice", "a" ++ toString k, none⟩

def regionHistory (first last : Nat) : History :=
  ⟨[⟨0x3000000, ⟨0x1011ea8, 0x1011ea8⟩, "#G_EN", ⟨regionNode first, regionNode last⟩,
    (List.range' first (last + 1 - first)).map (regionEntry first last)⟩]⟩

def silentMemory : ProcessMemory where
  readInto _ _ := .error "process exited"

/-- The batch with the third entry is rejected, and staged again while the first entry is trimmed, the
fourth one is appended and memory cannot be read. -/
def regionMoves : List PlayMove := [
  .poll true silentMemory 0 5 "account" none none,
  .poll true (regionMemory 1 2) 1 6 "account" none none,
  .completed true,
  .change (.append 0x3000000 (regionEntry 1 3 3).slot),
  .poll true (regionMemory 1 3) 2 7 "account" none none,
  .completed false,
  .change (.trim 0x3000000),
  .change (.append 0x3000000 (regionEntry 2 4 4).slot),
  .poll true silentMemory 3 8 "account" none none,
  .completed true,
  .poll true (regionMemory 2 4) 4 9 "account" none none,
  .completed true]

theorem regionMemory_first : readChat (regionMemory 1 2) 0x10000 0x1000000 0x1000000 none =
    .ok (some (regionHistory 1 2)) := by
  decide +kernel

theorem regionMemory_appended :
    readChat (regionMemory 1 3) 0x10000 0x1000000 0x1000000 (some (regionHistory 1 2)) =
      .ok (some (regionHistory 1 3)) := by
  decide +kernel

theorem regionMemory_trimmed :
    readChat (regionMemory 2 4) 0x10000 0x1000000 0x1000000 (some (regionHistory 1 3)) =
      .ok (some (regionHistory 2 4)) := by
  decide +kernel

theorem regionMoves_run :
    (regionMoves.foldl (Play.step regionTarget) (.start (GameChat.of (regionHistory 1 2)))).run =
      ChatRun.run [.publish 0 "account" (.failed 5) none none,
        .publish 1 "account" (.read (some (regionHistory 1 2))) none none, .completed true,
        .publish 2 "account" (.read (some (regionHistory 1 3))) none none, .completed false,
        .publish 3 "account" (.read none) none none, .completed true,
        .publish 4 "account" (.read (some (regionHistory 2 4))) none none, .completed true] := by
  simp only [regionMoves, List.foldl_cons, List.foldl_nil]
  rw [@Play.step_read regionTarget _ _ _ _ ?_ ?_ regionMemory_first,
    @Play.step_read regionTarget _ _ _ _ ?_ ?_ regionMemory_appended,
    @Play.step_read regionTarget _ _ _ _ ?_ ?_ regionMemory_trimmed]
  · rfl
  all_goals decide +kernel

theorem regionMoves_allowed : Runs.Guarded (Play.step regionTarget) (Play.Allows regionTarget)
    (.start (GameChat.of (regionHistory 1 2))) regionMoves := by
  have hsilent : ∀ cached, ∃ error, readChat silentMemory regionTarget.base regionTarget.size
      regionTarget.login cached = .error error := fun cached => ⟨_, rfl⟩
  have hholds {memory : ProcessMemory} {cached : Option History} {history : History} {game : GameChat}
      (hread : readChat memory 0x10000 0x1000000 0x1000000 cached = .ok (some history))
      (hchats : game.chats = (GameChat.of history).chats) :
      ∃ stands, Holds memory 0x10000 0x1000000 0x1000000 game stands := by
    obtain ⟨stands, h⟩ := readChat_holds hread
    exact ⟨stands, h.of_chats hchats⟩
  refine ⟨fun _ _ => .inl (hsilent _), fun _ _ => .inr (hholds regionMemory_first ?_), trivial,
    ⟨?_, fun _ => ?_⟩, fun _ _ => .inr (hholds regionMemory_appended ?_), trivial, trivial,
    ⟨?_, fun _ => ?_⟩, fun _ _ => .inl (hsilent _), trivial,
    fun _ _ => .inr (hholds regionMemory_trimmed ?_), trivial, trivial⟩
  all_goals decide +kernel

theorem regionHistory_placed : (GameChat.of (regionHistory 1 2)).Placed := by
  refine ⟨by decide +kernel, by decide +kernel, ?_⟩
  unfold Unrepeated
  decide +kernel

def Commit.texts (commit : Commit) : List String :=
  commit.events.filterMap fun event => match event.update with
    | .message message => some message.text
    | .gap _ => none

theorem Play.deliveries_rejected :
    let start := Play.start (GameChat.of (regionHistory 1 2))
    Play.Deliveries regionTarget start
        ⟨0x3000000, "#G_EN", [(regionEntry 1 2 1).slot, (regionEntry 1 2 2).slot]⟩ regionMoves ∧
      (regionMoves.foldl (Play.step regionTarget) start).run.commits.map Commit.texts =
        [["a4"], ["a3"], []] := by
  intro start
  have hrun : Runs.Guarded (Play.step regionTarget) (Play.Allows regionTarget) start
      ([] ++ regionMoves) := regionMoves_allowed
  constructor
  · exact Play.deliveries regionHistory_placed hrun rfl rfl (List.mem_singleton_self _)
      (by decide +kernel)
  · rw [regionMoves_run]
    decide +kernel

end Plays

end Warframe
end WfObserver
