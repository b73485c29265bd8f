import WfObserver.Warframe.Chat.Conversations
import WfObserver.Warframe.Chat.Retained

/-!
# A game and the session that follows it

`Play` puts the chat of a session beside the chat of the game. Between polls the game changes its lists
(`ChatChange`); a poll reads the memory that holds them, or fails to. Whatever history a session retains
was read from an earlier state of the game, so every batch is prepared from what the lists are when it is
prepared (`Play.Ok.prepared`).
-/

namespace WfObserver
namespace Warframe

open ProviderSdk
open Fallible

/-! ## Reading what memory holds -/

section Reading

variable {memory : ProcessMemory} {base size login : Nat} {game : GameChat} {stands : List Stand}
  {history : History} {cached : Option History}

/-- A channel that stands in memory reads back as it stands. -/
theorem Stand.Held.chat_eq {reader : TargetReader} {stand : Stand} {channel : Channel}
    (h : stand.Held reader) (hc : channel.Stored reader)
    (haddr : channel.address = stand.header.address) : channel.chat = stand.chat := by
  have hheader := hc.toHeaderStored.header_eq h.header haddr
  have hkey := congrArg Channel.key hheader
  have hsent : channel.sentinel = stand.header.sentinel := by
    rw [Channel.sentinel, Channel.sentinel, haddr]
  have hends := congrArg Channel.entryLinks hheader
  simp only [Channel.header] at hkey hends
  rw [hc.ends, h.ends, hsent, Ring.Links.mk.injEq] at hends
  have hring := hc.linked
  rw [Channel.Linked, hsent] at hring
  have hmap : channel.entries.map Entry.address = stand.nodes.map fun node => node.1.address :=
    Ring.Closed.map_addr_eq (Warframe.links reader) Except.ok (fun _ _ => Except.ok.inj) hring h.ring
      (fun e he => readEntry_links (hc.nodes e he)) h.links hends.1
  have hslots : channel.entries.map Entry.slot = stand.nodes.map (·.1) := by
    refine Ring.map_eq_of_map_eq hmap fun e he n hn hen => ?_
    have hread := h.reads n hn
    rw [← hen, hc.nodes e he, Except.toOption, eq_comm, Option.map_eq_some_iff] at hread
    obtain ⟨line, hline, hentry⟩ := hread
    obtain ⟨⟨address, l⟩, links⟩ := n
    simp only at hline hen
    rw [Entry.slot, hline, hen, ← hentry, Line.line_entry]
  rw [Channel.chat, Stand.chat, haddr, hkey, hslots]

/-- A full read returns the game's channels. -/
theorem readChat_chats (hread : readChat memory base size login cached = .ok (some history))
    (hholds : Holds memory base size login game stands) :
    history.channels.map Channel.chat = game.chats := by
  obtain ⟨-, -, -, _, -, hfull⟩ := readChat_ok hread
  obtain ⟨⟨hring, hhead, hst⟩, -⟩ := readHistory_stored hfull
  rw [← hholds.chats]
  refine Ring.map_eq_of_map_eq (hholds.addresses hring hhead fun c hc => (hst c hc).toHeaderStored)
    fun c hc stand hs haddr => (hholds.held stand hs).chat_eq (hst c hc) haddr

/-- A full read is fit for the cursor. -/
theorem readChat_distinct (hread : readChat memory base size login cached = .ok (some history)) :
    history.Distinct := by
  obtain ⟨-, -, -, _, -, hfull⟩ := readChat_ok hread
  exact (readHistory_stored hfull).2

end Reading

/-! ## Changes of the game -/

inductive ChatChange where
  | append (address : Nat) (slot : Slot)
  | trim (address : Nat)
  | add (index : Nat) (address : Nat) (key : String)
  | remove (address : Nat)

/-- What a change appends to the list at `address`. -/
def ChatChange.appended (address : Nat) : ChatChange → List Slot
  | .append place slot => if place = address then [slot] else []
  | _ => []

/-- No readable node comes twice. -/
def Unrepeated (slots : List Slot) : Prop := slots.Pairwise fun a b => b.line ≠ none → a ≠ b

namespace GameChat

def change (game : GameChat) : ChatChange → GameChat
  | .append address slot =>
    { chats := game.chats.map fun chat =>
        if chat.address = address then { chat with slots := chat.slots ++ [slot] } else chat
      past := slot :: game.past }
  | .trim address =>
    { game with chats := game.chats.map fun chat =>
        if chat.address = address then { chat with slots := chat.slots.tail } else chat }
  | .add index address key =>
    { game with chats := game.chats.take index ++ ⟨address, key, []⟩ :: game.chats.drop index }
  | .remove address => { game with chats := game.chats.filter fun chat => chat.address ≠ address }

/-- The nodes of a list are new, and channels are at addresses of their own. -/
def Allows (game : GameChat) : ChatChange → Prop
  | .append address slot => address ∈ game.chats.map (·.address) ∧ (slot.line ≠ none → slot ∉ game.past)
  | .trim _ => True
  | .add _ address _ => address ∉ game.chats.map (·.address)
  | .remove _ => True

/-- Channels are at addresses of their own, the past knows their nodes, and no list has a readable node
twice. -/
structure Placed (game : GameChat) : Prop where
  nodup : (game.chats.map (·.address)).Nodup
  past : ∀ chat ∈ game.chats, ∀ slot ∈ chat.slots, slot ∈ game.past
  slots : ∀ chat ∈ game.chats, Unrepeated chat.slots

variable {game : GameChat}

/-- Where a channel stands among the others. -/
theorem Placed.split (h : game.Placed) {chat : Chat} (hc : chat ∈ game.chats) :
    ∃ before after, game.chats = before ++ chat :: after ∧
      (∀ c ∈ before ++ after, c.address ≠ chat.address) := by
  obtain ⟨before, after, hsplit⟩ := List.append_of_mem hc
  refine ⟨before, after, hsplit, fun c hmem he => ?_⟩
  have hnd := h.nodup
  rw [hsplit] at hnd
  have := (List.nodup_middle.mp (by simpa using hnd) : (chat.address :: (before.map (·.address) ++
    after.map (·.address))).Nodup)
  refine (List.nodup_cons.mp this).1 ?_
  rw [← List.map_append]
  exact he ▸ List.mem_map_of_mem hmem

/-- Changing the channel at one address leaves the others alone. -/
theorem map_at {before after : List Chat} {chat : Chat} {f : Chat → Chat}
    (h : ∀ c ∈ before ++ after, c.address ≠ chat.address) :
    (before ++ chat :: after).map (fun c => if c.address = chat.address then f c else c) =
      before ++ f chat :: after := by
  have hid : ∀ l : List Chat, (∀ c ∈ l, c.address ≠ chat.address) →
      l.map (fun c => if c.address = chat.address then f c else c) = l := by
    intro l hl
    refine (List.map_congr_left fun c hc => ?_).trans (List.map_id l)
    rw [if_neg (hl c hc), id]
  rw [List.map_append, List.map_cons, if_pos rfl, hid before fun c hc => h c (by simp [hc]),
    hid after fun c hc => h c (by simp [hc])]

/-- Every allowed change is a step of the game, or none. -/
theorem change_step (h : game.Placed) {c : ChatChange} (ha : game.Allows c) :
    game.change c = game ∨ Step game (game.change c) := by
  obtain ⟨chats, past⟩ := game
  cases c with
  | append address slot =>
    obtain ⟨hmem, hnew⟩ := ha
    obtain ⟨chat, hc, rfl⟩ := List.mem_map.mp hmem
    obtain ⟨before, after, hsplit, hothers⟩ := h.split hc
    simp only at hsplit
    subst hsplit
    right
    simp only [change, map_at hothers]
    exact .append hnew
  | trim address =>
    by_cases hmem : address ∈ chats.map (·.address)
    · obtain ⟨chat, hc, rfl⟩ := List.mem_map.mp hmem
      obtain ⟨before, after, hsplit, hothers⟩ := h.split hc
      simp only at hsplit
      subst hsplit
      simp only [change, map_at hothers]
      cases hs : chat.slots with
      | nil =>
        left
        cases chat
        simp_all
      | cons slot rest => exact .inr (.trim hs)
    · left
      simp only [change, mk.injEq, and_true]
      refine (List.map_congr_left fun c hc => ?_).trans (List.map_id chats)
      rw [if_neg, id]
      rintro rfl
      exact hmem (List.mem_map_of_mem hc)
  | add index address key =>
    right
    have hstep : Step ⟨chats.take index ++ chats.drop index, past⟩
        ⟨chats.take index ++ ⟨address, key, []⟩ :: chats.drop index, past⟩ := .add address key
    rwa [List.take_append_drop] at hstep
  | remove address =>
    by_cases hmem : address ∈ chats.map (·.address)
    · obtain ⟨chat, hc, rfl⟩ := List.mem_map.mp hmem
      obtain ⟨before, after, hsplit, hothers⟩ := h.split hc
      simp only at hsplit
      subst hsplit
      right
      have hf : (before ++ chat :: after).filter (fun c => decide (c.address ≠ chat.address)) =
          before ++ after := by
        have hself : ∀ l : List Chat, (∀ c ∈ l, c.address ≠ chat.address) →
            l.filter (fun c => decide (c.address ≠ chat.address)) = l := by
          intro l hl
          exact List.filter_eq_self.mpr fun c hc => by simpa using hl c hc
        rw [List.filter_append, List.filter_cons_of_neg (by simp),
          hself before fun c hc => hothers c (by simp [hc]),
          hself after fun c hc => hothers c (by simp [hc])]
      simp only [change, hf]
      exact .remove
    · left
      simp only [change, mk.injEq, and_true]
      refine List.filter_eq_self.mpr fun c hc => ?_
      simp only [decide_eq_true_eq]
      rintro rfl
      exact hmem (List.mem_map_of_mem hc)

theorem Placed.change (h : game.Placed) {c : ChatChange} (ha : game.Allows c) : (game.change c).Placed := by
  -- what keeps the addresses keeps them apart
  have hmap : ∀ (address : Nat) (f : Chat → Chat), (∀ chat, (f chat).address = chat.address) →
      (game.chats.map fun chat => if chat.address = address then f chat else chat).map (·.address) =
        game.chats.map (·.address) := by
    intro address f hf
    rw [List.map_map]
    refine List.map_congr_left fun chat _ => ?_
    simp only [Function.comp_apply]
    split
    · exact hf chat
    · rfl
  cases c with
  | append address slot =>
    obtain ⟨-, hnew⟩ := ha
    refine ⟨?_, ?_, ?_⟩
    · have := hmap address (fun chat => { chat with slots := chat.slots ++ [slot] }) fun _ => rfl
      exact this ▸ h.nodup
    · intro chat hc s hs
      obtain ⟨old, hold, rfl⟩ := List.mem_map.mp hc
      split at hs
      · rcases List.mem_append.mp hs with hs | hs
        · exact List.mem_cons_of_mem _ (h.past old hold s hs)
        · exact List.mem_cons.mpr (.inl (List.mem_singleton.mp hs))
      · exact List.mem_cons_of_mem _ (h.past old hold s hs)
    · intro chat hc
      obtain ⟨old, hold, rfl⟩ := List.mem_map.mp hc
      split
      · refine List.pairwise_append.mpr ⟨h.slots old hold, List.pairwise_singleton _ _, ?_⟩
        intro a hmem b hb hline he
        obtain rfl := List.mem_singleton.mp hb
        exact hnew hline (he ▸ h.past old hold a hmem)
      · exact h.slots old hold
  | trim address =>
    refine ⟨?_, ?_, ?_⟩
    · have := hmap address (fun chat => { chat with slots := chat.slots.tail }) fun _ => rfl
      exact this ▸ h.nodup
    · intro chat hc s hs
      obtain ⟨old, hold, rfl⟩ := List.mem_map.mp hc
      split at hs
      · exact h.past old hold s (List.mem_of_mem_tail hs)
      · exact h.past old hold s hs
    · intro chat hc
      obtain ⟨old, hold, rfl⟩ := List.mem_map.mp hc
      split
      · exact (h.slots old hold).sublist (List.tail_sublist _)
      · exact h.slots old hold
  | add index address key =>
    have hmem : ∀ chat ∈ (game.change (.add index address key)).chats,
        chat = ⟨address, key, []⟩ ∨ chat ∈ game.chats := by
      intro chat hc
      rcases List.mem_append.mp hc with hc | hc
      · exact .inr (List.mem_of_mem_take hc)
      · exact (List.mem_cons.mp hc).imp id List.mem_of_mem_drop
    refine ⟨?_, ?_, ?_⟩
    · have hnd := h.nodup
      rw [← List.take_append_drop index game.chats, List.map_append] at hnd
      simp only [GameChat.change, List.map_append, List.map_cons]
      refine List.nodup_middle.mpr (List.nodup_cons.mpr ⟨?_, hnd⟩)
      rw [← List.map_append, List.take_append_drop]
      exact ha
    · intro chat hc s hs
      rcases hmem chat hc with rfl | hc
      · cases hs
      · exact h.past chat hc s hs
    · intro chat hc
      rcases hmem chat hc with rfl | hc
      · exact List.Pairwise.nil
      · exact h.slots chat hc
  | remove address =>
    refine ⟨h.nodup.sublist (List.filter_sublist.map _), fun chat hc => ?_, fun chat hc => ?_⟩
    · exact h.past chat (List.mem_of_mem_filter hc)
    · exact h.slots chat (List.mem_of_mem_filter hc)

/-- A channel that is there before and after a change has some last of its nodes and the appended one. -/
theorem Placed.change_at (h : game.Placed) {c : ChatChange} (ha : game.Allows c) {chat chat' : Chat}
    (hc : chat ∈ game.chats) (hc' : chat' ∈ (game.change c).chats) (haddr : chat'.address = chat.address) :
    chat'.key = chat.key ∧ chat'.slots <:+ chat.slots ++ c.appended chat.address := by
  have hinj : ∀ old ∈ game.chats, old.address = chat.address → old = chat := fun old hold he =>
    List.inj_on_of_nodup_map h.nodup hold hc he
  cases c with
  | append address slot =>
    obtain ⟨old, hold, rfl⟩ := List.mem_map.mp hc'
    split at haddr
    · rename_i hat
      obtain rfl := hinj old hold haddr
      simp [hat, ChatChange.appended]
    · rename_i hat
      obtain rfl := hinj old hold haddr
      simp [hat, ChatChange.appended, Ne.symm hat]
  | trim address =>
    obtain ⟨old, hold, rfl⟩ := List.mem_map.mp hc'
    split at haddr
    · rename_i hat
      obtain rfl := hinj old hold haddr
      simp [hat, ChatChange.appended, List.tail_suffix]
    · rename_i hat
      obtain rfl := hinj old hold haddr
      simp [hat, ChatChange.appended]
  | add index address key =>
    rcases List.mem_append.mp hc' with hc' | hc'
    · obtain rfl := hinj chat' (List.mem_of_mem_take hc') haddr
      simp [ChatChange.appended]
    · rcases List.mem_cons.mp hc' with rfl | hc'
      · exact absurd (List.mem_map.mpr ⟨chat, hc, haddr.symm⟩) ha
      · obtain rfl := hinj chat' (List.mem_of_mem_drop hc') haddr
        simp [ChatChange.appended]
  | remove address =>
    obtain rfl := hinj chat' (List.mem_of_mem_filter hc') haddr
    simp [ChatChange.appended]

/-- The game remembers what it appends, and it is new. -/
theorem change_past {c : ChatChange} (ha : game.Allows c) (address : Nat) {native : List Slot}
    (hn : Unrepeated native) (hp : native ⊆ game.past) :
    Unrepeated (native ++ c.appended address) ∧
      native ++ c.appended address ⊆ (game.change c).past := by
  cases c with
  | append place slot =>
    simp only [ChatChange.appended]
    split
    · refine ⟨List.pairwise_append.mpr ⟨hn, List.pairwise_singleton _ _, ?_⟩, ?_⟩
      · intro a hmem b hb hline he
        obtain rfl := List.mem_singleton.mp hb
        exact ha.2 hline (he ▸ hp hmem)
      · refine List.append_subset.mpr ⟨fun s hs => List.mem_cons_of_mem _ (hp hs), ?_⟩
        simp [GameChat.change]
    · rw [List.append_nil]
      exact ⟨hn, fun s hs => List.mem_cons_of_mem _ (hp hs)⟩
  | _ =>
    simp only [ChatChange.appended, List.append_nil]
    exact ⟨hn, hp⟩

/-- A game that remembers less can do no less. -/
theorem Step.mono {game' : GameChat} (h : Step game game') {past : List Slot} (hp : past ⊆ game.past) :
    ∃ past' ⊆ game'.past, Step ⟨game.chats, past⟩ ⟨game'.chats, past'⟩ := by
  cases h with
  | @append before after chat old slot hnew =>
    exact ⟨slot :: past, List.cons_subset_cons _ hp, .append fun hline hmem => hnew hline (hp hmem)⟩
  | trim hslots => exact ⟨past, hp, .trim hslots⟩
  | add address key => exact ⟨past, hp, .add address key⟩
  | remove => exact ⟨past, hp, .remove⟩

end GameChat

/-! ## Plays -/

/-- Where a session finds the chat of its account, which does not change. -/
structure Target where
  base : Nat
  size : Nat
  login : Nat

/-- What chat acquisition gives; a pending batch is published without another reading. -/
def ChatSession.reading (session : ChatSession) (target : Target) (memory : ProcessMemory)
    (retryAt : Duration) : ChatReading :=
  match session.pendingChat with
  | some _ => .read none
  | none =>
    match readChat memory target.base target.size target.login session.chatHistory with
    | .ok history => .read history
    | .error _ => .failed retryAt

/-- A session and the game that it observes. -/
structure Play where
  run : ChatRun
  game : GameChat

inductive PlayMove where
  | change (c : ChatChange)
  | poll (due : Bool) (memory : ProcessMemory) (now retryAt : Duration) (account : String)
      (localName : Option String) (refused : Option ProviderError)
  | completed (committed : Bool)

namespace Play

def step (target : Target) (play : Play) : PlayMove → Play
  | .change c => { play with game := play.game.change c }
  | .poll due memory now retryAt account localName refused =>
    let chat := if due then play.run.session.reading target memory retryAt else .absent
    { play with run := play.run.step (.publish now account chat localName refused) }
  | .completed committed => { play with run := play.run.step (.completed committed) }

/-- The game changes as it may, and a reading that succeeds is of memory that holds its lists. -/
def Allows (target : Target) (play : Play) : PlayMove → Prop
  | .change c => play.game.Allows c
  | .poll due memory _ _ _ _ _ =>
    due = true → play.run.session.pendingChat = none →
      (∃ error, readChat memory target.base target.size target.login play.run.session.chatHistory =
        .error error) ∨
      ∃ stands, Holds memory target.base target.size target.login play.game stands
  | .completed _ => True

def start (game : GameChat) : Play := { run := .start, game }

end Play

/-- The history was read from an earlier state of the game. -/
def Stems (target : Target) (history : History) (game : GameChat) : Prop :=
  ∃ memory cached past,
    readChat memory target.base target.size target.login cached = .ok (some history) ∧
      past ⊆ game.past ∧
      Relation.ReflTransGen GameChat.Step (GameChat.of history) ⟨game.chats, past⟩

section Stems

variable {target : Target} {history : History} {game : GameChat} {memory : ProcessMemory}
  {stands : List Stand}

theorem Stems.distinct (h : Stems target history game) : history.Distinct := by
  obtain ⟨_, _, _, hread, -⟩ := h
  exact readChat_distinct hread

theorem Stems.change (h : Stems target history game) (hg : game.Placed) {c : ChatChange}
    (ha : game.Allows c) : Stems target history (game.change c) := by
  obtain ⟨memory, cached, past, hread, hpast, hsteps⟩ := h
  rcases GameChat.change_step hg ha with hsame | hstep
  · rw [hsame]
    exact ⟨memory, cached, past, hread, hpast, hsteps⟩
  · obtain ⟨past', hpast', hstep'⟩ := hstep.mono hpast
    exact ⟨memory, cached, past', hread, hpast', hsteps.tail hstep'⟩

/-- A history that is read now. -/
theorem Stems.read {cached : Option History} (hg : game.Placed)
    (hread : readChat memory target.base target.size target.login cached = .ok (some history))
    (hholds : Holds memory target.base target.size target.login game stands) :
    Stems target history game := by
  have hchats := readChat_chats hread hholds
  refine ⟨memory, cached, (GameChat.of history).past, hread, fun slot hs => ?_, ?_⟩
  · obtain ⟨channel, hc, hs⟩ := List.mem_flatMap.mp hs
    exact hg.past channel.chat (hchats ▸ List.mem_map_of_mem hc) slot hs
  · rw [← hchats]
    exact .refl

/-- A retained history that is found unchanged is what the lists are now. -/
theorem Stems.unchanged (h : Stems target history game)
    (hholds : Holds memory target.base target.size target.login game stands)
    (hexit : readChat memory target.base target.size target.login (some history) = .ok none) :
    history.channels.map Channel.chat = game.chats := by
  obtain ⟨memory₁, cached, past, hread, -, hsteps⟩ := h
  have hholds' : Holds memory target.base target.size target.login ⟨game.chats, past⟩ stands :=
    hholds.of_chats rfl
  exact readChat_chats (readChat_unchanged hread hsteps hholds' hexit).1 hholds

end Stems

namespace Play

variable {target : Target} {play : Play}

/-- What a play keeps. -/
structure Ok (target : Target) (play : Play) : Prop where
  placed : play.game.Placed
  run : play.run.Ok
  history : ∀ history, play.run.session.chatHistory = some history → Stems target history play.game
  pending : ∀ pending history, play.run.session.pendingChat = some pending →
    pending.history = some history → Stems target history play.game

/-- The batch was prepared from what the lists are. -/
structure Fresh (target : Target) (play : Play) (account : String) (localName : Option String)
    (pending : PendingChat) (current : History) : Prop where
  stems : ∀ history, pending.history = some history → Stems target history play.game
  history : pending.history.or play.run.session.chatHistory = some current
  distinct : current.Distinct
  chats : current.channels.map Channel.chat = play.game.chats
  prepared : ∃ updates, play.run.session.chatCursor.prepare current localName =
      .ok (pending.cursor, updates, pending.more) ∧
    pending.events = updates.map fun update => ⟨account, update⟩

/-- A poll that finds no batch pending prepares one from what the lists are. -/
theorem Ok.batch (ok : Ok target play) {memory : ProcessMemory} {now retryAt : Duration}
    {account : String} {localName : Option String} {refused : Option ProviderError}
    (ha : play.Allows target (.poll true memory now retryAt account localName refused))
    {history : Option History} {pending : PendingChat} (hnone : play.run.session.pendingChat = none)
    (hread : play.run.session.reading target memory retryAt = .read history)
    (hb : play.run.session.batch account history localName = .ok pending) :
    ∃ current, play.Fresh target account localName pending current := by
  rcases ChatSession.batch_ok hb with hsome | ⟨-, current, cursor, updates, more, hcur, hprep, rfl⟩
  · rw [hnone] at hsome
    cases hsome
  simp only [ChatSession.reading, hnone] at hread
  split at hread
  · rename_i result hchat
    cases hread
    rcases ha rfl hnone with ⟨error, herr⟩ | ⟨stands, hholds⟩
    · rw [hchat] at herr
      cases herr
    cases history with
    | some history =>
      obtain rfl : history = current := by simpa using hcur
      refine ⟨history, ?_, rfl, readChat_distinct hchat, readChat_chats hchat hholds, updates,
        hprep, rfl⟩
      rintro _ ⟨rfl⟩
      exact .read ok.placed hchat hholds
    | none =>
      rw [Option.none_or] at hcur
      have hstems := ok.history current hcur
      rw [hcur] at hchat
      exact ⟨current, by simp, by rw [Option.none_or, hcur], hstems.distinct, hstems.unchanged hholds hchat,
        updates, hprep, rfl⟩
  · cases hread

/-- A poll commits nothing; if a batch becomes pending, it was prepared from what the lists are. -/
theorem Ok.poll_cases (ok : Ok target play) {memory : ProcessMemory} {now retryAt : Duration}
    {account : String} {localName : Option String} {refused : Option ProviderError} {due : Bool}
    (ha : play.Allows target (.poll due memory now retryAt account localName refused)) :
    let play' := play.step target (.poll due memory now retryAt account localName refused)
    play'.run.commits = play.run.commits ∧
      play'.run.session.chatCursor = play.run.session.chatCursor ∧
      play'.run.session.chatHistory = play.run.session.chatHistory ∧
      (play'.run.session.pendingChat = play.run.session.pendingChat ∨
        play.run.session.pendingChat = none ∧ ∃ pending current,
          play'.run.session.pendingChat = some pending ∧
          play.Fresh target account localName pending current) := by
  obtain ⟨hcur, hhist, hpend⟩ := play.run.session.publishChat_keeps now account
    (if due then play.run.session.reading target memory retryAt else .absent) localName refused
  refine ⟨rfl, hcur, hhist, ?_⟩
  rcases hpend with hsame | ⟨history, pending, hchat, hb, hnew⟩
  · exact .inl hsame
  · cases hp : play.run.session.pendingChat with
    | some old =>
      rw [ChatSession.batch, hp] at hb
      cases hb
      exact .inl hnew
    | none =>
      cases due with
      | false => cases hchat
      | true =>
        obtain ⟨current, hfresh⟩ := ok.batch ha hp hchat hb
        exact .inr ⟨rfl, pending, current, hnew, hfresh⟩

theorem Ok.start {game : GameChat} (h : game.Placed) : Ok target (.start game) where
  placed := h
  run := by
    have hnone : ∀ move ∈ ([] : List ChatMove), move.Acquired := List.forall_mem_nil _
    exact ChatRun.run_ok hnone
  history := by simp [Play.start, ChatRun.start, ChatSession.default]
  pending := by simp [Play.start, ChatRun.start, ChatSession.default]

theorem Ok.step (ok : Ok target play) {move : PlayMove} (ha : play.Allows target move) :
    Ok target (play.step target move) := by
  cases move with
  | change c =>
    exact ⟨ok.placed.change ha, ok.run, fun h hh => (ok.history h hh).change ok.placed ha,
      fun p h hp hh => (ok.pending p h hp hh).change ok.placed ha⟩
  | poll due memory now retryAt account localName refused =>
    obtain ⟨hcom, hcur, hhist, hpend⟩ := ok.poll_cases ha
    refine ⟨ok.placed, ⟨?_, ?_, ?_, ?_⟩, ?_, ?_⟩
    · exact hcom ▸ ok.run.chain
    · rw [hcur, hcom, ok.run.cursor]
    · rw [hhist]
      exact ok.run.keys
    · intro p hp
      rw [hhist, hcur]
      rcases hpend with hsame | ⟨-, pending, current, hnew, hfresh⟩
      · exact ok.run.pending p (hsame ▸ hp)
      · rw [hnew, Option.some.injEq] at hp
        subst hp
        obtain ⟨updates, hprep, hev⟩ := hfresh.prepared
        exact ⟨current, localName, updates, account, hfresh.history, hfresh.distinct.keys, hprep, hev⟩
    · rw [hhist]
      exact ok.history
    · intro p h hp hh
      rcases hpend with hsame | ⟨-, pending, current, hnew, hfresh⟩
      · exact ok.pending p h (hsame ▸ hp) hh
      · rw [hnew, Option.some.injEq] at hp
        exact hfresh.stems h (hp ▸ hh)
  | completed committed =>
    have hacquired : (ChatMove.completed committed).Acquired := trivial
    refine ⟨ok.placed, ok.run.step hacquired, ?_, ?_⟩
    · intro h hh
      rcases play.run.completed_cases committed with ⟨-, -, hhist, -⟩ | ⟨p, hp, -, hhist, -, -⟩
      · exact ok.history h (hhist ▸ hh)
      · simp only [Play.step, hhist] at hh
        rcases Option.or_eq_some_iff.mp hh with hh | ⟨-, hh⟩
        · exact ok.pending p h hp hh
        · exact ok.history h hh
    · intro p h hp hh
      rcases play.run.completed_cases committed with ⟨-, -, -, hpend⟩ | ⟨_, _, -, -, hpend, -⟩
      · exact ok.pending p h (hpend ▸ hp) hh
      · simp only [Play.step, hpend] at hp
        cases hp

/-- A batch that becomes pending was prepared from what the lists are. -/
theorem Ok.prepared (ok : Ok target play) {move : PlayMove} (ha : play.Allows target move)
    {pending : PendingChat} (hnone : play.run.session.pendingChat = none)
    (hp : (play.step target move).run.session.pendingChat = some pending) :
    ∃ account localName current, play.Fresh target account localName pending current := by
  cases move with
  | change c =>
    rw [Play.step, hnone] at hp
    cases hp
  | poll due memory now retryAt account localName refused =>
    obtain ⟨-, -, -, hsame | ⟨-, p, current, hnew, hfresh⟩⟩ := ok.poll_cases ha
    · rw [hp, hnone] at hsame
      cases hsame
    · obtain rfl : p = pending := Option.some.inj (hnew.symm.trans hp)
      exact ⟨account, localName, current, hfresh⟩
  | completed committed =>
    rcases play.run.completed_cases committed with ⟨-, -, -, hsame⟩ | ⟨_, -, -, -, hnew, -⟩
    · rw [Play.step, hsame, hnone] at hp
      cases hp
    · rw [Play.step, hnew] at hp
      cases hp

end Play

end Warframe
end WfObserver
