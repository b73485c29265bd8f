import Mathlib.Logic.Relation
import WfObserver.Warframe.Chat.Lists

/-!
# The unchanged exit of `readChat`

Between two reads the game appends entries, trims them at the head and adds and removes channels
(`GameChat.Step`); a node may be reused, but not with the contents of an earlier one. If then the list
heads and the tail entries are those of the retained history, nothing happened to the lists: the tail is
the old tail, so nothing was appended behind it, and the head is the old head, so nothing was trimmed
(`Retained`, `slots_eq`). `readChat_unchanged` concludes that a full read returns the retained
history.
-/

namespace WfObserver
namespace Warframe

open ProviderSdk
open Fallible

/-! ## What the game does -/

/-- A node of an entry list; `line` is what reading it gives, if it can be read. -/
structure Slot where
  address : Nat
  line : Option Line
  deriving DecidableEq, Repr

/-- A channel of the game, without links. -/
structure Chat where
  address : Nat
  key : String
  slots : List Slot
  deriving DecidableEq, Repr

/-- The chat of the game, and all nodes that its lists ever had. -/
structure GameChat where
  chats : List Chat
  past : List Slot
  deriving DecidableEq, Repr

inductive GameChat.Step : GameChat → GameChat → Prop where
  /-- The new node is none of the earlier ones with the same contents. -/
  | append {before after : List Chat} {chat : Chat} {past : List Slot} {slot : Slot}
      (hnew : slot.line ≠ none → slot ∉ past) :
      Step ⟨before ++ chat :: after, past⟩
        ⟨before ++ { chat with slots := chat.slots ++ [slot] } :: after, slot :: past⟩
  | trim {before after : List Chat} {chat : Chat} {past rest : List Slot} {slot : Slot}
      (hslots : chat.slots = slot :: rest) :
      Step ⟨before ++ chat :: after, past⟩ ⟨before ++ { chat with slots := rest } :: after, past⟩
  | add {before after : List Chat} {past : List Slot} (address : Nat) (key : String) :
      Step ⟨before ++ after, past⟩ ⟨before ++ ⟨address, key, []⟩ :: after, past⟩
  | remove {before after : List Chat} {chat : Chat} {past : List Slot} :
      Step ⟨before ++ chat :: after, past⟩ ⟨before ++ after, past⟩

def Entry.slot (entry : Entry) : Slot := { address := entry.address, line := some entry.line }

def Channel.chat (channel : Channel) : Chat :=
  { address := channel.address, key := channel.key, slots := channel.entries.map Entry.slot }

/-- The chat that a history was read from. -/
def GameChat.of (history : History) : GameChat where
  chats := history.channels.map Channel.chat
  past := history.channels.flatMap fun channel => channel.entries.map Entry.slot

/-! ## What memory holds -/

def Line.entry (line : Line) (links : Links) : Entry :=
  { address := line.address, links, role := line.role, sender := line.sender, text := line.text,
    gameTime := line.gameTime }

/-- A channel as it stands in memory, with the links of its entry nodes. -/
structure Stand where
  header : Channel
  nodes : List (Slot × Links)

def Stand.chat (stand : Stand) : Chat :=
  { address := stand.header.address, key := stand.header.key, slots := stand.nodes.map (·.1) }

structure Stand.Held (reader : TargetReader) (stand : Stand) : Prop where
  header : stand.header.HeaderStored reader
  ring : Ring.Closed (fun node : Slot × Links => node.1.address) (·.2) stand.header.sentinel stand.nodes
  ends : stand.header.entryLinks =
    ⟨Ring.first (fun node : Slot × Links => node.1.address) stand.nodes stand.header.sentinel,
      Ring.last (fun node : Slot × Links => node.1.address) stand.header.sentinel stand.nodes⟩
  links : ∀ node ∈ stand.nodes, Warframe.links reader node.1.address = .ok node.2
  reads : ∀ node ∈ stand.nodes, (readEntry reader node.1.address).toOption =
    node.1.line.map fun line => line.entry node.2

/-- The memory of the game behind the profile data at `login`. -/
structure Holds (memory : ProcessMemory) (base size login : Nat) (game : GameChat)
    (stands : List Stand) : Prop where
  ring : Ring.Closed (fun stand : Stand => stand.header.address) (·.header.links)
    (login + Facts.channels) stands
  head : links ⟨memory, base, size, readLimits⟩ (login + Facts.channels) =
    .ok ⟨Ring.first (fun stand : Stand => stand.header.address) stands (login + Facts.channels),
      Ring.last (fun stand : Stand => stand.header.address) (login + Facts.channels) stands⟩
  held : ∀ stand ∈ stands, stand.Held ⟨memory, base, size, readLimits⟩
  chats : stands.map Stand.chat = game.chats

/-! ## What stays of a history -/

/-- What is left of the channels of a history: of each some of its last nodes, and behind them nodes that
it did not have. -/
structure Retained (history : History) (game : GameChat) : Prop where
  past : ∀ slot ∈ (GameChat.of history).past, slot ∈ game.past
  chats : ∀ chat ∈ game.chats, ∃ kept added, chat.slots = kept ++ added ∧
    (∀ slot ∈ added, slot ∉ (GameChat.of history).past) ∧
    (kept ≠ [] → ∃ channel ∈ history.channels, channel.address = chat.address ∧
      kept <:+ channel.entries.map Entry.slot)

theorem Retained.refl (history : History) : Retained history (GameChat.of history) where
  past _ h := h
  chats chat hc := by
    obtain ⟨channel, hmem, rfl⟩ := List.mem_map.mp hc
    exact ⟨_, [], (List.append_nil _).symm, by simp, fun _ => ⟨channel, hmem, rfl, List.suffix_rfl⟩⟩

theorem Retained.step {history : History} {game game' : GameChat} (h : Retained history game)
    (hs : GameChat.Step game game') : Retained history game' := by
  -- one chat is replaced, the others stay
  have hother : ∀ {before after : List Chat} {chat chat' : Chat},
      (∀ c ∈ before ++ chat :: after, c ∈ game.chats) → ∀ c ∈ before ++ chat' :: after,
        c = chat' ∨ c ∈ game.chats := by
    intro before after chat chat' hmem c hc
    rcases List.mem_append.mp hc with hc | hc
    · exact .inr (hmem c (by simp [hc]))
    · rcases List.mem_cons.mp hc with rfl | hc
      · exact .inl rfl
      · exact .inr (hmem c (by simp [hc]))
  cases hs with
  | @append before after chat past slot hnew =>
    refine ⟨fun s hs => List.mem_cons_of_mem _ (h.past s hs), fun c hc => ?_⟩
    rcases hother (fun _ hm => hm) c hc with rfl | hc
    · obtain ⟨kept, added, hslots, hadded, hkept⟩ := h.chats chat (by simp)
      refine ⟨kept, added ++ [slot], by simp [hslots], ?_, hkept⟩
      intro s hs hold
      rcases List.mem_append.mp hs with hs | hs
      · exact hadded s hs hold
      · obtain rfl := List.mem_singleton.mp hs
        refine hnew ?_ (h.past s hold)
        obtain ⟨_, -, hmem⟩ := List.mem_flatMap.mp hold
        obtain ⟨entry, -, rfl⟩ := List.mem_map.mp hmem
        exact Option.some_ne_none _
    · exact h.chats c hc
  | @trim before after chat past rest slot hslots =>
    refine ⟨h.past, fun c hc => ?_⟩
    rcases hother (fun _ hm => hm) c hc with rfl | hc
    · obtain ⟨kept, added, hsplit, hadded, hkept⟩ := h.chats chat (by simp)
      rw [hslots] at hsplit
      cases kept with
      | nil =>
        rw [List.nil_append] at hsplit
        subst hsplit
        exact ⟨[], rest, rfl, fun s hs => hadded s (List.mem_cons_of_mem _ hs), by simp⟩
      | cons x kept =>
        simp only [List.cons_append, List.cons.injEq] at hsplit
        refine ⟨kept, added, hsplit.2, hadded, fun hne => ?_⟩
        obtain ⟨channel, hmem, haddr, hsuffix⟩ := hkept (by simp)
        exact ⟨channel, hmem, haddr, (List.suffix_cons x kept).trans hsuffix⟩
    · exact h.chats c hc
  | @add before after past address key =>
    refine ⟨h.past, fun c hc => ?_⟩
    rcases List.mem_append.mp hc with hc | hc
    · exact h.chats c (by simp [hc])
    · rcases List.mem_cons.mp hc with rfl | hc
      · exact ⟨[], [], rfl, by simp, by simp⟩
      · exact h.chats c (by simp [hc])
  | @remove before after chat past =>
    refine ⟨h.past, fun c hc => h.chats c ?_⟩
    rcases List.mem_append.mp hc with hc | hc <;> simp [hc]

theorem Retained.run {history : History} {game : GameChat}
    (h : Relation.ReflTransGen GameChat.Step (GameChat.of history) game) : Retained history game := by
  induction h with
  | refl => exact .refl history
  | tail _ hs ih => exact ih.step hs

/-! ## Comparing what memory holds with a retained history -/

variable {reader : TargetReader} {sentinel : Nat} {history : History}

theorem Channel.HeaderStored.header_eq {a b : Channel} (ha : a.HeaderStored reader)
    (hb : b.HeaderStored reader) (h : a.address = b.address) : a.header = b.header := by
  obtain ⟨aaddr, alinks, akey, aentryLinks, aentries⟩ := a
  obtain ⟨baddr, blinks, bkey, bentryLinks, bentries⟩ := b
  obtain ⟨an, ak, -, ae⟩ := ha
  obtain ⟨bn, bk, -, be⟩ := hb
  simp only at h
  subst h
  simp only [Channel.sentinel] at *
  rw [an, Except.ok.injEq] at bn
  rw [ak, Except.ok.injEq] at bk
  rw [ae, Except.ok.injEq] at be
  simp [Channel.header, bn, bk, be]

/-- Equal headers of channels without entries. -/
theorem Channel.sameHeader_iff {a b : Channel} : a.sameHeader b = true ↔ a.header = b.header := by
  cases a
  cases b
  simp [sameHeader, header, and_assoc]

theorem sameHeaders_iff {first second : List Channel} :
    sameHeaders first second = true ↔ first.map Channel.header = second.map Channel.header := by
  induction first generalizing second with
  | nil => cases second <;> simp [sameHeaders]
  | cons a first ih =>
    cases second with
    | nil => simp [sameHeaders]
    | cons b second =>
      have := @ih second
      simp only [sameHeaders, List.length_cons, List.zip_cons_cons, List.all_cons, Bool.and_eq_true,
        beq_iff_eq, Nat.add_right_cancel_iff, List.map_cons, List.cons.injEq,
        ← Channel.sameHeader_iff] at this ⊢
      tauto

theorem sameTails_ok {channels : List Channel} {same : Bool}
    (h : channels.foldlM (sameTail reader) same = .ok true) :
    same = true ∧ ∀ channel ∈ channels, ∀ tail, channel.entries.getLast? = some tail →
      readEntry reader tail.address = .ok tail := by
  induction channels generalizing same with
  | nil => simpa using h
  | cons channel channels ih =>
    obtain ⟨u, hu, h⟩ := foldlM_cons_eq_ok.mp h
    obtain ⟨rfl, hrest⟩ := ih h
    unfold sameTail at hu
    split at hu
    · rename_i tail htail
      simp only [bind_eq_ok, pure_eq_ok, Bool.and_eq_true, beq_iff_eq] at hu
      obtain ⟨entry, hread, hsame, rfl⟩ := hu
      refine ⟨hsame, ?_⟩
      rintro c (_ | ⟨_, hc⟩) t ht
      · rw [htail, Option.some.injEq] at ht
        exact ht ▸ hread
      · exact hrest c hc t ht
    · rename_i hnone
      refine ⟨pure_eq_ok.mp hu, ?_⟩
      rintro c (_ | ⟨_, hc⟩) t ht
      · rw [hnone] at ht
        cases ht
      · exact hrest c hc t ht

/-- What `unchanged` checked. -/
theorem unchanged_ok {first : List Channel} (h : unchanged reader sentinel first (some history) = .ok true) :
    first.map Channel.header = history.channels.map Channel.header ∧
      ∀ channel ∈ history.channels, ∀ tail, channel.entries.getLast? = some tail →
        readEntry reader tail.address = .ok tail := by
  simp only [unchanged] at h
  split at h
  · rename_i hsame
    refine ⟨sameHeaders_iff.mp hsame, ?_⟩
    simp only [bind_eq_ok] at h
    obtain ⟨same, hfold, h⟩ := h
    obtain rfl : same = true := by
      by_contra hne
      simp [hne] at h
    exact (sameTails_ok hfold).2
  · cases h

theorem Entry.entry_line (entry : Entry) : entry.line.entry entry.links = entry := rfl

theorem Line.line_entry (line : Line) (links : Links) : (line.entry links).line = line := rfl

/-- With the same head and the same tail, what is retained of a list is all of it. -/
theorem slots_eq {entries : List Entry} {nodes : List (Slot × Links)} {s : Nat}
    (he : Ring.Closed Entry.address Entry.links s entries)
    (hn : Ring.Closed (fun node : Slot × Links => node.1.address) (·.2) s nodes)
    (hfirst : Ring.first Entry.address entries s =
      Ring.first (fun node : Slot × Links => node.1.address) nodes s)
    (hlast : Ring.last Entry.address s entries =
      Ring.last (fun node : Slot × Links => node.1.address) s nodes)
    (hreads : ∀ node ∈ nodes, (readEntry reader node.1.address).toOption =
      node.1.line.map fun line => line.entry node.2)
    (htail : ∀ tail, entries.getLast? = some tail → readEntry reader tail.address = .ok tail)
    {kept added : List Slot} (hsplit : nodes.map (·.1) = kept ++ added)
    (hadded : ∀ slot ∈ added, slot ∉ entries.map Entry.slot)
    (hkept : kept ≠ [] → kept <:+ entries.map Entry.slot) :
    nodes.map (·.1) = entries.map Entry.slot := by
  rcases List.eq_nil_or_concat' entries with rfl | ⟨ys, tail, rfl⟩
  · rw [hn.first_eq.mp hfirst.symm]
    rfl
  rcases List.eq_nil_or_concat' nodes with rfl | ⟨zs, n, rfl⟩
  · rw [Ring.last_concat, Ring.last_nil] at hlast
    exact absurd hlast (he.addr_ne (by simp))
  -- the last node is the old tail
  have hslot : n.1 = tail.slot := by
    rw [Ring.last_concat, Ring.last_concat] at hlast
    have hread := hreads n (by simp)
    rw [← hlast, htail tail (by simp), Except.toOption, eq_comm, Option.map_eq_some_iff] at hread
    obtain ⟨line, hline, htail⟩ := hread
    obtain ⟨⟨address, l⟩, links⟩ := n
    simp only [Entry.slot, Slot.mk.injEq] at hlast hline ⊢
    exact ⟨hlast.symm, by rw [hline, ← htail, Line.line_entry]⟩
  -- so nothing was appended behind it
  obtain rfl : added = [] := by
    rcases List.eq_nil_or_concat' added with rfl | ⟨as, a, rfl⟩
    · rfl
    · have : n.1 = a := by
        rw [List.map_append, List.map_singleton, ← List.append_assoc] at hsplit
        exact (List.append_inj' hsplit rfl).2 |> List.singleton_inj.mp
      refine absurd ?_ (hadded a (by simp))
      rw [← this, hslot]
      simp
  rw [List.append_nil] at hsplit
  have hne : kept ≠ [] := by
    rw [← hsplit]
    simp
  obtain ⟨pre, hpre⟩ := hkept hne
  -- and the head is the old head, so nothing was trimmed
  cases pre with
  | nil => rw [hsplit, ← hpre, List.nil_append]
  | cons x pre =>
    exfalso
    have hx : x.address = Ring.first Slot.address kept s :=
      calc x.address = Ring.first Slot.address ((ys ++ [tail]).map Entry.slot) s := by rw [← hpre]; rfl
        _ = Ring.first (fun node : Slot × Links => node.1.address) (zs ++ [n]) s := by
          rw [Ring.first_map]
          exact hfirst
        _ = Ring.first Slot.address ((zs ++ [n]).map (·.1)) s := Ring.first_map.symm
        _ = Ring.first Slot.address kept s := by rw [hsplit]
    have hnd : ((x :: pre ++ kept).map Slot.address).Nodup := by
      rw [hpre, List.map_map]
      exact (List.nodup_cons.mp he.nodup).2
    rw [List.cons_append, List.map_cons, List.nodup_cons, List.map_append, List.mem_append] at hnd
    exact hnd.1 (.inr (hx ▸ Ring.first_mem hne))

/-- A stand with the slots of a retained channel reads back as its entries. -/
theorem reads_back {entries : List Entry} {nodes : List (Slot × Links)} {s : Nat}
    (he : Ring.Closed Entry.address Entry.links s entries)
    (hn : Ring.Closed (fun node : Slot × Links => node.1.address) (·.2) s nodes)
    (hreads : ∀ node ∈ nodes, (readEntry reader node.1.address).toOption =
      node.1.line.map fun line => line.entry node.2)
    (hslots : nodes.map (·.1) = entries.map Entry.slot) :
    ∀ entry ∈ entries, readEntry reader entry.address = .ok entry := by
  have hlinks : nodes.map (·.2) = entries.map Entry.links := by
    refine Ring.Seg.links_eq hn.seg he.seg ?_
    have := congrArg (List.map Slot.address) hslots
    simpa [List.map_map, Function.comp_def, Entry.slot] using this
  have hnodes : nodes = entries.map fun entry => (entry.slot, entry.links) :=
    calc nodes = (nodes.map (·.1)).zip (nodes.map (·.2)) := by rw [List.zip_map']; simp
      _ = entries.map fun entry => (entry.slot, entry.links) := by
        rw [hslots, hlinks, List.zip_map']
  intro entry hmem
  have hread := hreads (entry.slot, entry.links) (hnodes ▸ List.mem_map_of_mem hmem)
  simp only [Entry.slot, Option.map_some, Entry.entry_line] at hread
  cases hr : readEntry reader entry.address with
  | error e => simp [hr, Except.toOption] at hread
  | ok e =>
    simp only [hr, Except.toOption, Option.some.injEq] at hread
    rw [hread]

/-! ## Reading again -/

variable {reader' : TargetReader}

/-- A walk over entries that read back elsewhere goes the same way there. -/
theorem entriesFrom_again {fuel current : Nat} {walk walk' : Walk}
    (h : entriesFrom reader sentinel fuel current walk = .ok walk')
    (hreads : ∀ entry ∈ walk'.entries, readEntry reader' entry.address = .ok entry) :
    walk.entries <+: walk'.entries ∧ entriesFrom reader' sentinel fuel current walk = .ok walk' := by
  induction fuel generalizing current walk with
  | zero =>
    simp only [entriesFrom] at h ⊢
    split at h
    · rename_i hc
      cases h
      exact ⟨List.prefix_rfl, by rw [if_pos hc]⟩
    · cases h
  | succ fuel ih =>
    simp only [entriesFrom] at h ⊢
    split at h
    · rename_i hc
      cases h
      exact ⟨List.prefix_rfl, by rw [if_pos hc]⟩
    · rename_i hc
      simp only [ite_eq_ok, bind_eq_ok] at h
      obtain ⟨hcount, hseen, entry, hread, hprev, hbytes, h⟩ := h
      obtain ⟨hpre, h⟩ := ih h
      have hmem : entry ∈ walk'.entries := hpre.subset (by simp)
      have hread' := hreads entry hmem
      rw [readEntry_address hread] at hread'
      refine ⟨(List.prefix_append _ _).trans hpre, ?_⟩
      rw [if_neg hc, if_neg hcount, if_neg hseen, hread', ok_bind, if_neg hprev, if_neg hbytes, h]

/-- A channel whose entries read back elsewhere. -/
def Channel.Again (reader : TargetReader) (channel : Channel) : Prop :=
  reader.objectAddress channel.address Facts.channelEntries 16 = .ok channel.sentinel ∧
    ∀ entry ∈ channel.entries, readEntry reader entry.address = .ok entry

theorem fillChannel_again {filled filled' : Filled} {channel : Channel}
    (h : fillChannel reader filled channel = .ok filled')
    (hagain : ∀ c ∈ filled'.channels, c.Again reader') :
    filled.channels <+: filled'.channels ∧ fillChannel reader' filled channel = .ok filled' := by
  simp only [fillChannel, bind_eq_ok, ite_eq_ok, pure_eq_ok, not_not] at h
  obtain ⟨s, hs, walk, hwalk, hprev, rfl⟩ := h
  obtain ⟨haddr, hreads⟩ := hagain { channel with entries := walk.entries } (by simp)
  obtain rfl := TargetReader.objectAddress_eq hs
  obtain ⟨-, hwalk'⟩ := entriesFrom_again hwalk hreads
  refine ⟨List.prefix_append _ _, ?_⟩
  simp only [Channel.sentinel] at haddr
  rw [fillChannel, haddr, ok_bind, hwalk', ok_bind, if_neg (not_not.mpr hprev)]
  rfl

theorem fillChannels_again {channels : List Channel} {filled filled' : Filled}
    (h : channels.foldlM (fillChannel reader) filled = .ok filled')
    (hagain : ∀ c ∈ filled'.channels, c.Again reader') :
    filled.channels <+: filled'.channels ∧
      channels.foldlM (fillChannel reader') filled = .ok filled' := by
  induction channels generalizing filled with
  | nil =>
    obtain rfl : filled = filled' := by simpa using h
    exact ⟨List.prefix_rfl, List.foldlM_nil⟩
  | cons channel channels ih =>
    obtain ⟨u, hu, h⟩ := foldlM_cons_eq_ok.mp h
    obtain ⟨hpre, h⟩ := ih h
    obtain ⟨hpre', hu⟩ := fillChannel_again hu fun c hc => hagain c (hpre.subset hc)
    exact ⟨hpre'.trans hpre, foldlM_cons_eq_ok.mpr ⟨u, hu, h⟩⟩

/-- A history whose headers and entries read back elsewhere is what a full read returns there. -/
theorem readHistory_again {channels : List Channel} (h : readHistory reader sentinel = .ok history)
    (hheaders : headers reader' sentinel = .ok channels)
    (hsame : channels.map Channel.header = history.channels.map Channel.header)
    (hagain : ∀ c ∈ history.channels, c.Again reader') :
    readHistory reader' sentinel = .ok history := by
  simp only [readHistory, bind_eq_ok] at h
  obtain ⟨channels₁, hheaders₁, filled, hfill, again, -, h⟩ := h
  obtain rfl : { channels := filled.channels } = history := by
    split at h
    · simpa using h
    · cases h
  have hempty : ∀ {r : TargetReader} {l : List Channel}, headers r sentinel = .ok l →
      l.map Channel.header = l := by
    intro r l hl
    refine (List.map_congr_left fun c hc => ?_).trans (List.map_id l)
    obtain ⟨-, -, -, -, hst⟩ := headers_ok hl
    have := (hst c hc).1
    cases c
    simp_all [Channel.header]
  obtain ⟨-, -, -, -, hstored⟩ := headers_ok hheaders₁
  obtain ⟨full, hfull, hheads, -⟩ := fillChannels_ok hstored hfill
  simp only [List.nil_append] at hfull
  obtain rfl : channels = channels₁ := by
    rw [← hempty hheaders, hsame, hfull, hheads]
  obtain ⟨-, hfill'⟩ := fillChannels_again hfill hagain
  rw [readHistory, hheaders, ok_bind, hfill', ok_bind, ok_bind, if_pos (sameHeaders_iff.mpr hsame)]
  rfl

/-! ## The unchanged exit -/

variable {memory memory' : ProcessMemory} {base size login : Nat} {cached : Option History}
  {game : GameChat} {stands : List Stand}

/-- What precedes the walk, and what it decides. -/
theorem readChat_ok {result : Option History}
    (h : readChat memory base size login cached = .ok result) :
    let reader : TargetReader := ⟨memory, base, size, readLimits⟩
    TargetReader.new memory base size readLimits = .ok reader ∧
      reader.requireVtableSlotLe64 login Facts.handlerSlot Facts.handler "chat message handler" = .ok () ∧
      reader.objectAddress login Facts.channels 16 = .ok (login + Facts.channels) ∧
      ∃ first, headers reader (login + Facts.channels) = .ok first ∧
        match result with
        | some history => readHistory reader (login + Facts.channels) = .ok history
        | none => unchanged reader (login + Facts.channels) first cached = .ok true := by
  simp only [readChat, readStable_eq, bind_eq_ok] at h
  obtain ⟨reader, hreader, ⟨⟩, hvtable, s, hs, first, hfirst, same, hsame, h⟩ := h
  obtain rfl := TargetReader.objectAddress_eq hs
  have hnew := hreader
  simp only [TargetReader.new, ite_eq_ok, bind_eq_ok, pure_eq_ok] at hnew
  obtain ⟨-, -, -, rfl⟩ := hnew
  refine ⟨hreader, hvtable, hs, first, hfirst, ?_⟩
  split at h
  · rename_i hb
    cases h
    exact hb ▸ hsame
  · obtain ⟨history, hread, h⟩ := bind_eq_ok.mp h
    cases h
    exact hread

/-- The first state: a history describes the memory it was read from. -/
theorem readChat_holds (h : readChat memory base size login cached = .ok (some history)) :
    ∃ stands, Holds memory base size login (GameChat.of history) stands := by
  obtain ⟨-, -, -, _, -, hread⟩ := readChat_ok h
  obtain ⟨⟨hring, hhead, hst⟩, -⟩ := readHistory_stored hread
  refine ⟨history.channels.map fun channel =>
    ⟨channel, channel.entries.map fun entry => (entry.slot, entry.links)⟩, ?_, ?_, ?_, ?_⟩
  · exact Ring.closed_map.mpr hring
  · rw [Ring.first_map, Ring.last_map]
    exact hhead
  · intro stand hs
    obtain ⟨channel, hc, rfl⟩ := List.mem_map.mp hs
    have hstored := hst channel hc
    refine ⟨hstored.toHeaderStored, Ring.closed_map.mpr hstored.linked, ?_, ?_, ?_⟩
    · rw [Ring.first_map, Ring.last_map]
      exact hstored.ends
    · intro node hn
      obtain ⟨entry, he, rfl⟩ := List.mem_map.mp hn
      exact readEntry_links (hstored.nodes entry he)
    · intro node hn
      obtain ⟨entry, he, rfl⟩ := List.mem_map.mp hn
      simp [Entry.slot, hstored.nodes entry he, Except.toOption, Entry.entry_line]
  · simp [Stand.chat, Channel.chat, GameChat.of, Function.comp_def]

/-- Memory does not tell what the lists had before. -/
theorem Holds.of_chats (h : Holds memory base size login game stands) {game' : GameChat}
    (hc : game'.chats = game.chats) : Holds memory base size login game' stands :=
  ⟨h.ring, h.head, h.held, h.chats.trans hc.symm⟩

/-- The channels that were read are the ones that stand in memory. -/
theorem Holds.addresses (h : Holds memory base size login game stands) {channels : List Channel}
    (hring : Ring.Closed Channel.address Channel.links (login + Facts.channels) channels)
    (hhead : links ⟨memory, base, size, readLimits⟩ (login + Facts.channels) =
      .ok ⟨Ring.first Channel.address channels (login + Facts.channels),
        Ring.last Channel.address (login + Facts.channels) channels⟩)
    (hst : ∀ channel ∈ channels, channel.HeaderStored ⟨memory, base, size, readLimits⟩) :
    channels.map Channel.address = stands.map fun stand => stand.header.address := by
  refine Ring.Closed.map_addr_eq (links ⟨memory, base, size, readLimits⟩) Except.ok
    (fun _ _ => Except.ok.inj) hring h.ring (fun c hc => (hst c hc).node)
    (fun stand hs => (h.held stand hs).header.node) ?_
  have := hhead.symm.trans h.head
  simp only [Except.ok.injEq, Ring.Links.mk.injEq] at this
  exact this.1

/-- Every retained channel still stands in memory if the headers are those of the history. -/
theorem Holds.stand (h : Holds memory base size login game stands) {first : List Channel}
    (hheaders : headers ⟨memory, base, size, readLimits⟩ (login + Facts.channels) = .ok first)
    (hsame : first.map Channel.header = history.channels.map Channel.header) {channel : Channel}
    (hc : channel ∈ history.channels) :
    ∃ stand ∈ stands, stand.header.header = channel.header := by
  obtain ⟨-, -, hring, hhead, hst⟩ := headers_ok hheaders
  have hmap := h.addresses hring hhead fun c hc => (hst c hc).2
  -- the header that was read for the channel
  obtain ⟨c, hcf, hcc⟩ := List.mem_map.mp (hsame ▸ List.mem_map_of_mem hc)
  obtain ⟨stand, hs, hsc⟩ := List.mem_map.mp (hmap ▸ List.mem_map_of_mem hcf)
  exact ⟨stand, hs, ((h.held stand hs).header.header_eq (hst c hcf).2 hsc).trans hcc⟩

/-- If `readChat` finds a retained history unchanged, a full read gives that history. -/
theorem readChat_unchanged (hread : readChat memory base size login cached = .ok (some history))
    (hsteps : Relation.ReflTransGen GameChat.Step (GameChat.of history) game)
    (hholds : Holds memory' base size login game stands)
    (hexit : readChat memory' base size login (some history) = .ok none) :
    readChat memory' base size login none = .ok (some history) ∧
      ∀ fresh, readChat memory' base size login none = .ok (some fresh) →
        ∀ (cursor : ChatCursor) (localName : Option String),
          cursor.prepare history localName = cursor.prepare fresh localName := by
  obtain ⟨-, -, -, _, -, hfull⟩ := readChat_ok hread
  obtain ⟨⟨hring, -, hst⟩, -⟩ := readHistory_stored hfull
  obtain ⟨hnew, hvtable, hs, first, hfirst, hunchanged⟩ := readChat_ok hexit
  obtain ⟨hsame, htails⟩ := unchanged_ok hunchanged
  have hret := Retained.run hsteps
  have hagain : ∀ c ∈ history.channels, c.Again ⟨memory', base, size, readLimits⟩ := by
    intro c hc
    obtain ⟨stand, hstand, hhead⟩ := hholds.stand hfirst hsame hc
    obtain ⟨hheader, hnodes, hends, -, hreads⟩ := hholds.held stand hstand
    have haddr := congrArg Channel.address hhead
    simp only [Channel.header] at haddr
    have hsent : stand.header.sentinel = c.sentinel := by
      rw [Channel.sentinel, Channel.sentinel, haddr]
    have hlinks : c.header.entryLinks = stand.header.header.entryLinks :=
      (congrArg Channel.entryLinks hhead).symm
    simp only [Channel.header] at hlinks
    rw [hsent] at hnodes hends
    rw [(hst c hc).ends, hends, Ring.Links.mk.injEq] at hlinks
    obtain ⟨kept, added, hsplit, hadded, hkept⟩ := hret.chats stand.chat
      (hholds.chats ▸ List.mem_map_of_mem hstand)
    have hslots := slots_eq (hst c hc).linked hnodes hlinks.1 hlinks.2 hreads (htails c hc) hsplit
      (fun slot hslot hmem => hadded slot hslot (List.mem_flatMap.mpr ⟨c, hc, hmem⟩))
      (fun hne => by
        obtain ⟨c', hc', haddr', hsuffix⟩ := hkept hne
        rwa [hring.addr_inj hc' hc (haddr'.trans haddr)] at hsuffix)
    refine ⟨?_, reads_back (hst c hc).linked hnodes hreads hslots⟩
    rw [← hsent, ← haddr]
    exact hheader.sentinel
  have hagain := readHistory_again hfull hfirst hsame hagain
  have hfresh : readChat memory' base size login none = .ok (some history) := by
    rw [readChat, hnew, ok_bind, hvtable, ok_bind, hs, ok_bind, hfirst, ok_bind, unchanged, ok_bind,
      if_neg Bool.false_ne_true, readStable_eq, hagain, ok_bind]
    rfl
  refine ⟨hfresh, fun fresh h cursor localName => ?_⟩
  rw [hfresh, Except.ok.injEq, Option.some.injEq] at h
  rw [h]

/-! One channel at 0x3000000 with one entry at 0x4000000, all strings empty. -/

def systemWords : List (Nat × Nat) :=
  [(0x1000000, 0x2000000), (0x2000248, 0xf1f100),
    -- the channel list of the profile data at 0x1000000
    (0x1011ea8, 0x3000000), (0x1011eb0, 0x3000000),
    (0x3000000, 0x1011ea8), (0x3000008, 0x1011ea8), (0x3000020, 0x0f00000000000000),
    (0x3000028, 0x4000000), (0x3000030, 0x4000000),
    (0x4000000, 0x3000028), (0x4000008, 0x3000028), (0x4000020, 0x0f00000000000000),
    (0x4000030, 0x0f00000000000000), (0x4000040, 0x0f00000000000000)]

def systemMemory : ProcessMemory where
  readInto address n := .ok (Vector.ofFn fun i : Fin n =>
    let word := (systemWords.lookup ((address + i) / 8 * 8)).getD 0
    UInt8.ofNat (word / 256 ^ ((address + i) % 8)))

def systemEntry : Entry := ⟨0x4000000, ⟨0x3000028, 0x3000028⟩, 0, "", "", none⟩

def systemHistory : History :=
  ⟨[⟨0x3000000, ⟨0x1011ea8, 0x1011ea8⟩, "", ⟨0x4000000, 0x4000000⟩, [systemEntry]⟩]⟩

theorem systemHistory_read :
    readChat systemMemory 0x10000 0x1000000 0x1000000 none = .ok (some systemHistory) := by rfl

theorem systemHistory_same :
    readChat systemMemory 0x10000 0x1000000 0x1000000 (some systemHistory) = .ok none := by rfl

/-- A whisper comes and its channel is closed again. -/
theorem systemHistory_steps : ∃ past, Relation.ReflTransGen GameChat.Step (GameChat.of systemHistory)
    ⟨(GameChat.of systemHistory).chats ++ [], past⟩ := by
  let whisper : Slot := ⟨0x6000000, some ⟨0x6000000, 0, "Alice", "hello", none⟩⟩
  have hnew : whisper ∉ (GameChat.of systemHistory).past := by
    simp [whisper, GameChat.of, systemHistory, systemEntry, Entry.slot]
  generalize hchats : (GameChat.of systemHistory).chats = chats
  generalize hpast : (GameChat.of systemHistory).past = past at hnew
  have hstart : GameChat.of systemHistory = ⟨chats ++ [], past⟩ := by
    rw [List.append_nil, ← hchats, ← hpast]
  rw [hstart]
  exact ⟨_, ((Relation.ReflTransGen.single (.add 0x5000000 "Alice,Me")).tail
    (.append fun _ => hnew)).tail .remove⟩

theorem readChat_unchanged_whisper :
    readChat systemMemory 0x10000 0x1000000 0x1000000 none = .ok (some systemHistory) := by
  obtain ⟨past, hsteps⟩ := systemHistory_steps
  obtain ⟨stands, hholds⟩ := readChat_holds systemHistory_read
  exact (readChat_unchanged systemHistory_read hsteps (hholds.of_chats (List.append_nil _))
    systemHistory_same).1

end Warframe
end WfObserver
