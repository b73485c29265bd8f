import WfObserver.Warframe.Chat.Acquisition
import WfObserver.Warframe.Chat.Batches

/-!
# The lists behind a history

A full read returns what the lists in memory hold: `History.Stored` says that the channels form a ring
behind the list's sentinel, the entries of each a ring behind the channel's own, and that every node reads
back as the history has it. `readHistory_stored` proves it of every history that `readHistory` returns,
together with what the cursor relies on (`History.Distinct`).
-/

namespace WfObserver
namespace Warframe

open ProviderSdk
open Fallible

/-- A node of an entry list and its contents, without its links. -/
structure Line where
  address : Nat
  role : Nat
  sender : String
  text : String
  gameTime : Option ChatTime
  deriving DecidableEq, Repr

def Entry.line (entry : Entry) : Line :=
  { address := entry.address, role := entry.role, sender := entry.sender, text := entry.text,
    gameTime := entry.gameTime }

/-- The sentinel of a channel's entries lies inside the channel. -/
def Channel.sentinel (channel : Channel) : Nat := channel.address + Facts.channelEntries

/-- The entries of a channel form a ring behind its sentinel. -/
def Channel.Linked (channel : Channel) : Prop :=
  Ring.Closed Entry.address Entry.links channel.sentinel channel.entries

/-- A channel without its entries. -/
def Channel.header (channel : Channel) : Channel := { channel with entries := [] }

/-- The list node of a channel reads back. -/
structure Channel.HeaderStored (reader : TargetReader) (channel : Channel) : Prop where
  node : Warframe.links reader channel.address = .ok channel.links
  key : readString reader channel.address Facts.channelName 128 = .ok channel.key
  sentinel : reader.objectAddress channel.address Facts.channelEntries 16 = .ok channel.sentinel
  entries : Warframe.links reader channel.sentinel = .ok channel.entryLinks

structure Channel.Stored (reader : TargetReader) (channel : Channel) : Prop
    extends Channel.HeaderStored reader channel where
  linked : channel.Linked
  ends : channel.entryLinks = ⟨Ring.first Entry.address channel.entries channel.sentinel,
    Ring.last Entry.address channel.sentinel channel.entries⟩
  nodes : ∀ entry ∈ channel.entries, readEntry reader entry.address = .ok entry

structure History.Stored (reader : TargetReader) (sentinel : Nat) (history : History) : Prop where
  ring : Ring.Closed Channel.address Channel.links sentinel history.channels
  head : links reader sentinel = .ok ⟨Ring.first Channel.address history.channels sentinel,
    Ring.last Channel.address sentinel history.channels⟩
  channels : ∀ channel ∈ history.channels, channel.Stored reader

/-! ## Channels -/

variable {reader : TargetReader} {sentinel : Nat}

theorem readHeader_ok {channels : List Channel} {current previous : Nat} {channel : Channel}
    (h : readHeader reader channels current previous = .ok channel) :
    channel.address = current ∧ channel.links.previous = previous ∧ channel.entries = [] ∧
      (∀ c ∈ channels, c.key ≠ channel.key) ∧ channel.HeaderStored reader := by
  simp only [readHeader, bind_eq_ok, ite_eq_ok, pure_eq_ok, not_not, List.any_eq_true, beq_iff_eq,
    not_exists, not_and] at h
  obtain ⟨node, hnode, hprev, key, hkey, hnew, s, hs, entryLinks, hlinks, rfl⟩ := h
  have hsent := TargetReader.objectAddress_eq hs
  subst hsent
  exact ⟨rfl, hprev, rfl, hnew, hnode, hkey, hs, hlinks⟩

/-- What the walk along the channels found. -/
structure Walked (reader : TargetReader) (sentinel previous last : Nat) (before found : List Channel) :
    Prop where
  seg : Ring.Seg Channel.address Channel.links previous found sentinel
  last_eq : last = Ring.last Channel.address previous found
  addresses : ((before ++ found).map (·.address)).Nodup
  keys : ((before ++ found).map (·.key)).Nodup
  headers : ∀ channel ∈ found, channel.address ≠ sentinel ∧ channel.entries = [] ∧
    channel.HeaderStored reader

theorem headersFrom_ok {fuel current previous last : Nat} {before channels : List Channel}
    (h : headersFrom reader sentinel fuel current previous before = .ok (channels, last))
    (ha : (before.map (·.address)).Nodup) (hk : (before.map (·.key)).Nodup) :
    ∃ found, channels = before ++ found ∧ found.length ≤ fuel ∧
      current = Ring.first Channel.address found sentinel ∧
      Walked reader sentinel previous last before found := by
  induction fuel generalizing current previous before with
  | zero =>
    simp only [headersFrom] at h
    split at h
    · cases h
      rename_i hc
      exact ⟨[], by simp, le_rfl, hc, trivial, rfl, by simpa using ha, by simpa using hk, by simp⟩
    · cases h
  | succ fuel ih =>
    simp only [headersFrom] at h
    split at h
    · cases h
      rename_i hc
      exact ⟨[], by simp, by simp, hc, trivial, rfl, by simpa using ha, by simpa using hk, by simp⟩
    · rename_i hc
      simp only [ite_eq_ok, bind_eq_ok, List.any_eq_true, beq_iff_eq, not_exists, not_and] at h
      obtain ⟨hseen, channel, hread, h⟩ := h
      obtain ⟨rfl, hprev, hempty, hnew, hstored⟩ := readHeader_ok hread
      have hnodup : ∀ {κ : Type} (f : Channel → κ), (before.map f).Nodup →
          (∀ c ∈ before, f c ≠ f channel) → ((before ++ [channel]).map f).Nodup := by
        intro κ f hf hne
        rw [List.map_append, List.nodup_append]
        refine ⟨hf, by simp, ?_⟩
        simpa using hne
      obtain ⟨found, rfl, hlen, hnext, r⟩ := ih h (hnodup _ ha hseen) (hnodup _ hk hnew)
      refine ⟨channel :: found, by simp, by simpa using hlen, rfl, ⟨?_, r.seg⟩, r.last_eq,
        by simpa using r.addresses, by simpa using r.keys, ?_⟩
      · rw [← hnext, ← hprev]
      · rintro a (_ | ⟨_, ha⟩)
        · exact ⟨hc, hempty, hstored⟩
        · exact r.headers a ha

/-- A successful read of the headers found the whole ring of channels. -/
theorem headers_ok {channels : List Channel} (h : headers reader sentinel = .ok channels) :
    channels.length ≤ maxChannels ∧ (channels.map (·.key)).Nodup ∧
      Ring.Closed Channel.address Channel.links sentinel channels ∧
      links reader sentinel = .ok ⟨Ring.first Channel.address channels sentinel,
        Ring.last Channel.address sentinel channels⟩ ∧
      ∀ channel ∈ channels, channel.entries = [] ∧ channel.HeaderStored reader := by
  simp only [headers, bind_eq_ok, ite_eq_ok, pure_eq_ok, not_not] at h
  obtain ⟨head, hhead, ⟨channels, last⟩, hwalk, hlast, -, -, -, rfl⟩ := h
  obtain ⟨found, rfl, hlen, hnext, r⟩ := headersFrom_ok hwalk (by simp) (by simp)
  have ha := r.addresses
  have hk := r.keys
  simp only [List.nil_append] at *
  refine ⟨hlen, hk, ⟨r.seg, List.nodup_cons.mpr ⟨?_, ha⟩⟩, ?_, fun c hc => (r.headers c hc).2⟩
  · intro hmem
    obtain ⟨c, hc, he⟩ := List.mem_map.mp hmem
    exact (r.headers c hc).1 he
  · rw [hhead, ← hnext, ← r.last_eq, ← hlast]

/-! ## Entries -/

theorem readEntry_address {address : Nat} {entry : Entry}
    (h : readEntry reader address = .ok entry) : entry.address = address := by
  simp only [readEntry, bind_eq_ok, ite_eq_ok, pure_eq_ok] at h
  obtain ⟨-, -, -, -, -, -, -, -, -, -, -, -, -, -, -, rfl⟩ := h
  rfl

theorem readEntry_links {address : Nat} {entry : Entry}
    (h : readEntry reader address = .ok entry) : links reader address = .ok entry.links := by
  simp only [readEntry, bind_eq_ok, ite_eq_ok, pure_eq_ok] at h
  obtain ⟨_, hlinks, -, -, -, -, -, -, -, -, -, -, -, -, -, rfl⟩ := h
  exact hlinks

/-- What the walk along a channel's entries found. -/
structure Gathered (reader : TargetReader) (sentinel : Nat) (walk walk' : Walk) (found : List Entry) :
    Prop where
  entries : walk'.entries = walk.entries ++ found
  seg : Ring.Seg Entry.address Entry.links walk.previous found sentinel
  last_eq : walk'.previous = Ring.last Entry.address walk.previous found
  addresses : (walk'.entries.map (·.address)).Nodup
  nodes : ∀ entry ∈ found, entry.address ≠ sentinel ∧ readEntry reader entry.address = .ok entry

theorem entriesFrom_ok {fuel current : Nat} {walk walk' : Walk}
    (h : entriesFrom reader sentinel fuel current walk = .ok walk')
    (ha : (walk.entries.map (·.address)).Nodup) :
    ∃ found, current = Ring.first Entry.address found sentinel ∧
      Gathered reader sentinel walk walk' found := by
  induction fuel generalizing current walk with
  | zero =>
    simp only [entriesFrom] at h
    split at h
    · cases h
      rename_i hc
      exact ⟨[], hc, by simp, trivial, rfl, ha, by simp⟩
    · cases h
  | succ fuel ih =>
    simp only [entriesFrom] at h
    split at h
    · cases h
      rename_i hc
      exact ⟨[], hc, by simp, trivial, rfl, ha, by simp⟩
    · rename_i hc
      simp only [ite_eq_ok, bind_eq_ok, List.any_eq_true, beq_iff_eq, not_exists, not_and,
        not_not] at h
      obtain ⟨-, hseen, entry, hread, hprev, -, h⟩ := h
      obtain rfl := readEntry_address hread
      have hnodup : ((walk.entries ++ [entry]).map (·.address)).Nodup := by
        rw [List.map_append, List.nodup_append]
        refine ⟨ha, by simp, ?_⟩
        simpa using hseen
      obtain ⟨found, hnext, r⟩ := ih h hnodup
      refine ⟨entry :: found, rfl, by simpa using r.entries, ⟨?_, r.seg⟩, r.last_eq, r.addresses, ?_⟩
      · rw [← hnext, ← hprev]
      · rintro a (_ | ⟨_, ha⟩)
        · exact ⟨hc, hread⟩
        · exact r.nodes a ha

/-- Filling a channel reads its whole ring of entries. -/
theorem fillChannel_ok {filled filled' : Filled} {channel : Channel}
    (hempty : channel.entries = []) (hstored : channel.HeaderStored reader)
    (h : fillChannel reader filled channel = .ok filled') :
    ∃ full, filled'.channels = filled.channels ++ [full] ∧ full.header = channel ∧
      full.Stored reader := by
  simp only [fillChannel, bind_eq_ok, ite_eq_ok, pure_eq_ok, not_not, hstored.sentinel,
    Except.ok.injEq, exists_eq_left'] at h
  obtain ⟨walk, hwalk, hprev, rfl⟩ := h
  obtain ⟨found, hnext, r⟩ := entriesFrom_ok hwalk (by simp [hempty])
  have hentries := r.entries
  have haddr := r.addresses
  simp only [hempty, List.nil_append] at hentries
  subst hentries
  refine ⟨{ channel with entries := walk.entries }, rfl, ?_, ?_⟩
  · cases channel
    simp_all [Channel.header]
  · refine ⟨⟨hstored.node, hstored.key, hstored.sentinel, hstored.entries⟩,
      ⟨r.seg, List.nodup_cons.mpr ⟨?_, haddr⟩⟩, ?_, fun e he => (r.nodes e he).2⟩
    · intro hmem
      obtain ⟨e, he, hs⟩ := List.mem_map.mp hmem
      exact (r.nodes e he).1 hs
    · have hlast := r.last_eq
      simp only at hlast
      simp only [Channel.sentinel] at *
      rw [← hnext, ← hlast, hprev]

theorem fillChannels_ok {channels : List Channel} {filled filled' : Filled}
    (hstored : ∀ channel ∈ channels, channel.entries = [] ∧ channel.HeaderStored reader)
    (h : channels.foldlM (fillChannel reader) filled = .ok filled') :
    ∃ full, filled'.channels = filled.channels ++ full ∧ full.map Channel.header = channels ∧
      ∀ channel ∈ full, channel.Stored reader := by
  induction channels generalizing filled with
  | nil =>
    obtain rfl : filled = filled' := by simpa using h
    exact ⟨[], by simp, rfl, by simp⟩
  | cons channel channels ih =>
    obtain ⟨u, hu, h⟩ := foldlM_cons_eq_ok.mp h
    obtain ⟨hempty, hheader⟩ := hstored channel (by simp)
    obtain ⟨full, hfull, hhead, hst⟩ := fillChannel_ok hempty hheader hu
    obtain ⟨rest, hrest, hheads, hsts⟩ := ih (fun c hc => hstored c (List.mem_cons_of_mem _ hc)) h
    refine ⟨full :: rest, by simp [hrest, hfull], by simp [hhead, hheads], ?_⟩
    rintro c (_ | ⟨_, hc⟩)
    · exact hst
    · exact hsts c hc

/-! ## Histories -/

/-- A full read returns a history that memory stores, fit for the cursor. -/
theorem readHistory_stored {history : History} (h : readHistory reader sentinel = .ok history) :
    history.Stored reader sentinel ∧ history.Distinct := by
  simp only [readHistory, bind_eq_ok] at h
  obtain ⟨channels, hheaders, filled, hfill, again, -, h⟩ := h
  obtain rfl : { channels := filled.channels } = history := by
    split at h
    · simpa using h
    · cases h
  obtain ⟨hlen, hkeys, hring, hhead, hstored⟩ := headers_ok hheaders
  obtain ⟨full, hfull, rfl, hst⟩ := fillChannels_ok hstored hfill
  simp only [List.nil_append] at hfull
  rw [List.map_map] at hkeys
  rw [Ring.closed_map] at hring
  rw [Ring.first_map, Ring.last_map] at hhead
  rw [hfull]
  exact ⟨⟨hring, hhead, hst⟩, by simpa using hlen, hkeys,
    fun c hc => (List.nodup_cons.mp (hst c hc).linked.nodup).2⟩

end Warframe
end WfObserver
