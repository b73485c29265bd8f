import WfObserver.Warframe.Chat.Lists

/-!
# When a retained anchor is lost

The cursor knows its anchor again by its node, its contents and the node before it
(`Entry.sameOccurrence`). Appending entries changes none of these. Trimming the entry right before the
anchor changes the last, so that the anchor counts as lost although it is still there: `prepare_follows`
is exact.
-/

namespace WfObserver
namespace Warframe

open ProviderSdk
open Fallible

theorem Entry.sameOccurrence_iff {e e' : Entry} :
    e.sameOccurrence e' = true ↔ e.line = e'.line ∧ e.links.previous = e'.links.previous := by
  simp only [sameOccurrence, line, Bool.and_eq_true, beq_iff_eq, Line.mk.injEq]
  tauto

/-- The anchor is at its place in the old list. In the new one some of the entries before it are gone,
and others follow at the end. -/
structure Evolved (old new : Channel) (anchor : Entry) (before kept after appended : List Line) : Prop where
  old : old.entries.map Entry.line = before ++ anchor.line :: after
  new : new.entries.map Entry.line = kept ++ anchor.line :: (after ++ appended)
  kept : kept.Sublist before

theorem Entry.map_line_address (entries : List Entry) :
    (entries.map Entry.line).map Line.address = entries.map Entry.address := by
  rw [List.map_map]
  rfl

/-- Cuts a list of entries where its contents are cut. -/
theorem split_lines {entries : List Entry} {l r : List Line} {x : Line}
    (h : entries.map Entry.line = l ++ x :: r) :
    ∃ l' e r', entries = l' ++ e :: r' ∧ l'.map Entry.line = l ∧ e.line = x ∧
      r'.map Entry.line = r := by
  obtain ⟨l', s, rfl, hl, hs⟩ := List.map_eq_append_iff.mp h
  obtain ⟨e, r', rfl, he, hr⟩ := List.map_eq_cons_iff.mp hs
  exact ⟨l', e, r', rfl, hl, he, hr⟩

/-- Lines at different addresses are told apart by their addresses. -/
theorem getLast?_address_iff {kept before : List Line} (hk : kept.Sublist before)
    (hnd : (before.map Line.address).Nodup) :
    (kept.map Line.address).getLast? = (before.map Line.address).getLast? ↔
      kept.getLast? = before.getLast? := by
  rw [List.getLast?_map, List.getLast?_map]
  refine ⟨fun h => ?_, fun h => by rw [h]⟩
  cases hl : kept.getLast? with
  | none =>
    rw [hl, Option.map_none, eq_comm, Option.map_eq_none_iff] at h
    exact h.symm
  | some x =>
    rw [hl, Option.map_some, eq_comm, Option.map_eq_some_iff] at h
    obtain ⟨y, hy, hxy⟩ := h
    have hx : x ∈ before := hk.subset (List.mem_of_getLast? hl)
    rw [hy, List.inj_on_of_nodup_map hnd (List.mem_of_getLast? hy) hx hxy]

variable {old new : Channel} {anchor : Entry} {before kept after appended : List Line}

/-- The anchor is known again if and only if the entry right before it was not trimmed. -/
theorem Evolved.pendingAfter (h : Evolved old new anchor before kept after appended)
    (haddr : new.address = old.address) (ho : old.Linked) (hn : new.Linked)
    (ha : ∃ entry ∈ old.entries, entry.sameOccurrence anchor = true) :
    Warframe.pendingAfter (some anchor) new.entries =
      if kept.getLast? = before.getLast? then some (new.entries.drop (kept.length + 1)) else none := by
  obtain ⟨b, a, r, hold, hb, hal, -⟩ := split_lines h.old
  obtain ⟨k, a', r', hnew, hk, hal', -⟩ := split_lines h.new
  have hsent : new.sentinel = old.sentinel := by rw [Channel.sentinel, Channel.sentinel, haddr]
  unfold Channel.Linked at ho hn
  rw [hold] at ho
  rw [hnew, hsent] at hn
  -- the committed anchor is the entry of the old list that still has its contents
  have hprev : anchor.links.previous = Ring.last Entry.address old.sentinel b := by
    obtain ⟨e, he, hsame⟩ := ha
    obtain ⟨hline, hp⟩ := Entry.sameOccurrence_iff.mp hsame
    rw [hold] at he
    have : e = a := ho.addr_inj he (by simp) (by
      have := congrArg Line.address (hline.trans hal.symm)
      exact this)
    rw [← hp, this]
    exact ho.seg.previous_eq
  have hprev' : a'.links.previous = Ring.last Entry.address old.sentinel k := hn.seg.previous_eq
  have hkb : (k.map Entry.address).Sublist (b.map Entry.address) := by
    rw [← Entry.map_line_address, ← Entry.map_line_address, hk, hb]
    exact h.kept.map _
  have hiff : a'.sameOccurrence anchor = true ↔ kept.getLast? = before.getLast? := by
    have hnd : (before.map Line.address).Nodup := by
      rw [← hb, Entry.map_line_address]
      exact (List.nodup_cons.mp ho.nodup).2.sublist (by simp)
    rw [Entry.sameOccurrence_iff, hal', hprev, hprev', ho.last_trimmed hkb,
      ← Entry.map_line_address, ← Entry.map_line_address, hk, hb, getLast?_address_iff h.kept hnd]
    simp
  have hne : ∀ x ∈ k, x.address ≠ a'.address := by
    have := (List.nodup_cons.mp hn.nodup).2
    rw [List.map_append, List.nodup_append] at this
    exact fun x hx he => this.2.2 _ (List.mem_map_of_mem hx) _ (by simp) he
  split
  · rename_i hc
    have hlen : kept.length = k.length := by rw [← hk, List.length_map]
    rw [hnew, pendingAfter_eq (hiff.mpr hc) hne, hlen]
    simp [List.drop_append]
  · rename_i hc
    have hnone : ∀ x ∈ new.entries, x.sameOccurrence anchor = false := by
      intro x hx
      by_contra hs
      have hs := Bool.eq_true_of_not_eq_false hs
      rw [hnew] at hx
      have : x = a' := hn.addr_inj hx (by simp) ((Entry.sameOccurrence_address hs).trans
        (congrArg Line.address hal').symm)
      exact hc (hiff.mp (this ▸ hs))
    simp [Warframe.pendingAfter, List.findIdx?_eq_none_iff.mpr hnone]

namespace ChatCursor

variable {cursor₀ cursor next : ChatCursor} {committed history : History}
  {name₀ localName : Option String} {updates₀ updates : List ChatUpdate} {more₀ more : Bool}
  {id : Channel → String} {channel : Channel} {position : Position}

/-- The anchor of a committed position is one of the channel's entries. -/
theorem Prepared.anchored (h : Prepared cursor₀ committed name₀ cursor updates₀ more₀ id)
    (hc : channel ∈ committed.channels) (hp : cursor.previous channel = some position)
    (ha : position.anchor = some anchor) :
    ∃ entry ∈ channel.entries, entry.sameOccurrence anchor = true := by
  rw [h.previous channel hc, Option.some.injEq] at hp
  subst hp
  simp only [anchorAfter] at ha
  split at ha
  · exact ⟨anchor, List.mem_of_getLast? ha, anchor.sameOccurrence_self⟩
  · rename_i hne
    rw [not_or] at hne
    obtain ⟨es, hes⟩ := Option.ne_none_iff_exists'.mp hne.2
    obtain ⟨m, hm⟩ := Option.ne_none_iff_exists'.mp hne.1
    have hpend : Warframe.pendingAfter ((cursor₀.previous channel).bind (·.anchor)) channel.entries =
        some es := by simpa [awaiting, hm] using hes
    rcases Option.or_eq_some_iff.mp ha with hlast | ⟨-, hold⟩
    · refine ⟨anchor, ?_, anchor.sameOccurrence_self⟩
      have hmem := List.mem_of_mem_take (List.mem_of_getLast? hlast)
      rw [hes] at hmem
      exact (pendingAfter_suffix hpend).subset hmem
    · rw [hold] at hpend
      obtain ⟨l, e, hsplit, hsame⟩ := pendingAfter_split hpend
      exact ⟨e, by simp [hsplit], hsame⟩

theorem visits_prefix {n : Nat} {channels : List Channel} {t t' : Turns}
    (h : channels.foldlM (cursor.visit n localName) t = .ok t') : t.updates <+: t'.updates := by
  induction channels generalizing t with
  | nil =>
    obtain rfl : t = t' := by simpa using h
    exact List.prefix_rfl
  | cons channel channels ih =>
    obtain ⟨u, hu, h⟩ := foldlM_cons_eq_ok.mp h
    obtain ⟨i, m, -, rfl⟩ := visit_ok hu
    exact (List.prefix_append _ _).trans (ih h)

/-- Between two committed readings of a channel, `prepare` delivers the entries behind the anchor if and
only if the entry right before the anchor was not trimmed. -/
theorem prepare_follows (hcommit : cursor₀.prepare committed name₀ = .ok (cursor, updates₀, more₀))
    (hkeys : (committed.channels.map (·.key)).Nodup)
    (hprep : cursor.prepare history localName = .ok (next, updates, more))
    (hold : old ∈ committed.channels) (hnew : new ∈ history.channels) (hkey : new.key = old.key)
    (haddr : new.address = old.address) (ho : old.Linked) (hn : new.Linked)
    (hpos : cursor.previous old = some position) (hanchor : position.anchor = some anchor)
    (hev : Evolved old new anchor before kept after appended) :
    ∃ earlier later t t', history.channels = earlier ++ new :: later ∧
      earlier.foldlM (cursor.visit history.allowance localName) cursor.start = .ok t ∧
      cursor.visit history.allowance localName t new = .ok t' ∧ t'.updates <+: updates ∧
      (t'.updates = t.updates ++ ((new.entries.drop (kept.length + 1)).take history.allowance).map
          (fun entry => .message (Layout.message entry new.key position.conversationId localName)) ↔
        kept.getLast? = before.getLast?) := by
  obtain ⟨id, hp⟩ := prepare_ok hkeys hcommit
  obtain ⟨earlier, later, hsplit⟩ := List.append_of_mem hnew
  simp only [prepare, bind_eq_ok, pure_eq_ok, Prod.mk.injEq] at hprep
  obtain ⟨end', hfold, rfl, rfl, rfl⟩ := hprep
  rw [hsplit] at hfold
  obtain ⟨t, ht, hfold⟩ := foldlM_append_eq_ok.mp hfold
  obtain ⟨t', ht', hfold⟩ := foldlM_cons_eq_ok.mp hfold
  refine ⟨earlier, later, t, t', hsplit, ht, ht', visits_prefix hfold, ?_⟩
  have hprev : cursor.previous new = some position := by
    rw [← hpos, previous, previous, hkey, haddr]
  have hawait : cursor.awaiting new =
      if kept.getLast? = before.getLast? then some (new.entries.drop (kept.length + 1)) else none := by
    obtain ⟨m, hm⟩ := Option.ne_none_iff_exists'.mp hp.present
    simp only [awaiting, hm, hprev, Option.bind_some, hanchor]
    exact hev.pendingAfter haddr ho hn (hp.anchored hold hpos hanchor)
  obtain ⟨i, m, hname, rfl⟩ := visit_ok ht'
  obtain rfl : i = position.conversationId := by
    rcases hname with ⟨p, hp', rfl, -⟩ | ⟨hnone, -⟩
    · rw [hprev, Option.some.injEq] at hp'
      rw [hp']
    · rw [hprev] at hnone
      cases hnone
  simp only [List.append_cancel_left_eq, told, delivered, hawait]
  split
  · rename_i hc
    simp [hc]
  · rename_i hc
    simp only [if_true, hc, iff_false]
    intro heq
    have := congrArg List.head? heq
    rw [List.head?_map] at this
    cases hh : (List.take history.allowance (List.drop (kept.length + 1) new.entries)).head? <;>
      simp [hh] at this

/-! A region channel at 0x10000, its entries behind the sentinel 0x10028. -/

def regionChannel (entryLinks : Links) (entries : List Entry) : Channel :=
  { address := 0x10000, links := ⟨0x8, 0x8⟩, key := "#G_EN", entryLinks, entries }

def regionEntry (address next previous : Nat) (text : String) : Entry :=
  { address, links := ⟨next, previous⟩, role := 0, sender := "Alice", text, gameTime := none }

/-- Two entries. -/
def committedRegion : Channel := regionChannel ⟨0x100, 0x200⟩
  [regionEntry 0x100 0x200 0x10028 "a", regionEntry 0x200 0x10028 0x100 "b"]

/-- A third was appended. -/
def appendedRegion : Channel := regionChannel ⟨0x100, 0x300⟩
  [regionEntry 0x100 0x200 0x10028 "a", regionEntry 0x200 0x300 0x100 "b",
    regionEntry 0x300 0x10028 0x200 "c"]

/-- The first was trimmed, too. -/
def trimmedRegion : Channel := regionChannel ⟨0x200, 0x300⟩
  [regionEntry 0x200 0x300 0x10028 "b", regionEntry 0x300 0x10028 0x200 "c"]

/-- The cursor whose baseline is `committedRegion`, anchored at its second entry. -/
def regionCursor : ChatCursor where
  positions := some (OrdMap.empty.insert "#G_EN"
    { channelAddress := 0x10000, conversationId := "c1",
      anchor := some (regionEntry 0x200 0x10028 0x100 "b") })
  nextConversation := 1

theorem prepare_follows_appended : ∃ t t',
    regionCursor.visit 32 none t appendedRegion = .ok t' ∧ t'.updates = t.updates ++
      [.message (Layout.message (regionEntry 0x300 0x10028 0x200 "c") "#G_EN" "c1" none)] := by
  have hcommit : default.prepare ⟨[committedRegion]⟩ none = .ok (regionCursor, [], false) := rfl
  obtain ⟨_, hprep⟩ : ∃ r, regionCursor.prepare ⟨[appendedRegion]⟩ none = .ok r := ⟨_, rfl⟩
  have ho : committedRegion.Linked := ⟨⟨rfl, rfl, trivial⟩, by decide⟩
  have hn : appendedRegion.Linked := ⟨⟨rfl, rfl, rfl, trivial⟩, by decide⟩
  have hev : Evolved committedRegion appendedRegion (regionEntry 0x200 0x10028 0x100 "b")
      [(regionEntry 0x100 0x200 0x10028 "a").line] [(regionEntry 0x100 0x200 0x10028 "a").line] []
      [(regionEntry 0x300 0x10028 0x200 "c").line] := ⟨rfl, rfl, List.Sublist.refl _⟩
  obtain ⟨_, _, t, t', -, -, hvisit, -, hiff⟩ := prepare_follows hcommit (by decide) hprep
    (List.mem_singleton_self _) (List.mem_singleton_self _) rfl rfl ho hn rfl rfl hev
  exact ⟨t, t', hvisit, hiff.mpr rfl⟩

/-- The anchor is still in the list, now as its first node, and yet a gap is reported. -/
theorem prepare_gap_retained :
    (default.prepare ⟨[committedRegion]⟩ none = .ok (regionCursor, [], false)) ∧
      committedRegion.Linked ∧ trimmedRegion.Linked ∧
      Evolved committedRegion trimmedRegion (regionEntry 0x200 0x10028 0x100 "b")
        [(regionEntry 0x100 0x200 0x10028 "a").line] [] []
        [(regionEntry 0x300 0x10028 0x200 "c").line] ∧
      ∃ next, regionCursor.prepare ⟨[trimmedRegion]⟩ none = .ok (next, [.gap .region], false) :=
  ⟨rfl, ⟨⟨rfl, rfl, trivial⟩, by decide⟩, ⟨⟨rfl, rfl, trivial⟩, by decide⟩,
    ⟨rfl, rfl, List.nil_sublist _⟩, _, rfl⟩

end ChatCursor

end Warframe
end WfObserver
