import WfObserver.Warframe.Chat.Turns

/-!
# Batches of chat updates

After a turn the channel awaits what the turn left out (`awaiting_next`). Every entry is therefore
delivered once by repeated `prepare`s over an unchanged history, in the order of its channel, and each
of them stays within `maxEvents`.
-/

namespace WfObserver
namespace Warframe

open ProviderSdk (ReadError)

/-- What acquisition guarantees of channels and nodes: few channels under different keys, and the nodes
of each at different addresses. -/
structure History.Distinct (history : History) : Prop where
  bounded : history.channels.length ≤ maxChannels
  keys : (history.channels.map (·.key)).Nodup
  entries : ∀ channel ∈ history.channels, (channel.entries.map (·.address)).Nodup

/-! ## Finding the anchor again -/

@[simp] theorem Entry.sameOccurrence_self (e : Entry) : e.sameOccurrence e = true := by
  simp [sameOccurrence]

theorem Entry.sameOccurrence_address {e e' : Entry} (h : e.sameOccurrence e' = true) :
    e.address = e'.address := by
  simp only [sameOccurrence, Bool.and_eq_true, beq_iff_eq] at h
  exact h.1.1.1.1.1

/-- Entries at other addresses do not hide the anchor. -/
theorem pendingAfter_eq {l r : List Entry} {e anchor : Entry} (he : e.sameOccurrence anchor = true)
    (hl : ∀ x ∈ l, x.address ≠ e.address) : pendingAfter (some anchor) (l ++ e :: r) = some r := by
  have hno : ∀ x ∈ l, x.sameOccurrence anchor = false := by
    intro x hx
    by_contra hs
    have hs := Entry.sameOccurrence_address (Bool.eq_true_of_not_eq_false hs)
    exact hl x hx (hs.trans (Entry.sameOccurrence_address he).symm)
  have hfind : (l ++ e :: r).findIdx? (fun entry => entry.sameOccurrence anchor) = some l.length := by
    rw [List.findIdx?_append, List.findIdx?_eq_none_iff.mpr hno, List.findIdx?_cons, he]
    simp
  simp [pendingAfter, hfind, List.drop_append]

theorem pendingAfter_mem {entries l r : List Entry} {e : Entry} (h : entries = l ++ e :: r)
    (hnd : (entries.map (·.address)).Nodup) : pendingAfter (some e) entries = some r := by
  subst h
  refine pendingAfter_eq e.sameOccurrence_self fun x hx he => ?_
  rw [List.map_append, List.nodup_append] at hnd
  exact hnd.2.2 _ (List.mem_map_of_mem hx) _ (by simp) he

theorem pendingAfter_getLast? {entries : List Entry} (hnd : (entries.map (·.address)).Nodup) :
    pendingAfter entries.getLast? entries = some [] := by
  rcases List.eq_nil_or_concat' entries with rfl | ⟨l, e, rfl⟩
  · rfl
  · rw [List.getLast?_concat]
    exact pendingAfter_mem rfl hnd

/-- What awaits is the end of the channel's entries. -/
theorem pendingAfter_suffix {anchor : Option Entry} {entries pending : List Entry}
    (h : pendingAfter anchor entries = some pending) : pending <:+ entries := by
  unfold pendingAfter at h
  split at h
  · cases h
    exact List.suffix_rfl
  · obtain ⟨i, -, rfl⟩ := Option.map_eq_some_iff.mp h
    exact List.drop_suffix _ _

/-- What awaits is what follows the entry that is the anchor. -/
theorem pendingAfter_split {anchor : Entry} {entries pending : List Entry}
    (h : pendingAfter (some anchor) entries = some pending) :
    ∃ l e, entries = l ++ e :: pending ∧ e.sameOccurrence anchor = true := by
  obtain ⟨i, hi, rfl⟩ := Option.map_eq_some_iff.mp h
  obtain ⟨hlt, hsame, -⟩ := List.findIdx?_eq_some_iff_getElem.mp hi
  exact ⟨entries.take i, entries[i], by rw [← List.drop_eq_getElem_cons hlt, List.take_append_drop],
    hsame⟩

namespace ChatCursor

variable {cursor next : ChatCursor} {history : History} {localName : Option String}
  {updates : List ChatUpdate} {more : Bool} {id : Channel → String} {channel : Channel} {n : Nat}

/-- The anchor that a turn leaves points at what the turn left out. -/
theorem pendingAfter_anchorAfter (hnd : (channel.entries.map (·.address)).Nodup) :
    pendingAfter (cursor.anchorAfter n channel) channel.entries =
      some (((cursor.awaiting channel).getD []).drop n) := by
  unfold anchorAfter
  split
  · rename_i h
    rw [pendingAfter_getLast? hnd]
    rcases h with h | h
    · simp [awaiting, h]
    · simp [h]
  · rename_i h
    rw [not_or] at h
    obtain ⟨es, hes⟩ := Option.ne_none_iff_exists'.mp h.2
    have hpend : pendingAfter ((cursor.previous channel).bind (·.anchor)) channel.entries = some es := by
      obtain ⟨m, hm⟩ := Option.ne_none_iff_exists'.mp h.1
      simpa [awaiting, hm] using hes
    obtain ⟨l, hl⟩ := pendingAfter_suffix hpend
    simp only [delivered, hes, Option.getD_some]
    rcases List.eq_nil_or_concat' (es.take n) with hnil | ⟨ys, e, he⟩
    · -- nothing was delivered: the old anchor stays
      have hdrop := List.take_append_drop n es
      rw [hnil, List.nil_append] at hdrop
      rw [hnil, List.getLast?_nil, Option.none_or, hpend, hdrop]
    · rw [he, List.getLast?_concat, Option.some_or]
      refine pendingAfter_mem (l := l ++ ys) ?_ hnd
      calc channel.entries = l ++ (es.take n ++ es.drop n) := by rw [List.take_append_drop, hl]
        _ = l ++ ys ++ e :: es.drop n := by simp [he]

theorem Prepared.awaiting_next (hd : history.Distinct)
    (h : Prepared cursor history localName next updates more id) (hc : channel ∈ history.channels) :
    next.awaiting channel = some (((cursor.awaiting channel).getD []).drop history.allowance) := by
  obtain ⟨m, hm⟩ := Option.ne_none_iff_exists'.mp h.present
  simp only [awaiting, hm, h.previous channel hc, Option.bind_some]
  exact pendingAfter_anchorAfter (hd.entries channel hc)

/-! ## One batch -/

theorem allowance_pos (hd : history.Distinct) : 0 < history.allowance := by
  have := hd.bounded
  refine Nat.div_pos ?_ (by omega)
  simp only [maxEvents, maxChannels] at *
  omega

theorem channels_mul_allowance_le (history : History) :
    history.channels.length * history.allowance ≤ maxEvents :=
  calc history.channels.length * history.allowance
      ≤ max history.channels.length 1 * (maxEvents / max history.channels.length 1) :=
        Nat.mul_le_mul_right _ (le_max_left _ _)
    _ ≤ maxEvents := Nat.mul_div_le _ _

theorem told_length_le (hn : 0 < n) (i : String) :
    (cursor.told n localName i channel).length ≤ n := by
  unfold told delivered
  split
  · exact hn
  · simp

/-- A channel that awaits something gets an update. -/
theorem told_ne_nil (hn : 0 < n) {i : String} (h : cursor.awaiting channel ≠ some []) :
    cursor.told n localName i channel ≠ [] := by
  unfold told delivered
  split
  · simp
  · rename_i hne
    obtain ⟨es, hes⟩ := Option.ne_none_iff_exists'.mp hne
    simp only [hes, Option.getD_some, ne_eq, List.map_eq_nil_iff, List.take_eq_nil_iff, not_or]
    refine ⟨hn.ne', ?_⟩
    rintro rfl
    exact h hes

theorem Prepared.updates_length_le (hd : history.Distinct)
    (h : Prepared cursor history localName next updates more id) : updates.length ≤ maxEvents := by
  rw [h.updates, List.length_flatMap]
  calc _ ≤ (history.channels.map fun _ => history.allowance).sum :=
        List.sum_le_sum fun channel _ => told_length_le (allowance_pos hd) _
    _ = history.channels.length * history.allowance := by simp
    _ ≤ maxEvents := channels_mul_allowance_le history

/-- `more` tells exactly whether some channel still awaits an entry. -/
theorem Prepared.more_iff (hd : history.Distinct)
    (h : Prepared cursor history localName next updates more id) :
    more = true ↔ ∃ channel ∈ history.channels, next.awaiting channel ≠ some [] := by
  rw [h.more, List.any_eq_true]
  refine exists_congr fun channel => and_congr_right fun hc => ?_
  rw [h.awaiting_next hd hc]
  simp [leaves]

/-! ## Draining a history -/

/-- The `prepare`s from a cursor over one history, up to the first without `more`. -/
inductive Drains (history : History) (localName : Option String) :
    ChatCursor → List (ChatCursor × List ChatUpdate) → Prop where
  | done {cursor next : ChatCursor} {updates : List ChatUpdate}
      (h : cursor.prepare history localName = .ok (next, updates, false)) :
      Drains history localName cursor [(cursor, updates)]
  | again {cursor next : ChatCursor} {updates : List ChatUpdate}
      {rest : List (ChatCursor × List ChatUpdate)}
      (h : cursor.prepare history localName = .ok (next, updates, true))
      (hrest : Drains history localName next rest) :
      Drains history localName cursor ((cursor, updates) :: rest)

/-- A cursor that knows every channel needs no conversation number. -/
theorem prepare_known (localName : Option String)
    (hknown : ∀ channel ∈ history.channels, cursor.previous channel ≠ none) :
    ∃ next updates more, cursor.prepare history localName = .ok (next, updates, more) := by
  cases h : cursor.prepare history localName with
  | error e =>
    obtain ⟨-, ⟨channel, hc, hnone⟩, -⟩ := prepare_error h
    exact absurd hnone (hknown channel hc)
  | ok r => exact ⟨r.1, r.2.1, r.2.2, rfl⟩

/-- The batches tell every channel under one ID, and deliver what it awaited, in order. -/
structure Delivered (history : History) (localName : Option String) (cursor : ChatCursor)
    (batches : List (ChatCursor × List ChatUpdate)) (id : Channel → String) : Prop where
  updates : ∀ batch ∈ batches, batch.2 = history.channels.flatMap fun channel =>
    batch.1.told history.allowance localName (id channel) channel
  entries : ∀ channel ∈ history.channels,
    batches.flatMap (fun batch => batch.1.delivered history.allowance channel) =
      (cursor.awaiting channel).getD []

theorem Prepared.drains (hd : history.Distinct) {k : Nat}
    (h : cursor.prepare history localName = .ok (next, updates, more))
    (hp : Prepared cursor history localName next updates more id)
    (hk : ∀ channel ∈ history.channels,
      ((cursor.awaiting channel).getD []).length ≤ k * history.allowance) :
    ∃ batches, Drains history localName cursor batches ∧
      Delivered history localName cursor batches id := by
  induction k generalizing cursor next updates more id with
  | zero =>
    have hempty : ∀ channel ∈ history.channels, (cursor.awaiting channel).getD [] = [] := by
      intro channel hc
      simpa using hk channel hc
    obtain rfl : more = false := by
      rw [hp.more, List.any_eq_false]
      intro channel hc
      simp [leaves, hempty channel hc]
    refine ⟨[(cursor, updates)], .done h, ?_, ?_⟩
    · simpa using hp.updates
    · intro channel hc
      simp [delivered, hempty channel hc]
  | succ k ih =>
    cases more with
    | false =>
      refine ⟨[(cursor, updates)], .done h, by simpa using hp.updates, fun channel hc => ?_⟩
      have := List.any_eq_false.mp hp.more.symm channel hc
      simp only [leaves, decide_eq_true_eq, not_lt] at this
      simpa [delivered] using this
    | true =>
      -- the next poll knows every channel, by the same ID
      have hknown : ∀ channel ∈ history.channels, next.previous channel ≠ none := by
        intro channel hc
        simp [hp.previous channel hc]
      obtain ⟨next', updates', more', h'⟩ := prepare_known localName hknown
      obtain ⟨id', hp'⟩ := prepare_ok hd.keys h'
      have hid : ∀ channel ∈ history.channels, id' channel = id channel := fun channel hc =>
        hp'.kept channel hc _ (hp.previous channel hc)
      obtain ⟨batches, hdrain, hdel⟩ := ih h' hp' fun channel hc => by
        have := hk channel hc
        rw [hp.awaiting_next hd hc, Option.getD_some, List.length_drop]
        rw [Nat.succ_mul] at this
        omega
      refine ⟨(cursor, updates) :: batches, .again h hdrain, ?_, ?_⟩
      · rintro batch (_ | ⟨_, hb⟩)
        · exact hp.updates
        · rw [hdel.updates batch hb]
          exact List.flatMap_congr fun channel hc => by rw [hid channel hc]
      · intro channel hc
        rw [List.flatMap_cons, hdel.entries channel hc, hp.awaiting_next hd hc]
        exact List.take_append_drop _ _

/-- `prepare` cuts what a cursor awaits into batches. -/
inductive Batched (history : History) (localName : Option String) (cursor : ChatCursor) : Prop where
  /-- Too few conversation numbers are left for the new channels. -/
  | exhausted
      (h : cursor.prepare history localName = .error (.limit "chat conversation IDs"))
      (end_le : conversationEnd ≤ cursor.nextConversation +
        (history.channels.filter fun channel => (cursor.previous channel).isNone).length)
  | prepared (next : ChatCursor) (updates : List ChatUpdate) (more : Bool) (id : Channel → String)
      (batches : List (ChatCursor × List ChatUpdate))
      (h : cursor.prepare history localName = .ok (next, updates, more))
      (told_eq : updates = history.channels.flatMap fun channel =>
        cursor.told history.allowance localName (id channel) channel)
      (bounded : updates.length ≤ maxEvents)
      (fair : ∀ channel ∈ history.channels, cursor.awaiting channel ≠ some [] →
        cursor.told history.allowance localName (id channel) channel ≠ [])
      (more_iff : more = true ↔ ∃ channel ∈ history.channels,
        cursor.delivered history.allowance channel ≠ (cursor.awaiting channel).getD [])
      (drains : Drains history localName cursor batches)
      (complete : Delivered history localName cursor batches id)

theorem prepare_batched (hd : history.Distinct) (cursor : ChatCursor) (localName : Option String) :
    Batched history localName cursor := by
  cases h : cursor.prepare history localName with
  | error e =>
    obtain ⟨rfl, -, hend⟩ := prepare_error h
    exact .exhausted h hend
  | ok r =>
    obtain ⟨next, updates, more⟩ := r
    obtain ⟨id, hp⟩ := prepare_ok hd.keys h
    -- enough rounds for the channel with the most entries
    let k := (history.channels.map fun channel => ((cursor.awaiting channel).getD []).length).sum
    have hk : ∀ channel ∈ history.channels,
        ((cursor.awaiting channel).getD []).length ≤ k * history.allowance := by
      intro channel hc
      refine le_trans ?_ (Nat.le_mul_of_pos_right k (allowance_pos hd))
      exact List.le_sum_of_mem (List.mem_map.mpr ⟨channel, hc, rfl⟩)
    obtain ⟨batches, hdrain, hdel⟩ := hp.drains hd h hk
    refine .prepared next updates more id batches h hp.updates (hp.updates_length_le hd)
      (fun channel _ hne => told_ne_nil (allowance_pos hd) hne) ?_ hdrain hdel
    rw [hp.more, List.any_eq_true]
    refine exists_congr fun channel => and_congr_right fun _ => ?_
    simp only [leaves, delivered, decide_eq_true_eq, ne_eq, List.take_eq_self_iff, not_le]

/-- The entry `k` of a list of `n`, whose sentinel is at `sentinel`. -/
def busyEntry (sentinel base n k : Nat) : Entry :=
  let node (k : Nat) := base + k * 0x100
  ⟨node k, ⟨if k + 1 = n then sentinel else node (k + 1), if k = 0 then sentinel else node (k - 1)⟩, 0,
    "Alice", toString k, none⟩

/-- A public channel with forty entries and a private one with three. -/
def busyHistory : History where
  channels := [
    { address := 0x10000, links := ⟨0x20000, 0x8⟩, key := "#G_EN", entryLinks := ⟨0x100000, 0x102700⟩
      entries := (List.range 40).map (busyEntry 0x10028 0x100000 40) },
    { address := 0x20000, links := ⟨0x8, 0x10000⟩, key := "Alice,Me", entryLinks := ⟨0x200000, 0x200200⟩
      entries := (List.range 3).map (busyEntry 0x20028 0x200000 3) }]

/-- The first batch leaves entries to the next one. -/
theorem prepare_batched_busy :
    let cursor : ChatCursor := { positions := some ∅, nextConversation := 0 }
    (cursor.prepare busyHistory (some "Me")).map (fun prepared => (prepared.2.1.length, prepared.2.2)) =
      .ok (16 + 3, true) ∧ Batched busyHistory (some "Me") cursor := by
  have hd : busyHistory.Distinct := ⟨by decide +kernel, by decide +kernel, by decide +kernel⟩
  exact ⟨by decide +kernel, prepare_batched hd _ _⟩

end ChatCursor

end Warframe
end WfObserver
