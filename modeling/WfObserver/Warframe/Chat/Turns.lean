import WfObserver.Warframe.Chat

/-!
# What one `prepare` does

`awaiting` says what a cursor has yet to deliver of a channel, `told` what the channel's turn adds to the
updates and `anchorAfter` where it leaves the cursor. `prepare_ok` describes a successful `prepare` by
them, and the conversation IDs it gave out.
-/

namespace WfObserver
namespace Warframe

open ProviderSdk (ReadError)
open Fallible

namespace ChatCursor

/-- The entries of a channel that the cursor has yet to deliver; `none` if its position was lost. -/
def awaiting (cursor : ChatCursor) (channel : Channel) : Option (List Entry) :=
  match cursor.positions with
  | none => some []
  | some _ => pendingAfter ((cursor.previous channel).bind (·.anchor)) channel.entries

/-- The entries that the channel's turn delivers. -/
def delivered (cursor : ChatCursor) (allowance : Nat) (channel : Channel) : List Entry :=
  ((cursor.awaiting channel).getD []).take allowance

/-- The updates that the channel's turn adds. -/
def told (cursor : ChatCursor) (allowance : Nat) (localName : Option String) (id : String)
    (channel : Channel) : List ChatUpdate :=
  if cursor.awaiting channel = none then [.gap (Layout.channel channel.key)]
  else (cursor.delivered allowance channel).map fun entry =>
    .message (Layout.message entry channel.key id localName)

/-- The turn leaves some entry out. -/
def leaves (cursor : ChatCursor) (allowance : Nat) (channel : Channel) : Bool :=
  decide (allowance < ((cursor.awaiting channel).getD []).length)

/-- The anchor that the turn leaves behind. -/
def anchorAfter (cursor : ChatCursor) (allowance : Nat) (channel : Channel) : Option Entry :=
  if cursor.positions = none ∨ cursor.awaiting channel = none then channel.entries.getLast?
  else (cursor.delivered allowance channel).getLast?.or ((cursor.previous channel).bind (·.anchor))

/-- The conversation ID of a channel, `m` and `n` being the counter before and after its turn. -/
def Names (cursor : ChatCursor) (channel : Channel) (id : String) (m n : Nat) : Prop :=
  (∃ position, cursor.previous channel = some position ∧ id = position.conversationId ∧ n = m) ∨
    cursor.previous channel = none ∧ id = conversationId (m + 1) ∧ n = m + 1

variable {cursor : ChatCursor} {allowance : Nat} {localName : Option String} {channel : Channel}
  {t t' : Turns}

theorem conversationId_inj {m n : Nat} (h : conversationId m = conversationId n) : m = n := by
  have h : m.repr.toList = n.repr.toList := by
    simpa only [conversationId, toString, String.toList_append, List.append_cancel_left_eq,
      List.append_cancel_right_eq] using congrArg String.toList h
  rw [Nat.toList_repr, Nat.toList_repr] at h
  simpa using congrArg (Nat.ofDigitChars 10 · 0) h

theorem previous_address {position : Position} (h : cursor.previous channel = some position) :
    position.channelAddress = channel.address := by
  obtain ⟨-, h⟩ := Option.filter_eq_some_iff.mp h
  simpa using h

/-- What a turn does. -/
theorem visit_ok (h : cursor.visit allowance localName t channel = .ok t') :
    ∃ id n, cursor.Names channel id t.nextConversation n ∧
      t' = { positions := t.positions.insert channel.key
               ⟨channel.address, id, cursor.anchorAfter allowance channel⟩
             nextConversation := n
             updates := t.updates ++ cursor.told allowance localName id channel
             more := t.more || cursor.leaves allowance channel } := by
  simp only [visit, bind_eq_ok] at h
  obtain ⟨⟨position, n⟩, hclaim, h⟩ := h
  have hname : cursor.Names channel position.conversationId t.nextConversation n ∧
      position.channelAddress = channel.address ∧
      position.anchor = (cursor.previous channel).bind (·.anchor) := by
    unfold claim at hclaim
    cases hp : cursor.previous channel with
    | some p =>
      simp only [hp, Except.ok.injEq, Prod.mk.injEq] at hclaim
      obtain ⟨rfl, rfl⟩ := hclaim
      exact ⟨.inl ⟨p, hp, rfl, rfl⟩, previous_address hp, rfl⟩
    | none =>
      simp only [hp, ite_eq_ok, Except.ok.injEq, Prod.mk.injEq] at hclaim
      obtain ⟨-, rfl, rfl⟩ := hclaim
      exact ⟨.inr ⟨hp, rfl, rfl⟩, rfl, rfl⟩
  obtain ⟨hname, haddr, hanchor⟩ := hname
  refine ⟨_, n, hname, ?_⟩
  cases hc : cursor.positions with
  | none =>
    simp only [hc, pure_eq_ok] at h
    simp [← h, haddr, awaiting, delivered, told, leaves, anchorAfter, hc]
  | some m =>
    simp only [hc, pure_eq_ok] at h
    rw [← h]
    simp only [awaiting, delivered, told, leaves, anchorAfter, hc, Position.follow, hanchor]
    cases pendingAfter ((cursor.previous channel).bind (·.anchor)) channel.entries <;> simp [haddr]

/-- A turn fails only when the conversation numbers are used up. -/
theorem visit_error {e : ReadError} (h : cursor.visit allowance localName t channel = .error e) :
    e = .limit "chat conversation IDs" ∧ cursor.previous channel = none ∧
      conversationEnd ≤ t.nextConversation + 1 := by
  simp only [visit, claim] at h
  cases hp : cursor.previous channel with
  | some p =>
    simp only [hp, ok_bind] at h
    cases hc : cursor.positions <;> simp [hc, pure, Except.pure] at h
  | none =>
    simp only [hp] at h
    split at h
    · rename_i hend
      simp only [error_bind, Except.error.injEq] at h
      exact ⟨h.symm, rfl, hend⟩
    · simp only [ok_bind] at h
      cases hc : cursor.positions <;> simp [hc, pure, Except.pure] at h

/-! ## All turns -/

/-- The conversation ID under which the positions hold a channel. -/
def idAt (positions : OrdMap String Position) (channel : Channel) : String :=
  ((positions.get? channel.key).map (·.conversationId)).getD ""

/-- The turns of `channels` led from `t` to `t'`. -/
structure Turned (cursor : ChatCursor) (allowance : Nat) (localName : Option String)
    (channels : List Channel) (t t' : Turns) : Prop where
  visited : ∀ channel ∈ channels, t'.positions.get? channel.key =
    some ⟨channel.address, idAt t'.positions channel, cursor.anchorAfter allowance channel⟩
  others : ∀ key ∉ channels.map (·.key), t'.positions.get? key = t.positions.get? key
  updates : t'.updates = t.updates ++ channels.flatMap fun channel =>
    cursor.told allowance localName (idAt t'.positions channel) channel
  more : t'.more = (t.more || channels.any (cursor.leaves allowance))
  counter : t.nextConversation ≤ t'.nextConversation
  kept : ∀ channel ∈ channels, ∀ position, cursor.previous channel = some position →
    idAt t'.positions channel = position.conversationId
  fresh : ∀ channel ∈ channels, cursor.previous channel = none →
    ∃ n, t.nextConversation < n ∧ n ≤ t'.nextConversation ∧
      idAt t'.positions channel = conversationId n
  apart : ∀ a ∈ channels, ∀ b ∈ channels, cursor.previous a = none → cursor.previous b = none →
    idAt t'.positions a = idAt t'.positions b → a.key = b.key

theorem turned {channels : List Channel} (hkeys : (channels.map (·.key)).Nodup)
    (h : channels.foldlM (cursor.visit allowance localName) t = .ok t') :
    Turned cursor allowance localName channels t t' := by
  induction channels generalizing t with
  | nil =>
    obtain rfl : t = t' := by simpa using h
    exact ⟨by simp, by simp, by simp, by simp, le_rfl, by simp, by simp, by simp⟩
  | cons channel channels ih =>
    obtain ⟨u, hu, h⟩ := foldlM_cons_eq_ok.mp h
    obtain ⟨hnot, hkeys⟩ := List.nodup_cons.mp hkeys
    obtain ⟨id, n, hname, rfl⟩ := visit_ok hu
    have r := ih hkeys h
    -- the later turns leave this channel's position alone
    have hget := r.others _ hnot
    rw [OrdMap.get?_insert_self] at hget
    have hid : idAt t'.positions channel = id := by simp [idAt, hget]
    have hle : t.nextConversation ≤ n := by
      rcases hname with ⟨_, _, _, rfl⟩ | ⟨_, _, rfl⟩ <;> omega
    have hfresh : cursor.previous channel = none →
        ∃ k, t.nextConversation < k ∧ k ≤ n ∧ idAt t'.positions channel = conversationId k := by
      intro hnone
      rcases hname with ⟨p, hp, -⟩ | ⟨-, rfl, rfl⟩
      · rw [hnone] at hp
        cases hp
      · exact ⟨_, Nat.lt_succ_self _, le_rfl, hid⟩
    have hcross : ∀ b ∈ channels, cursor.previous channel = none → cursor.previous b = none →
        idAt t'.positions channel ≠ idAt t'.positions b := by
      intro b hb hnone hbnone he
      obtain ⟨k, -, hk, hkid⟩ := hfresh hnone
      obtain ⟨m, hm, -, hmid⟩ := r.fresh b hb hbnone
      have := conversationId_inj (hkid.symm.trans (he.trans hmid))
      simp only at hm
      omega
    constructor
    case visited =>
      rintro a (_ | ⟨_, ha⟩)
      · rw [hid]
        exact hget
      · exact r.visited a ha
    case others =>
      intro key hkey
      simp only [List.map_cons, List.mem_cons, not_or] at hkey
      rw [r.others key hkey.2, OrdMap.get?_insert_ne _ _ hkey.1]
    case updates => rw [r.updates, List.flatMap_cons, hid, List.append_assoc]
    case more => rw [r.more, List.any_cons, Bool.or_assoc]
    case counter => exact hle.trans r.counter
    case kept =>
      rintro a (_ | ⟨_, ha⟩) p hp
      · rcases hname with ⟨q, hq, rfl, -⟩ | ⟨hnone, -⟩
        · rw [hp] at hq
          cases hq
          exact hid
        · rw [hp] at hnone
          cases hnone
      · exact r.kept a ha p hp
    case fresh =>
      rintro a (_ | ⟨_, ha⟩) hnone
      · obtain ⟨k, hk, hkn, hkid⟩ := hfresh hnone
        exact ⟨k, hk, hkn.trans r.counter, hkid⟩
      · obtain ⟨k, hk, hkn, hkid⟩ := r.fresh a ha hnone
        exact ⟨k, hle.trans_lt hk, hkn, hkid⟩
    case apart =>
      rintro a (_ | ⟨_, ha⟩) b (_ | ⟨_, hb⟩) hna hnb he
      · rfl
      · exact absurd he (hcross b hb hna hnb)
      · exact absurd he.symm (hcross a ha hnb hna)
      · exact r.apart a ha b hb hna hnb he

/-- The turns fail only when the conversation numbers do not suffice for the new channels. -/
theorem turned_error {channels : List Channel} {e : ReadError}
    (h : channels.foldlM (cursor.visit allowance localName) t = .error e) :
    e = .limit "chat conversation IDs" ∧ (∃ channel ∈ channels, cursor.previous channel = none) ∧
      conversationEnd ≤ t.nextConversation +
        (channels.filter fun channel => (cursor.previous channel).isNone).length := by
  induction channels generalizing t with
  | nil => cases h
  | cons channel channels ih =>
    rw [List.foldlM_cons] at h
    cases hu : cursor.visit allowance localName t channel with
    | error e' =>
      rw [hu, error_bind, Except.error.injEq] at h
      subst h
      obtain ⟨he, hnone, hend⟩ := visit_error hu
      refine ⟨he, ⟨channel, by simp, hnone⟩, ?_⟩
      rw [List.filter_cons_of_pos (by simp [hnone]), List.length_cons]
      omega
    | ok u =>
      rw [hu, ok_bind] at h
      obtain ⟨he, ⟨a, ha, hnew⟩, hend⟩ := ih h
      refine ⟨he, ⟨a, List.mem_cons_of_mem _ ha, hnew⟩, hend.trans ?_⟩
      obtain ⟨id, n, hname, rfl⟩ := visit_ok hu
      rcases hname with ⟨p, hp, -, rfl⟩ | ⟨hnone, -, rfl⟩
      · rw [List.filter_cons_of_neg (by simp [hp])]
      · rw [List.filter_cons_of_pos (by simp [hnone]), List.length_cons]
        simp only
        omega

/-! ## The whole `prepare` -/

/-- What a successful `prepare` returns. -/
structure Prepared (cursor : ChatCursor) (history : History) (localName : Option String)
    (next : ChatCursor) (updates : List ChatUpdate) (more : Bool) (id : Channel → String) : Prop where
  previous : ∀ channel ∈ history.channels, next.previous channel =
    some ⟨channel.address, id channel, cursor.anchorAfter history.allowance channel⟩
  absent : ∀ positions, next.positions = some positions →
    ∀ key ∉ history.channels.map (·.key), positions.get? key = none
  present : next.positions ≠ none
  updates : updates = history.channels.flatMap fun channel =>
    cursor.told history.allowance localName (id channel) channel
  more : more = history.channels.any (cursor.leaves history.allowance)
  counter : cursor.nextConversation ≤ next.nextConversation
  kept : ∀ channel ∈ history.channels, ∀ position, cursor.previous channel = some position →
    id channel = position.conversationId
  fresh : ∀ channel ∈ history.channels, cursor.previous channel = none →
    ∃ n, cursor.nextConversation < n ∧ n ≤ next.nextConversation ∧ id channel = conversationId n
  apart : ∀ a ∈ history.channels, ∀ b ∈ history.channels, cursor.previous a = none →
    cursor.previous b = none → id a = id b → a.key = b.key

variable {history : History} {next : ChatCursor} {updates : List ChatUpdate} {more : Bool}

theorem prepare_ok (hkeys : (history.channels.map (·.key)).Nodup)
    (h : cursor.prepare history localName = .ok (next, updates, more)) :
    ∃ id, Prepared cursor history localName next updates more id := by
  simp only [prepare, bind_eq_ok, pure_eq_ok, Prod.mk.injEq] at h
  obtain ⟨t, h, rfl, rfl, rfl⟩ := h
  have r := turned hkeys h
  refine ⟨idAt t.positions, fun channel hc => ?_, ?_, by simp, ?_, ?_, r.counter, r.kept, r.fresh,
    r.apart⟩
  · simp [previous, r.visited channel hc]
  · rintro _ ⟨rfl⟩ key hkey
    simpa [start] using r.others key hkey
  · simpa [start] using r.updates
  · simpa [start] using r.more

/-- Only the IDs of the history's channels matter. -/
theorem Prepared.congr {id id' : Channel → String}
    (h : Prepared cursor history localName next updates more id)
    (hid : ∀ channel ∈ history.channels, id channel = id' channel) :
    Prepared cursor history localName next updates more id' where
  previous channel hc := hid channel hc ▸ h.previous channel hc
  absent := h.absent
  present := h.present
  updates := h.updates.trans (List.flatMap_congr fun channel hc => by rw [hid channel hc])
  more := h.more
  counter := h.counter
  kept channel hc := hid channel hc ▸ h.kept channel hc
  fresh channel hc := hid channel hc ▸ h.fresh channel hc
  apart a ha b hb := hid a ha ▸ hid b hb ▸ h.apart a ha b hb

theorem prepare_error {e : ReadError} (h : cursor.prepare history localName = .error e) :
    e = .limit "chat conversation IDs" ∧
      (∃ channel ∈ history.channels, cursor.previous channel = none) ∧
      conversationEnd ≤ cursor.nextConversation +
        (history.channels.filter fun channel => (cursor.previous channel).isNone).length := by
  unfold prepare at h
  cases hf : history.channels.foldlM (cursor.visit history.allowance localName) cursor.start with
  | error e' =>
    rw [hf, error_bind, Except.error.injEq] at h
    exact h ▸ turned_error hf
  | ok t => simp [hf, pure, Except.pure] at h

end ChatCursor

end Warframe
end WfObserver
