import WfObserver.Lib.Runs
import WfObserver.Warframe.Chat.Batches
import WfObserver.Warframe.Chat.Session

/-!
# Conversation identities

The commits of a session form a chain: each was prepared from the cursor that the one before it left,
however often it was rejected in between (`Chain`). Along a chain the numbers given out only grow, so a
channel that was absent from one commit comes back under a number that no earlier commit knows.
-/

namespace WfObserver
namespace Warframe

open ProviderSdk
open ChatCursor (Prepared conversationId conversationId_inj prepare_ok)

def Commit.channels (commit : Commit) : List Channel := (commit.history.map (·.channels)).getD []

/-- The conversation ID under which the committed cursor holds a channel. -/
def Commit.id (commit : Commit) (channel : Channel) : String :=
  ((commit.cursor.previous channel).map (·.conversationId)).getD ""

/-- The cursor that the commits left. -/
def cursorAfter (commits : List Commit) : ChatCursor := (commits.head?.map (·.cursor)).getD .default

/-- Each commit was prepared from the one before it (the next in the list). -/
inductive Chain : List Commit → Prop where
  | nil : Chain []
  | cons {older : List Commit} {history : History} {cursor : ChatCursor} {updates : List ChatUpdate}
      {more : Bool} {account : String} {localName : Option String} (hchain : Chain older)
      (hkeys : (history.channels.map (·.key)).Nodup)
      (hprep : (cursorAfter older).prepare history localName = .ok (cursor, updates, more)) :
      Chain (⟨some history, cursor, updates.map fun update => ⟨account, update⟩⟩ :: older)

/-! ## Runs are chains -/

/-- A reading that acquisition can return. -/
def ChatMove.Acquired : ChatMove → Prop
  | .publish _ _ (.read (some history)) _ _ => (history.channels.map (·.key)).Nodup
  | _ => True

/-- What a run keeps. -/
structure ChatRun.Ok (run : ChatRun) : Prop where
  chain : Chain run.commits
  cursor : run.session.chatCursor = cursorAfter run.commits
  keys : ∀ history, run.session.chatHistory = some history → (history.channels.map (·.key)).Nodup
  pending : ∀ pending, run.session.pendingChat = some pending →
    ∃ history localName updates account,
      pending.history.or run.session.chatHistory = some history ∧
      (history.channels.map (·.key)).Nodup ∧
      run.session.chatCursor.prepare history localName = .ok (pending.cursor, updates, pending.more) ∧
      pending.events = updates.map fun update => ⟨account, update⟩

/-- A batch is the pending one or prepared from the history that was read or retained. -/
theorem ChatSession.batch_ok {s : ChatSession} {account : String} {history : Option History}
    {localName : Option String} {pending : PendingChat}
    (h : s.batch account history localName = .ok pending) :
    s.pendingChat = some pending ∨ s.pendingChat = none ∧ ∃ current cursor updates more,
      history.or s.chatHistory = some current ∧
      s.chatCursor.prepare current localName = .ok (cursor, updates, more) ∧
      pending = { history, cursor, events := updates.map fun update => ⟨account, update⟩, more } := by
  unfold batch at h
  split at h
  · rename_i hold
    cases h
    exact .inl hold
  · rename_i hnone
    split at h
    · cases h
    · rename_i current hcurrent
      split at h
      · cases h
      · rename_i cursor updates more hprep
        cases h
        exact .inr ⟨hnone, current, cursor, updates, more, hcurrent, hprep, rfl⟩

theorem ChatSession.publishChat_keeps (s : ChatSession) (now : Duration) (account : String)
    (chat : ChatReading) (localName : Option String) (refused : Option ProviderError) :
    let s' := (s.publishChat now account chat localName refused).1
    s'.chatCursor = s.chatCursor ∧ s'.chatHistory = s.chatHistory ∧
      (s'.pendingChat = s.pendingChat ∨ ∃ history pending, chat = .read history ∧
        s.batch account history localName = .ok pending ∧ s'.pendingChat = some pending) := by
  cases chat with
  | absent => exact ⟨rfl, rfl, .inl rfl⟩
  | failed retryAt => cases refused <;> exact ⟨rfl, rfl, .inl rfl⟩
  | read history =>
    cases hb : s.batch account history localName with
    | error e => simp [publishChat, hb]
    | ok pending => cases refused <;> simp [publishChat, hb]

/-- A completed poll changes nothing, or commits the pending batch. -/
theorem ChatRun.completed_cases (run : ChatRun) (committed : Bool) :
    let run' := run.step (.completed committed)
    (run'.commits = run.commits ∧ run'.session.chatCursor = run.session.chatCursor ∧
      run'.session.chatHistory = run.session.chatHistory ∧
      run'.session.pendingChat = run.session.pendingChat) ∨
    ∃ pending, run.session.pendingChat = some pending ∧ run'.session.chatCursor = pending.cursor ∧
      run'.session.chatHistory = pending.history.or run.session.chatHistory ∧
      run'.session.pendingChat = none ∧
      run'.commits = ⟨pending.history.or run.session.chatHistory, pending.cursor, pending.events⟩ ::
        run.commits := by
  simp only [step]
  cases hc : run.session.committing committed with
  | some pending =>
    simp only [ChatSession.committing, Bool.and_eq_true] at hc
    split at hc
    · rename_i hboth
      right
      refine ⟨pending, hc, ?_⟩
      simp [ChatSession.pollCompleted, hboth.1, hboth.2, hc]
    · cases hc
  | none =>
    simp only [ChatSession.committing, Bool.and_eq_true] at hc
    have hs : (run.session.pollCompleted committed).chatCursor = run.session.chatCursor ∧
        (run.session.pollCompleted committed).chatHistory = run.session.chatHistory ∧
        (run.session.pollCompleted committed).pendingChat = run.session.pendingChat := by
      unfold ChatSession.pollCompleted
      split
      · exact ⟨rfl, rfl, rfl⟩
      · rename_i hst
        split
        · rename_i hcom
          rw [if_pos ⟨by simpa using hst, hcom⟩] at hc
          simp [hc]
        · exact ⟨rfl, rfl, rfl⟩
    exact .inl ⟨rfl, hs⟩

theorem ChatRun.Ok.step {run : ChatRun} (ok : run.Ok) {move : ChatMove} (hm : move.Acquired) :
    (run.step move).Ok := by
  cases move with
  | publish now account chat localName refused =>
    obtain ⟨hcur, hhist, hpend⟩ :=
      run.session.publishChat_keeps now account chat localName refused
    refine ⟨ok.chain, hcur.trans ok.cursor, ?_, ?_⟩
    · simp only [ChatRun.step, hhist]
      exact ok.keys
    · intro pending hp
      simp only [ChatRun.step, hcur, hhist] at hp ⊢
      rcases hpend with hsame | ⟨history, pending', rfl, hb, hnew⟩
      · exact ok.pending pending (hsame ▸ hp)
      · rw [hnew, Option.some.injEq] at hp
        subst hp
        rcases ChatSession.batch_ok hb with hold | ⟨-, current, cursor, updates, more, hcurrent, hprep, rfl⟩
        · exact ok.pending _ hold
        · refine ⟨current, localName, updates, account, hcurrent, ?_, hprep, rfl⟩
          rcases Option.or_eq_some_iff.mp hcurrent with rfl | ⟨-, hold⟩
          · exact hm
          · exact ok.keys _ hold
  | completed committed =>
    rcases run.completed_cases committed with ⟨hcom, hcur, hhist, hpend⟩ |
      ⟨pending, hp, hcur, hhist, hpend, hcom⟩
    · refine ⟨hcom ▸ ok.chain, by rw [hcur, hcom, ok.cursor], ?_, ?_⟩
      · rw [hhist]
        exact ok.keys
      · rw [hcur, hhist, hpend]
        exact ok.pending
    · obtain ⟨history, localName, updates, account, hold, hkeys, hprep, hev⟩ := ok.pending _ hp
      rw [hold] at hhist hcom
      refine ⟨?_, by rw [hcur, hcom]; rfl, ?_, by simp [hpend]⟩
      · rw [hcom, hev]
        exact .cons ok.chain hkeys (ok.cursor ▸ hprep)
      · rw [hhist]
        rintro _ ⟨rfl⟩
        exact hkeys

theorem ChatRun.run_ok {moves : List ChatMove} (hm : ∀ move ∈ moves, move.Acquired) :
    (ChatRun.run moves).Ok := by
  refine Runs.run_invariant (fun run move h ok => ok.step h) hm ?_
  exact ⟨.nil, rfl, by simp [start, ChatSession.default], by simp [start, ChatSession.default]⟩

/-! ## Identities along a chain -/

/-- Two readings of one channel: the same key at the same native address. -/
def Channel.SamePlace (a b : Channel) : Prop := a.key = b.key ∧ a.address = b.address

namespace ChatCursor

variable {cursor next : ChatCursor} {history : History} {localName : Option String}
  {updates : List ChatUpdate} {more : Bool} {id : Channel → String} {channel : Channel}

theorem previous_congr {a b : Channel} (h : a.SamePlace b) : cursor.previous a = cursor.previous b := by
  rw [previous, previous, h.1, h.2]

/-- The cursor after a `prepare` knows exactly the channels that were there. -/
theorem Prepared.previous_iff (h : Prepared cursor history localName next updates more id)
    {i : String} :
    (∃ position, next.previous channel = some position ∧ position.conversationId = i) ↔
      ∃ x ∈ history.channels, x.SamePlace channel ∧ id x = i := by
  constructor
  · rintro ⟨position, hp, rfl⟩
    obtain ⟨m, hm⟩ := Option.ne_none_iff_exists'.mp h.present
    have hget : m.get? channel.key = some position := by
      simpa [hm] using (Option.filter_eq_some_iff.mp hp).1
    obtain ⟨x, hx, hkey⟩ : ∃ x ∈ history.channels, x.key = channel.key := by
      by_contra hno
      have hnone := h.absent m hm channel.key fun hmem => by
        obtain ⟨x, hx, he⟩ := List.mem_map.mp hmem
        exact hno ⟨x, hx, he⟩
      rw [hget] at hnone
      cases hnone
    have hxp := (Option.filter_eq_some_iff.mp (h.previous x hx)).1
    simp only [hm, Option.bind_some, hkey, hget, Option.some.injEq] at hxp
    exact ⟨x, hx, ⟨hkey, by rw [← previous_address hp, hxp]⟩, by rw [hxp]⟩
  · rintro ⟨x, hx, hsame, rfl⟩
    exact ⟨_, (previous_congr hsame).symm.trans (h.previous x hx), rfl⟩

/-- The conversation numbers of a cursor stay below its counter and tell its channels apart. -/
structure Numbered (cursor : ChatCursor) : Prop where
  number : ∀ channel position, cursor.previous channel = some position →
    ∃ n ≤ cursor.nextConversation, position.conversationId = conversationId n
  inj : ∀ a b p q, cursor.previous a = some p → cursor.previous b = some q →
    p.conversationId = q.conversationId → a.key = b.key

theorem default_numbered : ChatCursor.default.Numbered where
  number := by simp [default, previous]
  inj := by simp [default, previous]

theorem Prepared.numbered (h : Prepared cursor history localName next updates more id)
    (hn : cursor.Numbered) : next.Numbered := by
  have hknown : ∀ x ∈ history.channels, ∀ p, cursor.previous x = some p →
      ∃ n ≤ cursor.nextConversation, id x = conversationId n := by
    intro x hx p hp
    obtain ⟨n, hle, hid⟩ := hn.number x p hp
    exact ⟨n, hle, (h.kept x hx p hp).trans hid⟩
  -- a known channel and a new one have numbers on either side of the old counter
  have hcross : ∀ x ∈ history.channels, ∀ y ∈ history.channels, ∀ p,
      cursor.previous x = some p → cursor.previous y = none → id x ≠ id y := by
    intro x hx y hy p hp hnone he
    obtain ⟨n, hle, hxn⟩ := hknown x hx p hp
    obtain ⟨m, hlt, -, hym⟩ := h.fresh y hy hnone
    have := conversationId_inj (hxn.symm.trans (he.trans hym))
    omega
  have hinj : ∀ x ∈ history.channels, ∀ y ∈ history.channels, id x = id y → x.key = y.key := by
    intro x hx y hy he
    cases hpx : cursor.previous x with
    | none =>
      cases hpy : cursor.previous y with
      | none => exact h.apart x hx y hy hpx hpy he
      | some q => exact absurd he.symm (hcross y hy x hx q hpy hpx)
    | some p =>
      cases hpy : cursor.previous y with
      | none => exact absurd he (hcross x hx y hy p hpx hpy)
      | some q =>
        exact hn.inj x y p q hpx hpy ((h.kept x hx p hpx).symm.trans (he.trans (h.kept y hy q hpy)))
  constructor
  · intro channel position hp
    obtain ⟨x, hx, -, hid⟩ := h.previous_iff.mp ⟨position, hp, rfl⟩
    rw [← hid]
    cases hpx : cursor.previous x with
    | some p =>
      obtain ⟨n, hle, hxn⟩ := hknown x hx p hpx
      exact ⟨n, hle.trans h.counter, hxn⟩
    | none =>
      obtain ⟨n, -, hle, hxn⟩ := h.fresh x hx hpx
      exact ⟨n, hle, hxn⟩
  · intro a b p q hpa hpb he
    obtain ⟨x, hx, hxa, hxid⟩ := h.previous_iff.mp ⟨p, hpa, rfl⟩
    obtain ⟨y, hy, hyb, hyid⟩ := h.previous_iff.mp ⟨q, hpb, rfl⟩
    exact hxa.1.symm.trans ((hinj x hx y hy (hxid.trans (he.trans hyid.symm))).trans hyb.1)

end ChatCursor

variable {commit : Commit} {older commits : List Commit} {channel : Channel}

/-- The last commit of a chain. -/
theorem Chain.committed (h : Chain (commit :: older)) : Chain older ∧
    ∃ history localName account updates more, commit.history = some history ∧
      (history.channels.map (·.key)).Nodup ∧
      Prepared (cursorAfter older) history localName commit.cursor updates more commit.id ∧
      commit.events = updates.map fun update => ⟨account, update⟩ := by
  cases h with
  | @cons _ history cursor updates more account localName hchain hkeys hprep =>
    obtain ⟨id, hp⟩ := prepare_ok hkeys hprep
    refine ⟨hchain, history, localName, account, updates, more, rfl, hkeys, ?_, rfl⟩
    refine hp.congr fun channel hc => ?_
    simp [Commit.id, hp.previous channel hc]

theorem Chain.numbered (h : Chain commits) : (cursorAfter commits).Numbered ∧
    ∀ commit ∈ commits, commit.cursor.Numbered ∧
      commit.cursor.nextConversation ≤ (cursorAfter commits).nextConversation := by
  induction commits with
  | nil => exact ⟨ChatCursor.default_numbered, by simp⟩
  | cons commit older ih =>
    obtain ⟨hchain, history, localName, account, updates, more, -, -, hp, -⟩ := h.committed
    obtain ⟨hnum, hle⟩ := ih hchain
    have hnum' : commit.cursor.Numbered := hp.numbered hnum
    refine ⟨hnum', ?_⟩
    rintro c (_ | ⟨_, hc⟩)
    · exact ⟨hnum', le_rfl⟩
    · exact ⟨(hle c hc).1, (hle c hc).2.trans hp.counter⟩

/-- A committed cursor knows the channels of its commit under their IDs. -/
theorem Chain.known (h : Chain commits) (hc : commit ∈ commits) (hmem : channel ∈ commit.channels) :
    ∃ position, commit.cursor.previous channel = some position ∧
      position.conversationId = commit.id channel := by
  induction commits with
  | nil => cases hc
  | cons first older ih =>
    obtain ⟨hchain, history, localName, account, updates, more, hhist, -, hp, -⟩ := h.committed
    rcases List.mem_cons.mp hc with rfl | hc
    · have hmem : channel ∈ history.channels := by simpa [Commit.channels, hhist] using hmem
      exact ⟨_, hp.previous channel hmem, rfl⟩
    · exact ih hchain hc

/-- `a` in the `i`-th commit and `b` in the `j`-th, a later one, are one instance of a channel: it was
there in all commits in between. -/
def SameInstance (commits : List Commit) (j i : Nat) (a b : Channel) : Prop :=
  a.SamePlace b ∧ ∀ k, j ≤ k → k ≤ i →
    ∃ commit, commits[k]? = some commit ∧ ∃ x ∈ commit.channels, x.SamePlace b

theorem SameInstance.cons_iff {j i : Nat} {a b : Channel} :
    SameInstance (commit :: older) (j + 1) (i + 1) a b ↔ SameInstance older j i a b := by
  refine and_congr_right fun _ => ⟨fun h k hj hi => ?_, fun h k hj hi => ?_⟩
  · simpa using h (k + 1) (by omega) (by omega)
  · obtain ⟨k, rfl⟩ := Nat.exists_eq_add_of_le' (show 1 ≤ k by omega)
    simpa using h k (by omega) (by omega)

/-- A channel of the latest commit has the ID of an earlier one exactly if it is the same instance. -/
theorem Chain.id_iff_latest (h : Chain (commit :: older)) {i : Nat} {c : Commit} {a b : Channel}
    (hi : (commit :: older)[i]? = some c) (ha : a ∈ c.channels) (hb : b ∈ commit.channels) :
    c.id a = commit.id b ↔ SameInstance (commit :: older) 0 i a b := by
  induction i generalizing commit older b with
  | zero =>
    obtain rfl : commit = c := by simpa using hi
    obtain ⟨p, hpa, hida⟩ := h.known (List.mem_cons_self) ha
    obtain ⟨q, hqb, hidb⟩ := h.known (List.mem_cons_self) hb
    obtain ⟨-, history, _, _, _, _, hhist, hkeys, -, -⟩ := h.committed
    have hchan : commit.channels = history.channels := by simp [Commit.channels, hhist]
    have hnum := (h.numbered.2 commit List.mem_cons_self).1
    constructor
    · intro he
      have hkey := hnum.inj a b p q hpa hqb (hida.trans (he.trans hidb.symm))
      obtain rfl : a = b := List.inj_on_of_nodup_map hkeys (hchan ▸ ha) (hchan ▸ hb) hkey
      refine ⟨⟨rfl, rfl⟩, fun k _ hk => ⟨commit, ?_, a, ha, rfl, rfl⟩⟩
      obtain rfl : k = 0 := by omega
      rfl
    · rintro ⟨hsame, -⟩
      rw [Commit.id, Commit.id, ChatCursor.previous_congr hsame]
  | succ i ih =>
    cases older with
    | nil => simp at hi
    | cons last older =>
      obtain ⟨hchain, history, _, _, _, _, hhist, -, hp, -⟩ := h.committed
      have hb' : b ∈ history.channels := by simpa [Commit.channels, hhist] using hb
      obtain ⟨-, history', _, _, _, _, hhist', -, hp', -⟩ := hchain.committed
      have hchan : last.channels = history'.channels := by simp [Commit.channels, hhist']
      have hi' : (last :: older)[i]? = some c := by simpa using hi
      cases hprev : last.cursor.previous b with
      | some p =>
        -- the instance was there in the commit before
        obtain ⟨x, hx, hxb, hxid⟩ := hp'.previous_iff.mp ⟨p, hprev, rfl⟩
        have hid : commit.id b = last.id x := (hp.kept b hb' p hprev).trans hxid.symm
        rw [hid, ih hchain hi' (hchan ▸ hx), SameInstance, SameInstance]
        constructor
        · rintro ⟨hax, hall⟩
          refine ⟨⟨hax.1.trans hxb.1, hax.2.trans hxb.2⟩, fun k _ hk => ?_⟩
          cases k with
          | zero => exact ⟨commit, rfl, b, hb, rfl, rfl⟩
          | succ k =>
            obtain ⟨d, hd, y, hy, hyx⟩ := hall k (Nat.zero_le _) (by omega)
            exact ⟨d, by simpa using hd, y, hy, hyx.1.trans hxb.1, hyx.2.trans hxb.2⟩
        · rintro ⟨hab, hall⟩
          refine ⟨⟨hab.1.trans hxb.1.symm, hab.2.trans hxb.2.symm⟩, fun k _ hk => ?_⟩
          obtain ⟨d, hd, y, hy, hyb⟩ := hall (k + 1) (Nat.zero_le _) (by omega)
          exact ⟨d, by simpa using hd, y, hy, hyb.1.trans hxb.1.symm, hyb.2.trans hxb.2.symm⟩
      | none =>
        refine iff_of_false ?_ ?_
        · intro he
          obtain ⟨p, hpa, hida⟩ := h.known (List.mem_of_getElem? hi) ha
          obtain ⟨hnum, hle⟩ := hchain.numbered.2 c (List.mem_of_getElem? hi')
          obtain ⟨n, hn, hnid⟩ := hnum.number a p hpa
          obtain ⟨m, hm, -, hmid⟩ := hp.fresh b hb' hprev
          have := conversationId_inj (hnid.symm.trans (hida.trans (he.trans hmid)))
          omega
        · rintro ⟨-, hall⟩
          obtain ⟨d, hd, x, hx, hxb⟩ := hall 1 (Nat.zero_le _) (by omega)
          obtain rfl : last = d := by simpa using hd
          obtain ⟨q, hq, -⟩ := hp'.previous_iff.mpr ⟨x, hchan ▸ hx, hxb, rfl⟩
          rw [hprev] at hq
          cases hq

theorem Chain.id_iff (h : Chain commits) {j i : Nat} {d c : Commit} {a b : Channel} (hji : j ≤ i)
    (hj : commits[j]? = some d) (hi : commits[i]? = some c) (ha : a ∈ c.channels)
    (hb : b ∈ d.channels) : c.id a = d.id b ↔ SameInstance commits j i a b := by
  induction j generalizing commits i with
  | zero =>
    cases commits with
    | nil => simp at hj
    | cons commit older =>
      obtain rfl : commit = d := by simpa using hj
      exact h.id_iff_latest hi ha hb
  | succ j ih =>
    cases commits with
    | nil => simp at hj
    | cons commit older =>
      obtain ⟨i, rfl⟩ := Nat.exists_eq_add_of_le' (show 1 ≤ i by omega)
      rw [SameInstance.cons_iff]
      exact ih h.committed.1 (by omega) (by simpa using hj) (by simpa using hi)

/-! ## Committed events -/

/-- What `told` adds is a gap of the channel or one of its entries under the ID. -/
theorem ChatCursor.mem_told {cursor : ChatCursor} {n : Nat} {localName : Option String} {id : String}
    {update : ChatUpdate} (h : update ∈ cursor.told n localName id channel) :
    update = .gap (Layout.channel channel.key) ∨
      ∃ entry ∈ channel.entries, update = .message (Layout.message entry channel.key id localName) := by
  unfold told at h
  split at h
  · exact .inl (by simpa using h)
  · rename_i hne
    obtain ⟨es, hes⟩ := Option.ne_none_iff_exists'.mp hne
    obtain ⟨entry, hentry, rfl⟩ := List.mem_map.mp h
    refine .inr ⟨entry, ?_, rfl⟩
    simp only [delivered, hes, Option.getD_some] at hentry
    have hmem := List.mem_of_mem_take hentry
    unfold awaiting at hes
    split at hes
    · cases hes
      cases hmem
    · exact (pendingAfter_suffix hes).subset hmem

/-- Events tell channels apart by conversation ID, each exactly as long as the channel stays. -/
structure Identified (commits : List Commit) : Prop where
  /-- A channel keeps its ID while it is there, and shares it with no other instance. -/
  ids : ∀ j i d c a b, j ≤ i → commits[j]? = some d → commits[i]? = some c → a ∈ c.channels →
    b ∈ d.channels → (c.id a = d.id b ↔ SameInstance commits j i a b)
  /-- Every message carries the ID of its channel. -/
  events : ∀ commit ∈ commits, ∃ (account : String) (localName : Option String)
    (told : Channel → List ChatUpdate),
      commit.events = (commit.channels.flatMap told).map (fun update => ⟨account, update⟩) ∧
      ∀ channel ∈ commit.channels, ∀ update ∈ told channel,
        update = .gap (Layout.channel channel.key) ∨ ∃ entry ∈ channel.entries,
          update = .message (Layout.message entry channel.key (commit.id channel) localName)

theorem Chain.told (h : Chain commits) (hc : commit ∈ commits) : ∃ (account : String)
    (localName : Option String) (told : Channel → List ChatUpdate),
      commit.events = (commit.channels.flatMap told).map (fun update => ⟨account, update⟩) ∧
      ∀ channel ∈ commit.channels, ∀ update ∈ told channel,
        update = .gap (Layout.channel channel.key) ∨ ∃ entry ∈ channel.entries,
          update = .message (Layout.message entry channel.key (commit.id channel) localName) := by
  induction commits with
  | nil => cases hc
  | cons first older ih =>
    obtain ⟨hchain, history, localName, account, updates, more, hhist, -, hp, hev⟩ := h.committed
    rcases List.mem_cons.mp hc with rfl | hc
    · refine ⟨account, localName, fun channel => (cursorAfter older).told history.allowance localName
        (commit.id channel) channel, ?_, fun channel _ update hu => ChatCursor.mem_told hu⟩
      rw [hev, hp.updates]
      simp [Commit.channels, hhist]
    · exact ih hchain hc

/-- Over any run of a session without clearing, with any readings and any outcomes. -/
theorem ChatRun.conversations_identified {moves : List ChatMove} (hm : ∀ move ∈ moves, move.Acquired) :
    Identified (ChatRun.run moves).commits := by
  have hchain := (ChatRun.run_ok hm).chain
  exact ⟨fun _ _ _ _ _ _ hji hj hi ha hb => hchain.id_iff hji hj hi ha hb,
    fun _ hc => hchain.told hc⟩

/-- A channel is baselined, goes and comes back; the batch that brings it back is rejected once. -/
def comebackMoves : List ChatMove :=
  let entry : Entry := ⟨0x100, ⟨0x10028, 0x10028⟩, 0, "Alice", "a", none⟩
  let channel : Channel := ⟨0x10000, ⟨0x8, 0x8⟩, "#G_EN", ⟨0x100, 0x100⟩, [entry]⟩
  [.publish 0 "account" (.read (some ⟨[channel]⟩)) none none, .completed true,
    .publish 0 "account" (.read (some ⟨[]⟩)) none none, .completed true,
    .publish 0 "account" (.read (some ⟨[channel]⟩)) none none, .completed false,
    .publish 0 "account" (.read none) (some "Me") none, .completed true]

theorem ChatRun.conversations_identified_comeback : (ChatRun.run comebackMoves).commits.length = 3 ∧
    Identified (ChatRun.run comebackMoves).commits := by
  refine ⟨rfl, ChatRun.conversations_identified fun move hm => ?_⟩
  simp only [comebackMoves, List.mem_cons, List.not_mem_nil, or_false] at hm
  rcases hm with rfl | rfl | rfl | rfl | rfl | rfl | rfl | rfl <;> simp [ChatMove.Acquired]

end Warframe
end WfObserver
