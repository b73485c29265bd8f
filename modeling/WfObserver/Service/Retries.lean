import WfObserver.Service.Resets
import WfObserver.Service.Shifts
import WfObserver.Service.Tickets

/-!
# The ticket that a discarded poll leaves

`discard_poll` gives the current ticket back if it is the discarded one with the poll's own resets
(`retry_generations`), and nothing otherwise (`discardPoll_eq`). Two tickets have the same demand
exactly if they name the same topics in the same generations (`sameDemand_iff`).
-/

namespace WfObserver
namespace Service

open Wire

/-- The generations of the demanded topics. -/
def demandedGenerations (topics : OrdMap TopicRef Topic) : OrdMap TopicRef Nat :=
  (topics.filter fun _ t => t.demanded).map fun _ t => t.state.generation

theorem get?_demandedGenerations {i : Inner} {id : String} {s : Session}
    (hs : i.sessions.get? id = some s) (key : TopicRef) :
    (demandedGenerations s.topics).get? key = i.demandedAt id key := by
  rw [demandedGenerations, OrdMap.get?_map, OrdMap.get?_filter, Inner.demandedAt, hs,
    Option.bind_some]

namespace PollTicket

variable {ticket previous : PollTicket} {key : TopicRef}

/-- The topics of a ticket with their generations. -/
def generations (ticket : PollTicket) : List (TopicRef × Nat) :=
  ticket.topics.map fun d => (d.key, d.generation)

theorem sameDemand_iff : ticket.sameDemand previous = true ↔
    ticket.sessionId = previous.sessionId ∧ ticket.generations = previous.generations := by
  unfold sameDemand generations
  rw [Bool.and_assoc, Bool.and_eq_true, beq_iff_eq]
  refine and_congr_right fun _ => ?_
  generalize ticket.topics = l, previous.topics = l'
  induction l generalizing l' with
  | nil => cases l' <;> simp
  | cons d l ih =>
    cases l' with
    | nil => simp
    | cons d' l' =>
      have := ih l'
      simp only [List.length_cons, List.zip_cons_cons, List.all_cons, List.map_cons, List.cons.injEq,
        Prod.mk.injEq, Bool.and_eq_true, beq_iff_eq] at this ⊢
      rw [← this]
      constructor
      · rintro ⟨hl, hd, hall⟩
        exact ⟨hd, by omega, hall⟩
      · rintro ⟨hd, hl, hall⟩
        exact ⟨by omega, hd, hall⟩

theorem generations_current {i : Inner} {id : String} (h : current i id = some ticket) {s : Session}
    (hs : i.sessions.get? id = some s) :
    ticket.generations = (demandedGenerations s.topics).entries := by
  obtain ⟨-, s', hs', rfl⟩ := current_some h
  obtain rfl : s = s' := Option.some.inj (hs.symm.trans hs')
  simp [generations, demands, demandedGenerations, OrdMap.map, List.map_map, Function.comp_def]

/-- The topics of two maps, one of them with some generations raised. -/
theorem entries_raised {m n : OrdMap TopicRef Nat} (f : TopicRef → Nat → Nat) :
    m.entries = n.entries.map (fun e => (e.1, f e.1 e.2)) ↔
      ∀ key, m.get? key = (n.get? key).map (f key) := by
  have hmap : (n.map f).entries = n.entries.map fun e => (e.1, f e.1 e.2) := rfl
  rw [← hmap]
  constructor
  · intro h key
    rw [← OrdMap.get?_map]
    unfold OrdMap.get?
    rw [h]
  · intro h
    rw [show m = n.map f from OrdMap.ext_get? fun key => by rw [h, OrdMap.get?_map]]

theorem rebase_topics (hkeyed : ticket.Keyed) (key : TopicRef) (generation epoch : Nat) :
    (ticket.rebase key generation epoch).topics =
      ticket.topics.map fun d => if d.key = key then { d with generation, epoch } else d := by
  unfold rebase Keyed at *
  dsimp only
  generalize ticket.topics = l at hkeyed
  induction l with
  | nil => rfl
  | cons d l ih =>
    rw [List.map_cons, List.nodup_cons] at hkeyed
    by_cases hk : d.key = key
    · have hrest : l.map (fun d => if d.key = key then { d with generation, epoch } else d) = l := by
        refine List.map_congr_left (g := id) (fun e he => if_neg fun hek => hkeyed.1 ?_) |>.trans
          (List.map_id l)
        rw [hk, ← hek]
        exact List.mem_map_of_mem he
      rw [List.map_cons, hrest, if_pos hk, List.findIdx_cons]
      simp [hk]
    · rw [List.map_cons, if_neg hk, List.findIdx_cons, ← ih hkeyed.2]
      simp [hk, Bool.cond_eq_ite]

theorem rebase_keyed (hkeyed : ticket.Keyed) (key : TopicRef) (generation epoch : Nat) :
    (ticket.rebase key generation epoch).Keyed := by
  have hkeys : (ticket.rebase key generation epoch).topics.map Demand.key =
      ticket.topics.map Demand.key := by
    rw [rebase_topics hkeyed, List.map_map]
    refine List.map_congr_left fun d _ => ?_
    simp only [Function.comp_apply]
    split <;> rfl
  unfold Keyed
  rw [hkeys]
  exact hkeyed

end PollTicket

namespace Inner

variable {session : Session}

/-- `retry` raises the generation of the topics that were reset. -/
theorem retry_generations {ticket : PollTicket} (hkeyed : ticket.Keyed)
    {affected : OrdMap TopicRef Bool}
    (hgen : ∀ key, affected.get? key = some true → ∃ t, session.topics.get? key = some t ∧
      ∀ d ∈ ticket.topics, d.key = key → d.generation = t.state.generation) :
    (retry ticket affected session).sessionId = ticket.sessionId ∧
      (retry ticket affected session).generations = ticket.generations.map fun e =>
        (e.1, e.2 + if affected.get? e.1 = some true then 1 else 0) := by
  have hnodup := affected.keys_nodup
  have hmem : ∀ key, affected.get? key = some true ↔ (key, true) ∈ affected.entries :=
    fun key => OrdMap.get?_eq_some
  simp only [hmem] at hgen ⊢
  unfold retry OrdMap.keys at *
  generalize affected.entries = l at hgen hnodup
  -- One entry after the other: those that remain do not touch the topic of the one before.
  induction l generalizing ticket with
  | nil => simp [PollTicket.generations]
  | cons e l ih =>
    obtain ⟨key, reset⟩ := e
    rw [List.map_cons, List.nodup_cons] at hnodup
    have hother : (key, true) ∉ l := fun hm => hnodup.1 (List.mem_map.mpr ⟨_, hm, rfl⟩)
    rw [List.foldl_cons]
    cases reset with
    | false =>
      obtain ⟨hid, hg⟩ := ih hkeyed (fun k hk => hgen k (List.mem_cons_of_mem _ hk)) hnodup.2
      refine ⟨hid, hg.trans (List.map_congr_left fun e _ => ?_)⟩
      simp
    | true =>
      obtain ⟨t, ht, htgen⟩ := hgen key (by simp)
      dsimp only
      rw [ht]
      have htopics := PollTicket.rebase_topics hkeyed key (t.state.generation + 1) (t.epoch + 1)
      obtain ⟨hid, hg⟩ := ih
        (PollTicket.rebase_keyed hkeyed key (t.state.generation + 1) (t.epoch + 1))
        (fun k hk => by
          obtain ⟨t', ht', hgen'⟩ := hgen k (List.mem_cons_of_mem _ hk)
          refine ⟨t', ht', fun d hd hdk => ?_⟩
          rw [htopics] at hd
          obtain ⟨d₀, hd₀, rfl⟩ := List.mem_map.mp hd
          split at hdk
          · rename_i hk₀
            exact absurd hk ((hk₀.symm.trans hdk) ▸ hother)
          · rename_i hk₀
            rw [if_neg hk₀]
            exact hgen' d₀ hd₀ hdk) hnodup.2
      refine ⟨hid, ?_⟩
      rw [hg, PollTicket.generations, PollTicket.generations, htopics, List.map_map, List.map_map,
        List.map_map]
      refine List.map_congr_left fun d hd => ?_
      simp only [Function.comp_apply]
      by_cases hk : d.key = key
      · subst hk
        simp [htgen d hd rfl, hother]
      · simp [hk]

variable [Postcard] {i : Inner} {ticket : PollTicket} {resets : List TopicRef} {failed : Bool}

/-- A poll that can be discarded is, and the current ticket is given back if only the poll's own
resets have changed the demand. -/
theorem discardPoll_eq (hd : i.Discards ticket resets failed session) (now : Instant) :
    i.discardPoll ticket resets failed now =
      ((PollTicket.current ((i.discardTransaction ticket resets failed session).settle now)
        ticket.sessionId).filter fun current =>
          current.sameDemand (retry ticket (affected ticket resets failed session) session),
        (i.discardTransaction ticket resets failed session).settle now) := by
  have htransaction : (i.discardPoll ticket resets failed now).2 =
      (i.discardTransaction ticket resets failed session).settle now := hd.discardPoll_eq now
  refine Prod.ext ?_ htransaction
  rw [← htransaction]
  have hlen := discardChanges_length ticket resets failed session ticket.sessionId
  have hspent : ((affected ticket resets failed session).any fun key reset =>
      reset && (session.topics.get? key).any Topic.spent) = false := by
    by_contra hany
    obtain ⟨key, reset, ha, hr⟩ := OrdMap.any_iff.mp (eq_true_of_ne_false hany)
    obtain ⟨rfl, hr⟩ := Bool.and_eq_true_iff.mp hr
    obtain ⟨t, ht, hsp⟩ := (Option.any_eq_true _ _).mp hr
    rw [hd.unspent key t ha ht] at hsp
    cases hsp
  have hroom : i.ensureSequences ((affected ticket resets failed session).size +
      ((affected ticket resets failed session).filter fun _ reset => reset).size) = (true, i) := by
    rcases ensureSequences_cases hd.stopped ((affected ticket resets failed session).size +
      ((affected ticket resets failed session).filter fun _ reset => reset).size) with
      ⟨-, he⟩ | ⟨hc, -⟩
    · exact he
    · have := hd.room
      rw [discardList, hlen] at this
      omega
  simp only [discardPoll, hd.stopped, hd.found, hspent, hroom, Bool.false_eq_true, if_false]
  split
  · rename_i hn
    rw [hn]
    rfl
  · rename_i current hc
    rw [hc, Option.filter_some]

/-! ## The poll's own marks -/

omit [Postcard] in
/-- The marks of the discarded poll itself: the failures and the declared resets. -/
theorem discardList_own (hs : i.sessions.get? ticket.sessionId = some session) {m : Mark}
    (hm : m ∈ (discardList ticket resets failed session).map Change.mark) :
    ∃ key, m = .failed ticket.sessionId key ∨
      m = .reset ticket.sessionId key ∧ declared ticket resets i ticket.sessionId key = true := by
  obtain ⟨c, hc, rfl⟩ := List.mem_map.mp hm
  obtain ⟨⟨key, t⟩, he, hc⟩ := List.mem_flatMap.mp hc
  have ht : session.topics.get? key = some t := OrdMap.get?_eq_some.mpr he
  refine ⟨key, ?_⟩
  unfold discardChanges at hc
  split at hc
  · cases hc
  rename_i reset ha
  have hreset : reset = true → declared ticket resets i ticket.sessionId key = true := by
    rintro rfl
    have hit : discardHits ticket resets failed session ticket.sessionId key = true := by
      simp [discardHits, ha]
    exact (discardHits_declared hs hs ht).symm.trans hit
  cases reset with
  | false =>
    rw [Topic.discard] at hc
    simp only [Bool.false_eq_true, if_false, List.nil_append, List.mem_singleton] at hc
    exact .inl (congrArg Change.mark hc)
  | true =>
    simp only [Topic.discard, if_true, List.singleton_append, List.mem_cons, List.not_mem_nil,
      or_false] at hc
    rcases hc with rfl | rfl
    · exact .inr ⟨rfl, hreset rfl⟩
    · exact .inl rfl

/-- The service after the discarded poll's own updates. -/
theorem discardTransaction_quiet (hd : i.Discards ticket resets failed session) :
    Quiet (i.discardStored ticket resets failed session)
      (i.discardTransaction ticket resets failed session) :=
  (emitAll_room (i := i.discardStored ticket resets failed session)
    ((discardList ticket resets failed session).map Change.update) hd.stopped (by
      rw [List.length_map]
      exact hd.room)).1

/-- The discarded poll's own resets raise the generation of a demanded topic, and nothing else. -/
theorem discardTransaction_demandedAt (hd : i.Discards ticket resets failed session) (id : String)
    (key : TopicRef) :
    (i.discardTransaction ticket resets failed session).demandedAt id key =
      (i.demandedAt id key).map fun n =>
        n + if discardHits ticket resets failed session id key then 1 else 0 := by
  unfold demandedAt
  rw [(discardTransaction_quiet hd).sessions, (discard_sweep resets failed hd.found).1, sweep_get?]
  cases hs : i.sessions.get? id with
  | none => rfl
  | some s =>
    simp only [Option.map_some, Option.bind_some, OrdMap.get?_map]
    cases ht : s.topics.get? key with
    | none => rfl
    | some t =>
      obtain ⟨-, hdem, hgen⟩ := discardSteps_generation ticket resets failed session id s key t
      cases ht' : t.demanded with
      | false => simp [Option.filter, hdem, ht']
      | true => simp [Option.filter, hdem, ht', hgen]

theorem discardTransaction_leads {i₀ : Inner} {others : List Mark} (h : Leads i₀ i others)
    (hd : i.Discards ticket resets failed session) :
    Leads i (i.discardTransaction ticket resets failed session)
      ((discardList ticket resets failed session).map Change.mark) := by
  have hq := discardTransaction_quiet hd
  refine ⟨hq.history.trans rfl, ?_, ⟨h.accounted.2, ?_⟩, h.counted.2, ?_⟩
  · exact (lasting_effects i fun _ => True).announced.discard hd (.refl i)
  · obtain ⟨marks, hm, hmatch⟩ :=
      (posted_effects i fun _ => True).announced.discard hd (Posted.refl i)
    intro hopen id s key t hs ht
    rw [hm, account, Account.posted_append, ← account]
    exact hmatch hopen id s key t hs ht _ fun s₀ t₀ hs₀ ht₀ => h.accounted.2 hd.stopped id s₀ key t₀ hs₀ ht₀
  · exact (counted_lives fun _ => True).effects.announced.discard hd h.counted.2

end Inner

/-! ## What a later state shows -/

section later

variable [Postcard] {i₀ i k : Inner} {ticket : PollTicket} {resets : List TopicRef} {failed : Bool}
  {session : Session} {id : String} {others more : List Mark} {key : TopicRef} {n : Nat}

omit [Postcard] in
/-- The ticket's topics are those that were demanded when it was taken. -/
theorem PollTicket.find?_demandedAt (h : PollTicket.current i₀ id = some ticket) (key : TopicRef) :
    (ticket.find? key).map Demand.generation = i₀.demandedAt id key := by
  obtain ⟨-, s, hs, -⟩ := PollTicket.current_some h
  rw [PollTicket.find?_current h hs, Inner.demandedAt, hs, Option.bind_some, Option.map_map]
  rfl

omit [Postcard] in
/-- The discarded poll resets a topic in the ticket's generation only. -/
theorem demandedAt_of_hits (hcurrent : PollTicket.current i₀ id = some ticket)
    (hs : i.sessions.get? ticket.sessionId = some session)
    (hit : discardHits ticket resets failed session id key = true)
    (hn : i₀.demandedAt id key = some n) : i.demandedAt id key = some n := by
  rw [discardHits, Bool.and_eq_true, beq_iff_eq, beq_iff_eq] at hit
  obtain ⟨d, hd, rfl, t, ht, hdem, hgen, -⟩ := Inner.affected_some hit.2
  refine Inner.demandedAt_eq_some.mpr ⟨session, t, hit.1 ▸ hs, ht, hdem, ?_⟩
  rw [← PollTicket.find?_demandedAt hcurrent, (PollTicket.current_keyed hcurrent).find? hd] at hn
  exact hgen.trans (Option.some.inj hn)

/-- A topic of the ticket is later demanded in the ticket's generation, with the poll's own reset,
exactly if nothing else has shifted it since the ticket was taken. -/
theorem demandedAt_discarded (hcurrent : PollTicket.current i₀ id = some ticket)
    (h₀ : Leads i₀ i others) (hd : i.Discards ticket resets failed session)
    (h₁ : Leads (i.discardTransaction ticket resets failed session) k more)
    (hopen : k.stopped = false) (hc : k.sessions.contains id = true)
    (hnot : .started id ∉ others ++ more) (hn : i₀.demandedAt id key = some n) :
    k.demandedAt id key = some (n + if discardHits ticket resets failed session id key then 1 else 0) ↔
      ∀ m ∈ others ++ more, m.shifts id key = false := by
  have hown := Inner.discardTransaction_leads h₀ hd
  rw [List.mem_append, not_or] at hnot
  have hstored : (i.discardTransaction ticket resets failed session).sessions.contains id = true :=
    h₁.contains hnot.2 hc
  have hnotown : .started id ∉ (Inner.discardList ticket resets failed session).map Change.mark := by
    intro hm
    obtain ⟨key, hm | ⟨hm, -⟩⟩ := Inner.discardList_own hd.found hm <;> cases hm
  have hci : i.sessions.contains id = true := hown.contains hnotown hstored
  have hbefore : Between id i₀ i others := h₀.between hd.stopped hnot.1 hci
  have hafter : Between id (i.discardTransaction ticket resets failed session) k more :=
    h₁.between hopen hnot.2 hc
  have htransaction := Inner.discardTransaction_demandedAt hd id key
  constructor
  · intro hk
    by_contra hshift
    push Not at hshift
    obtain ⟨m, hm, hs⟩ := hshift
    have hs : m.shifts id key = true := by simpa using hs
    by_cases hothers : ∃ m ∈ others, m.shifts id key = true
    · -- The poll's reset was not applied, and the generation has gone up since the ticket.
      have hhit : discardHits ticket resets failed session id key = false := by
        by_contra hhit
        have := hbefore.shifted hothers hn
          (demandedAt_of_hits hcurrent hd.found (eq_true_of_ne_false hhit) hn)
        omega
      rw [hhit] at hk
      have hall : Between id i₀ k (others ++
          ((Inner.discardList ticket resets failed session).map Change.mark ++ more)) := by
        refine (h₀.trans (hown.trans h₁)).between hopen ?_ hc
        simp only [List.mem_append, not_or]
        exact ⟨hnot.1, hnotown, hnot.2⟩
      obtain ⟨m, hm, hs⟩ := hothers
      have := hall.shifted ⟨m, List.mem_append_left _ hm, hs⟩ hn hk
      simp at this
    · push Not at hothers
      have hi : i.demandedAt id key = some n := by
        rw [hbefore.still h₀.lasting hci fun m hm => by simpa using hothers m hm, hn]
      rw [hi, Option.map_some] at htransaction
      have hmore : m ∈ more := by
        rcases List.mem_append.mp hm with hm | hm
        · exact absurd hs (hothers m hm)
        · exact hm
      have := hafter.shifted ⟨m, hmore, hs⟩ htransaction hk
      omega
  · intro hno
    rw [hafter.still h₁.lasting hc fun m hm => hno m (List.mem_append_right _ hm), htransaction,
      hbefore.still h₀.lasting hci fun m hm => hno m (List.mem_append_left _ hm), hn]
    rfl

omit [Postcard] in
theorem PollTicket.sameDemand_current {c c' : PollTicket} (h : PollTicket.current i id = some c)
    (h' : PollTicket.current k id = some c') :
    c.sameDemand c' = true ↔ ∀ key, i.demandedAt id key = k.demandedAt id key := by
  obtain ⟨-, s, hs, he⟩ := PollTicket.current_some h
  obtain ⟨-, s', hs', he'⟩ := PollTicket.current_some h'
  rw [PollTicket.sameDemand_iff, PollTicket.generations_current h hs,
    PollTicket.generations_current h' hs', he, he']
  have := PollTicket.entries_raised (m := demandedGenerations s.topics)
    (n := demandedGenerations s'.topics) fun _ n => n
  simp only [Prod.mk.eta, List.map_id', Option.map_id', get?_demandedGenerations hs,
    get?_demandedGenerations hs'] at this
  simpa using this

omit [Postcard] in
/-- The current ticket is the discarded one with the poll's own resets. -/
theorem PollTicket.sameDemand_retry {c : PollTicket} (hcurrent : PollTicket.current i₀ id = some ticket)
    (h : PollTicket.current k id = some c) :
    c.sameDemand (Inner.retry ticket (Inner.affected ticket resets failed session) session) = true ↔
      ∀ key, k.demandedAt id key = (i₀.demandedAt id key).map fun n =>
        n + if discardHits ticket resets failed session id key then 1 else 0 := by
  have hkeyed := PollTicket.current_keyed hcurrent
  obtain ⟨-, s, hs, he⟩ := PollTicket.current_some h
  obtain ⟨-, s₀, hs₀, he₀⟩ := PollTicket.current_some hcurrent
  have hid : id = ticket.sessionId := by rw [he₀]
  have hgen : ∀ key, (Inner.affected ticket resets failed session).get? key = some true →
      ∃ t, session.topics.get? key = some t ∧
        ∀ d ∈ ticket.topics, d.key = key → d.generation = t.state.generation := by
    intro key ha
    obtain ⟨d, hd, rfl, t, ht, -, hgen, -⟩ := Inner.affected_some ha
    refine ⟨t, ht, fun d' hd' hk => ?_⟩
    have hfind := hkeyed.find? hd'
    rw [hk, hkeyed.find? hd] at hfind
    rw [← Option.some.inj hfind, hgen]
  obtain ⟨hretry, hgens⟩ := Inner.retry_generations hkeyed hgen
  rw [PollTicket.sameDemand_iff, hretry, hgens, PollTicket.generations_current h hs,
    PollTicket.generations_current hcurrent hs₀]
  have hraised := PollTicket.entries_raised (m := demandedGenerations s.topics)
    (n := demandedGenerations s₀.topics) fun key n =>
      n + if (Inner.affected ticket resets failed session).get? key = some true then 1 else 0
  simp only [get?_demandedGenerations hs, get?_demandedGenerations hs₀] at hraised
  rw [hraised]
  have hsame : c.sessionId = ticket.sessionId := by rw [he, ← hid]
  have hits : ∀ key, discardHits ticket resets failed session id key = true ↔
      (Inner.affected ticket resets failed session).get? key = some true := by
    intro key
    rw [discardHits, hid]
    simp
  simp only [hsame, true_and, hits]

/-- What a later poll finds changed: a topic of the ticket that was shifted since, or another topic
that is demanded, then or when the poll was discarded. -/
theorem discardPoll_changed {i₁ i₂ : Inner} {now : Instant} {others' later : List Mark}
    (hcurrent : PollTicket.current i₀ id = some ticket) (h₀ : Leads i₀ i others)
    (hd : i.Discards ticket resets failed session)
    (hi₁ : i₁ = (i.discardTransaction ticket resets failed session).settle now)
    (h₁ : Leads (i.discardTransaction ticket resets failed session) i₁ others')
    (h₂ : Leads i₁ i₂ later) {c : PollTicket} (hc : PollTicket.current i₂ id = some c)
    (hnot : .started id ∉ others ++ others' ++ later) :
    ((i.discardPoll ticket resets failed now).1.all fun previous => !c.sameDemand previous) = true ↔
      (∃ d ∈ ticket.topics, ∃ m ∈ others ++ others' ++ later, m.shifts id d.key = true) ∨
        ∃ key, ticket.find? key = none ∧
          (i₁.demandedAt id key ≠ none ∨ i₂.demandedAt id key ≠ none) := by
  simp only [List.mem_append, not_or] at hnot
  obtain ⟨⟨hnot₀, hnot₁⟩, hnot₂⟩ := hnot
  obtain ⟨hopen₂, s₂, hs₂, -⟩ := PollTicket.current_some hc
  have hc₂ : i₂.sessions.contains id = true := OrdMap.contains_iff.mpr ⟨s₂, hs₂⟩
  have hopen₁ := h₂.running hopen₂
  have hc₁ := h₂.contains hnot₂ hc₂
  obtain ⟨s₁, hs₁⟩ := OrdMap.contains_iff.mp hc₁
  obtain ⟨c₁, hcurrent₁⟩ : ∃ c₁, PollTicket.current i₁ id = some c₁ :=
    ⟨⟨id, PollTicket.demands s₁.topics⟩, by simp [PollTicket.current, hopen₁, hs₁]⟩
  have hid : ticket.sessionId = id := by
    obtain ⟨-, s, -, he⟩ := PollTicket.current_some hcurrent
    rw [he]
  -- The demand that is expected after the discard, and until the next poll.
  let expected (key : TopicRef) : Option Nat := (i₀.demandedAt id key).map fun n =>
    n + if discardHits ticket resets failed session id key then 1 else 0
  have hchanged : ((i.discardPoll ticket resets failed now).1.all fun previous =>
      !c.sameDemand previous) = true ↔
        ∃ key, i₁.demandedAt id key ≠ expected key ∨ i₂.demandedAt id key ≠ expected key := by
    rw [Inner.discardPoll_eq hd, ← hi₁, hid, hcurrent₁]
    have hretry : c₁.sameDemand
        (Inner.retry ticket (Inner.affected ticket resets failed session) session) = true ↔
          ∀ key, i₁.demandedAt id key = expected key :=
      PollTicket.sameDemand_retry hcurrent hcurrent₁
    have hlater := PollTicket.sameDemand_current hc hcurrent₁
    rw [Option.filter_some]
    split
    · rename_i hsame
      have hsame := hretry.mp hsame
      rw [Option.all_some, Bool.not_eq_true', ← Bool.not_eq_true, hlater, not_forall]
      refine exists_congr fun key => ?_
      rw [hsame key]
      simp [expected]
    · rename_i hdiff
      rw [hretry, not_forall] at hdiff
      obtain ⟨key, hdiff⟩ := hdiff
      simp only [Option.all_none, true_iff]
      exact ⟨key, .inl hdiff⟩
  rw [hchanged]
  have hat : ∀ {d}, d ∈ ticket.topics → i₀.demandedAt id d.key = some d.generation := by
    intro d hd
    rw [← PollTicket.find?_demandedAt hcurrent, (PollTicket.current_keyed hcurrent).find? hd]
    rfl
  have hexpected : ∀ {d}, d ∈ ticket.topics → expected d.key = some (d.generation +
      if discardHits ticket resets failed session id d.key then 1 else 0) := by
    intro d hd'
    simp only [expected, hat hd', Option.map_some]
  have hat₁ : ∀ {d}, d ∈ ticket.topics → (i₁.demandedAt id d.key = expected d.key ↔
      ∀ m ∈ others ++ others', m.shifts id d.key = false) := by
    intro d hd'
    rw [hexpected hd']
    exact demandedAt_discarded hcurrent h₀ hd h₁ hopen₁ hc₁ (by simp [hnot₀, hnot₁]) (hat hd')
  have hat₂ : ∀ {d}, d ∈ ticket.topics → (i₂.demandedAt id d.key = expected d.key ↔
      ∀ m ∈ others ++ (others' ++ later), m.shifts id d.key = false) := by
    intro d hd'
    rw [hexpected hd']
    exact demandedAt_discarded hcurrent h₀ hd (h₁.trans h₂) hopen₂ hc₂
      (by simp [hnot₀, hnot₁, hnot₂]) (hat hd')
  constructor
  · rintro ⟨key, hkey⟩
    cases hfind : ticket.find? key with
    | none =>
      have hnone : expected key = none := by
        simp only [expected, ← PollTicket.find?_demandedAt hcurrent, hfind]
        rfl
      rw [hnone] at hkey
      exact .inr ⟨key, hfind, hkey⟩
    | some d =>
      obtain ⟨hd', rfl⟩ := PollTicket.find?_mem hfind
      refine .inl ⟨d, hd', ?_⟩
      rw [ne_eq, ne_eq, hat₁ hd', hat₂ hd'] at hkey
      rcases hkey with hkey | hkey
      · push Not at hkey
        obtain ⟨m, hm, hs⟩ := hkey
        exact ⟨m, List.mem_append_left _ hm, by simpa using hs⟩
      · push Not at hkey
        obtain ⟨m, hm, hs⟩ := hkey
        exact ⟨m, by rwa [List.append_assoc], by simpa using hs⟩
  · rintro (⟨d, hd', m, hm, hs⟩ | ⟨key, hfind, hkey⟩)
    · refine ⟨d.key, .inr fun he => ?_⟩
      have := (hat₂ hd').mp he m (by rwa [← List.append_assoc])
      rw [hs] at this
      cases this
    · refine ⟨key, ?_⟩
      have hnone : expected key = none := by
        simp only [expected, ← PollTicket.find?_demandedAt hcurrent, hfind]
        rfl
      rwa [hnone]

end later

end Service
end WfObserver
