import WfObserver.Lib.Runs
import WfObserver.Lifecycle.Worker

/-!
# The lifecycle invariant

`Ok` ties the reported activities to the attachments. Every operation of a turn keeps it, so that
every published status reports exactly the processes that had an attachment (`Ok.turn`). What a step
does to one process is a function of what it is told about that process (`step_local`); a process
that waits is left alone (`visitAll_waits`), which gives the retry deadline over whole runs
(`turns_deadline`).
-/

namespace WfObserver
namespace Worker

open Wire Service

/-- The status reports the process as observed. -/
def Observed (status : HostStatus) (p : RecordedProcess) : Prop :=
  ∃ t ∈ status.targets, t.target.process = p ∧ ∃ id, t.activity = .observing id

/-- The entry of a process: observed as the attachment that it has, or without attachment. -/
structure TrackedTarget.Ok (made : List (RecordedProcess × String)) (p : RecordedProcess)
    (t : TrackedTarget) : Prop where
  keyed : t.status.target.process = p
  observed : ∀ n, t.attachment = some n →
    ∃ id, t.status.activity = .observing id ∧ made[n]? = some (p, id)
  free : t.attachment = none → ∀ id, t.status.activity ≠ .observing id
  waiting : ∀ error, t.status.activity = .retrying error →
    t.attachment = none ∧ ∃ deadline, t.retryAt = some deadline

theorem TrackedTarget.Ok.mono {made made' : List (RecordedProcess × String)} {p : RecordedProcess}
    {t : TrackedTarget} (h : t.Ok made p) (hm : made <+: made') : t.Ok made' p := by
  refine ⟨h.keyed, fun n hn => ?_, h.free, h.waiting⟩
  obtain ⟨id, hid, hmade⟩ := h.observed n hn
  obtain ⟨rest, rfl⟩ := hm
  exact ⟨id, hid, (List.getElem?_append_left (List.getElem?_eq_some_iff.mp hmade).1).trans hmade⟩

namespace Lifecycle

variable {l : Lifecycle} {a : Answers}

structure Ok (l : Lifecycle) : Prop where
  targets : ∀ p t, l.targets.get? p = some t → t.Ok l.made p
  reported : ∀ r ∈ l.published, ∀ p, Observed r.1 p ↔ p ∈ r.2

/-- The current status reports the processes with an attachment. -/
theorem Ok.status (h : Ok l) (p : RecordedProcess) : Observed l.status p ↔ p ∈ l.held := by
  simp only [Observed, Lifecycle.status, List.mem_map, OrdMap.mem_values, held, OrdMap.mem_keys,
    OrdMap.get?_filter_some]
  constructor
  · rintro ⟨_, ⟨t, ⟨k, hk⟩, rfl⟩, rfl, id, hid⟩
    have hok := h.targets k t hk
    rw [hok.keyed]
    refine ⟨t, hk, ?_⟩
    by_contra hfree
    exact hok.free (by simpa using hfree) id hid
  · rintro ⟨t, ht, hatt⟩
    obtain ⟨n, hn⟩ := Option.isSome_iff_exists.mp hatt
    have hok := h.targets p t ht
    obtain ⟨id, hid, -⟩ := hok.observed n hn
    exact ⟨t.status, ⟨t, ⟨p, ht⟩, rfl⟩, hok.keyed, id, hid⟩

theorem Ok.publish (h : Ok l) : Ok l.publish := by
  refine ⟨h.targets, fun r hr => ?_⟩
  rcases List.mem_append.mp hr with hr | hr
  · exact h.reported r hr
  · obtain rfl := List.mem_singleton.mp hr
    exact h.status

/-- Some entries go. -/
theorem Ok.filter (h : Ok l) (keep : RecordedProcess → TrackedTarget → Bool)
    (discoveryError : Option String) (nextDiscovery : Option Instant) :
    Ok { l with targets := l.targets.filter keep, discoveryError, nextDiscovery } :=
  ⟨fun p t ht => h.targets p t (OrdMap.get?_filter_some.mp ht).1, h.reported⟩

theorem Ok.put (h : Ok l) {p : RecordedProcess} {t : TrackedTarget} (ht : t.Ok l.made p) :
    Ok (l.put p t) := by
  refine ⟨fun q u hu => ?_, h.reported⟩
  simp only [Lifecycle.put, OrdMap.get?_insert] at hu
  split at hu
  · rename_i hq
    cases hu
    exact hq ▸ ht
  · exact h.targets q u hu

theorem Ok.attempted (h : Ok l) (attempts : List (RecordedProcess × Instant)) :
    Ok { l with attempts } := ⟨h.targets, h.reported⟩

/-- An attempt leaves an observed process with a new attachment, or one without. -/
theorem tracked_ok (a : Answers) {p : RecordedProcess} {target : TargetInfo}
    (hkey : target.process = p) (made : List (RecordedProcess × String)) :
    (tracked a p target made.length).Ok
      (made ++ ((attach a p).toOption.map fun id => (p, id)).toList) p := by
  unfold tracked
  cases attach a p with
  | ok id =>
    refine ⟨hkey, fun n hn => ?_, fun hnone => (by cases hnone), fun error he => (by cases he)⟩
    cases hn
    exact ⟨id, rfl, by simp [Except.toOption]⟩
  | error error =>
    exact ⟨hkey, fun n hn => (by cases hn), fun _ id hid => (by cases hid), fun _ _ => ⟨rfl, _, rfl⟩⟩

theorem Ok.finish (h : Ok l) {p : RecordedProcess} {target : TargetInfo}
    (hkey : target.process = p) : Ok (l.finish a p target) := by
  refine Ok.publish (l := { l.put p (tracked a p target l.made.length) with made := _ }) ?_
  refine ⟨fun q u hu => ?_, h.reported⟩
  simp only [Lifecycle.put, OrdMap.get?_insert] at hu
  split at hu
  · rename_i hq
    cases hu
    exact hq ▸ tracked_ok a hkey l.made
  · exact (h.targets q u hu).mono (List.prefix_append _ _)

/-- What one turn of the loop over the candidates does: nothing, or an attempt at a process that does
not wait, which may be stopped. -/
theorem visit_cases (a : Answers) (p : RecordedProcess) (target : TargetInfo) (l : Lifecycle) :
    (l.visit a p target).1 = l ∨ waits (a.now p) (l.targets.get? p) = false ∧
      ((l.visit a p target).1 = (l.put p { status := ⟨target, .attaching⟩ }).publish ∨
        (l.visit a p target).1 = { (l.put p { status := ⟨target, .attaching⟩ }).publish with
          attempts := l.attempts ++ [(p, a.now p)] } ∨
        l.visit a p target = ({ (l.put p { status := ⟨target, .attaching⟩ }).publish with
          attempts := l.attempts ++ [(p, a.now p)] }.finish a p target, true)) := by
  unfold visit
  split
  · exact .inl rfl
  split
  · exact .inl rfl
  rename_i hwait
  refine .inr ⟨by simpa using hwait, ?_⟩
  dsimp only
  split
  · exact .inl rfl
  split
  · exact .inr (.inl rfl)
  · exact .inr (.inr rfl)

theorem Ok.visit (h : Ok l) {p : RecordedProcess} {target : TargetInfo} (hkey : target.process = p) :
    Ok (l.visit a p target).1 := by
  have hattaching : Ok (l.put p { status := ⟨target, .attaching⟩ }).publish :=
    (h.put ⟨hkey, fun n hn => (by cases hn), fun _ id hid => (by cases hid),
      fun error he => (by cases he)⟩).publish
  rcases visit_cases a p target l with hsame | ⟨-, hsame | hsame | hsame⟩ <;> rw [hsame]
  · exact h
  · exact hattaching
  · exact hattaching.attempted _
  · exact (hattaching.attempted _).finish hkey

theorem Ok.visitAll {listed : List (RecordedProcess × TargetInfo)} (h : Ok l)
    (hkeys : ∀ c ∈ listed, c.2.process = c.1) : Ok (l.visitAll a listed).1 := by
  induction listed generalizing l with
  | nil => exact h
  | cons c listed ih =>
    have hv := h.visit (a := a) (hkeys c (by simp))
    simp only [Lifecycle.visitAll]
    split <;> rename_i l' hl' <;> rw [hl'] at hv
    · exact ih hv fun c' hc' => hkeys c' (List.mem_cons_of_mem _ hc')
    · exact hv

theorem candidates_keyed {found : List TargetInfo} {c : RecordedProcess × TargetInfo}
    (hc : c ∈ (candidates found).entries) : c.2.process = c.1 := by
  have hget := OrdMap.mem_of_get?_ofList (OrdMap.get?_eq_some.mpr hc)
  obtain ⟨target, -, hpair⟩ := List.mem_map.mp hget
  obtain ⟨hprocess, htarget⟩ := Prod.mk.inj hpair
  rw [← htarget, hprocess]

theorem Ok.step (h : Ok l) : Ok (l.step a).1 := by
  have hretained : Ok (l.retainCurrent a).publish :=
    (h.filter _ l.discoveryError l.nextDiscovery).publish
  unfold Lifecycle.step
  split
  · exact h
  dsimp only
  split
  · exact hretained
  split
  · exact hretained
  split
  · exact hretained
  split
  · exact Ok.publish ⟨hretained.targets, hretained.reported⟩
  · rename_i found hfound
    have hlisted := (hretained.filter (fun p t => t.attachment.isSome || (candidates found).contains p)
      none (some (a.discoveredAt + discoveryInterval))).publish
    have hall := hlisted.visitAll (a := a) fun c (hc : c ∈ (candidates found).entries) =>
      candidates_keyed hc
    split <;> rename_i l' hl'
    · have := congrArg Prod.fst hl'
      exact this ▸ hall
    · have := congrArg Prod.fst hl'
      exact this ▸ hall

theorem poll_ok {made : List (RecordedProcess × String)} {p : RecordedProcess} {t : TrackedTarget}
    (h : t.Ok made p) : (poll a p t).1.Ok made p := by
  unfold poll
  split
  · exact h
  split
  · split
    · exact h
    · exact h
    · exact ⟨h.keyed, fun n hn => (by cases hn), fun _ id hid => (by cases hid),
        fun _ _ => ⟨rfl, _, rfl⟩⟩
  · exact h

theorem Ok.turn (h : Ok l) : Ok (l.turn a).1 := by
  have hs := h.step (a := a)
  unfold Lifecycle.turn
  split
  · exact h
  split
  · rename_i l' hl'
    rw [hl'] at hs
    exact ⟨hs.targets, hs.reported⟩
  rename_i l' delay hl'
  rw [hl'] at hs
  have hpolled : Ok { l' with targets := (l'.targets.visit (Lifecycle.poll a)).1 } := by
    refine ⟨fun p t ht => ?_, hs.reported⟩
    obtain ⟨u, hu, rfl | rfl⟩ := OrdMap.visit_get? ht
    · exact hs.targets p _ hu
    · exact poll_ok (hs.targets p u hu)
  split <;> rename_i targets polled heq <;> rw [heq] at hpolled
  · exact ⟨hpolled.targets, hpolled.reported⟩
  · dsimp only
    split
    · exact hpolled.publish
    · exact hpolled

theorem ok_run (answers : List Answers) : Ok (run answers) := by
  have hempty : Ok {} := ⟨fun p t ht => by simp at ht, fun r hr => by cases hr⟩
  exact Runs.run_invariant (fun _ _ _ h => h.turn) (fun _ _ => trivial) hempty

/-! ## What is only added to -/

/-- The attachments and the attempts of a later state begin with those of an earlier one. -/
structure Grows (l l' : Lifecycle) : Prop where
  made : l.made <+: l'.made
  attempts : l.attempts <+: l'.attempts

theorem Grows.refl (l : Lifecycle) : Grows l l := ⟨List.prefix_rfl, List.prefix_rfl⟩

theorem Grows.trans {l l' l'' : Lifecycle} (h : Grows l l') (h' : Grows l' l'') : Grows l l'' :=
  ⟨h.made.trans h'.made, h.attempts.trans h'.attempts⟩

theorem visit_grows (a : Answers) (p : RecordedProcess) (target : TargetInfo) (l : Lifecycle) :
    Grows l (l.visit a p target).1 := by
  rcases visit_cases a p target l with hsame | ⟨-, hsame | hsame | hsame⟩ <;> rw [hsame]
  · exact .refl l
  · exact ⟨List.prefix_rfl, List.prefix_rfl⟩
  · exact ⟨List.prefix_rfl, List.prefix_append _ _⟩
  · exact ⟨List.prefix_append _ _, List.prefix_append _ _⟩

theorem visitAll_grows (a : Answers) (listed : List (RecordedProcess × TargetInfo)) (l : Lifecycle) :
    Grows l (l.visitAll a listed).1 := by
  induction listed generalizing l with
  | nil => exact .refl l
  | cons c listed ih =>
    have hv := visit_grows a c.1 c.2 l
    simp only [visitAll]
    split <;> rename_i l' hl' <;> rw [hl'] at hv
    · exact hv.trans (ih l')
    · exact hv

theorem step_grows (a : Answers) (l : Lifecycle) : Grows l (l.step a).1 := by
  unfold Lifecycle.step
  split
  · exact .refl l
  dsimp only
  split
  · exact ⟨List.prefix_rfl, List.prefix_rfl⟩
  split
  · exact ⟨List.prefix_rfl, List.prefix_rfl⟩
  split
  · exact ⟨List.prefix_rfl, List.prefix_rfl⟩
  split
  · exact ⟨List.prefix_rfl, List.prefix_rfl⟩
  · rename_i found hfound
    have hall : ∀ w : Lifecycle, w.made = l.made → w.attempts = l.attempts →
        Grows l (w.visitAll a (candidates found).entries).1 := fun w hm ha => by
      have := visitAll_grows a (candidates found).entries w
      exact ⟨hm ▸ this.made, ha ▸ this.attempts⟩
    split <;> rename_i l' hl' <;> exact (congrArg Prod.fst hl') ▸ hall _ rfl rfl

theorem turn_grows (a : Answers) (l : Lifecycle) : Grows l (l.turn a).1 := by
  have hs := step_grows a l
  unfold Lifecycle.turn
  split
  · exact .refl l
  split
  · rename_i l' hl'
    rw [hl'] at hs
    exact ⟨hs.made, hs.attempts⟩
  · rename_i l' delay hl'
    rw [hl'] at hs
    split
    · exact ⟨hs.made, hs.attempts⟩
    · dsimp only
      split <;> exact ⟨hs.made, hs.attempts⟩

theorem run_append (answers answers' : List Answers) :
    run (answers ++ answers') = answers'.foldl (fun l a => (l.turn a).1) (run answers) :=
  List.foldl_append

theorem turns_grow (answers : List Answers) (l : Lifecycle) :
    Grows l (answers.foldl (fun l a => (l.turn a).1) l) :=
  Runs.run_relation Grows.refl Grows.trans (fun l a _ => turn_grows a l) fun _ _ => trivial

/-! ## One process at a time -/

section process

variable {q : RecordedProcess}

theorem visit_other {p : RecordedProcess} (hq : q ≠ p) (target : TargetInfo) :
    (l.visit a p target).1.targets.get? q = l.targets.get? q := by
  rcases visit_cases a p target l with hsame | ⟨-, hsame | hsame | hsame⟩ <;> rw [hsame]
  · exact OrdMap.get?_insert_ne _ _ hq
  · exact OrdMap.get?_insert_ne _ _ hq
  · exact (OrdMap.get?_insert_ne _ _ hq).trans (OrdMap.get?_insert_ne _ _ hq)

theorem visit_waits {p : RecordedProcess} (hw : waits (a.now p) (l.targets.get? p) = true)
    (target : TargetInfo) : (l.visit a p target).1 = l := by
  rcases visit_cases a p target l with hsame | ⟨hnot, -⟩
  · exact hsame
  · rw [hw] at hnot
    cases hnot

/-- The attempts of a visit: none, or one that was allowed. -/
theorem visit_attempts (p : RecordedProcess) (target : TargetInfo) :
    ∃ new, (l.visit a p target).1.attempts = l.attempts ++ new ∧
      (new = [] ∨ new = [(p, a.now p)] ∧ waits (a.now p) (l.targets.get? p) = false) := by
  rcases visit_cases a p target l with hsame | ⟨hnot, hsame | hsame | hsame⟩ <;> rw [hsame]
  · exact ⟨[], (List.append_nil _).symm, .inl rfl⟩
  · exact ⟨[], (List.append_nil _).symm, .inl rfl⟩
  · exact ⟨_, rfl, .inr ⟨rfl, hnot⟩⟩
  · exact ⟨_, rfl, .inr ⟨rfl, hnot⟩⟩

/-- The loop over the candidates attempts each process at most once, where its entry allows it. -/
theorem visitAll_attempts {listed : List (RecordedProcess × TargetInfo)}
    (hkeys : (listed.map (·.1)).Nodup) : ∃ new, (l.visitAll a listed).1.attempts = l.attempts ++ new ∧
      (new.map (·.1)).Sublist (listed.map (·.1)) ∧
      ∀ e ∈ new, e.2 = a.now e.1 ∧ waits (a.now e.1) (l.targets.get? e.1) = false := by
  induction listed generalizing l with
  | nil => exact ⟨[], (List.append_nil _).symm, .slnil, fun e he => (by cases he)⟩
  | cons c listed ih =>
    obtain ⟨p, target⟩ := c
    obtain ⟨hfresh, hkeys⟩ := List.nodup_cons.mp hkeys
    obtain ⟨first, hfirst, hcase⟩ := visit_attempts (l := l) (a := a) p target
    have hhead : (first.map (·.1)).Sublist [p] ∧
        ∀ e ∈ first, e.2 = a.now e.1 ∧ waits (a.now e.1) (l.targets.get? e.1) = false := by
      rcases hcase with rfl | ⟨rfl, hnot⟩
      · exact ⟨List.nil_sublist _, fun e he => (by cases he)⟩
      · refine ⟨List.Sublist.refl _, fun e he => ?_⟩
        obtain rfl := List.mem_singleton.mp he
        exact ⟨rfl, hnot⟩
    simp only [visitAll]
    split <;> rename_i l' hl' <;> rw [hl'] at hfirst
    · obtain ⟨new, hnew, hsub, hall⟩ := ih hkeys (l := l')
      refine ⟨first ++ new, by rw [hnew, hfirst, List.append_assoc], ?_, fun e he => ?_⟩
      · rw [List.map_append, List.map_cons]
        exact hhead.1.append hsub
      · rcases List.mem_append.mp he with he | he
        · exact hhead.2 e he
        · obtain ⟨hnow, hnot⟩ := hall e he
          refine ⟨hnow, ?_⟩
          -- A later candidate has the entry that it had before this one.
          have hne : e.1 ≠ p := fun heq =>
            hfresh (heq ▸ hsub.subset (List.mem_map_of_mem he))
          have hother := visit_other (l := l) (a := a) hne target
          rw [hl'] at hother
          rwa [hother] at hnot
    · exact ⟨first, hfirst, hhead.1.trans (List.singleton_sublist.mpr (by simp)), hhead.2⟩

theorem visitAll_waits (listed : List (RecordedProcess × TargetInfo))
    (hw : waits (a.now q) (l.targets.get? q) = true) :
    (l.visitAll a listed).1.targets.get? q = l.targets.get? q := by
  induction listed generalizing l with
  | nil => rfl
  | cons c listed ih =>
    obtain ⟨p, target⟩ := c
    have hone : (l.visit a p target).1.targets.get? q = l.targets.get? q := by
      by_cases hq : q = p
      · subst hq
        rw [visit_waits hw]
      · exact visit_other hq target
    simp only [visitAll]
    split <;> rename_i l' hl' <;> rw [hl'] at hone
    · rw [← hone] at hw ⊢
      exact ih hw
    · exact hone

/-- A visit that goes on attempts a process that does not wait, and leaves it with the entry of the
attempt. -/
theorem visit_entry (p : RecordedProcess) (target : TargetInfo)
    (hgo : (l.visit a p target).2 = true) (hw : waits (a.now p) (l.targets.get? p) = false) :
    (l.visit a p target).1.targets.get? p = some (tracked a p target l.made.length) ∧
      (l.visit a p target).1.attempts = l.attempts ++ [(p, a.now p)] := by
  unfold visit at hgo ⊢
  split at hgo
  · cases hgo
  rename_i hstop
  rw [if_neg hstop, if_neg (by simp [hw])]
  simp only [hw, Bool.false_eq_true, if_false] at hgo ⊢
  split at hgo
  · cases hgo
  rename_i hstop
  rw [if_neg hstop]
  split at hgo
  · cases hgo
  rename_i hstop
  rw [if_neg hstop]
  exact ⟨OrdMap.get?_insert_self _ _ _, rfl⟩

theorem visitAll_other {listed : List (RecordedProcess × TargetInfo)}
    (hq : q ∉ listed.map (·.1)) : (l.visitAll a listed).1.targets.get? q = l.targets.get? q := by
  induction listed generalizing l with
  | nil => rfl
  | cons c listed ih =>
    simp only [List.map_cons, List.mem_cons, not_or] at hq
    have hone := visit_other (l := l) (a := a) hq.1 c.2
    simp only [visitAll]
    split <;> rename_i l' hl' <;> rw [hl'] at hone
    · rw [← hone]
      exact ih hq.2
    · exact hone

/-- A finished loop attempts each candidate that does not wait, and leaves it with the entry of the
attempt. -/
theorem visitAll_entry {listed : List (RecordedProcess × TargetInfo)}
    (hkeys : (listed.map (·.1)).Nodup) (hgo : (l.visitAll a listed).2 = true) {target : TargetInfo}
    (hin : (q, target) ∈ listed) (hw : waits (a.now q) (l.targets.get? q) = false) :
    (∃ number, (l.visitAll a listed).1.targets.get? q = some (tracked a q target number)) ∧
      ∃ new, (l.visitAll a listed).1.attempts = l.attempts ++ new ∧ q ∈ new.map (·.1) := by
  induction listed generalizing l with
  | nil => cases hin
  | cons c listed ih =>
    obtain ⟨p, first⟩ := c
    obtain ⟨hfresh, hkeys⟩ := List.nodup_cons.mp hkeys
    have hentry := @visit_entry l a p first
    cases hv : l.visit a p first with
    | mk l' goes =>
      cases goes with
      | false =>
        simp only [visitAll, hv] at hgo
        cases hgo
      | true =>
        simp only [visitAll, hv] at hgo ⊢
        rcases List.mem_cons.mp hin with heq | hin
        · obtain ⟨rfl, rfl⟩ := Prod.mk.inj heq
          obtain ⟨hone, hattempt⟩ := hentry (by rw [hv]) hw
          rw [hv] at hone hattempt
          obtain ⟨rest, hrest⟩ := (visitAll_grows a listed l').attempts
          exact ⟨⟨l.made.length, (visitAll_other hfresh).trans hone⟩, (q, a.now q) :: rest,
            by rw [← hrest, hattempt, List.append_assoc]; rfl, by simp⟩
        · have hin' : q ∈ listed.map (·.1) := List.mem_map_of_mem hin
          have hne : q ≠ p := fun heq => hfresh (heq ▸ hin')
          have hother := visit_other (l := l) (a := a) hne first
          rw [hv] at hother
          obtain ⟨hnumber, new, hnew, hmem⟩ := ih hkeys hgo hin (by rw [hother]; exact hw)
          obtain ⟨before, hbefore, -⟩ := visit_attempts (l := l) (a := a) p first
          rw [hv] at hbefore
          refine ⟨hnumber, before ++ new, by rw [hnew, hbefore, List.append_assoc], ?_⟩
          rw [List.map_append]
          exact List.mem_append_right _ hmem

/-- The entry that the liveness check leaves. -/
def afterCheck (a : Answers) (q : RecordedProcess) (old : Option TrackedTarget) :
    Option TrackedTarget := old.filter fun t => t.attachment.isNone || a.isCurrent q

/-- The entry that a finished enumeration leaves, from what the process itself answers: whether it is
listed, the clock at its check, and the outcome of an attempt, which gets the next number. -/
def afterEnumeration (a : Answers) (found : List TargetInfo) (q : RecordedProcess) (number : Nat)
    (kept : Option TrackedTarget) : Option TrackedTarget :=
  match (candidates found).get? q with
  | none => kept.filter fun t => t.attachment.isSome
  | some target => if waits (a.now q) kept then kept else some (tracked a q target number)

/-- The entry that a step leaves, from the process's own answers. -/
def afterStep (a : Answers) (nextDiscovery : Option Instant) (q : RecordedProcess) (number : Nat)
    (old : Option TrackedTarget) : Option TrackedTarget :=
  if nextDiscovery.any fun deadline => decide (a.due < deadline) then afterCheck a q old
  else match a.discover with
    | .error _ => afterCheck a q old
    | .ok found => afterEnumeration a found q number (afterCheck a q old)

/-- Whether the enumeration lists the process, if it succeeds. -/
def listing (a : Answers) (q : RecordedProcess) : Option (Option TargetInfo) :=
  match a.discover with
  | .error _ => none
  | .ok found => some ((candidates found).get? q)

/-- Two worlds that differ for other processes only. -/
structure AgreeOn (q : RecordedProcess) (a a' : Answers) : Prop where
  due : a.due = a'.due
  isCurrent : a.isCurrent q = a'.isCurrent q
  listing : listing a q = listing a' q
  now : a.now q = a'.now q
  attach : attach a q = attach a' q
  failedAt : a.failedAt q = a'.failedAt q

theorem afterStep_congr {a' : Answers} (h : AgreeOn q a a') (nextDiscovery : Option Instant)
    (number : Nat) (old : Option TrackedTarget) :
    afterStep a nextDiscovery q number old = afterStep a' nextDiscovery q number old := by
  have hcheck : afterCheck a q old = afterCheck a' q old := by
    unfold afterCheck
    rw [h.isCurrent]
  have htracked : ∀ target, tracked a q target number = tracked a' q target number := fun target => by
    unfold tracked
    rw [h.attach, h.failedAt]
  have hlisting := h.listing
  unfold listing at hlisting
  unfold afterStep
  rw [h.due, hcheck]
  split
  · rfl
  cases hd : a.discover <;> cases hd' : a'.discover <;> rw [hd, hd'] at hlisting
  · cases hlisting
  · cases hlisting
  · have hsame := Option.some.inj hlisting
    simp only [afterEnumeration, hsame, h.now, htracked]

/-- What a finished enumeration does to one process. -/
theorem enumerated_local {w l' : Lifecycle} {found : List TargetInfo} {old : Option TrackedTarget}
    (hkept : w.targets.get? q = old) (hattempts : w.attempts = l.attempts)
    (h : (w.retainListed (candidates found)).publish.visitAll a (candidates found).entries = (l', true)) :
    ∃ number, l'.targets.get? q = afterEnumeration a found q number old ∧
      ((∀ found', (.ok found : Except String (List TargetInfo)) = .ok found' →
        (candidates found').contains q = true) → l'.targets.get? q = old ∨
          ∃ new, l'.attempts = l.attempts ++ new ∧ q ∈ new.map (·.1)) := by
  have hlisted : (w.retainListed (candidates found)).publish.targets.get? q =
      old.filter fun t => t.attachment.isSome || (candidates found).contains q :=
    hkept ▸ OrdMap.get?_filter _ _ _
  have hall : ∀ old : Option TrackedTarget, old.filter (fun _ => true) = old := fun old => by
    cases old <;> rfl
  unfold afterEnumeration
  cases hc : (candidates found).get? q with
  | none =>
    have hnot : q ∉ (candidates found).entries.map (·.1) := fun hin => by
      obtain ⟨target, ht⟩ := OrdMap.mem_keys.mp hin
      rw [hc] at ht
      cases ht
    have hsame := visitAll_other (a := a) (l := (w.retainListed (candidates found)).publish) hnot
    rw [h, hlisted] at hsame
    refine ⟨0, ?_, fun hin => ?_⟩
    · simpa [OrdMap.contains, hc] using hsame
    · have := hin found rfl
      simp [OrdMap.contains, hc] at this
  | some target =>
    have hlisted : (w.retainListed (candidates found)).publish.targets.get? q = old := by
      rw [hlisted]
      simp [OrdMap.contains, hc, hall]
    by_cases hwait : waits (a.now q) old = true
    · have hsame := visitAll_waits (a := a) (candidates found).entries
        (hlisted.symm ▸ hwait)
      rw [h, hlisted] at hsame
      exact ⟨0, by simp only [hwait, if_true]; exact hsame, fun _ => .inl hsame⟩
    · have hwait : waits (a.now q) old = false := by simpa using hwait
      obtain ⟨⟨number, hentry⟩, new, hnew, hmem⟩ := visitAll_entry (candidates found).keys_nodup
        (congrArg Prod.snd h) (OrdMap.get?_eq_some.mp hc) (hlisted.symm ▸ hwait)
      rw [h] at hentry hnew
      refine ⟨number, ?_, fun _ => .inr ⟨new, hattempts ▸ hnew, hmem⟩⟩
      simp only [hwait, Bool.false_eq_true, if_false]
      exact hentry

/-- What a finished step does to one process is a function of the process's own answers. A listed
process whose entry changes was attempted. -/
theorem step_local {l' : Lifecycle} {delay : Duration} (h : l.step a = (l', some delay)) :
    ∃ number, l'.targets.get? q = afterStep a l.nextDiscovery q number (l.targets.get? q) ∧
      ((∀ found, a.discover = .ok found → (candidates found).contains q = true) →
        l'.targets.get? q = afterCheck a q (l.targets.get? q) ∨
          ∃ new, l'.attempts = l.attempts ++ new ∧ q ∈ new.map (·.1)) := by
  have hkept : (l.retainCurrent a).publish.targets.get? q = afterCheck a q (l.targets.get? q) :=
    OrdMap.get?_filter _ _ _
  unfold Lifecycle.step at h
  split at h
  · cases h
  dsimp only at h
  split at h
  · cases h
  split at h
  · rename_i hdue
    cases h
    have hdue : (l.nextDiscovery.any fun deadline => decide (a.due < deadline)) = true := hdue
    exact ⟨0, hkept.trans (by rw [afterStep, if_pos hdue]), fun _ => .inl hkept⟩
  rename_i hdue
  have hdue : ¬ (l.nextDiscovery.any fun deadline => decide (a.due < deadline)) = true := hdue
  simp only [afterStep, if_neg hdue]
  split at h
  · cases h
  split at h
  · rename_i error herror
    cases h
    simp only [herror]
    exact ⟨0, hkept, fun _ => .inl hkept⟩
  · rename_i found hfound
    simp only [hfound]
    split at h <;> rename_i w hw <;> cases h
    exact enumerated_local (w := { (l.retainCurrent a).publish with
      discoveryError := none
      nextDiscovery := some (a.discoveredAt + discoveryInterval) }) hkept rfl hw

/-- The attempts of a step: each process at most once, after the check that allows it. -/
theorem step_attempts (a : Answers) (l : Lifecycle) : ∃ new, (l.step a).1.attempts = l.attempts ++ new ∧
    (new.map (·.1)).Nodup ∧ ∀ e ∈ new, e.2 = a.now e.1 ∧
      waits (a.now e.1) (afterCheck a e.1 (l.targets.get? e.1)) = false := by
  have hnone : ∃ new, l.attempts = l.attempts ++ new ∧ (new.map (·.1)).Nodup ∧ ∀ e ∈ new,
      e.2 = a.now e.1 ∧ waits (a.now e.1) (afterCheck a e.1 (l.targets.get? e.1)) = false :=
    ⟨[], (List.append_nil _).symm, .nil, fun e he => (by cases he)⟩
  unfold Lifecycle.step
  split
  · exact hnone
  dsimp only
  split
  · exact hnone
  split
  · exact hnone
  split
  · exact hnone
  split
  · exact hnone
  · rename_i found hfound
    have hall : ∀ w : Lifecycle, w.attempts = l.attempts → (∀ q, w.targets.get? q =
        (afterCheck a q (l.targets.get? q)).filter fun t =>
          t.attachment.isSome || (candidates found).contains q) →
        ∃ new, (w.visitAll a (candidates found).entries).1.attempts = l.attempts ++ new ∧
          (new.map (·.1)).Nodup ∧ ∀ e ∈ new, e.2 = a.now e.1 ∧
            waits (a.now e.1) (afterCheck a e.1 (l.targets.get? e.1)) = false := by
      intro w hattempts hentries
      obtain ⟨new, hnew, hsub, hall⟩ := visitAll_attempts (l := w) (a := a) (candidates found).keys_nodup
      refine ⟨new, hattempts ▸ hnew, hsub.nodup (candidates found).keys_nodup, fun e he => ?_⟩
      obtain ⟨hnow, hw⟩ := hall e he
      have hmem : (candidates found).contains e.1 = true :=
        OrdMap.contains_iff.mpr (OrdMap.mem_keys.mp (hsub.subset (List.mem_map_of_mem he)))
      rw [hentries] at hw
      simp only [hmem, Bool.or_true] at hw
      have hall : ∀ old : Option TrackedTarget, old.filter (fun _ => true) = old := fun old => by
        cases old <;> rfl
      rw [hall] at hw
      exact ⟨hnow, hw⟩
    have hentries : ∀ w : Lifecycle, w.targets = (l.retainCurrent a).targets → ∀ q,
        (w.retainListed (candidates found)).publish.targets.get? q =
          (afterCheck a q (l.targets.get? q)).filter fun t =>
            t.attachment.isSome || (candidates found).contains q := fun w hw q => by
      have hkept : w.targets.get? q = afterCheck a q (l.targets.get? q) := by
        rw [hw]
        exact OrdMap.get?_filter _ _ _
      rw [← hkept]
      exact OrdMap.get?_filter _ _ _
    split <;> rename_i l' hl' <;> exact (congrArg Prod.fst hl') ▸ hall _ rfl (hentries _ rfl)

/-- A held attachment that is current survives a step, whatever the enumeration gives. -/
theorem step_keeps {t : TrackedTarget} {n : Nat} (ht : l.targets.get? q = some t)
    (hn : t.attachment = some n) (hc : a.isCurrent q = true) :
    (l.step a).1.targets.get? q = some t := by
  have hkept : (l.retainCurrent a).publish.targets.get? q = some t :=
    (OrdMap.get?_filter _ _ _).trans (by simp [ht, hc])
  unfold Lifecycle.step
  split
  · exact ht
  dsimp only
  split
  · exact hkept
  split
  · exact hkept
  split
  · exact hkept
  split
  · exact hkept
  · rename_i found hfound
    have hall : ∀ w : Lifecycle, w.targets.get? q = some t →
        ((w.retainListed (candidates found)).publish.visitAll a
          (candidates found).entries).1.targets.get? q = some t := by
      intro w hw
      have hlisted : (w.retainListed (candidates found)).publish.targets.get? q = some t :=
        (OrdMap.get?_filter _ _ _).trans (by simp [hw, hn])
      rw [visitAll_waits, hlisted]
      simp [hlisted, waits, hn]
    split <;> rename_i l' hl' <;> exact (congrArg Prod.fst hl') ▸ hall _ hkept

/-- A poll changes the entry of an attachment only. -/
theorem polled_free {t : TrackedTarget} (ht : l.targets.get? q = some t)
    (hfree : t.attachment = none) : (l.targets.visit (poll a)).1.get? q = some t := by
  have hpoll : (poll a q t).1 = t := by
    unfold poll
    split
    · rfl
    · simp only [hfree]
  obtain ⟨u, hu⟩ := OrdMap.contains_iff.mp
    ((OrdMap.visit_contains (poll a) l.targets q).trans (OrdMap.contains_iff.mpr ⟨t, ht⟩))
  obtain ⟨v, hv, hcase⟩ := OrdMap.visit_get? hu
  rw [ht] at hv
  cases hv
  rw [hu]
  rcases hcase with rfl | rfl
  · rfl
  · rw [hpoll]

/-- The first attempt at a listed process without attachment is at its deadline or later. -/
theorem turn_deadline {t : TrackedTarget} {deadline : Instant} (ht : l.targets.get? q = some t)
    (hfree : t.attachment = none) (hd : t.retryAt = some deadline)
    (hlisted : ∀ found, a.discover = .ok found → (candidates found).contains q = true) :
    ∃ new, (l.turn a).1.attempts = l.attempts ++ new ∧
      (∀ e ∈ new, e.1 = q → deadline ≤ e.2) ∧
      (q ∉ new.map (·.1) → (l.turn a).1.stopped = true ∨ (l.turn a).1.targets.get? q = some t) := by
  have hcheck : afterCheck a q (some t) = some t := by simp [afterCheck, hfree]
  obtain ⟨new, hnew, -, hallowed⟩ := step_attempts a l
  have hlate : ∀ e ∈ new, e.1 = q → deadline ≤ e.2 := by
    rintro e he rfl
    obtain ⟨hnow, hwait⟩ := hallowed e he
    rw [ht, hcheck] at hwait
    simp only [waits, Option.any_some, hfree, hd, Option.isSome_none, Bool.false_or,
      decide_eq_false_iff_not, not_lt] at hwait
    rw [hnow]
    exact hwait
  unfold Lifecycle.turn
  split
  · rename_i hstop
    exact ⟨[], (List.append_nil _).symm, fun e he => (by cases he), fun _ => .inl hstop⟩
  split
  · rename_i l' hl'
    rw [hl'] at hnew
    exact ⟨new, hnew, hlate, fun _ => .inl rfl⟩
  rename_i l' delay hl'
  rw [hl'] at hnew
  have hkept : q ∉ new.map (·.1) → l'.targets.get? q = some t := by
    intro hnot
    obtain ⟨-, -, hcase⟩ := step_local (q := q) hl'
    rcases hcase hlisted with hsame | ⟨new', hnew', hmem⟩
    · rw [hsame, ht, hcheck]
    · rw [List.append_cancel_left (hnew.symm.trans hnew')] at hnot
      exact absurd hmem hnot
  split
  · exact ⟨new, hnew, hlate, fun _ => .inl rfl⟩
  · rename_i targets polled heq
    have hpolled : q ∉ new.map (·.1) → targets.get? q = some t := fun hnot => by
      have := polled_free (a := a) (hkept hnot) hfree
      rwa [heq] at this
    dsimp only
    split <;> exact ⟨new, hnew, hlate, fun hnot => .inr (hpolled hnot)⟩

theorem turns_stopped (answers : List Answers) (hstop : l.stopped = true) :
    answers.foldl (fun l a => (l.turn a).1) l = l := by
  induction answers with
  | nil => rfl
  | cons a answers ih =>
    rw [List.foldl_cons, turn, if_pos hstop]
    exact ih

theorem turns_deadline {answers : List Answers} {t : TrackedTarget} {deadline : Instant}
    (ht : l.targets.get? q = some t) (hfree : t.attachment = none) (hd : t.retryAt = some deadline)
    (hlisted : ∀ a ∈ answers, ∀ found, a.discover = .ok found →
      (candidates found).contains q = true) :
    ∃ new, (answers.foldl (fun l a => (l.turn a).1) l).attempts = l.attempts ++ new ∧
      ∀ e, new.find? (fun e => e.1 = q) = some e → deadline ≤ e.2 := by
  induction answers generalizing l with
  | nil => exact ⟨[], (List.append_nil _).symm, fun e he => (by cases he)⟩
  | cons a answers ih =>
    obtain ⟨new, hnew, hlate, hkept⟩ := turn_deadline ht hfree hd (hlisted a (by simp))
    obtain ⟨rest, hrest⟩ := (turns_grow answers (l.turn a).1).attempts
    have hfound : ∀ e, new.find? (fun e => e.1 = q) = some e → deadline ≤ e.2 := fun e he =>
      hlate e (List.mem_of_find?_eq_some he) (by simpa using List.find?_some he)
    by_cases hq : q ∈ new.map (·.1)
    · -- The first attempt is in this turn.
      refine ⟨new ++ rest, by rw [List.foldl_cons, ← hrest, hnew, List.append_assoc], fun e he => ?_⟩
      obtain ⟨e', he', hkey⟩ := List.mem_map.mp hq
      have hsome : (new.find? fun e => e.1 = q).isSome = true :=
        List.find?_isSome.mpr ⟨e', he', by simpa using hkey⟩
      obtain ⟨e'', he''⟩ := Option.isSome_iff_exists.mp hsome
      rw [List.find?_append, he''] at he
      cases he
      exact hfound _ he''
    · have hnone : new.find? (fun e => e.1 = q) = none := List.find?_eq_none.mpr fun e he hkey =>
        hq (List.mem_map.mpr ⟨e, he, by simpa using hkey⟩)
      rcases hkept hq with hstop | ht'
      · refine ⟨new, by rw [List.foldl_cons, turns_stopped answers hstop, hnew], hfound⟩
      · obtain ⟨later, hlater, hall⟩ := ih ht' fun a' ha' => hlisted a' (List.mem_cons_of_mem _ ha')
        refine ⟨new ++ later, by rw [List.foldl_cons, hlater, hnew, List.append_assoc], fun e he => ?_⟩
        rw [List.find?_append, hnone] at he
        exact hall e he

end process

/-! ## Whole runs -/

/-- The ids of two attachments, taken at two times of a run. -/
theorem ids_of_attachments {answers answers' : List Answers}
    (hids : ((run (answers ++ answers')).made.map (·.2)).Nodup) {p q : RecordedProcess}
    {t u : TrackedTarget} {n m : Nat} {id id' : String}
    (ht : (run answers).targets.get? p = some t) (hn : t.attachment = some n)
    (hid : t.status.activity = .observing id)
    (hu : (run (answers ++ answers')).targets.get? q = some u) (hm : u.attachment = some m)
    (hid' : u.status.activity = .observing id') : (n = m ↔ id = id') ∧ (n = m → p = q) := by
  obtain ⟨i, hi, hmade⟩ := ((ok_run answers).targets p t ht).observed n hn
  obtain ⟨i', hi', hmade'⟩ := ((ok_run (answers ++ answers')).targets q u hu).observed m hm
  rw [hid] at hi
  rw [hid'] at hi'
  cases hi
  cases hi'
  -- The attachments of the earlier time are the first ones of the later time.
  have hmade : (run (answers ++ answers')).made[n]? = some (p, id) := by
    obtain ⟨rest, hrest⟩ := (turns_grow answers' (run answers)).made
    rw [run_append, ← hrest]
    exact (List.getElem?_append_left (List.getElem?_eq_some_iff.mp hmade).1).trans hmade
  have heq : n = m → (p, id) = (q, id') := by
    rintro rfl
    exact Option.some.inj (hmade.symm.trans hmade')
  refine ⟨⟨fun hnm => (Prod.mk.inj (heq hnm)).2, fun hsame => ?_⟩, fun hnm => (Prod.mk.inj (heq hnm)).1⟩
  have hlt : n < ((run (answers ++ answers')).made.map (·.2)).length := by
    simpa using (List.getElem?_eq_some_iff.mp hmade).1
  refine (List.getElem?_inj hlt hids).mp ?_
  simp [hmade, hmade', hsame]

end Lifecycle

/-- The target of a process. -/
def fixture (pid : Nat) : TargetInfo :=
  ⟨⟨pid, 1⟩, s!"fixture-{pid}", s!"fixture-provider-{pid}", s!"fixture-game-{pid}"⟩

/-- A world in which two processes are listed, and attaching to them gives these outcomes at this time. -/
def world (outcome : RecordedProcess → Except String String) (now : Instant) : Answers where
  stopping _ := false
  isCurrent _ := true
  due := now
  discover := .ok [fixture 1, fixture 2]
  discoveredAt := now
  now _ := now
  attach p := (outcome p).map fun _ => ()
  isStillCurrent _ := true
  observing := outcome
  failedAt _ := now
  poll _ := .ok none
  retiredAt _ := now

/-- The first process refuses its attachment. -/
def refusing (p : RecordedProcess) : Except String String :=
  if p.pid = 1 then .error "attachment failed" else .ok "two"

def accepting (p : RecordedProcess) : Except String String := .ok (if p.pid = 1 then "one" else "two")

/-- A failed attempt beside one that succeeds, a step before its deadline and a second attempt after it. -/
def retried : List Answers := [world refusing 0, world accepting (seconds 2), world accepting (seconds 6)]

end Worker
end WfObserver
