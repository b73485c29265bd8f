import WfObserver.Lib.Fallible
import WfObserver.Warframe.Sparse

/-!
# The active profile is the only one

The loop of `selectProfile` keeps the active entries that it passed, which are none or one
(`foldlM_consider`). So it chooses a profile exactly when one entry is active (`profile_selection`).
-/

namespace WfObserver
namespace Warframe
namespace Roots

open ProviderSdk Fallible

variable {reader : TargetReader} {facts : ActiveProfileFacts}

/-- The control and the profile of an entry that is active: neither is null, the profile's selector is
zero and its login byte is not. -/
def active (reader : TargetReader) (facts : ActiveProfileFacts) (entry : Nat) :
    Option (ObjectIdentity × ObjectIdentity) := do
  let control ← ObjectIdentity.fromAddress entry
  let value ← (reader.readU64 entry).toOption
  let profile ← ObjectIdentity.fromAddress value
  let selector ← (reader.readObjectU64 value facts.selector).toOption
  let loggedIn ← (reader.readObjectU8 value facts.loggedIn).toOption
  if selector = 0 ∧ loggedIn ≠ 0 then some (control, profile) else none

/-- A control and its profile, when they are not null, are addresses of objects, and can be read. -/
structure Readable (reader : TargetReader) (facts : ActiveProfileFacts) (entry : Nat) : Prop where
  control : entry ≠ 0 → entry % 8 = 0 ∧ ∃ value, reader.readU64 entry = .ok value
  profile : ∀ value, entry ≠ 0 → reader.readU64 entry = .ok value → value ≠ 0 → value % 8 = 0 ∧
    (∃ selector, reader.readObjectU64 value facts.selector = .ok selector) ∧
    ∃ loggedIn, reader.readObjectU8 value facts.loggedIn = .ok loggedIn

/-- The checks that an active profile has to pass. -/
def Passes (reader : TargetReader) (facts : ActiveProfileFacts) (profile : ObjectIdentity) : Prop :=
  checkProfile reader facts profile = .ok ()

theorem fromAddress_eq {value : Nat} (hvalue : value ≠ 0) (haligned : value % 8 = 0) :
    ObjectIdentity.fromAddress value = some ⟨value, hvalue⟩ := by
  rw [ObjectIdentity.fromAddress, if_pos haligned, ObjectIdentity.new, dif_pos hvalue]

theorem fromAddress_zero : ObjectIdentity.fromAddress 0 = none := rfl

theorem ofRead_eq_ok {α : Type} {x : Except ReadError α} {a : α} : ofRead x = .ok a ↔ x = .ok a :=
  mapError_eq_ok

@[simp] theorem ofRead_ok {α : Type} (a : α) : ofRead (.ok a) = .ok a := rfl

theorem candidate_eq {entry : Nat} (h : Readable reader facts entry) :
    candidate reader facts entry = .ok (active reader facts entry) := by
  unfold candidate active
  by_cases hentry : entry = 0
  · rw [if_pos hentry, hentry, fromAddress_zero]
    rfl
  obtain ⟨haligned, value, hread⟩ := h.control hentry
  rw [if_neg hentry, objectIdentity, fromAddress_eq hentry haligned]
  simp only [ok_bind, hread, ofRead_ok, Except.toOption, Option.bind_eq_bind, Option.bind_some]
  by_cases hvalue : value = 0
  · rw [if_pos hvalue, hvalue, fromAddress_zero]
    rfl
  obtain ⟨haligned', ⟨selector, hselector⟩, loggedIn, hlogin⟩ := h.profile value hentry hread hvalue
  rw [if_neg hvalue, objectIdentity, fromAddress_eq hvalue haligned']
  simp only [ok_bind, hselector, hlogin, ofRead_ok, Option.bind_some]
  by_cases hzero : selector = 0
  · by_cases hout : loggedIn = 0
    · simp [hzero, hout, pure, Except.pure]
    · simp [hzero, hout, pure, Except.pure]
  · simp [hzero, pure, Except.pure]

/-- An entry that is not active changes nothing. -/
theorem consider_none {selected : Option (ObjectIdentity × ObjectIdentity)} {entry : Nat}
    (h : Readable reader facts entry) (hactive : active reader facts entry = none) :
    consider reader facts selected entry = .ok selected := by
  rw [consider, candidate_eq h, hactive]
  rfl

/-- An active entry is chosen when it passes its checks and is the first. -/
theorem consider_some {selected : Option (ObjectIdentity × ObjectIdentity)} {entry : Nat}
    {found : ObjectIdentity × ObjectIdentity} (h : Readable reader facts entry)
    (hactive : active reader facts entry = some found) (hpasses : Passes reader facts found.2) :
    consider reader facts selected entry =
      match selected with
      | some _ => .error .ambiguousProfile
      | none => .ok (some found) := by
  rw [consider, candidate_eq h, hactive, ok_bind]
  simp only [ofRead_eq_ok.mpr hpasses, ok_bind]
  cases selected <;> rfl

theorem passes_of_consider {selected next : Option (ObjectIdentity × ObjectIdentity)} {entry : Nat}
    {found : ObjectIdentity × ObjectIdentity} (h : Readable reader facts entry)
    (hactive : active reader facts entry = some found)
    (hok : consider reader facts selected entry = .ok next) : Passes reader facts found.2 := by
  rw [consider, candidate_eq h, hactive, ok_bind, bind_eq_ok] at hok
  obtain ⟨⟨⟩, hcheck, -⟩ := hok
  exact ofRead_eq_ok.mp hcheck

/-- The loop gets to its end when the active entries pass their checks and are at most one, with the one
it had before. -/
theorem foldlM_consider {l : List Nat} (h : ∀ entry ∈ l, Readable reader facts entry)
    (selected result : Option (ObjectIdentity × ObjectIdentity)) :
    l.foldlM (consider reader facts) selected = .ok result ↔
      selected.toList ++ l.filterMap (active reader facts) = result.toList ∧
        ∀ found ∈ l.filterMap (active reader facts), Passes reader facts found.2 := by
  induction l generalizing selected with
  | nil =>
    simp only [List.foldlM_nil, pure_eq_ok, List.filterMap_nil, List.append_nil]
    constructor
    · rintro rfl
      exact ⟨rfl, List.forall_mem_nil _⟩
    · rintro ⟨hlist, -⟩
      cases selected <;> cases result <;> simp_all
  | cons entry l ih =>
    have hentry := h entry (List.mem_cons_self ..)
    have hrest : ∀ entry ∈ l, Readable reader facts entry := fun e he => h e (List.mem_cons_of_mem _ he)
    cases hactive : active reader facts entry with
    | none =>
      rw [List.foldlM_cons, consider_none hentry hactive, ok_bind, List.filterMap_cons_none hactive]
      exact ih hrest selected
    | some found =>
      rw [List.filterMap_cons_some hactive, List.forall_mem_cons]
      by_cases hpasses : Passes reader facts found.2
      · rw [List.foldlM_cons, consider_some hentry hactive hpasses]
        cases selected with
        | none =>
          rw [ok_bind, ih hrest (some found)]
          simp [hpasses]
        | some first =>
          refine iff_of_false (fun hok => by cases hok) fun hall => ?_
          have := congrArg List.length hall.1
          cases result <;> simp at this
      · refine iff_of_false (fun hok => ?_) fun hall => hpasses hall.2.1
        obtain ⟨next, hnext, -⟩ := foldlM_cons_eq_ok.mp hok
        exact hpasses (passes_of_consider hentry hactive hnext)

/-- A second active entry ends the loop. -/
theorem foldlM_ambiguous {l : List Nat} (h : ∀ entry ∈ l, Readable reader facts entry)
    (hpasses : ∀ found ∈ l.filterMap (active reader facts), Passes reader facts found.2)
    {selected : Option (ObjectIdentity × ObjectIdentity)}
    (htwo : 2 ≤ (selected.toList ++ l.filterMap (active reader facts)).length) :
    l.foldlM (consider reader facts) selected = .error .ambiguousProfile := by
  induction l generalizing selected with
  | nil => cases selected <;> simp at htwo
  | cons entry l ih =>
    have hentry := h entry (List.mem_cons_self ..)
    have hrest : ∀ entry ∈ l, Readable reader facts entry := fun e he => h e (List.mem_cons_of_mem _ he)
    cases hactive : active reader facts entry with
    | none =>
      rw [List.filterMap_cons_none hactive] at hpasses htwo
      rw [List.foldlM_cons, consider_none hentry hactive, ok_bind]
      exact ih hrest hpasses htwo
    | some found =>
      rw [List.filterMap_cons_some hactive] at hpasses htwo
      rw [List.foldlM_cons, consider_some hentry hactive (hpasses found (List.mem_cons_self ..))]
      cases selected with
      | none =>
        rw [ok_bind]
        exact ih hrest (fun p hp => hpasses p (List.mem_cons_of_mem _ hp)) htwo
      | some first => rfl

theorem selectProfile_eq_ok {controls : List UInt8}
    (h : ∀ entry ∈ entries controls, Readable reader facts entry)
    (selected : ObjectIdentity × ObjectIdentity) :
    selectProfile reader controls facts = .ok selected ↔
      (entries controls).filterMap (active reader facts) = [selected] ∧
        Passes reader facts selected.2 := by
  have hloop := foldlM_consider h none
  unfold selectProfile
  constructor
  · intro hok
    obtain ⟨result, hresult, hselected⟩ := bind_eq_ok.mp hok
    obtain ⟨hactive, hpasses⟩ := (hloop result).mp hresult
    cases result with
    | none => exact nomatch hselected
    | some found =>
      cases hselected
      refine ⟨hactive, hpasses _ ?_⟩
      rw [show List.filterMap _ _ = [selected] from hactive]
      exact List.mem_singleton_self selected
  · rintro ⟨hactive, hpasses⟩
    have := (hloop (some selected)).mpr ⟨hactive, by rw [hactive]; simpa using hpasses⟩
    rw [this]
    rfl

/-- Over readable entries `selectProfile` chooses a profile exactly when one entry is active and passes its
checks. Two that pass are ambiguous, none is a contradiction, and the order of the entries does not
matter. -/
theorem profile_selection {controls : List UInt8}
    (h : ∀ entry ∈ entries controls, Readable reader facts entry) :
    let actives := (entries controls).filterMap (active reader facts)
    (∀ selected, selectProfile reader controls facts = .ok selected ↔
      actives = [selected] ∧ Passes reader facts selected.2) ∧
    ((∀ found ∈ actives, Passes reader facts found.2) → 2 ≤ actives.length →
      selectProfile reader controls facts = .error .ambiguousProfile) ∧
    (actives = [] →
      selectProfile reader controls facts = .error (.contradiction "active profile selection")) ∧
    ∀ controls', (entries controls).Perm (entries controls') →
      (selectProfile reader controls' facts).toOption = (selectProfile reader controls facts).toOption := by
  refine ⟨selectProfile_eq_ok h, fun hpasses htwo => ?_, fun hnone => ?_, fun controls' hperm => ?_⟩
  · have hnone : 2 ≤ ((none : Option (ObjectIdentity × ObjectIdentity)).toList ++
        (entries controls).filterMap (active reader facts)).length := htwo
    rw [selectProfile, foldlM_ambiguous h hpasses hnone]
    rfl
  · rw [selectProfile, (foldlM_consider h none none).mpr ⟨hnone, by rw [hnone]; simp⟩]
    rfl
  · have h' : ∀ entry ∈ entries controls', Readable reader facts entry :=
      fun entry hentry => h entry (hperm.mem_iff.mpr hentry)
    refine Option.ext fun selected => ?_
    rw [toOption_eq_some, toOption_eq_some, selectProfile_eq_ok h', selectProfile_eq_ok h]
    refine and_congr_left fun _ => ?_
    have hactives := hperm.filterMap (active reader facts)
    constructor
    · intro heq
      exact List.perm_singleton.mp (heq ▸ hactives)
    · intro heq
      exact List.perm_singleton.mp (heq ▸ hactives.symm)

/-- An account that is logged in beside one that is not selected. -/
def loggedInTarget : TargetReader :=
  ((Sparse.Memory.mk 0x140000000 []).login.putPointers
      [(0x150031000, 0x150041000), (0x150041000 + 0x1d8, 1)]
    |>.put (0x150041000 + 0x1e1) [1]).reader

def loggedInControls : List UInt8 := [0x150031000, 0, 0x150030000].flatMap (Sparse.toLeBytes 8)

theorem readable_of_reads {entry : Nat} (value selector loggedIn : Nat)
    (haligned : entry % 8 = 0 ∧ value % 8 = 0) (hread : reader.readU64 entry = .ok value)
    (hselector : reader.readObjectU64 value facts.selector = .ok selector)
    (hlogin : reader.readObjectU8 value facts.loggedIn = .ok loggedIn) : Readable reader facts entry where
  control _ := ⟨haligned.1, value, hread⟩
  profile value' _ hvalue' _ := by
    obtain rfl : value = value' := Except.ok.inj (hread.symm.trans hvalue')
    exact ⟨haligned.2, ⟨selector, hselector⟩, loggedIn, hlogin⟩

theorem loggedIn_readable : ∀ entry ∈ entries loggedInControls,
    Readable loggedInTarget account.profile entry := by
  have hentries : entries loggedInControls = [0x150031000, 0, 0x150030000] := by decide +kernel
  rw [hentries]
  simp only [List.forall_mem_cons]
  refine ⟨?_, ⟨fun h => absurd rfl h, fun _ h => absurd rfl h⟩, ?_, List.forall_mem_nil _⟩
  · exact readable_of_reads 0x150041000 1 1 (by decide) (by decide +kernel) (by decide +kernel)
      (by decide +kernel)
  · exact readable_of_reads 0x150040000 0 1 (by decide) (by decide +kernel) (by decide +kernel)
      (by decide +kernel)

theorem profile_selection_loggedIn :
    let selected := (⟨0x150030000, by decide⟩, ⟨0x150040000, by decide⟩)
    selectProfile loggedInTarget loggedInControls account.profile = .ok selected ∧
    ∀ controls', (entries loggedInControls).Perm (entries controls') →
      (selectProfile loggedInTarget controls' account.profile).toOption = some selected := by
  intro selected
  obtain ⟨hselected, -, -, horder⟩ := profile_selection loggedIn_readable
  have hactive : (entries loggedInControls).filterMap (active loggedInTarget account.profile) =
    [selected] := by decide +kernel
  have hpasses : checkProfile loggedInTarget account.profile selected.2 = .ok () := by decide +kernel
  have hok := (hselected selected).mpr ⟨hactive, hpasses⟩
  refine ⟨hok, fun controls' hperm => ?_⟩
  rw [horder controls' hperm, hok]
  rfl

end Roots
end Warframe
end WfObserver
