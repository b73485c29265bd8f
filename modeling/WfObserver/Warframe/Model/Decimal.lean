import WfObserver.Lib.Decimal
import WfObserver.Lib.Fallible
import WfObserver.Wire

/-!
# Decimal codecs (`model/src/inventory/quantity.rs`, `model/src/mastery/points.rs`)

A quantity or a number of points is a decimal string on the wire. Both codecs are exact
(`decimal_exact`): what is accepted is the canonical numeral of an admissible number, and nothing else.
-/

namespace WfObserver
namespace Warframe

open Wire Decimal Fallible

/-- What a deserializer reads from (`serde_json::Value`); a number is kept as its text. -/
inductive Json where
  | null
  | bool (value : Bool)
  | number (text : String)
  | string (text : String)
  | array (items : List Json)
  | object (fields : List (String × Json))

inductive DecodeError where
  /-- The value has another type than the one asked for. -/
  | invalidType (expected : String)
  | custom (message : String)
  deriving DecidableEq, Repr

/-- `String::deserialize`. -/
def Json.asString : Json → Except DecodeError String
  | .string text => .ok text
  | _ => .error (.invalidType "a string")

/-! ## `u64::from_str` -/

inductive ParseIntError where
  | empty
  | invalidDigit
  | posOverflow
  deriving DecidableEq, Repr

def ParseIntError.text : ParseIntError → String
  | .empty => "cannot parse integer from empty string"
  | .invalidDigit => "invalid digit found in string"
  | .posOverflow => "number too large to fit in target type"

/-- One more digit; the product and the sum are checked. -/
def parseDigit (n : Nat) (c : Char) : Except ParseIntError Nat :=
  if !c.isDigit then .error .invalidDigit
  else match checkedAdd (10 * n) (digit c) with
    | none => .error .posOverflow
    | some n => .ok n

/-- `u64::from_str`: an optional plus sign, then digits. -/
def parseU64 (text : String) : Except ParseIntError Nat :=
  match text.toList with
  | [] => .error .empty
  | ['+'] | ['-'] => .error .invalidDigit
  | '+' :: digits => digits.foldlM parseDigit 0
  | digits => digits.foldlM parseDigit 0

theorem parseDigit_eq_ok {n m : Nat} {c : Char} :
    parseDigit n c = .ok m ↔ c.isDigit = true ∧ 10 * n + digit c = m ∧ m ≤ u64Max := by
  unfold parseDigit
  cases c.isDigit with
  | false => simp
  | true =>
    cases h : checkedAdd (10 * n) (digit c) with
    | none =>
      have := checkedAdd_eq_none.mp h
      simp only [Bool.not_true, Bool.false_eq_true, if_false, reduceCtorEq, true_and, false_iff, not_and]
      omega
    | some k =>
      obtain ⟨rfl, hk⟩ := checkedAdd_eq_some.mp h
      simp only [Bool.not_true, Bool.false_eq_true, if_false, Except.ok.injEq, true_and]
      exact ⟨fun h => ⟨h, h ▸ hk⟩, fun h => h.1⟩

/-- The parser takes exactly the digits of a number that fits. -/
theorem parseDigits_eq_ok {l : List Char} {n : Nat} : l.foldlM parseDigit 0 = .ok n ↔
    (∀ c ∈ l, c.isDigit = true) ∧ value l = n ∧ n ≤ u64Max := by
  induction l using List.reverseRecOn generalizing n with
  | nil =>
    constructor
    · rintro ⟨⟩
      exact ⟨by simp, rfl, Nat.zero_le _⟩
    · rintro ⟨-, rfl, -⟩
      rfl
  | append_singleton l c ih =>
    rw [foldlM_append_eq_ok, value_append_singleton]
    constructor
    · rintro ⟨m, hm, hc⟩
      rw [foldlM_cons_eq_ok] at hc
      obtain ⟨k, hk, hnil⟩ := hc
      cases hnil
      obtain ⟨hdigits, rfl, -⟩ := ih.mp hm
      obtain ⟨hdigit, hvalue, hmax⟩ := parseDigit_eq_ok.mp hk
      refine ⟨fun d hd => ?_, hvalue, hmax⟩
      rcases List.mem_append.mp hd with hd | hd
      · exact hdigits d hd
      · rw [List.mem_singleton.mp hd]
        exact hdigit
    · rintro ⟨hdigits, hvalue, hmax⟩
      refine ⟨value l, ih.mpr ⟨fun d hd => hdigits d (by simp [hd]), rfl, by omega⟩, ?_⟩
      rw [foldlM_cons_eq_ok]
      exact ⟨n, parseDigit_eq_ok.mpr ⟨hdigits c (by simp), hvalue, hmax⟩, rfl⟩

/-- On digits there is no sign to skip. -/
theorem parseU64_digits {text : String} (hne : text.toList ≠ [])
    (hdigits : ∀ c ∈ text.toList, c.isDigit = true) :
    parseU64 text = text.toList.foldlM parseDigit 0 := by
  unfold parseU64
  split
  · rename_i h
    exact absurd h hne
  · rename_i h
    rw [h] at hdigits
    exact absurd (hdigits '+' (by simp)) (by decide)
  · rename_i h
    rw [h] at hdigits
    exact absurd (hdigits '-' (by simp)) (by decide)
  · rename_i h
    rw [h] at hdigits
    exact absurd (hdigits '+' (by simp)) (by decide)
  · rfl

/-! ## The codecs -/

/-- The shape of both `deserialize` functions: `leading` rejects zeros in front. -/
def deserializeDecimal (leading : String → Bool) (message : String) (json : Json) :
    Except DecodeError Nat := do
  let value ← json.asString
  if value.isEmpty || decide (20 < value.utf8ByteSize) || leading value
      || !value.toList.all Char.isDigit then .error (.custom message)
  else (parseU64 value).mapError fun error => .custom error.text

def startsWithZero (value : String) : Bool := value.toList.head? == some '0'

namespace Quantity

/-- `quantity::serialize`. -/
def serialize (value : Nat) : Except String Json :=
  if value = 0 then .error "inventory quantity must be positive"
  else .ok (.string (toString value))

/-- `quantity::deserialize`. -/
def deserialize (json : Json) : Except DecodeError Nat :=
  deserializeDecimal startsWithZero "expected a positive canonical decimal u64 string" json

end Quantity

namespace Points

/-- `points::serialize`. -/
def serialize (value : Nat) : Except String Json := .ok (.string (toString value))

/-- `points::deserialize`. -/
def deserialize (json : Json) : Except DecodeError Nat :=
  deserializeDecimal (fun value => decide (1 < value.utf8ByteSize) && startsWithZero value)
    "expected a canonical unsigned decimal u64 string" json

end Points

/-- What a deserializer of this shape accepts. -/
theorem deserializeDecimal_eq_ok {leading : String → Bool} {message : String} {json : Json} {n : Nat} :
    deserializeDecimal leading message json = .ok n ↔ ∃ text, json = .string text ∧
      text.toList ≠ [] ∧ (∀ c ∈ text.toList, c.isDigit = true) ∧ text.toList.length ≤ 20 ∧
        leading text = false ∧ value text.toList = n ∧ n ≤ u64Max := by
  unfold deserializeDecimal
  cases json with
  | string text =>
    simp only [Json.asString, ok_bind, Json.string.injEq, exists_eq_left', ite_eq_ok, Bool.or_eq_true,
      decide_eq_true_eq, Bool.not_eq_true', not_or, Bool.not_eq_true, Bool.not_eq_false,
      List.all_eq_true]
    constructor
    · rintro ⟨⟨⟨⟨hne, hlen⟩, hleading⟩, hdigits⟩, hparse⟩
      have hne : text.toList ≠ [] := by
        intro h
        rw [String.toList_eq_nil_iff.mp h] at hne
        cases hne
      rw [parseU64_digits hne hdigits] at hparse
      cases hfold : text.toList.foldlM parseDigit 0 with
      | error e =>
        rw [hfold] at hparse
        cases hparse
      | ok m =>
        rw [hfold] at hparse
        cases hparse
        obtain ⟨-, hvalue, hmax⟩ := parseDigits_eq_ok.mp hfold
        rw [utf8ByteSize_digits hdigits] at hlen
        exact ⟨hne, hdigits, by omega, hleading, hvalue, hmax⟩
    · rintro ⟨hne, hdigits, hlen, hleading, hvalue, hmax⟩
      refine ⟨⟨⟨⟨?_, ?_⟩, hleading⟩, hdigits⟩, ?_⟩
      · rw [Bool.eq_false_iff, ne_eq, String.isEmpty_iff]
        rintro rfl
        exact hne rfl
      · rw [utf8ByteSize_digits hdigits]
        omega
      · rw [parseU64_digits hne hdigits, parseDigits_eq_ok.mpr ⟨hdigits, hvalue, hmax⟩]
        rfl
  | _ => simp [Json.asString]

/-- A codec of the admissible numbers that reads and writes canonical numerals only. -/
structure Exact (admissible : Nat → Prop) (serialize : Nat → Except String Json)
    (deserialize : Json → Except DecodeError Nat) : Prop where
  accepts : ∀ json n, deserialize json = .ok n ↔
    ∃ text, json = .string text ∧ Canonical text.toList ∧ value text.toList = n ∧ admissible n
  writes : ∀ n, admissible n → ∃ json, serialize n = .ok json ∧ deserialize json = .ok n
  rewrites : ∀ json n, deserialize json = .ok n → serialize n = .ok json

/-- What accepts the canonical numerals and writes the numbers as they are is exact. -/
theorem exact_of_accepts {admissible : Nat → Prop} {serialize : Nat → Except String Json}
    {deserialize : Json → Except DecodeError Nat}
    (haccepts : ∀ json n, deserialize json = .ok n ↔
      ∃ text, json = .string text ∧ Canonical text.toList ∧ value text.toList = n ∧ admissible n)
    (hserialize : ∀ n, admissible n → serialize n = .ok (.string (toString n))) :
    Exact admissible serialize deserialize where
  accepts := haccepts
  writes n hn := by
    refine ⟨_, hserialize n hn, (haccepts _ n).mpr ⟨_, rfl, ?_, ?_, hn⟩⟩
    · rw [Nat.toString_eq_repr, Nat.toList_repr]
      exact canonical_toDigits n
    · rw [Nat.toString_eq_repr, Nat.toList_repr, value_toDigits]
  rewrites json n h := by
    obtain ⟨text, rfl, hcanonical, rfl, hn⟩ := (haccepts json n).mp h
    have htext : (toString (value text.toList)).toList = text.toList := by
      rw [Nat.toString_eq_repr, Nat.toList_repr, hcanonical.toDigits_value]
    rw [hserialize _ hn, String.toList_inj.mp htext]

/-- A canonical numeral of a `u64` has at most 20 digits. -/
theorem length_of_u64 {l : List Char} (h : Canonical l) (hmax : value l ≤ u64Max) : l.length ≤ 20 := by
  refine (h.length_le (by decide)).mpr (hmax.trans_lt ?_)
  decide

theorem startsWithZero_eq_false {text : String} :
    startsWithZero text = false ↔ text.toList.head? ≠ some '0' := by
  simp [startsWithZero]

theorem quantity_accepts (json : Json) (n : Nat) : Quantity.deserialize json = .ok n ↔
    ∃ text, json = .string text ∧ Canonical text.toList ∧ value text.toList = n ∧
      (0 < n ∧ n ≤ u64Max) := by
  unfold Quantity.deserialize
  rw [deserializeDecimal_eq_ok]
  constructor
  · rintro ⟨text, rfl, hne, hdigits, -, hleading, rfl, hmax⟩
    have hhead := startsWithZero_eq_false.mp hleading
    have hcanonical : Canonical text.toList := ⟨hne, hdigits, fun _ => hhead⟩
    exact ⟨text, rfl, hcanonical, rfl, hcanonical.value_pos.mpr hhead, hmax⟩
  · rintro ⟨text, rfl, hcanonical, rfl, hpos, hmax⟩
    exact ⟨text, rfl, hcanonical.nonempty, hcanonical.digits, length_of_u64 hcanonical hmax,
      startsWithZero_eq_false.mpr (hcanonical.value_pos.mp hpos), rfl, hmax⟩

theorem points_accepts (json : Json) (n : Nat) : Points.deserialize json = .ok n ↔
    ∃ text, json = .string text ∧ Canonical text.toList ∧ value text.toList = n ∧ n ≤ u64Max := by
  unfold Points.deserialize
  rw [deserializeDecimal_eq_ok]
  have hleading : ∀ text : String, (∀ c ∈ text.toList, c.isDigit = true) →
      ((decide (1 < text.utf8ByteSize) && startsWithZero text) = false ↔
        (1 < text.toList.length → text.toList.head? ≠ some '0')) := by
    intro text hdigits
    rw [utf8ByteSize_digits hdigits, Bool.and_eq_false_iff, startsWithZero_eq_false,
      decide_eq_false_iff_not]
    tauto
  constructor
  · rintro ⟨text, rfl, hne, hdigits, -, hzero, rfl, hmax⟩
    exact ⟨text, rfl, ⟨hne, hdigits, (hleading text hdigits).mp hzero⟩, rfl, hmax⟩
  · rintro ⟨text, rfl, hcanonical, rfl, hmax⟩
    exact ⟨text, rfl, hcanonical.nonempty, hcanonical.digits, length_of_u64 hcanonical hmax,
      (hleading text hcanonical.digits).mpr hcanonical.leading, rfl, hmax⟩

/-- Both codecs are exact: points for every `u64`, quantities for the positive ones. -/
theorem decimal_exact : Exact (· ≤ u64Max) Points.serialize Points.deserialize ∧
    Exact (fun n => 0 < n ∧ n ≤ u64Max) Quantity.serialize Quantity.deserialize := by
  refine ⟨exact_of_accepts points_accepts fun n _ => rfl, exact_of_accepts quantity_accepts fun n hn => ?_⟩
  exact if_neg (Nat.ne_of_gt hn.1)

example : Points.deserialize (.string "18446744073709551615") = .ok u64Max := by decide +kernel

end Warframe
end WfObserver
