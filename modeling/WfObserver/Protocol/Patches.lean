import Mathlib.Data.List.Basic
import WfObserver.Lib.Decimal
import WfObserver.Protocol.Delta

/-!
# Patches that are shorter than their payloads

JSON values that are a flag, or an array of a number and a flag, with the texts of `serde_json` and with
the patches of `json_patch` for a flag that changes. They keep the laws of lossless delivery
(`patchLaws`).
-/

namespace WfObserver
namespace Patches

inductive Json where
  | flag (value : Bool)
  | array (count : Nat) (value : Bool)
  deriving DecidableEq

def flagText (value : Bool) : List Char := if value then "true".toList else "false".toList

/-- The text behind the number of an array. -/
def arrayEnd (value : Bool) : List Char := ',' :: (flagText value ++ [']'])

def Json.text : Json → List Char
  | .flag value => flagText value
  | .array count value => ['['] ++ Nat.toDigits 10 count ++ arrayEnd value

/-- What stands between two texts. -/
def between (head tail text : List Char) : Option (List Char) :=
  let middle := (text.drop head.length).take (text.length - head.length - tail.length)
  if text = head ++ middle ++ tail then some middle else none

def parseNumber (digits : List Char) : Option Nat :=
  let count := Decimal.value digits
  if Nat.toDigits 10 count = digits then some count else none

def parseArray (text : List Char) (value : Bool) : Option Json :=
  ((between ['['] (arrayEnd value) text).bind parseNumber).map fun count => .array count value

def parseFlag (text : List Char) (value : Bool) : Option Json :=
  if text = flagText value then some (.flag value) else none

def Json.parse (text : List Char) : Option Json :=
  ([true, false].findSome? (parseFlag text)).or ([true, false].findSome? (parseArray text))

/-! ## Patches -/

def apply : Json → PatchOperation Json → Option Json
  | _, .replace "" value => some value
  | .array count _, .replace "/1" (.flag value) => some (.array count value)
  | _, _ => none

/-- Numbers that differ replace the whole value. -/
def diff : Json → Json → List (PatchOperation Json)
  | .array count _, .array count' value =>
    if count = count' then [.replace "/1" (.flag value)] else [.replace "" (.array count' value)]
  | _, after => [.replace "" after]

/-- The text before the value of a replacement. -/
def patchHead (path : String) : List Char :=
  "[\x7b\"op\":\"replace\",\"path\":\"".toList ++ path.toList ++ "\",\"value\":".toList

def patchEnd : List Char := "\x7d]".toList

def paths : List String := ["", "/1"]

def patchText : List (PatchOperation Json) → Option (List Char)
  | [.replace path value] =>
    if path ∈ paths then some (patchHead path ++ value.text ++ patchEnd) else none
  | _ => none

def parsePatch (text : List Char) : Option (List (PatchOperation Json)) :=
  paths.findSome? fun path =>
    ((between (patchHead path) patchEnd text).bind Json.parse).map fun value => [.replace path value]

/-! ## What is written is read back -/

theorem between_append (head middle tail : List Char) :
    between head tail (head ++ middle ++ tail) = some middle := by
  have hmiddle : ((head ++ middle ++ tail).drop head.length).take
      ((head ++ middle ++ tail).length - head.length - tail.length) = middle := by
    rw [List.append_assoc, List.drop_left]
    simp
  unfold between
  rw [hmiddle, if_pos rfl]

theorem between_eq_none {head tail text : List Char} (h : ∀ middle, text ≠ head ++ middle ++ tail) :
    between head tail text = none :=
  if_neg (h _)

theorem parse_flag (value : Bool) : Json.parse (flagText value) = some (.flag value) := by
  cases value <;> decide

theorem parse_array (count : Nat) (value : Bool) :
    Json.parse (Json.text (.array count value)) = some (.array count value) := by
  have hflag : [true, false].findSome? (parseFlag (Json.text (.array count value))) = none := by
    cases value <;> rfl
  have harray : parseArray (Json.text (.array count value)) value = some (.array count value) := by
    rw [parseArray, Json.text, between_append, Option.bind_some, parseNumber, Decimal.value_toDigits,
      if_pos rfl]
    rfl
  rw [Json.parse, hflag, Option.none_or]
  cases value with
  | true => rw [List.findSome?_cons, harray]
  | false =>
    have hother : parseArray (Json.text (.array count false)) true = none := by
      rw [parseArray, between_eq_none, Option.bind_none, Option.map_none]
      intro middle h
      have := congrArg (fun text => text.reverse[2]?) h
      simp [Json.text, arrayEnd, flagText] at this
    rw [List.findSome?_cons, hother, List.findSome?_cons, harray]

theorem parse_text (value : Json) : Json.parse value.text = some value := by
  cases value with
  | flag value => exact parse_flag value
  | array count value => exact parse_array count value

theorem parsePatch_text {patch : List (PatchOperation Json)} {text : List Char}
    (h : patchText patch = some text) : parsePatch text = some patch := by
  unfold patchText at h
  split at h
  · rename_i path value
    obtain ⟨hpath, ⟨⟩⟩ := Option.ite_none_right_eq_some.mp h
    have hvalue : (between (patchHead path) patchEnd (patchHead path ++ value.text ++ patchEnd)).bind
        Json.parse = some value := by
      rw [between_append, Option.bind_some, parse_text]
    unfold parsePatch paths
    obtain rfl | rfl : path = "" ∨ path = "/1" := by simpa [paths] using hpath
    · rw [List.findSome?_cons, hvalue]
      rfl
    · have hroot : between (patchHead "") patchEnd (patchHead "/1" ++ value.text ++ patchEnd) = none := by
        refine between_eq_none fun middle h => ?_
        have := congrArg (fun text => text[25]?) h
        cases this
      rw [List.findSome?_cons, hroot, List.findSome?_cons, hvalue]
      rfl
  · cases h

theorem apply_diff (before after : Json) : (diff before after).foldlM apply before = some after := by
  unfold diff
  split
  · split
    · rename_i h
      rw [h]
      rfl
    · rfl
  · rfl

/-! ## The crates -/

scoped instance (priority := 2000) serdeJson : SerdeJson where
  Value := Json
  fromStr text := Json.parse text.toList
  toString value := some (String.ofList value.text)

scoped instance (priority := 2000) jsonPatch : JsonPatch where
  diff := diff
  patch before patch := patch.foldlM apply before
  fromStr text := parsePatch text.toList
  toString patch := (patchText patch).map String.ofList

theorem patchLaws [Blake3] (hinjective : Function.Injective Blake3.hash) : JsonLaws where
  reparse := by
    rintro value text ⟨⟩
    refine ⟨value, ?_, rfl⟩
    change Json.parse (String.ofList value.text).toList = _
    rw [String.toList_ofList, parse_text]
  repatch := by
    intro patch text h
    obtain ⟨text, htext, rfl⟩ := Option.map_eq_some_iff.mp h
    change parsePatch (String.ofList text).toList = _
    rw [String.toList_ofList, parsePatch_text htext]
  patch_diff := apply_diff
  supported := by
    intro before after op hop
    change op ∈ diff before after at hop
    unfold diff at hop
    split at hop
    · split at hop <;> rw [List.mem_singleton.mp hop] <;> rfl
    · rw [List.mem_singleton.mp hop]
      rfl
  injective := hinjective

end Patches
end WfObserver
