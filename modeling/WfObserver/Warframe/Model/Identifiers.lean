import Mathlib.Data.String.Basic

/-!
# Identifiers of the Warframe model (`model/src/account_id.rs`, `model/src/item_key.rs`)

A game account is named by 24 hexadecimal digits and an item by its path in the game's files. Both are
compared as texts.
-/

namespace WfObserver
namespace Warframe

/-- 24 lowercase hexadecimal characters. -/
def accountIdText (text : String) : Bool :=
  text.utf8ByteSize == 24
    && text.toList.all fun c => c.isDigit || (decide ('a' ≤ c) && decide (c ≤ 'f'))

structure AccountId where
  text : String
  valid : accountIdText text = true
  deriving DecidableEq

/-- A path below `/Lotus/` without empty segments and NUL bytes. -/
def itemKeyText (text : String) : Bool :=
  match text.toList.dropPrefix? "/Lotus/".toList with
  | none => false
  | some relative => !relative.isEmpty && !relative.contains '\x00'
      && (relative.splitOn '/').all fun segment => !segment.isEmpty

structure ItemKey where
  text : String
  valid : itemKeyText text = true
  deriving DecidableEq

/-- `AccountId::new`. -/
def AccountId.new (value : String) : Option AccountId :=
  if h : accountIdText value = true then some ⟨value, h⟩ else none

/-- `ItemKey::new`. -/
def ItemKey.new (value : String) : Option ItemKey :=
  if h : itemKeyText value = true then some ⟨value, h⟩ else none

instance : LinearOrder AccountId := LinearOrder.lift' AccountId.text fun a b h => by
  cases a
  cases b
  cases h
  rfl

instance : LinearOrder ItemKey := LinearOrder.lift' ItemKey.text fun a b h => by
  cases a
  cases b
  cases h
  rfl

end Warframe
end WfObserver
