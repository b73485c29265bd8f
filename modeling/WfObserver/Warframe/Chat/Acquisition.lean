import WfObserver.Warframe.Chat

/-!
# Reading chat from the game (`topics/chat/acquisition.rs`)

The game keeps its channels and the entries of each in circular doubly linked lists. `readChat` walks
them within limits, and skips the walk when the list heads and the tail entries of a retained history
are still what they were.
-/

namespace WfObserver
namespace Warframe

open ProviderSdk

/-! ## Native strings (`native_string.rs`) -/

inductive Storage where
  | inline (length : Nat)
  | external (pointer length : Nat)
  deriving DecidableEq, Repr

def Storage.length : Storage → Nat
  | .inline length => length
  | .external _ length => length

def decodeHeader (header : Vector UInt8 16) (maximum : Nat) : Except ReadError Storage := do
  let unused := header[15].toNat
  let storage ←
    if unused ≤ 15 then .ok (.inline (15 - unused))
    else if unused = 0xff then
      let pointer := fromLeBytes (header.toList.take 8)
      let length := fromLeBytes ((header.toList.drop 8).take 4) % 0x10000000
      if length ≠ 0 ∧ pointer = 0 then .error (.invalid "native string pointer")
      else .ok (.external pointer length)
    else .error (.invalid "native string representation")
  if maximum < storage.length then .error (.limit "native string length") else pure storage

def stringBytes (reader : TargetReader) (header : Vector UInt8 16) :
    Storage → Except ReadError (List UInt8)
  | .inline length => .ok (header.toList.take length)
  | .external pointer length =>
    if length = 0 then .ok [] else (fun bytes => bytes.toList) <$> reader.readAt pointer length

def readString (reader : TargetReader) (object offset maximum : Nat) : Except ReadError String := do
  let address ← reader.objectAddress object offset 16
  readStable (do
    let header ← reader.readAt address 16
    let storage ← decodeHeader header maximum
    let bytes ← stringBytes reader header storage
    let again ← reader.readAt address 16
    if again ≠ header then .error (.changed "native string header")
    else if bytes.contains 0 then .error (.invalid "native string NUL")
    else match String.fromUTF8? ⟨bytes.toArray⟩ with
      | some text => pure text
      | none => .error (.invalid "native string UTF-8")) (.changed "native string contents")

/-! ## Facts (`facts.rs`) -/

/-- `READ_LIMITS` of the target (`target.rs`). -/
def readLimits : ReadLimits := { minAddress := 1, maxAddress := 0x7fffffffffff }

namespace Facts

def handler : Nat := 0x00f0f100

def handlerSlot : Nat := 0x248

/-- The channel-list sentinel is embedded in profile data. -/
def channels : Nat := 0x11ea8

def channelName : Nat := 0x18

def channelEntries : Nat := 0x28

def sender : Nat := 0x18

def text : Nat := 0x28

def timestamp : Nat := 0x38

def role : Nat := 0x48

end Facts

/-! ## Nodes -/

def links (reader : TargetReader) (address : Nat) : Except ReadError Links :=
  if address = 0 ∨ ¬8 ∣ address then .error (.invalid "chat node pointer")
  else do
    let bytes ← reader.readAt address 16
    pure ⟨fromLeBytes (bytes.toList.take 8), fromLeBytes (bytes.toList.drop 8)⟩

def readEntry (reader : TargetReader) (address : Nat) : Except ReadError Entry := do
  let first ← links reader address
  let sender ← readString reader address Facts.sender 128
  let text ← readString reader address Facts.text maxMessageBytes
  let time ← readString reader address Facts.timestamp 64
  let role ← reader.readObjectU32 address Facts.role
  let again ← links reader address
  if first ≠ again then .error (.changed "chat entry")
  else do
    let gameTime ← Layout.time time
    pure { address, links := first, role, sender, text, gameTime }

/-- The channel at a node, still without its entries. -/
def readHeader (reader : TargetReader) (channels : List Channel) (current previous : Nat) :
    Except ReadError Channel := do
  let node ← links reader current
  if node.previous ≠ previous then .error (.changed "chat channel links")
  else do
    let key ← readString reader current Facts.channelName 128
    if channels.any (·.key == key) then .error (.invalid "chat channel name")
    else do
      let entries ← reader.objectAddress current Facts.channelEntries 16
      let entryLinks ← links reader entries
      pure { address := current, links := node, key, entryLinks, entries := [] }

/-- The walk along the channels; `fuel` is what `MAX_CHANNELS` leaves. Returns the last node too. -/
def headersFrom (reader : TargetReader) (sentinel : Nat) :
    Nat → Nat → Nat → List Channel → Except ReadError (List Channel × Nat)
  | 0, current, previous, channels =>
    if current = sentinel then .ok (channels, previous) else .error (.limit "chat channels")
  | fuel + 1, current, previous, channels =>
    if current = sentinel then .ok (channels, previous)
    else if channels.any (·.address == current) then .error (.invalid "chat channel cycle")
    else do
      let channel ← readHeader reader channels current previous
      headersFrom reader sentinel fuel channel.links.next current (channels ++ [channel])

def headers (reader : TargetReader) (sentinel : Nat) : Except ReadError (List Channel) := do
  let head ← links reader sentinel
  let (channels, previous) ← headersFrom reader sentinel maxChannels head.next sentinel []
  if head.previous ≠ previous then .error (.changed "chat channel head")
  else do
    let again ← links reader sentinel
    if head ≠ again then .error (.changed "chat channel head") else pure channels

def Channel.sameHeader (a b : Channel) : Bool :=
  a.address == b.address && a.links == b.links && a.key == b.key && a.entryLinks == b.entryLinks

def sameHeaders (first second : List Channel) : Bool :=
  first.length == second.length && (first.zip second).all fun (a, b) => a.sameHeader b

/-! ## Whole histories -/

/-- The variables of the walk along one channel's entries. -/
structure Walk where
  entries : List Entry
  count : Nat
  bytes : Nat
  previous : Nat
  deriving DecidableEq

/-- The walk along a channel's entries; `fuel` is what `MAX_ENTRIES` leaves. -/
def entriesFrom (reader : TargetReader) (sentinel : Nat) : Nat → Nat → Walk → Except ReadError Walk
  | 0, current, walk => if current = sentinel then .ok walk else .error (.limit "chat entries")
  | fuel + 1, current, walk =>
    if current = sentinel then .ok walk
    else if maxTotalEntries ≤ walk.count then .error (.limit "chat entries")
    else if walk.entries.any (·.address == current) then .error (.invalid "chat entry cycle")
    else do
      let entry ← readEntry reader current
      if entry.links.previous ≠ walk.previous then .error (.changed "chat entry links")
      else
        let bytes := walk.bytes + (entry.text.utf8ByteSize + entry.sender.utf8ByteSize)
        if maxStringBytes < bytes then .error (.limit "chat strings")
        else
          entriesFrom reader sentinel fuel entry.links.next
            { entries := walk.entries ++ [entry], count := walk.count + 1, bytes, previous := current }

/-- The channels read in full so far, and the entries and bytes counted over all of them. -/
structure Filled where
  channels : List Channel
  count : Nat
  bytes : Nat

def fillChannel (reader : TargetReader) (filled : Filled) (channel : Channel) :
    Except ReadError Filled := do
  let sentinel ← reader.objectAddress channel.address Facts.channelEntries 16
  let walk ← entriesFrom reader sentinel maxEntries channel.entryLinks.next
    { entries := channel.entries, count := filled.count,
      bytes := filled.bytes + channel.key.utf8ByteSize, previous := sentinel }
  if walk.previous ≠ channel.entryLinks.previous then .error (.changed "chat entry tail")
  else pure {
    channels := filled.channels ++ [{ channel with entries := walk.entries }]
    count := walk.count
    bytes := walk.bytes }

def readHistory (reader : TargetReader) (sentinel : Nat) : Except ReadError History := do
  let channels ← headers reader sentinel
  let filled ← channels.foldlM (fillChannel reader) { channels := [], count := 0, bytes := 0 }
  let again ← headers reader sentinel
  if sameHeaders again filled.channels then pure { channels := filled.channels }
  else .error (.changed "chat channel headers")

/-- Rereads the tail entry of a retained channel. -/
def sameTail (reader : TargetReader) (same : Bool) (channel : Channel) : Except ReadError Bool :=
  match channel.entries.getLast? with
  | some tail => do
    let entry ← readEntry reader tail.address
    pure (same && entry == tail)
  | none => pure same

/-- Whether the headers and tail entries are those of a retained history. -/
def unchanged (reader : TargetReader) (sentinel : Nat) (first : List Channel) :
    Option History → Except ReadError Bool
  | none => .ok false
  | some cached =>
    if sameHeaders first cached.channels then do
      let same ← cached.channels.foldlM (sameTail reader) true
      if same then do
        let again ← headers reader sentinel
        pure (sameHeaders again first)
      else pure false
    else .ok false

/-- The chat of the account whose profile data is at `login`; `none` if it is as retained. -/
def readChat (memory : ProcessMemory) (base size login : Nat) (cached : Option History) :
    Except ReadError (Option History) := do
  let reader ← TargetReader.new memory base size readLimits
  reader.requireVtableSlotLe64 login Facts.handlerSlot Facts.handler "chat message handler"
  let sentinel ← reader.objectAddress login Facts.channels 16
  let first ← headers reader sentinel
  let same ← unchanged reader sentinel first cached
  if same then pure none
  else do
    let history ← readStable (readHistory reader sentinel) (.changed "chat history")
    pure (some history)

end Warframe
end WfObserver
