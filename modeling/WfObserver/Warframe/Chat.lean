import Mathlib.Data.List.DropRight
import Mathlib.Data.String.Basic
import WfObserver.Lib.OrdMap
import WfObserver.Lib.Ring
import WfObserver.ProviderSdk.Memory

/-!
# Chat of the Warframe provider (`topics/chat`)

The public values (`model/src/chat.rs`), what a raw entry says about a message (`layout.rs`), the
history that acquisition retains (`acquisition.rs`) and the cursor that turns histories into batches of
updates (`cursor.rs`).
-/

namespace WfObserver
namespace Warframe

open ProviderSdk (ReadError)

/-! ## Limits (`facts.rs`) -/

def maxChannels : Nat := 32

def maxEntries : Nat := 100

def maxTotalEntries : Nat := 1000

def maxStringBytes : Nat := 512 * 1024

def maxMessageBytes : Nat := 4096

/-- Messages emitted per chat poll. -/
def maxEvents : Nat := 32

/-! ## Public values -/

/-- Game-local clock time at minute precision. -/
structure ChatTime where
  hour : Nat
  minute : Nat
  hour_lt : hour < 24
  minute_lt : minute < 60
  deriving DecidableEq, Repr

def ChatTime.new (hour minute : Nat) : Option ChatTime :=
  if h : hour < 24 ∧ minute < 60 then some ⟨hour, minute, h.1, h.2⟩ else none

inductive ChatChannel where
  | direct
  | squad
  | clan
  | alliance
  | region
  | questionsAndAnswers
  | recruiting
  | trade
  | designCouncil
  | hub
  | other
  deriving DecidableEq, Repr

/-- Authorship relative to the observed account. -/
inductive ChatDirection where
  | incoming
  | outgoing
  | system
  | unknown
  deriving DecidableEq, Repr

structure ChatMessage where
  channel : ChatChannel
  sender : Option String
  text : String
  gameTime : Option ChatTime
  direction : ChatDirection
  conversationId : String
  peer : Option String
  deriving DecidableEq, Repr

inductive ChatUpdate where
  | message (value : ChatMessage)
  | gap (channel : ChatChannel)
  deriving DecidableEq, Repr

/-! ## Retained history -/

abbrev Links := Ring.Links Nat

/-- Raw occurrence identity, independent of public enrichment. -/
structure Entry where
  address : Nat
  links : Links
  role : Nat
  sender : String
  text : String
  gameTime : Option ChatTime
  deriving DecidableEq, Repr

def Entry.sameOccurrence (entry other : Entry) : Bool :=
  entry.address == other.address && entry.links.previous == other.links.previous &&
    entry.role == other.role && entry.sender == other.sender && entry.text == other.text &&
    entry.gameTime == other.gameTime

structure Channel where
  address : Nat
  links : Links
  key : String
  entryLinks : Links
  entries : List Entry
  deriving DecidableEq, Repr

structure History where
  channels : List Channel
  deriving DecidableEq, Repr

/-! ## Layout -/

/-- Drops the platform icons at the end of a player's name. -/
def playerName (value : String) : String :=
  String.ofList (value.toList.rdropWhile fun c => 0xe000 ≤ c.toNat && c.toNat ≤ 0xf8ff)

def eqIgnoreAsciiCase (a b : String) : Bool :=
  a.toList.map Char.toLower == b.toList.map Char.toLower

namespace Layout

def time (text : String) : Except ReadError (Option ChatTime) :=
  match text.toList with
  | [] => .ok none
  | ['[', h₁, h₂, ':', m₁, m₂, ']', ' '] =>
    if [h₁, h₂, m₁, m₂].all Char.isDigit then
      let digit (c : Char) := c.toNat - '0'.toNat
      match ChatTime.new (digit h₁ * 10 + digit h₂) (digit m₁ * 10 + digit m₂) with
      | some clock => .ok (some clock)
      | none => .error (.invalid "chat clock time")
    else .error (.invalid "chat timestamp representation")
  | _ => .error (.invalid "chat timestamp representation")

/-- The two players of a private channel's key, in either order. Public keys start with `#`. -/
def participants (key : String) : Option (String × String) :=
  match key.toList.head?, key.toList.span (· != ',') with
  | some '#', _ => none
  | _, (first, ',' :: second) =>
    let first := playerName (String.ofList first)
    let second := playerName (String.ofList second)
    if !first.isEmpty && !second.isEmpty && !second.toList.contains ',' then some (first, second)
    else none
  | _, _ => none

def channel (key : String) : ChatChannel :=
  let starts (start : String) := start.toList.isPrefixOf key.toList
  if starts "#Q_" then .questionsAndAnswers
  else if starts "#R_" then .recruiting
  else if starts "#T_" then .trade
  else if starts "#H_" then .hub
  else if starts "#G_" then .region
  else if starts "#S" then .squad
  else if starts "#C" then .clan
  else if key == "#D" || starts "#D_" then .designCouncil
  else if (participants key).isSome then .direct
  else .other

def direction (raw sender : String) (localName : Option String) : ChatDirection :=
  -- Only the native notification path supplies an empty author.
  if raw.isEmpty then .system
  else if sender.isEmpty then .unknown
  else match localName with
    | some name => if eqIgnoreAsciiCase sender name then .outgoing else .incoming
    | none => .unknown

def peer (key : String) (localName : Option String) : Option String := do
  let name ← localName
  let (first, second) ← participants key
  match eqIgnoreAsciiCase first name, eqIgnoreAsciiCase second name with
  | true, false => some second
  | false, true => some first
  | _, _ => none

def message (entry : Entry) (key id : String) (localName : Option String) : ChatMessage :=
  let sender := playerName entry.sender
  let localName := (localName.map playerName).filter fun name => !name.isEmpty
  { channel := channel key
    sender := if sender.isEmpty then none else some sender
    text := entry.text
    gameTime := entry.gameTime
    direction := direction entry.sender sender localName
    conversationId := id
    peer := peer key localName }

end Layout

/-! ## Cursor -/

structure Position where
  channelAddress : Nat
  conversationId : String
  anchor : Option Entry
  deriving DecidableEq

/-- Last published positions and opaque IDs. -/
structure ChatCursor where
  positions : Option (OrdMap String Position)
  nextConversation : Nat
  deriving DecidableEq

/-- How many updates each channel may add to a batch. -/
def History.allowance (history : History) : Nat := maxEvents / max history.channels.length 1

namespace ChatCursor

def default : ChatCursor := { positions := none, nextConversation := 0 }

/-- Conversation numbers are 64-bit. -/
def conversationEnd : Nat := 2 ^ 64

def conversationId (n : Nat) : String := s!"c{n}"

/-- Where the cursor stands in a channel that it already knew at this address. -/
def previous (cursor : ChatCursor) (channel : Channel) : Option Position :=
  (cursor.positions.bind fun positions => positions.get? channel.key).filter
    fun position => position.channelAddress == channel.address

/-- The position of a channel, a new one under the next conversation number. -/
def claim (cursor : ChatCursor) (nextConversation : Nat) (channel : Channel) :
    Except ReadError (Position × Nat) :=
  match cursor.previous channel with
  | some previous => .ok (previous, nextConversation)
  | none =>
    if conversationEnd ≤ nextConversation + 1 then .error (.limit "chat conversation IDs")
    else
      .ok ({ channelAddress := channel.address
             conversationId := conversationId (nextConversation + 1)
             anchor := none }, nextConversation + 1)

end ChatCursor

/-- What follows the anchor; `none` if the anchor is not there. -/
def pendingAfter (anchor : Option Entry) (entries : List Entry) : Option (List Entry) :=
  match anchor with
  | none => some entries
  | some anchor =>
    (entries.findIdx? fun entry => entry.sameOccurrence anchor).map fun index =>
      entries.drop (index + 1)

/-- Follows a channel from a position: the position behind what was emitted, the updates, and whether
more is pending. -/
def Position.follow (position : Position) (allowance : Nat) (localName : Option String)
    (channel : Channel) : Position × List ChatUpdate × Bool :=
  match pendingAfter position.anchor channel.entries with
  | none =>
    -- Lost position in an existing instance: skip retained entries.
    ({ position with anchor := channel.entries.getLast? },
      [.gap (Layout.channel channel.key)], false)
  | some pending =>
    ({ position with anchor := (pending.take allowance).getLast?.or position.anchor },
      (pending.take allowance).map fun entry =>
        .message (Layout.message entry channel.key position.conversationId localName),
      decide (allowance < pending.length))

/-- The variables of `prepare`'s loop over the channels. -/
structure Turns where
  positions : OrdMap String Position
  nextConversation : Nat
  updates : List ChatUpdate
  more : Bool

namespace ChatCursor

/-- The turn of one channel. -/
def visit (cursor : ChatCursor) (allowance : Nat) (localName : Option String) (turns : Turns)
    (channel : Channel) : Except ReadError Turns := do
  let (position, nextConversation) ← cursor.claim turns.nextConversation channel
  match cursor.positions with
  | none =>
    -- Only initial acquisition baselines a newly observed conversation.
    pure { turns with
      positions := turns.positions.insert channel.key
        { position with anchor := channel.entries.getLast? }
      nextConversation }
  | some _ =>
    let (position, updates, more) := position.follow allowance localName channel
    pure {
      positions := turns.positions.insert channel.key position
      nextConversation
      updates := turns.updates ++ updates
      more := turns.more || more }

def start (cursor : ChatCursor) : Turns :=
  { positions := ∅, nextConversation := cursor.nextConversation, updates := [], more := false }

/-- Produces tentative positions and IDs. -/
def prepare (cursor : ChatCursor) (history : History) (localName : Option String) :
    Except ReadError (ChatCursor × List ChatUpdate × Bool) := do
  let turns ← history.channels.foldlM (cursor.visit history.allowance localName) cursor.start
  pure ({ positions := some turns.positions, nextConversation := turns.nextConversation },
    turns.updates, turns.more)

end ChatCursor

end Warframe
end WfObserver
