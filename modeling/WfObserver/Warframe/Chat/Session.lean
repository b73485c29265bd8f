import WfObserver.Warframe.Chat

/-!
# Publishing chat (`session/polling.rs`)

A prepared batch stays pending until the host accepts it: `publishChat` prepares one only when none is
pending, and `pollCompleted` moves history and cursor on when it was accepted. A run also keeps what was
committed, the latest first (`ChatRun`).
-/

namespace WfObserver
namespace Warframe

open ProviderSdk

/-- One chat update belonging to an explicit account. -/
structure ChatEvent where
  accountId : String
  update : ChatUpdate
  deriving DecidableEq, Repr

/-- One bounded publication, retained across rejection. -/
structure PendingChat where
  history : Option History
  cursor : ChatCursor
  events : List ChatEvent
  more : Bool
  deriving DecidableEq

/-- The chat part of a session. -/
structure ChatSession where
  chatHistory : Option History
  chatCursor : ChatCursor
  pendingChat : Option PendingChat
  chatStaged : Bool
  nextPoll : Duration
  deriving DecidableEq

/-- What the acquisition of a poll gave for chat. -/
inductive ChatReading where
  | absent
  | failed (retryAt : Duration)
  | read (history : Option History)

def chatInterval : Duration := milliseconds 250

def chatBacklogInterval : Duration := milliseconds 25

namespace ChatSession

def default : ChatSession :=
  { chatHistory := none, chatCursor := .default, pendingChat := none, chatStaged := false,
    nextPoll := 0 }

/-- The batch to publish, prepared unless one is pending. -/
def batch (session : ChatSession) (account : String) (history : Option History)
    (localName : Option String) : Except ProviderError PendingChat :=
  match session.pendingChat with
  | some pending => .ok pending
  | none =>
    match history.or session.chatHistory with
    | none => .error (.failed "chat baseline missing")
    | some current =>
      match session.chatCursor.prepare current localName with
      | .error error => .error (.failed error.text)
      | .ok (cursor, updates, more) =>
        .ok { history, cursor, events := updates.map fun update => ⟨account, update⟩, more }

/-- `refused` is the first error of the health and event sinks. -/
def publishChat (session : ChatSession) (now : Duration) (account : String) (chat : ChatReading)
    (localName : Option String) (refused : Option ProviderError) :
    ChatSession × Except ProviderError Unit :=
  match chat with
  | .absent => (session, .ok ())
  | .failed retryAt =>
    match refused with
    | some error => (session, .error error)
    | none => ({ session with nextPoll := retryAt }, .ok ())
  | .read history =>
    match session.batch account history localName with
    | .error error => (session, .error error)
    | .ok pending =>
      -- Retain both events and tentative positions before any sink can fail.
      let session := { session with pendingChat := some pending, chatStaged := true }
      match refused with
      | some error => (session, .error error)
      | none =>
        let interval := if pending.more then chatBacklogInterval else chatInterval
        ({ session with nextPoll := now + interval }, .ok ())

/-- The batch that a completed poll commits. An unrelated accepted poll must not commit a pending
retry. -/
def committing (session : ChatSession) (committed : Bool) : Option PendingChat :=
  if session.chatStaged && committed then session.pendingChat else none

def pollCompleted (session : ChatSession) (committed : Bool) : ChatSession :=
  if !session.chatStaged then session
  else
    let session := { session with chatStaged := false }
    if committed then
      match session.pendingChat with
      | some pending =>
        { session with
          pendingChat := none
          chatHistory := pending.history.or session.chatHistory
          chatCursor := pending.cursor }
      | none => session
    else { session with nextPoll := 0 }

end ChatSession

/-! ## Runs -/

/-- An accepted batch with the history and the cursor it left behind. -/
structure Commit where
  history : Option History
  cursor : ChatCursor
  events : List ChatEvent
  deriving DecidableEq

/-- A session together with its commits, the latest first. -/
structure ChatRun where
  session : ChatSession
  commits : List Commit

/-- What can happen to the chat of a session until it is cleared. -/
inductive ChatMove where
  | publish (now : Duration) (account : String) (chat : ChatReading) (localName : Option String)
      (refused : Option ProviderError)
  | completed (committed : Bool)

namespace ChatRun

def start : ChatRun := { session := .default, commits := [] }

def step (run : ChatRun) : ChatMove → ChatRun
  | .publish now account chat localName refused =>
    { run with session := (run.session.publishChat now account chat localName refused).1 }
  | .completed committed =>
    let session := run.session.pollCompleted committed
    match run.session.committing committed with
    | some pending =>
      { session, commits := ⟨session.chatHistory, session.chatCursor, pending.events⟩ :: run.commits }
    | none => { run with session }

def run (moves : List ChatMove) : ChatRun := moves.foldl step start

end ChatRun

end Warframe
end WfObserver
