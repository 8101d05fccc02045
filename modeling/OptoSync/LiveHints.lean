import OptoSync.RecordController

/-!
# Supabase hints

`createSupabaseHints$` of the TypeScript package and `createSupabaseHints` of the Dart package, with
an auth binding. A refresh asks for a token and then sets it on the realtime client; it is not
cancelled with the stream that started it.
-/
namespace OptoSync.LiveHints

open Reactive
open Reactive.Dart (SyncSession sameSession)

structure DecodedSyncHint where
  table : Option String
  recordId : Option String
  checkpoint : Option String
  deriving DecidableEq

/-- The reason is always a remote change, the source Supabase. -/
structure SyncHint where
  table : Option String
  recordId : Option String
  checkpoint : Option String
  sessionPartition : String
  deriving DecidableEq

/-- Calls of the realtime client and the channel factory, and hints. The token of a call is the one
that was returned for the identity. -/
inductive Output
  | setAuth (identity : SyncSessionIdentity) (token : String)
  | channel (identity : SyncSessionIdentity)
  | hint (hint : SyncHint)
  deriving DecidableEq

/-- What a refresh waits for. -/
inductive Stage
  | token | auth | done
  deriving DecidableEq

structure Refresh where
  identity : SyncSessionIdentity
  stage : Stage
  deriving DecidableEq

/-- The callbacks of a channel act while it is open. -/
structure Channel where
  identity : SyncSessionIdentity
  isOpen : Bool
  deriving DecidableEq

/-- Where the stream of the session is; refreshes and channels are named by their index. -/
inductive Phase
  | idle
  | refreshing (refresh : ℕ)
  | connected (channel : ℕ)
  | waiting
  deriving DecidableEq

structure Hints where
  /-- The session that was switched to last. -/
  session : Option SyncSession := none
  listening : Bool := false
  /-- The last session that `distinct` let through. -/
  previous : Option SyncSession := none
  /-- The identity that the stream of the session was made for. -/
  identity : Option SyncSessionIdentity := none
  phase : Phase := .idle
  retries : ℕ := 0
  refreshes : List Refresh := []
  channels : List Channel := []
  /-- The outputs of the last step. -/
  outputs : List Output := []

/-- How the channel factory and `subscribe` end. -/
inductive Creation
  | factoryThrows | subscribeThrows | subscribed

inductive Event
  | session (session : SyncSession)
  /-- The first subscriber; a source may replay its session to it. -/
  | subscribe (replays : Bool)
  /-- The last subscriber leaves. -/
  | leave
  /-- `accessToken` settles; none is a failure. -/
  | tokenAnswer (refresh : ℕ) (token : Option String)
  | authAnswer (refresh : ℕ) (succeeds : Bool) (creation : Creation)
  /-- The decoder throws where there is no hint. -/
  | payload (channel : ℕ) (decoded : Option DecodedSyncHint)
  /-- A status that ends the channel. -/
  | failure (channel : ℕ)
  | retry

def requireAuthenticated : SyncSession → Option SyncSessionIdentity
  | .authenticated identity => some identity
  | _ => none

section
variable (host : JsonHost) (trim : String → String) (retryAttempts : ℕ)

def validToken (token : String) : Bool := token ≠ "" && trim token = token

namespace Hints

/-- Ends the stream of the session and fences its channel. -/
def tearDown (s : Hints) : Hints :=
  match s.phase with
  | .connected channel =>
    { s with phase := .idle,
             channels := s.channels.modify channel fun c => { c with isOpen := false } }
  | _ => { s with phase := .idle }

/-- Subscribes to an attempt, which begins with `accessToken`. -/
def startAttempt (s : Hints) (identity : SyncSessionIdentity) : Hints :=
  { s with phase := .refreshing s.refreshes.length,
           refreshes := s.refreshes ++ [{ identity, stage := .token }] }

/-- The stream of a new session. -/
def connect (s : Hints) (identity : SyncSessionIdentity) : Hints :=
  { s with identity := some identity, retries := 0 }.startAttempt identity

/-- An attempt fails. Without a retry left the error reaches the subscribers, and ends the hints
where `closes` is true. -/
def attemptFailed (closes : Bool) (s : Hints) : Hints :=
  if s.retries < retryAttempts then
    { s.tearDown with phase := .waiting, retries := s.retries + 1 }
  else { s.tearDown with listening := s.listening && !closes }

def setStage (s : Hints) (refresh : ℕ) (stage : Stage) : Hints :=
  { s with refreshes := s.refreshes.modify refresh fun r => { r with stage } }

/-- The channel of an attempt whose refresh is complete. -/
def openChannel (closes : Bool) (s : Hints) (identity : SyncSessionIdentity)
    (creation : Creation) : Hints :=
  let s := { s with outputs := [.channel identity] }
  match creation with
  | .factoryThrows => s.attemptFailed retryAttempts closes
  | .subscribeThrows =>
    let s : Hints := { s with channels := s.channels ++ [{ identity, isOpen := false }] }
    s.attemptFailed retryAttempts closes
  | .subscribed =>
    { s with phase := .connected s.channels.length,
             channels := s.channels ++ [{ identity, isOpen := true }] }

/-- `refreshSupabaseAuth` after its first await. -/
def onToken (closes : Bool) (s : Hints) (refresh : ℕ) (answer : Option String) : Hints :=
  match s.refreshes[refresh]? with
  | some { identity, stage := .token } =>
    match answer.filter (validToken trim) with
    | some token => { s.setStage refresh .auth with outputs := [.setAuth identity token] }
    | none =>
      let s := s.setStage refresh .done
      if s.phase = .refreshing refresh then s.attemptFailed retryAttempts closes else s
  | _ => s

/-- `refreshSupabaseAuth` after its second await, and the attempt if it is still subscribed. -/
def onAuth (closes : Bool) (s : Hints) (refresh : ℕ) (succeeds : Bool) (creation : Creation) :
    Hints :=
  match s.refreshes[refresh]? with
  | some { identity, stage := .auth } =>
    let s := s.setStage refresh .done
    if s.phase = .refreshing refresh then
      if succeeds then s.openChannel retryAttempts closes identity creation
      else s.attemptFailed retryAttempts closes
    else s
  | _ => s

def onPayload (closes : Bool) (s : Hints) (channel : ℕ) (decoded : Option DecodedSyncHint) :
    Hints :=
  match s.channels[channel]? with
  | some { identity, isOpen := true } =>
    match decoded with
    | some decoded =>
      { s with outputs := [.hint {
          table := decoded.table, recordId := decoded.recordId, checkpoint := decoded.checkpoint,
          sessionPartition := host.transportSessionKey identity }] }
    | none => s.attemptFailed retryAttempts closes
  | _ => s

def onFailure (closes : Bool) (s : Hints) (channel : ℕ) : Hints :=
  match s.channels[channel]? with
  | some { isOpen := true, .. } => s.attemptFailed retryAttempts closes
  | _ => s

def onRetry (s : Hints) : Hints :=
  match s.phase, s.identity with
  | .waiting, some identity => s.startAttempt identity
  | _, _ => s

/-- A step of a package: what a session does to a listening stream is its own. -/
def step (closes : Bool) (switchTo : Hints → SyncSession → Hints) (s : Hints) (event : Event) :
    Hints :=
  let s := { s with outputs := [] }
  match event with
  | .session session =>
    let s := { s with session := some session }
    if s.listening then switchTo s session else s
  | .subscribe replays =>
    if s.listening then s
    else
      let s := { s with listening := true, previous := none }
      match replays, s.session with
      | true, some session => switchTo s session
      | _, _ => s
  | .leave => { s.tearDown with listening := false }
  | .tokenAnswer refresh token => s.onToken trim retryAttempts closes refresh token
  | .authAnswer refresh succeeds creation =>
    s.onAuth retryAttempts closes refresh succeeds creation
  | .payload channel decoded => s.onPayload host retryAttempts closes channel decoded
  | .failure channel => s.onFailure retryAttempts closes channel
  | .retry => s.onRetry

end Hints

/-! ## TypeScript -/

namespace TypeScript

/-- `switchMap` unsubscribes first; where `requireAuthenticated` throws, the hints end. -/
def switchTo (s : Hints) (session : SyncSession) : Hints :=
  match requireAuthenticated session with
  | some identity => s.tearDown.connect identity
  | none => { s.tearDown with listening := false }

def next (s : Hints) (event : Event) : Hints :=
  s.step host trim retryAttempts true switchTo event

end TypeScript

/-! ## Dart -/

namespace Dart

/-- Whether `switchMap` keeps the previous stream where its mapper throws is a parameter. -/
def switchTo (keeps : Bool) (s : Hints) (session : SyncSession) : Hints :=
  if s.previous.any (sameSession host · session) then s
  else
    let s := { s with previous := some session }
    match requireAuthenticated session with
    | some identity => s.tearDown.connect identity
    | none => if keeps then s else s.tearDown

def next (keeps : Bool) (s : Hints) (event : Event) : Hints :=
  s.step host trim retryAttempts false (switchTo host keeps) event

end Dart
end
end OptoSync.LiveHints
