import CloudGame.Lib.Run
import CloudGame.Worker.PendingSignals

/-!
# The offer/answer exchange of one client

The portal runs one game-session runtime after the other on one signaling socket
(`useWebRtcGameSession.js`): `start` sends `initwebrtc`, `dispose` sends `terminateSession`
(`gameSessionRuntime.js`).  The server relays both to the worker and passes an answer on only while
the client is bound (`ws.rs`).  The worker makes a session for an `initwebrtc`, offers it, and hands
an answer to the session that is registered for the client then (`signal_router.rs`,
`webrtc_session.rs`).  Between the parties the messages are queues.

The messages carry the client only.  Here an `initwebrtc` bears its number and a session is named
by the number of the `initwebrtc` it was made for; an answer names the session whose offer it was
computed from.  The portal and the server do not read these numbers, and the worker reads none of
an answer.  Candidates are left out; that they take room in the worker's queue of early signals is
`dropPending`.
-/

namespace CloudGame.Handshake

open CloudGame.Worker (maxPendingMessagesPerSession)

inductive Signal where
  | initWebrtc (number : Nat)
  | terminateSession
  | answer (session : Nat)
deriving DecidableEq

/-- A runtime that is not disposed: the offers on its message-processing chain, and the offer that
is being handled. -/
structure Runtime where
  chain : List Nat
  handling : Option Nat
deriving DecidableEq

structure Exchange where
  /-- The number of `initwebrtc` messages sent so far. -/
  inits : Nat
  live : Option Runtime
  /-- The offers whose handling has outlived its runtime. -/
  outlived : List Nat
  toServer : List Signal
  /-- The client is bound to the worker. -/
  bound : Bool
  toWorker : List Signal
  /-- The offers on their way to the portal. -/
  toPortal : List Nat
  /-- The session registered for the client. -/
  registered : Option Nat
  /-- The sessions whose remote description is set. -/
  remoteDescriptions : List Nat
  /-- The answers among the early signals. -/
  pendingSignals : List Nat
  /-- The early answers that the router is replaying. -/
  replaying : List Nat
  /-- The calls of `set_remote_description`, newest first: the session, and the session whose offer
  the answer was computed from.  No step reads it. -/
  applied : List (Nat × Nat)

inductive ExchangeAction where
  | start
  | dispose
  /-- The socket delivers an offer. -/
  | receive
  /-- The runtime begins to handle the next offer of its chain. -/
  | handle
  | answer
  /-- The offer could not be answered. -/
  | fail
  /-- A handler that has outlived its runtime sends its answer. -/
  | answerLate (index : Nat)
  | relay
  /-- The router handles an early answer or the next message; the flags say whether a session could
  be made and whether `set_remote_description` succeeds. -/
  | work (ready succeeds : Bool)
  /-- A callback or a video task takes the session out. -/
  | loseSession
  /-- Early signals are pushed out. -/
  | dropPending (count : Nat)

namespace Exchange

def init : Exchange where
  inits := 0
  live := none
  outlived := []
  toServer := []
  bound := false
  toWorker := []
  toPortal := []
  registered := none
  remoteDescriptions := []
  pendingSignals := []
  replaying := []
  applied := []

/-! ## The portal -/

def sendSignal (s : Exchange) (msg : Signal) : Exchange :=
  { s with toServer := s.toServer ++ [msg] }

def start (s : Exchange) : Option Exchange :=
  match s.live with
  | some _ => none
  | none =>
    some ({ s with inits := s.inits + 1, live := some ⟨[], none⟩ }.sendSignal
      (.initWebrtc (s.inits + 1)))

def dispose (s : Exchange) : Option Exchange :=
  match s.live with
  | none => none
  | some runtime =>
    some ({ s with live := none, outlived := s.outlived ++ runtime.handling.toList }.sendSignal
      .terminateSession)

/-- `handleSocketMessage`; without a runtime there is no listener. -/
def receive (s : Exchange) : Option Exchange :=
  match s.toPortal with
  | [] => none
  | offer :: rest =>
    match s.live with
    | none => some { s with toPortal := rest }
    | some runtime =>
      some { s with toPortal := rest,
                    live := some { runtime with chain := runtime.chain ++ [offer] } }

def handle (s : Exchange) : Option Exchange :=
  match s.live with
  | some ⟨offer :: rest, none⟩ => some { s with live := some ⟨rest, some offer⟩ }
  | _ => none

def answer (s : Exchange) : Option Exchange :=
  match s.live with
  | some ⟨chain, some offer⟩ =>
    some ({ s with live := some ⟨chain, none⟩ }.sendSignal (.answer offer))
  | _ => none

def fail (s : Exchange) : Option Exchange :=
  match s.live with
  | some ⟨chain, some _⟩ => some { s with live := some ⟨chain, none⟩ }
  | _ => none

def answerLate (s : Exchange) (index : Nat) : Option Exchange :=
  match s.outlived[index]? with
  | some offer => some ({ s with outlived := s.outlived.eraseIdx index }.sendSignal (.answer offer))
  | none => none

/-! ## The server -/

/-- `handle_browser_message` of the server: `initwebrtc` binds the client, `terminateSession` goes
to the worker it is bound to and unbinds it, and an answer is passed on while it is bound. -/
def relay (s : Exchange) : Option Exchange :=
  match s.toServer with
  | [] => none
  | .initWebrtc number :: rest =>
    some { s with toServer := rest, bound := true, toWorker := s.toWorker ++ [.initWebrtc number] }
  | .terminateSession :: rest =>
    some { s with
      toServer := rest
      bound := false
      toWorker := if s.bound then s.toWorker ++ [.terminateSession] else s.toWorker }
  | .answer session :: rest =>
    some { s with
      toServer := rest
      toWorker := if s.bound then s.toWorker ++ [.answer session] else s.toWorker }

/-! ## The worker -/

/-- `create_session`, and the early signals to replay when it succeeds. -/
def handleInitWebrtc (s : Exchange) (ready : Bool) (number : Nat) : Exchange :=
  if ready then
    match s.registered with
    | some _ => s
    | none =>
      { s with
        registered := some number
        toPortal := s.toPortal ++ [number]
        replaying := s.pendingSignals
        pendingSignals := [] }
  else s

def handleTerminateSession (s : Exchange) : Exchange :=
  { s with pendingSignals := [], registered := none }

/-- `apply_answer` for the session: an answer after the first is ignored. -/
def applyAnswer (s : Exchange) (succeeds : Bool) (session offered : Nat) : Exchange :=
  if session ∈ s.remoteDescriptions then s
  else
    { s with
      applied := (session, offered) :: s.applied
      remoteDescriptions :=
        if succeeds then session :: s.remoteDescriptions else s.remoteDescriptions }

/-- `PendingSessionSignals::enqueue` for the client. -/
def enqueue (s : Exchange) (offered : Nat) : Exchange :=
  let queue :=
    if s.pendingSignals.length ≥ maxPendingMessagesPerSession then s.pendingSignals.drop 1
    else s.pendingSignals
  { s with pendingSignals := queue ++ [offered] }

def handleAnswer (s : Exchange) (succeeds : Bool) (offered : Nat) : Exchange :=
  match s.registered with
  | some session => s.applyAnswer succeeds session offered
  | none => s.enqueue offered

def handleMessage (s : Exchange) (ready succeeds : Bool) : Signal → Exchange
  | .initWebrtc number => s.handleInitWebrtc ready number
  | .terminateSession => s.handleTerminateSession
  | .answer offered => s.handleAnswer succeeds offered

/-- The router replays the early answers before it takes the next message. -/
def work (s : Exchange) (ready succeeds : Bool) : Option Exchange :=
  match s.replaying with
  | offered :: rest => some ({ s with replaying := rest }.handleAnswer succeeds offered)
  | [] =>
    match s.toWorker with
    | [] => none
    | msg :: rest => some ({ s with toWorker := rest }.handleMessage ready succeeds msg)

def step (s : Exchange) : ExchangeAction → Option Exchange
  | .start => s.start
  | .dispose => s.dispose
  | .receive => s.receive
  | .handle => s.handle
  | .answer => s.answer
  | .fail => s.fail
  | .answerLate index => s.answerLate index
  | .relay => s.relay
  | .work ready succeeds => s.work ready succeeds
  | .loseSession => some { s with registered := none }
  | .dropPending count => some { s with pendingSignals := s.pendingSignals.drop count }

end Exchange

end CloudGame.Handshake
