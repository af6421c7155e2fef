import CloudGame.Lib.Run
import CloudGame.Portal.JsObject
import CloudGame.Signal.Protocol

/-!
# Offers and candidates (`arcade-portal/src/hooks/webrtc/gameSessionRuntime.js`)

The messages of the socket are handled one after the other on a promise chain.  A handler runs up to
its next `await`; while it is suspended messages arrive, and the promise it waits for resolves or
rejects.  So a step is an arrival, the start of the next handler, or a promise that settles.

`RtcPlatform` is what the browser supplies.  The remote description is set when the promise of
`setRemoteDescription` resolves.

* `ice_candidates_ordered`: `addIceCandidate` is called after the remote description is set, with
  every well-formed candidate in the order of arrival, and with all of them once the chain is idle.
-/

namespace CloudGame.Portal

open CloudGame.Lib
open CloudGame.Signal (SignalMessage SignalIds.offer SignalIds.answer SignalIds.candidate
  SignalIds.terminateSession)

/-! ## Messages -/

/-- The data of a message event. -/
inductive MessageData where
  | text (s : String)
  | buffer (bytes : List UInt8)
  | other
deriving DecidableEq

/-- The functions that decode throw where the value is `none`. -/
structure RtcPlatform where
  Number : Type
  Description : Type
  Candidate : Type
  /-- `JSON.parse` -/
  jsonParse : String → Option (JsonValue Number)
  /-- `new TextDecoder().decode` -/
  textDecode : List UInt8 → String
  /-- `new RTCSessionDescription(JSON.parse(atob(data)))` -/
  sessionDescription : String → Option Description
  /-- `new RTCIceCandidate(JSON.parse(atob(data)))` -/
  iceCandidate : String → Option Candidate
  /-- `btoa(JSON.stringify(answer))`, of the answer with this SDP. -/
  answerData : String → Option String

def knownMessageIds : List String :=
  ["games", "getGames", "gameInfo", "updatePlayerCount", "initwebrtc", "offer", "answer",
    "candidate", "joinRoom", "terminateSession", "input", "controllerHost", "controllerReady",
    "controllerJoin", "controllerJoined", "controllerLeft", "controllerRejected",
    "controllerInput", "controllerAudio"]

structure PortalMessage where
  id : String
  data : String
  targetID : Option String
deriving DecidableEq

def parseSignalMessage (pf : RtcPlatform) (raw : MessageData) : Option PortalMessage := do
  let rawText ← match raw with
    | .text s => some s
    | .buffer bytes => some (pf.textDecode bytes)
    | .other => none
  let parsed ← pf.jsonParse rawText
  let id ← (jsField "id" parsed).bind JsonValue.asStr
  if id ∈ knownMessageIds then
    some ⟨id, ((jsField "data" parsed).bind JsonValue.asStr).getD "",
      (jsField "sessionID" parsed).bind JsonValue.asStr⟩
  else none

def isLineTerminator (c : Char) : Bool := c ∈ ['\n', '\r', '\u2028', '\u2029']

/-- The text with `replace(/(a=fmtp:111 .*)/g, "$1;stereo=1;sprop-stereo=1")`; `matched` says that
the line has the pattern. -/
def addStereo (matched : Bool) : List Char → List Char
  | [] => if matched then ";stereo=1;sprop-stereo=1".toList else []
  | c :: cs =>
    if matched then
      if isLineTerminator c then ";stereo=1;sprop-stereo=1".toList ++ c :: addStereo false cs
      else c :: addStereo true cs
    else c :: addStereo ("a=fmtp:111 ".toList.isPrefixOf (c :: cs)) cs

/-- The SDP of the answer as it is set and sent. -/
def stereoSdp (sdp : String) : String := String.ofList (addStereo false sdp.toList)

example : stereoSdp "a=fmtp:111 x\r\na=y" = "a=fmtp:111 x;stereo=1;sprop-stereo=1\r\na=y" := by
  decide +kernel

/-! ## State -/

/-- The promise that the running handler waits for. -/
inductive Await (pf : RtcPlatform) where
  | setRemoteDescription (description : pf.Description)
  | createAnswer
  /-- With the SDP of the answer. -/
  | setLocalDescription (sdp : String)
  /-- `addIceCandidate` in `flushPendingIceCandidates`. -/
  | flush
  /-- `addIceCandidate` of the candidate that the message brought. -/
  | candidate

/-- A call of `addIceCandidate`, with the remote description of the peer at that moment. -/
structure AddIceCandidate (pf : RtcPlatform) where
  candidate : pf.Candidate
  remoteDescription : Option pf.Description

structure IceState (pf : RtcPlatform) where
  workerID : String
  isDisposed : Bool
  /-- `pc.signalingState === "closed"` -/
  closed : Bool
  /-- `conn.readyState === WebSocket.OPEN` -/
  connOpen : Bool
  remoteDescription : Option pf.Description
  pendingIceCandidates : List pf.Candidate
  /-- The messages whose handlers have not begun. -/
  messageProcessingChain : List MessageData
  /-- What the handler that has begun waits for. -/
  running : Option (Await pf)
  /-- The calls of `addIceCandidate`, oldest first. -/
  calls : List (AddIceCandidate pf)
  /-- What was sent, newest first. -/
  sent : List SignalMessage

namespace IceState

variable {pf : RtcPlatform}

/-- The runtime as it starts. -/
def init (pf : RtcPlatform) (workerID : String) (connOpen : Bool) : IceState pf where
  workerID := workerID
  isDisposed := false
  closed := false
  connOpen := connOpen
  remoteDescription := none
  pendingIceCandidates := []
  messageProcessingChain := []
  running := none
  calls := []
  sent := []

/-! ## The handlers, up to their next `await` -/

def returns (s : IceState pf) : IceState pf := { s with running := none }

def sendSignal (s : IceState pf) (message : SignalMessage) : IceState pf :=
  if s.connOpen then { s with sent := message :: s.sent } else s

def addIceCandidate (s : IceState pf) (candidate : pf.Candidate) (await : Await pf) : IceState pf :=
  { s with calls := s.calls ++ [⟨candidate, s.remoteDescription⟩], running := some await }

/-- The loop of `flushPendingIceCandidates`; a candidate is an object, so none is skipped. -/
def flushNext (s : IceState pf) : IceState pf :=
  match s.pendingIceCandidates with
  | [] => s.returns
  | candidate :: rest => { s with pendingIceCandidates := rest }.addIceCandidate candidate .flush

def flushPendingIceCandidates (s : IceState pf) : IceState pf :=
  if s.isDisposed || s.closed || s.remoteDescription.isNone then s.returns else s.flushNext

/-- `handleSocketMessageInner`, whose `catch` blocks return. -/
def handleSocketMessageInner (s : IceState pf) (event : MessageData) : IceState pf :=
  if s.isDisposed then s
  else
    match parseSignalMessage pf event with
    | none => s
    | some msg =>
      if msg.id = SignalIds.offer then
        match pf.sessionDescription msg.data with
        | none => s
        | some description => { s with running := some (.setRemoteDescription description) }
      else if msg.id = SignalIds.candidate then
        match pf.iceCandidate msg.data with
        | none => s
        | some candidate =>
          if s.remoteDescription.isNone then
            { s with pendingIceCandidates := s.pendingIceCandidates ++ [candidate] }
          else s.addIceCandidate candidate .candidate
      else s

/-- The handler goes on after its promise resolved; `sdp` is that of the answer created. -/
def resolve (s : IceState pf) (sdp : String) : Await pf → IceState pf
  | .setRemoteDescription description =>
    { s with remoteDescription := some description, running := some .createAnswer }
  | .createAnswer => { s with running := some (.setLocalDescription (stereoSdp sdp)) }
  | .setLocalDescription answer =>
    match pf.answerData answer with
    | none => s.returns
    | some data =>
      (s.sendSignal ⟨SignalIds.answer, some data, some s.workerID⟩).flushPendingIceCandidates
  | .flush => s.flushNext
  | .candidate => s.returns

/-- The handler goes on after its promise rejected. -/
def reject (s : IceState pf) : Await pf → IceState pf
  | .flush => s.flushNext
  | _ => s.returns

end IceState

inductive IceAction where
  /-- `handleSocketMessage` -/
  | message (event : MessageData)
  /-- The next handler of the chain begins. -/
  | start
  | resolve (sdp : String)
  | reject
  /-- The socket opens or closes. -/
  | conn (isOpen : Bool)
  | dispose
deriving DecidableEq

namespace IceState

variable {pf : RtcPlatform}

def step (s : IceState pf) : IceAction → Option (IceState pf)
  | .message event =>
    if s.isDisposed then none
    else some { s with messageProcessingChain := s.messageProcessingChain ++ [event] }
  | .start =>
    match s.running, s.messageProcessingChain with
    | none, event :: rest =>
      some ({ s with messageProcessingChain := rest }.handleSocketMessageInner event)
    | _, _ => none
  | .resolve sdp => s.running.map (s.resolve sdp)
  | .reject => s.running.map s.reject
  | .conn isOpen => some { s with connOpen := isOpen }
  | .dispose =>
    if s.isDisposed then none
    else some { s.sendSignal ⟨SignalIds.terminateSession, none, some s.workerID⟩ with
      isDisposed := true, closed := true }

end IceState

/-- The promises of `createAnswer` and `setLocalDescription` resolve, and encoding the answer does
not throw. -/
def Await.GoesThrough {pf : RtcPlatform} : Await pf → IceAction → Prop
  | .createAnswer, a => a ≠ .reject
  | .setLocalDescription answer, a => a ≠ .reject ∧ (pf.answerData answer).isSome = true
  | _, _ => True

instance {pf : RtcPlatform} : (await : Await pf) → (a : IceAction) → Decidable (await.GoesThrough a)
  | .createAnswer, a => inferInstanceAs (Decidable (a ≠ .reject))
  | .setLocalDescription answer, a =>
    inferInstanceAs (Decidable (a ≠ .reject ∧ (pf.answerData answer).isSome = true))
  | .setRemoteDescription _, _ => inferInstanceAs (Decidable True)
  | .flush, _ => inferInstanceAs (Decidable True)
  | .candidate, _ => inferInstanceAs (Decidable True)

def IceState.AnswersGoThrough {pf : RtcPlatform} (s : IceState pf) (a : IceAction) : Prop :=
  ∀ await ∈ s.running, await.GoesThrough a

instance {pf : RtcPlatform} (s : IceState pf) (a : IceAction) : Decidable (s.AnswersGoThrough a) :=
  inferInstanceAs (Decidable (∀ await ∈ s.running, await.GoesThrough a))

/-! ## Candidates in their order -/

section Order

variable {pf : RtcPlatform}

/-- The candidate of a message that brings a well-formed one. -/
def candidateOf (pf : RtcPlatform) (event : MessageData) : Option pf.Candidate :=
  (parseSignalMessage pf event).bind fun msg =>
    if msg.id = SignalIds.candidate then pf.iceCandidate msg.data else none

/-- The well-formed candidates in the order they were received. -/
def arrivals (pf : RtcPlatform) (as : List IceAction) : List pf.Candidate :=
  as.filterMap fun
    | .message event => candidateOf pf event
    | _ => none

/-- The handler that waits for this promise has the candidates flushed. -/
def Await.flushes : Await pf → Bool
  | .createAnswer => true
  | .setLocalDescription _ => true
  | .flush => true
  | _ => false

/-- Of the candidates that arrived, those that were passed come first, then those that are pending,
and then those of the messages that wait; and none is pending once the remote description is set,
unless the handler that runs will flush them. -/
structure IceInv (arrived : List pf.Candidate) (s : IceState pf) : Prop where
  called : ∀ call ∈ s.calls, call.remoteDescription.isSome = true
  order : s.isDisposed = false → s.calls.map (·.candidate) ++ (s.pendingIceCandidates ++
    s.messageProcessingChain.filterMap (candidateOf pf)) = arrived
  opened : s.isDisposed = false → s.closed = false
  flushed : s.isDisposed = false → s.remoteDescription.isSome = true →
    s.pendingIceCandidates = [] ∨ ∃ await, s.running = some await ∧ await.flushes = true
  flushing : s.running = some .flush → s.remoteDescription.isSome = true

namespace IceInv

variable {arrived : List pf.Candidate} {s : IceState pf}

theorem sendSignal (h : IceInv arrived s) (message : SignalMessage) :
    IceInv arrived (s.sendSignal message) := by
  unfold IceState.sendSignal
  split
  · exact ⟨h.called, h.order, h.opened, h.flushed, h.flushing⟩
  · exact h

/-- A handler ends with nothing to flush. -/
theorem returns (h : IceInv arrived s) (hflushed : s.isDisposed = false →
    s.remoteDescription.isSome = true → s.pendingIceCandidates = []) : IceInv arrived s.returns :=
  ⟨h.called, h.order, h.opened, fun hd hr => .inl (hflushed hd hr), nofun⟩

/-- While no handler runs that flushes, nothing is pending. -/
theorem nonePending (h : IceInv arrived s)
    (hno : ∀ await, s.running = some await → await.flushes = false) (hd : s.isDisposed = false)
    (hr : s.remoteDescription.isSome = true) : s.pendingIceCandidates = [] := by
  rcases h.flushed hd hr with hnil | ⟨await, hrunning, hflushes⟩
  · exact hnil
  · rw [hno await hrunning] at hflushes
    cases hflushes

/-- The candidate that is next in the order is passed. -/
theorem addIceCandidate {candidate : pf.Candidate} {await : Await pf}
    (hcalled : ∀ call ∈ s.calls, call.remoteDescription.isSome = true)
    (hopened : s.isDisposed = false → s.closed = false)
    (hr : s.remoteDescription.isSome = true)
    (horder : s.isDisposed = false → s.calls.map (·.candidate) ++ candidate ::
      (s.pendingIceCandidates ++ s.messageProcessingChain.filterMap (candidateOf pf)) = arrived)
    (hflushed : s.isDisposed = false → s.pendingIceCandidates = [] ∨ await.flushes = true) :
    IceInv arrived (s.addIceCandidate candidate await) := by
  refine ⟨fun call hcall => ?_, fun hd => ?_, hopened, fun hd _ => ?_, fun _ => hr⟩
  · rcases List.mem_append.mp hcall with hold | hnew
    · exact hcalled call hold
    · rw [List.mem_singleton.mp hnew]
      exact hr
  · show (s.calls ++ [_]).map AddIceCandidate.candidate ++ _ = arrived
    rw [List.map_append, List.append_assoc]
    exact horder hd
  · exact (hflushed hd).imp id fun hflushes => ⟨await, rfl, hflushes⟩

theorem flushNext (h : IceInv arrived s) (hr : s.remoteDescription.isSome = true) :
    IceInv arrived s.flushNext := by
  unfold IceState.flushNext
  split
  · next hnil => exact h.returns fun _ _ => hnil
  · next candidate rest hcons =>
    refine addIceCandidate h.called h.opened hr (fun hd => ?_) fun _ => .inr rfl
    have horder := h.order hd
    rw [hcons] at horder
    exact horder

theorem flushPendingIceCandidates (h : IceInv arrived s) :
    IceInv arrived s.flushPendingIceCandidates := by
  unfold IceState.flushPendingIceCandidates
  split
  · next hskip =>
    refine h.returns fun hd hr => ?_
    simp [hd, h.opened hd, Option.isSome_iff_ne_none.mp hr] at hskip
  · next hgo =>
    refine h.flushNext ?_
    cases hr : s.remoteDescription with
    | none => simp [hr] at hgo
    | some description => rfl

section Start

variable {event : MessageData} {rest : List MessageData}

/-- What is passed or pending is what arrived before the next message. -/
theorem order_next (h : IceInv arrived s) (hchain : s.messageProcessingChain = event :: rest)
    (hd : s.isDisposed = false) : s.calls.map (·.candidate) ++ (s.pendingIceCandidates ++
      ((candidateOf pf event).toList ++ rest.filterMap (candidateOf pf))) = arrived := by
  have hbefore := h.order hd
  rw [hchain, List.filterMap_cons] at hbefore
  cases hc : candidateOf pf event with
  | none => rwa [hc] at hbefore
  | some candidate => rwa [hc] at hbefore

theorem nonePending_idle (h : IceInv arrived s) (hidle : s.running = none)
    (hd : s.isDisposed = false) (hr : s.remoteDescription.isSome = true) :
    s.pendingIceCandidates = [] := by
  refine h.nonePending (fun await hrunning => ?_) hd hr
  rw [hidle] at hrunning
  cases hrunning

/-- The next message brings no candidate. -/
theorem start_other (h : IceInv arrived s) (hidle : s.running = none)
    (hchain : s.messageProcessingChain = event :: rest) (hnone : candidateOf pf event = none) :
    IceInv arrived { s with messageProcessingChain := rest } := by
  refine ⟨h.called, fun hd => ?_, h.opened, fun hd hr => .inl (h.nonePending_idle hidle hd hr),
    h.flushing⟩
  have horder := h.order_next hchain hd
  rwa [hnone] at horder

/-- The next message brings a candidate before there is a remote description. -/
theorem start_pending (h : IceInv arrived s)
    (hchain : s.messageProcessingChain = event :: rest) {candidate : pf.Candidate}
    (hsome : candidateOf pf event = some candidate) (hr : ¬ s.remoteDescription.isSome = true) :
    IceInv arrived { s with
      messageProcessingChain := rest
      pendingIceCandidates := s.pendingIceCandidates ++ [candidate] } := by
  refine ⟨h.called, fun hd => ?_, h.opened, fun _ hsome => absurd hsome hr, h.flushing⟩
  have horder := h.order_next hchain hd
  rw [hsome] at horder
  show _ ++ ((s.pendingIceCandidates ++ [candidate]) ++ _) = arrived
  rw [List.append_assoc]
  exact horder

/-- The next message brings a candidate when there is one. -/
theorem start_passed (h : IceInv arrived s) (hidle : s.running = none)
    (hchain : s.messageProcessingChain = event :: rest) {candidate : pf.Candidate}
    (hsome : candidateOf pf event = some candidate) (hr : s.remoteDescription.isSome = true) :
    IceInv arrived ({ s with messageProcessingChain := rest }.addIceCandidate candidate
      .candidate) := by
  have hnone := fun hd => h.nonePending_idle hidle hd hr
  refine addIceCandidate h.called h.opened hr (fun hd => ?_) fun hd => .inl (hnone hd)
  have horder := h.order_next hchain hd
  rw [hsome, hnone hd] at horder
  show _ ++ candidate :: (s.pendingIceCandidates ++ _) = arrived
  rw [hnone hd]
  exact horder

/-- No handler runs, and the next one takes its message off the chain. -/
theorem start (h : IceInv arrived s) (hidle : s.running = none)
    (hchain : s.messageProcessingChain = event :: rest) : IceInv arrived
      ({ s with messageProcessingChain := rest }.handleSocketMessageInner event) := by
  unfold IceState.handleSocketMessageInner
  split
  · next hdisposed =>
    have hnot : ¬ s.isDisposed = false := by
      rw [show s.isDisposed = true from hdisposed]
      simp
    exact ⟨h.called, fun hd => absurd hd hnot, h.opened, fun hd => absurd hd hnot, h.flushing⟩
  · split
    · next hparse => exact h.start_other hidle hchain (by rw [candidateOf, hparse]; rfl)
    · next msg hparse =>
      have hcandidate : candidateOf pf event =
          if msg.id = SignalIds.candidate then pf.iceCandidate msg.data else none := by
        rw [candidateOf, hparse]
        rfl
      split
      · next hoffer =>
        have hnone : candidateOf pf event = none := by
          rw [hcandidate, hoffer]
          rfl
        have hdropped := h.start_other hidle hchain hnone
        split
        · exact hdropped
        · exact ⟨h.called, hdropped.order, h.opened,
            fun hd hr => .inl (h.nonePending_idle hidle hd hr), nofun⟩
      · split
        · next hid =>
          rw [if_pos hid] at hcandidate
          split
          · next hnone => exact h.start_other hidle hchain (hcandidate.trans hnone)
          · next candidate hsome =>
            split
            · next hremote =>
              exact h.start_pending hchain (hcandidate.trans hsome) (by simpa using hremote)
            · next hremote =>
              refine h.start_passed hidle hchain (hcandidate.trans hsome) ?_
              simpa [Option.isSome_iff_ne_none] using hremote
        · next hid => exact h.start_other hidle hchain (hcandidate.trans (if_neg hid))

end Start

/-- A promise resolves; that of `setRemoteDescription` sets the description, and the answer that
follows ends in the flush. -/
theorem resolve {await : Await pf} (h : IceInv arrived s) (hrunning : s.running = some await)
    (sdp : String) (hok : await.GoesThrough (.resolve sdp)) :
    IceInv arrived (s.resolve sdp await) := by
  cases await with
  | setRemoteDescription description =>
    exact ⟨h.called, h.order, h.opened, fun _ _ => .inr ⟨_, rfl, rfl⟩, fun _ => rfl⟩
  | createAnswer => exact ⟨h.called, h.order, h.opened, fun _ _ => .inr ⟨_, rfl, rfl⟩, nofun⟩
  | setLocalDescription answer =>
    simp only [IceState.resolve]
    split
    · next hnone =>
      have hencodes := hok.2
      rw [hnone] at hencodes
      cases hencodes
    · exact (h.sendSignal _).flushPendingIceCandidates
  | flush => exact h.flushNext (h.flushing hrunning)
  | candidate =>
    refine h.returns (h.nonePending fun await he => ?_)
    rw [hrunning] at he
    cases he
    rfl

/-- A promise rejects that is not one of the answer. -/
theorem reject {await : Await pf} (h : IceInv arrived s) (hrunning : s.running = some await)
    (hok : await.GoesThrough .reject) : IceInv arrived (s.reject await) := by
  have hnothing : await.flushes = false → IceInv arrived s.returns := by
    intro hno
    refine h.returns (h.nonePending fun await' he => ?_)
    rw [hrunning] at he
    cases he
    exact hno
  cases await with
  | setRemoteDescription description => exact hnothing rfl
  | createAnswer => exact absurd rfl hok
  | setLocalDescription answer => exact absurd rfl hok.1
  | flush => exact h.flushNext (h.flushing hrunning)
  | candidate => exact hnothing rfl

end IceInv

theorem arrivals_message (as : List IceAction) (event : MessageData) :
    arrivals pf (as ++ [.message event]) = arrivals pf as ++ (candidateOf pf event).toList := by
  unfold arrivals
  rw [List.filterMap_append]
  cases hc : candidateOf pf event with
  | none => simp [hc]
  | some candidate => simp [hc]

theorem arrivals_other (as : List IceAction) (a : IceAction) (hno : ∀ event, a ≠ .message event) :
    arrivals pf (as ++ [a]) = arrivals pf as := by
  unfold arrivals
  rw [List.filterMap_append]
  cases a with
  | message event => exact absurd rfl (hno event)
  | _ => exact List.append_nil _

/-- What a step can do. -/
theorem iceInv_step {as : List IceAction} {s s' : IceState pf} {a : IceAction}
    (h : IceInv (arrivals pf as) s) (hok : s.AnswersGoThrough a) (hs : s.step a = some s') :
    IceInv (arrivals pf (as ++ [a])) s' := by
  cases a with
  | message event =>
    simp only [IceState.step] at hs
    split at hs
    · cases hs
    · cases hs
      refine ⟨h.called, fun hd => ?_, h.opened, h.flushed, h.flushing⟩
      rw [arrivals_message, ← h.order hd]
      show _ ++ (_ ++ (s.messageProcessingChain ++ [event]).filterMap (candidateOf pf)) = _
      rw [List.filterMap_append, List.append_assoc, List.append_assoc]
      cases hc : candidateOf pf event with
      | none => simp [hc]
      | some candidate => simp [hc]
  | start =>
    rw [arrivals_other as .start nofun]
    simp only [IceState.step] at hs
    split at hs
    · next event rest hidle hchain =>
      cases hs
      exact h.start hidle hchain
    · cases hs
  | resolve sdp =>
    rw [arrivals_other as (.resolve sdp) nofun]
    obtain ⟨await, hrunning, rfl⟩ := Option.map_eq_some_iff.mp hs
    exact h.resolve hrunning sdp (hok await hrunning)
  | reject =>
    rw [arrivals_other as .reject nofun]
    obtain ⟨await, hrunning, rfl⟩ := Option.map_eq_some_iff.mp hs
    exact h.reject hrunning (hok await hrunning)
  | conn isOpen =>
    rw [arrivals_other as (.conn isOpen) nofun]
    cases hs
    exact ⟨h.called, h.order, h.opened, h.flushed, h.flushing⟩
  | dispose =>
    rw [arrivals_other as .dispose nofun]
    simp only [IceState.step] at hs
    split at hs
    · cases hs
    · cases hs
      have hsent := h.sendSignal ⟨SignalIds.terminateSession, none, some s.workerID⟩
      exact ⟨hsent.called, nofun, nofun, nofun, hsent.flushing⟩

/-- **Candidates.**  `addIceCandidate` is only called while the remote description is set.  In every
state of a runtime that is not disposed it has been passed a first part of the well-formed
candidates, in their order; and all of them, with none pending, when the chain is idle and the
remote description is set. -/
theorem ice_candidates_ordered {workerID : String} {connOpen : Bool} {as : List IceAction}
    {s : IceState pf}
    (h : RunWhen IceState.AnswersGoThrough IceState.step (IceState.init pf workerID connOpen)
      as s) :
    (∀ call ∈ s.calls, call.remoteDescription.isSome = true) ∧
    (s.isDisposed = false →
      s.calls.map (·.candidate) <+: arrivals pf as ∧
      (s.running = none → s.messageProcessingChain = [] → s.remoteDescription.isSome = true →
        s.pendingIceCandidates = [] ∧ s.calls.map (·.candidate) = arrivals pf as)) := by
  have hinv : IceInv (arrivals pf as) s := by
    refine h.history (I := fun as s => IceInv (arrivals pf as) s) ?_
      fun as s a s' hi hok hs => iceInv_step hi hok hs
    exact ⟨nofun, fun _ => rfl, fun _ => rfl, nofun, nofun⟩
  refine ⟨hinv.called, fun hd => ⟨⟨_, hinv.order hd⟩, fun hidle hchain hr => ?_⟩⟩
  have hnil : s.pendingIceCandidates = [] := by
    rcases hinv.flushed hd hr with hnil | ⟨await, hrunning, -⟩
    · exact hnil
    · rw [hidle] at hrunning
      cases hrunning
  have horder := hinv.order hd
  rw [hnil, hchain] at horder
  exact ⟨hnil, by simpa using horder⟩

end Order

/-! ## A run -/

/-- The message of an envelope with the two fields. -/
def envelopeText (id data : String) : String :=
  "\x7b\"id\":\"" ++ id ++ "\",\"data\":\"" ++ data ++ "\"\x7d"

/-- The browser, on the messages of `earlyAndLate`: the data are those of the objects with `sdpMid`
`0` or `1`, and with `type` `offer` or `answer` and `sdp` `v=0`. -/
@[reducible] def samplePlatform : RtcPlatform where
  Number := Nat
  Description := String
  Candidate := String
  jsonParse text :=
    [("candidate", "eyJzZHBNaWQiOiIwIn0="), ("candidate", "eyJzZHBNaWQiOiIxIn0="),
        ("offer", "eyJ0eXBlIjoib2ZmZXIiLCJzZHAiOiJ2PTAifQ==")].findSome? fun e =>
      if text = envelopeText e.1 e.2 then
        some (.object [("id", .string e.1), ("data", .string e.2)])
      else none
  textDecode _ := ""
  sessionDescription data :=
    if data = "eyJ0eXBlIjoib2ZmZXIiLCJzZHAiOiJ2PTAifQ==" then some "v=0" else none
  iceCandidate data :=
    if data = "eyJzZHBNaWQiOiIwIn0=" then some "0"
    else if data = "eyJzZHBNaWQiOiIxIn0=" then some "1"
    else none
  answerData sdp :=
    if sdp = "v=0" then some "eyJ0eXBlIjoiYW5zd2VyIiwic2RwIjoidj0wIn0=" else none

/-- A candidate that comes before the offer and is rejected, and one that comes after it. -/
def earlyAndLate : List IceAction :=
  [.message (.text (envelopeText "candidate" "eyJzZHBNaWQiOiIwIn0=")), .start,
    .message (.text (envelopeText "offer" "eyJ0eXBlIjoib2ZmZXIiLCJzZHAiOiJ2PTAifQ==")), .start,
    .resolve "", .resolve "v=0", .resolve "", .reject,
    .message (.text (envelopeText "candidate" "eyJzZHBNaWQiOiIxIn0=")), .start, .resolve ""]

theorem ice_candidates_ordered_early :
    ∃ s : IceState samplePlatform, RunWhen IceState.AnswersGoThrough IceState.step
        (IceState.init samplePlatform "worker" true) earlyAndLate s ∧
      s.pendingIceCandidates = [] ∧ s.calls.map (·.candidate) = ["0", "1"] := by
  have heval : ∃ s : IceState samplePlatform, RunWhen IceState.AnswersGoThrough IceState.step
      (IceState.init samplePlatform "worker" true) earlyAndLate s ∧
      (s.isDisposed = false ∧ s.running.isNone = true ∧ s.messageProcessingChain = [] ∧
        s.remoteDescription.isSome = true) := execWhen_any (by decide +kernel)
  obtain ⟨s, hrun, hd, hidle, hchain, hremote⟩ := heval
  obtain ⟨-, hordered⟩ := ice_candidates_ordered hrun
  obtain ⟨hnil, hall⟩ := (hordered hd).2 (Option.isNone_iff_eq_none.mp hidle) hchain hremote
  have harrived : arrivals samplePlatform earlyAndLate = ["0", "1"] := by decide +kernel
  exact ⟨s, hrun, hnil, hall.trans harrived⟩

end CloudGame.Portal
