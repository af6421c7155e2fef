import CloudGame.Portal.ControllerPage
import CloudGame.Signal.ControllerLists
import CloudGame.Signal.Delivery
import CloudGame.Signal.PairingCode
import CloudGame.Worker.UrlUtils

/-!
# The page that hosts phones (`arcade-portal/src/hooks/usePhoneControllerHost.js`)

The page asks for a join code, shows the code it is told with an address to scan, and counts the
phones that have joined.  `HostRoom` is one connection: the server with all its tasks, the page, and
what its socket has handed out of the queue so far, newest first.  The page may clear what it shows
and ask again at any time, and what arrives while its effect is not in force is lost.

`shown_code_pairs`: a page that has read everything shows no code but that of the directory, and a
phone that scans it is led to this host.
-/

namespace CloudGame.Portal

open CloudGame.Lib CloudGame.Signal
open CloudGame.Worker (percentEncode)

/-! ## The address of a code -/

def isLetterOrDigit (byte : UInt8) : Bool :=
  (0x41 ≤ byte && byte ≤ 0x5A) || (0x61 ≤ byte && byte ≤ 0x7A) || (0x30 ≤ byte && byte ≤ 0x39)

def encodeURIComponent (value : String) : String :=
  String.ofList ((toBytes value).flatMap fun byte =>
    if isLetterOrDigit byte || "-_.!~*'()".toList.contains (Char.ofUInt8 byte) then
      [Char.ofUInt8 byte]
    else percentEncode byte)

/-- How `URLSearchParams` writes a value. -/
def encodeSearchParam (value : String) : String :=
  String.ofList ((toBytes value).flatMap fun byte =>
    if isLetterOrDigit byte || "*-._".toList.contains (Char.ofUInt8 byte) then [Char.ofUInt8 byte]
    else if byte = 0x20 then ['+']
    else percentEncode byte)

def nextControllerUrl (origin code workerID : String) : String :=
  let safeWorkerID := jsTrim workerID
  let url := origin ++ "/controller/" ++ encodeURIComponent code
  if safeWorkerID = "" then url else url ++ "?worker=" ++ encodeSearchParam safeWorkerID

/-! ## The page -/

structure HostPage where
  /-- The state and the ref of this name, which are set together. -/
  pairingCode : String
  controllerUrl : String
  connectedControllerIds : Finset String
  /-- The worker of the effect in force, if its socket has opened. -/
  workerID : Option String
  /-- The requests on the socket, newest first. -/
  sent : List Request

/-- `JSON.parse(msg.data || "{}").code`, if it is a text; the empty text is as good as none. -/
def readyCode (pf : RtcPlatform) (data : String) : String :=
  (((pf.jsonParse (if data = "" then "\x7b\x7d" else data)).bind (jsField "code")).bind
    JsonValue.asStr).getD ""

namespace HostPage

/-- `sends` says that the socket is open and does not throw. -/
def sendHostRegistration (p : HostPage) (sends : Bool) : HostPage :=
  match p.workerID with
  | some w => if sends then { p with sent := .controllerHost w :: p.sent } else p
  | none => p

def handleSocketOpen (p : HostPage) (workerID : String) (sends : Bool) : HostPage :=
  sendHostRegistration
    { p with pairingCode := "", controllerUrl := "", connectedControllerIds := ∅,
             workerID := some workerID } sends

def refreshPairing (p : HostPage) (sends : Bool) : HostPage :=
  sendHostRegistration { p with pairingCode := "", controllerUrl := "" } sends

/-- What the effect leaves when it ends. -/
def cleanup (p : HostPage) : HostPage := { p with connectedControllerIds := ∅, workerID := none }

def addController (p : HostPage) : Option String → HostPage
  | some c =>
    if c = "" then p else { p with connectedControllerIds := insert c p.connectedControllerIds }
  | none => p

def removeController (p : HostPage) : Option String → HostPage
  | some c =>
    if c = "" then p else { p with connectedControllerIds := p.connectedControllerIds.erase c }
  | none => p

/-- A message that `parseSignalMessage` accepts. -/
def handleMessage (pf : RtcPlatform) (origin : String) (p : HostPage) (workerID : String)
    (msg : PortalMessage) : HostPage :=
  if msg.id = SignalIds.controllerReady then
    let code := readyCode pf msg.data
    if code = "" ∨ code = p.pairingCode then p
    else { p with pairingCode := code, controllerUrl := nextControllerUrl origin code workerID }
  else if msg.id = SignalIds.controllerAudio then p
  else if msg.id = SignalIds.controllerJoined then p.addController msg.targetID
  else if msg.id = SignalIds.controllerLeft then p.removeController msg.targetID
  else p

def handleSocketMessage (pf : RtcPlatform) (origin : String) (p : HostPage) (workerID : String)
    (raw : MessageData) : HostPage :=
  match parseSignalMessage pf raw with
  | some msg => p.handleMessage pf origin workerID msg
  | none => p

end HostPage

/-! ## The page and the server -/

structure HostWiring (ν : Type) where
  caseMap : CaseMap
  pf : RtcPlatform
  printNumber : pf.Number → List Char
  cfg : Config
  wire : WireCodecs ν
  /-- `window.location.origin` -/
  origin : String
  /-- The connection of the page. -/
  clientId : String

/-- On ASCII text the case map is that of the ASCII letters. -/
def CaseMap.OnAscii (caseMap : CaseMap) : Prop :=
  ∀ s : String, (∀ c ∈ s.toList, IsAscii c) →
    caseMap.toUppercase s = CaseMap.ascii.toUppercase s

/-- The libraries do what they are documented to do. -/
structure HostWiring.Lawful {ν : Type} (n : HostWiring ν) : Prop where
  printsAlike : PrintsAlike n.wire n.printNumber
  jsonParse : ∃ readNumber, n.pf.jsonParse = Js.jsonParse readNumber
  /-- The scripts read the entries that the server's library prints. -/
  readsReady : ∀ code w, ∃ v, n.pf.jsonParse (controllerReadyPayload n.cfg code w) = some v ∧
    jsField "code" v = some (.string code)
  scriptCase : CaseMap.OnAscii n.caseMap
  serverCase : CaseMap.OnAscii n.cfg.caseMap

structure HostRoom where
  server : Server
  page : HostPage
  /-- What the socket has handed out, newest first. -/
  received : List OutboundEvent

inductive HostAction where
  | server (a : ServerAction)
  | opened (workerID : String) (sends : Bool)
  | cleanup
  | refresh (sends : Bool)
  /-- The timer of the effect. -/
  | timer (sends : Bool)
  | message

namespace HostRoom

variable {ν : Type} (n : HostWiring ν)

/-- The server at its start, and the page as an earlier connection has left it. -/
def init (stale : HostPage) : HostRoom := ⟨Server.init, stale.cleanup, []⟩

/-- The oldest event that is still on its way. -/
def nextEvent (s : HostRoom) : Option OutboundEvent :=
  let queue := s.server.shared.queues n.clientId
  (queue.take (queue.length - s.received.length)).getLast?

/-- The page at an event of its socket. -/
def receive (p : HostPage) : OutboundEvent → HostPage
  | .message m =>
    match p.workerID with
    | some w => p.handleSocketMessage n.pf n.origin w (.text (m.serialize n.wire))
    | none => p
  | .close => p

def step (s : HostRoom) : HostAction → Option HostRoom
  | .server a => (s.server.step n.cfg a).map fun server => { s with server := server }
  | .opened w sends =>
    if w = "" ∨ s.page.workerID ≠ none then none
    else some { s with page := s.page.handleSocketOpen w sends }
  | .cleanup => some { s with page := s.page.cleanup }
  | .refresh sends => some { s with page := s.page.refreshPairing sends }
  | .timer sends => some { s with page := s.page.sendHostRegistration sends }
  | .message => (s.nextEvent n).map fun event =>
      { s with page := receive n s.page event, received := event :: s.received }

end HostRoom

/-! ## What the page shows -/

/-- The code of a `controllerReady`, if the page would show it. -/
def shownBy (pf : RtcPlatform) : OutboundEvent → Option String
  | .message m =>
    if m.id = SignalIds.controllerReady then
      let code := readyCode pf (m.data.getD "")
      if code = "" then none else some code
    else none
  | .close => none

/-- The code is that of the last `controllerReady`. -/
def ShownLast (pf : RtcPlatform) (code : String) (events : List OutboundEvent) : Prop :=
  Since (fun event => shownBy pf event = some code) (fun event => shownBy pf event = none) events

theorem shownLast_cons {pf : RtcPlatform} {code : String} {event : OutboundEvent}
    {events : List OutboundEvent} : ShownLast pf code (event :: events) ↔
      shownBy pf event = some code ∨
        (shownBy pf event = none ∧ ShownLast pf code events) := since_cons

theorem ShownLast.unique {pf : RtcPlatform} {code code' : String} {events : List OutboundEvent}
    (h : ShownLast pf code events) (h' : ShownLast pf code' events) : code = code' := by
  induction events with
  | nil => exact absurd h (not_since_nil _ _)
  | cons event events ih =>
    rcases shownLast_cons.mp h with hshown | ⟨hnone, h⟩
    · rcases shownLast_cons.mp h' with hshown' | ⟨hnone', -⟩
      · exact Option.some.inj (hshown.symm.trans hshown')
      · rw [hshown] at hnone'
        cases hnone'
    · rcases shownLast_cons.mp h' with hshown' | ⟨-, h'⟩
      · rw [hshown'] at hnone
        cases hnone
      · exact ih h h'

namespace HostPage

variable {pf : RtcPlatform} {origin : String} {p : HostPage} {w : String}

/-- What the page shows, and in whose name. -/
def display (p : HostPage) : String × String × Option String :=
  (p.pairingCode, p.controllerUrl, p.workerID)

theorem sendHostRegistration_display (sends : Bool) :
    (p.sendHostRegistration sends).display = p.display := by
  unfold sendHostRegistration
  split
  · split <;> rfl
  · rfl

theorem addController_display (c : Option String) : (p.addController c).display = p.display := by
  unfold addController
  split
  · split <;> rfl
  · rfl

theorem removeController_display (c : Option String) :
    (p.removeController c).display = p.display := by
  unfold removeController
  split
  · split <;> rfl
  · rfl

/-- The page shows the code of a message that has one, with its address. -/
theorem handleMessage_shown {m : SignalMessage} {code : String}
    (h : shownBy pf (.message m) = some code)
    (hurl : p.pairingCode ≠ "" → p.controllerUrl = nextControllerUrl origin p.pairingCode w) :
    (p.handleMessage pf origin w ⟨m.id, m.data.getD "", m.sessionId⟩).display =
      (code, nextControllerUrl origin code w, p.workerID) := by
  simp only [shownBy] at h
  split at h
  · next hid =>
    split at h
    · cases h
    · next hcode =>
      cases h
      simp only [handleMessage, if_pos hid]
      by_cases hsame : readyCode pf (m.data.getD "") = p.pairingCode
      · rw [if_pos (Or.inr hsame), display, hurl (hsame ▸ hcode), hsame]
      · rw [if_neg (not_or.mpr ⟨hcode, hsame⟩)]
        rfl
  · cases h

/-- Any other message leaves what it shows. -/
theorem handleMessage_same {m : SignalMessage} (h : shownBy pf (.message m) = none) :
    (p.handleMessage pf origin w ⟨m.id, m.data.getD "", m.sessionId⟩).display = p.display := by
  simp only [shownBy] at h
  unfold handleMessage
  split
  · next hid =>
    rw [if_pos hid] at h
    split at h
    · next hcode =>
      dsimp only
      rw [if_pos (Or.inl hcode)]
    · cases h
  · split
    · rfl
    · split
      · exact addController_display _
      · split
        · exact removeController_display _
        · rfl

end HostPage

/-! ## Codes as text -/

/-- A letter that no normalization changes. -/
structure CodeLetter (c : Char) : Prop where
  ascii : IsAscii c
  notSpace : Js.isSpace c = false
  notBlank : isWhitespace c = false
  upper : c.toUpper = c
  unreserved : isLetterOrDigit c.toUInt8 = true

theorem codeLetter_of_mem_alphabet {c : Char} (hc : c ∈ joinCodeAlphabet) : CodeLetter c := by
  have hall : (joinCodeAlphabet.all fun c => decide (IsAscii c) && !Js.isSpace c &&
      !isWhitespace c && c.toUpper == c && isLetterOrDigit c.toUInt8) = true := by decide
  have hletter := List.all_eq_true.mp hall c hc
  simp only [Bool.and_eq_true, Bool.not_eq_true', decide_eq_true_eq, beq_iff_eq] at hletter
  obtain ⟨⟨⟨⟨hascii, hspace⟩, hblank⟩, hupper⟩, hplain⟩ := hletter
  exact ⟨hascii, hspace, hblank, hupper, hplain⟩

section Codes

variable {code : String}

theorem codeLetter_of_mem (h : IsJoinCode code) {c : Char} (hc : c ∈ code.toList) :
    CodeLetter c := by
  obtain ⟨seed, rfl⟩ := h
  exact codeLetter_of_mem_alphabet (mem_alphabet_of_mem_encodeJoinCode hc)

theorem toUppercase_joinCode {caseMap : CaseMap} (hcase : CaseMap.OnAscii caseMap)
    (h : IsJoinCode code) : caseMap.toUppercase code = code := by
  rw [hcase code fun c hc => (codeLetter_of_mem h hc).ascii]
  have hsame : code.toList.map Char.toUpper = code.toList :=
    (List.map_congr_left fun c hc => (codeLetter_of_mem h hc).upper).trans (List.map_id _)
  show String.ofList (code.toList.map Char.toUpper) = code
  rw [hsame, String.ofList_toList]

theorem trim_joinCode (h : IsJoinCode code) : trim code = code :=
  trim_eq_self fun _ hc => (codeLetter_of_mem h hc).notBlank

theorem jsTrim_eq_self (h : ∀ c ∈ code.toList, Js.isSpace c = false) : jsTrim code = code := by
  have hkeep : ∀ cs : List Char, (∀ c ∈ cs, Js.isSpace c = false) →
      cs.dropWhile Js.isSpace = cs := by
    intro cs hcs
    cases cs with
    | nil => rfl
    | cons c cs => rw [List.dropWhile_cons_of_neg (by simp [hcs c List.mem_cons_self])]
  rw [jsTrim, hkeep _ h, hkeep _ fun c hc => h c (List.mem_reverse.mp hc), List.reverse_reverse,
    String.ofList_toList]

theorem sliceUnits_eq_self :
    ∀ (cs : List Char) (n : Nat), (∀ c ∈ cs, IsAscii c) → cs.length ≤ n → sliceUnits n cs = cs := by
  intro cs
  induction cs with
  | nil =>
    intro n _ _
    rfl
  | cons c cs ih =>
    intro n hascii hlength
    have hunits : codeUnits c = 1 := by
      have := hascii c List.mem_cons_self
      exact if_pos (lt_trans this (by decide))
    rw [List.length_cons] at hlength
    rw [sliceUnits, hunits, if_pos (by omega),
      ih (n - 1) (fun d hd => hascii d (List.mem_cons_of_mem c hd)) (by omega)]

/-- The page of a phone leaves a join code as it is. -/
theorem safeJoinCode_joinCode {caseMap : CaseMap} (hcase : CaseMap.OnAscii caseMap)
    (h : IsJoinCode code) : safeJoinCode caseMap code = code := by
  have hlength : code.toList.length ≤ 12 := by
    obtain ⟨seed, rfl⟩ := h
    rw [String.length_toList, length_encodeJoinCode]
    decide
  rw [safeJoinCode, jsTrim_eq_self fun c hc => (codeLetter_of_mem h hc).notSpace,
    toUppercase_joinCode hcase h,
    sliceUnits_eq_self _ 12 (fun c hc => (codeLetter_of_mem h hc).ascii) hlength,
    String.ofList_toList]

/-- A join code stands in an address as it is. -/
theorem encodeURIComponent_joinCode (h : IsJoinCode code) : encodeURIComponent code = code := by
  have hbytes := toBytes_ascii fun c hc => (codeLetter_of_mem h hc).ascii
  rw [encodeURIComponent, hbytes, List.flatMap_map]
  have hsame : (code.toList.flatMap fun c =>
      if isLetterOrDigit c.toUInt8 || "-_.!~*'()".toList.contains (Char.ofUInt8 c.toUInt8) then
        [Char.ofUInt8 c.toUInt8]
      else percentEncode c.toUInt8) = code.toList.flatMap fun c => [c] := by
    refine List.flatMap_congr fun c hc => ?_
    have hletter := codeLetter_of_mem h hc
    rw [hletter.unreserved, Bool.true_or, if_pos rfl, ofUInt8_toUInt8 hletter.ascii]
  rw [hsame, List.flatMap_singleton', String.ofList_toList]

end Codes

/-! ## Runs -/

/-- What is displayed, in the name of an effect in force, is the last code received. -/
def DisplaysLast {ν : Type} (n : HostWiring ν) (received : List OutboundEvent) :
    String × String × Option String → Prop
  | (pairingCode, controllerUrl, workerID) => ∀ w, workerID = some w → pairingCode ≠ "" →
      ShownLast n.pf pairingCode received ∧
        controllerUrl = nextControllerUrl n.origin pairingCode w

structure HostInv {ν : Type} (n : HostWiring ν) (s : HostRoom) : Prop where
  server : ∃ as, Run (Server.step n.cfg) Server.init as s.server
  received : s.received <:+ s.server.shared.queues n.clientId
  displays : DisplaysLast n s.received s.page.display

section Steps

variable {ν : Type} {n : HostWiring ν} {s s' : HostRoom}

theorem displaysLast_empty (received : List OutboundEvent) (controllerUrl : String)
    (workerID : Option String) : DisplaysLast n received ("", controllerUrl, workerID) :=
  fun _ _ hne => absurd rfl hne

/-- The event that comes next stands before those received. -/
theorem nextEvent_suffix {event : OutboundEvent}
    (hsuffix : s.received <:+ s.server.shared.queues n.clientId)
    (h : s.nextEvent n = some event) :
    event :: s.received <:+ s.server.shared.queues n.clientId := by
  obtain ⟨newer, hqueue⟩ := hsuffix
  unfold HostRoom.nextEvent at h
  dsimp only at h
  rw [← hqueue, List.length_append, Nat.add_sub_cancel, List.take_left] at h
  obtain ⟨later, rfl⟩ := List.getLast?_eq_some_iff.mp h
  exact ⟨later, by rw [← hqueue, List.append_assoc, List.singleton_append]⟩

/-- The page at a message of the queue, which it understands. -/
theorem displaysLast_receive (hn : n.Lawful) {p : HostPage} {received : List OutboundEvent}
    {event : OutboundEvent} (hp : DisplaysLast n received p.display)
    (hknown : ∀ m, event = .message m → m.id ∈ knownMessageIds) :
    DisplaysLast n (event :: received) (HostRoom.receive n p event).display := by
  have hkeep : shownBy n.pf event = none →
      DisplaysLast n (event :: received) p.display := fun hnone w hw hne =>
    ⟨shownLast_cons.mpr (Or.inr ⟨hnone, (hp w hw hne).1⟩), (hp w hw hne).2⟩
  cases event with
  | close => exact hkeep rfl
  | message m =>
    obtain ⟨readNumber, hparse⟩ := hn.jsonParse
    have hread := parseSignalMessage_serialize n.pf hparse hn.printsAlike (hknown m rfl)
    unfold HostRoom.receive
    cases hworker : p.workerID with
    | none =>
      rintro w hw
      cases hworker.symm.trans hw
    | some w =>
      dsimp only
      rw [HostPage.handleSocketMessage, hread]
      dsimp only
      cases hshown : shownBy n.pf (.message m) with
      | none =>
        rw [HostPage.handleMessage_same hshown]
        exact hkeep hshown
      | some code =>
        have hdisplay := HostPage.handleMessage_shown hshown fun hne => (hp w hworker hne).2
        rw [hdisplay, hworker]
        rintro w' ⟨⟩ -
        exact ⟨shownLast_cons.mpr (Or.inl hshown), rfl⟩

theorem hostInv_step (hn : n.Lawful) (hi : HostInv n s) {a : HostAction}
    (hs : s.step n a = some s') : HostInv n s' := by
  obtain ⟨as, hrun⟩ := hi.server
  cases a with
  | server a =>
    obtain ⟨server, hserver, rfl⟩ := Option.map_eq_some_iff.mp hs
    obtain ⟨added, hqueue⟩ := queues_step (step_cases hserver) n.clientId
    refine ⟨⟨_, hrun.snoc a trivial hserver⟩, ?_, hi.displays⟩
    exact hi.received.trans ⟨added, hqueue.symm⟩
  | opened w sends =>
    simp only [HostRoom.step] at hs
    split at hs
    · cases hs
    · cases hs
      refine ⟨hi.server, hi.received, ?_⟩
      show DisplaysLast n _ (HostPage.sendHostRegistration _ sends).display
      rw [HostPage.sendHostRegistration_display]
      exact displaysLast_empty _ _ _
  | cleanup =>
    cases hs
    exact ⟨hi.server, hi.received, nofun⟩
  | refresh sends =>
    cases hs
    refine ⟨hi.server, hi.received, ?_⟩
    show DisplaysLast n _ (HostPage.sendHostRegistration _ sends).display
    rw [HostPage.sendHostRegistration_display]
    exact displaysLast_empty _ _ _
  | timer sends =>
    cases hs
    refine ⟨hi.server, hi.received, ?_⟩
    show DisplaysLast n _ (HostPage.sendHostRegistration _ sends).display
    rw [HostPage.sendHostRegistration_display]
    exact hi.displays
  | message =>
    obtain ⟨event, hnext, rfl⟩ := Option.map_eq_some_iff.mp hs
    have hsuffix := nextEvent_suffix hi.received hnext
    refine ⟨hi.server, hsuffix, displaysLast_receive hn hi.displays ?_⟩
    rintro m rfl
    have hmem : .message m ∈ s.server.shared.queues n.clientId :=
      hsuffix.subset List.mem_cons_self
    exact onBehalf_known ((forwardInv_run hrun).queues n.clientId m hmem)

theorem hostInv_run (hn : n.Lawful) {stale : HostPage} {as : List HostAction}
    (h : Run (HostRoom.step n) (HostRoom.init stale) as s) : HostInv n s :=
  h.invariant ⟨⟨[], .nil⟩, List.nil_suffix, nofun⟩ fun _ _ _ hi _ hs => hostInv_step hn hi hs

end Steps

/-! ## The result -/

section Shown

variable {ν : Type} {n : HostWiring ν}

/-- The page reads the code that the server tells. -/
theorem readyCode_payload (hn : n.Lawful) (code w : String) :
    readyCode n.pf (controllerReadyPayload n.cfg code w) = code := by
  obtain ⟨v, hparse, hcode⟩ := hn.readsReady code w
  have hne : controllerReadyPayload n.cfg code w ≠ "" := by
    intro hempty
    obtain ⟨readNumber, hjson⟩ := hn.jsonParse
    rw [hempty, hjson] at hparse
    cases hparse
  rw [readyCode, if_neg hne, hparse, Option.bind_some, hcode]
  rfl

/-- A page that has read what the host was told last would show it. -/
theorem shownLast_of_told (hn : n.Lawful) {id code : String} {sh : Shared} (hne : code ≠ "")
    (h : Told n.cfg id code sh) : ShownLast n.pf code (sh.queues id) := by
  refine h.mono ?_ ?_
  · rintro event ⟨w, rfl⟩
    show (if readyCode n.pf (controllerReadyPayload n.cfg code w) = "" then none
      else some (readyCode n.pf (controllerReadyPayload n.cfg code w))) = some code
    rw [readyCode_payload hn, if_neg hne]
  · intro event hquiet
    cases event with
    | close => rfl
    | message m => exact if_neg hquiet

/-- **The code on the screen pairs.**  Whatever the tasks of the server and the page do: the server
keeps the host and is done with what it asked, and the page, in force, has read its queue.  If the
page shows a code at all and the directory leads to the host from some code, it is this one; it
stands as it is in the address the page shows; and a phone that opens the address and asks to join
before the code expires is led to the host. -/
theorem shown_code_pairs (hn : n.Lawful) {stale : HostPage} {as : List HostAction} {s : HostRoom}
    (h : Run (HostRoom.step n) (HostRoom.init stale) as s) {peer : Peer}
    (hpeer : s.server.peers n.clientId = some peer) (hidle : peer.prog = .ret ())
    (hclient : s.server.shared.registry.clientSender n.clientId ≠ none)
    (hread : s.received = s.server.shared.queues n.clientId) {w : String}
    (hforce : s.page.workerID = some w) (hshown : s.page.pairingCode ≠ "") {k : String}
    {registration : HostRegistration}
    (hk : s.server.shared.controllers.codeToHost.lookup k = some registration)
    (hhost : registration.hostClientId = n.clientId) :
    s.page.pairingCode = k ∧
      s.page.controllerUrl = n.origin ++ "/controller/" ++ k ++
        (if jsTrim w = "" then "" else "?worker=" ++ encodeSearchParam (jsTrim w)) ∧
      ∀ c now, now < registration.expiresAt →
        (s.server.shared.controllers.join n.cfg.caseMap c
          (safeJoinCode n.caseMap s.page.pairingCode) now).1 =
            .ok ⟨n.clientId, registration.workerId⟩ := by
  have hi := hostInv_run hn h
  obtain ⟨as', hrun⟩ := hi.server
  have hcode : s.server.shared.controllers.HasCode n.clientId k := ⟨registration, hk, hhost⟩
  obtain ⟨hjoinCode, htold⟩ := host_told_code hrun hpeer hidle hclient hcode
  obtain ⟨hlast, hurl⟩ := hi.displays w hforce hshown
  rw [hread] at hlast
  have hsame : s.page.pairingCode = k :=
    hlast.unique (shownLast_of_told hn hjoinCode.ne_empty htold)
  refine ⟨hsame, ?_, fun c now hnow => ?_⟩
  · rw [hurl, hsame, nextControllerUrl, encodeURIComponent_joinCode hjoinCode]
    split
    · rw [String.append_empty]
    · exact String.append_assoc
  · have htext : n.cfg.caseMap.toUppercase
        (trim (safeJoinCode n.caseMap s.page.pairingCode)) = k := by
      rw [hsame, safeJoinCode_joinCode hn.scriptCase hjoinCode, trim_joinCode hjoinCode,
        toUppercase_joinCode hn.serverCase hjoinCode]
    have hjoin := ControllerState.join_live (linked_run hrun) hk hnow hjoinCode.ne_empty c htext
    rw [hjoin, hhost]

end Shown

/-- The value that the digits of a numeral have. -/
def readDigits (numeral : List Char) : Nat :=
  numeral.foldl (fun n c => 10 * n + (c.toNat - '0'.toNat)) 0

def scalarValue : JsonScalar → JsonValue Nat
  | .string s => .string s
  | .number n => .number n

/-- A library that prints entries as the scripts do. -/
def scriptJson : SerdeJson where
  toString es := Js.jsonStringify (fun n : Nat => n.repr.toList)
    (.object (es.map fun e => (e.1, scalarValue e.2)))
  fromStr := SerdeJson.plain.fromStr

def hostWiring : HostWiring Empty where
  caseMap := CaseMap.ascii
  pf := { plainPlatform with Number := Nat, jsonParse := Js.jsonParse readDigits }
  printNumber n := n.repr.toList
  cfg := ⟨false, CaseMap.ascii, scriptJson⟩
  wire := flatWire
  origin := "http://arcade"
  clientId := "host"

theorem readInObject_expiry :
    Js.ReadInObject readDigits (fun n : Nat => n.repr.toList) (.number 900) := by
  rintro depth rest ⟨c, cs, rfl, hc⟩
  have htext : Js.printValue (fun n : Nat => n.repr.toList) (.number 900) = ['9', '0', '0'] := by
    rw [Js.printValue]
    decide
  rw [htext]
  rcases hc with rfl | rfl
  · rfl
  · rfl

theorem hostWiring_lawful : hostWiring.Lawful where
  printsAlike := printsAlike_flat _
  jsonParse := ⟨readDigits, rfl⟩
  readsReady code w := by
    let fields : List (String × JsonValue Nat) :=
      [("code", .string code), ("expiresInSeconds", .number 900), ("workerID", .string w)]
    have hfields : ∀ e ∈ fields,
        Js.ReadInObject readDigits (fun n : Nat => n.repr.toList) e.2 := by
      intro e he
      simp only [fields, List.mem_cons, List.not_mem_nil, or_false] at he
      rcases he with rfl | rfl | rfl
      · exact Js.readInObject_string _ _ _
      · exact readInObject_expiry
      · exact Js.readInObject_string _ _ _
    have hexpiry : joinCodeTtl / 10 ^ 9 = 900 := by decide
    have htext : controllerReadyPayload hostWiring.cfg code w =
        Js.jsonStringify (fun n : Nat => n.repr.toList) (.object fields) := by
      rw [controllerReadyPayload, hexpiry]
      rfl
    have hscript : hostWiring.pf.jsonParse = Js.jsonParse readDigits := rfl
    have hparse := Js.jsonParse_object readDigits (fun n : Nat => n.repr.toList) hfields
    have hcode : jsField "code" (.object fields : JsonValue Nat) = some (.string code) :=
      jsField_eq_some List.mem_cons_self (by simp [fields])
    refine ⟨.object fields, ?_, hcode⟩
    rw [htext, hscript]
    exact hparse
  scriptCase _ _ := rfl
  serverCase _ _ := rfl

def pairingRun : List HostAction :=
  (.connect "worker" .worker :: advances "worker" 1 ++
    .connect "host" .browser :: advances "host" 5 ++
    .receive "host" ⟨"initwebrtc", none, some "worker"⟩ :: advances "host" 4 ++
    .receive "host" ⟨"controllerHost", none, some "worker"⟩ :: advances "host" 4).map .server ++
    [.opened "worker" true, .message, .message]

def blankPage : HostPage := ⟨"", "", ∅, none, []⟩

theorem shown_code_pairs_scanned :
    ∃ s, Run (HostRoom.step hostWiring) (HostRoom.init blankPage) pairingRun s ∧
      s.page.pairingCode = "AAAAAA" ∧
      (s.server.shared.controllers.join hostWiring.cfg.caseMap "phone"
        (safeJoinCode hostWiring.caseMap s.page.pairingCode) 0).1 = .ok ⟨"host", "worker"⟩ := by
  have heval : (exec (HostRoom.step hostWiring) (HostRoom.init blankPage) pairingRun).any
      (fun s => decide ((s.server.peers "host").any (fun peer => peer.prog.isDone) = true ∧
        s.server.shared.registry.clientSender "host" ≠ none ∧
        s.received = s.server.shared.queues "host" ∧ s.page.workerID = some "worker" ∧
        s.page.pairingCode ≠ "" ∧ s.server.shared.controllers.codeToHost.lookup "AAAAAA" =
          some ⟨"host", "worker", joinCodeTtl⟩)) = true := by decide +kernel
  obtain ⟨s, hrun, hpeer, hclient, hread, hforce, hshown, hk⟩ := execWhen_any heval
  obtain ⟨peer, hpeer, hdone⟩ := (Option.any_eq_true _ _).mp hpeer
  have hpairs := shown_code_pairs hostWiring_lawful hrun hpeer
    (Prog.eq_ret_of_isDone hdone) hclient hread hforce hshown hk rfl
  exact ⟨s, hrun, hpairs.1, hpairs.2.2 "phone" 0 (by decide)⟩

end CloudGame.Portal
