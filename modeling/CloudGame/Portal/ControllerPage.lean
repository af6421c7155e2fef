import CloudGame.Lib.JsText
import CloudGame.Lib.Since
import CloudGame.Lib.Text
import CloudGame.Portal.Messages
import CloudGame.Portal.SignalConnection

/-!
# The page of a phone controller (`arcade-portal/src/controller.jsx`)

The page joins a host by its code, and then sends its button mask to the host whenever a tick finds
it changed.  Its listeners, timers and callbacks close over the connection and the code they were
made with: `rendered` are the values of the last render, which the buttons use, and `effects` those
of the effects in force, which a `commit` brings up to date.  What the page does and what it is told
is logged, newest first.

* `input_names_host`: an input goes to the host that was joined last, on the socket it was joined
  on, and nothing has ended the pairing since.
* `mask_was_sent`: a mask that counts as sent is the last one sent since the host was joined.
-/

namespace CloudGame.Portal

open CloudGame.Lib
open CloudGame.Signal (SignalIds.controllerRejected SignalIds.controllerLeft
  SignalIds.controllerJoined)

/-! ## Join codes -/

/-- `value.trim()` -/
def jsTrim (value : String) : String :=
  String.ofList (((value.toList.dropWhile Js.isSpace).reverse.dropWhile Js.isSpace).reverse)

/-- The UTF-16 code units of a character. -/
def codeUnits (c : Char) : Nat := if c.toNat < 0x10000 then 1 else 2

/-- `slice(0, n)`, of the characters that fit. -/
def sliceUnits : Nat → List Char → List Char
  | _, [] => []
  | n, c :: cs => if codeUnits c ≤ n then c :: sliceUnits (n - codeUnits c) cs else []

def safeJoinCode (caseMap : CaseMap) (value : String) : String :=
  String.ofList (sliceUnits 12 (caseMap.toUppercase (jsTrim value)).toList)

/-! ## State -/

inductive StatusMode where
  | idle
  | pairing
  | paired
  | error
  | disconnected
deriving DecidableEq

/-- What a render, and the effects made in it, close over. -/
structure Closure where
  conn : Option Nat
  joinCode : String
deriving DecidableEq

/-- What the page sent and on which socket, what the server told it there, and that its listeners
were taken off. -/
inductive PageEntry where
  | sent (socket : Nat) (request : Request)
  | joined (socket : Nat) (host : String)
  /-- `controllerLeft` or `controllerRejected` -/
  | left (socket : Nat)
  | closed (socket : Nat)
  | detached
deriving DecidableEq

structure ControllerPage where
  rendered : Closure
  effects : Closure
  /-- The listener for `open` is on the socket of the effects. -/
  awaitsOpen : Bool
  readyState : Nat → ReadyState
  hostIdRef : String
  maskRef : UInt32
  /-- `none` is -1. -/
  lastSentMaskRef : Option UInt32
  statusMode : StatusMode
  joinCodeRef : String
  /-- The code kept in the storage. -/
  lastJoinCode : Option String
  log : List PageEntry

/-- The mask after `setMaskBit`. -/
def maskAfter (mask bit : UInt32) (pressed : Bool) : UInt32 :=
  let nextMask := if pressed then mask ||| bit else mask &&& ~~~bit
  nextMask &&& 0xffff

namespace ControllerPage

/-- The page before it has a connection. -/
def init (joinCode : String) (lastJoinCode : Option String) : ControllerPage where
  rendered := ⟨none, joinCode⟩
  effects := ⟨none, joinCode⟩
  awaitsOpen := false
  readyState _ := .connecting
  hostIdRef := ""
  maskRef := 0
  lastSentMaskRef := none
  statusMode := if joinCode = "" then .idle else .pairing
  joinCodeRef := joinCode
  lastJoinCode := lastJoinCode
  log := []

def setStatus (p : ControllerPage) (mode : StatusMode) : ControllerPage :=
  { p with statusMode := mode }

/-- `conn && conn.readyState === WebSocket.OPEN` -/
def isOpen (p : ControllerPage) (conn : Option Nat) : Bool :=
  conn.any fun k => p.readyState k = .opened

/-- The page and whether the message was sent; `throws` says whether `send` throws. -/
def sendSignal (p : ControllerPage) (conn : Option Nat) (throws : Bool) (request : Request) :
    ControllerPage × Bool :=
  match conn with
  | none => (p, false)
  | some k =>
    if p.readyState k ≠ .opened then (p, false)
    else if throws then (p, false)
    else ({ p with log := .sent k request :: p.log }, true)

def saveLastJoinCode (caseMap : CaseMap) (p : ControllerPage) (value : String) : ControllerPage :=
  let normalized := safeJoinCode caseMap value
  if normalized = "" then p else { p with lastJoinCode := some normalized }

section

variable (caseMap : CaseMap) (throws : Bool)

def sendJoin (p : ControllerPage) (closure : Closure) : ControllerPage :=
  let normalizedCode := safeJoinCode caseMap closure.joinCode
  if normalizedCode = "" then p.setStatus .idle
  else
    let (p, sent) := p.sendSignal closure.conn throws (.controllerJoin normalizedCode)
    if sent then (p.saveLastJoinCode caseMap normalizedCode).setStatus .pairing else p

def handleOpen (p : ControllerPage) : ControllerPage :=
  ({ p with lastSentMaskRef := none }.setStatus .pairing).sendJoin caseMap throws p.effects

def handleClose (p : ControllerPage) (k : Nat) : ControllerPage :=
  let p := { p with hostIdRef := "", lastSentMaskRef := none, log := .closed k :: p.log }
  if p.statusMode ≠ .idle then p.setStatus .disconnected else p

/-- A message that `parseSignalMessage` accepts; the others are ignored. -/
def handleMessage (p : ControllerPage) (k : Nat) (msg : PortalMessage) : ControllerPage :=
  if msg.id = SignalIds.controllerRejected then
    { p.setStatus .error with hostIdRef := "", log := .left k :: p.log }
  else if msg.id = SignalIds.controllerLeft then
    { p.setStatus .disconnected with hostIdRef := "", log := .left k :: p.log }
  else if msg.id = SignalIds.controllerJoined then
    let targetID := msg.targetID.getD ""
    if targetID = "" then p
    else
      let p := { p with
        hostIdRef := targetID, lastSentMaskRef := none, log := .joined k targetID :: p.log }
      (p.saveLastJoinCode caseMap p.joinCodeRef).setStatus .paired
  else p

/-- The cleanups of the effects: their listeners are taken off the socket, if there is one. -/
def detach (p : ControllerPage) : ControllerPage :=
  if p.effects.conn.isSome then { p with hostIdRef := "", log := .detached :: p.log } else p

/-- The effects of a render that changed what they depend on: the cleanups, then the setups. -/
def commit (p : ControllerPage) : ControllerPage :=
  if p.effects = p.rendered then p
  else
    let p := { p.detach with
      effects := p.rendered, joinCodeRef := p.rendered.joinCode, awaitsOpen := false }
    match p.effects.conn with
    | none => p
    | some k => if p.readyState k = .opened then p.handleOpen caseMap throws
      else { p with awaitsOpen := true }

/-- The timer of three seconds. -/
def retry (p : ControllerPage) : ControllerPage :=
  if !p.isOpen p.effects.conn then p
  else if p.statusMode ≠ .pairing ∧ p.statusMode ≠ .disconnected then p
  else p.sendJoin caseMap throws p.effects

/-- `recoverOnForeground`, while the page is visible. -/
def recoverOnForeground (p : ControllerPage) : ControllerPage :=
  let p := { p with lastSentMaskRef := none }
  if p.isOpen p.effects.conn then
    let p := if p.statusMode ≠ .idle then p.setStatus .pairing else p
    p.sendJoin caseMap throws p.effects
  else if p.statusMode ≠ .idle then p.setStatus .disconnected
  else p

end

/-- The timer that runs sixty times a second. -/
def sendTick (p : ControllerPage) (throws : Bool) : ControllerPage :=
  let currentMask := p.maskRef &&& 0xffff
  if p.hostIdRef = "" then p
  else if p.lastSentMaskRef = some currentMask then p
  else
    let (p', sent) := p.sendSignal p.effects.conn throws (.controllerInput p.hostIdRef currentMask)
    if sent then { p' with lastSentMaskRef := some currentMask }.setStatus .paired else p'

def setMaskBit (p : ControllerPage) (bit : UInt32) (pressed : Bool) : ControllerPage :=
  { p with maskRef := maskAfter p.maskRef bit pressed }

def requestHostAudio (p : ControllerPage) (throws : Bool) : ControllerPage :=
  if p.hostIdRef = "" then p
  else (p.sendSignal p.rendered.conn throws (.controllerAudio p.hostIdRef)).1

end ControllerPage

/-! ## Steps -/

inductive PageAction where
  /-- The store has another socket, and the page was rendered with it. -/
  | renderConn (conn : Option Nat)
  /-- A code was typed, and the page was rendered with it. -/
  | renderJoinCode (value : String)
  | commit (throws : Bool)
  | opened (k : Nat) (throws : Bool)
  /-- `close` was called on a socket. -/
  | closing (k : Nat)
  | closed (k : Nat)
  | message (k : Nat) (msg : PortalMessage)
  | retry (throws : Bool)
  | foreground (throws : Bool)
  | sendTick (throws : Bool)
  | setMaskBit (bit : UInt32) (pressed : Bool)
  /-- The button `Pair` or `Reconnect`. -/
  | pair (throws : Bool)
  /-- The button `Enable game audio`. -/
  | requestHostAudio (throws : Bool)
deriving DecidableEq

namespace ControllerPage

def setReadyState (p : ControllerPage) (k : Nat) (readyState : ReadyState) : ControllerPage :=
  { p with readyState := Function.update p.readyState k readyState }

def step (caseMap : CaseMap) (p : ControllerPage) : PageAction → Option ControllerPage
  | .renderConn conn => some { p with rendered := { p.rendered with conn := conn } }
  | .renderJoinCode value =>
    some { p with rendered := { p.rendered with joinCode := safeJoinCode caseMap value } }
  | .commit throws => some (p.commit caseMap throws)
  | .opened k throws =>
    if p.readyState k ≠ .connecting then none
    else
      let p := p.setReadyState k .opened
      if p.effects.conn = some k ∧ p.awaitsOpen then some (p.handleOpen caseMap throws) else some p
  | .closing k =>
    if p.readyState k = .closed then none else some (p.setReadyState k .closing)
  | .closed k =>
    if p.readyState k = .closed then none
    else
      let p := p.setReadyState k .closed
      if p.effects.conn = some k then some (p.handleClose k) else some p
  | .message k msg =>
    if p.readyState k ≠ .opened then none
    else if p.effects.conn = some k then some (p.handleMessage caseMap k msg)
    else some p
  | .retry throws => some (p.retry caseMap throws)
  | .foreground throws => some (p.recoverOnForeground caseMap throws)
  | .sendTick throws => some (p.sendTick throws)
  | .setMaskBit bit pressed => some (p.setMaskBit bit pressed)
  | .pair throws => some (p.sendJoin caseMap throws p.rendered)
  | .requestHostAudio throws => some (p.requestHostAudio throws)

end ControllerPage

/-! ## What the log tells -/

/-- The page sent something. -/
def IsSent : PageEntry → Prop
  | .sent _ _ => True
  | _ => False

/-- The page sent something other than an input. -/
def IsOther : PageEntry → Prop
  | .sent _ (.controllerInput _ _) => False
  | .sent _ _ => True
  | _ => False

/-- The host was joined on the socket, and since then the page has only sent. -/
def JoinedOn (k : Nat) (host : String) (log : List PageEntry) : Prop :=
  Since (fun e => e = .joined k host) IsSent log

/-- The last input since the host was joined. -/
def LastInput (k : Nat) (host : String) (mask : UInt32) (log : List PageEntry) : Prop :=
  Since (fun e => e = .sent k (.controllerInput host mask)) IsOther log

/-- What is known of a message that names a host when it is sent. -/
def Addressed (e : PageEntry) (older : List PageEntry) : Prop :=
  match e with
  | .sent k (.controllerInput host _) => JoinedOn k host older
  | .sent _ (.controllerAudio host) => ∃ k, JoinedOn k host older
  | _ => True

theorem JoinedOn.sent {k : Nat} {host : String} {log : List PageEntry} (h : JoinedOn k host log)
    (k' : Nat) (r : Request) : JoinedOn k host (.sent k' r :: log) :=
  since_cons.mpr (Or.inr ⟨trivial, h⟩)

/-! ## The invariant -/

structure PageInv (p : ControllerPage) : Prop where
  small : p.maskRef &&& 0xffff = p.maskRef
  paired : p.hostIdRef ≠ "" → ∃ k, p.effects.conn = some k ∧ JoinedOn k p.hostIdRef p.log
  resent : ∀ mask, p.hostIdRef ≠ "" → p.lastSentMaskRef = some mask →
    ∃ k, p.effects.conn = some k ∧ LastInput k p.hostIdRef mask p.log
  addressed : Throughout Addressed p.log

section Invariant

variable {p p' : ControllerPage} {caseMap : CaseMap} {throws : Bool}

/-- Without a host there is nothing to know but the log. -/
theorem PageInv.unpaired (hsmall : p.maskRef &&& 0xffff = p.maskRef) (hhost : p.hostIdRef = "")
    (hlog : Throughout Addressed p.log) : PageInv p :=
  ⟨hsmall, fun h => absurd hhost h, fun _ h => absurd hhost h, hlog⟩

/-- The fields that the invariant reads; the last mask may be forgotten. -/
theorem PageInv.congr (h : PageInv p) (hconn : p'.effects.conn = p.effects.conn)
    (hhost : p'.hostIdRef = p.hostIdRef) (hmask : p'.maskRef = p.maskRef)
    (hlast : p'.lastSentMaskRef = p.lastSentMaskRef ∨ p'.lastSentMaskRef = none)
    (hlog : p'.log = p.log) : PageInv p' := by
  refine ⟨?_, ?_, fun mask hp hl => ?_, ?_⟩
  · rw [hmask]
    exact h.small
  · rw [hconn, hhost, hlog]
    exact h.paired
  · rcases hlast with hlast | hlast
    · rw [hconn, hhost, hlog] at *
      exact h.resent mask hp (hlast ▸ hl)
    · rw [hlast] at hl
      cases hl
  · rw [hlog]
    exact h.addressed

/-- A message that is no input is sent. -/
theorem PageInv.sends (h : PageInv p) {k : Nat} {r : Request}
    (hr : ∀ host mask, r ≠ .controllerInput host mask)
    (haddressed : Addressed (.sent k r) p.log) :
    PageInv { p with log := .sent k r :: p.log } := by
  have hother : IsOther (.sent k r) := by
    cases r with
    | controllerInput host mask => exact absurd rfl (hr host mask)
    | _ => trivial
  refine ⟨h.small, fun hp => ?_, fun mask hp hl => ?_,
    throughout_cons.mpr ⟨haddressed, h.addressed⟩⟩
  · obtain ⟨k', hconn, hjoined⟩ := h.paired hp
    exact ⟨k', hconn, hjoined.sent k r⟩
  · obtain ⟨k', hconn, hlast⟩ := h.resent mask hp hl
    exact ⟨k', hconn, since_cons.mpr (Or.inr ⟨hother, hlast⟩)⟩

/-- A message is sent on a socket that is open, or nothing changes. -/
theorem ControllerPage.sendSignal_cases (p : ControllerPage) (conn : Option Nat) (throws : Bool)
    (r : Request) :
    p.sendSignal conn throws r = (p, false) ∨
      ∃ k, conn = some k ∧ p.readyState k = .opened ∧
        p.sendSignal conn throws r = ({ p with log := .sent k r :: p.log }, true) := by
  unfold ControllerPage.sendSignal
  cases conn with
  | none => exact Or.inl rfl
  | some k =>
    by_cases hopen : p.readyState k = .opened
    · cases throws with
      | true => exact Or.inl (by simp [hopen])
      | false => exact Or.inr ⟨k, rfl, hopen, by simp [hopen]⟩
    · exact Or.inl (by simp [hopen])

theorem pageInv_setStatus (h : PageInv p) (mode : StatusMode) : PageInv (p.setStatus mode) :=
  h.congr rfl rfl rfl (Or.inl rfl) rfl

theorem pageInv_saveLastJoinCode (h : PageInv p) (value : String) :
    PageInv (p.saveLastJoinCode caseMap value) := by
  unfold ControllerPage.saveLastJoinCode
  dsimp only
  split
  · exact h
  · exact h.congr rfl rfl rfl (Or.inl rfl) rfl

theorem pageInv_sendJoin (h : PageInv p) (closure : Closure) :
    PageInv (p.sendJoin caseMap throws closure) := by
  unfold ControllerPage.sendJoin
  dsimp only
  split
  · exact pageInv_setStatus h _
  · rcases p.sendSignal_cases closure.conn throws
      (.controllerJoin (safeJoinCode caseMap closure.joinCode)) with he | ⟨k, -, -, he⟩
    · rw [he]
      exact h
    · rw [he]
      have hsent : PageInv { p with
          log := .sent k (.controllerJoin (safeJoinCode caseMap closure.joinCode)) :: p.log } :=
        h.sends (by simp) trivial
      exact pageInv_setStatus (pageInv_saveLastJoinCode hsent _) _

/-- The last mask is forgotten. -/
theorem PageInv.forget (h : PageInv p) : PageInv { p with lastSentMaskRef := none } :=
  h.congr rfl rfl rfl (Or.inr rfl) rfl

theorem pageInv_handleOpen (h : PageInv p) : PageInv (p.handleOpen caseMap throws) :=
  pageInv_sendJoin (pageInv_setStatus h.forget _) _

theorem pageInv_handleClose (h : PageInv p) (k : Nat) : PageInv (p.handleClose k) := by
  have hgone : PageInv { p with
      hostIdRef := "", lastSentMaskRef := none, log := .closed k :: p.log } :=
    .unpaired h.small rfl (throughout_cons.mpr ⟨trivial, h.addressed⟩)
  unfold ControllerPage.handleClose
  dsimp only
  split
  · exact pageInv_setStatus hgone _
  · exact hgone

theorem pageInv_handleMessage (h : PageInv p) {k : Nat} (hconn : p.effects.conn = some k)
    (msg : PortalMessage) : PageInv (p.handleMessage caseMap k msg) := by
  have hleft : Throughout Addressed (.left k :: p.log) := throughout_cons.mpr ⟨trivial, h.addressed⟩
  unfold ControllerPage.handleMessage
  split
  · exact .unpaired h.small rfl hleft
  · split
    · exact .unpaired h.small rfl hleft
    · split
      · dsimp only
        split
        · exact h
        · -- a host is joined: nothing has been sent to it yet
          refine pageInv_setStatus (pageInv_saveLastJoinCode ?_ _) _
          exact ⟨h.small, fun _ => ⟨k, hconn, since_cons.mpr (Or.inl rfl)⟩, nofun,
            throughout_cons.mpr ⟨trivial, h.addressed⟩⟩
      · exact h

/-- The cleanup forgets the host, and without a socket there was none. -/
theorem pageInv_detach (h : PageInv p) : PageInv p.detach ∧ p.detach.hostIdRef = "" := by
  unfold ControllerPage.detach
  split
  · exact ⟨.unpaired h.small rfl (throughout_cons.mpr ⟨trivial, h.addressed⟩), rfl⟩
  · next hnone =>
    refine ⟨h, ?_⟩
    by_contra hp
    obtain ⟨k, hconn, -⟩ := h.paired hp
    rw [hconn] at hnone
    exact hnone rfl

theorem pageInv_commit (h : PageInv p) : PageInv (p.commit caseMap throws) := by
  obtain ⟨hclean, hhost⟩ := pageInv_detach h
  have hsetup : PageInv { p.detach with
      effects := p.rendered, joinCodeRef := p.rendered.joinCode, awaitsOpen := false } :=
    .unpaired hclean.small hhost hclean.addressed
  unfold ControllerPage.commit
  split
  · exact h
  · dsimp only
    split
    · exact hsetup
    · split
      · exact pageInv_handleOpen hsetup
      · exact hsetup.congr rfl rfl rfl (Or.inl rfl) rfl

theorem pageInv_sendTick (h : PageInv p) : PageInv (p.sendTick throws) := by
  unfold ControllerPage.sendTick
  dsimp only
  split
  · exact h
  · next hhost =>
    split
    · exact h
    · rcases p.sendSignal_cases p.effects.conn throws
        (.controllerInput p.hostIdRef (p.maskRef &&& 0xffff)) with he | ⟨k, hk, -, he⟩
      · rw [he]
        exact h
      · rw [he]
        obtain ⟨k', hconn, hjoined⟩ := h.paired hhost
        obtain rfl : k = k' := Option.some.inj (hk.symm.trans hconn)
        have hsent : PageInv { p with
            lastSentMaskRef := some (p.maskRef &&& 0xffff)
            log := .sent k (.controllerInput p.hostIdRef (p.maskRef &&& 0xffff)) :: p.log } := by
          refine ⟨h.small, fun _ => ⟨k, hconn, hjoined.sent _ _⟩, ?_,
            throughout_cons.mpr ⟨hjoined, h.addressed⟩⟩
          rintro mask - ⟨⟩
          exact ⟨k, hconn, since_cons.mpr (Or.inl rfl)⟩
        exact pageInv_setStatus hsent _

theorem pageInv_retry (h : PageInv p) : PageInv (p.retry caseMap throws) := by
  unfold ControllerPage.retry
  split
  · exact h
  · split
    · exact h
    · exact pageInv_sendJoin h _

theorem pageInv_recoverOnForeground (h : PageInv p) :
    PageInv (p.recoverOnForeground caseMap throws) := by
  unfold ControllerPage.recoverOnForeground
  dsimp only
  split
  · split
    · exact pageInv_sendJoin (pageInv_setStatus h.forget _) _
    · exact pageInv_sendJoin h.forget _
  · split
    · exact pageInv_setStatus h.forget _
    · exact h.forget

theorem pageInv_requestHostAudio (h : PageInv p) : PageInv (p.requestHostAudio throws) := by
  unfold ControllerPage.requestHostAudio
  split
  · exact h
  · next hhost =>
    rcases p.sendSignal_cases p.rendered.conn throws (.controllerAudio p.hostIdRef) with
      he | ⟨k, -, -, he⟩
    · rw [he]
      exact h
    · rw [he]
      obtain ⟨k', -, hjoined⟩ := h.paired hhost
      exact h.sends (by simp) ⟨k', hjoined⟩

theorem pageInv_setReadyState (h : PageInv p) (k : Nat) (readyState : ReadyState) :
    PageInv (p.setReadyState k readyState) :=
  h.congr rfl rfl rfl (Or.inl rfl) rfl

theorem pageInv_step {a : PageAction} (h : PageInv p) (hs : p.step caseMap a = some p') :
    PageInv p' := by
  cases a with
  | renderConn conn => cases hs; exact h.congr rfl rfl rfl (Or.inl rfl) rfl
  | renderJoinCode value => cases hs; exact h.congr rfl rfl rfl (Or.inl rfl) rfl
  | commit throws => cases hs; exact pageInv_commit h
  | opened k throws =>
    simp only [ControllerPage.step] at hs
    split at hs
    · cases hs
    · split at hs <;> cases hs
      · exact pageInv_handleOpen (pageInv_setReadyState h _ _)
      · exact pageInv_setReadyState h _ _
  | closing k =>
    simp only [ControllerPage.step] at hs
    split at hs <;> cases hs
    exact pageInv_setReadyState h _ _
  | closed k =>
    simp only [ControllerPage.step] at hs
    split at hs
    · cases hs
    · split at hs <;> cases hs
      · exact pageInv_handleClose (pageInv_setReadyState h _ _) _
      · exact pageInv_setReadyState h _ _
  | message k msg =>
    simp only [ControllerPage.step] at hs
    split at hs
    · cases hs
    · split at hs
      · next hconn => cases hs; exact pageInv_handleMessage h hconn msg
      · cases hs; exact h
  | retry throws => cases hs; exact pageInv_retry h
  | foreground throws => cases hs; exact pageInv_recoverOnForeground h
  | sendTick throws => cases hs; exact pageInv_sendTick h
  | setMaskBit bit pressed =>
    cases hs
    refine ⟨?_, h.paired, h.resent, h.addressed⟩
    show ((if pressed then p.maskRef ||| bit else p.maskRef &&& ~~~bit) &&& 0xffff) &&& 0xffff = _
    rw [UInt32.and_assoc]
    rfl
  | pair throws => cases hs; exact pageInv_sendJoin h _
  | requestHostAudio throws => cases hs; exact pageInv_requestHostAudio h

/-- A tick that has nothing to send has sent the mask. -/
theorem PageInv.lastInput_of_idle (h : PageInv p) (hhost : p.hostIdRef ≠ "")
    (hopen : p.isOpen p.effects.conn = true) (hidle : (p.sendTick false).log = p.log) :
    ∃ k, p.effects.conn = some k ∧ LastInput k p.hostIdRef p.maskRef p.log := by
  obtain ⟨k, hconn, -⟩ := h.paired hhost
  -- a mask that differs from the last one would have been sent
  have hlast : p.lastSentMaskRef = some (p.maskRef &&& 0xffff) := by
    by_contra hne
    unfold ControllerPage.sendTick at hidle
    rw [hconn] at hopen hidle
    have hready : p.readyState k = .opened := by simpa [ControllerPage.isOpen] using hopen
    simp only [if_neg hhost, if_neg hne, ControllerPage.sendSignal, hready] at hidle
    exact absurd hidle (List.cons_ne_self _ _)
  rw [h.small] at hlast
  exact h.resent _ hhost hlast

end Invariant

theorem pageInv_init (joinCode : String) (lastJoinCode : Option String) :
    PageInv (ControllerPage.init joinCode lastJoinCode) :=
  .unpaired (by decide : (0 : UInt32) &&& 0xffff = 0) rfl (throughout_nil _)

theorem pageInv_run {caseMap : CaseMap} {joinCode : String} {lastJoinCode : Option String}
    {as : List PageAction} {p : ControllerPage}
    (h : Run (ControllerPage.step caseMap) (ControllerPage.init joinCode lastJoinCode) as p) :
    PageInv p :=
  h.invariant (pageInv_init joinCode lastJoinCode) fun _ _ _ hi _ hs => pageInv_step hi hs

/-! ## How the log grows -/

/-- What the page sends, on a socket while the effects use `conn`. -/
def PageSends (conn : Option Nat) (k : Nat) : Request → Prop
  | .controllerJoin _ | .controllerAudio _ => True
  | .controllerInput _ _ => conn = some k
  | _ => False

/-- The effects stay as they are, and what is sent is what they send. -/
def Logs (p p' : ControllerPage) : Prop :=
  p'.effects = p.effects ∧ ∃ added, p'.log = added ++ p.log ∧
    ∀ k r, .sent k r ∈ added → PageSends p.effects.conn k r

section Logs

variable {p p' p'' : ControllerPage} {caseMap : CaseMap} {throws : Bool}

theorem Logs.nothing (heffects : p'.effects = p.effects) (hlog : p'.log = p.log) : Logs p p' :=
  ⟨heffects, [], hlog, nofun⟩

theorem Logs.one {e : PageEntry} (he : ∀ k r, e ≠ .sent k r) (heffects : p'.effects = p.effects)
    (hlog : p'.log = e :: p.log) : Logs p p' :=
  ⟨heffects, [e], hlog, fun k r hmem => absurd (List.mem_singleton.mp hmem).symm (he k r)⟩

theorem Logs.trans (h : Logs p p') (h' : Logs p' p'') : Logs p p'' := by
  obtain ⟨heffects, added, hlog, hsends⟩ := h
  obtain ⟨heffects', added', hlog', hsends'⟩ := h'
  refine ⟨heffects'.trans heffects, added' ++ added, ?_, fun k r hmem => ?_⟩
  · rw [hlog', hlog, List.append_assoc]
  · rw [heffects] at hsends'
    exact (List.mem_append.mp hmem).elim (hsends' k r) (hsends k r)

/-- Two pages that differ in neither are the same to the log. -/
theorem Logs.congr (h : Logs p p') (heffects : p''.effects = p'.effects) (hlog : p''.log = p'.log) :
    Logs p p'' := h.trans (.nothing heffects hlog)

theorem logs_sendSignal (conn : Option Nat) {r : Request}
    (hr : ∀ k, conn = some k → PageSends p.effects.conn k r) :
    Logs p (p.sendSignal conn throws r).1 := by
  rcases p.sendSignal_cases conn throws r with he | ⟨k, hconn, -, he⟩
  · rw [he]
    exact .nothing rfl rfl
  · rw [he]
    refine ⟨rfl, [.sent k r], rfl, fun k' r' hmem => ?_⟩
    cases List.mem_singleton.mp hmem
    exact hr k hconn

theorem logs_sendJoin (closure : Closure) : Logs p (p.sendJoin caseMap throws closure) := by
  unfold ControllerPage.sendJoin
  dsimp only
  split
  · exact .nothing rfl rfl
  · have hsend : Logs p (p.sendSignal closure.conn throws
        (.controllerJoin (safeJoinCode caseMap closure.joinCode))).1 :=
      logs_sendSignal _ fun _ _ => trivial
    split
    · unfold ControllerPage.saveLastJoinCode
      dsimp only
      split <;> exact hsend.congr rfl rfl
    · exact hsend

theorem logs_handleOpen : Logs p (p.handleOpen caseMap throws) := by
  have hforget : Logs p ({ p with lastSentMaskRef := none }.setStatus .pairing) := .nothing rfl rfl
  exact hforget.trans (logs_sendJoin _)

theorem logs_handleClose (k : Nat) : Logs p (p.handleClose k) := by
  unfold ControllerPage.handleClose
  dsimp only
  split <;> exact .one (by simp) rfl rfl

theorem logs_handleMessage (k : Nat) (msg : PortalMessage) :
    Logs p (p.handleMessage caseMap k msg) := by
  unfold ControllerPage.handleMessage
  split
  · exact .one (by simp) rfl rfl
  split
  · exact .one (by simp) rfl rfl
  split
  · dsimp only
    split
    · exact .nothing rfl rfl
    · unfold ControllerPage.saveLastJoinCode
      dsimp only
      split <;> exact .one (by simp) rfl rfl
  · exact .nothing rfl rfl

theorem logs_retry : Logs p (p.retry caseMap throws) := by
  unfold ControllerPage.retry
  split
  · exact .nothing rfl rfl
  split
  · exact .nothing rfl rfl
  · exact logs_sendJoin _

theorem logs_recoverOnForeground : Logs p (p.recoverOnForeground caseMap throws) := by
  have hforget : Logs p { p with lastSentMaskRef := none } := .nothing rfl rfl
  unfold ControllerPage.recoverOnForeground
  dsimp only
  split
  · split
    · exact (hforget.congr rfl rfl).trans (logs_sendJoin _)
    · exact hforget.trans (logs_sendJoin _)
  · split <;> exact .nothing rfl rfl

theorem logs_sendTick : Logs p (p.sendTick throws) := by
  unfold ControllerPage.sendTick
  dsimp only
  split
  · exact .nothing rfl rfl
  split
  · exact .nothing rfl rfl
  · have hsend : Logs p (p.sendSignal p.effects.conn throws
        (.controllerInput p.hostIdRef (p.maskRef &&& 0xffff))).1 :=
      logs_sendSignal _ fun _ hconn => hconn
    split
    · exact hsend.congr rfl rfl
    · exact hsend

theorem ControllerPage.detach_log (p : ControllerPage) : ∃ cleaned,
    p.detach.log = cleaned ++ p.log ∧ (p.effects.conn = none ∨ .detached ∈ cleaned) ∧
      ∀ k r, .sent k r ∉ cleaned := by
  unfold ControllerPage.detach
  split
  · exact ⟨[.detached], rfl, by simp, by simp⟩
  · next hnone => exact ⟨[], rfl, Or.inl (Option.not_isSome_iff_eq_none.mp hnone), nofun⟩

/-- The effects in force give way to others: the listeners were taken off, if there were any. -/
theorem logs_commit : Logs p (p.commit caseMap throws) ∨ ∃ added,
    (p.commit caseMap throws).log = added ++ p.log ∧
      (p.effects.conn = none ∨ .detached ∈ added) ∧
      ∀ k r, .sent k r ∈ added → PageSends (p.commit caseMap throws).effects.conn k r := by
  unfold ControllerPage.commit
  split
  · exact Or.inl (.nothing rfl rfl)
  · refine Or.inr ?_
    let q : ControllerPage := { p.detach with
      effects := p.rendered, joinCodeRef := p.rendered.joinCode, awaitsOpen := false }
    -- the setup runs on the page that the cleanup leaves
    have hsetup : ∀ q', Logs q q' → ∃ added, q'.log = added ++ p.log ∧
        (p.effects.conn = none ∨ .detached ∈ added) ∧
        ∀ k r, .sent k r ∈ added → PageSends q'.effects.conn k r := by
      rintro q' ⟨heffects, added, hlog, hsends⟩
      obtain ⟨cleaned, hclean, hdetached, hsent⟩ := p.detach_log
      refine ⟨added ++ cleaned, ?_, hdetached.imp_right (List.mem_append_right _), ?_⟩
      · rw [hlog, List.append_assoc, ← hclean]
      · intro k r hmem
        rw [heffects]
        exact (List.mem_append.mp hmem).elim (hsends k r) fun h => absurd h (hsent k r)
    dsimp only
    split
    · exact hsetup q (.nothing rfl rfl)
    · split
      · exact hsetup _ logs_handleOpen
      · exact hsetup { q with awaitsOpen := true } (.nothing rfl rfl)

/-- What a step does to the log: it grows, and what is sent is what the effects send, which change
only with the listeners. -/
theorem step_logs {a : PageAction} (hs : p.step caseMap a = some p') : ∃ added,
    p'.log = added ++ p.log ∧
      (p'.effects.conn = p.effects.conn ∨ p.effects.conn = none ∨ .detached ∈ added) ∧
      ∀ k r, .sent k r ∈ added → PageSends p'.effects.conn k r := by
  have hkept : ∀ q, Logs p q → ∃ added, q.log = added ++ p.log ∧
      (q.effects.conn = p.effects.conn ∨ p.effects.conn = none ∨ .detached ∈ added) ∧
      ∀ k r, .sent k r ∈ added → PageSends q.effects.conn k r := by
    rintro q ⟨heffects, added, hlog, hsends⟩
    refine ⟨added, hlog, Or.inl (by rw [heffects]), ?_⟩
    rw [heffects]
    exact hsends
  cases a with
  | renderConn conn => cases hs; exact hkept _ (.nothing rfl rfl)
  | renderJoinCode value => cases hs; exact hkept _ (.nothing rfl rfl)
  | commit throws =>
    cases hs
    rcases (logs_commit : Logs p (p.commit caseMap throws) ∨ _) with h | h
    · exact hkept _ h
    · obtain ⟨added, hlog, hdetached, hsends⟩ := h
      exact ⟨added, hlog, Or.inr hdetached, hsends⟩
  | opened k throws =>
    have hready : Logs p (p.setReadyState k .opened) := .nothing rfl rfl
    simp only [ControllerPage.step] at hs
    split at hs
    · cases hs
    · split at hs <;> cases hs
      · exact hkept _ (hready.trans logs_handleOpen)
      · exact hkept _ hready
  | closing k =>
    simp only [ControllerPage.step] at hs
    split at hs <;> cases hs
    exact hkept _ (.nothing rfl rfl)
  | closed k =>
    have hready : Logs p (p.setReadyState k .closed) := .nothing rfl rfl
    simp only [ControllerPage.step] at hs
    split at hs
    · cases hs
    · split at hs <;> cases hs
      · exact hkept _ (hready.trans (logs_handleClose k))
      · exact hkept _ hready
  | message k msg =>
    simp only [ControllerPage.step] at hs
    split at hs
    · cases hs
    · split at hs <;> cases hs
      · exact hkept _ (logs_handleMessage k msg)
      · exact hkept _ (.nothing rfl rfl)
  | retry throws => cases hs; exact hkept _ logs_retry
  | foreground throws => cases hs; exact hkept _ logs_recoverOnForeground
  | sendTick throws => cases hs; exact hkept _ logs_sendTick
  | setMaskBit bit pressed => cases hs; exact hkept _ (.nothing rfl rfl)
  | pair throws => cases hs; exact hkept _ (logs_sendJoin _)
  | requestHostAudio throws =>
    cases hs
    unfold ControllerPage.requestHostAudio
    split
    · exact hkept _ (.nothing rfl rfl)
    · exact hkept _ (logs_sendSignal _ fun _ _ => trivial)

/-- The last input since a host was joined went out on the socket that is still in use. -/
theorem attached_run {joinCode : String} {lastJoinCode : Option String} {as : List PageAction}
    (h : Run (ControllerPage.step caseMap) (ControllerPage.init joinCode lastJoinCode) as p)
    {k : Nat} {host : String} {mask : UInt32} (hlast : LastInput k host mask p.log) :
    p.effects.conn = some k := by
  have hinit : ∀ mask, LastInput k host mask (ControllerPage.init joinCode lastJoinCode).log →
      (ControllerPage.init joinCode lastJoinCode).effects.conn = some k :=
    fun _ h => absurd h (not_since_nil _ _)
  refine h.invariant (I := fun p => ∀ mask, LastInput k host mask p.log → p.effects.conn = some k)
    hinit ?_ mask hlast
  intro p a p' hi _ hs mask hlast
  obtain ⟨added, hlog, hconn, hsends⟩ := step_logs hs
  rw [LastInput, hlog, since_append] at hlast
  rcases hlast with ⟨newer, e, older, hadded, rfl, -⟩ | ⟨hothers, hold⟩
  · exact hsends k _ (hadded ▸ List.mem_append_right _ List.mem_cons_self)
  · have hsome := hi mask hold
    rcases hconn with hconn | hconn | hdetached
    · rw [hconn, hsome]
    · rw [hsome] at hconn
      cases hconn
    · exact absurd (hothers _ hdetached) id

end Logs

/-! ## The results -/

section Results

variable {caseMap : CaseMap} {joinCode : String} {lastJoinCode : Option String}
  {as : List PageAction} {p : ControllerPage}

/-- **An input names the host that was joined.**  Whatever happens to the sockets, the renders and
the timers: an input was sent on the socket on which the server said that its host was joined, and
since then the server has neither said so of another host nor ended the pairing, the socket has not
closed and the page has not turned to another socket or code; a request for audio names such a host
too. -/
theorem input_names_host
    (h : Run (ControllerPage.step caseMap) (ControllerPage.init joinCode lastJoinCode) as p)
    {newer older : List PageEntry} {k : Nat} {host : String} :
    (∀ mask, p.log = newer ++ .sent k (.controllerInput host mask) :: older →
      JoinedOn k host older) ∧
    (p.log = newer ++ .sent k (.controllerAudio host) :: older →
      ∃ k', JoinedOn k' host older) := by
  have haddressed := (pageInv_run h).addressed
  exact ⟨fun mask hlog => haddressed newer _ older hlog, fun hlog => haddressed newer _ older hlog⟩

/-- **The mask was sent.**  While a host is joined, a tick that has nothing to send leaves the mask
as the one in the last input to that host since it was joined. -/
theorem mask_was_sent
    (h : Run (ControllerPage.step caseMap) (ControllerPage.init joinCode lastJoinCode) as p)
    (hhost : p.hostIdRef ≠ "") (hopen : p.isOpen p.effects.conn = true)
    (hidle : (p.sendTick false).log = p.log) :
    ∃ k, p.effects.conn = some k ∧ JoinedOn k p.hostIdRef p.log ∧
      LastInput k p.hostIdRef p.maskRef p.log := by
  obtain ⟨k, hconn, hinput⟩ := (pageInv_run h).lastInput_of_idle hhost hopen hidle
  obtain ⟨k', hconn', hjoined⟩ := (pageInv_run h).paired hhost
  rw [hconn] at hconn'
  cases hconn'
  exact ⟨k, hconn, hjoined, hinput⟩

end Results

/-- A phone pairs, presses a button, loses its host and finds it again with the button held. -/
def repairing : List PageAction :=
  [.renderConn (some 0), .commit false, .opened 0 false,
    .message 0 ⟨"controllerJoined", "", some "h"⟩, .setMaskBit 4 true, .sendTick false,
    .message 0 ⟨"controllerLeft", "", some "h"⟩, .sendTick false, .retry false,
    .message 0 ⟨"controllerJoined", "", some "h"⟩, .sendTick false]

/-- The held button is sent again. -/
theorem mask_was_sent_again :
    ∃ p, Run (ControllerPage.step CaseMap.ascii) (ControllerPage.init "ABC234" none) repairing p ∧
      LastInput 0 "h" 4 p.log := by
  have hrun : ∃ p, Run (ControllerPage.step CaseMap.ascii) (ControllerPage.init "ABC234" none)
      repairing p ∧ p.hostIdRef = "h" ∧ p.isOpen p.effects.conn = true ∧
      (p.sendTick false).log = p.log ∧ p.effects.conn = some 0 ∧ p.maskRef = 4 :=
    execWhen_any (by decide +kernel)
  obtain ⟨p, hrun, hhost, hopen, hidle, hconn, hmask⟩ := hrun
  obtain ⟨k, hk, -, hlast⟩ := mask_was_sent hrun (by rw [hhost]; decide) hopen hidle
  rw [hconn] at hk
  cases hk
  rw [hhost, hmask] at hlast
  exact ⟨p, hrun, hlast⟩

/-- The input that was sent again names the host that was joined again. -/
theorem input_names_host_again :
    ∃ p older, Run (ControllerPage.step CaseMap.ascii) (ControllerPage.init "ABC234" none)
        repairing p ∧ p.log = .sent 0 (.controllerInput "h" 4) :: older ∧ JoinedOn 0 "h" older := by
  have hrun : ∃ p, Run (ControllerPage.step CaseMap.ascii) (ControllerPage.init "ABC234" none)
      repairing p ∧ p.log.head? = some (.sent 0 (.controllerInput "h" 4)) :=
    execWhen_any (by decide +kernel)
  obtain ⟨p, hrun, hhead⟩ := hrun
  obtain ⟨older, hlog⟩ := List.head?_eq_some_iff.mp hhead
  have hnewest : p.log = [] ++ .sent 0 (.controllerInput "h" 4) :: older := hlog
  exact ⟨p, older, hrun, hlog, (input_names_host hrun).1 4 hnewest⟩

end CloudGame.Portal
