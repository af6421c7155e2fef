import CloudGame.Worker.Calls
import CloudGame.Worker.Tasks

/-!
# Signals before and after a session (`arcade-worker/src/signal_router.rs`)

The answers and candidates of a client that arrive before its session is registered wait in
`PendingSessionSignals`; a successful `initwebrtc` replays them, and later ones are handed to the
session at once.

`SignalEvent` is what happens to the signals of one client, `ClientView` what the worker has of
them.  `InOrder` says that every session was handed what it is due: it holds whenever the router is
between two messages, and each handler restores it (`wp_handleMessage`).  The other tasks do not
change the view of a client whose sessions end by `terminateSession` only.
-/

namespace CloudGame.Worker

open CloudGame.Lib CloudGame.Signal

/-! ## The signals of a client -/

/-- An answer or a candidate of the client that carries a payload. -/
def SignalOf (c : String) (msg : SignalMessage) : Prop :=
  (msg.id = SignalIds.answer ∨ msg.id = SignalIds.candidate) ∧ signalClientId msg = some c ∧
    signalPayload msg ≠ none

instance (c : String) (msg : SignalMessage) : Decidable (SignalOf c msg) :=
  inferInstanceAs (Decidable (_ ∧ _))

inductive SignalEvent where
  | arrived (msg : SignalMessage)
  /-- An `initwebrtc` succeeded. -/
  | initialised (session : Session)
  | terminated
deriving DecidableEq

/-- What a message that the router is handed means for the client. -/
def receivedEvents (c : String) (msg : SignalMessage) : List SignalEvent :=
  if SignalOf c msg then [.arrived msg]
  else if msg.id = SignalIds.terminateSession ∧ signalClientId msg = some c then [.terminated]
  else []

/-- The offer is the last that `create_session` does. -/
def offerEvents (c : String) (room : RoomState) : RoomOp → List SignalEvent
  | .sendOffer session =>
    if session.id = c ∧ room.outboundClosed = false then [.initialised session] else []
  | _ => []

def signalEvents (c : String) (w : WorkerState) : WorkerAction → List SignalEvent
  | .receive msg _ => receivedEvents c msg
  | .run .router =>
    match (w.tasks .router).head with
    | some i => offerEvents c w.room i
    | none => []
  | _ => []

/-- The signals that arrived, in order. -/
def arrivedIn (events : List SignalEvent) : List SignalMessage :=
  events.filterMap fun
    | .arrived msg => some msg
    | _ => none

/-- The events after the last `terminateSession`, or all. -/
def sinceTerminate (events : List SignalEvent) : List SignalEvent :=
  events.rtakeWhile fun e => e ≠ .terminated

/-- The events before the first `terminateSession`, or all. -/
def untilTerminate (events : List SignalEvent) : List SignalEvent :=
  events.takeWhile fun e => e ≠ .terminated

/-- What a session was handed, in order. -/
def handedTo (S : Session) (applied : List (Session × SignalMessage)) : List SignalMessage :=
  (applied.reverse.filter fun e => e.1 = S).map Prod.snd

/-- No task but the router takes out a session of the client. -/
def EndsByTerminate (c : String) (w : WorkerState) : WorkerAction → Prop
  | .run id =>
    id = .router ∨ (w.tasks id).head ≠ some (.removeSession c) ∨ w.room.sessions.lookup c = none
  | _ => True

/-- The client for which an operation queues a signal. -/
def RoomOp.queuesFor : RoomOp → Option String
  | .enqueueSignal msg => signalClientId msg
  | _ => none

/-- No signal is queued for a client beyond the 512th. -/
def KeepsQueues (w : WorkerState) : WorkerAction → Prop
  | .run id => ∀ c ∈ (w.tasks id).head.bind RoomOp.queuesFor,
      c ∈ w.room.pendingSignals.byClient ∨
        w.room.pendingSignals.byClient.entries.length < maxPendingSessions
  | _ => True

instance EndsByTerminate.decide (c : String) (w : WorkerState) :
    (a : WorkerAction) → Decidable (EndsByTerminate c w a)
  | .run _ => inferInstanceAs (Decidable (_ ∨ _ ∨ _))
  | .receive .. => isTrue trivial
  | .peerState .. => isTrue trivial
  | .inputMessage .. => isTrue trivial
  | .videoEnds .. => isTrue trivial
  | .poll => isTrue trivial
  | .emulatorFails => isTrue trivial
  | .outboundCloses => isTrue trivial
  | .rehash _ => isTrue trivial

instance KeepsQueues.decide (w : WorkerState) : (a : WorkerAction) → Decidable (KeepsQueues w a)
  | .run id => inferInstanceAs
      (Decidable (∀ c ∈ (w.tasks id).head.bind RoomOp.queuesFor,
        c ∈ w.room.pendingSignals.byClient ∨
          w.room.pendingSignals.byClient.entries.length < maxPendingSessions))
  | .receive .. => isTrue trivial
  | .peerState .. => isTrue trivial
  | .inputMessage .. => isTrue trivial
  | .videoEnds .. => isTrue trivial
  | .poll => isTrue trivial
  | .emulatorFails => isTrue trivial
  | .outboundCloses => isTrue trivial
  | .rehash _ => isTrue trivial

/-! ## Events in order -/

section Events

variable {events before after : List SignalEvent} {e : SignalEvent} {S : Session}

theorem arrivedIn_append (events events' : List SignalEvent) :
    arrivedIn (events ++ events') = arrivedIn events ++ arrivedIn events' :=
  List.filterMap_append

/-- A session was initialised by the last event or before it. -/
theorem split_append (h : events ++ [e] = before ++ .initialised S :: after) :
    (e = .initialised S ∧ before = events ∧ after = []) ∨
      ∃ after', after = after' ++ [e] ∧ events = before ++ .initialised S :: after' := by
  rcases List.eq_nil_or_concat after with rfl | ⟨after', last, rfl⟩
  · obtain ⟨hevents, hlast⟩ := List.append_inj' h rfl
    exact Or.inl ⟨List.singleton_inj.mp hlast, hevents.symm, rfl⟩
  · have hsplit : events ++ [e] = (before ++ .initialised S :: after') ++ [last] := by simpa using h
    obtain ⟨hevents, hlast⟩ := List.append_inj' hsplit rfl
    exact Or.inr ⟨after', by rw [List.singleton_inj.mp hlast]; simp, hevents⟩

theorem split_append_event (hne : e ≠ .initialised S)
    (h : events ++ [e] = before ++ .initialised S :: after) :
    ∃ after', after = after' ++ [e] ∧ events = before ++ .initialised S :: after' :=
  (split_append h).resolve_left fun hlast => hne hlast.1

theorem untilTerminate_append_of_mem (h : SignalEvent.terminated ∈ after)
    (events : List SignalEvent) : untilTerminate (after ++ events) = untilTerminate after := by
  unfold untilTerminate
  induction after with
  | nil => cases h
  | cons x after ih =>
    by_cases hx : x = .terminated
    · simp [hx]
    · have hmem : SignalEvent.terminated ∈ after := by
        rcases List.mem_cons.mp h with h | h
        · exact absurd h.symm hx
        · exact h
      simp only [ne_eq, decide_not] at ih
      simp [hx, ih hmem]

theorem untilTerminate_of_notMem (h : SignalEvent.terminated ∉ after) :
    untilTerminate after = after := by
  refine List.takeWhile_eq_self_iff.mpr fun x hx => ?_
  simp only [ne_eq, decide_not, Bool.not_eq_eq_eq_not, Bool.not_true, decide_eq_false_iff_not]
  rintro rfl
  exact h hx

theorem arrivedIn_untilTerminate_append (after : List SignalEvent)
    (he : ∀ msg, e ≠ .arrived msg) :
    arrivedIn (untilTerminate (after ++ [e])) = arrivedIn (untilTerminate after) := by
  by_cases h : SignalEvent.terminated ∈ after
  · rw [untilTerminate_append_of_mem h]
  · rw [untilTerminate_of_notMem h]
    cases e with
    | arrived msg => exact absurd rfl (he msg)
    | initialised S =>
      rw [untilTerminate_of_notMem (by simp [h]), arrivedIn_append]
      simp [arrivedIn]
    | terminated =>
      have hpre : untilTerminate (after ++ [.terminated]) = after := by
        unfold untilTerminate at *
        rw [List.takeWhile_append_of_pos (by
          intro x hx
          simp only [ne_eq, decide_not, Bool.not_eq_eq_eq_not, Bool.not_true,
            decide_eq_false_iff_not]
          rintro rfl
          exact h hx)]
        simp
      rw [hpre]

theorem handedTo_cons (S : Session) (d : Session × SignalMessage)
    (applied : List (Session × SignalMessage)) :
    handedTo S (d :: applied) =
      if d.1 = S then handedTo S applied ++ [d.2] else handedTo S applied := by
  unfold handedTo
  rw [List.reverse_cons, List.filter_append, List.map_append]
  split
  · next h => simp [h]
  · next h => simp [h]

theorem handedTo_eq_nil {applied : List (Session × SignalMessage)} (h : ∀ d ∈ applied, d.1 ≠ S) :
    handedTo S applied = [] := by
  unfold handedTo
  rw [List.filter_eq_nil_iff.mpr fun d hd => by simpa using h d (List.mem_reverse.mp hd)]
  rfl

/-- What a replay hands to a session. -/
theorem handedTo_replay (S S₀ : Session) (msgs : List SignalMessage)
    (applied : List (Session × SignalMessage)) :
    handedTo S ((msgs.map fun msg => (S₀, msg)).reverse ++ applied) =
      if S₀ = S then handedTo S applied ++ msgs else handedTo S applied := by
  induction msgs using List.reverseRecOn with
  | nil => simp
  | append_singleton msgs msg ih =>
    rw [List.map_append, List.reverse_append, List.append_assoc, List.map_singleton,
      List.reverse_singleton, List.singleton_append, handedTo_cons, ih]
    split
    · rw [List.append_assoc]
    · rfl

end Events

/-! ## What the worker has of a client -/

structure ClientView where
  registered : Option Session
  queue : List SignalMessage
  /-- What any session was handed, newest first. -/
  handed : List (Session × SignalMessage)
  made : List Session
  events : List SignalEvent

/-- Every session of the client was handed what it is due: the newest signals that had waited for
it, and those that arrived until it was terminated. -/
structure InOrder (c : String) (v : ClientView) : Prop where
  handedMade : ∀ d ∈ v.handed, d.1 ∈ v.made
  initialisedMade : ∀ S, .initialised S ∈ v.events → S ∈ v.made ∧ S.id = c
  /-- The registered session is the one initialised and not yet terminated. -/
  current : ∀ S before after, v.events = before ++ .initialised S :: after →
    (.terminated ∉ after ↔ v.registered = some S)
  waiting : v.registered = none →
    v.queue = (arrivedIn (sinceTerminate v.events)).rtake maxPendingMessagesPerSession
  handed : ∀ S before after, v.events = before ++ .initialised S :: after →
    handedTo S v.handed =
      (arrivedIn (sinceTerminate before)).rtake maxPendingMessagesPerSession ++
        arrivedIn (untilTerminate after)

namespace InOrder

variable {c : String} {v : ClientView}

theorem init : InOrder c ⟨none, [], [], [], []⟩ where
  handedMade := by simp
  initialisedMade := by simp
  current := by simp
  waiting _ := rfl
  handed := by simp

/-- A session that was initialised is known. -/
theorem mem_made (h : InOrder c v) {S : Session} {before after : List SignalEvent}
    (he : v.events = before ++ .initialised S :: after) : S ∈ v.made ∧ S.id = c :=
  h.initialisedMade S (by simp [he])

/-- While no session is registered, all that were initialised are terminated. -/
theorem terminated_of_unregistered (h : InOrder c v) (hreg : v.registered = none) {S : Session}
    {before after : List SignalEvent} (he : v.events = before ++ .initialised S :: after) :
    .terminated ∈ after := by
  by_contra hterm
  have hS := (h.current S before after he).mp hterm
  rw [hreg] at hS
  cases hS

/-- A signal is handed to the registered session. -/
theorem hand (h : InOrder c v) {S₀ : Session} {msg : SignalMessage}
    (hreg : v.registered = some S₀) (hmade : S₀ ∈ v.made) :
    InOrder c { v with events := v.events ++ [.arrived msg], handed := (S₀, msg) :: v.handed } where
  handedMade d hd := by
    rcases List.mem_cons.mp hd with rfl | hd
    · exact hmade
    · exact h.handedMade d hd
  initialisedMade S hS := h.initialisedMade S (by simpa using hS)
  current S before after he := by
    obtain ⟨after', rfl, he'⟩ := split_append_event (by simp) he
    have hcur := h.current S before after' he'
    simpa using hcur
  waiting hnone := absurd (hreg.symm.trans hnone) (by simp)
  handed S before after he := by
    obtain ⟨after', rfl, he'⟩ := split_append_event (by simp) he
    have hcur := h.current S before after' he'
    have hold := h.handed S before after' he'
    rw [handedTo_cons]
    by_cases hterm : SignalEvent.terminated ∈ after'
    · -- another session is registered by now
      have hne : S₀ ≠ S := by
        rintro rfl
        exact hcur.mpr hreg hterm
      rw [if_neg hne, hold, untilTerminate_append_of_mem hterm]
    · have hS : S₀ = S := Option.some.inj (hreg.symm.trans (hcur.mp hterm))
      have hterm' : SignalEvent.terminated ∉ after' ++ [.arrived msg] := by simpa using hterm
      rw [if_pos hS, hold, untilTerminate_of_notMem hterm, untilTerminate_of_notMem hterm',
        arrivedIn_append, List.append_assoc]
      rfl

/-- A signal waits while no session is registered. -/
theorem wait (h : InOrder c v) {msg : SignalMessage} (hreg : v.registered = none) :
    InOrder c { v with
      events := v.events ++ [.arrived msg]
      queue := PendingSessionSignals.pushSignal v.queue msg } where
  handedMade := h.handedMade
  initialisedMade S hS := h.initialisedMade S (by simpa using hS)
  current S before after he := by
    obtain ⟨after', rfl, he'⟩ := split_append_event (by simp) he
    have hcur := h.current S before after' he'
    simpa using hcur
  waiting _ := by
    show PendingSessionSignals.pushSignal v.queue msg = _
    have hsince : sinceTerminate (v.events ++ [.arrived msg]) =
        sinceTerminate v.events ++ [.arrived msg] :=
      List.rtakeWhile_concat_pos _ _ _ (by simp)
    rw [h.waiting hreg, PendingSessionSignals.pushSignal_rtake, hsince, arrivedIn_append]
    rfl
  handed S before after he := by
    obtain ⟨after', rfl, he'⟩ := split_append_event (by simp) he
    rw [untilTerminate_append_of_mem (h.terminated_of_unregistered hreg he')]
    exact h.handed S before after' he'

/-- `terminateSession` takes the session out and drops the queue. -/
theorem terminate (h : InOrder c v) :
    InOrder c { v with
      events := v.events ++ [.terminated]
      registered := none
      queue := [] } where
  handedMade := h.handedMade
  initialisedMade S hS := h.initialisedMade S (by simpa using hS)
  current S before after he := by
    obtain ⟨after', rfl, _⟩ := split_append_event (by simp) he
    simp
  waiting _ := by
    have hsince : sinceTerminate (v.events ++ [.terminated]) = [] :=
      List.rtakeWhile_concat_neg _ _ _ (by simp)
    rw [hsince]
    rfl
  handed S before after he := by
    obtain ⟨after', rfl, he'⟩ := split_append_event (by simp) he
    rw [arrivedIn_untilTerminate_append _ (by simp)]
    exact h.handed S before after' he'

/-- A session that is made, whether it is registered or not. -/
theorem make (h : InOrder c v) (S₀ : Session) : InOrder c { v with made := S₀ :: v.made } where
  handedMade d hd := List.mem_cons_of_mem _ (h.handedMade d hd)
  initialisedMade S hS := (h.initialisedMade S hS).imp_left (List.mem_cons_of_mem _)
  current := h.current
  waiting := h.waiting
  handed := h.handed

/-- A new session is registered; without its offer it is not initialised. -/
theorem register (h : InOrder c v) {S₀ : Session} (hreg : v.registered = none)
    (hnew : .initialised S₀ ∉ v.events) : InOrder c { v with registered := some S₀ } where
  handedMade := h.handedMade
  initialisedMade := h.initialisedMade
  current S before after he := by
    have he' : v.events = before ++ .initialised S :: after := he
    have hterm := h.terminated_of_unregistered hreg he'
    have hne : S₀ ≠ S := by
      rintro rfl
      exact hnew (by simp [he'])
    exact ⟨fun hnot => absurd hterm hnot, fun hS => absurd (Option.some.inj hS) hne⟩
  waiting hnone := by cases hnone
  handed := h.handed

/-- A registered session that was handed nothing is initialised and handed what has waited. -/
theorem initialise (h : InOrder c v) {S₀ : Session} (hreg : v.registered = none)
    (hid : S₀.id = c) (hmade : S₀ ∈ v.made) (hnew : .initialised S₀ ∉ v.events)
    (hnone : ∀ d ∈ v.handed, d.1 ≠ S₀) :
    InOrder c { v with
      registered := some S₀
      events := v.events ++ [.initialised S₀]
      queue := []
      handed := (v.queue.map fun msg => (S₀, msg)).reverse ++ v.handed } where
  handedMade d hd := by
    rcases List.mem_append.mp hd with hd | hd
    · obtain ⟨msg, _, rfl⟩ := List.mem_map.mp (List.mem_reverse.mp hd)
      exact hmade
    · exact h.handedMade d hd
  initialisedMade S hS := by
    rcases List.mem_append.mp hS with hS | hS
    · exact h.initialisedMade S hS
    · cases List.mem_singleton.mp hS
      exact ⟨hmade, hid⟩
  current S before after he := by
    rcases split_append he with ⟨hlast, rfl, rfl⟩ | ⟨after', rfl, he'⟩
    · cases hlast
      simp
    · have hterm := h.terminated_of_unregistered hreg he'
      have hne : S₀ ≠ S := by
        rintro rfl
        exact hnew (by simp [he'])
      simp [hterm, hne]
  waiting hnone := by cases hnone
  handed S before after he := by
    rw [handedTo_replay]
    rcases split_append he with ⟨hlast, rfl, rfl⟩ | ⟨after', rfl, he'⟩
    · cases hlast
      have hold : handedTo S₀ v.handed = [] := handedTo_eq_nil hnone
      rw [if_pos rfl, hold, h.waiting hreg]
      simp [untilTerminate, arrivedIn]
    · have hne : S₀ ≠ S := by
        rintro rfl
        exact hnew (by simp [he'])
      rw [if_neg hne, arrivedIn_untilTerminate_append _ (by simp)]
      exact h.handed S before after' he'

/-- What the sessions of other clients are handed does not matter. -/
theorem handOther (h : InOrder c v) {S₀ : Session} {msg : SignalMessage} (hid : S₀.id ≠ c)
    (hmade : S₀ ∈ v.made) : InOrder c { v with handed := (S₀, msg) :: v.handed } where
  handedMade d hd := by
    rcases List.mem_cons.mp hd with rfl | hd
    · exact hmade
    · exact h.handedMade d hd
  initialisedMade := h.initialisedMade
  current := h.current
  waiting := h.waiting
  handed S before after he := by
    have hne : S₀ ≠ S := by
      rintro rfl
      exact hid (h.mem_made he).2
    rw [handedTo_cons, if_neg hne]
    exact h.handed S before after he

end InOrder

/-! ## The handlers -/

/-- The operations that change which sessions there are and what they were handed. -/
def RoomOp.routes : RoomOp → Bool
  | .newSession .. => true
  | .insertSession .. => true
  | .removeSession .. => true
  | .enqueueSignal .. => true
  | .drainSignals .. => true
  | .clearSignals .. => true
  | .applySignal .. => true
  | .sendOffer .. => true
  | _ => false

/-- The view of a client moves with the operations of the router. -/
def viewGhost (c : String) : Prog.Ghost RoomOp RoomOp.Reply ClientView where
  ok v i :=
    match i with
    | .insertSession c' session => session.id = c' ∧ session ∈ v.made
    | .enqueueSignal msg => ∃ c', SignalOf c' msg
    | _ => True
  adm v i :=
    match i with
    | .newSession c' => fun session => session ∉ v.made ∧ session.id = c'
    | .insertSession c' _ => fun inserted => c' = c → inserted = true → v.registered = none
    | .withClientSession c' => fun found =>
      (∀ session, found = some session → session.id = c' ∧ session ∈ v.made) ∧
        (c' = c → found = v.registered)
    | .drainSignals c' => fun pending =>
      (∀ msg ∈ pending, SignalOf c' msg) ∧ (c' = c → pending = v.queue)
    | _ => fun _ => True
  next v i :=
    match i with
    | .newSession _ => fun session => { v with made := session :: v.made }
    | .insertSession c' session => fun inserted =>
      if c' = c ∧ inserted = true then { v with registered := some session } else v
    | .removeSession c' => fun _ => if c' = c then { v with registered := none } else v
    | .enqueueSignal msg => fun _ =>
      if signalClientId msg = some c then
        { v with queue := PendingSessionSignals.pushSignal v.queue msg }
      else v
    | .drainSignals c' => fun _ => if c' = c then { v with queue := [] } else v
    | .clearSignals c' => fun _ => if c' = c then { v with queue := [] } else v
    | .applySignal session msg => fun _ => { v with handed := (session, msg) :: v.handed }
    | .sendOffer session => fun sent =>
      if session.id = c ∧ sent = true then { v with events := v.events ++ [.initialised session] }
      else v
    | _ => fun _ => v

section Handlers

variable {c c' : String} {v : ClientView} {codec : Codec} {msg : SignalMessage}

/-- A program that routes nothing leaves the view as it is. -/
theorem wp_quiet {α : Type} {p : RoomM α} (hp : p.All fun i => i.routes = false)
    {Q : ClientView → α → Prop} (hQ : ∀ a, Q v a) : p.Wp (viewGhost c) Q v := by
  induction p with
  | ret a => exact hQ a
  | op i k ih =>
    have hquiet : i.routes = false := hp.1
    have hok : (viewGhost c).ok v i := by
      cases i <;> trivial
    have hnext : ∀ r, (viewGhost c).next v i r = v := by
      intro r
      cases i <;> first | rfl | cases hquiet
    exact ⟨hok, fun r _ => by rw [hnext r]; exact ih r (hp.2 r)⟩

theorem quiet_reportRelease (released : Bool) :
    (reportRelease released).All fun i => i.routes = false :=
  all_reportRelease rfl fun _ => rfl

theorem quiet_joinRoom (c : String) : (joinRoom c).All fun i => i.routes = false :=
  ⟨rfl, fun _ => ⟨rfl, fun _ => trivial⟩⟩

theorem quiet_bufferOrSendInput (c : String) (payload : Payload) :
    (bufferOrSendInput c payload).All fun i => i.routes = false :=
  all_bufferOrSendInput rfl rfl rfl rfl rfl fun _ => rfl

theorem handleNonInitMessage_signal
    (h : msg.id = SignalIds.answer ∨ msg.id = SignalIds.candidate) :
    handleNonInitMessage codec msg = handleSessionSignal msg := by
  unfold handleNonInitMessage
  rcases h with hid | hid
  · rw [if_pos hid]
    rfl
  · rw [if_neg (by rw [hid]; decide), if_pos hid]
    rfl

/-- A signal with a client and a payload is handed to the session that is found, or waits. -/
theorem wp_handleSessionSignal (h : SignalOf c' msg) {Q : ClientView → Unit → Prop}
    (hhand : ∀ session, session.id = c' → session ∈ v.made →
      (c' = c → v.registered = some session) → Q { v with handed := (session, msg) :: v.handed } ())
    (hwait : (c' = c → v.registered = none) →
      Q (if c' = c then { v with queue := PendingSessionSignals.pushSignal v.queue msg }
        else v) ()) :
    (handleSessionSignal msg).Wp (viewGhost c) Q v := by
  obtain ⟨hid, hclient, hpayload⟩ := h
  obtain ⟨payload, hpayload⟩ := Option.ne_none_iff_exists'.mp hpayload
  unfold handleSessionSignal
  rw [hclient, hpayload]
  refine ⟨trivial, fun found hfound => ?_⟩
  cases found with
  | some session =>
    have hsession := hfound.1 session rfl
    exact ⟨trivial, fun _ _ => hhand session hsession.1 hsession.2 fun hc => (hfound.2 hc).symm⟩
  | none =>
    refine ⟨⟨c', hid, hclient, by simp [hpayload]⟩, fun _ _ => ?_⟩
    have hnext := hwait fun hc => (hfound.2 hc).symm
    show Q (if signalClientId msg = some c then _ else v) ()
    simp only [hclient, Option.some.injEq]
    exact hnext

/-- A signal of the client that arrives. -/
theorem wp_signal (h : SignalOf c msg) (hv : InOrder c v) :
    (handleSessionSignal msg).Wp (viewGhost c) (fun v _ => InOrder c v)
      { v with events := v.events ++ [.arrived msg] } := by
  refine wp_handleSessionSignal h (fun session _ hmade hreg => hv.hand (hreg rfl) hmade) ?_
  intro hreg
  rw [if_pos rfl]
  exact hv.wait (hreg rfl)

theorem wp_signal_other (hne : c' ≠ c) (h : SignalOf c' msg) (hv : InOrder c v) :
    (handleSessionSignal msg).Wp (viewGhost c) (fun v _ => InOrder c v) v := by
  refine wp_handleSessionSignal h (fun session hid hmade _ => ?_) fun _ => ?_
  · exact hv.handOther (fun h => hne (hid.symm.trans h)) hmade
  · rw [if_neg hne]
    exact hv

/-- The registered session is handed the signals that waited, one after the other. -/
theorem wp_replay {pending : List SignalMessage} (hpending : ∀ msg ∈ pending, SignalOf c msg)
    {S₀ : Session} {Q : ClientView → Unit → Prop} (hreg : v.registered = some S₀)
    (hQ : Q { v with handed := (pending.map fun msg => (S₀, msg)).reverse ++ v.handed } ()) :
    (Prog.each pending (handleNonInitMessage codec)).Wp (viewGhost c) Q v := by
  induction pending generalizing v with
  | nil => exact hQ
  | cons msg rest ih =>
    have hmsg := hpending msg List.mem_cons_self
    refine Prog.Wp.bind ?_
    rw [handleNonInitMessage_signal hmsg.1]
    refine wp_handleSessionSignal hmsg (fun session _ _ hsession => ?_) fun hnone => ?_
    · obtain rfl : S₀ = session := Option.some.inj (hreg.symm.trans (hsession rfl))
      refine ih (fun m hm => hpending m (List.mem_cons_of_mem _ hm)) hreg ?_
      simpa using hQ
    · exact absurd (hreg.symm.trans (hnone rfl)) (by simp)

theorem wp_replay_other (hne : c' ≠ c) {pending : List SignalMessage}
    (hpending : ∀ msg ∈ pending, SignalOf c' msg) (hv : InOrder c v) :
    (Prog.each pending (handleNonInitMessage codec)).Wp (viewGhost c)
      (fun v _ => InOrder c v) v := by
  induction pending generalizing v with
  | nil => exact hv
  | cons msg rest ih =>
    have hmsg := hpending msg List.mem_cons_self
    refine Prog.Wp.bind ?_
    rw [handleNonInitMessage_signal hmsg.1]
    refine wp_handleSessionSignal hmsg (fun session hid hmade _ => ?_) fun _ => ?_
    · exact ih (fun m hm => hpending m (List.mem_cons_of_mem _ hm))
        (hv.handOther (fun h => hne (hid.symm.trans h)) hmade)
    · rw [if_neg hne]
      exact ih (fun m hm => hpending m (List.mem_cons_of_mem _ hm)) hv

/-! ### The messages -/

/-- `create_session` makes a new session; the signals of its client that waited are replayed when it
is registered and its offer is sent. -/
theorem wp_handleInitWebrtc (ready : Bool) (hv : InOrder c v) :
    (handleInitWebrtc codec ready msg).Wp (viewGhost c) (fun v _ => InOrder c v) v := by
  unfold handleInitWebrtc
  cases hclient : signalClientId msg with
  | none => exact hv
  | some c' =>
    cases ready with
    | false => exact hv
    | true =>
      refine ⟨trivial, fun session hsession => ⟨⟨hsession.2, List.mem_cons_self⟩, ?_⟩⟩
      have hmade := hv.make session
      intro inserted hinserted
      by_cases hc : c' = c
      · subst hc
        cases inserted with
        | false =>
          show Prog.Wp _ _ _ (if c' = c' ∧ false = true then _ else _)
          rw [if_neg (by simp)]
          exact ⟨trivial, fun _ _ => hmade⟩
        | true =>
          show Prog.Wp _ _ _ (if c' = c' ∧ true = true then _ else _)
          rw [if_pos ⟨rfl, rfl⟩]
          have hreg : v.registered = none := hinserted rfl rfl
          have hnew : .initialised session ∉ v.events := fun hS =>
            hsession.1 (hv.initialisedMade session hS).1
          refine ⟨trivial, fun _ _ => ⟨trivial, fun _ _ => ⟨trivial, fun sent _ => ?_⟩⟩⟩
          cases sent with
          | false =>
            show InOrder c' (if session.id = c' ∧ false = true then _ else _)
            rw [if_neg (by simp)]
            exact hmade.register hreg hnew
          | true =>
            show Prog.Wp _ _ _ (if session.id = c' ∧ true = true then _ else _)
            rw [if_pos ⟨hsession.2, rfl⟩]
            refine ⟨trivial, fun pending hpending => ?_⟩
            obtain rfl : pending = v.queue := hpending.2 rfl
            show Prog.Wp _ _ _ (if c' = c' then _ else _)
            rw [if_pos rfl]
            refine wp_replay hpending.1 rfl ?_
            exact hmade.initialise hreg hsession.2 List.mem_cons_self hnew fun d hd he =>
              hsession.1 (he ▸ hv.handedMade d hd)
      · have hother : session.id ≠ c := fun h => hc (hsession.2.symm.trans h)
        show Prog.Wp _ _ _ (if c' = c ∧ inserted = true then _ else _)
        rw [if_neg fun h => hc h.1]
        cases inserted with
        | false => exact ⟨trivial, fun _ _ => hmade⟩
        | true =>
          refine ⟨trivial, fun _ _ => ⟨trivial, fun _ _ => ⟨trivial, fun sent _ => ?_⟩⟩⟩
          show Prog.Wp _ _ _ (if session.id = c ∧ sent = true then _ else _)
          rw [if_neg fun h => hother h.1]
          cases sent with
          | false => exact hmade
          | true =>
            refine ⟨trivial, fun pending hpending => ?_⟩
            show Prog.Wp _ _ _ (if c' = c then _ else _)
            rw [if_neg hc]
            exact wp_replay_other hc hpending.1 hmade

/-- What `terminateSession` leaves of the client it names. -/
theorem wp_handleTerminateSession (hclient : signalClientId msg = some c')
    {Q : ClientView → Unit → Prop}
    (hQ : Q (if c' = c then { v with registered := none, queue := [] } else v) ()) :
    (handleTerminateSession msg).Wp (viewGhost c) Q v := by
  have hfinal : ∀ removed, (closeRemoved removed).Wp (viewGhost c) Q
      (if c' = c then { v with registered := none, queue := [] } else v) := by
    intro removed
    have hquiet : (closeRemoved removed).All fun i => i.routes = false := by
      refine Prog.All.whenSome fun session => ?_
      exact ⟨rfl, fun _ => trivial⟩
    exact wp_quiet hquiet fun _ => hQ
  unfold handleTerminateSession
  rw [hclient]
  refine ⟨trivial, fun _ _ => ⟨trivial, fun _ _ => ⟨trivial, fun released _ => ?_⟩⟩⟩
  refine Prog.Wp.bind (wp_quiet (quiet_reportRelease released) fun _ => ⟨trivial, ?_⟩)
  intro removed _
  have hremoved : (viewGhost c).next (if c' = c then { v with queue := [] } else v)
      (.removeSession c') removed =
        if c' = c then { v with registered := none, queue := [] } else v := by
    show (if c' = c then _ else _) = _
    by_cases hc : c' = c
    · rw [if_pos hc, if_pos hc, if_pos hc]
    · rw [if_neg hc, if_neg hc, if_neg hc]
  show Prog.Wp _ _ _ ((viewGhost c).next (if c' = c then { v with queue := [] } else v)
      (.removeSession c') removed)
  rw [hremoved]
  cases removed with
  | none => exact hfinal none
  | some session =>
    refine ⟨trivial, fun _ _ => ⟨trivial, fun _ _ => ⟨trivial, fun released _ => ?_⟩⟩⟩
    refine Prog.Wp.bind ?_
    show Prog.Wp _ _ (reportRelease released >>= fun _ => pure (some session)) _
    exact Prog.Wp.bind (wp_quiet (quiet_reportRelease released) fun _ => hfinal (some session))

theorem quiet_handleNonInitMessage (hanswer : msg.id ≠ SignalIds.answer)
    (hcandidate : msg.id ≠ SignalIds.candidate) :
    (handleNonInitMessage codec msg).All fun i => i.routes = false := by
  unfold handleNonInitMessage
  rw [if_neg hanswer, if_neg hcandidate]
  split
  · exact Prog.All.whenSome fun c => (quiet_joinRoom c).bind fun _ => trivial
  split
  · exact Prog.All.whenSome fun c => Prog.All.whenSome fun _ => Prog.All.whenSome fun values =>
      quiet_bufferOrSendInput c values
  · trivial

/-- A message that is no `initwebrtc` and no `terminateSession`. -/
theorem wp_handleNonInitMessage (hterminate : msg.id ≠ SignalIds.terminateSession)
    (hv : InOrder c v) :
    (handleNonInitMessage codec msg).Wp (viewGhost c) (fun v _ => InOrder c v)
      { v with events := v.events ++ receivedEvents c msg } := by
  have hsame : ¬ SignalOf c msg → { v with events := v.events ++ receivedEvents c msg } = v := by
    intro hnot
    rw [receivedEvents, if_neg hnot, if_neg fun h => hterminate h.1, List.append_nil]
  by_cases hid : msg.id = SignalIds.answer ∨ msg.id = SignalIds.candidate
  · rw [handleNonInitMessage_signal hid]
    cases hclient : signalClientId msg with
    | none =>
      have hnot : ¬ SignalOf c msg := fun h => by
        have := h.2.1
        rw [hclient] at this
        cases this
      rw [hsame hnot, handleSessionSignal, hclient]
      exact hv
    | some c' =>
      cases hpayload : signalPayload msg with
      | none =>
        rw [hsame fun h => h.2.2 hpayload, handleSessionSignal, hclient, hpayload]
        exact hv
      | some payload =>
        have hsignal : SignalOf c' msg := ⟨hid, hclient, by simp [hpayload]⟩
        by_cases hc : c' = c
        · subst hc
          rw [receivedEvents, if_pos hsignal]
          exact wp_signal hsignal hv
        · have hnot : ¬ SignalOf c msg := fun h =>
            hc (Option.some.inj (hclient.symm.trans h.2.1))
          rw [hsame hnot]
          exact wp_signal_other hc hsignal hv
  · rw [hsame fun h => hid h.1]
    obtain ⟨hanswer, hcandidate⟩ := not_or.mp hid
    exact wp_quiet (quiet_handleNonInitMessage hanswer hcandidate) fun _ => hv

/-- **Every message keeps the order.** -/
theorem wp_handleMessage (ready : Bool) (hv : InOrder c v) :
    (handleMessage codec ready msg).Wp (viewGhost c) (fun v _ => InOrder c v)
      { v with events := v.events ++ receivedEvents c msg } := by
  unfold handleMessage
  split
  · next hinit =>
    have hnone : receivedEvents c msg = [] := by
      rw [receivedEvents, if_neg fun h => ?_, if_neg fun h => ?_]
      · exact absurd (hinit.symm.trans h.1) (by decide)
      · rcases h.1 with h | h
        · exact absurd (hinit.symm.trans h) (by decide)
        · exact absurd (hinit.symm.trans h) (by decide)
    rw [hnone, List.append_nil]
    exact wp_handleInitWebrtc ready hv
  · split
    · next hterminate =>
      have hnot : ¬ SignalOf c msg := fun h => by
        rcases h.1 with h | h
        · exact absurd (hterminate.symm.trans h) (by decide)
        · exact absurd (hterminate.symm.trans h) (by decide)
      cases hclient : signalClientId msg with
      | none =>
        rw [receivedEvents, if_neg hnot, if_neg (by simp [hclient]), List.append_nil,
          handleTerminateSession, hclient]
        exact hv
      | some c' =>
        refine wp_handleTerminateSession hclient ?_
        by_cases hc : c' = c
        · rw [if_pos hc, receivedEvents, if_neg hnot,
            if_pos ⟨hterminate, hclient.trans (by rw [hc])⟩]
          exact hv.terminate
        · rw [if_neg hc, receivedEvents, if_neg hnot,
            if_neg fun h => hc (Option.some.inj (hclient.symm.trans h.2)), List.append_nil]
          exact hv
    · next hterminate => exact wp_handleNonInitMessage hterminate hv

end Handlers

/-! ## The room and the view -/

def clientView (c : String) (room : RoomState) (log : List SignalEvent) : ClientView where
  registered := room.sessions.lookup c
  queue := room.pendingSignals.queueOf c
  handed := room.appliedSignals
  made := room.created
  events := log.reverse

/-- Sessions are registered under their own client and signals queued under theirs; serial numbers
are not used twice. -/
structure Routed (room : RoomState) : Prop where
  registered : ∀ c S, room.sessions.lookup c = some S → S.id = c ∧ S ∈ room.created
  queued : ∀ c, ∀ msg ∈ room.pendingSignals.queueOf c, SignalOf c msg
  serials : ∀ S ∈ room.created, S.serial < room.created.length

theorem routed_init : Routed RoomState.init where
  registered c S h := by cases h
  queued c msg h := by cases h
  serials S h := by cases h

section Room

variable {description : Session → String} {room room' : RoomState} {c : String}
  {log : List SignalEvent}

theorem perform_quiet {i : RoomOp} {r : i.Reply} (hi : i.routes = false)
    (h : room.perform description i = some (r, room')) :
    room'.sessions = room.sessions ∧ room'.pendingSignals = room.pendingSignals ∧
      room'.appliedSignals = room.appliedSignals ∧ room'.created = room.created := by
  cases i with
  | withClientSession c =>
    obtain ⟨_, rfl⟩ := RoomState.perform_withClientSession h
    exact ⟨rfl, rfl, rfl, rfl⟩
  | assignPlayerSlot c =>
    obtain ⟨_, rfl⟩ := RoomState.perform_assignPlayerSlot h
    exact ⟨rfl, rfl, rfl, rfl⟩
  | sendInput event =>
    obtain ⟨_, rfl⟩ := RoomState.perform_sendInput h
    exact ⟨rfl, rfl, rfl, rfl⟩
  | updateInput player data =>
    obtain ⟨_, rfl⟩ := RoomState.perform_updateInput h
    exact ⟨rfl, rfl, rfl, rfl⟩
  | newSession c => cases hi
  | insertSession c session => cases hi
  | removeSession c => cases hi
  | enqueueSignal msg => cases hi
  | drainSignals c => cases hi
  | clearSignals c => cases hi
  | applySignal session msg => cases hi
  | sendOffer session => cases hi
  | _ => cases h; exact ⟨rfl, rfl, rfl, rfl⟩

/-- The view and soundness depend on what is routed only. -/
theorem clientView_congr (c : String) (log : List SignalEvent) (hs : room'.sessions = room.sessions)
    (hp : room'.pendingSignals = room.pendingSignals)
    (ha : room'.appliedSignals = room.appliedSignals) (hc : room'.created = room.created) :
    clientView c room' log = clientView c room log ∧ (Routed room → Routed room') := by
  constructor
  · simp only [clientView, hs, hp, ha, hc]
  · rintro ⟨h1, h2, h3⟩
    exact ⟨by rw [hs, hc]; exact h1, by rw [hp]; exact h2, by rw [hc]; exact h3⟩

theorem Routed.remove (h : Routed room) (c : String) :
    Routed { room with sessions := room.sessions.erase c } where
  registered c' S hS := by
    have hS' : (room.sessions.erase c).lookup c' = some S := hS
    rw [HashMap.lookup_erase_eq_ite] at hS'
    split at hS'
    · cases hS'
    · exact h.registered c' S hS'
  queued := h.queued
  serials := h.serials

theorem Routed.dropQueue (h : Routed room) (c : String) :
    Routed { room with pendingSignals := ⟨room.pendingSignals.byClient.erase c⟩ } where
  registered := h.registered
  queued c' msg hm := by
    have hm' : msg ∈ (⟨room.pendingSignals.byClient.erase c⟩ : PendingSessionSignals).queueOf c' :=
      hm
    rw [PendingSessionSignals.queueOf_erase] at hm'
    split at hm'
    · cases hm'
    · exact h.queued c' msg hm'
  serials := h.serials

theorem clientView_dropQueue (c c' : String) (room : RoomState) (log : List SignalEvent) :
    clientView c { room with pendingSignals := ⟨room.pendingSignals.byClient.erase c'⟩ } log =
      if c' = c then { clientView c room log with queue := [] } else clientView c room log := by
  simp only [clientView, PendingSessionSignals.queueOf_erase]
  by_cases hc : c' = c
  · rw [if_pos hc.symm, if_pos hc]
  · rw [if_neg (Ne.symm hc), if_neg hc]

/-- What an operation does to the view of a client, when the router performs it. -/
theorem view_perform (hroom : Routed room) {i : RoomOp} {r : i.Reply}
    (hok : (viewGhost c).ok (clientView c room log) i)
    (hkeeps : ∀ c' ∈ i.queuesFor, c' ∈ room.pendingSignals.byClient ∨
      room.pendingSignals.byClient.entries.length < maxPendingSessions)
    (h : room.perform description i = some (r, room')) :
    Routed room' ∧ (viewGhost c).adm (clientView c room log) i r ∧
      clientView c room' (offerEvents c room i ++ log) =
        (viewGhost c).next (clientView c room log) i r := by
  cases i with
  | newSession c' =>
    cases h
    refine ⟨⟨fun c S hS => ?_, hroom.queued, fun S hS => ?_⟩, ⟨fun hmem => ?_, rfl⟩, rfl⟩
    · exact (hroom.registered c S hS).imp_right (List.mem_cons_of_mem _)
    · rcases List.mem_cons.mp hS with rfl | hS
      · exact Nat.lt_succ_self _
      · exact Nat.lt_succ_of_lt (hroom.serials S hS)
    · exact Nat.lt_irrefl _ (hroom.serials _ hmem)
  | insertSession c' session =>
    obtain ⟨rfl, hmade⟩ := hok
    simp only [RoomState.perform] at h
    split at h
    · cases h
    split at h
    · cases h
      refine ⟨hroom, fun _ hfalse => ?_, (if_neg (by simp)).symm⟩
      cases hfalse
    · next hfree =>
      cases h
      refine ⟨⟨fun c₁ S hS => ?_, hroom.queued, hroom.serials⟩, ?_, ?_⟩
      · have hS' : (room.sessions.insert session.id session).lookup c₁ = some S := hS
        rw [HashMap.lookup_insert_eq_ite] at hS'
        split at hS'
        · next he =>
          cases hS'
          exact ⟨he.symm, hmade⟩
        · exact hroom.registered c₁ S hS'
      · rintro rfl _
        exact AList.lookup_eq_none.mpr hfree
      · show clientView c _ log = if session.id = c ∧ true = true then _ else _
        unfold clientView
        by_cases hc : session.id = c
        · rw [if_pos ⟨hc, rfl⟩, HashMap.lookup_insert_eq_ite, if_pos hc.symm]
        · rw [if_neg fun h => hc h.1, HashMap.lookup_insert_eq_ite, if_neg (Ne.symm hc)]
  | removeSession c' =>
    obtain ⟨rfl, rfl⟩ := RoomState.perform_removeSession h
    refine ⟨hroom.remove c', trivial, ?_⟩
    show clientView c _ log = if c' = c then _ else _
    unfold clientView
    rw [HashMap.lookup_erase_eq_ite]
    split
    · next hc => rw [if_pos hc.symm]
    · next hc => rw [if_neg fun h => hc h.symm]
  | enqueueSignal msg =>
    obtain ⟨c', hsignal⟩ := hok
    have hqueue := PendingSessionSignals.queueOf_enqueue hsignal.2.1 (hkeeps c' hsignal.2.1)
    cases h
    refine ⟨⟨hroom.registered, fun c₁ m hm => ?_, hroom.serials⟩, trivial, ?_⟩
    · have hm' : m ∈ (room.pendingSignals.enqueue msg).queueOf c₁ := hm
      rw [hqueue] at hm'
      split at hm'
      · next he =>
        subst he
        rcases PendingSessionSignals.mem_pushSignal hm' with rfl | hm'
        · exact hsignal
        · exact hroom.queued c₁ m hm'
      · exact hroom.queued c₁ m hm'
    · show clientView c _ log = if signalClientId msg = some c then _ else _
      unfold clientView
      rw [hqueue, hsignal.2.1]
      by_cases hc : c' = c
      · subst hc
        rw [if_pos rfl, if_pos rfl]
      · rw [if_neg (Ne.symm hc), if_neg fun h => hc (Option.some.inj h)]
  | drainSignals c' =>
    cases h
    refine ⟨hroom.dropQueue c', ⟨hroom.queued c', ?_⟩, ?_⟩
    · rintro rfl
      rfl
    · exact clientView_dropQueue c c' room log
  | clearSignals c' =>
    cases h
    exact ⟨hroom.dropQueue c', trivial, clientView_dropQueue c c' room log⟩
  | applySignal session msg =>
    cases h
    exact ⟨⟨hroom.registered, hroom.queued, hroom.serials⟩, trivial, rfl⟩
  | sendOffer session =>
    cases h
    refine ⟨⟨hroom.registered, hroom.queued, hroom.serials⟩, trivial, ?_⟩
    show clientView c _ ((if _ then _ else _) ++ log) =
      if session.id = c ∧ (!room.outboundClosed) = true then _ else _
    simp only [Bool.not_eq_true']
    split
    · simp [clientView, RoomState.sendOffer]
    · rfl
  | withClientSession c' =>
    obtain ⟨rfl, rfl⟩ := RoomState.perform_withClientSession h
    refine ⟨hroom, ⟨hroom.registered c', ?_⟩, rfl⟩
    rintro rfl
    rfl
  | _ =>
    obtain ⟨hs, hp, ha, hc⟩ := perform_quiet rfl h
    obtain ⟨hview, hrouted⟩ := clientView_congr c log hs hp ha hc
    exact ⟨hrouted hroom, trivial, hview⟩

end Room

/-! ## The tasks -/

/-- A task other than the router routes nothing, but may take a session out. -/
def Bystander (prog : RoomM Unit) : Prop :=
  prog.All fun i => i.routes = false ∨ ∃ c, i = .removeSession c

theorem bystander_of_quiet {prog : RoomM Unit} (h : prog.All fun i => i.routes = false) :
    Bystander prog := h.mono fun _ hi => Or.inl hi

theorem bystander_unregister {c : String} {rest : Option Session → RoomM Unit}
    (hrest : ∀ removed, Bystander (rest removed)) :
    Bystander (unregisterClientSession c >>= rest) := by
  refine ⟨Or.inr ⟨c, rfl⟩, fun removed => ?_⟩
  cases removed with
  | none => exact hrest none
  | some session =>
    refine ⟨Or.inl rfl, fun _ => ⟨Or.inl rfl, fun _ => ⟨Or.inl rfl, fun released => ?_⟩⟩⟩
    cases released with
    | false => exact hrest (some session)
    | true => exact ⟨Or.inl rfl, fun _ => ⟨Or.inl rfl, fun _ => hrest (some session)⟩⟩

theorem Starts.bystander {codec : Codec} {w w' : WorkerState} {a : WorkerAction} {id : TaskId}
    {prog : RoomM Unit} (h : Starts codec w a id prog w') (hid : id ≠ .router) :
    Bystander prog := by
  cases h with
  | receive msg ready => exact absurd rfl hid
  | peerState session n state hcreated hclosed =>
    unfold onPeerStateChange
    split
    · refine bystander_unregister fun removed => Prog.All.whenSome fun session => ?_
      exact ⟨Or.inl rfl, fun _ => trivial⟩
    · trivial
  | inputMessage session n data hcreated =>
    unfold onInputMessage
    split
    · exact bystander_of_quiet (quiet_bufferOrSendInput session.id data)
    · trivial
  | videoEnds session writeFailed hcreated hended hleaves =>
    exact ⟨Or.inl rfl, fun _ => bystander_unregister fun _ => ⟨Or.inl rfl, fun _ => trivial⟩⟩
  | poll input rest h =>
    refine ⟨Or.inl rfl, fun slot => ?_⟩
    cases slot with
    | none => exact ⟨Or.inl rfl, fun _ => trivial⟩
    | some player => exact ⟨Or.inl rfl, fun _ => trivial⟩

/-- What a run keeps: the router restores the order by the end of its message. -/
structure Routing (c : String) (w : WorkerState) (log : List SignalEvent) : Prop where
  room : Routed w.room
  router : (w.tasks .router).Wp (viewGhost c) (fun v _ => InOrder c v) (clientView c w.room log)
  others : ∀ id, id ≠ .router → Bystander (w.tasks id)

theorem routing_init (c : String) : Routing c WorkerState.init [] :=
  ⟨routed_init, InOrder.init, fun _ _ => trivial⟩

/-- An action that changes nothing that is routed. -/
theorem Routing.frame {c : String} {w : WorkerState} {log : List SignalEvent}
    (h : Routing c w log) {room : RoomState} (hs : room.sessions = w.room.sessions)
    (hqueue : ∀ c, room.pendingSignals.queueOf c = w.room.pendingSignals.queueOf c)
    (ha : room.appliedSignals = w.room.appliedSignals) (hc : room.created = w.room.created) :
    Routing c { w with room := room } log where
  room := ⟨by rw [hs, hc]; exact h.room.registered,
    fun c msg hm => h.room.queued c msg (by rwa [hqueue] at hm),
    by rw [hc]; exact h.room.serials⟩
  router := by
    have hview : clientView c room log = clientView c w.room log := by
      simp only [clientView, hs, hqueue, ha, hc]
    exact hview ▸ h.router
  others := h.others

theorem signalEvents_run_other (c : String) (w : WorkerState) {id : TaskId} (h : id ≠ .router) :
    signalEvents c w (.run id) = [] := by
  cases id with
  | router => exact absurd rfl h
  | _ => rfl

theorem receivedEvents_reverse (c : String) (msg : SignalMessage) :
    (receivedEvents c msg).reverse = receivedEvents c msg := by
  unfold receivedEvents
  split
  · rfl
  · split <;> rfl

section Steps

variable {codec : Codec} {c : String} {w w' : WorkerState} {log : List SignalEvent}

theorem Routing.start (hi : Routing c w log) {a : WorkerAction} {id : TaskId} {prog : RoomM Unit}
    (h : Starts codec w a id prog w') (hidle : w.tasks id = .ret ()) :
    Routing c (w'.setTask id prog) (signalEvents c w a ++ log) := by
  by_cases hid : id = .router
  · cases h with
    | receive msg ready =>
      have hdone : InOrder c (clientView c w.room log) := by
        have hrouter := hi.router
        rw [hidle] at hrouter
        exact hrouter
      have hview : clientView c w.room (receivedEvents c msg ++ log) =
          { clientView c w.room log with
            events := (clientView c w.room log).events ++ receivedEvents c msg } := by
        simp only [clientView, List.reverse_append, receivedEvents_reverse]
      refine ⟨hi.room, ?_, fun id' hid' => ?_⟩
      · show ((WorkerState.setTask _ .router _).tasks .router).Wp _ _
          (clientView c w.room (receivedEvents c msg ++ log))
        rw [hview]
        simp only [WorkerState.setTask, Function.update_self]
        exact wp_handleMessage ready hdone
      · simp only [WorkerState.setTask, Function.update_of_ne hid']
        exact hi.others id' hid'
    | peerState session n state hcreated hclosed => cases hid
    | inputMessage session n data hcreated => cases hid
    | videoEnds session writeFailed hcreated hended hleaves => cases hid
    | poll input rest h => cases hid
  · have hframe : Routing c w' log ∧ w'.tasks = w.tasks := by
      cases h with
      | receive msg ready => exact absurd rfl hid
      | peerState session n state hcreated hclosed => exact ⟨hi, rfl⟩
      | inputMessage session n data hcreated => exact ⟨hi, rfl⟩
      | videoEnds session writeFailed hcreated hended hleaves =>
        exact ⟨⟨hi.room, hi.router, hi.others⟩, rfl⟩
      | poll input rest h => exact ⟨hi.frame rfl (fun _ => rfl) rfl rfl, rfl⟩
    have hnone : signalEvents c w a = [] := by
      cases h with
      | receive msg ready => exact absurd rfl hid
      | _ => rfl
    rw [hnone]
    refine ⟨hframe.1.room, ?_, fun id' hid' => ?_⟩
    · simp only [WorkerState.setTask, Function.update_of_ne (Ne.symm hid)]
      exact hframe.1.router
    · show Bystander (Function.update w'.tasks id prog id')
      by_cases he : id' = id
      · rw [he, Function.update_self]
        exact h.bystander hid
      · rw [Function.update_of_ne he]
        exact hframe.1.others id' hid'

variable {i : RoomOp} {k : i.Reply → RoomM Unit} {r : i.Reply} {room : RoomState}

/-- The router performs an operation. -/
theorem Routing.route (hi : Routing c w log) (hkeeps : KeepsQueues w (.run .router))
    (hprog : w.tasks .router = .op i k)
    (hperform : w.room.perform codec.description i = some (r, room)) :
    Routing c (w.performed .router (k r) room) (offerEvents c w.room i ++ log) := by
  have hrouter := hi.router
  rw [hprog] at hrouter
  obtain ⟨hok, hrest⟩ := hrouter
  have hroom : ∀ c' ∈ i.queuesFor, c' ∈ w.room.pendingSignals.byClient ∨
      w.room.pendingSignals.byClient.entries.length < maxPendingSessions := by
    intro c' hc'
    refine hkeeps c' ?_
    rw [hprog]
    exact hc'
  obtain ⟨hrouted, hadm, hview⟩ := view_perform hi.room hok hroom hperform
  refine ⟨hrouted, ?_, fun id hid => ?_⟩
  · rw [tasks_performed, if_pos rfl]
    show (k r).Wp _ _ (clientView c room (offerEvents c w.room i ++ log))
    rw [hview]
    exact hrest r hadm
  · rw [tasks_performed, if_neg hid]
    exact hi.others id hid

/-- Another task performs an operation, which takes out no session of the client. -/
theorem Routing.stand (hi : Routing c w log) {id : TaskId} (hid : id ≠ .router)
    (hends : EndsByTerminate c w (.run id)) (hprog : w.tasks id = .op i k)
    (hperform : w.room.perform codec.description i = some (r, room)) :
    Routing c (w.performed id (k r) room) log := by
  have hby := hi.others id hid
  rw [hprog] at hby
  have hroom : Routed room ∧ clientView c room log = clientView c w.room log := by
    rcases hby.1 with hquiet | ⟨c', rfl⟩
    · obtain ⟨hs, hp, ha, hc⟩ := perform_quiet hquiet hperform
      obtain ⟨hview, hrouted⟩ := clientView_congr c log hs hp ha hc
      exact ⟨hrouted hi.room, hview⟩
    · obtain ⟨_, rfl⟩ := RoomState.perform_removeSession hperform
      refine ⟨hi.room.remove c', ?_⟩
      have hsame : (w.room.sessions.erase c').lookup c = w.room.sessions.lookup c := by
        rw [HashMap.lookup_erase_eq_ite]
        split
        · next hc =>
          subst hc
          rcases hends with h | h | h
          · exact absurd h hid
          · rw [hprog] at h
            exact absurd rfl h
          · exact h.symm
        · rfl
      simp only [clientView, hsame]
  refine ⟨hroom.1, ?_, fun id' hid' => ?_⟩
  · rw [tasks_performed, if_neg (Ne.symm hid)]
    exact hroom.2 ▸ hi.router
  · rw [tasks_performed]
    split
    · exact hby.2 r
    · exact hi.others id' hid'

theorem routing_step {s s' : WorkerState × List SignalEvent} {a : WorkerAction}
    (hi : Routing c s.1 s.2) (hok : EndsByTerminate c s.1 a ∧ KeepsQueues s.1 a)
    (hs : logged (WorkerState.step codec) (signalEvents c) s a = some s') :
    Routing c s'.1 s'.2 := by
  obtain ⟨w, log⟩ := s
  obtain ⟨w', log'⟩ := s'
  obtain ⟨hstep, hlog⟩ := withGhost_eq_some hs
  simp only at hi hok hstep hlog
  subst hlog
  cases step_cases hstep with
  | start id prog w₁ h hidle => exact hi.start h hidle
  | run id i k r room hprog hperform =>
    by_cases hid : id = .router
    · subst hid
      have hevents : signalEvents c w (.run .router) = offerEvents c w.room i := by
        simp only [signalEvents, hprog, Prog.head]
      rw [hevents]
      exact hi.route hok.2 hprog hperform
    · rw [signalEvents_run_other c w hid]
      exact hi.stand hid hok.1 hprog hperform
  | emulatorFails hidle => exact hi.frame rfl (fun _ => rfl) rfl rfl
  | outboundCloses => exact hi.frame rfl (fun _ => rfl) rfl rfl
  | rehash pendingSignals h =>
    exact hi.frame rfl (PendingSessionSignals.queueOf_rehashed h) rfl rfl

end Steps

/-! ## The bounds -/

theorem bounded_perform {description : Session → String} {room room' : RoomState} {i : RoomOp}
    {r : i.Reply} (hb : room.pendingSignals.Bounded)
    (h : room.perform description i = some (r, room')) : room'.pendingSignals.Bounded := by
  cases i with
  | enqueueSignal msg =>
    cases h
    exact hb.enqueue msg
  | drainSignals c =>
    cases h
    exact hb.erase c
  | clearSignals c =>
    cases h
    exact hb.erase c
  | newSession c =>
    cases h
    exact hb
  | insertSession c session =>
    rcases RoomState.perform_insertSession h with rfl | rfl
    · exact hb
    · exact hb
  | removeSession c =>
    obtain ⟨_, rfl⟩ := RoomState.perform_removeSession h
    exact hb
  | applySignal session msg =>
    cases h
    exact hb
  | sendOffer session =>
    cases h
    exact hb
  | _ =>
    obtain ⟨_, hp, _⟩ := perform_quiet rfl h
    rw [hp]
    exact hb

theorem bounded_run {codec : Codec} {as : List WorkerAction} {w : WorkerState}
    (h : Run (WorkerState.step codec) WorkerState.init as w) : w.room.pendingSignals.Bounded := by
  refine h.invariant (I := fun w => w.room.pendingSignals.Bounded)
    PendingSessionSignals.bounded_empty ?_
  intro w a w' hb _ hs
  cases step_cases hs with
  | start id prog w₁ h hidle => cases h <;> exact hb
  | run id i k r room hprog hperform => exact bounded_perform hb hperform
  | emulatorFails hidle => exact hb
  | outboundCloses => exact hb
  | rehash pendingSignals h => exact hb.rehashed h

/-! ## The result -/

/-- **Early signals.**  In every run at most 512 clients have signals queued, and each at most 32.
When the sessions of a client end by `terminateSession` only and no queue is evicted, a session of
it that was initialised has been handed, once the router is between two messages, the newest 32
signals that had arrived since the `terminateSession` before it, and then all that arrived until the
one after it. -/
theorem early_signals (codec : Codec) :
    (∀ as w, Run (WorkerState.step codec) WorkerState.init as w →
      w.room.pendingSignals.Bounded) ∧
    ∀ c as w log,
      RunWhen (fun s a => EndsByTerminate c s.1 a ∧ KeepsQueues s.1 a)
        (logged (WorkerState.step codec) (signalEvents c)) (WorkerState.init, []) as (w, log) →
      (w.tasks .router).isDone = true →
      ∀ S before after, log.reverse = before ++ .initialised S :: after →
        handedTo S w.room.appliedSignals =
          (arrivedIn (sinceTerminate before)).rtake maxPendingMessagesPerSession ++
            arrivedIn (untilTerminate after) := by
  refine ⟨fun as w h => bounded_run h, fun c as w log h hdone S before after hsplit => ?_⟩
  have hrouting : Routing c w log :=
    h.invariant (I := fun s => Routing c s.1 s.2) (routing_init c) fun _ _ _ hi hok hs =>
      routing_step hi hok hs
  have horder : InOrder c (clientView c w.room log) := by
    have hrouter := hrouting.router
    rw [Prog.eq_ret_of_isDone hdone] at hrouter
    exact hrouter
  exact horder.handed S before after hsplit

/-- A candidate waits for the session and another one finds it. -/
theorem early_signals_replayed :
    ∃ w log, RunWhen (fun s a => EndsByTerminate "c" s.1 a ∧ KeepsQueues s.1 a)
        (logged (WorkerState.step plainCodec) (signalEvents "c")) (WorkerState.init, [])
        (.receive ⟨SignalIds.candidate, some "early", some "c"⟩ true :: runs .router 2 ++
          .receive ⟨SignalIds.initWebrtc, none, some "c"⟩ true :: runs .router 8 ++
          .receive ⟨SignalIds.candidate, some "late", some "c"⟩ true :: runs .router 2) (w, log) ∧
      handedTo ⟨"c", 0⟩ w.room.appliedSignals =
        (arrivedIn (sinceTerminate
            [.arrived ⟨SignalIds.candidate, some "early", some "c"⟩])).rtake
            maxPendingMessagesPerSession ++
          arrivedIn (untilTerminate [.arrived ⟨SignalIds.candidate, some "late", some "c"⟩]) ∧
      (handedTo ⟨"c", 0⟩ w.room.appliedSignals).map SignalMessage.data =
        [some "early", some "late"] := by
  have hrun : ∃ s, RunWhen (fun s a => EndsByTerminate "c" s.1 a ∧ KeepsQueues s.1 a)
        (logged (WorkerState.step plainCodec) (signalEvents "c")) (WorkerState.init, [])
        (.receive ⟨SignalIds.candidate, some "early", some "c"⟩ true :: runs .router 2 ++
          .receive ⟨SignalIds.initWebrtc, none, some "c"⟩ true :: runs .router 8 ++
          .receive ⟨SignalIds.candidate, some "late", some "c"⟩ true :: runs .router 2) s ∧
      (s.1.tasks .router).isDone = true ∧
      s.2.reverse = [.arrived ⟨SignalIds.candidate, some "early", some "c"⟩] ++
        .initialised ⟨"c", 0⟩ :: [.arrived ⟨SignalIds.candidate, some "late", some "c"⟩] ∧
      (handedTo ⟨"c", 0⟩ s.1.room.appliedSignals).map SignalMessage.data =
        [some "early", some "late"] := execWhen_any (by decide +kernel)
  obtain ⟨⟨w, log⟩, hrun, hdone, hlog, hdata⟩ := hrun
  exact ⟨w, log, hrun, (early_signals plainCodec).2 "c" _ w log hrun hdone _ _ _ hlog, hdata⟩

end CloudGame.Worker
