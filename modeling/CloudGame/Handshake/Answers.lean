import CloudGame.Handshake.Parties

/-!
# Answers and sessions

An offer that is still on its way when the portal disposes a runtime and starts the next reaches
the new runtime, which answers it, and the worker hands that answer to the new session
(`answer_crosses`).  `Timely` is the condition under which this does not happen: a runtime sends an
answer only while no `initwebrtc` was sent after the one its offer was made for.  Then every answer
is applied to the session it was computed for (`answers_match`).

The proof follows the messages in flight.  A party's `Phase` is the last `initwebrtc` it has seen
and whether a `terminateSession` came after it; each queue, read in order, leads from the phase of
its reader to that of its writer (`portalReads`, `workerReads`).
-/

namespace CloudGame.Handshake

open CloudGame.Lib

/-- An answer is sent only while its session's `initwebrtc` is the last one sent. -/
def Timely (s : Exchange) : ExchangeAction → Prop
  | .answer => ∀ runtime ∈ s.live, ∀ offer ∈ runtime.handling, offer = s.inits
  | .answerLate index => ∀ offer ∈ s.outlived[index]?, offer = s.inits
  | _ => True

instance (s : Exchange) (a : ExchangeAction) : Decidable (Timely s a) :=
  match a with
  | .answer =>
    inferInstanceAs (Decidable (∀ runtime ∈ s.live, ∀ offer ∈ runtime.handling, offer = s.inits))
  | .answerLate index => inferInstanceAs (Decidable (∀ offer ∈ s.outlived[index]?, offer = s.inits))
  | .start => isTrue trivial
  | .dispose => isTrue trivial
  | .receive => isTrue trivial
  | .handle => isTrue trivial
  | .fail => isTrue trivial
  | .relay => isTrue trivial
  | .work _ _ => isTrue trivial
  | .loseSession => isTrue trivial
  | .dropPending _ => isTrue trivial

/-! ## Phases -/

structure Phase where
  inits : Nat
  active : Bool
deriving DecidableEq

/-- What the portal may send in a phase, and the phase then. -/
def portalReads (p : Phase) : Signal → Option Phase
  | .initWebrtc number =>
    if p.active = false ∧ number = p.inits + 1 then some ⟨number, true⟩ else none
  | .terminateSession => some ⟨p.inits, false⟩
  | .answer session => if session = p.inits then some p else none

/-- What the server may pass on: as the portal sends, but only while the client is bound. -/
def workerReads (p : Phase) : Signal → Option Phase
  | .initWebrtc number =>
    if p.active = false ∧ number = p.inits + 1 then some ⟨number, true⟩ else none
  | .terminateSession => if p.active then some ⟨p.inits, false⟩ else none
  | .answer session => if p.active ∧ session = p.inits then some p else none

/-- Where the worker stands after the messages that led it to phase `p`. -/
structure WorkerAt (s : Exchange) (p : Phase) : Prop where
  registered : ∀ session, s.registered = some session → session = p.inits ∧ p.active = true
  pending : p.active = false → s.pendingSignals = []
  replaying : s.replaying = []
  applied : ∀ call ∈ s.applied, call.1 = call.2

/-- The queues lead from the worker over the server to the portal. -/
def InOrder (s : Exchange) : Prop :=
  ∃ worker server : Phase, WorkerAt s worker ∧ s.toWorker.foldlM workerReads worker = some server ∧
    s.bound = server.active ∧ s.toServer.foldlM portalReads server = some ⟨s.inits, s.live.isSome⟩

theorem foldlM_append_single {reads : Phase → Signal → Option Phase} {p q r : Phase}
    {msgs : List Signal} {msg : Signal} (h : msgs.foldlM reads p = some q)
    (hmsg : reads q msg = some r) : (msgs ++ [msg]).foldlM reads p = some r := by
  rw [List.foldlM_append, h]
  show (reads q msg >>= fun q' => pure q') = some r
  rw [hmsg]
  rfl

section Steps

variable {s s' : Exchange}

/-- What the portal sends fits its phase, and leaves it in the phase it is in then. -/
theorem inOrder_send (hi : InOrder s) {msg : Signal} {inits : Nat} {live : Option Runtime}
    {outlived : List Nat}
    (hmsg : portalReads ⟨s.inits, s.live.isSome⟩ msg = some ⟨inits, live.isSome⟩) :
    InOrder ({ s with inits := inits, live := live, outlived := outlived }.sendSignal msg) := by
  obtain ⟨worker, server, hworker, htoWorker, hbound, htoServer⟩ := hi
  exact ⟨worker, server, ⟨hworker.registered, hworker.pending, hworker.replaying, hworker.applied⟩,
    htoWorker, hbound, foldlM_append_single htoServer hmsg⟩

/-- Steps of the portal that send nothing. -/
theorem inOrder_portal (hi : InOrder s) {live : Option Runtime} {toPortal : List Nat}
    (hlive : live.isSome = s.live.isSome) :
    InOrder { s with live := live, toPortal := toPortal } := by
  obtain ⟨worker, server, hworker, htoWorker, hbound, htoServer⟩ := hi
  refine ⟨worker, server, ⟨hworker.registered, hworker.pending, hworker.replaying, hworker.applied⟩,
    htoWorker, hbound, ?_⟩
  show s.toServer.foldlM portalReads server = some ⟨s.inits, live.isSome⟩
  rw [hlive]
  exact htoServer

/-- The server passes on what the worker may read in the phase the client is bound in. -/
theorem inOrder_relay (hi : InOrder s) (hs : s.relay = some s') : InOrder s' := by
  obtain ⟨worker, server, hworker, htoWorker, hbound, htoServer⟩ := hi
  unfold Exchange.relay at hs
  split at hs
  · cases hs
  · next number rest hq =>
    cases hs
    rw [hq, List.foldlM_cons] at htoServer
    obtain ⟨server', hreads, hrest⟩ := Option.bind_eq_some_iff.mp htoServer
    have hactive : server'.active = true := by
      simp only [portalReads] at hreads
      split at hreads
      · cases hreads; rfl
      · cases hreads
    exact ⟨worker, server', ⟨hworker.registered, hworker.pending, hworker.replaying,
      hworker.applied⟩, foldlM_append_single htoWorker hreads, hactive.symm, hrest⟩
  · next rest hq =>
    cases hs
    rw [hq, List.foldlM_cons] at htoServer
    obtain ⟨server', hreads, hrest⟩ := Option.bind_eq_some_iff.mp htoServer
    cases hreads
    refine ⟨worker, ⟨server.inits, false⟩, ⟨hworker.registered, hworker.pending, hworker.replaying,
      hworker.applied⟩, ?_, rfl, hrest⟩
    show List.foldlM workerReads worker (if s.bound then _ else _) = _
    rw [hbound]
    cases hactive : server.active with
    | true => exact foldlM_append_single htoWorker (by simp [workerReads, hactive])
    | false =>
      have he : server = ⟨server.inits, false⟩ := by rw [← hactive]
      rw [← he]
      exact htoWorker
  · next session rest hq =>
    cases hs
    rw [hq, List.foldlM_cons] at htoServer
    obtain ⟨server', hreads, hrest⟩ := Option.bind_eq_some_iff.mp htoServer
    simp only [portalReads] at hreads
    split at hreads
    · next hsession =>
      cases hreads
      refine ⟨worker, server, ⟨hworker.registered, hworker.pending, hworker.replaying,
        hworker.applied⟩, ?_, hbound, hrest⟩
      show List.foldlM workerReads worker (if s.bound then _ else _) = _
      rw [hbound]
      cases hactive : server.active with
      | true => exact foldlM_append_single htoWorker (by simp [workerReads, hactive, hsession])
      | false => exact htoWorker
    · cases hreads

/-- The worker after the message that leads it from phase `p` to phase `q`. -/
theorem workerAt_handleMessage {p q : Phase} {ready succeeds : Bool} {msg : Signal}
    (h : WorkerAt s p) (hreads : workerReads p msg = some q) :
    WorkerAt (s.handleMessage ready succeeds msg) q := by
  cases msg with
  | initWebrtc number =>
    simp only [workerReads] at hreads
    split at hreads
    · next hp =>
      cases hreads
      have hnone : s.registered = none := by
        cases hr : s.registered with
        | none => rfl
        | some session =>
          have := (h.registered session hr).2
          rw [hp.1] at this
          cases this
      show WorkerAt (s.handleInitWebrtc ready number) _
      unfold Exchange.handleInitWebrtc
      rw [hnone]
      cases ready with
      | true =>
        exact ⟨fun session hs => ⟨(Option.some.inj hs).symm, rfl⟩, nofun, h.pending hp.1, h.applied⟩
      | false =>
        have hkeep : ∀ session, s.registered = some session → session = number ∧ true = true := by
          intro session hs
          rw [hnone] at hs
          cases hs
        exact ⟨hkeep, nofun, h.replaying, h.applied⟩
    · cases hreads
  | terminateSession =>
    simp only [workerReads] at hreads
    split at hreads
    · cases hreads
      exact ⟨nofun, fun _ => rfl, h.replaying, h.applied⟩
    · cases hreads
  | answer offered =>
    simp only [workerReads] at hreads
    split at hreads
    · next hp =>
      cases hreads
      show WorkerAt (s.handleAnswer succeeds offered) _
      unfold Exchange.handleAnswer
      split
      · next session hsession =>
        unfold Exchange.applyAnswer
        split
        · exact h
        · refine ⟨h.registered, h.pending, h.replaying, fun call hcall => ?_⟩
          rcases List.mem_cons.mp hcall with rfl | hcall
          · exact (h.registered session hsession).1.trans hp.2.symm
          · exact h.applied call hcall
      · refine ⟨h.registered, fun hf => ?_, h.replaying, h.applied⟩
        rw [hp.1] at hf
        cases hf
    · cases hreads

/-- The router takes messages and puts back none, and leaves the portal and the server alone. -/
theorem handleMessage_frame (s : Exchange) (ready succeeds : Bool) (msg : Signal) :
    (s.handleMessage ready succeeds msg).inits = s.inits ∧
      (s.handleMessage ready succeeds msg).live = s.live ∧
      (s.handleMessage ready succeeds msg).toServer = s.toServer ∧
      (s.handleMessage ready succeeds msg).bound = s.bound ∧
      (s.handleMessage ready succeeds msg).toWorker = s.toWorker := by
  cases msg with
  | initWebrtc number =>
    simp only [Exchange.handleMessage, Exchange.handleInitWebrtc]
    split
    · split <;> exact ⟨rfl, rfl, rfl, rfl, rfl⟩
    · exact ⟨rfl, rfl, rfl, rfl, rfl⟩
  | terminateSession => exact ⟨rfl, rfl, rfl, rfl, rfl⟩
  | answer offered =>
    simp only [Exchange.handleMessage, Exchange.handleAnswer, Exchange.applyAnswer]
    split
    · split <;> exact ⟨rfl, rfl, rfl, rfl, rfl⟩
    · exact ⟨rfl, rfl, rfl, rfl, rfl⟩

theorem inOrder_work {ready succeeds : Bool} (hi : InOrder s)
    (hs : s.work ready succeeds = some s') : InOrder s' := by
  obtain ⟨worker, server, hworker, htoWorker, hbound, htoServer⟩ := hi
  unfold Exchange.work at hs
  split at hs
  · next offered rest hq =>
    rw [hworker.replaying] at hq
    cases hq
  split at hs
  · cases hs
  · next msg rest hq =>
    cases hs
    rw [hq, List.foldlM_cons] at htoWorker
    obtain ⟨worker', hreads, hrest⟩ := Option.bind_eq_some_iff.mp htoWorker
    have hworker' : WorkerAt { s with toWorker := rest } worker :=
      ⟨hworker.registered, hworker.pending, hworker.replaying, hworker.applied⟩
    obtain ⟨hinits, hlive, htoServer', hbound', htoWorker'⟩ :=
      handleMessage_frame { s with toWorker := rest } ready succeeds msg
    refine ⟨worker', server, workerAt_handleMessage hworker' hreads, ?_, ?_, ?_⟩
    · rw [htoWorker']; exact hrest
    · rw [hbound']; exact hbound
    · rw [htoServer', hinits, hlive]; exact htoServer

theorem inOrder_step {a : ExchangeAction} (hi : InOrder s) (htimely : Timely s a)
    (hs : s.step a = some s') : InOrder s' := by
  cases a with
  | start =>
    simp only [Exchange.step, Exchange.start] at hs
    split at hs
    · cases hs
    · next hlive =>
      cases hs
      have hinit : portalReads ⟨s.inits, s.live.isSome⟩ (.initWebrtc (s.inits + 1)) =
          some ⟨s.inits + 1, (some (⟨[], none⟩ : Runtime)).isSome⟩ := by
        simp [portalReads, hlive]
      exact inOrder_send hi hinit
  | dispose =>
    simp only [Exchange.step, Exchange.dispose] at hs
    split at hs
    · cases hs
    · cases hs
      exact inOrder_send hi rfl
  | receive =>
    simp only [Exchange.step, Exchange.receive] at hs
    split at hs
    · cases hs
    split at hs
    · next hlive => cases hs; exact inOrder_portal hi rfl
    · next runtime hlive => cases hs; exact inOrder_portal hi (by rw [hlive]; rfl)
  | handle =>
    simp only [Exchange.step, Exchange.handle] at hs
    split at hs
    · next offer rest hlive => cases hs; exact inOrder_portal hi (by rw [hlive]; rfl)
    · cases hs
  | answer =>
    simp only [Exchange.step, Exchange.answer] at hs
    split at hs
    · next chain offer hlive =>
      cases hs
      have hoffer : offer = s.inits := htimely _ hlive offer rfl
      refine inOrder_send hi ?_
      rw [hlive, hoffer]
      simp [portalReads]
    · cases hs
  | fail =>
    simp only [Exchange.step, Exchange.fail] at hs
    split at hs
    · next chain offer hlive => cases hs; exact inOrder_portal hi (by rw [hlive]; rfl)
    · cases hs
  | answerLate index =>
    simp only [Exchange.step, Exchange.answerLate] at hs
    split at hs
    · next offer hoffer =>
      cases hs
      have he : offer = s.inits := htimely offer hoffer
      refine inOrder_send hi ?_
      rw [he]
      simp [portalReads]
    · cases hs
  | relay => exact inOrder_relay hi hs
  | work ready succeeds => exact inOrder_work hi hs
  | loseSession =>
    cases hs
    obtain ⟨worker, server, hworker, hrest⟩ := hi
    exact ⟨worker, server, ⟨nofun, hworker.pending, hworker.replaying, hworker.applied⟩, hrest⟩
  | dropPending count =>
    cases hs
    obtain ⟨worker, server, hworker, hrest⟩ := hi
    refine ⟨worker, server, ⟨hworker.registered, fun hf => ?_, hworker.replaying,
      hworker.applied⟩, hrest⟩
    show s.pendingSignals.drop count = []
    rw [hworker.pending hf, List.drop_nil]

theorem inOrder_init : InOrder Exchange.init :=
  ⟨⟨0, false⟩, ⟨0, false⟩, ⟨nofun, fun _ => rfl, rfl, nofun⟩, rfl, rfl, rfl⟩

end Steps

/-! ## The result -/

/-- **No answer crosses.**  In a run in which answers are timely, every answer handed to
`set_remote_description` was computed from the offer of that session. -/
theorem answers_match {as : List ExchangeAction} {s : Exchange}
    (h : RunWhen Timely Exchange.step Exchange.init as s) :
    ∀ call ∈ s.applied, call.1 = call.2 := by
  have hi : InOrder s := h.invariant inOrder_init fun _ _ _ hi htimely hs =>
    inOrder_step hi htimely hs
  obtain ⟨_, _, hworker, _⟩ := hi
  exact hworker.applied

/-- A client plays twice, and answers both offers in time. -/
theorem answers_match_twice :
    ∃ s, RunWhen Timely Exchange.step Exchange.init
        [.start, .relay, .work true true, .receive, .handle, .answer, .relay, .work true true,
          .dispose, .relay, .work true true,
          .start, .relay, .work true true, .receive, .handle, .answer, .relay, .work true true] s ∧
      s.applied = [(2, 2), (1, 1)] ∧ ∀ call ∈ s.applied, call.1 = call.2 := by
  have hrun : ∃ s, RunWhen Timely Exchange.step Exchange.init
      [.start, .relay, .work true true, .receive, .handle, .answer, .relay, .work true true,
        .dispose, .relay, .work true true,
        .start, .relay, .work true true, .receive, .handle, .answer, .relay, .work true true] s ∧
      s.applied = [(2, 2), (1, 1)] := execWhen_any (by decide)
  obtain ⟨s, hrun, happlied⟩ := hrun
  exact ⟨s, hrun, happlied, answers_match hrun⟩

/-- **An answer crosses.**  The offer of the first session is still on its way when the portal
reconnects.  The new runtime answers it, and the worker hands the answer to the second session. -/
theorem answer_crosses :
    ∃ s, Run Exchange.step Exchange.init
        [.start, .relay, .work true true, .dispose, .start, .receive, .handle, .answer,
          .relay, .relay, .relay, .work true true, .work true true, .work true true] s ∧
      s.applied = [(2, 1)] :=
  execWhen_any (by decide)

end CloudGame.Handshake
