import CloudGame.Worker.InputLedger

/-!
# The order of a client's inputs

Even when the operations run one after another (`Sequential`), inputs of one client can be applied
in another order than they were submitted in.  A client that waits for a slot may get one by
`joinRoom`, which flushes nothing: its next input is sent at once and overtakes those that wait
(`inputs_overtaken`).  And the emulator thread puts an input back behind those that were submitted
after it when the client has lost its slot.

`InTurn` is the condition on the state before a step under which no input is put behind a later one
of its client.  Under it the inputs of each client are applied in the order in which they were
submitted (`inputs_in_order`).  The tokens of the ledger are the order of submission.
-/

namespace CloudGame.Worker

open CloudGame.Lib

/-- Operations start only when none is in progress. -/
def Sequential (s : CallState) : CallAction → Prop
  | .run _ => True
  | _ => ∀ t, s.tasks t = .ret ()

/-- The client of a token. -/
def clientOf (L : InputLedger) (token : Nat) : Option String :=
  L.items[token]?.map InputEvent.clientId

/-- The first token was submitted before the second, if they are of the same client. -/
def Before (L : InputLedger) (t t' : Nat) : Prop := clientOf L t = clientOf L t' → t < t'

/-- No input is put behind a later one of its client: it is applied only while no earlier one waits,
put among the pending ones only while no later one waits, and the pending ones are flushed only
while no later one is in the channel. -/
def InTurn (s : CallState × Tracking) : CallAction → Prop
  | .run thread =>
    match (s.1.tasks thread).head with
    | some (.updateInput _ _) => ∀ t ∈ s.2.ledger.tokens (.held thread), ∀ c,
        ∀ t' ∈ s.2.ledger.tokens (.pending c), Before s.2.ledger t t'
    | some (.queueClient c _) => ∀ t ∈ s.2.ledger.tokens (.pending c),
        ∀ t' ∈ s.2.ledger.tokens (.held thread), Before s.2.ledger t t'
    | some (.drainClient c) => s.1.flushes thread = true →
        ∀ t ∈ s.2.ledger.tokens .channel, ∀ t' ∈ s.2.ledger.tokens (.pending c),
          Before s.2.ledger t t'
    | _ => True
  | _ => True

/-! ## The lines -/

/-- The inputs of a client that were applied come before those that wait; those that were applied
come before those that travel, and these are in order up to the one that is being submitted; and
that one comes after those that wait. -/
structure InLine (L : InputLedger) : Prop where
  waits : ∀ c, (L.tokens .applied ++ L.tokens (.pending c)).Pairwise (Before L)
  travels : ∀ n, (L.tokens .applied ++ (L.tokens (.held .emulator) ++
    (L.tokens .channel ++ L.tokens (.held (.caller n))))).Pairwise (Before L)
  submits : ∀ c n, (L.tokens (.pending c) ++ L.tokens (.held (.caller n))).Pairwise (Before L)

section Lines

variable {L L' : InputLedger}

/-- Lines from which inputs only leave stay in order. -/
theorem InLine.mono (h : InLine L) (hitems : L'.items = L.items)
    (hwaits : ∀ c, (L'.tokens .applied ++ L'.tokens (.pending c)).Sublist
      (L.tokens .applied ++ L.tokens (.pending c)))
    (htravels : ∀ n, ∃ m, (L'.tokens .applied ++ (L'.tokens (.held .emulator) ++
      (L'.tokens .channel ++ L'.tokens (.held (.caller n))))).Sublist
        (L.tokens .applied ++ (L.tokens (.held .emulator) ++
          (L.tokens .channel ++ L.tokens (.held (.caller m))))))
    (hsubmits : ∀ c n, (L'.tokens (.pending c) ++ L'.tokens (.held (.caller n))).Sublist
      (L.tokens (.pending c) ++ L.tokens (.held (.caller n)))) : InLine L' := by
  have hbefore : Before L' = Before L := by
    funext t t'
    simp only [Before, clientOf, hitems]
  refine ⟨fun c => ?_, fun n => ?_, fun c n => ?_⟩ <;> rw [hbefore]
  · exact (h.waits c).sublist (hwaits c)
  · obtain ⟨m, hm⟩ := htravels n
    exact (h.travels m).sublist hm
  · exact (h.submits c n).sublist (hsubmits c n)

/-- A new input is later than all others. -/
theorem before_issue {k : Place} {event : InputEvent} {t t' : Nat} (h : Before L t t')
    (ht : t < L.items.length) (ht' : t' < L.items.length) : Before (L.issue k event) t t' := by
  intro hsame
  refine h ?_
  simpa only [clientOf, Ledger.issue, List.getElem?_append_left ht,
    List.getElem?_append_left ht'] using hsame

theorem pairwise_issue {k : Place} {event : InputEvent} {tokens : List Nat}
    (h : tokens.Pairwise (Before L)) (hlt : ∀ t ∈ tokens, t < L.items.length) :
    tokens.Pairwise (Before (L.issue k event)) := by
  refine List.Pairwise.imp_of_mem (fun ht ht' hb => ?_) h
  exact before_issue hb (hlt _ ht) (hlt _ ht')

theorem pairwise_issue_new (k : Place) (event : InputEvent) {tokens : List Nat}
    (h : tokens.Pairwise (Before L)) (hlt : ∀ t ∈ tokens, t < L.items.length) :
    (tokens ++ [L.items.length]).Pairwise (Before (L.issue k event)) := by
  rw [List.pairwise_append]
  refine ⟨pairwise_issue h hlt, List.pairwise_singleton _ _, fun t ht t' ht' _ => ?_⟩
  rw [List.mem_singleton.mp ht']
  exact hlt t ht

end Lines

/-! ## One step -/

section Steps

variable {description : Session → String} {s s' : CallState} {b : Tracking} {L : InputLedger}
  {applied : List Payload}

/-- A thread in progress holds an input that its next operation hands over. -/
theorem held_cons {thread : ThreadId} {events : List InputEvent} {event : InputEvent}
    (hholds : L.Holds (.held thread) events) (hhead : events.head? = some event) :
    ∃ t rest, L.tokens (.held thread) = t :: rest := by
  have hlen := hholds.length_eq
  cases htokens : L.tokens (.held thread) with
  | nil =>
    cases events with
    | nil => cases hhead
    | cons e rest => rw [htokens] at hlen; cases hlen
  | cons t rest => exact ⟨t, rest, rfl⟩

/-- A send hands the first held input to the end of the channel, or drops what is held. -/
theorem inLine_sendInput (h : InLine L) {n : Nat} {event : InputEvent} {t : Nat} {rest : List Nat}
    (htokens : L.tokens (.held (.caller n)) = t :: rest)
    (hothers : ∀ m, m ≠ n → L.tokens (.held (.caller m)) = []) :
    InLine (trackOp s (.caller n) L (.sendInput event)) := by
  simp only [trackOp]
  split
  · refine h.mono rfl (fun c => ?_) (fun m => ⟨n, ?_⟩) fun c m => ?_
    all_goals simp only [Ledger.tokens_move, reduceCtorEq, if_false, if_true, htokens,
      Place.held.injEq, ThreadId.caller.injEq, List.take_succ_cons, List.take_zero,
      List.drop_succ_cons, List.drop_zero]
    · exact List.Sublist.refl _
    · by_cases he : m = n
      · rw [if_pos he, List.append_assoc, List.singleton_append]
      · rw [if_neg he, hothers m he, List.append_nil]
        refine (List.Sublist.refl _).append ((List.Sublist.refl _).append
          ((List.Sublist.refl _).append ?_))
        exact (List.nil_sublist rest).cons_cons t
    · by_cases he : m = n
      · rw [if_pos he, he, htokens]
        exact (List.Sublist.refl _).append (List.sublist_cons_self ..)
      · rw [if_neg he]
  · refine h.mono rfl (fun c => ?_) (fun m => ⟨m, ?_⟩) fun c m => ?_
    all_goals simp only [Ledger.tokens_move, reduceCtorEq, if_false, Place.held.injEq,
      ThreadId.caller.injEq]
    · exact List.Sublist.refl _
    · refine (List.Sublist.refl _).append ((List.Sublist.refl _).append
        ((List.Sublist.refl _).append ?_))
      split
      · next he => rw [he]; exact List.drop_sublist ..
      · exact List.Sublist.refl _
    · refine (List.Sublist.refl _).append ?_
      split
      · next he => rw [he]; exact List.drop_sublist ..
      · exact List.Sublist.refl _

theorem applied_before_held (h : InLine L) {thread : ThreadId} {t t' : Nat}
    (ht : t ∈ L.tokens .applied) (ht' : t' ∈ L.tokens (.held thread)) : Before L t t' := by
  cases thread with
  | emulator =>
    exact (List.pairwise_append.mp (h.travels 0)).2.2 t ht t' (List.mem_append_left _ ht')
  | caller n =>
    exact (List.pairwise_append.mp (h.travels n)).2.2 t ht t'
      (List.mem_append_right _ (List.mem_append_right _ ht'))

theorem clientOf_pending {c : String} {payloads : List Payload}
    (h : L.Holds (.pending c) (inputEvents c payloads)) {t : Nat} (ht : t ∈ L.tokens (.pending c)) :
    clientOf L t = some c := by
  obtain ⟨event, hevent, hitem⟩ := h.item ht
  obtain ⟨payload, -, rfl⟩ := List.mem_map.mp hevent
  rw [clientOf, hitem]
  rfl

/-- The held input goes to the end of those that wait. -/
theorem inLine_queueClient (h : InLine L) {thread : ThreadId} {c : String} {payload : Payload}
    {t : Nat} (htokens : L.tokens (.held thread) = [t])
    (hothers : ∀ thread', thread' ≠ thread → L.tokens (.held thread') = [])
    (hturn : ∀ t' ∈ L.tokens (.pending c), Before L t' t) :
    InLine (trackOp s thread L (.queueClient c payload)) := by
  have hqueued : (L.tokens (.pending c) ++ [t]).Pairwise (Before L) := by
    rw [List.pairwise_append]
    refine ⟨(List.pairwise_append.mp (h.waits c)).2.1, List.pairwise_singleton _ _,
      fun t' ht' u hu => ?_⟩
    rw [List.mem_singleton.mp hu]
    exact hturn t' ht'
  have hnone : ∀ thread', (if thread' = thread then [] else L.tokens (.held thread')) = [] := by
    intro thread'
    split
    · rfl
    · next hne => exact hothers thread' hne
  have hheld : ∀ thread',
      (trackOp s thread L (.queueClient c payload)).tokens (.held thread') = [] := by
    intro thread'
    simp only [trackOp, Ledger.tokens_move, reduceCtorEq, if_false, Place.held.injEq, htokens,
      List.drop_succ_cons, List.drop_zero]
    exact hnone thread'
  have hpending : ∀ c', ((trackOp s thread L (.queueClient c payload)).tokens (.pending c')).Sublist
      (if c' = c then L.tokens (.pending c) ++ [t] else L.tokens (.pending c')) := by
    intro c'
    simp only [trackOp, Ledger.tokens_move, reduceCtorEq, if_false, if_true, Place.pending.injEq,
      htokens, List.take_succ_cons, List.take_zero]
    split
    · exact List.drop_sublist ..
    · exact List.Sublist.refl _
  have happlied : (trackOp s thread L (.queueClient c payload)).tokens .applied =
      L.tokens .applied := by
    simp only [trackOp, Ledger.tokens_move, reduceCtorEq, if_false]
  have hchannel : (trackOp s thread L (.queueClient c payload)).tokens .channel =
      L.tokens .channel := by
    simp only [trackOp, Ledger.tokens_move, reduceCtorEq, if_false]
  refine ⟨fun c' => ?_, fun n => ?_, fun c' n => ?_⟩
  · rw [happlied]
    refine List.Pairwise.sublist ((List.Sublist.refl _).append (hpending c')) ?_
    by_cases he : c' = c
    · subst he
      rw [if_pos rfl, ← List.append_assoc, List.pairwise_append]
      refine ⟨h.waits c', List.pairwise_singleton _ _, fun u hu t' ht' => ?_⟩
      rw [List.mem_singleton.mp ht']
      rcases List.mem_append.mp hu with hu | hu
      · exact applied_before_held h hu (by rw [htokens]; exact List.mem_singleton.mpr rfl)
      · exact hturn u hu
    · rw [if_neg he]
      exact h.waits c'
  · rw [happlied, hheld, hchannel, hheld, List.append_nil, List.nil_append]
    refine List.Pairwise.sublist ?_ (h.travels n)
    exact (List.Sublist.refl _).append
      ((List.sublist_append_left ..).trans (List.sublist_append_right ..))
  · rw [hheld, List.append_nil]
    refine List.Pairwise.sublist (hpending c') ?_
    split
    · exact hqueued
    · exact (List.pairwise_append.mp (h.waits c')).2.1

/-- The inputs that wait are taken along by the call, in front of its own. -/
theorem inLine_flush (h : InLine L) {n : Nat} {c : String}
    (hpending : ∀ c', ∀ t ∈ L.tokens (.pending c'), clientOf L t = some c')
    (hothers : ∀ thread, thread ≠ .caller n → L.tokens (.held thread) = [])
    (hturn : ∀ t ∈ L.tokens .channel, ∀ t' ∈ L.tokens (.pending c), Before L t t') :
    InLine (L.moveToFront (.pending c) (.held (.caller n)) (by simp)) := by
  have happlied : (L.moveToFront (.pending c) (.held (.caller n)) (by simp)).tokens .applied =
      L.tokens .applied := by
    simp only [Ledger.tokens_moveToFront, reduceCtorEq, if_false]
  have hchannel : (L.moveToFront (.pending c) (.held (.caller n)) (by simp)).tokens .channel =
      L.tokens .channel := by
    simp only [Ledger.tokens_moveToFront, reduceCtorEq, if_false]
  have hwaiting : ∀ c',
      (L.moveToFront (.pending c) (.held (.caller n)) (by simp)).tokens (.pending c') =
      if c' = c then [] else L.tokens (.pending c') := fun c' => by
    simp only [Ledger.tokens_moveToFront, reduceCtorEq, if_false, Place.pending.injEq]
  have hheld : ∀ thread, (L.moveToFront (.pending c) (.held (.caller n)) (by simp)).tokens
      (.held thread) = if thread = .caller n then
        L.tokens (.pending c) ++ L.tokens (.held (.caller n)) else [] := fun thread => by
    simp only [Ledger.tokens_moveToFront, reduceCtorEq, if_false, Place.held.injEq]
    split
    · rfl
    · next hne => exact hothers thread hne
  have htravels := h.travels n
  rw [hothers .emulator (by simp), List.nil_append, List.pairwise_append, List.pairwise_append]
    at htravels
  obtain ⟨-, ⟨htravelling, -, htravelHeld⟩, hbefore⟩ := htravels
  have hline : (L.tokens .applied ++ (L.tokens .channel ++ (L.tokens (.pending c) ++
      L.tokens (.held (.caller n))))).Pairwise (Before L) := by
    rw [List.pairwise_append, List.pairwise_append]
    refine ⟨(List.pairwise_append.mp (h.waits c)).1, ⟨htravelling, h.submits c n,
      fun t ht t' ht' => ?_⟩, fun t ht t' ht' => ?_⟩
    · rcases List.mem_append.mp ht' with ht' | ht'
      · exact hturn t ht t' ht'
      · exact htravelHeld t ht t' ht'
    · rcases List.mem_append.mp ht' with ht' | ht'
      · exact hbefore t ht t' (List.mem_append_left _ ht')
      rcases List.mem_append.mp ht' with ht' | ht'
      · exact (List.pairwise_append.mp (h.waits c)).2.2 t ht t' ht'
      · exact hbefore t ht t' (List.mem_append_right _ ht')
  refine ⟨fun c' => ?_, fun m => ?_, fun c' m => ?_⟩
  · rw [happlied, hwaiting]
    split
    · rw [List.append_nil]
      exact (List.pairwise_append.mp (h.waits c)).1
    · exact h.waits c'
  · rw [happlied, hheld, if_neg (by simp), hchannel, hheld, List.nil_append]
    split
    · exact hline
    · rw [List.append_nil]
      exact hline.sublist ((List.Sublist.refl _).append (List.sublist_append_left ..))
  · rw [hwaiting, hheld]
    by_cases hc : c' = c
    · rw [if_pos hc, List.nil_append]
      split
      · exact h.submits c n
      · exact List.Pairwise.nil
    · rw [if_neg hc]
      have hwaits := (List.pairwise_append.mp (h.waits c')).2.1
      split
      · rw [List.pairwise_append]
        refine ⟨hwaits, h.submits c n, fun t ht t' ht' => ?_⟩
        rcases List.mem_append.mp ht' with ht' | ht'
        · -- they are of different clients
          intro hsame
          replace hsame : clientOf L t = clientOf L t' := hsame
          rw [hpending c' t ht, hpending c t' ht'] at hsame
          exact absurd (Option.some.inj hsame) hc
        · exact (List.pairwise_append.mp (h.submits c' n)).2.2 t ht t' ht'
      · rw [List.append_nil]
        exact hwaits

/-- The emulator thread applies the input it holds. -/
theorem inLine_updateInput (h : InLine L) {player : Nat} {data : Payload} {t : Nat}
    (htokens : L.tokens (.held .emulator) = [t])
    (hturn : ∀ c, ∀ t' ∈ L.tokens (.pending c), Before L t t') :
    InLine (trackOp s .emulator L (.updateInput player data)) := by
  have hlast : ∀ u ∈ L.tokens .applied, Before L u t := fun u hu =>
    applied_before_held h hu (by rw [htokens]; exact List.mem_singleton.mpr rfl)
  refine ⟨fun c => ?_, fun n => ?_, fun c n => ?_⟩
  all_goals simp only [trackOp, Ledger.tokens_move, reduceCtorEq, if_false, if_true, htokens,
    Place.held.injEq, List.take_succ_cons, List.take_zero, List.drop_succ_cons, List.drop_zero]
  · have hwaits := List.pairwise_append.mp (h.waits c)
    rw [List.append_assoc, List.pairwise_append, List.singleton_append, List.pairwise_cons]
    refine ⟨hwaits.1, ⟨hturn c, hwaits.2.1⟩, fun u hu t' ht' => ?_⟩
    rcases List.mem_cons.mp ht' with rfl | ht'
    · exact hlast u hu
    · exact hwaits.2.2 u hu t' ht'
  · have htravels := h.travels n
    rw [htokens] at htravels
    rw [List.append_assoc]
    exact htravels
  · exact h.submits c n

theorem inLine_release (h : InLine L) (n : Nat) (c : String) :
    InLine (L.move n (.pending c) (.discarded .terminated) (by simp)) := by
  refine h.mono rfl (fun c' => ?_) (fun m => ⟨m, ?_⟩) fun c' m => ?_
  all_goals simp only [Ledger.tokens_move, reduceCtorEq, if_false, Place.pending.injEq]
  · refine (List.Sublist.refl _).append ?_
    split
    · next he => rw [he]; exact List.drop_sublist ..
    · exact List.Sublist.refl _
  · exact List.Sublist.refl _
  · refine List.Sublist.append ?_ (List.Sublist.refl _)
    split
    · next he => rw [he]; exact List.drop_sublist ..
    · exact List.Sublist.refl _

/-- The emulator thread takes the first input of the channel. -/
theorem inLine_take (h : InLine L) {t : Nat} {rest : List Nat}
    (htokens : L.tokens .channel = t :: rest)
    (hidle : L.tokens (.held .emulator) = []) :
    InLine (L.move 1 .channel (.held .emulator) (by simp)) := by
  refine h.mono rfl (fun c => ?_) (fun m => ⟨m, ?_⟩) fun c m => ?_
  all_goals simp only [Ledger.tokens_move, reduceCtorEq, if_false, if_true, htokens, hidle,
    Place.held.injEq, List.take_succ_cons, List.take_zero, List.drop_succ_cons, List.drop_zero]
  · exact List.Sublist.refl _
  · exact List.Sublist.refl _
  · exact List.Sublist.refl _

theorem inLine_emulatorFails (h : InLine L) (n : Nat) :
    InLine (L.move n .channel (.discarded .disconnected) (by simp)) := by
  refine h.mono rfl (fun c => ?_) (fun m => ⟨m, ?_⟩) fun c m => ?_
  all_goals simp only [Ledger.tokens_move, reduceCtorEq, if_false, if_true]
  · exact List.Sublist.refl _
  · exact (List.Sublist.refl _).append ((List.Sublist.refl _).append
      ((List.drop_sublist ..).append (List.Sublist.refl _)))
  · exact List.Sublist.refl _

/-- A new input is behind all others. -/
theorem inLine_issue (h : InLine L) {n : Nat} (event : InputEvent)
    (hidle : L.tokens (.held (.caller n)) = []) : InLine (L.issue (.held (.caller n)) event) := by
  have hlt : ∀ k t, t ∈ L.tokens k → t < L.items.length := fun k t ht => ((L.mem k t).mp ht).1
  have hkept : ∀ k, k ≠ .held (.caller n) →
      (L.issue (.held (.caller n)) event).tokens k = L.tokens k := fun k hk =>
    L.tokens_issue_of_ne event hk
  have hself : (L.issue (.held (.caller n)) event).tokens (.held (.caller n)) =
      [L.items.length] := by rw [L.tokens_issue_self, hidle, List.nil_append]
  have hwaitsLt : ∀ c, ∀ t ∈ L.tokens .applied ++ L.tokens (.pending c), t < L.items.length := by
    intro c t ht
    rcases List.mem_append.mp ht with ht | ht <;> exact hlt _ t ht
  have htravelsLt : ∀ m, ∀ t ∈ L.tokens .applied ++ (L.tokens (.held .emulator) ++
      (L.tokens .channel ++ L.tokens (.held (.caller m)))), t < L.items.length := by
    intro m t ht
    rcases List.mem_append.mp ht with ht | ht
    · exact hlt _ t ht
    rcases List.mem_append.mp ht with ht | ht
    · exact hlt _ t ht
    rcases List.mem_append.mp ht with ht | ht <;> exact hlt _ t ht
  refine ⟨fun c => ?_, fun m => ?_, fun c m => ?_⟩
  · rw [hkept .applied (by simp), hkept (.pending c) (by simp)]
    exact pairwise_issue (h.waits c) (hwaitsLt c)
  · rw [hkept .applied (by simp), hkept (.held .emulator) (by simp), hkept .channel (by simp)]
    by_cases he : m = n
    · have hnew := pairwise_issue_new (.held (.caller n)) event (h.travels n) (htravelsLt n)
      rw [hidle, List.append_nil, List.append_assoc, List.append_assoc] at hnew
      rw [he, hself]
      exact hnew
    · rw [hkept _ fun hp => he (ThreadId.caller.inj (Place.held.inj hp))]
      exact pairwise_issue (h.travels m) (htravelsLt m)
  · rw [hkept (.pending c) (by simp)]
    by_cases he : m = n
    · rw [he, hself]
      exact pairwise_issue_new _ event (List.pairwise_append.mp (h.waits c)).2.1
        fun t ht => hlt _ t ht
    · rw [hkept _ fun hp => he (ThreadId.caller.inj (Place.held.inj hp))]
      refine pairwise_issue (h.submits c m) fun t ht => ?_
      rcases List.mem_append.mp ht with ht | ht <;> exact hlt _ t ht

/-- At most one thread is in progress. -/
def OneAtATime (s : CallState) : Prop :=
  ∀ t t', s.tasks t ≠ .ret () → s.tasks t' ≠ .ret () → t = t'

theorem oneAtATime_step {a : CallAction} (h : OneAtATime s) (hseq : Sequential s a)
    (hs : s.step description a = some s') : OneAtATime s' := by
  cases callStep_cases hs with
  | call n method hidle =>
    have hself : ∀ t, (s.start n method).tasks t ≠ .ret () → t = .caller n := by
      intro t ht
      by_contra hne
      rw [CallState.tasks_start, if_neg hne] at ht
      exact ht (hseq t)
    exact fun t t' ht ht' => (hself t ht).trans (hself t' ht').symm
  | poll input rest hin hidle =>
    have hself : ∀ t, (s.take input rest).tasks t ≠ .ret () → t = .emulator := by
      intro t ht
      by_contra hne
      rw [CallState.tasks_take, if_neg hne] at ht
      exact ht (hseq t)
    exact fun t t' ht ht' => (hself t ht).trans (hself t' ht').symm
  | run thread i k r room hprog hperform =>
    have hprogress : ∀ t, (s.performed thread (k r) room).tasks t ≠ .ret () →
        s.tasks t ≠ .ret () := by
      intro t ht
      rw [CallState.tasks_performed] at ht
      split at ht
      · next he => rw [he, hprog]; exact (by simp)
      · exact ht
    exact fun t t' ht ht' => h t t' (hprogress t ht) (hprogress t' ht')
  | emulatorFails hidle => exact h

theorem inLine_performed (h : InLine L) (haccounted : Accounted s L applied) {thread : ThreadId}
    {i : RoomOp} {k : i.Reply → RoomM Unit} (hprog : s.tasks thread = .op i k)
    (hone : OneAtATime s) (hturn : InTurn (s, ⟨L, applied⟩) (.run thread))
    (hat : EmulatorAt s.taken (s.tasks .emulator))
    (hperforms : ∀ n, (s.tasks (.caller n)).All fun i =>
      ∃ method, s.calls n = some method ∧ method.Performs i) :
    InLine (trackOp s thread L i) := by
  have hothers : ∀ t, t ≠ thread → L.tokens (.held t) = [] := by
    intro t hne
    have hidle : s.tasks t = .ret () := by
      by_contra ht
      exact hne (hone t thread ht (by rw [hprog]; exact (by simp)))
    exact List.length_eq_zero_iff.mp (haccounted.of_idle hidle).length_eq
  obtain ⟨events, hholds, hover⟩ := haccounted.held thread
  rw [hprog] at hover
  have hok := hover.1
  simp only [InTurn, hprog, Prog.head] at hturn
  generalize s.taken = taken at hat
  cases i with
  | sendInput event =>
    obtain ⟨t, rest, htokens⟩ := held_cons hholds hok
    cases thread with
    | emulator => rw [hprog] at hat; cases hat
    | caller n =>
      exact inLine_sendInput h htokens fun m hne =>
        hothers _ fun he => hne (ThreadId.caller.inj he)
  | queueClient c payload =>
    obtain rfl : events = [⟨c, payload⟩] := hok
    obtain ⟨t, htokens⟩ := List.length_eq_one_iff.mp hholds.length_eq
    exact inLine_queueClient h htokens hothers fun t' ht' =>
      hturn t' ht' t (by rw [htokens]; exact List.mem_singleton.mpr rfl)
  | drainClient c =>
    simp only [trackOp]
    split
    · next hflush =>
      cases thread with
      | emulator => cases hflush
      | caller n =>
        exact inLine_flush h (fun c' t ht => clientOf_pending (haccounted.pending c') ht) hothers
          (hturn hflush)
    · exact inLine_release h _ c
  | updateInput player data =>
    cases thread with
    | caller n =>
      have hn := hperforms n
      rw [hprog] at hn
      obtain ⟨method, -, hperform⟩ := hn.1
      cases method <;> simp [RoomCall.Performs] at hperform
    | emulator =>
      have hlen : events.length = 1 := by
        have := congrArg List.length (show events.map InputEvent.data = [data] from hok)
        rwa [List.length_map] at this
      obtain ⟨t, htokens⟩ := List.length_eq_one_iff.mp (hholds.length_eq.trans hlen)
      exact inLine_updateInput h htokens fun c t' ht' =>
        hturn t (by rw [htokens]; exact List.mem_singleton.mpr rfl) c t' ht'
  | _ => exact h

theorem inLine_step {a : CallAction} (h : InLine L) (haccounted : Accounted s L applied)
    (hone : OneAtATime s) (hseq : Sequential s a) (hturn : InTurn (s, ⟨L, applied⟩) a)
    (hat : EmulatorAt s.taken (s.tasks .emulator))
    (hperforms : ∀ n, (s.tasks (.caller n)).All fun i =>
      ∃ method, s.calls n = some method ∧ method.Performs i)
    (hs : s.step description a = some s') : InLine (trackTokens s L a) := by
  have hidle : ∀ t, s.tasks t = .ret () → L.tokens (.held t) = [] := fun t ht =>
    List.length_eq_zero_iff.mp (haccounted.of_idle ht).length_eq
  cases callStep_cases hs with
  | call n method hcaller =>
    simp only [trackTokens]
    cases method.submits with
    | none => exact h
    | some event => exact inLine_issue h event (hidle _ hcaller)
  | poll input rest hin hemulator =>
    have hchannel := haccounted.channel
    rw [hin] at hchannel
    cases htokens : L.tokens .channel with
    | nil =>
      have hlen := hchannel.length_eq
      rw [htokens] at hlen
      cases hlen
    | cons t more => exact inLine_take h htokens (hidle _ hemulator)
  | run thread i k r room hprog hperform =>
    have htokens : trackTokens s L (.run thread) = trackOp s thread L i := by
      simp only [trackTokens, hprog, Prog.head, Option.map_some, Option.getD_some]
    rw [htokens]
    exact inLine_performed h haccounted hprog hone hturn hat hperforms
  | emulatorFails hemulator => exact inLine_emulatorFails h _

/-- **Inputs in order.**  In a run of operations one after another in which no input is put behind a
later one of its client, any two inputs of one client that are applied are applied in the order in
which they were submitted. -/
theorem inputs_in_order {as : List CallAction} {b : Tracking}
    (h : RunWhen (fun s a => Sequential s.1 a ∧ InTurn s a) (tracked description)
      (CallState.init, Tracking.init) as (s, b)) :
    (b.ledger.tokens .applied).Pairwise fun t t' =>
      clientOf b.ledger t = clientOf b.ledger t' → t < t' := by
  have hinv := h.relative (I := fun s => InLine s.2.ledger ∧ OneAtATime s.1)
    ⟨⟨fun _ => .nil, fun _ => .nil, fun _ _ => .nil⟩, fun t _ ht => absurd rfl ht⟩
    fun as s a s' hrun hi hok hs => ?_
  · exact (List.pairwise_append.mp (hinv.1.waits "")).1
  · obtain ⟨hstep, hghost⟩ := withGhost_eq_some hs
    have hrun' : Run (CallState.step description) CallState.init as s.1 := withGhost_run hrun
    rw [hghost]
    exact ⟨inLine_step hi.1 (accounted_run hrun) hi.2 hok.1 hok.2 (emulatorAt_run hrun')
      (performs_run hrun') hstep, oneAtATime_step hi.2 hok.1 hstep⟩

/-! ## Concrete runs -/

/-- One caller and the emulator thread take turns. -/
def takeTurns (s : CallState) : CallAction → Bool
  | .run _ => true
  | .call n _ => n = 0 ∧ (s.tasks (.caller 0)).isDone = true ∧ (s.tasks .emulator).isDone = true
  | _ => (s.tasks (.caller 0)).isDone = true ∧ (s.tasks .emulator).isDone = true

theorem sequential_of_takeTurns {ok : CallState × Tracking → CallAction → Prop}
    (hturns : ∀ s a, ok s a → takeTurns s.1 a = true) {as : List CallAction}
    {s : CallState × Tracking}
    (h : RunWhen ok (tracked description) (CallState.init, Tracking.init) as s) {a : CallAction}
    (ha : ok s a) : Sequential s.1 a := by
  have hothers : ∀ n, n ≠ 0 → s.1.tasks (.caller n) = .ret () := by
    refine h.invariant (I := fun s => ∀ n, n ≠ 0 → s.1.tasks (.caller n) = .ret ())
      (fun _ _ => rfl) fun s a s' hi hok hs n hn => ?_
    have hturn := hturns s a hok
    have hstep := (withGhost_eq_some hs).1
    generalize s'.1 = next at hstep ⊢
    cases callStep_cases hstep with
    | call m method hidle =>
      rw [CallState.tasks_start, if_neg]
      · exact hi n hn
      · intro he
        exact hn ((ThreadId.caller.inj he).trans (of_decide_eq_true hturn).1)
    | poll input rest hin hidle =>
      rw [CallState.tasks_take, if_neg (by simp)]
      exact hi n hn
    | run thread i k r room hprog hperform =>
      rw [CallState.tasks_performed]
      split
      · next he => rw [← he, hi n hn] at hprog; cases hprog
      · exact hi n hn
    | emulatorFails hidle => exact hi n hn
  have hidle : (s.1.tasks (.caller 0)).isDone = true ∧ (s.1.tasks .emulator).isDone = true →
      ∀ t, s.1.tasks t = .ret () := by
    rintro ⟨hcaller, hemulator⟩ t
    cases t with
    | emulator => exact Prog.eq_ret_of_isDone hemulator
    | caller n =>
      by_cases hn : n = 0
      · rw [hn]; exact Prog.eq_ret_of_isDone hcaller
      · exact hothers n hn
  have hturn := hturns s a ha
  cases a with
  | run thread => trivial
  | call n method => exact hidle (of_decide_eq_true hturn).2
  | poll => exact hidle (of_decide_eq_true hturn)
  | emulatorFails => exact hidle (of_decide_eq_true hturn)

/-- The condition, evaluated; an input is applied only while nothing waits. -/
def inTurn (s : CallState × Tracking) : CallAction → Bool
  | .run thread =>
    match (s.1.tasks thread).head with
    | some (.updateInput _ _) => (List.range s.2.ledger.items.length).all fun t =>
        match s.2.ledger.place t with
        | .pending _ => false
        | _ => true
    | some (.queueClient c _) => ∀ t ∈ s.2.ledger.tokens (.pending c),
        ∀ t' ∈ s.2.ledger.tokens (.held thread), t < t'
    | some (.drainClient c) => ∀ t ∈ s.2.ledger.tokens .channel,
        ∀ t' ∈ s.2.ledger.tokens (.pending c), t < t'
    | _ => true
  | _ => true

theorem inTurn_of_evaluated (s : CallState × Tracking) (a : CallAction) (h : inTurn s a = true) :
    InTurn s a := by
  cases a with
  | run thread =>
    unfold inTurn at h
    unfold InTurn
    dsimp only at h ⊢
    split
    · next he =>
      rw [he] at h
      intro t _ c t' ht'
      obtain ⟨hlt, hplace⟩ := (s.2.ledger.mem _ t').mp ht'
      have hnot := List.all_eq_true.mp h t' (List.mem_range.mpr hlt)
      rw [hplace] at hnot
      cases hnot
    · next he =>
      rw [he] at h
      exact fun t ht t' ht' _ => of_decide_eq_true h t ht t' ht'
    · next he =>
      rw [he] at h
      exact fun _ t ht t' ht' _ => of_decide_eq_true h t ht t' ht'
    · trivial
  | _ => trivial

def players : List String := ["p0", "p1", "p2", "p3", "p4", "p5", "p6", "p7"]

/-- All slots are taken, and an input of a ninth client waits. -/
def waitForSlot : List CallAction :=
  (players.flatMap fun p => .call 0 (.assignPlayerSlot p) :: callerRuns 0 1) ++
    .call 0 (.bufferOrSendInput "c" [1, 0]) :: callerRuns 0 6 ++
    .call 0 (.releaseInputSource "p0") :: callerRuns 0 4

/-- Its next input is given the free slot and flushes the one that waits. -/
def submitWhenFree : List CallAction :=
  waitForSlot ++ .call 0 (.bufferOrSendInput "c" [2, 0]) :: callerRuns 0 7 ++ pollAndHandle ++
    pollAndHandle

theorem inputs_in_order_flushed :
    ∃ s b, RunWhen (fun s a => Sequential s.1 a ∧ InTurn s a) (tracked fun _ => "")
        (CallState.init, Tracking.init) submitWhenFree (s, b) ∧
      b.ledger.tokens .applied = [0, 1] ∧
      (b.ledger.tokens .applied).Pairwise fun t t' =>
        clientOf b.ledger t = clientOf b.ledger t' → t < t' := by
  have hrun : ∃ s, RunWhen (fun s a => takeTurns s.1 a = true ∧ inTurn s a = true)
      (tracked fun _ => "") (CallState.init, Tracking.init) submitWhenFree s ∧
      s.2.ledger.tokens .applied = [0, 1] := execWhen_any (by decide +kernel)
  obtain ⟨⟨s, b⟩, hrun, happlied⟩ := hrun
  have hrun' : RunWhen (fun s a => Sequential s.1 a ∧ InTurn s a) (tracked fun _ => "")
      (CallState.init, Tracking.init) submitWhenFree (s, b) :=
    hrun.strengthen fun _ s a _ h hok _ =>
      ⟨sequential_of_takeTurns (fun _ _ hok => hok.1) h hok, inTurn_of_evaluated s a hok.2⟩
  exact ⟨s, b, hrun', happlied, inputs_in_order hrun'⟩

/-- The client gets the free slot by joining, which flushes nothing; its next input is applied; its
session fails; and the input after that flushes the one that waited. -/
def joinWhenFree : List CallAction :=
  waitForSlot ++ .call 0 (.registerClientSession "c" ⟨"c", 0⟩) :: callerRuns 0 2 ++
    .call 0 (.joinRoom "c") :: callerRuns 0 2 ++
    .call 0 (.bufferOrSendInput "c" [2, 0]) :: callerRuns 0 3 ++ pollAndHandle ++
    .call 0 (.unregisterClientSession "c") :: callerRuns 0 6 ++
    .call 0 (.bufferOrSendInput "c" [3, 0]) :: callerRuns 0 7 ++ pollAndHandle ++ pollAndHandle

/-- **An input is overtaken.**  The operations ran one after another; the client's second input was
applied before its first. -/
theorem inputs_overtaken :
    ∃ s b, RunWhen (fun s a => Sequential s.1 a) (tracked fun _ => "")
        (CallState.init, Tracking.init) joinWhenFree (s, b) ∧
      b.ledger.items = [⟨"c", [1, 0]⟩, ⟨"c", [2, 0]⟩, ⟨"c", [3, 0]⟩] ∧
      b.ledger.tokens .applied = [1, 0, 2] ∧ b.applied = [[2, 0], [1, 0], [3, 0]] := by
  have hrun : ∃ s, RunWhen (fun s a => takeTurns s.1 a = true) (tracked fun _ => "")
      (CallState.init, Tracking.init) joinWhenFree s ∧
      s.2.ledger.items = [⟨"c", [1, 0]⟩, ⟨"c", [2, 0]⟩, ⟨"c", [3, 0]⟩] ∧
      s.2.ledger.tokens .applied = [1, 0, 2] ∧ s.2.applied = [[2, 0], [1, 0], [3, 0]] :=
    execWhen_any (by decide +kernel)
  obtain ⟨⟨s, b⟩, hrun, hitems, happlied, hdata⟩ := hrun
  exact ⟨s, b, hrun.strengthen fun _ _ _ _ h hok _ =>
    sequential_of_takeTurns (fun _ _ hok => hok) h hok, hitems, happlied, hdata⟩

end Steps

end CloudGame.Worker
