import CloudGame.Lib.HashMap
import CloudGame.Signal.Protocol
import Mathlib.Data.List.DropRight

/-!
# Early signals (`PendingSessionSignals` in `arcade-worker/src/signal_router.rs`)

The answers and candidates that arrive for a client before its session is registered: at most 512
clients, and the newest 32 messages of each (`Bounded`, kept by every operation).  `queueOf` is the
queue of a client, and the `queueOf_…` lemmas say what an operation does to it.
-/

namespace CloudGame.Worker

open CloudGame.Lib CloudGame.Signal

def maxPendingSessions : Nat := 512
def maxPendingMessagesPerSession : Nat := 32

def signalClientId (msg : SignalMessage) : Option String :=
  msg.sessionId.filter fun value => value ≠ ""

def signalPayload (msg : SignalMessage) : Option String :=
  msg.data.filter fun value => value ≠ ""

structure PendingSessionSignals where
  byClient : HashMap String (List SignalMessage)

namespace PendingSessionSignals

def empty : PendingSessionSignals := ⟨∅⟩

/-- Makes room for a new client: the first key of the full map is dropped. -/
def evictFor (p : PendingSessionSignals) (clientId : String) : PendingSessionSignals :=
  if clientId ∉ p.byClient ∧ p.byClient.entries.length ≥ maxPendingSessions then
    match p.byClient.keys with
    | firstKey :: _ => ⟨p.byClient.erase firstKey⟩
    | [] => p
  else p

def enqueue (p : PendingSessionSignals) (msg : SignalMessage) : PendingSessionSignals :=
  match signalClientId msg with
  | none => p
  | some clientId =>
    let byClient := (p.evictFor clientId).byClient
    let queue := (byClient.lookup clientId).getD []
    let queue := if queue.length ≥ maxPendingMessagesPerSession then queue.drop 1 else queue
    ⟨byClient.insert clientId (queue ++ [msg])⟩

def drain (p : PendingSessionSignals) (clientId : String) :
    List SignalMessage × PendingSessionSignals :=
  ((p.byClient.lookup clientId).getD [], ⟨p.byClient.erase clientId⟩)

def clear (p : PendingSessionSignals) (clientId : String) : PendingSessionSignals :=
  ⟨p.byClient.erase clientId⟩

/-- The same queues, in any order. -/
def Rehashed (p p' : PendingSessionSignals) : Prop := HashMap.Rehashed p.byClient p'.byClient

instance (p p' : PendingSessionSignals) : Decidable (Rehashed p p') :=
  inferInstanceAs (Decidable (HashMap.Rehashed _ _))

/-! ## The bounds -/

structure Bounded (p : PendingSessionSignals) : Prop where
  clients : p.byClient.entries.length ≤ maxPendingSessions
  messages : ∀ c queue, p.byClient.lookup c = some queue →
    queue.length ≤ maxPendingMessagesPerSession

theorem bounded_empty : empty.Bounded := ⟨Nat.zero_le _, fun c queue h => by cases h⟩

theorem Bounded.erase {p : PendingSessionSignals} (h : p.Bounded) (c : String) :
    (⟨p.byClient.erase c⟩ : PendingSessionSignals).Bounded := by
  refine ⟨Nat.le_trans (HashMap.length_erase_le _ c) h.clients, fun c' queue hq => ?_⟩
  rw [HashMap.lookup_erase_eq_ite] at hq
  split at hq
  · cases hq
  · exact h.messages c' queue hq

/-- There is room for the client once another was dropped for it. -/
theorem Bounded.evictFor {p : PendingSessionSignals} (h : p.Bounded) (c : String) :
    (p.evictFor c).Bounded ∧
      (c ∈ (p.evictFor c).byClient ∨
        (p.evictFor c).byClient.entries.length < maxPendingSessions) := by
  unfold PendingSessionSignals.evictFor
  split
  · next hfull =>
    have hpos : 0 < maxPendingSessions := by decide
    split
    · next firstKey rest hkeys =>
      have hmem : firstKey ∈ p.byClient := by
        show firstKey ∈ p.byClient.keys
        rw [hkeys]
        exact List.mem_cons_self
      refine ⟨h.erase firstKey, Or.inr ?_⟩
      rw [HashMap.length_erase_of_mem hmem]
      have := h.clients
      omega
    · next hkeys =>
      have hlen := HashMap.length_keys p.byClient
      rw [hkeys, List.length_nil] at hlen
      have := hfull.2
      omega
  · next hroom =>
    refine ⟨h, ?_⟩
    rw [not_and_or, not_not] at hroom
    exact hroom.imp id Nat.lt_of_not_le

/-- A message at the end of a queue that keeps the newest ones. -/
def pushSignal (queue : List SignalMessage) (msg : SignalMessage) : List SignalMessage :=
  (if queue.length ≥ maxPendingMessagesPerSession then queue.drop 1 else queue) ++ [msg]

theorem length_pushSignal_le {queue : List SignalMessage} (msg : SignalMessage)
    (h : queue.length ≤ maxPendingMessagesPerSession) :
    (pushSignal queue msg).length ≤ maxPendingMessagesPerSession := by
  have hpos : 0 < maxPendingMessagesPerSession := by decide
  unfold pushSignal
  split
  · simp only [List.length_append, List.length_drop, List.length_cons, List.length_nil]
    omega
  · simp only [List.length_append, List.length_cons, List.length_nil]
    omega

theorem mem_pushSignal {queue : List SignalMessage} {msg m : SignalMessage}
    (h : m ∈ pushSignal queue msg) : m = msg ∨ m ∈ queue := by
  rcases List.mem_append.mp h with h | h
  · split at h
    · exact Or.inr (List.mem_of_mem_drop h)
    · exact Or.inr h
  · exact Or.inl (List.mem_singleton.mp h)

theorem Bounded.enqueue {p : PendingSessionSignals} (h : p.Bounded) (msg : SignalMessage) :
    (p.enqueue msg).Bounded := by
  unfold PendingSessionSignals.enqueue
  split
  · exact h
  · next c hc =>
    obtain ⟨hevicted, hroom⟩ := h.evictFor c
    refine ⟨?_, fun c' queue hq => ?_⟩
    · by_cases hmem : c ∈ (p.evictFor c).byClient
      · exact (HashMap.length_insert_of_mem hmem _).trans_le hevicted.clients
      · exact (HashMap.length_insert_of_notMem hmem _).trans_le (hroom.resolve_left hmem)
    · simp only [HashMap.lookup_insert_eq_ite] at hq
      split at hq
      · cases hq
        refine length_pushSignal_le msg ?_
        cases hold : (p.evictFor c).byClient.lookup c with
        | none => exact Nat.zero_le _
        | some old => exact hevicted.messages c old hold
      · exact hevicted.messages c' queue hq

theorem Bounded.rehashed {p p' : PendingSessionSignals} (h : p.Bounded) (hr : p.Rehashed p') :
    p'.Bounded := by
  refine ⟨(List.Perm.length_eq hr).symm.trans_le h.clients, fun c queue hq => ?_⟩
  rw [HashMap.Rehashed.lookup hr] at hq
  exact h.messages c queue hq

/-! ## The queue of a client -/

def queueOf (p : PendingSessionSignals) (c : String) : List SignalMessage :=
  (p.byClient.lookup c).getD []

/-- A queue of the newest messages stays one. -/
theorem pushSignal_rtake (msgs : List SignalMessage) (msg : SignalMessage) :
    pushSignal (msgs.rtake maxPendingMessagesPerSession) msg =
      (msgs ++ [msg]).rtake maxPendingMessagesPerSession := by
  rw [show maxPendingMessagesPerSession = 31 + 1 from rfl, List.rtake_concat_succ]
  unfold pushSignal List.rtake
  rw [show maxPendingMessagesPerSession = 31 + 1 from rfl]
  congr 1
  split
  · next hlong =>
    rw [List.length_drop] at hlong
    rw [List.drop_drop]
    congr 1
    omega
  · next hshort =>
    rw [List.length_drop] at hshort
    rw [show msgs.length - (31 + 1) = 0 by omega, show msgs.length - 31 = 0 by omega]

/-- Without an eviction only the queue of the message's client changes. -/
theorem queueOf_enqueue {p : PendingSessionSignals} {msg : SignalMessage} {c : String}
    (hc : signalClientId msg = some c)
    (hroom : c ∈ p.byClient ∨ p.byClient.entries.length < maxPendingSessions) (c' : String) :
    (p.enqueue msg).queueOf c' = if c' = c then pushSignal (p.queueOf c) msg else p.queueOf c' := by
  have hevict : p.evictFor c = p := by
    unfold evictFor
    rw [if_neg]
    rintro ⟨hmem, hfull⟩
    exact hroom.elim hmem (Nat.not_lt.mpr hfull)
  unfold enqueue queueOf
  simp only [hc, hevict, HashMap.lookup_insert_eq_ite]
  split <;> rfl

theorem queueOf_erase (p : PendingSessionSignals) (c c' : String) :
    (⟨p.byClient.erase c⟩ : PendingSessionSignals).queueOf c' =
      if c' = c then [] else p.queueOf c' := by
  unfold queueOf
  rw [HashMap.lookup_erase_eq_ite]
  split <;> rfl

theorem queueOf_evictFor_subset {p : PendingSessionSignals} {c c' : String} {m : SignalMessage}
    (h : m ∈ (p.evictFor c).queueOf c') : m ∈ p.queueOf c' := by
  unfold evictFor at h
  split at h
  · split at h
    · rw [queueOf_erase] at h
      split at h
      · cases h
      · exact h
    · exact h
  · exact h

/-- What waits has just been put there or waited before. -/
theorem mem_queueOf_enqueue {p : PendingSessionSignals} {msg m : SignalMessage} {c' : String}
    (h : m ∈ (p.enqueue msg).queueOf c') :
    (m = msg ∧ signalClientId msg = some c') ∨ m ∈ p.queueOf c' := by
  unfold enqueue at h
  split at h
  · exact Or.inr h
  · next c hc =>
    unfold queueOf at h
    rw [HashMap.lookup_insert_eq_ite] at h
    split at h
    · next he =>
      subst he
      rcases mem_pushSignal h with rfl | hold
      · exact Or.inl ⟨rfl, hc⟩
      · exact Or.inr (queueOf_evictFor_subset hold)
    · exact Or.inr (queueOf_evictFor_subset h)

theorem queueOf_rehashed {p p' : PendingSessionSignals} (h : p.Rehashed p') (c : String) :
    p'.queueOf c = p.queueOf c := by
  unfold queueOf
  rw [HashMap.Rehashed.lookup h]

end PendingSessionSignals

end CloudGame.Worker
