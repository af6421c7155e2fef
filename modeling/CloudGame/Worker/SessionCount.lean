import CloudGame.Lib.Tally
import CloudGame.Worker.Calls
import Mathlib.Algebra.Group.Int.Defs

/-!
# The session counter (`Room::session_count` in `arcade-worker/src/room.rs`)

`register_client_session` counts a session while it holds the lock of `sessions`;
`unregister_client_session` subtracts after it has let the lock go.  Any threads call them at any
time.  `netCount` is the number of additions less the number of subtractions so far, an integer that
does not wrap.

`Balanced` is the invariant: the net count and the sessions that are inserted and not yet added are
the entries of the map and those removed and not yet subtracted.

* `session_count`: the counter is the net count, which is positive whenever a thread is about to
  subtract, and is the number of entries whenever no session is being registered or unregistered.
-/

namespace CloudGame.Worker

open CloudGame.Lib

def RoomState.hasVideoSessions (s : RoomState) : Bool := 0 < s.sessionCount

/-- The calls that register or unregister a session. -/
def RoomCall.countsSession : RoomCall → Bool
  | .registerClientSession .. => true
  | .unregisterClientSession .. => true
  | _ => false

/-- No call that registers or unregisters a session is in progress. -/
def CallState.Settled (s : CallState) : Prop :=
  ∀ n, s.tasks (.caller n) = .ret () ∨ ∃ method, s.calls n = some method ∧
    method.countsSession = false

/-- The additions less the subtractions, when a thread performs an operation. -/
def countedAs : Option RoomOp → Int → Int
  | some .countInserted, net => net + 1
  | some .countRemoved, net => net - 1
  | _, net => net

def netCount (s : CallState) : CallAction → Int → Int
  | .run thread, net => countedAs (s.tasks thread).head net
  | _, net => net

/-! ## The programs -/

/-- The next operation is on the counter. -/
def Adds (prog : RoomM Unit) : Prop := prog.head = some .countInserted

def Owes (prog : RoomM Unit) : Prop := prog.head = some .countRemoved

def Counts (prog : RoomM Unit) : Prop := Adds prog ∨ Owes prog

/-- A session that was inserted is added next, one that was removed subtracted next, and nothing
else is followed by a subtraction or an addition. -/
def CountsNext : (i : RoomOp) → (i.Reply → RoomM Unit) → Prop
  | .insertSession .., k => Adds (k true) ∧ ¬ Counts (k false)
  | .removeSession .., k => (∀ session, Owes (k (some session))) ∧ ¬ Counts (k none)
  | _, k => ∀ r, ¬ Counts (k r)

/-- The operations that `Balanced` depends on. -/
def RoomOp.counted : RoomOp → Bool
  | .insertSession .. => true
  | .countInserted => true
  | .removeSession .. => true
  | .countRemoved => true
  | _ => false

/-- The program has nothing to do with the counter. -/
def Uncounted {α : Type} (prog : RoomM α) : Prop := prog.All fun i => i.counted = false

theorem Uncounted.not_counts {prog : RoomM Unit} (h : Uncounted prog) : ¬ Counts prog := by
  cases prog with
  | ret a => rintro (hc | hc) <;> cases hc
  | op i k =>
    have hi := h.1
    rintro (hc | hc)
    · cases hc
      cases hi
    · cases hc
      cases hi

theorem Uncounted.bind {α β : Type} {prog : RoomM α} {f : α → RoomM β} (h : Uncounted prog)
    (hf : ∀ a, Uncounted (f a)) : Uncounted (prog >>= f) :=
  Prog.All.bind h hf

theorem not_counts_ret : ¬ Counts (.ret ()) := by
  rintro (hc | hc) <;> cases hc

theorem Uncounted.countsNext {prog : RoomM Unit} (h : Uncounted prog) : prog.Along CountsNext := by
  induction prog with
  | ret a => trivial
  | op i k ih =>
    refine ⟨?_, fun r => ih r (h.2 r)⟩
    have hnext : ∀ r, ¬ Counts (k r) := fun r => Uncounted.not_counts (h.2 r)
    have hi := h.1
    cases i with
    | insertSession c session => cases hi
    | removeSession c => cases hi
    | _ => exact hnext

theorem uncounted_reportRelease (released : Bool) : Uncounted (reportRelease released) :=
  all_reportRelease rfl fun _ => rfl

/-- The calls that register and unregister nothing have nothing to do with the counter. -/
theorem performs_uncounted {method : RoomCall} (h : method.countsSession = false) {i : RoomOp}
    (hi : method.Performs i) : i.counted = false := by
  cases method with
  | registerClientSession c session => cases h
  | unregisterClientSession c => cases h
  | joinRoom c => rcases hi with rfl | rfl <;> rfl
  | assignPlayerSlot c => obtain rfl := hi; rfl
  | releaseInputSource c => rcases hi with rfl | rfl | rfl | ⟨_, rfl⟩ <;> rfl
  | bufferOrSendInput c payload =>
    rcases hi with rfl | rfl | rfl | rfl | rfl | ⟨_, rfl⟩ <;> rfl

theorem countsNext_prog (method : RoomCall) : method.prog.Along CountsNext := by
  by_cases h : method.countsSession = false
  · exact Uncounted.countsNext (all_prog fun i hi => performs_uncounted h hi)
  · cases method with
    | registerClientSession c session =>
      refine ⟨⟨rfl, not_counts_ret⟩, fun inserted => ?_⟩
      cases inserted with
      | false => trivial
      | true => exact ⟨fun _ => not_counts_ret, fun _ => trivial⟩
    | unregisterClientSession c =>
      refine ⟨⟨fun session => rfl, not_counts_ret⟩, fun removed => ?_⟩
      cases removed with
      | none => trivial
      | some session =>
        -- what follows the subtraction has nothing to do with the counter
        have hrelease : Uncounted (do
            let countChanged ← Call.releaseClient c
            reportRelease countChanged
            return some session : RoomM (Option Session)) :=
          ⟨rfl, fun released => (uncounted_reportRelease released).bind fun _ => trivial⟩
        have hrest : Uncounted (do
            Call.closeQueue session
            let countChanged ← Call.releaseClient c
            reportRelease countChanged
            return some session : RoomM (Option Session)) := ⟨rfl, fun _ => hrelease⟩
        have hend : ∀ removed : Option Session, Uncounted (pure () : RoomM Unit) := fun _ => trivial
        have hrest' := Uncounted.bind hrest hend
        exact ⟨fun _ => Uncounted.not_counts hrest', fun _ => Uncounted.countsNext hrest'⟩
    | _ => exact absurd rfl h

theorem uncounted_handleInputEvent (input : InputEvent) : Uncounted (handleInputEvent input) := by
  refine ⟨rfl, fun slot => ?_⟩
  cases slot with
  | none => exact ⟨rfl, fun _ => trivial⟩
  | some player => exact ⟨rfl, fun _ => trivial⟩

theorem not_counts_prog (method : RoomCall) : ¬ Counts method.prog := by
  rintro (hc | hc) <;> cases method <;> cases hc

variable {description : Session → String} {s s' : CallState}

theorem countsNext_run {as : List CallAction}
    (h : Run (CallState.step description) CallState.init as s) (t : ThreadId) :
    (s.tasks t).Along CountsNext :=
  along_run (P := fun _ => CountsNext) (fun _ => countsNext_prog)
    (fun input => (uncounted_handleInputEvent input).countsNext) h t

/-! ## The invariant -/

/-- The net count with the insertions not yet added is the number of entries with the removals not
yet subtracted; whoever has inserted holds the lock over an entry. -/
structure Balanced (s : CallState) (net : Int) : Prop where
  balance : ∃ adding owing : Nat, Tally s.tasks Adds adding ∧ Tally s.tasks Owes owing ∧
    net + adding = s.room.sessions.entries.length + owing ∧
    (adding = if s.room.sessionsLocked then 1 else 0)
  locked : s.room.sessionsLocked = true → 0 < s.room.sessions.entries.length
  value : (s.room.sessionCount.toNat : Int) = net % 2 ^ 64

/-- An operation that is not counted leaves alone what the invariant is about. -/
theorem perform_uncounted {room room' : RoomState} {i : RoomOp} {r : i.Reply}
    (h : room.perform description i = some (r, room')) (hi : i.counted = false) :
    room'.sessions = room.sessions ∧ room'.sessionsLocked = room.sessionsLocked ∧
      room'.sessionCount = room.sessionCount := by
  cases i with
  | insertSession c session => cases hi
  | countInserted => cases hi
  | removeSession c => cases hi
  | countRemoved => cases hi
  | withClientSession c =>
    obtain ⟨_, rfl⟩ := RoomState.perform_withClientSession h
    exact ⟨rfl, rfl, rfl⟩
  | assignPlayerSlot c =>
    obtain ⟨_, rfl⟩ := RoomState.perform_assignPlayerSlot h
    exact ⟨rfl, rfl, rfl⟩
  | sendInput event =>
    obtain ⟨_, rfl⟩ := RoomState.perform_sendInput h
    exact ⟨rfl, rfl, rfl⟩
  | updateInput player data =>
    obtain ⟨_, rfl⟩ := RoomState.perform_updateInput h
    exact ⟨rfl, rfl, rfl⟩
  | _ => cases h; exact ⟨rfl, rfl, rfl⟩

/-- A thread whose program changes without coming to the counter or leaving it. -/
theorem Balanced.retask {net : Int} (h : Balanced s net) {thread : ThreadId} {prog : RoomM Unit}
    {room : RoomState} (hbefore : ¬ Counts (s.tasks thread)) (hafter : ¬ Counts prog)
    (hsessions : room.sessions = s.room.sessions)
    (hlocked : room.sessionsLocked = s.room.sessionsLocked)
    (hcount : room.sessionCount = s.room.sessionCount) :
    Balanced (s.performed thread prog room) net := by
  obtain ⟨adding, owing, hadding, howing, hsum, hlock⟩ := h.balance
  have hbefore' := not_or.mp hbefore
  have hafter' := not_or.mp hafter
  refine ⟨⟨adding, owing, hadding.keeps (iff_of_false hbefore'.1 hafter'.1),
    howing.keeps (iff_of_false hbefore'.2 hafter'.2), ?_, ?_⟩, ?_, ?_⟩
  · show net + adding = room.sessions.entries.length + owing
    rw [hsessions]
    exact hsum
  · show adding = if room.sessionsLocked then 1 else 0
    rw [hlocked]
    exact hlock
  · show room.sessionsLocked = true → 0 < room.sessions.entries.length
    rw [hlocked, hsessions]
    exact h.locked
  · show (room.sessionCount.toNat : Int) = _
    rw [hcount]
    exact h.value

theorem not_counts_op {i : RoomOp} {k : i.Reply → RoomM Unit} (hadd : i ≠ .countInserted)
    (howe : i ≠ .countRemoved) : ¬ Counts (.op i k) := by
  rintro (hc | hc)
  · exact hadd (Option.some.inj hc)
  · exact howe (Option.some.inj hc)

theorem Adds.not_owes {prog : RoomM Unit} (h : Adds prog) : ¬ Owes prog := by
  intro howes
  rw [Owes, h] at howes
  cases howes

theorem Owes.not_adds {prog : RoomM Unit} (h : Owes prog) : ¬ Adds prog :=
  fun hadds => hadds.not_owes h

/-- A thread at any other operation is not at the counter. -/
theorem not_counts_task {thread : ThreadId} {i : RoomOp} {k : i.Reply → RoomM Unit}
    (hprog : s.tasks thread = .op i k) (hadd : i ≠ .countInserted) (howe : i ≠ .countRemoved) :
    ¬ Counts (s.tasks thread) := by
  rw [hprog]
  exact not_counts_op hadd howe

/-- A session is inserted, or is not as there is one. -/
theorem balanced_insert {net : Int} (h : Balanced s net) {thread : ThreadId} {c : String}
    {session : Session} {k : Bool → RoomM Unit} {r : Bool} {room : RoomState}
    (hprog : s.tasks thread = .op (.insertSession c session) k)
    (hperform : s.room.perform description (.insertSession c session) = some (r, room))
    (hnext : CountsNext (.insertSession c session) k) :
    Balanced (s.performed thread (k r) room) net := by
  have hbefore := not_counts_task hprog nofun nofun
  simp only [RoomState.perform] at hperform
  split at hperform
  · cases hperform
  · next hunlocked =>
    split at hperform
    · cases hperform
      exact h.retask hbefore hnext.2 rfl rfl rfl
    · next hnew =>
      cases hperform
      obtain ⟨adding, owing, hadding, howing, hsum, hlock⟩ := h.balance
      have hadds : Adds (k true) := hnext.1
      have hbefore' := not_or.mp hbefore
      have hsize := HashMap.length_insert_of_notMem hnew session
      rw [if_neg hunlocked] at hlock
      refine ⟨⟨adding + 1, owing, hadding.enters hbefore'.1 hadds,
        howing.keeps (iff_of_false hbefore'.2 hadds.not_owes), ?_, ?_⟩, ?_, h.value⟩
      · show net + (adding + 1 : Nat) = (s.room.sessions.insert c session).entries.length + owing
        rw [hsize]
        push_cast
        omega
      · show adding + 1 = 1
        rw [hlock]
      · intro _
        show 0 < (s.room.sessions.insert c session).entries.length
        rw [hsize]
        exact Nat.succ_pos _

/-- The inserted session is added. -/
theorem balanced_added {net : Int} (h : Balanced s net) {thread : ThreadId}
    {k : Unit → RoomM Unit} {r : Unit} {room : RoomState}
    (hprog : s.tasks thread = .op .countInserted k)
    (hperform : s.room.perform description .countInserted = some (r, room))
    (hnext : CountsNext .countInserted k) :
    Balanced (s.performed thread (k r) room) (net + 1) := by
  cases hperform
  obtain ⟨adding, owing, hadding, howing, hsum, hlock⟩ := h.balance
  have hadds : Adds (s.tasks thread) := by
    rw [hprog]
    rfl
  have hafter := not_or.mp (hnext ())
  have hpos := hadding.pos hadds
  obtain ⟨n, rfl⟩ : ∃ n, adding = n + 1 := ⟨adding - 1, by omega⟩
  have hn : n = 0 := by
    split at hlock <;> omega
  subst hn
  refine ⟨⟨0, owing, hadding.leaves hadds hafter.1,
    howing.keeps (iff_of_false hadds.not_owes hafter.2), ?_, rfl⟩, nofun, ?_⟩
  · show net + 1 + (0 : Nat) = s.room.sessions.entries.length + owing
    push_cast at hsum ⊢
    omega
  · show ((s.room.sessionCount + 1).toNat : Int) = (net + 1) % 2 ^ 64
    have hvalue := h.value
    have hone : (1 : UInt64).toNat = 1 := rfl
    rw [UInt64.toNat_add, hone]
    omega

/-- A session is removed, or there is none. -/
theorem balanced_remove {net : Int} (h : Balanced s net) {thread : ThreadId} {c : String}
    {k : Option Session → RoomM Unit} {r : Option Session} {room : RoomState}
    (hprog : s.tasks thread = .op (.removeSession c) k)
    (hperform : s.room.perform description (.removeSession c) = some (r, room))
    (hnext : CountsNext (.removeSession c) k) :
    Balanced (s.performed thread (k r) room) net := by
  have hbefore := not_counts_task hprog nofun nofun
  simp only [RoomState.perform] at hperform
  split at hperform
  · cases hperform
  · next hunlocked =>
    cases hperform
    cases hlookup : s.room.sessions.lookup c with
    | none =>
      have hsame : s.room.sessions.erase c = s.room.sessions :=
        HashMap.erase_of_notMem (AList.lookup_eq_none.mp hlookup)
      exact h.retask hbefore hnext.2 hsame rfl rfl
    | some session =>
      obtain ⟨adding, owing, hadding, howing, hsum, hlock⟩ := h.balance
      have howes : Owes (k (some session)) := hnext.1 session
      have hbefore' := not_or.mp hbefore
      have hmem : c ∈ s.room.sessions := AList.lookup_isSome.mp (by rw [hlookup]; rfl)
      have hsize := HashMap.length_erase_of_mem hmem
      have hpos := HashMap.length_pos_of_mem hmem
      refine ⟨⟨adding, owing + 1, hadding.keeps (iff_of_false hbefore'.1 howes.not_adds),
        howing.enters hbefore'.2 howes, ?_, hlock⟩, fun hl => absurd hl hunlocked, h.value⟩
      show net + adding = (s.room.sessions.erase c).entries.length + (owing + 1 : Nat)
      rw [hsize]
      push_cast
      omega

/-- The removed session is subtracted. -/
theorem balanced_subtracted {net : Int} (h : Balanced s net) {thread : ThreadId}
    {k : Unit → RoomM Unit} {r : Unit} {room : RoomState}
    (hprog : s.tasks thread = .op .countRemoved k)
    (hperform : s.room.perform description .countRemoved = some (r, room))
    (hnext : CountsNext .countRemoved k) :
    Balanced (s.performed thread (k r) room) (net - 1) := by
  cases hperform
  obtain ⟨adding, owing, hadding, howing, hsum, hlock⟩ := h.balance
  have howes : Owes (s.tasks thread) := by
    rw [hprog]
    rfl
  have hafter := not_or.mp (hnext ())
  have hpos := howing.pos howes
  obtain ⟨n, rfl⟩ : ∃ n, owing = n + 1 := ⟨owing - 1, by omega⟩
  refine ⟨⟨adding, n, hadding.keeps (iff_of_false howes.not_adds hafter.1),
    howing.leaves howes hafter.2, ?_, hlock⟩, h.locked, ?_⟩
  · show net - 1 + adding = s.room.sessions.entries.length + n
    push_cast at hsum
    omega
  · show ((s.room.sessionCount - 1).toNat : Int) = (net - 1) % 2 ^ 64
    have hvalue := h.value
    have hone : (1 : UInt64).toNat = 1 := rfl
    rw [UInt64.toNat_sub, hone]
    omega

/-- The invariant is about the threads and the room. -/
theorem Balanced.congr {net : Int} (h : Balanced s net) (htasks : s'.tasks = s.tasks)
    (hroom : s'.room = s.room) : Balanced s' net := by
  obtain ⟨⟨adding, owing, hadding, howing, hsum, hlock⟩, hlocked, hvalue⟩ := h
  rw [← htasks] at hadding howing
  rw [← hroom] at hsum hlock hlocked hvalue
  exact ⟨⟨adding, owing, hadding, howing, hsum, hlock⟩, hlocked, hvalue⟩

theorem balanced_step {net : Int} {a : CallAction} (h : Balanced s net)
    (hnext : ∀ t, (s.tasks t).Along CountsNext) (hs : s.step description a = some s') :
    Balanced s' (netCount s a net) := by
  have hidle : ∀ {thread : ThreadId}, s.tasks thread = .ret () → ¬ Counts (s.tasks thread) := by
    intro thread hret
    rw [hret]
    exact not_counts_ret
  cases callStep_cases hs with
  | call n method hret =>
    have hroom : Balanced (s.performed (.caller n) method.prog s.room) net :=
      h.retask (hidle hret) (not_counts_prog method) rfl rfl rfl
    exact hroom.congr rfl rfl
  | poll input rest hin hret =>
    have hroom : Balanced
        (s.performed .emulator (handleInputEvent input) { s.room with inputs := some rest }) net :=
      h.retask (hidle hret) (uncounted_handleInputEvent input).not_counts rfl rfl rfl
    exact hroom.congr rfl rfl
  | run thread i k r room hprog hperform =>
    have hthread := hnext thread
    rw [hprog] at hthread
    show Balanced _ (countedAs (s.tasks thread).head net)
    rw [hprog]
    by_cases hcounted : i.counted = false
    · obtain ⟨hsessions, hlocked, hcount⟩ := perform_uncounted hperform hcounted
      have hbefore : ¬ Counts (s.tasks thread) := by
        refine not_counts_task hprog ?_ ?_
        · rintro rfl
          cases hcounted
        · rintro rfl
          cases hcounted
      cases i with
      | insertSession c session => cases hcounted
      | countInserted => cases hcounted
      | removeSession c => cases hcounted
      | countRemoved => cases hcounted
      | _ => exact h.retask hbefore (hthread.1 r) hsessions hlocked hcount
    · cases i with
      | insertSession c session => exact balanced_insert h hprog hperform hthread.1
      | countInserted => exact balanced_added h hprog hperform hthread.1
      | removeSession c => exact balanced_remove h hprog hperform hthread.1
      | countRemoved => exact balanced_subtracted h hprog hperform hthread.1
      | _ => exact absurd rfl hcounted
  | emulatorFails hret =>
    obtain ⟨⟨adding, owing, hadding, howing, hsum, hlock⟩, hlocked, hvalue⟩ := h
    exact ⟨⟨adding, owing, hadding, howing, hsum, hlock⟩, hlocked, hvalue⟩

theorem balanced_init : Balanced CallState.init 0 := by
  have hnone : ∀ t, ¬ Counts (CallState.init.tasks t) := fun _ => not_counts_ret
  refine ⟨⟨0, 0, tally_none fun t => (not_or.mp (hnone t)).1,
    tally_none fun t => (not_or.mp (hnone t)).2, rfl, rfl⟩, nofun, rfl⟩

/-! ## The result -/

/-- Nobody is at the counter when nobody registers or unregisters. -/
theorem CallState.Settled.not_counts {as : List CallAction}
    (h : Run (CallState.step description) CallState.init as s) (hsettled : s.Settled)
    (t : ThreadId) : ¬ Counts (s.tasks t) := by
  cases t with
  | caller n =>
    rcases hsettled n with hret | ⟨method, hmethod, hcounts⟩
    · rw [hret]
      exact not_counts_ret
    · refine Uncounted.not_counts ((performs_run h n).mono ?_)
      rintro i ⟨method', hmethod', hperforms⟩
      rw [hmethod] at hmethod'
      cases hmethod'
      exact performs_uncounted hcounts hperforms
  | emulator =>
    have hat := emulatorAt_run h
    generalize s.taken = taken at hat
    generalize s.tasks .emulator = prog at hat
    cases hat with
    | idle => exact not_counts_ret
    | asks input => exact not_counts_op nofun nofun
    | applies input player => exact not_counts_op nofun nofun
    | queues input => exact not_counts_op nofun nofun

/-- **The session counter.**  In every run of calls from any threads: the counter is the number of
its additions less that of its subtractions, which is never negative and is positive when a thread
is about to subtract; and when no call that registers or unregisters is in progress, it is the
number of entries, so the room has video sessions exactly if it has an entry.  That the counter and
the number of entries are less than `2 ^ 64` is the type of a length. -/
theorem session_count {as : List CallAction} {net : Int}
    (h : Run (withGhost (CallState.step description) netCount) (CallState.init, 0) as (s, net)) :
    0 ≤ net ∧ (s.room.sessionCount.toNat : Int) = net % 2 ^ 64 ∧
      (∀ t, (s.tasks t).head = some .countRemoved →
        0 < net ∧ (net < 2 ^ 64 → s.room.sessionCount ≠ 0)) ∧
      (s.Settled → net = s.room.sessions.entries.length ∧
        (s.room.sessions.entries.length < 2 ^ 64 →
          s.room.sessionCount.toNat = s.room.sessions.entries.length ∧
          (s.room.hasVideoSessions = true ↔ s.room.sessions ≠ ∅))) := by
  have hrun : Run (CallState.step description) CallState.init as (s, net).1 := withGhost_run h
  have hbalanced : Balanced s net :=
    h.relative (I := fun sn => Balanced sn.1 sn.2) balanced_init fun as sn a sn' hrun hi _ hs => by
      have hrun' : Run (CallState.step description) CallState.init as sn.1 := withGhost_run hrun
      obtain ⟨hstep, hnet⟩ := withGhost_eq_some hs
      rw [hnet]
      exact balanced_step hi (countsNext_run hrun') hstep
  obtain ⟨adding, owing, hadding, howing, hsum, hlock⟩ := hbalanced.balance
  have hvalue := hbalanced.value
  -- an addition that is to come is of an entry
  have hentry : (adding : Int) ≤ s.room.sessions.entries.length := by
    by_cases hlocked : s.room.sessionsLocked = true
    · rw [if_pos hlocked] at hlock
      have hpos := hbalanced.locked hlocked
      omega
    · rw [if_neg hlocked] at hlock
      omega
  refine ⟨by omega, hvalue, fun t ht => ?_, fun hsettled => ?_⟩
  · have hpos : 0 < net := by
      have howes := howing.pos (i := t) ht
      omega
    refine ⟨hpos, fun hlt hzero => ?_⟩
    rw [hzero] at hvalue
    have hnet : net % 2 ^ 64 = net := Int.emod_eq_of_lt (by omega) hlt
    rw [hnet] at hvalue
    have hz : ((0 : UInt64).toNat : Int) = 0 := rfl
    omega
  · have hnobody := hsettled.not_counts hrun
    have hadd := hadding.eq_zero fun t ht => hnobody t (Or.inl ht)
    have howe := howing.eq_zero fun t ht => hnobody t (Or.inr ht)
    have hnet : net = s.room.sessions.entries.length := by omega
    refine ⟨hnet, fun hfits => ?_⟩
    have hcount : s.room.sessionCount.toNat = s.room.sessions.entries.length := by
      rw [hnet] at hvalue
      omega
    refine ⟨hcount, ?_⟩
    have hempty : s.room.sessions = ∅ ↔ s.room.sessions.entries.length = 0 := by
      constructor
      · intro he
        rw [he]
        rfl
      · intro he
        exact AList.ext (List.length_eq_zero_iff.mp he)
    unfold RoomState.hasVideoSessions
    rw [decide_eq_true_eq, UInt64.lt_iff_toNat_lt, hcount, ne_eq, hempty]
    exact Nat.pos_iff_ne_zero

/-- Two threads unregister the same session: one finds it and subtracts. -/
theorem session_count_twice :
    ∃ s, Run (withGhost (CallState.step Session.id) netCount) (CallState.init, 0)
        [.call 0 (.registerClientSession "a" ⟨"a", 0⟩), .run (.caller 0), .run (.caller 0),
          .call 1 (.unregisterClientSession "a"), .call 2 (.unregisterClientSession "a"),
          .run (.caller 2), .run (.caller 1)] s ∧
      s.1.room.sessions.entries.length = 0 ∧ (s.1.tasks (.caller 2)).head = some .countRemoved ∧
      0 < s.2 ∧ s.1.room.sessionCount ≠ 0 := by
  have hrun : ∃ s, Run (withGhost (CallState.step Session.id) netCount) (CallState.init, 0)
      [.call 0 (.registerClientSession "a" ⟨"a", 0⟩), .run (.caller 0), .run (.caller 0),
        .call 1 (.unregisterClientSession "a"), .call 2 (.unregisterClientSession "a"),
        .run (.caller 2), .run (.caller 1)] s ∧
      s.1.room.sessions.entries.length = 0 ∧ (s.1.tasks (.caller 2)).head = some .countRemoved ∧
      s.2 = 1 := execWhen_any (by decide +kernel)
  obtain ⟨⟨s, net⟩, hrun, hempty, hhead, rfl⟩ := hrun
  obtain ⟨hpos, hne⟩ := (session_count hrun).2.2.1 _ hhead
  exact ⟨(s, 1), hrun, hempty, hhead, hpos, hne (by decide)⟩

end CloudGame.Worker
