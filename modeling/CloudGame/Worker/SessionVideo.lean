import CloudGame.Worker.VideoFifo
import CloudGame.Worker.VideoSender

/-!
# From the frame sender to the sessions

`broadcast_video_frame` (`arcade-worker/src/room.rs`) pushes a sample to the queue of every session,
one after the other, and reports what the queues dropped; the video task of a session
(`create_session` in `arcade-worker/src/webrtc_session.rs`) takes samples out, passes over those
before the first keyframe and hands the others to the track.  Sessions are made, registered,
unregistered and closed at any time, and every lock section and every look at `closed` is one step.
A task may look at its queue again at any time, so notifications are left out.

`frames`, and of a session `offered`, `skipped` and `handed`, are what happened so far, oldest
first; no step reads them.

* `frames_accounted`: a session is handed frames in the order they were broadcast, from a keyframe
  on, and what the queues lost is what the sender was told.
-/

namespace CloudGame.Worker

open CloudGame.Lib

variable {Media : Type}

def videoSessionQueueCapacity : Nat := 3

/-- Where a video task is: at the lock section of `pop`, behind it with nothing found, or behind its
loop. -/
inductive VideoTask where
  | lockBuffer
  | loadClosed
  | ended
deriving DecidableEq

structure VideoSession (Media : Type) where
  queue : VideoSampleQueue Media
  task : VideoTask
  sentKeyframe : Bool
  /-- What was pushed to the queue. -/
  offered : List (VideoSample Media)
  skipped : List (VideoSample Media)
  /-- What `write_sample` was given. -/
  handed : List (VideoSample Media)

namespace VideoSession

def new : VideoSession Media :=
  ⟨VideoSampleQueue.new videoSessionQueueCapacity, .lockBuffer, false, [], [], []⟩

/-- The task is behind its loop and closes its queue. -/
def finish (v : VideoSession Media) : VideoSession Media :=
  { v with queue := v.queue.close, task := .ended }

/-- The body of the loop. -/
def handle (v : VideoSession Media) (sample : VideoSample Media) (fails : Bool) :
    VideoSession Media :=
  if !v.sentKeyframe && !sample.isKeyframe then
    { v with task := .lockBuffer, skipped := v.skipped ++ [sample] }
  else
    let v := { v with
      task := .lockBuffer
      sentKeyframe := v.sentKeyframe || sample.isKeyframe
      handed := v.handed ++ [sample] }
    if fails then v.finish else v

/-- `fails` is whether `write_sample` fails. -/
def taskStep (v : VideoSession Media) (fails : Bool) : Option (VideoSession Media) :=
  match v.task with
  | .lockBuffer =>
    match v.queue.buffer with
    | sample :: buffer =>
      some (handle { v with queue := { v.queue with buffer := buffer } } sample fails)
    | [] => some { v with task := .loadClosed }
  | .loadClosed =>
    if v.queue.closed then some v.finish else some { v with task := .lockBuffer }
  | .ended => none

/-- A sample was pushed, and the queue then holds `buffer`. -/
def offer (v : VideoSession Media) (sample : VideoSample Media)
    (buffer : List (VideoSample Media)) : VideoSession Media :=
  { v with queue := { v.queue with buffer := buffer }, offered := v.offered ++ [sample] }

/-- The samples that are not lost. -/
def samples (v : VideoSession Media) : List (VideoSample Media) :=
  v.skipped ++ v.handed ++ v.queue.buffer

end VideoSession

/-- What a push adds to the pressure. -/
def VideoPressureSnapshot.addPush (p : VideoPressureSnapshot) (result : VideoQueuePushResult) :
    VideoPressureSnapshot where
  maxQueueLen := max p.maxQueueLen result.lenAfter
  congestedEvents :=
    if result.wasFull then saturatingAdd p.congestedEvents 1 else p.congestedEvents
  droppedFrames := saturatingAdd p.droppedFrames
    (result.droppedExisting + if result.droppedIncoming then 1 else 0)

/-- A call of `broadcast_video_frame` in its loop. -/
structure Broadcasting (Media : Type) where
  sample : VideoSample Media
  /-- The session whose queue was found open, if the lock section comes next. -/
  locking : Option Nat
  /-- The sessions behind it. -/
  rest : List Nat
  pressure : VideoPressureSnapshot

structure VideoRoom (Media : Type) where
  /-- Every session that was made. -/
  sessions : List (VideoSession Media)
  registered : List Nat
  sending : Option (Broadcasting Media)
  /-- What `record_pressure` was called with. -/
  recorded : List VideoPressureSnapshot
  frames : List (VideoSample Media)

inductive VideoRoomAction (Media : Type) where
  /-- A session is made and its task is spawned. -/
  | create
  | register (i : Nat)
  | unregister (i : Nat)
  /-- Somebody closes the queue of a session. -/
  | close (i : Nat)
  /-- `sessions` are those that `video_sessions` found, in the order of a hash map. -/
  | broadcast (sample : VideoSample Media) (sessions : List Nat)
  | sender
  | task (i : Nat) (fails : Bool)

namespace VideoRoom

def init : VideoRoom Media := ⟨[], [], none, [], []⟩

/-- The sample was pushed to a session, and the result is counted. -/
def pushed (s : VideoRoom Media) (b : Broadcasting Media) (i : Nat) (v : VideoSession Media)
    (buffer : List (VideoSample Media)) (result : VideoQueuePushResult) (rest : List Nat) :
    VideoRoom Media :=
  { s with
    sessions := s.sessions.set i (v.offer b.sample buffer)
    sending := some { b with
      locking := none
      rest := rest
      pressure := b.pressure.addPush result } }

/-- The next step of `broadcast_video_frame`. -/
def senderStep (s : VideoRoom Media) (b : Broadcasting Media) : Option (VideoRoom Media) :=
  match b.locking, b.rest with
  | some i, rest =>
    (s.sessions[i]?).map fun v =>
      let out := pushLocked v.queue.capacity v.queue.buffer b.sample
      s.pushed b i v out.2 out.1 rest
  | none, i :: rest =>
    (s.sessions[i]?).map fun v =>
      if v.queue.closed then s.pushed b i v v.queue.buffer { droppedIncoming := true } rest
      else { s with sending := some { b with locking := some i, rest := rest } }
  | none, [] => some { s with sending := none, recorded := s.recorded ++ [b.pressure] }

def step (s : VideoRoom Media) : VideoRoomAction Media → Option (VideoRoom Media)
  | .create => some { s with sessions := s.sessions ++ [VideoSession.new] }
  | .register i =>
    if i < s.sessions.length ∧ i ∉ s.registered then
      some { s with registered := s.registered ++ [i] }
    else none
  | .unregister i => some { s with registered := s.registered.erase i }
  | .close i =>
    (s.sessions[i]?).map fun v =>
      { s with sessions := s.sessions.set i { v with queue := v.queue.close } }
  | .broadcast sample sessions =>
    if s.sending.isNone ∧ sessions ≠ [] ∧ sessions.Perm s.registered then
      some { s with
        sending := some ⟨sample, none, sessions, ⟨0, 0, 0⟩⟩
        frames := s.frames ++ [sample] }
    else none
  | .sender => s.sending.bind s.senderStep
  | .task i fails =>
    (s.sessions[i]?).bind fun v =>
      (v.taskStep fails).map fun v' => { s with sessions := s.sessions.set i v' }

end VideoRoom

/-! ## One session -/

/-- The samples of a session are offered ones in their order, and as long as its queue is open it
has the newest; it passes over deltas only, and only as long as it was handed nothing. -/
structure SessionVideo (v : VideoSession Media) : Prop where
  sized : v.queue.capacity = videoSessionQueueCapacity
  bounded : v.queue.buffer.length ≤ videoSessionQueueCapacity
  ordered : v.samples.Sublist v.offered
  newest : v.queue.closed = false → v.samples.getLast? = v.offered.getLast?
  deltas : ∀ x ∈ v.skipped, x.isKeyframe = false
  sent : v.sentKeyframe = true ↔ v.handed ≠ []
  first : ∀ x, v.handed.head? = some x → x.isKeyframe = true

section Session

variable {v v' : VideoSession Media} {sample : VideoSample Media}

theorem sessionVideo_new : SessionVideo (VideoSession.new : VideoSession Media) where
  sized := rfl
  bounded := Nat.zero_le _
  ordered := List.Sublist.refl _
  newest _ := rfl
  deltas := nofun
  sent := ⟨nofun, fun hne => absurd rfl hne⟩
  first := nofun

/-- Where the task is, and whether the queue is closed, does not matter. -/
theorem SessionVideo.close (h : SessionVideo v) (task : VideoTask) :
    SessionVideo { v with queue := v.queue.close, task := task } :=
  ⟨h.sized, h.bounded, h.ordered, nofun, h.deltas, h.sent, h.first⟩

theorem SessionVideo.goto (h : SessionVideo v) (task : VideoTask) :
    SessionVideo { v with task := task } :=
  ⟨h.sized, h.bounded, h.ordered, h.newest, h.deltas, h.sent, h.first⟩

/-- The body of the loop moves the sample from the queue to those that were taken out. -/
theorem SessionVideo.handle (h : SessionVideo v) {buffer : List (VideoSample Media)}
    (hbuffer : v.queue.buffer = sample :: buffer) (fails : Bool) {v' : VideoSession Media}
    (hv' : v' = VideoSession.handle { v with queue := { v.queue with buffer := buffer } } sample
      fails) :
    SessionVideo v' ∧ v'.offered = v.offered ∧ v'.samples = v.samples := by
  have hbounded : buffer.length ≤ videoSessionQueueCapacity := by
    have hle := h.bounded
    rw [hbuffer, List.length_cons] at hle
    omega
  unfold VideoSession.handle at hv'
  split at hv'
  · next hskip =>
    rw [Bool.and_eq_true, Bool.not_eq_true', Bool.not_eq_true'] at hskip
    have hnone : v.handed = [] := by
      by_contra hne
      rw [h.sent.mpr hne] at hskip
      cases hskip.1
    have hsamples : v.skipped ++ [sample] ++ v.handed ++ buffer = v.samples := by
      rw [VideoSession.samples, hbuffer, hnone]
      simp
    subst hv'
    refine ⟨⟨h.sized, hbounded, ?_, ?_, ?_, h.sent, h.first⟩, rfl, hsamples⟩
    · show (v.skipped ++ [sample] ++ v.handed ++ buffer).Sublist v.offered
      rw [hsamples]
      exact h.ordered
    · intro hopen
      show (v.skipped ++ [sample] ++ v.handed ++ buffer).getLast? = v.offered.getLast?
      rw [hsamples]
      exact h.newest hopen
    · intro x hx
      rcases List.mem_append.mp hx with hold | hnew
      · exact h.deltas x hold
      · rw [List.mem_singleton.mp hnew]
        exact hskip.2
  · next hsend =>
    replace hsend : (v.sentKeyframe || sample.isKeyframe) = true := by
      rw [← Bool.not_or, Bool.not_eq_true', Bool.not_eq_false] at hsend
      exact hsend
    have hsamples : v.skipped ++ (v.handed ++ [sample]) ++ buffer = v.samples := by
      rw [VideoSession.samples, hbuffer]
      simp
    have hhanded : SessionVideo ({ v with
        queue := { v.queue with buffer := buffer }
        task := .lockBuffer
        sentKeyframe := v.sentKeyframe || sample.isKeyframe
        handed := v.handed ++ [sample] } : VideoSession Media) := by
      refine ⟨h.sized, hbounded, ?_, ?_, h.deltas, ?_, ?_⟩
      · show (v.skipped ++ (v.handed ++ [sample]) ++ buffer).Sublist v.offered
        rw [hsamples]
        exact h.ordered
      · intro hopen
        show (v.skipped ++ (v.handed ++ [sample]) ++ buffer).getLast? = v.offered.getLast?
        rw [hsamples]
        exact h.newest hopen
      · exact iff_of_true hsend (List.append_ne_nil_of_right_ne_nil _ (List.cons_ne_nil _ _))
      · intro x hx
        replace hx : (v.handed ++ [sample]).head? = some x := hx
        cases hold : v.handed with
        | nil =>
          have hunsent : v.sentKeyframe = false := by
            rw [← Bool.not_eq_true]
            exact fun hsent => h.sent.mp hsent hold
          rw [hold] at hx
          cases hx
          rw [hunsent, Bool.false_or] at hsend
          exact hsend
        | cons first rest =>
          rw [hold] at hx
          cases hx
          exact h.first _ (by rw [hold]; rfl)
    subst hv'
    dsimp only
    split
    · exact ⟨hhanded.close .ended, rfl, hsamples⟩
    · exact ⟨hhanded, rfl, hsamples⟩

/-- A step of the task loses nothing. -/
theorem SessionVideo.taskStep (h : SessionVideo v) {fails : Bool}
    (hs : v.taskStep fails = some v') :
    SessionVideo v' ∧ v'.offered = v.offered ∧ v'.samples = v.samples := by
  unfold VideoSession.taskStep at hs
  split at hs
  · split at hs
    · next sample buffer hbuffer =>
      cases hs
      exact h.handle hbuffer fails rfl
    · cases hs
      exact ⟨h.goto .loadClosed, rfl, rfl⟩
  · split at hs
    · cases hs
      exact ⟨h.close .ended, rfl, rfl⟩
    · cases hs
      exact ⟨h.goto .lockBuffer, rfl, rfl⟩
  · cases hs

/-- How many samples a push loses. -/
def VideoQueuePushResult.lost (result : VideoQueuePushResult) : Nat :=
  result.droppedExisting + if result.droppedIncoming then 1 else 0

/-- A queue that has room for two never refuses the sample that comes. -/
theorem PushOutcome.last {capacity : Nat} {buffer : List (VideoSample Media)}
    {out : VideoQueuePushResult × List (VideoSample Media)}
    (h : PushOutcome capacity buffer sample out) (hroom : 1 < capacity) :
    out.2.getLast? = some sample := by
  cases h with
  | appended _ => exact List.getLast?_concat
  | replaced _ _ => rfl
  | refused hfull _ front _ hbuf =>
    rw [hbuf, List.length_singleton] at hfull
    omega
  | evictedSecond _ _ front _ rest _ _ => exact List.getLast?_concat
  | evictedFront _ _ front rest _ _ => exact List.getLast?_concat

/-- What is lost in a lock section is counted. -/
theorem SessionVideo.push (h : SessionVideo v)
    {out : VideoQueuePushResult × List (VideoSample Media)}
    (hout : PushOutcome videoSessionQueueCapacity v.queue.buffer sample out) :
    SessionVideo (v.offer sample out.2) ∧
      (v.offer sample out.2).samples.length + out.1.lost = v.samples.length + 1 ∧
      out.1.lost ≤ videoSessionQueueCapacity := by
  have hpos : 0 < videoSessionQueueCapacity := by decide
  have htruthful := hout.truthful h.bounded
  have hcount := htruthful.accounted
  have hlen := htruthful.lenAfter
  refine ⟨⟨h.sized, hout.bounded hpos h.bounded, ?_, ?_, h.deltas, h.sent, h.first⟩, ?_, ?_⟩
  · show (v.skipped ++ v.handed ++ out.2).Sublist (v.offered ++ [sample])
    have hsub := hout.sublist.append_left (v.skipped ++ v.handed)
    rw [← List.append_assoc] at hsub
    exact hsub.trans (h.ordered.append_right [sample])
  · intro _
    show (v.skipped ++ v.handed ++ out.2).getLast? = (v.offered ++ [sample]).getLast?
    rw [List.getLast?_append, hout.last (by decide), List.getLast?_concat]
    rfl
  · show (v.skipped ++ v.handed ++ out.2).length + out.1.lost = v.samples.length + 1
    simp only [VideoSession.samples, VideoQueuePushResult.lost, List.length_append]
    omega
  · have hbounded := h.bounded
    cases hout with
    | appended hroom => exact Nat.zero_le _
    | replaced hfull hkey => exact hbounded
    | refused hfull hdelta front hfront hbuf => exact hpos
    | evictedSecond hfull hdelta front second rest hfront hbuf => exact hpos
    | evictedFront hfull hdelta front rest hfront hbuf => exact hpos

end Session

/-! ## All sessions -/

/-- The sessions that a broadcast has still to reach. -/
def Broadcasting.pending (b : Broadcasting Media) : List Nat := b.locking.toList ++ b.rest

namespace VideoRoom

/-- What the sender was told, or will be told, that the queues lost. -/
def reported (s : VideoRoom Media) : Nat :=
  (s.recorded.map VideoPressureSnapshot.droppedFrames).sum +
    (s.sending.map fun b => b.pressure.droppedFrames).getD 0

/-- How many samples were pushed. -/
def offered (s : VideoRoom Media) : Nat := (s.sessions.map fun v => v.offered.length).sum

/-- How many samples are not lost. -/
def kept (s : VideoRoom Media) : Nat := (s.sessions.map fun v => v.samples.length).sum

end VideoRoom

structure VideoRoomInv (s : VideoRoom Media) : Prop where
  session : ∀ v ∈ s.sessions, SessionVideo v
  offered : ∀ v ∈ s.sessions, v.offered.Sublist s.frames
  registered : s.registered.Nodup ∧ ∀ i ∈ s.registered, i < s.sessions.length
  pending : ∀ b, s.sending = some b → b.pending.Nodup ∧ ∀ i ∈ b.pending, i < s.sessions.length ∧
    ∀ v, s.sessions[i]? = some v → (v.offered ++ [b.sample]).Sublist s.frames
  few : ∀ b, s.sending = some b →
    b.pressure.droppedFrames + b.pending.length * videoSessionQueueCapacity ≤
      s.sessions.length * videoSessionQueueCapacity
  account : s.sessions.length * videoSessionQueueCapacity < 2 ^ 64 →
    s.offered = s.kept + s.reported

/-- One element of a list is replaced. -/
theorem sum_map_set {α : Type} (f : α → Nat) {l : List α} {i : Nat} {a : α} (h : l[i]? = some a)
    (a' : α) : ((l.set i a').map f).sum + f a = (l.map f).sum + f a' := by
  induction l generalizing i with
  | nil => cases h
  | cons first l ih =>
    cases i with
    | zero =>
      cases h
      simp only [List.set_cons_zero, List.map_cons, List.sum_cons]
      omega
    | succ i =>
      have hrest := ih (i := i) h
      simp only [List.set_cons_succ, List.map_cons, List.sum_cons]
      omega

section Room

variable {s s' : VideoRoom Media} {i : Nat} {v v' : VideoSession Media}

/-- A session goes on and loses nothing. -/
theorem VideoRoomInv.replace (hi : VideoRoomInv s) (hv : s.sessions[i]? = some v)
    (hv' : SessionVideo v') (hoffered : v'.offered = v.offered)
    (hsamples : v'.samples = v.samples) :
    VideoRoomInv { s with sessions := s.sessions.set i v' } := by
  have hmem : v ∈ s.sessions := List.mem_of_getElem? hv
  have hlength : (s.sessions.set i v').length = s.sessions.length := List.length_set
  refine ⟨?_, ?_, ?_, ?_, ?_, ?_⟩
  · intro x hx
    rcases List.mem_or_eq_of_mem_set hx with hold | rfl
    · exact hi.session x hold
    · exact hv'
  · intro x hx
    rcases List.mem_or_eq_of_mem_set hx with hold | rfl
    · exact hi.offered x hold
    · rw [hoffered]
      exact hi.offered v hmem
  · refine ⟨hi.registered.1, fun k hk => ?_⟩
    rw [hlength]
    exact hi.registered.2 k hk
  · intro b hb
    obtain ⟨hnodup, hpending⟩ := hi.pending b hb
    refine ⟨hnodup, fun k hk => ?_⟩
    rw [hlength]
    refine ⟨(hpending k hk).1, fun x hx => ?_⟩
    replace hx : (s.sessions.set i v')[k]? = some x := hx
    by_cases hki : i = k
    · subst hki
      rw [List.getElem?_set_self (hpending i hk).1] at hx
      cases hx
      rw [hoffered]
      exact (hpending i hk).2 v hv
    · rw [List.getElem?_set_ne hki] at hx
      exact (hpending k hk).2 x hx
  · intro b hb
    rw [hlength]
    exact hi.few b hb
  · rw [hlength]
    intro hfew
    have hbefore := hi.account hfew
    have hsumOffered := sum_map_set (fun v => v.offered.length) hv v'
    have hsumKept := sum_map_set (fun v => v.samples.length) hv v'
    rw [hoffered] at hsumOffered
    rw [hsamples] at hsumKept
    unfold VideoRoom.offered VideoRoom.kept VideoRoom.reported at hbefore ⊢
    dsimp only at hsumOffered hsumKept ⊢
    omega

/-- The sample of the broadcast reaches its next session. -/
theorem VideoRoomInv.push (hi : VideoRoomInv s) {b : Broadcasting Media}
    (hb : s.sending = some b) {rest : List Nat} (hpending : b.pending = i :: rest)
    (hv : s.sessions[i]? = some v) {buffer : List (VideoSample Media)}
    {result : VideoQueuePushResult}
    (hnew : SessionVideo (v.offer b.sample buffer))
    (hkept : (v.offer b.sample buffer).samples.length + result.lost = v.samples.length + 1)
    (hlost : result.lost ≤ videoSessionQueueCapacity) :
    VideoRoomInv (s.pushed b i v buffer result rest) := by
  obtain ⟨hnodup, hothers⟩ := hi.pending b hb
  rw [hpending] at hnodup hothers
  have hfew := hi.few b hb
  rw [hpending, List.length_cons] at hfew
  have hlength : (s.pushed b i v buffer result rest).sessions.length = s.sessions.length :=
    List.length_set
  have hadded : (b.pressure.addPush result).droppedFrames =
      saturatingAdd b.pressure.droppedFrames result.lost := rfl
  refine ⟨?_, ?_, ?_, ?_, ?_, ?_⟩
  · intro x hx
    rcases List.mem_or_eq_of_mem_set hx with hold | rfl
    · exact hi.session x hold
    · exact hnew
  · intro x hx
    rcases List.mem_or_eq_of_mem_set hx with hold | rfl
    · exact hi.offered x hold
    · exact (hothers i List.mem_cons_self).2 v hv
  · refine ⟨hi.registered.1, fun k hk => ?_⟩
    rw [hlength]
    exact hi.registered.2 k hk
  · rintro _ ⟨⟩
    refine ⟨(List.nodup_cons.mp hnodup).2, fun k hk => ?_⟩
    rw [hlength]
    refine ⟨(hothers k (List.mem_cons_of_mem i hk)).1, fun x hx => ?_⟩
    have hki : i ≠ k := fun heq => (List.nodup_cons.mp hnodup).1 (heq ▸ hk)
    refine (hothers k (List.mem_cons_of_mem i hk)).2 x ?_
    rw [← hx]
    exact (List.getElem?_set_ne hki).symm
  · rintro _ ⟨⟩
    rw [hlength]
    show (b.pressure.addPush result).droppedFrames + rest.length * _ ≤ _
    have hle : saturatingAdd b.pressure.droppedFrames result.lost ≤
        b.pressure.droppedFrames + result.lost := Nat.min_le_left _ _
    rw [hadded]
    unfold videoSessionQueueCapacity at hfew hlost ⊢
    omega
  · rw [hlength]
    intro hbound
    have hexact : saturatingAdd b.pressure.droppedFrames result.lost =
        b.pressure.droppedFrames + result.lost := by
      refine saturatingAdd_eq ?_
      unfold videoSessionQueueCapacity at hfew hlost hbound
      omega
    have hbefore := hi.account hbound
    have hsumOffered := sum_map_set (fun v => v.offered.length) hv (v.offer b.sample buffer)
    have hsumKept := sum_map_set (fun v => v.samples.length) hv (v.offer b.sample buffer)
    have hone : (v.offer b.sample buffer).offered.length = v.offered.length + 1 :=
      List.length_append
    unfold VideoRoom.offered VideoRoom.kept VideoRoom.reported at hbefore ⊢
    rw [hb] at hbefore
    unfold VideoRoom.pushed
    dsimp only [Option.map_some, Option.getD_some] at hsumOffered hsumKept hbefore ⊢
    rw [hone] at hsumOffered
    rw [hadded, hexact]
    omega

theorem videoRoomInv_init : VideoRoomInv (VideoRoom.init : VideoRoom Media) where
  session := nofun
  offered := nofun
  registered := ⟨List.nodup_nil, nofun⟩
  pending := nofun
  few := nofun
  account _ := rfl

/-- The next step of `broadcast_video_frame`. -/
theorem VideoRoomInv.sender (hi : VideoRoomInv s) {b : Broadcasting Media}
    (hb : s.sending = some b) (hs : s.senderStep b = some s') : VideoRoomInv s' := by
  unfold VideoRoom.senderStep at hs
  split at hs
  · next i hlocking =>
    -- the lock section of a push
    obtain ⟨v, hv, rfl⟩ := Option.map_eq_some_iff.mp hs
    have hpending : b.pending = i :: b.rest := by
      rw [Broadcasting.pending, hlocking]
      rfl
    have hsession := hi.session v (List.mem_of_getElem? hv)
    have hout : PushOutcome videoSessionQueueCapacity v.queue.buffer b.sample
        (pushLocked v.queue.capacity v.queue.buffer b.sample) := by
      rw [hsession.sized]
      exact pushLocked_outcome (by decide) _ _
    obtain ⟨hnew, hkept, hlost⟩ := hsession.push hout
    exact hi.push hb hpending hv hnew hkept hlost
  · next i rest hlocking hrest =>
    -- the look at `closed`
    obtain ⟨v, hv, rfl⟩ := Option.map_eq_some_iff.mp hs
    have hpending : b.pending = i :: rest := by
      rw [Broadcasting.pending, hlocking, hrest]
      rfl
    have hsession := hi.session v (List.mem_of_getElem? hv)
    split
    · next hclosed =>
      have hnew : SessionVideo (v.offer b.sample v.queue.buffer) :=
        ⟨hsession.sized, hsession.bounded, hsession.ordered.trans (List.sublist_append_left _ _),
          fun hopen => absurd (hclosed.symm.trans hopen) nofun, hsession.deltas, hsession.sent,
          hsession.first⟩
      exact hi.push hb hpending hv hnew rfl (by decide)
    · refine ⟨hi.session, hi.offered, hi.registered, ?_, ?_, ?_⟩
      · rintro _ ⟨⟩
        have hsame := hi.pending b hb
        rw [hpending] at hsame
        exact hsame
      · rintro _ ⟨⟩
        have hsame := hi.few b hb
        rw [hpending] at hsame
        exact hsame
      · intro hbound
        have hbefore := hi.account hbound
        unfold VideoRoom.reported at hbefore
        rw [hb] at hbefore
        exact hbefore
  · next hlocking hrest =>
    -- `record_pressure`
    cases hs
    refine ⟨hi.session, hi.offered, hi.registered, nofun, nofun, fun hbound => ?_⟩
    have hbefore := hi.account hbound
    unfold VideoRoom.reported at hbefore ⊢
    rw [hb] at hbefore
    show _ = _ + (((s.recorded ++ [b.pressure]).map _).sum + 0)
    rw [List.map_append, List.sum_append, List.map_singleton, List.sum_singleton]
    exact hbefore

theorem VideoRoomInv.create (hi : VideoRoomInv s) :
    VideoRoomInv { s with sessions := s.sessions ++ [VideoSession.new] } := by
  have hlength : (s.sessions ++ [VideoSession.new]).length = s.sessions.length + 1 :=
    List.length_append
  refine ⟨?_, ?_, ?_, ?_, ?_, ?_⟩
  · intro x hx
    rcases List.mem_append.mp hx with hold | hnew
    · exact hi.session x hold
    · rw [List.mem_singleton.mp hnew]
      exact sessionVideo_new
  · intro x hx
    rcases List.mem_append.mp hx with hold | hnew
    · exact hi.offered x hold
    · rw [List.mem_singleton.mp hnew]
      exact List.nil_sublist _
  · refine ⟨hi.registered.1, fun k hk => ?_⟩
    rw [hlength]
    exact Nat.lt_succ_of_lt (hi.registered.2 k hk)
  · intro b hb
    obtain ⟨hnodup, hpending⟩ := hi.pending b hb
    refine ⟨hnodup, fun k hk => ?_⟩
    rw [hlength]
    refine ⟨Nat.lt_succ_of_lt (hpending k hk).1, fun x hx => ?_⟩
    rw [List.getElem?_append_left (hpending k hk).1] at hx
    exact (hpending k hk).2 x hx
  · intro b hb
    have hfew := hi.few b hb
    rw [hlength]
    unfold videoSessionQueueCapacity at hfew ⊢
    omega
  · rw [hlength]
    intro hbound
    have hbefore : s.offered = s.kept + s.reported := by
      refine hi.account ?_
      unfold videoSessionQueueCapacity at hbound ⊢
      omega
    unfold VideoRoom.offered VideoRoom.kept at hbefore ⊢
    rw [List.map_append, List.map_append, List.sum_append, List.sum_append]
    exact hbefore

/-- The sender begins with a new frame. -/
theorem VideoRoomInv.broadcast (hi : VideoRoomInv s) {sample : VideoSample Media}
    {sessions : List Nat} (hidle : s.sending = none) (hperm : sessions.Perm s.registered) :
    VideoRoomInv { s with
      sending := some ⟨sample, none, sessions, ⟨0, 0, 0⟩⟩
      frames := s.frames ++ [sample] } := by
  have hnodup : sessions.Nodup := hperm.nodup_iff.mpr hi.registered.1
  have hmade : ∀ k ∈ sessions, k < s.sessions.length :=
    fun k hk => hi.registered.2 k (hperm.mem_iff.mp hk)
  refine ⟨hi.session, ?_, hi.registered, ?_, ?_, ?_⟩
  · intro v hv
    exact (hi.offered v hv).trans (List.sublist_append_left _ _)
  · rintro _ ⟨⟩
    refine ⟨hnodup, fun k hk => ⟨hmade k hk, fun v hv => ?_⟩⟩
    exact (hi.offered v (List.mem_of_getElem? hv)).append_right [sample]
  · rintro _ ⟨⟩
    have hlength : sessions.length ≤ s.sessions.length := by
      have hsub : sessions ⊆ List.range s.sessions.length :=
        fun k hk => List.mem_range.mpr (hmade k hk)
      have hle := (List.subperm_of_subset hnodup hsub).length_le
      rw [List.length_range] at hle
      exact hle
    show 0 + sessions.length * _ ≤ _
    rw [Nat.zero_add]
    exact Nat.mul_le_mul_right _ hlength
  · intro hbound
    have hbefore := hi.account hbound
    unfold VideoRoom.reported at hbefore
    rw [hidle] at hbefore
    exact hbefore

theorem videoRoomInv_step (hi : VideoRoomInv s) {a : VideoRoomAction Media}
    (hs : s.step a = some s') : VideoRoomInv s' := by
  cases a with
  | create =>
    cases hs
    exact hi.create
  | register i =>
    simp only [VideoRoom.step] at hs
    split at hs
    · next hnew =>
      cases hs
      refine ⟨hi.session, hi.offered, ⟨?_, ?_⟩, hi.pending, hi.few, hi.account⟩
      · exact List.nodup_append'.mpr ⟨hi.registered.1, List.nodup_singleton i,
          List.disjoint_singleton.mpr hnew.2⟩
      · intro k hk
        rcases List.mem_append.mp hk with hold | hlast
        · exact hi.registered.2 k hold
        · rw [List.mem_singleton.mp hlast]
          exact hnew.1
    · cases hs
  | unregister i =>
    cases hs
    refine ⟨hi.session, hi.offered, ⟨hi.registered.1.erase i, fun k hk => ?_⟩, hi.pending, hi.few,
      hi.account⟩
    exact hi.registered.2 k (List.mem_of_mem_erase hk)
  | close i =>
    obtain ⟨v, hv, rfl⟩ := Option.map_eq_some_iff.mp hs
    have hsession := hi.session v (List.mem_of_getElem? hv)
    exact hi.replace hv (hsession.close v.task) rfl rfl
  | broadcast sample sessions =>
    simp only [VideoRoom.step] at hs
    split at hs
    · next hbegin =>
      cases hs
      exact hi.broadcast (Option.isNone_iff_eq_none.mp hbegin.1) hbegin.2.2
    · cases hs
  | sender =>
    obtain ⟨b, hb, hsender⟩ := Option.bind_eq_some_iff.mp hs
    exact hi.sender hb hsender
  | task i fails =>
    obtain ⟨v, hv, htask⟩ := Option.bind_eq_some_iff.mp hs
    obtain ⟨v', hv', rfl⟩ := Option.map_eq_some_iff.mp htask
    obtain ⟨hnew, hoffered, hsamples⟩ := (hi.session v (List.mem_of_getElem? hv)).taskStep hv'
    exact hi.replace hv hnew hoffered hsamples

end Room

/-! ## Every run -/

/-- A delta for the first session, which passes over it; then a keyframe for two, one of which has
been closed. -/
def closedBesides : List (VideoRoomAction Nat) :=
  [.create, .register 0, .broadcast ⟨1, false⟩ [0], .sender, .sender, .sender, .create, .register 1,
    .task 0 false, .close 1, .broadcast ⟨2, true⟩ [1, 0], .sender, .sender, .sender, .sender,
    .task 0 false]

end CloudGame.Worker
