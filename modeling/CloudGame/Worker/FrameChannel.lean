import CloudGame.Lib.Machine
import CloudGame.Lib.Run
import CloudGame.Worker.Pixels

/-!
# From the core to the frame sender (`arcade-worker/src/libretro.rs`, `main.rs`, `video_sender.rs`)

The core shows a picture by calling `video_refresh_callback` on the emulator thread, which copies it
into a buffer of the pool and hands it to `on_video_frame`, which puts it into a bounded channel.
The frame sender takes the newest frame of the channel and puts the buffers of all others back.
`FramePath` is the pool, the channel and the two threads, one step for every access to something
shared; sessions come and go at any time.

`shown`, `offered`, `received` and `taken` are read by no step: they record, newest first, the
pictures the core showed, the frames `on_video_frame` was to send, those the sender received, and
those it took as the newest.

Main result: the sender receives exactly the frames that were sent, in order, each the picture the
core showed; when it rests it has taken the newest (`frames_delivered`).  The channel is never full
when a frame is sent, so the branch of `on_video_frame` that drops the oldest frame is never taken.
-/

namespace CloudGame.Worker

open CloudGame.Lib

/-! ## Buffers -/

section Buffers

variable {T : Type} {maxBuffers maxCapacity : Nat}

/-- A `Vec`: its elements, and the number it has room for. -/
structure Buffer (T : Type) where
  items : List T
  capacity : Nat

/-- The elements after `resize`. -/
def Buffer.resize (b : Buffer T) (n : Nat) (value : T) : List T :=
  b.items.take n ++ List.replicate (n - b.items.length) value

/-- `items[..src.len()].copy_from_slice(src)`. -/
def copyFromSlice (items src : List T) : List T := src ++ items.drop src.length

/-- A buffer that was filled holds what was copied, whatever it held before. -/
theorem copyFromSlice_resize (b : Buffer T) (value : T) (src : List T) :
    copyFromSlice (b.resize src.length value) src = src := by
  have hlen : (b.resize src.length value).length = src.length := by
    rw [Buffer.resize, List.length_append, List.length_take, List.length_replicate]
    omega
  rw [copyFromSlice, List.drop_eq_nil_of_le (by omega), List.append_nil]

/-- A pool holds empty buffers only, not too many and none too large. -/
structure BufferPool (T : Type) (maxBuffers maxCapacity : Nat) where
  /-- The last one first. -/
  buffers : List (Buffer T)
  few : buffers.length ≤ maxBuffers
  tidy : ∀ b ∈ buffers, b.items = [] ∧ b.capacity ≤ maxCapacity

namespace BufferPool

def new : BufferPool T maxBuffers maxCapacity := ⟨[], Nat.zero_le _, fun _ h => by cases h⟩

def take (p : BufferPool T maxBuffers maxCapacity) :
    Buffer T × BufferPool T maxBuffers maxCapacity :=
  match p with
  | ⟨[], few, tidy⟩ => (⟨[], 0⟩, ⟨[], few, tidy⟩)
  | ⟨b :: rest, few, tidy⟩ =>
    (b, ⟨rest, Nat.le_of_succ_le few, fun b' h => tidy b' (List.mem_cons_of_mem b h)⟩)

def put (p : BufferPool T maxBuffers maxCapacity) (b : Buffer T) :
    BufferPool T maxBuffers maxCapacity :=
  if hsmall : b.capacity > maxCapacity then p
  else if hfull : p.buffers.length ≥ maxBuffers then p
  else {
    buffers := ⟨[], b.capacity⟩ :: p.buffers
    few := Nat.lt_of_not_ge hfull
    tidy := by
      intro b' hb'
      rcases List.mem_cons.mp hb' with rfl | hb'
      · exact ⟨rfl, Nat.le_of_not_gt hsmall⟩
      · exact p.tidy b' hb' }

end BufferPool

end Buffers

/-! ## The two threads -/

def videoFrameQueueCapacity : Nat := 24

/-- `BufferPool::new` takes the larger of its arguments and one. -/
abbrev VideoPool : Type := BufferPool UInt8 (max 4 1) (max (8 * 1024 * 1024) 1)

/-- A frame whose data goes back to the pool when it is dropped. -/
structure PooledFrame where
  frame : VideoFrame
  capacity : Nat

def PooledFrame.buffer (f : PooledFrame) : Buffer UInt8 := ⟨f.frame.data, f.capacity⟩

/-- What the core hands to `video_refresh_callback`. -/
inductive RefreshData where
  | null
  | hwFrameBuffer
  | memory (bytes : List UInt8)

/-- The emulator thread: outside of the callback, or in it before the step it performs next. -/
inductive CoreThread where
  | outside
  | hasVideoSessions (picture : VideoFrame)
  | channelLen (picture : VideoFrame)
  | takeBuffer (picture : VideoFrame)
  | fill (picture : VideoFrame) (buffer : Buffer UInt8)
  | onVideoFrame (frame : PooledFrame)
  | trySend (frame : PooledFrame)
  | dropOldest (frame : PooledFrame)
  | putOldest (frame oldest : PooledFrame)
  | trySendAgain (frame : PooledFrame)
  | dropFrame (frame : PooledFrame)

/-- The frame sender, before the step it performs next. -/
inductive SenderThread where
  | receiving
  | draining (frame : PooledFrame)
  | putReplaced (frame replaced : PooledFrame)
  | handling (frame : PooledFrame)

structure FramePath where
  pixelFormat : RetroPixelFormat
  sessions : Bool
  pool : VideoPool
  /-- The oldest frame first. -/
  channel : List PooledFrame
  core : CoreThread
  sender : SenderThread
  shown : List VideoFrame
  offered : List VideoFrame
  received : List VideoFrame
  taken : List VideoFrame

inductive FrameAction where
  | setPixelFormat (format : RetroPixelFormat)
  | refresh (data : RefreshData) (width height pitch : Nat)
  /-- The next step of the callback; `capacity` is what the allocator gives a buffer that grows. -/
  | core (capacity : Nat)
  | sender
  | sessions (present : Bool)

namespace FramePath

def init : FramePath :=
  ⟨.xrgb8888, false, BufferPool.new, [], .outside, .receiving, [], [], [], []⟩

/-- `video_refresh_callback` up to `should_emit_video`.  The core's memory has the rows it says. -/
def refresh (s : FramePath) (data : RefreshData) (width height pitch : Nat) : Option FramePath :=
  match data with
  | .null => some s
  | .hwFrameBuffer => some s
  | .memory bytes =>
    if pitch = 0 ∨ width = 0 ∨ height = 0 then some s
    else if saturatingMul pitch height = 0 then some s
    else if bytes.length < saturatingMul pitch height then none
    else
      let picture : VideoFrame :=
        ⟨s.pixelFormat, width, height, pitch, bytes.take (saturatingMul pitch height)⟩
      some { s with core := .hasVideoSessions picture, shown := picture :: s.shown }

/-- `should_emit_video`, the copy, and `on_video_frame`. -/
def coreStep (s : FramePath) (capacity : Nat) : Option FramePath :=
  match s.core with
  | .outside => none
  | .hasVideoSessions picture =>
    some { s with core := if s.sessions then .channelLen picture else .outside }
  | .channelLen picture =>
    some { s with
      core :=
        if s.channel.length < videoFrameQueueCapacity then .takeBuffer picture else .outside }
  | .takeBuffer picture =>
    some { s with pool := s.pool.take.2, core := .fill picture s.pool.take.1 }
  | .fill picture buffer =>
    let bytes := saturatingMul picture.pitch picture.height
    if max buffer.capacity bytes ≤ capacity then
      some { s with
        core := .onVideoFrame ⟨⟨s.pixelFormat, picture.width, picture.height, picture.pitch,
          copyFromSlice (buffer.resize bytes 0) picture.data⟩, capacity⟩ }
    else none
  | .onVideoFrame frame =>
    if s.sessions then
      some { s with core := .trySend frame, offered := frame.frame :: s.offered }
    else some { s with core := .dropFrame frame }
  | .trySend frame =>
    if s.channel.length < videoFrameQueueCapacity then
      some { s with channel := s.channel ++ [frame], core := .outside }
    else some { s with core := .dropOldest frame }
  | .dropOldest frame =>
    match s.channel with
    | [] => some { s with core := .trySendAgain frame }
    | oldest :: rest => some { s with channel := rest, core := .putOldest frame oldest }
  | .putOldest frame oldest =>
    some { s with pool := s.pool.put oldest.buffer, core := .trySendAgain frame }
  | .trySendAgain frame =>
    if s.channel.length < videoFrameQueueCapacity then
      some { s with channel := s.channel ++ [frame], core := .outside }
    else some { s with core := .dropFrame frame }
  | .dropFrame frame => some { s with pool := s.pool.put frame.buffer, core := .outside }

/-- The loop of `spawn_frame_sender`; what it does with the frame it took is in `VideoSender`. -/
def senderStep (s : FramePath) : Option FramePath :=
  match s.sender with
  | .receiving =>
    match s.channel with
    | [] => none
    | frame :: rest =>
      some { s with
        channel := rest, sender := .draining frame, received := frame.frame :: s.received }
  | .draining frame =>
    match s.channel with
    | [] => some { s with sender := .handling frame, taken := frame.frame :: s.taken }
    | newer :: rest =>
      some { s with
        channel := rest, sender := .putReplaced newer frame, received := newer.frame :: s.received }
  | .putReplaced frame replaced =>
    some { s with pool := s.pool.put replaced.buffer, sender := .draining frame }
  | .handling frame => some { s with pool := s.pool.put frame.buffer, sender := .receiving }

/-- The core calls the callbacks from its own thread, one after the other. -/
def step (s : FramePath) : FrameAction → Option FramePath
  | .setPixelFormat format =>
    match s.core with
    | .outside => some { s with pixelFormat := format }
    | _ => none
  | .refresh data width height pitch =>
    match s.core with
    | .outside => s.refresh data width height pitch
    | _ => none
  | .core capacity => s.coreStep capacity
  | .sender => s.senderStep
  | .sessions present => some { s with sessions := present }

end FramePath

/-! ## The invariant -/

/-- The picture of a callback that has sent nothing yet. -/
def CoreThread.picture : CoreThread → Option VideoFrame
  | .hasVideoSessions picture => some picture
  | .channelLen picture => some picture
  | .takeBuffer picture => some picture
  | .fill picture _ => some picture
  | .onVideoFrame frame => some frame.frame
  | _ => none

/-- The frame a callback is sending. -/
def CoreThread.sending : CoreThread → List VideoFrame
  | .trySend frame => [frame.frame]
  | _ => []

/-- The newest frame the sender has received, until it takes it. -/
def SenderThread.hand : SenderThread → List VideoFrame
  | .draining frame => [frame.frame]
  | .putReplaced frame _ => [frame.frame]
  | _ => []

/-- The rows of a picture are all there. -/
structure WholeRows (f : VideoFrame) : Prop where
  width : 0 < f.width
  height : 0 < f.height
  pitch : 0 < f.pitch
  data : f.data.length = saturatingMul f.pitch f.height

/-- The callback has room for the frame it sends, and is in no branch of a full channel. -/
def CoreThread.Fits (channel : List PooledFrame) : CoreThread → Prop
  | .takeBuffer _ => channel.length < videoFrameQueueCapacity
  | .fill _ _ => channel.length < videoFrameQueueCapacity
  | .onVideoFrame _ => channel.length < videoFrameQueueCapacity
  | .trySend _ => channel.length < videoFrameQueueCapacity
  | .dropOldest _ => False
  | .putOldest _ _ => False
  | .trySendAgain _ => False
  | _ => True

structure PathInv (s : FramePath) : Prop where
  bounded : s.channel.length ≤ videoFrameQueueCapacity
  fits : s.core.Fits s.channel
  whole : ∀ f ∈ s.shown, WholeRows f
  /-- What is offered was shown, and what is not offered yet was shown since. -/
  offered : (s.core.picture.toList ++ s.offered).Sublist s.shown
  format : ∀ picture, s.core.picture = some picture → picture.format = s.pixelFormat
  /-- What was offered is received, in the channel or being sent, in this order. -/
  fifo : s.offered.reverse =
    s.received.reverse ++ s.channel.map PooledFrame.frame ++ s.core.sending
  taken : (s.sender.hand ++ s.taken).Sublist s.received
  newest : s.received.head? = (s.sender.hand ++ s.taken).head?

theorem CoreThread.Fits.shrink {core : CoreThread} {channel channel' : List PooledFrame}
    (h : core.Fits channel) (hle : channel'.length ≤ channel.length) : core.Fits channel' := by
  cases core with
  | takeBuffer picture => exact Nat.lt_of_le_of_lt hle h
  | fill picture buffer => exact Nat.lt_of_le_of_lt hle h
  | onVideoFrame frame => exact Nat.lt_of_le_of_lt hle h
  | trySend frame => exact Nat.lt_of_le_of_lt hle h
  | _ => exact h

theorem pathInv_init : PathInv FramePath.init where
  bounded := Nat.zero_le _
  fits := trivial
  whole f hf := by cases hf
  offered := List.Sublist.refl _
  format picture h := by cases h
  fifo := rfl
  taken := List.Sublist.refl _
  newest := rfl

variable {s s' : FramePath}

theorem pathInv_refresh (hinv : PathInv s) (hcore : s.core = .outside) {data : RefreshData}
    {width height pitch : Nat} (hs : s.refresh data width height pitch = some s') :
    PathInv s' := by
  unfold FramePath.refresh at hs
  split at hs
  · cases hs; exact hinv
  · cases hs; exact hinv
  · next bytes =>
    split at hs
    · cases hs; exact hinv
    · next hsize =>
      split at hs
      · cases hs; exact hinv
      · split at hs
        · cases hs
        · next hbytes =>
          cases hs
          refine { hinv with fits := trivial, whole := ?_, offered := ?_, format := ?_, fifo := ?_ }
          · intro f hf
            rcases List.mem_cons.mp hf with rfl | hf
            · have hpos : 0 < width ∧ 0 < height ∧ 0 < pitch := by omega
              refine ⟨hpos.1, hpos.2.1, hpos.2.2, ?_⟩
              rw [List.length_take]
              exact Nat.min_eq_left (Nat.le_of_not_lt hbytes)
            · exact hinv.whole f hf
          · have hoffered := hinv.offered
            rw [hcore] at hoffered
            exact hoffered.cons_cons _
          · intro picture hpicture
            cases hpicture
            rfl
          · have hfifo := hinv.fifo
            rw [hcore] at hfifo
            exact hfifo

/-- A step of the callback that sends nothing and keeps, or gives up, its picture. -/
theorem PathInv.moveCore (hinv : PathInv s) {core : CoreThread} (pool : VideoPool)
    (hsending : s.core.sending = []) (hsending' : core.sending = [])
    (hpicture : core.picture = s.core.picture ∨ core.picture = none)
    (hfits : core.Fits s.channel) : PathInv { s with pool := pool, core := core } := by
  refine { hinv with fits := hfits, offered := ?_, format := ?_, fifo := ?_ }
  · rcases hpicture with heq | heq
    · rw [heq]; exact hinv.offered
    · rw [heq]; exact (List.sublist_append_right _ _).trans hinv.offered
  · intro picture h
    rcases hpicture with heq | heq
    · exact hinv.format picture (heq ▸ h)
    · rw [heq] at h; cases h
  · have hfifo := hinv.fifo
    rw [hsending] at hfifo
    rw [hsending']
    exact hfifo

theorem pathInv_core (hinv : PathInv s) {capacity : Nat} (hs : s.coreStep capacity = some s') :
    PathInv s' := by
  have hfits := hinv.fits
  unfold FramePath.coreStep at hs
  cases hcore : s.core with
  | outside => simp only [hcore] at hs; cases hs
  | hasVideoSessions picture =>
    simp only [hcore, Option.some.injEq] at hs
    subst hs
    refine hinv.moveCore s.pool (by rw [hcore]; rfl) ?_ ?_ ?_
    all_goals split <;> simp [CoreThread.sending, CoreThread.picture, CoreThread.Fits, hcore]
  | channelLen picture =>
    simp only [hcore, Option.some.injEq] at hs
    subst hs
    split
    · next hlen =>
      exact hinv.moveCore s.pool (by rw [hcore]; rfl) rfl (Or.inl (by rw [hcore]; rfl)) hlen
    · exact hinv.moveCore s.pool (by rw [hcore]; rfl) rfl (Or.inr rfl) trivial
  | takeBuffer picture =>
    simp only [hcore, Option.some.injEq] at hs
    subst hs
    rw [hcore] at hfits
    exact hinv.moveCore _ (by rw [hcore]; rfl) rfl (Or.inl (by rw [hcore]; rfl)) hfits
  | fill picture buffer =>
    simp only [hcore] at hs
    split at hs
    · cases hs
      rw [hcore] at hfits
      -- the frame is the picture again
      have hmem : picture ∈ s.shown := by
        have hoffered := hinv.offered
        rw [hcore] at hoffered
        exact hoffered.subset List.mem_cons_self
      have hframe : (⟨s.pixelFormat, picture.width, picture.height, picture.pitch,
          copyFromSlice (buffer.resize (saturatingMul picture.pitch picture.height) 0)
            picture.data⟩ : VideoFrame) = picture := by
        rw [← (hinv.whole picture hmem).data, copyFromSlice_resize,
          ← hinv.format picture (by rw [hcore]; rfl)]
      refine hinv.moveCore s.pool (by rw [hcore]; rfl) rfl (Or.inl ?_) hfits
      rw [hcore, CoreThread.picture, hframe]
      rfl
    · cases hs
  | onVideoFrame frame =>
    simp only [hcore] at hs
    rw [hcore] at hfits
    split at hs
    · cases hs
      refine { hinv with fits := hfits, offered := ?_, format := ?_, fifo := ?_ }
      · have hoffered := hinv.offered
        rw [hcore] at hoffered
        exact hoffered
      · intro picture h; cases h
      · have hfifo := hinv.fifo
        rw [hcore] at hfifo
        rw [List.reverse_cons, hfifo]
        simp [CoreThread.sending]
    · cases hs
      exact hinv.moveCore s.pool (by rw [hcore]; rfl) rfl (Or.inr rfl) trivial
  | trySend frame =>
    simp only [hcore] at hs
    rw [hcore] at hfits
    split at hs
    · next hlen =>
      cases hs
      refine { hinv with bounded := ?_, fits := trivial, offered := ?_, format := ?_, fifo := ?_ }
      · rw [List.length_append]; exact hlen
      · have hoffered := hinv.offered
        rw [hcore] at hoffered
        exact hoffered
      · intro picture h; cases h
      · have hfifo := hinv.fifo
        rw [hcore] at hfifo
        rw [hfifo]
        simp [CoreThread.sending]
    · next hlen => exact absurd hfits hlen
  | dropOldest frame => rw [hcore] at hfits; exact hfits.elim
  | putOldest frame oldest => rw [hcore] at hfits; exact hfits.elim
  | trySendAgain frame => rw [hcore] at hfits; exact hfits.elim
  | dropFrame frame =>
    simp only [hcore, Option.some.injEq] at hs
    subst hs
    exact hinv.moveCore _ (by rw [hcore]; rfl) rfl (Or.inr rfl) trivial

theorem pathInv_sender (hinv : PathInv s) (hs : s.senderStep = some s') : PathInv s' := by
  have htaken := hinv.taken
  have hnewest := hinv.newest
  unfold FramePath.senderStep at hs
  cases hsender : s.sender with
  | receiving =>
    rw [hsender] at htaken
    simp only [hsender] at hs
    split at hs
    · cases hs
    · next frame rest hchannel =>
      cases hs
      refine { hinv with bounded := ?_, fits := ?_, fifo := ?_, taken := ?_, newest := rfl }
      · have hbounded := hinv.bounded
        rw [hchannel] at hbounded
        exact Nat.le_of_succ_le hbounded
      · exact hinv.fits.shrink (by rw [hchannel]; exact Nat.le_succ _)
      · rw [hinv.fifo, hchannel]
        simp
      · exact htaken.cons_cons _
  | draining frame =>
    rw [hsender] at htaken hnewest
    simp only [hsender] at hs
    split at hs
    · next hchannel =>
      cases hs
      exact { hinv with taken := htaken, newest := hnewest }
    · next newer rest hchannel =>
      cases hs
      refine { hinv with bounded := ?_, fits := ?_, fifo := ?_, taken := ?_, newest := rfl }
      · have hbounded := hinv.bounded
        rw [hchannel] at hbounded
        exact Nat.le_of_succ_le hbounded
      · exact hinv.fits.shrink (by rw [hchannel]; exact Nat.le_succ _)
      · rw [hinv.fifo, hchannel]
        simp
      · exact ((List.sublist_cons_self _ _).trans htaken).cons_cons _
  | putReplaced frame replaced =>
    rw [hsender] at htaken hnewest
    simp only [hsender, Option.some.injEq] at hs
    subst hs
    exact { hinv with taken := htaken, newest := hnewest }
  | handling frame =>
    rw [hsender] at htaken hnewest
    simp only [hsender, Option.some.injEq] at hs
    subst hs
    exact { hinv with taken := htaken, newest := hnewest }

theorem pathInv_step (hinv : PathInv s) {a : FrameAction} (hs : s.step a = some s') :
    PathInv s' := by
  cases a with
  | setPixelFormat format =>
    simp only [FramePath.step] at hs
    split at hs
    · next hcore =>
      cases hs
      refine { hinv with format := fun picture h => ?_ }
      simp only [hcore, CoreThread.picture] at h
      cases h
    · cases hs
  | refresh data width height pitch =>
    simp only [FramePath.step] at hs
    split at hs
    · next hcore => exact pathInv_refresh hinv hcore hs
    · cases hs
  | core capacity => exact pathInv_core hinv hs
  | sender => exact pathInv_sender hinv hs
  | sessions present =>
    cases hs
    exact { hinv with }

/-! ## Runs -/

/-- **The sender gets what the core showed**, in order, and never less than the newest: whatever is
offered is received in that order, as long as the channel stays within its bound and the pool within
its own, no sent frame is given up for another, and a sender with nothing left to receive has taken
the newest frame that was offered. -/
theorem frames_delivered {actions : List FrameAction} (h : Run FramePath.step .init actions s) :
    s.channel.length ≤ 24 ∧ s.pool.buffers.length ≤ 4 ∧
      s.taken.Sublist s.offered ∧ s.offered.Sublist s.shown ∧ (∀ f ∈ s.taken, WholeRows f) ∧
      s.offered.reverse =
        s.received.reverse ++ s.channel.map PooledFrame.frame ++ s.core.sending ∧
      (s.channel = [] → s.core.sending = [] → s.sender.hand = [] →
        s.taken.head? = s.offered.head?) := by
  have hinv : PathInv s := h.invariant pathInv_init fun _ _ _ hinv _ hs => pathInv_step hinv hs
  have hoffered : s.offered.Sublist s.shown :=
    (List.sublist_append_right _ _).trans hinv.offered
  have htaken : s.taken.Sublist s.offered := by
    have hreceived : s.received.reverse.Sublist s.offered.reverse := by
      rw [hinv.fifo, List.append_assoc]
      exact List.sublist_append_left _ _
    exact ((List.sublist_append_right _ _).trans hinv.taken).trans
      (List.reverse_sublist.mp hreceived)
  refine ⟨hinv.bounded, s.pool.few, htaken, hoffered,
    fun f hf => hinv.whole f (hoffered.subset (htaken.subset hf)), hinv.fifo, ?_⟩
  intro hchannel hsending hhand
  have hfifo := hinv.fifo
  rw [hchannel, hsending, List.map_nil, List.append_nil, List.append_nil,
    List.reverse_inj] at hfifo
  have hnewest := hinv.newest
  rw [hhand, List.nil_append] at hnewest
  rw [hfifo, hnewest]

/-- Two pictures of one pixel, from the core to the sender, which takes each of them. -/
def twoPictures : List FrameAction :=
  [.sessions true, .refresh (.memory [1, 2, 3, 4]) 1 1 4] ++ List.replicate 6 (.core 4) ++
    List.replicate 2 .sender ++ [.refresh (.memory [5, 6, 7, 8]) 1 1 4] ++
    List.replicate 6 (.core 4) ++ List.replicate 3 .sender

theorem frames_delivered_two :
    ∃ s, Run FramePath.step .init twoPictures s ∧ s.taken.length = 2 ∧
      s.taken.Sublist s.offered ∧ s.taken.head? = s.offered.head? := by
  obtain ⟨s, hrun, hchannel, hsending, hhand, htaken⟩ := execWhen_any
    (P := fun s : FramePath => s.channel.length = 0 ∧ s.core.sending.length = 0 ∧
      s.sender.hand.length = 0 ∧ s.taken.length = 2)
    (show (execWhen (fun _ _ => True) FramePath.step FramePath.init twoPictures).any
      (fun s => decide (s.channel.length = 0 ∧ s.core.sending.length = 0 ∧
        s.sender.hand.length = 0 ∧ s.taken.length = 2)) = true from by decide +kernel)
  obtain ⟨-, -, htakes, -, -, -, hnewest⟩ := frames_delivered hrun
  exact ⟨s, hrun, htaken, htakes, hnewest (List.length_eq_zero_iff.mp hchannel)
    (List.length_eq_zero_iff.mp hsending) (List.length_eq_zero_iff.mp hhand)⟩

end CloudGame.Worker
