import CloudGame.Lib.Base64
import CloudGame.Lib.Machine
import CloudGame.Worker.Libretro

/-!
# The audio sender (`arcade-worker/src/audio_sender.rs`)

Frames of interleaved stereo samples come in any size and are cut into packets of twenty
milliseconds; what is too short for a packet waits for the next frame.  The rate is set before the
sender is spawned.  The size of a packet is computed in `f64` in the source, and exactly here.

`Cut` is the invariant: the samples received are those of the packets and those that wait, both of
them in whole pairs of left and right.

* `audio_chunks`: the packets decode to the samples received, in order and up to those that wait,
  and all begin on the left.
-/

namespace CloudGame.Worker

open CloudGame.Lib

def audioFrameMs : Nat := 20

/-- The samples of a packet at a rate. -/
def requiredSamples (sampleRate : UInt32) : Nat :=
  saturatingMul (max (divCeil (max sampleRate.toNat 1 * audioFrameMs) 1000) 1) 2

/-- `i16::to_le_bytes`. -/
def toLeBytes (sample : Int16) : List UInt8 :=
  [sample.toUInt16.toUInt8, (sample.toUInt16 >>> 8).toUInt8]

/-- The bytes of the first `n` samples, and the samples behind them. -/
def popSamples : Nat → List Int16 → List UInt8 × List Int16
  | 0, pending => ([], pending)
  | n + 1, [] => popSamples n []
  | n + 1, sample :: pending =>
    let popped := popSamples n pending
    (toLeBytes sample ++ popped.1, popped.2)

structure AudioSender where
  pending : List Int16
  /-- What `broadcast_audio_frame` was passed, oldest first. -/
  broadcast : List String

namespace AudioSender

variable (base64 : Base64Codec)

/-- The loop that cuts packets.  A packet has samples, so as many rounds as samples wait are
enough. -/
def cutPackets (required : Nat) : Nat → AudioSender → AudioSender
  | 0, s => s
  | fuel + 1, s =>
    if s.pending.length ≥ required then
      let popped := popSamples required s.pending
      cutPackets required fuel ⟨popped.2, s.broadcast ++ [base64.encode popped.1]⟩
    else s

def handleFrame (sampleRate : UInt32) (s : AudioSender) (samples : List Int16) : AudioSender :=
  if samples = [] then s
  else if samples.length % 2 = 1 then s
  else
    let s := { s with pending := s.pending ++ samples }
    let required := requiredSamples sampleRate
    if required = 0 then s else s.cutPackets base64 required s.pending.length

/-- The sender after the frames, oldest first. -/
def after (sampleRate : UInt32) (frames : List (List Int16)) : AudioSender :=
  frames.foldl (handleFrame base64 sampleRate) ⟨[], []⟩

end AudioSender

/-! ## What a receiver makes of it -/

def samplesOf : List UInt8 → List Int16
  | low :: high :: rest => (fromLeBytes low high).toInt16 :: samplesOf rest
  | _ => []

def decodePacket (base64 : Base64Codec) (encoded : String) : Option (List Int16) :=
  (base64.decode encoded).map samplesOf

theorem fromLeBytes_split (value : UInt16) :
    fromLeBytes value.toUInt8 (value >>> 8).toUInt8 = value := by
  apply UInt16.toNat.inj
  have hlt : value.toNat < 2 ^ 16 := value.toNat_lt
  have hshift : (value >>> 8).toNat = value.toNat / 2 ^ 8 := by
    rw [UInt16.toNat_shiftRight, show (8 : UInt16).toNat % 16 = 8 from rfl,
      Nat.shiftRight_eq_div_pow]
  rw [toNat_fromLeBytes, UInt16.toNat_toUInt8, UInt16.toNat_toUInt8, hshift]
  omega

theorem samplesOf_toLeBytes (samples : List Int16) :
    samplesOf (samples.flatMap toLeBytes) = samples := by
  induction samples with
  | nil => rfl
  | cons sample rest ih =>
    show (fromLeBytes _ _).toInt16 :: samplesOf (rest.flatMap toLeBytes) = _
    rw [fromLeBytes_split, ih]
    rfl

theorem popSamples_eq (n : Nat) (pending : List Int16) :
    popSamples n pending = ((pending.take n).flatMap toLeBytes, pending.drop n) := by
  induction n generalizing pending with
  | zero => rfl
  | succ n ih =>
    cases pending with
    | nil =>
      rw [popSamples, ih]
      simp
    | cons sample pending =>
      rw [popSamples, ih]
      rfl

theorem decodePacket_encode {base64 : Base64Codec} (h : base64.Lawful) (samples : List Int16) :
    decodePacket base64 (base64.encode (samples.flatMap toLeBytes)) = some samples := by
  rw [decodePacket, h.decode_encode, Option.map_some, samplesOf_toLeBytes]

/-- A packet has twenty milliseconds of both channels. -/
theorem requiredSamples_eq (sampleRate : UInt32) :
    requiredSamples sampleRate = 2 * max 1 (divCeil sampleRate.toNat 50) := by
  have hlt : sampleRate.toNat < 2 ^ 32 := sampleRate.toNat_lt
  unfold requiredSamples audioFrameMs divCeil saturatingMul
  omega

/-! ## Left and right -/

inductive Side where
  | left
  | right
deriving DecidableEq

/-- The samples of a frame with their channels: left comes first, and they alternate. -/
def withSides (samples : List Int16) : List (Int16 × Side) :=
  samples.zipIdx.map fun e => (e.1, if e.2 % 2 = 0 then .left else .right)

/-- The frames that are not skipped, one after the other. -/
def received (frames : List (List Int16)) : List (Int16 × Side) :=
  (frames.filter fun samples => samples ≠ [] ∧ samples.length % 2 = 0).flatMap withSides

/-- The channels alternate, and left comes first. -/
def Interleaved (samples : List (Int16 × Side)) : Prop :=
  ∀ i, samples[i]?.map Prod.snd =
    if i < samples.length then some (if i % 2 = 0 then .left else .right) else none

theorem withSides_fst (samples : List Int16) : (withSides samples).map Prod.fst = samples := by
  rw [withSides, List.map_map]
  exact List.zipIdx_map_fst 0 samples

theorem length_withSides (samples : List Int16) : (withSides samples).length = samples.length := by
  rw [withSides, List.length_map, List.length_zipIdx]

theorem withSides_interleaved (samples : List Int16) : Interleaved (withSides samples) := by
  intro i
  rw [length_withSides, withSides, List.getElem?_map, List.getElem?_zipIdx, Nat.zero_add]
  split
  · next hi =>
    rw [List.getElem?_eq_getElem hi]
    rfl
  · next hi =>
    rw [List.getElem?_eq_none (Nat.le_of_not_lt hi)]
    rfl

/-- What follows whole pairs goes on with a left sample. -/
theorem Interleaved.append {first second : List (Int16 × Side)} (h : Interleaved first)
    (h' : Interleaved second) (heven : first.length % 2 = 0) : Interleaved (first ++ second) := by
  intro i
  rw [List.length_append]
  by_cases hi : i < first.length
  · have hlt : i < first.length + second.length := by omega
    rw [List.getElem?_append_left hi, h i, if_pos hi, if_pos hlt]
  · rw [List.getElem?_append_right (by omega), h' (i - first.length)]
    have hparity : (i - first.length) % 2 = i % 2 := by omega
    rw [hparity]
    have hsame : i - first.length < second.length ↔ i < first.length + second.length := by omega
    simp only [hsame]

/-- Without its first pairs it still begins on the left. -/
theorem Interleaved.drop {samples : List (Int16 × Side)} (h : Interleaved samples) {n : Nat}
    (heven : n % 2 = 0) : Interleaved (samples.drop n) := by
  intro i
  have hparity : (n + i) % 2 = i % 2 := by omega
  have hsame : n + i < samples.length ↔ i < samples.length - n := by omega
  rw [List.getElem?_drop, h (n + i), hparity, List.length_drop]
  simp only [hsame]

theorem Interleaved.take {samples : List (Int16 × Side)} (h : Interleaved samples) (n : Nat) :
    Interleaved (samples.take n) := by
  intro i
  rw [List.length_take, List.getElem?_take]
  by_cases hi : i < n
  · have hsame : i < min n samples.length ↔ i < samples.length := by omega
    rw [if_pos hi, h i]
    simp only [hsame]
  · rw [if_neg hi, if_neg (by omega)]
    rfl

theorem received_interleaved (frames : List (List Int16)) : Interleaved (received frames) := by
  induction frames with
  | nil => exact fun i => rfl
  | cons samples frames ih =>
    rw [received, List.filter_cons]
    split
    · next hkeep =>
      rw [List.flatMap_cons]
      refine (withSides_interleaved samples).append ih ?_
      rw [length_withSides]
      exact (of_decide_eq_true hkeep).2
    · exact ih

/-! ## Cutting -/

/-- The samples received are those of the packets that were broadcast and those that wait; both
begin on the left. -/
structure Cut (base64 : Base64Codec) (size : Nat) (samples : List (Int16 × Side)) (s : AudioSender)
    (packets : List (List (Int16 × Side))) (waiting : List (Int16 × Side)) : Prop where
  split : samples = packets.flatten ++ waiting
  decoded : s.broadcast.map (decodePacket base64) = packets.map fun p => some (p.map Prod.fst)
  pending : waiting.map Prod.fst = s.pending
  sizes : ∀ p ∈ packets, p.length = size ∧ p.head?.map Prod.snd = some .left
  pairs : waiting.length % 2 = 0
  sides : Interleaved waiting

section Cutting

variable {base64 : Base64Codec} {size : Nat} {samples : List (Int16 × Side)} {s : AudioSender}
  {packets : List (List (Int16 × Side))} {waiting : List (Int16 × Side)}

/-- More samples arrive. -/
theorem Cut.receive (h : Cut base64 size samples s packets waiting) {frame : List Int16}
    (heven : frame.length % 2 = 0) :
    Cut base64 size (samples ++ withSides frame) { s with pending := s.pending ++ frame } packets
      (waiting ++ withSides frame) where
  split := by rw [h.split, List.append_assoc]
  decoded := h.decoded
  pending := by rw [List.map_append, h.pending, withSides_fst]
  sizes := h.sizes
  pairs := by rw [List.length_append, length_withSides, Nat.add_mod, h.pairs, heven]
  sides := h.sides.append (withSides_interleaved frame) h.pairs

/-- One packet is cut off. -/
theorem Cut.packet (hbase64 : base64.Lawful) (h : Cut base64 size samples s packets waiting)
    (hpos : 0 < size) (hsize : size % 2 = 0) (hlen : size ≤ s.pending.length) :
    Cut base64 size samples
      ⟨(popSamples size s.pending).2,
        s.broadcast ++ [base64.encode (popSamples size s.pending).1]⟩
      (packets ++ [waiting.take size]) (waiting.drop size) := by
  have hwaiting : waiting.length = s.pending.length := by rw [← h.pending, List.length_map]
  have hlength : (waiting.take size).length = size := by
    rw [List.length_take]
    omega
  refine ⟨?_, ?_, ?_, fun p hp => ?_, ?_, h.sides.drop hsize⟩
  · rw [List.flatten_append, List.flatten_singleton, List.append_assoc, List.take_append_drop,
      h.split]
  · rw [popSamples_eq, List.map_append, List.map_append, h.decoded, List.map_singleton,
      List.map_singleton, decodePacket_encode hbase64, ← h.pending, List.map_take]
  · rw [popSamples_eq, List.map_drop, h.pending]
  · rcases List.mem_append.mp hp with hp | hp
    · exact h.sizes p hp
    · obtain rfl := List.mem_singleton.mp hp
      refine ⟨hlength, ?_⟩
      have hfirst := h.sides 0
      rw [if_pos (by omega)] at hfirst
      rw [List.head?_take, if_neg (by omega), List.head?_eq_getElem?, hfirst]
      rfl
  · have hpairs := h.pairs
    rw [List.length_drop]
    omega

/-- The loop cuts off packets until too few samples wait for another one. -/
theorem Cut.cutPackets (hbase64 : base64.Lawful) (hpos : 0 < size) (hsize : size % 2 = 0) :
    ∀ (fuel : Nat) {s : AudioSender} {packets : List (List (Int16 × Side))}
      {waiting : List (Int16 × Side)}, s.pending.length ≤ fuel →
      Cut base64 size samples s packets waiting → ∃ packets' waiting',
        Cut base64 size samples (s.cutPackets base64 size fuel) packets' waiting' ∧
        (s.cutPackets base64 size fuel).pending.length < size := by
  intro fuel
  induction fuel with
  | zero =>
    intro s packets waiting hfuel h
    exact ⟨packets, waiting, h, by rw [AudioSender.cutPackets]; omega⟩
  | succ fuel ih =>
    intro s packets waiting hfuel h
    rw [AudioSender.cutPackets]
    split
    · next hlen =>
      refine ih ?_ (h.packet hbase64 hpos hsize hlen)
      rw [popSamples_eq]
      show (s.pending.drop size).length ≤ fuel
      rw [List.length_drop]
      omega
    · next hshort => exact ⟨packets, waiting, h, Nat.lt_of_not_le hshort⟩

end Cutting

/-! ## The result -/

/-- After any frames there is a cut, and too few samples wait for a packet. -/
theorem cut_after {base64 : Base64Codec} (hbase64 : base64.Lawful) (sampleRate : UInt32)
    (frames : List (List Int16)) : ∃ packets waiting,
      Cut base64 (requiredSamples sampleRate) (received frames)
        (AudioSender.after base64 sampleRate frames) packets waiting ∧
      (AudioSender.after base64 sampleRate frames).pending.length < requiredSamples sampleRate := by
  have hsize := requiredSamples_eq sampleRate
  have hpos : 0 < requiredSamples sampleRate := by omega
  induction frames using List.reverseRecOn with
  | nil => exact ⟨[], [], ⟨rfl, rfl, rfl, nofun, rfl, fun i => rfl⟩, hpos⟩
  | append_singleton frames samples ih =>
    obtain ⟨packets, waiting, hcut, hshort⟩ := ih
    have hafter : AudioSender.after base64 sampleRate (frames ++ [samples]) =
        (AudioSender.after base64 sampleRate frames).handleFrame base64 sampleRate samples := by
      rw [AudioSender.after, List.foldl_append]
      rfl
    have hreceived : received (frames ++ [samples]) = received frames ++
        if samples ≠ [] ∧ samples.length % 2 = 0 then withSides samples else [] := by
      rw [received, List.filter_append, List.flatMap_append]
      congr 1
      by_cases hkeep : samples ≠ [] ∧ samples.length % 2 = 0
      · simp [hkeep]
      · simp [hkeep]
    rw [hafter, hreceived, AudioSender.handleFrame]
    by_cases hempty : samples = []
    · rw [if_pos hempty, if_neg fun hkeep => hkeep.1 hempty, List.append_nil]
      exact ⟨packets, waiting, hcut, hshort⟩
    · rw [if_neg hempty]
      by_cases hodd : samples.length % 2 = 1
      · rw [if_pos hodd, if_neg fun hkeep => by omega, List.append_nil]
        exact ⟨packets, waiting, hcut, hshort⟩
      · have heven : samples.length % 2 = 0 := by omega
        rw [if_neg hodd, if_pos ⟨hempty, heven⟩]
        dsimp only
        rw [if_neg (Nat.ne_of_gt hpos)]
        exact (hcut.receive heven).cutPackets hbase64 hpos (by omega) _ (Nat.le_refl _)

/-- **Audio packets.**  Whatever frames come, in whatever sizes: the packets hold twenty
milliseconds each, begin on the left, and decode to the samples of all frames that are not skipped,
in order; what is left over waits and is too short for a packet. -/
theorem audio_chunks {base64 : Base64Codec} (hbase64 : base64.Lawful) (sampleRate : UInt32)
    (frames : List (List Int16)) :
    ∃ packets : List (List (Int16 × Side)),
      (AudioSender.after base64 sampleRate frames).broadcast.map (decodePacket base64) =
        packets.map (fun p => some (p.map Prod.fst)) ∧
      packets.flatten <+: received frames ∧
      (∀ p ∈ packets, p.length = 2 * max 1 (divCeil sampleRate.toNat 50) ∧
        p.head?.map Prod.snd = some .left) ∧
      packets.flatten.map Prod.fst ++ (AudioSender.after base64 sampleRate frames).pending =
        (frames.filter fun samples => samples ≠ [] ∧ samples.length % 2 = 0).flatten ∧
      (AudioSender.after base64 sampleRate frames).pending.length <
        2 * max 1 (divCeil sampleRate.toNat 50) := by
  obtain ⟨packets, waiting, hcut, hshort⟩ := cut_after hbase64 sampleRate frames
  rw [requiredSamples_eq] at hcut hshort
  refine ⟨packets, hcut.decoded, ⟨waiting, hcut.split.symm⟩, hcut.sizes, ?_, hshort⟩
  have hsamples : ∀ fs : List (List Int16), (fs.flatMap withSides).map Prod.fst = fs.flatten := by
    intro fs
    rw [List.map_flatMap, List.flatten_eq_flatMap]
    simp only [withSides_fst]
    rfl
  rw [← hcut.pending, ← List.map_append, ← hcut.split, received, hsamples]

/-- At 50 Hz a packet is a pair of samples; a frame of three is skipped. -/
theorem audio_chunks_pairs : ∃ packets : List (List (Int16 × Side)),
    packets.flatten.map Prod.fst ++ (AudioSender.after Base64Codec.standard 50
      [[1, 2, 3, 4], [5, 6, 7], [8, 9]]).pending = [1, 2, 3, 4, 8, 9] ∧
    ∀ p ∈ packets, p.length = 2 := by
  obtain ⟨packets, -, -, hsizes, hsamples, -⟩ :=
    audio_chunks Base64Codec.standard_lawful 50 [[1, 2, 3, 4], [5, 6, 7], [8, 9]]
  exact ⟨packets, hsamples, fun p hp => (hsizes p hp).1⟩

end CloudGame.Worker
