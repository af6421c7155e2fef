import CloudGame.Lib.Run
import CloudGame.Lib.Since
import CloudGame.Portal.ControllerPage
import CloudGame.Portal.TouchMapping

/-!
# The buttons and the stick of the phone (`arcade-portal/src/components/touchControls.jsx`)

Every button keeps the pointer that is on it, the stick its pointer and the directions it points in.
A change of one goes to `setMaskBit` with the bit that the mapping gives it.  The controls are shown
while the phone is held sideways and the remap panel is closed; when they are not, or the window
loses the focus, everything is released.  What goes down and up is logged, newest first.

The page has a `Reset Mapping` button beside the controls.  A press of it while something is held
gives the next release another bit than the press had.

* `mask_shows_buttons`: unless the mapping is reset under a finger, the mask is what has gone down
  and not up again, and that is still held, so nothing stays pressed when no finger is on the phone.
-/

namespace CloudGame.Portal

open CloudGame.Lib

/-! ## State -/

/-- The slots of the stick; the others have a button each. -/
def Slot.isDirection : Slot → Bool
  | up | down | left | right => true
  | _ => false

inductive TouchEvent where
  | down (slot : Slot)
  | up (slot : Slot)
  /-- The stick points in these directions. -/
  | directions (next : Slot → Bool)
  | releaseAll

structure TouchControls where
  isPortrait : Bool
  showRemapPanel : Bool
  mapping : TouchMapping
  maskRef : UInt32
  /-- `pointerIdRef` of every button. -/
  pointerIdRef : Slot → Option Nat
  stickPointerIdRef : Option Nat
  activeDirectionsRef : Slot → Bool
  log : List TouchEvent

/-- `ToUint32` -/
def JsNumber.toUint32 : JsNumber → UInt32
  | .finite q => UInt32.ofInt (q.num.tdiv q.den)
  | _ => 0

namespace TouchControls

def init (mapping : TouchMapping) (isPortrait : Bool) : TouchControls where
  isPortrait := isPortrait
  showRemapPanel := false
  mapping := mapping
  maskRef := 0
  pointerIdRef _ := none
  stickPointerIdRef := none
  activeDirectionsRef _ := false
  log := []

def enabled (s : TouchControls) : Bool := !s.isPortrait && !s.showRemapPanel

/-- `onButtonChange(mapping[slot], pressed)`; `releaseAll` leaves out what has no bit. -/
def change (mapping : TouchMapping) (mask : UInt32) (slot : Slot) (pressed : Bool) : UInt32 :=
  match mapping slot with
  | some bit => maskAfter mask bit.toUint32 pressed
  | none => mask

/-! ## Handlers -/

def handlePointerDown (s : TouchControls) (slot : Slot) (pointerId : Nat) : TouchControls :=
  { s with
    pointerIdRef := Function.update s.pointerIdRef slot (some pointerId)
    maskRef := change s.mapping s.maskRef slot true
    log := .down slot :: s.log }

/-- The pointer was lifted, cancelled or lost, whichever pointer it was. -/
def release (s : TouchControls) (slot : Slot) : TouchControls :=
  match s.pointerIdRef slot with
  | none => s
  | some _ =>
    { s with
      pointerIdRef := Function.update s.pointerIdRef slot none
      maskRef := change s.mapping s.maskRef slot false
      log := .up slot :: s.log }

/-- The four directions, in the order in which they are told. -/
def directionSlots : List Slot := [.up, .down, .left, .right]

def updateDirections (s : TouchControls) (next : Slot → Bool) : TouchControls :=
  if directionSlots.all fun slot => s.activeDirectionsRef slot == next slot then s
  else
    { s with
      activeDirectionsRef := next
      maskRef := directionSlots.foldl (fun mask slot => change s.mapping mask slot (next slot))
        s.maskRef
      log := .directions next :: s.log }

def clearStick (s : TouchControls) : TouchControls :=
  { s with stickPointerIdRef := none }.updateDirections fun _ => false

/-- The directions are those that the position of the pointer gives, if it has one. -/
def updateStickFromEvent (s : TouchControls) (next : Option (Slot → Bool)) : TouchControls :=
  match next with
  | some next => s.updateDirections next
  | none => s

def handleStickPointerDown (s : TouchControls) (pointerId : Nat) (next : Option (Slot → Bool)) :
    TouchControls :=
  if !s.enabled then s
  else { s with stickPointerIdRef := some pointerId }.updateStickFromEvent next

def handleStickPointerMove (s : TouchControls) (pointerId : Nat) (next : Option (Slot → Bool)) :
    TouchControls :=
  if !s.enabled then s
  else if s.stickPointerIdRef ≠ some pointerId then s
  else s.updateStickFromEvent next

def handleStickPointerUp (s : TouchControls) (pointerId : Nat) : TouchControls :=
  if !s.enabled then s
  else if s.stickPointerIdRef ≠ some pointerId then s
  else s.clearStick

/-- The slots in the order of `buttonIds`. -/
def releasedSlots : List Slot :=
  [.up, .down, .left, .right, .select, .start, .a, .b, .c, .x, .y, .z]

def releaseAll (s : TouchControls) : TouchControls :=
  { s with
    stickPointerIdRef := none
    activeDirectionsRef := fun _ => false
    maskRef := releasedSlots.foldl (fun mask slot => change s.mapping mask slot false) s.maskRef
    log := .releaseAll :: s.log }

/-- A render: controls that are not shown lose their buttons, and the effect releases everything. -/
def rendered (s : TouchControls) : TouchControls :=
  if s.enabled then s else { s with pointerIdRef := fun _ => none }.releaseAll

end TouchControls

/-- The slots of `buttons`, whose elements are keyed by their labels. -/
def faceSlots : List Slot := [.x, .y, .z, .a, .b, .c]

/-- A face button goes where its label goes, and is gone with it; every bit has a label of its own.
The others stay and have another bit. -/
def rekeyed (previous next : TouchMapping) (pointers : Slot → Option Nat) (slot : Slot) :
    Option Nat :=
  if slot ∈ faceSlots then (faceSlots.find? fun old => previous old = next slot).bind pointers
  else pointers slot

/-! ## Steps -/

inductive TouchAction where
  | pointerDown (slot : Slot) (pointerId : Nat)
  | pointerEnds (slot : Slot)
  | stickDown (pointerId : Nat) (next : Option (Slot → Bool))
  | stickMove (pointerId : Nat) (next : Option (Slot → Bool))
  | stickUp (pointerId : Nat)
  /-- The pointer of the stick was cancelled or lost. -/
  | stickEnds
  /-- The window lost the focus, or the page was hidden. -/
  | blur
  | orientation (isPortrait : Bool)
  | openRemapPanel
  | closeRemapPanel
  | remap (op : RemapOp)
  /-- The `Reset Mapping` button of the page, which is there while its details are. -/
  | reset

namespace TouchControls

def step (s : TouchControls) : TouchAction → Option TouchControls
  | .pointerDown slot pointerId =>
    if s.enabled ∧ !slot.isDirection then some (s.handlePointerDown slot pointerId) else none
  | .pointerEnds slot =>
    if s.enabled ∧ !slot.isDirection then some (s.release slot) else none
  | .stickDown pointerId next =>
    if s.enabled then some (s.handleStickPointerDown pointerId next) else none
  | .stickMove pointerId next =>
    if s.enabled then some (s.handleStickPointerMove pointerId next) else none
  | .stickUp pointerId => if s.enabled then some (s.handleStickPointerUp pointerId) else none
  | .stickEnds => if s.enabled then some s.clearStick else none
  | .blur => if s.enabled then some s.releaseAll else some s
  | .orientation isPortrait => some { s with isPortrait := isPortrait }.rendered
  | .openRemapPanel => some { s with showRemapPanel := true }.rendered
  | .closeRemapPanel => some { s with showRemapPanel := false }.rendered
  | .remap op =>
    if s.showRemapPanel then some { s with mapping := op.apply s.mapping }.rendered else none
  | .reset =>
    some { s with
      mapping := resetMapping
      pointerIdRef := rekeyed s.mapping resetMapping s.pointerIdRef }.rendered

/-- A finger is on the button, or the stick points in the direction. -/
def Held (s : TouchControls) (slot : Slot) : Prop :=
  if slot.isDirection then s.activeDirectionsRef slot = true else s.pointerIdRef slot ≠ none

/-- The step does not reset the mapping while something is held. -/
def ResetsFree (s : TouchControls) : TouchAction → Prop
  | .reset => ∀ slot, ¬ s.Held slot
  | _ => True

end TouchControls

/-! ## What the log tells -/

def TouchEvent.Presses (slot : Slot) : TouchEvent → Prop
  | .down slot' => slot' = slot
  | .directions next => slot.isDirection = true ∧ next slot = true
  | _ => False

def TouchEvent.Lifts (slot : Slot) : TouchEvent → Prop
  | .up slot' => slot' = slot
  | .directions next => slot.isDirection = true ∧ next slot = false
  | .releaseAll => True
  | .down _ => False

/-- The slot has gone down and not up again. -/
def Lit (slot : Slot) (log : List TouchEvent) : Prop :=
  Since (TouchEvent.Presses slot) (fun e => ¬ e.Lifts slot) log

section Logs

variable {slot slot' : Slot} {next : Slot → Bool} {log : List TouchEvent}

theorem lit_down : Lit slot (.down slot' :: log) ↔ slot = slot' ∨ Lit slot log := by
  rw [Lit, since_cons]
  exact or_congr eq_comm (and_iff_right id)

theorem lit_up : Lit slot (.up slot' :: log) ↔ slot ≠ slot' ∧ Lit slot log := by
  rw [Lit, since_cons]
  exact ⟨fun h => ⟨Ne.symm (h.resolve_left id).1, (h.resolve_left id).2⟩,
    fun h => Or.inr ⟨Ne.symm h.1, h.2⟩⟩

theorem lit_releaseAll : ¬ Lit slot (.releaseAll :: log) := by
  rw [Lit, since_cons]
  rintro (h | ⟨h, -⟩)
  · exact h
  · exact h trivial

theorem lit_directions : Lit slot (.directions next :: log) ↔
    if slot.isDirection then next slot = true else Lit slot log := by
  rw [Lit, since_cons]
  by_cases hdirection : slot.isDirection = true
  · rw [if_pos hdirection]
    cases hnext : next slot with
    | true => exact ⟨fun _ => rfl, fun _ => Or.inl ⟨hdirection, hnext⟩⟩
    | false =>
      refine ⟨?_, nofun⟩
      rintro (⟨-, hpressed⟩ | ⟨hkept, -⟩)
      · rw [hnext] at hpressed
        exact hpressed
      · exact absurd ⟨hdirection, hnext⟩ hkept
  · rw [if_neg hdirection]
    have hpresses : ¬ TouchEvent.Presses slot (.directions next) := fun h => hdirection h.1
    have hlifts : ¬ TouchEvent.Lifts slot (.directions next) := fun h => hdirection h.1
    exact ⟨fun h => (h.resolve_left hpresses).2, fun h => Or.inr ⟨hlifts, h⟩⟩

end Logs

/-! ## Masks -/

theorem toUint32_bit (action : Action) : action.bit.toUint32 = UInt32.ofNat (2 ^ action.shift) := by
  have hcast : ∀ n : Nat, JsNumber.toUint32 (.finite (n : ℚ)) = UInt32.ofInt n := fun n => by
    rw [JsNumber.toUint32, Rat.num_natCast, Rat.den_natCast, Nat.cast_one, Int.tdiv_one]
  rw [Action.bit, hcast]
  cases action <;> rfl

theorem shift_lt (action : Action) : action.shift < 12 := by cases action <;> decide

theorem testBit_maskAfter (mask : UInt32) (action : Action) (pressed : Bool) (i : Nat) :
    (maskAfter mask action.bit.toUint32 pressed).toNat.testBit i =
      (decide (i < 16) && if i = action.shift then pressed else mask.toNat.testBit i) := by
  have hbit : action.bit.toUint32.toNat = 2 ^ action.shift := by
    rw [toUint32_bit]
    cases action <;> rfl
  have hlow : (0xffff : UInt32).toNat.testBit i = decide (i < 16) := by
    rw [show (0xffff : UInt32).toNat = 2 ^ 16 - 1 from rfl, Nat.testBit_two_pow_sub_one]
  unfold maskAfter
  dsimp only
  rw [UInt32.toNat_and, Nat.testBit_and, hlow, Bool.and_comm]
  congr 1
  cases pressed with
  | true =>
    rw [if_pos rfl, UInt32.toNat_or, Nat.testBit_or, hbit, Nat.testBit_two_pow]
    by_cases hi : i = action.shift
    · simp [hi]
    · simp [hi, Ne.symm hi]
  | false =>
    rw [if_neg Bool.false_ne_true, UInt32.toNat_and, Nat.testBit_and, UInt32.toNat_not, hbit,
      show UInt32.size - 1 - 2 ^ action.shift = 2 ^ 32 - (2 ^ action.shift + 1) by
        rw [Nat.sub_sub, Nat.add_comm]; rfl,
      Nat.testBit_two_pow_sub_succ (by cases action <;> decide), Nat.testBit_two_pow]
    by_cases hi : i = action.shift
    · simp [hi]
    · rw [if_neg hi, decide_eq_false (Ne.symm hi), Bool.not_false, Bool.and_true]
      by_cases hlt : i < 32
      · rw [decide_eq_true hlt, Bool.and_true]
      · have hbound : mask.toNat < 2 ^ i :=
          lt_of_lt_of_le mask.toNat_lt (Nat.pow_le_pow_right (by decide) (Nat.not_lt.mp hlt))
        rw [Nat.testBit_lt_two_pow hbound, Bool.false_and]

/-- The mask has the bits of the slots that are lit. -/
def MaskShows (mapping : TouchMapping) (mask : UInt32) (lit : Slot → Prop) : Prop :=
  ∀ i, mask.toNat.testBit i = true ↔
    ∃ (slot : Slot) (action : Action),
      mapping slot = some action.bit ∧ action.shift = i ∧ lit slot

section Masks

variable {mapping : TouchMapping} {mask : UInt32} {lit lit' : Slot → Prop}

theorem MaskShows.congr (h : MaskShows mapping mask lit) (hlit : ∀ slot, lit slot ↔ lit' slot) :
    MaskShows mapping mask lit' := by
  intro i
  rw [h i]
  exact exists_congr fun slot => exists_congr fun action =>
    and_congr_right fun _ => and_congr_right fun _ => hlit slot

theorem action_of_slot (hperm : mapping.IsPermutation) (slot : Slot) :
    ∃ action : Action, mapping slot = some action.bit := by
  obtain ⟨bit, hbit, hslot⟩ := hperm.bit_of slot
  obtain ⟨action, -, rfl⟩ := List.mem_map.mp hbit
  exact ⟨action, hslot⟩

/-- A change of one slot changes its bit. -/
theorem MaskShows.change (hperm : mapping.IsPermutation) (h : MaskShows mapping mask lit)
    (slot : Slot) (pressed : Bool) :
    MaskShows mapping (TouchControls.change mapping mask slot pressed)
      fun slot' => if slot' = slot then pressed = true else lit slot' := by
  obtain ⟨action, hslot⟩ := action_of_slot hperm slot
  intro i
  unfold TouchControls.change
  rw [hslot]
  dsimp only
  rw [testBit_maskAfter]
  by_cases hi : i = action.shift
  · subst hi
    have hlt : action.shift < 16 := lt_trans (shift_lt action) (by decide)
    rw [decide_eq_true hlt, Bool.true_and, if_pos rfl]
    constructor
    · intro hpressed
      exact ⟨slot, action, hslot, rfl, by rw [if_pos rfl]; exact hpressed⟩
    · rintro ⟨slot', action', hslot', hshift, hlit⟩
      have haction : action' = action := shift_injective (by rw [hshift])
      subst haction
      obtain rfl : slot' = slot := hperm.injective (hslot'.trans hslot.symm)
      rwa [if_pos rfl] at hlit
  · rw [if_neg hi, Bool.and_eq_true, decide_eq_true_eq, h i]
    constructor
    · rintro ⟨-, slot', action', hslot', hshift, hlit⟩
      refine ⟨slot', action', hslot', hshift, ?_⟩
      rw [if_neg]
      · exact hlit
      · rintro rfl
        rw [hslot] at hslot'
        have haction : action = action' := bit_injective (Option.some.inj hslot')
        exact hi (by rw [haction, hshift])
    · rintro ⟨slot', action', hslot', hshift, hlit⟩
      have hne : slot' ≠ slot := by
        rintro rfl
        rw [hslot] at hslot'
        have haction : action = action' := bit_injective (Option.some.inj hslot')
        exact hi (by rw [haction, hshift])
      rw [if_neg hne] at hlit
      exact ⟨hshift ▸ lt_trans (shift_lt action') (by decide),
        slot', action', hslot', hshift, hlit⟩

/-- Changes of several slots, each to its own new state. -/
theorem MaskShows.changes (hperm : mapping.IsPermutation) (next : Slot → Bool) (slots : List Slot)
    (h : MaskShows mapping mask lit) :
    MaskShows mapping
      (slots.foldl (fun mask slot => TouchControls.change mapping mask slot (next slot)) mask)
      fun slot => if slot ∈ slots then next slot = true else lit slot := by
  induction slots generalizing mask lit with
  | nil => exact h.congr fun slot => by simp
  | cons slot slots ih =>
    rw [List.foldl_cons]
    refine (ih (h.change hperm slot (next slot))).congr fun slot' => ?_
    by_cases hmem : slot' ∈ slots
    · simp [hmem]
    · by_cases hslot : slot' = slot <;> simp [hmem, hslot]

end Masks

/-! ## The invariant -/

structure TouchInv (s : TouchControls) : Prop where
  perm : s.mapping.IsPermutation
  shows : MaskShows s.mapping s.maskRef (Lit · s.log)
  held : ∀ slot, Lit slot s.log → s.Held slot
  hidden : s.enabled = false → ∀ slot, ¬ Lit slot s.log

section Invariant

variable {s : TouchControls}

theorem touchInv_init {mapping : TouchMapping} (hperm : mapping.IsPermutation) (isPortrait : Bool) :
    TouchInv (TouchControls.init mapping isPortrait) where
  perm := hperm
  shows i := by
    have hnone : ∀ slot, ¬ Lit slot [] := fun _ => not_since_nil _ _
    refine ⟨fun h => ?_, fun ⟨slot, _, _, _, h⟩ => absurd h (hnone slot)⟩
    simp [TouchControls.init] at h
  held _ h := absurd h (not_since_nil _ _)
  hidden _ _ := not_since_nil _ _

theorem TouchInv.handlePointerDown (h : TouchInv s) (henabled : s.enabled = true) {slot : Slot}
    (hbutton : slot.isDirection = false) (pointerId : Nat) :
    TouchInv (s.handlePointerDown slot pointerId) where
  perm := h.perm
  shows := by
    refine (h.shows.change h.perm slot true).congr fun slot' => ?_
    show _ ↔ Lit slot' (.down slot :: s.log)
    rw [lit_down]
    by_cases hslot : slot' = slot <;> simp [hslot]
  held slot' hlit := by
    have hlit' : Lit slot' (.down slot :: s.log) := hlit
    show if slot'.isDirection then s.activeDirectionsRef slot' = true
      else Function.update s.pointerIdRef slot (some pointerId) slot' ≠ none
    rw [Function.update_apply]
    rcases lit_down.mp hlit' with rfl | hold
    · simp [hbutton]
    · have hheld := h.held slot' hold
      unfold TouchControls.Held at hheld
      split
      · next hdirection => rwa [if_pos hdirection] at hheld
      · next hdirection =>
        rw [if_neg hdirection] at hheld
        split
        · exact nofun
        · exact hheld
  hidden hdisabled := by
    have hshown : s.enabled = false := hdisabled
    rw [henabled] at hshown
    cases hshown

theorem TouchInv.release (h : TouchInv s) (slot : Slot) : TouchInv (s.release slot) := by
  unfold TouchControls.release
  split
  · exact h
  · refine ⟨h.perm, ?_, fun slot' hlit => ?_, fun hdisabled slot' hlit => ?_⟩
    · refine (h.shows.change h.perm slot false).congr fun slot' => ?_
      rw [lit_up]
      by_cases hslot : slot' = slot <;> simp [hslot]
    · obtain ⟨hne, hold⟩ := lit_up.mp hlit
      have hheld := h.held slot' hold
      unfold TouchControls.Held at hheld ⊢
      dsimp only
      rwa [Function.update_of_ne hne]
    · exact h.hidden hdisabled slot' (lit_up.mp hlit).2

theorem mem_directionSlots (slot : Slot) :
    slot ∈ TouchControls.directionSlots ↔ slot.isDirection = true := by
  cases slot <;> decide

theorem TouchInv.updateDirections (h : TouchInv s) (henabled : s.enabled = true)
    (next : Slot → Bool) : TouchInv (s.updateDirections next) := by
  unfold TouchControls.updateDirections
  split
  · exact h
  · refine ⟨h.perm, ?_, fun slot hlit => ?_, fun hdisabled => ?_⟩
    · refine (h.shows.changes h.perm next TouchControls.directionSlots).congr fun slot => ?_
      rw [lit_directions]
      exact iff_of_eq (if_congr (mem_directionSlots slot) rfl rfl)
    · unfold TouchControls.Held
      have hlit' := lit_directions.mp hlit
      split
      · next hdirection => rwa [if_pos hdirection] at hlit'
      · next hdirection =>
        rw [if_neg hdirection] at hlit'
        have hheld := h.held slot hlit'
        unfold TouchControls.Held at hheld
        rwa [if_neg hdirection] at hheld
    · have hshown : s.enabled = false := hdisabled
      rw [henabled] at hshown
      cases hshown

theorem mem_releasedSlots (slot : Slot) : slot ∈ TouchControls.releasedSlots := by
  cases slot <;> decide

/-- Whatever was down, everything is up. -/
theorem touchInv_releaseAll (hperm : s.mapping.IsPermutation) {lit : Slot → Prop}
    (hshows : MaskShows s.mapping s.maskRef lit) : TouchInv s.releaseAll where
  perm := hperm
  shows := by
    refine (hshows.changes hperm (fun _ => false) TouchControls.releasedSlots).congr fun slot => ?_
    rw [if_pos (mem_releasedSlots slot)]
    exact iff_of_false Bool.false_ne_true lit_releaseAll
  held _ hlit := absurd hlit lit_releaseAll
  hidden _ _ := lit_releaseAll

/-- A render leaves what is lit if the controls are shown. -/
theorem touchInv_rendered (hperm : s.mapping.IsPermutation)
    (hshows : MaskShows s.mapping s.maskRef (Lit · s.log))
    (hheld : ∀ slot, Lit slot s.log → s.Held slot) :
    TouchInv s.rendered := by
  unfold TouchControls.rendered
  split
  · next henabled =>
    refine ⟨hperm, hshows, hheld, fun hdisabled => ?_⟩
    rw [henabled] at hdisabled
    cases hdisabled
  · exact touchInv_releaseAll hperm hshows

/-- A mapping that changes while nothing is lit; the mask is nothing to any mapping then. -/
theorem TouchInv.remapped (h : TouchInv s) (hnone : ∀ slot, ¬ Lit slot s.log)
    {mapping : TouchMapping} (hperm : mapping.IsPermutation) (pointers : Slot → Option Nat) :
    TouchInv { s with mapping := mapping, pointerIdRef := pointers }.rendered := by
  refine touchInv_rendered hperm (fun i => ?_) fun slot hlit => absurd hlit (hnone slot)
  refine ⟨fun hbit => ?_, fun ⟨slot, _, _, _, hlit⟩ => absurd hlit (hnone slot)⟩
  obtain ⟨slot, _, _, _, hlit⟩ := (h.shows i).mp hbit
  exact absurd hlit (hnone slot)

theorem touchInv_step {s' : TouchControls} {a : TouchAction} (h : TouchInv s)
    (hfree : s.ResetsFree a) (hs : s.step a = some s') : TouchInv s' := by
  have hpointer : ∀ p, TouchInv { s with stickPointerIdRef := p } := fun p =>
    ⟨h.perm, h.shows, h.held, h.hidden⟩
  cases a with
  | pointerDown slot pointerId =>
    simp only [TouchControls.step] at hs
    split at hs
    · next hok =>
      cases hs
      exact h.handlePointerDown hok.1 (by simpa using hok.2) pointerId
    · cases hs
  | pointerEnds slot =>
    simp only [TouchControls.step] at hs
    split at hs <;> cases hs
    exact h.release slot
  | stickDown pointerId next =>
    simp only [TouchControls.step] at hs
    split at hs
    · next henabled =>
      cases hs
      simp only [TouchControls.handleStickPointerDown, henabled]
      cases next with
      | none => exact hpointer (some pointerId)
      | some next => exact (hpointer (some pointerId)).updateDirections henabled next
    · cases hs
  | stickMove pointerId next =>
    simp only [TouchControls.step] at hs
    split at hs
    · next henabled =>
      cases hs
      simp only [TouchControls.handleStickPointerMove, henabled]
      split
      · exact h
      · split
        · exact h
        · cases next with
          | none => exact h
          | some next => exact h.updateDirections henabled next
    · cases hs
  | stickUp pointerId =>
    simp only [TouchControls.step] at hs
    split at hs
    · next henabled =>
      cases hs
      simp only [TouchControls.handleStickPointerUp, henabled]
      split
      · exact h
      · split
        · exact h
        · exact (hpointer none).updateDirections henabled _
    · cases hs
  | stickEnds =>
    simp only [TouchControls.step] at hs
    split at hs
    · next henabled =>
      cases hs
      exact (hpointer none).updateDirections henabled _
    · cases hs
  | blur =>
    simp only [TouchControls.step] at hs
    split at hs <;> cases hs
    · exact touchInv_releaseAll h.perm h.shows
    · exact h
  | orientation isPortrait =>
    cases hs
    exact touchInv_rendered h.perm h.shows h.held
  | openRemapPanel =>
    cases hs
    exact touchInv_rendered h.perm h.shows h.held
  | closeRemapPanel =>
    cases hs
    exact touchInv_rendered h.perm h.shows h.held
  | remap op =>
    simp only [TouchControls.step] at hs
    split at hs
    · next hpanel =>
      cases hs
      have hnone : ∀ slot, ¬ Lit slot s.log := h.hidden (by simp [TouchControls.enabled, hpanel])
      exact h.remapped hnone (op.apply_isPermutation h.perm) s.pointerIdRef
    · cases hs
  | reset =>
    cases hs
    have hnone : ∀ slot, ¬ Lit slot s.log := fun slot hlit => hfree slot (h.held slot hlit)
    exact h.remapped hnone (RemapOp.resetMapping.apply_isPermutation h.perm) _

end Invariant

/-! ## The result -/

/-- **The mask is what is held.**  Whatever mapping is loaded and however fingers come and go, the
stick moves, the window loses the focus, the phone is turned and the buttons are remapped, and reset
while nothing is held: the bits of the mask are those of the slots that have gone down and not up
again.  Such a slot is shown and held, so the mask is zero when nothing is held or the controls are
not shown. -/
theorem mask_shows_buttons {jsonParse : String → Option (JsonValue JsNumber)} {read : StorageRead}
    {isPortrait : Bool} {as : List TouchAction} {s : TouchControls}
    (h : RunWhen TouchControls.ResetsFree TouchControls.step
      (TouchControls.init (loadTouchMappingFromStorage jsonParse read) isPortrait) as s) :
    MaskShows s.mapping s.maskRef (Lit · s.log) ∧
      (∀ slot, Lit slot s.log → s.enabled = true ∧ s.Held slot) ∧
      ((s.enabled = false ∨ ∀ slot, ¬ s.Held slot) → s.maskRef = 0) := by
  have hload : (loadTouchMappingFromStorage jsonParse read).IsPermutation := by
    obtain ⟨candidate, he⟩ := exists_loadFromStorage normalizeTouchMapping
      defaultTouchMappingJson jsonParse read
    rw [loadTouchMappingFromStorage, he]
    exact normalizeTouchMapping_isPermutation candidate
  have hinv : TouchInv s := h.invariant (touchInv_init hload isPortrait)
    fun _ _ _ hi hok hs => touchInv_step hi hok hs
  have hlit : ∀ slot, Lit slot s.log → s.enabled = true ∧ s.Held slot := by
    intro slot hlit
    refine ⟨?_, hinv.held slot hlit⟩
    by_contra hdisabled
    exact hinv.hidden (Bool.eq_false_iff.mpr hdisabled) slot hlit
  refine ⟨hinv.shows, hlit, fun hup => ?_⟩
  apply UInt32.toNat.inj
  refine Nat.eq_of_testBit_eq fun i => ?_
  rw [show (0 : UInt32).toNat = 0 from rfl, Nat.zero_testBit]
  by_contra hbit
  obtain ⟨slot, _, _, _, hslot⟩ := (hinv.shows i).mp (by simpa using hbit)
  obtain ⟨henabled, hheld⟩ := hlit slot hslot
  rcases hup with hdisabled | hnone
  · rw [hdisabled] at henabled
    cases henabled
  · exact hnone slot hheld

instance (s : TouchControls) (slot : Slot) : Decidable (s.Held slot) :=
  inferInstanceAs (Decidable (if slot.isDirection then _ else _))

/-- `ResetsFree`, as a look at all slots tells. -/
def resetsFree (s : TouchControls) : TouchAction → Bool
  | .reset => slotKeys.all fun slot => !decide (s.Held slot)
  | _ => true

theorem resetsFree_of_look (s : TouchControls) (a : TouchAction) (h : resetsFree s a = true) :
    s.ResetsFree a := by
  cases a with
  | reset =>
    intro slot
    simpa using List.all_eq_true.mp h slot (mem_slotKeys slot)
  | _ => trivial

/-- A button goes down, the window loses the focus, the mapping is reset, the button goes down again
and the remap panel opens. -/
def interruptedTouch : List TouchAction :=
  [.pointerDown .a 1, .blur, .pointerEnds .a, .reset, .stickDown 2 (some fun slot => slot = .up),
    .pointerDown .a 3, .openRemapPanel]

theorem mask_shows_buttons_interrupted :
    ∃ s, Run TouchControls.step
        (TouchControls.init (loadTouchMappingFromStorage (fun _ => none) .unavailable) false)
        interruptedTouch s ∧ s.maskRef = 0 := by
  have hrun : ∃ s, RunWhen (fun s a => resetsFree s a = true) TouchControls.step
      (TouchControls.init (loadTouchMappingFromStorage (fun _ => none) .unavailable) false)
      interruptedTouch s ∧ s.enabled = false := execWhen_any (by decide +kernel)
  obtain ⟨s, hs, hdisabled⟩ := hrun
  exact ⟨s, hs.run, (mask_shows_buttons (hs.mono resetsFree_of_look)).2.2 (Or.inl hdisabled)⟩

/-- The stick has the bit of `A` for up; it is up when the mapping is reset, and then let go. -/
def resetUnderFinger : List TouchAction :=
  [.openRemapPanel, .remap (.updateMappingSlot .up Action.a.bit), .closeRemapPanel,
    .stickDown 1 (some fun slot => slot = .up), .reset, .stickEnds]

/-- **A stuck button.**  Nothing is held, and the mask has the bit. -/
theorem reset_sticks :
    ∃ s, Run TouchControls.step
        (TouchControls.init (loadTouchMappingFromStorage (fun _ => none) .unavailable) false)
        resetUnderFinger s ∧ s.enabled = true ∧ (∀ slot ∈ slotKeys, ¬ s.Held slot) ∧
      s.maskRef = 1 :=
  execWhen_any (by decide +kernel)

end CloudGame.Portal
