import CloudGame.Lib.HashMap
import CloudGame.Signal.Protocol
import Mathlib.Data.String.Basic

/-!
# The registry (`arcade-signal/src/registry.rs`)

The connected browser clients and workers with their queues, the binding of a client to a worker,
and what a worker told about itself: its game and its player count.  Each method runs under one
lock and is one function here.

`gamesPayload` is the list of the entries that `games_payload` serializes.  With
`dedupe_rooms_by_game` it keeps, of the workers that play the same game (up to case and spacing),
the one that registered first; `mem_gamesPayload` says so, whatever order the map of rooms is
iterated in, and `gamesPayload_perm` that the payload does not depend on that order.
-/

namespace CloudGame.Signal

open CloudGame.Lib

structure RegistryState where
  clients : HashMap String Tx
  workers : HashMap String Tx
  clientToWorker : HashMap String String
  gameRooms : HashMap String String
  playerCounts : HashMap String Nat
  workerOrder : HashMap String Nat
  nextWorkerOrder : Nat

/-- `normalize_game_name`. -/
def normalizeGameName (cm : CaseMap) (name : String) : String :=
  trim (" ".intercalate (splitWhitespace (cm.toLowercase name)))

/-- `u64::MAX`. -/
def u64Max : Nat := 2 ^ 64 - 1

namespace RegistryState

/-- `Registry::new`. -/
def new : RegistryState := ⟨∅, ∅, ∅, ∅, ∅, ∅, 0⟩

def registerClient (s : RegistryState) (clientId : String) (tx : Tx) : RegistryState :=
  { s with clients := s.clients.insert clientId tx }

def registerWorker (s : RegistryState) (workerId : String) (tx : Tx) : RegistryState :=
  { s with
    workers := s.workers.insert workerId tx
    nextWorkerOrder := min (s.nextWorkerOrder + 1) u64Max
    workerOrder := s.workerOrder.insert workerId s.nextWorkerOrder }

/-- Returns the worker the client was bound to. -/
def unregisterClient (s : RegistryState) (clientId : String) : Option String × RegistryState :=
  (s.clientToWorker.lookup clientId,
    { s with clients := s.clients.erase clientId
             clientToWorker := s.clientToWorker.erase clientId })

/-- The clients bound to the worker. -/
def boundClients (s : RegistryState) (workerId : String) : List String :=
  s.clientToWorker.items.filterMap fun e => if e.2 = workerId then some e.1 else none

/-- Returns the clients to close, those that were bound to the worker, with their queues. -/
def unregisterWorker (s : RegistryState) (workerId : String) :
    List (String × Tx) × RegistryState :=
  let affectedClientIds := s.boundClients workerId
  let clientsToClose := affectedClientIds.filterMap fun clientId =>
    (s.clients.lookup clientId).map fun tx => (clientId, tx)
  (clientsToClose,
    { s with
      workers := s.workers.erase workerId
      workerOrder := s.workerOrder.erase workerId
      gameRooms := s.gameRooms.erase workerId
      playerCounts := s.playerCounts.erase workerId
      clientToWorker := HashMap.eraseAll affectedClientIds s.clientToWorker
      clients := HashMap.eraseAll affectedClientIds s.clients })

def bindClientToWorker (s : RegistryState) (clientId workerId : String) : RegistryState :=
  { s with clientToWorker := s.clientToWorker.insert clientId workerId }

def unbindClient (s : RegistryState) (clientId : String) : RegistryState :=
  { s with clientToWorker := s.clientToWorker.erase clientId }

def workerForClient (s : RegistryState) (clientId : String) : Option String :=
  s.clientToWorker.lookup clientId

def isClientBoundToWorker (s : RegistryState) (clientId workerId : String) : Bool :=
  s.clientToWorker.lookup clientId = some workerId

def clientSender (s : RegistryState) (clientId : String) : Option Tx := s.clients.lookup clientId

def workerSender (s : RegistryState) (workerId : String) : Option Tx := s.workers.lookup workerId

def allClients (s : RegistryState) : List (String × Tx) := s.clients.items

def setWorkerGame (cm : CaseMap) (s : RegistryState) (workerId : String)
    (gameName : Option String) : Bool × RegistryState :=
  match gameName with
  | none => (false, s)
  | some gameName =>
    if normalizeGameName cm gameName = "" then (false, s)
    else (true, { s with gameRooms := s.gameRooms.insert workerId gameName })

def setWorkerPlayerCount (s : RegistryState) (workerId : String) (count : Nat) : RegistryState :=
  { s with playerCounts := s.playerCounts.insert workerId count }

def playerCountsSnapshot (s : RegistryState) : List (String × Nat) := s.playerCounts.items

/-! ## What the methods leave -/

theorem mem_boundClients {s : RegistryState} {w c : String} :
    c ∈ s.boundClients w ↔ s.clientToWorker.lookup c = some w := by
  simp only [boundClients, List.mem_filterMap, Option.ite_none_right_eq_some, Option.some.injEq]
  constructor
  · rintro ⟨⟨c', w'⟩, hmem, rfl, rfl⟩
    exact HashMap.mem_items.mp hmem
  · intro h
    exact ⟨(c, w), HashMap.mem_items.mpr h, rfl, rfl⟩

theorem lookup_clientToWorker_unregisterWorker (s : RegistryState) (w c : String) :
    (s.unregisterWorker w).2.clientToWorker.lookup c =
      if s.clientToWorker.lookup c = some w then none else s.clientToWorker.lookup c := by
  show (HashMap.eraseAll _ _).lookup c = _
  rw [HashMap.lookup_eraseAll]
  simp only [mem_boundClients]

theorem lookup_clients_unregisterWorker (s : RegistryState) (w c : String) :
    (s.unregisterWorker w).2.clients.lookup c =
      if s.clientToWorker.lookup c = some w then none else s.clients.lookup c := by
  show (HashMap.eraseAll _ _).lookup c = _
  rw [HashMap.lookup_eraseAll]
  simp only [mem_boundClients]

/-- A game without a name changes nothing. -/
theorem setWorkerGame_cases (cm : CaseMap) (s : RegistryState) (w : String)
    (game : Option String) :
    s.setWorkerGame cm w game = (false, s) ∨ ∃ name,
      s.setWorkerGame cm w game = (true, { s with gameRooms := s.gameRooms.insert w name }) := by
  unfold setWorkerGame
  split
  · exact Or.inl rfl
  · next name =>
    split
    · exact Or.inl rfl
    · exact Or.inr ⟨name, rfl⟩

/-! ## The games payload -/

/-- The registration order of a worker, as `games_payload` reads it. -/
def orderOf (s : RegistryState) (workerId : String) : Nat :=
  (s.workerOrder.lookup workerId).getD u64Max

/-- The candidate `(order, worker)` comes before `existing`. -/
def Precedes (order : Nat) (workerId : String) (existing : Nat × String × String) : Prop :=
  order < existing.1 ∨ (order = existing.1 ∧ workerId < existing.2.1)

instance (order : Nat) (workerId : String) (existing : Nat × String × String) :
    Decidable (Precedes order workerId existing) :=
  inferInstanceAs (Decidable (_ ∨ _))

/-- The body of the loop over the rooms. -/
def selectRoom (cm : CaseMap) (s : RegistryState)
    (selected : HashMap String (Nat × String × String)) (room : String × String) :
    HashMap String (Nat × String × String) :=
  let normalized := normalizeGameName cm room.2
  if normalized = "" then selected
  else
    let order := s.orderOf room.1
    match selected.lookup normalized with
    | some existing =>
      if Precedes order room.1 existing then selected.insert normalized (order, room.1, room.2)
      else selected
    | none => selected.insert normalized (order, room.1, room.2)

def selectedRooms (cm : CaseMap) (s : RegistryState) : HashMap String (Nat × String × String) :=
  s.gameRooms.items.foldl (selectRoom cm s) ∅

/-- The entries that are serialized, in iteration order. -/
def gamesPayload (cm : CaseMap) (s : RegistryState) (dedupeRoomsByGame : Bool) :
    List (String × String) :=
  if dedupeRoomsByGame then
    let deduped : HashMap String String :=
      (s.selectedRooms cm).items.foldl (fun deduped e => deduped.insert e.2.2.1 e.2.2.2) ∅
    deduped.items
  else s.gameRooms.items

/-! ## What the games payload holds -/

/-- `w` registered before `w'`; workers of the same order are told apart by name. -/
def Before (s : RegistryState) (w w' : String) : Prop :=
  s.orderOf w < s.orderOf w' ∨ (s.orderOf w = s.orderOf w' ∧ w < w')

theorem Before.trans {s : RegistryState} {a b c : String} (h : s.Before a b) (h' : s.Before b c) :
    s.Before a c := by
  rcases h with h | ⟨h, hs⟩ <;> rcases h' with h' | ⟨h', hs'⟩
  · exact Or.inl (h.trans h')
  · exact Or.inl (h'.symm ▸ h)
  · exact Or.inl (h ▸ h')
  · exact Or.inr ⟨h.trans h', hs.trans hs'⟩

theorem not_before_self (s : RegistryState) (w : String) : ¬ s.Before w w := by
  rintro (h | ⟨-, h⟩)
  · exact lt_irrefl _ h
  · exact lt_irrefl _ h

theorem eq_of_not_before {s : RegistryState} {w w' : String} (h : ¬ s.Before w w')
    (h' : ¬ s.Before w' w) : w = w' := by
  simp only [Before, not_or, not_lt, not_and] at h h'
  have ho : s.orderOf w = s.orderOf w' := le_antisymm h'.1 h.1
  exact le_antisymm (h'.2 ho.symm) (h.2 ho)

/-- The room comes first among the rooms that play the game with this normalized name. -/
structure First (cm : CaseMap) (s : RegistryState) (rooms : List (String × String)) (name : String)
    (room : String × String) : Prop where
  mem : room ∈ rooms
  plays : normalizeGameName cm room.2 = name
  named : name ≠ ""
  first : ∀ room' ∈ rooms, normalizeGameName cm room'.2 = name → ¬ s.Before room'.1 room.1

/-- What the loop over the rooms has selected is the first of its name, and every name that was
seen has a room selected. -/
theorem selectRoom_spec (cm : CaseMap) (s : RegistryState) (rooms : List (String × String)) :
    (∀ name e, (rooms.foldl (selectRoom cm s) ∅).lookup name = some e →
      e.1 = s.orderOf e.2.1 ∧ First cm s rooms name e.2) ∧
    ∀ room ∈ rooms, normalizeGameName cm room.2 ≠ "" →
      (rooms.foldl (selectRoom cm s) ∅).lookup (normalizeGameName cm room.2) ≠ none := by
  induction rooms using List.reverseRecOn with
  | nil => exact ⟨fun name e h => by simp at h, fun room hr => by cases hr⟩
  | append_singleton rooms room ih =>
    obtain ⟨hsound, hcomplete⟩ := ih
    rw [List.foldl_append, List.foldl_cons, List.foldl_nil]
    generalize hsel : rooms.foldl (selectRoom cm s) ∅ = selected at hsound hcomplete ⊢
    -- a selected room stays first unless the new one is of its name and before it
    have hkeep : ∀ name e, First cm s rooms name e →
        (normalizeGameName cm room.2 = name → ¬ s.Before room.1 e.1) →
        First cm s (rooms ++ [room]) name e := by
      intro name e h hnew
      refine ⟨List.mem_append_left _ h.mem, h.plays, h.named, fun room' hr' hn' => ?_⟩
      rcases List.mem_append.mp hr' with hr' | hr'
      · exact h.first room' hr' hn'
      · rw [List.mem_singleton.mp hr'] at hn' ⊢
        exact hnew hn'
    have hinsert : normalizeGameName cm room.2 ≠ "" →
        (∀ room' ∈ rooms, normalizeGameName cm room'.2 = normalizeGameName cm room.2 →
          ¬ s.Before room'.1 room.1) →
        First cm s (rooms ++ [room]) (normalizeGameName cm room.2) room := by
      intro hne hfirst
      refine ⟨List.mem_append_right _ (List.mem_singleton.mpr rfl), rfl, hne,
        fun room' hr' hn' => ?_⟩
      rcases List.mem_append.mp hr' with hr' | hr'
      · exact hfirst room' hr' hn'
      · rw [List.mem_singleton.mp hr']
        exact not_before_self s room.1
    unfold selectRoom
    dsimp only
    by_cases hempty : normalizeGameName cm room.2 = ""
    · rw [if_pos hempty]
      refine ⟨fun name e he => ?_, fun room' hr' hne => ?_⟩
      · obtain ⟨ho, hf⟩ := hsound name e he
        exact ⟨ho, hkeep name e.2 hf fun hn => absurd (hn.symm.trans hempty) hf.named⟩
      · rcases List.mem_append.mp hr' with hr' | hr'
        · exact hcomplete room' hr' hne
        · rw [List.mem_singleton.mp hr'] at hne
          exact absurd hempty hne
    · rw [if_neg hempty]
      have hother : ∀ name e, selected.lookup name = some e → name ≠ normalizeGameName cm room.2 →
          e.1 = s.orderOf e.2.1 ∧ First cm s (rooms ++ [room]) name e.2 := by
        intro name e he hne
        obtain ⟨ho, hf⟩ := hsound name e he
        exact ⟨ho, hkeep name e.2 hf fun hn => absurd hn.symm hne⟩
      have hfill : (∀ room' ∈ rooms, normalizeGameName cm room'.2 = normalizeGameName cm room.2 →
            ¬ s.Before room'.1 room.1) →
          (∀ name e, (selected.insert (normalizeGameName cm room.2)
              (s.orderOf room.1, room.1, room.2)).lookup name = some e →
            e.1 = s.orderOf e.2.1 ∧ First cm s (rooms ++ [room]) name e.2) ∧
          ∀ room' ∈ rooms ++ [room], normalizeGameName cm room'.2 ≠ "" →
            (selected.insert (normalizeGameName cm room.2)
              (s.orderOf room.1, room.1, room.2)).lookup (normalizeGameName cm room'.2) ≠ none := by
        intro hfirst
        refine ⟨fun name e he => ?_, fun room' hr' hne => ?_⟩
        · rw [HashMap.lookup_insert_eq_ite] at he
          split at he
          · next hn =>
            cases he
            subst hn
            exact ⟨rfl, hinsert hempty hfirst⟩
          · next hn => exact hother name e he hn
        · rw [HashMap.lookup_insert_eq_ite]
          split
          · simp
          · next hn =>
            refine hcomplete room' ?_ hne
            refine (List.mem_append.mp hr').resolve_right fun hr' => hn ?_
            rw [List.mem_singleton.mp hr']
      split
      · next existing hex =>
        obtain ⟨ho, hf⟩ := hsound _ existing hex
        have hprec :
            Precedes (s.orderOf room.1) room.1 existing ↔ s.Before room.1 existing.2.1 := by
          unfold Precedes Before
          rw [ho]
        split
        · next hp =>
          refine hfill fun room' hr' hn' hb => ?_
          exact hf.first room' hr' hn' (hb.trans (hprec.mp hp))
        · next hp =>
          refine ⟨fun name e he => ?_, fun room' hr' hne => ?_⟩
          · by_cases hn : name = normalizeGameName cm room.2
            · subst hn
              rw [hex] at he
              cases he
              exact ⟨ho, hkeep _ existing.2 hf fun _ hb => hp (hprec.mpr hb)⟩
            · exact hother name e he hn
          · rcases List.mem_append.mp hr' with hr' | hr'
            · exact hcomplete room' hr' hne
            · rw [List.mem_singleton.mp hr', hex]
              simp
      · next hnone =>
        refine hfill fun room' hr' hn' hb => ?_
        refine hcomplete room' hr' (by rw [hn']; exact hempty) ?_
        rw [hn']
        exact hnone

theorem First.unique {cm : CaseMap} {s : RegistryState} {name : String}
    {room room' : String × String} (h : First cm s s.gameRooms.items name room)
    (h' : First cm s s.gameRooms.items name room') : room = room' := by
  have hw : room.1 = room'.1 :=
    eq_of_not_before (h'.first room h.mem h.plays) (h.first room' h'.mem h'.plays)
  have hg := HashMap.mem_items.mp h.mem
  rw [hw, HashMap.mem_items.mp h'.mem] at hg
  exact Prod.ext hw (Option.some.inj hg).symm

theorem mem_selectedRooms {cm : CaseMap} {s : RegistryState} {room : String × String} :
    (∃ e ∈ (s.selectedRooms cm).items, e.2.2 = room) ↔
      ∃ name, First cm s s.gameRooms.items name room := by
  obtain ⟨hsound, hcomplete⟩ := selectRoom_spec cm s s.gameRooms.items
  constructor
  · rintro ⟨⟨name, e⟩, hmem, rfl⟩
    exact ⟨name, (hsound name e (HashMap.mem_items.mp hmem)).2⟩
  · rintro ⟨name, hf⟩
    have hsel := hcomplete room hf.mem (by rw [hf.plays]; exact hf.named)
    rw [hf.plays] at hsel
    obtain ⟨e, he⟩ := Option.ne_none_iff_exists'.mp hsel
    exact ⟨(name, e), HashMap.mem_items.mpr he, ((hsound name e he).2.unique hf)⟩

/-- **What is shown of the games.**  The payload has a worker's game unless deduplication drops it:
then the game has a name, and no worker that registered before plays a game of that name. -/
theorem mem_gamesPayload {cm : CaseMap} {s : RegistryState} {dedupe : Bool} {w game : String} :
    (w, game) ∈ s.gamesPayload cm dedupe ↔ s.gameRooms.lookup w = some game ∧
      (dedupe = true → normalizeGameName cm game ≠ "" ∧
        ∀ w' game', s.gameRooms.lookup w' = some game' →
          normalizeGameName cm game' = normalizeGameName cm game → ¬ s.Before w' w) := by
  cases dedupe with
  | false =>
    refine HashMap.mem_items.trans ⟨fun h => ⟨h, fun hf => ?_⟩, fun h => h.1⟩
    cases hf
  | true =>
    have hitems : s.gamesPayload cm true = (HashMap.ofEntries
        ((s.selectedRooms cm).items.map fun e => (e.2.2.1, e.2.2.2))).items := by
      unfold gamesPayload HashMap.ofEntries
      rw [if_pos rfl, List.foldl_map]
    have hmem : ∀ room, room ∈ (s.selectedRooms cm).items.map (fun e => (e.2.2.1, e.2.2.2)) ↔
        ∃ name, First cm s s.gameRooms.items name room := by
      intro room
      rw [← mem_selectedRooms, List.mem_map]
    rw [hitems, HashMap.mem_items, HashMap.lookup_ofEntries, hmem]
    · constructor
      · rintro ⟨name, hf⟩
        refine ⟨HashMap.mem_items.mp hf.mem, fun _ => ⟨by rw [hf.plays]; exact hf.named, ?_⟩⟩
        intro w' game' hw' hn
        exact hf.first (w', game') (HashMap.mem_items.mpr hw') (hn.trans hf.plays)
      · rintro ⟨hw, hd⟩
        obtain ⟨hne, hfirst⟩ := hd rfl
        exact ⟨_, HashMap.mem_items.mpr hw, rfl, hne, fun room' hr' hn =>
          hfirst room'.1 room'.2 (HashMap.mem_items.mp hr') hn⟩
    · intro g g' hg hg'
      obtain ⟨_, hf⟩ := (hmem _).mp hg
      obtain ⟨_, hf'⟩ := (hmem _).mp hg'
      have he := HashMap.mem_items.mp hf.mem
      rw [HashMap.mem_items.mp hf'.mem] at he
      exact (Option.some.inj he).symm

theorem gamesPayload_nodup (cm : CaseMap) (s : RegistryState) (dedupe : Bool) :
    (s.gamesPayload cm dedupe).Nodup := by
  unfold gamesPayload
  split
  · exact HashMap.items_nodup _
  · exact HashMap.items_nodup _

/-- The payload depends on the rooms and on the order of their workers, and on nothing else. -/
theorem gamesPayload_perm (cm : CaseMap) {s s' : RegistryState} (dedupe : Bool)
    (hrooms : ∀ w, s'.gameRooms.lookup w = s.gameRooms.lookup w)
    (horder : ∀ w, s.gameRooms.lookup w ≠ none → s'.orderOf w = s.orderOf w) :
    (s.gamesPayload cm dedupe).Perm (s'.gamesPayload cm dedupe) := by
  rw [List.perm_ext_iff_of_nodup (gamesPayload_nodup ..) (gamesPayload_nodup ..)]
  have hbefore : ∀ w w', s.gameRooms.lookup w ≠ none → s.gameRooms.lookup w' ≠ none →
      (s'.Before w w' ↔ s.Before w w') := by
    intro w w' hw hw'
    unfold Before
    rw [horder w hw, horder w' hw']
  rintro ⟨w, game⟩
  rw [mem_gamesPayload, mem_gamesPayload, hrooms]
  refine and_congr_right fun hw => imp_congr_right fun _ => and_congr_right fun _ => ?_
  refine forall_congr' fun w' => forall_congr' fun game' => ?_
  rw [hrooms]
  refine imp_congr_right fun hw' => imp_congr_right fun _ => not_congr ?_
  exact (hbefore w' w (by rw [hw']; simp) (by rw [hw]; simp)).symm

/-- The same maps, each iterated in any order. -/
structure Rehashed (s s' : RegistryState) : Prop where
  clients : HashMap.Rehashed s.clients s'.clients
  workers : HashMap.Rehashed s.workers s'.workers
  clientToWorker : HashMap.Rehashed s.clientToWorker s'.clientToWorker
  gameRooms : HashMap.Rehashed s.gameRooms s'.gameRooms
  playerCounts : HashMap.Rehashed s.playerCounts s'.playerCounts
  workerOrder : HashMap.Rehashed s.workerOrder s'.workerOrder
  nextWorkerOrder : s.nextWorkerOrder = s'.nextWorkerOrder

instance (s s' : RegistryState) : Decidable (Rehashed s s') :=
  decidable_of_iff (HashMap.Rehashed s.clients s'.clients ∧
      HashMap.Rehashed s.workers s'.workers ∧
      HashMap.Rehashed s.clientToWorker s'.clientToWorker ∧
      HashMap.Rehashed s.gameRooms s'.gameRooms ∧
      HashMap.Rehashed s.playerCounts s'.playerCounts ∧
      HashMap.Rehashed s.workerOrder s'.workerOrder ∧ s.nextWorkerOrder = s'.nextWorkerOrder)
    ⟨fun ⟨h1, h2, h3, h4, h5, h6, h7⟩ => ⟨h1, h2, h3, h4, h5, h6, h7⟩,
      fun ⟨h1, h2, h3, h4, h5, h6, h7⟩ => ⟨h1, h2, h3, h4, h5, h6, h7⟩⟩

end RegistryState

end CloudGame.Signal
