import CloudGame.Signal.Directory

/-!
# One room a game

The deduplicated payload is read for every state of the registry: of the workers whose games have
the same normalized name it holds the first (`gamesPayload_existsUnique`).

The order of a worker is the number of registrations before its own (`orderInv_run`), so in a run a
worker that registers later comes after every one that is there, and what its task does leaves the
rooms that were chosen (`chosen_kept`).

* `rooms_deduplicated` is both.
-/

namespace CloudGame.Signal

open CloudGame.Lib

/-! ## Every state of the registry -/

/-- Of the workers that play a game of this name, the payload has the first and no other. -/
theorem gamesPayload_existsUnique {cm : CaseMap} {s : RegistryState} {name w game : String}
    (hroom : s.gameRooms.lookup w = some game) (hname : normalizeGameName cm game = name)
    (hne : name ≠ "") :
    ∃! room, room ∈ s.gamesPayload cm true ∧ normalizeGameName cm room.2 = name := by
  obtain ⟨hsound, hcomplete⟩ := RegistryState.selectRoom_spec cm s s.gameRooms.items
  have hsel := hcomplete (w, game) (HashMap.mem_items.mpr hroom) (by rw [hname]; exact hne)
  obtain ⟨e, he⟩ := Option.ne_none_iff_exists'.mp hsel
  have hfirst := (hsound _ e he).2
  rw [hname] at hfirst
  have hpayload : ∀ room : String × String,
      (room ∈ s.gamesPayload cm true ∧ normalizeGameName cm room.2 = name) ↔
        RegistryState.First cm s s.gameRooms.items name room := by
    rintro ⟨w', game'⟩
    rw [RegistryState.mem_gamesPayload]
    constructor
    · rintro ⟨⟨hw', hd⟩, hn⟩
      refine ⟨HashMap.mem_items.mpr hw', hn, hne, fun room hr hn' => ?_⟩
      exact (hd rfl).2 room.1 room.2 (HashMap.mem_items.mp hr) (hn'.trans hn.symm)
    · intro hf
      refine ⟨⟨HashMap.mem_items.mp hf.mem, fun _ => ⟨?_, fun v g hv hn => ?_⟩⟩, hf.plays⟩
      · rw [hf.plays]
        exact hne
      · exact hf.first (v, g) (HashMap.mem_items.mpr hv) (hn.trans hf.plays)
  refine ⟨e.2, (hpayload e.2).mpr hfirst, fun room hr => ?_⟩
  exact ((hpayload room).mp hr).unique hfirst

/-- The worker of a room in the payload comes before every other one of that name. -/
theorem gamesPayload_least {cm : CaseMap} {s : RegistryState} {w game w' game' : String}
    (h : (w, game) ∈ s.gamesPayload cm true) (hroom : s.gameRooms.lookup w' = some game')
    (hname : normalizeGameName cm game' = normalizeGameName cm game) : w' = w ∨ s.Before w w' := by
  have hnot := ((RegistryState.mem_gamesPayload.mp h).2 rfl).2 w' game' hroom hname
  by_cases hb : s.Before w w'
  · exact .inr hb
  · exact .inl (RegistryState.eq_of_not_before hnot hb)

theorem gamesPayload_keys_nodup (cm : CaseMap) (s : RegistryState) (dedupe : Bool) :
    ((s.gamesPayload cm dedupe).map Prod.fst).Nodup := by
  unfold RegistryState.gamesPayload
  split
  · exact HashMap.items_keys_nodup _
  · exact HashMap.items_keys_nodup _

theorem gamesPayload_rehashed (cm : CaseMap) {s s' : RegistryState} (dedupe : Bool)
    (h : RegistryState.Rehashed s s') :
    (s.gamesPayload cm dedupe).Perm (s'.gamesPayload cm dedupe) := by
  refine RegistryState.gamesPayload_perm cm dedupe (fun w => h.gameRooms.lookup w) fun w _ => ?_
  unfold RegistryState.orderOf
  rw [h.workerOrder.lookup]

/-! ## Registrations on the log -/

def ServerEvent.isWorkerRegistration : ServerEvent → Bool
  | .performed _ _ (.registerWorker _ _) _ => true
  | _ => false

/-- The number of workers that registered. -/
def registrations (log : List ServerEvent) : Nat := log.countP ServerEvent.isWorkerRegistration

/-- The worker registered after `n` others. -/
def RegisteredAs (w : String) (n : Nat) (log : List ServerEvent) : Prop :=
  ∃ newer handling tx older,
    log = newer ++ .performed w handling (.registerWorker w tx) () :: older ∧
      n = registrations older

theorem RegisteredAs.met {w : String} {n : Nat} {log : List ServerEvent}
    (h : RegisteredAs w n log) : Met w log := by
  obtain ⟨newer, handling, tx, older, rfl, -⟩ := h
  exact ⟨handling, tx, List.mem_append_right _ (List.mem_cons_self ..)⟩

theorem registeredAs_cons {w : String} {n : Nat} {e : ServerEvent} {log : List ServerEvent} :
    RegisteredAs w n (e :: log) ↔
      ((∃ handling tx, e = .performed w handling (.registerWorker w tx) ()) ∧
        n = registrations log) ∨ RegisteredAs w n log := by
  constructor
  · rintro ⟨newer, handling, tx, older, hlog, rfl⟩
    rcases List.cons_eq_append_iff.mp hlog with ⟨-, he⟩ | ⟨newer', -, hrest⟩
    · cases he
      exact .inl ⟨⟨handling, tx, rfl⟩, rfl⟩
    · exact .inr ⟨newer', handling, tx, older, hrest, rfl⟩
  · rintro (⟨⟨handling, tx, rfl⟩, rfl⟩ | ⟨newer, handling, tx, older, rfl, rfl⟩)
    · exact ⟨[], handling, tx, log, rfl, rfl⟩
    · exact ⟨e :: newer, handling, tx, older, rfl, rfl⟩

theorem RegisteredAs.lt {w : String} {n : Nat} {log : List ServerEvent}
    (h : RegisteredAs w n log) : n < registrations log := by
  obtain ⟨newer, handling, tx, older, rfl, rfl⟩ := h
  unfold registrations
  rw [List.countP_append, List.countP_cons_of_pos rfl]
  omega

theorem RegisteredAs.later {w : String} {n : Nat} {newer log : List ServerEvent}
    (h : RegisteredAs w n log) : RegisteredAs w n (newer ++ log) := by
  obtain ⟨newer', handling, tx, older, rfl, rfl⟩ := h
  exact ⟨newer ++ newer', handling, tx, older, (List.append_assoc ..).symm, rfl⟩

/-- Who was not met registers after all who were. -/
theorem RegisteredAs.after {w : String} {n : Nat} {log : List ServerEvent} (hnew : ¬ Met w log) :
    ∀ {newer : List ServerEvent}, RegisteredAs w n (newer ++ log) → registrations log ≤ n := by
  intro newer
  induction newer with
  | nil => exact fun h => absurd h.met hnew
  | cons e newer ih =>
    intro h
    rcases registeredAs_cons.mp h with ⟨-, rfl⟩ | hold
    · show log.countP _ ≤ (newer ++ log).countP _
      rw [List.countP_append]
      exact Nat.le_add_left ..
    · exact ih hold

/-! ## The order is the number of registrations before -/

structure OrderInv (s : Server) : Prop where
  next : s.shared.registry.nextWorkerOrder = min (registrations s.log) u64Max
  order : ∀ w o, s.shared.registry.workerOrder.lookup w = some o →
    ∃ n, RegisteredAs w n s.log ∧ o = min n u64Max
  once : ∀ w m n, RegisteredAs w m s.log → RegisteredAs w n s.log → m = n

section Perform

variable {cfg : Config} {choice : Choice} {sh sh' : Shared} {i : Op} {r : i.Reply}

def Op.isWorkerRegistration : Op → Bool
  | .registerWorker _ _ => true
  | _ => false

/-- The order of `w` after the operation. -/
def Op.orderAfter (w : String) (next : Nat) (before : Option Nat) : Op → Option Nat
  | .registerWorker w' _ => if w = w' then some next else before
  | .unregisterWorker w' => if w = w' then none else before
  | _ => before

/-- The game of `w` after the operation. -/
theorem perform_room (h : Shared.perform cfg choice sh i = some (r, sh')) {w : String}
    (hset : ∀ game, i ≠ .setWorkerGame w game) (hleave : i ≠ .unregisterWorker w) :
    sh'.registry.gameRooms.lookup w = sh.registry.gameRooms.lookup w := by
  cases i with
  | registerHost host w' =>
    obtain ⟨controllers, rfl⟩ := perform_registerHost h
    rfl
  | setWorkerGame w' game =>
    have hw : w ≠ w' := fun he => hset game (by rw [he])
    cases h
    show (sh.registry.setWorkerGame cfg.caseMap w' game).2.gameRooms.lookup w = _
    rcases RegistryState.setWorkerGame_cases cfg.caseMap sh.registry w' game with he | ⟨name, he⟩
    · rw [he]
    · rw [he]
      exact AList.lookup_insert_ne hw
  | unregisterWorker w' =>
    have hw : w ≠ w' := fun he => hleave (by rw [he])
    cases h
    exact AList.lookup_erase_ne hw
  | _ => cases h; rfl

theorem perform_orderAfter (h : Shared.perform cfg choice sh i = some (r, sh')) (w : String) :
    sh'.registry.workerOrder.lookup w =
      i.orderAfter w sh.registry.nextWorkerOrder (sh.registry.workerOrder.lookup w) := by
  cases i with
  | registerHost host w' =>
    obtain ⟨controllers, rfl⟩ := perform_registerHost h
    rfl
  | setWorkerGame w' game =>
    obtain ⟨rooms, rfl⟩ := perform_setWorkerGame h
    rfl
  | registerWorker w' tx => cases h; exact HashMap.lookup_insert_eq_ite _ _ _ _
  | unregisterWorker w' => cases h; exact HashMap.lookup_erase_eq_ite _ _ _
  | _ => cases h; rfl

theorem perform_nextWorkerOrder (h : Shared.perform cfg choice sh i = some (r, sh')) :
    sh'.registry.nextWorkerOrder = if i.isWorkerRegistration then
      min (sh.registry.nextWorkerOrder + 1) u64Max else sh.registry.nextWorkerOrder := by
  cases i with
  | registerHost host w' =>
    obtain ⟨controllers, rfl⟩ := perform_registerHost h
    rfl
  | setWorkerGame w' game =>
    obtain ⟨rooms, rfl⟩ := perform_setWorkerGame h
    rfl
  | _ => cases h; rfl

theorem registrations_performed (id : String) (handling : Option BrowserCommand) (i : Op)
    (r : i.Reply) (log : List ServerEvent) : registrations (.performed id handling i r :: log) =
      registrations log + if i.isWorkerRegistration then 1 else 0 := by
  unfold registrations
  rw [List.countP_cons]
  cases i <;> rfl

end Perform

theorem Spawns.registrations_eq {cfg : Config} {s : Server} {a : ServerAction} {id : String}
    {peer : Peer} {log : List ServerEvent} (h : Spawns cfg s a id peer log) :
    registrations log = registrations s.log := by
  cases h with
  | connect role hnew => rfl
  | receive old req _ _ _ => exact List.countP_cons_of_neg Bool.false_ne_true
  | disconnect old _ _ _ => rfl

theorem Spawns.registeredAs_iff {cfg : Config} {s : Server} {a : ServerAction} {id : String}
    {peer : Peer} {log : List ServerEvent} (h : Spawns cfg s a id peer log) (w : String) (n : Nat) :
    RegisteredAs w n log ↔ RegisteredAs w n s.log := by
  cases h with
  | connect role hnew => exact Iff.rfl
  | receive old req _ _ _ =>
    refine registeredAs_cons.trans (or_iff_right ?_)
    rintro ⟨⟨handling, tx, he⟩, -⟩
    cases he
  | disconnect old _ _ _ => exact Iff.rfl

theorem orderInv_performed {cfg : Config} {s : Server} {id : String} {peer : Peer} {choice : Choice}
    {i : Op} {k : i.Reply → ServerM Unit} {r : i.Reply} {sh : Shared} (hi : OrderInv s)
    (hm : MetInv cfg s) (ht : TaskInv cfg s) (hpeer : s.peers id = some peer)
    (hprog : peer.prog = .op i k)
    (hperform : Shared.perform cfg choice s.shared i = some (r, sh)) :
    OrderInv (s.performed id peer choice i k r sh) := by
  have hown := ht.owned hpeer hprog
  -- a worker registers before it is met, so it does so once
  have hfresh : ∀ w handling tx, (.performed id peer.handling i r : ServerEvent) =
      .performed w handling (.registerWorker w tx) () → ¬ Met w s.log := by
    rintro w handling tx ⟨⟩
    exact (hm.fresh hpeer hprog rfl).2
  refine ⟨?_, fun w o ho => ?_, fun w m n hwm hwn => ?_⟩
  · show sh.registry.nextWorkerOrder =
      min (registrations (.performed id peer.handling i r :: s.log)) u64Max
    rw [perform_nextWorkerOrder hperform, registrations_performed, hi.next]
    split <;> omega
  · replace ho : sh.registry.workerOrder.lookup w = some o := ho
    rw [perform_orderAfter hperform] at ho
    have hold : s.shared.registry.workerOrder.lookup w = some o →
        ∃ n, RegisteredAs w n (.performed id peer.handling i r :: s.log) ∧ o = min n u64Max := by
      intro ho
      obtain ⟨n, hreg, ho⟩ := hi.order w o ho
      exact ⟨n, registeredAs_cons.mpr (.inr hreg), ho⟩
    cases i with
    | registerWorker w' tx =>
      obtain ⟨-, -, rfl, rfl⟩ := hown
      simp only [Op.orderAfter] at ho
      split at ho
      · next hw =>
        subst hw
        cases ho
        exact ⟨registrations s.log, registeredAs_cons.mpr (.inl ⟨⟨_, _, rfl⟩, rfl⟩), hi.next⟩
      · exact hold ho
    | unregisterWorker w' =>
      simp only [Op.orderAfter] at ho
      split at ho
      · cases ho
      · exact hold ho
    | _ => exact hold ho
  · rcases registeredAs_cons.mp hwm with ⟨⟨handling, tx, he⟩, rfl⟩ | hwm
    · rcases registeredAs_cons.mp hwn with ⟨-, rfl⟩ | hwn
      · rfl
      · exact absurd hwn.met (hfresh w handling tx he)
    · rcases registeredAs_cons.mp hwn with ⟨⟨handling, tx, he⟩, -⟩ | hwn
      · exact absurd hwm.met (hfresh w handling tx he)
      · exact hi.once w m n hwm hwn

theorem orderInv_run {cfg : Config} {as : List ServerAction} {s : Server}
    (h : Run (Server.step cfg) Server.init as s) : OrderInv s := by
  refine h.relative (I := OrderInv) ⟨rfl, ?_, ?_⟩ fun as s a s' hr hi _ hs => ?_
  · intro w o ho
    cases ho
  · rintro w m n ⟨newer, _, _, _, hlog, -⟩
    cases newer <;> cases hlog
  · cases step_cases hs with
    | spawn id peer log hsp =>
      refine ⟨?_, fun w o ho => ?_, fun w m n hm hn => ?_⟩
      · show s.shared.registry.nextWorkerOrder = min (registrations log) u64Max
        rw [hsp.registrations_eq]
        exact hi.next
      · obtain ⟨n, hreg, ho⟩ := hi.order w o ho
        exact ⟨n, (hsp.registeredAs_iff w n).mpr hreg, ho⟩
      · exact hi.once w m n ((hsp.registeredAs_iff w m).mp hm) ((hsp.registeredAs_iff w n).mp hn)
    | advance id peer choice i k r sh hpeer hprog hnow hperform =>
      exact orderInv_performed hi (metInv_run hr) (taskInv_run hr) hpeer hprog hperform
    | rehash registry controllers hreg hc =>
      refine ⟨hreg.nextWorkerOrder.symm.trans hi.next, fun w o ho => hi.order w o ?_, hi.once⟩
      rw [← hreg.workerOrder.lookup]
      exact ho

theorem log_extends {cfg : Config} {bs : List ServerAction} {s₁ s₂ : Server}
    (h : Run (Server.step cfg) s₁ bs s₂) : ∃ newer, s₂.log = newer ++ s₁.log := by
  refine h.invariant (I := fun s => ∃ newer, s.log = newer ++ s₁.log) ⟨[], rfl⟩ ?_
  rintro s a s' ⟨newer, hlog⟩ - hs
  cases step_cases hs with
  | spawn id peer log hsp =>
    cases hsp with
    | connect role hnew => exact ⟨newer, hlog⟩
    | receive old req _ _ _ => exact ⟨.received id req :: newer, congrArg (_ :: ·) hlog⟩
    | disconnect old _ _ _ => exact ⟨newer, hlog⟩
  | advance id peer choice i k r sh hpeer hprog hnow hperform =>
    exact ⟨.performed id peer.handling i r :: newer, congrArg (_ :: ·) hlog⟩
  | rehash registry controllers hreg hc => exact ⟨newer, hlog⟩

/-! ## A later worker displaces nobody -/

/-- The action is one of the task `id`. -/
def ServerAction.IsOf (id : String) : ServerAction → Prop
  | .connect id' _ => id' = id
  | .receive id' _ => id' = id
  | .disconnect id' => id' = id
  | .advance id' _ => id' = id
  | .rehash _ _ => False

/-- A worker in the directory has the order it registered with. -/
theorem orderOf_listed {cfg : Config} {as : List ServerAction} {s : Server}
    (h : Run (Server.step cfg) Server.init as s) {w game : String}
    (hroom : s.shared.registry.gameRooms.lookup w = some game) :
    ∃ n, RegisteredAs w n s.log ∧ s.shared.registry.orderOf w = min n u64Max := by
  have hd := directoryInv_run h
  have hordered := (hd.ordered w).mpr (hd.listed w (.inl (by rw [hroom]; simp)))
  obtain ⟨o, ho⟩ := Option.ne_none_iff_exists'.mp hordered
  obtain ⟨n, hreg, rfl⟩ := (orderInv_run h).order w o ho
  refine ⟨n, hreg, ?_⟩
  show (s.shared.registry.workerOrder.lookup w).getD u64Max = _
  rw [ho]
  rfl

section Kept

variable {cfg : Config} {as bs : List ServerAction} {s₁ s₂ s₃ : Server} {w w₀ game game₀ : String}

/-- Of two workers in the directory, the one that had registered when the other had not is before
it. -/
theorem before_of_registered (h₁ : Run (Server.step cfg) Server.init as s₁)
    (h₂ : Run (Server.step cfg) s₁ bs s₂)
    (hthen : s₁.shared.registry.gameRooms.lookup w₀ = some game) (hnew : ¬ Met w s₁.log)
    (hcount : registrations s₂.log < 2 ^ 64)
    (hroom₀ : s₂.shared.registry.gameRooms.lookup w₀ = some game₀)
    (hroom : s₂.shared.registry.gameRooms.lookup w ≠ none) :
    s₂.shared.registry.Before w₀ w := by
  have hrun := h₁.trans h₂
  obtain ⟨newer, hlog⟩ := log_extends h₂
  obtain ⟨m, hreg₁, -⟩ := orderOf_listed h₁ hthen
  obtain ⟨m', hreg₀, horder₀⟩ := orderOf_listed hrun hroom₀
  obtain ⟨game', hgame'⟩ := Option.ne_none_iff_exists'.mp hroom
  obtain ⟨n, hreg, horder⟩ := orderOf_listed hrun hgame'
  have hsame : m' = m := by
    refine (orderInv_run hrun).once w₀ m' m hreg₀ ?_
    rw [hlog]
    exact hreg₁.later
  have hlt : m < registrations s₁.log := hreg₁.lt
  have hle : registrations s₁.log ≤ n := by
    rw [hlog] at hreg
    exact hreg.after hnew
  have hn : n < registrations s₂.log := hreg.lt
  left
  rw [horder₀, horder, hsame, u64Max]
  omega

/-- The step of a task leaves the rooms and the orders of the other workers. -/
theorem directory_of_other (h : Run (Server.step cfg) Server.init as s₂) {a : ServerAction}
    (ha : a.IsOf w) (hs : s₂.step cfg a = some s₃) {w' : String} (hne : w' ≠ w) :
    s₃.shared.registry.gameRooms.lookup w' = s₂.shared.registry.gameRooms.lookup w' ∧
      s₃.shared.registry.orderOf w' = s₂.shared.registry.orderOf w' := by
  cases step_cases hs with
  | spawn id peer log hsp => exact ⟨rfl, rfl⟩
  | rehash registry controllers hreg hc => exact absurd ha id
  | advance id peer choice i k r sh hpeer hprog hnow hperform =>
    obtain rfl : id = w := ha
    have hown := (taskInv_run h).owned hpeer hprog
    refine ⟨perform_room hperform ?_ ?_, ?_⟩
    · rintro game rfl
      exact hne hown.2.2
    · rintro rfl
      exact hne hown.2.2
    · show (sh.registry.workerOrder.lookup w').getD u64Max = _
      rw [perform_orderAfter hperform]
      cases i with
      | registerWorker v tx =>
        obtain ⟨-, -, rfl, -⟩ := hown
        rw [Op.orderAfter, if_neg hne]
        rfl
      | unregisterWorker v =>
        obtain ⟨-, -, rfl⟩ := hown
        rw [Op.orderAfter, if_neg hne]
        rfl
      | _ => rfl

/-- What the task of a worker does that was not registered when `w₀` was chosen leaves `w₀`
chosen. -/
theorem chosen_kept (h₁ : Run (Server.step cfg) Server.init as s₁)
    (hthen : (w₀, game) ∈ s₁.shared.registry.gamesPayload cfg.caseMap true)
    (hnew : ¬ Met w s₁.log) (h₂ : Run (Server.step cfg) s₁ bs s₂)
    (hchosen : (w₀, game₀) ∈ s₂.shared.registry.gamesPayload cfg.caseMap true) {a : ServerAction}
    (ha : a.IsOf w) (hs : s₂.step cfg a = some s₃) (hcount : registrations s₃.log < 2 ^ 64) :
    (w₀, game₀) ∈ s₃.shared.registry.gamesPayload cfg.caseMap true := by
  have hroom₁ := (RegistryState.mem_gamesPayload.mp hthen).1
  obtain ⟨hroom₂, hfirst⟩ := RegistryState.mem_gamesPayload.mp hchosen
  obtain ⟨hnamed, hfirst⟩ := hfirst rfl
  have hrun₂ := h₁.trans h₂
  have h₃ : Run (Server.step cfg) s₁ (bs ++ [a]) s₃ := h₂.snoc a trivial hs
  have hne₀ : w₀ ≠ w := by
    rintro rfl
    obtain ⟨n, hreg, -⟩ := orderOf_listed h₁ hroom₁
    exact hnew hreg.met
  obtain ⟨hsame₀, horder₀⟩ := directory_of_other hrun₂ ha hs hne₀
  have hroom₃ := hsame₀.trans hroom₂
  refine RegistryState.mem_gamesPayload.mpr
    ⟨hroom₃, fun _ => ⟨hnamed, fun w' game' hw' hn hb => ?_⟩⟩
  by_cases he : w' = w
  · subst he
    have hbefore := before_of_registered h₁ h₃ hroom₁ hnew hcount hroom₃ (by rw [hw']; simp)
    exact RegistryState.not_before_self _ _ (hbefore.trans hb)
  · obtain ⟨hsame, horder⟩ := directory_of_other hrun₂ ha hs he
    refine hfirst w' game' (hsame.symm.trans hw') hn ?_
    unfold RegistryState.Before at hb ⊢
    rwa [horder, horder₀] at hb

end Kept

/-- **One room a game.**  In every state of the registry the deduplicated payload is a part of the
map of rooms, with one worker for every name that is played there, the least by order and id; the
order of iteration does not matter.  In every run with fewer than 2^64 registrations, what the task
of a worker does that had not registered when another was chosen leaves that one chosen. -/
theorem rooms_deduplicated (cfg : Config) :
    (∀ s : RegistryState,
      ((s.gamesPayload cfg.caseMap true).map Prod.fst).Nodup ∧
      (∀ w game, (w, game) ∈ s.gamesPayload cfg.caseMap true →
        s.gameRooms.lookup w = some game ∧ normalizeGameName cfg.caseMap game ≠ "" ∧
          ∀ w' game', s.gameRooms.lookup w' = some game' →
            normalizeGameName cfg.caseMap game' = normalizeGameName cfg.caseMap game →
              w' = w ∨ s.Before w w') ∧
      (∀ w game, s.gameRooms.lookup w = some game → normalizeGameName cfg.caseMap game ≠ "" →
        ∃! room, room ∈ s.gamesPayload cfg.caseMap true ∧
          normalizeGameName cfg.caseMap room.2 = normalizeGameName cfg.caseMap game) ∧
      ∀ s', RegistryState.Rehashed s s' →
        (s.gamesPayload cfg.caseMap true).Perm (s'.gamesPayload cfg.caseMap true)) ∧
    ∀ (as bs : List ServerAction) (s₁ s₂ s₃ : Server) (w w₀ game game₀ : String) (a : ServerAction),
      Run (Server.step cfg) Server.init as s₁ →
      (w₀, game) ∈ s₁.shared.registry.gamesPayload cfg.caseMap true → ¬ Met w s₁.log →
      Run (Server.step cfg) s₁ bs s₂ →
      (w₀, game₀) ∈ s₂.shared.registry.gamesPayload cfg.caseMap true →
      a.IsOf w → s₂.step cfg a = some s₃ → registrations s₃.log < 2 ^ 64 →
      (w₀, game₀) ∈ s₃.shared.registry.gamesPayload cfg.caseMap true := by
  refine ⟨fun s => ⟨gamesPayload_keys_nodup _ s true, fun w game h => ?_,
    fun w game hroom hne => ?_, fun s' h => gamesPayload_rehashed _ true h⟩, ?_⟩
  · obtain ⟨hroom, hd⟩ := RegistryState.mem_gamesPayload.mp h
    exact ⟨hroom, (hd rfl).1, fun w' game' hw' hn => gamesPayload_least h hw' hn⟩
  · exact gamesPayload_existsUnique hroom rfl hne
  · intro as bs s₁ s₂ s₃ w w₀ game game₀ a h₁ hthen hnew h₂ hchosen ha hs hcount
    exact chosen_kept h₁ hthen hnew h₂ hchosen ha hs hcount

/-- A worker tells its game. -/
def chosenRun : List ServerAction :=
  .connect "one" .worker :: advances "one" 1 ++
    .receive "one" ⟨"gameInfo", some "Mario", none⟩ :: advances "one" 1

/-- Another one is about to tell a game of the same name. -/
def rivalRun : List ServerAction :=
  .connect "a" .worker :: advances "a" 1 ++ [.receive "a" ⟨"gameInfo", some " mario", none⟩]

def rivalStep : ServerAction := .advance "a" ⟨0, 0, fun _ => 0⟩

theorem rooms_deduplicated_rival :
    ∃ s₁ s₂ s₃, Run (Server.step plainConfig) Server.init chosenRun s₁ ∧
      Run (Server.step plainConfig) s₁ rivalRun s₂ ∧
      s₂.step plainConfig rivalStep = some s₃ ∧
      s₃.shared.registry.gameRooms.lookup "a" = some " mario" ∧
      ("one", "Mario") ∈ s₃.shared.registry.gamesPayload plainConfig.caseMap true := by
  have heval : ∃ s₁, Run (Server.step plainConfig) Server.init chosenRun s₁ ∧
      ((s₁.peers "a").isNone = true ∧
        ("one", "Mario") ∈ s₁.shared.registry.gamesPayload plainConfig.caseMap true ∧
        (exec (Server.step plainConfig) s₁ rivalRun).any (fun s₂ =>
          decide (("one", "Mario") ∈ s₂.shared.registry.gamesPayload plainConfig.caseMap true ∧
            (s₂.step plainConfig rivalStep).any (fun s₃ => decide (registrations s₃.log < 2 ^ 64 ∧
              s₃.shared.registry.gameRooms.lookup "a" = some " mario")) = true)) = true) :=
    execWhen_any (by decide +kernel)
  obtain ⟨s₁, h₁, hpeer, hthen, hlater⟩ := heval
  obtain ⟨s₂, hexec, h₂⟩ := (Option.any_eq_true _ _).mp hlater
  obtain ⟨hchosen, hstep⟩ := of_decide_eq_true h₂
  obtain ⟨s₃, hs, h₃⟩ := (Option.any_eq_true _ _).mp hstep
  obtain ⟨hcount, hroom⟩ := of_decide_eq_true h₃
  have hnew : ¬ Met "a" s₁.log := (metInv_run h₁).unknown "a" (Option.isNone_iff_eq_none.mp hpeer)
  have hrun₂ := exec_run hexec
  exact ⟨s₁, s₂, s₃, h₁, hrun₂, hs, hroom, (rooms_deduplicated plainConfig).2 _ _ s₁ s₂ s₃ "a" "one"
    "Mario" "Mario" rivalStep h₁ hthen hnew hrun₂ hchosen rfl hs hcount⟩

end CloudGame.Signal
