import CloudGame.Signal.Orphans

/-!
# The directory lists live workers

`set_worker_game` and `set_worker_player_count` insert for any id.  They are only performed by the
open connection of that worker, which registered it before anything else and takes it out only after
its socket has ended (`openRegistered_run`), so whatever the interleaving nothing is recorded of a
worker that is not registered (`directoryInv_run`).

`directory_live`: the games and the player counts that are read at any moment name workers that have
registered and whose connection has not been cleaned up.
-/

namespace CloudGame.Signal

open CloudGame.Lib

/-- The worker's connection took it out of the registry. -/
def CleanedUp (w : String) (log : List ServerEvent) : Prop :=
  ∃ handling reply, .performed w handling (.unregisterWorker w) reply ∈ log

def LiveWorker (w : String) (log : List ServerEvent) : Prop := Met w log ∧ ¬ CleanedUp w log

/-- The registry has a game or a player count of `w`. -/
def RegistryState.Lists (s : RegistryState) (w : String) : Prop :=
  s.gameRooms.lookup w ≠ none ∨ s.playerCounts.lookup w ≠ none

/-! ## One operation -/

section Perform

variable {cfg : Config} {choice : Choice} {sh sh' : Shared} {i : Op} {r : i.Reply} {w : String}

/-- What is listed was listed before, or its worker tells it now; nothing is listed of a worker that
is taken out. -/
theorem perform_lists (h : Shared.perform cfg choice sh i = some (r, sh'))
    (hl : sh'.registry.Lists w) : (sh.registry.Lists w ∧ i ≠ .unregisterWorker w) ∨
      (∃ game, i = .setWorkerGame w game) ∨ ∃ n, i = .setWorkerPlayerCount w n := by
  cases i with
  | registerHost host w' =>
    obtain ⟨controllers, rfl⟩ := perform_registerHost h
    exact Or.inl ⟨hl, fun he => by cases he⟩
  | setWorkerGame w' game =>
    cases h
    by_cases hw : w = w'
    · exact Or.inr (Or.inl ⟨game, by rw [hw]⟩)
    · refine Or.inl ⟨?_, fun he => by cases he⟩
      rcases RegistryState.setWorkerGame_cases cfg.caseMap sh.registry w' game with he | ⟨name, he⟩
      · rw [he] at hl
        exact hl
      · rw [he] at hl
        have hroom : (sh.registry.gameRooms.insert w' name).lookup w =
            sh.registry.gameRooms.lookup w := AList.lookup_insert_ne hw
        exact hl.imp (fun hlisted => hroom ▸ hlisted) id
  | setWorkerPlayerCount w' n =>
    cases h
    by_cases hw : w = w'
    · exact Or.inr (Or.inr ⟨n, by rw [hw]⟩)
    · have hcount : (sh.registry.playerCounts.insert w' n).lookup w =
          sh.registry.playerCounts.lookup w := AList.lookup_insert_ne hw
      exact Or.inl ⟨hl.imp id fun hlisted => hcount ▸ hlisted, fun he => by cases he⟩
  | unregisterWorker w' =>
    cases h
    have hkept : ∀ {V : Type} (m : HashMap String V), (m.erase w').lookup w ≠ none →
        m.lookup w ≠ none ∧ w ≠ w' := by
      intro V m hne
      rw [HashMap.lookup_erase_eq_ite] at hne
      split at hne
      · exact absurd rfl hne
      · next hw => exact ⟨hne, hw⟩
    refine Or.inl ⟨hl.imp (fun hroom => (hkept _ hroom).1) fun hcount => (hkept _ hcount).1, ?_⟩
    rintro ⟨⟩
    rcases hl with hroom | hcount
    · exact (hkept _ hroom).2 rfl
    · exact (hkept _ hcount).2 rfl
  | _ => cases h; exact Or.inl ⟨hl, fun he => by cases he⟩

/-- A worker has an order exactly while it has a queue. -/
theorem perform_order (h : Shared.perform cfg choice sh i = some (r, sh'))
    (ho : sh.registry.workerOrder.lookup w ≠ none ↔ sh.registry.workers.lookup w ≠ none) :
    sh'.registry.workerOrder.lookup w ≠ none ↔ sh'.registry.workers.lookup w ≠ none := by
  cases i with
  | registerHost host w' =>
    obtain ⟨controllers, rfl⟩ := perform_registerHost h
    exact ho
  | setWorkerGame w' game =>
    obtain ⟨rooms, rfl⟩ := perform_setWorkerGame h
    exact ho
  | registerWorker w' tx =>
    cases h
    show (sh.registry.workerOrder.insert w' _).lookup w ≠ none ↔
      (sh.registry.workers.insert w' tx).lookup w ≠ none
    rw [HashMap.lookup_insert_eq_ite, HashMap.lookup_insert_eq_ite]
    split
    · simp
    · exact ho
  | unregisterWorker w' =>
    cases h
    show (sh.registry.workerOrder.erase w').lookup w ≠ none ↔
      (sh.registry.workers.erase w').lookup w ≠ none
    rw [HashMap.lookup_erase_eq_ite, HashMap.lookup_erase_eq_ite]
    split
    · simp
    · exact ho
  | _ => cases h; exact ho

/-- A registered worker stays so until it is taken out. -/
theorem workerAfter_ne_none {before : Option Tx} (hb : before ≠ none)
    (hi : i ≠ .unregisterWorker w) : i.workerAfter w before ≠ none := by
  cases i with
  | registerWorker w' tx =>
    simp only [Op.workerAfter]
    split
    · simp
    · exact hb
  | unregisterWorker w' =>
    simp only [Op.workerAfter]
    split
    · next hw => exact absurd (by rw [hw]) hi
    · exact hb
  | _ => exact hb

theorem workerAfter_some {before : Option Tx} (h : i.workerAfter w before ≠ none) :
    before ≠ none ∨ ∃ tx, i = .registerWorker w tx := by
  cases i with
  | registerWorker w' tx =>
    by_cases hw : w = w'
    · exact Or.inr ⟨tx, by rw [hw]⟩
    · simp only [Op.workerAfter, if_neg hw] at h
      exact Or.inl h
  | unregisterWorker w' =>
    simp only [Op.workerAfter] at h
    split at h
    · exact absurd rfl h
    · exact Or.inl h
  | _ => exact Or.inl h

end Perform

/-! ## Runs -/

theorem cleanedUp_cons {w : String} {log : List ServerEvent} {e : ServerEvent} :
    CleanedUp w (e :: log) ↔
      (∃ handling reply, e = .performed w handling (.unregisterWorker w) reply) ∨
        CleanedUp w log := by
  simp only [CleanedUp, List.mem_cons]
  constructor
  · rintro ⟨handling, reply, he | hm⟩
    · exact Or.inl ⟨handling, reply, he.symm⟩
    · exact Or.inr ⟨handling, reply, hm⟩
  · rintro (⟨handling, reply, he⟩ | ⟨handling, reply, hm⟩)
    · exact ⟨handling, reply, Or.inl he.symm⟩
    · exact ⟨handling, reply, Or.inr hm⟩

theorem Spawns.cleanedUp_iff {cfg : Config} {s : Server} {a : ServerAction} {id : String}
    {peer : Peer} {log : List ServerEvent} (h : Spawns cfg s a id peer log) (w : String) :
    CleanedUp w log ↔ CleanedUp w s.log := by
  simp only [CleanedUp, h.performed_mem_iff]

/-- What is listed and what has an order is registered; what is registered has not been taken
out. -/
structure DirectoryInv (s : Server) : Prop where
  listed : ∀ w, s.shared.registry.Lists w → s.shared.registry.workers.lookup w ≠ none
  ordered : ∀ w, s.shared.registry.workerOrder.lookup w ≠ none ↔
    s.shared.registry.workers.lookup w ≠ none
  present : ∀ w, s.shared.registry.workers.lookup w ≠ none → ¬ CleanedUp w s.log
  cleaned : ∀ w, CleanedUp w s.log → Met w s.log

section Advance

variable {cfg : Config} {s : Server} {id : String} {peer : Peer} {choice : Choice} {i : Op}
  {k : i.Reply → ServerM Unit} {r : i.Reply} {sh : Shared}

/-- The task that tells its game or its player count has registered its worker. -/
theorem registered_of_tells (hm : MetInv cfg s) (ho : OpenRegistered s) (ht : TaskInv cfg s)
    (hpeer : s.peers id = some peer) (hprog : peer.prog = .op i k) {w : String}
    (htells : (∃ game, i = .setWorkerGame w game) ∨ ∃ n, i = .setWorkerPlayerCount w n) :
    s.shared.registry.workers.lookup w ≠ none := by
  have hown := ht.owned hpeer hprog
  have hopen : peer.isOpen = true ∧ peer.role = .worker ∧ w = id := by
    rcases htells with ⟨game, rfl⟩ | ⟨n, rfl⟩
    · exact hown
    · exact hown
  obtain ⟨hisOpen, hrole, rfl⟩ := hopen
  refine ho w ⟨peer, hpeer, hrole, hisOpen⟩ ?_
  rcases hm.known w peer hpeer with ⟨hstart, -⟩ | ⟨-, hmet⟩
  · rw [hprog, hrole] at hstart
    rcases htells with ⟨game, rfl⟩ | ⟨n, rfl⟩
    · cases hstart
    · cases hstart
  · exact hmet hrole

theorem directoryInv_performed (hi : DirectoryInv s) (hm : MetInv cfg s) (ho : OpenRegistered s)
    (ht : TaskInv cfg s) (hpeer : s.peers id = some peer) (hprog : peer.prog = .op i k)
    (hperform : Shared.perform cfg choice s.shared i = some (r, sh)) :
    DirectoryInv (s.performed id peer choice i k r sh) := by
  have hown := ht.owned hpeer hprog
  refine ⟨fun w hw => ?_, fun w => ?_, fun w hw hc => ?_, fun w hc => ?_⟩
  · show sh.registry.workers.lookup w ≠ none
    rw [perform_worker hperform]
    rcases perform_lists hperform hw with ⟨hlisted, hne⟩ | htells
    · exact workerAfter_ne_none (hi.listed w hlisted) hne
    · refine workerAfter_ne_none (registered_of_tells hm ho ht hpeer hprog htells) ?_
      rcases htells with ⟨game, rfl⟩ | ⟨n, rfl⟩
      · exact fun he => by cases he
      · exact fun he => by cases he
  · have horder := perform_order hperform (hi.ordered w)
    exact horder
  · replace hw : sh.registry.workers.lookup w ≠ none := hw
    rw [perform_worker hperform] at hw
    rcases cleanedUp_cons.mp hc with ⟨handling, reply, he⟩ | hcleaned
    · cases he
      exact hw (if_pos rfl)
    · rcases workerAfter_some hw with hbefore | ⟨tx, rfl⟩
      · exact hi.present w hbefore hcleaned
      · -- a worker registers before it is met
        obtain ⟨-, -, rfl, -⟩ := hown
        exact (hm.fresh hpeer hprog rfl).2 (hi.cleaned w hcleaned)
  · refine met_cons.mpr (Or.inr ?_)
    rcases cleanedUp_cons.mp hc with ⟨handling, reply, he⟩ | hc
    · cases he
      rcases hm.known id peer hpeer with ⟨hstart, -⟩ | ⟨-, hmet⟩
      · rw [hprog, hown.2.1] at hstart
        cases hstart
      · exact hmet hown.2.1
    · exact hi.cleaned w hc

end Advance

theorem directoryInv_run {cfg : Config} {as : List ServerAction} {s : Server}
    (h : Run (Server.step cfg) Server.init as s) : DirectoryInv s := by
  refine h.relative (I := DirectoryInv) ⟨?_, ?_, ?_, ?_⟩ fun as s a s' hr hi _ hs => ?_
  · rintro w (hroom | hcount)
    · exact absurd rfl hroom
    · exact absurd rfl hcount
  · exact fun w => ⟨fun hw => absurd rfl hw, fun hw => absurd rfl hw⟩
  · exact fun w hw => absurd rfl hw
  · rintro w ⟨_, _, hmem⟩
    cases hmem
  · cases step_cases hs with
    | spawn id peer log hsp =>
      refine ⟨hi.listed, hi.ordered, fun w hw => ?_, fun w hc => ?_⟩
      · exact (hsp.cleanedUp_iff w).not.mpr (hi.present w hw)
      · exact (hsp.met_iff w).mpr (hi.cleaned w ((hsp.cleanedUp_iff w).mp hc))
    | advance id peer choice i k r sh hpeer hprog hnow hperform =>
      exact directoryInv_performed hi (metInv_run hr) (openRegistered_run hr) (taskInv_run hr)
        hpeer hprog hperform
    | rehash registry controllers hreg hc =>
      refine ⟨fun w hw => ?_, fun w => ?_, fun w hw => hi.present w ?_, hi.cleaned⟩
      · show registry.workers.lookup w ≠ none
        rw [hreg.workers.lookup]
        refine hi.listed w (hw.imp (fun hroom => ?_) fun hcount => ?_)
        · rwa [← hreg.gameRooms.lookup]
        · rwa [← hreg.playerCounts.lookup]
      · show registry.workerOrder.lookup w ≠ none ↔ registry.workers.lookup w ≠ none
        rw [hreg.workerOrder.lookup, hreg.workers.lookup]
        exact hi.ordered w
      · rwa [← hreg.workers.lookup]

/-! ## What is read -/

/-- `browser_snapshot_payload`: the games and the player counts. -/
def browserSnapshotPayload (cfg : Config) :
    ServerM (List (String × String) × List (String × Nat)) := do
  let gamesRaw ← Call.gamesPayload
  let playerCounts ← Call.playerCountsSnapshot
  return ((cfg.json.fromStr gamesRaw).getD [], playerCounts)

/-- The reply of a read of the directory names only workers that satisfy `P`. -/
def Op.Names (cfg : Config) (P : String → Prop) : (i : Op) → i.Reply → Prop
  | .gamesPayload, reply =>
    ∃ games, reply = cfg.json.strings games ∧ ∀ w game, (w, game) ∈ games → P w
  | .playerCountsSnapshot, reply => ∀ w n, (w, n) ∈ reply → P w
  | _, _ => True

/-- Every read on the log named workers that were live then. -/
def ReadsLive (cfg : Config) (log : List ServerEvent) : Prop :=
  ∀ (newer older : List ServerEvent) (id : String) (handling : Option BrowserCommand) (i : Op)
    (r : i.Reply), log = newer ++ .performed id handling i r :: older →
      i.Names cfg (LiveWorker · older) r

/-- A snapshot made of replies that name only workers that satisfy `P`. -/
def SnapshotNames (cfg : Config) (P : String → Prop)
    (snapshot : List (String × String) × List (String × Nat)) : Prop :=
  (∃ games, snapshot.1 = (cfg.json.fromStr (cfg.json.strings games)).getD [] ∧
    ∀ w game, (w, game) ∈ games → P w) ∧
  ∀ w n, (w, n) ∈ snapshot.2 → P w

theorem liveWorker_of_registered {cfg : Config} {as : List ServerAction} {s : Server}
    (h : Run (Server.step cfg) Server.init as s) {w : String}
    (hw : s.shared.registry.workers.lookup w ≠ none) : LiveWorker w s.log := by
  obtain ⟨tx, htx⟩ := Option.ne_none_iff_exists'.mp hw
  exact ⟨(metInv_run h).registered w tx htx, (directoryInv_run h).present w hw⟩

theorem perform_names {cfg : Config} {choice : Choice} {sh sh' : Shared} {i : Op} {r : i.Reply}
    {P : String → Prop} (hlive : ∀ w, sh.registry.Lists w → P w)
    (h : Shared.perform cfg choice sh i = some (r, sh')) : i.Names cfg P r := by
  cases i with
  | gamesPayload =>
    cases h
    refine ⟨_, rfl, fun w game hmem => hlive w (Or.inl ?_)⟩
    rw [(RegistryState.mem_gamesPayload.mp hmem).1]
    simp
  | playerCountsSnapshot =>
    cases h
    refine fun w n hmem => hlive w (Or.inr ?_)
    rw [HashMap.mem_items.mp hmem]
    simp
  | _ => trivial

theorem readsLive_run {cfg : Config} {as : List ServerAction} {s : Server}
    (h : Run (Server.step cfg) Server.init as s) : ReadsLive cfg s.log := by
  refine h.relative (I := fun s => ReadsLive cfg s.log) ?_ fun as s a s' hr hi _ hs => ?_
  · intro newer older id handling i r hlog
    cases newer <;> cases hlog
  · intro newer older id handling i r hlog
    cases step_cases hs with
    | spawn id' peer log hsp =>
      cases hsp with
      | connect role hnew => exact hi newer older id handling i r hlog
      | receive old req _ _ _ =>
        rcases List.cons_eq_append_iff.mp hlog with ⟨-, he⟩ | ⟨newer', -, hrest⟩
        · cases he
        · exact hi newer' older id handling i r hrest
      | disconnect old _ _ _ => exact hi newer older id handling i r hlog
    | advance id' peer choice i' k r' sh hpeer hprog hnow hperform =>
      rcases List.cons_eq_append_iff.mp hlog with ⟨-, he⟩ | ⟨newer', -, hrest⟩
      · cases he
        refine perform_names (fun w hw => ?_) hperform
        exact liveWorker_of_registered hr ((directoryInv_run hr).listed w hw)
      · exact hi newer' older id handling i r hrest
    | rehash registry controllers hreg hc => exact hi newer older id handling i r hlog

theorem snapshot_names {cfg : Config} {choice : Choice} {sh sh' : Shared} {P : String → Prop}
    {snapshot : List (String × String) × List (String × Nat)}
    (hlive : ∀ w, sh.registry.Lists w → P w)
    (h : (browserSnapshotPayload cfg).exec (Shared.perform cfg choice) sh = some (snapshot, sh')) :
    SnapshotNames cfg P snapshot := by
  cases h
  refine ⟨⟨_, rfl, fun w game hmem => hlive w (Or.inl ?_)⟩, fun w n hmem => hlive w (Or.inr ?_)⟩
  · rw [(RegistryState.mem_gamesPayload.mp hmem).1]
    simp
  · rw [HashMap.mem_items.mp hmem]
    simp

/-- **The directory lists only live workers.**  Whatever the interleaving, the games and the player
counts are of registered workers, a worker has an order exactly while it is registered, and a
registered worker has not been cleaned up.  So every read of a task, a snapshot's included, named
workers that had not been cleaned up then, and so does a snapshot that is taken now. -/
theorem directory_live {cfg : Config} {as : List ServerAction} {s : Server}
    (h : Run (Server.step cfg) Server.init as s) :
    (∀ w, s.shared.registry.gameRooms.lookup w ≠ none →
      s.shared.registry.workers.lookup w ≠ none) ∧
    (∀ w, s.shared.registry.playerCounts.lookup w ≠ none →
      s.shared.registry.workers.lookup w ≠ none) ∧
    (∀ w, s.shared.registry.workerOrder.lookup w ≠ none ↔
      s.shared.registry.workers.lookup w ≠ none) ∧
    (∀ w, s.shared.registry.workers.lookup w ≠ none → LiveWorker w s.log) ∧
    ReadsLive cfg s.log ∧
    ∀ choice snapshot sh,
      (browserSnapshotPayload cfg).exec (Shared.perform cfg choice) s.shared =
        some (snapshot, sh) → SnapshotNames cfg (LiveWorker · s.log) snapshot := by
  have hi := directoryInv_run h
  refine ⟨fun w hw => hi.listed w (Or.inl hw), fun w hw => hi.listed w (Or.inr hw), hi.ordered,
    fun w hw => liveWorker_of_registered h hw, readsLive_run h, ?_⟩
  exact fun choice snapshot sh hexec =>
    snapshot_names (fun w hw => liveWorker_of_registered h (hi.listed w hw)) hexec

/-- A worker tells its game, and another one leaves while a browser reads. -/
def leavingRun : List ServerAction :=
  .connect "one" .worker :: advances "one" 1 ++ .connect "two" .worker :: advances "two" 1 ++
    .receive "one" ⟨"gameInfo", some "Mario", none⟩ :: advances "one" 2 ++
    .receive "two" ⟨"updatePlayerCount", some "3", none⟩ :: advances "two" 2 ++
    .connect "browser" .browser :: advances "browser" 2 ++
    .disconnect "two" :: advances "two" 1 ++ advances "browser" 3

theorem directory_live_leaving : ∃ s, Run (Server.step plainConfig) Server.init leavingRun s ∧
    s.shared.registry.gameRooms.lookup "one" = some "Mario" ∧ LiveWorker "one" s.log ∧
    ReadsLive plainConfig s.log := by
  have hrun : ∃ s, Run (Server.step plainConfig) Server.init leavingRun s ∧
      s.shared.registry.gameRooms.lookup "one" = some "Mario" := execWhen_any (by decide +kernel)
  obtain ⟨s, hrun, hroom⟩ := hrun
  obtain ⟨hrooms, -, -, hlive, hreads, -⟩ := directory_live hrun
  exact ⟨s, hrun, hroom, hlive "one" (hrooms "one" (by rw [hroom]; simp)), hreads⟩

end CloudGame.Signal
