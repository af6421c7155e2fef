import CloudGame.Signal.Effects

/-!
# What the browsers are shown

A browser's view of the games is the last `games` message on its queue, its view of a worker's
player count the last `updatePlayerCount` message about it.  A handler that changes what is shown
sends it to every client afterwards, and a client that connects is sent what there is, but reading
and sending are separate steps: a task may place what it read before a change on a queue after the
message of that change.

`NotStale` is the condition that the last message still to come for a client is not out of date.
Under it every registered client is shown the current state or a task will still send it a message
(`Viewed`, `viewed_run`), so in a quiescent state all views agree (`views_agree`).
-/

namespace CloudGame.Signal

open CloudGame.Lib

/-! ## Views -/

/-- The data of a `games` message. -/
def gamesData : OutboundEvent → Option (Option String)
  | .message msg => if msg.id = SignalIds.games then some msg.data else none
  | .close => none

/-- The data of an `updatePlayerCount` message about `w`. -/
def countData (w : String) : OutboundEvent → Option (Option String)
  | .message msg =>
    if msg.id = SignalIds.updatePlayerCount ∧ msg.sessionId = some w then some msg.data else none
  | .close => none

/-- The data decodes to the current games payload; the order of its entries is of no account. -/
def GamesCurrent (cfg : Config) (sh : Shared) (data : Option String) : Prop :=
  ∃ entries ∈ data.bind cfg.json.fromStr,
    entries.Perm (sh.registry.gamesPayload cfg.caseMap cfg.dedupeRoomsByGame)

/-- The data is the recorded player count of `w`, if there is one. -/
def CountCurrent (sh : Shared) (w : String) (data : Option String) : Prop :=
  ∀ n ∈ sh.registry.playerCounts.lookup w, data = some (toString n)

/-- The last `games` message on the queue of `q` is current. -/
def GamesShown (cfg : Config) (sh : Shared) (q : String) : Prop :=
  ∃ data ∈ (sh.queues q).findSome? gamesData, GamesCurrent cfg sh data

/-- The last `updatePlayerCount` message about `w` on the queue of `q` is current. -/
def CountShown (sh : Shared) (q w : String) : Prop :=
  ∃ data ∈ (sh.queues q).findSome? (countData w), CountCurrent sh w data

/-! ## Who will still send -/

/-- Replies while `q` is a registered client and `w` has a recorded player count. -/
def viewReply (q w : String) : (i : Op) → i.Reply → Prop
  | .allClients, r => (q, q) ∈ r
  | .playerCountsSnapshot, r => ∃ n, (w, n) ∈ r
  | _, _ => True

/-- Replies while `q` is a registered client. -/
def clientReply (q : String) : (i : Op) → i.Reply → Prop
  | .allClients, r => (q, q) ∈ r
  | _, _ => True

def SendsGames (q : String) (i : Op) : Prop :=
  ∃ event data, i = .send q event ∧ gamesData event = some data

def SendsCount (q w : String) (i : Op) : Prop :=
  ∃ event data, i = .send q event ∧ countData w event = some data

/-- A task other than `id`, or the rest of the program of `id`, certainly still performs `hit`. -/
def Server.OwesElse (s : Server) (id : String) (rest : ServerM Unit)
    (adm : (i : Op) → i.Reply → Prop) (hit : Op → Prop) : Prop :=
  rest.Will adm hit ∨
    ∃ id' peer, id' ≠ id ∧ s.peers id' = some peer ∧ peer.prog.Will adm hit

/-- A message placed on the queue of a registered client is current, or another of its kind is
still to come. -/
def FreshSend (cfg : Config) (s : Server) (id : String) (i : Op) (rest : ServerM Unit) : Prop :=
  ∀ q event, i = .send q event → s.shared.registry.clients.lookup q ≠ none →
    (∀ data, gamesData event = some data → GamesCurrent cfg s.shared data ∨
      s.OwesElse id rest (clientReply q) (SendsGames q)) ∧
    ∀ w data, countData w event = some data → CountCurrent s.shared w data ∨
      s.OwesElse id rest (viewReply q w) (SendsCount q w)

/-- The condition on the steps of a run. -/
def NotStale (cfg : Config) (s : Server) : ServerAction → Prop
  | .advance id _ => ∀ peer i k, s.peers id = some peer → peer.prog = .op i k →
      ∀ r, FreshSend cfg s id i (k r)
  | _ => True

theorem Server.OwesElse.performed {s : Server} {id : String} {peer : Peer} {choice : Choice}
    {i : Op} {k : i.Reply → ServerM Unit} {r : i.Reply} {sh : Shared}
    {adm : (i : Op) → i.Reply → Prop} {hit : Op → Prop} (h : s.OwesElse id (k r) adm hit) :
    (s.performed id peer choice i k r sh).Owes adm hit := by
  rcases h with h | ⟨id', peer', hne, hpeer', hwill⟩
  · exact .of_rest h
  · exact ⟨id', peer', by rw [peers_performed, if_neg hne, hpeer'], hwill⟩

/-! ## Changes are followed by sends -/

/-- What the rest of a program certainly sends after it changed what is shown. -/
def Shows : (i : Op) → (i.Reply → ServerM Unit) → Prop
  | .registerClient c _, k => (k ()).Will (clientReply c) (SendsGames c) ∧
      ∀ w, (k ()).Will (viewReply c w) (SendsCount c w)
  | .setWorkerGame _ _, k => ∀ q, (k true).Will (clientReply q) (SendsGames q)
  | .unregisterWorker _, k => ∀ r q, (k r).Will (clientReply q) (SendsGames q)
  | .setWorkerPlayerCount w _, k => ∀ q, (k ()).Will (viewReply q w) (SendsCount q w)
  | _, _ => True

theorem sendsGames_gamesMessage (q payload : String) :
    SendsGames q (.send q (.message (gamesMessage payload))) :=
  ⟨_, some payload, rfl, rfl⟩

theorem sendsCount_updatePlayerCountMessage (q w : String) (n : Nat) :
    SendsCount q w (.send q (.message (updatePlayerCountMessage w n))) :=
  ⟨_, some (toString n), rfl, by simp [countData, updatePlayerCountMessage]⟩

/-- A broadcast reaches every registered client. -/
theorem will_broadcastToClients {adm : (i : Op) → i.Reply → Prop} {hit : Op → Prop} {q : String}
    {msg : SignalMessage} (hadm : ∀ r, adm .allClients r → (q, q) ∈ r)
    (hhit : hit (.send q (.message msg))) : (broadcastToClients msg).Will adm hit := by
  refine Or.inr fun clients hr => ?_
  exact Prog.Will.each (hadm clients hr) (Or.inl hhit)

theorem will_broadcastGames (q : String) : broadcastGames.Will (clientReply q) (SendsGames q) := by
  refine Or.inr fun payload _ => ?_
  exact will_broadcastToClients (fun _ h => h) (sendsGames_gamesMessage q payload)

theorem shows_of_later {role : PeerRole} {id : String} {isOpen : Bool}
    {handling : Option BrowserCommand} (i : Op) (k : i.Reply → ServerM Unit)
    (h : i.Later role id isOpen handling) : Shows i k := by
  have hhead := h.2
  cases i with
  | registerClient c tx => cases hhead
  | setWorkerGame w game => cases hhead
  | unregisterWorker w => cases hhead
  | setWorkerPlayerCount w n => cases hhead
  | _ => trivial

/-- Only the first operation of a program changes what is shown. -/
theorem Headed.along_shows {role : PeerRole} {id : String} {isOpen : Bool}
    {handling : Option BrowserCommand} {p : ServerM Unit} (h : Headed role id isOpen handling p)
    (hhead : ∀ i k, p = .op i k → Shows i k) : p.Along Shows := by
  cases p with
  | ret a => trivial
  | op i k => exact ⟨hhead i k rfl, fun r => (h.2 r).along shows_of_later⟩

theorem shows_startBrowser (cfg : Config) (c : String) :
    Shows (.registerClient c c) fun _ => sendBrowserInitialState cfg c := by
  constructor
  · refine Or.inr fun payload _ => Or.inr fun _ _ => ?_
    exact Or.inl (sendsGames_gamesMessage c _)
  · intro w
    refine Or.inr fun payload _ => Or.inr fun _ _ => Or.inr fun _ _ => Or.inr fun counts hr => ?_
    obtain ⟨n, hmem⟩ := hr
    exact Prog.Will.each hmem (Or.inl (sendsCount_updatePlayerCountMessage c w n))

theorem IsSpawned.along_shows {cfg : Config} {id : String} {peer : Peer}
    (h : IsSpawned cfg id peer) : peer.prog.Along Shows := by
  refine h.headed.along_shows fun i k he => ?_
  cases h with
  | start role =>
    cases role with
    | browser => cases he; exact shows_startBrowser cfg id
    | worker => cases he; trivial
  | message role req =>
    cases role with
    | browser =>
      replace he : handleBrowserMessage cfg id req = .op i k := he
      have hlater : (handleBrowserMessage cfg id req).All _ := later_handleBrowserMessage cfg req
      rw [he] at hlater
      exact shows_of_later i k hlater.1
    | worker =>
      replace he : handleWorkerMessage id req = .op i k := he
      unfold handleWorkerMessage at he
      split at he
      · next cmd hcmd =>
        cases cmd with
        | gameInfo game => cases he; exact fun q => will_broadcastGames q
        | forwardToClient c event data => cases he; trivial
        | updatePlayerCount n =>
          cases he
          exact fun q => will_broadcastToClients (fun _ h => h)
            (sendsCount_updatePlayerCountMessage q id n)
      · cases he
  | cleanup role =>
    cases role with
    | browser => cases he; trivial
    | worker =>
      cases he
      exact fun r q => .bind_right fun _ => .bind_right fun _ => will_broadcastGames q

theorem shows_run {cfg : Config} {as : List ServerAction} {s : Server}
    (h : Run (Server.step cfg) Server.init as s) {id : String} {peer : Peer} {i : Op}
    {k : i.Reply → ServerM Unit} (hpeer : s.peers id = some peer) (hprog : peer.prog = .op i k) :
    Shows i k := by
  have halong := along_run (fun _ _ => IsSpawned.along_shows) h id peer hpeer
  rw [hprog] at halong
  exact halong.1

/-! ## What an operation changes of what is shown -/

/-- A worker with a game has registered. -/
theorem rooms_met {cfg : Config} {as : List ServerAction} {s : Server}
    (h : Run (Server.step cfg) Server.init as s) {w : String}
    (hw : s.shared.registry.gameRooms.lookup w ≠ none) : Met w s.log := by
  refine h.relative (I := fun s => ∀ w, s.shared.registry.gameRooms.lookup w ≠ none → Met w s.log)
    (fun w hw => absurd rfl hw) ?_ w hw
  intro as s a s' hr hi _ hs w hw
  cases step_cases hs with
  | spawn id peer log hsp => exact (hsp.met_iff w).mpr (hi w hw)
  | advance id peer choice i k r sh hpeer hprog hnow hperform =>
    have hold : s.shared.registry.gameRooms.lookup w ≠ none →
        Met w (s.performed id peer choice i k r sh).log :=
      fun hw => (hi w hw).performed
    replace hw : sh.registry.gameRooms.lookup w ≠ none := hw
    cases i with
    | setWorkerGame w' game =>
      by_cases he : w = w'
      · -- its own task is past the registration
        obtain ⟨-, hrole, hid⟩ := (taskInv_run hr).owned hpeer hprog
        refine met_cons.mpr (Or.inr ?_)
        rw [he, hid]
        rcases (metInv_run hr).known id peer hpeer with ⟨hstart, -⟩ | ⟨-, hmet⟩
        · rw [hprog, hrole] at hstart
          cases hstart
        · exact hmet hrole
      · cases hperform
        refine hold fun hnone => hw ?_
        show (s.shared.registry.setWorkerGame cfg.caseMap w' game).2.gameRooms.lookup w = none
        rcases RegistryState.setWorkerGame_cases cfg.caseMap s.shared.registry w' game with
          hg | ⟨name, hg⟩
        · rw [hg]; exact hnone
        · rw [hg]
          show (s.shared.registry.gameRooms.insert w' name).lookup w = none
          rw [HashMap.lookup_insert_eq_ite, if_neg he, hnone]
    | unregisterWorker w' =>
      cases hperform
      refine hold fun hnone => hw ?_
      show (s.shared.registry.gameRooms.erase w').lookup w = none
      rw [HashMap.lookup_erase_eq_ite, hnone, ite_self]
    | registerHost host w' =>
      obtain ⟨controllers, rfl⟩ := perform_registerHost hperform
      exact hold hw
    | _ => cases hperform; exact hold hw
  | rehash registry controllers hreg hc =>
    refine hi w ?_
    rw [← hreg.gameRooms.lookup]
    exact hw

/-- The operations that change the games that are shown. -/
def Op.changesGames : (i : Op) → i.Reply → Bool
  | .setWorkerGame _ _, r => r
  | .unregisterWorker _, _ => true
  | _, _ => false

section Advance

variable {cfg : Config} {s : Server} {id : String} {peer : Peer} {choice : Choice} {i : Op}
  {k : i.Reply → ServerM Unit} {r : i.Reply} {sh : Shared}

theorem payload_performed {as : List ServerAction} (hr : Run (Server.step cfg) Server.init as s)
    (hpeer : s.peers id = some peer) (hprog : peer.prog = .op i k)
    (hperform : Shared.perform cfg choice s.shared i = some (r, sh))
    (hkeep : i.changesGames r = false) :
    (s.shared.registry.gamesPayload cfg.caseMap cfg.dedupeRoomsByGame).Perm
      (sh.registry.gamesPayload cfg.caseMap cfg.dedupeRoomsByGame) := by
  cases i with
  | registerWorker w tx =>
    -- a worker without a room does not count
    have hfresh := ((metInv_run hr).fresh hpeer hprog rfl).2
    have hid := ((taskInv_run hr).owned hpeer hprog).2.2.1
    cases hperform
    refine RegistryState.gamesPayload_perm _ _ (fun _ => rfl) fun w' hw' => ?_
    have hne : w' ≠ w := by
      rintro rfl
      exact hfresh (hid ▸ rooms_met hr hw')
    show ((s.shared.registry.workerOrder.insert w _).lookup w').getD _ = _
    rw [HashMap.lookup_insert_eq_ite, if_neg hne]
    rfl
  | setWorkerGame w game =>
    cases hperform
    show List.Perm _ ((s.shared.registry.setWorkerGame cfg.caseMap w game).2.gamesPayload _ _)
    replace hkeep : (s.shared.registry.setWorkerGame cfg.caseMap w game).1 = false := hkeep
    rcases RegistryState.setWorkerGame_cases cfg.caseMap s.shared.registry w game with
      hg | ⟨name, hg⟩
    · rw [hg]
    · rw [hg] at hkeep; cases hkeep
  | unregisterWorker w => cases hkeep
  | registerHost host w =>
    obtain ⟨controllers, rfl⟩ := perform_registerHost hperform
    exact List.Perm.refl _
  | _ => cases hperform; exact List.Perm.refl _

/-- A recorded player count stays as it is, but for the worker's own report or its end. -/
theorem count_performed (hperform : Shared.perform cfg choice s.shared i = some (r, sh))
    {w : String} (hset : ∀ n, i ≠ .setWorkerPlayerCount w n)
    (hrecorded : sh.registry.playerCounts.lookup w ≠ none) :
    sh.registry.playerCounts.lookup w = s.shared.registry.playerCounts.lookup w := by
  cases i with
  | setWorkerPlayerCount w' n =>
    cases hperform
    show (s.shared.registry.playerCounts.insert w' n).lookup w = _
    rw [HashMap.lookup_insert_eq_ite, if_neg]
    rintro rfl
    exact hset n rfl
  | unregisterWorker w' =>
    cases hperform
    replace hrecorded : (s.shared.registry.playerCounts.erase w').lookup w ≠ none := hrecorded
    show (s.shared.registry.playerCounts.erase w').lookup w = _
    rw [HashMap.lookup_erase_eq_ite] at hrecorded ⊢
    split at hrecorded
    · exact absurd rfl hrecorded
    · next he => rw [if_neg he]
  | setWorkerGame w' game =>
    obtain ⟨rooms, rfl⟩ := perform_setWorkerGame hperform
    rfl
  | registerHost host w' =>
    obtain ⟨controllers, rfl⟩ := perform_registerHost hperform
    rfl
  | _ => cases hperform; rfl

/-- A client that is registered was so, or registers now. -/
theorem client_performed (hown : i.OwnedBy peer.role id peer.isOpen peer.handling)
    (hperform : Shared.perform cfg choice s.shared i = some (r, sh)) {q : String}
    (hq : sh.registry.clients.lookup q ≠ none) :
    s.shared.registry.clients.lookup q ≠ none ∨ i = .registerClient q q := by
  by_cases hold : s.shared.registry.clients.lookup q = none
  · rw [perform_client hperform, hold] at hq
    cases i with
    | registerClient c tx =>
      simp only [Op.clientAfter] at hq
      split at hq
      · next he => exact Or.inr (by rw [he, hown.2.2.2, hown.2.2.1])
      · exact absurd rfl hq
    | unregisterClient c => simp [Op.clientAfter] at hq
    | unregisterWorker w => simp [Op.clientAfter] at hq
    | _ => exact absurd rfl hq
  · exact Or.inl hold

/-- A message that is not of a kind leaves the last one of the kind. -/
theorem last_performed (hperform : Shared.perform cfg choice s.shared i = some (r, sh))
    {q : String} {kind : OutboundEvent → Option (Option String)}
    (hmiss : ∀ event data, i = .send q event → kind event ≠ some data) :
    (sh.queues q).findSome? kind = (s.shared.queues q).findSome? kind := by
  rw [perform_queues hperform]
  cases i with
  | send tx event =>
    simp only [Op.placed]
    split
    · next he =>
      subst he
      have hnone : kind event = none := by
        cases hk : kind event with
        | none => rfl
        | some data => exact absurd hk (hmiss event data rfl)
      rw [List.singleton_append, List.findSome?_cons, hnone]
    · rfl
  | _ => rfl

theorem clientReply_perform (hown : OwnQueues s) {q : String}
    (hq : s.shared.registry.clients.lookup q ≠ none)
    (hperform : Shared.perform cfg choice s.shared i = some (r, sh)) : clientReply q i r := by
  cases i with
  | allClients =>
    cases hperform
    obtain ⟨tx, htx⟩ := Option.ne_none_iff_exists'.mp hq
    have he : tx = q := hown.clients q tx htx
    rw [he] at htx
    exact HashMap.mem_items.mpr htx
  | _ => trivial

theorem viewReply_perform (hown : OwnQueues s) {q w : String}
    (hq : s.shared.registry.clients.lookup q ≠ none)
    (hw : s.shared.registry.playerCounts.lookup w ≠ none)
    (hperform : Shared.perform cfg choice s.shared i = some (r, sh)) : viewReply q w i r := by
  cases i with
  | allClients => exact clientReply_perform (i := .allClients) hown hq hperform
  | playerCountsSnapshot =>
    cases hperform
    obtain ⟨n, hn⟩ := Option.ne_none_iff_exists'.mp hw
    exact ⟨n, HashMap.mem_items.mpr hn⟩
  | _ => trivial

end Advance

/-! ## Every view is current, or will be -/

/-- Every registered client is shown the current games and counts, or a task will still send it
the message. -/
def Viewed (cfg : Config) (s : Server) : Prop :=
  ∀ q, s.shared.registry.clients.lookup q ≠ none →
    (GamesShown cfg s.shared q ∨ s.Owes (clientReply q) (SendsGames q)) ∧
    ∀ w, s.shared.registry.playerCounts.lookup w ≠ none →
      CountShown s.shared q w ∨ s.Owes (viewReply q w) (SendsCount q w)

section Advance

variable {cfg : Config} {s : Server} {id : String} {peer : Peer} {choice : Choice} {i : Op}
  {k : i.Reply → ServerM Unit} {r : i.Reply} {sh : Shared} {q : String}

theorem games_performed {as : List ServerAction} (hr : Run (Server.step cfg) Server.init as s)
    (hpeer : s.peers id = some peer) (hprog : peer.prog = .op i k)
    (hperform : Shared.perform cfg choice s.shared i = some (r, sh))
    (hfresh : FreshSend cfg s id i (k r)) (hq : s.shared.registry.clients.lookup q ≠ none)
    (hi : GamesShown cfg s.shared q ∨ s.Owes (clientReply q) (SendsGames q)) :
    GamesShown cfg sh q ∨
      (s.performed id peer choice i k r sh).Owes (clientReply q) (SendsGames q) := by
  have hshows := shows_run hr hpeer hprog
  by_cases hhit : SendsGames q i
  · -- a games message is placed
    obtain ⟨event, data, rfl, hdata⟩ := hhit
    rcases (hfresh q event rfl hq).1 data hdata with hcur | howed
    · refine Or.inl ⟨data, ?_, ?_⟩
      · rw [perform_queues hperform]
        simp [Op.placed, hdata]
      · have hsame : sh.registry = s.shared.registry := by cases hperform; rfl
        unfold GamesCurrent
        rw [hsame]
        exact hcur
    · exact Or.inr howed.performed
  · rcases hi with ⟨data, hlast, entries, hentries, hperm⟩ | howes
    · by_cases hchange : i.changesGames r = true
      · -- the games change, and the task broadcasts them
        refine Or.inr (.of_rest ?_)
        cases i with
        | setWorkerGame w game =>
          replace hchange : r = true := hchange
          rw [hchange]
          exact hshows q
        | unregisterWorker w => exact hshows r q
        | _ => cases hchange
      · refine Or.inl ⟨data, ?_, entries, hentries, hperm.trans ?_⟩
        · rw [last_performed hperform]
          · exact hlast
          · exact fun event data he hd => hhit ⟨event, data, he, hd⟩
        · exact payload_performed hr hpeer hprog hperform (by simpa using hchange)
    · exact Or.inr (howes.performed hpeer hprog
        (clientReply_perform (ownQueues_run hr) hq hperform) hhit)

theorem counts_performed {as : List ServerAction} (hr : Run (Server.step cfg) Server.init as s)
    (hpeer : s.peers id = some peer) (hprog : peer.prog = .op i k)
    (hperform : Shared.perform cfg choice s.shared i = some (r, sh))
    (hfresh : FreshSend cfg s id i (k r)) (hq : s.shared.registry.clients.lookup q ≠ none)
    {w : String} (hrecorded : sh.registry.playerCounts.lookup w ≠ none)
    (hi : s.shared.registry.playerCounts.lookup w ≠ none →
      CountShown s.shared q w ∨ s.Owes (viewReply q w) (SendsCount q w)) :
    CountShown sh q w ∨
      (s.performed id peer choice i k r sh).Owes (viewReply q w) (SendsCount q w) := by
  by_cases hset : ∃ n, i = .setWorkerPlayerCount w n
  · obtain ⟨n, rfl⟩ := hset
    have hshows := shows_run hr hpeer hprog
    exact Or.inr (.of_rest (hshows q))
  · have hsame := count_performed hperform (fun n he => hset ⟨n, he⟩) hrecorded
    rw [hsame] at hrecorded
    by_cases hhit : SendsCount q w i
    · obtain ⟨event, data, rfl, hdata⟩ := hhit
      rcases (hfresh q event rfl hq).2 w data hdata with hcur | howed
      · refine Or.inl ⟨data, ?_, ?_⟩
        · rw [perform_queues hperform]
          simp [Op.placed, hdata]
        · unfold CountCurrent
          rw [hsame]
          exact hcur
      · exact Or.inr howed.performed
    · rcases hi hrecorded with ⟨data, hlast, hcur⟩ | howes
      · refine Or.inl ⟨data, ?_, ?_⟩
        · rw [last_performed hperform]
          · exact hlast
          · exact fun event data he hd => hhit ⟨event, data, he, hd⟩
        · unfold CountCurrent
          rw [hsame]
          exact hcur
      · exact Or.inr (howes.performed hpeer hprog
          (viewReply_perform (ownQueues_run hr) hq hrecorded hperform) hhit)

end Advance

theorem viewed_run {cfg : Config} {as : List ServerAction} {s : Server}
    (h : RunWhen (NotStale cfg) (Server.step cfg) Server.init as s) : Viewed cfg s := by
  refine h.relative (I := Viewed cfg) (fun q hq => absurd rfl hq) fun as s a s' hr hi hok hs => ?_
  cases step_cases hs with
  | spawn id peer log hsp =>
    intro q hq
    obtain ⟨hgames, hcounts⟩ := hi q hq
    exact ⟨hgames.imp (fun h => h) fun h => h.spawn hsp,
      fun w hw => (hcounts w hw).imp (fun h => h) fun h => h.spawn hsp⟩
  | advance id peer choice i k r sh hpeer hprog hnow hperform =>
    intro q hq
    have hfresh := hok peer i k hpeer hprog r
    have hown := (taskInv_run hr).owned hpeer hprog
    rcases client_performed hown hperform hq with hq₀ | rfl
    · obtain ⟨hgames, hcounts⟩ := hi q hq₀
      have hg := games_performed hr hpeer hprog hperform hfresh hq₀ hgames
      have hn := fun w hw => counts_performed hr hpeer hprog hperform hfresh hq₀ hw (hcounts w)
      exact ⟨hg, hn⟩
    · -- the client registers, and its task goes on to send it the state
      have hshows := shows_run hr hpeer hprog
      exact ⟨Or.inr (.of_rest hshows.1), fun w _ => Or.inr (.of_rest (hshows.2 w))⟩
  | rehash registry controllers hreg hc =>
    intro q hq
    replace hq : registry.clients.lookup q ≠ none := hq
    rw [hreg.clients.lookup] at hq
    obtain ⟨hgames, hcounts⟩ := hi q hq
    refine ⟨hgames.imp ?_ fun h => h, fun w hw => ?_⟩
    · rintro ⟨data, hlast, entries, hentries, hperm⟩
      refine ⟨data, hlast, entries, hentries, hperm.trans ?_⟩
      refine RegistryState.gamesPayload_perm _ _ hreg.gameRooms.lookup fun w _ => ?_
      unfold RegistryState.orderOf
      rw [hreg.workerOrder.lookup]
    · replace hw : registry.playerCounts.lookup w ≠ none := hw
      rw [hreg.playerCounts.lookup] at hw
      refine (hcounts w hw).imp ?_ fun h => h
      rintro ⟨data, hlast, hcur⟩
      refine ⟨data, hlast, fun n hn => hcur n ?_⟩
      rw [← hreg.playerCounts.lookup]
      exact hn

/-! ## The result -/

/-- **Browser views agree.**  In a run that leaves no client a stale message as its last, whenever
no handler, initial-state sender or cleanup is in progress: the last `games` message of every
registered client decodes to the current payload, and for every worker with a recorded player
count the client's last `updatePlayerCount` message about it carries that count. -/
theorem views_agree {cfg : Config} {as : List ServerAction} {s : Server}
    (h : RunWhen (NotStale cfg) (Server.step cfg) Server.init as s) (hq : s.Quiescent)
    {q : String} {tx : Tx} (hc : s.shared.registry.clients.lookup q = some tx) :
    GamesShown cfg s.shared tx ∧ ∀ w n, s.shared.registry.playerCounts.lookup w = some n →
      (s.shared.queues tx).findSome? (countData w) = some (some (toString n)) := by
  have htx := (ownQueues_run h.run).clients q tx hc
  subst htx
  obtain ⟨hgames, hcounts⟩ := viewed_run h tx (by rw [hc]; simp)
  refine ⟨hgames.resolve_right hq.not_owes, fun w n hw => ?_⟩
  obtain ⟨data, hlast, hcur⟩ := (hcounts w (by rw [hw]; simp)).resolve_right hq.not_owes
  rw [Option.mem_def.mp hlast, hcur n hw]

instance (cfg : Config) (sh : Shared) (data : Option String) :
    Decidable (GamesCurrent cfg sh data) :=
  inferInstanceAs (Decidable (∃ entries ∈ data.bind cfg.json.fromStr, _))

instance (cfg : Config) (sh : Shared) (q : String) : Decidable (GamesShown cfg sh q) :=
  inferInstanceAs (Decidable (∃ data ∈ (sh.queues q).findSome? gamesData, _))

instance (sh : Shared) (w : String) (data : Option String) : Decidable (CountCurrent sh w data) :=
  inferInstanceAs (Decidable (∀ n ∈ sh.registry.playerCounts.lookup w, _))

/-- A step that places no message but a current one, as a look at the message tells. -/
def current (cfg : Config) (s : Server) : ServerAction → Bool
  | .advance id _ =>
    match s.peers id with
    | some ⟨_, _, _, .op (.send _ (.message msg)) _⟩ =>
      decide ((msg.id = SignalIds.games → GamesCurrent cfg s.shared msg.data) ∧
        (msg.id = SignalIds.updatePlayerCount →
          ∀ w ∈ msg.sessionId, CountCurrent s.shared w msg.data))
    | _ => true
  | _ => true

theorem notStale_of_current (cfg : Config) (s : Server) (a : ServerAction)
    (h : current cfg s a = true) : NotStale cfg s a := by
  cases a with
  | advance id choice =>
    rintro ⟨role, isOpen, handling, prog⟩ i k hpeer rfl r q event rfl -
    cases event with
    | close =>
      constructor
      · rintro data ⟨⟩
      · rintro w data ⟨⟩
    | message msg =>
      simp only [current, hpeer] at h
      obtain ⟨hgames, hcounts⟩ := of_decide_eq_true h
      refine ⟨fun data hd => Or.inl ?_, fun w data hd => Or.inl ?_⟩
      · simp only [gamesData, Option.ite_none_right_eq_some, Option.some.injEq] at hd
        obtain ⟨hid, rfl⟩ := hd
        exact hgames hid
      · simp only [countData, Option.ite_none_right_eq_some, Option.some.injEq] at hd
        obtain ⟨⟨hid, hsession⟩, rfl⟩ := hd
        exact hcounts hid w hsession
  | _ => trivial

/-- Two browsers and a worker; the worker tells its game and its players, one browser before and
one after it. -/
def viewRun : List ServerAction :=
  .connect "worker" .worker :: advances "worker" 1 ++
    .connect "early" .browser :: advances "early" 5 ++
    .receive "worker" ⟨"gameInfo", some "Mario", none⟩ :: advances "worker" 4 ++
    .receive "worker" ⟨"updatePlayerCount", some "3", none⟩ :: advances "worker" 3 ++
    .connect "late" .browser :: advances "late" 6

theorem views_agree_late : ∃ s, Run (Server.step plainConfig) Server.init viewRun s ∧
    GamesShown plainConfig s.shared "late" ∧
    (s.shared.queues "late").findSome? (countData "worker") = some (some "3") := by
  have heval : (execWhen (fun s a => current plainConfig s a = true) (Server.step plainConfig)
      Server.init viewRun).any (fun s => decide (s.Done viewRun ∧
        s.shared.registry.clients.lookup "late" = some "late" ∧
        s.shared.registry.playerCounts.lookup "worker" = some 3)) = true := by decide +kernel
  obtain ⟨s, hrun, hdone, hc, hn⟩ := execWhen_any heval
  obtain ⟨hgames, hcounts⟩ := views_agree (hrun.mono (notStale_of_current plainConfig))
    (quiescent_of_done hrun.run hdone) hc
  exact ⟨s, hrun.run, hgames, hcounts "worker" 3 hn⟩

/-- A browser connects and reads the games; the worker's first game is broadcast to it; then it
is sent what it read. -/
def staleRun : List ServerAction :=
  .connect "worker" .worker :: advances "worker" 1 ++
    .connect "browser" .browser :: advances "browser" 3 ++
    .receive "worker" ⟨"gameInfo", some "Mario", none⟩ :: advances "worker" 4 ++
    advances "browser" 2

theorem views_agree_fails : ∃ s, Run (Server.step plainConfig) Server.init staleRun s ∧
    s.Quiescent ∧ s.shared.registry.clients.lookup "browser" = some "browser" ∧
    s.shared.registry.gamesPayload plainConfig.caseMap plainConfig.dedupeRoomsByGame =
      [("worker", "Mario")] ∧
    ¬ GamesShown plainConfig s.shared "browser" := by
  have heval : (execWhen (fun _ _ => True) (Server.step plainConfig) Server.init
      staleRun).any (fun s => decide (s.Done staleRun ∧
        s.shared.registry.clients.lookup "browser" = some "browser" ∧
        s.shared.registry.gamesPayload plainConfig.caseMap plainConfig.dedupeRoomsByGame =
          [("worker", "Mario")] ∧ ¬ GamesShown plainConfig s.shared "browser")) = true := by
    decide +kernel
  obtain ⟨s, hrun, hdone, h⟩ := execWhen_any heval
  exact ⟨s, hrun, quiescent_of_done hrun hdone, h⟩

end CloudGame.Signal
