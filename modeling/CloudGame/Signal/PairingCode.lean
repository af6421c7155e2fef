import CloudGame.Lib.Since
import CloudGame.Signal.Forwarding
import CloudGame.Signal.FreshCodes

/-!
# What a host is told of its join code

`register_host` and the `controllerReady` that tells the host of its code are two operations of one
handler, with those of all other tasks in between.  `TellInv` says that they never come apart: the
code under which the directory knows a host is the one it was told last, or its own handler is about
to tell it, as long as the server still has its queue (`host_told_code`).
-/

namespace CloudGame.Signal

open CloudGame.Lib

/-! ## The code of a host -/

/-- The directory leads from the code to the host. -/
def ControllerState.HasCode (s : ControllerState) (h k : String) : Prop :=
  ∃ registration, s.codeToHost.lookup k = some registration ∧ registration.hostClientId = h

theorem ControllerState.Linked.hasCode_unique {s : ControllerState} (hl : s.Linked)
    {h k k' : String} (hk : s.HasCode h k) (hk' : s.HasCode h k') : k = k' := by
  obtain ⟨registration, hlook, rfl⟩ := hk
  obtain ⟨registration', hlook', hhost⟩ := hk'
  have hcode := hl.code k registration hlook
  rw [← hhost, hl.code k' registration' hlook'] at hcode
  exact (Option.some.inj hcode).symm

/-- The code is the name of a seed. -/
def IsJoinCode (code : String) : Prop := ∃ seed, code = encodeJoinCode seed

theorem IsJoinCode.ne_empty {code : String} (h : IsJoinCode code) : code ≠ "" := by
  obtain ⟨seed, rfl⟩ := h
  intro hempty
  have hlength := length_encodeJoinCode seed
  rw [hempty] at hlength
  cases hlength

theorem probeCode_isJoinCode {taken : String → Bool} {code : String} :
    ∀ (fuel : Nat) (seed : UInt64), probeCode taken fuel seed = some code → IsJoinCode code := by
  intro fuel
  induction fuel with
  | zero =>
    intro seed h
    cases h
  | succ fuel ih =>
    intro seed h
    unfold probeCode at h
    split at h
    · exact ih _ h
    · exact ⟨seed, (Option.some.inj h).symm⟩

namespace ControllerState

theorem nextAvailableCode_isJoinCode {s : ControllerState} {seeds : Nat → UInt64} {code : String}
    (h : s.nextAvailableCode seeds = some code) : IsJoinCode code := by
  unfold nextAvailableCode at h
  dsimp only at h
  split at h
  · next i _ => exact ⟨seeds i, (Option.some.inj h).symm⟩
  · exact probeCode_isJoinCode _ _ h

/-- A host is given the code it has, or the name of a seed. -/
theorem registerHost_isJoinCode {s s' : ControllerState} {h w code : String} {now later : Nat}
    {seeds : Nat → UInt64} (hl : Linked s)
    (hr : s.registerHost h w now later seeds = some (code, s')) :
    s.HasCode h code ∨ IsJoinCode code := by
  unfold registerHost at hr
  dsimp only at hr
  split at hr
  · unfold issueCode at hr
    split at hr
    · cases hr
    · next c hc =>
      cases hr
      exact Or.inr (nextAvailableCode_isJoinCode hc)
  · next k hk =>
    obtain ⟨r, hlook, hhost⟩ := (pruneExpired_linked hl now).host h k hk
    rw [hlook] at hr
    cases hr
    rw [pruneExpired_codeToHost hl, Option.filter_eq_some_iff] at hlook
    exact Or.inl ⟨r, hlook.1, hhost⟩

end ControllerState

section Perform

variable {cfg : Config} {choice : Choice} {sh sh' : Shared} {id k : String}

/-- A registration of the host gives it this code and no other. -/
theorem hasCode_registered (hl : sh.controllers.Linked) {w code : String}
    (h : Shared.perform cfg choice sh (.registerHost id w) = some (code, sh'))
    (hcode : sh'.controllers.HasCode id k) : k = code := by
  obtain ⟨⟨code', controllers⟩, hr, he⟩ := Option.map_eq_some_iff.mp h
  cases he
  have hregistered := ControllerState.registerHost_registered hl hr
  have hlook : controllers.codeToHost.lookup code' =
      some ⟨id, w, choice.later + joinCodeTtl⟩ := by rw [hregistered.codes, if_pos rfl]
  exact hregistered.linked.hasCode_unique hcode ⟨_, hlook, rfl⟩

/-- No other operation gives it a code. -/
theorem hasCode_kept (hl : sh.controllers.Linked) {i : Op} {r : i.Reply}
    (h : Shared.perform cfg choice sh i = some (r, sh')) (hother : ∀ w, i ≠ .registerHost id w)
    (hcode : sh'.controllers.HasCode id k) : sh.controllers.HasCode id k := by
  obtain ⟨registration, hlook, hhost⟩ := hcode
  have hfilter : ∀ p : HostRegistration → Bool,
      (sh.controllers.codeToHost.lookup k).filter p = some registration →
        sh.controllers.HasCode id k :=
    fun p hp => ⟨registration, (Option.filter_eq_some_iff.mp hp).1, hhost⟩
  cases i with
  | registerHost host w =>
    obtain ⟨⟨code', controllers⟩, hr, he⟩ := Option.map_eq_some_iff.mp h
    cases he
    replace hlook : controllers.codeToHost.lookup k = some registration := hlook
    rw [(ControllerState.registerHost_registered hl hr).codes] at hlook
    split at hlook
    · cases hlook
      subst hhost
      exact absurd rfl (hother w)
    · exact hfilter _ hlook
  | join c code =>
    cases h
    cases hjoin : sh.controllers.join cfg.caseMap c code choice.now with
    | mk result controllers =>
      replace hlook : (sh.controllers.join cfg.caseMap c code choice.now).2.codeToHost.lookup k =
        some registration := hlook
      rw [hjoin] at hlook
      cases result with
      | ok target =>
        rw [(ControllerState.join_ok hl hjoin).2.2.1] at hlook
        exact hfilter _ hlook
      | error e =>
        exact ⟨registration, (ControllerState.join_error hl hjoin).2.2 k registration hlook, hhost⟩
  | cleanupPeer x =>
    cases h
    replace hlook : (sh.controllers.cleanupPeer x).2.codeToHost.lookup k = some registration :=
      hlook
    cases hx : sh.controllers.controllerToHost.lookup x with
    | none =>
      rw [(ControllerState.cleanupPeer_unrouted hl hx).2.1] at hlook
      exact hfilter _ hlook
    | some route =>
      rw [ControllerState.cleanupPeer_routed hx] at hlook
      exact ⟨registration, hlook, hhost⟩
  | _ =>
    rw [perform_controllers h rfl] at hlook
    exact ⟨registration, hlook, hhost⟩

/-- A queue that the registry still has, it had before. -/
theorem client_kept {i : Op} {r : i.Reply} (h : Shared.perform cfg choice sh i = some (r, sh'))
    (hother : ∀ tx, i ≠ .registerClient id tx)
    (hclient : sh'.registry.clientSender id ≠ none) : sh.registry.clientSender id ≠ none := by
  intro hnone
  apply hclient
  show sh'.registry.clients.lookup id = none
  rw [perform_client h, show sh.registry.clients.lookup id = none from hnone]
  cases i with
  | registerClient c tx =>
    refine if_neg ?_
    rintro rfl
    exact hother tx rfl
  | unregisterClient c => exact ite_self _
  | unregisterWorker w => exact ite_self _
  | _ => rfl

end Perform

/-! ## Telling -/

/-- A `controllerReady`, whatever it says. -/
def OutboundEvent.IsReady : OutboundEvent → Prop
  | .message msg => msg.id = SignalIds.controllerReady
  | .close => False

def readyEvent (cfg : Config) (code workerId : String) : OutboundEvent :=
  .message (controllerReadyMessage (controllerReadyPayload cfg code workerId))

/-- The code is the one the host was told last. -/
def Told (cfg : Config) (id k : String) (sh : Shared) : Prop :=
  Since (fun event => ∃ w, event = readyEvent cfg k w) (fun event => ¬ event.IsReady)
    (sh.queues id)

/-- The ghost is the code that the host's own handler has got and is to tell. -/
def tellOk (cfg : Config) (id : String) (g : Option String) : Op → Prop
  | .registerHost h _ => h = id
  | .send tx event => event.IsReady → tx = id ∧ ∃ code w, g = some code ∧
      event = readyEvent cfg code w
  | _ => True

def tellAdm : (i : Op) → i.Reply → Prop
  | .clientSender c, r => ∀ tx, r = some tx → tx = c
  | _, _ => True

instance (event : OutboundEvent) : Decidable event.IsReady :=
  match event with
  | .message msg => inferInstanceAs (Decidable (msg.id = SignalIds.controllerReady))
  | .close => inferInstanceAs (Decidable False)

def tellNext (id : String) (g : Option String) : (i : Op) → i.Reply → Option String
  | .registerHost _ _, code => some code
  | .clientSender c, r => if c = id ∧ r = none then none else g
  | .send _ event, _ => if event.IsReady then none else g
  | _, _ => g

theorem tellNext_ready (id : String) (g : Option String) {tx : Tx} {event : OutboundEvent}
    (r : Unit) (h : event.IsReady) : tellNext id g (.send tx event) r = none := by
  show (if event.IsReady then none else g) = none
  exact if_pos h

def tellGhost (cfg : Config) (id : String) : Prog.Ghost Op Op.Reply (Option String) where
  ok := tellOk cfg id
  adm _ := tellAdm
  next := tellNext id

/-- The code that an operation gives out. -/
def Op.issued : (i : Op) → i.Reply → Option String
  | .registerHost _ _, code => some code
  | _, _ => none

section Programs

variable {cfg : Config} {id : String}

theorem tell_handleControllerHost (w : String) :
    (handleControllerHost cfg id w).Wp (tellGhost cfg id) (fun g _ => g = none) none := by
  refine ⟨trivial, fun isBound _ => ?_⟩
  cases isBound with
  | false => rfl
  | true =>
    refine ⟨rfl, fun code _ => ⟨trivial, fun sender hsender => ?_⟩⟩
    cases sender with
    | none => exact if_pos ⟨rfl, rfl⟩
    | some tx =>
      obtain rfl : tx = id := hsender tx rfl
      refine ⟨fun _ => ⟨rfl, code, w, if_neg (by simp), rfl⟩, fun r _ => ?_⟩
      show (if (readyEvent cfg code w).IsReady then none else some code) = none
      exact if_pos rfl

/-- The programs that register no host tell none. -/
theorem IsSpawned.tell {peer : Peer} (h : IsSpawned cfg id peer) :
    peer.prog.Wp (tellGhost cfg id) (fun g _ => g = none) none := by
  by_cases hhost : ∃ w, peer.handling = some (.controllerHost w)
  · obtain ⟨w, hcmd⟩ := hhost
    rw [h.handler hcmd]
    exact tell_handleControllerHost w
  · have hquiet : peer.prog.All fun i => (∀ host w, i ≠ .registerHost host w) ∧
        ∀ tx event, i = .send tx event → ¬ event.IsReady := by
      refine (h.headed.all.and h.forwards).mono fun i hi => ⟨?_, ?_⟩
      · rintro host w rfl
        exact hhost ⟨w, hi.1.2.2.2⟩
      · rintro tx event rfl hready
        cases event with
        | close => exact hready
        | message msg => exact hhost (hi.2.ready hready)
    refine hquiet.wp_same ?_ ?_ fun _ => rfl
    · intro i hi
      cases i with
      | registerHost host w => exact absurd rfl (hi.1 host w)
      | send tx event => exact fun hready => absurd hready (hi.2 tx event rfl)
      | _ => trivial
    · intro i r hi
      cases i with
      | registerHost host w => exact absurd rfl (hi.1 host w)
      | send tx event => exact if_neg (hi.2 tx event rfl)
      | clientSender c => exact ite_self _
      | _ => rfl

end Programs

/-! ## The invariant -/

/-- What the host was told last, or its handler is about to tell it, is its code. -/
def Heard (cfg : Config) (id k : String) (sh : Shared) : Option String → Prop
  | some code => code = k
  | none => Told cfg id k sh

structure TellInv (cfg : Config) (s : Server) : Prop where
  /-- A host has been connected, and is not to be registered any more. -/
  hosts : ∀ id k, s.shared.controllers.HasCode id k → IsJoinCode k ∧
    ∃ peer, s.peers id = some peer ∧ peer.prog.All fun i => i.isRegistration = false
  tasks : ∀ id peer, s.peers id = some peer → ∃ g, peer.prog.Wp (tellGhost cfg id)
      (fun g _ => g = none) g ∧
    ∀ k, s.shared.controllers.HasCode id k → s.shared.registry.clientSender id ≠ none →
      Heard cfg id k s.shared g

section Steps

variable {cfg : Config} {s s' : Server} {a : ServerAction} {choice : Choice} {sh : Shared} {i : Op}
  {r : i.Reply} {id k : String}

theorem Told.perform (htold : Told cfg id k s.shared)
    (hperform : Shared.perform cfg choice s.shared i = some (r, sh))
    (hquiet : ∀ event, i = .send id event → ¬ event.IsReady) : Told cfg id k sh := by
  unfold Told
  rw [perform_queues hperform, since_append]
  refine Or.inr ⟨fun event hevent => ?_, htold⟩
  cases i with
  | send tx event' =>
    simp only [Op.placed] at hevent
    split at hevent
    · next htx =>
      cases List.mem_singleton.mp hevent
      exact hquiet event (by rw [htx])
    · cases hevent
  | _ => cases hevent

theorem Heard.perform {g : Option String} (hheard : Heard cfg id k s.shared g)
    (hperform : Shared.perform cfg choice s.shared i = some (r, sh))
    (hquiet : ∀ event, i = .send id event → ¬ event.IsReady) : Heard cfg id k sh g := by
  cases g with
  | none => exact Told.perform hheard hperform hquiet
  | some code => exact hheard

/-- A task that was there before starts at its end a program that registers nobody. -/
theorem Spawns.again {peer old : Peer} {log : List ServerEvent} (hsp : Spawns cfg s a id peer log)
    (hold : s.peers id = some old) :
    old.prog = .ret () ∧ peer.prog.All fun i => i.isRegistration = false := by
  cases hsp with
  | connect role hnew =>
    rw [hold] at hnew
    cases hnew
  | receive old' req hpeer hopen hidle =>
    cases hold.symm.trans hpeer
    exact ⟨hidle, notRegistration_messageProg cfg _ id req⟩
  | disconnect old' hpeer hopen hidle =>
    cases hold.symm.trans hpeer
    exact ⟨hidle, notRegistration_cleanupProg _ id⟩

theorem tellInv_spawn {peer : Peer} {log : List ServerEvent} (hi : TellInv cfg s)
    (hsp : Spawns cfg s a id peer log) : TellInv cfg { s.setPeer id peer with log := log } := by
  refine ⟨fun host k hcode => ?_, fun host peer' hp => ?_⟩
  · obtain ⟨hne, old, hold, hall⟩ := hi.hosts host k hcode
    refine ⟨hne, ?_⟩
    rw [peers_setPeer]
    split
    · next he =>
      subst he
      exact ⟨peer, rfl, (hsp.again hold).2⟩
    · exact ⟨old, hold, hall⟩
  · rw [peers_setPeer] at hp
    split at hp
    · next he =>
      cases hp
      subst he
      refine ⟨none, hsp.isSpawned.tell, fun k hcode hclient => ?_⟩
      obtain ⟨-, old, hold, -⟩ := hi.hosts host k hcode
      obtain ⟨g, hwp, hheard⟩ := hi.tasks host old hold
      rw [(hsp.again hold).1] at hwp
      obtain rfl : g = none := hwp
      exact hheard k hcode hclient
    · exact hi.tasks host peer' hp

section Advance

variable {peer : Peer} {next : i.Reply → ServerM Unit}

/-- Who has a code after the operation: its host had it before, or was given it just now. -/
theorem hasCode_advance (hl : s.shared.controllers.Linked)
    (hown : i.OwnedBy peer.role id peer.isOpen peer.handling)
    (hperform : Shared.perform cfg choice s.shared i = some (r, sh)) {host : String}
    (hcode : sh.controllers.HasCode host k) :
    (s.shared.controllers.HasCode host k ∧ ∀ w, i ≠ .registerHost host w) ∨
      host = id ∧ i.issued r = some k := by
  by_cases hreg : ∃ w, i = .registerHost host w
  · obtain ⟨w, rfl⟩ := hreg
    obtain rfl : host = id := hown.2.2.1
    exact Or.inr ⟨rfl, congrArg some (hasCode_registered hl hperform hcode).symm⟩
  · have hother : ∀ w, i ≠ .registerHost host w := fun w heq => hreg ⟨w, heq⟩
    exact Or.inl ⟨hasCode_kept hl hperform hother hcode, hother⟩

theorem issued_isJoinCode (hi : TellInv cfg s) (hl : s.shared.controllers.Linked)
    (hperform : Shared.perform cfg choice s.shared i = some (r, sh))
    (hissued : i.issued r = some k) : IsJoinCode k := by
  cases i with
  | registerHost host w =>
    cases hissued
    obtain ⟨⟨code, controllers⟩, hr, he⟩ := Option.map_eq_some_iff.mp hperform
    cases he
    rcases ControllerState.registerHost_isJoinCode hl hr with hcode | hcode
    · exact (hi.hosts host _ hcode).1
    · exact hcode
  | _ => cases hissued

theorem adm_perform (hq : OwnQueues s)
    (hperform : Shared.perform cfg choice s.shared i = some (r, sh)) : tellAdm i r := by
  cases i with
  | clientSender c =>
    cases hperform
    exact fun tx htx => hq.clients c tx htx
  | _ => trivial

/-- What the task's own operation does with what it is to tell. -/
theorem Heard.own {g : Option String} (hheard : Heard cfg id k s.shared g)
    (hown : i.OwnedBy peer.role id peer.isOpen peer.handling)
    (hok : tellOk cfg id g i) (hother : ∀ w, i ≠ .registerHost id w)
    (hclient : s.shared.registry.clientSender id ≠ none)
    (hperform : Shared.perform cfg choice s.shared i = some (r, sh)) :
    Heard cfg id k sh (tellNext id g i r) := by
  cases i with
  | registerHost host w => exact absurd (congrArg₂ Op.registerHost hown.2.2.1 rfl) (hother w)
  | clientSender c =>
    have hsame : tellNext id g (.clientSender c) r = g := by
      refine if_neg ?_
      rintro ⟨rfl, hnone⟩
      cases hperform
      exact hclient hnone
    rw [hsame]
    exact hheard.perform hperform nofun
  | send tx event =>
    by_cases hready : event.IsReady
    · obtain ⟨rfl, code, w, rfl, rfl⟩ := hok hready
      obtain rfl : code = k := hheard
      rw [tellNext_ready tx (some code) r hready]
      show Told cfg tx code sh
      unfold Told
      rw [perform_queues hperform, since_append]
      have hplaced : (Op.send tx (readyEvent cfg code w)).placed tx = [readyEvent cfg code w] :=
        if_pos rfl
      rw [hplaced]
      exact Or.inl (since_cons.mpr (Or.inl ⟨w, rfl⟩))
    · rw [show tellNext id g (.send tx event) r = g from if_neg hready]
      refine hheard.perform hperform ?_
      rintro event' heq
      cases heq
      exact hready
  | _ => exact hheard.perform hperform nofun

theorem tellInv_performed (hi : TellInv cfg s) (ht : TaskInv cfg s) (hq : OwnQueues s)
    (hm : MetInv cfg s) (hl : s.shared.controllers.Linked) (hpeer : s.peers id = some peer)
    (hprog : peer.prog = .op i next)
    (hperform : Shared.perform cfg choice s.shared i = some (r, sh)) :
    TellInv cfg (s.performed id peer choice i next r sh) := by
  have hown := ht.owned hpeer hprog
  obtain ⟨g, hwp, hheard⟩ := hi.tasks id peer hpeer
  rw [hprog] at hwp
  refine ⟨fun host k hcode => ?_, fun host peer' hp => ?_⟩
  · rcases hasCode_advance hl hown hperform hcode with ⟨hbefore, -⟩ | ⟨rfl, hissued⟩
    · obtain ⟨hne, old, hold, hall⟩ := hi.hosts host k hbefore
      refine ⟨hne, ?_⟩
      rw [peers_performed]
      split
      · exact ⟨_, rfl, hm.rest hpeer hprog r⟩
      · exact ⟨old, hold, hall⟩
    · refine ⟨issued_isJoinCode hi hl hperform hissued, { peer with prog := next r }, ?_,
        hm.rest hpeer hprog r⟩
      rw [peers_performed, if_pos rfl]
  · rw [peers_performed] at hp
    split at hp
    · next he =>
      cases hp
      subst he
      refine ⟨tellNext host g i r, hwp.2 r (adm_perform hq hperform), fun k hcode hclient => ?_⟩
      rcases hasCode_advance hl hown hperform hcode with ⟨hbefore, hother⟩ | ⟨-, hissued⟩
      · have hfirst : ∀ tx, i ≠ .registerClient host tx := by
          rintro tx rfl
          obtain ⟨-, old, hold, hall⟩ := hi.hosts host k hbefore
          cases hold.symm.trans hpeer
          rw [hprog] at hall
          cases hall.1
        have hclient' := client_kept hperform hfirst hclient
        have hafter : Heard cfg host k sh (tellNext host g i r) :=
          (hheard k hbefore hclient').own hown hwp.1 hother hclient' hperform
        exact hafter
      · cases i with
        | registerHost host' w => exact Option.some.inj hissued
        | _ => cases hissued
    · next hne =>
      obtain ⟨g', hwp', hheard'⟩ := hi.tasks host peer' hp
      refine ⟨g', hwp', fun k hcode hclient => ?_⟩
      rcases hasCode_advance hl hown hperform hcode with ⟨hbefore, -⟩ | ⟨he, -⟩
      · have hfirst : ∀ tx, i ≠ .registerClient host tx := by
          rintro tx rfl
          exact hne hown.2.2.1
        have hquiet : ∀ event, i = .send host event → ¬ event.IsReady := by
          rintro event rfl hready
          exact hne (hwp.1 hready).1
        have hafter : Heard cfg host k sh g' :=
          (hheard' k hbefore (client_kept hperform hfirst hclient)).perform hperform hquiet
        exact hafter
      · exact absurd he hne

end Advance

theorem tellInv_step (hi : TellInv cfg s) (ht : TaskInv cfg s) (hq : OwnQueues s)
    (hm : MetInv cfg s) (hl : s.shared.controllers.Linked) (h : StepTo cfg s a s') :
    TellInv cfg s' := by
  cases h with
  | spawn id peer log hsp => exact tellInv_spawn hi hsp
  | advance id peer choice i next r sh hpeer hprog hnow hperform =>
    exact tellInv_performed hi ht hq hm hl hpeer hprog hperform
  | rehash registry controllers hr hc =>
    have hcodes : ∀ host k, controllers.HasCode host k → s.shared.controllers.HasCode host k := by
      rintro host k ⟨registration, hlook, hhost⟩
      exact ⟨registration, hc.1.lookup k ▸ hlook, hhost⟩
    refine ⟨fun host k hcode => hi.hosts host k (hcodes host k hcode), fun host peer hp => ?_⟩
    obtain ⟨g, hwp, hheard⟩ := hi.tasks host peer hp
    refine ⟨g, hwp, fun k hcode hclient => hheard k (hcodes host k hcode) ?_⟩
    show s.shared.registry.clients.lookup host ≠ none
    rw [← hr.clients.lookup]
    exact hclient

end Steps

/-! ## Every run -/

theorem tellInv_run {cfg : Config} {as : List ServerAction} {s : Server}
    (h : Run (Server.step cfg) Server.init as s) : TellInv cfg s := by
  refine h.relative (I := TellInv cfg) ⟨?_, ?_⟩ fun as s a s' hr hi _ hs => ?_
  · rintro host k ⟨registration, hlook, -⟩
    cases hlook
  · intro host peer hp
    cases hp
  · exact tellInv_step hi (taskInv_run hr) (ownQueues_run hr) (metInv_run hr) (linked_run hr)
      (step_cases hs)

/-- While the task of a host is idle and the server has its queue, the host was told its code
last. -/
theorem host_told_code {cfg : Config} {as : List ServerAction} {s : Server}
    (h : Run (Server.step cfg) Server.init as s) {id k : String} {peer : Peer}
    (hpeer : s.peers id = some peer) (hidle : peer.prog = .ret ())
    (hclient : s.shared.registry.clientSender id ≠ none)
    (hcode : s.shared.controllers.HasCode id k) : IsJoinCode k ∧ Told cfg id k s.shared := by
  have hi := tellInv_run h
  obtain ⟨g, hwp, hheard⟩ := hi.tasks id peer hpeer
  rw [hidle] at hwp
  obtain rfl : g = none := hwp
  exact ⟨(hi.hosts id k hcode).1, hheard k hcode hclient⟩

end CloudGame.Signal
