import Kalatori.System

/-!
# What a step of the daemon does

`Outcome` lists the steps with the states they lead to, written out: one case
for each way in which a channel, an answer or a task changes.  Every step is one
of them (`SysStep.outcome`), so what is said of a step elsewhere is said by
going through this list.

* `Sys.Quiet`, `Sys.QuietTracker`: the steps that concern one task only.
* `SysStep.outcome`: a step is in the list.
-/

namespace Kalatori

open Program Transition

variable {lib : Libraries} {d : Deployment lib}

namespace Sys

/-- A step of the handler for which nothing else happens. -/
def Quiet (d : Deployment lib) (s : Sys lib) : HandlerEvent → Prop
  | .said ⟨.chainManager, taken⟩ => taken = true
  | .said ⟨.publicKey id ss58, .ok address⟩ => address = lib.toBase58String (d.account id) ss58
  | .said ⟨.publicKey _ _, .error _⟩ | .said ⟨.db _, _⟩ | .said ⟨.reap _ _, _⟩
  | .said ⟨.reply _, _⟩ | .said ⟨.signerShutdown, _⟩ | .settled => True
  | .said ⟨.send _, taken⟩ => taken = false ∧ s.manager = .ended
  | .said ⟨.awaitShutdown, _⟩ => s.manager = .ended
  | .notified => s.cancelled = true ∧ s.state_queue = []
  | .said ⟨.spawnRestore _, _⟩ | .said ⟨.await, _⟩ | .said ⟨.awaitRefused, _⟩
  | .said ⟨.dbShutdown, _⟩ | .received _ | .closed => False

/-- A step of a tracker for which nothing else happens. -/
def QuietTracker (s : Sys lib) (index : ℕ) : TrackerEvent lib → Prop
  | .said ⟨.send _, taken⟩ => taken = false ∧ s.store.handler.hasEnded = true
  | .said _ | .settled _ => True
  | .stopped cancelled => cancelled = true → s.cancelled = true
  | .turned => s.cancelled = false
  | .timedOut => s.tracker_queue index = []
  | .received (.newBlock _) | .received .shutdown | .received (.watchAccount _)
  | .received (.reap _) => False

end Sys

/-- **Every way a step of the daemon can go.** -/
inductive Outcome (d : Deployment lib) (s : Sys lib) : SysEvent lib → Sys lib → Prop
  /- From outside. -/
  | requested (request : StateAccessRequest) (hreq : request.fromHttp = true)
      (halive : s.store.handler.hasEnded = false) (hroom : s.state_queue.length < capacity) :
      Outcome d s (.outside (.requested request))
        { s with state_queue := s.state_queue ++ [request] }
  | blockSeen (index : ℕ) (number : String) (halive : (s.trackers index).hasEnded = false)
      (hroom : (s.tracker_queue index).length < capacity) :
      Outcome d s (.outside (.blockSeen index number))
        { s with
          tracker_queue := Function.update s.tracker_queue index
            (s.tracker_queue index ++ [.newBlock number]) }
  | cancelled : Outcome d s (.outside .cancelled) { s with cancelled := true }
  | databaseStopped (hend : s.store.handler.hasEnded = true) :
      Outcome d s (.outside .databaseStopped) { s with database := false }
  | payoutBegun (request : WatchAccount) (hmem : request ∈ s.payouts) :
      Outcome d s (.outside (.payoutBegun request))
        ({ s with payouts := s.payouts.erase request }.answer request.res (.ok ()))
  | droppedTracker (index : ℕ) (request : ChainTrackerRequest) (rest : List ChainTrackerRequest)
      (hend : (s.trackers index).hasEnded = true)
      (hqueue : s.tracker_queue index = request :: rest) :
      Outcome d s (.outside (.dropped index))
        ({ s with tracker_queue := Function.update s.tracker_queue index rest }.drop request)
  /- The state handler. -/
  | handler (e : HandlerEvent) {x : DaemonTurn} {store' : HandlerStore}
      (hs : DaemonStep lib d.account_lifetime s.store x store') (he : x.event = .handler e)
      (hquiet : s.Quiet d e) : Outcome d s (.daemon x) { s with store := store' }
  | spawned (order_list : List (String × OrderInfo)) {x : DaemonTurn} {store' : HandlerStore}
      (hs : DaemonStep lib d.account_lifetime s.store x store')
      (he : x.event = .handler (.said ⟨.spawnRestore order_list, ()⟩)) :
      Outcome d s (.daemon x)
        { s with
          store := store'
          restore := some ([], Kalatori.restore lib d.recipient order_list) }
  | handlerSent (request : ChainRequest) {x : DaemonTurn} {store' : HandlerStore}
      (hs : DaemonStep lib d.account_lifetime s.store x store')
      (he : x.event = .handler (.said ⟨.send request, true⟩)) (halive : s.manager ≠ .ended)
      (hroom : s.manager_queue.length < capacity) :
      Outcome d s (.daemon x)
        { s with store := store', manager_queue := s.manager_queue ++ [request] }
  | handlerAnswered (result : Except ChainError Unit) {x : DaemonTurn} {store' : HandlerStore}
      (hs : DaemonStep lib d.account_lifetime s.store x store')
      (he : x.event = .handler (.said ⟨.await, result⟩))
      (hreply : s.replies .stateHandler = some result) :
      Outcome d s (.daemon x)
        { s with store := store', replies := Function.update s.replies .stateHandler none }
  | databaseShutDown {x : DaemonTurn} {store' : HandlerStore}
      (hs : DaemonStep lib d.account_lifetime s.store x store')
      (he : x.event = .handler (.said ⟨.dbShutdown, ()⟩)) :
      Outcome d s (.daemon x) { s with store := store', database := false }
  | received (request : StateAccessRequest) (rest : List StateAccessRequest) {x : DaemonTurn}
      {store' : HandlerStore} (hs : DaemonStep lib d.account_lifetime s.store x store')
      (he : x.event = .handler (.received request)) (hqueue : s.state_queue = request :: rest) :
      Outcome d s (.daemon x) { s with store := store', state_queue := rest }
  | restarted :
      Outcome d s (.daemon ⟨s.store.orders, .restarted, s.store.orders⟩) (.start d s.store.orders)
  /- The task that restores the orders. -/
  | restoreSent (request : ChainRequest) (taken : Bool) {said : Trace RestoreSig}
      {k : Bool → Prog RestoreSig Unit} (hp : s.restore = some (said, .call (.send request) k))
      (hroom : taken = true → s.manager ≠ .ended ∧ s.manager_queue.length < capacity)
      (hend : taken = false → s.manager = .ended) :
      Outcome d s (.restore ⟨.send request, taken⟩)
        { s with
          restore := some (said ++ [⟨.send request, taken⟩], k taken)
          manager_queue := if taken then s.manager_queue ++ [request] else s.manager_queue }
  | restoreAnswered (result : Except ChainError Unit) {said : Trace RestoreSig}
      {k : Except ChainError Unit → Prog RestoreSig Unit}
      (hp : s.restore = some (said, .call .await k)) (hreply : s.replies .restore = some result) :
      Outcome d s (.restore ⟨.await, result⟩)
        { s with
          restore := some (said ++ [⟨.await, result⟩], k result)
          replies := Function.update s.replies .restore none }
  /- The chain manager. -/
  | refused (request : ChainRequest) (rest : List ChainRequest) (account : WatchAccount)
      (forward : ChainTrackerRequest) (e : ChainError) (hpc : s.manager = .serve)
      (hqueue : s.manager_queue = request :: rest)
      (hreq : request.forTracker = some (account, forward))
      (hroute : d.routes.route account.currency = .error e) :
      Outcome d s (.manager .received)
        ({ s with manager_queue := rest }.answer account.res (.error e))
  | routed (request : ChainRequest) (rest : List ChainRequest) (account : WatchAccount)
      (forward : ChainTrackerRequest) (index : ℕ) (hpc : s.manager = .serve)
      (hqueue : s.manager_queue = request :: rest)
      (hreq : request.forTracker = some (account, forward))
      (hroute : d.routes.route account.currency = .ok index) :
      Outcome d s (.manager .received)
        { s with manager_queue := rest, manager := .forward index forward }
  | winding (watch_chain : List (Σ _ : String, ℕ)) (rest : List ChainRequest)
      (hpc : s.manager = .serve) (hqueue : s.manager_queue = .shutdown :: rest)
      (hperm : watch_chain.Perm d.routes.watch_chain.entries) :
      Outcome d s (.manager (.winding watch_chain))
        { s with manager_queue := rest, manager := .drain watch_chain }
  | forwarded (index : ℕ) (request : ChainTrackerRequest) (hpc : s.manager = .forward index request)
      (halive : (s.trackers index).hasEnded = false)
      (hroom : (s.tracker_queue index).length < capacity) :
      Outcome d s (.manager .forwarded)
        { s with
          manager := .serve
          tracker_queue := Function.update s.tracker_queue index
            (s.tracker_queue index ++ [request]) }
  | lost (index : ℕ) (request : ChainTrackerRequest) (hpc : s.manager = .forward index request)
      (hend : (s.trackers index).hasEnded = true) :
      Outcome d s (.manager .forwarded) ({ s with manager := .serve }.drop request)
  | asked (name : String) (index : ℕ) (rest : List (Σ _ : String, ℕ))
      (hpc : s.manager = .drain (⟨name, index⟩ :: rest))
      (halive : (s.trackers index).hasEnded = false)
      (hroom : (s.tracker_queue index).length < capacity) :
      Outcome d s (.manager .asked)
        { s with
          manager := .wait rest
          tracker_queue := Function.update s.tracker_queue index
            (s.tracker_queue index ++ [.shutdown]) }
  | skipped (name : String) (index : ℕ) (rest : List (Σ _ : String, ℕ))
      (hpc : s.manager = .drain (⟨name, index⟩ :: rest))
      (hend : (s.trackers index).hasEnded = true) :
      Outcome d s (.manager .asked) { s with manager := .drain rest }
  | waited (rest : List (Σ _ : String, ℕ)) (hpc : s.manager = .wait rest) :
      Outcome d s (.manager .waited) { s with manager := .drain rest }
  | finished (hpc : s.manager = .drain []) :
      Outcome d s (.manager .finished) { s with manager := .ended }
  | closed (hpc : s.manager = .serve) (hqueue : s.manager_queue = [])
      (hend : s.store.handler.hasEnded = true) (hrestored : s.restored = true) :
      Outcome d s (.manager .closed) { s with manager := .ended }
  | dropped (account : WatchAccount) (request : ChainRequest) (forward : ChainTrackerRequest)
      (rest : List ChainRequest) (hpc : s.manager = .ended)
      (hqueue : s.manager_queue = request :: rest)
      (hreq : request.forTracker = some (account, forward)) :
      Outcome d s (.manager .dropped)
        ({ s with manager_queue := rest }.answer account.res (.error .messageDropped))
  | droppedShutdown (rest : List ChainRequest) (hpc : s.manager = .ended)
      (hqueue : s.manager_queue = .shutdown :: rest) :
      Outcome d s (.manager .dropped) { s with manager_queue := rest }
  /- A tracker. -/
  | tracker (index : ℕ) {chain : Chain} {x : Turn lib} {t' : Tracker lib}
      (hc : d.chain[index]? = some chain) (hs : TurnStep chain (s.trackers index) x t')
      (hquiet : s.QuietTracker index x.event) :
      Outcome d s (.tracker index x) { s with trackers := Function.update s.trackers index t' }
  | told (index : ℕ) (message : StateAccessRequest) {chain : Chain} {x : Turn lib}
      {t' : Tracker lib} (hc : d.chain[index]? = some chain)
      (hs : TurnStep chain (s.trackers index) x t') (he : x.event = .said ⟨.send message, true⟩)
      (halive : s.store.handler.hasEnded = false) (hroom : s.state_queue.length < capacity) :
      Outcome d s (.tracker index x)
        { s with
          trackers := Function.update s.trackers index t'
          state_queue := s.state_queue ++ [message] }
  | took (index : ℕ) (request : ChainTrackerRequest) (rest : List ChainTrackerRequest)
      {chain : Chain} {x : Turn lib} {t' : Tracker lib} (hc : d.chain[index]? = some chain)
      (hs : TurnStep chain (s.trackers index) x t') (he : x.event = .received request)
      (hqueue : s.tracker_queue index = request :: rest) :
      Outcome d s (.tracker index x)
        ({ s with
          trackers := Function.update s.trackers index t'
          tracker_queue := Function.update s.tracker_queue index rest }.accept request)

/-! ## What an answer leaves alone -/

namespace Sys

section Frames

variable (s : Sys lib) (request : ChainTrackerRequest)

@[simp] theorem drop_store : (s.drop request).store = s.store := by cases request <;> rfl
@[simp] theorem drop_database : (s.drop request).database = s.database := by cases request <;> rfl
@[simp] theorem drop_cancelled : (s.drop request).cancelled = s.cancelled := by
  cases request <;> rfl
@[simp] theorem drop_state_queue : (s.drop request).state_queue = s.state_queue := by
  cases request <;> rfl
@[simp] theorem drop_restore : (s.drop request).restore = s.restore := by cases request <;> rfl
@[simp] theorem drop_manager : (s.drop request).manager = s.manager := by cases request <;> rfl
@[simp] theorem drop_manager_queue : (s.drop request).manager_queue = s.manager_queue := by
  cases request <;> rfl
@[simp] theorem drop_trackers : (s.drop request).trackers = s.trackers := by cases request <;> rfl
@[simp] theorem drop_tracker_queue : (s.drop request).tracker_queue = s.tracker_queue := by
  cases request <;> rfl
@[simp] theorem drop_payouts : (s.drop request).payouts = s.payouts := by cases request <;> rfl

@[simp] theorem accept_store : (s.accept request).store = s.store := by cases request <;> rfl
@[simp] theorem accept_database : (s.accept request).database = s.database := by
  cases request <;> rfl
@[simp] theorem accept_cancelled : (s.accept request).cancelled = s.cancelled := by
  cases request <;> rfl
@[simp] theorem accept_state_queue : (s.accept request).state_queue = s.state_queue := by
  cases request <;> rfl
@[simp] theorem accept_restore : (s.accept request).restore = s.restore := by cases request <;> rfl
@[simp] theorem accept_manager : (s.accept request).manager = s.manager := by cases request <;> rfl
@[simp] theorem accept_manager_queue : (s.accept request).manager_queue = s.manager_queue := by
  cases request <;> rfl
@[simp] theorem accept_trackers : (s.accept request).trackers = s.trackers := by
  cases request <;> rfl
@[simp] theorem accept_tracker_queue : (s.accept request).tracker_queue = s.tracker_queue := by
  cases request <;> rfl

end Frames

/-! ## Every step is one of them -/

variable {s s' : Sys lib}

theorem hasEnded_manager {pc : ManagerPc} : pc.hasEnded = true ↔ pc = .ended := by
  cases pc <;> simp [ManagerPc.hasEnded]

theorem tellState_eq_some {message : StateAccessRequest} {taken : Bool}
    (h : s.tellState message taken = some s') :
    (s.store.handler.hasEnded = true ∧ taken = false ∧ s' = s) ∨
      (s.store.handler.hasEnded = false ∧ taken = true ∧ s.state_queue.length < capacity ∧
        s' = { s with state_queue := s.state_queue ++ [message] }) := by
  unfold tellState at h
  split_ifs at h with hend htaken hroom
  · simpa [hend, htaken, eq_comm] using h
  · rw [Bool.and_eq_true, decide_eq_true_eq] at hroom
    exact .inr ⟨Bool.eq_false_of_not_eq_true hend, hroom.1, hroom.2, (Option.some.inj h).symm⟩

theorem tellManager_eq_some {request : ChainRequest} {taken : Bool}
    (h : s.tellManager request taken = some s') :
    (s.manager = .ended ∧ taken = false ∧ s' = s) ∨
      (s.manager ≠ .ended ∧ taken = true ∧ s.manager_queue.length < capacity ∧
        s' = { s with manager_queue := s.manager_queue ++ [request] }) := by
  unfold tellManager at h
  split_ifs at h with hend htaken hroom
  · exact .inl ⟨hasEnded_manager.mp hend, by simpa using htaken, (Option.some.inj h).symm⟩
  · rw [Bool.and_eq_true, decide_eq_true_eq] at hroom
    exact .inr ⟨fun hpc => hend (hasEnded_manager.mpr hpc), hroom.1, hroom.2,
      (Option.some.inj h).symm⟩

theorem tellTracker_eq_some {index : ℕ} {request : ChainTrackerRequest}
    (h : s.tellTracker index request = some s') :
    (s.tracker_queue index).length < capacity ∧
      s' = { s with
        tracker_queue := Function.update s.tracker_queue index
          (s.tracker_queue index ++ [request]) } := by
  unfold tellTracker at h
  split_ifs at h with hroom
  exact ⟨hroom, (Option.some.inj h).symm⟩

theorem takeReply_eq_some {res : Requester} {result : Except ChainError Unit}
    (h : s.takeReply res result = some s') :
    s.replies res = some result ∧
      s' = { s with replies := Function.update s.replies res none } := by
  unfold takeReply at h
  split_ifs at h with hreply
  exact ⟨hreply, (Option.some.inj h).symm⟩

end Sys

section Outcomes

variable {s s' : Sys lib}

theorem outside_outcome {e : OutsideEvent} (h : s.outside e = some s') :
    Outcome d s (.outside e) s' := by
  cases e with
  | requested request =>
    simp only [Sys.outside] at h
    split_ifs at h with hreq
    rcases Sys.tellState_eq_some h with ⟨-, htaken, -⟩ | ⟨halive, -, hroom, rfl⟩
    · cases htaken
    · exact .requested request hreq halive hroom
  | blockSeen index number =>
    simp only [Sys.outside] at h
    split_ifs at h with hend
    obtain ⟨hroom, rfl⟩ := Sys.tellTracker_eq_some h
    exact .blockSeen index number (Bool.eq_false_of_not_eq_true hend) hroom
  | cancelled =>
    obtain rfl := Option.some.inj h
    exact .cancelled
  | databaseStopped =>
    simp only [Sys.outside] at h
    split_ifs at h with hend
    obtain rfl := Option.some.inj h
    exact .databaseStopped hend
  | payoutBegun request =>
    simp only [Sys.outside] at h
    split_ifs at h with hmem
    obtain rfl := Option.some.inj h
    exact .payoutBegun request hmem
  | dropped index =>
    simp only [Sys.outside] at h
    split at h
    · rename_i request rest hend hqueue
      obtain rfl := Option.some.inj h
      exact .droppedTracker index request rest hend hqueue
    · cases h

theorem attend_outcome {e : HandlerEvent} {x : DaemonTurn} {store' : HandlerStore} {s₁ : Sys lib}
    (hs : DaemonStep lib d.account_lifetime s.store x store') (he : x.event = .handler e)
    (h : s.attend d e = some s₁) : Outcome d s (.daemon x) { s₁ with store := store' } := by
  match e, he, h with
  | .said ⟨.chainManager, taken⟩, he, h =>
    simp only [Sys.attend] at h
    split_ifs at h with htaken
    obtain rfl := Option.some.inj h
    exact .handler _ hs he htaken
  | .said ⟨.spawnRestore order_list, _⟩, he, h =>
    obtain rfl := Option.some.inj h
    exact .spawned order_list hs he
  | .said ⟨.publicKey id ss58, .ok address⟩, he, h =>
    simp only [Sys.attend] at h
    split_ifs at h with haddress
    obtain rfl := Option.some.inj h
    exact .handler _ hs he haddress
  | .said ⟨.publicKey _ _, .error _⟩, he, h | .said ⟨.db _, _⟩, he, h | .said ⟨.reap _ _, _⟩, he, h
  | .said ⟨.reply _, _⟩, he, h | .said ⟨.signerShutdown, _⟩, he, h | .settled, he, h =>
    obtain rfl := Option.some.inj h
    exact .handler _ hs he trivial
  | .said ⟨.send request, taken⟩, he, h =>
    rcases Sys.tellManager_eq_some h with ⟨hend, rfl, rfl⟩ | ⟨halive, rfl, hroom, rfl⟩
    · exact .handler _ hs he ⟨rfl, hend⟩
    · exact .handlerSent request hs he halive hroom
  | .said ⟨.await, result⟩, he, h =>
    obtain ⟨hreply, rfl⟩ := Sys.takeReply_eq_some h
    exact .handlerAnswered result hs he hreply
  | .said ⟨.awaitShutdown, _⟩, he, h =>
    simp only [Sys.attend] at h
    split_ifs at h with hend
    obtain rfl := Option.some.inj h
    exact .handler _ hs he (Sys.hasEnded_manager.mp hend)
  | .said ⟨.dbShutdown, _⟩, he, h =>
    obtain rfl := Option.some.inj h
    exact .databaseShutDown hs he
  | .received request, he, h =>
    simp only [Sys.attend] at h
    split at h
    · cases h
    · rename_i first rest hqueue
      split_ifs at h with hfirst
      obtain rfl := Option.some.inj h
      exact .received request rest hs he (hfirst ▸ hqueue)
  | .closed, _, h => cases h
  | .notified, he, h =>
    simp only [Sys.attend] at h
    split_ifs at h with hcond
    obtain rfl := Option.some.inj h
    rw [Bool.and_eq_true, List.isEmpty_iff] at hcond
    exact .handler _ hs he hcond

theorem assist_outcome {said : Trace RestoreSig} {o : RestoreOp}
    {k : RestoreSig.Answer o → Prog RestoreSig Unit} {answer : RestoreSig.Answer o} {s₁ : Sys lib}
    (hp : s.restore = some (said, .call o k)) (h : s.assist ⟨o, answer⟩ = some s₁) :
    Outcome d s (.restore ⟨o, answer⟩)
      { s₁ with restore := some (said ++ [⟨o, answer⟩], k answer) } := by
  match o, k, answer, hp, h with
  | .send request, k, taken, hp, h =>
    rcases Sys.tellManager_eq_some h with ⟨hend, rfl, rfl⟩ | ⟨halive, rfl, hroom, rfl⟩
    · exact .restoreSent request false hp nofun fun _ => hend
    · exact .restoreSent request true hp (fun _ => ⟨halive, hroom⟩) nofun
  | .await, k, result, hp, h =>
    obtain ⟨hreply, rfl⟩ := Sys.takeReply_eq_some h
    exact .restoreAnswered result hp hreply

theorem manage_outcome {e : ManagerEvent} (h : s.manage d e = some s') :
    Outcome d s (.manager e) s' := by
  cases e with
  | received =>
    simp only [Sys.manage] at h
    split at h
    · rename_i request rest hpc hqueue
      obtain ⟨⟨account, forward⟩, hreq, h⟩ := Option.map_eq_some_iff.mp h
      simp only at h
      split at h
      · rename_i e hroute
        exact h ▸ .refused request rest account forward e hpc hqueue hreq hroute
      · rename_i index hroute
        exact h ▸ .routed request rest account forward index hpc hqueue hreq hroute
    · cases h
  | winding watch_chain =>
    simp only [Sys.manage] at h
    split at h
    · rename_i rest hpc hqueue
      split_ifs at h with hperm
      obtain rfl := Option.some.inj h
      exact .winding watch_chain rest hpc hqueue (List.isPerm_iff.mp hperm)
    · cases h
  | forwarded =>
    simp only [Sys.manage] at h
    split at h
    · rename_i index request hpc
      split_ifs at h with hend
      · obtain rfl := Option.some.inj h
        exact .lost index request hpc hend
      · obtain ⟨hroom, rfl⟩ := Sys.tellTracker_eq_some h
        exact .forwarded index request hpc (Bool.eq_false_of_not_eq_true hend) hroom
    · cases h
  | asked =>
    simp only [Sys.manage] at h
    split at h
    · rename_i name index rest hpc
      split_ifs at h with hend
      · obtain rfl := Option.some.inj h
        exact .skipped name index rest hpc hend
      · obtain ⟨hroom, rfl⟩ := Sys.tellTracker_eq_some h
        exact .asked name index rest hpc (Bool.eq_false_of_not_eq_true hend) hroom
    · cases h
  | waited =>
    simp only [Sys.manage] at h
    split at h
    · rename_i rest hpc
      obtain rfl := Option.some.inj h
      exact .waited rest hpc
    · cases h
  | finished =>
    simp only [Sys.manage] at h
    split at h
    · rename_i hpc
      obtain rfl := Option.some.inj h
      exact .finished hpc
    · cases h
  | closed =>
    simp only [Sys.manage] at h
    split at h
    · rename_i hpc hqueue
      split_ifs at h with hcond
      obtain rfl := Option.some.inj h
      rw [Bool.and_eq_true] at hcond
      exact .closed hpc hqueue hcond.1 hcond.2
    · cases h
  | dropped =>
    simp only [Sys.manage] at h
    split at h
    · rename_i request rest hpc hqueue
      obtain rfl := Option.some.inj h
      cases request with
      | watchAccount account => exact .dropped account (.watchAccount account) _ rest hpc hqueue rfl
      | reap account => exact .dropped account (.reap account) _ rest hpc hqueue rfl
      | shutdown => exact .droppedShutdown rest hpc hqueue
    · cases h

theorem feed_outcome {index : ℕ} {chain : Chain} {x : Turn lib} {t' : Tracker lib} {s₁ : Sys lib}
    (hc : d.chain[index]? = some chain) (hs : TurnStep chain (s.trackers index) x t')
    (h : s.feed index x.event = some s₁) :
    Outcome d s (.tracker index x)
      { s₁ with trackers := Function.update s₁.trackers index t' } := by
  obtain ⟨before, event, after⟩ := x
  match event, hs, h with
  | .said ⟨.send message, taken⟩, hs, h =>
    rcases Sys.tellState_eq_some h with ⟨hend, rfl, rfl⟩ | ⟨halive, rfl, hroom, rfl⟩
    · exact .tracker index hc hs ⟨rfl, hend⟩
    · exact .told index message hc hs rfl halive hroom
  | .said ⟨.rpc _, _⟩, hs, h | .said ⟨.now, _⟩, hs, h | .said ⟨.iterate _, _⟩, hs, h
  | .settled _, hs, h =>
    obtain rfl := Option.some.inj h
    exact .tracker index hc hs trivial
  | .stopped cancelled, hs, h =>
    simp only [Sys.feed] at h
    split_ifs at h with hcond
    obtain rfl := Option.some.inj h
    refine .tracker index hc hs fun hcancelled => ?_
    simpa [hcancelled] using hcond
  | .turned, hs, h =>
    simp only [Sys.feed] at h
    split_ifs at h with hcond
    obtain rfl := Option.some.inj h
    exact .tracker index hc hs (Bool.eq_false_of_not_eq_true hcond)
  | .timedOut, hs, h =>
    simp only [Sys.feed] at h
    split_ifs at h with hcond
    obtain rfl := Option.some.inj h
    exact .tracker index hc hs (List.isEmpty_iff.mp hcond)
  | .received request, hs, h =>
    simp only [Sys.feed] at h
    split at h
    · cases h
    · rename_i first rest hqueue
      split_ifs at h with hfirst
      obtain rfl := Option.some.inj h
      have houtcome : Outcome d s _ _ :=
        .took index request rest hc hs rfl (hfirst ▸ hqueue)
      cases request <;> exact houtcome

theorem SysStep.outcome {e : SysEvent lib} (h : SysStep d s e s') : Outcome d s e s' := by
  cases h with
  | outside e h => exact outside_outcome h
  | handler e hs he h => exact attend_outcome hs he h
  | restarted => exact .restarted
  | restore answer hp h => exact assist_outcome hp h
  | manager e h => exact manage_outcome h
  | tracker index hc hs h => exact feed_outcome hc hs h

end Outcomes

end Kalatori
