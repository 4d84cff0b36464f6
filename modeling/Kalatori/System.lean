import Kalatori.Chain.WatchList
import Kalatori.State.Ledger
import Kalatori.State.Restore
import Mathlib.Logic.Function.Basic

/-!
# The daemon

The tasks put together: the state handler with the tree of the database, the
task that restores the saved orders, the chain manager, one tracker for each
chain, and the channels between them.  A channel has room for `capacity`
messages; a message to a full channel is not sent until there is room, and a
message to a task that has ended is not sent at all.

A step of the daemon is a step of one of the tasks, labelled with what it shows,
and what that step needs from the others is a function of the label: `attend`
for the handler, `assist` for the restoring task, `feed` for a tracker.  What
the manager does, and what comes from outside, are functions altogether
(`manage`, `outside`).

What waits in the channel of a task that has ended is answered with
`messageDropped`, if somebody waits for an answer to it.  The channel of the
handler is left as it is at its end, since then nobody reads it any more.

* `Sys`, `SysStep`, `SysRun`: the states, the steps, and the runs that start on the
  database of an earlier run.
* `Sys.exec`, `Sys.exec_sound`: the same as a function, for replaying a run.
-/

namespace Kalatori

open Program Transition

variable {lib : Libraries}

/-- How many messages a channel has room for. -/
def capacity : ℕ := 1024

/-! ## The configuration -/

/-- What a daemon is started with.  The configuration is one that `ignite` accepts, and
`account` is what the signer derives from the seed for each order. -/
structure Deployment (lib : Libraries) where
  chain : List Chain
  recipient : AccountId32
  server_info : ServerInfo
  account_lifetime : Timestamp
  account : String → AccountId32
  routes : Routes
  ignited : ignite chain = .ok routes

/-! ## States -/

def Handler.hasEnded (s : Handler) : Bool :=
  match s.pc with
  | .ended _ => true
  | _ => false

def Tracker.hasEnded (t : Tracker lib) : Bool :=
  match t.pc with
  | .ended _ => true
  | _ => false

def ManagerPc.hasEnded : ManagerPc → Bool
  | .ended => true
  | _ => false

/-- The state of the daemon.  `payouts` are the tasks that were spawned for a payout and have
not begun yet, and `replies` the answers that nobody has looked at. -/
structure Sys (lib : Libraries) where
  store : HandlerStore
  database : Bool
  cancelled : Bool
  state_queue : List StateAccessRequest
  restore : Option (Trace RestoreSig × Prog RestoreSig Unit)
  manager : ManagerPc
  manager_queue : List ChainRequest
  trackers : ℕ → Tracker lib
  tracker_queue : ℕ → List ChainTrackerRequest
  payouts : List WatchAccount
  replies : Requester → Option (Except ChainError Unit)

namespace Sys

/-- The daemon when it has been started on a tree. -/
def start (d : Deployment lib) (orders : Orders) : Sys lib where
  store := ⟨orders, Handler.start d.recipient d.server_info⟩
  database := true
  cancelled := false
  state_queue := []
  restore := none
  manager := .serve
  manager_queue := []
  trackers := fun _ => .start
  tracker_queue := fun _ => []
  payouts := []
  replies := fun _ => none

/-! ## Channels -/

/-- An answer for one who waits for it. -/
def answer (s : Sys lib) (res : Requester) (result : Except ChainError Unit) : Sys lib :=
  { s with replies := Function.update s.replies res (some result) }

/-- Taking the answer. -/
def takeReply (s : Sys lib) (res : Requester) (result : Except ChainError Unit) :
    Option (Sys lib) :=
  if s.replies res = some result then
    some { s with replies := Function.update s.replies res none }
  else none

/-- A message to the state handler. -/
def tellState (s : Sys lib) (message : StateAccessRequest) (taken : Bool) : Option (Sys lib) :=
  if s.store.handler.hasEnded then if taken then none else some s
  else if taken && s.state_queue.length < capacity then
    some { s with state_queue := s.state_queue ++ [message] }
  else none

/-- A request to the chain manager. -/
def tellManager (s : Sys lib) (request : ChainRequest) (taken : Bool) : Option (Sys lib) :=
  if s.manager.hasEnded then if taken then none else some s
  else if taken && s.manager_queue.length < capacity then
    some { s with manager_queue := s.manager_queue ++ [request] }
  else none

/-- A request to a tracker that has room for it. -/
def tellTracker (s : Sys lib) (index : ℕ) (request : ChainTrackerRequest) : Option (Sys lib) :=
  if (s.tracker_queue index).length < capacity then
    some { s with
      tracker_queue := Function.update s.tracker_queue index (s.tracker_queue index ++ [request]) }
  else none

/-- A request that nobody will serve. -/
def drop (s : Sys lib) : ChainTrackerRequest → Sys lib
  | .watchAccount request | .reap request => s.answer request.res (.error .messageDropped)
  | .newBlock _ | .shutdown => s

/-! ## What a task needs from the others -/

/-- What the others do in a step of the state handler, if it can be made. -/
def attend (d : Deployment lib) (s : Sys lib) : HandlerEvent → Option (Sys lib)
  | .said ⟨.chainManager, taken⟩ => if taken then some s else none
  | .said ⟨.spawnRestore order_list, _⟩ =>
    some { s with restore := some ([], Kalatori.restore lib d.recipient order_list) }
  | .said ⟨.publicKey id ss58, .ok address⟩ =>
    if address = lib.toBase58String (d.account id) ss58 then some s else none
  | .said ⟨.publicKey _ _, .error _⟩ => some s
  | .said ⟨.db _, _⟩ => some s
  | .said ⟨.reap _ _, _⟩ => some s
  | .said ⟨.send request, taken⟩ => s.tellManager request taken
  | .said ⟨.await, result⟩ => s.takeReply .stateHandler result
  | .said ⟨.awaitShutdown, _⟩ => if s.manager.hasEnded then some s else none
  | .said ⟨.awaitRefused, _⟩ => none
  | .said ⟨.reply _, _⟩ => some s
  | .said ⟨.dbShutdown, _⟩ => some { s with database := false }
  | .said ⟨.signerShutdown, _⟩ => some s
  | .settled => some s
  | .received request =>
    match s.state_queue with
    | [] => none
    | first :: rest => if first = request then some { s with state_queue := rest } else none
  -- `main` holds a handle of the state until all tasks are over.
  | .closed => none
  -- The select is biased: the queue comes first.
  | .notified => if s.cancelled && s.state_queue.isEmpty then some s else none

/-- What the others do in a step of the task that restores the orders. -/
def assist (s : Sys lib) : Exchange RestoreSig → Option (Sys lib)
  | ⟨.send request, taken⟩ => s.tellManager request taken
  | ⟨.await, result⟩ => s.takeReply .restore result

/-- What becomes of a request that a tracker takes: `Invoice::from_request` answers it, at
once or when the payout begins. -/
def accept (s : Sys lib) : ChainTrackerRequest → Sys lib
  | .watchAccount request => s.answer request.res (.ok ())
  | .reap request => { s with payouts := s.payouts ++ [request] }
  | .newBlock _ | .shutdown => s

/-- What the others do in a step of a tracker. -/
def feed (s : Sys lib) (index : ℕ) : TrackerEvent lib → Option (Sys lib)
  | .said ⟨.send message, taken⟩ => s.tellState message taken
  | .said _ => some s
  | .settled _ => some s
  | .stopped cancelled => if cancelled && !s.cancelled then none else some s
  | .turned => if s.cancelled then none else some s
  | .received request =>
    match s.tracker_queue index with
    | [] => none
    | first :: rest =>
      if first = request then
        some ({ s with tracker_queue := Function.update s.tracker_queue index rest }.accept request)
      else none
  | .timedOut => if (s.tracker_queue index).isEmpty then some s else none

end Sys

/-! ## The chain manager -/

/-- The steps of the manager: it takes a request for a tracker, or the request for a shutdown
with the order in which it will go through the trackers; it sends a request on; it asks the next
tracker to shut down, has waited for it, has asked all; no handle of it is left; and it drops
what is in its queue when it has ended. -/
inductive ManagerEvent
  | received
  | winding (watch_chain : List (Σ _ : String, ℕ))
  | forwarded
  | asked
  | waited
  | finished
  | closed
  | dropped

namespace Sys

/-- The handle that the restoring task holds is gone. -/
def restored (s : Sys lib) : Bool :=
  match s.restore with
  | none | some (_, .done ()) => true
  | some (_, .call _ _) => false

def manage (d : Deployment lib) (s : Sys lib) : ManagerEvent → Option (Sys lib)
  | .received =>
    match s.manager, s.manager_queue with
    | .serve, request :: rest =>
      request.forTracker.map fun (account, request) =>
        match d.routes.route account.currency with
        | .error e => { s with manager_queue := rest }.answer account.res (.error e)
        | .ok index => { s with manager_queue := rest, manager := .forward index request }
    | _, _ => none
  | .winding watch_chain =>
    match s.manager, s.manager_queue with
    | .serve, .shutdown :: rest =>
      if watch_chain.isPerm d.routes.watch_chain.entries then
        some { s with manager_queue := rest, manager := .drain watch_chain }
      else none
    | _, _ => none
  | .forwarded =>
    match s.manager with
    | .forward index request =>
      if (s.trackers index).hasEnded then some ({ s with manager := .serve }.drop request)
      else { s with manager := .serve }.tellTracker index request
    | _ => none
  | .asked =>
    match s.manager with
    | .drain (⟨_, index⟩ :: rest) =>
      if (s.trackers index).hasEnded then some { s with manager := .drain rest }
      else { s with manager := .wait rest }.tellTracker index .shutdown
    | _ => none
  -- The tracker has answered, or has ended, or took too long.
  | .waited =>
    match s.manager with
    | .wait rest => some { s with manager := .drain rest }
    | _ => none
  | .finished =>
    match s.manager with
    | .drain [] => some { s with manager := .ended }
    | _ => none
  | .closed =>
    match s.manager, s.manager_queue with
    | .serve, [] =>
      if s.store.handler.hasEnded && s.restored then some { s with manager := .ended } else none
    | _, _ => none
  | .dropped =>
    match s.manager, s.manager_queue with
    | .ended, request :: rest =>
      some (
        match request.forTracker with
        | some (_, request) => { s with manager_queue := rest }.drop request
        | none => { s with manager_queue := rest })
    | _, _ => none

end Sys

/-! ## What comes from outside -/

/-- The steps of what is not followed: a request over HTTP, a block that a watching task puts
into the queue of a tracker, the notification of the shutdown, the end of the database server when
no handle of it is left, the beginning of a payout, and the end of a message in the queue of a
tracker that has ended. -/
inductive OutsideEvent
  | requested (request : StateAccessRequest)
  | blockSeen (index : ℕ) (number : String)
  | cancelled
  | databaseStopped
  | payoutBegun (request : WatchAccount)
  | dropped (index : ℕ)

/-- The requests that the HTTP server makes. -/
def StateAccessRequest.fromHttp : StateAccessRequest → Bool
  | .getInvoiceStatus _ | .createInvoice _ | .isCurrencySupported _ | .serverStatus => true
  | .connectChain _ | .orderPaid _ => false

namespace Sys

def outside (s : Sys lib) : OutsideEvent → Option (Sys lib)
  | .requested request => if request.fromHttp then s.tellState request true else none
  | .blockSeen index number =>
    if (s.trackers index).hasEnded then none else s.tellTracker index (.newBlock number)
  | .cancelled => some { s with cancelled := true }
  | .databaseStopped => if s.store.handler.hasEnded then some { s with database := false } else none
  | .payoutBegun request =>
    if request ∈ s.payouts then
      some ({ s with payouts := s.payouts.erase request }.answer request.res (.ok ()))
    else none
  | .dropped index =>
    match (s.trackers index).hasEnded, s.tracker_queue index with
    | true, request :: rest =>
      some ({ s with tracker_queue := Function.update s.tracker_queue index rest }.drop request)
    | _, _ => none

end Sys

/-! ## Runs -/

inductive SysEvent (lib : Libraries)
  | outside (e : OutsideEvent)
  | daemon (x : DaemonTurn)
  | restore (exchange : Exchange RestoreSig)
  | manager (e : ManagerEvent)
  | tracker (index : ℕ) (x : Turn lib)

/-- **A step of the daemon.**  It may be restarted at any time, on the tree as it is. -/
inductive SysStep (d : Deployment lib) : Sys lib → SysEvent lib → Sys lib → Prop
  | outside {s s' : Sys lib} (e : OutsideEvent) (h : s.outside e = some s') :
      SysStep d s (.outside e) s'
  | handler {s s₁ : Sys lib} {x : DaemonTurn} {store' : HandlerStore} (e : HandlerEvent)
      (hs : DaemonStep lib d.account_lifetime s.store x store') (he : x.event = .handler e)
      (h : s.attend d e = some s₁) : SysStep d s (.daemon x) { s₁ with store := store' }
  | restarted (s : Sys lib) :
      SysStep d s (.daemon ⟨s.store.orders, .restarted, s.store.orders⟩) (.start d s.store.orders)
  | restore {s s₁ : Sys lib} {said : Trace RestoreSig} {o : RestoreOp}
      {k : RestoreSig.Answer o → Prog RestoreSig Unit} (answer : RestoreSig.Answer o)
      (hp : s.restore = some (said, .call o k)) (h : s.assist ⟨o, answer⟩ = some s₁) :
      SysStep d s (.restore ⟨o, answer⟩)
        { s₁ with restore := some (said ++ [⟨o, answer⟩], k answer) }
  | manager {s s' : Sys lib} (e : ManagerEvent) (h : s.manage d e = some s') :
      SysStep d s (.manager e) s'
  | tracker {s s₁ : Sys lib} {chain : Chain} {x : Turn lib} {t' : Tracker lib} (index : ℕ)
      (hc : d.chain[index]? = some chain) (hs : TurnStep chain (s.trackers index) x t')
      (h : s.feed index x.event = some s₁) :
      SysStep d s (.tracker index x)
        { s₁ with trackers := Function.update s₁.trackers index t' }

/-- The trees that a run of the database server leaves. -/
def Earlier (orders : Orders) : Prop := ∃ account_lifetime h, LedgerRun account_lifetime h orders

/-- The daemon has just been started on a tree that was written before. -/
def Sys.Begun (d : Deployment lib) (s : Sys lib) : Prop :=
  ∃ orders, Earlier orders ∧ s = Sys.start d orders

/-- The runs of a daemon whose steps meet a condition. -/
abbrev SysRunIf (d : Deployment lib) (allow : List (SysEvent lib) → Sys lib → SysEvent lib → Prop) :
    List (SysEvent lib) → Sys lib → Prop :=
  Reach (SysStep d) allow (Sys.Begun d)

/-- The runs of a daemon. -/
abbrev SysRun (d : Deployment lib) : List (SysEvent lib) → Sys lib → Prop := SysRunIf d always

/-! ## Replaying a run -/

/-- What happens next.  A task that takes what is first in its queue is told no more than
that. -/
inductive SysAction (lib : Libraries)
  | outside (e : OutsideEvent)
  | handler (a : DaemonAction)
  | receive
  | restart
  | restore (answers : ∀ o : RestoreOp, RestoreSig.Answer o)
  | manager (e : ManagerEvent)
  | tracker (index : ℕ) (a : TrackerAction lib)
  | trackerReceive (index : ℕ)

namespace Sys

def execHandler (d : Deployment lib) (s : Sys lib) (a : DaemonAction) :
    Option (SysEvent lib × Sys lib) :=
  (s.store.exec lib d.account_lifetime a).bind fun (x, store') =>
    match x.event with
    | .handler e => (s.attend d e).map fun s₁ => (.daemon x, { s₁ with store := store' })
    | .restarted => none

def execTracker (d : Deployment lib) (s : Sys lib) (index : ℕ) (a : TrackerAction lib) :
    Option (SysEvent lib × Sys lib) :=
  d.chain[index]?.bind fun chain =>
    (turnExec chain (s.trackers index) a).bind fun (x, t') =>
      (s.feed index x.event).map fun s₁ =>
        (.tracker index x, { s₁ with trackers := Function.update s₁.trackers index t' })

/-- The daemon as a function of what happens next. -/
def exec (d : Deployment lib) (s : Sys lib) : SysAction lib → Option (SysEvent lib × Sys lib)
  | .outside e => (s.outside e).map fun s' => (.outside e, s')
  | .handler a => s.execHandler d a
  | .receive =>
    s.state_queue.head?.bind fun request => s.execHandler d (.handler (.receive request))
  | .restart =>
    some (.daemon ⟨s.store.orders, .restarted, s.store.orders⟩, .start d s.store.orders)
  | .restore answers =>
    match s.restore with
    | some (said, .call o k) =>
      (s.assist ⟨o, answers o⟩).map fun s₁ =>
        (.restore ⟨o, answers o⟩,
          { s₁ with restore := some (said ++ [⟨o, answers o⟩], k (answers o)) })
    | _ => none
  | .manager e => (s.manage d e).map fun s' => (.manager e, s')
  | .tracker index a => s.execTracker d index a
  | .trackerReceive index =>
    (s.tracker_queue index).head?.bind fun request => s.execTracker d index (.receive request)

theorem execHandler_sound {d : Deployment lib} {s s' : Sys lib} {a : DaemonAction}
    {e : SysEvent lib} (h : s.execHandler d a = some (e, s')) : SysStep d s e s' := by
  obtain ⟨⟨x, store'⟩, hx, h⟩ := Option.bind_eq_some_iff.mp h
  simp only at h
  split at h
  · rename_i e he
    obtain ⟨s₁, h₁, h⟩ := Option.map_eq_some_iff.mp h
    obtain ⟨rfl, rfl⟩ := Prod.mk.inj h
    exact .handler e (HandlerStore.exec_sound _ _ _ _ _ _ hx) he h₁
  · cases h

theorem execTracker_sound {d : Deployment lib} {s s' : Sys lib} {index : ℕ}
    {a : TrackerAction lib} {e : SysEvent lib} (h : s.execTracker d index a = some (e, s')) :
    SysStep d s e s' := by
  obtain ⟨chain, hc, h⟩ := Option.bind_eq_some_iff.mp h
  obtain ⟨⟨x, t'⟩, hx, h⟩ := Option.bind_eq_some_iff.mp h
  obtain ⟨s₁, h₁, h⟩ := Option.map_eq_some_iff.mp h
  obtain ⟨rfl, rfl⟩ := Prod.mk.inj h
  exact .tracker index hc (turnExec_sound chain _ _ _ _ hx) h₁

theorem exec_sound (d : Deployment lib) (s : Sys lib) (a : SysAction lib) (e : SysEvent lib)
    (s' : Sys lib) (h : s.exec d a = some (e, s')) : SysStep d s e s' := by
  cases a with
  | outside e =>
    obtain ⟨s₁, h₁, h⟩ := Option.map_eq_some_iff.mp h
    obtain ⟨rfl, rfl⟩ := Prod.mk.inj h
    exact .outside e h₁
  | handler a => exact execHandler_sound h
  | receive =>
    obtain ⟨request, -, h⟩ := Option.bind_eq_some_iff.mp h
    exact execHandler_sound h
  | restart =>
    obtain ⟨rfl, rfl⟩ := Prod.mk.inj (Option.some.inj h)
    exact .restarted s
  | restore answers =>
    simp only [exec] at h
    split at h
    · rename_i said o k hp
      obtain ⟨s₁, h₁, h⟩ := Option.map_eq_some_iff.mp h
      obtain ⟨rfl, rfl⟩ := Prod.mk.inj h
      exact .restore (answers o) hp h₁
    · cases h
  | manager e =>
    obtain ⟨s₁, h₁, h⟩ := Option.map_eq_some_iff.mp h
    obtain ⟨rfl, rfl⟩ := Prod.mk.inj h
    exact .manager e h₁
  | tracker index a => exact execTracker_sound h
  | trackerReceive index =>
    obtain ⟨request, -, h⟩ := Option.bind_eq_some_iff.mp h
    exact execTracker_sound h

end Sys

/-! ## A sample -/

theorem earlier_empty : Earlier ∅ := ⟨0, [], .start rfl⟩

namespace Sample

def deployment : Deployment libraries where
  chain := [polkadot]
  recipient := account
  server_info := serverInfo
  account_lifetime := 1000
  account := fun _ => account
  routes := ⟨AList.singleton "polkadot" 0, AList.singleton "DOT" "polkadot"⟩
  ignited := rfl

theorem begun : Sys.Begun deployment (Sys.start deployment ∅) := ⟨∅, earlier_empty, rfl⟩

/-- The handler gets so many answers. -/
def answers (n : ℕ) : List (SysAction libraries) :=
  List.replicate n (.handler (.handler (.answer (calm true))))

/-- The database serves the handler, at some time. -/
def served (now : Timestamp) : SysAction libraries := .handler (.serve (.calm now))

/-- The handler is through with a program. -/
def settled : SysAction libraries := .handler (.handler .settle)

/-- The tracker gets so many answers from a node with this balance, at the hour `5`. -/
def nodeAnswers (balance : Balance) (n : ℕ) : List (SysAction libraries) :=
  List.replicate n (.tracker 0 (.answer (node balance 5)))

/-- The daemon starts, its tracker connects, and the handler learns of the currency. -/
def connected : List (SysAction libraries) :=
  answers 1 ++ [served 0] ++ answers 1 ++ [settled, .tracker 0 .turn] ++ nodeAnswers 0 10 ++
    [.tracker 0 .settle, .receive, settled]

/-- An order over HTTP for an amount in `f64`. -/
def ordered (order : String) (amount : F64) : List (SysAction libraries) :=
  [.outside (.requested (.createInvoice ⟨order, amount, "", "DOT"⟩)), .receive] ++ answers 1 ++
    [served 0]

/-- The request of the handler gets through to the tracker, which takes it. -/
def registered : List (SysAction libraries) :=
  answers 1 ++ [.manager .received, .manager .forwarded, .trackerReceive 0] ++ answers 2 ++
    [settled]

/-- A block is seen, and the tracker goes through it in so many operations. -/
def block (balance : Balance) (n : ℕ) : List (SysAction libraries) :=
  [.outside (.blockSeen 0 "0x1"), .trackerReceive 0] ++ nodeAnswers balance n ++
    [.tracker 0 .settle]

/-- `1e-9`, which is a price of ten units, and twice that. -/
def ten : F64 := ⟨0x3e112e0be826d695⟩
def twenty : F64 := ⟨0x3e212e0be826d695⟩

end Sample

end Kalatori
