import Kalatori.Chain.Manager
import Kalatori.Database
import Kalatori.Lib.Program

/-!
# The state handler

The task that `State::initialise` spawns.  It waits for the chain manager, asks
the database for the orders that wait for a payment and has another task restore
them (`startUp`), and then serves the requests in its queue one by one
(`handle`), until it is told to shut down (`shutDown`).

The three are programs over the operations `HandlerOp`: a request to the signer
or to the database, the two halves of a call to the chain manager, and an answer
to a requester, which may be gone by then.  The loop around them is the state
machine `HandlerStep`.

A call of `ChainManager::reap` is an operation as well, one that does nothing:
it marks where the call is made, since the call itself may fail before it sends
anything.
-/

namespace Kalatori

open Program

variable {lib : Libraries}

/-! ## The operations -/

/-- An answer to a requester. -/
inductive HandlerReply
  | invoiceStatus (result : Except Error OrderResponse)
  | createInvoice (result : Except Error OrderResponse)
  | isCurrencySupported (supported : Bool)
  | serverStatus (status : ServerStatus)

inductive HandlerOp
  | chainManager
  | spawnRestore (order_list : List (String × OrderInfo))
  | publicKey (id : String) (ss58 : UInt16)
  | db (request : DbRequest)
  | reap (id : String) (order : OrderInfo)
  | send (request : ChainRequest)
  | await
  | awaitShutdown
  | awaitRefused
  | reply (answer : HandlerReply)
  | dbShutdown
  | signerShutdown

/-- The operations of the state handler.  Sending and answering tell whether the other side was
there.  What `await` brings is the answer to the request that was sent last; a request that was
dropped counts as answered with `messageDropped`.  Nothing ends the wait for the answer to a
request to shut down that was not taken. -/
abbrev HandlerSig : Signature where
  Op := HandlerOp
  Answer
    | .chainManager | .send _ | .reply _ => Bool
    | .publicKey .. => Except SignerError String
    | .db request => Except DbError request.Reply
    | .await => Except ChainError Unit
    | .awaitRefused => Empty
    | .spawnRestore _ | .reap .. | .awaitShutdown | .dbShutdown | .signerShutdown => Unit

/-- A program of the state handler. -/
abbrev Handling := ExceptT Error (Prog HandlerSig)

namespace Handling

def perform (o : HandlerOp) : Handling (HandlerSig.Answer o) :=
  ExceptT.lift (Prog.perform (S := HandlerSig) o)

/-- A request to the database, with `?` on its result. -/
def db (request : DbRequest) : Handling request.Reply :=
  ExceptT.mk (Prog.perform (S := HandlerSig) (.db request) >>= fun result =>
    pure (result.mapError Error.db))

/-- `Signer::public`, with `?` on its result. -/
def publicKey (id : String) (ss58 : UInt16) : Handling String :=
  ExceptT.mk (Prog.perform (S := HandlerSig) (.publicKey id ss58) >>= fun result =>
    pure (result.mapError Error.signer))

end Handling

/-! ## The data of the handler -/

structure StateData where
  currencies : HashMap String CurrencyProperties
  recipient : AccountId32
  server_info : ServerInfo

/-- `update_currencies`: the new entries replace the old ones. -/
def StateData.updateCurrencies (state : StateData)
    (currencies : HashMap String CurrencyProperties) : StateData :=
  { state with currencies := currencies ∪ state.currencies }

/-- `StateData::order_status` -/
def StateData.orderStatus (lib : Libraries) (state : StateData) (order : String)
    (order_info : OrderInfo) (message : String) : OrderStatus where
  order := order
  message := message
  recipient := lib.toBase58String state.recipient 2
  server_info := state.server_info
  order_info := order_info
  payment_page := ""
  redirect_url := ""

/-! ## Calls of the chain manager -/

/-- The handle that the state handler holds. -/
def handlerPort : ManagerPort Handling where
  res := .stateHandler
  send request := Handling.perform (.send request)
  await := Handling.perform .await

/-- `ChainManager::reap` -/
def reap (lib : Libraries) (id : String) (order : OrderInfo) (recipient : AccountId32) :
    Handling (Except ChainError Unit) := do
  Handling.perform (.reap id order)
  callManager lib handlerPort .reap id order recipient

/-- `ChainManager::shutdown` -/
def managerShutdown : Handling Unit := do
  if ← Handling.perform (.send .shutdown) then
    Handling.perform .awaitShutdown
  else
    -- `_unused` keeps the request, and in it the sender of the answer
    Empty.elim (← Handling.perform .awaitRefused)

/-! ## Requests -/

/-- `StateData::get_invoice_status` -/
def getInvoiceStatus (lib : Libraries) (state : StateData) (order : String) :
    Handling OrderResponse := do
  match ← Handling.db (.readOrder order) with
  | some order_info => return .foundOrder (state.orderStatus lib order order_info "")
  | none => return .notFound

/-- `StateData::create_invoice` -/
def createInvoice (lib : Libraries) (state : StateData) (order_query : OrderQuery) :
    Handling OrderResponse := do
  let order := order_query.order
  match state.currencies.lookup order_query.currency with
  | none => throw (.order .unknownCurrency)
  | some properties =>
    let currency := properties.info order_query.currency
    let payment_account ← Handling.publicKey order currency.ss58
    match ← Handling.db (.createOrder order order_query currency payment_account) with
    | .new new_order_info =>
      match ← addInvoice lib handlerPort order new_order_info state.recipient with
      | .error e => throw (.chain e)
      | .ok () => return .newOrder (state.orderStatus lib order new_order_info "")
    | .modified order_info => return .modifiedOrder (state.orderStatus lib order order_info "")
    | .collision order_info =>
      return .collidedOrder
        (state.orderStatus lib order order_info "Order with this ID was already processed")

/-- `res.send(..).map_err(|_| Error::Fatal)?` -/
def reply (answer : HandlerReply) : Handling Unit := do
  if ← Handling.perform (.reply answer) then return
  throw .fatal

/-- The result of a function, for sending it on. -/
def Handling.result {α : Type} (p : Handling α) : Handling (Except Error α) :=
  ExceptT.lift p.run

/-- The `match` on a request, with the data that the handler then has. -/
def handle (lib : Libraries) (state : StateData) : StateAccessRequest → Handling StateData
  | .connectChain assets => return state.updateCurrencies assets
  | .getInvoiceStatus order => do
    reply (.invoiceStatus (← (getInvoiceStatus lib state order).result))
    return state
  | .createInvoice order_query => do
    reply (.createInvoice (← (createInvoice lib state order_query).result))
    return state
  | .isCurrencySupported currency => do
    reply (.isCurrencySupported (state.currencies.lookup currency).isSome)
    return state
  | .serverStatus => do
    reply (.serverStatus ⟨state.server_info, state.currencies⟩)
    return state
  | .orderPaid id => do
    match ← (Handling.db (.markPaid id)).result with
    | .ok order =>
      let _ ← reap lib id order state.recipient
      return state
    | .error _ => return state

/-! ## Start and shutdown -/

/-- The part of the task before its loop. -/
def startUp : Handling Unit := do
  if ← Handling.perform .chainManager then
    Handling.perform (.spawnRestore (← Handling.db .activeOrderList))
  else throw .fatal

/-- The branch for the shutdown notification, in which no request is taken. -/
def shutDown : Handling Unit := do
  managerShutdown
  Handling.perform .dbShutdown
  Handling.perform .signerShutdown

/-! ## The task -/

/-- What the handler does after a program. -/
inductive HandlerNext
  | listen (state : StateData)
  | finish

/-- The parts of the task. -/
inductive HandlerPhase
  | starting
  | handling
  | winding
  deriving DecidableEq

/-- Where the task is: in a program, waiting for a request or the notification, or at its end.
A program is kept with what was said since it started. -/
inductive HandlerPc
  | busy (phase : HandlerPhase) (said : Trace HandlerSig)
      (program : Prog HandlerSig (Except Error HandlerNext))
  | listening
  | ended (result : Except Error Unit)

structure Handler where
  state : StateData
  pc : HandlerPc

namespace Handler

/-- The task when it is spawned. -/
def start (recipient : AccountId32) (server_info : ServerInfo) : Handler :=
  let state : StateData := ⟨∅, recipient, server_info⟩
  ⟨state, .busy .starting [] (startUp >>= fun _ => pure (.listen state)).run⟩

/-- The branch for a request. -/
def receive (lib : Libraries) (s : Handler) (request : StateAccessRequest) : Handler :=
  { s with
    pc := .busy .handling []
      (handle lib s.state request >>= fun state => pure (.listen state)).run }

/-- The branch for the notification. -/
def notify (s : Handler) : Handler :=
  { s with pc := .busy .winding [] (shutDown >>= fun _ => pure .finish).run }

/-- What follows a program. -/
def settle (s : Handler) : Except Error HandlerNext → Handler
  | .ok (.listen state) => ⟨state, .listening⟩
  | .ok .finish => { s with pc := .ended (.ok ()) }
  | .error e => { s with pc := .ended (.error e) }

end Handler

/-- What a step of the handler shows. -/
inductive HandlerEvent
  | said (exchange : Exchange HandlerSig)
  | settled
  | received (request : StateAccessRequest)
  | closed
  | notified

/-- **The task of the state handler.**  `closed` is the end of its queue, which comes when no
handle of the state is left. -/
inductive HandlerStep (lib : Libraries) : Handler → HandlerEvent → Handler → Prop
  | said {s : Handler} {phase : HandlerPhase} {said : Trace HandlerSig} {o : HandlerOp}
      {k : HandlerSig.Answer o → Prog HandlerSig (Except Error HandlerNext)}
      (answer : HandlerSig.Answer o) (h : s.pc = .busy phase said (.call o k)) :
      HandlerStep lib s (.said ⟨o, answer⟩)
        { s with pc := .busy phase (said ++ [⟨o, answer⟩]) (k answer) }
  | settled {s : Handler} {phase : HandlerPhase} {said : Trace HandlerSig}
      {result : Except Error HandlerNext} (h : s.pc = .busy phase said (.done result)) :
      HandlerStep lib s .settled (s.settle result)
  | received {s : Handler} (request : StateAccessRequest) (h : s.pc = .listening) :
      HandlerStep lib s (.received request) (s.receive lib request)
  | closed {s : Handler} (h : s.pc = .listening) :
      HandlerStep lib s .closed { s with pc := .ended (.ok ()) }
  | notified {s : Handler} (h : s.pc = .listening) : HandlerStep lib s .notified s.notify

/-! ## Replaying the task -/

/-- What the surroundings of the handler do next. -/
inductive HandlerAction
  | answer (answers : ∀ o : HandlerOp, Option (HandlerSig.Answer o))
  | settle
  | receive (request : StateAccessRequest)
  | close
  | notify

/-- The handler as a function of what its surroundings do. -/
def Handler.exec (lib : Libraries) (s : Handler) : HandlerAction → Option (HandlerEvent × Handler)
  | .answer answers =>
    match s.pc with
    | .busy phase said (.call o k) =>
      (answers o).map fun answer =>
        (.said ⟨o, answer⟩, { s with pc := .busy phase (said ++ [⟨o, answer⟩]) (k answer) })
    | _ => none
  | .settle =>
    match s.pc with
    | .busy _ _ (.done result) => some (.settled, s.settle result)
    | _ => none
  | .receive request =>
    match s.pc with
    | .listening => some (.received request, s.receive lib request)
    | _ => none
  | .close =>
    match s.pc with
    | .listening => some (.closed, { s with pc := .ended (.ok ()) })
    | _ => none
  | .notify =>
    match s.pc with
    | .listening => some (.notified, s.notify)
    | _ => none

theorem Handler.exec_sound (lib : Libraries) (s : Handler) (a : HandlerAction) (e : HandlerEvent)
    (s' : Handler) (h : s.exec lib a = some (e, s')) : HandlerStep lib s e s' := by
  cases a with
  | answer answers =>
    simp only [exec] at h
    split at h
    · rename_i phase said o k hpc
      obtain ⟨answer, -, h⟩ := Option.map_eq_some_iff.mp h
      obtain ⟨rfl, rfl⟩ := Prod.mk.inj h
      exact .said answer hpc
    · cases h
  | settle =>
    simp only [exec] at h
    split at h
    · rename_i phase said result hpc
      obtain ⟨rfl, rfl⟩ := Prod.mk.inj (Option.some.inj h)
      exact .settled hpc
    · cases h
  | receive request =>
    simp only [exec] at h
    split at h
    · rename_i hpc
      obtain ⟨rfl, rfl⟩ := Prod.mk.inj (Option.some.inj h)
      exact .received request hpc
    · cases h
  | close =>
    simp only [exec] at h
    split at h
    · rename_i hpc
      obtain ⟨rfl, rfl⟩ := Prod.mk.inj (Option.some.inj h)
      exact .closed hpc
    · cases h
  | notify =>
    simp only [exec] at h
    split at h
    · rename_i hpc
      obtain ⟨rfl, rfl⟩ := Prod.mk.inj (Option.some.inj h)
      exact .notified hpc
    · cases h

end Kalatori
