import Kalatori.Chain.Definitions

/-!
# The chain manager

`ignite` builds the two maps by which the manager finds the tracker of a
currency, and `Routes.route` is the lookup in both that its requests engine
makes.  A channel is known here by the position of its chain in the
configuration.

The other half is the handle of the manager, `ChainManager::add_invoice` and
`ChainManager::reap`, for any task that can send a request to the manager and
wait for the answer to it.
-/

namespace Kalatori

/-! ## The two maps -/

/-- `watch_chain` and `currency_map`. -/
structure Routes where
  watch_chain : HashMap String ℕ
  currency_map : HashMap String String

namespace Routes

/-- `currency_map.insert`, which must not find an entry. -/
def declare (routes : Routes) (currency chain : String) : Except Error Routes :=
  if (routes.currency_map.lookup currency).isSome then throw (.duplicateCurrency currency)
  else return { routes with currency_map := routes.currency_map.insert currency chain }

/-- One turn of the loop over the configured chains. -/
def add (routes : Routes) (index : ℕ) (c : Chain) : Except Error Routes := do
  if c.endpoints.isEmpty then throw (.emptyEndpoints c.name)
  let routes := { routes with watch_chain := routes.watch_chain.insert c.name index }
  let routes ← (
    match c.native_token with
    | some a => routes.declare a.name c.name
    | none => return routes)
  c.asset.foldlM (fun routes a => routes.declare a.name c.name) routes

def addAll (routes : Routes) (index : ℕ) : List Chain → Except Error Routes
  | [] => return routes
  | c :: chain => do (← routes.add index c).addAll (index + 1) chain

/-- The lookups for a request: the channel it goes to, or the answer it gets. -/
def route (routes : Routes) (currency : String) : Except ChainError ℕ :=
  match routes.currency_map.lookup currency with
  | none => .error (.invalidCurrency currency)
  | some chain =>
    match routes.watch_chain.lookup chain with
    | none => .error (.invalidChain chain)
    | some index => .ok index

end Routes

/-- `ChainManager::ignite`, as far as it can fail. -/
def ignite (chain : List Chain) : Except Error Routes := Routes.addAll ⟨∅, ∅⟩ 0 chain

/-! ## The requests engine -/

/-- The request to a tracker that a request to the manager turns into, with the account it is
about.  A request for a shutdown turns into several. -/
def ChainRequest.forTracker : ChainRequest → Option (WatchAccount × ChainTrackerRequest)
  | .watchAccount request => some (request, .watchAccount request)
  | .reap request => some (request, .reap request)
  | .shutdown => none

/-- Where the task is: waiting for a request, at `receiver.send`, in the loop of the shutdown
before it asks the next tracker or waits for one, or at its end. -/
inductive ManagerPc
  | serve
  | forward (index : ℕ) (request : ChainTrackerRequest)
  | drain (watch_chain : List (Σ _ : String, ℕ))
  | wait (watch_chain : List (Σ _ : String, ℕ))
  | ended

/-! ## The handle -/

/-- How a task reaches the chain manager.  `send` tells whether the manager was there to take
the request; `await` is the answer to the request that was sent last, and a request that was
dropped counts as answered with `messageDropped`. -/
structure ManagerPort (m : Type → Type) where
  res : Requester
  send : ChainRequest → m Bool
  await : m (Except ChainError Unit)

/-- The common text of `add_invoice` and `reap`, which differ in the request they make. -/
def callManager {m : Type → Type} [Monad m] (lib : Libraries) (port : ManagerPort m)
    (request : WatchAccount → ChainRequest) (id : String) (order : OrderInfo)
    (recipient : AccountId32) : m (Except ChainError Unit) :=
  match WatchAccount.new lib id order recipient port.res with
  | .error e => return .error e
  | .ok watch_account => do
    if ← port.send (request watch_account) then port.await else return .error .messageDropped

def addInvoice {m : Type → Type} [Monad m] (lib : Libraries) (port : ManagerPort m) :
    String → OrderInfo → AccountId32 → m (Except ChainError Unit) :=
  callManager lib port .watchAccount

end Kalatori
