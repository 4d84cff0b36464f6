import Kalatori.Chain.Definitions
import Kalatori.Lib.Program
import Mathlib.Data.List.AList

/-!
# A tracker that follows an individual chain

The task that `start_chain_watch` spawns.  It takes the endpoints of its chain
in turn; at each it connects and prepares (`connect`), and then serves the
requests in its queue, of which the interesting one is a new block
(`newBlock`).  These two are programs over the operations `TrackerOp`: a request
to the node, a look at the clock, the choice of an order in which to go through
the watch list, and a message to the state handler.  What the surroundings answer
is left open.  An answer of a node is a value, a failure, or a panic of the code
that reads it; which of these are possible is the business of the RPC module.

The rest of the task, its loops, is the state machine `TrackerStep`.  The watch
list that a program works on is written back when the program is over, which is
when the source removes the entries it collected.

The tasks that the tracker spawns are not followed here.  The one that watches
for blocks only puts `newBlock` requests into the queue, and the payout does not
touch the tracker.
-/

namespace Kalatori

open Program

variable {lib : Libraries}

/-- The invoices that a tracker watches. -/
abbrev WatchedAccounts := HashMap String Invoice

/-! ## The operations -/

/-- The functions of the RPC module that a tracker calls. -/
inductive RpcCall (lib : Libraries)
  | build (endpoint : String)
  | genesisHash
  | subscribeBlocks
  | nextBlock
  | blockHash (number : String)
  | runtimeVersionIdentifier (block : BlockHash)
  | metadata (block : BlockHash)
  | specs (metadata : lib.Metadata) (block : BlockHash)
  | assetsSetAtBlock (block : BlockHash) (metadata : lib.Metadata) (rpc_url : String)
      (specs : ShortSpecs)
  | transferEvents (block : BlockHash) (metadata : lib.Metadata)
  | balance (watcher : ChainWatcher lib) (invoice : Invoice) (block : BlockHash)

abbrev RpcCall.Result : RpcCall lib → Type
  | build _ | subscribeBlocks => Unit
  | genesisHash | nextBlock | blockHash _ => BlockHash
  | runtimeVersionIdentifier _ => Json
  | metadata _ => lib.Metadata
  | specs .. => ShortSpecs
  | assetsSetAtBlock .. => HashMap String CurrencyProperties
  | transferEvents .. => List Event
  | balance .. => Balance

/-- How a program of a tracker stops before its end. -/
inductive Stop
  | failed (e : ChainError)
  | panicked
  deriving DecidableEq

inductive TrackerOp (lib : Libraries)
  | rpc (call : RpcCall lib)
  | now
  | iterate (watched_accounts : WatchedAccounts)
  | send (message : StateAccessRequest)

/-- The operations of a tracker.  A message to the state handler is answered with whether the
handler was there to take it. -/
abbrev TrackerSig (lib : Libraries) : Signature where
  Op := TrackerOp lib
  Answer
    | .rpc call => Except Stop call.Result
    | .now => Timestamp
    | .iterate watched_accounts => Enumeration watched_accounts
    | .send _ => Bool

/-- A program of a tracker. -/
abbrev Job (lib : Libraries) := ExceptT Stop (Prog (TrackerSig lib))

namespace Job

variable {α : Type}

def rpc (call : RpcCall lib) : Job lib call.Result :=
  ExceptT.mk (Prog.perform (S := TrackerSig lib) (.rpc call))

def now : Job lib Timestamp :=
  ExceptT.lift (Prog.perform (S := TrackerSig lib) .now)

def iterate (watched_accounts : WatchedAccounts) : Job lib (Enumeration watched_accounts) :=
  ExceptT.lift (Prog.perform (S := TrackerSig lib) (.iterate watched_accounts))

/-- `State::order_paid` and `State::connect_chain`, which go on when nobody takes the message. -/
def tell (message : StateAccessRequest) : Job lib Unit :=
  ExceptT.lift (Prog.perform (S := TrackerSig lib) (.send message) >>= fun _ => pure ())

/-- The result of a function, for a `match` on it. -/
def attempt (job : Job lib α) : Job lib (Except ChainError α) :=
  ExceptT.mk (job.run >>= fun result =>
    match result with
    | .ok a => pure (.ok (.ok a))
    | .error (.failed e) => pure (.ok (.error e))
    | .error .panicked => pure (.error .panicked))

end Job

/-! ## Checking invoices -/

/-- `Invoice::check` -/
def Invoice.check (watcher : ChainWatcher lib) (block : BlockHash) (invoice : Invoice) :
    Job lib Bool := do
  return invoice.amount ≤ (← Job.rpc (.balance watcher invoice block))

/-- The check of `prepare_chain`, and the one after a transfer: a paid invoice is reported and
goes on the list of those to remove. -/
def reportIfPaid (watcher : ChainWatcher lib) (block : BlockHash) (id : String)
    (invoice : Invoice) : Job lib (List String) := do
  match ← (invoice.check watcher block).attempt with
  | .ok true => do
    Job.tell (.orderPaid id)
    pure [id]
  | .ok false => pure []
  | .error _ => pure []

/-- The check that depends on the death of the invoice, which puts it on the list of those to
remove whether it is paid or not. -/
def forgetAtDeath (watcher : ChainWatcher lib) (block : BlockHash) (id : String)
    (invoice : Invoice) : Job lib (List String) := do
  match ← (invoice.check watcher block).attempt with
  | .ok paid => do
    if paid then Job.tell (.orderPaid id)
    pure [id]
  | .error _ => pure []

/-- The loop of `prepare_chain`, with the identifiers it collects. -/
def checkMonitored (watcher : ChainWatcher lib) (block : BlockHash) :
    List (Σ _ : String, Invoice) → Job lib (List String)
  | [] => return []
  | ⟨id, account⟩ :: rest => do
    let removed ← reportIfPaid watcher block id account
    return removed ++ (← checkMonitored watcher block rest)

/-- One round of the loop over the watch list. -/
def checkInvoice (watcher : ChainWatcher lib) (block : BlockHash) (events : List Event)
    (now : Timestamp) (id : String) (invoice : Invoice) : Job lib (List String) := do
  let reported ← (
    if events.any fun event => wasBalanceReceivedAtAccount invoice.address event.fields then
      reportIfPaid watcher block id invoice
    else pure [])
  let expired ← (
    if invoice.death ≥ now then forgetAtDeath watcher block id invoice
    else pure [])
  return reported ++ expired

/-- The loop over the watch list, with the identifiers it collects. -/
def checkInvoices (watcher : ChainWatcher lib) (block : BlockHash) (events : List Event)
    (now : Timestamp) : List (Σ _ : String, Invoice) → Job lib (List String)
  | [] => return []
  | ⟨id, invoice⟩ :: rest => do
    let removed ← checkInvoice watcher block events now id invoice
    return removed ++ (← checkInvoices watcher block events now rest)

/-- `for id in id_remove_list` -/
def removeAll (watched_accounts : WatchedAccounts) (id_remove_list : List String) :
    WatchedAccounts :=
  id_remove_list.foldl (fun watched id => watched.erase id) watched_accounts

/-! ## The two programs -/

/-- The assets that `prepare_chain` keeps. -/
def wantedAsset (chain : Chain) (specs : ShortSpecs) (name : String)
    (properties : CurrencyProperties) : Bool :=
  match chain.native_token with
  | some native_token => native_token.name = name && native_token.decimals = specs.decimals
  | none => chain.asset.any fun a => a.name = name && some a.id = properties.asset_id

/-- `assets.retain` -/
def retainAssets (chain : Chain) (specs : ShortSpecs) (assets : HashMap String CurrencyProperties) :
    HashMap String CurrencyProperties where
  entries := assets.entries.filter fun entry => wantedAsset chain specs entry.1 entry.2
  nodupKeys := assets.nodupKeys.sublist List.filter_sublist

/-- How many assets the configuration asks for. -/
def requestedAssets (chain : Chain) : ℕ :=
  chain.asset.length + if chain.native_token.isSome then 1 else 0

/-- `ChainWatcher::prepare_chain`, with the watch list it leaves. -/
def prepareChain (chain : Chain) (watched_accounts : WatchedAccounts) (rpc_url : String) :
    Job lib (ChainWatcher lib × WatchedAccounts) := do
  let genesis_hash ← Job.rpc .genesisHash
  Job.rpc .subscribeBlocks
  let block ← Job.rpc .nextBlock
  let version ← Job.rpc (.runtimeVersionIdentifier block)
  let metadata ← Job.rpc (.metadata block)
  match lib.specName metadata with
  | none => throw (.failed .metaVersionErrorPallets)
  | some name =>
    if name ≠ chain.name then throw (.failed (.wrongNetwork chain.name name rpc_url))
    let specs ← Job.rpc (.specs metadata block)
    let assets ← Job.rpc (.assetsSetAtBlock block metadata rpc_url specs)
    let assets := retainAssets chain specs assets
    if assets.entries.length ≠ requestedAssets chain then
      throw (.failed (.assetsInvalid chain.name))
    Job.tell (.connectChain assets)
    let watcher : ChainWatcher lib := ⟨genesis_hash, metadata, specs, assets, version⟩
    let accounts ← Job.iterate watched_accounts
    let id_remove_list ← checkMonitored watcher block accounts.entries
    return (watcher, removeAll watched_accounts id_remove_list)

/-- Where the task goes on after a program, with the watch list it then has. -/
inductive Continuation (lib : Libraries)
  | rotate (watched_accounts : WatchedAccounts)
  | serve (watcher : ChainWatcher lib) (watched_accounts : WatchedAccounts)

/-- One turn of the loop over the endpoints, up to the loop over the requests. -/
def connect (chain : Chain) (watched_accounts : WatchedAccounts) (endpoint : String) :
    Job lib (Continuation lib) := do
  match ← (Job.rpc (.build endpoint)).attempt with
  | .error _ => return .rotate watched_accounts
  | .ok _ =>
    match ← (prepareChain chain watched_accounts endpoint).attempt with
    | .error _ => return .rotate watched_accounts
    | .ok (watcher, watched_accounts) => return .serve watcher watched_accounts

/-- The branch `NewBlock`.  A failure to tell the runtime version is not caught. -/
def newBlock (watcher : ChainWatcher lib) (watched_accounts : WatchedAccounts) (number : String) :
    Job lib (Continuation lib) := do
  match ← (Job.rpc (.blockHash number)).attempt with
  | .error _ => return .rotate watched_accounts
  | .ok block =>
    let version ← Job.rpc (.runtimeVersionIdentifier block)
    if watcher.version != version then return .rotate watched_accounts
    match ← (Job.rpc (.transferEvents block watcher.metadata)).attempt with
    | .error _ => return .rotate watched_accounts
    | .ok events =>
      let now ← Job.now
      let invoices ← Job.iterate watched_accounts
      let id_remove_list ← checkInvoices watcher block events now invoices.entries
      return .serve watcher (removeAll watched_accounts id_remove_list)

/-! ## The task -/

/-- Where the task is: at the head of the loop over the endpoints, in a program, waiting for a
request, or at its end.  A program is kept with what was said since it started. -/
inductive TrackerPc (lib : Libraries)
  | rotate
  | busy (said : Trace (TrackerSig lib))
      (job : Prog (TrackerSig lib) (Except Stop (Continuation lib)))
  | serve (watcher : ChainWatcher lib)
  | ended (result : Except Stop Unit)

/-- Whether the task waits for a request. -/
def TrackerPc.serving : TrackerPc lib → Bool
  | .serve _ => true
  | _ => false

theorem TrackerPc.serving_iff {pc : TrackerPc lib} :
    pc.serving = true ↔ ∃ watcher, pc = .serve watcher := by
  cases pc with
  | serve watcher => exact iff_of_true rfl ⟨watcher, rfl⟩
  | rotate | busy | ended =>
    refine iff_of_false (fun h => by cases h) ?_
    rintro ⟨watcher, h⟩
    cases h

structure Tracker (lib : Libraries) where
  watched_accounts : WatchedAccounts
  shutdown : Bool
  /-- How many endpoints were taken. -/
  turn : ℕ
  pc : TrackerPc lib

namespace Tracker

/-- The task when it is spawned. -/
def start : Tracker lib := ⟨∅, false, 0, .rotate⟩

/-- The end of the task, which drops the watch list. -/
def finish (t : Tracker lib) (result : Except Stop Unit) : Tracker lib :=
  { t with watched_accounts := ∅, pc := .ended result }

/-- What follows a program. -/
def settle (t : Tracker lib) : Except Stop (Continuation lib) → Tracker lib
  | .ok (.rotate watched_accounts) => { t with watched_accounts, pc := .rotate }
  | .ok (.serve watcher watched_accounts) => { t with watched_accounts, pc := .serve watcher }
  | .error stop => t.finish (.error stop)

/-- The `match` on a request. -/
def receive (t : Tracker lib) (watcher : ChainWatcher lib) : ChainTrackerRequest → Tracker lib
  | .newBlock number =>
    { t with pc := .busy [] (Kalatori.newBlock watcher t.watched_accounts number).run }
  | .watchAccount request =>
    { t with
      watched_accounts := t.watched_accounts.insert request.id (Invoice.fromRequest request) }
  | .reap _ => t
  | .shutdown => { t with shutdown := true, pc := .rotate }

/-- The watch list is there: the task has not ended. -/
def Alive (t : Tracker lib) : Prop := ∀ result, t.pc ≠ .ended result

end Tracker

/-- The endpoint that is next after some turns. -/
def Chain.endpoint (chain : Chain) (turn : ℕ) : Option String :=
  chain.endpoints[turn % chain.endpoints.length]?

/-- What a step of a tracker shows.  The end of a program shows all that was said in it. -/
inductive TrackerEvent (lib : Libraries)
  | stopped (cancelled : Bool)
  | turned
  | said (exchange : Exchange (TrackerSig lib))
  | settled (said : Trace (TrackerSig lib))
  | received (request : ChainTrackerRequest)
  | timedOut

/-- **The task of a tracker.** -/
inductive TrackerStep (chain : Chain) : Tracker lib → TrackerEvent lib → Tracker lib → Prop
  | stopped {t : Tracker lib} (cancelled : Bool) (h : t.pc = .rotate)
      (hs : t.shutdown ∨ cancelled ∨ chain.endpoint t.turn = none) :
      TrackerStep chain t (.stopped cancelled) (t.finish (.ok ()))
  | turned {t : Tracker lib} (endpoint : String) (h : t.pc = .rotate) (hs : t.shutdown = false)
      (he : chain.endpoint t.turn = some endpoint) :
      TrackerStep chain t .turned
        { t with
          turn := t.turn + 1
          pc := .busy [] (connect chain t.watched_accounts endpoint).run }
  | said {t : Tracker lib} {said : Trace (TrackerSig lib)} {o : TrackerOp lib}
      {k : (TrackerSig lib).Answer o → Prog (TrackerSig lib) (Except Stop (Continuation lib))}
      (answer : (TrackerSig lib).Answer o) (h : t.pc = .busy said (.call o k)) :
      TrackerStep chain t (.said ⟨o, answer⟩)
        { t with pc := .busy (said ++ [⟨o, answer⟩]) (k answer) }
  | settled {t : Tracker lib} {said : Trace (TrackerSig lib)}
      {result : Except Stop (Continuation lib)} (h : t.pc = .busy said (.done result)) :
      TrackerStep chain t (.settled said) (t.settle result)
  | received {t : Tracker lib} {watcher : ChainWatcher lib} (request : ChainTrackerRequest)
      (h : t.pc = .serve watcher) :
      TrackerStep chain t (.received request) (t.receive watcher request)
  | timedOut {t : Tracker lib} {watcher : ChainWatcher lib} (h : t.pc = .serve watcher) :
      TrackerStep chain t .timedOut { t with pc := .rotate }

end Kalatori
