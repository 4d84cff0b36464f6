import Kalatori.Error
import Kalatori.Json

/-!
# Common objects of the chain modules

The messages between the state handler, the chain manager and the trackers, the
invoices that a tracker watches, and what a tracker learns from a node.

What the libraries compute is collected in `Libraries`, a parameter of the
model: addresses in base 58, and the decoded metadata of a chain, of which
nothing is known here but how to find the name of its runtime.
-/

namespace Kalatori

/-- What the daemon takes from its libraries. -/
structure Libraries where
  /-- The arithmetic of `f64`. -/
  arithmetic : Arithmetic
  /-- `AccountId32::from_base58_string`, without the prefix it also returns. -/
  fromBase58String : String → Option AccountId32
  /-- `to_base58_string` -/
  toBase58String : AccountId32 → UInt16 → String
  /-- `RuntimeMetadataV15` -/
  Metadata : Type
  /-- The name in the version constant that `spec_name_version` decodes. -/
  specName : Metadata → Option String

/-- The account whose bytes are all zero. -/
def Sample.account : AccountId32 := ⟨Vector.replicate 32 0⟩

/-- Libraries for one account, and for metadata that are kept as the name of their runtime. -/
def Sample.libraries : Libraries where
  arithmetic := .exact
  fromBase58String s :=
    if s = "111111111111111111111111111111111HC1" ∨
      s = "CaKWz5omakTK7ovp4m3koXrHyHb7NG3Nt7GENHbviByZpKp" then some Sample.account
    else none
  toBase58String _ ss58 :=
    if ss58 = 0 then "111111111111111111111111111111111HC1"
    else "CaKWz5omakTK7ovp4m3koXrHyHb7NG3Nt7GENHbviByZpKp"
  Metadata := String
  specName := some

/-! ## Messages -/

/-- The two tasks that call `ChainManager::add_invoice`; the state handler also calls `reap`.
Either waits for the answer to one call before it makes the next, so its name stands for the
sender of the answer that a request carries. -/
inductive Requester
  | stateHandler
  | restore
  deriving DecidableEq

structure WatchAccount where
  id : String
  address : AccountId32
  currency : String
  amount : Balance
  recipient : AccountId32
  res : Requester
  death : Timestamp
  deriving DecidableEq

/-- `WatchAccount::new` -/
def WatchAccount.new (lib : Libraries) (id : String) (order : OrderInfo) (recipient : AccountId32)
    (res : Requester) : Except ChainError WatchAccount :=
  match lib.fromBase58String order.payment_account with
  | none => .error .invoiceAccount
  | some address =>
    .ok {
      id := id
      address := address
      currency := order.currency.currency
      amount := Balance.parse lib.arithmetic order.amount order.currency.decimals
      recipient := recipient
      res := res
      death := order.death }

theorem WatchAccount.new_id {id : String} {order : OrderInfo} {recipient : AccountId32}
    {res : Requester} {w : WatchAccount} (h : WatchAccount.new lib id order recipient res = .ok w) :
    w.id = id := by
  unfold WatchAccount.new at h
  split at h
  · cases h
  · obtain rfl := Except.ok.inj h
    rfl

theorem WatchAccount.res_of_new {id : String} {order : OrderInfo} {recipient : AccountId32}
    {res : Requester} {w : WatchAccount} (h : WatchAccount.new lib id order recipient res = .ok w) :
    w.res = res := by
  rw [WatchAccount.new] at h
  split at h
  · cases h
  · rw [← Except.ok.inj h]

/-- A request to the chain manager. -/
inductive ChainRequest
  | watchAccount (request : WatchAccount)
  | reap (request : WatchAccount)
  | shutdown
  deriving DecidableEq

/-- A request to a tracker. -/
inductive ChainTrackerRequest
  | watchAccount (request : WatchAccount)
  | newBlock (number : String)
  | reap (request : WatchAccount)
  | shutdown
  deriving DecidableEq

/-- The account that a request is about, if it is one that is answered. -/
def ChainRequest.account : ChainRequest → Option WatchAccount
  | .watchAccount request | .reap request => some request
  | .shutdown => none

def ChainTrackerRequest.account : ChainTrackerRequest → Option WatchAccount
  | .watchAccount request | .reap request => some request
  | .newBlock _ | .shutdown => none

structure Invoice where
  id : String
  address : AccountId32
  currency : String
  amount : Balance
  recipient : AccountId32
  death : Timestamp
  deriving DecidableEq

/-- `Invoice::from_request`, without the answer that it sends. -/
def Invoice.fromRequest (watch_account : WatchAccount) : Invoice where
  id := watch_account.id
  address := watch_account.address
  currency := watch_account.currency
  amount := watch_account.amount
  recipient := watch_account.recipient
  death := watch_account.death

/-- A request to the state handler.  Where an answer is expected, what waits for it is not a
part of the daemon, or does not matter to it. -/
inductive StateAccessRequest
  | connectChain (assets : HashMap String CurrencyProperties)
  | getInvoiceStatus (order : String)
  | createInvoice (order_query : OrderQuery)
  | isCurrencySupported (currency : String)
  | serverStatus
  | orderPaid (order : String)
  deriving DecidableEq

/-! ## What a tracker learns from a node -/

/-- The hash of a block. -/
structure BlockHash where
  bytes : Vector UInt8 32
  deriving DecidableEq

/-- `substrate_parser::ShortSpecs` -/
structure ShortSpecs where
  base58prefix : UInt16
  decimals : Decimals
  unit : String
  deriving DecidableEq

/-- `substrate_parser::cards::ParsedData`, with the cases that the daemon looks into, and the
unsigned integers of every width.  Of one of 128 bits it also looks at whether it is marked as a
balance. -/
inductive ParsedData
  | text (text : String)
  | bytes (bytes : List UInt8)
  | primitiveBool (value : Bool)
  | primitiveU8 (value : UInt8)
  | primitiveU16 (value : UInt16)
  | primitiveU32 (value : UInt32)
  | primitiveU64 (value : UInt64)
  | primitiveU128 (value : BitVec 128) (balance : Bool)
  | primitiveU256 (value : BitVec 256)
  | id (account : AccountId32)
  | composite (fields : List (Option String × ParsedData))
  | sequenceRaw (data : List ParsedData)
  | event (pallet_name variant_name : String) (fields : List (Option String × ParsedData))
  | other

/-- A named field of a composite value. -/
abbrev FieldData := Option String × ParsedData

/-- `substrate_parser::cards::Event` -/
structure Event where
  pallet_name : String
  variant_name : String
  fields : List FieldData

/-- What a tracker knows about the chain it follows. -/
structure ChainWatcher (lib : Libraries) where
  genesis_hash : BlockHash
  metadata : lib.Metadata
  specs : ShortSpecs
  assets : HashMap String CurrencyProperties
  version : Json

/-- The loop of `was_balance_received_at_account`: the receiver that the fields name, if just
one of them does. -/
def foundReceiver : Option AccountId32 → List FieldData → Option AccountId32
  | found_receiver, [] => found_receiver
  | found_receiver, (field_name, data) :: fields =>
    match field_name, data with
    | some "to", .id account =>
      if found_receiver.isNone then foundReceiver (some account) fields else none
    | _, _ => foundReceiver found_receiver fields

/-- `was_balance_received_at_account` -/
def wasBalanceReceivedAtAccount (known_account : AccountId32) (fields : List FieldData) : Bool :=
  match foundReceiver none fields with
  | some receiver => receiver = known_account
  | none => false

end Kalatori
