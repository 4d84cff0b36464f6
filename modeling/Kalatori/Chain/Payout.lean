import Kalatori.Chain.Tracker
import Kalatori.Chain.Transaction

/-!
# The payout engine

The task that a tracker spawns for a request to reap: it asks a node for the
newest block and for what the payment account holds there, builds the transfer
to the recipient, has it signed, and sends it.  It is a program over the
operations `PayoutOp`, the calls of the RPC module and the one of the signer.

That a transaction has been built is an operation as well, one that does
nothing: it marks with what and for which block it was done.

* `Decision`: what is done with a difference of balance and amount.
* `payout`: the program.
* `Pays`, `payout_pays`: all that it does, given what was said before.
-/

namespace Kalatori

open Program

variable {lib : Libraries}

/-! ## The operations -/

/-- The functions of the RPC module that a payout calls.  `head` is `block_hash` without a
number; what is sent is written in hexadecimal. -/
inductive PayoutCall (lib : Libraries)
  | build (rpc : String)
  | head
  | currentBlockNumber (metadata : lib.Metadata) (block : BlockHash)
  | balance (chain : ChainWatcher lib) (order : Invoice) (block : BlockHash)
  | sendStuff (extrinsic : List UInt8)

abbrev PayoutCall.Result : PayoutCall lib → Type
  | build _ | sendStuff _ => Unit
  | head => BlockHash
  | currentBlockNumber .. => UInt32
  | balance .. => Balance

inductive PayoutOp (lib : Libraries)
  | rpc (call : PayoutCall lib)
  | built (metadata : lib.Metadata) (block : BlockHash) (transaction : TransactionToFill)
  | sign (id : String) (sign_this : List UInt8)

abbrev PayoutSig (lib : Libraries) : Signature where
  Op := PayoutOp lib
  Answer
    | .rpc call => Except Stop call.Result
    | .built .. => Unit
    | .sign .. => Except SignerError Sr25519Signature

/-- A program of the payout engine. -/
abbrev Paying (lib : Libraries) := ExceptT Stop (Prog (PayoutSig lib))

namespace Paying

def rpc (call : PayoutCall lib) : Paying lib call.Result :=
  ExceptT.mk (Prog.perform (S := PayoutSig lib) (.rpc call))

/-- `WsClientBuilder::build`, with whether there is a client. -/
def connected (rpc : String) : Paying lib Bool :=
  ExceptT.mk (Prog.perform (S := PayoutSig lib) (.rpc (.build rpc)) >>= fun result =>
    match result with
    | .ok () => pure (.ok true)
    | .error (.failed _) => pure (.ok false)
    | .error .panicked => pure (.error .panicked))

def built (metadata : lib.Metadata) (block : BlockHash) (transaction : TransactionToFill) :
    Paying lib Unit :=
  ExceptT.lift (Prog.perform (S := PayoutSig lib) (.built metadata block transaction))

/-- `Signer::sign`, with `?` on its result. -/
def sign (id : String) (sign_this : List UInt8) : Paying lib Sr25519Signature :=
  ExceptT.mk (Prog.perform (S := PayoutSig lib) (.sign id sign_this) >>= fun result =>
    pure (result.mapError fun e => .failed (.signer e)))

/-- A result that is at hand. -/
def of {α : Type} (result : Except Stop α) : Paying lib α := ExceptT.mk (pure result)

/-- A result of a library, with `?`. -/
def orStop {α : Type} (result : Except ChainError α) : Paying lib α :=
  of (result.mapError .failed)

end Paying

/-! ## The decision -/

inductive Decision
  | transfer
  | overpaid
  | outOfRange
  deriving DecidableEq

def loss_tolerance : Balance := 10000
def manual_intervention_amount : Balance := 1000000000000

/-- The `match` on the difference. -/
def decision (a : Balance) : Decision :=
  if 0 ≤ a ∧ a ≤ loss_tolerance then .transfer
  else if loss_tolerance ≤ a ∧ a ≤ manual_intervention_amount then .overpaid
  else .outOfRange

/-- `balance.0 - order.amount.0`.  A difference below zero stops a build that checks for
overflows, and wraps around in one that does not. -/
def difference (overflow_checks : Bool) (balance amount : Balance) : Except Stop Balance :=
  if overflow_checks ∧ balance < amount then .error .panicked else .ok (balance - amount)

/-- The transfer for a currency. -/
def payoutTransfer (order : Invoice) (currency : CurrencyProperties) :
    Except ChainError Transfer :=
  match currency.kind with
  | .native => .ok (.native order.amount order.recipient)
  | .asset =>
    match currency.asset_id with
    | some asset_id => .ok (.asset ⟨asset_id, order.amount, order.recipient⟩)
    | none => .error .assetId

/-! ## The program -/

section Program

variable (con : Constructor lib.Metadata) (overflow_checks : Bool)

/-- The rest of a payout, when it is known what is to be transferred. -/
def signAndSend (order : Invoice) (chain : ChainWatcher lib) (block : BlockHash)
    (block_number : UInt32) (transfer : Transfer) : Paying lib Unit := do
  let call ← Paying.orStop (transfer.construct con chain.metadata)
  let batch_transaction ← Paying.orStop (constructBatchTransaction con chain.metadata
    chain.genesis_hash order.address [call] block block_number 0)
  Paying.built chain.metadata block batch_transaction
  match con.signThis batch_transaction with
  | none => throw (.failed .transactionNotSignable)
  | some sign_this =>
    let signature ← Paying.sign order.id sign_this
    let batch_transaction := { batch_transaction with
      signature := .specialType (.signatureSr25519 (some signature)) }
    match ← Paying.orStop (con.sendThisSigned chain.metadata batch_transaction) with
    | none => throw (.failed .nothingToSend)
    | some extrinsic => Paying.rpc (.sendStuff extrinsic)

/-- `payout` -/
def payout (rpc : String) (order : Invoice) (chain : ChainWatcher lib) : Paying lib Unit := do
  if ← Paying.connected rpc then
    let block ← Paying.rpc .head
    let block_number ← Paying.rpc (.currentBlockNumber chain.metadata block)
    let balance ← Paying.rpc (.balance chain order block)
    match chain.assets.lookup order.currency with
    | none => throw (.failed (.invalidCurrency order.currency))
    | some currency =>
      let a ← Paying.of (difference overflow_checks balance order.amount)
      match decision a with
      | .transfer =>
        let transfer ← Paying.orStop (payoutTransfer order currency)
        signAndSend con order chain block block_number transfer
      | .overpaid | .outOfRange => return

end Program

/-! ## What it does -/

variable {con : Constructor lib.Metadata} {overflow_checks : Bool} {order : Invoice}
  {chain : ChainWatcher lib}

/-- A transaction that a payout builds for a block: the account of the order is its author. -/
def Built (con : Constructor lib.Metadata) (order : Invoice) (chain : ChainWatcher lib)
    (block : BlockHash) (transaction : TransactionToFill) : Prop :=
  ∃ call block_number, constructBatchTransaction con chain.metadata chain.genesis_hash
    order.address [call] block block_number 0 = .ok transaction

/-- **What a payout does**, after what was said.  It reads from and builds for the block that it
was told to be the newest, with the metadata of its watcher. -/
inductive Pays (con : Constructor lib.Metadata) (order : Invoice) (chain : ChainWatcher lib)
    (said : Trace (PayoutSig lib)) : PayoutOp lib → Prop
  | build (rpc : String) : Pays con order chain said (.rpc (.build rpc))
  | head : Pays con order chain said (.rpc .head)
  | currentBlockNumber (block : BlockHash) (hb : ⟨.rpc .head, .ok block⟩ ∈ said) :
      Pays con order chain said (.rpc (.currentBlockNumber chain.metadata block))
  | balance (block : BlockHash) (hb : ⟨.rpc .head, .ok block⟩ ∈ said) :
      Pays con order chain said (.rpc (.balance chain order block))
  | built (block : BlockHash) (transaction : TransactionToFill)
      (hb : ⟨.rpc .head, .ok block⟩ ∈ said) (ht : Built con order chain block transaction) :
      Pays con order chain said (.built chain.metadata block transaction)
  | sign (block : BlockHash) (transaction : TransactionToFill) (sign_this : List UInt8)
      (hb : said.getLast? = some ⟨.built chain.metadata block transaction, ()⟩)
      (ht : Built con order chain block transaction)
      (hs : con.signThis transaction = some sign_this) :
      Pays con order chain said (.sign order.id sign_this)
  | sendStuff (extrinsic : List UInt8) : Pays con order chain said (.rpc (.sendStuff extrinsic))

section Rules

variable {α : Type} {pre : Trace (PayoutSig lib) → PayoutOp lib → Prop}
  {said : Trace (PayoutSig lib)}

/-- A result that is at hand is used, unless it is a stop. -/
theorem holds_of_bind {β : Type} {post : Trace (PayoutSig lib) → Except Stop α → Prop}
    {result : Except Stop β} {next : β → Paying lib α}
    (hstop : ∀ stop, result = .error stop → post said (.error stop))
    (hnext : ∀ b, result = .ok b → Prog.Holds pre post said (next b).run) :
    Prog.Holds pre post said (Paying.of result >>= next).run := by
  cases result with
  | error stop => exact hstop stop rfl
  | ok b => exact hnext b rfl

theorem holds_orStop_bind {β : Type} {post : Trace (PayoutSig lib) → Except Stop α → Prop}
    {result : Except ChainError β} {next : β → Paying lib α}
    (hstop : ∀ e, result = .error e → post said (.error (.failed e)))
    (hnext : ∀ b, result = .ok b → Prog.Holds pre post said (next b).run) :
    Prog.Holds pre post said (Paying.orStop result >>= next).run := by
  cases result with
  | error e => exact hstop e rfl
  | ok b => exact hnext b rfl

/-- A call of the RPC module, with what follows. -/
theorem holds_payoutRpc_bind {call : PayoutCall lib} {next : call.Result → Paying lib α}
    {post : Trace (PayoutSig lib) → Except Stop α → Prop} (hpre : pre said (.rpc call))
    (hstop : ∀ stop, post (said ++ [⟨.rpc call, .error stop⟩]) (.error stop))
    (hnext : ∀ a, Prog.Holds pre post (said ++ [⟨.rpc call, .ok a⟩]) (next a).run) :
    Prog.Holds pre post said (Paying.rpc call >>= next).run := by
  rw [Prog.holds_run_bind]
  refine ⟨hpre, fun answer => ?_⟩
  cases answer with
  | error stop => exact hstop stop
  | ok a => exact hnext a

theorem holds_built (metadata : lib.Metadata) (block : BlockHash)
    (transaction : TransactionToFill)
    {post : Trace (PayoutSig lib) → Except Stop Unit → Prop} :
    Prog.Holds pre post said (Paying.built metadata block transaction).run ↔
      pre said (.built metadata block transaction) ∧
        ∀ done : Unit, post (said ++ [⟨.built metadata block transaction, done⟩]) (.ok ()) :=
  Iff.rfl

theorem holds_sign (id : String) (sign_this : List UInt8)
    {post : Trace (PayoutSig lib) → Except Stop Sr25519Signature → Prop} :
    Prog.Holds pre post said (Paying.sign id sign_this : Paying lib _).run ↔
      pre said (.sign id sign_this) ∧ ∀ answer : Except SignerError Sr25519Signature,
        post (said ++ [⟨.sign id sign_this, answer⟩])
          (answer.mapError fun e => .failed (.signer e)) := Iff.rfl

end Rules

theorem signAndSend_pays {said : Trace (PayoutSig lib)} {block : BlockHash}
    {block_number : UInt32} {transfer : Transfer} (hb : ⟨.rpc .head, .ok block⟩ ∈ said) :
    Prog.Holds (Pays con order chain) (fun _ _ => True) said
      (signAndSend con order chain block block_number transfer).run := by
  unfold signAndSend
  refine holds_orStop_bind (fun _ _ => trivial) fun call _ => ?_
  refine holds_orStop_bind (fun _ _ => trivial) fun transaction ht => ?_
  have hbuilt : Built con order chain block transaction := ⟨call, block_number, ht⟩
  rw [Prog.holds_run_bind, holds_built]
  refine ⟨.built block transaction hb hbuilt, fun _ => ?_⟩
  simp only
  cases hs : con.signThis transaction with
  | none => trivial
  | some sign_this =>
    simp only
    rw [Prog.holds_run_bind, holds_sign]
    refine ⟨.sign block transaction sign_this List.getLast?_concat hbuilt hs, fun answer => ?_⟩
    cases answer with
    | error e => trivial
    | ok signature =>
      refine holds_orStop_bind (fun _ _ => trivial) fun extrinsic _ => ?_
      cases extrinsic with
      | none => trivial
      | some extrinsic => exact ⟨.sendStuff extrinsic, fun _ => trivial⟩

theorem payout_pays (rpc : String) :
    Prog.Holds (Pays con order chain) (fun _ _ => True) []
      (payout con overflow_checks rpc order chain).run := by
  unfold payout
  rw [Prog.holds_run_bind]
  refine ⟨.build rpc, fun answer => ?_⟩
  match answer with
  | .error .panicked | .error (.failed _) => exact trivial
  | .ok () =>
    refine holds_payoutRpc_bind .head (fun _ => trivial) fun block => ?_
    generalize hsaid : _ ++ [_] = said
    have hb : ⟨.rpc .head, .ok block⟩ ∈ said := by simp [← hsaid]
    refine holds_payoutRpc_bind (.currentBlockNumber block hb) (fun _ => trivial) fun number => ?_
    refine holds_payoutRpc_bind (.balance block (List.mem_append_left _ hb)) (fun _ => trivial)
      fun balance => ?_
    cases chain.assets.lookup order.currency with
    | none => trivial
    | some currency =>
      refine holds_of_bind (fun _ _ => trivial) fun a _ => ?_
      cases decision a with
      | overpaid | outOfRange => trivial
      | transfer =>
        refine holds_orStop_bind (fun _ _ => trivial) fun transfer _ => ?_
        exact signAndSend_pays (List.mem_append_left _ (List.mem_append_left _ hb))

end Kalatori
