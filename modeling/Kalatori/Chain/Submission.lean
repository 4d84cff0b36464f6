import Kalatori.Chain.PayoutDecision

/-!
# What a payout submits

A payout sends at most one extrinsic, as the last thing it does.  By then its
conversation has just one form, and `Submits` lists everything that has gone into
the extrinsic: the balance that was read, the decision, the transfer, the
transaction, and the signature that was asked for it.

* `payout_submits`: nothing else is ever sent.
-/

namespace Kalatori

open Program

variable {lib : Libraries}

/-- The signature, where the transaction has room for it. -/
def TransactionToFill.signed (transaction : TransactionToFill) (signature : Sr25519Signature) :
    TransactionToFill :=
  { transaction with signature := .specialType (.signatureSr25519 (some signature)) }

/-- The conversation of a payout when it is about to submit. -/
def submissionSaid (order : Invoice) (chain : ChainWatcher lib) (rpc : String)
    (block : BlockHash) (block_number : UInt32) (balance : Balance)
    (transaction : TransactionToFill) (sign_this : List UInt8) (signature : Sr25519Signature) :
    Trace (PayoutSig lib) :=
  balanceSaid order chain rpc block block_number balance ++
    [⟨.built chain.metadata block transaction, ()⟩, ⟨.sign order.id sign_this, .ok signature⟩]

/-- **How an extrinsic comes to be submitted.** -/
inductive Submits (con : Constructor lib.Metadata) (overflow_checks : Bool) (order : Invoice)
    (chain : ChainWatcher lib) : Trace (PayoutSig lib) → List UInt8 → Prop
  | intro (rpc : String) (block : BlockHash) (block_number : UInt32) (balance a : Balance)
      (currency : CurrencyProperties) (transfer : Transfer) (call : TypeToFill)
      (transaction : TransactionToFill) (sign_this : List UInt8) (signature : Sr25519Signature)
      (extrinsic : List UInt8) (hcurrency : chain.assets.lookup order.currency = some currency)
      (hdifference : difference overflow_checks balance order.amount = .ok a)
      (hdecision : decision a = .transfer)
      (htransfer : payoutTransfer order currency = .ok transfer)
      (hcall : transfer.construct con chain.metadata = .ok call)
      (htransaction : constructBatchTransaction con chain.metadata chain.genesis_hash
        order.address [call] block block_number 0 = .ok transaction)
      (hsign : con.signThis transaction = some sign_this)
      (hextrinsic : con.sendThisSigned chain.metadata (transaction.signed signature) =
        .ok (some extrinsic)) :
      Submits con overflow_checks order chain
        (submissionSaid order chain rpc block block_number balance transaction sign_this signature)
        extrinsic

/-- What is sent has come about so. -/
def SubmitsOnly (con : Constructor lib.Metadata) (overflow_checks : Bool) (order : Invoice)
    (chain : ChainWatcher lib) (said : Trace (PayoutSig lib)) (o : PayoutOp lib) : Prop :=
  ∀ extrinsic, o = .rpc (.sendStuff extrinsic) →
    Submits con overflow_checks order chain said extrinsic

/-- An operation that submits an extrinsic. -/
def PayoutOp.submits : PayoutOp lib → Bool
  | .rpc (.sendStuff _) => true
  | .rpc (.build _) | .rpc .head | .rpc (.currentBlockNumber _ _) | .rpc (.balance _ _ _)
  | .built .. | .sign .. => false

/-- An extrinsic was submitted in a conversation. -/
def submitted (said : Trace (PayoutSig lib)) : Bool := said.any fun exchange => exchange.1.submits

theorem submitted_snoc (said : Trace (PayoutSig lib)) (exchange : Exchange (PayoutSig lib)) :
    submitted (said ++ [exchange]) = (submitted said || exchange.1.submits) := by
  rw [submitted, List.any_append, List.any_cons, List.any_nil, Bool.or_false]
  rfl

variable {con : Constructor lib.Metadata} {overflow_checks : Bool} {order : Invoice}
  {chain : ChainWatcher lib}

/-- Nothing was submitted before. -/
theorem Submits.first {said : Trace (PayoutSig lib)} {extrinsic : List UInt8}
    (h : Submits con overflow_checks order chain said extrinsic) : submitted said = false := by
  cases h with
  | intro => rfl

theorem signAndSend_submits {rpc : String} {block : BlockHash} {block_number : UInt32}
    {balance a : Balance} {currency : CurrencyProperties} {transfer : Transfer}
    (hcurrency : chain.assets.lookup order.currency = some currency)
    (hdifference : difference overflow_checks balance order.amount = .ok a)
    (hdecision : decision a = .transfer)
    (htransfer : payoutTransfer order currency = .ok transfer) :
    Prog.Holds (SubmitsOnly con overflow_checks order chain) (fun _ _ => True)
      (balanceSaid order chain rpc block block_number balance)
      (signAndSend con order chain block block_number transfer).run := by
  unfold signAndSend
  refine holds_orStop_bind (fun _ _ => trivial) fun call hcall => ?_
  refine holds_orStop_bind (fun _ _ => trivial) fun transaction htransaction => ?_
  rw [Prog.holds_run_bind, holds_built]
  refine ⟨nofun, fun _ => ?_⟩
  simp only
  cases hsign : con.signThis transaction with
  | none => trivial
  | some sign_this =>
    simp only
    rw [Prog.holds_run_bind, holds_sign]
    refine ⟨nofun, fun answer => ?_⟩
    cases answer with
    | error e => trivial
    | ok signature =>
      refine holds_orStop_bind (fun _ _ => trivial) fun extrinsic hextrinsic => ?_
      cases extrinsic with
      | none => trivial
      | some extrinsic =>
        refine ⟨?_, fun _ => trivial⟩
        rintro _ ⟨⟩
        exact .intro rpc block block_number balance a currency transfer call transaction sign_this
          signature extrinsic hcurrency hdifference hdecision htransfer hcall htransaction hsign
          hextrinsic

/-- **A payout submits nothing but the signed transfer of its order.** -/
theorem payout_submits (rpc : String) :
    Prog.Holds (SubmitsOnly con overflow_checks order chain) (fun _ _ => True) []
      (payout con overflow_checks rpc order chain).run := by
  unfold payout
  rw [Prog.holds_run_bind]
  refine ⟨nofun, fun answer => ?_⟩
  match answer with
  | .error .panicked | .error (.failed _) => exact trivial
  | .ok () =>
    refine holds_payoutRpc_bind nofun (fun _ => trivial) fun block => ?_
    refine holds_payoutRpc_bind nofun (fun _ => trivial) fun block_number => ?_
    refine holds_payoutRpc_bind nofun (fun _ => trivial) fun balance => ?_
    cases hcurrency : chain.assets.lookup order.currency with
    | none => trivial
    | some currency =>
      refine holds_of_bind (fun _ _ => trivial) fun a hdifference => ?_
      cases hdecision : decision a with
      | overpaid | outOfRange => trivial
      | transfer =>
        refine holds_orStop_bind (fun _ _ => trivial) fun transfer htransfer => ?_
        exact signAndSend_submits hcurrency hdifference hdecision htransfer

end Kalatori
