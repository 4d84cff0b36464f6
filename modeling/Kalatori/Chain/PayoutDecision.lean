import Kalatori.Chain.Payout

/-!
# The decision of a payout

A payout subtracts the amount of the order from the balance it has just read, and
goes by the difference.  Both numbers are below `2 ^ 128`, and nothing says that
the first is the larger one: the balance is read anew, and the amount may be
anything that a record can hold.

The last arm of the `match` is there for a balance that is out of range.  A
balance below the amount does not get that far in a build that checks for
overflows, and in one that does not it becomes a large difference, or a small one
where the amount is close to `2 ^ 128`; then a transfer is built that the account
cannot pay.

* `payout_after`: what a payout goes on with once the balance is known.
* `decision_eq_transfer_iff`: the difference that leads to a transfer.
* `payoutExact_iff`: the decision is exact for the balances that cover the amount.
-/

namespace Kalatori

open Program

section Decisions

variable {lib : Libraries} (con : Constructor lib.Metadata) (overflow_checks : Bool)
  (order : Invoice) (chain : ChainWatcher lib)

/-- The branch of a payout that builds a transfer. -/
def transferBranch (currency : CurrencyProperties) (block : BlockHash) (block_number : UInt32) :
    Paying lib Unit := do
  let transfer ← Paying.orStop (payoutTransfer order currency)
  signAndSend con order chain block block_number transfer

/-- The conversation of a payout up to the answer with the balance. -/
def balanceSaid (rpc : String) (block : BlockHash) (block_number : UInt32) (balance : Balance) :
    Trace (PayoutSig lib) :=
  [⟨.rpc (.build rpc), .ok ()⟩, ⟨.rpc .head, .ok block⟩,
    ⟨.rpc (.currentBlockNumber chain.metadata block), .ok block_number⟩,
    ⟨.rpc (.balance chain order block), .ok balance⟩]

/-- **The decision of a payout is exact**, for the balance that it was told. -/
structure PayoutExact (rpc : String) (currency : CurrencyProperties) (block : BlockHash)
    (block_number : UInt32) (balance : Balance) : Prop where
  /-- No arithmetic overflows or panics. -/
  difference : ∃ a, difference overflow_checks balance order.amount = .ok a ∧
    (a.toNat : ℤ) = (balance.toNat : ℤ) - order.amount.toNat
  /-- It goes on to build a transfer if the balance covers the amount, and not by too much. -/
  transfer : Prog.After (payout con overflow_checks rpc order chain).run
      (balanceSaid order chain rpc block block_number balance)
      (transferBranch con order chain currency block block_number).run ↔
    order.amount.toNat ≤ balance.toNat ∧ balance.toNat - order.amount.toNat ≤ 10000
  /-- In every other case it returns. -/
  returns : ¬(order.amount.toNat ≤ balance.toNat ∧
      balance.toNat - order.amount.toNat ≤ 10000) →
    Prog.After (payout con overflow_checks rpc order chain).run
      (balanceSaid order chain rpc block block_number balance) (.done (.ok ()))

/-- What a payout goes on with once the balance is known. -/
def afterBalance (currency : CurrencyProperties) (block : BlockHash) (block_number : UInt32)
    (balance : Balance) : Paying lib Unit := do
  let a ← Paying.of (Kalatori.difference overflow_checks balance order.amount)
  match decision a with
  | .transfer => transferBranch con order chain currency block block_number
  | .overpaid | .outOfRange => return

variable {con overflow_checks order chain} {currency : CurrencyProperties} {rpc : String}
  {block : BlockHash} {block_number : UInt32} {balance : Balance}

theorem payout_after (hcurrency : chain.assets.lookup order.currency = some currency) :
    Prog.After (payout con overflow_checks rpc order chain).run
      (balanceSaid order chain rpc block block_number balance)
      (afterBalance con overflow_checks order chain currency block block_number balance).run := by
  refine Prog.After.call (S := PayoutSig lib) _ ?_
  refine Prog.After.call (S := PayoutSig lib) _ ?_
  refine Prog.After.call (S := PayoutSig lib) _ ?_
  refine Prog.After.call (S := PayoutSig lib) _ ?_
  rw [hcurrency]
  exact .refl _

/-- It goes on with nothing else. -/
theorem payout_after_iff (hcurrency : chain.assets.lookup order.currency = some currency)
    {rest : Prog (PayoutSig lib) (Except Stop Unit)} :
    Prog.After (payout con overflow_checks rpc order chain).run
      (balanceSaid order chain rpc block block_number balance) rest ↔
      rest =
        (afterBalance con overflow_checks order chain currency block block_number balance).run :=
  ⟨fun h => h.unique (payout_after hcurrency), fun h => h ▸ payout_after hcurrency⟩

/-! ## The three ways on -/

theorem decision_eq_transfer_iff (a : Balance) : decision a = .transfer ↔ a.toNat ≤ 10000 := by
  have htolerance : loss_tolerance.toNat = 10000 := rfl
  have hzero : (0 : Balance) ≤ a := BitVec.le_def.mpr (Nat.zero_le _)
  rw [decision, ← htolerance, ← BitVec.le_def]
  split_ifs with h h'
  · exact iff_of_true rfl h.2
  · exact iff_of_false nofun fun hle => h ⟨hzero, hle⟩
  · exact iff_of_false nofun fun hle => h ⟨hzero, hle⟩

theorem run_afterBalance_of_transfer {a : Balance}
    (hd : Kalatori.difference overflow_checks balance order.amount = .ok a)
    (ha : decision a = .transfer) :
    (afterBalance con overflow_checks order chain currency block block_number balance).run =
      (transferBranch con order chain currency block block_number).run := by
  rw [afterBalance, hd]
  show (match decision a with
    | .transfer => transferBranch con order chain currency block block_number
    | .overpaid | .outOfRange => pure ()).run = _
  rw [ha]

theorem run_afterBalance_of_ne {a : Balance}
    (hd : Kalatori.difference overflow_checks balance order.amount = .ok a)
    (ha : decision a ≠ .transfer) :
    (afterBalance con overflow_checks order chain currency block block_number balance).run =
      .done (.ok ()) := by
  rw [afterBalance, hd]
  show (match decision a with
    | .transfer => transferBranch con order chain currency block block_number
    | .overpaid | .outOfRange => pure ()).run = _
  cases hdecision : decision a with
  | transfer => exact absurd hdecision ha
  | overpaid | outOfRange => rfl

/-- The branch of the transfer does not return without a transaction that was built. -/
theorem transferBranch_ne :
    (transferBranch con order chain currency block block_number).run ≠ .done (.ok ()) := by
  have hbuilt : Prog.Holds (fun _ _ => True) (fun said result => result = .ok () → said ≠ []) []
      (transferBranch con order chain currency block block_number).run := by
    unfold transferBranch signAndSend
    refine holds_orStop_bind (fun _ _ => nofun) fun transfer _ => ?_
    refine holds_orStop_bind (fun _ _ => nofun) fun call _ => ?_
    refine holds_orStop_bind (fun _ _ => nofun) fun transaction _ => ?_
    rw [Prog.holds_run_bind, holds_built]
    refine ⟨trivial, fun _ => (Prog.holds_true _ _).grows.mono (fun _ _ _ => trivial) ?_⟩
    rintro said _ ⟨hbegins, -⟩ _ rfl
    exact List.append_ne_nil_of_right_ne_nil _ (List.cons_ne_nil _ _)
      (List.prefix_nil.mp hbegins)
  intro heq
  rw [heq] at hbuilt
  exact hbuilt rfl rfl

/-! ## When the decision is exact -/

theorem difference_exact_iff (overflow_checks : Bool) (balance amount : Balance) :
    (∃ a, Kalatori.difference overflow_checks balance amount = .ok a ∧
      (a.toNat : ℤ) = (balance.toNat : ℤ) - amount.toNat) ↔ amount.toNat ≤ balance.toNat := by
  constructor
  · rintro ⟨a, -, ha⟩
    omega
  · intro hle
    refine ⟨balance - amount, ?_, ?_⟩
    · rw [Kalatori.difference, if_neg]
      rintro ⟨-, hlt⟩
      exact absurd (BitVec.lt_def.mp hlt) (not_lt.mpr hle)
    · rw [BitVec.toNat_sub_of_le (BitVec.le_def.mpr hle)]
      omega

/-- A balance that covers the amount is decided on exactly. -/
theorem payoutExact_of_le (hcurrency : chain.assets.lookup order.currency = some currency)
    (hle : order.amount.toNat ≤ balance.toNat) :
    PayoutExact con overflow_checks order chain rpc currency block block_number balance := by
  have hdifference := (difference_exact_iff overflow_checks balance order.amount).mpr hle
  obtain ⟨a, hd, ha⟩ := hdifference
  have hrange : decision a = .transfer ↔
      order.amount.toNat ≤ balance.toNat ∧ balance.toNat - order.amount.toNat ≤ 10000 := by
    rw [decision_eq_transfer_iff]
    omega
  refine ⟨⟨a, hd, ha⟩, ?_, fun hout => ?_⟩
  · rw [payout_after_iff hcurrency, ← hrange]
    by_cases htransfer : decision a = .transfer
    · exact iff_of_true (run_afterBalance_of_transfer hd htransfer).symm htransfer
    · refine iff_of_false (fun heq => ?_) htransfer
      rw [run_afterBalance_of_ne hd htransfer] at heq
      exact transferBranch_ne heq
  · rw [← hrange] at hout
    rw [payout_after_iff hcurrency, run_afterBalance_of_ne hd hout]

/-- A balance below the amount stops a build that checks for overflows. -/
theorem run_afterBalance_of_underflow (hlt : balance.toNat < order.amount.toNat) :
    (afterBalance con true order chain currency block block_number balance).run =
      .done (.error .panicked) := by
  have hd : Kalatori.difference true balance order.amount = .error .panicked := by
    rw [Kalatori.difference, if_pos ⟨rfl, BitVec.lt_def.mpr hlt⟩]
  rw [afterBalance, hd]
  rfl

/-- In one that does not check, it is paid out if the amount is close enough to `2 ^ 128`. -/
theorem run_afterBalance_of_wraps
    (hclose : 2 ^ 128 + balance.toNat - order.amount.toNat ≤ 10000) :
    (afterBalance con false order chain currency block block_number balance).run =
      (transferBranch con order chain currency block block_number).run := by
  have hd : Kalatori.difference false balance order.amount = .ok (balance - order.amount) := by
    rw [Kalatori.difference, if_neg (fun h => nomatch h.1)]
  refine run_afterBalance_of_transfer hd ((decision_eq_transfer_iff _).mpr ?_)
  rw [BitVec.toNat_sub]
  omega

/-- **When the decision of a payout is exact**: the balance covers the amount. -/
theorem payoutExact_iff (hcurrency : chain.assets.lookup order.currency = some currency) :
    PayoutExact con overflow_checks order chain rpc currency block block_number balance ↔
      order.amount.toNat ≤ balance.toNat :=
  ⟨fun h => (difference_exact_iff overflow_checks balance order.amount).mp h.difference,
    payoutExact_of_le hcurrency⟩

end Decisions

namespace Sample

def dotProperties : CurrencyProperties := ⟨"polkadot", .native, 10, "wss://node", none, 0⟩

/-- What is known of a chain whose only currency is its native one. -/
def dotChain : ChainWatcher libraries where
  genesis_hash := ⟨Vector.replicate 32 0⟩
  metadata := "polkadot"
  specs := ⟨0, 10, "DOT"⟩
  assets := AList.singleton "DOT" dotProperties
  version := .null

/-- An invoice for an amount in that currency. -/
def dotInvoice (amount : Balance) : Invoice := ⟨"order", account, "DOT", amount, account, 0⟩

end Sample

/-- A balance that is too large by the tolerance. -/
theorem payoutExact_iff_tolerated :
    PayoutExact (Sample.constructor _ true) false (Sample.dotInvoice 5)
      Sample.dotChain "wss://node" Sample.dotProperties ⟨Vector.replicate 32 0⟩ 1 10005 :=
  (payoutExact_iff rfl).mpr (by decide)

/-- **A balance of nothing.**  For the largest amount, a build that does not check for overflows
goes on to build a transfer; for the smallest, one that does panics. -/
theorem empty_account_not_exact :
    (¬PayoutExact (Sample.constructor _ true) false (Sample.dotInvoice (BitVec.allOnes 128))
        Sample.dotChain "wss://node" Sample.dotProperties ⟨Vector.replicate 32 0⟩ 1 0 ∧
      Prog.After (payout (Sample.constructor _ true) false "wss://node"
          (Sample.dotInvoice (BitVec.allOnes 128)) Sample.dotChain).run
        (balanceSaid (Sample.dotInvoice (BitVec.allOnes 128)) Sample.dotChain "wss://node"
          ⟨Vector.replicate 32 0⟩ 1 0)
        (transferBranch (Sample.constructor _ true) (Sample.dotInvoice (BitVec.allOnes 128))
          Sample.dotChain Sample.dotProperties ⟨Vector.replicate 32 0⟩ 1).run) ∧
    ¬PayoutExact (Sample.constructor _ true) true (Sample.dotInvoice 1)
        Sample.dotChain "wss://node" Sample.dotProperties ⟨Vector.replicate 32 0⟩ 1 0 ∧
      Prog.After (payout (Sample.constructor _ true) true "wss://node" (Sample.dotInvoice 1)
          Sample.dotChain).run
        (balanceSaid (Sample.dotInvoice 1) Sample.dotChain "wss://node"
          ⟨Vector.replicate 32 0⟩ 1 0)
        (.done (.error .panicked)) := by
  have hcurrency : ∀ amount,
      Sample.dotChain.assets.lookup (Sample.dotInvoice amount).currency =
        some Sample.dotProperties := fun _ => rfl
  refine ⟨⟨fun h => ?_, ?_⟩, fun h => ?_, ?_⟩
  · exact absurd ((difference_exact_iff ..).mp h.difference) (by decide)
  · rw [payout_after_iff (hcurrency _)]
    exact (run_afterBalance_of_wraps (by decide)).symm
  · exact absurd ((difference_exact_iff ..).mp h.difference) (by decide)
  · rw [payout_after_iff (hcurrency _)]
    exact (run_afterBalance_of_underflow (by decide)).symm

end Kalatori
