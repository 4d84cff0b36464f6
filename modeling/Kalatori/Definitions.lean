import Mathlib.Data.List.AList
import Mathlib.Data.Rat.Floor
import Mathlib.Algebra.Order.Floor.Ring
import Mathlib.Tactic.Common

/-!
# Object definitions

The types of `definitions.rs`, with the functions that belong to them, and the
few types of the libraries that appear in their fields.

`f64` values are kept as their bits, which is also what a record stores of them;
`F64.toRat` is the number a finite one stands for.  The product that
`Balance::parse` rounds is an operation of the machine's arithmetic, so it is a
parameter (`Arithmetic`), and `Arithmetic.exact` is the one that does not round.
-/

namespace Kalatori

/-! ## Types of the libraries -/

/-- A `HashMap`.  Nothing is promised about the order of its entries. -/
abbrev HashMap (κ ν : Type) := AList fun _ : κ => ν

/-- Maps are compared by their entries. -/
instance {κ ν : Type} [DecidableEq κ] [DecidableEq ν] : DecidableEq (HashMap κ ν) := fun a b =>
  decidable_of_iff (a.entries = b.entries) AList.ext_iff.symm

/-- An order in which the entries of a map may be visited. -/
structure Enumeration {κ ν : Type} (map : HashMap κ ν) where
  entries : List (Σ _ : κ, ν)
  perm : entries.Perm map.entries

/-- The entries as the map has them. -/
def Enumeration.ofMap {κ ν : Type} (map : HashMap κ ν) : Enumeration map :=
  ⟨map.entries, .refl _⟩

/-- An `f64`, as its IEEE 754 bits. -/
structure F64 where
  bits : UInt64
  deriving DecidableEq

/-- The number a finite `f64` stands for.  An infinite one counts as the power of two that
its exponent names, and what is not a number counts as zero. -/
def F64.toRat (x : F64) : ℚ :=
  let n : ℕ := x.bits.toNat
  let exponent : ℕ := n / 2 ^ 52 % 2 ^ 11
  let fraction : ℕ := n % 2 ^ 52
  let magnitude : ℚ :=
    if exponent = 0 then mkRat fraction (2 ^ 1074)
    else if 1075 ≤ exponent then ((2 ^ 52 + fraction) * 2 ^ (exponent - 1075) : ℕ)
    else mkRat (2 ^ 52 + fraction : ℕ) (2 ^ (1075 - exponent))
  if exponent = 2 ^ 11 - 1 ∧ fraction ≠ 0 then 0
  else if n / 2 ^ 63 = 0 then magnitude
  else -magnitude

/-- `substrate_crypto_light::common::AccountId32`. -/
structure AccountId32 where
  bytes : Vector UInt8 32
  deriving DecidableEq

/-- Milliseconds since the Unix epoch. -/
abbrev Timestamp := UInt64

abbrev AssetId := UInt32
abbrev Decimals := UInt8
abbrev BlockNumber := UInt64
abbrev ExtrinsicIndex := UInt32

/-! ## Balances -/

/-- `Balance(u128)`; its order is that of the numbers. -/
abbrev Balance := BitVec 128

/-- How the machine multiplies: `product float decimals` is the value of
`float * 10f64.powi(decimals)`, a number out of the range of `u128` where that is infinite
and zero where it is not a number. -/
structure Arithmetic where
  product : F64 → Decimals → ℚ

/-- Arithmetic that does not round. -/
def Arithmetic.exact : Arithmetic := ⟨fun float decimals => float.toRat * 10 ^ decimals.toNat⟩

/-- `f64::round`: to the nearest integer, halves away from zero. -/
def roundHalfAway (q : ℚ) : ℤ := if 0 ≤ q then ⌊q + 1 / 2⌋ else ⌈q - 1 / 2⌉

/-- `Balance::parse`.  The cast to `u128` saturates at both ends. -/
def Balance.parse (arithmetic : Arithmetic) (float : F64) (decimals : Decimals) : Balance :=
  BitVec.ofNat 128 (min (roundHalfAway (arithmetic.product float decimals)).toNat (2 ^ 128 - 1))

/-! ## The configuration -/

structure NativeToken where
  name : String
  decimals : Decimals
  deriving DecidableEq

structure AssetInfo where
  name : String
  id : AssetId
  deriving DecidableEq

structure Chain where
  name : String
  endpoints : List String
  native_token : Option NativeToken
  asset : List AssetInfo
  deriving DecidableEq

/-! ## The schemas of the API -/

inductive TokenKind
  | asset
  | native
  deriving DecidableEq

inductive PaymentStatus
  | pending
  | paid
  deriving DecidableEq

inductive WithdrawalStatus
  | waiting
  | failed
  | completed
  deriving DecidableEq

structure CurrencyInfo where
  currency : String
  chain_name : String
  kind : TokenKind
  decimals : Decimals
  rpc_url : String
  asset_id : Option AssetId
  ss58 : UInt16
  deriving DecidableEq

structure CurrencyProperties where
  chain_name : String
  kind : TokenKind
  decimals : Decimals
  rpc_url : String
  asset_id : Option AssetId
  ss58 : UInt16
  deriving DecidableEq

/-- `CurrencyProperties::info`. -/
def CurrencyProperties.info (p : CurrencyProperties) (currency : String) : CurrencyInfo where
  currency := currency
  chain_name := p.chain_name
  kind := p.kind
  decimals := p.decimals
  rpc_url := p.rpc_url
  asset_id := p.asset_id
  ss58 := p.ss58

@[simp] theorem CurrencyProperties.info_currency (p : CurrencyProperties) (currency : String) :
    (p.info currency).currency = currency := rfl

structure FinalizedTx where
  block_number : BlockNumber
  position_in_block : ExtrinsicIndex
  timestamp : String
  deriving DecidableEq

inductive Amount
  | all
  | exact (amount : F64)
  deriving DecidableEq

inductive TxStatus
  | pending
  | finalized
  | failed
  deriving DecidableEq

structure TransactionInfo where
  finalized_tx : Option FinalizedTx
  transaction_bytes : String
  sender : String
  recipient : String
  amount : Amount
  currency : CurrencyInfo
  status : TxStatus
  deriving DecidableEq

structure OrderQuery where
  order : String
  amount : F64
  callback : String
  currency : String
  deriving DecidableEq

structure OrderInfo where
  withdrawal_status : WithdrawalStatus
  payment_status : PaymentStatus
  amount : F64
  currency : CurrencyInfo
  callback : String
  transactions : List TransactionInfo
  payment_account : String
  death : Timestamp
  deriving DecidableEq

/-- `OrderInfo::new`. -/
def OrderInfo.new (query : OrderQuery) (currency : CurrencyInfo) (payment_account : String)
    (death : Timestamp) : OrderInfo where
  withdrawal_status := .waiting
  payment_status := .pending
  amount := query.amount
  currency := currency
  callback := query.callback
  transactions := []
  payment_account := payment_account
  death := death

/-- What the order costs, in the smallest units of its currency. -/
def OrderInfo.price (arithmetic : Arithmetic) (info : OrderInfo) : Balance :=
  Balance.parse arithmetic info.amount info.currency.decimals

inductive OrderCreateResponse
  | new (info : OrderInfo)
  | modified (info : OrderInfo)
  | collision (info : OrderInfo)
  deriving DecidableEq

structure ServerInfo where
  version : String
  instance_id : String
  debug : Bool
  kalatori_remark : Option String
  deriving DecidableEq

structure ServerStatus where
  server_info : ServerInfo
  supported_currencies : HashMap String CurrencyProperties
  deriving DecidableEq

structure OrderStatus where
  order : String
  message : String
  recipient : String
  server_info : ServerInfo
  order_info : OrderInfo
  payment_page : String
  redirect_url : String
  deriving DecidableEq

inductive OrderResponse
  | newOrder (status : OrderStatus)
  | foundOrder (status : OrderStatus)
  | modifiedOrder (status : OrderStatus)
  | collidedOrder (status : OrderStatus)
  | notFound
  deriving DecidableEq

end Kalatori
