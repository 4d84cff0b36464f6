import Kalatori.Definitions
import Kalatori.Lib.Scale

/-!
# The stored form of a record

The codecs that `#[derive(Encode, Decode)]` gives to the types of a record, field
after field in the order of the declarations.  A string key is stored as the
encoding of the string, which starts with its length.
-/

namespace Kalatori

open Scale

/-- The key of an order: `order.encode()`. -/
def orderKey (order : String) : Bytes := Codec.string.encode order

theorem orderKey_injective : Function.Injective orderKey := Codec.string.encode_injective

@[simp] theorem orderKey_inj {a b : String} : orderKey a = orderKey b ↔ a = b :=
  orderKey_injective.eq_iff

namespace Encoding

def f64 : Codec F64 := Codec.u64.imap F64.mk F64.bits fun _ => rfl

def tokenKind : Codec TokenKind :=
  Codec.enum (fun | .asset => 0 | .native => 1)
    (fun b => if b = 0 then some .asset else if b = 1 then some .native else none)
    (by intro a; cases a <;> rfl)

def paymentStatus : Codec PaymentStatus :=
  Codec.enum (fun | .pending => 0 | .paid => 1)
    (fun b => if b = 0 then some .pending else if b = 1 then some .paid else none)
    (by intro a; cases a <;> rfl)

def withdrawalStatus : Codec WithdrawalStatus :=
  Codec.enum (fun | .waiting => 0 | .failed => 1 | .completed => 2)
    (fun b => if b = 0 then some .waiting else if b = 1 then some .failed
      else if b = 2 then some .completed else none)
    (by intro a; cases a <;> rfl)

def txStatus : Codec TxStatus :=
  Codec.enum (fun | .pending => 0 | .finalized => 1 | .failed => 2)
    (fun b => if b = 0 then some .pending else if b = 1 then some .finalized
      else if b = 2 then some .failed else none)
    (by intro a; cases a <;> rfl)

/-- `Amount::All` has the tag and the bytes of an absent value, `Amount::Exact` those of a
present one. -/
def amount : Codec Amount :=
  (Codec.option f64).imap (fun | none => .all | some x => .exact x)
    (fun | .all => none | .exact x => some x) (by intro a; cases a <;> rfl)

def currencyInfo : Codec CurrencyInfo :=
  (Codec.string.pair <| Codec.string.pair <| tokenKind.pair <| Codec.byte.pair <|
    Codec.string.pair <| (Codec.option Codec.u32).pair Codec.u16).imap
    (fun (a, b, c, d, e, f, g) => ⟨a, b, c, d, e, f, g⟩)
    (fun x => (x.currency, x.chain_name, x.kind, x.decimals, x.rpc_url, x.asset_id, x.ss58))
    fun _ => rfl

def finalizedTx : Codec FinalizedTx :=
  (Codec.u64.pair <| Codec.u32.pair Codec.string).imap
    (fun (a, b, c) => ⟨a, b, c⟩)
    (fun x => (x.block_number, x.position_in_block, x.timestamp))
    fun _ => rfl

def transactionInfo : Codec TransactionInfo :=
  ((Codec.option finalizedTx).pair <| Codec.string.pair <| Codec.string.pair <|
    Codec.string.pair <| amount.pair <| currencyInfo.pair txStatus).imap
    (fun (a, b, c, d, e, f, g) => ⟨a, b, c, d, e, f, g⟩)
    (fun x => (x.finalized_tx, x.transaction_bytes, x.sender, x.recipient, x.amount, x.currency,
      x.status))
    fun _ => rfl

def orderInfo : Codec OrderInfo :=
  (withdrawalStatus.pair <| paymentStatus.pair <| f64.pair <| currencyInfo.pair <|
    Codec.string.pair <| (Codec.seq transactionInfo).pair <| Codec.string.pair Codec.u64).imap
    (fun (a, b, c, d, e, f, g, h) => ⟨a, b, c, d, e, f, g, h⟩)
    (fun x => (x.withdrawal_status, x.payment_status, x.amount, x.currency, x.callback,
      x.transactions, x.payment_account, x.death))
    fun _ => rfl

end Encoding

/-- `order_info.encode()`. -/
def OrderInfo.encode (info : OrderInfo) : Bytes := Encoding.orderInfo.encode info

/-- `OrderInfo::decode`, which leaves what is behind the record unread. -/
def OrderInfo.decode (bytes : Bytes) : Option OrderInfo :=
  (Encoding.orderInfo.decode bytes).map Prod.fst

/-- `String::decode`, on a key. -/
def decodeKey (bytes : Bytes) : Option String := (Codec.string.decode bytes).map Prod.fst

@[simp] theorem OrderInfo.decode_encode (info : OrderInfo) :
    OrderInfo.decode info.encode = some info := by
  rw [OrderInfo.decode, OrderInfo.encode, Codec.decode_encode_self, Option.map_some]

@[simp] theorem decodeKey_orderKey (order : String) : decodeKey (orderKey order) = some order := by
  rw [decodeKey, orderKey, Codec.decode_encode_self, Option.map_some]

end Kalatori
