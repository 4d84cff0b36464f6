import Kalatori.Encoding
import Kalatori.Error
import Std.Data.TreeMap.Lemmas

/-!
# The database server

The orders live in one byte-keyed tree, and one task serves the requests for it
in series.  `Orders` is the tree, `Db` the computations on it: each operation
returns its answer, or the error at which it stopped, together with the tree it
left behind.

What the store does while it serves a request is an input of the operation.  Any
read and any write may fail, and an iteration may lose any of its entries; the
reading of the clock is an input as well.

* `serve`: the loop of the server, request by request.
* `record`: the record of an order, read under the key it is written to.
* `Effect`, `serve_effect`: all that a request can do, answer and write together.
* `Effect.record_of_ne`: a request writes no record but that of its own order.
-/

namespace Kalatori

open Scale

/-- The tree `orders`. -/
abbrev Orders := Std.TreeMap Bytes Bytes

/-- What the surroundings of the server do during one request: which accesses to the store
fail, which entries an iteration loses, and what the clock says. -/
structure Surroundings where
  get_fails : Bool
  insert_fails : Bool
  iter_loses : Bytes → Bool
  now : Timestamp

/-- A store that does not fail, at a given time. -/
def Surroundings.calm (now : Timestamp) : Surroundings := ⟨false, false, fun _ => false, now⟩

/-- Computations on the tree. -/
abbrev Db := ExceptT DbError (StateM Orders)

namespace Db

variable {α β : Type}

/-- The answer and the tree that a computation leaves. -/
def runOn (p : Db α) (orders : Orders) : Except DbError α × Orders := (ExceptT.run p).run orders

@[simp] theorem runOn_pure (a : α) (orders : Orders) :
    (pure a : Db α).runOn orders = (.ok a, orders) :=
  rfl

@[simp] theorem runOn_throw (e : DbError) (orders : Orders) :
    (throw e : Db α).runOn orders = (.error e, orders) :=
  rfl

theorem runOn_bind (p : Db α) (f : α → Db β) (orders : Orders) :
    (p >>= f).runOn orders =
      match p.runOn orders with
      | (.ok a, orders') => (f a).runOn orders'
      | (.error e, orders') => (.error e, orders') := by
  simp only [runOn, ExceptT.run_bind, StateT.run_bind]
  change (match (ExceptT.run p).run orders with | (r, o) => _) = _
  rcases (ExceptT.run p).run orders with ⟨r | a, orders'⟩ <;> rfl

/-- `orders.get(key)?` -/
def get (around : Surroundings) (key : Bytes) : Db (Option Bytes) := do
  if around.get_fails then throw .dbInternalError
  return (← getThe Orders)[key]?

/-- `orders.insert(key, value)?` -/
def insert (around : Surroundings) (key value : Bytes) : Db Unit := do
  if around.insert_fails then throw .dbInternalError
  modifyThe Orders (·.insert key value)

/-- `OrderInfo::decode(&mut &bytes[..])?` -/
def decode (bytes : Bytes) : Db OrderInfo :=
  match OrderInfo.decode bytes with
  | some info => return info
  | none => throw .codecError

theorem runOn_get (around : Surroundings) (key : Bytes) (orders : Orders) :
    (get around key).runOn orders =
      (if around.get_fails then .error .dbInternalError else .ok orders[key]?, orders) := by
  unfold get
  cases around.get_fails <;> rfl

theorem runOn_insert (around : Surroundings) (key value : Bytes) (orders : Orders) :
    (insert around key value).runOn orders =
      if around.insert_fails then (.error .dbInternalError, orders)
      else (.ok (), orders.insert key value) := by
  unfold insert
  cases around.insert_fails <;> rfl

theorem runOn_decode (bytes : Bytes) (orders : Orders) :
    (decode bytes).runOn orders =
      (match OrderInfo.decode bytes with
        | some info => .ok info
        | none => .error .codecError, orders) := by
  unfold decode
  cases OrderInfo.decode bytes <;> rfl

end Db

/-! ## The operations -/

/-- `calculate_death_ts`, at a reading of the clock.  The sum wraps around, as it does in the
release build, which has no overflow checks. -/
def calculateDeathTs (now account_lifetime : Timestamp) : Timestamp := now + account_lifetime

def createOrder (around : Surroundings) (order : String) (query : OrderQuery)
    (currency : CurrencyInfo) (payment_account : String) (account_lifetime : Timestamp) :
    Db OrderCreateResponse := do
  let order_key := orderKey order
  match ← Db.get around order_key with
  | some record =>
    let old_order_info ← Db.decode record
    match old_order_info.payment_status with
    | .pending =>
      let death := calculateDeathTs around.now account_lifetime
      let order_info :=
        { old_order_info with death := death, currency := currency, amount := query.amount }
      Db.insert around order_key order_info.encode
      return .modified order_info
    | .paid => return .collision old_order_info
  | none =>
    let death := calculateDeathTs around.now account_lifetime
    let order_info_new := OrderInfo.new query currency payment_account death
    Db.insert around order_key order_info_new.encode
    return .new order_info_new

def readOrder (around : Surroundings) (order : String) : Db (Option OrderInfo) := do
  match ← Db.get around (orderKey order) with
  | some bytes => return some (← Db.decode bytes)
  | none => return none

def markPaid (around : Surroundings) (order : String) : Db OrderInfo := do
  match ← Db.get around (orderKey order) with
  | some bytes =>
    let order_info ← Db.decode bytes
    if order_info.payment_status = .pending then
      let order_info := { order_info with payment_status := .paid }
      Db.insert around (orderKey order) order_info.encode
      return order_info
    else throw (.alreadyPaid order)
  | none => throw (.orderNotFound order)

/-- `mark_withdrawn` and `mark_stuck`, which differ in the status they record.  The record is
read under the bytes of the string itself and written under their encoding. -/
def markWithdrawal (status : WithdrawalStatus) (around : Surroundings) (order : String) :
    Db Unit := do
  match ← Db.get around (Codec.rawBytes order) with
  | some bytes =>
    let order_info ← Db.decode bytes
    if order_info.payment_status = .paid then
      if order_info.withdrawal_status = .waiting then
        let order_info := { order_info with withdrawal_status := status }
        Db.insert around (orderKey order) order_info.encode
      else throw (.withdrawalWasAttempted order)
    else throw (.notPaid order)
  | none => throw (.orderNotFound order)

def markWithdrawn : Surroundings → String → Db Unit := markWithdrawal .completed

def markStuck : Surroundings → String → Db Unit := markWithdrawal .failed

/-- The orders that wait for a payment, in the order of the tree.  An entry that cannot be
read or decoded is passed over. -/
def activeOrderList (around : Surroundings) : Db (List (String × OrderInfo)) := do
  let orders ← getThe Orders
  return ((orders.toList.filter fun entry => !around.iter_loses entry.1).filterMap
    fun (a, b) => (decodeKey a).bind fun a => (OrderInfo.decode b).map fun b => (a, b)).filter
    fun (_, b) => b.payment_status = .pending

/-! ## The server -/

inductive DbRequest
  | createOrder (order : String) (query : OrderQuery) (currency : CurrencyInfo)
      (payment_account : String)
  | activeOrderList
  | readOrder (order : String)
  | markPaid (order : String)
  | markWithdrawn (order : String)
  | markStuck (order : String)
  deriving DecidableEq

/-- What a request that does not fail is answered with. -/
abbrev DbRequest.Reply : DbRequest → Type
  | .createOrder .. => OrderCreateResponse
  | .activeOrderList => List (String × OrderInfo)
  | .readOrder _ => Option OrderInfo
  | .markPaid _ => OrderInfo
  | .markWithdrawn _ | .markStuck _ => Unit

/-- The order a request is about. -/
def DbRequest.order? : DbRequest → Option String
  | .createOrder order .. | .readOrder order | .markPaid order | .markWithdrawn order
  | .markStuck order => some order
  | .activeOrderList => none

/-- One turn of the loop of the server. -/
def serve (account_lifetime : Timestamp) (around : Surroundings) : (r : DbRequest) → Db r.Reply
  | .activeOrderList => activeOrderList around
  | .createOrder order query currency payment_account =>
    createOrder around order query currency payment_account account_lifetime
  | .readOrder order => readOrder around order
  | .markPaid order => markPaid around order
  | .markWithdrawn order => markWithdrawn around order
  | .markStuck order => markStuck around order

/-! ## Records -/

/-- The record stored under a key. -/
def recordAt (orders : Orders) (key : Bytes) : Option OrderInfo :=
  orders[key]?.bind OrderInfo.decode

/-- The record of an order. -/
def record (orders : Orders) (order : String) : Option OrderInfo := recordAt orders (orderKey order)

theorem getElem?_insert_orders (orders : Orders) (key key' value : Bytes) :
    (orders.insert key value)[key']? = if key = key' then some value else orders[key']? := by
  rw [Std.TreeMap.getElem?_insert]
  simp only [Std.LawfulEqCmp.compare_eq_iff_eq]

@[simp] theorem record_insert_self (orders : Orders) (order : String) (info : OrderInfo) :
    record (orders.insert (orderKey order) info.encode) order = some info := by
  simp [record, recordAt]

theorem record_insert_of_ne {order order' : String} (h : order' ≠ order) (orders : Orders)
    (value : Bytes) :
    record (orders.insert (orderKey order) value) order' = record orders order' := by
  simp [record, recordAt, getElem?_insert_orders, h.symm]

theorem record_insert (orders : Orders) (order order' : String) (info : OrderInfo) :
    record (orders.insert (orderKey order) info.encode) order' =
      if order' = order then some info else record orders order' := by
  split_ifs with h
  · rw [h, record_insert_self]
  · exact record_insert_of_ne h orders _

/-! ## What a request does -/

/-- The record that a request for a new order makes. -/
def OrderInfo.renewed (info : OrderInfo) (query : OrderQuery) (currency : CurrencyInfo)
    (death : Timestamp) : OrderInfo :=
  { info with death := death, currency := currency, amount := query.amount }

/-- The record of an order that was paid. -/
def OrderInfo.paid (info : OrderInfo) : OrderInfo := { info with payment_status := .paid }

/-- The record after an attempt to withdraw. -/
def OrderInfo.attempted (info : OrderInfo) (status : WithdrawalStatus) : OrderInfo :=
  { info with withdrawal_status := status }

/-- **Everything a request can do.**  `Effect lifetime now orders r reply orders'` lists the
ways to serve `r` on the tree `orders`, one for each write of the source and one for each
kind of answer that comes without a write. -/
inductive Effect (account_lifetime now : Timestamp) (orders : Orders) :
    (r : DbRequest) → Except DbError r.Reply → Orders → Prop
  | failed (r : DbRequest) (e : DbError) : Effect account_lifetime now orders r (.error e) orders
  | listed (l : List (String × OrderInfo)) :
      Effect account_lifetime now orders .activeOrderList (.ok l) orders
  | read (order : String) (info : Option OrderInfo) (h : record orders order = info) :
      Effect account_lifetime now orders (.readOrder order) (.ok info) orders
  | created (order : String) (query : OrderQuery) (currency : CurrencyInfo)
      (payment_account : String) (info : OrderInfo) (h : orders[orderKey order]? = none)
      (hi : info = OrderInfo.new query currency payment_account
        (calculateDeathTs now account_lifetime)) :
      Effect account_lifetime now orders (.createOrder order query currency payment_account)
        (.ok (.new info)) (orders.insert (orderKey order) info.encode)
  | modified (order : String) (query : OrderQuery) (currency : CurrencyInfo)
      (payment_account : String) (old info : OrderInfo) (h : record orders order = some old)
      (hp : old.payment_status = .pending)
      (hi : info = old.renewed query currency (calculateDeathTs now account_lifetime)) :
      Effect account_lifetime now orders (.createOrder order query currency payment_account)
        (.ok (.modified info)) (orders.insert (orderKey order) info.encode)
  | collided (order : String) (query : OrderQuery) (currency : CurrencyInfo)
      (payment_account : String) (info : OrderInfo) (h : record orders order = some info)
      (hp : info.payment_status = .paid) :
      Effect account_lifetime now orders (.createOrder order query currency payment_account)
        (.ok (.collision info)) orders
  | paid (order : String) (old info : OrderInfo) (h : record orders order = some old)
      (hp : old.payment_status = .pending) (hi : info = old.paid) :
      Effect account_lifetime now orders (.markPaid order) (.ok info)
        (orders.insert (orderKey order) info.encode)
  | withdrawn (order : String) (source : OrderInfo)
      (h : recordAt orders (Codec.rawBytes order) = some source)
      (hp : source.payment_status = .paid) (hw : source.withdrawal_status = .waiting) :
      Effect account_lifetime now orders (.markWithdrawn order) (.ok ())
        (orders.insert (orderKey order) (source.attempted .completed).encode)
  | stuck (order : String) (source : OrderInfo)
      (h : recordAt orders (Codec.rawBytes order) = some source)
      (hp : source.payment_status = .paid) (hw : source.withdrawal_status = .waiting) :
      Effect account_lifetime now orders (.markStuck order) (.ok ())
        (orders.insert (orderKey order) (source.attempted .failed).encode)

section Effects

variable {account_lifetime : Timestamp} (around : Surroundings) (orders : Orders)

/-- Reading a record.  Either the operation stops there, or it goes on with what is stored. -/
theorem runOn_get_bind {α : Type} (key : Bytes) (f : Option Bytes → Db α) :
    (∃ e, (Db.get around key >>= f).runOn orders = (.error e, orders)) ∨
      (Db.get around key >>= f).runOn orders = (f orders[key]?).runOn orders := by
  rw [Db.runOn_bind, Db.runOn_get]
  cases around.get_fails with
  | true => exact .inl ⟨_, rfl⟩
  | false => exact .inr rfl

theorem runOn_decode_bind {α : Type} (bytes : Bytes) (f : OrderInfo → Db α) :
    (∃ e, (Db.decode bytes >>= f).runOn orders = (.error e, orders)) ∨
      ∃ info, OrderInfo.decode bytes = some info ∧
        (Db.decode bytes >>= f).runOn orders = (f info).runOn orders := by
  rw [Db.runOn_bind, Db.runOn_decode]
  cases OrderInfo.decode bytes with
  | none => exact .inl ⟨_, rfl⟩
  | some info => exact .inr ⟨info, rfl, rfl⟩

/-- Writing a record as the last access to the store. -/
theorem runOn_insert_bind {α : Type} (key value : Bytes) (a : α) :
    (∃ e, (Db.insert around key value >>= fun _ => pure a).runOn orders = (.error e, orders)) ∨
      (Db.insert around key value >>= fun _ => pure a).runOn orders =
        (.ok a, orders.insert key value) := by
  rw [Db.runOn_bind, Db.runOn_insert]
  cases around.insert_fails with
  | true => exact .inl ⟨_, rfl⟩
  | false => exact .inr rfl

variable {around orders}

theorem createOrder_effect (order : String) (query : OrderQuery) (currency : CurrencyInfo)
    (payment_account : String) :
    let out := (createOrder around order query currency payment_account account_lifetime).runOn
      orders
    Effect account_lifetime around.now orders (.createOrder order query currency payment_account)
      out.1 out.2 := by
  unfold createOrder
  rcases runOn_get_bind around orders (orderKey order) _ with ⟨e, he⟩ | hget
  · rw [he]
    exact .failed _ e
  rw [hget]
  cases hkey : orders[orderKey order]? with
  | none =>
    rcases runOn_insert_bind around orders _ _ _ with ⟨e, he⟩ | hins
    · rw [he]
      exact .failed _ e
    · rw [hins]
      exact .created order query currency payment_account _ hkey rfl
  | some bytes =>
    rcases runOn_decode_bind orders bytes _ with ⟨e, he⟩ | ⟨old, hold, hdec⟩
    · rw [he]
      exact .failed _ e
    rw [hdec]
    have hrec : record orders order = some old := by
      rw [record, recordAt, hkey, Option.bind_some, hold]
    cases hp : old.payment_status with
    | paid => exact .collided order query currency payment_account old hrec hp
    | pending =>
      rcases runOn_insert_bind around orders _ _ _ with ⟨e, he⟩ | hins
      · rw [he]
        exact .failed _ e
      · rw [hins]
        exact .modified order query currency payment_account old _ hrec hp
          (by rw [OrderInfo.renewed, hp])

theorem readOrder_effect (order : String) :
    let out := (readOrder around order).runOn orders
    Effect account_lifetime around.now orders (.readOrder order) out.1 out.2 := by
  unfold readOrder
  rcases runOn_get_bind around orders (orderKey order) _ with ⟨e, he⟩ | hget
  · rw [he]
    exact .failed _ e
  rw [hget]
  cases hkey : orders[orderKey order]? with
  | none => exact .read order none (by rw [record, recordAt, hkey, Option.bind_none])
  | some bytes =>
    rcases runOn_decode_bind orders bytes _ with ⟨e, he⟩ | ⟨info, hinfo, hdec⟩
    · rw [he]
      exact .failed _ e
    · rw [hdec]
      exact .read order (some info) (by rw [record, recordAt, hkey, Option.bind_some, hinfo])

theorem markPaid_effect (order : String) :
    let out := (markPaid around order).runOn orders
    Effect account_lifetime around.now orders (.markPaid order) out.1 out.2 := by
  unfold markPaid
  rcases runOn_get_bind around orders (orderKey order) _ with ⟨e, he⟩ | hget
  · rw [he]
    exact .failed _ e
  rw [hget]
  cases hkey : orders[orderKey order]? with
  | none => exact .failed _ _
  | some bytes =>
    rcases runOn_decode_bind orders bytes _ with ⟨e, he⟩ | ⟨info, hinfo, hdec⟩
    · rw [he]
      exact .failed _ e
    rw [hdec]
    have hrec : record orders order = some info := by
      rw [record, recordAt, hkey, Option.bind_some, hinfo]
    split_ifs with hp
    · rcases runOn_insert_bind around orders _ _ _ with ⟨e, he⟩ | hins
      · rw [he]
        exact .failed _ e
      · rw [hins]
        exact .paid order info _ hrec hp rfl
    · exact .failed _ _

/-- The store answers, and the bytes of `order` are the key of a paid record that waits for its
withdrawal. -/
structure Attempts (around : Surroundings) (orders : Orders) (order : String)
    (source : OrderInfo) : Prop where
  get_works : around.get_fails = false
  insert_works : around.insert_fails = false
  stored : recordAt orders (Codec.rawBytes order) = some source
  paid : source.payment_status = .paid
  waiting : source.withdrawal_status = .waiting

/-- **What `mark_withdrawn` and `mark_stuck` do.**  They write exactly when there is something
to attempt, and then the record they found under the bytes of the order is the one they write
under its encoding. -/
theorem markWithdrawal_cases (around : Surroundings) (orders : Orders) (status : WithdrawalStatus)
    (order : String) :
    let out := (markWithdrawal status around order).runOn orders
    ((∃ e, out = (.error e, orders)) ∧ ∀ source, ¬Attempts around orders order source) ∨
      ∃ source, Attempts around orders order source ∧
        out = (.ok (), orders.insert (orderKey order) (source.attempted status).encode) := by
  unfold markWithdrawal
  rw [Db.runOn_bind, Db.runOn_get]
  cases hget : around.get_fails with
  | true => exact .inl ⟨⟨_, rfl⟩, fun _ h => by simp [h.get_works] at hget⟩
  | false =>
    cases hkey : orders[Codec.rawBytes order]? with
    | none =>
      refine .inl ⟨⟨_, rfl⟩, fun _ h => ?_⟩
      have hs := h.stored
      rw [recordAt, hkey] at hs
      cases hs
    | some bytes =>
      simp only [Bool.false_eq_true, ↓reduceIte]
      rw [Db.runOn_bind, Db.runOn_decode]
      cases hdec : OrderInfo.decode bytes with
      | none =>
        refine .inl ⟨⟨_, rfl⟩, fun _ h => ?_⟩
        have hs := h.stored
        rw [recordAt, hkey, Option.bind_some, hdec] at hs
        cases hs
      | some source =>
        have hrec : recordAt orders (Codec.rawBytes order) = some source := by
          rw [recordAt, hkey, Option.bind_some, hdec]
        have hunique : ∀ source', Attempts around orders order source' → source' = source :=
          fun source' h => Option.some.inj (h.stored.symm.trans hrec)
        simp only
        split_ifs with hp hw
        · rw [Db.runOn_insert]
          cases hins : around.insert_fails with
          | true => exact .inl ⟨⟨_, rfl⟩, fun _ h => by simp [h.insert_works] at hins⟩
          | false => exact .inr ⟨source, ⟨hget, hins, hrec, hp, hw⟩, rfl⟩
        · exact .inl ⟨⟨_, rfl⟩, fun _ h => hw (hunique _ h ▸ h.waiting)⟩
        · exact .inl ⟨⟨_, rfl⟩, fun _ h => hp (hunique _ h ▸ h.paid)⟩

/-- **The server does nothing else.** -/
theorem serve_effect (r : DbRequest) :
    let out := (serve account_lifetime around r).runOn orders
    Effect account_lifetime around.now orders r out.1 out.2 := by
  cases r with
  | createOrder order query currency payment_account =>
    exact createOrder_effect order query currency payment_account
  | activeOrderList => exact .listed _
  | readOrder order => exact readOrder_effect order
  | markPaid order => exact markPaid_effect order
  | markWithdrawn order =>
    have h := markWithdrawal_cases around orders .completed order
    change Effect _ _ _ (.markWithdrawn order)
      ((markWithdrawal .completed around order).runOn orders).1
      ((markWithdrawal .completed around order).runOn orders).2
    generalize (markWithdrawal .completed around order).runOn orders = out at h ⊢
    rcases h with ⟨⟨e, rfl⟩, -⟩ | ⟨source, h, rfl⟩
    · exact .failed _ e
    · exact .withdrawn order source h.stored h.paid h.waiting
  | markStuck order =>
    have h := markWithdrawal_cases around orders .failed order
    change Effect _ _ _ (.markStuck order) ((markWithdrawal .failed around order).runOn orders).1
      ((markWithdrawal .failed around order).runOn orders).2
    generalize (markWithdrawal .failed around order).runOn orders = out at h ⊢
    rcases h with ⟨⟨e, rfl⟩, -⟩ | ⟨source, h, rfl⟩
    · exact .failed _ e
    · exact .stuck order source h.stored h.paid h.waiting

end Effects

namespace Effect

variable {account_lifetime now : Timestamp} {orders orders' : Orders} {r : DbRequest}
  {reply : Except DbError r.Reply}

/-- A request writes under the key of its order, or not at all. -/
theorem getElem?_of_ne (h : Effect account_lifetime now orders r reply orders') {key : Bytes}
    (hkey : ∀ order, r.order? = some order → key ≠ orderKey order) :
    orders'[key]? = orders[key]? := by
  cases h with
  | failed | listed | read | collided => rfl
  | created order | modified order | paid order | withdrawn order | stuck order =>
    rw [getElem?_insert_orders, if_neg fun h => hkey order rfl h.symm]

theorem record_of_ne (h : Effect account_lifetime now orders r reply orders') {order : String}
    (hne : r.order? ≠ some order) : record orders' order = record orders order := by
  rw [record, recordAt, h.getElem?_of_ne, ← recordAt, ← record]
  rintro order' ho hkey
  rw [orderKey_inj] at hkey
  exact hne (hkey ▸ ho)

/-- An error is answered without a write. -/
theorem of_error {e : DbError} (h : Effect account_lifetime now orders r (.error e) orders') :
    orders' = orders := by
  cases h with
  | failed => rfl

end Effect

/-! ## Trees that the server wrote -/

/-- Every entry is the record of an order under its key. -/
def WellStored (orders : Orders) : Prop :=
  ∀ key value, orders[key]? = some value →
    ∃ order info, key = orderKey order ∧ value = OrderInfo.encode info

theorem wellStored_empty : WellStored ∅ := fun key value h => by simp at h

theorem WellStored.insert {orders : Orders} (h : WellStored orders) (order : String)
    (info : OrderInfo) : WellStored (orders.insert (orderKey order) info.encode) := by
  intro key value hkey
  rw [getElem?_insert_orders] at hkey
  split_ifs at hkey with heq
  · exact ⟨order, info, heq.symm, (Option.some.inj hkey).symm⟩
  · exact h key value hkey

theorem Effect.wellStored {account_lifetime now : Timestamp} {orders orders' : Orders}
    {r : DbRequest} {reply : Except DbError r.Reply}
    (h : Effect account_lifetime now orders r reply orders') (hw : WellStored orders) :
    WellStored orders' := by
  cases h with
  | failed | listed | read | collided => exact hw
  | created | modified | paid | withdrawn | stuck => exact hw.insert _ _

/-- What the list of active orders is made of. -/
theorem mem_activeOrderList (around : Surroundings) (orders : Orders) (order : String)
    (info : OrderInfo) {list : List (String × OrderInfo)}
    (h : ((activeOrderList around).runOn orders).1 = .ok list) :
    (order, info) ∈ list ↔ ∃ key value, orders[key]? = some value ∧ around.iter_loses key = false ∧
      decodeKey key = some order ∧ OrderInfo.decode value = some info ∧
      info.payment_status = .pending := by
  obtain rfl := Except.ok.inj h
  simp only [List.mem_filter, List.mem_filterMap, Prod.exists, Option.bind_eq_some_iff,
    Option.map_eq_some_iff, Prod.mk.injEq, decide_eq_true_eq,
    Std.TreeMap.mem_toList_iff_getElem?_eq_some, Bool.not_eq_true']
  constructor
  · rintro ⟨⟨key, value, ⟨hkey, hiter⟩, a, ha, b, hinfo, rfl, rfl⟩, hp⟩
    exact ⟨key, value, hkey, hiter, ha, hinfo, hp⟩
  · rintro ⟨key, value, hkey, hiter, horder, hinfo, hp⟩
    exact ⟨⟨key, value, ⟨hkey, hiter⟩, order, horder, info, hinfo, rfl, rfl⟩, hp⟩

/-- On such a tree, only orders that wait for a payment are listed. -/
theorem record_of_mem_activeOrderList {around : Surroundings} {orders : Orders} {order : String}
    {info : OrderInfo} {list : List (String × OrderInfo)} (hw : WellStored orders)
    (h : ((activeOrderList around).runOn orders).1 = .ok list) (hmem : (order, info) ∈ list) :
    record orders order = some info ∧ info.payment_status = .pending := by
  obtain ⟨key, value, hkey, -, horder, hinfo, hp⟩ :=
    (mem_activeOrderList around orders order info h).mp hmem
  obtain ⟨order', info', rfl, rfl⟩ := hw key value hkey
  obtain rfl : order' = order := by simpa using horder
  refine ⟨?_, hp⟩
  rw [record, recordAt, hkey, Option.bind_some, hinfo]

/-- All of them are, if the iteration loses none. -/
theorem mem_activeOrderList_of_record {around : Surroundings} {orders : Orders} {order : String}
    {info : OrderInfo} {list : List (String × OrderInfo)}
    (hiter : ∀ key, around.iter_loses key = false)
    (h : ((activeOrderList around).runOn orders).1 = .ok list)
    (hrec : record orders order = some info) (hp : info.payment_status = .pending) :
    (order, info) ∈ list := by
  obtain ⟨value, hkey, hinfo⟩ := Option.bind_eq_some_iff.mp hrec
  exact (mem_activeOrderList around orders order info h).mpr
    ⟨orderKey order, value, hkey, hiter _, decodeKey_orderKey order, hinfo, hp⟩

end Kalatori
