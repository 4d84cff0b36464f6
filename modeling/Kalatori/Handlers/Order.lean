import Kalatori.Chain.Tracker
import Kalatori.Database

/-!
# Orders that cost something

The handler of the route for orders compares the amount with one constant, in the
units in which a currency is displayed.  Whether an order costs anything is
decided later and elsewhere, when the amount is scaled by the decimals of the
currency and rounded, and those the handler does not know.

For every currency with decimals the constant is large enough.  For one without,
an amount below one half is let through and rounded to nothing, and the first
look at the empty account finds the order paid.

* `processOrder`: the checks, and what is asked of the state.
* `processOrder_spec`: what is let through to `create_order`.
* `parse_pos`: the amounts that are not rounded to nothing.
* `charged_iff`: the orders that cost something.
-/

namespace Kalatori

open Program

/-! ## The handler -/

/-- A number, and neither infinite nor not a number. -/
def F64.IsFinite (x : F64) : Prop := x.bits.toNat / 2 ^ 52 % 2 ^ 11 ≠ 2 ^ 11 - 1

instance (x : F64) : Decidable x.IsFinite := inferInstanceAs (Decidable (_ ≠ _))

/-- The order of finite numbers. -/
instance : LT F64 := ⟨fun x y => x.toRat < y.toRat⟩

instance (x y : F64) : Decidable (x < y) := inferInstanceAs (Decidable (x.toRat < y.toRat))

/-- `0.07` -/
def EXISTENTIAL_DEPOSIT : F64 := ⟨0x3fb1eb851eb851ec⟩

def AMOUNT : String := "amount"

def CURRENCY : String := "currency"

/-- The body of a request, as it was parsed from JSON, where every number is finite. -/
structure OrderPayload where
  amount : Option F64
  currency : Option String
  callback : Option String
  amount_finite : ∀ x ∈ amount, x.IsFinite

/-- What a handler asks of the state. -/
inductive StateOp
  | isCurrencySupported (currency : String)
  | createOrder (order_query : OrderQuery)
  | orderStatus (order : String)

abbrev StateSig : Signature where
  Op := StateOp
  Answer
    | .isCurrencySupported _ => Except Error Bool
    | .createOrder _ | .orderStatus _ => Except Error OrderResponse

/-- What `process_order` does with the state; it may stop with an `OrderError`. -/
abbrev OrderHandling := ExceptT OrderError (Prog StateSig)

/-- An error of the state is an `InternalError` of the handler. -/
def orInternalError {α : Type} (p : Prog StateSig (Except Error α)) : OrderHandling α :=
  ExceptT.mk (p >>= fun
    | .ok a => pure (.ok a)
    | .error _ => pure (.error .internalError))

def processOrder (order_id : String) : Option OrderPayload → OrderHandling OrderResponse
  | some payload => do
    match payload.amount with
    | none => throw (.missingParameter AMOUNT)
    | some amount =>
      if amount < EXISTENTIAL_DEPOSIT then
        throw (.lessThanExistentialDeposit EXISTENTIAL_DEPOSIT)
      match payload.currency with
      | none => throw (.missingParameter CURRENCY)
      | some currency =>
        let supported ← orInternalError (Prog.perform (S := StateSig)
          (.isCurrencySupported currency))
        if !supported then throw .unknownCurrency
        orInternalError (Prog.perform (S := StateSig) (.createOrder {
          order := order_id
          amount := amount
          callback := payload.callback.getD ""
          currency := currency }))
  | none => orInternalError (Prog.perform (S := StateSig) (.orderStatus order_id))

/-- What the handler asks for: an order whose amount it was given, and has checked. -/
def AsksFor (order_id : String) (payload : Option OrderPayload) (_ : Trace StateSig) :
    StateOp → Prop
  | .createOrder query => query.order = order_id ∧ ¬query.amount < EXISTENTIAL_DEPOSIT ∧
      ∃ p ∈ payload, query.amount ∈ p.amount ∧ query.currency ∈ p.currency ∧
        query.callback = p.callback.getD ""
  | .isCurrencySupported _ | .orderStatus _ => True

theorem processOrder_spec (order_id : String) (payload : Option OrderPayload) :
    Prog.Holds (AsksFor order_id payload) (fun _ _ => True) []
      (processOrder order_id payload).run := by
  unfold processOrder
  match payload with
  | none => exact ⟨trivial, fun r => by cases r <;> trivial⟩
  | some p =>
    cases hamount : p.amount with
    | none =>
      simp only [hamount]
      trivial
    | some amount =>
      simp only [hamount]
      by_cases hlt : amount < EXISTENTIAL_DEPOSIT
      · rw [if_pos hlt]
        trivial
      rw [if_neg hlt]
      cases hcurrency : p.currency with
      | none =>
        simp only
        trivial
      | some currency =>
        simp only
        refine ⟨trivial, fun r => ?_⟩
        match r with
        | .error _ | .ok false => trivial
        | .ok true =>
          refine ⟨⟨rfl, hlt, p, rfl, hamount, hcurrency, rfl⟩, fun r => ?_⟩
          cases r <;> trivial

/-- What passes the checks, and asks for a currency that is supported, is let through. -/
theorem processOrder_stuck (order_id : String) {p : OrderPayload} {amount : F64} {currency : String}
    (ha : p.amount = some amount) (hc : p.currency = some currency)
    (h : ¬amount < EXISTENTIAL_DEPOSIT) :
    Prog.Stuck (S := StateSig) (.createOrder ⟨order_id, amount, p.callback.getD "", currency⟩)
      (processOrder order_id (some p)).run [⟨.isCurrencySupported currency, .ok true⟩] := by
  unfold processOrder
  simp only [ha]
  rw [if_neg h]
  simp only [hc]
  refine Prog.Stuck.call (S := StateSig) _ ?_
  exact .here

/-! ## Rounding to nothing -/

theorem roundHalfAway_pos (q : ℚ) : 0 < roundHalfAway q ↔ 1 / 2 ≤ q := by
  unfold roundHalfAway
  split_ifs with h
  · rw [← Int.add_one_le_iff, Int.le_floor]
    constructor <;> intro h' <;> push_cast at h' ⊢ <;> linarith
  · refine iff_of_false (not_lt.mpr ?_) (fun h' => h (by linarith))
    have hneg : q - 1 / 2 ≤ ((0 : ℤ) : ℚ) := by
      push_cast
      linarith
    exact Int.ceil_le.mpr hneg

/-- The saturating cast keeps what is positive. -/
theorem parse_pos (arithmetic : Arithmetic) (float : F64) (decimals : Decimals) :
    0 < Balance.parse arithmetic float decimals ↔ 1 / 2 ≤ arithmetic.product float decimals := by
  rw [← roundHalfAway_pos, Balance.parse, BitVec.lt_def, BitVec.toNat_ofNat]
  have hbound : min (roundHalfAway (arithmetic.product float decimals)).toNat (2 ^ 128 - 1) <
      2 ^ 128 := by omega
  rw [Nat.mod_eq_of_lt hbound]
  show 0 < _ ↔ _
  omega

/-- With one decimal or more, an amount that is let through is not rounded to nothing. -/
theorem half_le_product {amount : F64} (h : ¬amount < EXISTENTIAL_DEPOSIT) (decimals : Decimals) :
    1 / 2 ≤ Arithmetic.exact.product amount decimals ↔ decimals ≠ 0 ∨ 1 / 2 ≤ amount.toRat := by
  have hdeposit : (1 : ℚ) / 20 ≤ EXISTENTIAL_DEPOSIT.toRat := by decide +kernel
  have hamount : (1 : ℚ) / 20 ≤ amount.toRat := hdeposit.trans (not_lt.mp h)
  by_cases hd : decimals = 0
  · subst hd
    simp [Arithmetic.exact]
  · refine iff_of_true ?_ (.inl hd)
    have hpos : decimals.toNat ≠ 0 := fun h0 => hd (UInt8.toNat_inj.mp h0)
    have hten : (10 : ℚ) ≤ 10 ^ decimals.toNat := le_self_pow₀ (by norm_num) hpos
    show (1 : ℚ) / 2 ≤ amount.toRat * 10 ^ decimals.toNat
    calc (1 : ℚ) / 2 = 1 / 20 * 10 := by norm_num
      _ ≤ amount.toRat * 10 ^ decimals.toNat :=
        mul_le_mul hamount hten (by norm_num) (le_trans (by norm_num) hamount)

/-! ## The invoice -/

/-- **An order that costs something**: its price is positive, and an account without a balance
does not pay it. -/
structure Charged (lib : Libraries) (w : WatchAccount) : Prop where
  positive : 0 < w.amount
  unpaid : ∀ (watcher : ChainWatcher lib) (block : BlockHash),
    Prog.Runs ((Invoice.fromRequest w).check watcher block).run
      [⟨.rpc (.balance watcher (Invoice.fromRequest w) block), .ok 0⟩] (.ok false)

theorem charged_iff_pos {lib : Libraries} {w : WatchAccount} : Charged lib w ↔ 0 < w.amount := by
  refine ⟨Charged.positive, fun h => ⟨h, fun watcher block => ?_⟩⟩
  have hcheck : decide ((Invoice.fromRequest w).amount ≤ 0) = false :=
    decide_eq_false (BitVec.not_le.mpr h)
  rw [← hcheck]
  refine Prog.Runs.call (S := TrackerSig lib) _ ?_
  exact .done _

theorem WatchAccount.new_amount {lib : Libraries} {id : String} {order : OrderInfo}
    {recipient : AccountId32} {res : Requester} {w : WatchAccount}
    (h : WatchAccount.new lib id order recipient res = .ok w) :
    w.amount = order.price lib.arithmetic := by
  unfold WatchAccount.new at h
  split at h
  · cases h
  · obtain rfl := Except.ok.inj h
    rfl

/-- The record of a new order, or of one that was changed, has the amount and the currency it
was asked for. -/
theorem createOrder_record {around : Surroundings} {orders : Orders} {order : String}
    {query : OrderQuery} {currency : CurrencyInfo} {payment_account : String}
    {account_lifetime : Timestamp} {info : OrderInfo}
    (h : ((createOrder around order query currency payment_account account_lifetime).runOn
        orders).1 = .ok (.new info) ∨
      ((createOrder around order query currency payment_account account_lifetime).runOn
        orders).1 = .ok (.modified info)) :
    info.amount = query.amount ∧ info.currency = currency := by
  have heffect : Effect account_lifetime around.now orders
      (.createOrder order query currency payment_account)
      ((createOrder around order query currency payment_account account_lifetime).runOn orders).1
      ((createOrder around order query currency payment_account account_lifetime).runOn orders).2 :=
    createOrder_effect order query currency payment_account
  generalize (createOrder around order query currency payment_account account_lifetime).runOn
    orders = out at h heffect
  obtain ⟨reply, orders'⟩ := out
  rcases h with h | h
  · obtain rfl : reply = .ok (.new info) := h
    cases heffect with
    | created _ _ _ _ _ _ hi => exact ⟨congrArg OrderInfo.amount hi, congrArg OrderInfo.currency hi⟩
  · obtain rfl : reply = .ok (.modified info) := h
    cases heffect with
    | modified _ _ _ _ _ _ _ _ hi =>
      exact ⟨congrArg OrderInfo.amount hi, congrArg OrderInfo.currency hi⟩

/-- **Which orders cost something**, among those that the handler lets through: all but those below
one half of a currency without decimals. -/
theorem charged_iff {lib : Libraries} (hexact : lib.arithmetic = .exact) {order_id : String}
    {payload : Option OrderPayload} {said : Trace StateSig} {query : OrderQuery}
    (hq : Prog.Stuck (S := StateSig) (.createOrder query) (processOrder order_id payload).run said)
    {around : Surroundings} {orders : Orders} {currency : CurrencyInfo} {payment_account : String}
    {account_lifetime : Timestamp} {info : OrderInfo}
    (hinfo : ((createOrder around query.order query currency payment_account
        account_lifetime).runOn orders).1 = .ok (.new info) ∨
      ((createOrder around query.order query currency payment_account
        account_lifetime).runOn orders).1 = .ok (.modified info))
    {recipient : AccountId32} {res : Requester} {w : WatchAccount}
    (hw : WatchAccount.new lib query.order info recipient res = .ok w) :
    Charged lib w ↔ currency.decimals ≠ 0 ∨ 1 / 2 ≤ query.amount.toRat := by
  obtain ⟨-, hchecked, -⟩ := (processOrder_spec order_id payload).stuck hq
  obtain ⟨hamount, hcurrency⟩ := createOrder_record hinfo
  rw [charged_iff_pos, WatchAccount.new_amount hw, OrderInfo.price, parse_pos, hexact, hamount,
    hcurrency, half_le_product hchecked]

namespace Sample

/-- A body that asks for an amount of a currency. -/
def payload (amount : F64) (h : amount.IsFinite) : OrderPayload where
  amount := some amount
  currency := some "PTS"
  callback := none
  amount_finite := fun _ hx => Option.some.inj hx ▸ h

/-- A currency without decimals. -/
def points : CurrencyInfo := ⟨"PTS", "statemint", .asset, 0, "wss://node", some 7, 0⟩

/-- The record of an order of a number of points. -/
def pointsOrder (amount : F64) : OrderInfo :=
  OrderInfo.new ⟨"order", amount, "", "PTS"⟩ points "111111111111111111111111111111111HC1" 0

def pointsAccount (amount : F64) : WatchAccount :=
  ⟨"order", account, "PTS", Balance.parse .exact amount 0, account, .stateHandler, 0⟩

def one : F64 := ⟨0x3ff0000000000000⟩

def oneTenth : F64 := ⟨0x3fb999999999999a⟩

end Sample

/-- One point is charged. -/
theorem charged_iff_one : Charged Sample.libraries (Sample.pointsAccount Sample.one) := by
  have hq := processOrder_stuck "order" (p := Sample.payload Sample.one (by decide)) rfl rfl
    (by decide +kernel)
  have hinfo : ((createOrder (.calm 0) "order" ⟨"order", Sample.one, "", "PTS"⟩ Sample.points
      "111111111111111111111111111111111HC1" 0).runOn ∅).1 =
        .ok (.new (Sample.pointsOrder Sample.one)) := rfl
  have hw : WatchAccount.new Sample.libraries "order" (Sample.pointsOrder Sample.one)
      Sample.account .stateHandler = .ok (Sample.pointsAccount Sample.one) := rfl
  exact (charged_iff rfl hq (.inl hinfo) hw).mpr (.inr (by decide +kernel))

/-- **An order that is free.**  One tenth of a point passes the checks of the handler, and is
rounded to nothing. -/
theorem oneTenth_free : ∃ said query info w,
    Prog.Stuck (S := StateSig) (.createOrder query)
      (processOrder "order" (some (Sample.payload Sample.oneTenth (by decide)))).run said ∧
    ((createOrder (.calm 0) "order" query Sample.points "111111111111111111111111111111111HC1"
      0).runOn ∅).1 = .ok (.new info) ∧
    WatchAccount.new Sample.libraries "order" info Sample.account .stateHandler = .ok w ∧
    w.amount = 0 ∧ ¬Charged Sample.libraries w := by
  have hq := processOrder_stuck "order" (p := Sample.payload Sample.oneTenth (by decide)) rfl rfl
    (by decide +kernel)
  have hzero : (Sample.pointsAccount Sample.oneTenth).amount = 0 := by decide +kernel
  refine ⟨_, _, Sample.pointsOrder Sample.oneTenth, Sample.pointsAccount Sample.oneTenth, hq, rfl,
    rfl, hzero, fun hcharged => ?_⟩
  have hpos := hcharged.positive
  rw [hzero] at hpos
  exact absurd hpos (by decide)

end Kalatori
