import Kalatori.Handlers.Order
import Mathlib.Logic.Function.Basic

/-!
# What the route for orders answers

`order` makes a response of what `process_order` returns: a status code with the
order, or with the parameter that was wrong.  A request without a body, or with
one that cannot be read, is a question for the order.

`OrderSpec` says what a request should do to the records, all at once, and which
answer tells that it did.  `process_order` itself is not one step but up to two
conversations with the state, and `processOrder_concludes` says which of them
stand behind its result.

* `Server.order`: the responses.
* `OrderSpec`: the requests as steps of the records.
* `processOrder_concludes`: what was said before a result.
-/

namespace Kalatori

open Program

/-! ## The responses -/

inductive StatusCode
  | ok
  | created
  | badRequest
  | notFound
  | conflict
  | internalServerError
  deriving DecidableEq

structure InvalidParameter where
  parameter : String
  message : String
  deriving DecidableEq

inductive Body
  | order (status : OrderStatus)
  | invalid (parameters : List InvalidParameter)
  | empty

structure Response where
  code : StatusCode
  body : Body

/-- A bad request, because of one parameter. -/
def Response.invalid (parameter message : String) : Response :=
  ⟨.badRequest, .invalid [⟨parameter, message⟩]⟩

/-- `order`, after `process_order`.  `display` prints a number. -/
def Server.order (display : F64 → String) : Except OrderError OrderResponse → Response
  | .ok (.newOrder order_status) => ⟨.created, .order order_status⟩
  | .ok (.foundOrder order_status) => ⟨.ok, .order order_status⟩
  | .ok (.modifiedOrder order_status) => ⟨.ok, .order order_status⟩
  | .ok (.collidedOrder order_status) => ⟨.conflict, .order order_status⟩
  | .ok .notFound => ⟨.notFound, .empty⟩
  | .error (.lessThanExistentialDeposit existential_deposit) =>
    .invalid AMOUNT ("provided amount is less than the currency's existential deposit (" ++
      display existential_deposit ++ ")")
  | .error .unknownCurrency => .invalid CURRENCY "provided currency isn't supported"
  | .error (.missingParameter parameter) => .invalid parameter "parameter wasn't found"
  | .error (.invalidParameter parameter) => .invalid parameter "parameter's format is invalid"
  | .error .internalError => ⟨.internalServerError, .empty⟩

/-! ## What a request should do -/

/-- The record is the one that a body asks for. -/
structure OrderPayload.Describes (p : OrderPayload) (info : OrderInfo) : Prop where
  amount : p.amount = some info.amount
  currency : p.currency = some info.currency.currency

/-- The order that is shown. -/
structure OrderStatus.Shows (status : OrderStatus) (order_id : String) (info : OrderInfo) :
    Prop where
  order : status.order = order_id
  order_info : status.order_info = info

/-- **A request for an order, as one step of the records**, with its answer. -/
inductive OrderSpec (order_id : String) : Option OrderPayload → (String → Option OrderInfo) →
    OrderResponse → (String → Option OrderInfo) → Prop
  | new {p : OrderPayload} {records : String → Option OrderInfo} {info : OrderInfo}
      {status : OrderStatus} (habsent : records order_id = none) (hp : p.Describes info)
      (hcallback : info.callback = p.callback.getD "") (hpending : info.payment_status = .pending)
      (hwaiting : info.withdrawal_status = .waiting) (hs : status.Shows order_id info) :
      OrderSpec order_id (some p) records (.newOrder status)
        (Function.update records order_id (some info))
  | modified {p : OrderPayload} {records : String → Option OrderInfo} {old info : OrderInfo}
      {status : OrderStatus} (hold : records order_id = some old)
      (hpending : old.payment_status = .pending) (hp : p.Describes info)
      (hinfo : info = { old with
        death := info.death, currency := info.currency, amount := info.amount })
      (hs : status.Shows order_id info) :
      OrderSpec order_id (some p) records (.modifiedOrder status)
        (Function.update records order_id (some info))
  | collided {p : OrderPayload} {records : String → Option OrderInfo} {info : OrderInfo}
      {status : OrderStatus} (hinfo : records order_id = some info)
      (hpaid : info.payment_status = .paid) (hs : status.Shows order_id info) :
      OrderSpec order_id (some p) records (.collidedOrder status) records
  | found {records : String → Option OrderInfo} {info : OrderInfo} {status : OrderStatus}
      (hinfo : records order_id = some info) (hs : status.Shows order_id info) :
      OrderSpec order_id none records (.foundOrder status) records
  | notFound {records : String → Option OrderInfo} (habsent : records order_id = none) :
      OrderSpec order_id none records .notFound records

/-! ## What stands behind a result -/

/-- What is wrong with a body, whatever the state is. -/
def OrderPayload.refusal (p : OrderPayload) : Option OrderError :=
  match p.amount with
  | none => some (.missingParameter AMOUNT)
  | some amount =>
    if amount < EXISTENTIAL_DEPOSIT then some (.lessThanExistentialDeposit EXISTENTIAL_DEPOSIT)
    else match p.currency with
    | none => some (.missingParameter CURRENCY)
    | some _ => none

/-- The order that a body asks for. -/
structure OrderPayload.Places (p : OrderPayload) (order_id : String) (query : OrderQuery) :
    Prop where
  order : query.order = order_id
  amount : p.amount = some query.amount
  currency : p.currency = some query.currency
  callback : query.callback = p.callback.getD ""

/-- An operation is about the order, if it is about any. -/
def StateOp.Concerns (order_id : String) : StateOp → Prop
  | .isCurrencySupported _ => True
  | .createOrder query => query.order = order_id
  | .orderStatus order => order = order_id

/-- An operation of the state that failed. -/
def StateOp.failed (e : Error) : (o : StateOp) → StateSig.Answer o
  | .isCurrencySupported _ | .createOrder _ | .orderStatus _ => .error e

/-- **What was said before `process_order` returned.** -/
inductive Concludes (order_id : String) :
    Option OrderPayload → Trace StateSig → Except OrderError OrderResponse → Prop
  | refused {p : OrderPayload} {e : OrderError} (h : p.refusal = some e) :
      Concludes order_id (some p) [] (.error e)
  | unsupported {p : OrderPayload} {currency : String} (hc : p.currency = some currency) :
      Concludes order_id (some p) [⟨.isCurrencySupported currency, .ok false⟩]
        (.error .unknownCurrency)
  | created {p : OrderPayload} {query : OrderQuery} {response : OrderResponse}
      {said : Trace StateSig} (hq : p.Places order_id query) :
      Concludes order_id (some p) (said ++ [⟨.createOrder query, .ok response⟩]) (.ok response)
  | told {response : OrderResponse} :
      Concludes order_id none [⟨.orderStatus order_id, .ok response⟩] (.ok response)
  | failed {payload : Option OrderPayload} {said : Trace StateSig} {o : StateOp} {e : Error}
      (ho : o.Concerns order_id) :
      Concludes order_id payload (said ++ [⟨o, o.failed e⟩]) (.error .internalError)

theorem processOrder_concludes (order_id : String) (payload : Option OrderPayload) :
    Prog.Holds (fun _ _ => True) (Concludes order_id payload) []
      (processOrder order_id payload).run := by
  unfold processOrder
  match payload with
  | none =>
    refine ⟨trivial, fun r => ?_⟩
    cases r with
    | error e => exact @Concludes.failed order_id none [] (.orderStatus order_id) e rfl
    | ok response => exact .told
  | some p =>
    cases hamount : p.amount with
    | none =>
      simp only [hamount]
      exact .refused (by rw [OrderPayload.refusal, hamount])
    | some amount =>
      simp only [hamount]
      by_cases hlt : amount < EXISTENTIAL_DEPOSIT
      · rw [if_pos hlt]
        refine .refused ?_
        rw [OrderPayload.refusal, hamount]
        exact if_pos hlt
      rw [if_neg hlt]
      cases hcurrency : p.currency with
      | none =>
        refine .refused ?_
        rw [OrderPayload.refusal, hamount, hcurrency]
        exact if_neg hlt
      | some currency =>
        refine ⟨trivial, fun r => ?_⟩
        match r with
        | .error e =>
          exact @Concludes.failed order_id (some p) [] (.isCurrencySupported currency) e trivial
        | .ok false => exact .unsupported hcurrency
        | .ok true =>
          refine ⟨trivial, fun r => ?_⟩
          cases r with
          | error e =>
            exact @Concludes.failed order_id (some p) [⟨.isCurrencySupported currency, .ok true⟩]
              (.createOrder ⟨order_id, amount, p.callback.getD "", currency⟩) e rfl
          | ok response =>
            have hplaces : p.Places order_id
                ⟨order_id, amount, p.callback.getD "", currency⟩ := ⟨rfl, hamount, hcurrency, rfl⟩
            exact .created hplaces

/-- An order is asked for as the body says, and only after its currency was found to be
supported. -/
theorem processOrder_checks (order_id : String) (payload : Option OrderPayload) :
    Prog.Holds (fun said o => ∀ query, o = StateOp.createOrder query →
        ¬query.amount < EXISTENTIAL_DEPOSIT ∧
          ⟨.isCurrencySupported query.currency, .ok true⟩ ∈ said ∧
          ∃ p, payload = some p ∧ p.Places order_id query)
      (fun _ _ => True) [] (processOrder order_id payload).run := by
  unfold processOrder
  match payload with
  | none => exact ⟨nofun, fun r => by cases r <;> trivial⟩
  | some p =>
    cases hamount : p.amount with
    | none =>
      simp only [hamount]
      trivial
    | some amount =>
      simp only [hamount]
      by_cases hlt : amount < EXISTENTIAL_DEPOSIT
      · rw [if_pos hlt]
        trivial
      rw [if_neg hlt]
      cases hcurrency : p.currency with
      | none => trivial
      | some currency =>
        refine ⟨nofun, fun r => ?_⟩
        match r with
        | .error _ | .ok false => trivial
        | .ok true =>
          refine ⟨fun query hquery => ?_, fun r => by cases r <;> trivial⟩
          obtain rfl := StateOp.createOrder.inj hquery
          exact ⟨hlt, List.mem_singleton_self _, p, rfl, rfl, hamount, hcurrency, rfl⟩

end Kalatori
