import Kalatori.Database
import Kalatori.Lib.Transition

/-!
# The life cycle of an order

A run of the database server is a list of served requests, each with the tree
before and after it.  `LifeCycle` is what the store of a shop owes to its
orders: a request touches no record but its own, a paid order stays paid for the
offer it was paid for, its withdrawal is recorded at most once, and a refused
request writes nothing.

The two requests that record a withdrawal read the record under the bytes of
their string and write it under the encoding of that string.  These are the
bytes of the key of a second order whenever the string is itself such an
encoding, and then the record of the second order is written over that of the
first.  `lifeCycle_iff` says that this is the only way for a run to leave the
life cycle: it does so exactly when some withdrawal is not `Safe`.
-/

namespace Kalatori

open Scale Transition

/-- A served request. -/
structure Served where
  before : Orders
  around : Surroundings
  request : DbRequest
  reply : Except DbError request.Reply
  after : Orders

/-- One turn of the server. -/
inductive LedgerStep (account_lifetime : Timestamp) : Orders → Served → Orders → Prop
  | serve (orders : Orders) (around : Surroundings) (r : DbRequest) :
      LedgerStep account_lifetime orders
        ⟨orders, around, r, ((serve account_lifetime around r).runOn orders).1,
          ((serve account_lifetime around r).runOn orders).2⟩
        ((serve account_lifetime around r).runOn orders).2

/-- A run that starts from an empty tree. -/
abbrev LedgerRun (account_lifetime : Timestamp) : List Served → Orders → Prop :=
  Reach (LedgerStep account_lifetime) always (· = ∅)

/-- Two records make the same offer to the customer. -/
structure SameOffer (a b : OrderInfo) : Prop where
  amount : a.amount = b.amount
  currency : a.currency = b.currency
  callback : a.callback = b.callback
  payment_account : a.payment_account = b.payment_account
  death : a.death = b.death

theorem SameOffer.refl (a : OrderInfo) : SameOffer a a := ⟨rfl, rfl, rfl, rfl, rfl⟩

theorem SameOffer.symm {a b : OrderInfo} (h : SameOffer a b) : SameOffer b a :=
  ⟨h.amount.symm, h.currency.symm, h.callback.symm, h.payment_account.symm, h.death.symm⟩

theorem SameOffer.trans {a b c : OrderInfo} (h : SameOffer a b) (h' : SameOffer b c) :
    SameOffer a c :=
  ⟨h.amount.trans h'.amount, h.currency.trans h'.currency, h.callback.trans h'.callback,
    h.payment_account.trans h'.payment_account, h.death.trans h'.death⟩

theorem sameOffer_attempted (a : OrderInfo) (status : WithdrawalStatus) :
    SameOffer a (a.attempted status) := ⟨rfl, rfl, rfl, rfl, rfl⟩

/-- An error or a collision. -/
def DbRequest.Refused : (r : DbRequest) → Except DbError r.Reply → Prop
  | _, .error _ => True
  | .createOrder .., .ok reply => ∃ info, reply = OrderCreateResponse.collision info
  | _, .ok _ => False

/-- **The life cycle of the orders along a run.** -/
structure LifeCycle (h : List Served) : Prop where
  /-- A request changes nothing but the record of its order. -/
  isolated : ∀ e ∈ h, ∀ key, (∀ order, e.request.order? = some order → key ≠ orderKey order) →
    e.after[key]? = e.before[key]?
  /-- A paid order stays paid, and stays the same offer. -/
  settled : ∀ h₁ e h₂, h = h₁ ++ e :: h₂ → ∀ order info, record e.before order = some info →
    info.payment_status = .paid → ∀ e' ∈ e :: h₂, ∃ info', record e'.after order = some info' ∧
      info'.payment_status = .paid ∧ SameOffer info info'
  /-- The withdrawal status changes while the order is paid, from waiting to one of the
  others, and never again. -/
  withdrawn : ∀ h₁ e h₂, h = h₁ ++ e :: h₂ → ∀ order info info',
    record e.before order = some info → record e.after order = some info' →
    info'.withdrawal_status ≠ info.withdrawal_status →
      info.payment_status = .paid ∧ info.withdrawal_status = .waiting ∧
      (info'.withdrawal_status = .completed ∨ info'.withdrawal_status = .failed) ∧
      ∀ e' ∈ h₂, ∃ info'', record e'.after order = some info'' ∧
        info''.withdrawal_status = info'.withdrawal_status
  /-- A refused request writes nothing. -/
  refused : ∀ e ∈ h, e.request.Refused e.reply → e.after = e.before

/-- The withdrawal that a request records. -/
def DbRequest.attempt? : DbRequest → Option (String × WithdrawalStatus)
  | .markWithdrawn order => some (order, .completed)
  | .markStuck order => some (order, .failed)
  | _ => none

/-- **A withdrawal that may be recorded.**  If there is something to attempt, then the order
that will be written has no record, or has one that is paid for the same offer and either waits
as well or already has the status that will be written. -/
def Served.Safe (e : Served) : Prop :=
  ∀ order status, e.request.attempt? = some (order, status) →
    ∀ source, Attempts e.around e.before order source →
      ∀ info, record e.before order = some info →
        info.payment_status = .paid ∧ SameOffer source info ∧
          (info.withdrawal_status = .waiting ∨ info.withdrawal_status = status)

theorem order?_of_attempt? {r : DbRequest} {p : String × WithdrawalStatus}
    (h : r.attempt? = some p) : r.order? = some p.1 := by
  cases r with
  | markWithdrawn | markStuck =>
    obtain rfl := Option.some.inj h
    rfl
  | _ => cases h

theorem attempt?_ne_waiting {r : DbRequest} {order : String} :
    r.attempt? ≠ some (order, .waiting) := by
  cases r <;> simp [DbRequest.attempt?]

theorem withdrawalStatus_cases {status : WithdrawalStatus} (h : status ≠ .waiting) :
    status = .completed ∨ status = .failed := by
  cases status with
  | waiting => exact absurd rfl h
  | failed => exact .inr rfl
  | completed => exact .inl rfl

section Steps

variable {account_lifetime : Timestamp} {orders orders' : Orders} {e : Served}

theorem LedgerStep.before_eq (hs : LedgerStep account_lifetime orders e orders') :
    e.before = orders := by
  cases hs with
  | serve => rfl

theorem LedgerStep.after_eq (hs : LedgerStep account_lifetime orders e orders') :
    e.after = orders' := by
  cases hs with
  | serve => rfl

theorem LedgerStep.effect (hs : LedgerStep account_lifetime orders e orders') :
    Effect account_lifetime e.around.now orders e.request e.reply orders' := by
  cases hs with
  | serve around r => exact serve_effect r

/-- A request for a withdrawal either changes nothing, and had nothing to attempt, or it
writes what it found. -/
theorem LedgerStep.attempt_cases (hs : LedgerStep account_lifetime orders e orders')
    {order : String} {status : WithdrawalStatus}
    (ha : e.request.attempt? = some (order, status)) :
    (orders' = orders ∧ ∀ source, ¬Attempts e.around orders order source) ∨
      ∃ source, Attempts e.around orders order source ∧
        orders' = orders.insert (orderKey order) (source.attempted status).encode := by
  cases hs with
  | serve around r =>
    cases r with
    | markWithdrawn o | markStuck o =>
      obtain ⟨rfl, rfl⟩ : o = order ∧ _ = status := by simpa [DbRequest.attempt?] using ha
      rcases markWithdrawal_cases around orders _ o with
        ⟨⟨err, he⟩, hnone⟩ | ⟨source, h, he⟩
      · exact .inl ⟨congrArg Prod.snd he, hnone⟩
      · exact .inr ⟨source, h, congrArg Prod.snd he⟩
    | _ => simp [DbRequest.attempt?] at ha

/-- What can become of a record in one step. -/
theorem LedgerStep.record_cases (hs : LedgerStep account_lifetime orders e orders')
    {order : String} {old : OrderInfo} (hrec : record orders order = some old) :
    record orders' order = some old ∨
      (old.payment_status = .pending ∧ ∃ info, record orders' order = some info ∧
        info.withdrawal_status = old.withdrawal_status) ∨
      ∃ source status, e.request.attempt? = some (order, status) ∧
        Attempts e.around orders order source ∧
        record orders' order = some (source.attempted status) := by
  by_cases hne : e.request.order? = some order
  swap
  · exact .inl (hs.effect.record_of_ne hne ▸ hrec)
  cases ha : e.request.attempt? with
  | some p =>
    obtain rfl : p.1 = order := Option.some.inj ((order?_of_attempt? ha).symm.trans hne)
    rcases hs.attempt_cases ha with ⟨rfl, -⟩ | ⟨source, h, rfl⟩
    · exact .inl hrec
    · exact .inr (.inr ⟨source, p.2, rfl, h, record_insert_self ..⟩)
  | none =>
    obtain ⟨before, around, r, reply, after⟩ := e
    have heffect : Effect account_lifetime around.now orders r reply orders' := hs.effect
    clear hs
    cases heffect with
    | failed | listed | read | collided => exact .inl hrec
    | withdrawn | stuck => cases ha
    | created o _ _ _ _ h =>
      obtain rfl : o = order := Option.some.inj hne
      rw [record, recordAt, h] at hrec
      cases hrec
    | modified o _ _ _ old' info h hp hi =>
      obtain rfl : o = order := Option.some.inj hne
      obtain rfl : old' = old := Option.some.inj (h.symm.trans hrec)
      exact .inr (.inl ⟨hp, info, record_insert_self .., hi ▸ rfl⟩)
    | paid o old' info h hp hi =>
      obtain rfl : o = order := Option.some.inj hne
      obtain rfl : old' = old := Option.some.inj (h.symm.trans hrec)
      exact .inr (.inl ⟨hp, info, record_insert_self .., hi ▸ rfl⟩)

/-- A record that waits for its payment also waits for its withdrawal. -/
def PendingWaits (orders : Orders) : Prop :=
  ∀ order info, record orders order = some info → info.payment_status = .pending →
    info.withdrawal_status = .waiting

theorem LedgerStep.pendingWaits (hs : LedgerStep account_lifetime orders e orders')
    (h : PendingWaits orders) : PendingWaits orders' := by
  intro order info hrec hp
  by_cases hne : e.request.order? = some order
  swap
  · exact h order info (hs.effect.record_of_ne hne ▸ hrec) hp
  obtain ⟨before, around, r, reply, after⟩ := e
  have heffect : Effect account_lifetime around.now orders r reply orders' := hs.effect
  clear hs
  cases heffect with
  | failed | listed | read | collided => exact h order info hrec hp
  | created o _ _ _ info' _ hi =>
    obtain rfl : o = order := Option.some.inj hne
    obtain rfl : info' = info := by simpa using hrec
    rw [hi]
    rfl
  | modified o _ _ _ old info' hold hpold hi =>
    obtain rfl : o = order := Option.some.inj hne
    obtain rfl : info' = info := by simpa using hrec
    rw [hi]
    exact h o old hold hpold
  | paid o old info' _ _ hi =>
    obtain rfl : o = order := Option.some.inj hne
    obtain rfl : info' = info := by simpa using hrec
    rw [hi] at hp
    cases hp
  | withdrawn o source _ hpaid | stuck o source _ hpaid =>
    obtain rfl : o = order := Option.some.inj hne
    obtain rfl := by simpa using hrec
    cases hpaid.symm.trans hp

/-- Without a request for a withdrawal, the record of a paid order stays as it is. -/
theorem Effect.paid_kept {now : Timestamp} {r : DbRequest} {reply : Except DbError r.Reply}
    (h : Effect account_lifetime now orders r reply orders') (ha : r.attempt? = none)
    {order : String} {info : OrderInfo} (hrec : record orders order = some info)
    (hp : info.payment_status = .paid) : record orders' order = some info := by
  by_cases hne : r.order? = some order
  swap
  · exact h.record_of_ne hne ▸ hrec
  cases h with
  | failed | listed | read | collided => exact hrec
  | withdrawn | stuck => cases ha
  | created o _ _ _ _ h =>
    obtain rfl : o = order := Option.some.inj hne
    rw [record, recordAt, h] at hrec
    cases hrec
  | modified o _ _ _ old _ h hpending | paid o old _ h hpending =>
    obtain rfl : o = order := Option.some.inj hne
    obtain rfl := Option.some.inj (h.symm.trans hrec)
    cases hpending.symm.trans hp

/-- Where a record comes from that is there after a request which is not one for a withdrawal. -/
inductive RecordOrigin (orders : Orders) (order : String) (info : OrderInfo) :
    (r : DbRequest) → Except DbError r.Reply → Prop
  | kept {r : DbRequest} {reply : Except DbError r.Reply} (h : record orders order = some info) :
      RecordOrigin orders order info r reply
  | made (query : OrderQuery) (currency : CurrencyInfo) (payment_account : String)
      (death : Timestamp) (hi : info = OrderInfo.new query currency payment_account death) :
      RecordOrigin orders order info (.createOrder order query currency payment_account)
        (.ok (.new info))
  | renewed (query : OrderQuery) (currency : CurrencyInfo) (payment_account : String)
      (death : Timestamp) (old : OrderInfo) (hold : record orders order = some old)
      (hp : old.payment_status = .pending) (hi : info = old.renewed query currency death) :
      RecordOrigin orders order info (.createOrder order query currency payment_account)
        (.ok (.modified info))
  | paid (old : OrderInfo) (hold : record orders order = some old) (hi : info = old.paid) :
      RecordOrigin orders order info (.markPaid order) (.ok info)

theorem Effect.recordOrigin {now : Timestamp} {r : DbRequest} {reply : Except DbError r.Reply}
    (h : Effect account_lifetime now orders r reply orders') (hno : r.attempt? = none)
    {order : String} {info : OrderInfo} (hrec : record orders' order = some info) :
    RecordOrigin orders order info r reply := by
  by_cases hne : r.order? = some order
  swap
  · exact .kept (h.record_of_ne hne ▸ hrec)
  cases h with
  | failed | listed | read | collided => exact .kept hrec
  | withdrawn | stuck => cases hno
  | created o query currency payment_account new _ hi =>
    obtain rfl : o = order := Option.some.inj hne
    obtain rfl : new = info := by simpa using hrec
    exact .made _ _ _ _ hi
  | modified o query currency payment_account old new hold hp hi =>
    obtain rfl : o = order := Option.some.inj hne
    obtain rfl : new = info := by simpa using hrec
    exact .renewed _ _ _ _ old hold hp hi
  | paid o old new hold _ hi =>
    obtain rfl : o = order := Option.some.inj hne
    obtain rfl : new = info := by simpa using hrec
    exact .paid old hold hi

theorem LedgerRun.pendingWaits {h : List Served} (run : LedgerRun account_lifetime h orders) :
    PendingWaits orders := by
  refine run.invariant (P := fun _ s => PendingWaits s) ?_ fun _ _ _ _ _ hw _ hs =>
    hs.pendingWaits hw
  rintro _ rfl order info hrec
  simp [record, recordAt] at hrec

theorem LedgerRun.wellStored {h : List Served} (run : LedgerRun account_lifetime h orders) :
    WellStored orders :=
  run.invariant (P := fun _ s => WellStored s) (fun _ h => h ▸ wellStored_empty)
    fun _ _ _ _ _ hw _ hs => hs.effect.wellStored hw

/-- A safe step keeps a paid order paid, for the same offer, and does not touch a withdrawal
that was recorded. -/
theorem LedgerStep.settled (hs : LedgerStep account_lifetime orders e orders') (hsafe : e.Safe)
    {order : String} {info : OrderInfo} (hrec : record orders order = some info)
    (hp : info.payment_status = .paid) :
    ∃ info', record orders' order = some info' ∧ info'.payment_status = .paid ∧
      SameOffer info info' ∧
      (info.withdrawal_status = .waiting ∨ info'.withdrawal_status = info.withdrawal_status) := by
  rcases hs.record_cases hrec with hsame | ⟨hpending, -⟩ | ⟨source, status, ha, hattempt, hnew⟩
  · exact ⟨info, hsame, hp, .refl info, .inr rfl⟩
  · cases hpending.symm.trans hp
  · rw [← hs.before_eq] at hrec hattempt
    obtain ⟨-, hoffer, hw⟩ := hsafe order status ha source hattempt info hrec
    refine ⟨_, hnew, hattempt.paid, hoffer.symm.trans (sameOffer_attempted source status), ?_⟩
    exact hw.imp_right Eq.symm

/-- A safe step changes the withdrawal status of a paid order only, and only if it waits. -/
theorem LedgerStep.withdrawn (hs : LedgerStep account_lifetime orders e orders')
    (hsafe : e.Safe) {order : String} {info info' : OrderInfo}
    (hrec : record orders order = some info) (hrec' : record orders' order = some info')
    (hne : info'.withdrawal_status ≠ info.withdrawal_status) :
    info.payment_status = .paid ∧ info.withdrawal_status = .waiting ∧
      info'.payment_status = .paid ∧
      (info'.withdrawal_status = .completed ∨ info'.withdrawal_status = .failed) := by
  rcases hs.record_cases hrec with hsame | ⟨-, info₁, hsame, hw⟩ | ⟨source, status, ha, hat, hnew⟩
  · exact absurd (congrArg _ (Option.some.inj (hrec'.symm.trans hsame))) hne
  · obtain rfl : info' = info₁ := Option.some.inj (hrec'.symm.trans hsame)
    exact absurd hw hne
  · obtain rfl : info' = source.attempted status := Option.some.inj (hrec'.symm.trans hnew)
    rw [← hs.before_eq] at hrec hat
    obtain ⟨hp, -, hw | hw⟩ := hsafe order status ha source hat info hrec
    · refine ⟨hp, hw, hat.paid, ?_⟩
      rw [hw] at hne
      exact withdrawalStatus_cases hne
    · exact absurd hw.symm hne

/-- A refused request writes nothing. -/
theorem LedgerStep.refused (hs : LedgerStep account_lifetime orders e orders')
    (h : e.request.Refused e.reply) : orders' = orders := by
  obtain ⟨before, around, r, reply, after⟩ := e
  have heffect : Effect account_lifetime around.now orders r reply orders' := hs.effect
  clear hs
  cases heffect with
  | failed | listed | read | collided => rfl
  | created | modified =>
    obtain ⟨info, hinfo⟩ := h
    cases hinfo
  | paid | withdrawn | stuck => exact h.elim

end Steps

/-! ## Runs -/

section Runs

variable {account_lifetime : Timestamp} {orders : Orders} {h : List Served}

/-- What safe steps keep holds after every later request. -/
theorem kept_after {Q : Orders → Prop} {h₁ h₂ : List Served} {e e' : Served}
    (run : LedgerRun account_lifetime (h₁ ++ e :: h₂) orders)
    (hsafe : ∀ x ∈ h₁ ++ e :: h₂, x.Safe) (he' : e' ∈ h₂)
    (keep : ∀ s x s', x.Safe → LedgerStep account_lifetime s x s' → Q s → Q s')
    (hq : Q e.after) : Q e'.after := by
  obtain ⟨a, b, rfl⟩ := List.append_of_mem he'
  have run' := run.strengthen hsafe
  rw [← List.cons_append, ← List.append_assoc] at run'
  obtain ⟨s₁, s₂, run₁, hok, hs⟩ := run'.split
  rw [hs.after_eq]
  refine keep s₁ e' s₂ hok hs (run₁.kept (fun _ s x s' _ hok hs hq => keep s x s' hok hs hq) ?_)
  intro _ _ _ hs
  exact hs.after_eq ▸ hq

/-- A run all of whose withdrawals are safe follows the life cycle. -/
theorem lifeCycle_of_safe (run : LedgerRun account_lifetime h orders) (hsafe : ∀ e ∈ h, e.Safe) :
    LifeCycle h where
  isolated := by
    intro e he key hkey
    obtain ⟨h₁, h₂, rfl⟩ := List.append_of_mem he
    obtain ⟨s₁, s₂, -, -, hs⟩ := run.split
    rw [hs.after_eq, hs.before_eq]
    exact hs.effect.getElem?_of_ne hkey
  settled := by
    rintro h₁ e h₂ rfl order info hrec hp
    obtain ⟨s₁, s₂, -, -, hs⟩ := run.split
    rw [hs.before_eq] at hrec
    obtain ⟨info', hrec', hp', hoffer, -⟩ := hs.settled (hsafe e (by simp)) hrec hp
    rintro e' (_ | ⟨_, he'⟩)
    · rw [hs.after_eq]
      exact ⟨info', hrec', hp', hoffer⟩
    · refine kept_after run hsafe he'
        (Q := fun s => ∃ info', record s order = some info' ∧ info'.payment_status = .paid ∧
          SameOffer info info') (fun s e' s' hok hs ⟨info₁, hrec₁, hp₁, hoffer₁⟩ => ?_)
        (hs.after_eq ▸ ⟨info', hrec', hp', hoffer⟩)
      obtain ⟨info₂, hrec₂, hp₂, hoffer₂, -⟩ := hs.settled hok hrec₁ hp₁
      exact ⟨info₂, hrec₂, hp₂, hoffer₁.trans hoffer₂⟩
  withdrawn := by
    rintro h₁ e h₂ rfl order info info' hrec hrec' hne
    obtain ⟨s₁, s₂, -, -, hs⟩ := run.split
    rw [hs.before_eq] at hrec
    rw [hs.after_eq] at hrec'
    obtain ⟨hp, hw, hp', hnew⟩ := hs.withdrawn (hsafe e (by simp)) hrec hrec' hne
    refine ⟨hp, hw, hnew, fun e' he' => ?_⟩
    obtain ⟨info'', hrec'', -, hw''⟩ := kept_after run hsafe he'
      (Q := fun s => ∃ info'', record s order = some info'' ∧ info''.payment_status = .paid ∧
        info''.withdrawal_status = info'.withdrawal_status)
      (fun s e' s' hok hs ⟨info₁, hrec₁, hp₁, hw₁⟩ => by
        obtain ⟨info₂, hrec₂, hp₂, -, hwait | hsame⟩ := hs.settled hok hrec₁ hp₁
        · rw [hw₁] at hwait
          rw [hw, hwait] at hne
          exact absurd rfl hne
        · exact ⟨info₂, hrec₂, hp₂, hsame.trans hw₁⟩)
      (hs.after_eq ▸ ⟨info', hrec', hp', rfl⟩)
    exact ⟨info'', hrec'', hw''⟩
  refused := by
    intro e he hrefused
    obtain ⟨h₁, h₂, rfl⟩ := List.append_of_mem he
    obtain ⟨s₁, s₂, -, -, hs⟩ := run.split
    rw [hs.after_eq, hs.before_eq]
    exact hs.refused hrefused

/-- A run that follows the life cycle has no unsafe withdrawal. -/
theorem safe_of_lifeCycle (run : LedgerRun account_lifetime h orders) (hlife : LifeCycle h) :
    ∀ e ∈ h, e.Safe := by
  intro e he order status ha source hat info hrec
  obtain ⟨h₁, h₂, rfl⟩ := List.append_of_mem he
  obtain ⟨s₁, s₂, hrun, -, hs⟩ := run.split
  have hafter : record e.after order = some (source.attempted status) := by
    rcases hs.attempt_cases ha with ⟨-, hnone⟩ | ⟨source', hat', hw⟩
    · exact absurd (hs.before_eq ▸ hat) (hnone source)
    · obtain rfl : source' = source :=
        Option.some.inj (hat'.stored.symm.trans (hs.before_eq ▸ hat.stored))
      rw [hs.after_eq, hw, record_insert_self]
  have hwaits : PendingWaits e.before := hs.before_eq ▸ LedgerRun.pendingWaits hrun
  have hstatus : status ≠ .waiting := by
    rintro rfl
    exact attempt?_ne_waiting ha
  cases hp : info.payment_status with
  | pending =>
    -- A pending record waits, so writing an attempt over it changes its withdrawal status.
    have hwait := hwaits order info hrec hp
    obtain ⟨hpaid, -⟩ := hlife.withdrawn h₁ e h₂ rfl order info _ hrec hafter
      (by rw [hwait]; exact hstatus)
    cases hpaid.symm.trans hp
  | paid =>
    obtain ⟨info', hrec', -, hoffer⟩ := hlife.settled h₁ e h₂ rfl order info hrec hp e (by simp)
    obtain rfl : info' = source.attempted status := Option.some.inj (hrec'.symm.trans hafter)
    refine ⟨rfl, (hoffer.trans (sameOffer_attempted source status).symm).symm, ?_⟩
    by_cases hsame : info.withdrawal_status = status
    · exact .inr hsame
    · obtain ⟨-, hwait, -⟩ := hlife.withdrawn h₁ e h₂ rfl order info _ hrec hafter (Ne.symm hsame)
      exact .inl hwait

/-- **A run follows the life cycle exactly when its withdrawals are safe.** -/
theorem lifeCycle_iff (run : LedgerRun account_lifetime h orders) :
    LifeCycle h ↔ ∀ e ∈ h, e.Safe :=
  ⟨safe_of_lifeCycle run, lifeCycle_of_safe run⟩

/-! ## Two runs -/

/-- The server as a function, for replaying requests. -/
def ledgerExec (account_lifetime : Timestamp) (orders : Orders) (input : Surroundings × DbRequest) :
    Option (Served × Orders) :=
  let out := (serve account_lifetime input.1 input.2).runOn orders
  some (⟨orders, input.1, input.2, out.1, out.2⟩, out.2)

theorem ledgerExec_sound (account_lifetime : Timestamp) (orders : Orders)
    (input : Surroundings × DbRequest) (e : Served) (orders' : Orders)
    (h : ledgerExec account_lifetime orders input = some (e, orders')) :
    LedgerStep account_lifetime orders e orders' := by
  obtain ⟨rfl, rfl⟩ := Prod.mk.inj (Option.some.inj h)
  exact .serve orders input.1 input.2

/-- A currency of a chain. -/
def dot : CurrencyInfo := ⟨"DOT", "polkadot", .native, 10, "wss://node", none, 0⟩

/-- An order of a shop. -/
def purchase (order : String) : DbRequest :=
  .createOrder order ⟨order, ⟨0x3ff0000000000000⟩, "", "DOT"⟩ dot "account"

/-- The third string begins with the character of code 12, which is the compact form of the
length three, so its bytes are the key of `"abc"`. -/
def collidingKeys : List DbRequest :=
  [purchase "abc", purchase "\x0cabc", .markPaid "abc", .markWithdrawn "\x0cabc"]

/-- A purchase that is paid and asked for again. -/
def paidOnce : List DbRequest := [purchase "abc", .markPaid "abc", purchase "abc"]

theorem lifeCycle_iff_paidOnce : ∃ h orders, LedgerRun 0 h orders ∧
    h.map (·.request) = paidOnce ∧ LifeCycle h := by
  obtain ⟨h, orders, run, hp⟩ := exists_reach_of_replay (ledgerExec_sound 0) (· = ∅) rfl
    (paidOnce.map fun r => (Surroundings.calm 0, r))
    (p := fun q => q.1.map (·.request) == paidOnce) (by decide +kernel)
  have hp := beq_iff_eq.mp hp
  refine ⟨h, orders, run, hp, (lifeCycle_iff run).mpr fun e he order status ha => ?_⟩
  have hmem : e.request ∈ paidOnce := hp ▸ List.mem_map_of_mem he
  have hnone : ∀ r ∈ paidOnce, r.attempt? = none := by decide
  cases (hnone _ hmem).symm.trans ha

/-- **A withdrawal recorded for an order that was never paid.**  The last request reads the
record of `"abc"` and writes it over the pending record of the other order. -/
theorem collidingKeys_not_lifeCycle : ∃ h orders, LedgerRun 0 h orders ∧
    h.map (·.request) = collidingKeys ∧ ¬LifeCycle h := by
  obtain ⟨h, orders, run, hp⟩ := exists_reach_of_replay (ledgerExec_sound 0) (· = ∅) rfl
    (collidingKeys.map fun r => (Surroundings.calm 0, r))
    (p := fun q => q.1.map (·.request) == collidingKeys && q.1.getLast?.any fun e =>
      (record e.before "\x0cabc").any (fun info => info.payment_status = .pending &&
        info.withdrawal_status = .waiting) &&
      (record e.after "\x0cabc").any (·.withdrawal_status = .completed)) (by decide +kernel)
  simp only [Bool.and_eq_true, beq_iff_eq, Option.any_eq_true, decide_eq_true_eq] at hp
  obtain ⟨hreq, e, he, ⟨info, hrec, hpending, hwaiting⟩, info', hrec', hcompleted⟩ := hp
  refine ⟨h, orders, run, hreq, fun hlife => ?_⟩
  obtain ⟨h₁, rfl⟩ := List.getLast?_eq_some_iff.mp he
  obtain ⟨hpaid, -⟩ := hlife.withdrawn h₁ e [] rfl _ info info' hrec hrec'
    (by rw [hcompleted, hwaiting]; decide)
  cases hpending.symm.trans hpaid

end Runs

end Kalatori
