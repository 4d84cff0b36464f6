import Kalatori.Database.LifeCycle

/-!
# Which record a withdrawal reaches

`mark_withdrawn` and `mark_stuck` should find the record of the order they name
and answer by its state.  They look under the bytes of the string, where no other
function writes, so what they find is the record of a second order, or nothing.
`withdrawalReaches_iff` says for which orders this makes no difference: those that have no
record, and those whose record the second order happens to share.

* `Works`: a store that answers.
* `WithdrawalReaches`: what the two requests owe to the order they name.
* `paid_order_not_found`: an order that is paid, and cannot be found.
-/

namespace Kalatori

open Scale Transition

variable {account_lifetime : Timestamp} {h : List Served} {orders : Orders}

/-- The store answers. -/
structure Surroundings.Works (around : Surroundings) : Prop where
  get_works : around.get_fails = false
  insert_works : around.insert_fails = false

/-- A request for a new order was answered well. -/
def Created (h : List Served) (order : String) : Prop :=
  ∃ e ∈ h, ∃ query currency payment_account response,
    e.request = .createOrder order query currency payment_account ∧ HEq e.reply
      (Except.ok response : Except DbError OrderCreateResponse)

/-- **A request that records a withdrawal reaches the order it names**, when the store
answers. -/
structure Reaches (h : List Served) (orders : Orders) (order : String) (status : WithdrawalStatus)
    (mark : Surroundings → String → Db Unit) : Prop where
  /-- If the order is paid and waits for its withdrawal, the status is recorded. -/
  recorded : ∀ around : Surroundings, around.Works → ∀ info, record orders order = some info →
    info.payment_status = .paid → info.withdrawal_status = .waiting →
    let out := (mark around order).runOn orders
    out.1 = .ok () ∧ ∀ around' : Surroundings, around'.Works →
      ((readOrder around' order).runOn out.2).1 = .ok (some (info.attempted status))
  /-- If it is not paid, or a withdrawal was attempted, it is refused for that reason. -/
  notPaid : ∀ around : Surroundings, around.Works → ∀ info, record orders order = some info →
    info.payment_status = .pending → ((mark around order).runOn orders).1 = .error (.notPaid order)
  attempted : ∀ around : Surroundings, around.Works → ∀ info, record orders order = some info →
    info.withdrawal_status ≠ .waiting →
    ((mark around order).runOn orders).1 = .error (.withdrawalWasAttempted order)
  /-- An order is not found only if it was never made. -/
  notFound : ∀ around : Surroundings, around.Works →
    ((mark around order).runOn orders).1 = .error (.orderNotFound order) → ¬Created h order

structure WithdrawalReaches (h : List Served) (orders : Orders) (order : String) : Prop where
  withdrawn : Reaches h orders order .completed markWithdrawn
  stuck : Reaches h orders order .failed markStuck

/-- The record that is found may stand for the record of the order. -/
structure OrderInfo.StandsFor (source info : OrderInfo) : Prop where
  payment_status : source.payment_status = info.payment_status
  withdrawal_status : info.payment_status = .paid →
    (source.withdrawal_status = .waiting ↔ info.withdrawal_status = .waiting)
  same : info.payment_status = .paid → info.withdrawal_status = .waiting → source = info

/-! ## What the requests do -/

theorem runOn_readOrder {around : Surroundings} (hw : around.Works) {order : String}
    {info : OrderInfo} (hrec : record orders order = some info) :
    ((readOrder around order).runOn orders).1 = .ok (some info) := by
  obtain ⟨bytes, hkey, hinfo⟩ := Option.bind_eq_some_iff.mp hrec
  unfold readOrder
  rw [Db.runOn_bind, Db.runOn_get, hw.get_works, hkey]
  simp only [Bool.false_eq_true, ↓reduceIte]
  rw [Db.runOn_bind, Db.runOn_decode, hinfo]
  rfl

/-- The answer to a request that records a withdrawal, and the tree it leaves, by the record
that is found. -/
def withdrawalAnswer (status : WithdrawalStatus) (orders : Orders) (order : String) :
    Option OrderInfo → Except DbError Unit × Orders
  | none => (.error (.orderNotFound order), orders)
  | some source =>
    if source.payment_status = .paid then
      if source.withdrawal_status = .waiting then
        (.ok (), orders.insert (orderKey order) (source.attempted status).encode)
      else (.error (.withdrawalWasAttempted order), orders)
    else (.error (.notPaid order), orders)

/-- On a tree that the server wrote, a withdrawal answers by the record under the bytes of the
order. -/
theorem runOn_markWithdrawal (hstored : WellStored orders) {around : Surroundings}
    (hw : around.Works) (status : WithdrawalStatus) (order : String) :
    (markWithdrawal status around order).runOn orders =
      withdrawalAnswer status orders order (recordAt orders (Codec.rawBytes order)) := by
  unfold markWithdrawal
  rw [Db.runOn_bind, Db.runOn_get, hw.get_works]
  simp only [Bool.false_eq_true, ↓reduceIte]
  cases hkey : orders[Codec.rawBytes order]? with
  | none => simp [recordAt, hkey, withdrawalAnswer]
  | some bytes =>
    obtain ⟨other, info, -, rfl⟩ := hstored _ _ hkey
    have hrec : recordAt orders (Codec.rawBytes order) = some info := by simp [recordAt, hkey]
    have hdecode : OrderInfo.decode info.encode = some info := OrderInfo.decode_encode info
    rw [hrec]
    simp only [withdrawalAnswer]
    rw [Db.runOn_bind, Db.runOn_decode, hdecode]
    simp only
    split_ifs with hpaid hwaiting
    · rw [Db.runOn_insert, hw.insert_works]
      rfl
    · rfl
    · rfl

/-- A record, once it is there, is never removed. -/
theorem LedgerStep.record_kept {orders' : Orders} {e : Served}
    (hs : LedgerStep account_lifetime orders e orders') {order : String}
    (hrec : ∃ info, record orders order = some info) :
    ∃ info, record orders' order = some info := by
  obtain ⟨info, hrec⟩ := hrec
  rcases hs.record_cases hrec with h | ⟨-, info', h, -⟩ | ⟨source, status, -, -, h⟩
  · exact ⟨info, h⟩
  · exact ⟨info', h⟩
  · exact ⟨_, h⟩

/-- A request for a new order that is answered well leaves a record. -/
theorem LedgerStep.record_created {orders' : Orders} {e : Served}
    (hs : LedgerStep account_lifetime orders e orders') {order : String}
    (hc : Created [e] order) : ∃ info, record orders' order = some info := by
  obtain ⟨e', he', query, currency, payment_account, response, hrequest, hreply⟩ := hc
  obtain rfl : e' = e := by simpa using he'
  obtain ⟨before, around, r, reply, after⟩ := e'
  have heffect : Effect account_lifetime around.now orders r reply orders' := hs.effect
  clear hs
  cases hrequest
  cases hreply
  cases heffect with
  | created | modified => exact ⟨_, record_insert_self ..⟩
  | collided _ _ _ _ info hrec _ => exact ⟨info, hrec⟩

/-- An order that was made has a record. -/
theorem record_of_created (run : LedgerRun account_lifetime h orders) {order : String}
    (hc : Created h order) : ∃ info, record orders order = some info := by
  obtain ⟨e, he, hanswer⟩ := hc
  obtain ⟨h₁, h₂, rfl⟩ := List.append_of_mem he
  refine run.kept (Q := fun s => ∃ info, record s order = some info) ?_ ?_
  · intro _ s x s' _ _ hs hrec
    exact hs.record_kept hrec
  · intro s₁ s₂ _ hs
    exact hs.record_created ⟨e, List.mem_singleton_self e, hanswer⟩

/-! ## When the requests reach their order -/

theorem attempted_injective {a b : OrderInfo} {status : WithdrawalStatus}
    (ha : a.withdrawal_status = .waiting) (hb : b.withdrawal_status = .waiting)
    (hab : a.attempted status = b.attempted status) : a = b := by
  cases a
  cases b
  simp_all [OrderInfo.attempted]

/-- A request that reaches its order has found a record that may stand for that of the order. -/
theorem Reaches.standsFor {status : WithdrawalStatus} {order : String}
    (hr : Reaches h orders order status (markWithdrawal status)) (hstored : WellStored orders)
    {info : OrderInfo} (hrec : record orders order = some info) :
    ∃ source, recordAt orders (Codec.rawBytes order) = some source ∧ source.StandsFor info := by
  have hcalm : (Surroundings.calm 0).Works := ⟨rfl, rfl⟩
  have hans := runOn_markWithdrawal hstored hcalm status order
  cases hsource : recordAt orders (Codec.rawBytes order) with
  | none =>
    exfalso
    rw [hsource] at hans
    cases hp : info.payment_status with
    | pending =>
      have hout := hr.notPaid _ hcalm info hrec hp
      rw [hans] at hout
      cases hout
    | paid =>
      by_cases hw : info.withdrawal_status = .waiting
      · obtain ⟨hout, -⟩ := hr.recorded _ hcalm info hrec hp hw
        rw [hans] at hout
        cases hout
      · have hout := hr.attempted _ hcalm info hrec hw
        rw [hans] at hout
        cases hout
  | some source =>
    rw [hsource, withdrawalAnswer] at hans
    refine ⟨source, rfl, ?_⟩
    cases hp : info.payment_status with
    | pending =>
      have hout := hr.notPaid _ hcalm info hrec hp
      have hpending : source.payment_status = .pending := by
        cases hsp : source.payment_status with
        | pending => rfl
        | paid =>
          rw [hans, if_pos hsp] at hout
          by_cases hsw : source.withdrawal_status = .waiting
          · rw [if_pos hsw] at hout
            cases hout
          · rw [if_neg hsw] at hout
            cases hout
      refine ⟨hpending.trans hp.symm, ?_, ?_⟩ <;> simp [hp]
    | paid =>
      by_cases hw : info.withdrawal_status = .waiting
      · obtain ⟨hout, hread⟩ := hr.recorded _ hcalm info hrec hp hw
        have hread := hread _ hcalm
        rw [hans] at hout hread
        split_ifs at hout hread with hsp hsw
        have hsame := (runOn_readOrder hcalm (record_insert_self ..)).symm.trans hread
        simp only [Except.ok.injEq, Option.some.injEq] at hsame
        obtain rfl := attempted_injective hsw hw hsame
        exact ⟨rfl, fun _ => Iff.rfl, fun _ _ => rfl⟩
      · have hout := hr.attempted _ hcalm info hrec hw
        rw [hans] at hout
        by_cases hsp : source.payment_status = .paid
        · rw [if_pos hsp] at hout
          by_cases hsw : source.withdrawal_status = .waiting
          · rw [if_pos hsw] at hout
            cases hout
          · exact ⟨hsp.trans hp.symm, fun _ => iff_of_false hsw hw, fun _ h => absurd h hw⟩
        · rw [if_neg hsp] at hout
          cases hout

/-- A request that finds a record that may stand for that of its order reaches it. -/
theorem reaches_of_standsFor (run : LedgerRun account_lifetime h orders) {order : String}
    (hfound : ∀ info, record orders order = some info →
      ∃ source, recordAt orders (Codec.rawBytes order) = some source ∧ source.StandsFor info)
    (status : WithdrawalStatus) : Reaches h orders order status (markWithdrawal status) where
  recorded := by
    intro around hworks info hrec hp hw
    obtain ⟨source, hsource, hs⟩ := hfound info hrec
    obtain rfl := hs.same hp hw
    have hans := runOn_markWithdrawal run.wellStored hworks status order
    rw [hsource, withdrawalAnswer, if_pos hp, if_pos hw] at hans
    rw [hans]
    exact ⟨rfl, fun around' hworks' => runOn_readOrder hworks' (record_insert_self ..)⟩
  notPaid := by
    intro around hworks info hrec hp
    obtain ⟨source, hsource, hs⟩ := hfound info hrec
    have hsp : source.payment_status ≠ .paid := by
      rw [hs.payment_status, hp]
      decide
    rw [runOn_markWithdrawal run.wellStored hworks, hsource, withdrawalAnswer, if_neg hsp]
  attempted := by
    intro around hworks info hrec hw
    obtain ⟨source, hsource, hs⟩ := hfound info hrec
    -- A record that does not wait for its withdrawal is paid.
    have hp : info.payment_status = .paid := by
      cases hp : info.payment_status with
      | paid => rfl
      | pending => exact absurd (run.pendingWaits order info hrec hp) hw
    have hsp : source.payment_status = .paid := hs.payment_status.trans hp
    have hsw : source.withdrawal_status ≠ .waiting := fun h => hw ((hs.withdrawal_status hp).mp h)
    rw [runOn_markWithdrawal run.wellStored hworks, hsource, withdrawalAnswer, if_pos hsp,
      if_neg hsw]
  notFound := by
    intro around hworks hout hc
    obtain ⟨info, hrec⟩ := record_of_created run hc
    obtain ⟨source, hsource, -⟩ := hfound info hrec
    rw [runOn_markWithdrawal run.wellStored hworks, hsource, withdrawalAnswer] at hout
    split_ifs at hout <;> cases hout

/-- **Which orders a withdrawal reaches**: those without a record, and those whose string is, byte
by byte, the key of a record that may stand for their own. -/
theorem withdrawalReaches_iff (run : LedgerRun account_lifetime h orders) (order : String) :
    WithdrawalReaches h orders order ↔ ∀ info, record orders order = some info →
      ∃ source, recordAt orders (Codec.rawBytes order) = some source ∧ source.StandsFor info := by
  refine ⟨fun hr info hrec => hr.withdrawn.standsFor run.wellStored hrec, fun hfound => ?_⟩
  exact ⟨reaches_of_standsFor run hfound .completed, reaches_of_standsFor run hfound .failed⟩

/-- Two pending orders, the second of which has the key of the first for its string. -/
def twoPending : List DbRequest := [purchase "abc", purchase "\x0cabc"]

theorem withdrawalReaches_iff_twoPending : ∃ h orders, LedgerRun 0 h orders ∧
    h.map (·.request) = twoPending ∧ WithdrawalReaches h orders "\x0cabc" := by
  obtain ⟨h, orders, run, hp⟩ := exists_reach_of_replay (ledgerExec_sound 0) (· = ∅) rfl
    (twoPending.map fun r => (Surroundings.calm 0, r))
    (p := fun q => q.1.map (·.request) == twoPending &&
      (record q.2 "\x0cabc").any (·.payment_status = .pending) &&
      (recordAt q.2 (Codec.rawBytes "\x0cabc")).any (·.payment_status = .pending))
    (by decide +kernel)
  simp only [Bool.and_eq_true, beq_iff_eq, Option.any_eq_true, decide_eq_true_eq] at hp
  obtain ⟨⟨hreq, info, hrec, hpending⟩, source, hsource, hsp⟩ := hp
  refine ⟨h, orders, run, hreq, (withdrawalReaches_iff run _).mpr fun info' hrec' => ?_⟩
  obtain rfl : info' = info := Option.some.inj (hrec'.symm.trans hrec)
  refine ⟨source, hsource, hsp.trans hpending.symm, ?_, ?_⟩ <;> simp [hpending]

/-- A purchase that is paid. -/
def paidPurchase : List DbRequest := [purchase "abc", .markPaid "abc"]

/-- **A paid order that no withdrawal finds.** -/
theorem paid_order_not_found : ∃ h orders, LedgerRun 0 h orders ∧
    h.map (·.request) = paidPurchase ∧ ¬WithdrawalReaches h orders "abc" := by
  obtain ⟨h, orders, run, hp⟩ := exists_reach_of_replay (ledgerExec_sound 0) (· = ∅) rfl
    (paidPurchase.map fun r => (Surroundings.calm 0, r))
    (p := fun q => q.1.map (·.request) == paidPurchase &&
      (record q.2 "abc").any (fun info => info.payment_status = .paid &&
        info.withdrawal_status = .waiting) &&
      q.2[Codec.rawBytes "abc"]? == none)
    (by decide +kernel)
  simp only [Bool.and_eq_true, beq_iff_eq, Option.any_eq_true, decide_eq_true_eq] at hp
  obtain ⟨⟨hreq, info, hrec, hpaid, hwaiting⟩, hnone⟩ := hp
  refine ⟨h, orders, run, hreq, fun hreaches => ?_⟩
  have hcalm : (Surroundings.calm 0).Works := ⟨rfl, rfl⟩
  obtain ⟨hout, -⟩ := hreaches.withdrawn.recorded _ hcalm info hrec hpaid hwaiting
  have hmissed : recordAt orders (Codec.rawBytes "abc") = none := by simp [recordAt, hnone]
  rw [markWithdrawn, runOn_markWithdrawal (LedgerRun.wellStored run) hcalm, hmissed] at hout
  cases hout

end Kalatori
