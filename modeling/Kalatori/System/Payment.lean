import Kalatori.System.Traffic

/-!
# No order is paid below its price

A payment is noticed by a tracker, which compares a balance with its own copy of
the invoice; it is recorded by the database, in a record that may have been
rewritten meanwhile.  A `Promise` is something that is true of an invoice when
it is made from a record, stays true while the record changes in permitted ways,
and turns a sufficient balance into something true of the report.
`SysRun.promised` carries a promise along every run: to all invoices that were
ever asked for, and to all payments that were ever reported.

The promise of this module is that the invoice costs at least what the record
says.  A second request for the same order breaks it, since it rewrites the
amount and the currency of the record and leaves the invoice as it is.
`nothing_underpaid` says that nothing else does.

* `NothingUnderpaid`: whenever a record becomes paid, a tracker has seen the money.
* `SameTerms`: a request for a pending order names its currency and no higher price.
* `nothing_underpaid`: in runs in which all such requests do, nothing is underpaid.
* `raised_order_underpaid`: a run in which an order is raised and then paid at the old price.
-/

namespace Kalatori

open Program Transition

variable {lib : Libraries} {d : Deployment lib}
  {allow : List (SysEvent lib) → Sys lib → SysEvent lib → Prop}

/-! ## Promises -/

/-- What may be said of the invoices and of the reports of payments, as long as the tree changes
only as `keeps` permits. -/
structure Promise (lib : Libraries) (keeps : Orders → Orders → Prop)
    (Good : Orders → Invoice → Prop) (Due : List (SysEvent lib) → Orders → String → Prop) :
    Prop where
  of_record : ∀ orders id info recipient res w, record orders id = some info →
    WatchAccount.new lib id info recipient res = .ok w → Good orders (Invoice.fromRequest w)
  good_kept : ∀ orders orders' invoice, keeps orders orders' → Good orders invoice →
    Good orders' invoice
  due_kept : ∀ h e orders orders' id, keeps orders orders' → Due h orders id →
    Due (h ++ [e]) orders' id
  due_of_good : ∀ h orders invoice index x watcher block balance, Good orders invoice →
    .tracker index x ∈ h → x.event = .said ⟨.rpc (.balance watcher invoice block), .ok balance⟩ →
    invoice.amount ≤ balance → Due h orders invoice.id

/-- The promise is kept for all that was handed to the restoring task, sent, and reported. -/
structure Sys.Promised (Good : Orders → Invoice → Prop)
    (Due : List (SysEvent lib) → Orders → String → Prop) (h : List (SysEvent lib)) (s : Sys lib) :
    Prop where
  stored : WellStored s.store.orders
  fresh : s.store.Fresh
  spawned : ∀ order_list, Spawned h order_list → ∀ order info, (order, info) ∈ order_list →
    ∀ recipient res w, WatchAccount.new lib order info recipient res = .ok w →
      Good s.store.orders (Invoice.fromRequest w)
  sent : ∀ w, Sent h w → Good s.store.orders (Invoice.fromRequest w)
  reported : ∀ id, Reported h id → Due h s.store.orders id

section Promises

variable {keeps : Orders → Orders → Prop} {Good : Orders → Invoice → Prop}
  {Due : List (SysEvent lib) → Orders → String → Prop}
  {h : List (SysEvent lib)} {s s' : Sys lib} {e : SysEvent lib}

theorem Earlier.wellStored {orders : Orders} (h : Earlier orders) : WellStored orders := by
  obtain ⟨_, _, run⟩ := h
  exact LedgerRun.wellStored run

/-- A list handed to the restoring task was read off the tree. -/
theorem spawned_promised (hp : Promise lib keeps Good Due) (hs : SysStep d s e s')
    (hsound : DaemonSound lib (daemonTurns h) s.store) (hpr : s.Promised Good Due h)
    {order_list : List (String × OrderInfo)} (hnew : Spawned [e] order_list) {order : String}
    {info : OrderInfo} (hmem : (order, info) ∈ order_list) {recipient : AccountId32}
    {res : Requester} {w : WatchAccount}
    (hw : WatchAccount.new lib order info recipient res = .ok w) :
    Good s.store.orders (Invoice.fromRequest w) := by
  obtain ⟨x, hx, he⟩ := hnew
  obtain rfl := List.mem_singleton.mp hx
  obtain ⟨phase, said, k, hpc, -⟩ := hs.outcome.daemonStep.said he
  obtain ⟨_, _, events, -, -, hsound⟩ := hsound
  obtain ⟨-, ho⟩ := hsound.starts hpc rfl
  cases ho with
  | spawnRestore =>
    have hlisted := (hpr.fresh _ _ _ hpc).listed order_list (by simp) order info hmem
    exact hp.of_record _ _ _ _ _ _ hlisted.1 hw

/-- A request to watch an account is made from the record of a new order, or from a list. -/
theorem sent_promised (hp : Promise lib keeps Good Due) (hs : SysStep d s e s')
    (hsound : DaemonSound lib (daemonTurns h) s.store) (ht : s.Traced d h)
    (hpr : s.Promised Good Due h) {w : WatchAccount} (hnew : Sent [e] w) :
    Good s.store.orders (Invoice.fromRequest w) := by
  obtain ⟨e', he', hsends⟩ := hnew
  obtain rfl := List.mem_singleton.mp he'
  rcases hsends with ⟨x, rfl, he⟩ | rfl
  · obtain ⟨phase, said, k, hpc, -⟩ := hs.outcome.daemonStep.said he
    obtain ⟨_, _, events, -, -, hsound⟩ := hsound
    obtain ⟨-, _, _, -, ho⟩ := hsound.handles hpc rfl
    cases ho with
    | watch query properties payment_account info _ hr =>
      have hcreated := (hpr.fresh _ _ _ hpc).created query.order query
        (properties.info query.currency) payment_account info
        (by simp [created])
      exact hp.of_record _ _ _ _ _ _ hcreated hr
  · have houtcome := hs.outcome
    cases houtcome with
    | restoreSent _ _ hrestore =>
      obtain ⟨order_list, hspawned, hholds⟩ := ht.restoring _ _ hrestore
      obtain ⟨-, order, info, w', hmem, hw, hreq⟩ := hholds.1
      obtain rfl := ChainRequest.watchAccount.inj hreq
      exact hpr.spawned order_list hspawned order info hmem _ _ _ hw

/-- A tracker reports a payment that it has seen. -/
theorem reported_promised (hp : Promise lib keeps Good Due) (hs : SysStep d s e s')
    (hsound : ∀ index, (s.trackers index).Sound) (ht : s.Traced d h)
    (hpr : s.Promised Good Due h) {id : String} (hnew : Reported [e] id) :
    Due h s.store.orders id := by
  obtain ⟨index, x, hx, he⟩ := hnew
  obtain rfl := List.mem_singleton.mp hx
  obtain ⟨chain, -, -, -, hstep⟩ := hs.outcome.turn
  rw [he] at hstep
  generalize (s'.trackers index) = t' at hstep
  cases hstep with
  | @said said _ k _ hpc =>
    obtain ⟨invoice, hl, watcher, block, balance, hmem, hle⟩ := ((hsound index).busy _ _ hpc).1
    obtain ⟨w, hw, rfl, rfl⟩ := ht.watched index id invoice hl
    obtain ⟨y, hy, hye⟩ := ht.said index _ _ hpc _ hmem
    exact hp.due_of_good h _ _ index y watcher block balance (hpr.sent w hw) hy hye hle

theorem Spawned.of_append {order_list : List (String × OrderInfo)}
    (hl : Spawned (h ++ [e]) order_list) : Spawned h order_list ∨ Spawned [e] order_list := by
  obtain ⟨x, hx, he⟩ := hl
  exact (List.mem_append.mp hx).imp (fun hx => ⟨x, hx, he⟩) fun hx => ⟨x, hx, he⟩

theorem Sent.of_append {w : WatchAccount} (hw : Sent (h ++ [e]) w) : Sent h w ∨ Sent [e] w := by
  obtain ⟨e', he, hsends⟩ := hw
  exact (List.mem_append.mp he).imp (fun he => ⟨e', he, hsends⟩) fun he => ⟨e', he, hsends⟩

theorem Reported.of_append {id : String} (hr : Reported (h ++ [e]) id) :
    Reported h id ∨ Reported [e] id := by
  obtain ⟨index, x, hx, he⟩ := hr
  exact (List.mem_append.mp hx).imp (fun hx => ⟨index, x, hx, he⟩) fun hx => ⟨index, x, hx, he⟩

/-- **A promise is kept along every run** whose steps change the tree as it permits. -/
theorem SysRun.promised (hp : Promise lib keeps Good Due)
    (hkeeps : ∀ h s e s', SysRunIf d allow h s → allow h s e → SysStep d s e s' →
      keeps s.store.orders s'.store.orders)
    (run : SysRunIf d allow h s) : s.Promised Good Due h := by
  refine run.invariant (P := fun h s => s.Promised Good Due h) ?_ ?_
  · rintro s ⟨orders, hearlier, rfl⟩
    refine ⟨hearlier.wellStored, ?_, ?_, ?_, ?_⟩
    · rintro phase said program ⟨⟩
      exact fresh_of_not_db fun _ hmem => absurd hmem List.not_mem_nil
    · rintro _ ⟨_, hx, -⟩
      cases hx
    · rintro _ ⟨_, hx, -⟩
      cases hx
    · rintro _ ⟨_, _, hx, -⟩
      cases hx
  · intro h s e s' run hpr hallow hs
    have hk := hkeeps h s e s' run hallow hs
    have hdaemon := SysRun.handler_sound run
    have htraced := SysRun.traced run
    refine ⟨?_, ?_, ?_, ?_, ?_⟩
    · rcases hs.outcome.store with ⟨x, -, hx⟩ | ⟨-, heq⟩
      · exact hx.wellStored hpr.stored
      · exact heq ▸ hpr.stored
    · rcases hs.outcome.store with ⟨x, -, hx⟩ | ⟨-, heq⟩
      · exact hx.fresh hdaemon hpr.stored hpr.fresh
      · exact heq ▸ hpr.fresh
    · intro order_list hl order info hmem recipient res w hw
      refine hp.good_kept _ _ _ hk ?_
      rcases hl.of_append with hl | hl
      · exact hpr.spawned order_list hl order info hmem recipient res w hw
      · exact spawned_promised hp hs hdaemon hpr hl hmem hw
    · intro w hw
      refine hp.good_kept _ _ _ hk ?_
      rcases hw.of_append with hw | hw
      · exact hpr.sent w hw
      · exact sent_promised hp hs hdaemon htraced hpr hw
    · intro id hr
      refine hp.due_kept _ _ _ _ _ hk ?_
      rcases hr.of_append with hr | hr
      · exact hpr.reported id hr
      · exact reported_promised hp hs (SysRun.sound run) htraced hpr hr

end Promises

/-! ## The price of an order -/

/-- A tracker saw a balance of the account of an order, in its currency, that suffices for it. -/
def PaidFor (h : List (SysEvent lib)) (info : OrderInfo) : Prop :=
  ∃ (index : ℕ) (x : Turn lib) (watcher : ChainWatcher lib) (invoice : Invoice) (block : BlockHash)
    (balance : Balance), .tracker index x ∈ h ∧
      x.event = .said ⟨.rpc (.balance watcher invoice block), .ok balance⟩ ∧
      lib.fromBase58String info.payment_account = some invoice.address ∧
      invoice.currency = info.currency.currency ∧ info.price lib.arithmetic ≤ balance

/-- **Nothing is underpaid.**  Whenever the record of an order changes from pending to paid, the
order was paid for before, at the price that stands in the record. -/
def NothingUnderpaid (h : List (SysEvent lib)) : Prop :=
  ∀ h₁ x h₂ id old info, h = h₁ ++ .daemon x :: h₂ → record x.before id = some old →
    old.payment_status = .pending → record x.after id = some info → info.payment_status = .paid →
    PaidFor h₁ info

/-- **The same terms.**  If the request is one for an order whose record is pending, then it is
one in the currency of the record, and for a price that is no higher. -/
def SameTerms (lib : Libraries) (x : DaemonTurn) : Prop :=
  ∀ order query currency payment_account answer,
    x.event = .handler (.said ⟨.db (.createOrder order query currency payment_account), answer⟩) →
    ∀ info, record x.before order = some info → info.payment_status = .pending →
      currency.currency = info.currency.currency ∧
        Balance.parse lib.arithmetic query.amount currency.decimals ≤ info.price lib.arithmetic

/-- What may become of a record: it stays pending only for the same account and currency and
no higher a price. -/
structure OrderInfo.Eases (lib : Libraries) (info info' : OrderInfo) : Prop where
  pending : info.payment_status = .pending
  account : info'.payment_account = info.payment_account
  currency : info'.currency.currency = info.currency.currency
  price : info'.price lib.arithmetic ≤ info.price lib.arithmetic

/-- No record goes, and none becomes harder to pay. -/
def Eases (lib : Libraries) (orders orders' : Orders) : Prop :=
  ∀ id info, record orders id = some info → ∃ info', record orders' id = some info' ∧
    (info'.payment_status = .pending → info.Eases lib info')

theorem Eases.refl (orders : Orders) : Eases lib orders orders := fun _ info h =>
  ⟨info, h, fun hp => ⟨hp, rfl, rfl, BitVec.le_refl _⟩⟩

theorem Effect.eases {account_lifetime now : Timestamp} {orders orders' : Orders} {r : DbRequest}
    {answer : Except DbError r.Reply} (h : Effect account_lifetime now orders r answer orders')
    (ha : r.attempt? = none)
    (hterms : ∀ order query currency payment_account,
      r = .createOrder order query currency payment_account →
      ∀ info, record orders order = some info → info.payment_status = .pending →
        currency.currency = info.currency.currency ∧
          Balance.parse lib.arithmetic query.amount currency.decimals ≤
            info.price lib.arithmetic) : Eases lib orders orders' := by
  intro id info hrec
  by_cases hid : r.order? = some id
  swap
  · rw [h.record_of_ne hid]
    exact Eases.refl orders id info hrec
  cases h with
  | failed | listed | read | collided => exact Eases.refl orders id info hrec
  | withdrawn | stuck => cases ha
  | created o _ _ _ _ hnone =>
    obtain rfl : o = id := Option.some.inj hid
    rw [record, recordAt, hnone] at hrec
    cases hrec
  | modified o query currency account old info' hold hp hi =>
    obtain rfl : o = id := Option.some.inj hid
    obtain rfl := Option.some.inj (hold.symm.trans hrec)
    obtain ⟨hcurrency, hprice⟩ := hterms o query currency account rfl old hold hp
    refine ⟨info', record_insert_self .., fun _ => ?_⟩
    rw [hi]
    exact ⟨hp, rfl, hcurrency, hprice⟩
  | paid o old info' _ _ hi =>
    refine ⟨info', ?_, fun hp => ?_⟩
    · obtain rfl : o = id := Option.some.inj hid
      exact record_insert_self ..
    · rw [hi] at hp
      cases hp

theorem DaemonStep.eases {s s' : HandlerStore} {x : DaemonTurn} {h : List DaemonTurn}
    {account_lifetime : Timestamp} (hs : DaemonStep lib account_lifetime s x s')
    (hsound : DaemonSound lib h s) (hterms : SameTerms lib x) : Eases lib s.orders s'.orders := by
  rcases hs.effect hsound with heq | ⟨r, answer, now, hx, ha, heffect⟩
  · exact heq ▸ Eases.refl _
  · refine heffect.eases ha ?_
    rintro order query currency account rfl info hrec hp
    exact hterms order query currency account answer hx info (hs.before_eq ▸ hrec) hp

/-- The invoice costs what the order costs, or more. -/
def Covers (lib : Libraries) (orders : Orders) (invoice : Invoice) : Prop :=
  ∃ info, record orders invoice.id = some info ∧ (info.payment_status = .pending →
    lib.fromBase58String info.payment_account = some invoice.address ∧
      invoice.currency = info.currency.currency ∧ info.price lib.arithmetic ≤ invoice.amount)

/-- The order was paid for, or is paid already. -/
def DuePaid (h : List (SysEvent lib)) (orders : Orders) (id : String) : Prop :=
  ∃ info, record orders id = some info ∧ (info.payment_status = .pending → PaidFor h info)

theorem PaidFor.append {h : List (SysEvent lib)} {info : OrderInfo} (hp : PaidFor h info)
    (h' : List (SysEvent lib)) : PaidFor (h ++ h') info := by
  obtain ⟨index, x, watcher, invoice, block, balance, hx, hrest⟩ := hp
  exact ⟨index, x, watcher, invoice, block, balance, List.mem_append_left _ hx, hrest⟩

theorem PaidFor.eased {h : List (SysEvent lib)} {info info' : OrderInfo} (hp : PaidFor h info)
    (he : info.Eases lib info') : PaidFor h info' := by
  obtain ⟨index, x, watcher, invoice, block, balance, hx, hsaid, haccount, hcurrency, hle⟩ := hp
  refine ⟨index, x, watcher, invoice, block, balance, hx, hsaid, ?_, ?_, ?_⟩
  · rw [he.account]
    exact haccount
  · rw [he.currency]
    exact hcurrency
  · exact BitVec.le_trans he.price hle

theorem covers_promise : Promise lib (Eases lib) (Covers lib) DuePaid where
  of_record := by
    intro orders id info recipient res w hrec hw
    rw [WatchAccount.new] at hw
    split at hw
    · cases hw
    · rename_i address haddress
      obtain rfl := Except.ok.inj hw
      exact ⟨info, hrec, fun _ => ⟨haddress, rfl, BitVec.le_refl _⟩⟩
  good_kept := by
    rintro orders orders' invoice hkeeps ⟨info, hrec, hcovers⟩
    obtain ⟨info', hrec', heases⟩ := hkeeps _ info hrec
    refine ⟨info', hrec', fun hp => ?_⟩
    obtain ⟨haccount, hcurrency, hle⟩ := hcovers (heases hp).pending
    rw [(heases hp).account, (heases hp).currency]
    exact ⟨haccount, hcurrency, BitVec.le_trans (heases hp).price hle⟩
  due_kept := by
    rintro h e orders orders' id hkeeps ⟨info, hrec, hdue⟩
    obtain ⟨info', hrec', heases⟩ := hkeeps _ info hrec
    refine ⟨info', hrec', fun hp => ?_⟩
    exact ((hdue (heases hp).pending).eased (heases hp)).append [e]
  due_of_good := by
    rintro h orders invoice index x watcher block balance ⟨info, hrec, hcovers⟩ hx he hle
    refine ⟨info, hrec, fun hp => ?_⟩
    obtain ⟨haccount, hcurrency, hprice⟩ := hcovers hp
    exact ⟨index, x, watcher, invoice, block, balance, hx, he, haccount, hcurrency,
      BitVec.le_trans hprice hle⟩

/-- The only step in which a pending record becomes paid is the one that marks it, for a payment
that was reported. -/
theorem reported_of_becomes_paid {h : List (SysEvent lib)} {s s' : Sys lib} {x : DaemonTurn}
    (run : SysRunIf d allow h s) (hs : SysStep d s (.daemon x) s') {id : String}
    {old info : OrderInfo} (hold : record s.store.orders id = some old)
    (hpending : old.payment_status = .pending) (hnew : record s'.store.orders id = some info)
    (hpaid : info.payment_status = .paid) : Reported h id ∧ info = old.paid := by
  have hsound := SysRun.handler_sound run
  rcases hs.outcome.daemonStep.effect hsound with heq | ⟨r, answer, now, hx, ha, heffect⟩
  · rw [heq, hold] at hnew
    cases hpending.symm.trans (Option.some.inj hnew ▸ hpaid)
  obtain ⟨phase, said, k, hpc, -⟩ := hs.outcome.daemonStep.said hx
  generalize s'.store.orders = orders' at heffect hnew
  by_cases hid : r.order? = some id
  swap
  · rw [heffect.record_of_ne hid, hold] at hnew
    cases hpending.symm.trans (Option.some.inj hnew ▸ hpaid)
  cases heffect with
  | failed | listed | read | collided =>
    rw [hold] at hnew
    cases hpending.symm.trans (Option.some.inj hnew ▸ hpaid)
  | withdrawn | stuck => cases ha
  | created o _ _ _ _ hnone =>
    obtain rfl : o = id := Option.some.inj hid
    rw [record, recordAt, hnone] at hold
    cases hold
  | modified o _ _ _ old' info' hold' hp hi =>
    obtain rfl : o = id := Option.some.inj hid
    rw [record_insert_self] at hnew
    obtain rfl := Option.some.inj hnew
    rw [hi, OrderInfo.renewed, hp] at hpaid
    cases hpaid
  | paid o old' info' hold' hp hi =>
    obtain rfl : o = id := Option.some.inj hid
    rw [record_insert_self] at hnew
    obtain rfl := Option.some.inj hnew
    obtain rfl := Option.some.inj (hold'.symm.trans hold)
    refine ⟨?_, hi⟩
    -- The handler asks for this only when it has taken the report.
    obtain ⟨h₀, turns, events, hh, hturns, hsound⟩ := hsound
    obtain ⟨-, _, request, hevents, ho⟩ := hsound.handles hpc rfl
    cases ho with
    | markPaid =>
      have hmem : .received (.orderPaid o) ∈ events := by
        rw [hevents]
        exact List.mem_append_right _ List.mem_cons_self
      obtain ⟨y, hy, hye⟩ := mem_of_handlerTurns hh hturns hmem
      exact (SysRun.traced run).received y o hy hye

/-- **Nothing is underpaid as long as no order is raised.**  In every run in which each request
for a pending order names the currency of its record and no higher price, whatever else
happens. -/
theorem nothing_underpaid {h : List (SysEvent lib)} {s : Sys lib}
    (run : SysRunIf d (fun _ _ e => ∀ x, e = .daemon x → SameTerms lib x) h s) :
    NothingUnderpaid h := by
  rintro h₁ x h₂ id old info rfl hold hpending hnew hpaid
  obtain ⟨s₁, s₂, run₁, hallow, hs⟩ := run.split
  have hpromised : s₁.Promised (Covers lib) DuePaid h₁ := by
    refine SysRun.promised covers_promise (fun h s e s' run hallow hs => ?_) run₁
    rcases hs.outcome.store with ⟨x, rfl, hx⟩ | ⟨-, heq⟩
    · exact hx.eases (SysRun.handler_sound run) (hallow x rfl)
    · exact heq ▸ Eases.refl _
  rw [hs.outcome.daemonStep.before_eq] at hold
  rw [hs.outcome.daemonStep.after_eq] at hnew
  obtain ⟨hreported, rfl⟩ := reported_of_becomes_paid run₁ hs hold hpending hnew hpaid
  obtain ⟨info, hrec, hdue⟩ := hpromised.reported id hreported
  obtain rfl := Option.some.inj (hrec.symm.trans hold)
  exact hdue hpending

/-! ## Two runs -/

namespace Sample

/-- An order for ten units is placed, and its account holds ten units at a block. -/
def paidOrder : List (SysAction libraries) :=
  connected ++ ordered "order" ten ++ registered ++ block 10 7 ++ [.receive, served 5]

/-- The same, but before the block the order is placed again for twenty units. -/
def raisedOrder : List (SysAction libraries) :=
  connected ++ ordered "order" ten ++ registered ++ ordered "order" twenty ++ answers 1 ++
    [settled] ++ block 10 7 ++ [.receive, served 5]

end Sample

/-- The step turned the record of an order from pending to paid, at a price. -/
def SysEvent.marks (lib : Libraries) (id : String) (price : Balance) : SysEvent lib → Bool
  | .daemon x =>
    (record x.before id).any (fun old => old.payment_status = .pending) &&
      (record x.after id).any fun info =>
        info.payment_status = .paid && info.price lib.arithmetic = price
  | _ => false

/-- If a balance is read in the step, it is below an amount. -/
def SysEvent.readsBelow (lib : Libraries) (amount : Balance) : SysEvent lib → Bool
  | .tracker _ x =>
    match x.event with
    | .said ⟨.rpc (.balance _ _ _), .ok balance⟩ => balance < amount
    | _ => true
  | _ => true

/-- The step is no request for an order that has a record. -/
def SysEvent.firstRequest : SysEvent lib → Bool
  | .daemon x =>
    match x.event with
    | .handler (.said ⟨.db (.createOrder order _ _ _), _⟩) => (record x.before order).isNone
    | _ => true
  | _ => true

theorem sameTerms_of_firstRequest {x : DaemonTurn}
    (h : (SysEvent.daemon x : SysEvent lib).firstRequest = true) : SameTerms lib x := by
  intro order query currency payment_account answer he info hrec
  rw [SysEvent.firstRequest, he] at h
  rw [Option.isNone_iff_eq_none.mp h] at hrec
  cases hrec

theorem exists_marks {h : List (SysEvent lib)} {id : String} {price : Balance}
    (hm : h.getLast?.any (SysEvent.marks lib id price) = true) : ∃ h₁ x old info,
      h = h₁ ++ [.daemon x] ∧ record x.before id = some old ∧ old.payment_status = .pending ∧
        record x.after id = some info ∧ info.payment_status = .paid ∧
        info.price lib.arithmetic = price := by
  rw [Option.any_eq_true] at hm
  obtain ⟨e, he, hm⟩ := hm
  obtain ⟨h₁, rfl⟩ := List.getLast?_eq_some_iff.mp he
  cases e with
  | daemon x =>
    simp only [SysEvent.marks, Bool.and_eq_true, Option.any_eq_true, decide_eq_true_eq] at hm
    obtain ⟨⟨old, hold, hpending⟩, info, hnew, hpaid, hprice⟩ := hm
    exact ⟨h₁, x, old, info, rfl, hold, hpending, hnew, hpaid, hprice⟩
  | outside | restore | manager | tracker => cases hm

/-- An order that is placed once is paid at its price. -/
theorem nothing_underpaid_paidOrder : ∃ h s,
    SysRunIf Sample.deployment (fun _ _ e => ∀ x, e = .daemon x → SameTerms Sample.libraries x)
      h s ∧ h.getLast?.any (SysEvent.marks Sample.libraries "order" 10) = true ∧
      NothingUnderpaid h := by
  obtain ⟨h, s, run, hp⟩ := exists_reach_of_replay (Sys.exec_sound Sample.deployment)
    (Sys.Begun Sample.deployment) Sample.begun Sample.paidOrder
    (p := fun q => q.1.all SysEvent.firstRequest &&
      q.1.getLast?.any (SysEvent.marks Sample.libraries "order" 10)) (by decide +kernel)
  rw [Bool.and_eq_true, List.all_eq_true] at hp
  have run' := run.strengthen (P := fun e => ∀ x, e = .daemon x → SameTerms Sample.libraries x)
    fun e he x hx => sameTerms_of_firstRequest (hx ▸ hp.1 e he)
  exact ⟨h, s, run', hp.2, nothing_underpaid run'⟩

/-- **An order is raised to twenty units and is recorded as paid with ten.** -/
theorem raised_order_underpaid : ∃ h s, SysRun Sample.deployment h s ∧ ¬NothingUnderpaid h := by
  obtain ⟨h, s, run, hp⟩ := exists_reach_of_replay (Sys.exec_sound Sample.deployment)
    (Sys.Begun Sample.deployment) Sample.begun Sample.raisedOrder
    (p := fun q => q.1.getLast?.any (SysEvent.marks Sample.libraries "order" 20) &&
      q.1.all (SysEvent.readsBelow Sample.libraries 20)) (by decide +kernel)
  rw [Bool.and_eq_true, List.all_eq_true] at hp
  obtain ⟨hmarks, hbalances⟩ := hp
  obtain ⟨h₁, x, old, info, rfl, hold, hpending, hnew, hpaid, hprice⟩ := exists_marks hmarks
  refine ⟨_, s, run, fun hnothing => ?_⟩
  obtain ⟨index, y, watcher, invoice, block, balance, hy, hye, -, -, hle⟩ :=
    hnothing h₁ x [] "order" old info rfl hold hpending hnew hpaid
  have hlt := hbalances _ (List.mem_append_left _ hy)
  simp only [SysEvent.readsBelow, hye, decide_eq_true_eq] at hlt
  rw [hprice] at hle
  exact absurd hlt (BitVec.not_lt.mpr hle)

end Kalatori
