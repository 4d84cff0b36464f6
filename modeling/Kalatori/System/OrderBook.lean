import Kalatori.Lib.Book
import Kalatori.Lib.Simulation
import Kalatori.System.Settlements

/-!
# The daemon keeps an order book

What a shop wants of the daemon is a book: an order is opened on some terms, they
may be renewed while it is open, it is paid, and what it owes is paid out once, on
the terms that it had then.  The daemon has no such book.  It has records in a
tree that say pending or paid, and it has payouts, which are forgotten by a
restart and leave nothing in the tree.

`PayoutSys.book` reads the book off the tree and the history, and `simulates_book` says
that each step of the daemon that is seen in it is a step of the book.  So every
run of the daemon, across restarts and with everything that may fail in it, is
seen as a run of the book.

* `PayoutEvent.entry`: what is seen of a step.
* `refinesBook`: the daemon with its payouts refines the book.
* `orderStory`: the history of an order.
-/

namespace Kalatori

open Program Transition Book

variable {lib : Libraries} {d : Deployment lib} {engine : PayoutEngine lib}

/-! ## What is seen -/

/-- What is owed for an order. -/
structure Terms where
  amount : Balance
  currency : String
  account : Option AccountId32

def OrderInfo.terms (lib : Libraries) (info : OrderInfo) : Terms where
  amount := info.price lib.arithmetic
  currency := info.currency.currency
  account := lib.fromBase58String info.payment_account

/-- What a payout pays out. -/
def Invoice.terms (invoice : Invoice) : Terms where
  amount := invoice.amount
  currency := invoice.currency
  account := some invoice.address

/-- An order keeps its account. -/
def Renews (old terms : Terms) : Prop := terms.account = old.account

/-- What is seen of a step of the handler: the answers of the database by which it writes. -/
def DaemonTurn.entry (lib : Libraries) (x : DaemonTurn) : Option (Label String Terms) :=
  match x.event with
  | .handler (.said ⟨.db (.createOrder order _ _ _), .ok (.new info)⟩) =>
    some (.opened order (info.terms lib))
  | .handler (.said ⟨.db (.createOrder order _ _ _), .ok (.modified info)⟩) =>
    some (.renewed order (info.terms lib))
  | .handler (.said ⟨.db (.markPaid order), .ok _⟩) => some (.paid order)
  | _ => none

/-- What is seen of a step: those answers, and the extrinsics of the payouts. -/
def PayoutEvent.entry : PayoutEvent lib → Option (Label String Terms)
  | .daemon (.daemon x) => x.entry lib
  | .said task ⟨.rpc (.sendStuff _), _⟩ => some (.settled task.order.id task.order.terms)
  | _ => none

/-! ## The book -/

def stageOf (submitted : Bool) : PaymentStatus → Stage
  | .pending => .open
  | .paid => if submitted then .settled else .paid

/-- The book of a tree, when it is known for which orders something was submitted. -/
def orderBook (lib : Libraries) (submitted : String → Bool) (orders : Orders) (id : String) :
    Option (Entry Terms) :=
  (record orders id).map fun info =>
    ⟨info.terms lib, stageOf (submitted id) info.payment_status⟩

/-- **The book of the daemon.** -/
def PayoutSys.book (h : List (PayoutEvent lib)) (s : PayoutSys lib) :
    String → Option (Entry Terms) :=
  orderBook lib (fun id => h.any (PayoutEvent.submits id)) s.sys.store.orders

theorem orderBook_of_record {submitted : String → Bool} {orders : Orders} {id : String}
    {info : OrderInfo} (h : record orders id = some info) :
    orderBook lib submitted orders id =
      some ⟨info.terms lib, stageOf (submitted id) info.payment_status⟩ := by
  rw [orderBook, h, Option.map_some]

/-- A record is written. -/
theorem orderBook_insert (submitted : String → Bool) (orders : Orders) (id : String)
    (info : OrderInfo) :
    orderBook lib submitted (orders.insert (orderKey id) info.encode) =
      Function.update (orderBook lib submitted orders) id
        (some ⟨info.terms lib, stageOf (submitted id) info.payment_status⟩) := by
  funext id'
  by_cases hid : id' = id
  · subst hid
    rw [Function.update_self, orderBook_of_record (record_insert_self ..)]
  · rw [Function.update_of_ne hid, orderBook, record_insert_of_ne hid, orderBook]

/-- Something is submitted. -/
theorem orderBook_submitted (submitted submitted' : String → Bool) {orders : Orders} {id : String}
    {info : OrderInfo} (hrec : record orders id = some info)
    (hother : ∀ id', id' ≠ id → submitted' id' = submitted id') :
    orderBook lib submitted' orders =
      Function.update (orderBook lib submitted orders) id
        (some ⟨info.terms lib, stageOf (submitted' id) info.payment_status⟩) := by
  funext id'
  by_cases hid : id' = id
  · subst hid
    rw [Function.update_self, orderBook_of_record hrec]
  · rw [Function.update_of_ne hid, orderBook, hother id' hid, orderBook]

/-! ## The steps of the handler -/

theorem DaemonTurn.entry_of_not_db {x : DaemonTurn}
    (h : ∀ r answer, x.event ≠ .handler (.said ⟨.db r, answer⟩)) : x.entry lib = none := by
  rw [entry]
  split
  · next he => exact absurd he (h _ _)
  · next he => exact absurd he (h _ _)
  · next he => exact absurd he (h _ _)
  · rfl

/-- **The handler writes in the book**, or leaves it as it is. -/
theorem DaemonStep.entered {account_lifetime : Timestamp} {s s' : HandlerStore} {x : DaemonTurn}
    {h : List DaemonTurn} (hs : DaemonStep lib account_lifetime s x s')
    (hsound : DaemonSound lib h s) {submitted : String → Bool}
    (hpaid : ∀ id info, submitted id = true → record s.orders id = some info →
      info.payment_status = .paid) :
    (x.entry lib = none ∧ s'.orders = s.orders) ∨
      ∃ l, x.entry lib = some l ∧
        Step Renews (orderBook lib submitted s.orders) l (orderBook lib submitted s'.orders) := by
  by_cases hx : ∃ r answer, x.event = .handler (.said ⟨.db r, answer⟩)
  · obtain ⟨r, answer, hx⟩ := hx
    obtain ⟨phase, said, k, hpc, -, ho⟩ := hs.said hx
    obtain ⟨_, _, events, -, -, hsound⟩ := hsound
    obtain ⟨-, hattempt⟩ := hsound.at_db hpc
    obtain ⟨now, heffect⟩ := ho.effect
    have hentry : x.entry lib = DaemonTurn.entry lib ⟨∅, .handler (.said ⟨.db r, answer⟩), ∅⟩ := by
      rw [DaemonTurn.entry, hx]
      rfl
    rw [hentry]
    generalize s'.orders = orders' at heffect
    cases heffect with
    | failed _ e =>
      cases r <;> exact .inl ⟨rfl, rfl⟩
    | listed | read | collided => exact .inl ⟨rfl, rfl⟩
    | withdrawn | stuck => cases hattempt
    | created order query currency payment_account info hnone hi =>
      refine .inr ⟨.opened order (info.terms lib), rfl, ?_⟩
      have hpending : info.payment_status = .pending := by rw [hi, OrderInfo.new]
      rw [orderBook_insert, hpending, stageOf]
      refine .opened (info.terms lib) ?_
      rw [orderBook, record, recordAt, hnone]
      rfl
    | modified order query currency payment_account old info hold hp hi =>
      refine .inr ⟨.renewed order (info.terms lib), rfl, ?_⟩
      have hpending : info.payment_status = .pending := by rw [hi, OrderInfo.renewed, hp]
      rw [orderBook_insert, hpending, stageOf]
      have hopen : orderBook lib submitted s.orders order = some ⟨old.terms lib, .open⟩ := by
        rw [orderBook_of_record hold, hp, stageOf]
      refine .renewed (info.terms lib) hopen ?_
      rw [hi]
      rfl
    | paid order old info hold hp hi =>
      refine .inr ⟨.paid order, rfl, ?_⟩
      have hunsubmitted : submitted order = false := by
        refine Bool.eq_false_of_not_eq_true fun hsubmitted => ?_
        cases hp.symm.trans (hpaid order old hsubmitted hold)
      have hterms : info.terms lib = old.terms lib := by
        rw [hi]
        rfl
      have hstatus : info.payment_status = .paid := by rw [hi, OrderInfo.paid]
      rw [orderBook_insert, hstatus, stageOf, hunsubmitted, hterms]
      refine .paid ?_
      rw [orderBook_of_record hold, hp, stageOf]
  · have hnot : ∀ r answer, x.event ≠ .handler (.said ⟨.db r, answer⟩) :=
      fun r answer he => hx ⟨r, answer, he⟩
    refine .inl ⟨DaemonTurn.entry_of_not_db hnot, ?_⟩
    cases hs with
    | restarted => rfl
    | handler _ ho =>
      refine ho.other_eq fun r answer he => hnot r answer ?_
      rw [he]

/-! ## The simulation -/

theorem exists_of_submits {o : PayoutOp lib} (h : o.submits = true) :
    ∃ extrinsic, o = .rpc (.sendStuff extrinsic) := by
  cases o with
  | rpc call =>
    cases call with
    | sendStuff extrinsic => exact ⟨extrinsic, rfl⟩
    | build | head | currentBlockNumber | balance => cases h
  | built | sign => cases h

/-- What is seen of an operation that submits. -/
theorem entry_of_submits {task : PayoutTask lib} {o : PayoutOp lib}
    {answer : (PayoutSig lib).Answer o} (h : o.submits = true) :
    (PayoutEvent.said task ⟨o, answer⟩).entry =
      some (.settled task.order.id task.order.terms) := by
  obtain ⟨extrinsic, rfl⟩ := exists_of_submits h
  rfl

theorem entry_of_not_submits {task : PayoutTask lib} {o : PayoutOp lib}
    {answer : (PayoutSig lib).Answer o} (h : o.submits = false) :
    (PayoutEvent.said task ⟨o, answer⟩).entry = none := by
  cases o with
  | rpc call =>
    cases call with
    | sendStuff => cases h
    | build | head | currentBlockNumber | balance => rfl
  | built | sign => rfl

variable {allow : List (PayoutEvent lib) → PayoutSys lib → PayoutEvent lib → Prop}

theorem any_submits_of_ne (h : List (PayoutEvent lib)) {e : PayoutEvent lib} {id : String}
    (he : e.submits id = false) :
    (h ++ [e]).any (PayoutEvent.submits id) = h.any (PayoutEvent.submits id) := by
  rw [List.any_append, List.any_cons, List.any_nil, he, Bool.or_false, Bool.or_false]

/-- A step of the daemon submits nothing. -/
theorem PayoutSys.book_daemon (h : List (PayoutEvent lib)) (s : PayoutSys lib)
    (e : SysEvent lib) : s.book (h ++ [.daemon e]) = s.book h := by
  have hsame : (fun id => (h ++ [PayoutEvent.daemon e]).any (PayoutEvent.submits id)) =
      fun id => h.any (PayoutEvent.submits id) :=
    funext fun id => any_submits_of_ne h rfl
  rw [book, book, hsame]

/-- What was submitted for is paid. -/
theorem paid_of_submits {h : List (PayoutEvent lib)} {s : PayoutSys lib}
    (run : PayoutRunIf d engine allow (Sys.Begun d) h s) {id : String}
    (hsubmits : h.any (PayoutEvent.submits id) = true) {info : OrderInfo}
    (hrec : record s.sys.store.orders id = some info) : info.payment_status = .paid := by
  obtain ⟨task, extrinsic, answer, hmem, rfl⟩ := PayoutEvent.exists_submission hsubmits
  obtain ⟨paid, hpaid, hstatus⟩ := PayoutRun.submitted run hmem
  obtain rfl := Option.some.inj (hrec.symm.trans hpaid)
  exact hstatus

/-- What is submitted for was not submitted for before. -/
theorem not_submitted_before {h : List (PayoutEvent lib)} {s : PayoutSys lib}
    {e : PayoutEvent lib} (run : PayoutRunIf d engine allow (Sys.Begun d) (h ++ [e]) s)
    {id : String} (hsubmits : e.submits id = true) : h.any (PayoutEvent.submits id) = false := by
  have honce := (countP_submits_le run id).trans (countP_reapsOrder_le run id)
  rw [List.countP_append, List.countP_singleton, if_pos hsubmits] at honce
  refine Bool.eq_false_of_not_eq_true fun hany => ?_
  have hpos : 0 < h.countP (PayoutEvent.submits id) :=
    List.countP_pos_iff.mpr (List.any_eq_true.mp hany)
  omega

/-- A step of the daemon. -/
theorem SysStep.entered {h : List (PayoutEvent lib)} {s s' : PayoutSys lib} {e : SysEvent lib}
    (run : PayoutRunIf d engine allow (Sys.Begun d) h s) (hs : SysStep d s.sys e s'.sys) :
    ((PayoutEvent.daemon e).entry = none ∧ s'.book (h ++ [.daemon e]) = s.book h) ∨
      ∃ l, (PayoutEvent.daemon e).entry = some l ∧
        Step Renews (s.book h) l (s'.book (h ++ [.daemon e])) := by
  have hrun : SysRun d (sysEvents h) s.sys := PayoutRun.sysRun run
  rw [PayoutSys.book_daemon]
  rcases hs.outcome.store with ⟨x, rfl, hx⟩ | ⟨he, hstore⟩
  · have hpaid : ∀ id info, h.any (PayoutEvent.submits id) = true →
        record s.sys.store.orders id = some info → info.payment_status = .paid :=
      fun id info hsubmits hrec => paid_of_submits run hsubmits hrec
    rcases hx.entered (SysRun.handler_sound hrun) hpaid with ⟨hentry, horders⟩ | ⟨l, hentry, hstep⟩
    · refine .inl ⟨hentry, ?_⟩
      rw [PayoutSys.book, horders, PayoutSys.book]
    · exact .inr ⟨l, hentry, hstep⟩
  · refine .inl ⟨?_, ?_⟩
    · cases e with
      | daemon => cases he
      | outside | restore | manager | tracker => rfl
    · rw [PayoutSys.book, hstore, PayoutSys.book]

/-- A submission is entered. -/
theorem PayoutSys.book_submission (h : List (PayoutEvent lib)) {s : PayoutSys lib}
    {e : PayoutEvent lib} {id : String} (hid : e.submits id = true)
    (hother : ∀ id', id' ≠ id → e.submits id' = false) {info : OrderInfo}
    (hrec : record s.sys.store.orders id = some info) :
    s.book (h ++ [e]) = Function.update (s.book h) id
      (some ⟨info.terms lib, stageOf true info.payment_status⟩) := by
  have hafter : orderBook lib _ s.sys.store.orders = _ :=
    orderBook_submitted (fun id => h.any (PayoutEvent.submits id))
      (fun id => (h ++ [e]).any (PayoutEvent.submits id)) hrec
      fun id' hne => any_submits_of_ne h (hother id' hne)
  have hsubmitted : (h ++ [e]).any (PayoutEvent.submits id) = true := by
    rw [List.any_append, List.any_cons, hid, Bool.true_or, Bool.or_true]
  rw [book, hafter, hsubmitted, book]

/-- **The daemon and its payouts write in the book**, or leave it as it is. -/
theorem PayoutStep.entered {h : List (PayoutEvent lib)} {s s' : PayoutSys lib}
    {e : PayoutEvent lib} (run : PayoutRunIf d engine always (Sys.Begun d) h s)
    (hs : PayoutStep d engine s e s') :
    (e.entry = none ∧ s'.book (h ++ [e]) = s.book h) ∨
      ∃ l, e.entry = some l ∧ Step Renews (s.book h) l (s'.book (h ++ [e])) := by
  have hnext := run.next trivial hs
  have hengaged := PayoutRun.settling run
  cases hs with
  | @daemon e' sys' hs =>
    refine SysStep.entered run ?_
    rw [PayoutSys.follow_sys]
    exact hs
  | began _ _ hs => exact SysStep.entered run hs
  | @said task o k n answer ht hp =>
    have hsubmits : ∀ id, (PayoutEvent.said task ⟨o, answer⟩).submits id =
        (decide (task.order.id = id) && o.submits) := fun _ => rfl
    cases ho : o.submits with
    | false =>
      refine .inl ⟨entry_of_not_submits ho, ?_⟩
      have hsame := funext fun id => any_submits_of_ne h
        (show (PayoutEvent.said task ⟨o, answer⟩).submits id = false by
          rw [hsubmits, ho, Bool.and_false])
      rw [PayoutSys.book, hsame, PayoutSys.book]
    | true =>
      -- The order is paid, as its payout settles it, and this is the first submission.
      obtain ⟨c, ⟨info, hrec, hpaid, hnew⟩, horder, -⟩ :=
        hengaged.running task (List.mem_of_getElem? ht)
      have hmirrors := WatchAccount.mirrors hnew
      rw [← horder] at hmirrors
      rw [← hmirrors.id] at hrec
      have hterms : info.terms lib = task.order.terms := by
        rw [Invoice.terms, OrderInfo.terms, hmirrors.amount, hmirrors.currency, ← hmirrors.address]
        rfl
      have hself : (PayoutEvent.said task ⟨o, answer⟩).submits task.order.id = true := by
        rw [hsubmits, ho, decide_eq_true rfl]
        rfl
      have hbefore := not_submitted_before hnext hself
      have hother : ∀ id, id ≠ task.order.id →
          (PayoutEvent.said task ⟨o, answer⟩).submits id = false := by
        intro id hne
        rw [hsubmits, decide_eq_false (Ne.symm hne), Bool.false_and]
      refine .inr ⟨_, entry_of_submits ho, ?_⟩
      show Step Renews (s.book h) _ (s.book (h ++ [.said task ⟨o, answer⟩]))
      rw [PayoutSys.book_submission h hself hother hrec, hterms, hpaid]
      refine .settled ?_
      rw [PayoutSys.book, orderBook_of_record hrec, hbefore, hpaid, hterms]
      rfl

theorem begun_of_start {s : PayoutSys lib} (h : ∃ sys, sys = Sys.start d ∅ ∧ s = .start sys) :
    ∃ sys, Sys.Begun d sys ∧ s = .start sys := by
  obtain ⟨sys, hsys, hs⟩ := h
  exact ⟨sys, ⟨∅, earlier_empty, hsys⟩, hs⟩

/-- The book is kept in step with the daemon and its payouts. -/
theorem simulates_book : Simulates (PayoutStep d engine) always
    (fun s => ∃ sys, sys = Sys.start d ∅ ∧ s = .start sys) (Step Renews) (· = fun _ => none)
    PayoutEvent.entry fun h s book => book = s.book h where
  start := by
    rintro s ⟨sys, rfl, rfl⟩
    refine ⟨_, rfl, funext fun id => ?_⟩
    simp [PayoutSys.book, PayoutSys.start, Sys.start, orderBook, record, recordAt]
  seen := by
    rintro h s e s' book l run - hs rfl hl
    have hrun : PayoutRunIf d engine always (Sys.Begun d) h s :=
      run.widen fun _ => begun_of_start
    rcases hs.entered hrun with ⟨hentry, -⟩ | ⟨l', hentry, hstep⟩
    · cases hl.symm.trans hentry
    · obtain rfl := Option.some.inj (hl.symm.trans hentry)
      exact ⟨_, hstep, rfl⟩
  unseen := by
    rintro h s e s' book run - hs rfl hl
    have hrun : PayoutRunIf d engine always (Sys.Begun d) h s :=
      run.widen fun _ => begun_of_start
    rcases hs.entered hrun with ⟨-, hbook⟩ | ⟨l, hentry, -⟩
    · exact hbook.symm
    · cases hl.symm.trans hentry

/-- **The daemon with its payouts refines the book**: what is seen of a run that begins on an
empty tree is a run of the book, which leads to the book that is read off the tree. -/
theorem refinesBook {h : List (PayoutEvent lib)} {s : PayoutSys lib}
    (run : PayoutRunIf d engine always (· = Sys.start d ∅) h s) :
    BookRun Renews (h.filterMap PayoutEvent.entry) (s.book h) := by
  obtain ⟨book, hbook, rfl⟩ := simulates_book.reach run
  exact hbook

/-- An order is opened, paid and paid out, and the book has it so. -/
theorem refinesBook_reapedOrder : ∃ h s,
    PayoutRunIf Sample.deployment Sample.payer always (· = Sys.start Sample.deployment ∅) h s ∧
      (h.filterMap PayoutEvent.entry).length = 3 ∧
      BookRun Renews (h.filterMap PayoutEvent.entry) (s.book h) := by
  obtain ⟨h, s, run, hp⟩ := exists_reach_of_replay
    (PayoutSys.exec_sound Sample.deployment Sample.payer)
    (fun s => ∃ sys, sys = Sys.start Sample.deployment ∅ ∧ s = .start sys) ⟨_, rfl, rfl⟩
    (Sample.reapedOrder ++ Sample.payoutAnswers 10 7)
    (p := fun q => (q.1.filterMap PayoutEvent.entry).length = 3) (by decide +kernel)
  exact ⟨h, s, run, of_decide_eq_true hp, refinesBook run⟩

/-- **The history of an order**, in every run that begins on an empty tree: it is opened, it is
renewed on terms with the same account while it is open, it is paid, and then it is paid out
once, on the terms that it had when it was paid. -/
theorem orderStory {h : List (PayoutEvent lib)} {s : PayoutSys lib}
    (run : PayoutRunIf d engine always (· = Sys.start d ∅) h s) (id : String) :
    Story Renews id ((h.filterMap PayoutEvent.entry).filter fun l => l.key = id)
      (s.book h id) := by
  obtain ⟨book, hbook, rfl⟩ := simulates_book.reach run
  exact BookRun.story hbook id

/-- An order is opened, paid and paid out. -/
theorem orderStory_reapedOrder : ∃ h s,
    PayoutRunIf Sample.deployment Sample.payer always (· = Sys.start Sample.deployment ∅) h s ∧
      ((h.filterMap PayoutEvent.entry).filter fun l => l.key = "order").length = 3 ∧
      Story Renews "order" ((h.filterMap PayoutEvent.entry).filter fun l => l.key = "order")
        (s.book h "order") := by
  obtain ⟨h, s, run, hp⟩ := exists_reach_of_replay
    (PayoutSys.exec_sound Sample.deployment Sample.payer)
    (fun s => ∃ sys, sys = Sys.start Sample.deployment ∅ ∧ s = .start sys) ⟨_, rfl, rfl⟩
    (Sample.reapedOrder ++ Sample.payoutAnswers 10 7)
    (p := fun q => ((q.1.filterMap PayoutEvent.entry).filter fun l => l.key = "order").length = 3)
    (by decide +kernel)
  exact ⟨h, s, run, of_decide_eq_true hp, orderStory run "order"⟩

end Kalatori
