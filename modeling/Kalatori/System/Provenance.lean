import Kalatori.System.Restarts
import Kalatori.System.Settlements

/-!
# What is watched and what is paid out

A tracker watches an account because it was asked to, and it is asked to with a
request that was made from the record of an order.  Between two starts there is
only one such request for an order, and it goes to the tracker of its currency, so
no order is watched by two trackers.

An extrinsic moves money from the account of an order to the recipient, so it
has to be earned.  Every submission goes back to a call of `reap`, that to a
record that was marked as paid, that to a report of a tracker, that to a balance
of the account, and the invoice that the balance was read for to a request to
watch the account, which was made from the record of the order.

The record may have been rewritten since then, for another price and in another
currency (`raised_order_underpaid`), but never for another account.  So what
remains true in every run is that the account of the order held the price of some
version of the order.

* `Recorded`: the versions of an order.
* `watchedOnce`: what is watched is the account of an order, and by one tracker.
* `SysRun.paidIn`: a payment that is reported was seen, for a version of its order.
* `payoutsEarned`: an extrinsic is submitted after that.
-/

namespace Kalatori

open Program Transition

variable {lib : Libraries} {d : Deployment lib}
  {allow : List (SysEvent lib) → Sys lib → SysEvent lib → Prop}
  {h : List (SysEvent lib)} {s s' : Sys lib} {e : SysEvent lib}

/-! ## The versions of an order -/

/-- The record of the order stood like this, before or after a step of the handler. -/
def Recorded (h : List (SysEvent lib)) (id : String) (info : OrderInfo) : Prop :=
  ∃ x, .daemon x ∈ h ∧ (record x.before id = some info ∨ record x.after id = some info)

theorem Recorded.append {id : String} {info : OrderInfo} (hr : Recorded h id info)
    (h' : List (SysEvent lib)) : Recorded (h ++ h') id info := by
  obtain ⟨x, hx, hrec⟩ := hr
  exact ⟨x, List.mem_append_left _ hx, hrec⟩

theorem Recorded.of_append {id : String} {info : OrderInfo} (hr : Recorded (h ++ [e]) id info) :
    Recorded h id info ∨ Recorded [e] id info := by
  obtain ⟨x, hx, hrec⟩ := hr
  exact (List.mem_append.mp hx).imp (fun hx => ⟨x, hx, hrec⟩) fun hx => ⟨x, hx, hrec⟩

/-- Records stay, and their accounts too. -/
def KeepsAccounts (orders orders' : Orders) : Prop :=
  ∀ id info, record orders id = some info → ∃ info', record orders' id = some info' ∧
    info'.payment_account = info.payment_account

theorem Effect.keepsAccounts {account_lifetime now : Timestamp} {orders orders' : Orders}
    {r : DbRequest} {answer : Except DbError r.Reply}
    (h : Effect account_lifetime now orders r answer orders') (ha : r.attempt? = none) :
    KeepsAccounts orders orders' := by
  intro id info hrec
  by_cases hid : r.order? = some id
  swap
  · rw [h.record_of_ne hid]
    exact ⟨info, hrec, rfl⟩
  cases h with
  | failed | listed | read | collided => exact ⟨info, hrec, rfl⟩
  | withdrawn | stuck => cases ha
  | created o _ _ _ _ hnone =>
    obtain rfl : o = id := Option.some.inj hid
    rw [record, recordAt, hnone] at hrec
    cases hrec
  | modified o _ _ _ old info' hold _ hi =>
    obtain rfl : o = id := Option.some.inj hid
    obtain rfl := Option.some.inj (hold.symm.trans hrec)
    refine ⟨info', record_insert_self .., ?_⟩
    rw [hi]
    rfl
  | paid o old info' hold _ hi =>
    obtain rfl : o = id := Option.some.inj hid
    obtain rfl := Option.some.inj (hold.symm.trans hrec)
    refine ⟨info', record_insert_self .., ?_⟩
    rw [hi]
    rfl

theorem SysStep.keepsAccounts (hs : SysStep d s e s')
    (hsound : DaemonSound lib (daemonTurns h) s.store) :
    KeepsAccounts s.store.orders s'.store.orders := by
  rcases hs.outcome.store with ⟨x, -, hx⟩ | ⟨-, heq⟩
  · rcases hx.effect hsound with heq | ⟨r, answer, now, -, ha, heffect⟩
    · exact heq ▸ fun _ info hrec => ⟨info, hrec, rfl⟩
    · exact heffect.keepsAccounts ha
  · exact heq ▸ fun _ info hrec => ⟨info, hrec, rfl⟩

/-- **All versions of an order have one account.** -/
theorem SysRun.recorded (run : SysRunIf d allow h s) : ∀ id terms, Recorded h id terms →
    ∃ info, record s.store.orders id = some info ∧
      info.payment_account = terms.payment_account := by
  refine run.invariant (P := fun h s => ∀ id terms, Recorded h id terms → ∃ info,
    record s.store.orders id = some info ∧ info.payment_account = terms.payment_account) ?_ ?_
  · rintro s - id terms ⟨x, hx, -⟩
    exact absurd hx List.not_mem_nil
  · rintro h s e s' run ih - hs id terms hr
    have hkept := hs.keepsAccounts (SysRun.handler_sound run)
    rcases hr.of_append with hr | ⟨x, hx, hrec⟩
    · obtain ⟨info, hrec, haccount⟩ := ih id terms hr
      obtain ⟨info', hrec', haccount'⟩ := hkept id info hrec
      exact ⟨info', hrec', haccount'.trans haccount⟩
    · obtain rfl := List.mem_singleton.mp hx
      rw [hs.outcome.daemonStep.before_eq, hs.outcome.daemonStep.after_eq] at hrec
      rcases hrec with hrec | hrec
      · exact hkept id terms hrec
      · exact ⟨terms, hrec, rfl⟩

/-! ## The watch lists -/

/-- What the restoring task is given was in the tree. -/
theorem SysRun.spawned_recorded (run : SysRunIf d allow h s)
    {order_list : List (String × OrderInfo)} (hl : Spawned h order_list) {id : String}
    {info : OrderInfo} (hmem : (id, info) ∈ order_list) : Recorded h id info := by
  obtain ⟨x, hx, he⟩ := hl
  obtain ⟨h₁, h₂, rfl⟩ := List.append_of_mem hx
  obtain ⟨s₁, s₂, run₁, -, hs⟩ := run.split
  obtain ⟨phase, said, k, hpc, -⟩ := hs.outcome.daemonStep.said he
  obtain ⟨_, _, events, -, -, hcall⟩ := SysRun.handler_sound run₁
  obtain ⟨-, ho⟩ := hcall.starts hpc rfl
  cases ho with
  | spawnRestore =>
    have hlisted := ((SysRun.fresh run₁ _ _ _ hpc).listed order_list (by simp) id info hmem).1
    refine ⟨x, hx, .inl ?_⟩
    rw [hs.outcome.daemonStep.before_eq]
    exact hlisted

/-- **A request to watch an account is made from a version of the order.** -/
theorem SysRun.sent_recorded (run : SysRunIf d allow h s) {w : WatchAccount} (hw : Sent h w) :
    ∃ terms recipient res, Recorded h w.id terms ∧
      WatchAccount.new lib w.id terms recipient res = .ok w := by
  obtain ⟨e, he, hsends⟩ := hw
  obtain ⟨h₁, h₂, rfl⟩ := List.append_of_mem he
  obtain ⟨s₁, s₂, run₁, -, hs⟩ := run.split
  rcases hsends with ⟨x, rfl, hx⟩ | rfl
  · obtain ⟨phase, said, k, hpc, -⟩ := hs.outcome.daemonStep.said hx
    obtain ⟨_, _, events, -, -, hcall⟩ := SysRun.handler_sound run₁
    obtain ⟨-, _, _, -, ho⟩ := hcall.handles hpc rfl
    cases ho with
    | watch query properties payment_account info _ hnew =>
      have hcreated := (SysRun.fresh run₁ _ _ _ hpc).created query.order query
        (properties.info query.currency) payment_account info (by simp [created])
      have hid : w.id = query.order := WatchAccount.new_id hnew
      rw [hid]
      refine ⟨info, _, _, ⟨x, he, .inl ?_⟩, hnew⟩
      rw [hs.outcome.daemonStep.before_eq]
      exact hcreated
  · have houtcome := hs.outcome
    cases houtcome with
    | restoreSent _ _ hrestore =>
      obtain ⟨order_list, hspawned, hholds⟩ := (SysRun.traced run₁).restoring _ _ hrestore
      obtain ⟨-, order, info, w', hmem, hnew, hreq⟩ := hholds.1
      obtain rfl := ChainRequest.watchAccount.inj hreq
      obtain rfl := WatchAccount.new_id hnew
      exact ⟨info, _, _, (SysRun.spawned_recorded run₁ hspawned hmem).append _, hnew⟩

/-- A tracker watches only what is routed to it. -/
theorem SysRun.watched_routed (run : SysRunIf d allow h s) {index : ℕ} : ∀ id invoice,
    (s.trackers index).watched_accounts.lookup id = some invoice →
      d.routes.route invoice.currency = .ok index := by
  refine run.invariant (P := fun _ s => ∀ id invoice,
    (s.trackers index).watched_accounts.lookup id = some invoice →
      d.routes.route invoice.currency = .ok index) ?_ ?_
  · rintro s ⟨orders, -, rfl⟩ id invoice hl
    cases hl
  · rintro h s e s' run ih - hs id invoice hl
    rcases hs.outcome.trackers index with heq | heq | ⟨chain, x, rfl, -, -, -, hx⟩
    · exact ih id invoice (heq ▸ hl)
    · rw [heq] at hl
      cases hl
    · rcases hx.lookup_after (SysRun.sound run index) hl with hl | ⟨w, he, -, rfl⟩
      · exact ih id invoice hl
      · have hheading : s.Heading d index (.watchAccount w) := .waiting (hs.outcome.taken he)
        exact (SysRun.traced run).routed index _ w hheading rfl

/-- **What a tracker watches** is the account of an order, for the price and in the currency that
some version of the order had; it is the tracker of that currency, and no other tracker watches
the order. -/
theorem watchedOnce (run : SysRunIf d allow h s) {index : ℕ} {id : String} {invoice : Invoice}
    (hl : (s.trackers index).watched_accounts.lookup id = some invoice) :
    (∃ terms, Recorded h id terms ∧ Mirrors lib id terms invoice) ∧
      (∃ info, record s.store.orders id = some info ∧
        lib.fromBase58String info.payment_account = some invoice.address) ∧
      d.routes.route invoice.currency = .ok index ∧
      ∀ index' invoice', (s.trackers index').watched_accounts.lookup id = some invoice' →
        index' = index := by
  have hroute := SysRun.watched_routed run id invoice hl
  obtain ⟨w, hw, rfl, rfl⟩ := (SysRun.traced run).watched index id invoice hl
  obtain ⟨terms, recipient, res, hrecorded, hnew⟩ := SysRun.sent_recorded run hw
  have hmirrors := WatchAccount.mirrors hnew
  obtain ⟨info, hrec, haccount⟩ := SysRun.recorded run _ _ hrecorded
  refine ⟨⟨terms, hrecorded, hmirrors⟩, ⟨info, hrec, ?_⟩, hroute, fun index' invoice' hl' => ?_⟩
  · rw [haccount]
    exact hmirrors.address
  -- Since the last start the order was asked for with one request.
  · obtain ⟨orders, -, hregistering, -⟩ := SysRun.listing run
    obtain ⟨w₁, hw₁, hid₁, hinvoice₁⟩ := hregistering.traced.watched index _ _ hl
    obtain ⟨w₂, hw₂, hid₂, hinvoice₂⟩ := hregistering.traced.watched index' _ _ hl'
    obtain rfl := hregistering.agreed w₁ w₂ hw₁ hw₂ (hid₁.trans hid₂.symm)
    have hroute' := SysRun.watched_routed run _ _ hl'
    rw [hinvoice₂, ← hinvoice₁, hroute] at hroute'
    exact (Except.ok.inj hroute').symm

/-- An order is placed, and the one tracker watches it. -/
theorem watchedOnce_registered : ∃ h s invoice, SysRun Sample.deployment h s ∧
    (s.trackers 0).watched_accounts.lookup "order" = some invoice ∧
      (∃ terms, Recorded h "order" terms ∧ Mirrors Sample.libraries "order" terms invoice) ∧
      ∀ index' invoice', (s.trackers index').watched_accounts.lookup "order" = some invoice' →
        index' = 0 := by
  obtain ⟨h, s, run, hp⟩ := exists_reach_of_replay (Sys.exec_sound Sample.deployment)
    (Sys.Begun Sample.deployment) Sample.begun
    (Sample.connected ++ Sample.ordered "order" Sample.ten ++ Sample.registered)
    (p := fun q => ((q.2.trackers 0).watched_accounts.lookup "order").isSome) (by decide +kernel)
  obtain ⟨invoice, hl⟩ := Option.isSome_iff_exists.mp hp
  obtain ⟨hmirrors, -, -, honce⟩ := watchedOnce run hl
  exact ⟨h, s, invoice, run, hl, hmirrors, honce⟩

/-! ## The payments -/

/-- **The order was paid in**: a tracker saw the price of some version of the order, on the account
of that version. -/
def PaidIn (h : List (SysEvent lib)) (id : String) : Prop :=
  ∃ terms, Recorded h id terms ∧ PaidFor h terms

theorem PaidIn.append {id : String} (hp : PaidIn h id) (h' : List (SysEvent lib)) :
    PaidIn (h ++ h') id := by
  obtain ⟨terms, hr, hpaid⟩ := hp
  exact ⟨terms, hr.append h', hpaid.append h'⟩

/-- **What a tracker reports was paid in.** -/
theorem SysRun.paidIn (run : SysRunIf d allow h s) {id : String} (hr : Reported h id) :
    PaidIn h id := by
  obtain ⟨index, x, hx, he⟩ := hr
  obtain ⟨h₁, h₂, rfl⟩ := List.append_of_mem hx
  refine PaidIn.append ?_ _
  obtain ⟨s₁, s₂, run₁, -, hs⟩ := run.split
  have ht := SysRun.traced run₁
  obtain ⟨chain, -, -, -, hstep⟩ := hs.outcome.turn
  rw [he] at hstep
  generalize (s₂.trackers index) = t' at hstep
  cases hstep with
  | @said said _ k _ hpc =>
    -- The tracker compared the balance with the invoice it had been asked to watch.
    obtain ⟨invoice, hl, watcher, block, balance, hmem, hle⟩ :=
      ((SysRun.sound run₁ index).busy _ _ hpc).1
    obtain ⟨w, hw, rfl, rfl⟩ := ht.watched index id invoice hl
    obtain ⟨y, hy, hye⟩ := ht.said index _ _ hpc _ hmem
    obtain ⟨terms, recipient, res, hrecorded, hnew⟩ := SysRun.sent_recorded run₁ hw
    have hmirrors := WatchAccount.mirrors hnew
    have hprice : (Invoice.fromRequest w).amount = terms.price lib.arithmetic := hmirrors.amount
    rw [hprice] at hle
    exact ⟨terms, hrecorded, index, y, watcher, _, block, balance, hy, hye, hmirrors.address,
      hmirrors.currency, hle⟩

/-- **An order that is marked as paid was paid in.** -/
theorem SysRun.marked_paidIn (run : SysRunIf d allow h s) {x : DaemonTurn} {id : String}
    (hx : .daemon x ∈ h) (hm : x.marksPaid id = true) : PaidIn h id := by
  obtain ⟨order, he⟩ := DaemonTurn.exists_of_marksPaid hm
  obtain ⟨h₁, h₂, rfl⟩ := List.append_of_mem hx
  obtain ⟨s₁, s₂, run₁, -, hs⟩ := run.split
  obtain ⟨⟨old, hold, hpending, rfl⟩, hnew, hbefore, hafter⟩ := hs.outcome.daemonStep.marked he
  rw [hbefore] at hold
  rw [hafter] at hnew
  have hreported := (reported_of_becomes_paid run₁ hs hold hpending hnew rfl).1
  exact (SysRun.paidIn run₁ hreported).append _

/-! ## The payouts -/

variable {engine : PayoutEngine lib} {ok : List (PayoutEvent lib) → PayoutSys lib →
  PayoutEvent lib → Prop} {g : List (PayoutEvent lib)} {p : PayoutSys lib}

/-- What is submitted for an order goes back to the step that marked it. -/
theorem PayoutRun.exists_marksPaid (run : PayoutRunIf d engine ok (Sys.Begun d) g p) {id : String}
    {e : PayoutEvent lib} (he : e ∈ g) (hsubmits : e.submits id = true) :
    ∃ x, .daemon x ∈ sysEvents g ∧ x.marksPaid id = true := by
  have hrun := SysRun.daemonRun (PayoutRun.sysRun run)
  have hsubmitted : 0 < g.countP (PayoutEvent.submits id) :=
    List.countP_pos_iff.mpr ⟨e, he, hsubmits⟩
  have hreaped := countP_submits_le run id
  rw [countP_reapsOrder] at hreaped
  have hmarked := (countP_reaps_le_marks hrun id).1
  obtain ⟨x, hx, hm⟩ := List.countP_pos_iff.mp ((hsubmitted.trans_le hreaped).trans_le hmarked)
  exact ⟨x, mem_daemonTurns.mp hx, hm⟩

/-- **The extrinsic speaks for an account**: it is a transaction that the payout has built, and the
account is its author, where the chain lets one be written. -/
def SpeaksFor (engine : PayoutEngine lib) (task : PayoutTask lib) (extrinsic : List UInt8)
    (account : AccountId32) : Prop :=
  ∃ block transaction signature,
    ⟨.built task.chain.metadata block transaction, ()⟩ ∈ task.said ∧
    engine.con.sendThisSigned task.chain.metadata (transaction.signed signature) =
      .ok (some extrinsic) ∧
    ∀ author, writtenAuthor transaction.author = some author ↔
      NamesAuthor engine.con task.chain ∧ author = account

theorem Submits.speaksFor {task : PayoutTask lib} {extrinsic : List UInt8}
    (h : Submits engine.con engine.overflow_checks task.order task.chain task.said extrinsic) :
    SpeaksFor engine task extrinsic task.order.address := by
  obtain ⟨order, chain, said, program⟩ := task
  replace h : Submits engine.con engine.overflow_checks order chain said extrinsic := h
  cases h with
  | intro rpc block block_number balance a currency transfer call transaction sign_this signature _
      hcurrency hdifference hdecision htransfer hcall htransaction hsign hextrinsic =>
    have hbuilt : Built engine.con order chain block transaction :=
      ⟨call, block_number, htransaction⟩
    exact ⟨block, transaction, signature, by simp [submissionSaid], hextrinsic, hbuilt.author⟩

/-- **What is paid out was paid in.**  Before an extrinsic is submitted, a tracker has seen on the
very account that the extrinsic speaks for the price that some version of the order had, in its
currency, however often the order was rewritten and the daemon was restarted. -/
theorem payoutsEarned {task : PayoutTask lib} {extrinsic : List UInt8} {answer : Except Stop Unit}
    {g₁ g₂ : List (PayoutEvent lib)}
    (run : PayoutRunIf d engine ok (Sys.Begun d)
      (g₁ ++ .said task ⟨.rpc (.sendStuff extrinsic), answer⟩ :: g₂) p) :
    ∃ terms, Recorded (sysEvents g₁) task.order.id terms ∧
      lib.fromBase58String terms.payment_account = some task.order.address ∧
      PaidFor (sysEvents g₁) terms ∧ SpeaksFor engine task extrinsic task.order.address := by
  obtain ⟨p₁, p₂, run₁, hallow, hs⟩ := run.split
  have hevents : sysEvents (g₁ ++ [.said task ⟨.rpc (.sendStuff extrinsic), answer⟩]) =
      sysEvents g₁ := by
    rw [sysEvents_append]
    exact List.append_nil _
  have run₂ := Reach.next run₁ hallow hs
  have hsubmits : PayoutEvent.submits task.order.id
      (.said task ⟨.rpc (.sendStuff extrinsic), answer⟩) = true := by
    simp [PayoutEvent.submits, PayoutOp.submits]
  obtain ⟨x, hx, hm⟩ := PayoutRun.exists_marksPaid run₂
    (List.mem_append_right _ (List.mem_singleton_self _)) hsubmits
  rw [hevents] at hx
  have hrun : SysRun d (sysEvents g₁) p₁.sys := PayoutRun.sysRun run₁
  obtain ⟨terms, hrecorded, hpaid⟩ := SysRun.marked_paidIn hrun hx hm
  obtain ⟨info, hrec, haccount⟩ := SysRun.recorded hrun _ _ hrecorded
  -- The payout is for the account that stands in the record now.
  cases hs with
  | said n _ ht hp =>
    have hrunning : task ∈ p₁.running := List.mem_of_getElem? ht
    obtain ⟨c, ⟨info', hrec', -, hnew⟩, horder, -⟩ :=
      (PayoutRun.settling run₁).running task hrunning
    have hmirrors := WatchAccount.mirrors hnew
    have hid : c.request.id = task.order.id := by
      rw [horder]
      exact hmirrors.id.symm
    rw [hid, hrec] at hrec'
    obtain rfl := Option.some.inj hrec'
    have haddress : lib.fromBase58String terms.payment_account = some task.order.address := by
      rw [← haccount, horder]
      exact hmirrors.address
    have hspeaks := ((PayoutRun.follows run₁ task hrunning).submits hp).speaksFor
    exact ⟨terms, hrecorded, haddress, hpaid, hspeaks⟩

/-- An order is paid for and reaped, and what its payout submits was earned. -/
theorem payoutsEarned_reapedOrder : ∃ h s,
    PayoutRunIf Sample.deployment Sample.payer always (Sys.Begun Sample.deployment) h s ∧
      ∃ g₁ task extrinsic answer g₂,
        h = g₁ ++ .said task ⟨.rpc (.sendStuff extrinsic), answer⟩ :: g₂ ∧
        task.order.id = "order" ∧ ∃ terms, Recorded (sysEvents g₁) task.order.id terms ∧
          Sample.libraries.fromBase58String terms.payment_account = some task.order.address ∧
          PaidFor (sysEvents g₁) terms ∧
          SpeaksFor Sample.payer task extrinsic task.order.address := by
  obtain ⟨h, s, run, hp⟩ := exists_reach_of_replay
    (PayoutSys.exec_sound Sample.deployment Sample.payer)
    (fun s => ∃ sys, Sys.Begun Sample.deployment sys ∧ s = .start sys) ⟨_, Sample.begun, rfl⟩
    (Sample.reapedOrder ++ Sample.payoutAnswers 10 7)
    (p := fun q => q.1.any (PayoutEvent.submits "order")) (by decide +kernel)
  obtain ⟨task, extrinsic, answer, hmem, hid⟩ := PayoutEvent.exists_submission hp
  obtain ⟨g₁, g₂, rfl⟩ := List.append_of_mem hmem
  exact ⟨_, s, run, g₁, task, extrinsic, answer, g₂, rfl, hid, payoutsEarned run⟩

end Kalatori
