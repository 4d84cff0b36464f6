import Kalatori.Chain.Calls
import Kalatori.System.Authors
import Kalatori.System.NewOrders
import Kalatori.System.Routing
import Kalatori.System.Submissions

/-!
# What a payout settles

A request to reap is made from a record that was just marked as paid, and a paid
record stays as it is.  So wherever the request is, in a channel, with a payout
that has yet to begin or with one that runs, its terms are still those of the
record, and its recipient is the one that the daemon was started with.

A payout only goes on to submit when the balance that it has read is close to the
amount, and what it submits is the signed transfer that `payout_submits` lists.
`Settlement` puts the two together.

* `Handler.Retains`, `SysRun.configured`: what the handler never changes.
* `Settles`, `PayoutRun.settling`: the terms of a payout are those of a paid record.
* `PayoutRun.answered`: the signatures that a payout was given.
* `payoutsSettle`: every extrinsic that is submitted settles an order.
-/

namespace Kalatori

open Program Transition

variable {lib : Libraries} {d : Deployment lib}

/-! ## What the handler never changes -/

/-- The handler has data with a property, and goes on with such data. -/
structure Handler.Retains (P : StateData → Prop) (s : Handler) : Prop where
  state : P s.state
  busy : ∀ phase said program, s.pc = .busy phase said program →
    Prog.Holds (fun _ _ => True) (fun _ result => Listens P result) said program

theorem Handler.retains_start {P : StateData → Prop} {recipient : AccountId32}
    {server_info : ServerInfo} (h : P ⟨∅, recipient, server_info⟩) :
    (Handler.start recipient server_info).Retains P := by
  refine ⟨h, ?_⟩
  rintro phase said program ⟨⟩
  rw [Prog.holds_run_bind]
  refine (Prog.holds_true [] _).mono (fun _ _ h => h) ?_
  rintro said (e | a) -
  · trivial
  · exact h

/-- Only a chain that connects can change whether the property holds. -/
theorem HandlerStep.retains {P : StateData → Prop} {s s' : Handler} {e : HandlerEvent}
    (hs : HandlerStep lib s e s')
    (hassets : ∀ assets, e = .received (.connectChain assets) → P s.state →
      P (s.state.updateCurrencies assets)) (h : s.Retains P) : s'.Retains P := by
  cases hs with
  | said answer hpc =>
    refine ⟨h.state, ?_⟩
    rintro phase said program ⟨⟩
    exact (h.busy _ _ _ hpc).2 answer
  | @settled phase said result hpc =>
    have hresult := h.busy _ _ _ hpc
    rcases result with e | next
    · exact ⟨h.state, nofun⟩
    · cases next with
      | listen state => exact ⟨hresult, nofun⟩
      | finish => exact ⟨h.state, nofun⟩
  | received request hpc =>
    refine ⟨h.state, ?_⟩
    rintro phase said program ⟨⟩
    refine (handle_listens s.state request).mono (fun _ _ h => h) fun said result hresult => ?_
    rcases result with e | next
    · trivial
    · cases next with
      | listen state =>
        rcases hresult with rfl | ⟨assets, rfl, rfl⟩
        · exact h.state
        · exact hassets assets rfl h.state
      | finish => trivial
  | closed => exact ⟨h.state, nofun⟩
  | notified =>
    refine ⟨h.state, ?_⟩
    rintro phase said program ⟨⟩
    rw [Prog.holds_run_bind]
    refine (Prog.holds_true [] _).mono (fun _ _ h => h) ?_
    rintro said (e | a) -
    · trivial
    · trivial

/-- The handler has what the daemon was started with. -/
structure Deployment.Configured (d : Deployment lib) (state : StateData) : Prop where
  recipient : state.recipient = d.recipient
  server_info : state.server_info = d.server_info

theorem SysStep.configured {s s' : Sys lib} {e : SysEvent lib} (hs : SysStep d s e s')
    (h : s.store.handler.Retains d.Configured) : s'.store.handler.Retains d.Configured := by
  rcases hs.outcome.store with ⟨x, rfl, hx⟩ | ⟨-, hstore⟩
  · rcases hx.handlerStep with ⟨e, -, hstep⟩ | hrestart
    · exact hstep.retains (fun assets _ hp => ⟨hp.recipient, hp.server_info⟩) h
    · rw [hs.outcome.restarted_eq ⟨x, rfl, hrestart⟩]
      exact Handler.retains_start ⟨rfl, rfl⟩
  · rw [hstore]
    exact h

/-- **The recipient and the server's information stay as they were configured.** -/
theorem SysRun.configured {allow : List (SysEvent lib) → Sys lib → SysEvent lib → Prop}
    {h : List (SysEvent lib)} {s : Sys lib} (run : SysRunIf d allow h s) :
    s.store.handler.Retains d.Configured := by
  refine run.invariant (P := fun _ s => s.store.handler.Retains d.Configured) ?_ ?_
  · rintro s ⟨orders, -, rfl⟩
    exact Handler.retains_start ⟨rfl, rfl⟩
  · rintro h s e s' - ih - hs
    exact hs.configured ih

/-! ## The terms of a payout -/

/-- The request is for the payout of an order that is paid, on the terms of its record. -/
def Settles (d : Deployment lib) (orders : Orders) (w : WatchAccount) : Prop :=
  ∃ info, record orders w.id = some info ∧ info.payment_status = .paid ∧
    WatchAccount.new lib w.id info d.recipient .stateHandler = .ok w

/-- What was marked is what is stored. -/
def MarkedIn (orders : Orders) (said : Trace HandlerSig) : Prop :=
  ∀ id order, ⟨.db (.markPaid id), .ok order⟩ ∈ said →
    record orders id = some order ∧ order.payment_status = .paid

/-- **A request to reap settles an order**, from the moment it is made. -/
structure Sys.Settling (d : Deployment lib) (s : Sys lib) : Prop where
  told : ∀ phase said program, s.store.handler.pc = .busy phase said program →
    MarkedIn s.store.orders said
  heading : ∀ index w, s.Heading d index (.reap w) → Settles d s.store.orders w

theorem SysStep.paid_kept {s s' : Sys lib} {e : SysEvent lib} {h : List (SysEvent lib)}
    (hs : SysStep d s e s') (hsound : DaemonSound lib (daemonTurns h) s.store) {id : String}
    {info : OrderInfo} (hrec : record s.store.orders id = some info)
    (hp : info.payment_status = .paid) : record s'.store.orders id = some info := by
  rcases hs.outcome.store with ⟨x, -, hx⟩ | ⟨-, hstore⟩
  · exact hx.paid_kept hsound hrec hp
  · rw [hstore]
    exact hrec

/-- The terms of a paid order do not change any more. -/
theorem SysStep.settles_kept {s s' : Sys lib} {e : SysEvent lib} {h : List (SysEvent lib)}
    (hs : SysStep d s e s') (hsound : DaemonSound lib (daemonTurns h) s.store) {w : WatchAccount}
    (hw : Settles d s.store.orders w) : Settles d s'.store.orders w := by
  obtain ⟨info, hrec, hp, hnew⟩ := hw
  exact ⟨info, hs.paid_kept hsound hrec hp, hp, hnew⟩

theorem SysStep.marks {s s' : Sys lib} {e : SysEvent lib} {h : List (SysEvent lib)}
    (hs : SysStep d s e s') (hsound : DaemonSound lib (daemonTurns h) s.store)
    (hg : s.Settling d) {phase : HandlerPhase} {said : Trace HandlerSig}
    {program : Prog HandlerSig (Except Error HandlerNext)}
    (hpc : s'.store.handler.pc = .busy phase said program) : MarkedIn s'.store.orders said := by
  intro id order hmem
  have hkept : ∀ phase' said' program', s.store.handler.pc = .busy phase' said' program' →
      ⟨.db (.markPaid id), .ok order⟩ ∈ said' →
      record s'.store.orders id = some order ∧ order.payment_status = .paid := by
    intro phase' said' program' hpc' hmem'
    obtain ⟨hrec, hp⟩ := hg.told phase' said' program' hpc' id order hmem'
    exact ⟨hs.paid_kept hsound hrec hp, hp⟩
  rcases hs.outcome.store with ⟨x, rfl, hx⟩ | ⟨-, hstore⟩
  · rcases hx.said_after hpc hmem with hevent | ⟨_, _, _, hpc', hmem'⟩
    · obtain ⟨⟨old, -, -, rfl⟩, hrec, -, hafter⟩ := hx.marked hevent
      exact ⟨hafter ▸ hrec, rfl⟩
    · exact hkept _ _ _ hpc' hmem'
  · rw [hstore] at hpc
    exact hkept _ _ _ hpc hmem

/-- A request to reap is made from the record that was marked. -/
theorem SysStep.settles_sent {s s' : Sys lib} {e : SysEvent lib} {h : List (SysEvent lib)}
    (hs : SysStep d s e s') (hsound : DaemonSound lib (daemonTurns h) s.store)
    (ht : s.Traced d h) (hc : s.store.handler.Retains d.Configured) (hg : s.Settling d)
    {w : WatchAccount} (hsends : e.Sends (.reap w)) : Settles d s.store.orders w := by
  rcases hsends with ⟨x, rfl, he⟩ | rfl
  · obtain ⟨phase, said, k, hpc, -⟩ := hs.outcome.daemonStep.said he
    obtain ⟨_, _, events, -, -, hcall⟩ := hsound
    obtain ⟨-, _, _, -, ho⟩ := hcall.handles hpc rfl
    cases ho with
    | reap id order _ hnew =>
      obtain ⟨hrec, hp⟩ := hg.told _ _ _ hpc id order List.mem_cons_self
      obtain rfl := WatchAccount.new_id hnew
      rw [hc.state.recipient] at hnew
      exact ⟨order, hrec, hp, hnew⟩
  · have houtcome := hs.outcome
    cases houtcome with
    | restoreSent _ _ hrestore =>
      obtain ⟨order_list, -, hholds⟩ := ht.restoring _ _ hrestore
      obtain ⟨-, _, _, _, -, -, hreq⟩ := hholds.1
      cases hreq

theorem SysStep.settling {s s' : Sys lib} {e : SysEvent lib} {h : List (SysEvent lib)}
    (hs : SysStep d s e s') (hsound : DaemonSound lib (daemonTurns h) s.store)
    (ht : s.Traced d h) (hc : s.store.handler.Retains d.Configured) (hg : s.Settling d) :
    s'.Settling d := by
  refine ⟨fun phase said program hpc => hs.marks hsound hg hpc, fun index w hw => ?_⟩
  refine hs.settles_kept hsound ?_
  rcases hs.outcome.heading_before hw rfl with hw | ⟨r, account, hsends, hreq, -⟩
  · exact hg.heading index w hw
  · rw [eq_reap_of_forTracker hreq] at hsends
    exact hs.settles_sent hsound ht hc hg hsends

theorem SysRun.settling {allow : List (SysEvent lib) → Sys lib → SysEvent lib → Prop}
    {h : List (SysEvent lib)} {s : Sys lib} (run : SysRunIf d allow h s) : s.Settling d := by
  refine run.invariant (P := fun _ s => s.Settling d) ?_ ?_
  · rintro s ⟨orders, -, rfl⟩
    refine ⟨?_, fun index w hw => absurd hw (Sys.not_heading_start _ _ _)⟩
    rintro phase said program ⟨⟩
    exact fun _ _ hmem => absurd hmem List.not_mem_nil
  · rintro h s e s' run ih - hs
    exact hs.settling (SysRun.handler_sound run) (SysRun.traced run) (SysRun.configured run) ih

/-! ## The payouts -/

variable {engine : PayoutEngine lib}
  {allow : List (PayoutEvent lib) → PayoutSys lib → PayoutEvent lib → Prop}

/-- A step of a payout leaves the daemon as it is. -/
theorem PayoutStep.sysStep {s s' : PayoutSys lib} {e : PayoutEvent lib}
    (hs : PayoutStep d engine s e s') :
    s'.sys = s.sys ∨ ∃ e', e = .daemon e' ∧ SysStep d s.sys e' s'.sys := by
  cases hs with
  | @daemon e' sys' hs =>
    rw [PayoutSys.follow_sys]
    exact .inr ⟨e', rfl, hs⟩
  | began _ _ hs => exact .inr ⟨_, rfl, hs⟩
  | said => exact .inl rfl

theorem PayoutStep.settles_kept {h : List (PayoutEvent lib)} {s s' : PayoutSys lib}
    {e : PayoutEvent lib} (run : PayoutRunIf d engine allow (Sys.Begun d) h s)
    (hs : PayoutStep d engine s e s') {w : WatchAccount} (hw : Settles d s.sys.store.orders w) :
    Settles d s'.sys.store.orders w := by
  have hrun : SysRun d (sysEvents h) s.sys := PayoutRun.sysRun run
  rcases hs.sysStep with heq | ⟨e', -, hs⟩
  · rw [heq]
    exact hw
  · exact hs.settles_kept (SysRun.handler_sound hrun) hw

/-- **The terms of every payout are those of a paid record.** -/
theorem PayoutRun.settling {h : List (PayoutEvent lib)} {s : PayoutSys lib}
    (run : PayoutRunIf d engine allow (Sys.Begun d) h s) :
    s.Engaged engine fun c => Settles d s.sys.store.orders c.request := by
  refine run.invariant
    (P := fun _ s => s.Engaged engine fun c => Settles d s.sys.store.orders c.request) ?_ ?_
  · rintro s ⟨sys, -, rfl⟩
    exact ⟨nofun, nofun, nofun⟩
  · rintro h s e s' run ih - hs
    refine hs.engaged ih (fun c hc => hs.settles_kept run hc) ?_
    rintro e' sys' c rfl hs' hc
    obtain ⟨index, x, rfl, hevent, -⟩ := commission_eq_some hc
    have hheading : s.sys.Heading d index (.reap c.request) := .waiting (hs'.outcome.taken hevent)
    have hrun : SysRun d (sysEvents h) s.sys := PayoutRun.sysRun run
    exact hs.settles_kept run ((SysRun.settling hrun).heading index c.request hheading)

/-- **Every answer that a payout was given** is one that its surroundings give. -/
theorem PayoutRun.answered {init : Sys lib → Prop} {h : List (PayoutEvent lib)} {s : PayoutSys lib}
    (run : PayoutRunIf d engine allow init h s) :
    ∀ task ∈ s.running, ∀ exchange ∈ task.said, engine.Answers exchange.1 exchange.2 := by
  refine run.invariant (P := fun _ s => ∀ task ∈ s.running, ∀ exchange ∈ task.said,
    engine.Answers exchange.1 exchange.2) ?_ ?_
  · rintro s ⟨sys, -, rfl⟩
    exact nofun
  · rintro h s e s' - ih - hs task hmem
    cases hs with
    | daemon => exact ih task (PayoutSys.mem_follow_running hmem)
    | began =>
      rcases List.mem_append.mp hmem with hmem | hmem
      · exact ih task hmem
      · obtain rfl := List.mem_singleton.mp hmem
        exact nofun
    | @said task' o k n answer ht hp ha =>
      rcases List.mem_or_eq_of_mem_set hmem with hmem | rfl
      · exact ih task hmem
      · intro exchange hexchange
        rcases List.mem_append.mp hexchange with hexchange | hexchange
        · exact ih task' (List.mem_of_getElem? ht) exchange hexchange
        · obtain rfl := List.mem_singleton.mp hexchange
          exact ha

/-! ## What is submitted -/

/-- **What an extrinsic settles, and how it came about.**  Of the order the record is given. -/
structure Settlement (d : Deployment lib) (engine : PayoutEngine lib) (orders : Orders)
    (info : OrderInfo) (task : PayoutTask lib) (extrinsic : List UInt8) where
  block : BlockHash
  balance : Balance
  currency : CurrencyProperties
  transfer : Transfer
  call : TypeToFill
  transaction : TransactionToFill
  sign_this : List UInt8
  pair : engine.keys.Pair
  /- The payout is for an order that is stored as paid, on the terms of its record. -/
  stored : record orders task.order.id = some info
  paid : info.payment_status = .paid
  account : lib.fromBase58String info.payment_account = some task.order.address
  priced : task.order.amount = info.price lib.arithmetic
  currency_name : task.order.currency = info.currency.currency
  recipient : task.order.recipient = d.recipient
  /- It has read from the newest block that the account holds about the price. -/
  newest : ⟨.rpc .head, .ok block⟩ ∈ task.said
  read : ⟨.rpc (.balance task.chain task.order block), .ok balance⟩ ∈ task.said
  close : (balance - task.order.amount).toNat ≤ 10000
  covered : engine.overflow_checks = true → task.order.amount ≤ balance
  /- The transfer is the one for the currency, from the account of the order. -/
  known : task.chain.assets.lookup task.order.currency = some currency
  transferred : payoutTransfer task.order currency = .ok transfer
  constructed : transfer.construct engine.con task.chain.metadata = .ok call
  expressed : Expresses engine.con task.chain.metadata transfer.kind →
    IsTransfer transfer call ∧ IsBatch [call] transaction.call
  author : ∀ account, writtenAuthor transaction.author = some account ↔
    NamesAuthor engine.con task.chain ∧ account = task.order.address
  /- It is signed with the key of the order. -/
  derived : engine.signer.pair lib task.order.id = .ok pair
  signable : engine.con.signThis transaction = some sign_this
  sent : engine.con.sendThisSigned task.chain.metadata
    (transaction.signed (engine.keys.sign pair sign_this)) = .ok (some extrinsic)

theorem covered_of_difference {overflow_checks : Bool} {balance amount a : Balance}
    (h : difference overflow_checks balance amount = .ok a) :
    a = balance - amount ∧ (overflow_checks = true → amount ≤ balance) := by
  rw [difference] at h
  split_ifs at h with hunderflow
  refine ⟨(Except.ok.inj h).symm, fun hchecks => ?_⟩
  exact BitVec.not_lt.mp fun hlt => hunderflow ⟨hchecks, hlt⟩

/-- A signature is that of the pair of the order. -/
theorem PayoutEngine.Answers.sign {id : String} {sign_this : List UInt8}
    {signature : Sr25519Signature} (h : engine.Answers (.sign id sign_this) (.ok signature)) :
    ∃ pair, engine.signer.pair lib id = .ok pair ∧
      signature = engine.keys.sign pair sign_this := by
  rcases h with h | h
  · rw [Signer.serve] at h
    cases hpair : engine.signer.pair lib id with
    | error e =>
      rw [hpair] at h
      cases h
    | ok pair =>
      rw [hpair] at h
      exact ⟨pair, rfl, Except.ok.inj h⟩
  · cases h

/-- What the metadata can express is built. -/
theorem Expresses.built {Metadata : Type} {con : Constructor Metadata} {metadata : Metadata}
    {transfer : Transfer} (h : Expresses con metadata transfer.kind) {genesis_hash : BlockHash}
    {author : AccountId32} {block : BlockHash} {block_number nonce : UInt32} {call : TypeToFill}
    {transaction : TransactionToFill} (hcall : transfer.construct con metadata = .ok call)
    (htransaction : constructBatchTransaction con metadata genesis_hash author [call] block
      block_number nonce = .ok transaction) :
    IsTransfer transfer call ∧ IsBatch [call] transaction.call :=
  ⟨Results.forall_ok_iff.mpr (.inr ((gives_construct transfer).mpr h.1)) call hcall,
    batch_of_constructBatchTransaction.mpr (.inr h.2) transaction htransaction⟩

/-- A payout that is about to submit settles an order. -/
theorem Submits.settlement {orders : Orders} {task : PayoutTask lib} {extrinsic : List UInt8}
    (h : Submits engine.con engine.overflow_checks task.order task.chain task.said extrinsic)
    {w : WatchAccount} (hw : Settles d orders w) (horder : task.order = Invoice.fromRequest w)
    (hanswers : ∀ exchange ∈ task.said, engine.Answers exchange.1 exchange.2) :
    ∃ info, Nonempty (Settlement d engine orders info task extrinsic) := by
  obtain ⟨info, hrec, hpaid, hnew⟩ := hw
  refine ⟨info, ?_⟩
  obtain ⟨order, chain, said, program⟩ := task
  obtain rfl : order = Invoice.fromRequest w := horder
  replace h : Submits engine.con engine.overflow_checks (Invoice.fromRequest w) chain said
    extrinsic := h
  have hmirrors := WatchAccount.mirrors hnew
  have hrecipient : w.recipient = d.recipient := by
    rw [WatchAccount.new] at hnew
    split at hnew
    · cases hnew
    · rw [← Except.ok.inj hnew]
  cases h with
  | intro rpc block block_number balance a currency transfer call transaction sign_this signature _
      hcurrency hdifference hdecision htransfer hcall htransaction hsign hextrinsic =>
    have hsigned : engine.Answers (.sign w.id sign_this) (.ok signature) :=
      hanswers ⟨.sign w.id sign_this, .ok signature⟩
        (List.mem_append_right _ (List.mem_cons_of_mem _ (List.mem_singleton_self _)))
    obtain ⟨pair, hpair, rfl⟩ := hsigned.sign
    obtain ⟨rfl, hcovered⟩ := covered_of_difference hdifference
    have hbuilt : Built engine.con (Invoice.fromRequest w) chain block transaction :=
      ⟨call, block_number, htransaction⟩
    exact ⟨{
      block, balance, currency, transfer, call, transaction, sign_this, pair
      stored := hrec
      paid := hpaid
      account := hmirrors.address
      priced := hmirrors.amount
      currency_name := hmirrors.currency
      recipient := hrecipient
      newest := by simp [submissionSaid, balanceSaid]
      read := by simp [submissionSaid, balanceSaid]
      close := (decision_eq_transfer_iff _).mp hdecision
      covered := hcovered
      known := hcurrency
      transferred := htransfer
      constructed := hcall
      expressed := fun hexpresses => hexpresses.built hcall htransaction
      author := hbuilt.author
      derived := hpair
      signable := hsign
      sent := hextrinsic }⟩

/-- The record that was paid stays. -/
theorem Settlement.kept {h : List (PayoutEvent lib)} {s s' : PayoutSys lib} {e : PayoutEvent lib}
    (run : PayoutRunIf d engine allow (Sys.Begun d) h s) (hs : PayoutStep d engine s e s')
    {info : OrderInfo} {task : PayoutTask lib} {extrinsic : List UInt8}
    (st : Settlement d engine s.sys.store.orders info task extrinsic) :
    Nonempty (Settlement d engine s'.sys.store.orders info task extrinsic) := by
  have hrun : SysRun d (sysEvents h) s.sys := PayoutRun.sysRun run
  refine ⟨{ st with stored := ?_ }⟩
  rcases hs.sysStep with heq | ⟨e', -, hs⟩
  · rw [heq]
    exact st.stored
  · exact hs.paid_kept (SysRun.handler_sound hrun) st.stored st.paid

/-- **Every extrinsic that is submitted settles an order**: at its submission there is a paid
record of the order, which the payout follows, and this record is stored ever since. -/
theorem payoutsSettle {h₁ h₂ : List (PayoutEvent lib)} {s : PayoutSys lib}
    {task : PayoutTask lib} {extrinsic : List UInt8} {answer : Except Stop Unit}
    (run : PayoutRunIf d engine allow (Sys.Begun d)
      (h₁ ++ .said task ⟨.rpc (.sendStuff extrinsic), answer⟩ :: h₂) s) :
    ∃ s₁ info, PayoutRunIf d engine allow (Sys.Begun d) h₁ s₁ ∧
      Nonempty (Settlement d engine s₁.sys.store.orders info task extrinsic) ∧
      Nonempty (Settlement d engine s.sys.store.orders info task extrinsic) := by
  refine run.kept
    (Q := fun s => ∃ s₁ info, PayoutRunIf d engine allow (Sys.Begun d) h₁ s₁ ∧
      Nonempty (Settlement d engine s₁.sys.store.orders info task extrinsic) ∧
      Nonempty (Settlement d engine s.sys.store.orders info task extrinsic)) ?_ ?_
  · rintro h s e s' run - hs ⟨s₁, info, run₁, st₁, ⟨st⟩⟩
    exact ⟨s₁, info, run₁, st₁, st.kept run hs⟩
  · intro s₁ s₂ run₁ hs
    have hengaged := PayoutRun.settling run₁
    have hfollows := PayoutRun.follows run₁
    have hanswered := PayoutRun.answered run₁
    cases hs with
    | said n _ ht hp =>
      have hrunning : task ∈ s₁.running := List.mem_of_getElem? ht
      obtain ⟨c, hsettles, horder, -⟩ := hengaged.running task hrunning
      obtain ⟨info, st⟩ := ((hfollows task hrunning).submits hp).settlement hsettles horder
        (hanswered task hrunning)
      exact ⟨s₁, info, run₁, st, st⟩

/-- The order of a submission is stored, and paid, from then on. -/
theorem PayoutRun.submitted {h : List (PayoutEvent lib)} {s : PayoutSys lib}
    (run : PayoutRunIf d engine allow (Sys.Begun d) h s) {task : PayoutTask lib}
    {extrinsic : List UInt8} {answer : Except Stop Unit}
    (hmem : .said task ⟨.rpc (.sendStuff extrinsic), answer⟩ ∈ h) :
    ∃ info, record s.sys.store.orders task.order.id = some info ∧ info.payment_status = .paid := by
  obtain ⟨h₁, h₂, rfl⟩ := List.append_of_mem hmem
  refine run.kept (Q := fun s => ∃ info, record s.sys.store.orders task.order.id = some info ∧
    info.payment_status = .paid) ?_ ?_
  · rintro h s e s' run - hs ⟨info, hrec, hpaid⟩
    have hrun : SysRun d (sysEvents h) s.sys := PayoutRun.sysRun run
    rcases hs.sysStep with heq | ⟨e', -, hs⟩
    · exact ⟨info, heq ▸ hrec, hpaid⟩
    · exact ⟨info, hs.paid_kept (SysRun.handler_sound hrun) hrec hpaid, hpaid⟩
  · intro s₁ s₂ run₁ hs
    cases hs with
    | said n _ ht =>
      obtain ⟨c, ⟨info, hrec, hpaid, hnew⟩, horder, -⟩ :=
        (PayoutRun.settling run₁).running task (List.mem_of_getElem? ht)
      refine ⟨info, ?_, hpaid⟩
      rw [horder, (WatchAccount.mirrors hnew).id]
      exact hrec

theorem PayoutEvent.exists_submission {h : List (PayoutEvent lib)} {id : String}
    (hsubmits : h.any (PayoutEvent.submits id) = true) : ∃ task extrinsic answer,
      .said task ⟨.rpc (.sendStuff extrinsic), answer⟩ ∈ h ∧ task.order.id = id := by
  obtain ⟨e, he, hsubmits⟩ := List.any_eq_true.mp hsubmits
  cases e with
  | daemon => cases hsubmits
  | said task exchange =>
    obtain ⟨hid, ho⟩ := (Bool.and_eq_true _ _).mp hsubmits
    obtain ⟨o, answer⟩ := exchange
    cases o with
    | rpc call =>
      cases call with
      | sendStuff extrinsic => exact ⟨task, extrinsic, answer, he, of_decide_eq_true hid⟩
      | build | head | currentBlockNumber | balance => cases ho
    | built | sign => cases ho

/-- An order is paid for and reaped, and what its payout submits settles it. -/
theorem payoutsSettle_reapedOrder : ∃ h s,
    PayoutRunIf Sample.deployment Sample.payer always (Sys.Begun Sample.deployment) h s ∧
      ∃ h₁ task extrinsic answer h₂,
        h = h₁ ++ .said task ⟨.rpc (.sendStuff extrinsic), answer⟩ :: h₂ ∧
        task.order.id = "order" ∧ ∃ s₁ info,
          PayoutRunIf Sample.deployment Sample.payer always (Sys.Begun Sample.deployment) h₁ s₁ ∧
          Nonempty (Settlement Sample.deployment Sample.payer s₁.sys.store.orders info task
            extrinsic) ∧
          Nonempty (Settlement Sample.deployment Sample.payer s.sys.store.orders info task
            extrinsic) := by
  obtain ⟨h, s, run, hp⟩ := exists_reach_of_replay
    (PayoutSys.exec_sound Sample.deployment Sample.payer)
    (fun s => ∃ sys, Sys.Begun Sample.deployment sys ∧ s = .start sys) ⟨_, Sample.begun, rfl⟩
    (Sample.reapedOrder ++ Sample.payoutAnswers 10 7)
    (p := fun q => q.1.any (PayoutEvent.submits "order")) (by decide +kernel)
  obtain ⟨task, extrinsic, answer, hmem, hid⟩ := PayoutEvent.exists_submission hp
  obtain ⟨h₁, h₂, rfl⟩ := List.append_of_mem hmem
  exact ⟨_, s, run, h₁, task, extrinsic, answer, h₂, rfl, hid, payoutsSettle run⟩

end Kalatori
