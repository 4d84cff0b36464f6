import Kalatori.Chain.Tracker

/-!
# What a tracker tells the state handler

A tracker sends the state handler two kinds of messages, and neither of them is
a request that somebody waits for: the currencies of a chain that it has
connected to, and an order that is paid.

* `StateAccessRequest.fromTracker`: the two kinds.
* `TrackerStep.reporting`: a tracker sends no other.
-/

namespace Kalatori

open Program Prog

variable {lib : Libraries}

/-- The messages that a tracker sends. -/
def StateAccessRequest.fromTracker : StateAccessRequest → Bool
  | .connectChain _ | .orderPaid _ => true
  | .getInvoiceStatus _ | .createInvoice _ | .isCurrencySupported _ | .serverStatus => false

/-- An operation sends nothing, or one of them. -/
def TrackerOp.Reports : TrackerOp lib → Prop
  | .send message => message.fromTracker = true
  | .rpc _ | .now | .iterate _ => True

/-- A program that sends only such messages. -/
abbrev Reporting {α : Type} (job : Job lib α) : Prop := Only TrackerOp.Reports job.run

section Jobs

variable {α : Type}

theorem reporting_throw (stop : Stop) : Reporting (throw stop : Job lib α) := trivial

theorem reporting_rpc (call : RpcCall lib) : Reporting (Job.rpc call) :=
  ⟨trivial, fun _ => trivial⟩

theorem reporting_now : Reporting (Job.now : Job lib Timestamp) := ⟨trivial, fun _ => trivial⟩

theorem reporting_iterate (watched_accounts : WatchedAccounts) :
    Reporting (Job.iterate watched_accounts : Job lib _) :=
  ⟨trivial, fun _ => trivial⟩

theorem reporting_tell {message : StateAccessRequest} (h : message.fromTracker = true) :
    Reporting (Job.tell message : Job lib Unit) :=
  ⟨h, fun _ => trivial⟩

theorem reporting_bind {β : Type} {job : Job lib β} {next : β → Job lib α} (h : Reporting job)
    (h' : ∀ b, Reporting (next b)) : Reporting (job >>= next) :=
  Only.run_bind h h'

theorem reporting_attempt {job : Job lib α} (h : Reporting job) : Reporting job.attempt := by
  refine Only.bind h fun result => ?_
  match result with
  | .ok _ | .error (.failed _) | .error .panicked => trivial

variable (watcher : ChainWatcher lib) (block : BlockHash)

theorem reporting_check (invoice : Invoice) : Reporting (invoice.check watcher block) :=
  reporting_bind (reporting_rpc _) fun _ => trivial

theorem reporting_reportIfPaid (id : String) (invoice : Invoice) :
    Reporting (reportIfPaid watcher block id invoice) := by
  refine reporting_bind (reporting_attempt (reporting_check watcher block invoice)) fun paid => ?_
  match paid with
  | .ok true => exact reporting_bind (reporting_tell rfl) fun _ => trivial
  | .ok false | .error _ => trivial

theorem reporting_forgetAtDeath (id : String) (invoice : Invoice) :
    Reporting (forgetAtDeath watcher block id invoice) := by
  refine reporting_bind (reporting_attempt (reporting_check watcher block invoice)) fun paid => ?_
  match paid with
  | .ok true => exact reporting_bind (reporting_tell rfl) fun _ => trivial
  | .ok false | .error _ => trivial

theorem reporting_checkMonitored (accounts : List (Σ _ : String, Invoice)) :
    Reporting (checkMonitored watcher block accounts) := by
  induction accounts with
  | nil => trivial
  | cons account rest ih =>
    exact reporting_bind (reporting_reportIfPaid watcher block _ _) fun _ =>
      reporting_bind ih fun _ => trivial

theorem reporting_checkInvoice (events : List Event) (now : Timestamp) (id : String)
    (invoice : Invoice) : Reporting (checkInvoice watcher block events now id invoice) := by
  have hreported : Reporting (if events.any fun event =>
      wasBalanceReceivedAtAccount invoice.address event.fields then
        reportIfPaid watcher block id invoice else pure []) := by
    split
    · exact reporting_reportIfPaid watcher block id invoice
    · trivial
  have hexpired : Reporting (if invoice.death ≥ now then forgetAtDeath watcher block id invoice
      else pure []) := by
    split
    · exact reporting_forgetAtDeath watcher block id invoice
    · trivial
  exact reporting_bind hreported fun _ => reporting_bind hexpired fun _ => trivial

theorem reporting_checkInvoices (events : List Event) (now : Timestamp)
    (invoices : List (Σ _ : String, Invoice)) :
    Reporting (checkInvoices watcher block events now invoices) := by
  induction invoices with
  | nil => trivial
  | cons invoice rest ih =>
    exact reporting_bind (reporting_checkInvoice watcher block events now _ _) fun _ =>
      reporting_bind ih fun _ => trivial

theorem reporting_prepareChain (chain : Chain) (watched_accounts : WatchedAccounts)
    (rpc_url : String) :
    Reporting (prepareChain chain watched_accounts rpc_url : Job lib _) := by
  unfold prepareChain
  refine reporting_bind (reporting_rpc _) fun genesis_hash => ?_
  refine reporting_bind (reporting_rpc _) fun _ => ?_
  refine reporting_bind (reporting_rpc _) fun block => ?_
  refine reporting_bind (reporting_rpc _) fun version => ?_
  refine reporting_bind (reporting_rpc _) fun metadata => ?_
  split
  · exact reporting_throw _
  split
  · exact reporting_throw _
  refine reporting_bind (reporting_rpc _) fun specs => ?_
  refine reporting_bind (reporting_rpc _) fun assets => ?_
  simp only
  split
  · exact reporting_throw _
  refine reporting_bind (reporting_tell rfl) fun _ => ?_
  refine reporting_bind (reporting_iterate _) fun accounts => ?_
  exact reporting_bind (reporting_checkMonitored _ block _) fun _ => trivial

theorem reporting_connect (chain : Chain) (watched_accounts : WatchedAccounts)
    (endpoint : String) : Reporting (connect chain watched_accounts endpoint : Job lib _) := by
  refine reporting_bind (reporting_attempt (reporting_rpc _)) fun built => ?_
  match built with
  | .error _ => trivial
  | .ok _ =>
    have hprepare := @reporting_prepareChain lib chain watched_accounts endpoint
    refine reporting_bind (reporting_attempt hprepare) fun result => ?_
    match result with
    | .error _ | .ok (_, _) => trivial

theorem reporting_newBlock (watched_accounts : WatchedAccounts) (number : String) :
    Reporting (newBlock watcher watched_accounts number) := by
  refine reporting_bind (reporting_attempt (reporting_rpc _)) fun block => ?_
  match block with
  | .error _ => trivial
  | .ok block =>
    refine reporting_bind (reporting_rpc _) fun version => ?_
    split
    · trivial
    refine reporting_bind (reporting_attempt (reporting_rpc _)) fun events => ?_
    match events with
    | .error _ => trivial
    | .ok events =>
      refine reporting_bind reporting_now fun now => ?_
      refine reporting_bind (reporting_iterate _) fun invoices => ?_
      exact reporting_bind (reporting_checkInvoices watcher block events now _) fun _ => trivial

end Jobs

/-- A tracker is at such a program. -/
def Tracker.Reporting (t : Tracker lib) : Prop :=
  ∀ said job, t.pc = .busy said job → Only TrackerOp.Reports job

theorem Tracker.reporting_start : (Tracker.start : Tracker lib).Reporting := nofun

theorem TrackerStep.reporting {chain : Chain} {t t' : Tracker lib} {e : TrackerEvent lib}
    (hs : TrackerStep chain t e t') (h : t.Reporting) : t'.Reporting := by
  cases hs with
  | stopped | timedOut => exact fun _ _ hpc => (by cases hpc)
  | turned endpoint =>
    rintro said job ⟨⟩
    exact reporting_connect chain t.watched_accounts endpoint
  | said answer hpc =>
    rintro said job ⟨⟩
    exact (h _ _ hpc).2 answer
  | @settled said result hpc =>
    rcases result with _ | _ | _ <;> exact fun _ _ hpc => (by cases hpc)
  | @received watcher request hpc =>
    match request with
    | .newBlock number =>
      rintro said job ⟨⟩
      exact reporting_newBlock watcher t.watched_accounts number
    | .watchAccount request | .reap _ => exact fun _ _ hbusy => (by cases hpc.symm.trans hbusy)
    | .shutdown => exact fun _ _ hpc => (by cases hpc)

/-- What a tracker sends is one of the two. -/
theorem TrackerStep.reports {chain : Chain} {t t' : Tracker lib} {message : StateAccessRequest}
    {taken : Bool} (hs : TrackerStep chain t (.said ⟨.send message, taken⟩) t')
    (h : t.Reporting) : message.fromTracker = true := by
  cases hs with
  | said _ hpc => exact (h _ _ hpc).1

end Kalatori
