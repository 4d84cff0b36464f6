import Kalatori.System.Watching

/-!
# Whether an accepted order is watched

`create_invoice` answers that an order is new, or that it was modified, and in both
cases the one who asked will pay into the account that the answer names.  For a new
order it does so after the tracker has taken the invoice.  For an order that is
pending already it rewrites the record and asks nobody: the tracker goes on with the
invoice that it has, or without one.

* `Watches`, `ReallyWatched`: the tracker of the currency watches what the answer says.
* `Sys.Watchful`: no pending order is asked for again, the tracker is not over, and no tracker
  drops an invoice that is last found unpaid.
* `reallyWatched`: in runs of such steps, every accepted order is watched.
* `raised_order_unwatched`: an order is raised, and is watched at its old price.
-/

namespace Kalatori

open Program Transition

variable {lib : Libraries} {d : Deployment lib}
  {allow : List (SysEvent lib) → Sys lib → SysEvent lib → Prop}

/-! ## The property -/

/-- The invoice is the one that is derived from an order. -/
structure Mirrors (lib : Libraries) (order : String) (info : OrderInfo) (invoice : Invoice) :
    Prop where
  id : invoice.id = order
  address : lib.fromBase58String info.payment_account = some invoice.address
  currency : invoice.currency = info.currency.currency
  amount : invoice.amount = Balance.parse lib.arithmetic info.amount info.currency.decimals
  death : invoice.death = info.death

/-- The tracker to which the currency of an order is routed watches it as the record says, or has
dropped it in one of the turns, as paid or as expired. -/
def Watches (d : Deployment lib) (h : List (SysEvent lib)) (s : Sys lib) (order : String)
    (info : OrderInfo) : Prop :=
  ∃ index invoice, d.routes.route info.currency.currency = .ok index ∧
    Mirrors lib order info invoice ∧
    ((s.trackers index).watched_accounts.lookup order = some invoice ∨ Dropped h index invoice)

/-- **The order is watched**, unless it was dropped as paid or expired since the handler took the
request. -/
def ReallyWatched (d : Deployment lib) (h : List (SysEvent lib)) (s : Sys lib)
    (status : OrderStatus) : Prop :=
  Watches d (sinceCall h) s status.order status.order_info

/-- The order that is accepted in a step. -/
def SysEvent.accepts : SysEvent lib → Option OrderStatus
  | .daemon ⟨_, .handler (.said ⟨.reply answer, _⟩), _⟩ => answer.accepted
  | _ => none

/-- **A step by which no order is left out.** -/
structure Sys.Watchful (d : Deployment lib) (s : Sys lib) (e : SysEvent lib) : Prop where
  /-- No order is asked for while it is pending. -/
  new : ∀ x order query currency payment_account answer, e = .daemon x →
    x.event = .handler (.said ⟨.db (.createOrder order query currency payment_account), answer⟩) →
    ∀ info, record x.before order = some info → info.payment_status ≠ .pending
  /-- When an order is accepted, the tracker of its currency is not over. -/
  running : ∀ status index, e.accepts = some status →
    d.routes.route status.order_info.currency.currency = .ok index →
    (s.trackers index).hasEnded = false
  /-- In a pass over a watch list no invoice is last found unpaid. -/
  last_paid : e.LastPaid

/-! ## The proof -/

theorem WatchAccount.mirrors {order : String} {info : OrderInfo} {recipient : AccountId32}
    {res : Requester} {w : WatchAccount}
    (h : WatchAccount.new lib order info recipient res = .ok w) :
    Mirrors lib order info (Invoice.fromRequest w) := by
  rw [WatchAccount.new] at h
  split at h
  · cases h
  · rename_i address haddress
    obtain rfl := Except.ok.inj h
    exact ⟨rfl, haddress, rfl, rfl, rfl⟩

theorem WatchAccount.currency_of_new {order : String} {info : OrderInfo} {recipient : AccountId32}
    {res : Requester} {w : WatchAccount}
    (h : WatchAccount.new lib order info recipient res = .ok w) :
    w.currency = info.currency.currency :=
  (WatchAccount.mirrors h).currency

/-- What was asked for and taken is watched, as long as its tracker is there. -/
theorem Sys.Fate.watches {h : List (SysEvent lib)} {s : Sys lib} (run : SysRunIf d allow h s)
    {recent : List (SysEvent lib)} (hrecent : recent ⊆ h) (hlast : ∀ e ∈ recent, e.LastPaid)
    {order : String} {info : OrderInfo} {recipient : AccountId32} {res : Requester}
    {w : WatchAccount} (hnew : WatchAccount.new lib order info recipient res = .ok w)
    (hf : s.Fate d recent w (.ok ()))
    (hrunning : ∀ index, d.routes.route info.currency.currency = .ok index →
      (s.trackers index).hasEnded = false) : Watches d recent s order info := by
  obtain ⟨index, hroute, hfollows⟩ := hf
  have hmirrors := WatchAccount.mirrors hnew
  rw [WatchAccount.currency_of_new hnew] at hroute
  refine ⟨index, Invoice.fromRequest w, hroute, hmirrors, ?_⟩
  cases hfollows with
  | gone hend => cases hend.symm.trans (hrunning index hroute)
  | watched hl => exact .inl (hmirrors.id ▸ hl)
  | removed hd => exact .inr (hd.dropped run hrecent hlast)

/-- Where no pending order is asked for, the database never answers that it modified one. -/
theorem not_modified {h : List (SysEvent lib)} {s : Sys lib}
    (run : SysRunIf d (fun _ s e => s.Watchful d e) h s) {phase : HandlerPhase}
    {said : Trace HandlerSig} {program : Prog HandlerSig (Except Error HandlerNext)}
    (hpc : s.store.handler.pc = .busy phase said program) (order : String) (query : OrderQuery)
    (currency : CurrencyInfo) (payment_account : String) (info : OrderInfo) :
    ⟨.db (.createOrder order query currency payment_account), .ok (.modified info)⟩ ∉ said := by
  refine run.invariant (P := fun _ s => ∀ phase said program,
    s.store.handler.pc = .busy phase said program →
    ⟨.db (.createOrder order query currency payment_account), .ok (.modified info)⟩ ∉ said)
    ?_ ?_ phase said program hpc
  · rintro s ⟨orders, -, rfl⟩ phase said program ⟨⟩
    exact List.not_mem_nil
  · intro h s e s' run ih hok hs phase said program hpc hmem
    rcases hs.outcome.store with ⟨x, rfl, hx⟩ | ⟨-, heq⟩
    swap
    · rw [heq] at hpc
      exact ih _ _ _ hpc hmem
    obtain ⟨said₀, exchange, _, rfl, he, hpc₀⟩ := hx.said_snoc hpc (List.ne_nil_of_mem hmem)
    rcases List.mem_append.mp hmem with hmem | hmem
    · exact ih _ _ _ hpc₀ hmem
    rw [← List.mem_singleton.mp hmem] at he
    obtain ⟨_, _, _, -, -, hstore⟩ := hx.said he
    obtain ⟨now, heffect⟩ := hstore.effect
    generalize s'.store.orders = orders' at heffect
    cases heffect with
    | modified _ _ _ _ old _ hold hpending =>
      rw [← hx.before_eq] at hold
      exact hok.new x _ _ _ _ _ rfl he old hold hpending

theorem last_paid_of_watchful {h : List (SysEvent lib)} {s : Sys lib}
    (run : SysRunIf d (fun _ s e => s.Watchful d e) h s) : ∀ e ∈ h, e.LastPaid := by
  intro e he
  obtain ⟨h₁, h₂, rfl⟩ := List.append_of_mem he
  obtain ⟨s₁, s₂, -, hok, -⟩ := run.split
  exact hok.last_paid

/-- **An accepted order is watched**, in every run in which no order is asked for while it is
pending and no invoice is last found unpaid, as long as its tracker is there. -/
theorem reallyWatched {h : List (SysEvent lib)} {s s' : Sys lib} {e : SysEvent lib}
    {status : OrderStatus} (run : SysRunIf d (fun _ s e => s.Watchful d e) h s)
    (hok : s.Watchful d e) (hs : SysStep d s e s') (ha : e.accepts = some status) :
    ReallyWatched d h s status := by
  unfold SysEvent.accepts at ha
  split at ha
  swap
  · cases ha
  rename_i before answer taken after
  obtain ⟨phase, said, k, hpc, -⟩ := hs.outcome.daemonStep.said rfl
  obtain ⟨_, _, events, -, -, hsound⟩ := SysRun.handler_sound run
  obtain ⟨-, _, request, -, ho⟩ := hsound.handles hpc rfl
  cases ho with
  | reply _ _ _ hnone => cases hnone.symm.trans ha
  | replyModified query properties payment_account info =>
    have hnot := not_modified run hpc query.order query (properties.info query.currency)
      payment_account info
    exact absurd (List.mem_cons_of_mem _ (List.mem_singleton_self _)) hnot
  | replyNew query properties payment_account info w hw =>
    obtain rfl := Option.some.inj ha
    obtain ⟨orders, -, -, hpursued⟩ := SysRun.pursued run
    have hanswered : s.Answered w (.ok ()) .stateHandler :=
      ⟨phase, created query (properties.info query.currency) payment_account (.new info), [], _,
        by rwa [List.append_nil]⟩
    have hrecent : sinceCall h ⊆ h := (List.rtakeWhile_suffix _ _).subset
    exact (hpursued.answered w _ _ hanswered).2.watches run hrecent
      (fun e he => last_paid_of_watchful run e (hrecent he)) hw
      fun index => hok.running _ index rfl

/-! ## Two runs -/

namespace Sample

/-- An order for ten units is placed and registered, up to its answer. -/
def placedOrder : List (SysAction libraries) :=
  connected ++ ordered "order" ten ++ registered.take 5

/-- An order is placed for ten units, and then for twenty, up to the answer. -/
def raisedAgain : List (SysAction libraries) :=
  connected ++ ordered "order" ten ++ registered ++ ordered "order" twenty

/-- The handler gives its answer. -/
def answered : SysAction libraries := .handler (.handler (.answer (calm true)))

end Sample

/-- The step ends no pass over a watch list. -/
def SysEvent.endsNoPass : SysEvent lib → Bool
  | .tracker _ ⟨_, .settled said, _⟩ => (clock said).isEmpty
  | _ => true

theorem SysEvent.lastPaid_of_endsNoPass {e : SysEvent lib} (h : e.endsNoPass = true) :
    e.LastPaid := by
  rintro index ⟨before, event, after⟩ rfl said rfl - hclock
  exact absurd (List.isEmpty_iff.mp h) hclock

/-- The step is no request for an order that has a record, it ends no pass, and the tracker is
there if it accepts an order. -/
def Sys.watchful (s : Sys Sample.libraries) (e : SysEvent Sample.libraries) : Bool :=
  e.firstRequest && e.endsNoPass && e.accepts.all fun status =>
    match Sample.deployment.routes.route status.order_info.currency.currency with
    | .ok index => !(s.trackers index).hasEnded
    | .error _ => true

theorem Sys.watchful_of_check {s : Sys Sample.libraries} {e : SysEvent Sample.libraries}
    (h : s.watchful e = true) : s.Watchful Sample.deployment e := by
  rw [Sys.watchful, Bool.and_eq_true, Bool.and_eq_true] at h
  refine ⟨fun x order query currency payment_account answer he hx info hrec => ?_,
    fun status index ha hroute => ?_, SysEvent.lastPaid_of_endsNoPass h.1.2⟩
  · subst he
    have hnone := h.1.1
    rw [SysEvent.firstRequest, hx] at hnone
    rw [Option.isNone_iff_eq_none.mp hnone] at hrec
    cases hrec
  · have hrunning := h.2
    rw [ha, Option.all_some, hroute] at hrunning
    simpa using hrunning

/-- The first order is watched when it is accepted. -/
theorem reallyWatched_placedOrder : ∃ h s e s' status,
    SysRunIf Sample.deployment (fun _ s e => s.Watchful Sample.deployment e) h s ∧
      SysStep Sample.deployment s e s' ∧ e.accepts = some status ∧
      ReallyWatched Sample.deployment h s status := by
  obtain ⟨h, s, run, hp⟩ := exists_reach_of_guarded (Sys.exec_sound Sample.deployment)
    (fun _ s e (hc : s.watchful e = true) => Sys.watchful_of_check hc)
    (Sys.Begun Sample.deployment) Sample.begun Sample.placedOrder
    (p := fun q => (q.2.exec Sample.deployment Sample.answered).any fun next =>
      next.1.accepts.isSome && q.2.watchful next.1) (by decide +kernel)
  rw [Option.any_eq_true] at hp
  obtain ⟨⟨e, s'⟩, hexec, hp⟩ := hp
  rw [Bool.and_eq_true, Option.isSome_iff_exists] at hp
  obtain ⟨⟨status, ha⟩, hok⟩ := hp
  have hs : SysStep Sample.deployment s e s' := Sys.exec_sound _ _ _ _ _ hexec
  exact ⟨h, s, e, s', status, run, hs, ha,
    reallyWatched run (Sys.watchful_of_check hok) hs ha⟩

/-- **An order is raised to twenty units, and is watched for ten.** -/
theorem raised_order_unwatched : ∃ h s e s' status, SysRun Sample.deployment h s ∧
    SysStep Sample.deployment s e s' ∧ e.accepts = some status ∧
    ¬ReallyWatched Sample.deployment h s status := by
  obtain ⟨h, s, run, hp⟩ := exists_reach_of_replay (Sys.exec_sound Sample.deployment)
    (Sys.Begun Sample.deployment) Sample.begun Sample.raisedAgain
    (p := fun q => (q.2.exec Sample.deployment Sample.answered).any (fun next =>
        next.1.accepts.any fun status => status.order = "order" &&
          status.order_info.currency.currency = "DOT" &&
          status.order_info.price Sample.libraries.arithmetic = 20) &&
      ((q.2.trackers 0).watched_accounts.lookup "order").all (fun invoice =>
        invoice.amount = 10) && q.1.all fun e => !e.drops "order") (by decide +kernel)
  simp only [Bool.and_eq_true, Option.any_eq_true, decide_eq_true_eq, List.all_eq_true,
    Bool.not_eq_true'] at hp
  obtain ⟨⟨⟨⟨e, s'⟩, hexec, status, ha, ⟨horder, hcurrency⟩, hprice⟩, hwatched⟩, hdrops⟩ := hp
  refine ⟨h, s, e, s', status, run, Sys.exec_sound _ _ _ _ _ hexec, ha, ?_⟩
  rintro ⟨index, invoice, hroute, hmirrors, hl | ⟨x, said, hx, he, hbefore, hafter, -⟩⟩
  · rw [hcurrency] at hroute
    obtain rfl : 0 = index := Except.ok.inj hroute
    rw [horder] at hl
    rw [hl, Option.all_some, decide_eq_true_eq] at hwatched
    have hamount : invoice.amount = 20 := hmirrors.amount.trans hprice
    rw [hwatched] at hamount
    exact absurd hamount (by decide)
  · rw [hcurrency] at hroute
    obtain rfl : 0 = index := Except.ok.inj hroute
    have hid : invoice.id = "order" := hmirrors.id.trans horder
    rw [hid] at hbefore hafter
    have hkept := hdrops _ ((List.rtakeWhile_suffix _ _).subset hx)
    simp [SysEvent.drops, he, hbefore, hafter] at hkept

end Kalatori
