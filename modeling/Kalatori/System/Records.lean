import Kalatori.System.Traffic

/-!
# What becomes of a reported payment

A tracker that finds an invoice paid puts a message into the channel of the state
handler, and forgets the invoice.  From then on the payment is in one of three
places: in the channel, in the hands of the handler, which then asks the database
to mark the order, or in the record of the order.

It falls out of them in three ways.  A message that comes while the handler waits
for the chains to wind down is not read any more; a handler that gives up, because
somebody did not wait for an answer, leaves what is in its channel; and when
the order cannot be marked, the handler only says so in its log.

* `Sys.Underway`: the three places, and `SysStep.underway`: a step keeps a payment there.
* `paymentsKept`: without these three, every payment is recorded when the database stops.
-/

namespace Kalatori

open Program Transition

variable {lib : Libraries} {d : Deployment lib}
  {allow : List (SysEvent lib) → Sys lib → SysEvent lib → Prop}

/-! ## The property -/

/-- The record of the order says that it is paid. -/
def IsPaid (orders : Orders) (order : String) : Prop :=
  ∃ info, record orders order = some info ∧ info.payment_status = .paid

/-- A tracker puts a report into the channel of the state handler. -/
def SysEvent.Tells (e : SysEvent lib) (index : ℕ) (id : String) : Prop :=
  ∃ x, e = .tracker index x ∧ x.event = .said ⟨.send (.orderPaid id), true⟩

def SysEvent.Restarts (e : SysEvent lib) : Prop := ∃ x, e = .daemon x ∧ x.event = .restarted

/-- A tracker reported a payment, and then dropped its invoice, and the daemon has not been
started anew since. -/
def Forgotten (h : List (SysEvent lib)) (index : ℕ) (id : String) : Prop :=
  ∃ h₁ e h₂ x said h₃, h = h₁ ++ e :: (h₂ ++ .tracker index x :: h₃) ∧ e.Tells index id ∧
    x.event = .settled said ∧ (x.before.watched_accounts.lookup id).isSome ∧
    x.after.watched_accounts.lookup id = none ∧ ∀ e' ∈ h₂ ++ .tracker index x :: h₃, ¬e'.Restarts

/-- **A reported payment is never lost.** -/
def PaymentsKept (h : List (SysEvent lib)) (s : Sys lib) : Prop :=
  ∀ index id, Forgotten h index id → s.database = false →
    IsPaid s.store.orders id ∨ ((s.trackers index).watched_accounts.lookup id).isSome

/-! ## What is asked of a run -/

/-- The handler is in its shutdown. -/
def Handler.Winding (s : Handler) : Prop := ∃ said program, s.pc = .busy .winding said program

/-- **A step in which no payment is lost.** -/
structure Sys.Undisturbed (s : Sys lib) (e : SysEvent lib) : Prop where
  /-- No payment is reported once the handler is in its shutdown. -/
  timely : ∀ index id, e.Tells index id → ¬s.store.handler.Winding
  /-- The handler does not give up with a report in its channel. -/
  patient : ∀ x phase said err, e = .daemon x → x.event = .handler .settled →
    s.store.handler.pc = .busy phase said (.done (.error err)) → ∀ id, .orderPaid id ∉ s.state_queue
  /-- An order that is to be marked is marked, unless it had been paid. -/
  marked : ∀ x id err, e = .daemon x → x.event = .handler (.said ⟨.db (.markPaid id), .error err⟩) →
    err = .alreadyPaid id

/-! ## The three places -/

/-- The handler is about to mark the order. -/
def Handler.Marking (s : Handler) (id : String) : Prop :=
  ∃ phase said k, s.pc = .busy phase said (.call (.db (.markPaid id)) k)

/-- The handler reads its channel, now or later. -/
def Handler.Reads (s : Handler) : Prop := s.hasEnded = false ∧ ¬s.Winding

/-- A reported payment is in the channel of the handler, in its hands, or recorded. -/
inductive Sys.Underway (s : Sys lib) (id : String) : Prop
  | queued (hmem : .orderPaid id ∈ s.state_queue) (hreads : s.store.handler.Reads)
  | marking (hmarking : s.store.handler.Marking id)
  | recorded (hpaid : IsPaid s.store.orders id)

/-- An order is not marked because it had been paid. -/
theorem markPaid_alreadyPaid (around : Surroundings) (orders : Orders) {order order' : String}
    (h : ((markPaid around order).runOn orders).1 = .error (.alreadyPaid order')) :
    IsPaid orders order := by
  unfold markPaid at h
  rw [Db.runOn_bind, Db.runOn_get] at h
  cases hget : around.get_fails with
  | true => simp [hget] at h
  | false =>
    rw [hget] at h
    simp only [Bool.false_eq_true, if_false] at h
    cases hkey : orders[orderKey order]? with
    | none => simp [hkey] at h
    | some bytes =>
      simp only [hkey] at h
      rw [Db.runOn_bind, Db.runOn_decode] at h
      cases hdec : OrderInfo.decode bytes with
      | none => simp [hdec] at h
      | some info =>
        simp only [hdec] at h
        split_ifs at h with hp
        · rw [Db.runOn_bind, Db.runOn_insert] at h
          cases hins : around.insert_fails with
          | true => simp [hins] at h
          | false => simp [hins] at h
        · refine ⟨info, by rw [record, recordAt, hkey, Option.bind_some, hdec], ?_⟩
          cases hstatus : info.payment_status with
          | pending => exact absurd hstatus hp
          | paid => rfl

/-- Marking an order leaves it paid, if it does not fail. -/
theorem StoreStep.marked {account_lifetime : Timestamp} {orders orders' : Orders} {id : String}
    {answer : Except DbError OrderInfo}
    (h : StoreStep account_lifetime orders (.said ⟨.db (.markPaid id), answer⟩) orders')
    (hanswer : ∀ err, answer = .error err → err = .alreadyPaid id) : IsPaid orders' id := by
  cases answer with
  | ok info =>
    obtain ⟨now, heffect⟩ := h.effect
    cases heffect with
    | paid _ old _ _ _ hi => exact ⟨_, record_insert_self .., by rw [hi, OrderInfo.paid]⟩
  | error err =>
    obtain rfl := hanswer err rfl
    generalize he : HandlerEvent.said ⟨.db (.markPaid id), .error (.alreadyPaid id)⟩ = e at h
    cases h with
    | served around r =>
      injection he with he
      obtain ⟨hr, hreply⟩ := Sigma.mk.inj he
      cases hr
      have hreply' := eq_of_heq hreply
      have hpaid : IsPaid orders id := markPaid_alreadyPaid around orders hreply'.symm
      have heffect : Effect account_lifetime around.now orders (.markPaid id)
          ((serve account_lifetime around (.markPaid id)).runOn orders).1
          ((serve account_lifetime around (.markPaid id)).runOn orders).2 :=
        serve_effect (.markPaid id)
      obtain ⟨info, hrec, hp⟩ := hpaid
      exact ⟨info, heffect.paid_kept rfl hrec hp, hp⟩
    | down r =>
      injection he with he
      obtain ⟨hr, hreply⟩ := Sigma.mk.inj he
      cases hr
      cases hreply
    | other _ h => exact absurd he.symm (h _ _)

/-! ## Steps -/

theorem Handler.not_reads_iff {s : Handler} : ¬s.Reads ↔ s.hasEnded = true ∨ s.Winding := by
  rw [Handler.Reads, not_and_or, not_not, Bool.not_eq_false]

/-- The handler reads its channel until it is told to shut down, or gives up. -/
theorem HandlerStep.reads {h : List HandlerEvent} {s s' : Handler} {e : HandlerEvent}
    (hsound : s.Sound lib h) (hs : HandlerStep lib s e s') (hreads : s.Reads)
    (hclosed : e ≠ .closed)
    (hnotified : e ≠ .notified)
    (hpatient : e = .settled → ∀ phase said err, s.pc ≠ .busy phase said (.done (.error err))) :
    s'.Reads := by
  obtain ⟨hend, hwinding⟩ := hreads
  cases hs with
  | @said phase said o k answer hpc =>
    refine ⟨rfl, ?_⟩
    rintro ⟨said', program, hpc'⟩
    obtain ⟨rfl, -, -⟩ := HandlerPc.busy.inj hpc'
    exact hwinding ⟨said, _, hpc⟩
  | @settled phase said result hpc =>
    match result with
    | .ok (.listen state) => exact ⟨rfl, fun ⟨_, _, hpc'⟩ => nomatch hpc'⟩
    | .error err => exact absurd hpc (hpatient rfl phase said err)
    | .ok .finish =>
      exfalso
      cases hsound with
      | starting hpc' hp =>
        obtain ⟨-, rfl, rfl⟩ := HandlerPc.busy.inj (hpc'.symm.trans hpc)
        exact hp
      | handling hpc' _ hp =>
        obtain ⟨-, rfl, rfl⟩ := HandlerPc.busy.inj (hpc'.symm.trans hpc)
        exact (Handled.concluded hp).elim
      | winding hpc' => exact hwinding ⟨_, _, hpc'⟩
      | listening hpc' | stopped hpc' | shutDown hpc' | failed hpc' | notStarted hpc' =>
        cases hpc'.symm.trans hpc
  | received request hpc =>
    refine ⟨rfl, ?_⟩
    rintro ⟨said', program, hpc'⟩
    cases hpc'
  | closed => exact absurd rfl hclosed
  | notified => exact absurd rfl hnotified

/-- Once it reads its channel no more, it never does. -/
theorem HandlerStep.not_reads {h : List HandlerEvent} {s s' : Handler} {e : HandlerEvent}
    (hsound : s.Sound lib h) (hs : HandlerStep lib s e s') (hover : ¬s.Reads) : ¬s'.Reads := by
  rw [Handler.not_reads_iff] at hover ⊢
  have hidle : ∀ {pc : HandlerPc}, s.pc = pc → (∀ result, pc ≠ .ended result) →
      s.hasEnded = false := by
    intro pc hpc hnot
    rw [Handler.hasEnded, hpc]
    cases pc with
    | ended result => exact absurd rfl (hnot result)
    | busy | listening => rfl
  cases hs with
  | said _ hpc =>
    rcases hover with hend | ⟨said', program, hpc'⟩
    · rw [hidle hpc fun _ => nofun] at hend
      cases hend
    · obtain ⟨rfl, -, -⟩ := HandlerPc.busy.inj (hpc.symm.trans hpc')
      exact .inr ⟨_, _, rfl⟩
  | @settled phase said result hpc =>
    rcases hover with hend | ⟨said', program, hpc'⟩
    · rw [hidle hpc fun _ => nofun] at hend
      cases hend
    · obtain ⟨rfl, rfl, rfl⟩ := HandlerPc.busy.inj (hpc.symm.trans hpc')
      cases hsound with
      | winding hpc' _ hp =>
        obtain ⟨-, rfl, rfl⟩ := HandlerPc.busy.inj (hpc'.symm.trans hpc)
        obtain ⟨rfl, -⟩ : Wound _ _ := hp
        exact .inl rfl
      | starting hpc' | handling hpc' | listening hpc' | stopped hpc' | shutDown hpc' | failed hpc'
      | notStarted hpc' => cases hpc'.symm.trans hpc
  | received _ hpc | closed hpc | notified hpc =>
    rcases hover with hend | ⟨said', program, hpc'⟩
    · rw [hidle hpc fun _ => nofun] at hend
      cases hend
    · cases hpc.symm.trans hpc'

/-- What the handler does in a step of it and the tree. -/
theorem DaemonStep.handlerStep {account_lifetime : Timestamp} {s s' : HandlerStore}
    {x : DaemonTurn} (hs : DaemonStep lib account_lifetime s x s') :
    (∃ e, x.event = .handler e ∧ HandlerStep lib s.handler e s'.handler) ∨
      x.event = .restarted := by
  cases hs with
  | handler hs => exact .inl ⟨_, rfl, hs⟩
  | restarted => exact .inr rfl

/-- A start leaves nothing but the tree. -/
theorem Outcome.restarted_eq {s s' : Sys lib} {e : SysEvent lib} (h : Outcome d s e s')
    (hrestart : e.Restarts) : s' = .start d s.store.orders := by
  obtain ⟨x, rfl, hx⟩ := hrestart
  cases h with
  | restarted => rfl
  | handler _ _ he | spawned _ _ he | handlerSent _ _ he | handlerAnswered _ _ he
  | databaseShutDown _ he | received _ _ _ he => cases hx.symm.trans he

/-- How the database comes to a stop. -/
theorem Outcome.database {s s' : Sys lib} {e : SysEvent lib} (h : Outcome d s e s')
    (hdown : s'.database = false) :
    (s.database = false ∧ ¬e.Restarts) ∨
      (∃ x, e = .daemon x ∧ x.event = .handler (.said ⟨.dbShutdown, ()⟩)) ∨
      (e.daemon? = none ∧ s.store.handler.hasEnded = true) := by
  have hhandler : ∀ {x : DaemonTurn} {e : HandlerEvent}, x.event = .handler e →
      ¬(SysEvent.daemon x : SysEvent lib).Restarts := by
    rintro x e he ⟨y, hy, hr⟩
    obtain rfl := SysEvent.daemon.inj hy
    cases he.symm.trans hr
  have hother : ∀ {e : SysEvent lib}, e.daemon? = none → ¬e.Restarts := by
    rintro e he ⟨x, rfl, -⟩
    cases he
  cases h with
  | databaseStopped hend => exact .inr (.inr ⟨rfl, hend⟩)
  | databaseShutDown _ he => exact .inr (.inl ⟨_, rfl, he⟩)
  | restarted => cases hdown
  | handler _ _ he | spawned _ _ he | handlerSent _ _ he | handlerAnswered _ _ he
  | received _ _ _ he => exact .inl ⟨hdown, hhandler he⟩
  | droppedTracker | lost | took => exact .inl ⟨by simpa using hdown, hother rfl⟩
  | _ => exact .inl ⟨hdown, hother rfl⟩

/-- What comes about in the shutdown of the handler, or when it has ended, and not otherwise, is
not there while it reads its channel. -/
theorem SysRun.unread {P : Sys lib → Prop} (start : ∀ orders, ¬P (Sys.start d orders))
    (next : ∀ h s e s', SysRunIf d allow h s → allow h s e → SysStep d s e s' → P s' →
      (P s ∧ ¬e.Restarts) ∨
      (∃ x o answer, e = .daemon x ∧ x.event = .handler (.said ⟨o, answer⟩) ∧
        o.phase = .winding) ∨
      (e.daemon? = none ∧ s.store.handler.hasEnded = true))
    {h : List (SysEvent lib)} {s : Sys lib} (run : SysRunIf d allow h s) (hp : P s) :
    ¬s.store.handler.Reads := by
  refine run.invariant (P := fun _ s => P s → ¬s.store.handler.Reads) ?_ ?_ hp
  · rintro s ⟨orders, -, rfl⟩ hp
    exact absurd hp (start orders)
  · intro h s e s' run ih hallow hs hp
    obtain ⟨_, _, events, -, -, hsound⟩ := SysRun.handler_sound run
    rcases next h s e s' run hallow hs hp with ⟨hp, hrestart⟩ | ⟨x, o, answer, rfl, hx, hwinds⟩ |
      ⟨he, hend⟩
    · rcases hs.outcome.store with ⟨x, rfl, hx⟩ | ⟨-, heq⟩
      · rcases hx.handlerStep with ⟨e, -, hstep⟩ | hevent
        · exact hstep.not_reads hsound (ih hp)
        · exact absurd ⟨x, rfl, hevent⟩ hrestart
      · exact heq ▸ ih hp
    · obtain ⟨phase, said, k, hpc, hpc', -⟩ := hs.outcome.daemonStep.said hx
      have hphase : phase = .winding := (hsound.phase_eq hpc).trans hwinds
      rw [hphase] at hpc'
      rw [Handler.not_reads_iff, hpc']
      exact .inr ⟨_, _, rfl⟩
    · rcases hs.outcome.store with ⟨x, rfl, -⟩ | ⟨-, heq⟩
      · cases he
      · rw [heq, Handler.not_reads_iff]
        exact .inl hend

/-- The database stops when the handler reads its channel no more. -/
theorem SysRun.stopped {h : List (SysEvent lib)} {s : Sys lib} (run : SysRunIf d allow h s)
    (hdown : s.database = false) : ¬s.store.handler.Reads := by
  refine SysRun.unread (P := fun s => s.database = false) (fun orders => nofun) ?_ run hdown
  intro h s e s' _ _ hs hdown
  rcases hs.outcome.database hdown with hbefore | ⟨x, rfl, hx⟩ | hend
  · exact .inl hbefore
  · exact .inr (.inl ⟨x, _, _, rfl, hx, rfl⟩)
  · exact .inr (.inr hend)

/-- The handler marks no order when it reads its channel no more. -/
theorem Handler.Marking.reads {h : List HandlerEvent} {s : Handler} {id : String}
    (hsound : s.Sound lib h) (hmarking : s.Marking id) : s.Reads := by
  obtain ⟨phase, said, k, hpc⟩ := hmarking
  refine ⟨by rw [Handler.hasEnded, hpc], ?_⟩
  rintro ⟨said', program, hpc'⟩
  obtain ⟨rfl, -, -⟩ := HandlerPc.busy.inj (hpc.symm.trans hpc')
  cases hsound.phase_eq hpc

theorem IsPaid.kept {h : List (SysEvent lib)} {s s' : Sys lib} {e : SysEvent lib} {id : String}
    (run : SysRunIf d allow h s) (hs : SysStep d s e s') (hpaid : IsPaid s.store.orders id) :
    IsPaid s'.store.orders id := by
  rcases hs.outcome.store with ⟨x, -, hx⟩ | ⟨-, heq⟩
  · rcases hx.effect (SysRun.handler_sound run) with heq | ⟨r, answer, now, -, ha, heffect⟩
    · exact heq ▸ hpaid
    · obtain ⟨info, hrec, hp⟩ := hpaid
      exact ⟨info, heffect.paid_kept ha hrec hp, hp⟩
  · exact heq ▸ hpaid

/-- The channel of the handler loses a message only when the handler takes it. -/
theorem Outcome.queue_kept {s s' : Sys lib} {e : SysEvent lib} (h : Outcome d s e s')
    (hrestart : ¬e.Restarts) {message : StateAccessRequest} (hmem : message ∈ s.state_queue) :
    message ∈ s'.state_queue ∨
      ∃ x, e = .daemon x ∧ x.event = .handler (.received message) := by
  cases h with
  | requested => exact .inl (List.mem_append_left _ hmem)
  | told => exact .inl (List.mem_append_left _ hmem)
  | received request rest _ he hqueue =>
    rw [hqueue] at hmem
    rcases List.mem_cons.mp hmem with rfl | hmem
    · exact .inr ⟨_, rfl, he⟩
    · exact .inl hmem
  | restarted => exact absurd ⟨_, rfl, rfl⟩ hrestart
  | droppedTracker | lost | took => exact .inl (by simpa using hmem)
  | _ => exact .inl hmem

/-- The handler is not told to shut down while something is in its channel. -/
theorem Outcome.not_notified {s s' : Sys lib} {x : DaemonTurn} (h : Outcome d s (.daemon x) s')
    {message : StateAccessRequest} (hmem : message ∈ s.state_queue) {e : HandlerEvent}
    (he : x.event = .handler e) : e ≠ .closed ∧ e ≠ .notified := by
  cases h with
  | handler e' _ he' hquiet =>
    obtain rfl := DaemonEvent.handler.inj (he.symm.trans he')
    refine ⟨?_, ?_⟩
    · rintro rfl
      exact hquiet
    · rintro rfl
      rw [hquiet.2] at hmem
      cases hmem
  | spawned _ _ he' | handlerSent _ _ he' | handlerAnswered _ _ he' | databaseShutDown _ he'
  | received _ _ _ he' =>
    obtain rfl := DaemonEvent.handler.inj (he.symm.trans he')
    exact ⟨nofun, nofun⟩
  | restarted => cases he

/-- **A step in which no payment is lost keeps a payment where it is or takes it further.** -/
theorem SysStep.underway {h : List (SysEvent lib)} {s s' : Sys lib} {e : SysEvent lib}
    (run : SysRunIf d allow h s) (hs : SysStep d s e s') (hundisturbed : s.Undisturbed e)
    (hrestart : ¬e.Restarts) {id : String} (h : s.Underway id) : s'.Underway id := by
  obtain ⟨_, _, events, -, -, hsound⟩ := SysRun.handler_sound run
  cases h with
  | recorded hpaid => exact .recorded (hpaid.kept run hs)
  | marking hmarking =>
    rcases hs.outcome.store with ⟨x, rfl, hx⟩ | ⟨-, heq⟩
    · rcases hx.handlerStep with ⟨e, he, -⟩ | hevent
      · obtain ⟨phase, said, k, hpc⟩ := hmarking
        obtain ⟨answer, rfl⟩ := hx.answered hpc he
        obtain ⟨-, -, -, -, -, hstore⟩ := hx.said he
        refine .recorded (hstore.marked fun err herr => ?_)
        rw [herr] at he
        exact hundisturbed.marked x id err rfl he
      · exact absurd ⟨x, rfl, hevent⟩ hrestart
    · exact .marking (heq ▸ hmarking)
  | queued hmem hreads =>
    rcases hs.outcome.store with ⟨x, rfl, hx⟩ | ⟨he, heq⟩
    · rcases hx.handlerStep with ⟨e, he, hstep⟩ | hevent
      swap
      · exact absurd ⟨x, rfl, hevent⟩ hrestart
      rcases hs.outcome.queue_kept hrestart hmem with hmem' | ⟨y, hy, hreceived⟩
      · refine .queued hmem' ?_
        obtain ⟨hclosed, hnotified⟩ := hs.outcome.not_notified hmem he
        refine hstep.reads hsound hreads hclosed hnotified ?_
        rintro rfl phase said err hpc
        exact hundisturbed.patient x phase said err rfl he hpc id hmem
      · obtain rfl := SysEvent.daemon.inj hy
        obtain rfl := DaemonEvent.handler.inj (he.symm.trans hreceived)
        have hmarking : s'.store.handler.Marking id := by
          generalize s'.store.handler = handler' at hstep
          cases hstep with
          | received => exact ⟨.handling, [], _, rfl⟩
        exact .marking hmarking
    · rcases hs.outcome.queue_kept hrestart hmem with hmem' | ⟨y, rfl, -⟩
      · exact .queued hmem' (heq ▸ hreads)
      · cases he

/-- A report goes into a channel that is read. -/
theorem Outcome.tells {s s' : Sys lib} {e : SysEvent lib} (h : Outcome d s e s') {index : ℕ}
    {id : String} (htells : e.Tells index id) (hundisturbed : s.Undisturbed e) :
    s'.Underway id := by
  have hwinding := hundisturbed.timely index id htells
  obtain ⟨x, rfl, hx⟩ := htells
  cases h with
  | tracker _ _ _ hquiet =>
    rw [hx] at hquiet
    cases hquiet.1
  | told _ message _ _ he halive =>
    obtain ⟨⟩ := hx.symm.trans he
    exact .queued (List.mem_append_right _ (List.mem_singleton_self _)) ⟨halive, hwinding⟩
  | took _ _ _ _ _ he => cases hx.symm.trans he

/-! ## Runs -/

/-- What was reported is in one of the three places until the daemon is started anew. -/
theorem SysRun.underway {h₁ h₂ : List (SysEvent lib)} {e : SysEvent lib} {s : Sys lib}
    (run : SysRunIf d (fun _ s e => s.Undisturbed e) (h₁ ++ e :: h₂) s) {index : ℕ} {id : String}
    (htells : e.Tells index id) (hrestart : ∀ e' ∈ h₂, ¬e'.Restarts) : s.Underway id := by
  induction h₂ using List.reverseRecOn generalizing s with
  | nil =>
    obtain ⟨s₁, -, hundisturbed, hs⟩ := run.last
    exact hs.outcome.tells htells hundisturbed
  | append_singleton h₂ e' ih =>
    rw [← List.cons_append, ← List.append_assoc] at run
    obtain ⟨s₁, run₁, hundisturbed, hs⟩ := run.last
    have hbefore : s₁.Underway id :=
      ih run₁ fun e hmem => hrestart e (List.mem_append_left _ hmem)
    exact hs.underway run₁ hundisturbed
      (hrestart e' (List.mem_append_right _ (List.mem_singleton_self _))) hbefore

/-- What is underway when the database has stopped is recorded. -/
theorem Sys.Underway.isPaid {h : List (SysEvent lib)} {s : Sys lib} (run : SysRunIf d allow h s)
    {id : String} (h : s.Underway id) (hdown : s.database = false) :
    IsPaid s.store.orders id := by
  have hover := SysRun.stopped run hdown
  obtain ⟨_, _, events, -, -, hsound⟩ := SysRun.handler_sound run
  cases h with
  | queued _ hreads => exact absurd hreads hover
  | marking hmarking => exact absurd (hmarking.reads hsound) hover
  | recorded hpaid => exact hpaid

/-- **Every reported payment is recorded when the database stops**, in every run in which none is
reported during the shutdown, the handler does not give up with a report unread, and every order
that is to be marked is. -/
theorem paymentsKept {h : List (SysEvent lib)} {s : Sys lib}
    (run : SysRunIf d (fun _ s e => s.Undisturbed e) h s) : PaymentsKept h s := by
  rintro index id ⟨h₁, e, h₂, x, said, h₃, rfl, htells, -, -, -, hrestart⟩ hdown
  exact .inl ((SysRun.underway run htells hrestart).isPaid run hdown)

/-! ## Two shutdowns -/

namespace Sample

/-- The handler is told to shut down, and the chain manager winds down. -/
def windDown : List (SysAction libraries) :=
  [.manager (.winding [⟨"polkadot", 0⟩]), .manager .asked, .manager .waited, .manager .finished] ++
    answers 2

/-- A payment is reported, recorded and reaped before the shutdown. -/
def earlyReport : List (SysAction libraries) :=
  connected ++ ordered "order" ten ++ registered ++ block 10 7 ++ [.receive, served 5] ++
    answers 2 ++ [.manager .received, .manager .forwarded, .trackerReceive 0,
      .outside (.payoutBegun request)] ++ answers 1 ++ [settled, .outside .cancelled,
      .handler (.handler .notify)] ++ answers 1 ++ windDown

/-- A payment is reported while the chains wind down. -/
def lateReport : List (SysAction libraries) :=
  connected ++ ordered "order" ten ++ registered ++
    [.outside (.blockSeen 0 "0x1"), .trackerReceive 0, .outside .cancelled,
      .handler (.handler .notify)] ++ answers 1 ++ nodeAnswers 10 7 ++ [.tracker 0 .settle] ++
    windDown

end Sample

/-- A step that is undisturbed at sight. -/
def Sys.calm (s : Sys lib) : SysEvent lib → Bool
  | .tracker _ x =>
    match x.event, s.store.handler.pc with
    | .said ⟨.send (.orderPaid _), true⟩, .busy .winding _ _ => false
    | _, _ => true
  | .daemon x =>
    match x.event, s.store.handler.pc with
    | .handler .settled, .busy _ _ (.done (.error _)) => false
    | .handler (.said ⟨.db (.markPaid _), .error _⟩), _ => false
    | _, _ => true
  | _ => true

theorem Sys.undisturbed_of_calm {s : Sys lib} {e : SysEvent lib} (h : s.calm e = true) :
    s.Undisturbed e where
  timely := by
    rintro index id ⟨x, rfl, hx⟩ ⟨said, program, hpc⟩
    simp only [Sys.calm, hx, hpc] at h
    cases h
  patient := by
    rintro x phase said err rfl hx hpc
    simp only [Sys.calm, hx, hpc] at h
    cases h
  marked := by
    rintro x id err rfl hx
    simp only [Sys.calm, hx] at h
    cases h

/-- The step reports the payment of an order. -/
def SysEvent.reports (id : String) : SysEvent lib → Bool
  | .tracker 0 x =>
    match x.event with
    | .said ⟨.send (.orderPaid id'), true⟩ => id' = id
    | _ => false
  | _ => false

theorem SysEvent.tells_of_reports {e : SysEvent lib} {id : String} (h : e.reports id = true) :
    e.Tells 0 id := by
  unfold SysEvent.reports at h
  split at h
  · rename_i x
    split at h
    · rename_i id' he
      rw [of_decide_eq_true h] at he
      exact ⟨x, rfl, he⟩
    · cases h
  · cases h

/-- A payment that is reported in time is recorded. -/
theorem paymentsKept_earlyReport : ∃ h s,
    SysRunIf Sample.deployment (fun _ s e => s.Undisturbed e) h s ∧
      (∃ e ∈ h, e.Tells 0 "order") ∧ s.database = false ∧ PaymentsKept h s := by
  obtain ⟨h, s, run, hp⟩ := exists_reach_of_guarded (Sys.exec_sound Sample.deployment)
    (fun _ s e (h : Sys.calm s e = true) => Sys.undisturbed_of_calm h) (Sys.Begun Sample.deployment)
    Sample.begun Sample.earlyReport
    (p := fun q => q.1.any (SysEvent.reports "order") && !q.2.database) (by decide +kernel)
  rw [Bool.and_eq_true, Bool.not_eq_true', List.any_eq_true] at hp
  obtain ⟨⟨e, he, hreports⟩, hdown⟩ := hp
  exact ⟨h, s, run, ⟨e, he, SysEvent.tells_of_reports hreports⟩, hdown, paymentsKept run⟩

/-- The step drops an invoice from the watch list. -/
def SysEvent.drops (id : String) : SysEvent lib → Bool
  | .tracker 0 x =>
    match x.event with
    | .settled _ => (x.before.watched_accounts.lookup id).isSome &&
        (x.after.watched_accounts.lookup id).isNone
    | _ => false
  | _ => false

/-- The daemon is not started anew in this step. -/
def SysEvent.goesOn : SysEvent lib → Bool
  | .daemon x =>
    match x.event with
    | .restarted => false
    | _ => true
  | _ => true

/-- An invoice is dropped after a report. -/
def dropsReported (id : String) : List (SysEvent lib) → Bool
  | [] => false
  | e :: rest => (e.reports id && rest.any (SysEvent.drops id)) || dropsReported id rest

theorem exists_of_dropsReported {h : List (SysEvent lib)} {id : String}
    (hd : dropsReported id h = true) :
    ∃ h₁ e rest, h = h₁ ++ e :: rest ∧ e.reports id = true ∧ ∃ e' ∈ rest, e'.drops id = true := by
  induction h with
  | nil => cases hd
  | cons e rest ih =>
    rw [dropsReported, Bool.or_eq_true, Bool.and_eq_true, List.any_eq_true] at hd
    rcases hd with ⟨hreports, hdrops⟩ | hd
    · exact ⟨[], e, rest, rfl, hreports, hdrops⟩
    · obtain ⟨h₁, e', rest', rfl, hreports, hdrops⟩ := ih hd
      exact ⟨e :: h₁, e', rest', rfl, hreports, hdrops⟩

theorem forgotten_of_dropsReported {h : List (SysEvent lib)} {id : String}
    (hdrops : dropsReported id h = true) (hgoes : h.all SysEvent.goesOn = true) :
    Forgotten h 0 id := by
  obtain ⟨h₁, e, rest, rfl, htells, e', hmem, hgone⟩ := exists_of_dropsReported hdrops
  obtain ⟨h₂, h₃, rfl⟩ := List.append_of_mem hmem
  unfold SysEvent.drops at hgone
  split at hgone
  · rename_i x
    split at hgone
    · rename_i said hx
      rw [Bool.and_eq_true, Option.isNone_iff_eq_none] at hgone
      refine ⟨h₁, e, h₂, x, said, h₃, rfl, SysEvent.tells_of_reports htells, hx, hgone.1,
        hgone.2, ?_⟩
      rintro e' hmem' ⟨y, rfl, hy⟩
      have hgo := List.all_eq_true.mp hgoes (.daemon y)
        (List.mem_append_right _ (List.mem_cons_of_mem _ hmem'))
      simp only [SysEvent.goesOn, hy] at hgo
      cases hgo
    · cases hgone
  · cases hgone

/-- **A payment that is reported during the shutdown is lost.** -/
theorem lateReport_lost : ∃ h s, SysRun Sample.deployment h s ∧ ¬PaymentsKept h s := by
  obtain ⟨h, s, run, hp⟩ := exists_reach_of_replay (Sys.exec_sound Sample.deployment)
    (Sys.Begun Sample.deployment) Sample.begun Sample.lateReport
    (p := fun q => dropsReported "order" q.1 && q.1.all SysEvent.goesOn && !q.2.database &&
      ((record q.2.store.orders "order").any fun info : OrderInfo =>
        decide (info.payment_status = .pending)) &&
      ((q.2.trackers 0).watched_accounts.lookup "order").isNone) (by decide +kernel)
  simp only [Bool.and_eq_true, Bool.not_eq_true', Option.any_eq_true, decide_eq_true_eq,
    Option.isNone_iff_eq_none] at hp
  obtain ⟨⟨⟨⟨hreports, hgoes⟩, hdown⟩, info, hrec, hpending⟩, hgone⟩ := hp
  refine ⟨h, s, run, fun hkept => ?_⟩
  rcases hkept 0 "order" (forgotten_of_dropsReported hreports hgoes) hdown with
    ⟨info', hrec', hpaid⟩ | hwatched
  · obtain rfl := Option.some.inj (hrec.symm.trans hrec')
    cases hpending.symm.trans hpaid
  · rw [hgone] at hwatched
    cases hwatched

end Kalatori
