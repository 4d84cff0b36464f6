import Kalatori.System.Authors
import Kalatori.System.Watching

/-!
# Whether a paid order is handed over

Once an order is marked as paid, the handler hands it to the chain manager for its
payout.  The mark outlives a restart, and the intention does not: nobody looks for
the orders that were marked and never handed over.  So of an order that is paid one
of three things is true: it was handed over, or the handler is about to do so, or a
restart came just between the two.

* `SysRun.attended`, `SysRun.attended_winding`: while the handler serves requests, and when it
  begins its shutdown, the chain manager is there.
* `handle_hands`: what the handler does with an order that it has marked.
* `Sys.Handover`, `FreshRun.handover`: the three things.
-/

namespace Kalatori

open Program Transition

variable {lib : Libraries} {d : Deployment lib}
  {allow : List (SysEvent lib) → Sys lib → SysEvent lib → Prop}

/-! ## The manager while the handler serves -/

/-- The manager was asked to shut down, or is over. -/
inductive Sys.Stopping (s : Sys lib) : Prop
  | asked (hmem : .shutdown ∈ s.manager_queue)
  | draining (left : List (Σ _ : String, ℕ))
      (hpc : s.manager = .drain left ∨ s.manager = .wait left)
  | ended (hpc : s.manager = .ended)

/-- How the manager comes to wind down. -/
theorem Outcome.draining {s s' : Sys lib} {e : SysEvent lib} (h : Outcome d s e s')
    (hpc : (∃ left, s'.manager = .drain left ∨ s'.manager = .wait left) ∨ s'.manager = .ended) :
    s.Stopping ∨ (e.daemon? = none ∧ s.store.handler.hasEnded = true) := by
  have hsame : (∃ left, s.manager = .drain left ∨ s.manager = .wait left) ∨ s.manager = .ended →
      s.Stopping := by
    rintro (⟨left, hpc⟩ | hpc)
    · exact .draining left hpc
    · exact .ended hpc
  cases h with
  | restarted | routed | forwarded => simp [Sys.start] at hpc
  | lost => simp at hpc
  | winding _ rest _ hqueue =>
    refine .inl (.asked ?_)
    rw [hqueue]
    exact List.mem_cons_self
  | asked _ _ _ hdrain | skipped _ _ _ hdrain | finished hdrain =>
    exact .inl (.draining _ (.inl hdrain))
  | waited _ hwait => exact .inl (.draining _ (.inr hwait))
  | closed _ _ hend => exact .inr ⟨rfl, hend⟩
  | droppedTracker | took => exact .inl (hsame (by simpa using hpc))
  | _ => exact .inl (hsame hpc)

/-- A request to shut down comes from the handler. -/
theorem SysStep.shutdown_sent {h : List (SysEvent lib)} {s s' : Sys lib} {e : SysEvent lib}
    (run : SysRunIf d allow h s) (hallow : allow h s e) (hs : SysStep d s e s')
    (hsends : e.Sends .shutdown) :
    ∃ x, e = .daemon x ∧ x.event = .handler (.said ⟨.send .shutdown, true⟩) := by
  rcases hsends with hsends | rfl
  · exact hsends
  · obtain ⟨⟨w, hreq, -⟩, -⟩ := restore_sends run hallow hs
    cases hreq

/-- How the manager comes to be asked to shut down, or to be over. -/
theorem SysStep.stopping {h : List (SysEvent lib)} {s s' : Sys lib} {e : SysEvent lib}
    (run : SysRunIf d allow h s) (hallow : allow h s e) (hs : SysStep d s e s')
    (hstopping : s'.Stopping) :
    (s.Stopping ∧ ¬e.Restarts) ∨
      (∃ x, e = .daemon x ∧ x.event = .handler (.said ⟨.send .shutdown, true⟩)) ∨
      (e.daemon? = none ∧ s.store.handler.hasEnded = true) := by
  have hlife : ¬e.Restarts := by
    intro hrestart
    rw [hs.outcome.restarted_eq hrestart] at hstopping
    rcases hstopping with hmem | ⟨left, hpc⟩ | hpc
    · cases hmem
    · simp [Sys.start] at hpc
    · cases hpc
  have hdraining : s.Stopping ∨ (e.daemon? = none ∧ s.store.handler.hasEnded = true) ∨
      e.Sends .shutdown := by
    cases hstopping with
    | asked hmem =>
      rcases hs.outcome.manager_queue hmem with hmem | hsends
      · exact .inl (.asked hmem)
      · exact .inr (.inr hsends)
    | draining left hpc => exact (hs.outcome.draining (.inl ⟨left, hpc⟩)).imp_right .inl
    | ended hpc => exact (hs.outcome.draining (.inr hpc)).imp_right .inl
  rcases hdraining with hstopping | hend | hsends
  · exact .inl ⟨hstopping, hlife⟩
  · exact .inr (.inr hend)
  · exact .inr (.inl (hs.shutdown_sent run hallow hsends))

/-- **While the handler serves requests, the chain manager is there.** -/
theorem SysRun.attended {h : List (SysEvent lib)} {s : Sys lib} (run : SysRunIf d allow h s)
    (hreads : s.store.handler.Reads) : ¬s.Stopping := by
  intro hstopping
  refine SysRun.unread (P := Sys.Stopping) ?_ ?_ run hstopping hreads
  · rintro orders (hmem | ⟨left, hpc⟩ | hpc)
    · cases hmem
    · simp [Sys.start] at hpc
    · cases hpc
  · intro h s e s' run hallow hs hstopping
    rcases hs.stopping run hallow hstopping with hbefore | ⟨x, rfl, hx⟩ | hend
    · exact .inl hbefore
    · exact .inr (.inl ⟨x, _, _, rfl, hx, rfl⟩)
    · exact .inr (.inr hend)

/-- How the handler comes to begin its shutdown: it was listening. -/
theorem HandlerStep.begins_winding {s s' : Handler} {e : HandlerEvent}
    (hs : HandlerStep lib s e s') {program : Prog HandlerSig (Except Error HandlerNext)}
    (hpc : s'.pc = .busy .winding [] program) : s.pc = .listening := by
  cases hs with
  | said answer =>
    obtain ⟨-, hsaid, -⟩ := HandlerPc.busy.inj hpc
    exact absurd hsaid (List.append_ne_nil_of_right_ne_nil _ (List.cons_ne_nil _ _))
  | @settled _ _ result => rcases result with _ | _ | _ <;> cases hpc
  | received | closed => cases hpc
  | notified hlistening => exact hlistening

/-- The chain manager is there when the handler begins its shutdown. -/
theorem SysRun.attended_winding {h : List (SysEvent lib)} {s : Sys lib}
    (run : SysRunIf d allow h s) {program : Prog HandlerSig (Except Error HandlerNext)}
    (hpc : s.store.handler.pc = .busy .winding [] program) : ¬s.Stopping := by
  refine run.invariant (P := fun _ s => ∀ program,
    s.store.handler.pc = .busy .winding [] program → ¬s.Stopping) ?_ ?_ program hpc
  · rintro s ⟨orders, -, rfl⟩ program hpc
    obtain ⟨hphase, -⟩ := HandlerPc.busy.inj hpc
    cases hphase
  · intro h s e s' run ih hallow hs program hpc hstopping
    rcases hs.stopping run hallow hstopping with ⟨hbefore, hlife⟩ | ⟨x, rfl, hx⟩ | ⟨he, hend⟩
    · rcases hs.outcome.store with ⟨x, rfl, hx⟩ | ⟨-, heq⟩
      · rcases hx.handlerStep with ⟨e, -, hstep⟩ | hevent
        · have hlistening := hstep.begins_winding hpc
          refine SysRun.attended run ⟨?_, ?_⟩ hbefore
          · rw [Handler.hasEnded, hlistening]
          · rintro ⟨said, program, hwinding⟩
            cases hlistening.symm.trans hwinding
        · exact hlife ⟨x, rfl, hevent⟩
      · exact ih program (heq ▸ hpc) hbefore
    · obtain ⟨_, _, _, -, hpc', -⟩ := hs.outcome.daemonStep.said hx
      rw [hpc'] at hpc
      obtain ⟨-, hsaid, -⟩ := HandlerPc.busy.inj hpc
      exact absurd hsaid (List.append_ne_nil_of_right_ne_nil _ (List.cons_ne_nil _ _))
    · rcases hs.outcome.store with ⟨x, rfl, -⟩ | ⟨-, heq⟩
      · cases he
      · rw [Handler.hasEnded, ← heq, hpc] at hend
        cases hend

/-! ## What the handler does with a marked order -/

/-- Once an order is marked `reap` is called for it, and then it sends the request. -/
structure Hands (said : Trace HandlerSig) (o : HandlerOp) : Prop where
  calls : ∀ id order, said = [⟨.db (.markPaid id), .ok order⟩] → o = .reap id order
  sends : ∀ id order, said = marked id order → ∃ w, w.id = id ∧ o = .send (.reap w)

/-- The handler is not through with an order before, unless its account cannot be read. -/
structure HandsOver (lib : Libraries) (said : Trace HandlerSig) : Prop where
  calls : ∀ id order, said ≠ [⟨.db (.markPaid id), .ok order⟩]
  sends : ∀ id order, said = marked id order → lib.fromBase58String order.payment_account = none

/-- The order is marked in the conversation. -/
def Marks (said : Trace HandlerSig) : Prop :=
  ∃ exchange ∈ said, ∃ id, exchange.1 = .db (.markPaid id)

theorem marks_marked (id : String) (order : OrderInfo) : Marks (marked id order) :=
  ⟨_, List.mem_cons_self, id, rfl⟩

theorem marks_singleton (id : String) (order : OrderInfo) :
    Marks [⟨.db (.markPaid id), .ok order⟩] :=
  ⟨_, List.mem_cons_self, id, rfl⟩

theorem Hands.of_not_marks {said : Trace HandlerSig} (h : ¬Marks said) (o : HandlerOp) :
    Hands said o where
  calls := by
    rintro id order rfl
    exact absurd (marks_singleton id order) h
  sends := by
    rintro id order rfl
    exact absurd (marks_marked id order) h

theorem HandsOver.of_not_marks {said : Trace HandlerSig} (h : ¬Marks said) :
    HandsOver lib said where
  calls := by
    rintro id order rfl
    exact h (marks_singleton id order)
  sends := by
    rintro id order rfl
    exact absurd (marks_marked id order) h

/-- Nothing more is asked of a conversation that is past the call. -/
theorem Hands.of_length {said : Trace HandlerSig} (h : 2 < said.length) (o : HandlerOp) :
    Hands said o where
  calls := by
    rintro id order rfl
    simp at h
  sends := by
    rintro id order rfl
    simp [marked] at h

theorem HandsOver.of_length {said : Trace HandlerSig} (h : 2 < said.length) :
    HandsOver lib said where
  calls := by
    rintro id order rfl
    simp at h
  sends := by
    rintro id order rfl
    simp [marked] at h

/-- A request that does not report a payment marks nothing. -/
theorem handle_unmarked {state : StateData} {request : StateAccessRequest}
    (h : ∀ id, request ≠ .orderPaid id) :
    Prog.Holds Hands (fun said _ => HandsOver lib said) []
      (handle lib state request >>= fun state => pure (HandlerNext.listen state)).run := by
  have hops : Prog.Holds (fun _ (o : HandlerOp) => ∀ id, o ≠ .db (.markPaid id))
      (fun _ _ => True) []
      (handle lib state request >>= fun state => pure (HandlerNext.listen state)).run := by
    refine (handle_spec request).mono (fun said o ho id => ?_) fun _ _ _ => trivial
    rintro rfl
    cases ho with
    | markPaid => exact h id rfl
  have hnot : ∀ said seg : Trace HandlerSig, said = [] ++ seg →
      (∀ exchange ∈ seg, ∀ id, exchange.1 ≠ .db (.markPaid id)) → ¬Marks said := by
    rintro said seg rfl hseg ⟨exchange, hmem, id, hexchange⟩
    exact hseg exchange hmem id hexchange
  refine hops.ops.mono ?_ ?_
  · rintro said o ⟨⟨seg, hsaid, hseg⟩, -⟩
    exact .of_not_marks (hnot said seg hsaid hseg) o
  · rintro said _ ⟨⟨seg, hsaid, hseg⟩, -⟩
    exact .of_not_marks (hnot said seg hsaid hseg)

/-- **The handler hands over what it has marked.** -/
theorem handle_hands (state : StateData) (request : StateAccessRequest) :
    Prog.Holds Hands (fun said _ => HandsOver lib said) []
      (handle lib state request >>= fun state => pure (HandlerNext.listen state)).run := by
  cases request with
  | orderPaid id =>
    have hnil : ¬Marks [] := by
      rintro ⟨_, hmem, -⟩
      cases hmem
    rw [handle, bind_assoc, Prog.holds_run_bind, holds_result, holds_db]
    refine ⟨.of_not_marks hnil _, fun answer => ?_⟩
    cases answer with
    | error e =>
      refine ⟨fun id order hsaid => ?_, fun id order hsaid => ?_⟩
      · cases hsaid
      · cases hsaid
    | ok order =>
      simp only [Except.mapError]
      rw [bind_assoc, Prog.holds_run_bind, reap, Prog.holds_run_bind]
      refine ⟨⟨fun id order hsaid => ?_, fun id order hsaid => ?_⟩, fun _ => ?_⟩
      · cases hsaid
        rfl
      · cases hsaid
      refine holds_callManager (fun e he => ?_) fun w hw => ⟨?_, ?_, ?_, fun answer => ?_⟩
      · refine ⟨fun id order hsaid => ?_, fun id order hsaid => ?_⟩
        · cases hsaid
        · cases hsaid
          rw [WatchAccount.new] at he
          split at he
          · assumption
          · cases he
      · refine ⟨fun id order hsaid => ?_, fun id order hsaid => ?_⟩
        · cases hsaid
        · cases hsaid
          exact ⟨w, WatchAccount.new_id hw, rfl⟩
      · exact .of_length (by simp)
      · exact .of_length (by simp) _
      · exact .of_length (by simp)
  | connectChain | getInvoiceStatus | createInvoice | isCurrencySupported | serverStatus =>
    exact handle_unmarked (by simp)

/-- What holds of the handler while it serves a request. -/
def Handler.Handing (lib : Libraries) (s : Handler) : Prop :=
  ∀ said program, s.pc = .busy .handling said program →
    Prog.Holds Hands (fun said _ => HandsOver lib said) said program

theorem HandlerStep.handing {s s' : Handler} {e : HandlerEvent} (hs : HandlerStep lib s e s')
    (h : s.Handing lib) : s'.Handing lib := by
  cases hs with
  | said answer hpc =>
    rintro said program ⟨⟩
    exact (h _ _ hpc).2 answer
  | @settled _ _ result =>
    intro said program hpc
    rcases result with _ | _ | _ <;> cases hpc
  | received request =>
    rintro said program ⟨⟩
    exact handle_hands _ request
  | closed | notified => rintro said program ⟨⟩

theorem SysRun.handing {h : List (SysEvent lib)} {s : Sys lib} (run : SysRunIf d allow h s) :
    s.store.handler.Handing lib := by
  refine run.invariant (P := fun _ s => s.store.handler.Handing lib) ?_ ?_
  · rintro s ⟨orders, -, rfl⟩ said program ⟨⟩
  · rintro h s e s' - ih - hs
    rcases hs.outcome.store with ⟨x, rfl, hx⟩ | ⟨-, heq⟩
    · rcases hx.handlerStep with ⟨ev, -, hstep⟩ | hrestart
      · exact hstep.handing ih
      · rw [hs.outcome.restarted_eq ⟨x, rfl, hrestart⟩]
        rintro said program ⟨⟩
    · exact heq ▸ ih

/-! ## Where a paid order is -/

/-- The order was handed to the chain manager for its payout. -/
def Handed (h : List (SysEvent lib)) (order : String) : Prop :=
  ∃ e ∈ h, ∃ w, e.Sends (.reap w) ∧ w.id = order

/-- In one of the turns the order was marked, and all that the handler has done since is to call
`reap` for it. -/
def JustMarked (h : List (SysEvent lib)) (order : String) (info : OrderInfo) : Prop :=
  ∃ h₁ x h₂, h = h₁ ++ .daemon x :: h₂ ∧
    x.event = .handler (.said ⟨.db (.markPaid order), .ok info⟩) ∧
    ∀ y, .daemon y ∈ h₂ → y.event = .handler (.said ⟨.reap order info, ()⟩)

/-- A restart came between the mark of the order and its handing over. -/
def CutShort (h : List (SysEvent lib)) (order : String) : Prop :=
  ∃ h₁ x h₂ info, h = h₁ ++ .daemon x :: h₂ ∧ x.event = .restarted ∧ JustMarked h₁ order info

/-- **Where an order is that was paid.** -/
inductive Sys.Handover (h : List (SysEvent lib)) (s : Sys lib) (order : String) : Prop
  | handed (hh : Handed h order)
  | cutShort (hc : CutShort h order)
  | held (info : OrderInfo) (said : Trace HandlerSig)
      (program : Prog HandlerSig (Except Error HandlerNext)) (hm : JustMarked h order info)
      (hpc : s.store.handler.pc = .busy .handling said program)
      (hsaid : said = [⟨.db (.markPaid order), .ok info⟩] ∨ said = marked order info)

section Steps

variable {h : List (SysEvent lib)} {s s' : Sys lib} {e : SysEvent lib} {order : String}
  {info : OrderInfo}

theorem Handed.append (hh : Handed h order) (h' : List (SysEvent lib)) :
    Handed (h ++ h') order := by
  obtain ⟨e, he, hsends⟩ := hh
  exact ⟨e, List.mem_append_left _ he, hsends⟩

theorem CutShort.append (hc : CutShort h order) (h' : List (SysEvent lib)) :
    CutShort (h ++ h') order := by
  obtain ⟨h₁, x, h₂, info, rfl, hrest⟩ := hc
  exact ⟨h₁, x, h₂ ++ h', info, by simp, hrest⟩

theorem JustMarked.append (hm : JustMarked h order info)
    (he : ∀ y, e = .daemon y → y.event = .handler (.said ⟨.reap order info, ()⟩)) :
    JustMarked (h ++ [e]) order info := by
  obtain ⟨h₁, x, h₂, rfl, hx, hrest⟩ := hm
  refine ⟨h₁, x, h₂ ++ [e], by simp, hx, fun y hy => ?_⟩
  rcases List.mem_append.mp hy with hy | hy
  · exact hrest y hy
  · exact he y (List.mem_singleton.mp hy).symm

/-- A record becomes paid when the handler has it marked. -/
theorem SysStep.becomes_paid (run : SysRunIf d allow h s) (hs : SysStep d s e s')
    (hpaid : IsPaid s'.store.orders order) :
    IsPaid s.store.orders order ∨ ∃ x info, e = .daemon x ∧
      x.event = .handler (.said ⟨.db (.markPaid order), .ok info⟩) := by
  rcases hs.outcome.store with ⟨x, rfl, hx⟩ | ⟨-, heq⟩
  · rcases hx.effect (SysRun.handler_sound run) with heq | ⟨r, answer, now, he, ha, heffect⟩
    · exact .inl (heq ▸ hpaid)
    · rcases heffect.hasPaid ha hpaid with hpaid | ⟨info, rfl, hanswer⟩
      · exact .inl hpaid
      · exact .inr ⟨x, info, rfl, eq_of_heq hanswer ▸ he⟩
  · exact .inl (heq ▸ hpaid)

/-- An order that has just been marked is in the hands of the handler. -/
theorem SysStep.held (run : SysRunIf d allow h s) {x : DaemonTurn}
    (hs : SysStep d s (.daemon x) s')
    (hx : x.event = .handler (.said ⟨.db (.markPaid order), .ok info⟩)) :
    s'.Handover (h ++ [.daemon x]) order := by
  obtain ⟨phase, said, k, hpc, hpc', -⟩ := hs.outcome.daemonStep.said hx
  obtain ⟨_, _, events, -, -, hsound⟩ := SysRun.handler_sound run
  obtain ⟨rfl, _, _, -, ho⟩ := hsound.handles hpc rfl
  cases ho with
  | markPaid =>
    refine .held info _ (k (.ok info)) ⟨h, x, [], rfl, hx, fun y hy => by cases hy⟩ ?_ (.inl rfl)
    rw [hpc']
    rfl

/-- A request of the handler goes through while it serves. -/
theorem SysStep.taken (run : SysRunIf d allow h s) {x : DaemonTurn}
    (hs : SysStep d s (.daemon x) s') {said : Trace HandlerSig}
    {program : Prog HandlerSig (Except Error HandlerNext)}
    (hpc : s.store.handler.pc = .busy .handling said program) {request : ChainRequest}
    {taken : Bool} (hx : x.event = .handler (.said ⟨.send request, taken⟩)) : taken = true := by
  have hreads : s.store.handler.Reads := by
    refine ⟨by rw [Handler.hasEnded, hpc], ?_⟩
    rintro ⟨said', program', hpc'⟩
    cases hpc.symm.trans hpc'
  have hattended := SysRun.attended run hreads
  have houtcome := hs.outcome
  cases houtcome with
  | handler _ _ he hquiet =>
    obtain ⟨⟩ := hx.symm.trans he
    exact absurd (.ended hquiet.2) hattended
  | handlerSent _ _ he =>
    obtain ⟨⟩ := hx.symm.trans he
    rfl
  | spawned _ _ he | handlerAnswered _ _ he | databaseShutDown _ he | received _ _ _ he =>
    cases hx.symm.trans he
  | restarted => cases hx

/-- **A step hands an order over that was marked, or keeps it in hand, or is a restart.** -/
theorem SysStep.handover (hbase58 : ∀ order ss58,
      lib.fromBase58String (lib.toBase58String (d.account order) ss58) = some (d.account order))
    (run : FreshRun d h s) (hs : SysStep d s e s') (hh : s.Handover h order) :
    s'.Handover (h ++ [e]) order := by
  have hrun := FreshRun.sysRun run
  cases hh with
  | handed hh => exact .handed (hh.append _)
  | cutShort hc => exact .cutShort (hc.append _)
  | held info said program hm hpc hsaid =>
    rcases hs.outcome.store with ⟨x, rfl, hx⟩ | ⟨he, heq⟩
    swap
    · refine .held info said program (hm.append ?_) (heq ▸ hpc) hsaid
      rintro y rfl
      cases he
    rcases hx.handlerStep with ⟨ev, hev, -⟩ | hrestart
    swap
    · exact .cutShort ⟨h, x, [], info, rfl, hrestart, hm⟩
    have hholds := SysRun.handing hrun said program hpc
    have hreadable : lib.fromBase58String info.payment_account ≠ none := by
      obtain ⟨ss58, haccount⟩ := ((FreshRun.authored hbase58 run).told _ _ _ hpc).paid order info
        (by rcases hsaid with rfl | rfl <;> simp [marked])
      rw [haccount, hbase58]
      simp
    rcases hsaid with rfl | rfl
    · cases program with
      | done _ => exact absurd rfl (HandsOver.calls hholds order info)
      | call o k =>
        obtain rfl := hholds.1.calls order info rfl
        obtain ⟨answer, rfl⟩ := hx.answered hpc hev
        obtain ⟨phase, said, k', hpc₀, hpc', -⟩ := hx.said hev
        obtain ⟨rfl, rfl, -⟩ := HandlerPc.busy.inj (hpc.symm.trans hpc₀)
        refine .held info _ (k' answer) (hm.append ?_) ?_ (.inr rfl)
        · rintro y hy
          exact SysEvent.daemon.inj hy ▸ hev
        · rw [hpc']
          rfl
    · cases program with
      | done _ => exact absurd (HandsOver.sends hholds order info rfl) hreadable
      | call o k =>
        obtain ⟨w, hid, rfl⟩ := hholds.1.sends order info rfl
        obtain ⟨taken, rfl⟩ := hx.answered hpc hev
        obtain rfl := hs.taken hrun hpc hev
        exact .handed ⟨.daemon x, List.mem_append_right _ (List.mem_singleton_self _), w,
          .inl ⟨x, rfl, hev⟩, hid⟩

end Steps

/-- **Every paid order was handed over, or is about to be, or was cut short**, in every run on a
tree that was empty at first. -/
theorem FreshRun.handover (hbase58 : ∀ order ss58,
      lib.fromBase58String (lib.toBase58String (d.account order) ss58) = some (d.account order))
    {h : List (SysEvent lib)} {s : Sys lib} (run : FreshRun d h s) {order : String}
    (hpaid : IsPaid s.store.orders order) : s.Handover h order := by
  refine run.invariant (P := fun h s => IsPaid s.store.orders order → s.Handover h order)
    ?_ ?_ hpaid
  · rintro s rfl ⟨info, hrec, -⟩
    simp [Sys.start, record, recordAt] at hrec
  · intro h s e s' run ih _ hs hpaid
    rcases hs.becomes_paid (FreshRun.sysRun run) hpaid with hbefore | ⟨x, info, rfl, hx⟩
    · exact hs.handover hbase58 run (ih hbefore)
    · exact hs.held (FreshRun.sysRun run) hx

end Kalatori
