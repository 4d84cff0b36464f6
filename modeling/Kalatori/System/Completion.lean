import Kalatori.System.Pairing
import Kalatori.System.Rest

/-!
# Every request is answered

A task of the server asks the state handler a bounded number of times, and then it
responds.  So what is true of the daemon is true of the daemon with its tasks: left
to itself it comes to rest.  A task that had not responded then would have a step to
make, or its request would be in the queue of the handler or in its hands, and at
rest it is in neither, unless a tracker holds the handler up.

* `Handler.Owes`, `Service.Placed`: where the request of a task is that waits.
* `Service.LessWork`, `ServiceStep.lessWork`: each step leaves less work.
* `alwaysAnswered`: every task responds.
-/

namespace Kalatori

open Program Transition

variable {lib : Libraries} {d : Deployment lib} {display : F64 → String}
  {allow : List (ServiceEvent lib) → Service lib → ServiceEvent lib → Prop}

/-! ## The handler answers each request of a task -/

theorem holds_answered {state : StateData} (said : Trace HandlerSig) (answer : HandlerReply) :
    Prog.Holds (fun _ _ => True) (fun said _ => silent said = false) said
      ((do reply answer; return state) >>=
        fun state => pure (HandlerNext.listen state)).run := by
  rw [bind_assoc, Prog.holds_run_bind, holds_reply]
  exact ⟨trivial, silent_snoc_reply said answer true, silent_snoc_reply said answer false⟩

theorem handle_answers {state : StateData} {request : StateAccessRequest}
    (h : request.fromTask = true) :
    Prog.Holds (fun _ _ => True) (fun said _ => silent said = false) []
      (handle lib state request >>= fun state => pure (HandlerNext.listen state)).run := by
  cases request with
  | isCurrencySupported | serverStatus => exact holds_answered [] _
  | getInvoiceStatus | createInvoice =>
    rw [handle, bind_assoc, Prog.holds_run_bind, holds_result]
    exact (Prog.holds_true [] _).mono (fun _ _ h => h) fun said _ _ => holds_answered said _
  | connectChain | orderPaid => cases h

/-- **The handler owes an answer**: it has given none yet, and will not be through before it
has. -/
def Handler.Owes (s : Handler) : Prop :=
  ∃ said program, s.pc = .busy .handling said program ∧ silent said = true ∧
    Prog.Holds (fun _ _ => True) (fun said _ => silent said = false) said program

theorem HandlerStep.owes {s s' : Handler} {e : HandlerEvent} (hs : HandlerStep lib s e s')
    (hreply : ∀ reply taken, e ≠ .said ⟨.reply reply, taken⟩) (h : s.Owes) : s'.Owes := by
  obtain ⟨said, program, hpc, hsilent, hp⟩ := h
  cases hs with
  | said answer hpc' =>
    obtain ⟨rfl, rfl, rfl⟩ := HandlerPc.busy.inj (hpc.symm.trans hpc')
    refine ⟨_, _, rfl, ?_, hp.2 answer⟩
    rw [silent_snoc answer, hsilent]
    rintro reply rfl
    exact hreply reply answer rfl
  | settled hpc' =>
    obtain ⟨-, rfl, rfl⟩ := HandlerPc.busy.inj (hpc.symm.trans hpc')
    cases hsilent.symm.trans hp
  | received _ hpc' | closed hpc' | notified hpc' => cases hpc.symm.trans hpc'

/-! ## Where the requests are -/

/-- **The request of a task that waits** is in the queue of the handler or in its hands, and for a
request in its hands it owes an answer. -/
structure Service.Placed (s : Service lib) : Prop where
  owes : ∀ i t, s.served = some i → s.tasks i = some t → s.sys.store.handler.Owes
  held : ∀ i t, s.tasks i = some t → t.waits = true → i ∈ s.holders

theorem StateOp.fromTask_request (o : StateOp) : o.request.fromTask = true := by
  cases o <;> rfl

section Steps

variable {s s' : Service lib}

theorem Followed.placed {s₁ : Service lib} {sys : Sys lib} {e : SysEvent lib}
    (hf : Followed d s sys e s₁) (hsound : s.Sound) (h : s.Placed) :
    Service.Placed { s₁ with sys := sys } := by
  cases hf with
  | still he hqueue hstore =>
    refine ⟨fun i t hi ht => ?_, h.held⟩
    show sys.store.handler.Owes
    rw [hstore]
    exact h.owes i t hi ht
  | enqueued he request hrequest hqueue hstore =>
    refine ⟨fun i t hi ht => ?_, fun i t ht hw => mem_holders.mpr ?_⟩
    · show sys.store.handler.Owes
      rw [hstore]
      exact h.owes i t hi ht
    · exact (mem_holders.mp (h.held i t ht hw)).imp_right (List.mem_append_left _)
  | received request hx he hqueue =>
    obtain ⟨hpc, hhandler⟩ := hx.receives he
    have hp := hsound (by rw [Handler.hasEnded, hpc])
    obtain ⟨owner, howners, hjoin, howns, -, -⟩ := hp.received hqueue
    refine ⟨fun i t hi ht => ?_, fun i t ht hw => mem_holders.mpr ?_⟩
    · obtain rfl : owner = some i := hjoin.symm.trans hi
      obtain ⟨-, o, k, -, rfl⟩ := howns t ht
      show sys.store.handler.Owes
      rw [hhandler]
      exact ⟨[], _, rfl, rfl, handle_answers o.fromTask_request⟩
    · rcases mem_holders.mp (h.held i t ht hw) with hserved | hmem
      · obtain ⟨said, program, hpc', -⟩ := h.owes i t hserved ht
        cases hpc.symm.trans hpc'
      · rw [howners] at hmem
        rcases List.mem_cons.mp hmem with heq | hmem
        · exact .inl (hjoin.trans heq.symm)
        · exact .inr hmem
  | replied reply taken hx he hqueue hdeliver =>
    rcases Service.deliver_cases hdeliver with ⟨rfl, hgone⟩ |
      ⟨i, t, t', hserved, ht, hreplied, -, rfl⟩
    · refine ⟨fun i t hi => (by cases hi), fun i t ht hw => mem_holders.mpr (.inr ?_)⟩
      refine (mem_holders.mp (h.held i t ht hw)).resolve_left fun hserved => ?_
      cases (hgone i hserved).1.symm.trans ht
    · refine ⟨fun j t hj => (by cases hj), fun j t'' ht'' hw => mem_holders.mpr (.inr ?_)⟩
      change (Service.setTask _ i (some t')).tasks j = some t'' at ht''
      by_cases hj : j = i
      · subst hj
        rw [Service.setTask_self] at ht''
        obtain rfl := Option.some.inj ht''
        cases hw.symm.trans (OrderTask.replied_waits hreplied)
      · rw [Service.setTask_of_ne hj] at ht''
        refine (mem_holders.mp (h.held j t'' ht'' hw)).resolve_left fun hserved' => hj ?_
        exact Option.some.inj (hserved'.symm.trans hserved)
  | handled ev hx he hreceived hreply hqueue =>
    refine ⟨fun i t hi ht => ?_, h.held⟩
    rcases hx.handlerStep with ⟨ev', he', hstep⟩ | hrestart
    · obtain rfl := DaemonEvent.handler.inj (he.symm.trans he')
      exact hstep.owes hreply (h.owes i t hi ht)
    · cases he.symm.trans hrestart
  | restarted => exact ⟨fun i t hi => (by cases hi), fun i t ht => (by cases ht)⟩

/-- A task is gone. -/
theorem Service.Placed.setTask_none (h : s.Placed) (i : ℕ) :
    (s.setTask i none).Placed := by
  have hother : ∀ j t, (s.setTask i none).tasks j = some t → s.tasks j = some t := by
    intro j t ht
    by_cases hj : j = i
    · subst hj
      rw [Service.setTask_self] at ht
      cases ht
    · rwa [Service.setTask_of_ne hj] at ht
  exact ⟨fun j t hserved ht => h.owes j t hserved (hother j t ht),
    fun j t ht hw => h.held j t (hother j t ht) hw⟩

theorem ServiceStep.placed {e : ServiceEvent lib} (hs : ServiceStep display d s e s')
    (hreports : ∀ index, (s.sys.trackers index).Reporting) (hsound : s.Sound) (h : s.Placed) :
    s'.Placed := by
  cases hs with
  | arrived i order_id payload hfree hunused =>
    refine ⟨fun j t hserved ht => ?_, fun j t ht hw => ?_⟩
    · have hj : j ≠ i := by
        rintro rfl
        exact hunused (mem_holders.mpr (.inl hserved))
      rw [Service.setTask_of_ne hj] at ht
      exact h.owes j t hserved ht
    · by_cases hj : j = i
      · subst hj
        rw [Service.setTask_self] at ht
        obtain rfl := Option.some.inj ht
        cases hw
      · rw [Service.setTask_of_ne hj] at ht
        exact h.held j t ht hw
  | @asked sys t o k i ht hp hw hsys =>
    have hstore : sys.store = s.sys.store := by
      cases (SysStep.outside (d := d) _ hsys).outcome with
      | requested => rfl
    refine ⟨fun j t' hserved ht' => ?_, fun j t' ht' hw' => mem_holders.mpr ?_⟩
    · show sys.store.handler.Owes
      rw [hstore]
      by_cases hj : j = i
      · exact h.owes i t (hj ▸ hserved) ht
      · exact h.owes j t' hserved ((Service.setTask_of_ne hj).symm.trans ht')
    · by_cases hj : j = i
      · exact .inr (hj ▸ List.mem_append_right _ (List.mem_singleton_self _))
      · have hheld := h.held j t' ((Service.setTask_of_ne hj).symm.trans ht') hw'
        exact (mem_holders.mp hheld).imp_right (List.mem_append_left _)
  | @unheard t o k i ht hp hend =>
    refine ⟨fun j t' hserved ht' => ?_, fun j t' ht' hw' => ?_⟩
    · by_cases hj : j = i
      · exact h.owes i t (hj ▸ hserved) ht
      · exact h.owes j t' hserved ((Service.setTask_of_ne hj).symm.trans ht')
    · by_cases hj : j = i
      · subst hj
        rw [Service.setTask_self] at ht'
        obtain rfl := Option.some.inj ht'
        cases hw'
      · exact h.held j t' ((Service.setTask_of_ne hj).symm.trans ht') hw'
  | left i | responded i => exact h.setTask_none i
  | daemon e hs hfollow => exact (hs.followed hreports hfollow).placed hsound h

end Steps

theorem ServiceRun.placed {h : List (ServiceEvent lib)} {s : Service lib}
    (run : ServiceRunIf display d allow (Sys.Begun d) h s) : s.Placed := by
  refine run.invariant (P := fun _ s => s.Placed) ?_ ?_
  · rintro s ⟨sys, -, rfl⟩
    exact ⟨fun i t hi => (by cases hi), fun i t ht => (by cases ht)⟩
  · rintro h s e s' run ih - hs
    exact hs.placed (SysRun.reporting (ServiceRun.sysRun run)) (ServiceRun.sound run) ih

/-! ## The work that is left -/

/-- The steps that the daemon and its tasks make by themselves: no request comes, and no client
goes away. -/
def ServiceEvent.own : ServiceEvent lib → Bool
  | .arrived .. | .left _ => false
  | .asked .. | .unheard _ | .responded .. => true
  | .daemon e => e.own

/-- What a task has to do: its program, and to send the request that it is at. -/
def taskWork : Option OrderTask → ℕ × Prog StateSig (Except OrderError OrderResponse) × ℕ
  | none => (0, .done (.error .internalError), 0)
  | some t => (1, t.program, (!t.waits).toNat)

abbrev TaskLess : ℕ × Prog StateSig (Except OrderError OrderResponse) × ℕ →
    ℕ × Prog StateSig (Except OrderError OrderResponse) × ℕ → Prop :=
  Prod.Lex (· < ·) (Prod.Lex Prog.Next (· < ·))

theorem taskLess_wf : WellFounded TaskLess :=
  WellFounded.prod_lex wellFounded_lt (WellFounded.prod_lex Prog.next_wf wellFounded_lt)

namespace Service

/-- **There is less work**, for a service with tasks below `n` only. -/
def LessWork (d : Deployment lib) (n : ℕ) : Service lib → Service lib → Prop :=
  Layered (fun s (i : Fin n) => taskWork (s.tasks i)) (OneLess TaskLess)
    (InvImage (Sys.LessWork d) Service.sys)

theorem lessWork_wf (d : Deployment lib) (n : ℕ) : WellFounded (LessWork d n) :=
  layered_wf (oneLess_wf taskLess_wf) (InvImage.wf _ (Sys.lessWork_wf d))

/-- There are tasks below `n` only. -/
def Below (n : ℕ) (s : Service lib) : Prop := ∀ i, n ≤ i → s.tasks i = none

section Tasks

variable {s s' : Service lib} {n i : ℕ}

theorem Below.lt (h : s.Below n) {t : OrderTask} (ht : s.tasks i = some t) : i < n := by
  by_contra hge
  cases (h i (Nat.le_of_not_lt hge)).symm.trans ht

theorem Below.setTask (h : s.Below n) {t : OrderTask} (ht : s.tasks i = some t)
    (t' : Option OrderTask) : (s.setTask i t').Below n := by
  intro j hj
  have hne : j ≠ i := (Nat.lt_of_lt_of_le (h.lt ht) hj).ne'
  rw [Service.setTask_of_ne hne]
  exact h j hj

/-- One task has less to do. -/
theorem lessWork_of_task (hbelow : s.Below n) {t : OrderTask} (ht : s.tasks i = some t)
    {t' : Option OrderTask} (htasks : s'.tasks = Function.update s.tasks i t')
    (h : TaskLess (taskWork t') (taskWork (some t))) : s'.LessWork d n s := by
  refine .inl ⟨⟨i, hbelow.lt ht⟩, ?_, fun j hj => ?_⟩
  · show TaskLess (taskWork (s'.tasks i)) (taskWork (s.tasks i))
    rw [htasks, Function.update_self, ht]
    exact h
  · show taskWork (s'.tasks j) = taskWork (s.tasks j)
    rw [htasks, Function.update_of_ne fun h => hj (Fin.ext h)]

/-- **What a step of the daemon does to the tasks**: nothing, or one of them is answered, or a
restart ends them. -/
theorem follow_tasks {s₁ : Service lib} {sys : Sys lib} {e : SysEvent lib}
    (hf : Followed d s sys e s₁) :
    s₁.tasks = s.tasks ∨
      (∃ i t t' reply, s.tasks i = some t ∧ t.replied reply = some t' ∧
        s₁.tasks = Function.update s.tasks i (some t')) ∨
      e.own = false ∧ s₁.tasks = fun _ => none := by
  cases hf with
  | still | enqueued | received | handled => exact .inl rfl
  | replied reply taken hx he hqueue hdeliver =>
    rcases Service.deliver_cases hdeliver with ⟨rfl, -⟩ | ⟨i, t, t', -, ht, hreplied, -, rfl⟩
    · exact .inl rfl
    · exact .inr (.inl ⟨i, t, t', reply, ht, hreplied, rfl⟩)
  | restarted => exact .inr (.inr ⟨rfl, rfl⟩)

end Tasks

end Service

theorem OrderTask.taskLess_answered {t : OrderTask} {o : StateOp}
    {k : StateSig.Answer o → Prog StateSig (Except OrderError OrderResponse)}
    (hp : t.program = .call o k) (r : StateSig.Answer o) :
    TaskLess (taskWork (some (t.answered hp r))) (taskWork (some t)) := by
  refine Prod.Lex.right _ (Prod.Lex.left _ _ ?_)
  show Prog.Next (k r) t.program
  rw [hp]
  exact Prog.Next.answered (S := StateSig) o k r

theorem OrderTask.taskLess_replied {t t' : OrderTask} {reply : HandlerReply}
    (h : t.replied reply = some t') : TaskLess (taskWork (some t')) (taskWork (some t)) := by
  unfold OrderTask.replied at h
  split at h
  · next o k hp =>
    obtain ⟨r, -, rfl⟩ := Option.map_eq_some_iff.mp h
    exact OrderTask.taskLess_answered hp r
  · cases h

section Steps

variable {h : List (ServiceEvent lib)} {s s' : Service lib} {e : ServiceEvent lib} {n : ℕ}

/-- **Every step that the service makes by itself leaves less work**, and no new task. -/
theorem ServiceStep.lessWork (run : ServiceRunIf display d allow (Sys.Begun d) h s)
    (hs : ServiceStep display d s e s') (hown : e.own = true) (hbelow : s.Below n) :
    s'.LessWork d n s ∧ s'.Below n := by
  cases hs with
  | arrived | left => cases hown
  | @asked sys t o k i ht hp hw hsys =>
    refine ⟨Service.lessWork_of_task hbelow ht rfl ?_, hbelow.setTask ht _⟩
    refine Prod.Lex.right _ (Prod.Lex.right _ ?_)
    rw [hw]
    exact Nat.zero_lt_one
  | unheard i ht hp hend =>
    exact ⟨Service.lessWork_of_task hbelow ht rfl (OrderTask.taskLess_answered hp _),
      hbelow.setTask ht _⟩
  | responded i ht hp =>
    exact ⟨Service.lessWork_of_task hbelow ht rfl (Prod.Lex.left _ _ Nat.zero_lt_one),
      hbelow.setTask ht _⟩
  | daemon e hs hfollow =>
    have hsys := ServiceRun.sysRun run
    rcases Service.follow_tasks (hs.followed (SysRun.reporting hsys) hfollow) with
      htasks | ⟨i, t, t', reply, ht, hreplied, htasks⟩ | ⟨hother, -⟩
    · refine ⟨.inr ⟨?_, hs.lessWork hsys hown⟩, fun i hi => ?_⟩
      · funext i
        exact congrArg (fun tasks => taskWork (tasks i)) htasks
      · exact (congrFun htasks i).trans (hbelow i hi)
    · refine ⟨Service.lessWork_of_task hbelow ht htasks (OrderTask.taskLess_replied hreplied),
        fun j hj => ?_⟩
      show Service.tasks _ j = none
      rw [htasks]
      exact hbelow.setTask ht (some t') j hj
    · cases hown.symm.trans hother

end Steps

/-! ## The service at rest -/

namespace Service

/-- A step that the service makes by itself. -/
def Goes (display : F64 → String) (d : Deployment lib) (s s' : Service lib) : Prop :=
  ∃ e : ServiceEvent lib, e.own = true ∧ ServiceStep display d s e s'

/-- **The service at rest**: every task has responded, or a tracker is held. -/
structure Rested (display : F64 → String) (d : Deployment lib) (s : Service lib) : Prop where
  still : AtRest (Goes display d) s
  sys : s.sys.Rested d
  tasks : (∀ index < d.chain.length, ¬s.sys.Held index) → ∀ i, s.tasks i = none

end Service

section Rest

variable {h : List (ServiceEvent lib)} {s : Service lib}

/-- Only an answer can be one that the tasks do not follow. -/
theorem Service.reply_of_follow {e : SysEvent lib} (hown : e.own = true)
    (h : s.follow e = none) :
    ∃ x reply taken, e = .daemon x ∧ x.event = .handler (.said ⟨.reply reply, taken⟩) := by
  unfold follow at h
  split at h
  · cases h
  · cases hown
  · split at h
    · cases h
    · cases h
  · rename_i x
    split at h
    · cases h
    · cases h
    · rename_i reply taken he
      exact ⟨x, reply, taken, rfl, he⟩
    · cases h
  · cases h

/-- An answer is one or the other: the task is there to take it, or it is not. -/
theorem Service.Paired.exists_deliver (h : s.Paired) {said : Trace HandlerSig}
    {reply : HandlerReply} {k : Bool → Prog HandlerSig (Except Error HandlerNext)}
    (hpc : s.sys.store.handler.pc = .busy .handling said (.call (.reply reply) k)) :
    ∃ taken s₁, s.deliver reply taken = some s₁ := by
  obtain ⟨request, -, hanswers, -⟩ := h.answers hpc
  cases hserved : s.served with
  | none => exact ⟨true, s, by simp [deliver, hserved]⟩
  | some i =>
    cases ht : s.tasks i with
    | none => exact ⟨false, { s with served := none }, by simp [deliver, hserved, ht]⟩
    | some t =>
      obtain ⟨o, k', hp, r, -, -, hreplied⟩ := hanswers i hserved t ht
      exact ⟨true, _, by simp [deliver, hserved, ht, hreplied]; rfl⟩

/-- When the service is at rest, the daemon is. -/
theorem ServiceRun.still (run : ServiceRunIf display d allow (Sys.Begun d) h s)
    (rest : AtRest (Service.Goes display d) s) : s.sys.Still d := by
  rintro sys ⟨e, hown, hs⟩
  cases hfollow : s.follow e with
  | some s₁ => exact rest _ ⟨.daemon e, hown, .daemon e hs hfollow⟩
  | none =>
    obtain ⟨x, reply, taken, rfl, he⟩ := Service.reply_of_follow hown hfollow
    obtain ⟨phase, said, k, hpc, -, -⟩ := hs.outcome.daemonStep.said he
    have hsys := ServiceRun.sysRun run
    obtain ⟨_, _, _, -, -, hsound⟩ := SysRun.handler_sound hsys
    obtain rfl : phase = .handling := hsound.phase_eq hpc
    have hp := ServiceRun.sound run (by rw [Handler.hasEnded, hpc])
    obtain ⟨taken', s₁, hdeliver⟩ := hp.exists_deliver hpc
    have hquiet : ∀ request answer,
        HandlerEvent.said ⟨.reply reply, taken'⟩ ≠ .said ⟨.db request, answer⟩ := by
      intro request answer heq
      cases heq
    have hother : StoreStep d.account_lifetime s.sys.store.orders
        (.said ⟨.reply reply, taken'⟩) s.sys.store.orders := .other _ _ hquiet
    have hanswer : DaemonStep lib d.account_lifetime s.sys.store _ _ :=
      .handler (.said taken' hpc) hother
    exact rest _ ⟨_, rfl, .daemon _ (.handler (d := d) _ hanswer rfl rfl) hdeliver⟩

/-- **What the service is like at rest.** -/
theorem ServiceRun.rested (run : ServiceRunIf display d allow (Sys.Begun d) h s)
    (rest : AtRest (Service.Goes display d) s) : s.Rested display d := by
  have hsys := SysRun.rested (ServiceRun.sysRun run) (ServiceRun.still run rest)
  refine ⟨rest, hsys, fun free i => Option.eq_none_iff_forall_ne_some.mpr fun t ht => ?_⟩
  cases hp : t.program with
  | done result => exact rest _ ⟨_, rfl, .responded i ht hp⟩
  | call o k =>
    cases hend : s.sys.store.handler.hasEnded with
    | true => exact rest _ ⟨_, rfl, .unheard i ht hp hend⟩
    | false =>
      rcases (hsys.idle free).handler with ⟨hpc, hqueue, -⟩ | ⟨hended, -⟩
      swap
      · cases hend.symm.trans hended
      cases hw : t.waits with
      | false =>
        have hasked : s.sys.outside (.requested o.request) =
            some { s.sys with state_queue := [o.request] } := by
          have hhttp : o.request.fromHttp = true := by cases o <;> rfl
          simp [Sys.outside, hhttp, Sys.tellState, hend, hqueue, capacity]
        exact rest _ ⟨_, rfl, .asked i ht hp hw hasked⟩
      | true =>
        rcases mem_holders.mp ((ServiceRun.placed run).held i t ht hw) with hserved | hmem
        · obtain ⟨said, program, hpc', -⟩ := (ServiceRun.placed run).owes i t hserved ht
          cases hpc.symm.trans hpc'
        · have howned := (ServiceRun.sound run hend).owned
          rw [hqueue] at howned
          rw [List.forall₂_nil_left_iff.mp howned] at hmem
          cases hmem

end Rest

end Kalatori
