import Kalatori.Lib.Progress
import Kalatori.System.Records
import Kalatori.System.Requests

/-!
# The work that is left

The daemon that is left to itself, with nodes that answer, does a bounded amount of
work.  What gives work to others is compared before them: a block in the queue of a
tracker makes a program, the programs of the trackers make messages to the state
handler, a message makes a program of the handler, and the handler and the task
that restores the orders make requests, which go from channel to channel until
they are answered.  Nothing goes the other way.

A tracker that goes to another endpoint begins anew, as often as it does, so that is
no step of the daemon by itself; nor is what comes from outside.

* `SysEvent.own`: the steps that the daemon makes by itself.
* `Sys.LessWork`, `Sys.lessWork_wf`: the order of the work.
* `SysStep.lessWork`: each such step leaves less.
-/

namespace Kalatori

open Program Transition

variable {lib : Libraries} {d : Deployment lib}
  {allow : List (SysEvent lib) → Sys lib → SysEvent lib → Prop}

/-- **A step that the daemon makes by itself**: nothing comes from outside, no tracker leaves
its endpoint or takes one, and the daemon is not restarted. -/
def SysEvent.own : SysEvent lib → Bool
  | .outside (.payoutBegun _) | .outside (.dropped _) => true
  | .outside (.requested _) | .outside (.blockSeen ..) | .outside .cancelled
  | .outside .databaseStopped => false
  | .daemon x =>
    match x.event with
    | .handler _ => true
    | .restarted => false
  | .restore _ | .manager _ => true
  | .tracker _ x =>
    match x.event with
    | .turned | .timedOut => false
    | .stopped _ | .said _ | .settled _ | .received _ => true

/-! ## The work of each task -/

/-- What a tracker has to do: it serves requests after a program, and ends at the head of its
loop. -/
def TrackerPc.work :
    TrackerPc lib → ℕ × Prog (TrackerSig lib) (Except Stop (Continuation lib))
  | .busy _ job => (3, job)
  | .serve _ => (2, .done (.error .panicked))
  | .rotate => (1, .done (.error .panicked))
  | .ended _ => (0, .done (.error .panicked))

/-- What the state handler has to do: it listens after its start and after a request, and ends
after the shutdown. -/
def HandlerPc.work : HandlerPc → ℕ × Prog HandlerSig (Except Error HandlerNext)
  | .busy .starting _ program | .busy .handling _ program => (3, program)
  | .listening => (2, .done (.error .fatal))
  | .busy .winding _ program => (1, program)
  | .ended _ => (0, .done (.error .fatal))

/-- What the manager has to do, counted in steps to come. -/
def ManagerPc.work : ManagerPc → ℕ
  | .forward _ _ => 4
  | .serve => 1
  | .drain left => 4 * left.length + 1
  | .wait left => 4 * left.length + 2
  | .ended => 0

def ChainTrackerRequest.isBlock : ChainTrackerRequest → Bool
  | .newBlock _ => true
  | .watchAccount _ | .reap _ | .shutdown => false

namespace Sys

/-- The blocks that wait for a tracker. -/
def blocks (d : Deployment lib) (s : Sys lib) : ℕ :=
  ∑ index ∈ Finset.range d.chain.length,
    (s.tracker_queue index).countP ChainTrackerRequest.isBlock

def trackerWork (d : Deployment lib) (s : Sys lib) (index : Fin d.chain.length) :
    ℕ × Prog (TrackerSig lib) (Except Stop (Continuation lib)) :=
  (s.trackers index).pc.work

def restoreWork (s : Sys lib) : Prog RestoreSig Unit :=
  match s.restore with
  | some (_, program) => program
  | none => .done ()

/-- The requests in the channels of the trackers. -/
def queued (d : Deployment lib) (s : Sys lib) : ℕ :=
  ∑ index ∈ Finset.range d.chain.length, (s.tracker_queue index).length

/-- The steps that a request in the channel of the manager makes at most.  One for a shutdown makes
some for each tracker. -/
def requestWork (d : Deployment lib) : ℕ := 4 * d.routes.watch_chain.entries.length + 4

/-- The requests on their way, each counted by the steps that it still has to make. -/
def traffic (d : Deployment lib) (s : Sys lib) : ℕ :=
  requestWork d * s.manager_queue.length + s.manager.work + 2 * s.queued d + s.payouts.length

/-- **There is less work.** -/
def LessWork (d : Deployment lib) : Sys lib → Sys lib → Prop :=
  Layered (blocks d) (· < ·) <|
  Layered (trackerWork d) (OneLess Prog.StagedLess) <|
  Layered (fun s => s.state_queue.length) (· < ·) <|
  Layered (fun s => s.store.handler.pc.work) Prog.StagedLess <|
  Layered restoreWork Prog.Next <|
  Layered (traffic d) (· < ·) fun _ _ => False

theorem lessWork_wf (d : Deployment lib) : WellFounded (LessWork d) :=
  layered_wf wellFounded_lt <|
  layered_wf (oneLess_wf Prog.stagedLess_wf) <|
  layered_wf wellFounded_lt <|
  layered_wf Prog.stagedLess_wf <|
  layered_wf Prog.next_wf <|
  layered_wf wellFounded_lt ⟨fun s => Acc.intro s fun _ h => h.elim⟩

section Layers

variable {s s' : Sys lib}

theorem lessWork_of_blocks (h : s'.blocks d < s.blocks d) : s'.LessWork d s := .inl h

theorem lessWork_of_tracker (hb : s'.blocks d = s.blocks d)
    (h : OneLess Prog.StagedLess (s'.trackerWork d) (s.trackerWork d)) : s'.LessWork d s :=
  .inr ⟨hb, .inl h⟩

theorem lessWork_of_queue (hb : s'.blocks d = s.blocks d) (ht : s'.trackers = s.trackers)
    (h : s'.state_queue.length < s.state_queue.length) : s'.LessWork d s := by
  refine .inr ⟨hb, .inr ⟨?_, .inl h⟩⟩
  unfold trackerWork
  rw [ht]

theorem lessWork_of_handler (hb : s'.blocks d = s.blocks d) (ht : s'.trackers = s.trackers)
    (hq : s'.state_queue = s.state_queue)
    (h : Prog.StagedLess s'.store.handler.pc.work s.store.handler.pc.work) :
    s'.LessWork d s := by
  refine .inr ⟨hb, .inr ⟨?_, .inr ⟨congrArg List.length hq, .inl h⟩⟩⟩
  unfold trackerWork
  rw [ht]

theorem lessWork_of_restore (hb : s'.blocks d = s.blocks d) (ht : s'.trackers = s.trackers)
    (hq : s'.state_queue = s.state_queue) (hs : s'.store = s.store)
    (h : Prog.Next s'.restoreWork s.restoreWork) : s'.LessWork d s := by
  refine .inr ⟨hb, .inr ⟨?_, .inr ⟨congrArg List.length hq, .inr ⟨?_, .inl h⟩⟩⟩⟩
  · unfold trackerWork
    rw [ht]
  · exact congrArg (fun store => store.handler.pc.work) hs

theorem lessWork_of_traffic (hb : s'.blocks d = s.blocks d)
    (ht : s'.trackerWork d = s.trackerWork d) (hq : s'.state_queue = s.state_queue)
    (hs : s'.store = s.store) (hr : s'.restore = s.restore) (h : s'.traffic d < s.traffic d) :
    s'.LessWork d s := by
  refine .inr ⟨hb, .inr ⟨ht, .inr ⟨congrArg List.length hq, .inr ⟨?_, .inr ⟨?_, .inl h⟩⟩⟩⟩⟩
  · exact congrArg (fun store => store.handler.pc.work) hs
  · unfold restoreWork
    rw [hr]

end Layers

end Sys

/-! ## The steps of a task -/

theorem HandlerStep.stagedLess {s s' : Handler} {e : HandlerEvent} (hs : HandlerStep lib s e s')
    (hreceived : ∀ request, e ≠ .received request)
    (hwinds : ∀ said state, s.pc ≠ .busy .winding said (.done (.ok (.listen state)))) :
    Prog.StagedLess s'.pc.work s.pc.work := by
  cases hs with
  | @said phase said o k answer hpc =>
    rw [hpc]
    cases phase with
    | starting | handling => exact .answered 3 answer
    | winding => exact .answered 1 answer
  | @settled phase said result hpc =>
    rw [hpc]
    rcases result with e | state | _
    · cases phase with
      | starting | handling | winding => exact .stage (by decide) _ _
    · cases phase with
      | starting | handling => exact .stage (by decide) _ _
      | winding => exact absurd hpc (hwinds said state)
    · cases phase with
      | starting | handling | winding => exact .stage (by decide) _ _
  | received request => exact absurd rfl (hreceived request)
  | closed hpc | notified hpc =>
    rw [hpc]
    exact .stage (by decide) _ _

/-- A tracker that takes no request. -/
theorem TrackerStep.stagedLess {chain : Chain} {t t' : Tracker lib} {e : TrackerEvent lib}
    (hs : TrackerStep chain t e t') (hreceived : ∀ request, e ≠ .received request)
    (hown : e ≠ .turned ∧ e ≠ .timedOut) : Prog.StagedLess t'.pc.work t.pc.work := by
  cases hs with
  | stopped _ hpc =>
    rw [hpc]
    exact .stage (by decide) _ _
  | turned => exact absurd rfl hown.1
  | said answer hpc =>
    rw [hpc]
    exact .answered 3 answer
  | @settled _ result hpc =>
    rw [hpc]
    rcases result with _ | _ | _ <;> exact .stage (by decide) _ _
  | received request => exact absurd rfl (hreceived request)
  | timedOut => exact absurd rfl hown.2

/-- A tracker that takes a request. -/
theorem TrackerStep.work_received {chain : Chain} {t t' : Tracker lib}
    {request : ChainTrackerRequest} (hs : TrackerStep chain t (.received request) t') :
    request.isBlock = true ∨ t'.pc.work = t.pc.work ∨ Prog.StagedLess t'.pc.work t.pc.work := by
  cases hs with
  | received _ hpc =>
    cases request with
    | newBlock => exact .inl rfl
    | watchAccount | reap => exact .inr (.inl rfl)
    | shutdown =>
      refine .inr (.inr ?_)
      rw [hpc]
      exact .stage (by decide) _ _

/-! ## The channels of the trackers -/

section Queues

variable {s s' : Sys lib} {index : ℕ} {v : List ChainTrackerRequest}

/-- A measure that the change leaves alone. -/
theorem sum_update_eq (n : ℕ) (queue : ℕ → List ChainTrackerRequest)
    (measure : List ChainTrackerRequest → ℕ) (hv : measure v = measure (queue index)) :
    (∑ i ∈ Finset.range n, measure (Function.update queue index v i)) =
      ∑ i ∈ Finset.range n, measure (queue i) := by
  refine Finset.sum_congr rfl fun i _ => ?_
  by_cases hi : i = index
  · rw [hi, Function.update_self, hv]
  · rw [Function.update_of_ne hi]

namespace Sys

theorem blocks_push (request : ChainTrackerRequest) (hblock : request.isBlock = false)
    (hq : s'.tracker_queue = Function.update s.tracker_queue index
      (s.tracker_queue index ++ [request])) : s'.blocks d = s.blocks d := by
  rw [blocks, hq]
  refine sum_update_eq _ _ (fun queue => queue.countP ChainTrackerRequest.isBlock) ?_
  show (s.tracker_queue index ++ [request]).countP _ = (s.tracker_queue index).countP _
  rw [List.countP_append, List.countP_singleton, if_neg (by simp [hblock]), Nat.add_zero]

/-- A request leaves the channel of a tracker. -/
theorem blocks_pop {request : ChainTrackerRequest} {rest : List ChainTrackerRequest}
    (hn : index < d.chain.length) (hqueue : s.tracker_queue index = request :: rest)
    (hq : s'.tracker_queue = Function.update s.tracker_queue index rest) :
    s'.blocks d < s.blocks d ∨ request.isBlock = false ∧ s'.blocks d = s.blocks d := by
  have hsum := sum_update s.tracker_queue
    (fun queue => queue.countP ChainTrackerRequest.isBlock) rest hn
  simp only [hqueue, List.countP_cons] at hsum
  rw [← hq] at hsum
  change s'.blocks d + _ = s.blocks d + _ at hsum
  cases hblock : request.isBlock with
  | true =>
    refine .inl ?_
    rw [hblock] at hsum
    simp only [↓reduceIte] at hsum
    omega
  | false =>
    refine .inr ⟨rfl, ?_⟩
    rw [hblock] at hsum
    simp only [Bool.false_eq_true, ↓reduceIte] at hsum
    omega

theorem queued_push (request : ChainTrackerRequest)
    (hq : s'.tracker_queue = Function.update s.tracker_queue index
      (s.tracker_queue index ++ [request])) : s'.queued d ≤ s.queued d + 1 := by
  by_cases hn : index < d.chain.length
  · have hsum := sum_update s.tracker_queue List.length (s.tracker_queue index ++ [request]) hn
    rw [← hq, List.length_append, List.length_singleton] at hsum
    change s'.queued d + _ = s.queued d + _ at hsum
    omega
  · have hsame : s'.queued d = s.queued d := by
      refine Finset.sum_congr rfl fun i hi => ?_
      rw [hq, Function.update_of_ne]
      rintro rfl
      exact hn (Finset.mem_range.mp hi)
    omega

theorem queued_pop {request : ChainTrackerRequest} {rest : List ChainTrackerRequest}
    (hn : index < d.chain.length) (hqueue : s.tracker_queue index = request :: rest)
    (hq : s'.tracker_queue = Function.update s.tracker_queue index rest) :
    s'.queued d + 1 = s.queued d := by
  have hsum := sum_update s.tracker_queue List.length rest hn
  rw [← hq, hqueue, List.length_cons] at hsum
  change s'.queued d + _ = s.queued d + _ at hsum
  omega

end Sys

end Queues

/-! ## What is true of the tasks -/

/-- A tracker of a chain that is not configured is not there, the manager sends a request on to
where it is routed, and the handler does not listen after its shutdown. -/
structure Sys.Steady (d : Deployment lib) (s : Sys lib) : Prop where
  absent : ∀ index, d.chain.length ≤ index → s.trackers index = .start
  forwards : ∀ index request, s.manager = .forward index request →
    ∃ w, request.account = some w ∧ d.routes.route w.currency = .ok index
  winds : ∀ said state, s.store.handler.pc ≠ .busy .winding said (.done (.ok (.listen state)))

theorem Outcome.absent {s s' : Sys lib} {e : SysEvent lib} (ho : Outcome d s e s') {index : ℕ}
    (hn : d.chain.length ≤ index) (h : s.trackers index = .start) :
    s'.trackers index = .start := by
  rcases ho.trackers index with heq | heq | ⟨chain, x, -, hc, -⟩
  · exact heq.trans h
  · exact heq
  · rw [List.getElem?_eq_none hn] at hc
    cases hc

theorem Outcome.forwards {s s' : Sys lib} {e : SysEvent lib} (ho : Outcome d s e s')
    (h : ∀ index request, s.manager = .forward index request →
      ∃ w, request.account = some w ∧ d.routes.route w.currency = .ok index)
    (index : ℕ) (request : ChainTrackerRequest) (hpc : s'.manager = .forward index request) :
    ∃ w, request.account = some w ∧ d.routes.route w.currency = .ok index := by
  cases ho with
  | routed request' rest account forward index' _ _ hreq hroute =>
    obtain ⟨rfl, rfl⟩ := ManagerPc.forward.inj hpc
    exact ⟨account, (account_of_forTracker hreq).2, hroute⟩
  | restarted | winding | forwarded | asked | skipped | waited | finished | closed => cases hpc
  | lost =>
    rw [Sys.drop_manager] at hpc
    cases hpc
  | droppedTracker =>
    rw [Sys.drop_manager] at hpc
    exact h _ _ hpc
  | took =>
    rw [Sys.accept_manager] at hpc
    exact h _ _ hpc
  | _ => exact h _ _ hpc

theorem SysRun.steady {h : List (SysEvent lib)} {s : Sys lib} (run : SysRunIf d allow h s) :
    s.Steady d := by
  refine ⟨fun index hn => ?_, ?_, fun said state hpc => ?_⟩
  · refine run.invariant (P := fun _ s => s.trackers index = .start) ?_ ?_
    · rintro s ⟨orders, -, rfl⟩
      rfl
    · rintro h s e s' - ih - hs
      exact hs.outcome.absent hn ih
  · refine run.invariant (P := fun _ s => ∀ index request, s.manager = .forward index request →
      ∃ w, request.account = some w ∧ d.routes.route w.currency = .ok index) ?_ ?_
    · rintro s ⟨orders, -, rfl⟩ index request hpc
      cases hpc
    · rintro h s e s' - ih - hs
      exact hs.outcome.forwards ih
  · obtain ⟨_, _, _, -, -, hsound⟩ := SysRun.handler_sound run
    cases hsound with
    | winding hpc' _ hwound =>
      obtain ⟨-, rfl, rfl⟩ := HandlerPc.busy.inj (hpc'.symm.trans hpc)
      cases hwound.1
    | _ hpc' => cases hpc'.symm.trans hpc

/-! ## The step -/

section Steps

variable {s s' : Sys lib}

/-- One tracker has less to do. -/
theorem Sys.oneLess_of_turn {index : ℕ} {chain : Chain} {t' : Tracker lib}
    (hc : d.chain[index]? = some chain) (ht : s'.trackers = Function.update s.trackers index t')
    (h : Prog.StagedLess t'.pc.work (s.trackers index).pc.work) :
    OneLess Prog.StagedLess (s'.trackerWork d) (s.trackerWork d) := by
  obtain ⟨hn, -⟩ := List.getElem?_eq_some_iff.mp hc
  refine ⟨⟨index, hn⟩, ?_, fun j hj => ?_⟩
  · show Prog.StagedLess (s'.trackers index).pc.work (s.trackers index).pc.work
    rw [ht, Function.update_self]
    exact h
  · show (s'.trackers j).pc.work = (s.trackers j).pc.work
    rw [ht, Function.update_of_ne fun h => hj (Fin.ext h)]

/-- A step of the manager. -/
theorem Sys.lessWork_of_manager (hqueues : s'.tracker_queue = s.tracker_queue)
    (ht : s'.trackers = s.trackers) (hq : s'.state_queue = s.state_queue)
    (hs : s'.store = s.store) (hr : s'.restore = s.restore) (hp : s'.payouts = s.payouts)
    (h : requestWork d * s'.manager_queue.length + s'.manager.work <
      requestWork d * s.manager_queue.length + s.manager.work) : s'.LessWork d s := by
  refine lessWork_of_traffic ?_ ?_ hq hs hr ?_
  · rw [blocks, hqueues, blocks]
  · unfold trackerWork
    rw [ht]
  · unfold traffic queued
    rw [hqueues, hp]
    omega

/-- The manager puts a request into the channel of a tracker. -/
theorem Sys.lessWork_of_push {index : ℕ} (request : ChainTrackerRequest)
    (hblock : request.isBlock = false)
    (hqueues : s'.tracker_queue = Function.update s.tracker_queue index
      (s.tracker_queue index ++ [request]))
    (ht : s'.trackers = s.trackers) (hq : s'.state_queue = s.state_queue)
    (hs : s'.store = s.store) (hr : s'.restore = s.restore) (hp : s'.payouts = s.payouts)
    (hm : s'.manager_queue = s.manager_queue) (h : s'.manager.work + 2 < s.manager.work) :
    s'.LessWork d s := by
  have hqueued := queued_push (d := d) request hqueues
  refine lessWork_of_traffic (blocks_push request hblock hqueues) ?_ hq hs hr ?_
  · unfold trackerWork
    rw [ht]
  · unfold traffic
    rw [hm, hp]
    omega

/-- A request in the channel of a tracker is dropped. -/
theorem Sys.lessWork_of_drop {index : ℕ} {request : ChainTrackerRequest}
    {rest : List ChainTrackerRequest} (hn : index < d.chain.length)
    (hqueue : s.tracker_queue index = request :: rest)
    (hqueues : s'.tracker_queue = Function.update s.tracker_queue index rest)
    (ht : s'.trackers = s.trackers) (hq : s'.state_queue = s.state_queue)
    (hs : s'.store = s.store) (hr : s'.restore = s.restore) (hp : s'.payouts = s.payouts)
    (hm : s'.manager_queue = s.manager_queue) (hpc : s'.manager = s.manager) :
    s'.LessWork d s := by
  rcases blocks_pop hn hqueue hqueues with hless | ⟨-, hsame⟩
  · exact lessWork_of_blocks hless
  · have hqueued := queued_pop hn hqueue hqueues
    refine lessWork_of_traffic hsame ?_ hq hs hr ?_
    · unfold trackerWork
      rw [ht]
    · unfold traffic
      rw [hm, hp, hpc]
      omega

theorem Sys.payouts_accept (s : Sys lib) (request : ChainTrackerRequest) :
    (s.accept request).payouts.length ≤ s.payouts.length + 1 := by
  cases request with
  | reap w => exact (List.length_append ..).le
  | watchAccount | newBlock | shutdown => exact Nat.le_add_right _ _

/-- A tracker takes a request. -/
theorem Sys.lessWork_of_take {index : ℕ} {chain : Chain} {t' : Tracker lib}
    {request : ChainTrackerRequest} {rest : List ChainTrackerRequest}
    (hc : d.chain[index]? = some chain)
    (hturn : TrackerStep chain (s.trackers index) (.received request) t')
    (hqueue : s.tracker_queue index = request :: rest)
    (hqueues : s'.tracker_queue = Function.update s.tracker_queue index rest)
    (ht : s'.trackers = Function.update s.trackers index t')
    (hq : s'.state_queue = s.state_queue) (hs : s'.store = s.store) (hr : s'.restore = s.restore)
    (hp : s'.payouts.length ≤ s.payouts.length + 1) (hm : s'.manager_queue = s.manager_queue)
    (hpc : s'.manager = s.manager) : s'.LessWork d s := by
  obtain ⟨hn, -⟩ := List.getElem?_eq_some_iff.mp hc
  rcases blocks_pop hn hqueue hqueues with hless | ⟨hblock, hsame⟩
  · exact lessWork_of_blocks hless
  · rcases hturn.work_received with hnew | heq | hless
    · cases hblock.symm.trans hnew
    · have hqueued := queued_pop hn hqueue hqueues
      refine lessWork_of_traffic hsame ?_ hq hs hr ?_
      · funext j
        show (s'.trackers j).pc.work = (s.trackers j).pc.work
        rw [ht]
        by_cases hj : (j : ℕ) = index
        · rw [hj, Function.update_self, heq]
        · rw [Function.update_of_ne hj]
      · unfold traffic
        rw [hm, hpc]
        omega
    · exact lessWork_of_tracker hsame (oneLess_of_turn hc ht hless)

end Steps

theorem Outcome.lessWork {s s' : Sys lib} {e : SysEvent lib} (ho : Outcome d s e s')
    (hown : e.own = true) (h : s.Steady d) : s'.LessWork d s := by
  -- A step of the handler that takes nothing from its queue.
  have hhandler : ∀ {x : DaemonTurn} {store' : HandlerStore} {ev : HandlerEvent},
      DaemonStep lib d.account_lifetime s.store x store' → x.event = .handler ev →
      (∀ request, ev ≠ .received request) →
      Prog.StagedLess store'.handler.pc.work s.store.handler.pc.work := by
    intro x store' ev hx he hreceived
    rcases hx.handlerStep with ⟨ev', he', hstep⟩ | hrestart
    · obtain rfl := DaemonEvent.handler.inj (he.symm.trans he')
      exact hstep.stagedLess hreceived h.winds
    · cases he.symm.trans hrestart
  cases ho with
  | requested | blockSeen | cancelled | databaseStopped | restarted => cases hown
  | payoutBegun request hmem =>
    have hlength := List.length_erase_of_mem hmem
    have hpos := List.length_pos_of_mem hmem
    refine Sys.lessWork_of_traffic rfl rfl rfl rfl rfl ?_
    show Sys.requestWork d * s.manager_queue.length + s.manager.work + 2 * s.queued d +
      (s.payouts.erase request).length < s.traffic d
    unfold Sys.traffic
    omega
  | droppedTracker index request rest hend hqueue =>
    have hn : index < d.chain.length := by
      by_contra hge
      rw [h.absent index (Nat.le_of_not_lt hge)] at hend
      cases hend
    exact Sys.lessWork_of_drop hn hqueue (by simp) (by simp) (by simp) (by simp) (by simp)
      (by simp) (by simp) (by simp)
  | handler ev hx he hquiet =>
    refine Sys.lessWork_of_handler rfl rfl rfl (hhandler hx he ?_)
    rintro request rfl
    exact hquiet
  | spawned _ hx he | handlerSent _ hx he | handlerAnswered _ hx he | databaseShutDown hx he =>
    exact Sys.lessWork_of_handler rfl rfl rfl (hhandler hx he fun _ heq => (by cases heq))
  | received request rest hx he hqueue =>
    refine Sys.lessWork_of_queue rfl rfl ?_
    rw [hqueue]
    exact Nat.lt_succ_self _
  | @restoreSent request taken _ k hp =>
    refine Sys.lessWork_of_restore rfl rfl rfl rfl ?_
    unfold Sys.restoreWork
    rw [hp]
    exact .answered (S := RestoreSig) (.send request) k taken
  | @restoreAnswered result _ k hp =>
    refine Sys.lessWork_of_restore rfl rfl rfl rfl ?_
    unfold Sys.restoreWork
    rw [hp]
    exact .answered (S := RestoreSig) .await k result
  | refused request rest account forward e hpc hqueue =>
    refine Sys.lessWork_of_manager rfl rfl rfl rfl rfl rfl ?_
    show Sys.requestWork d * rest.length + s.manager.work < _
    rw [hqueue, List.length_cons, Nat.mul_succ, Sys.requestWork]
    omega
  | routed request rest account forward index hpc hqueue =>
    refine Sys.lessWork_of_manager rfl rfl rfl rfl rfl rfl ?_
    rw [hqueue, hpc, List.length_cons, Nat.mul_succ]
    simp only [ManagerPc.work, Sys.requestWork]
    omega
  | winding watch_chain rest hpc hqueue hperm =>
    refine Sys.lessWork_of_manager rfl rfl rfl rfl rfl rfl ?_
    have hlength := hperm.length_eq
    rw [hqueue, hpc, List.length_cons, Nat.mul_succ]
    simp only [ManagerPc.work, Sys.requestWork]
    omega
  | forwarded index request hpc =>
    obtain ⟨w, haccount, -⟩ := h.forwards index request hpc
    have hblock : request.isBlock = false := by
      cases request with
      | newBlock => cases haccount
      | watchAccount | reap | shutdown => rfl
    refine Sys.lessWork_of_push request hblock rfl rfl rfl rfl rfl rfl rfl ?_
    rw [hpc]
    exact (by decide : 1 + 2 < 4)
  | lost index request hpc =>
    refine Sys.lessWork_of_manager (by simp) (by simp) (by simp) (by simp) (by simp) (by simp) ?_
    rw [Sys.drop_manager_queue, Sys.drop_manager, hpc]
    simp only [ManagerPc.work]
    omega
  | asked name index rest hpc =>
    refine Sys.lessWork_of_push .shutdown rfl rfl rfl rfl rfl rfl rfl rfl ?_
    rw [hpc]
    simp only [ManagerPc.work, List.length_cons]
    omega
  | skipped name index rest hpc | waited rest hpc | finished hpc | closed hpc =>
    refine Sys.lessWork_of_manager rfl rfl rfl rfl rfl rfl ?_
    rw [hpc]
    simp only [ManagerPc.work, List.length_cons]
    omega
  | dropped account request forward rest hpc hqueue =>
    refine Sys.lessWork_of_manager rfl rfl rfl rfl rfl rfl ?_
    show Sys.requestWork d * rest.length + s.manager.work < _
    rw [hqueue, List.length_cons, Nat.mul_succ, Sys.requestWork]
    omega
  | droppedShutdown rest hpc hqueue =>
    refine Sys.lessWork_of_manager rfl rfl rfl rfl rfl rfl ?_
    show Sys.requestWork d * rest.length + s.manager.work < _
    rw [hqueue, List.length_cons, Nat.mul_succ, Sys.requestWork]
    omega
  | @tracker index chain x t' hc hturn hquiet =>
    obtain ⟨-, -, hstep⟩ := hturn
    refine Sys.lessWork_of_tracker rfl (Sys.oneLess_of_turn hc rfl (hstep.stagedLess ?_ ?_))
    · rintro request heq
      rw [heq] at hquiet
      cases request with
      | newBlock | watchAccount | reap | shutdown => exact hquiet
    · refine ⟨fun heq => ?_, fun heq => ?_⟩
      · simp only [SysEvent.own, heq] at hown
        cases hown
      · simp only [SysEvent.own, heq] at hown
        cases hown
  | told index message hc hturn he =>
    obtain ⟨-, -, hstep⟩ := hturn
    rw [he] at hstep
    exact Sys.lessWork_of_tracker rfl (Sys.oneLess_of_turn hc rfl
      (hstep.stagedLess (fun _ h => (by cases h)) ⟨fun h => (by cases h), fun h => (by cases h)⟩))
  | took index request rest hc hturn he hqueue =>
    obtain ⟨-, -, hstep⟩ := hturn
    rw [he] at hstep
    exact Sys.lessWork_of_take hc hstep hqueue (by simp) (by simp) (by simp) (by simp) (by simp)
      (Sys.payouts_accept _ request) (by simp) (by simp)

/-- **Every step that the daemon makes by itself leaves less work.** -/
theorem SysStep.lessWork {h : List (SysEvent lib)} {s s' : Sys lib} {e : SysEvent lib}
    (run : SysRunIf d allow h s) (hs : SysStep d s e s') (hown : e.own = true) :
    s'.LessWork d s :=
  hs.outcome.lessWork hown (SysRun.steady run)

end Kalatori
