import Kalatori.Chain.Submission
import Kalatori.Lib.Flow
import Kalatori.System.Authors
import Kalatori.System.Requests

/-!
# One submission for an order

The handler calls `reap` at most once for an order.  What happens
then is spread over four tasks and their channels: the request waits for the
manager, is with the manager, waits for a tracker, becomes a payout that has yet
to begin, runs.  None of these steps doubles a request, and a payout submits one
extrinsic at most, so there is one submission at most for a call.

`PayoutSys.onTheWay` counts the requests of an order that may still lead to a
submission, wherever they are.

* `PayoutRun.follows`: a payout that runs is what is left of the program `payout`.
* `PayoutStep.onTheWay`: no step adds to the count but the call of `reap`.
* `submittedOnce`: one submission for an order, in every run and across restarts.
-/

namespace Kalatori

open Program Transition

variable {lib : Libraries} {d : Deployment lib} {engine : PayoutEngine lib}
  {allow : List (PayoutEvent lib) → PayoutSys lib → PayoutEvent lib → Prop} {init : Sys lib → Prop}

/-! ## The payouts that run -/

/-- A payout that runs is what is left of its program. -/
def PayoutTask.Follows (engine : PayoutEngine lib) (task : PayoutTask lib) : Prop :=
  ∃ rpc, Prog.After (payout engine.con engine.overflow_checks rpc task.order task.chain).run
    task.said task.program

theorem PayoutStep.follows {s s' : PayoutSys lib} {e : PayoutEvent lib}
    (hs : PayoutStep d engine s e s') (h : ∀ task ∈ s.running, task.Follows engine) :
    ∀ task ∈ s'.running, task.Follows engine := by
  intro task hmem
  cases hs with
  | daemon => exact h task (PayoutSys.mem_follow_running hmem)
  | @began _ c =>
    rcases List.mem_append.mp hmem with hmem | hmem
    · exact h task hmem
    · obtain rfl := List.mem_singleton.mp hmem
      exact ⟨c.rpc, .refl _⟩
  | @said task' o k n answer ht hp =>
    rcases List.mem_or_eq_of_mem_set hmem with hmem | rfl
    · exact h task hmem
    · obtain ⟨rpc, hafter⟩ := h task' (List.mem_of_getElem? ht)
      rw [hp] at hafter
      exact ⟨rpc, hafter.snoc answer⟩

theorem PayoutRun.follows {h : List (PayoutEvent lib)} {s : PayoutSys lib}
    (run : PayoutRunIf d engine allow init h s) : ∀ task ∈ s.running, task.Follows engine := by
  refine run.invariant (P := fun _ s => ∀ task ∈ s.running, task.Follows engine) ?_ ?_
  · rintro s ⟨sys, -, rfl⟩
    exact nofun
  · exact fun h s e s' _ ih _ hs => hs.follows ih

/-- What a payout that runs submits. -/
theorem PayoutTask.Follows.submits {task : PayoutTask lib} (h : task.Follows engine)
    {extrinsic : List UInt8}
    {k : Except Stop Unit → Prog (PayoutSig lib) (Except Stop Unit)}
    (hp : task.program = .call (.rpc (.sendStuff extrinsic)) k) :
    Submits engine.con engine.overflow_checks task.order task.chain task.said extrinsic := by
  obtain ⟨rpc, hafter⟩ := h
  have hholds := (payout_submits rpc).after hafter
  rw [hp] at hholds
  exact hholds.1 extrinsic rfl

/-! ## Counting -/

/-- A request for the payout of an order. -/
def ChainRequest.reaps (id : String) : ChainRequest → Bool
  | .reap w => w.id = id
  | .watchAccount _ | .shutdown => false

def ChainTrackerRequest.reaps (id : String) : ChainTrackerRequest → Bool
  | .reap w => w.id = id
  | .newBlock _ | .watchAccount _ | .shutdown => false

/-- The request that the handler is about to send, as a number. -/
def Handler.reaping (id : String) (s : Handler) : ℕ :=
  match s.pc with
  | .busy _ _ (.call (.send request) _) => (request.reaps id).toNat
  | _ => 0

/-- The request that the manager is about to send on, as a number. -/
def ManagerPc.reaping (id : String) : ManagerPc → ℕ
  | .forward _ request => (request.reaps id).toNat
  | .serve | .drain _ | .wait _ | .ended => 0

/-- The requests for the payout of an order that no tracker has taken, with the channels of the
first `n` trackers. -/
def Sys.reaping (n : ℕ) (id : String) (s : Sys lib) : ℕ :=
  s.store.handler.reaping id + s.manager_queue.countP (ChainRequest.reaps id) +
    s.manager.reaping id +
    ∑ index ∈ Finset.range n, (s.tracker_queue index).countP (ChainTrackerRequest.reaps id)

/-- A payout of the order that has submitted nothing. -/
def PayoutTask.unsent (id : String) (task : PayoutTask lib) : Bool :=
  decide (task.order.id = id) && !submitted task.said

/-- **What may still lead to a submission for an order.** -/
def PayoutSys.onTheWay (id : String) (n : ℕ) (s : PayoutSys lib) : ℕ :=
  s.sys.reaping n id + s.spawned.countP (fun c => c.request.id = id) +
    s.running.countP (PayoutTask.unsent id)

/-- The handler calls `reap` for the order. -/
def DaemonTurn.reapsOrder (id : String) (x : DaemonTurn) : Bool :=
  match x.event with
  | .handler (.said ⟨.reap id' _, _⟩) => id' = id
  | _ => false

def SysEvent.reapsOrder (id : String) : SysEvent lib → Bool
  | .daemon x => x.reapsOrder id
  | .outside _ | .restore _ | .manager _ | .tracker .. => false

def PayoutEvent.reapsOrder (id : String) : PayoutEvent lib → Bool
  | .daemon e => e.reapsOrder id
  | .said .. => false

/-- A tracker takes the request for the payout of the order. -/
def SysEvent.spawns (id : String) : SysEvent lib → Bool
  | .tracker _ x =>
    match x.event with
    | .received request => request.reaps id
    | _ => false
  | .outside _ | .daemon _ | .restore _ | .manager _ => false

/-- A payout of the order submits an extrinsic. -/
def PayoutEvent.submits (id : String) : PayoutEvent lib → Bool
  | .said task exchange => decide (task.order.id = id) && exchange.1.submits
  | .daemon _ => false

/-! ## What a step of the daemon does to the count -/

theorem marked_eq_append (id : String) (order : OrderInfo) :
    marked id order = [⟨.db (.markPaid id), .ok order⟩] ++ [⟨.reap id order, ()⟩] := rfl

/-- The handler is about to send the request directly after it called `reap`. -/
theorem DaemonStep.reaping_le {account_lifetime : Timestamp} {s s' : HandlerStore}
    {x : DaemonTurn} {h : List DaemonTurn} (hs : DaemonStep lib account_lifetime s x s')
    (hsound : DaemonSound lib h s') (id : String) :
    s'.handler.reaping id ≤ (x.reapsOrder id).toNat := by
  unfold Handler.reaping
  split
  · next phase said request k hpc =>
    cases hreaps : request.reaps id with
    | false => exact Nat.zero_le _
    | true =>
      obtain ⟨w, rfl, rfl⟩ : ∃ w, request = .reap w ∧ w.id = id := by
        cases request with
        | reap w => exact ⟨w, rfl, of_decide_eq_true hreaps⟩
        | watchAccount | shutdown => cases hreaps
      obtain ⟨_, _, events, -, -, hcall⟩ := hsound
      obtain ⟨-, _, _, -, ho⟩ := hcall.handles hpc rfl
      cases ho with
      | reap id order _ hr =>
        obtain ⟨said₀, exchange, program, hsaid, he, -⟩ := hs.said_snoc hpc (List.cons_ne_nil _ _)
        rw [marked_eq_append] at hsaid
        obtain ⟨-, hlast⟩ := List.append_inj' hsaid rfl
        rw [DaemonTurn.reapsOrder, he, ← (List.cons.inj hlast).1, WatchAccount.new_id hr]
        simp
  · exact Nat.zero_le _

theorem reaps_of_forTracker {request : ChainRequest} {account : WatchAccount}
    {forward : ChainTrackerRequest} (h : request.forTracker = some (account, forward))
    (id : String) : forward.reaps id = request.reaps id := by
  cases request with
  | watchAccount | reap =>
    obtain ⟨rfl, rfl⟩ := Prod.mk.inj (Option.some.inj h)
    rfl
  | shutdown => cases h

/-- A step of the handler in which it sends a request. -/
theorem DaemonStep.reaping_of_sent {account_lifetime : Timestamp} {s s' : HandlerStore}
    {x : DaemonTurn} {request : ChainRequest} {taken : Bool}
    (hs : DaemonStep lib account_lifetime s x s')
    (he : x.event = .handler (.said ⟨.send request, taken⟩)) (id : String) :
    s.handler.reaping id = (request.reaps id).toNat ∧ x.reapsOrder id = false := by
  obtain ⟨phase, said, k, hpc, -⟩ := hs.said he
  refine ⟨?_, ?_⟩
  · rw [Handler.reaping, hpc]
  · rw [DaemonTurn.reapsOrder, he]

theorem spawns_of_ne {index : ℕ} {x : Turn lib} {id : String}
    (h : ∀ request, x.event ≠ .received request) :
    (SysEvent.tracker index x).spawns id = false := by
  show (match x.event with
    | .received request => request.reaps id
    | _ => false) = false
  split
  · next request he => exact absurd he (h request)
  · rfl

section Measure

variable {s : Sys lib} {n : ℕ} (id : String)

@[simp] theorem Sys.reaping_answer (res : Requester) (result : Except ChainError Unit) :
    (s.answer res result).reaping n id = s.reaping n id := rfl

@[simp] theorem Sys.reaping_drop (request : ChainTrackerRequest) :
    (s.drop request).reaping n id = s.reaping n id := by
  cases request <;> rfl

@[simp] theorem Sys.reaping_accept (request : ChainTrackerRequest) :
    (s.accept request).reaping n id = s.reaping n id := by
  cases request <;> rfl

end Measure

/-- **No step of the daemon adds to the count but the call of `reap`.** -/
theorem Outcome.reaping {s s' : Sys lib} {e : SysEvent lib} (ho : Outcome d s e s') (id : String)
    (hhandler : ∀ x, e = .daemon x → s'.store.handler.reaping id ≤ (x.reapsOrder id).toNat)
    (hrestore : ∀ request taken, e = .restore ⟨.send request, taken⟩ →
      request.reaps id = false) :
    ∃ n₀, ∀ n, n₀ ≤ n → s'.reaping n id + (e.spawns id).toNat ≤
      s.reaping n id + (e.reapsOrder id).toNat := by
  cases ho with
  | requested | cancelled | databaseStopped => exact ⟨0, fun _ _ => le_rfl⟩
  | blockSeen index number =>
    refine ⟨index + 1, fun n hn => ?_⟩
    have hpush := sum_countP_push (ChainTrackerRequest.reaps id) s.tracker_queue
      (.newBlock number) hn
    simp only [Sys.reaping, ChainTrackerRequest.reaps, SysEvent.spawns, SysEvent.reapsOrder,
      Bool.toNat_false] at hpush ⊢
    omega
  | payoutBegun request hmem => exact ⟨0, fun _ _ => le_rfl⟩
  | droppedTracker index request rest _ hqueue =>
    refine ⟨index + 1, fun n hn => ?_⟩
    have hpop := sum_countP_pop (ChainTrackerRequest.reaps id) hqueue hn
    rw [Sys.reaping_drop]
    simp only [Sys.reaping, SysEvent.spawns, Bool.toNat_false]
    omega
  | handler e hs he | spawned e hs he | handlerAnswered e hs he | received e rest hs he =>
    refine ⟨0, fun n _ => ?_⟩
    have hle := hhandler _ rfl
    simp only [Sys.reaping, SysEvent.spawns, SysEvent.reapsOrder,
      Bool.toNat_false] at hle ⊢
    omega
  | databaseShutDown hs he =>
    refine ⟨0, fun n _ => ?_⟩
    have hle := hhandler _ rfl
    simp only [Sys.reaping, SysEvent.spawns, SysEvent.reapsOrder,
      Bool.toNat_false] at hle ⊢
    omega
  | handlerSent request hs he =>
    refine ⟨0, fun n _ => ?_⟩
    have hle := hhandler _ rfl
    obtain ⟨hbefore, hnone⟩ := hs.reaping_of_sent he id
    simp only [Sys.reaping, List.countP_append, List.countP_singleton, ite_toNat, SysEvent.spawns,
      SysEvent.reapsOrder, hnone, Bool.toNat_false] at hle ⊢
    omega
  | restarted =>
    refine ⟨0, fun n _ => ?_⟩
    have hle := hhandler _ rfl
    simp only [Sys.reaping, Sys.start, List.countP_nil, ManagerPc.reaping, Finset.sum_const_zero,
      SysEvent.spawns, SysEvent.reapsOrder, Bool.toNat_false] at hle ⊢
    omega
  | restoreSent request taken hp =>
    refine ⟨0, fun n _ => ?_⟩
    have hqueue := hrestore request taken rfl
    cases taken with
    | false => exact le_rfl
    | true =>
      simp only [Sys.reaping, ↓reduceIte, List.countP_append, List.countP_singleton, ite_toNat,
        hqueue, SysEvent.spawns, Bool.toNat_false]
      omega
  | restoreAnswered result hp hreply => exact ⟨0, fun _ _ => le_rfl⟩
  | refused request rest account forward e hpc hqueue hreq =>
    refine ⟨0, fun n _ => ?_⟩
    simp only [Sys.reaping_answer]
    simp only [Sys.reaping, hqueue, List.countP_cons, ite_toNat, SysEvent.spawns,
      Bool.toNat_false]
    omega
  | routed request rest account forward index hpc hqueue hreq =>
    refine ⟨0, fun n _ => ?_⟩
    simp only [Sys.reaping, hqueue, List.countP_cons, ite_toNat, hpc, ManagerPc.reaping,
      SysEvent.spawns,
      reaps_of_forTracker hreq, Bool.toNat_false]
    omega
  | winding watch_chain rest hpc hqueue =>
    refine ⟨0, fun n _ => ?_⟩
    simp only [Sys.reaping, hqueue, List.countP_cons, ite_toNat, hpc, ManagerPc.reaping,
      SysEvent.spawns,
      Bool.toNat_false]
    omega
  | forwarded index request hpc =>
    refine ⟨index + 1, fun n hn => ?_⟩
    have hpush := sum_countP_push (ChainTrackerRequest.reaps id) s.tracker_queue request hn
    simp only [Sys.reaping, hpc, ManagerPc.reaping, SysEvent.spawns, Bool.toNat_false]
    omega
  | lost index request hpc =>
    refine ⟨0, fun n _ => ?_⟩
    rw [Sys.reaping_drop]
    simp only [Sys.reaping, hpc, ManagerPc.reaping, SysEvent.spawns, Bool.toNat_false]
    omega
  | asked name index rest hpc =>
    refine ⟨index + 1, fun n hn => ?_⟩
    have hpush := sum_countP_push (ChainTrackerRequest.reaps id) s.tracker_queue .shutdown hn
    simp only [Sys.reaping, hpc, ManagerPc.reaping, SysEvent.spawns, ChainTrackerRequest.reaps,
      Bool.toNat_false] at hpush ⊢
    omega
  | skipped _ _ _ hpc | waited _ hpc | finished hpc | closed hpc =>
    refine ⟨0, fun n _ => ?_⟩
    simp only [Sys.reaping, hpc, ManagerPc.reaping, SysEvent.spawns, Bool.toNat_false]
    omega
  | dropped account request forward rest hpc hqueue hreq =>
    refine ⟨0, fun n _ => ?_⟩
    simp only [Sys.reaping_answer]
    simp only [Sys.reaping, hqueue, List.countP_cons, ite_toNat, SysEvent.spawns,
      Bool.toNat_false]
    omega
  | droppedShutdown rest hpc hqueue =>
    refine ⟨0, fun n _ => ?_⟩
    simp only [Sys.reaping, hqueue, List.countP_cons, ite_toNat, SysEvent.spawns,
      Bool.toNat_false]
    omega
  | tracker index hc hs hquiet =>
    refine ⟨0, fun n _ => ?_⟩
    rw [spawns_of_ne fun request hevent => ?_]
    · exact Nat.le_add_right _ _
    · rw [hevent] at hquiet
      cases request <;> exact hquiet.elim
  | told index message hc hs he =>
    refine ⟨0, fun n _ => ?_⟩
    rw [spawns_of_ne fun request hevent => ?_]
    · exact Nat.le_add_right _ _
    · cases he.symm.trans hevent
  | took index request rest hc hs he hqueue =>
    refine ⟨index + 1, fun n hn => ?_⟩
    have hpop := sum_countP_pop (ChainTrackerRequest.reaps id) hqueue hn
    rw [Sys.reaping_accept]
    simp only [SysEvent.spawns, he]
    simp only [Sys.reaping] at hpop ⊢
    omega

/-- The restoring task asks for no payout. -/
theorem SysStep.restore_reaps {h : List (SysEvent lib)} {s s' : Sys lib} {e : SysEvent lib}
    (hs : SysStep d s e s') (ht : s.Traced d h) (id : String) (request : ChainRequest)
    (taken : Bool) (he : e = .restore ⟨.send request, taken⟩) : request.reaps id = false := by
  subst he
  have ho := hs.outcome
  cases ho with
  | restoreSent _ _ hp =>
    obtain ⟨order_list, -, hholds⟩ := ht.restoring _ _ hp
    obtain ⟨-, _, _, w, -, -, rfl⟩ := hholds.1
    rfl

theorem SysStep.reaping {h : List (SysEvent lib)} {s s' : Sys lib} {e : SysEvent lib}
    (run : SysRun d h s) (hs : SysStep d s e s') (id : String) :
    ∃ n₀, ∀ n, n₀ ≤ n → s'.reaping n id + (e.spawns id).toNat ≤
      s.reaping n id + (e.reapsOrder id).toNat := by
  refine hs.outcome.reaping id ?_ (hs.restore_reaps (SysRun.traced run) id)
  rintro x rfl
  exact hs.outcome.daemonStep.reaping_le (SysRun.handler_sound (run.next trivial hs)) id

/-! ## What a step of a payout does to it -/

/-- A payout is spawned for a request that a tracker takes. -/
theorem countP_commission (s : Sys lib) (e : SysEvent lib) (id : String) :
    (commission d s e).toList.countP (fun c => c.request.id = id) ≤ (e.spawns id).toNat := by
  cases hc : commission d s e with
  | none => exact Nat.zero_le _
  | some c =>
    obtain ⟨index, x, rfl, hevent, -⟩ := commission_eq_some hc
    rw [Option.toList_some, List.countP_singleton, ite_toNat]
    simp [SysEvent.spawns, hevent, ChainTrackerRequest.reaps]

theorem PayoutSys.onTheWay_follow (s : PayoutSys lib) (e : SysEvent lib) (sys' : Sys lib)
    (id : String) (n : ℕ) :
    (s.follow d e sys').onTheWay id n ≤ sys'.reaping n id +
      s.spawned.countP (fun c => c.request.id = id) + (e.spawns id).toNat +
      s.running.countP (PayoutTask.unsent id) := by
  rw [follow.eq_def]
  split
  · simp only [onTheWay, start, List.countP_nil]
    omega
  · have hcommission := countP_commission (d := d) s.sys e id
    simp only [onTheWay, List.countP_append]
    omega

/-- A payout that submits has submitted nothing before, and has submitted then. -/
theorem PayoutTask.unsent_said {task : PayoutTask lib} (hf : task.Follows engine)
    {o : PayoutOp lib} {k : (PayoutSig lib).Answer o → Prog (PayoutSig lib) (Except Stop Unit)}
    (hp : task.program = .call o k) (answer : (PayoutSig lib).Answer o) (id : String) :
    (PayoutTask.unsent id
        { task with said := task.said ++ [⟨o, answer⟩], program := k answer }).toNat +
      (PayoutEvent.submits id (.said task ⟨o, answer⟩)).toNat ≤ (task.unsent id).toNat := by
  simp only [unsent, PayoutEvent.submits, submitted_snoc]
  cases ho : o.submits with
  | false => simp
  | true =>
    have hfirst : submitted task.said = false := by
      cases o with
      | rpc call =>
        cases call with
        | sendStuff extrinsic => exact (hf.submits hp).first
        | build | head | currentBlockNumber | balance => cases ho
      | built | sign => cases ho
    rw [hfirst]
    simp

/-- **No step adds to the count but the call of `reap`**, and a submission lowers it. -/
theorem PayoutStep.onTheWay {h : List (PayoutEvent lib)} {s s' : PayoutSys lib}
    {e : PayoutEvent lib} (run : PayoutRunIf d engine allow (Sys.Begun d) h s)
    (hs : PayoutStep d engine s e s') (id : String) :
    ∃ n₀, ∀ n, n₀ ≤ n → s'.onTheWay id n + (e.submits id).toNat ≤
      s.onTheWay id n + (e.reapsOrder id).toNat := by
  have hrun : SysRun d (sysEvents h) s.sys := PayoutRun.sysRun run
  have hfollows := PayoutRun.follows run
  cases hs with
  | @daemon e' sys' hs =>
    obtain ⟨n₀, hle⟩ := hs.reaping hrun id
    refine ⟨n₀, fun n hn => ?_⟩
    have hreaping := hle n hn
    have hfollow := PayoutSys.onTheWay_follow (d := d) s e' sys' id n
    simp only [PayoutEvent.submits, PayoutEvent.reapsOrder, Bool.toNat_false,
      PayoutSys.onTheWay] at hfollow ⊢
    omega
  | @began sys' c n hc hs =>
    obtain ⟨n₀, hle⟩ := hs.reaping hrun id
    refine ⟨n₀, fun m hm => ?_⟩
    have hreaping := hle m hm
    have htaken := countP_taken (fun c => decide (c.request.id = id)) hc
    have hunsent : (c.begin engine).unsent id = decide (c.request.id = id) := Bool.and_true _
    simp only [PayoutSys.onTheWay, List.countP_append, List.countP_singleton, ite_toNat, hunsent,
      PayoutEvent.submits, PayoutEvent.reapsOrder, SysEvent.spawns, SysEvent.reapsOrder,
      Bool.toNat_false] at hreaping ⊢
    omega
  | @said task o k n answer ht hp =>
    refine ⟨0, fun m _ => ?_⟩
    have hreplaced := countP_replaced (PayoutTask.unsent id) ht
      { task with said := task.said ++ [⟨o, answer⟩], program := k answer }
    have hunsent := PayoutTask.unsent_said (hfollows task (List.mem_of_getElem? ht)) hp answer id
    simp only [PayoutSys.onTheWay, PayoutEvent.reapsOrder, Bool.toNat_false]
    omega

/-! ## One submission -/

theorem Sys.reaping_start (orders : Orders) (n : ℕ) (id : String) :
    (Sys.start d orders).reaping n id = 0 := by
  have hhandler : (Handler.start d.recipient d.server_info).reaping id = 0 := rfl
  simp only [Sys.reaping, Sys.start, ManagerPc.reaping, List.countP_nil, Finset.sum_const_zero,
    hhandler, Nat.add_zero]

/-- What was submitted for an order is no more than what `reap` was called for. -/
theorem countP_submits_le {h : List (PayoutEvent lib)} {s : PayoutSys lib}
    (run : PayoutRunIf d engine allow (Sys.Begun d) h s) (id : String) :
    h.countP (PayoutEvent.submits id) ≤ h.countP (PayoutEvent.reapsOrder id) := by
  have hbalance : ∃ n₀, ∀ n, n₀ ≤ n → s.onTheWay id n + h.countP (PayoutEvent.submits id) ≤
      h.countP (PayoutEvent.reapsOrder id) := by
    refine Reach.balance ?_ (fun h s e s' run _ hs => hs.onTheWay run id) run
    rintro s ⟨sys, ⟨orders, -, rfl⟩, rfl⟩ n
    simp [PayoutSys.onTheWay, PayoutSys.start, Sys.reaping_start]
  obtain ⟨n, hle⟩ := hbalance
  exact (Nat.le_add_left _ _).trans (hle n le_rfl)

theorem countP_reapsOrder (h : List (PayoutEvent lib)) (id : String) :
    h.countP (PayoutEvent.reapsOrder id) =
      (daemonTurns (sysEvents h)).countP (DaemonTurn.reapsOrder id) := by
  induction h with
  | nil => rfl
  | cons e h ih =>
    rw [List.countP_cons, ih]
    cases e with
    | said => rfl
    | daemon e =>
      cases e with
      | daemon x =>
        show _ = (x :: daemonTurns (sysEvents h)).countP _
        rw [List.countP_cons]
        rfl
      | outside | restore | manager | tracker => rfl

/-- The order is marked as paid. -/
def DaemonTurn.marksPaid (id : String) (x : DaemonTurn) : Bool :=
  match x.event with
  | .handler (.said ⟨.db (.markPaid id'), .ok _⟩) => id' = id
  | _ => false

theorem DaemonTurn.exists_of_marksPaid {x : DaemonTurn} {id : String}
    (h : x.marksPaid id = true) :
    ∃ order, x.event = .handler (.said ⟨.db (.markPaid id), .ok order⟩) := by
  unfold marksPaid at h
  split at h
  · next id' order he =>
    obtain rfl := of_decide_eq_true h
    exact ⟨order, he⟩
  · cases h

theorem DaemonTurn.marksPaid_of {x : DaemonTurn} {id : String} {order : OrderInfo}
    (h : x.event = .handler (.said ⟨.db (.markPaid id), .ok order⟩)) : x.marksPaid id = true := by
  simp only [marksPaid, h, decide_true]

theorem DaemonTurn.exists_of_reapsOrder {x : DaemonTurn} {id : String}
    (h : x.reapsOrder id = true) :
    ∃ order, x.event = .handler (.said ⟨.reap id order, ()⟩) := by
  unfold reapsOrder at h
  split at h
  · next id' order _ he =>
    obtain rfl := of_decide_eq_true h
    exact ⟨order, he⟩
  · cases h

/-- `reap` is called after the order was marked, and once for each time. -/
theorem countP_reaps_le_marks {h : List DaemonTurn} {s : HandlerStore}
    (run : DaemonRun lib d.account_lifetime h s) (id : String) :
    h.countP (DaemonTurn.reapsOrder id) ≤ h.countP (DaemonTurn.marksPaid id) ∧
      ∀ h₀ y, h = h₀ ++ [y] → y.marksPaid id = true →
        h.countP (DaemonTurn.reapsOrder id) < h.countP (DaemonTurn.marksPaid id) := by
  refine run.invariant (P := fun h _ =>
    h.countP (DaemonTurn.reapsOrder id) ≤ h.countP (DaemonTurn.marksPaid id) ∧
      ∀ h₀ y, h = h₀ ++ [y] → y.marksPaid id = true →
        h.countP (DaemonTurn.reapsOrder id) < h.countP (DaemonTurn.marksPaid id)) ?_ ?_
  · refine fun _ _ => ⟨le_rfl, fun h₀ y hh => ?_⟩
    cases h₀ <;> cases hh
  · rintro h s x s' run ⟨ih, hlast⟩ - hs
    have hmarks : x.marksPaid id = true → x.reapsOrder id = false := by
      intro hx
      obtain ⟨order, he⟩ := DaemonTurn.exists_of_marksPaid hx
      rw [DaemonTurn.reapsOrder, he]
    simp only [List.countP_append, List.countP_singleton, ite_toNat]
    have hle : h.countP (DaemonTurn.reapsOrder id) + (x.reapsOrder id).toNat ≤
        h.countP (DaemonTurn.marksPaid id) + (x.marksPaid id).toNat := by
      cases hx : x.reapsOrder id with
      | false =>
        rw [Bool.toNat_false]
        omega
      | true =>
        obtain ⟨order, he⟩ := DaemonTurn.exists_of_reapsOrder hx
        obtain ⟨h₀, y, rfl, hy⟩ := reaped_after_marked run hs he
        have hlt := hlast h₀ y rfl (DaemonTurn.marksPaid_of hy)
        rw [Bool.toNat_true]
        omega
    refine ⟨hle, fun h₀ y hh hy => ?_⟩
    obtain ⟨-, hxy⟩ := List.append_inj' hh rfl
    obtain rfl : x = y := List.singleton_inj.mp hxy
    rw [hmarks hy, hy, Bool.toNat_false, Bool.toNat_true]
    omega

/-- An order is marked once at most, as it stays paid. -/
theorem countP_marksPaid_le {h : List DaemonTurn} {s : HandlerStore}
    (run : DaemonRun lib d.account_lifetime h s) (id : String) :
    h.countP (DaemonTurn.marksPaid id) ≤ 1 := by
  refine countP_le_one fun h₁ x h₂ x' h₃ hh hx => Bool.eq_false_of_not_eq_true fun hx' => ?_
  obtain ⟨order, he⟩ := DaemonTurn.exists_of_marksPaid hx
  obtain ⟨order', he'⟩ := DaemonTurn.exists_of_marksPaid hx'
  rw [hh, ← List.cons_append, ← List.append_assoc] at run
  obtain ⟨s₁, s₂, run₁, -, hs⟩ := run.split
  obtain ⟨⟨old, hold, hpending, -⟩, -, hbefore, -⟩ := hs.marked he'
  have hpaid : ∃ info, record s₁.orders id = some info ∧ info.payment_status = .paid := by
    refine run₁.kept (Q := fun s => ∃ info, record s.orders id = some info ∧
      info.payment_status = .paid) ?_ ?_
    · rintro h s x s' run - hs ⟨info, hrec, hp⟩
      exact ⟨info, hs.paid_kept (DaemonRun.sound run) hrec hp, hp⟩
    · intro s₁ s₂ _ hs
      obtain ⟨⟨old, -, -, rfl⟩, hafter, -, heq⟩ := hs.marked he
      exact ⟨old.paid, heq ▸ hafter, rfl⟩
  obtain ⟨info, hrec, hp⟩ := hpaid
  obtain rfl := Option.some.inj (hrec.symm.trans (hbefore ▸ hold))
  cases hpending.symm.trans hp

/-- `reap` is called once at most. -/
theorem countP_reapsOrder_le {h : List (PayoutEvent lib)} {s : PayoutSys lib}
    (run : PayoutRunIf d engine allow (Sys.Begun d) h s) (id : String) :
    h.countP (PayoutEvent.reapsOrder id) ≤ 1 := by
  have hrun := SysRun.daemonRun (PayoutRun.sysRun run)
  rw [countP_reapsOrder]
  exact (countP_reaps_le_marks hrun id).1.trans (countP_marksPaid_le hrun id)

/-- **One submission for an order.**  However often the payment of an order is reported, and
however often the daemon is restarted, its payouts submit one extrinsic together at most. -/
theorem submittedOnce {h : List (PayoutEvent lib)} {s : PayoutSys lib}
    (run : PayoutRunIf d engine allow (Sys.Begun d) h s) (id : String) :
    h.countP (PayoutEvent.submits id) ≤ 1 := by
  exact (countP_submits_le run id).trans (countP_reapsOrder_le run id)

/-- An order is paid for and reaped, and its payout submits the one extrinsic. -/
theorem submittedOnce_reapedOrder : ∃ h s,
    PayoutRunIf Sample.deployment Sample.payer always (Sys.Begun Sample.deployment) h s ∧
      h.countP (PayoutEvent.submits "order") = 1 := by
  obtain ⟨h, s, run, hp⟩ := exists_reach_of_replay
    (PayoutSys.exec_sound Sample.deployment Sample.payer)
    (fun s => ∃ sys, Sys.Begun Sample.deployment sys ∧ s = .start sys) ⟨_, Sample.begun, rfl⟩
    (Sample.reapedOrder ++ Sample.payoutAnswers 10 7)
    (p := fun q => q.1.any (PayoutEvent.submits "order")) (by decide +kernel)
  obtain ⟨e, he, hsubmits⟩ := List.any_eq_true.mp hp
  have hpos : 0 < h.countP (PayoutEvent.submits "order") :=
    List.countP_pos_iff.mpr ⟨e, he, hsubmits⟩
  exact ⟨h, s, run, (submittedOnce run "order").antisymm hpos⟩

end Kalatori
