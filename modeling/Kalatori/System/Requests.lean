import Kalatori.Lib.Flow
import Kalatori.System.Traffic

/-!
# Requests on their way

Two tasks call the chain manager, the state handler and the task that restores
the orders, and each waits for the answer to one call before it makes the next.
So of the requests of a task there is one at most, wherever it is: in the
channel of the manager, with the manager, in the channel of a tracker, with a
payout, or answered already.  `Sys.calls` counts the places; no step but a call
adds to the count.

* `Outcome.calls`: what a step does to the count.
* `SysRun.oneCall`: a task that does not wait has no request on its way.
* `handler_sends`, `restore_sends`: the step in which a task asks.
* `Sys.Heading`, `Outcome.heading_before`: which tracker a request goes to.
-/

namespace Kalatori

open Program Transition

variable {lib : Libraries} {d : Deployment lib}
  {allow : List (SysEvent lib) → Sys lib → SysEvent lib → Prop}

/-! ## Counting -/

/-- Whether the answer to a request goes to the task `r`. -/
def asks (r : Requester) (account : Option WatchAccount) : Bool :=
  account.any fun request => request.res = r

/-- The request of the task that the manager is about to send on, as a number. -/
def ManagerPc.calls (r : Requester) : ManagerPc → ℕ
  | .forward _ request => (asks r request.account).toNat
  | _ => 0

/-- Whether the answer to a request in the channel of a tracker goes to the task. -/
def ChainTrackerRequest.asks (r : Requester) (request : ChainTrackerRequest) : Bool :=
  Kalatori.asks r request.account

/-- The requests of the task in the channel of a tracker. -/
def queuedCalls (r : Requester) (queue : List ChainTrackerRequest) : ℕ :=
  queue.countP (ChainTrackerRequest.asks r)

/-- **The requests and answers of the task**, with the channels of the first `n` trackers. -/
def Sys.calls (n : ℕ) (r : Requester) (s : Sys lib) : ℕ :=
  (s.manager_queue.countP fun request => asks r request.account) + s.manager.calls r +
    (∑ index ∈ Finset.range n, queuedCalls r (s.tracker_queue index)) +
    (s.payouts.countP fun request => asks r (some request)) +
    (s.replies r).isSome.toNat

theorem Sys.calls_mono {s : Sys lib} {r : Requester} {n n' : ℕ} (h : n ≤ n') :
    s.calls n r ≤ s.calls n' r := by
  have hsum : ∑ i ∈ Finset.range n, queuedCalls r (s.tracker_queue i) ≤
      ∑ i ∈ Finset.range n', queuedCalls r (s.tracker_queue i) :=
    Finset.sum_le_sum_of_subset (Finset.range_mono h)
  unfold Sys.calls
  omega

/-! ## What a step does to the count -/

/-- How many requests of the task a step sends. -/
def SysEvent.sends (r : Requester) : SysEvent lib → ℕ
  | .daemon ⟨_, .handler (.said ⟨.send request, true⟩), _⟩
  | .restore ⟨.send request, true⟩ => (asks r request.account).toNat
  | _ => 0

/-- How many answers the task takes in a step. -/
def SysEvent.takes (r : Requester) : SysEvent lib → ℕ
  | .daemon ⟨_, .handler (.said ⟨.await, _⟩), _⟩ => (decide (r = .stateHandler)).toNat
  | .restore ⟨.await, _⟩ => (decide (r = .restore)).toNat
  | _ => 0

theorem isSome_update {r res : Requester} {replies : Requester → Option (Except ChainError Unit)}
    (result : Except ChainError Unit) :
    (Function.update replies res (some result) r).isSome.toNat ≤
      (replies r).isSome.toNat + (decide (res = r)).toNat := by
  by_cases h : r = res
  · subst h
    simp
  · simp [h]

namespace Sys

variable {s : Sys lib} {n : ℕ} {r : Requester}

/-- An answer counts for the request that it answers. -/
theorem calls_answer (res : Requester) (result : Except ChainError Unit) :
    (s.answer res result).calls n r ≤ s.calls n r + (decide (res = r)).toNat := by
  have h := @isSome_update r res s.replies result
  simp only [Sys.calls, answer]
  omega

theorem calls_drop (request : ChainTrackerRequest) :
    (s.drop request).calls n r ≤ s.calls n r + (asks r request.account).toNat := by
  cases request with
  | watchAccount w | reap w => exact calls_answer w.res _
  | newBlock | shutdown => exact Nat.le_add_right _ _

theorem calls_accept (request : ChainTrackerRequest) :
    (s.accept request).calls n r ≤ s.calls n r + (asks r request.account).toNat := by
  cases request with
  | watchAccount w => exact calls_answer w.res _
  | reap w =>
    simp only [Sys.calls, accept, ChainTrackerRequest.account, List.countP_append,
      List.countP_singleton, ite_toNat]
    omega
  | newBlock | shutdown => exact Nat.le_add_right _ _

end Sys

theorem sends_daemon {x : DaemonTurn} {request : ChainRequest} (r : Requester)
    (he : x.event = .handler (.said ⟨.send request, true⟩)) :
    (SysEvent.daemon x : SysEvent lib).sends r = (asks r request.account).toNat := by
  obtain ⟨before, event, after⟩ := x
  subst he
  rfl

theorem takes_daemon {x : DaemonTurn} {result : Except ChainError Unit} (r : Requester)
    (he : x.event = .handler (.said ⟨.await, result⟩)) :
    (SysEvent.daemon x : SysEvent lib).takes r = (decide (r = .stateHandler)).toNat := by
  obtain ⟨before, event, after⟩ := x
  subst he
  rfl

theorem takes_eq_zero {x : DaemonTurn} (r : Requester)
    (he : ∀ result, x.event ≠ .handler (.said ⟨.await, result⟩)) :
    (SysEvent.daemon x : SysEvent lib).takes r = 0 := by
  unfold SysEvent.takes
  split
  · rename_i heq
    obtain rfl := SysEvent.daemon.inj heq
    exact absurd rfl (he _)
  · rename_i heq
    cases heq
  · rfl

/-- **No step but a call adds to the count.** -/
theorem Outcome.calls {s s' : Sys lib} {e : SysEvent lib} (h : Outcome d s e s') (r : Requester) :
    ∃ n₀, ∀ n, n₀ ≤ n → s'.calls n r + e.takes r ≤ s.calls n r + e.sends r := by
  have hnone : ∀ {x : DaemonTurn} {e : HandlerEvent}, x.event = .handler e →
      (∀ result, e ≠ .said ⟨.await, result⟩) → (SysEvent.daemon x : SysEvent lib).takes r = 0 :=
    fun hx he => takes_eq_zero r fun result heq =>
      he result (DaemonEvent.handler.inj (hx.symm.trans heq))
  cases h with
  | requested | cancelled | databaseStopped => exact ⟨0, fun _ _ => le_rfl⟩
  | blockSeen index number =>
    refine ⟨index + 1, fun n hn => ?_⟩
    have hpush := sum_countP_push (ChainTrackerRequest.asks r) s.tracker_queue (.newBlock number) hn
    simp only [Sys.calls, queuedCalls, ChainTrackerRequest.asks, ChainTrackerRequest.account, asks,
      Option.any_none, Bool.toNat_false, SysEvent.takes, SysEvent.sends] at hpush ⊢
    omega
  | payoutBegun request hmem =>
    refine ⟨0, fun n _ => ?_⟩
    have hcount : (s.payouts.countP fun request => asks r (some request)) =
        ((s.payouts.erase request).countP fun request => asks r (some request)) +
          (decide (request.res = r)).toNat := by
      rw [(List.perm_cons_erase hmem).countP_eq, List.countP_cons, ite_toNat]
      rfl
    have hanswer := Sys.calls_answer (n := n) (r := r)
      (s := { s with payouts := s.payouts.erase request }) request.res (.ok ())
    refine hanswer.trans ?_
    simp only [Sys.calls, SysEvent.sends]
    omega
  | droppedTracker index request rest _ hqueue =>
    refine ⟨index + 1, fun n hn => ?_⟩
    have hpop := sum_countP_pop (ChainTrackerRequest.asks r) hqueue hn
    have hdrop := Sys.calls_drop (n := n) (r := r)
      (s := { s with tracker_queue := Function.update s.tracker_queue index rest }) request
    refine hdrop.trans ?_
    simp only [Sys.calls, queuedCalls, ChainTrackerRequest.asks, SysEvent.sends] at hpop ⊢
    omega
  | handler e hs he hquiet =>
    refine ⟨0, fun n _ => ?_⟩
    rw [hnone he]
    · exact Nat.le_add_right _ _
    · rintro result rfl
      exact hquiet
  | spawned _ hs he | databaseShutDown hs he | received _ _ hs he =>
    refine ⟨0, fun n _ => ?_⟩
    rw [hnone he fun _ => nofun]
    exact Nat.le_add_right _ _
  | handlerSent request hs he =>
    refine ⟨0, fun n _ => ?_⟩
    rw [hnone he fun _ => nofun, sends_daemon r he]
    simp only [Sys.calls, List.countP_append, List.countP_singleton, ite_toNat]
    omega
  | handlerAnswered result hs he hreply =>
    refine ⟨0, fun n _ => ?_⟩
    rw [takes_daemon r he]
    cases r with
    | stateHandler => simp [Sys.calls, hreply]
    | restore => simp [Sys.calls]
  | restarted =>
    refine ⟨0, fun n _ => ?_⟩
    simp [Sys.calls, Sys.start, queuedCalls, ManagerPc.calls, SysEvent.takes]
  | restoreSent request taken =>
    refine ⟨0, fun n _ => ?_⟩
    cases taken with
    | false => exact Nat.le_add_right _ _
    | true =>
      simp only [Sys.calls, ↓reduceIte, List.countP_append, List.countP_singleton, ite_toNat,
        SysEvent.takes, SysEvent.sends]
      omega
  | restoreAnswered result hp hreply =>
    refine ⟨0, fun n _ => ?_⟩
    cases r with
    | stateHandler => simp [Sys.calls, SysEvent.takes]
    | restore => simp [Sys.calls, SysEvent.takes, hreply]
  | refused request rest account forward e hpc hqueue hreq =>
    refine ⟨0, fun n _ => ?_⟩
    have hanswer := Sys.calls_answer (n := n) (r := r)
      (s := { s with manager_queue := rest }) account.res (.error e)
    refine hanswer.trans ?_
    simp only [Sys.calls, hqueue, List.countP_cons, ite_toNat, (account_of_forTracker hreq).1, asks,
      Option.any_some]
    omega
  | routed request rest account forward index hpc hqueue hreq =>
    refine ⟨0, fun n _ => ?_⟩
    simp only [Sys.calls, hqueue, List.countP_cons, ite_toNat, (account_of_forTracker hreq).1,
      (account_of_forTracker hreq).2, hpc,
      ManagerPc.calls, SysEvent.takes, SysEvent.sends]
    omega
  | winding watch_chain rest hpc hqueue =>
    refine ⟨0, fun n _ => ?_⟩
    simp only [Sys.calls, hqueue, List.countP_cons, ite_toNat, hpc, ManagerPc.calls, SysEvent.takes,
      SysEvent.sends]
    omega
  | forwarded index request hpc =>
    refine ⟨index + 1, fun n hn => ?_⟩
    have hpush := sum_countP_push (ChainTrackerRequest.asks r) s.tracker_queue request hn
    simp only [Sys.calls, queuedCalls, ChainTrackerRequest.asks, hpc, ManagerPc.calls,
      SysEvent.takes, SysEvent.sends] at hpush ⊢
    omega
  | lost index request hpc =>
    refine ⟨0, fun n _ => ?_⟩
    have hdrop := Sys.calls_drop (n := n) (r := r) (s := { s with manager := .serve }) request
    refine hdrop.trans ?_
    simp only [Sys.calls, hpc, ManagerPc.calls, SysEvent.sends]
    omega
  | asked name index rest hpc =>
    refine ⟨index + 1, fun n hn => ?_⟩
    have hpush := sum_countP_push (ChainTrackerRequest.asks r) s.tracker_queue .shutdown hn
    simp only [Sys.calls, queuedCalls, ChainTrackerRequest.asks, ChainTrackerRequest.account, asks,
      Option.any_none, Bool.toNat_false, hpc, ManagerPc.calls, SysEvent.takes,
      SysEvent.sends] at hpush ⊢
    omega
  | skipped _ _ _ hpc | waited _ hpc | finished hpc | closed hpc =>
    refine ⟨0, fun n _ => ?_⟩
    simp only [Sys.calls, hpc, ManagerPc.calls, SysEvent.takes, SysEvent.sends]
    exact le_rfl
  | dropped account request forward rest hpc hqueue hreq =>
    refine ⟨0, fun n _ => ?_⟩
    have hanswer := Sys.calls_answer (n := n) (r := r)
      (s := { s with manager_queue := rest }) account.res (.error .messageDropped)
    refine hanswer.trans ?_
    simp only [Sys.calls, hqueue, List.countP_cons, ite_toNat, (account_of_forTracker hreq).1, asks,
      Option.any_some]
    omega
  | droppedShutdown rest hpc hqueue =>
    refine ⟨0, fun n _ => ?_⟩
    simp only [Sys.calls, hqueue, List.countP_cons, ite_toNat, SysEvent.takes, SysEvent.sends]
    omega
  | tracker | told => exact ⟨0, fun _ _ => le_rfl⟩
  | took index request rest _ _ _ hqueue =>
    refine ⟨index + 1, fun n hn => ?_⟩
    have hpop := sum_countP_pop (ChainTrackerRequest.asks r) hqueue hn
    refine le_trans (Sys.calls_accept request) ?_
    simp only [Sys.calls, queuedCalls, ChainTrackerRequest.asks, SysEvent.sends] at hpop ⊢
    omega

/-! ## Who waits -/

/-- The task waits for the answer to a call of the chain manager. -/
def Sys.Awaits (s : Sys lib) : Requester → Prop
  | .stateHandler => s.store.handler.Awaits
  | .restore => ∃ said k, s.restore = some (said, .call .await k)

/-- **One call at a time.**  The orders are restored by one task, which the handler spawns at
its start. -/
structure Sys.OneCall (s : Sys lib) : Prop where
  idle : ∀ r, ¬s.Awaits r → ∀ n, s.calls n r = 0
  one : ∀ r n, s.calls n r ≤ 1
  unspawned : ∀ said o k, s.store.handler.pc = .busy .starting said (.call o k) →
    s.restore = none

theorem Sys.calls_start (orders : Orders) (n : ℕ) (r : Requester) :
    (Sys.start d orders).calls n r = 0 := by
  simp [Sys.calls, Sys.start, queuedCalls, ManagerPc.calls]

/-- The step in which the handler sends a request, with the conversation it is in after it. -/
theorem handler_sends {h : List (SysEvent lib)} {s s' : Sys lib} {x : DaemonTurn}
    {request : ChainRequest} (run : SysRunIf d allow h s) (hallow : allow h s (.daemon x))
    (hs : SysStep d s (.daemon x) s') (he : x.event = .handler (.said ⟨.send request, true⟩))
    {w : WatchAccount} (hw : request.account = some w) :
    w.res = .stateHandler ∧ ¬s.store.handler.Awaits ∧ ∃ phase said k, s'.store.handler.pc =
      .busy phase (said ++ [⟨.send request, true⟩]) (.call .await k) := by
  obtain ⟨phase, said, k, hpc, hpc', -⟩ := hs.outcome.daemonStep.said he
  have hafter : s'.store.handler.pc = .busy phase (said ++ [⟨.send request, true⟩]) (k true) := by
    rw [hpc']
  obtain ⟨_, _, _, -, -, hsound⟩ := SysRun.handler_sound (run.next hallow hs)
  have hawaits : s'.store.handler.Awaits :=
    (hsound.awaits_iff hafter).mpr (by simp [expecting, hw])
  obtain ⟨_, _, k', hk'⟩ := hawaits
  obtain ⟨rfl, rfl, hk⟩ := HandlerPc.busy.inj (hafter.symm.trans hk')
  refine ⟨?_, ?_, phase, said, k', hk'⟩
  · obtain ⟨_, _, _, -, -, hbefore⟩ := SysRun.handler_sound run
    have hphase : (HandlerOp.send request).phase = .handling := by
      cases request with
      | shutdown => cases hw
      | watchAccount | reap => rfl
    obtain ⟨-, _, _, -, ho⟩ := hbefore.handles hpc hphase
    cases ho with
    | watch _ _ _ _ _ hr | reap _ _ _ hr =>
      obtain rfl := Option.some.inj hw
      exact WatchAccount.res_of_new hr
  · rintro ⟨_, _, _, hawaits⟩
    obtain ⟨-, -, hcall⟩ := HandlerPc.busy.inj (hpc.symm.trans hawaits)
    injection hcall with ho
    cases ho

/-- The handler spawns the task that restores the orders with the last operation of its start. -/
theorem SysStep.unspawned {h : List (SysEvent lib)} {s s' : Sys lib} {e : SysEvent lib}
    (run : SysRunIf d allow h s) (hallow : allow h s e) (hs : SysStep d s e s') (hone : s.OneCall)
    {said : Trace HandlerSig} {o : HandlerOp}
    {k : HandlerSig.Answer o → Prog HandlerSig (Except Error HandlerNext)}
    (hpc : s'.store.handler.pc = .busy .starting said (.call o k)) : s'.restore = none := by
  have hbefore : ∀ {x : DaemonTurn} {e' : HandlerEvent}, e = .daemon x → x.event = .handler e' →
      s.restore = none := by
    rintro x e' rfl he
    obtain ⟨_, _, _, _, hpc', -⟩ := hs.outcome.daemonStep.went_on he hpc
    exact hone.unspawned _ _ _ hpc'
  have hstarts : Starts said o := by
    obtain ⟨_, _, _, -, -, hsound⟩ := SysRun.handler_sound (run.next hallow hs)
    exact (hsound.starts hpc (hsound.phase_eq hpc).symm).2
  have ho := hs.outcome
  cases ho with
  | restarted => rfl
  | spawned order_list hx he =>
    obtain ⟨said₀, _, _, _, -, hlast, rfl⟩ := hx.went_on he hpc
    injection hlast with hlast
    rw [← hlast] at hstarts
    -- Nothing follows the spawning at the start.
    generalize hsaid : said₀ ++ [⟨.spawnRestore order_list, ()⟩] = said' at hstarts
    have hmem : (⟨.spawnRestore order_list, ()⟩ : Exchange HandlerSig) ∈ said' :=
      hsaid ▸ List.mem_append_right _ (List.mem_singleton_self _)
    cases hstarts with
    | chainManager => cases hmem
    | orderList => cases congrArg Sigma.fst (List.mem_singleton.mp hmem)
    | spawnRestore => simp at hmem
  | restoreSent _ _ hp | restoreAnswered _ hp =>
    have hnone := hone.unspawned _ _ _ hpc
    cases hnone.symm.trans hp
  | handler _ _ he | handlerSent _ _ he | handlerAnswered _ _ he | databaseShutDown _ he
  | received _ _ _ he => exact hbefore rfl he
  | droppedTracker | lost | took =>
    simp only [Sys.drop_store, Sys.accept_store] at hpc
    simpa using hone.unspawned _ _ _ hpc
  | _ => exact hone.unspawned _ _ _ hpc

/-- A task that waits goes on waiting until it takes its answer, or the daemon is restarted. -/
theorem SysStep.awaits {h : List (SysEvent lib)} {s s' : Sys lib} {e : SysEvent lib}
    (run : SysRunIf d allow h s) (hs : SysStep d s e s') (hone : s.OneCall) {r : Requester}
    (hr : s.Awaits r) : s'.Awaits r ∨ e.takes r = 1 ∨ ∃ orders, s' = .start d orders := by
  have ho := hs.outcome
  cases r with
  | stateHandler =>
    obtain ⟨phase, said, k, hpc⟩ := hr
    rcases ho.store with ⟨x, rfl, hx⟩ | ⟨-, hstore⟩
    · cases ho with
      | restarted => exact .inr (.inr ⟨_, rfl⟩)
      | handler _ hx he | spawned _ hx he | handlerSent _ hx he | handlerAnswered _ hx he
      | databaseShutDown hx he | received _ _ hx he =>
        refine .inr (.inl ?_)
        obtain ⟨result, hresult⟩ := hx.answered hpc he
        rw [hresult] at he
        rw [takes_daemon .stateHandler he]
        rfl
    · refine .inl ⟨phase, said, k, ?_⟩
      rw [hstore]
      exact hpc
  | restore =>
    obtain ⟨said, k, hp⟩ := hr
    have hkept : s'.restore = s.restore → s'.Awaits .restore := fun heq => ⟨said, k, heq ▸ hp⟩
    cases ho with
    | restarted => exact .inr (.inr ⟨_, rfl⟩)
    | spawned order_list hx he =>
      -- The handler is at its start, so no such task runs yet.
      obtain ⟨phase, said', k', hpc, -⟩ := hx.said he
      obtain ⟨_, _, _, -, -, hsound⟩ := SysRun.handler_sound run
      obtain rfl : phase = .starting := hsound.phase_eq hpc
      cases hp.symm.trans (hone.unspawned _ _ _ hpc)
    | restoreSent _ _ hp' => cases hp.symm.trans hp'
    | restoreAnswered => exact .inr (.inl rfl)
    | droppedTracker | lost | took => exact .inl (hkept (by simp))
    | _ => exact .inl (hkept rfl)

/-- The restoring task has just sent a request, and is at the answer. -/
theorem SysRun.restore_awaits {h : List (SysEvent lib)} {s : Sys lib} (run : SysRunIf d allow h s)
    {said : Trace RestoreSig} {program : Prog RestoreSig Unit}
    (hp : s.restore = some (said, program)) (hasking : asking said = true) :
    s.Awaits .restore := by
  obtain ⟨_, -, hholds⟩ := (SysRun.traced run).restoring _ _ hp
  match program with
  | .done () => cases hholds.answered.symm.trans hasking
  | .call .await k => exact ⟨said, k, hp⟩
  | .call (.send _) _ => cases hholds.1.1.symm.trans hasking

/-- The step in which the restoring task sends a request, and that it is one to itself. -/
theorem restore_sends {h : List (SysEvent lib)} {s s' : Sys lib} {request : ChainRequest}
    (run : SysRunIf d allow h s) (hallow : allow h s (.restore ⟨.send request, true⟩))
    (hs : SysStep d s (.restore ⟨.send request, true⟩) s') :
    (∃ w, request = .watchAccount w ∧ w.res = .restore) ∧ ¬s.Awaits .restore ∧
      s'.Awaits .restore := by
  have ho := hs.outcome
  cases ho with
  | @restoreSent _ _ said k hp =>
    obtain ⟨order_list, -, hholds⟩ := (SysRun.traced run).restoring _ _ hp
    obtain ⟨-, order, info, w, -, hw, rfl⟩ := hholds.1
    have hres : w.res = .restore := WatchAccount.res_of_new hw
    refine ⟨⟨w, rfl, hres⟩, ?_, ?_⟩
    · rintro ⟨_, _, hp'⟩
      obtain ⟨-, hcall⟩ := Prod.mk.inj (Option.some.inj (hp.symm.trans hp'))
      injection hcall with hop
      cases hop
    · exact SysRun.restore_awaits (run.next hallow hs) rfl (by simp [asking, ChainRequest.account])

/-- A task that sends a request waits for the answer from then on, and did not wait before. -/
theorem SysStep.sends {h : List (SysEvent lib)} {s s' : Sys lib} {e : SysEvent lib}
    (run : SysRunIf d allow h s) (hallow : allow h s e) (hs : SysStep d s e s') {r : Requester}
    (hr : e.sends r ≠ 0) : ¬s.Awaits r ∧ s'.Awaits r ∧ e.sends r = 1 := by
  have hasks : ∀ {account}, (asks r account).toNat ≠ 0 → ∃ w, account = some w ∧ w.res = r := by
    rintro (_ | w) hne
    · exact absurd rfl hne
    · refine ⟨w, rfl, ?_⟩
      by_contra hres
      exact hne (by simp [asks, hres])
  unfold SysEvent.sends at hr
  split at hr
  · rename_i before request after
    obtain ⟨w, hw, hres⟩ := hasks hr
    obtain ⟨hhandler, hidle, phase, said, k, hpc⟩ := handler_sends run hallow hs rfl hw
    obtain rfl := hres.symm.trans hhandler
    refine ⟨hidle, ⟨phase, _, k, hpc⟩, ?_⟩
    simp [SysEvent.sends, asks, hw, hres]
  · rename_i request
    obtain ⟨w, hw, hres⟩ := hasks hr
    obtain ⟨⟨w', rfl, hrestore⟩, hidle, hawaits⟩ := restore_sends run hallow hs
    obtain rfl := Option.some.inj hw
    obtain rfl := hres.symm.trans hrestore
    refine ⟨hidle, hawaits, ?_⟩
    simp [SysEvent.sends, asks, hw, hres]
  · exact absurd rfl hr

/-- **A task has one request on its way at most, and none when it does not wait.** -/
theorem SysRun.oneCall {h : List (SysEvent lib)} {s : Sys lib} (run : SysRunIf d allow h s) :
    s.OneCall := by
  refine run.invariant (P := fun _ s => s.OneCall) ?_ ?_
  · rintro s ⟨orders, -, rfl⟩
    refine ⟨fun r _ n => Sys.calls_start orders n r, fun r n => ?_, fun _ _ _ _ => rfl⟩
    rw [Sys.calls_start]
    exact Nat.zero_le 1
  · intro h s e s' run ih hallow hs
    have hcount : ∀ r, ∃ n₀, ∀ n, n₀ ≤ n → s'.calls n r + e.takes r ≤ s.calls n r + e.sends r :=
      hs.outcome.calls
    have hbound : ∀ r n, s'.calls n r ≤ 1 ∧ (¬s'.Awaits r → s'.calls n r = 0) := by
      intro r n
      obtain ⟨n₀, hn₀⟩ := hcount r
      have hmono : s'.calls n r ≤ s'.calls (max n n₀) r := Sys.calls_mono (le_max_left n n₀)
      have hstep := hn₀ (max n n₀) (le_max_right n n₀)
      have hone := ih.one r (max n n₀)
      by_cases hsends : e.sends r = 0
      · refine ⟨by omega, fun hidle => ?_⟩
        by_cases hbefore : s.Awaits r
        · rcases hs.awaits run ih hbefore with hafter | htakes | ⟨orders, rfl⟩
          · exact absurd hafter hidle
          · omega
          · exact Sys.calls_start orders n r
        · have hzero := ih.idle r hbefore (max n n₀)
          omega
      · obtain ⟨hidle, hafter, hsent⟩ := hs.sends run hallow hsends
        have hzero := ih.idle r hidle (max n n₀)
        exact ⟨by omega, fun hno => absurd hafter hno⟩
    exact ⟨fun r hr n => (hbound r n).2 hr, fun r n => (hbound r n).1,
      fun _ _ _ hpc => hs.unspawned run hallow ih hpc⟩

/-! ## Which request it is -/

/-- A request that goes to a tracker counts. -/
theorem Sys.Heading.calls_pos {s : Sys lib} {index : ℕ} {request : ChainTrackerRequest}
    {w : WatchAccount} (h : s.Heading d index request) (hw : request.account = some w) :
    ∃ n, 1 + (s.replies w.res).isSome.toNat ≤ s.calls n w.res := by
  have hasks : asks w.res request.account = true := by simp [asks, hw]
  cases h with
  | queued r account hmem hreq =>
    have haccount : r.account = request.account :=
      (account_of_forTracker hreq).1.trans (account_of_forTracker hreq).2.symm
    have hpos : 0 < s.manager_queue.countP fun r => asks w.res r.account :=
      List.countP_pos_iff.mpr ⟨r, hmem, by rw [haccount]; exact hasks⟩
    refine ⟨0, ?_⟩
    unfold Sys.calls
    omega
  | forwarding hpc =>
    have hone : s.manager.calls w.res = 1 := by
      rw [hpc, ManagerPc.calls, hasks]
      rfl
    refine ⟨0, ?_⟩
    unfold Sys.calls
    omega
  | waiting hmem =>
    have hpos : 0 < queuedCalls w.res (s.tracker_queue index) :=
      List.countP_pos_iff.mpr ⟨request, hmem, hasks⟩
    have hsum : queuedCalls w.res (s.tracker_queue index) ≤
        ∑ i ∈ Finset.range (index + 1), queuedCalls w.res (s.tracker_queue i) :=
      Finset.single_le_sum (f := fun i => queuedCalls w.res (s.tracker_queue i))
        (fun _ _ => Nat.zero_le _) (Finset.self_mem_range_succ index)
    refine ⟨index + 1, ?_⟩
    unfold Sys.calls
    omega

/-- A task whose request goes to a tracker waits, and there is no answer for it yet. -/
theorem Sys.OneCall.awaits {s : Sys lib} (hone : s.OneCall) {index : ℕ}
    {request : ChainTrackerRequest} {w : WatchAccount} (h : s.Heading d index request)
    (hw : request.account = some w) : s.Awaits w.res ∧ s.replies w.res = none := by
  obtain ⟨n, hpos⟩ := h.calls_pos hw
  constructor
  · by_contra hidle
    have hzero := hone.idle w.res hidle n
    omega
  · have hle := hone.one w.res n
    cases hreply : s.replies w.res with
    | none => rfl
    | some result =>
      rw [hreply] at hpos
      have hone' : (some result).isSome.toNat = 1 := rfl
      omega

end Kalatori
