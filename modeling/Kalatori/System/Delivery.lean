import Kalatori.System.Handover
import Kalatori.System.Work

/-!
# No call is lost

A task that calls the chain manager waits for the answer, and nothing wakes it but
the answer.  So its call must not get lost: as long as the task waits, the call is
in one of the channels, in the hands of the manager, or with a payout that has not
begun, or the answer is there already.  The same is true of the handler when it
waits for the end of the manager: the manager has been asked to shut down, and it
does not forget it.

* `Sys.OnTheWay`, `SysRun.onTheWay`: where the call of a task is.
* `SysRun.stopping`: the manager while the handler waits for its end.
* `SysRun.not_refused`: the handler asks a manager that is there.
-/

namespace Kalatori

open Program Transition

variable {lib : Libraries} {d : Deployment lib}
  {allow : List (SysEvent lib) → Sys lib → SysEvent lib → Prop}

/-- **The call of a task is on its way**, or its answer is there. -/
inductive Sys.OnTheWay (d : Deployment lib) (s : Sys lib) (r : Requester) : Prop
  | asked (request : ChainRequest) (w : WatchAccount) (hmem : request ∈ s.manager_queue)
      (haccount : request.account = some w) (hres : w.res = r)
  | forwarded (index : ℕ) (request : ChainTrackerRequest) (w : WatchAccount)
      (hpc : s.manager = .forward index request) (haccount : request.account = some w)
      (hres : w.res = r)
  | waiting (index : ℕ) (request : ChainTrackerRequest) (w : WatchAccount)
      (hn : index < d.chain.length) (hmem : request ∈ s.tracker_queue index)
      (haccount : request.account = some w) (hres : w.res = r)
  | spawned (w : WatchAccount) (hmem : w ∈ s.payouts) (hres : w.res = r)
  | answered (result : Except ChainError Unit) (hreply : s.replies r = some result)

/-! ## Answers -/

section Answers

variable {s : Sys lib} {r : Requester} {w : WatchAccount}

theorem Sys.onTheWay_answer (s : Sys lib) (hres : w.res = r) (result : Except ChainError Unit) :
    (s.answer w.res result).OnTheWay d r := by
  refine .answered result ?_
  rw [hres]
  exact Function.update_self _ _ _

theorem Sys.onTheWay_drop (s : Sys lib) {request : ChainTrackerRequest}
    (haccount : request.account = some w) (hres : w.res = r) :
    (s.drop request).OnTheWay d r := by
  cases request with
  | watchAccount w' | reap w' =>
    obtain rfl := Option.some.inj haccount
    exact Sys.onTheWay_answer s hres _
  | newBlock | shutdown => cases haccount

theorem Sys.onTheWay_accept (s : Sys lib) {request : ChainTrackerRequest}
    (haccount : request.account = some w) (hres : w.res = r) :
    (s.accept request).OnTheWay d r := by
  cases request with
  | watchAccount w' =>
    obtain rfl := Option.some.inj haccount
    exact Sys.onTheWay_answer s hres _
  | reap w' =>
    obtain rfl := Option.some.inj haccount
    exact .spawned w' (List.mem_append_right _ (List.mem_singleton_self _)) hres
  | newBlock | shutdown => cases haccount

/-- An answer that is there is there when another one comes. -/
theorem Sys.onTheWay_replied (s : Sys lib) (res : Requester) (result : Except ChainError Unit)
    {result' : Except ChainError Unit} (h : s.replies r = some result') :
    (s.answer res result).OnTheWay d r := by
  by_cases hr : r = res
  · subst hr
    exact .answered result (Function.update_self _ _ _)
  · refine .answered result' ?_
    exact (Function.update_of_ne hr _ _).trans h

end Answers

/-! ## One step -/

section Steps

variable {s s' : Sys lib} {e : SysEvent lib} {r : Requester} {w : WatchAccount}

/-- A call in the channel of the manager. -/
theorem Outcome.onTheWay_asked (ho : Outcome d s e s') (hrestart : ¬e.Restarts)
    {request : ChainRequest} (hmem : request ∈ s.manager_queue)
    (haccount : request.account = some w) (hres : w.res = r) : s'.OnTheWay d r := by
  have hpop : ∀ {first : ChainRequest} {rest}, s.manager_queue = first :: rest →
      request = first ∨ request ∈ rest :=
    fun hqueue => List.mem_cons.mp (hqueue ▸ hmem)
  cases ho with
  | restarted => exact absurd ⟨_, rfl, rfl⟩ hrestart
  | refused first rest account forward error _ hqueue hreq =>
    rcases hpop hqueue with rfl | hmem
    · obtain rfl := Option.some.inj (haccount.symm.trans (account_of_forTracker hreq).1)
      exact Sys.onTheWay_answer _ hres _
    · exact .asked request w hmem haccount hres
  | routed first rest account forward index _ hqueue hreq =>
    rcases hpop hqueue with rfl | hmem
    · obtain rfl := Option.some.inj (haccount.symm.trans (account_of_forTracker hreq).1)
      exact .forwarded index forward w rfl (account_of_forTracker hreq).2 hres
    · exact .asked request w hmem haccount hres
  | dropped account first forward rest _ hqueue hreq =>
    rcases hpop hqueue with rfl | hmem
    · obtain rfl := Option.some.inj (haccount.symm.trans (account_of_forTracker hreq).1)
      exact Sys.onTheWay_answer _ hres _
    · exact .asked request w hmem haccount hres
  | winding _ rest _ hqueue | droppedShutdown rest _ hqueue =>
    rcases hpop hqueue with rfl | hmem
    · cases haccount
    · exact .asked request w hmem haccount hres
  | handlerSent => exact .asked request w (List.mem_append_left _ hmem) haccount hres
  | restoreSent _ taken =>
    refine .asked request w ?_ haccount hres
    cases taken with
    | true => exact List.mem_append_left _ hmem
    | false => exact hmem
  | droppedTracker | lost | took => exact .asked request w (by simpa using hmem) haccount hres
  | _ => exact .asked request w hmem haccount hres

/-- A call in the hands of the manager. -/
theorem Outcome.onTheWay_forwarded (ho : Outcome d s e s') (hsteady : s.Steady d)
    (hrestart : ¬e.Restarts) {index : ℕ} {request : ChainTrackerRequest}
    (hpc : s.manager = .forward index request) (haccount : request.account = some w)
    (hres : w.res = r) : s'.OnTheWay d r := by
  cases ho with
  | restarted => exact absurd ⟨_, rfl, rfl⟩ hrestart
  | forwarded index' request' hpc' =>
    obtain ⟨rfl, rfl⟩ := ManagerPc.forward.inj (hpc.symm.trans hpc')
    obtain ⟨_, -, hroute⟩ := hsteady.forwards _ _ hpc
    obtain ⟨_, hc⟩ := chain_of_route d.ignited hroute
    obtain ⟨hn, -⟩ := List.getElem?_eq_some_iff.mp hc
    refine .waiting index request w hn ?_ haccount hres
    show request ∈ Function.update s.tracker_queue index _ index
    rw [Function.update_self]
    exact List.mem_append_right _ (List.mem_singleton_self _)
  | lost index' request' hpc' =>
    obtain ⟨rfl, rfl⟩ := ManagerPc.forward.inj (hpc.symm.trans hpc')
    exact Sys.onTheWay_drop _ haccount hres
  | refused _ _ _ _ _ hpc' | routed _ _ _ _ _ hpc' | winding _ _ hpc' | asked _ _ _ hpc'
  | skipped _ _ _ hpc' | waited _ hpc' | finished hpc' | closed hpc' | dropped _ _ _ _ hpc'
  | droppedShutdown _ hpc' => cases hpc.symm.trans hpc'
  | droppedTracker | took =>
    exact .forwarded index request w (by simpa using hpc) haccount hres
  | _ => exact .forwarded index request w hpc haccount hres

/-- A call in the channel of a tracker. -/
theorem Outcome.onTheWay_waiting (ho : Outcome d s e s') (hrestart : ¬e.Restarts) {index : ℕ}
    {request : ChainTrackerRequest} (hn : index < d.chain.length)
    (hmem : request ∈ s.tracker_queue index) (haccount : request.account = some w)
    (hres : w.res = r) : s'.OnTheWay d r := by
  have hpush : ∀ i last,
      request ∈ Function.update s.tracker_queue i (s.tracker_queue i ++ [last]) index := by
    intro i last
    by_cases hi : index = i
    · subst hi
      rw [Function.update_self]
      exact List.mem_append_left _ hmem
    · rw [Function.update_of_ne hi]
      exact hmem
  have hpop : ∀ {i : ℕ} {first : ChainTrackerRequest} {rest}, s.tracker_queue i = first :: rest →
      request = first ∨ request ∈ Function.update s.tracker_queue i rest index := by
    intro i first rest hqueue
    by_cases hi : index = i
    · subst hi
      rw [Function.update_self]
      exact List.mem_cons.mp (hqueue ▸ hmem)
    · rw [Function.update_of_ne hi]
      exact .inr hmem
  cases ho with
  | restarted => exact absurd ⟨_, rfl, rfl⟩ hrestart
  | blockSeen | forwarded | asked =>
    exact .waiting index request w hn (hpush _ _) haccount hres
  | droppedTracker i first rest _ hqueue =>
    rcases hpop hqueue with rfl | hmem
    · exact Sys.onTheWay_drop _ haccount hres
    · exact .waiting index request w hn (by simpa using hmem) haccount hres
  | took i first rest _ _ _ hqueue =>
    rcases hpop hqueue with rfl | hmem
    · exact Sys.onTheWay_accept _ haccount hres
    · exact .waiting index request w hn (by simpa using hmem) haccount hres
  | lost => exact .waiting index request w hn (by simpa using hmem) haccount hres
  | _ => exact .waiting index request w hn hmem haccount hres

/-- A call with a payout that has not begun. -/
theorem Outcome.onTheWay_spawned (ho : Outcome d s e s') (hrestart : ¬e.Restarts)
    (hmem : w ∈ s.payouts) (hres : w.res = r) : s'.OnTheWay d r := by
  cases ho with
  | restarted => exact absurd ⟨_, rfl, rfl⟩ hrestart
  | payoutBegun request =>
    by_cases heq : w = request
    · subst heq
      exact Sys.onTheWay_answer _ hres _
    · exact .spawned w ((List.mem_erase_of_ne heq).mpr hmem) hres
  | took _ request =>
    cases request with
    | reap => exact .spawned w (List.mem_append_left _ hmem) hres
    | watchAccount | newBlock | shutdown => exact .spawned w hmem hres
  | droppedTracker | lost => exact .spawned w (by simpa using hmem) hres
  | _ => exact .spawned w hmem hres

/-- An answer that nobody has looked at. -/
theorem Outcome.onTheWay_answered (ho : Outcome d s e s') (hrestart : ¬e.Restarts)
    {result : Except ChainError Unit} (hreply : s.replies r = some result) :
    s'.OnTheWay d r ∨ e.takes r ≠ 0 := by
  cases ho with
  | restarted => exact absurd ⟨_, rfl, rfl⟩ hrestart
  | handlerAnswered _ _ he =>
    cases r with
    | stateHandler =>
      refine .inr ?_
      rw [takes_daemon _ he]
      exact one_ne_zero
    | restore => exact .inl (.answered result hreply)
  | restoreAnswered =>
    cases r with
    | stateHandler => exact .inl (.answered result hreply)
    | restore => exact .inr one_ne_zero
  | payoutBegun | refused | dropped => exact .inl (Sys.onTheWay_replied _ _ _ hreply)
  | droppedTracker _ request | lost _ request =>
    cases request with
    | watchAccount | reap => exact .inl (Sys.onTheWay_replied _ _ _ hreply)
    | newBlock | shutdown => exact .inl (.answered result hreply)
  | took _ request =>
    cases request with
    | watchAccount => exact .inl (Sys.onTheWay_replied _ _ _ hreply)
    | reap | newBlock | shutdown => exact .inl (.answered result hreply)
  | _ => exact .inl (.answered result hreply)

/-- **A call does not get lost**: it is still on its way after a step, unless the task takes its
answer. -/
theorem Outcome.onTheWay (ho : Outcome d s e s') (hsteady : s.Steady d) (hrestart : ¬e.Restarts)
    (h : s.OnTheWay d r) : s'.OnTheWay d r ∨ e.takes r ≠ 0 := by
  cases h with
  | asked request w hmem haccount hres =>
    exact .inl (ho.onTheWay_asked hrestart hmem haccount hres)
  | forwarded index request w hpc haccount hres =>
    exact .inl (ho.onTheWay_forwarded hsteady hrestart hpc haccount hres)
  | waiting index request w hn hmem haccount hres =>
    exact .inl (ho.onTheWay_waiting hrestart hn hmem haccount hres)
  | spawned w hmem hres => exact .inl (ho.onTheWay_spawned hrestart hmem hres)
  | answered result hreply => exact ho.onTheWay_answered hrestart hreply

/-- What is sent is in the channel of the manager. -/
theorem Outcome.mem_manager_queue (ho : Outcome d s e s') {request : ChainRequest}
    (hsends : e.Sends request) : request ∈ s'.manager_queue := by
  rcases hsends with ⟨x, rfl, he⟩ | rfl
  · cases ho with
    | handler ev _ he' hquiet =>
      obtain rfl := DaemonEvent.handler.inj (he'.symm.trans he)
      cases hquiet.1
    | handlerSent request' _ he' =>
      obtain ⟨⟩ := he'.symm.trans he
      exact List.mem_append_right _ (List.mem_singleton_self _)
    | spawned _ _ he' | handlerAnswered _ _ he' | databaseShutDown _ he' | received _ _ _ he' =>
      cases he'.symm.trans he
    | restarted => cases he
  · cases ho with
    | restoreSent => exact List.mem_append_right _ (List.mem_singleton_self _)

/-- A request of the handler is refused by a manager that is over. -/
theorem Outcome.refused_send {x : DaemonTurn} {request : ChainRequest}
    (ho : Outcome d s (.daemon x) s') (he : x.event = .handler (.said ⟨.send request, false⟩)) :
    s.manager = .ended := by
  cases ho with
  | handler ev _ he' hquiet =>
    obtain rfl := DaemonEvent.handler.inj (he'.symm.trans he)
    exact hquiet.2
  | handlerSent _ _ he' | spawned _ _ he' | handlerAnswered _ _ he' | databaseShutDown _ he'
  | received _ _ _ he' => cases he'.symm.trans he
  | restarted => cases he

end Steps

/-! ## Who begins to wait -/

section Waiting

variable {h : List (SysEvent lib)} {s s' : Sys lib} {e : SysEvent lib} {r : Requester}

theorem Sys.not_awaits_start (orders : Orders) (r : Requester) :
    ¬(Sys.start d orders).Awaits r := by
  cases r with
  | stateHandler =>
    rintro ⟨phase, said, k, hpc⟩
    obtain ⟨-, -, hprogram⟩ := HandlerPc.busy.inj hpc
    cases hprogram
  | restore =>
    rintro ⟨said, k, hp⟩
    cases hp

/-- A task that waits has just asked. -/
theorem SysRun.restore_asking (run : SysRunIf d allow h s) {said : Trace RestoreSig}
    {k : Except ChainError Unit → Prog RestoreSig Unit}
    (hp : s.restore = some (said, .call .await k)) : asking said = true := by
  obtain ⟨_, -, hholds⟩ := (SysRun.traced run).restoring _ _ hp
  exact hholds.1

/-- A task that takes its answer does not wait any more. -/
theorem SysStep.not_awaits (run : SysRunIf d allow h s) (hallow : allow h s e)
    (hs : SysStep d s e s') (htakes : e.takes r ≠ 0) : ¬s'.Awaits r := by
  unfold SysEvent.takes at htakes
  split at htakes
  · rename_i before result after
    cases r with
    | restore => exact absurd rfl htakes
    | stateHandler =>
      obtain ⟨phase, said, k, -, hpc, -⟩ := hs.outcome.daemonStep.said rfl
      have hpc' : s'.store.handler.pc = .busy phase (said ++ [⟨.await, result⟩]) (k result) := by
        rw [hpc]
      obtain ⟨_, _, _, -, -, hsound⟩ := SysRun.handler_sound (run.next hallow hs)
      intro hawaits
      have hexpecting := (hsound.awaits_iff hpc').mp hawaits
      simp [expecting] at hexpecting
  · cases r with
    | stateHandler => exact absurd rfl htakes
    | restore =>
      have ho := hs.outcome
      rintro ⟨said', k', hp'⟩
      have hasking := SysRun.restore_asking (run.next hallow hs) hp'
      cases ho with
      | restoreAnswered result hp =>
        obtain ⟨rfl, -⟩ := Prod.mk.inj (Option.some.inj hp')
        simp [asking] at hasking
  · exact absurd rfl htakes

/-- **A task that waits did so before, or sends its call in the step.** -/
theorem SysStep.begins_to_wait (run : SysRunIf d allow h s) (hallow : allow h s e)
    (hs : SysStep d s e s') (ha : s'.Awaits r) :
    (s.Awaits r ∧ ¬e.Restarts) ∨
      ∃ request w, e.Sends request ∧ request.account = some w ∧ w.res = r := by
  cases r with
  | stateHandler =>
    have hawaits := ha
    obtain ⟨phase, said, k, hpc⟩ := ha
    obtain ⟨_, _, _, -, -, hsound⟩ := SysRun.handler_sound (run.next hallow hs)
    have hexpecting := (hsound.awaits_iff hpc).mp hawaits
    rcases hs.outcome.store with ⟨x, rfl, hx⟩ | ⟨he, heq⟩
    · have hne : said ≠ [] := by
        rintro rfl
        cases hexpecting
      obtain ⟨said₀, exchange, _, rfl, he, -⟩ := hx.said_snoc hpc hne
      simp only [expecting, List.getLast?_append, List.getLast?_singleton,
        Option.some_or] at hexpecting
      split at hexpecting
      · rename_i request heq
        obtain rfl := Option.some.inj heq
        obtain ⟨w, hw⟩ := Option.isSome_iff_exists.mp hexpecting
        obtain ⟨hres, -⟩ := handler_sends run hallow hs he hw
        exact .inr ⟨request, w, .inl ⟨x, rfl, he⟩, hw, hres⟩
      · cases hexpecting
    · refine .inl ⟨⟨phase, said, k, heq ▸ hpc⟩, ?_⟩
      rintro ⟨x, rfl, -⟩
      cases he
  | restore =>
    obtain ⟨said, k, hp⟩ := ha
    have hasking := SysRun.restore_asking (run.next hallow hs) hp
    have hne : said ≠ [] := by
      rintro rfl
      cases hasking
    rcases hs.outcome.restore_snoc hp hne with hp' | ⟨said₀, exchange, _, rfl, rfl, -⟩
    · refine .inl ⟨⟨said, k, hp'⟩, fun hrestart => ?_⟩
      rw [hs.outcome.restarted_eq hrestart] at hp
      cases hp
    · simp only [asking, List.getLast?_append, List.getLast?_singleton, Option.some_or] at hasking
      split at hasking
      · rename_i request heq
        obtain rfl := Option.some.inj heq
        obtain ⟨⟨w, rfl, hres⟩, -⟩ := restore_sends run hallow hs
        exact .inr ⟨_, w, .inr rfl, rfl, hres⟩
      · cases hasking

/-- **While a task waits, its call is on its way.** -/
theorem SysRun.onTheWay (run : SysRunIf d allow h s) (ha : s.Awaits r) : s.OnTheWay d r := by
  refine run.invariant (P := fun _ s => s.Awaits r → s.OnTheWay d r) ?_ ?_ ha
  · rintro s ⟨orders, -, rfl⟩ ha
    exact absurd ha (Sys.not_awaits_start orders r)
  · rintro h s e s' run ih hallow hs ha
    rcases hs.begins_to_wait run hallow ha with ⟨hbefore, hrestart⟩ | ⟨request, w, hsends, hw, hres⟩
    · rcases hs.outcome.onTheWay (SysRun.steady run) hrestart (ih hbefore) with hway | htakes
      · exact hway
      · exact absurd ha (hs.not_awaits run hallow htakes)
    · exact .asked request w (hs.outcome.mem_manager_queue hsends) hw hres

end Waiting

/-! ## The end of the manager -/

section Stopping

variable {h : List (SysEvent lib)} {s s' : Sys lib} {e : SysEvent lib}

/-- The manager does not forget that it was asked to shut down. -/
theorem Outcome.stopping (ho : Outcome d s e s') (hrestart : ¬e.Restarts) (h : s.Stopping) :
    s'.Stopping := by
  cases h with
  | asked hmem =>
    have hpop : ∀ {first : ChainRequest} {rest}, s.manager_queue = first :: rest →
        first = .shutdown ∨ .shutdown ∈ rest := by
      intro first rest hqueue
      rcases List.mem_cons.mp (hqueue ▸ hmem) with heq | hmem
      · exact .inl heq.symm
      · exact .inr hmem
    cases ho with
    | restarted => exact absurd ⟨_, rfl, rfl⟩ hrestart
    | refused _ _ _ _ _ _ hqueue hreq | routed _ _ _ _ _ _ hqueue hreq
    | dropped _ _ _ _ _ hqueue hreq =>
      rcases hpop hqueue with rfl | hmem
      · cases hreq
      · exact .asked hmem
    | winding left => exact .draining left (.inl rfl)
    | droppedShutdown _ hpc => exact .ended hpc
    | handlerSent => exact .asked (List.mem_append_left _ hmem)
    | restoreSent _ taken =>
      cases taken with
      | true => exact .asked (List.mem_append_left _ hmem)
      | false => exact .asked hmem
    | droppedTracker | lost | took => exact .asked (by simpa using hmem)
    | _ => exact .asked hmem
  | draining left hpc =>
    have hdrains : s.manager ≠ .serve ∧ s.manager ≠ .ended ∧
        ∀ index request, s.manager ≠ .forward index request := by
      rcases hpc with hpc | hpc <;> simp [hpc]
    cases ho with
    | restarted => exact absurd ⟨_, rfl, rfl⟩ hrestart
    | refused _ _ _ _ _ hpc' | routed _ _ _ _ _ hpc' | winding _ _ hpc' | closed hpc' =>
      exact absurd hpc' hdrains.1
    | dropped _ _ _ _ hpc' | droppedShutdown _ hpc' => exact absurd hpc' hdrains.2.1
    | forwarded _ _ hpc' | lost _ _ hpc' => exact absurd hpc' (hdrains.2.2 _ _)
    | asked _ _ rest => exact .draining rest (.inr rfl)
    | skipped _ _ rest | waited rest => exact .draining rest (.inl rfl)
    | finished => exact .ended rfl
    | droppedTracker | took => exact .draining left (by simpa using hpc)
    | _ => exact .draining left hpc
  | ended hpc =>
    cases ho with
    | restarted => exact absurd ⟨_, rfl, rfl⟩ hrestart
    | refused _ _ _ _ _ hpc' | routed _ _ _ _ _ hpc' | winding _ _ hpc' | forwarded _ _ hpc'
    | lost _ _ hpc' | asked _ _ _ hpc' | skipped _ _ _ hpc' | waited _ hpc' =>
      cases hpc.symm.trans hpc'
    | finished | closed => exact .ended rfl
    | droppedTracker | took => exact .ended (by simpa using hpc)
    | _ => exact .ended hpc

/-- What the handler has said when it waits for the end of the manager. -/
theorem Winds.awaitShutdown {said : Trace HandlerSig} (h : Winds said .awaitShutdown) :
    said = [⟨.send .shutdown, true⟩] := by
  cases h with
  | next answer rest h =>
    have hsaid : said = [⟨.send .shutdown, true⟩] ∧
        rest = [⟨.dbShutdown, ()⟩, ⟨.signerShutdown, ()⟩] := by
      simpa [shutDownSaid, List.append_eq_cons_iff, List.cons_eq_append_iff] using h
    exact hsaid.1
  | hangs _ ho => cases ho

/-- **While the handler waits for the end of the manager, the manager is at it.** -/
theorem SysRun.stopping (run : SysRunIf d allow h s) {phase : HandlerPhase}
    {said : Trace HandlerSig} {k : Unit → Prog HandlerSig (Except Error HandlerNext)}
    (hpc : s.store.handler.pc = .busy phase said (.call .awaitShutdown k)) : s.Stopping := by
  refine run.invariant (P := fun _ s => ∀ phase said k,
    s.store.handler.pc = .busy phase said (.call .awaitShutdown k) → s.Stopping) ?_ ?_ _ _ _ hpc
  · rintro s ⟨orders, -, rfl⟩ phase said k hpc
    obtain ⟨-, -, hprogram⟩ := HandlerPc.busy.inj hpc
    cases hprogram
  · rintro h s e s' run ih hallow hs phase said k hpc
    obtain ⟨_, _, _, -, -, hsound⟩ := SysRun.handler_sound (run.next hallow hs)
    rcases hs.outcome.store with ⟨x, rfl, hx⟩ | ⟨he, heq⟩
    · rcases hsound.at_call hpc with ⟨-, -, ho⟩ | ⟨-, _, _, -, ho⟩ | ⟨-, _, -, ho⟩
      · cases ho
      · cases ho
      · obtain rfl := ho.awaitShutdown
        obtain ⟨said₀, exchange, _, hsaid, he, -⟩ := hx.said_snoc hpc (List.cons_ne_nil _ _)
        obtain ⟨-, rfl⟩ := List.append_singleton_inj.mp ((List.nil_append _).trans hsaid)
        exact .asked (hs.outcome.mem_manager_queue (.inl ⟨x, rfl, he⟩))
    · refine hs.outcome.stopping ?_ (ih phase said k (heq ▸ hpc))
      rintro ⟨x, rfl, -⟩
      cases he

/-- **The handler does not wait without end for a manager that is gone**: the manager ends only
when the handler has asked it to. -/
theorem SysRun.not_refused (run : SysRunIf d allow h s) {phase : HandlerPhase}
    {said : Trace HandlerSig} {k : Empty → Prog HandlerSig (Except Error HandlerNext)} :
    s.store.handler.pc ≠ .busy phase said (.call .awaitRefused k) := by
  refine run.invariant (P := fun _ s => ∀ phase said k,
    s.store.handler.pc ≠ .busy phase said (.call .awaitRefused k)) ?_ ?_ phase said k
  · rintro s ⟨orders, -, rfl⟩ phase said k hpc
    obtain ⟨-, -, hprogram⟩ := HandlerPc.busy.inj hpc
    cases hprogram
  · rintro h s e s' run ih hallow hs phase said k hpc
    obtain ⟨_, _, _, -, -, hsound⟩ := SysRun.handler_sound (run.next hallow hs)
    rcases hs.outcome.store with ⟨x, rfl, hx⟩ | ⟨-, heq⟩
    · rcases hsound.at_call hpc with ⟨-, -, ho⟩ | ⟨-, _, _, -, ho⟩ | ⟨rfl, _, -, ho⟩
      · cases ho
      · cases ho
      · cases ho with
        | next never => exact never.elim
        | hangs hsaid =>
          subst hsaid
          obtain ⟨said₀, exchange, program, hsaid, he, hbefore⟩ :=
            hx.said_snoc hpc (List.cons_ne_nil _ _)
          obtain ⟨rfl, rfl⟩ := List.append_singleton_inj.mp ((List.nil_append _).trans hsaid)
          -- A refusal takes a manager that is over.
          exact SysRun.attended_winding run hbefore (.ended (hs.outcome.refused_send he))
    · exact ih phase said k (heq ▸ hpc)

end Stopping

end Kalatori
