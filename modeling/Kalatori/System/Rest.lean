import Kalatori.System.Deadlock
import Kalatori.System.Delivery

/-!
# The daemon at rest

Each step that the daemon makes by itself leaves less work, so left alone it comes
to rest, in whatever order its tasks take their turns.  What it is like then is
read off task by task, since a task that could go on would not be at rest.

A tracker stands still in its queue, at its end, or where it is held: it has lost
its endpoint and would take the next, or the channel of the handler is full.  With
no tracker held everything else follows.  The queues of the trackers are empty, so
the manager finds room and its queue is empty too; no call is lost, so whoever
waits for the answer to one has it; and the handler, who waits for nobody, reads
its own queue until that is empty, or is through with the shutdown.

* `Sys.Held`, `Sys.Idle`, `Sys.Rested`: the daemon at rest.
* `comesToRest`: it comes to rest.
* `shutsDown`: after the notification it shuts down, unless a tracker is stuck.
-/

namespace Kalatori

open Program Transition

variable {lib : Libraries} {d : Deployment lib}

/-! ## States of rest -/

namespace Sys

/-- A step that the daemon makes by itself. -/
def Goes (d : Deployment lib) (s s' : Sys lib) : Prop :=
  ∃ e : SysEvent lib, e.own = true ∧ SysStep d s e s'

/-- No such step can be made. -/
def Still (d : Deployment lib) (s : Sys lib) : Prop := AtRest (Goes d) s

/-- **The tracker is held**: it is to take an endpoint, or it cannot tell the handler what it has
found. -/
inductive Held (s : Sys lib) (index : ℕ) : Prop
  | looking (hpc : (s.trackers index).pc = .rotate) (hcancelled : s.cancelled = false)
  | blocked (h : s.Blocked index)

/-- The tracker has served its queue. -/
structure Served (s : Sys lib) (index : ℕ) : Prop where
  there : (s.trackers index).pc.serving = true ∨ (s.trackers index).hasEnded = true
  empty : s.tracker_queue index = []

/-- **The daemon has nothing to do**, or has ended. -/
structure Idle (s : Sys lib) : Prop where
  manager_queue : s.manager_queue = []
  manager : s.manager = .serve ∨ s.manager = .ended
  restored : s.restored = true
  handler : s.store.handler.pc = .listening ∧ s.state_queue = [] ∧ s.cancelled = false ∨
    s.store.handler.hasEnded = true ∧ s.manager = .ended

/-- **The daemon at rest.** -/
structure Rested (d : Deployment lib) (s : Sys lib) : Prop where
  still : s.Still d
  payouts : s.payouts = []
  trackers : ∀ index < d.chain.length, s.Held index ∨ s.Served index
  idle : (∀ index < d.chain.length, ¬s.Held index) → s.Idle

end Sys

section Rest

variable {s : Sys lib}

/-! ## Steps that can be made -/

theorem Sys.Still.no_tracker {index : ℕ} {chain : Chain} {e : TrackerEvent lib} {t' : Tracker lib}
    (rest : s.Still d) (hc : d.chain[index]? = some chain)
    (hs : TrackerStep chain (s.trackers index) e t')
    (hown : (SysEvent.tracker index ⟨s.trackers index, e, t'⟩).own = true) :
    s.feed index e = none := by
  by_contra hsome
  obtain ⟨s₁, h⟩ := Option.ne_none_iff_exists'.mp hsome
  exact rest _ ⟨_, hown, .tracker index hc ⟨rfl, rfl, hs⟩ h⟩

theorem Sys.Still.no_outside (rest : s.Still d) {e : OutsideEvent}
    (hown : (SysEvent.outside e : SysEvent lib).own = true) : s.outside e = none := by
  by_contra hsome
  obtain ⟨s', h⟩ := Option.ne_none_iff_exists'.mp hsome
  exact rest s' ⟨.outside e, hown, .outside e h⟩

theorem Sys.Still.no_manager (rest : s.Still d) (e : ManagerEvent) :
    s.manage d e = none := by
  by_contra hsome
  obtain ⟨s', h⟩ := Option.ne_none_iff_exists'.mp hsome
  exact rest s' ⟨.manager e, rfl, .manager e h⟩

theorem Sys.Still.no_handler {e : HandlerEvent} {orders' : Orders} {handler' : Handler}
    (rest : s.Still d) (hs : HandlerStep lib s.store.handler e handler')
    (ho : StoreStep d.account_lifetime s.store.orders e orders') : s.attend d e = none := by
  by_contra hsome
  obtain ⟨s₁, h⟩ := Option.ne_none_iff_exists'.mp hsome
  exact rest _ ⟨.daemon _, rfl, .handler e (.handler hs ho) rfl h⟩

theorem Sys.Still.no_restore {said : Trace RestoreSig} {o : RestoreOp}
    {k : RestoreSig.Answer o → Prog RestoreSig Unit} (rest : s.Still d)
    (hp : s.restore = some (said, .call o k)) (answer : RestoreSig.Answer o) :
    s.assist ⟨o, answer⟩ = none := by
  by_contra hsome
  obtain ⟨s₁, h⟩ := Option.ne_none_iff_exists'.mp hsome
  exact rest _ ⟨.restore _, rfl, .restore answer hp h⟩

/-- The tree stays as it is when the handler says nothing. -/
theorem StoreStep.unsaid {account_lifetime : Timestamp} (orders : Orders) {e : HandlerEvent}
    (he : ∀ exchange, e ≠ .said exchange) : StoreStep account_lifetime orders e orders :=
  .other orders e fun request answer => he ⟨.db request, answer⟩

/-! ## The trackers and the payouts -/

theorem Sys.Still.payouts (rest : s.Still d) : s.payouts = [] := by
  refine List.eq_nil_iff_forall_not_mem.mpr fun request hmem => ?_
  have hnone := rest.no_outside (e := .payoutBegun request) rfl
  simp [Sys.outside, hmem] at hnone

/-- A program of a tracker goes on, unless it has a message and there is no room. -/
theorem Sys.Still.blocked {index : ℕ} {chain : Chain} (rest : s.Still d)
    (hc : d.chain[index]? = some chain) {said : Trace (TrackerSig lib)}
    {job : Prog (TrackerSig lib) (Except Stop (Continuation lib))}
    (hpc : (s.trackers index).pc = .busy said job) : s.Blocked index := by
  cases job with
  | done result => cases rest.no_tracker hc (.settled hpc) rfl
  | call o k =>
    cases o with
    | rpc call =>
      cases rest.no_tracker hc (.said (Except.error Stop.panicked : Except _ call.Result) hpc)
        rfl
    | now => cases rest.no_tracker hc (.said (0 : Timestamp) hpc) rfl
    | iterate watched_accounts =>
      cases rest.no_tracker hc (.said (Enumeration.ofMap watched_accounts) hpc) rfl
    | send message =>
      refine ⟨⟨said, message, k, hpc⟩, ?_⟩
      have htaken := rest.no_tracker hc (.said true hpc) rfl
      have hgone := rest.no_tracker hc (.said false hpc) rfl
      by_contra hroom
      cases hend : s.store.handler.hasEnded with
      | true => simp [Sys.feed, Sys.tellState, hend] at hgone
      | false => simp [Sys.feed, Sys.tellState, hend, Nat.lt_of_not_le hroom] at htaken

theorem Sys.Still.tracker {index : ℕ} (rest : s.Still d) (hn : index < d.chain.length) :
    s.Held index ∨ s.Served index := by
  obtain ⟨chain, hc⟩ : ∃ chain, d.chain[index]? = some chain := ⟨_, List.getElem?_eq_getElem hn⟩
  cases hpc : (s.trackers index).pc with
  | rotate =>
    refine .inl (.looking hpc ?_)
    by_contra hcancelled
    rw [Bool.not_eq_false] at hcancelled
    have hnone := rest.no_tracker hc (.stopped true hpc (.inr (.inl rfl))) rfl
    simp [Sys.feed, hcancelled] at hnone
  | busy said job => exact .inl (.blocked (rest.blocked hc hpc))
  | serve watcher =>
    refine .inr ⟨.inl (by rw [hpc]; rfl), ?_⟩
    cases hqueue : s.tracker_queue index with
    | nil => rfl
    | cons request queue =>
      have hnone := rest.no_tracker hc (.received request hpc) rfl
      simp [Sys.feed, hqueue] at hnone
  | ended result =>
    have hend : (s.trackers index).hasEnded = true := by rw [Tracker.hasEnded, hpc]
    refine .inr ⟨.inr hend, ?_⟩
    cases hqueue : s.tracker_queue index with
    | nil => rfl
    | cons request queue =>
      have hnone := rest.no_outside (e := .dropped index) rfl
      simp [Sys.outside, hend, hqueue] at hnone

/-! ## The others, when no tracker is held -/

/-- There is room in the channels of the trackers. -/
theorem Sys.Still.room {index : ℕ} (rest : s.Still d)
    (free : ∀ index < d.chain.length, ¬s.Held index) (hn : index < d.chain.length) :
    s.tracker_queue index = [] :=
  ((rest.tracker hn).resolve_left (free index hn)).empty

theorem Sys.Still.manager (rest : s.Still d) (hsteady : s.Steady d) (hdrains : s.Drains d)
    (free : ∀ index < d.chain.length, ¬s.Held index) :
    s.manager_queue = [] ∧ (s.manager = .serve ∨ s.manager = .ended) := by
  cases hpc : s.manager with
  | serve =>
    refine ⟨?_, .inl rfl⟩
    cases hqueue : s.manager_queue with
    | nil => rfl
    | cons request queue =>
      cases request with
      | watchAccount | reap =>
        have hnone := rest.no_manager .received
        simp [Sys.manage, hpc, hqueue, ChainRequest.forTracker] at hnone
      | shutdown =>
        have hperm := List.isPerm_iff.mpr (List.Perm.refl d.routes.watch_chain.entries)
        have hnone := rest.no_manager (.winding d.routes.watch_chain.entries)
        simp [Sys.manage, hpc, hqueue, hperm] at hnone
  | forward index request =>
    obtain ⟨_, -, hroute⟩ := hsteady.forwards _ _ hpc
    obtain ⟨_, hc⟩ := chain_of_route d.ignited hroute
    obtain ⟨hn, -⟩ := List.getElem?_eq_some_iff.mp hc
    have hnone := rest.no_manager .forwarded
    cases hend : (s.trackers index).hasEnded with
    | true => simp [Sys.manage, hpc, hend] at hnone
    | false => simp [Sys.manage, hpc, hend, Sys.tellTracker, rest.room free hn, capacity] at hnone
  | drain left =>
    cases left with
    | nil =>
      have hnone := rest.no_manager .finished
      simp [Sys.manage, hpc] at hnone
    | cons entry left =>
      obtain ⟨name, index⟩ := entry
      obtain ⟨done, hperm, -⟩ := hdrains _ (.inl hpc)
      have hmem : ⟨name, index⟩ ∈ d.routes.watch_chain.entries :=
        hperm.subset (List.mem_append_right _ List.mem_cons_self)
      obtain ⟨_, hc, -⟩ := ignite_watch d.ignited (AList.mem_lookup_iff.mpr hmem)
      obtain ⟨hn, -⟩ := List.getElem?_eq_some_iff.mp hc
      have hnone := rest.no_manager .asked
      cases hend : (s.trackers index).hasEnded with
      | true => simp [Sys.manage, hpc, hend] at hnone
      | false =>
        simp [Sys.manage, hpc, hend, Sys.tellTracker, rest.room free hn, capacity] at hnone
  | wait left =>
    have hnone := rest.no_manager .waited
    simp [Sys.manage, hpc] at hnone
  | ended =>
    refine ⟨?_, .inr rfl⟩
    cases hqueue : s.manager_queue with
    | nil => rfl
    | cons request queue =>
      have hnone := rest.no_manager .dropped
      simp [Sys.manage, hpc, hqueue] at hnone

/-- Whoever is at rest and waits for an answer has it. -/
theorem Sys.Still.replied {r : Requester} (rest : s.Still d)
    (free : ∀ index < d.chain.length, ¬s.Held index)
    (hmanager : s.manager_queue = [] ∧ (s.manager = .serve ∨ s.manager = .ended))
    (h : s.OnTheWay d r) : ∃ result, s.replies r = some result := by
  cases h with
  | asked request w hmem =>
    rw [hmanager.1] at hmem
    cases hmem
  | forwarded index request w hpc =>
    rcases hmanager.2 with hpc' | hpc'
    · cases hpc.symm.trans hpc'
    · cases hpc.symm.trans hpc'
  | waiting index request w hn hmem =>
    rw [rest.room free hn] at hmem
    cases hmem
  | spawned w hmem =>
    rw [rest.payouts] at hmem
    cases hmem
  | answered result hreply => exact ⟨result, hreply⟩

/-- The manager takes a request, or it is not there. -/
theorem Sys.exists_tellManager
    (hmanager : s.manager_queue = [] ∧ (s.manager = .serve ∨ s.manager = .ended))
    (request : ChainRequest) : ∃ taken, s.tellManager request taken ≠ none := by
  rcases hmanager.2 with hpc | hpc
  · exact ⟨true, by simp [Sys.tellManager, hpc, ManagerPc.hasEnded, hmanager.1, capacity]⟩
  · exact ⟨false, by simp [Sys.tellManager, hpc, ManagerPc.hasEnded]⟩

theorem Sys.Still.restored (rest : s.Still d)
    (free : ∀ index < d.chain.length, ¬s.Held index)
    (hmanager : s.manager_queue = [] ∧ (s.manager = .serve ∨ s.manager = .ended))
    (hway : s.Awaits .restore → s.OnTheWay d .restore) : s.restored = true := by
  match hp : s.restore with
  | none => rw [Sys.restored, hp]
  | some (_, .done ()) => rw [Sys.restored, hp]
  | some (said, .call (.send request) k) =>
    obtain ⟨taken, hsome⟩ := Sys.exists_tellManager hmanager request
    exact absurd (rest.no_restore hp taken) hsome
  | some (said, .call .await k) =>
    obtain ⟨result, hreply⟩ := rest.replied free hmanager (hway ⟨said, k, hp⟩)
    have hnone := rest.no_restore hp result
    simp [Sys.assist, Sys.takeReply, hreply] at hnone

/-- The handler is not in one of its programs. -/
theorem Sys.Still.not_busy (rest : s.Still d)
    (free : ∀ index < d.chain.length, ¬s.Held index)
    (hmanager : s.manager_queue = [] ∧ (s.manager = .serve ∨ s.manager = .ended))
    (hway : s.Awaits .stateHandler → s.OnTheWay d .stateHandler) {phase : HandlerPhase}
    {said : Trace HandlerSig} {program : Prog HandlerSig (Except Error HandlerNext)}
    (hstopping : ∀ k, program = .call .awaitShutdown k → s.Stopping)
    (hrefused : ∀ k, program ≠ .call .awaitRefused k) :
    s.store.handler.pc ≠ .busy phase said program := by
  intro hpc
  cases program with
  | done result => cases rest.no_handler (.settled hpc) (.unsaid _ (by simp))
  | call o k =>
    have hnone : ∀ answer, (∀ request, o ≠ .db request) →
        s.attend d (.said ⟨o, answer⟩) = none := by
      intro answer hdb
      refine rest.no_handler (.said answer hpc) (.other s.store.orders _ ?_)
      intro request answer' heq
      obtain ⟨rfl, -⟩ := Sigma.mk.inj (HandlerEvent.said.inj heq)
      exact hdb request rfl
    cases o with
    | chainManager => cases hnone true (by simp)
    | spawnRestore => cases hnone () (by simp)
    | publicKey => cases hnone (Except.error SignerError.signerDown : Except _ String) (by simp)
    | db request =>
      cases rest.no_handler
        (.said (Except.error DbError.dbEngineDown : Except _ request.Reply) hpc)
        (.down s.store.orders request)
    | reap => cases hnone () (by simp)
    | send request =>
      obtain ⟨taken, hsome⟩ := Sys.exists_tellManager hmanager request
      exact hsome (hnone taken (by simp))
    | await =>
      obtain ⟨result, hreply⟩ := rest.replied free hmanager (hway ⟨phase, said, k, hpc⟩)
      have hquiet := hnone result (by simp)
      simp [Sys.attend, Sys.takeReply, hreply] at hquiet
    | awaitShutdown =>
      have hend : s.manager = .ended := by
        cases hstopping k rfl with
        | asked hmem =>
          rw [hmanager.1] at hmem
          cases hmem
        | draining left hdrain =>
          rcases hmanager.2 with hpc' | hpc'
          · rcases hdrain with hdrain | hdrain <;> cases hdrain.symm.trans hpc'
          · exact hpc'
        | ended hend => exact hend
      have hquiet := hnone () (by simp)
      simp [Sys.attend, hend, ManagerPc.hasEnded] at hquiet
    | awaitRefused => exact hrefused k rfl
    | reply => cases hnone true (by simp)
    | dbShutdown => cases hnone () (by simp)
    | signerShutdown => cases hnone () (by simp)

theorem Sys.Still.handler (rest : s.Still d)
    (hmanager : s.manager_queue = [] ∧ (s.manager = .serve ∨ s.manager = .ended))
    (hrestored : s.restored = true)
    (hbusy : ∀ phase said program, s.store.handler.pc ≠ .busy phase said program) :
    s.store.handler.pc = .listening ∧ s.state_queue = [] ∧ s.cancelled = false ∨
      s.store.handler.hasEnded = true ∧ s.manager = .ended := by
  cases hpc : s.store.handler.pc with
  | busy phase said program => exact absurd hpc (hbusy _ _ _)
  | listening =>
    have hqueue : s.state_queue = [] := by
      cases hqueue : s.state_queue with
      | nil => rfl
      | cons request queue =>
        have hnone := rest.no_handler (.received request hpc) (.unsaid _ (by simp))
        simp [Sys.attend, hqueue] at hnone
    refine .inl ⟨rfl, hqueue, ?_⟩
    by_contra hcancelled
    rw [Bool.not_eq_false] at hcancelled
    have hnone := rest.no_handler (.notified hpc) (.unsaid _ (by simp))
    simp [Sys.attend, hqueue, hcancelled] at hnone
  | ended result =>
    have hend : s.store.handler.hasEnded = true := by rw [Handler.hasEnded, hpc]
    refine .inr ⟨hend, hmanager.2.resolve_left fun hserve => ?_⟩
    have hnone := rest.no_manager .closed
    simp [Sys.manage, hserve, hmanager.1, hend, hrestored] at hnone

end Rest

/-! ## It comes to rest -/

section Runs

variable {allow : List (SysEvent lib) → Sys lib → SysEvent lib → Prop} {h : List (SysEvent lib)}
  {s : Sys lib}

/-- **What the daemon is like at rest.** -/
theorem SysRun.rested (run : SysRunIf d allow h s) (rest : s.Still d) :
    s.Rested d := by
  refine ⟨rest, rest.payouts, fun index hn => rest.tracker hn, fun free => ?_⟩
  have hmanager := rest.manager (SysRun.steady run) (SysRun.drains run) free
  have hrestored := rest.restored free hmanager fun ha => SysRun.onTheWay run ha
  refine ⟨hmanager.1, hmanager.2, hrestored, rest.handler hmanager hrestored ?_⟩
  intro phase said program hpc
  refine rest.not_busy free hmanager (fun ha => SysRun.onTheWay run ha) (fun k hprogram => ?_)
    (fun k hprogram => ?_) hpc
  · subst hprogram
    exact SysRun.stopping run hpc
  · subst hprogram
    exact SysRun.not_refused run hpc

/-- The steps that the daemon makes by itself come to an end. -/
theorem Sys.goes_wf (P : Sys lib → Prop) (hP : ∀ s, P s → ∃ h, SysRun d h s) :
    WellFounded fun s' s : Sys lib => P s ∧ s.Goes d s' := by
  refine Subrelation.wf ?_ (Sys.lessWork_wf d)
  rintro s' s ⟨hs, e, hown, hstep⟩
  obtain ⟨h, run⟩ := hP s hs
  exact hstep.lessWork run hown

/-- **The daemon comes to rest**, from every state of every run and in whatever order its tasks
take their turns: then each tracker has served its queue or is held, and if none is held there is
nothing left to do. -/
theorem comesToRest (run : SysRun d h s) : Inevitable (Sys.Goes d) (Sys.Rested d) s := by
  refine Inevitable.of_wf (fun s => ∃ h, SysRun d h s)
    (Sys.goes_wf _ fun _ h => h) ?_ ?_ ⟨h, run⟩
  · rintro s s' ⟨h, run⟩ ⟨e, -, hs⟩
    exact ⟨_, run.next trivial hs⟩
  · rintro s ⟨h, run⟩ rest
    exact SysRun.rested run rest

/-- The handler waits for a tracker that is to send it a message. -/
theorem comesToRest_twoPayments : ∃ h s, SysRun Sample.deployment h s ∧
    s.WaitsFor Sample.deployment 0 ∧
      Inevitable (Sys.Goes Sample.deployment) (Sys.Rested Sample.deployment) s := by
  obtain ⟨h, s, run, hp⟩ := exists_reach_of_replay (Sys.exec_sound Sample.deployment)
    (Sys.Begun Sample.deployment) Sample.begun Sample.twoPayments
    (p := fun q => q.2.waiting) (by decide +kernel)
  exact ⟨h, s, run, (waitsFor_of_waiting hp).1, comesToRest run⟩

/-- The notification is not taken back. -/
theorem Outcome.cancelled_kept {s' : Sys lib} {e : SysEvent lib} (ho : Outcome d s e s')
    (hown : e.own = true) (hcancelled : s.cancelled = true) : s'.cancelled = true := by
  cases ho with
  | restarted => cases hown
  | cancelled => rfl
  | droppedTracker | lost | took => simpa using hcancelled
  | _ => exact hcancelled

/-- **After the notification the daemon shuts down**, unless a tracker has a message for the
handler and there is no room for it. -/
theorem shutsDown (run : SysRun d h s) (hcancelled : s.cancelled = true) :
    Inevitable (Sys.Goes d)
      (fun s => s.Still d ∧ ((∃ index < d.chain.length, s.Blocked index) ∨
        s.store.handler.hasEnded = true ∧ s.manager = .ended ∧ s.restored = true)) s := by
  refine Inevitable.of_wf (fun s => (∃ h, SysRun d h s) ∧ s.cancelled = true)
    (Sys.goes_wf _ fun _ h => h.1) ?_ ?_ ⟨⟨h, run⟩, hcancelled⟩
  · rintro s s' ⟨⟨h, run⟩, hcancelled⟩ ⟨e, hown, hs⟩
    exact ⟨⟨_, run.next trivial hs⟩, hs.outcome.cancelled_kept hown hcancelled⟩
  · rintro s ⟨⟨h, run⟩, hcancelled⟩ rest
    refine ⟨rest, ?_⟩
    by_cases hblocked : ∃ index < d.chain.length, s.Blocked index
    · exact .inl hblocked
    · have hidle := (SysRun.rested run rest).idle fun index hn hheld => by
        cases hheld with
        | looking _ hnot => cases hcancelled.symm.trans hnot
        | blocked h => exact hblocked ⟨index, hn, h⟩
      refine .inr ?_
      rcases hidle.handler with ⟨-, -, hnot⟩ | ⟨hend, hmanager⟩
      · cases hcancelled.symm.trans hnot
      · exact ⟨hend, hmanager, hidle.restored⟩

/-- The notification comes while the handler waits for the tracker. -/
theorem shutsDown_twoPayments : ∃ h s, SysRun Sample.deployment h s ∧
    s.WaitsFor Sample.deployment 0 ∧
      Inevitable (Sys.Goes Sample.deployment)
        (fun s => s.Still Sample.deployment ∧
          ((∃ index < Sample.deployment.chain.length, s.Blocked index) ∨
            s.store.handler.hasEnded = true ∧ s.manager = .ended ∧ s.restored = true)) s := by
  obtain ⟨h, s, run, hp⟩ := exists_reach_of_replay (Sys.exec_sound Sample.deployment)
    (Sys.Begun Sample.deployment) Sample.begun (Sample.twoPayments ++ [.outside .cancelled])
    (p := fun q => q.2.waiting && q.2.cancelled) (by decide +kernel)
  rw [Bool.and_eq_true] at hp
  exact ⟨h, s, run, (waitsFor_of_waiting hp.1).1, shutsDown run hp.2⟩

end Runs

end Kalatori
