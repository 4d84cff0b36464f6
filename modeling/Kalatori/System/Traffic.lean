import Kalatori.System.Outcome

/-!
# Where the messages come from

Nothing is watched that was not asked for, nothing is asked for that no task
sent, and no payment reaches the state handler that no tracker reported.  The
sentences of this module hold in every run of the daemon, across restarts, and
name the events that were the origin of what a channel or a watch list holds.

* `SysRun.daemonRun`: the handler and the tree make a run of their own.
* `SysRun.sound`: every tracker is `Sound`.
* `SysRun.traced`: the origins.
-/

namespace Kalatori

open Program Transition

variable {lib : Libraries} {d : Deployment lib}
  {allow : List (SysEvent lib) → Sys lib → SysEvent lib → Prop}

/-! ## The handler and the tree -/

def SysEvent.daemon? : SysEvent lib → Option DaemonTurn
  | .daemon x => some x
  | _ => none

/-- The steps of the handler and the tree, with the restarts. -/
def daemonTurns (h : List (SysEvent lib)) : List DaemonTurn := h.filterMap SysEvent.daemon?

theorem mem_daemonTurns {h : List (SysEvent lib)} {x : DaemonTurn} :
    x ∈ daemonTurns h ↔ .daemon x ∈ h := by
  rw [daemonTurns, List.mem_filterMap]
  constructor
  · rintro ⟨e, he, hx⟩
    cases e with
    | daemon y => exact Option.some.inj hx ▸ he
    | outside | restore | manager | tracker => cases hx
  · exact fun h => ⟨_, h, rfl⟩

/-- The handler and the tree step as they do on their own, or not at all. -/
theorem Outcome.store {s s' : Sys lib} {e : SysEvent lib} (h : Outcome d s e s') :
    (∃ x, e = .daemon x ∧ DaemonStep lib d.account_lifetime s.store x s'.store) ∨
      (e.daemon? = none ∧ s'.store = s.store) := by
  cases h with
  | handler _ hs | spawned _ hs | handlerSent _ hs | handlerAnswered _ hs | databaseShutDown hs
  | received _ _ hs => exact .inl ⟨_, rfl, hs⟩
  | restarted => exact .inl ⟨_, rfl, .restarted ..⟩
  | droppedTracker | lost | took => exact .inr ⟨rfl, by simp⟩
  | _ => exact .inr ⟨rfl, rfl⟩

theorem SysRun.daemonRun {h : List (SysEvent lib)} {s : Sys lib} (run : SysRunIf d allow h s) :
    DaemonRun lib d.account_lifetime (daemonTurns h) s.store := by
  refine run.invariant (P := fun h s => DaemonRun lib d.account_lifetime (daemonTurns h) s.store)
    ?_ ?_
  · rintro s ⟨orders, -, rfl⟩
    exact .start ⟨d.recipient, d.server_info, rfl⟩
  · rintro h s e s' - ih - hs
    rw [daemonTurns, List.filterMap_append]
    rcases hs.outcome.store with ⟨x, rfl, hx⟩ | ⟨he, hstore⟩
    · exact .next ih trivial hx
    · rw [List.filterMap_cons_none he, List.filterMap_nil, List.append_nil, hstore]
      exact ih

/-- What the handler is doing, and the part of the run that belongs to it. -/
theorem SysRun.handler_sound {h : List (SysEvent lib)} {s : Sys lib} (run : SysRunIf d allow h s) :
    DaemonSound lib (daemonTurns h) s.store :=
  DaemonRun.sound (SysRun.daemonRun run)

/-- What the handler took since its start is in the history. -/
theorem mem_of_handlerTurns {h : List (SysEvent lib)} {h₀ turns : List DaemonTurn}
    {events : List HandlerEvent} (hh : daemonTurns h = h₀ ++ turns)
    (hturns : handlerTurns turns events) {e : HandlerEvent} (he : e ∈ events) :
    ∃ x, .daemon x ∈ h ∧ x.event = .handler e := by
  have hmem : DaemonEvent.handler e ∈ turns.map (·.event) := by
    rw [hturns]
    exact List.mem_map_of_mem he
  obtain ⟨x, hx, hxe⟩ := List.mem_map.mp hmem
  refine ⟨x, mem_daemonTurns.mp ?_, hxe⟩
  rw [hh]
  exact List.mem_append_right _ hx

/-! ## The trackers -/

/-- A tracker steps as it does on its own, or not at all, or it is started anew. -/
theorem Outcome.trackers {s s' : Sys lib} {e : SysEvent lib} (h : Outcome d s e s') (index : ℕ) :
    s'.trackers index = s.trackers index ∨ s'.trackers index = .start ∨
      ∃ chain x, e = .tracker index x ∧ d.chain[index]? = some chain ∧
        TurnStep chain (s.trackers index) x (s'.trackers index) := by
  cases h with
  | restarted => exact .inr (.inl rfl)
  | droppedTracker | lost => exact .inl (by simp)
  | tracker i hc hs | told i _ hc hs | took i _ _ hc hs =>
    by_cases hi : index = i
    · subst hi
      refine .inr (.inr ⟨_, _, rfl, hc, ?_⟩)
      simpa using hs
    · exact .inl (by simp [hi])
  | _ => exact .inl rfl

/-- A step with the label of a tracker is one of that tracker. -/
theorem Outcome.turn {s s' : Sys lib} {index : ℕ} {x : Turn lib}
    (h : Outcome d s (.tracker index x) s') :
    ∃ chain, d.chain[index]? = some chain ∧
      TurnStep chain (s.trackers index) x (s'.trackers index) := by
  cases h with
  | tracker _ hc hs | told _ _ hc hs | took _ _ _ hc hs => exact ⟨_, hc, by simpa using hs⟩

/-- A step with the label of the handler is one of the handler and the tree. -/
theorem Outcome.daemonStep {s s' : Sys lib} {x : DaemonTurn} (h : Outcome d s (.daemon x) s') :
    DaemonStep lib d.account_lifetime s.store x s'.store := by
  rcases h.store with ⟨y, hy, hs⟩ | ⟨he, -⟩
  · exact SysEvent.daemon.inj hy ▸ hs
  · cases he

theorem SysRun.sound {h : List (SysEvent lib)} {s : Sys lib} (run : SysRunIf d allow h s)
    (index : ℕ) : (s.trackers index).Sound := by
  refine run.invariant (P := fun _ s => (s.trackers index).Sound) ?_ ?_
  · rintro s ⟨orders, -, rfl⟩
    exact Tracker.sound_start
  · rintro h s e s' - ih - hs
    rcases hs.outcome.trackers index with heq | heq | ⟨chain, x, -, -, -, -, hx⟩
    · exact heq ▸ ih
    · exact heq ▸ Tracker.sound_start
    · exact hx.sound ih

/-- What is watched after a step was watched before it, or has just been asked for. -/
theorem TrackerStep.lookup_after {chain : Chain} {t t' : Tracker lib} {e : TrackerEvent lib}
    (hs : TrackerStep chain t e t') (hsound : t.Sound) {id : String} {invoice : Invoice}
    (hl : t'.watched_accounts.lookup id = some invoice) :
    t.watched_accounts.lookup id = some invoice ∨
      ∃ w, e = .received (.watchAccount w) ∧ w.id = id ∧ invoice = Invoice.fromRequest w := by
  cases hs with
  | stopped => cases hl
  | turned | said | timedOut => exact .inl hl
  | @settled said result hpc =>
    obtain ⟨now?, hsettled⟩ := hsound.busy _ _ hpc
    match result with
    | .error _ => cases hl
    | .ok (.rotate _) =>
      obtain ⟨rfl, -⟩ := hsettled
      exact .inl hl
    | .ok (.serve _ watched') =>
      replace hl : watched'.lookup id = some invoice := hl
      cases hl₀ : t.watched_accounts.lookup id with
      | none =>
        rw [(hsettled.absent id hl₀).1] at hl
        cases hl
      | some invoice₀ =>
        by_cases hd : Drops now? invoice₀ (verdicts id said)
        · rw [hsettled.dropped id invoice₀ hl₀ hd] at hl
          cases hl
        · rw [hsettled.kept id invoice₀ hl₀ hd] at hl
          exact .inl hl
  | received request =>
    match request with
    | .newBlock _ | .reap _ | .shutdown => exact .inl hl
    | .watchAccount w =>
      by_cases hid : id = w.id
      · subst hid
        rw [Tracker.receive, AList.lookup_insert] at hl
        exact .inr ⟨w, rfl, rfl, (Option.some.inj hl).symm⟩
      · rw [Tracker.receive, AList.lookup_insert_ne hid] at hl
        exact .inl hl

/-! ## Origins -/

/-- A task sends a request to the chain manager, which takes it. -/
def SysEvent.Sends (e : SysEvent lib) (request : ChainRequest) : Prop :=
  (∃ x, e = .daemon x ∧ x.event = .handler (.said ⟨.send request, true⟩)) ∨
    e = .restore ⟨.send request, true⟩

/-- A task sent a request to watch an account. -/
def Sent (h : List (SysEvent lib)) (w : WatchAccount) : Prop :=
  ∃ e ∈ h, e.Sends (.watchAccount w)

/-- A tracker reported the payment of an order. -/
def Reported (h : List (SysEvent lib)) (id : String) : Prop :=
  ∃ index x, .tracker index x ∈ h ∧ x.event = .said ⟨.send (.orderPaid id), true⟩

/-- The task that restores the orders was spawned with a list. -/
def Spawned (h : List (SysEvent lib)) (order_list : List (String × OrderInfo)) : Prop :=
  ∃ x, .daemon x ∈ h ∧ x.event = .handler (.said ⟨.spawnRestore order_list, ()⟩)

/-- **A request goes to a tracker**: it is on its way, or in the queue of the tracker. -/
inductive Sys.Heading (d : Deployment lib) (s : Sys lib) (index : ℕ)
    (request : ChainTrackerRequest) : Prop
  | queued (r : ChainRequest) (account : WatchAccount) (hmem : r ∈ s.manager_queue)
      (hreq : r.forTracker = some (account, request))
      (hroute : d.routes.route account.currency = .ok index)
  | forwarding (hpc : s.manager = .forward index request)
  | waiting (hmem : request ∈ s.tracker_queue index)

theorem Sent.append {h : List (SysEvent lib)} {w : WatchAccount} (hw : Sent h w)
    (h' : List (SysEvent lib)) : Sent (h ++ h') w := by
  obtain ⟨e, he, hsends⟩ := hw
  exact ⟨e, List.mem_append_left _ he, hsends⟩

theorem Reported.append {h : List (SysEvent lib)} {id : String} (hr : Reported h id)
    (h' : List (SysEvent lib)) : Reported (h ++ h') id := by
  obtain ⟨index, x, hx, he⟩ := hr
  exact ⟨index, x, List.mem_append_left _ hx, he⟩

theorem Spawned.append {h : List (SysEvent lib)} {order_list : List (String × OrderInfo)}
    (hl : Spawned h order_list) (h' : List (SysEvent lib)) : Spawned (h ++ h') order_list := by
  obtain ⟨x, hx, he⟩ := hl
  exact ⟨x, List.mem_append_left _ hx, he⟩

theorem mem_update_append {index i : ℕ} {queue : ℕ → List ChainTrackerRequest}
    {request request' : ChainTrackerRequest}
    (h : request' ∈ Function.update queue index (queue index ++ [request]) i) :
    request' ∈ queue i ∨ i = index ∧ request' = request := by
  by_cases hi : i = index
  · subst hi
    simpa using h
  · rw [Function.update_of_ne hi] at h
    exact .inl h

theorem mem_update_tail {index i : ℕ} {queue : ℕ → List ChainTrackerRequest}
    {request request' : ChainTrackerRequest} {rest : List ChainTrackerRequest}
    (hqueue : queue index = request :: rest) (h : request' ∈ Function.update queue index rest i) :
    request' ∈ queue i := by
  by_cases hi : i = index
  · subst hi
    rw [Function.update_self] at h
    rw [hqueue]
    exact List.mem_cons_of_mem _ h
  · rwa [Function.update_of_ne hi] at h

theorem account_of_forTracker {request : ChainRequest} {account : WatchAccount}
    {forward : ChainTrackerRequest} (h : request.forTracker = some (account, forward)) :
    request.account = some account ∧ forward.account = some account := by
  cases request with
  | watchAccount w | reap w =>
    obtain ⟨rfl, rfl⟩ := Prod.mk.inj (Option.some.inj h)
    exact ⟨rfl, rfl⟩
  | shutdown => cases h

theorem eq_watchAccount_of_forTracker {request : ChainRequest} {account w : WatchAccount}
    (h : request.forTracker = some (account, .watchAccount w)) : request = .watchAccount w := by
  cases request with
  | watchAccount w' =>
    obtain ⟨-, hw⟩ := Prod.mk.inj (Option.some.inj h)
    rw [ChainTrackerRequest.watchAccount.inj hw]
  | reap w' => cases (Prod.mk.inj (Option.some.inj h)).2
  | shutdown => cases h

/-- What goes to a tracker after a step went there before it, or the step sent it. -/
theorem Outcome.heading_before {s s' : Sys lib} {e : SysEvent lib} (h : Outcome d s e s')
    {index : ℕ} {request : ChainTrackerRequest} (hw : s'.Heading d index request)
    (ha : request.account.isSome) : s.Heading d index request ∨
      ∃ r account, e.Sends r ∧ r.forTracker = some (account, request) ∧
        d.routes.route account.currency = .ok index := by
  cases hw with
  | queued r account hmem hreq hroute =>
    have hold : r ∈ s.manager_queue → s.Heading d index request := fun hmem =>
      .queued r account hmem hreq hroute
    cases h with
    | handlerSent r' _ he =>
      rcases List.mem_append.mp hmem with hmem | hmem
      · exact .inl (hold hmem)
      · obtain rfl := List.mem_singleton.mp hmem
        exact .inr ⟨r, account, .inl ⟨_, rfl, he⟩, hreq, hroute⟩
    | restoreSent r' taken =>
      cases taken with
      | false => exact .inl (hold hmem)
      | true =>
        rcases List.mem_append.mp hmem with hmem | hmem
        · exact .inl (hold hmem)
        · obtain rfl := List.mem_singleton.mp hmem
          exact .inr ⟨r, account, .inr rfl, hreq, hroute⟩
    | refused _ rest _ _ _ _ hqueue | routed _ rest _ _ _ _ hqueue | winding _ rest _ hqueue
    | dropped _ _ _ rest _ hqueue | droppedShutdown rest _ hqueue =>
      refine .inl (hold ?_)
      rw [hqueue]
      exact List.mem_cons_of_mem _ hmem
    | restarted => cases hmem
    | droppedTracker | lost | took => exact .inl (hold (by simpa using hmem))
    | _ => exact .inl (hold hmem)
  | forwarding hpc =>
    have hold : s.manager = .forward index request → s.Heading d index request := .forwarding
    cases h with
    | routed r rest account forward i _ hqueue hreq hroute =>
      obtain ⟨rfl, rfl⟩ := ManagerPc.forward.inj hpc
      refine .inl (.queued r account ?_ hreq hroute)
      rw [hqueue]
      exact List.mem_cons_self
    | restarted | winding | forwarded | asked | skipped | waited | finished | closed => cases hpc
    | lost => simp at hpc
    | droppedTracker | took => exact .inl (hold (by simpa using hpc))
    | _ => exact .inl (hold hpc)
  | waiting hmem =>
    have hold : request ∈ s.tracker_queue index → s.Heading d index request := .waiting
    cases h with
    | blockSeen i number =>
      rcases mem_update_append hmem with hmem | ⟨-, rfl⟩
      · exact .inl (hold hmem)
      · cases ha
    | asked _ i =>
      rcases mem_update_append hmem with hmem | ⟨-, rfl⟩
      · exact .inl (hold hmem)
      · cases ha
    | forwarded i request' hpc =>
      rcases mem_update_append hmem with hmem | ⟨rfl, rfl⟩
      · exact .inl (hold hmem)
      · exact .inl (.forwarding hpc)
    | droppedTracker i request' rest _ hqueue =>
      rw [Sys.drop_tracker_queue] at hmem
      exact .inl (hold (mem_update_tail hqueue hmem))
    | took i request' rest _ _ _ hqueue =>
      rw [Sys.accept_tracker_queue] at hmem
      exact .inl (hold (mem_update_tail hqueue hmem))
    | restarted => cases hmem
    | lost => exact .inl (hold (by simpa using hmem))
    | _ => exact .inl (hold hmem)

/-- What a tracker takes was in one of the channels. -/
theorem Outcome.taken {s s' : Sys lib} {index : ℕ} {x : Turn lib}
    (h : Outcome d s (.tracker index x) s') {request : ChainTrackerRequest}
    (he : x.event = .received request) : request ∈ s.tracker_queue index := by
  cases h with
  | tracker _ _ _ hquiet =>
    rw [he] at hquiet
    cases request <;> exact hquiet.elim
  | told _ _ _ _ hsaid => cases he.symm.trans hsaid
  | took _ request' rest _ _ he' hqueue =>
    obtain rfl := TrackerEvent.received.inj (he.symm.trans he')
    rw [hqueue]
    exact List.mem_cons_self

/-- What is in the channel of the handler after a step was there before it, or came with it. -/
theorem Outcome.state_queue {s s' : Sys lib} {e : SysEvent lib} (h : Outcome d s e s')
    {message : StateAccessRequest} (hm : message ∈ s'.state_queue) :
    message ∈ s.state_queue ∨ message.fromHttp = true ∨
      ∃ index x, e = .tracker index x ∧ x.event = .said ⟨.send message, true⟩ := by
  cases h with
  | requested request hreq =>
    rcases List.mem_append.mp hm with hm | hm
    · exact .inl hm
    · exact .inr (.inl (List.mem_singleton.mp hm ▸ hreq))
  | told index message' _ _ he =>
    rcases List.mem_append.mp hm with hm | hm
    · exact .inl hm
    · exact .inr (.inr ⟨index, _, rfl, List.mem_singleton.mp hm ▸ he⟩)
  | received request rest _ _ hqueue =>
    rw [hqueue]
    exact .inl (List.mem_cons_of_mem _ hm)
  | restarted => cases hm
  | droppedTracker | lost | took => exact .inl (by simpa using hm)
  | _ => exact .inl hm

/-- What the handler takes was in its channel. -/
theorem Outcome.received_mem {s s' : Sys lib} {x : DaemonTurn} (h : Outcome d s (.daemon x) s')
    {request : StateAccessRequest} (he : x.event = .handler (.received request)) :
    request ∈ s.state_queue := by
  cases h with
  | handler e _ he' hquiet =>
    obtain rfl := DaemonEvent.handler.inj (he.symm.trans he')
    exact hquiet.elim
  | received request' rest _ he' hqueue =>
    obtain ⟨⟩ := he.symm.trans he'
    rw [hqueue]
    exact List.mem_cons_self
  | spawned _ _ he' | handlerSent _ _ he' | handlerAnswered _ _ he' | databaseShutDown _ he' =>
    cases he.symm.trans he'
  | restarted => cases he

/-- What has been said in the program of a tracker. -/
theorem TrackerStep.said_after {chain : Chain} {t t' : Tracker lib} {e : TrackerEvent lib}
    (hs : TrackerStep chain t e t') {said : Trace (TrackerSig lib)}
    {job : Prog (TrackerSig lib) (Except Stop (Continuation lib))} (hpc : t'.pc = .busy said job)
    {exchange : Exchange (TrackerSig lib)} (hmem : exchange ∈ said) :
    e = .said exchange ∨ ∃ said' job', t.pc = .busy said' job' ∧ exchange ∈ said' := by
  cases hs with
  | stopped => cases hpc
  | turned =>
    obtain ⟨rfl, -⟩ := TrackerPc.busy.inj hpc
    cases hmem
  | said answer hpc' =>
    obtain ⟨rfl, -⟩ := TrackerPc.busy.inj hpc
    rcases List.mem_append.mp hmem with hmem | hmem
    · exact .inr ⟨_, _, hpc', hmem⟩
    · exact .inl (by rw [List.mem_singleton.mp hmem])
  | @settled _ result =>
    rcases result with _ | _ | _ <;> cases hpc
  | @received _ request hpc' =>
    match request with
    | .newBlock _ =>
      obtain ⟨rfl, -⟩ := TrackerPc.busy.inj hpc
      cases hmem
    | .watchAccount _ => cases hpc'.symm.trans hpc
    | .reap _ => cases hpc'.symm.trans hpc
    | .shutdown => cases hpc
  | timedOut => cases hpc

/-- **Where everything comes from.** -/
structure Sys.Traced (d : Deployment lib) (h : List (SysEvent lib)) (s : Sys lib) : Prop where
  heading : ∀ index w, s.Heading d index (.watchAccount w) → Sent h w
  routed : ∀ index request w, s.Heading d index request → request.account = some w →
    d.routes.route w.currency = .ok index
  watched : ∀ index id invoice, (s.trackers index).watched_accounts.lookup id = some invoice →
    ∃ w, Sent h w ∧ w.id = id ∧ invoice = Invoice.fromRequest w
  queued : ∀ id, .orderPaid id ∈ s.state_queue → Reported h id
  received : ∀ x id, .daemon x ∈ h → x.event = .handler (.received (.orderPaid id)) →
    Reported h id
  said : ∀ index said job, (s.trackers index).pc = .busy said job → ∀ exchange ∈ said,
    ∃ x, .tracker index x ∈ h ∧ x.event = .said exchange
  restoring : ∀ said program, s.restore = some (said, program) →
    ∃ order_list, Spawned h order_list ∧
      Prog.Holds (Restores lib d.recipient order_list)
        (fun said _ => Restored lib d.recipient order_list said) said program

theorem Sys.not_heading_start (orders : Orders) (index : ℕ) (request : ChainTrackerRequest) :
    ¬(Sys.start d orders).Heading d index request := by
  rintro (⟨_, _, hmem⟩ | hpc | hmem)
  · cases hmem
  · cases hpc
  · cases hmem

theorem Sys.traced_start (orders : Orders) : (Sys.start d orders).Traced d [] where
  heading := fun _ _ hw => (not_heading_start _ _ _ hw).elim
  routed := fun _ _ _ hw => (not_heading_start _ _ _ hw).elim
  watched := fun _ _ _ hl => by cases hl
  queued := fun _ hm => by cases hm
  received := fun _ _ hm => by cases hm
  said := fun _ _ _ hpc => by cases hpc
  restoring := nofun

theorem Outcome.restoring {s s' : Sys lib} {e : SysEvent lib} {h : List (SysEvent lib)}
    (ho : Outcome d s e s') (ht : s.Traced d h) {said : Trace RestoreSig}
    {program : Prog RestoreSig Unit} (hp : s'.restore = some (said, program)) :
    ∃ order_list, Spawned (h ++ [e]) order_list ∧
      Prog.Holds (Restores lib d.recipient order_list)
        (fun said _ => Restored lib d.recipient order_list said) said program := by
  have hold : s.restore = some (said, program) → ∃ order_list, Spawned (h ++ [e]) order_list ∧
      Prog.Holds (Restores lib d.recipient order_list)
        (fun said _ => Restored lib d.recipient order_list said) said program := by
    intro hp
    obtain ⟨order_list, hspawned, hholds⟩ := ht.restoring said program hp
    exact ⟨order_list, hspawned.append _, hholds⟩
  cases ho with
  | spawned order_list _ he =>
    obtain ⟨rfl, rfl⟩ := Prod.mk.inj (Option.some.inj hp)
    refine ⟨order_list, ⟨_, List.mem_append_right _ (List.mem_singleton_self _), he⟩, ?_⟩
    exact restore_spec rfl (fun _ _ _ hmem => absurd hmem List.not_mem_nil) rfl
  | restoreSent request taken hp₀ | restoreAnswered taken hp₀ =>
    obtain ⟨order_list, hspawned, hholds⟩ := ht.restoring _ _ hp₀
    obtain ⟨rfl, rfl⟩ := Prod.mk.inj (Option.some.inj hp)
    exact ⟨order_list, hspawned.append _, hholds.2 taken⟩
  | restarted => cases hp
  | droppedTracker | lost | took => exact hold (by simpa using hp)
  | _ => exact hold hp

theorem SysStep.traced {h : List (SysEvent lib)} {s s' : Sys lib} {e : SysEvent lib}
    (hs : SysStep d s e s') (hsound : ∀ index, (s.trackers index).Sound) (ht : s.Traced d h) :
    s'.Traced d (h ++ [e]) where
  heading := by
    intro index w hw
    rcases hs.outcome.heading_before hw rfl with hw | ⟨r, account, hsends, hreq, -⟩
    · exact (ht.heading index w hw).append _
    · refine ⟨e, List.mem_append_right _ (List.mem_singleton_self _), ?_⟩
      rwa [eq_watchAccount_of_forTracker hreq] at hsends
  routed := by
    intro index request w hw ha
    rcases hs.outcome.heading_before hw (by rw [ha]; rfl) with hw | ⟨r, account, -, hreq, hroute⟩
    · exact ht.routed index request w hw ha
    · obtain rfl := Option.some.inj (ha.symm.trans (account_of_forTracker hreq).2)
      exact hroute
  watched := by
    intro index id invoice hl
    have hold : (s.trackers index).watched_accounts.lookup id = some invoice →
        ∃ w, Sent (h ++ [e]) w ∧ w.id = id ∧ invoice = Invoice.fromRequest w := by
      intro hl
      obtain ⟨w, hw, hid, hinvoice⟩ := ht.watched index id invoice hl
      exact ⟨w, hw.append _, hid, hinvoice⟩
    rcases hs.outcome.trackers index with heq | heq | ⟨chain, x, rfl, -, -, -, hx⟩
    · rw [heq] at hl
      exact hold hl
    · rw [heq] at hl
      cases hl
    · rcases hx.lookup_after (hsound index) hl with hl | ⟨w, he, hid, hinvoice⟩
      · exact hold hl
      · have hheading : s.Heading d index (.watchAccount w) := .waiting (hs.outcome.taken he)
        exact ⟨w, (ht.heading index w hheading).append _, hid, hinvoice⟩
  queued := by
    intro id hm
    rcases hs.outcome.state_queue hm with hm | hm | ⟨index, x, rfl, he⟩
    · exact (ht.queued id hm).append _
    · cases hm
    · exact ⟨index, x, List.mem_append_right _ (List.mem_singleton_self _), he⟩
  received := by
    intro x id hx he
    rcases List.mem_append.mp hx with hx | hx
    · exact (ht.received x id hx he).append _
    · obtain rfl := List.mem_singleton.mp hx
      exact (ht.queued id (hs.outcome.received_mem he)).append _
  said := by
    intro index said job hpc exchange hmem
    have hold : ∀ said' job', (s.trackers index).pc = .busy said' job' → exchange ∈ said' →
        ∃ x, .tracker index x ∈ h ++ [e] ∧ x.event = .said exchange := by
      intro said' job' hpc' hmem'
      obtain ⟨x, hx, he⟩ := ht.said index said' job' hpc' exchange hmem'
      exact ⟨x, List.mem_append_left _ hx, he⟩
    rcases hs.outcome.trackers index with heq | heq | ⟨chain, x, rfl, -, -, -, hx⟩
    · rw [heq] at hpc
      exact hold _ _ hpc hmem
    · rw [heq] at hpc
      cases hpc
    · rcases hx.said_after hpc hmem with he | ⟨said', job', hpc', hmem'⟩
      · exact ⟨x, List.mem_append_right _ (List.mem_singleton_self _), he⟩
      · exact hold _ _ hpc' hmem'
  restoring := fun said program hp => hs.outcome.restoring ht hp

theorem SysRun.traced {h : List (SysEvent lib)} {s : Sys lib} (run : SysRunIf d allow h s) :
    s.Traced d h := by
  refine run.invariant (P := fun h s => s.Traced d h) ?_ ?_
  · rintro s ⟨orders, -, rfl⟩
    exact Sys.traced_start orders
  · rintro h s e s' run ih - hs
    exact hs.traced (SysRun.sound run) ih

end Kalatori
