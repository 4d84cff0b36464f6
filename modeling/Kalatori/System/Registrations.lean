import Kalatori.Database.ActiveOrders
import Kalatori.System.Payment
import Kalatori.System.Records
import Kalatori.System.Requests
import Mathlib.Data.List.DropRight

/-!
# Which accounts the daemon asks for

Between two starts the daemon asks for an account to be watched in two places: for
an order that it has just made, and for each order that the restoring task was given.
No order is both, since what was listed at the start has a record, and a record is
never removed.  So from one start to the next an order is asked for with one invoice
only, and a tracker that has it does not have it replaced.

* `sinceStart`, `SysRun.lifetime`: what has happened since the last start, and the rule for what
  holds of it.
* `Sys.Registering`: which requests were sent, and for which orders.
* `SysStep.registering`: a step that is not a start keeps it.
-/

namespace Kalatori

open Program Transition

variable {lib : Libraries} {d : Deployment lib}
  {allow : List (SysEvent lib) → Sys lib → SysEvent lib → Prop}

/-! ## Starts -/

theorem SysEvent.goesOn_iff {e : SysEvent lib} : e.goesOn = true ↔ ¬e.Restarts := by
  cases e with
  | daemon x =>
    obtain ⟨before, event, after⟩ := x
    cases event with
    | handler e => simp [SysEvent.goesOn, SysEvent.Restarts]
    | restarted => simp [SysEvent.goesOn, SysEvent.Restarts]
  | outside | restore | manager | tracker => simp [SysEvent.goesOn, SysEvent.Restarts]

/-- What has happened since the last start. -/
def sinceStart (h : List (SysEvent lib)) : List (SysEvent lib) := h.rtakeWhile SysEvent.goesOn

theorem sinceStart_append {h : List (SysEvent lib)} {e : SysEvent lib} (hlife : ¬e.Restarts) :
    sinceStart (h ++ [e]) = sinceStart h ++ [e] :=
  List.rtakeWhile_concat_pos _ _ _ (SysEvent.goesOn_iff.mpr hlife)

theorem sinceStart_restart {h : List (SysEvent lib)} {e : SysEvent lib} (hrestart : e.Restarts) :
    sinceStart (h ++ [e]) = [] :=
  List.rtakeWhile_concat_neg _ _ _ fun hgo => SysEvent.goesOn_iff.mp hgo hrestart

/-- After a start without another, it is what comes after. -/
theorem sinceStart_of_last {h₁ h₂ : List (SysEvent lib)} {e : SysEvent lib} (hrestart : e.Restarts)
    (hlife : ∀ e ∈ h₂, ¬e.Restarts) : sinceStart (h₁ ++ e :: h₂) = h₂ := by
  induction h₂ using List.reverseRecOn with
  | nil => exact sinceStart_restart hrestart
  | append_singleton h₂ last ih =>
    have hlast : ¬last.Restarts := hlife last (by simp)
    have hbefore : sinceStart (h₁ ++ e :: h₂) = h₂ :=
      ih fun e he => hlife e (List.mem_append_left _ he)
    rw [← List.cons_append, ← List.append_assoc, sinceStart_append hlast, hbefore]

/-- The tree at the last start, unless there was none since the run began. -/
def Begins (h : List (SysEvent lib)) (orders : Orders) : Prop :=
  ∀ h₀ x h₁, h = h₀ ++ .daemon x :: h₁ → x.event = .restarted → (∀ e ∈ h₁, ¬e.Restarts) →
    x.before = orders

theorem Begins.append {h : List (SysEvent lib)} {e : SysEvent lib} {orders : Orders}
    (hb : Begins h orders) (hlife : ¬e.Restarts) : Begins (h ++ [e]) orders := by
  intro h₀ x h₁ hh hx hgo
  rcases List.eq_nil_or_concat h₁ with rfl | ⟨h₁, last, rfl⟩
  · obtain ⟨-, rfl⟩ := List.append_singleton_inj.mp hh
    exact absurd ⟨x, rfl, hx⟩ hlife
  · rw [List.concat_eq_append, ← List.cons_append, ← List.append_assoc] at hh
    obtain ⟨rfl, -⟩ := List.append_singleton_inj.mp hh
    exact hb h₀ x h₁ rfl hx fun e he => hgo e (by simp [he])

theorem begins_restart (h : List (SysEvent lib)) (x : DaemonTurn) (hx : x.event = .restarted) :
    Begins (h ++ [.daemon x]) x.before := by
  intro h₀ y h₁ hh hy hgo
  rcases List.eq_nil_or_concat h₁ with rfl | ⟨h₁, last, rfl⟩
  · obtain ⟨-, hxy⟩ := List.append_singleton_inj.mp hh
    rw [SysEvent.daemon.inj hxy]
  · rw [List.concat_eq_append, ← List.cons_append, ← List.append_assoc] at hh
    obtain ⟨-, rfl⟩ := List.append_singleton_inj.mp hh
    exact absurd ⟨x, rfl, hx⟩ (hgo _ (by simp))

/-- The rule for what holds since the last start: it holds of a daemon that has just been started
on a tree, and every step keeps it that is not a start. -/
theorem SysRun.lifetime {P : Orders → List (SysEvent lib) → Sys lib → Prop}
    (start : ∀ orders h, sinceStart h = [] → P orders h (Sys.start d orders))
    (next : ∀ orders h s e s', SysRunIf d allow h s → P orders h s → allow h s e → ¬e.Restarts →
      SysStep d s e s' → P orders (h ++ [e]) s')
    {h : List (SysEvent lib)} {s : Sys lib} (run : SysRunIf d allow h s) :
    ∃ orders, Begins h orders ∧ P orders h s := by
  refine run.invariant (P := fun h s => ∃ orders, Begins h orders ∧ P orders h s) ?_ ?_
  · rintro s ⟨orders, -, rfl⟩
    refine ⟨orders, fun h₀ x h₁ hh => ?_, start orders [] rfl⟩
    simp at hh
  · rintro h s e s' run ⟨orders, hbegins, hp⟩ hallow hs
    by_cases hrestart : e.Restarts
    · obtain rfl := hs.outcome.restarted_eq hrestart
      obtain ⟨x, rfl, hx⟩ := hrestart
      have hbefore : x.before = s.store.orders := hs.outcome.daemonStep.before_eq
      refine ⟨s.store.orders, hbefore ▸ begins_restart h x hx, start _ _ ?_⟩
      exact sinceStart_restart ⟨x, rfl, hx⟩
    · exact ⟨orders, hbegins.append hrestart, next _ _ _ _ _ run hp hallow hrestart hs⟩

/-- What the database told the handler is still true. -/
theorem SysRun.fresh {h : List (SysEvent lib)} {s : Sys lib} (run : SysRunIf d allow h s) :
    s.store.Fresh := by
  have hp : Promise lib (fun _ _ => True) (fun _ _ => True)
      (fun (_ : List (SysEvent lib)) _ _ => True) :=
    ⟨fun _ _ _ _ _ _ _ _ => trivial, fun _ _ _ _ _ => trivial, fun _ _ _ _ _ _ _ => trivial,
      fun _ _ _ _ _ _ _ _ _ _ _ _ => trivial⟩
  exact (SysRun.promised hp (fun _ _ _ _ _ _ _ => trivial) run).fresh

/-- A record is never removed. -/
theorem Effect.hasRecord {account_lifetime now : Timestamp} {orders orders' : Orders}
    {r : DbRequest} {answer : Except DbError r.Reply}
    (h : Effect account_lifetime now orders r answer orders') {order : String}
    (hrec : HasRecord orders order) : HasRecord orders' order := by
  by_cases hne : r.order? = some order
  swap
  · rw [HasRecord, h.record_of_ne hne]
    exact hrec
  cases h with
  | failed | listed | read | collided => exact hrec
  | created o | modified o | paid o | withdrawn o | stuck o =>
    obtain rfl : o = order := Option.some.inj hne
    exact ⟨_, record_insert_self ..⟩

theorem SysStep.hasRecord {h : List (SysEvent lib)} {s s' : Sys lib} {e : SysEvent lib}
    (hsound : DaemonSound lib (daemonTurns h) s.store) (hs : SysStep d s e s') {order : String}
    (hrec : HasRecord s.store.orders order) : HasRecord s'.store.orders order := by
  rcases hs.outcome.store with ⟨x, -, hx⟩ | ⟨-, heq⟩
  · rcases hx.effect hsound with heq | ⟨r, answer, now, -, -, heffect⟩
    · exact heq ▸ hrec
    · exact heffect.hasRecord hrec
  · exact heq ▸ hrec

/-- A request to watch an account names the task that sent it. -/
theorem SysStep.sends_watch {h : List (SysEvent lib)} {s s' : Sys lib} {e : SysEvent lib}
    (run : SysRunIf d allow h s) (hallow : allow h s e) (hs : SysStep d s e s') {w : WatchAccount}
    (hw : e.Sends (.watchAccount w)) :
    (w.res = .stateHandler ∧
        ∃ x, e = .daemon x ∧ x.event = .handler (.said ⟨.send (.watchAccount w), true⟩)) ∨
      w.res = .restore ∧ e = .restore ⟨.send (.watchAccount w), true⟩ := by
  rcases hw with ⟨x, rfl, he⟩ | rfl
  · obtain ⟨hres, -⟩ := handler_sends run hallow hs he rfl
    exact .inl ⟨hres, x, rfl, he⟩
  · obtain ⟨⟨w', hreq, hres⟩, -⟩ := restore_sends run hallow hs
    obtain rfl := ChainRequest.watchAccount.inj hreq
    exact .inr ⟨hres, rfl⟩

/-! ## Which orders are asked for -/

/-- The conversation of the handler says that it has just made the order, and has not asked for
it to be watched. -/
def HasMade (said : Trace HandlerSig) (order : String) : Prop :=
  (∃ query currency payment_account info,
    ⟨.db (.createOrder order query currency payment_account), .ok (.new info)⟩ ∈ said) ∧
    ∀ exchange ∈ said, ∀ request, exchange.1 ≠ .send request

/-- **Which orders were asked for**, in the steps from a start on a tree. -/
structure Sys.Registering (d : Deployment lib) (orders : Orders) (g : List (SysEvent lib))
    (s : Sys lib) : Prop where
  traced : s.Traced d g
  kept : ∀ id, HasRecord orders id → HasRecord s.store.orders id
  starting : ∀ said program, s.store.handler.pc = .busy .starting said program →
    s.store.orders = orders
  listed : ∀ order_list, Spawned g order_list → ∀ order info, (order, info) ∈ order_list →
    record orders order = some info
  restored : ∀ w, Sent g w → w.res = .restore → ∃ info, record orders w.id = some info ∧
    WatchAccount.new lib w.id info d.recipient .restore = .ok w
  new : ∀ w, Sent g w → w.res = .stateHandler →
    ¬HasRecord orders w.id ∧ HasRecord s.store.orders w.id
  unsent : ∀ phase said program, s.store.handler.pc = .busy phase said program →
    ∀ order, HasMade said order → ¬HasRecord orders order ∧ ∀ w, Sent g w → w.id ≠ order
  agreed : ∀ w w', Sent g w → Sent g w' → w.id = w'.id → w = w'

theorem Sys.registering_start (orders : Orders) :
    (Sys.start d orders).Registering d orders [] where
  traced := Sys.traced_start orders
  kept := fun _ hrec => hrec
  starting := fun _ _ _ => rfl
  listed := fun _ hl => by
    obtain ⟨_, hx, -⟩ := hl
    cases hx
  restored := fun _ hw => by
    obtain ⟨_, hx, -⟩ := hw
    cases hx
  new := fun _ hw => by
    obtain ⟨_, hx, -⟩ := hw
    cases hx
  unsent := by
    rintro phase said program ⟨⟩ order ⟨⟨_, _, _, _, hmem⟩, -⟩
    cases hmem
  agreed := fun _ _ hw => by
    obtain ⟨_, hx, -⟩ := hw
    cases hx

/-- A step sends one request at most. -/
theorem sends_unique {e : SysEvent lib} {request request' : ChainRequest} (h : e.Sends request)
    (h' : e.Sends request') : request = request' := by
  rcases h with ⟨x, rfl, he⟩ | rfl
  · rcases h' with ⟨y, hy, he'⟩ | he'
    · obtain rfl := SysEvent.daemon.inj hy
      obtain ⟨⟩ := he.symm.trans he'
      rfl
    · cases he'
  · rcases h' with ⟨y, hy, -⟩ | he'
    · cases hy
    · obtain ⟨⟩ := he'
      rfl

section Steps

variable {orders : Orders} {h g : List (SysEvent lib)} {s s' : Sys lib} {e : SysEvent lib}

/-- The tree stays as it is until the handler serves requests. -/
theorem SysStep.starting (hsound : DaemonSound lib (daemonTurns h) s.store)
    (hlife : ¬e.Restarts) (hs : SysStep d s e s') (hr : s.Registering d orders g)
    {said : Trace HandlerSig} {program : Prog HandlerSig (Except Error HandlerNext)}
    (hpc : s'.store.handler.pc = .busy .starting said program) : s'.store.orders = orders := by
  rcases hs.outcome.store with ⟨x, rfl, hx⟩ | ⟨-, heq⟩
  swap
  · rw [heq] at hpc ⊢
    exact hr.starting _ _ hpc
  rcases hx.handlerStep with ⟨e, he, -⟩ | he
  swap
  · exact absurd ⟨x, rfl, he⟩ hlife
  obtain ⟨said₀, o, k, answer, hpc₀, rfl, -⟩ := hx.went_on he hpc
  have hbefore : s.store.orders = orders := hr.starting _ _ hpc₀
  rcases hx.effect hsound with heq | ⟨r, answer', now, he', -, heffect⟩
  · exact heq.trans hbefore
  · obtain ⟨_, _, events, -, -, hcall⟩ := hsound
    obtain ⟨⟩ := he.symm.trans he'
    obtain ⟨-, ho⟩ := hcall.starts hpc₀ (hcall.phase_eq hpc₀).symm
    cases ho with
    | orderList =>
      generalize s'.store.orders = orders' at heffect
      cases heffect with
      | failed | listed => exact hbefore

/-- What the restoring task is given stood in the tree at the start. -/
theorem SysStep.listed (hsound : DaemonSound lib (daemonTurns h) s.store) (hfresh : s.store.Fresh)
    (hs : SysStep d s e s') (hr : s.Registering d orders g)
    {order_list : List (String × OrderInfo)} (hl : Spawned [e] order_list) {order : String}
    {info : OrderInfo} (hmem : (order, info) ∈ order_list) : record orders order = some info := by
  obtain ⟨x, hx, he⟩ := hl
  obtain rfl := List.mem_singleton.mp hx
  obtain ⟨phase, said, k, hpc, -⟩ := hs.outcome.daemonStep.said he
  obtain ⟨_, _, events, -, -, hcall⟩ := hsound
  obtain ⟨rfl, ho⟩ := hcall.starts hpc rfl
  cases ho with
  | spawnRestore =>
    have hrec := ((hfresh _ _ _ hpc).listed order_list (by simp) order info hmem).1
    rwa [hr.starting _ _ hpc] at hrec

/-- What the restoring task asks for is an order of its list. -/
theorem SysStep.restored (hs : SysStep d s e s')
    (hr : s.Registering d orders g) {w : WatchAccount}
    (he : e = .restore ⟨.send (.watchAccount w), true⟩) :
    ∃ info, record orders w.id = some info ∧
      WatchAccount.new lib w.id info d.recipient .restore = .ok w := by
  subst he
  have houtcome := hs.outcome
  cases houtcome with
  | restoreSent _ _ hp =>
    obtain ⟨order_list, hspawned, hholds⟩ := hr.traced.restoring _ _ hp
    obtain ⟨-, order, info, w', hmem, hw, hreq⟩ := hholds.1
    obtain rfl := ChainRequest.watchAccount.inj hreq
    obtain rfl := WatchAccount.new_id hw
    exact ⟨info, hr.listed order_list hspawned w.id info hmem, hw⟩

/-- What the handler asks for is the order that it has just made. -/
theorem SysStep.made (hsound : DaemonSound lib (daemonTurns h) s.store) (hfresh : s.store.Fresh)
    (hs : SysStep d s e s') {x : DaemonTurn} {w : WatchAccount} (he : e = .daemon x)
    (hx : x.event = .handler (.said ⟨.send (.watchAccount w), true⟩)) :
    ∃ phase said program, s.store.handler.pc = .busy phase said program ∧ HasMade said w.id ∧
      HasRecord s.store.orders w.id := by
  subst he
  obtain ⟨phase, said, k, hpc, -⟩ := hs.outcome.daemonStep.said hx
  obtain ⟨_, _, events, -, -, hcall⟩ := hsound
  obtain ⟨-, _, _, -, ho⟩ := hcall.handles hpc rfl
  cases ho with
  | watch query properties payment_account info _ hnew =>
    have hmem : (⟨.db (.createOrder query.order query (properties.info query.currency)
        payment_account), .ok (.new info)⟩ : Exchange HandlerSig) ∈
          created query (properties.info query.currency) payment_account (.new info) := by
      simp [created]
    have hrec := (hfresh _ _ _ hpc).created query.order query _ payment_account info hmem
    obtain hid : w.id = query.order := WatchAccount.new_id hnew
    rw [hid]
    refine ⟨phase, _, _, hpc, ⟨⟨query, _, payment_account, info, hmem⟩, ?_⟩, info, hrec⟩
    simp [created]

/-- An order is made when it has no record. -/
theorem SysStep.not_hasRecord (hs : SysStep d s e s') {x : DaemonTurn} {order : String}
    {query : OrderQuery} {currency : CurrencyInfo} {payment_account : String} {info : OrderInfo}
    (he : e = .daemon x) (hx : x.event = .handler
      (.said ⟨.db (.createOrder order query currency payment_account), .ok (.new info)⟩)) :
    ¬HasRecord s.store.orders order := by
  subst he
  obtain ⟨_, _, _, -, -, hstore⟩ := hs.outcome.daemonStep.said hx
  obtain ⟨now, heffect⟩ := hstore.effect
  generalize s'.store.orders = orders' at heffect
  cases heffect with
  | created _ _ _ _ _ hnone =>
    rintro ⟨info', hrec⟩
    rw [record, recordAt, hnone] at hrec
    cases hrec

/-- What a conversation that has just made an order says after a step. -/
theorem SysStep.unsent (run : SysRunIf d allow h s) (hallow : allow h s e) (hlife : ¬e.Restarts)
    (hs : SysStep d s e s') (hr : s.Registering d orders g) {phase : HandlerPhase}
    {said : Trace HandlerSig} {program : Prog HandlerSig (Except Error HandlerNext)}
    (hpc : s'.store.handler.pc = .busy phase said program) {order : String}
    (hmade : HasMade said order) :
    ¬HasRecord orders order ∧ ∀ w, Sent (g ++ [e]) w → w.id ≠ order := by
  have hrestored : ¬HasRecord orders order → ∀ w, Sent [e] w →
      (∀ x, e = .daemon x → x.event ≠ .handler (.said ⟨.send (.watchAccount w), true⟩)) →
      w.id ≠ order := by
    rintro hnone w ⟨e', he', hsends⟩ hother rfl
    obtain rfl := List.mem_singleton.mp he'
    rcases hs.sends_watch run hallow hsends with ⟨-, x, rfl, he⟩ | ⟨-, he⟩
    · exact hother x rfl he
    · obtain ⟨info, hrec, -⟩ := hs.restored hr he
      exact hnone ⟨info, hrec⟩
  rcases hs.outcome.store with ⟨x, rfl, hx⟩ | ⟨he, heq⟩
  swap
  · rw [heq] at hpc
    obtain ⟨hnone, hunsent⟩ := hr.unsent _ _ _ hpc order hmade
    refine ⟨hnone, fun w hw => ?_⟩
    rcases hw.of_append with hw | hw
    · exact hunsent w hw
    · refine hrestored hnone w hw ?_
      rintro x rfl
      cases he
  rcases hx.handlerStep with ⟨ev, hev, hstep⟩ | he
  swap
  · exact absurd ⟨x, rfl, he⟩ hlife
  obtain ⟨⟨query, currency, payment_account, info, hmem⟩, hsilent⟩ := hmade
  generalize hbefore : s.store.handler = handler at hstep
  generalize s'.store.handler = handler' at hstep hpc
  cases hstep with
  | @said phase₀ said₀ o k answer hpc₀ =>
    obtain ⟨rfl, rfl, -⟩ := HandlerPc.busy.inj hpc
    have hnosend : ∀ w, Sent [(.daemon x : SysEvent lib)] w → w.id ≠ order := by
      rintro w ⟨e', he', hsends⟩ -
      obtain rfl := List.mem_singleton.mp he'
      rcases hs.sends_watch run hallow hsends with ⟨-, y, hy, he⟩ | ⟨-, he⟩
      · obtain rfl := SysEvent.daemon.inj hy
        obtain ⟨⟩ := hev.symm.trans he
        exact hsilent _ (List.mem_append_right _ (List.mem_singleton_self _)) _ rfl
      · cases he
    have hsplit : ¬HasRecord orders order ∧ ∀ w, Sent g w → w.id ≠ order := by
      rcases List.mem_append.mp hmem with hmem | hmem
      · refine hr.unsent _ _ _ (hbefore ▸ hpc₀) order
          ⟨⟨query, currency, payment_account, info, hmem⟩, fun exchange hmem' => ?_⟩
        exact hsilent exchange (List.mem_append_left _ hmem')
      · rw [← List.mem_singleton.mp hmem] at hev
        have hnone : ¬HasRecord s.store.orders order := hs.not_hasRecord rfl hev
        refine ⟨fun hrec => hnone (hr.kept order hrec), ?_⟩
        rintro w hw rfl
        cases hres : w.res with
        | stateHandler => exact hnone (hr.new w hw hres).2
        | restore =>
          obtain ⟨info', hrec, -⟩ := hr.restored w hw hres
          exact hnone (hr.kept _ ⟨info', hrec⟩)
    refine ⟨hsplit.1, fun w hw => ?_⟩
    rcases hw.of_append with hw | hw
    · exact hsplit.2 w hw
    · exact hnosend w hw
  | @settled _ _ result => rcases result with _ | _ | _ <;> cases hpc
  | received | notified =>
    obtain ⟨-, rfl, -⟩ := HandlerPc.busy.inj hpc
    cases hmem
  | closed => cases hpc

theorem SysStep.registering (run : SysRunIf d allow h s) (hallow : allow h s e)
    (hlife : ¬e.Restarts) (hs : SysStep d s e s') (hr : s.Registering d orders g) :
    s'.Registering d orders (g ++ [e]) := by
  have hsound := SysRun.handler_sound run
  have hfresh := SysRun.fresh run
  have hnewRestored : ∀ w, Sent [e] w → w.res = .restore → ∃ info,
      record orders w.id = some info ∧
        WatchAccount.new lib w.id info d.recipient .restore = .ok w := by
    rintro w ⟨e', he', hsends⟩ hres
    obtain rfl := List.mem_singleton.mp he'
    rcases hs.sends_watch run hallow hsends with ⟨hres', -⟩ | ⟨-, he⟩
    · cases hres.symm.trans hres'
    · exact hs.restored hr he
  have hnewMade : ∀ w, Sent [e] w → w.res = .stateHandler →
      ¬HasRecord orders w.id ∧ HasRecord s.store.orders w.id ∧ ∀ w', Sent g w' → w'.id ≠ w.id := by
    rintro w ⟨e', he', hsends⟩ hres
    obtain rfl := List.mem_singleton.mp he'
    rcases hs.sends_watch run hallow hsends with ⟨-, x, he, hx⟩ | ⟨hres', -⟩
    · obtain ⟨phase, said, program, hpc, hmade, hrec⟩ := hs.made hsound hfresh he hx
      obtain ⟨hnone, hunsent⟩ := hr.unsent _ _ _ hpc _ hmade
      exact ⟨hnone, hrec, hunsent⟩
    · cases hres.symm.trans hres'
  have hkept : ∀ id, HasRecord s.store.orders id → HasRecord s'.store.orders id :=
    fun id hrec => hs.hasRecord hsound hrec
  -- A new request agrees with those that were sent before.
  have hagreed : ∀ w w', Sent [e] w → Sent g w' → w.id = w'.id → w = w' := by
    intro w w' hw hw' hid
    cases hres : w.res with
    | stateHandler => exact absurd hid.symm ((hnewMade w hw hres).2.2 w' hw')
    | restore =>
      obtain ⟨info, hrec, hnew⟩ := hnewRestored w hw hres
      cases hres' : w'.res with
      | stateHandler => exact absurd ⟨info, hid ▸ hrec⟩ (hr.new w' hw' hres').1
      | restore =>
        obtain ⟨info', hrec', hnew'⟩ := hr.restored w' hw' hres'
        rw [← hid] at hrec' hnew'
        obtain rfl := Option.some.inj (hrec.symm.trans hrec')
        exact Except.ok.inj (hnew.symm.trans hnew')
  refine ⟨hs.traced (SysRun.sound run) hr.traced, fun id hrec => hkept id (hr.kept id hrec),
    fun _ _ hpc => hs.starting hsound hlife hr hpc, ?_, ?_, ?_,
    fun _ _ _ hpc _ hmade => hs.unsent run hallow hlife hr hpc hmade, ?_⟩
  · intro order_list hl order info hmem
    rcases hl.of_append with hl | hl
    · exact hr.listed order_list hl order info hmem
    · exact hs.listed hsound hfresh hr hl hmem
  · intro w hw hres
    rcases hw.of_append with hw | hw
    · exact hr.restored w hw hres
    · exact hnewRestored w hw hres
  · intro w hw hres
    rcases hw.of_append with hw | hw
    · obtain ⟨hnone, hrec⟩ := hr.new w hw hres
      exact ⟨hnone, hkept _ hrec⟩
    · obtain ⟨hnone, hrec, -⟩ := hnewMade w hw hres
      exact ⟨hnone, hkept _ hrec⟩
  · intro w w' hw hw' hid
    rcases hw.of_append with hw | hw
    · rcases hw'.of_append with hw' | hw'
      · exact hr.agreed w w' hw hw' hid
      · exact (hagreed w' w hw' hw hid.symm).symm
    · rcases hw'.of_append with hw' | hw'
      · exact hagreed w w' hw hw' hid
      · obtain ⟨e₁, he₁, hsends⟩ := hw
        obtain ⟨e₂, he₂, hsends'⟩ := hw'
        obtain rfl := List.mem_singleton.mp he₁
        obtain rfl := List.mem_singleton.mp he₂
        exact ChainRequest.watchAccount.inj (sends_unique hsends hsends')

end Steps

end Kalatori
