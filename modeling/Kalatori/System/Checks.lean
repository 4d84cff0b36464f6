import Kalatori.System.Pairing

/-!
# The checks that come before an order

`process_order` asks whether the currency of an order is supported, and then, in a
request of its own, for the order.  In between the handler may have served any
number of others, and chains may have been connected.  A currency that was
supported stays so, and hence the check still holds when the order is placed: the
branch of `create_invoice` for a currency that is not known is never taken, and
what is stored passed the checks.

* `Handler.Has`: the request that the handler has in hand.
* `SysRun.announced`: its currencies are those that the chains announced.
* `Service.Checked`: the checks still hold; `ServiceRun.checked`.
* `alwaysKnown`: no currency is found to be unknown when its order is placed.
* `storedChecked`: what is stored was asked for and passed the checks.
-/

namespace Kalatori

open Program Transition

variable {lib : Libraries} {d : Deployment lib} {display : F64 → String}
  {allow : List (ServiceEvent lib) → Service lib → ServiceEvent lib → Prop}

/-! ## The request in hand -/

/-- The request that the handler has in hand is one of these. -/
def Handler.Has (lib : Libraries) (p : StateAccessRequest → Prop) (s : Handler) : Prop :=
  ∀ said program, s.pc = .busy .handling said program →
    ∃ request, p request ∧ s.Serves lib request said program

section InHand

variable {p q : StateAccessRequest → Prop} {s s' : Handler} {e : HandlerEvent}

theorem Handler.Has.mono (h : s.Has lib p) (hle : ∀ request, p request → q request) :
    s.Has lib q := by
  intro said program hpc
  obtain ⟨request, hp, hserves⟩ := h said program hpc
  exact ⟨request, hle request hp, hserves⟩

theorem Handler.has_of_ne (h : ∀ said program, s.pc ≠ .busy .handling said program) :
    s.Has lib p :=
  fun said program hpc => absurd hpc (h said program)

theorem HandlerStep.has (hs : HandlerStep lib s e s') (h : s.Has lib p)
    (hreceived : ∀ request, e = .received request → p request) : s'.Has lib p := by
  cases hs with
  | said answer hpc =>
    intro said program hpc'
    obtain ⟨rfl, rfl, rfl⟩ := HandlerPc.busy.inj hpc'
    obtain ⟨request, hp, hserves⟩ := h _ _ hpc
    exact ⟨request, hp, hserves.2 answer⟩
  | @settled _ _ result hpc =>
    rcases result with _ | _ | _ <;> exact Handler.has_of_ne fun _ _ h => (by cases h)
  | received request =>
    intro said program hpc'
    obtain ⟨-, rfl, rfl⟩ := HandlerPc.busy.inj hpc'
    exact ⟨request, hreceived request rfl, handle_serves request⟩
  | closed | notified => exact Handler.has_of_ne fun _ _ h => (by cases h)

/-- **The data of the handler** stays, but for the currencies of a chain. -/
theorem HandlerStep.leaves {events : List HandlerEvent} (hs : HandlerStep lib s e s')
    (hsound : s.Sound lib events) (h : s.Has lib p) :
    s'.state = s.state ∨ ∃ assets, p (.connectChain assets) ∧
      s'.state = s.state.updateCurrencies assets := by
  cases hs with
  | said | received | closed | notified => exact .inl rfl
  | @settled phase said result hpc =>
    rcases result with e | ⟨state⟩ | _
    · exact .inl rfl
    · cases hsound with
      | starting hpc' hp =>
        obtain ⟨rfl, rfl, rfl⟩ := HandlerPc.busy.inj (hpc'.symm.trans hpc)
        exact .inl hp.1
      | handling hpc' =>
        obtain ⟨rfl, rfl, rfl⟩ := HandlerPc.busy.inj (hpc'.symm.trans hpc)
        obtain ⟨request, hp, hleaves⟩ := h _ _ hpc
        rcases hleaves state rfl with rfl | ⟨assets, rfl, hstate⟩
        · exact .inl rfl
        · exact .inr ⟨assets, hp, hstate⟩
      | winding hpc' _ hp =>
        obtain ⟨rfl, rfl, rfl⟩ := HandlerPc.busy.inj (hpc'.symm.trans hpc)
        cases hp.1
      | listening hpc' | stopped hpc' | shutDown hpc' | failed hpc' | notStarted hpc' =>
        cases hpc'.symm.trans hpc
    · exact .inl rfl

end InHand

/-! ## The currencies -/

/-- A chain announced the currency to the handler. -/
def Announced (h : List (SysEvent lib)) (name : String) (properties : CurrencyProperties) : Prop :=
  ∃ assets x, .daemon x ∈ h ∧ x.event = .handler (.received (.connectChain assets)) ∧
    assets.lookup name = some properties

/-- The handler took the request. -/
def Taken (h : List (SysEvent lib)) (request : StateAccessRequest) : Prop :=
  ∃ x, .daemon x ∈ h ∧ x.event = .handler (.received request)

theorem Announced.snoc {h : List (SysEvent lib)} {name : String} {properties : CurrencyProperties}
    (ha : Announced h name properties) (e : SysEvent lib) :
    Announced (h ++ [e]) name properties := by
  obtain ⟨assets, x, hmem, hx, hlookup⟩ := ha
  exact ⟨assets, x, List.mem_append_left _ hmem, hx, hlookup⟩

theorem Taken.snoc {h : List (SysEvent lib)} {request : StateAccessRequest} (ht : Taken h request)
    (e : SysEvent lib) : Taken (h ++ [e]) request := by
  obtain ⟨x, hmem, hx⟩ := ht
  exact ⟨x, List.mem_append_left _ hmem, hx⟩

theorem lookup_updateCurrencies {state : StateData}
    {assets : HashMap String CurrencyProperties} {name : String} {properties : CurrencyProperties}
    (h : (state.updateCurrencies assets).currencies.lookup name = some properties) :
    assets.lookup name = some properties ∨ state.currencies.lookup name = some properties := by
  have hunion : (assets ∪ state.currencies).lookup name = some properties := h
  rcases AList.mem_lookup_union.mp hunion with hassets | ⟨-, hstate⟩
  · exact .inl hassets
  · exact .inr hstate

/-- What the handler has in hand was taken, and its currencies were announced. -/
structure Handler.Traced (lib : Libraries) (h : List (SysEvent lib)) (s : Handler) : Prop where
  in_hand : s.Has lib (Taken h)
  currencies : ∀ name properties, s.state.currencies.lookup name = some properties →
    Announced h name properties

theorem Handler.traced_start (h : List (SysEvent lib)) (recipient : AccountId32)
    (server_info : ServerInfo) : (Handler.start recipient server_info).Traced lib h where
  in_hand := Handler.has_of_ne fun _ _ h => (by cases h)
  currencies := fun _ _ hlookup => by
    cases hlookup.symm.trans (AList.lookup_empty _)

theorem SysRun.handler_traced {allow : List (SysEvent lib) → Sys lib → SysEvent lib → Prop}
    {h : List (SysEvent lib)} {s : Sys lib} (run : SysRunIf d allow h s) :
    s.store.handler.Traced lib h := by
  refine run.invariant (P := fun h s => s.store.handler.Traced lib h) ?_ ?_
  · rintro s ⟨orders, -, rfl⟩
    exact Handler.traced_start [] _ _
  · rintro h s e s' run ⟨hhas, hcurrencies⟩ - hs
    rcases hs.outcome.store with ⟨x, rfl, hx⟩ | ⟨-, hstore⟩
    · rcases hx.handlerStep with ⟨e, he, hstep⟩ | hrestart
      · obtain ⟨_, _, _, -, -, hsound⟩ := SysRun.handler_sound run
        have hnext : s'.store.handler.Has lib (Taken (h ++ [.daemon x])) := by
          refine hstep.has (hhas.mono fun request ht => ht.snoc _) ?_
          rintro request rfl
          exact ⟨x, List.mem_append_right _ (List.mem_singleton_self _), he⟩
        refine ⟨hnext, fun name properties hlookup => ?_⟩
        rcases hstep.leaves hsound hhas with hstate | ⟨assets, ⟨y, hmem, hy⟩, hstate⟩
        · rw [hstate] at hlookup
          exact (hcurrencies name properties hlookup).snoc _
        · rw [hstate] at hlookup
          rcases lookup_updateCurrencies hlookup with hassets | hold
          · exact ⟨assets, y, List.mem_append_left _ hmem, hy, hassets⟩
          · exact (hcurrencies name properties hold).snoc _
      · rw [hs.outcome.restarted_eq ⟨x, rfl, hrestart⟩]
        exact Handler.traced_start _ _ _
    · rw [hstore]
      exact ⟨hhas.mono fun request ht => ht.snoc _,
        fun name properties hlookup => (hcurrencies name properties hlookup).snoc _⟩

/-! ## The checks still hold -/

/-- The data of the handler knows a currency. -/
def StateData.Supports (state : StateData) (currency : String) : Prop :=
  (state.currencies.lookup currency).isSome

theorem StateData.Supports.update {state : StateData} {currency : String}
    (h : state.Supports currency) (assets : HashMap String CurrencyProperties) :
    (state.updateCurrencies assets).Supports currency := by
  rw [Supports, AList.lookup_isSome] at h ⊢
  exact AList.mem_union.mpr (.inr h)

/-- A client asked for the order, and it passes the checks. -/
structure OrderQuery.Passes (query : OrderQuery) (h : List (ServiceEvent lib))
    (state : StateData) : Prop where
  amount : ¬query.amount < EXISTENTIAL_DEPOSIT
  currency : state.Supports query.currency
  asked : ∃ i p, .arrived i query.order (some p) ∈ h ∧ p.Places query.order query

/-- A request passes the checks, if it is one for an order. -/
def StateAccessRequest.Passes (h : List (ServiceEvent lib)) (state : StateData)
    (request : StateAccessRequest) : Prop :=
  ∀ query, request = .createInvoice query → query.Passes h state

/-- **The checks still hold**: of the tasks that made them, and of the requests that were sent
after them. -/
structure Service.Checked (h : List (ServiceEvent lib)) (s : Service lib) : Prop where
  arrived : ∀ i t, s.tasks i = some t → .arrived i t.order_id t.payload ∈ h
  tasks : ∀ i t currency, s.tasks i = some t →
    ⟨.isCurrencySupported currency, .ok true⟩ ∈ t.said →
      s.sys.store.handler.state.Supports currency
  queue : ∀ request ∈ s.sys.state_queue, request.Passes h s.sys.store.handler.state
  in_hand : s.sys.store.handler.Has lib (·.Passes h s.sys.store.handler.state)

theorem passes_of_not_fromTask {request : StateAccessRequest} (hr : request.fromTask = false)
    (h : List (ServiceEvent lib)) (state : StateData) : request.Passes h state := by
  rintro query rfl
  cases hr

/-- They hold later on, and with more currencies. -/
theorem StateAccessRequest.Passes.mono {h h' : List (ServiceEvent lib)} {state state' : StateData}
    {request : StateAccessRequest} (hp : request.Passes h state) (hh : h ⊆ h')
    (hle : ∀ currency, state.Supports currency → state'.Supports currency) :
    request.Passes h' state' := by
  intro query hquery
  obtain ⟨hamount, hcurrency, i, p, hmem, hplaces⟩ := hp query hquery
  exact ⟨hamount, hle _ hcurrency, i, p, hh hmem, hplaces⟩

section Steps

variable {s s' : Service lib} {h : List (ServiceEvent lib)}

theorem Service.Checked.mono {h' : List (ServiceEvent lib)} (hc : s.Checked h) (hh : h ⊆ h') :
    s.Checked h' where
  arrived := fun i t ht => hh (hc.arrived i t ht)
  tasks := hc.tasks
  queue := fun request hmem => (hc.queue request hmem).mono hh fun _ => id
  in_hand := hc.in_hand.mono fun _ hp => hp.mono hh fun _ => id

/-- A task that heard no more than another. -/
theorem Service.Checked.setTask (hc : s.Checked h) (i : ℕ) {t : Option OrderTask}
    (ht : ∀ t', t = some t' → .arrived i t'.order_id t'.payload ∈ h ∧
      ∀ currency, ⟨.isCurrencySupported currency, .ok true⟩ ∈ t'.said →
        s.sys.store.handler.state.Supports currency) : (s.setTask i t).Checked h where
  arrived := fun j t' ht' => by
    by_cases hj : j = i
    · rw [hj, Service.setTask_self] at ht'
      exact hj ▸ (ht t' ht').1
    · rw [Service.setTask_of_ne hj] at ht'
      exact hc.arrived j t' ht'
  tasks := fun j t' currency ht' hmem => by
    by_cases hj : j = i
    · rw [hj, Service.setTask_self] at ht'
      exact (ht t' ht').2 currency hmem
    · rw [Service.setTask_of_ne hj] at ht'
      exact hc.tasks j t' currency ht' hmem
  queue := hc.queue
  in_hand := hc.in_hand

/-- What a task asks for passes the checks that it made. -/
theorem Service.Checked.asks (hc : s.Checked h) {i : ℕ} {t : OrderTask} {o : StateOp}
    {k : StateSig.Answer o → Prog StateSig (Except OrderError OrderResponse)}
    (ht : s.tasks i = some t) (hp : t.program = .call o k) :
    o.request.Passes h s.sys.store.handler.state := by
  intro query hquery
  cases o with
  | createOrder query' =>
    obtain rfl := StateAccessRequest.createInvoice.inj hquery
    have hchecks := (processOrder_checks t.order_id t.payload).after t.handles
    rw [hp, List.nil_append] at hchecks
    obtain ⟨hamount, hmem, p, hpayload, hplaces⟩ := hchecks.1 query' rfl
    refine ⟨hamount, hc.tasks i t _ ht hmem, i, p, ?_, ?_⟩
    · rw [hplaces.order, ← hpayload]
      exact hc.arrived i t ht
    · rw [hplaces.order]
      exact hplaces
  | isCurrencySupported | orderStatus => cases hquery

/-- The state handler does something on its own. -/
theorem Service.Checked.step {sys : Sys lib} (hc : s.Checked h)
    {events : List HandlerEvent} {e : HandlerEvent}
    (hs : HandlerStep lib s.sys.store.handler e sys.store.handler)
    (hsound : s.sys.store.handler.Sound lib events)
    (hqueue : ∀ request ∈ sys.state_queue, request ∈ s.sys.state_queue)
    (hreceived : ∀ request, e = .received request → request ∈ s.sys.state_queue) :
    Service.Checked h { s with sys := sys } := by
  have hle : ∀ currency, s.sys.store.handler.state.Supports currency →
      sys.store.handler.state.Supports currency := by
    intro currency hcurrency
    rcases hs.leaves hsound hc.in_hand with hstate | ⟨assets, -, hstate⟩
    · rw [hstate]
      exact hcurrency
    · rw [hstate]
      exact hcurrency.update assets
  have hnext := hs.has hc.in_hand fun request he => hc.queue request (hreceived request he)
  exact ⟨hc.arrived, fun i t currency ht hmem => hle currency (hc.tasks i t currency ht hmem),
    fun request hmem => (hc.queue request (hqueue request hmem)).mono (List.Subset.refl h) hle,
    hnext.mono fun request hp => hp.mono (List.Subset.refl h) hle⟩

theorem Service.deliver_sys {s₁ : Service lib} {reply : HandlerReply} {taken : Bool}
    (h : s.deliver reply taken = some s₁) : s₁.sys = s.sys := by
  rcases Service.deliver_cases h with ⟨rfl, -⟩ | ⟨_, _, _, -, -, -, -, rfl⟩ <;> rfl

/-- What a task heard of its currency is true. -/
theorem Service.Checked.deliver {s₁ : Service lib} (hc : s.Checked h) (hp : s.Paired)
    {said : Trace HandlerSig} {reply : HandlerReply} {taken : Bool}
    {k : Bool → Prog HandlerSig (Except Error HandlerNext)}
    (hpc : s.sys.store.handler.pc = .busy .handling said (.call (.reply reply) k))
    (hdeliver : s.deliver reply taken = some s₁) : s₁.Checked h := by
  obtain ⟨request, hends, hfits, -⟩ := hp.answers hpc
  have hcleared : Service.Checked h { s with served := none } :=
    ⟨hc.arrived, hc.tasks, hc.queue, hc.in_hand⟩
  rcases Service.deliver_cases hdeliver with ⟨rfl, -⟩ | ⟨i, t, t', hserved, ht, hreplied, -, rfl⟩
  · exact hcleared
  · obtain ⟨o, k', hp, r, rfl, hr, hanswered⟩ := hfits i hserved t ht
    obtain rfl := Option.some.inj (hreplied.symm.trans hanswered)
    refine hcleared.setTask i fun t' ht' => ?_
    obtain rfl := Option.some.inj ht'
    refine ⟨hc.arrived i t ht, fun currency hmem => ?_⟩
    rcases List.mem_append.mp hmem with hmem | hmem
    · exact hc.tasks i t currency ht hmem
    · obtain ⟨rfl, hr'⟩ := Sigma.mk.inj (List.mem_singleton.mp hmem)
      obtain rfl := eq_of_heq hr'
      cases hends with
      | supported => exact Except.ok.inj (Option.some.inj hr)

theorem Followed.checked {s₁ : Service lib} {sys : Sys lib} {e : SysEvent lib}
    (hf : Followed d s sys e s₁) {turns : List DaemonTurn}
    (hsound : DaemonSound lib turns s.sys.store) (hp : s.Sound) (hc : s.Checked h) :
    Service.Checked h { s₁ with sys := sys } := by
  obtain ⟨-, -, events, -, -, hevents⟩ := hsound
  cases hf with
  | still he hqueue hstore =>
    exact ⟨hc.arrived, hstore ▸ hc.tasks, hqueue ▸ hstore ▸ hc.queue, hstore ▸ hc.in_hand⟩
  | enqueued he request hrequest hqueue hstore =>
    refine ⟨hc.arrived, hstore ▸ hc.tasks, fun request' hmem => ?_, hstore ▸ hc.in_hand⟩
    rw [hqueue] at hmem
    rcases List.mem_append.mp hmem with hmem | hmem
    · exact hstore ▸ hc.queue request' hmem
    · rw [List.mem_singleton.mp hmem]
      exact passes_of_not_fromTask hrequest _ _
  | received request hx he hqueue =>
    have hmem : ∀ request', request' ∈ sys.state_queue → request' ∈ s.sys.state_queue := by
      intro request' hmem
      rw [hqueue]
      exact List.mem_cons_of_mem _ hmem
    rcases hx.handlerStep with ⟨e', he', hstep⟩ | hrestart
    · obtain rfl := DaemonEvent.handler.inj (he.symm.trans he')
      have hnext := hc.step hstep hevents hmem fun request' he => by
        obtain rfl := HandlerEvent.received.inj he
        rw [hqueue]
        exact List.mem_cons_self
      exact ⟨hnext.arrived, hnext.tasks, hnext.queue, hnext.in_hand⟩
    · cases he.symm.trans hrestart
  | replied reply taken hx he hqueue hdeliver =>
    obtain ⟨phase, said, k, hpc, -, -⟩ := hx.said he
    obtain rfl : phase = .handling := hevents.phase_eq hpc
    have hnext := hc.deliver (hp (by rw [Handler.hasEnded, hpc])) hpc hdeliver
    have hsys := Service.deliver_sys hdeliver
    rcases hx.handlerStep with ⟨e', he', hstep⟩ | hrestart
    · obtain rfl := DaemonEvent.handler.inj (he.symm.trans he')
      exact hnext.step (hsys ▸ hstep) (hsys ▸ hevents)
        (fun request hmem => hsys ▸ hqueue ▸ hmem) fun _ heq => (by cases heq)
    · cases he.symm.trans hrestart
  | handled ev hx he hreceived hreply hqueue =>
    rcases hx.handlerStep with ⟨ev', he', hstep⟩ | hrestart
    · obtain rfl := DaemonEvent.handler.inj (he.symm.trans he')
      exact hc.step hstep hevents (fun request hmem => hqueue ▸ hmem)
        fun request heq => absurd heq (hreceived request)
    · cases he.symm.trans hrestart
  | restarted hsys =>
    rw [hsys]
    exact ⟨fun _ _ ht => (by cases ht), fun _ _ _ ht => (by cases ht),
      fun _ hmem => (by cases hmem), Handler.has_of_ne fun _ _ h => (by cases h)⟩

theorem ServiceStep.checked {e : ServiceEvent lib} (hs : ServiceStep display d s e s')
    {turns : List DaemonTurn} (hsound : DaemonSound lib turns s.sys.store)
    (hreports : ∀ index, (s.sys.trackers index).Reporting) (hp : s.Sound) (hc : s.Checked h) :
    s'.Checked (h ++ [e]) := by
  have hlater : s.Checked (h ++ [e]) := hc.mono (List.subset_append_left h [e])
  cases hs with
  | arrived i order_id payload =>
    refine hlater.setTask i fun t' ht' => ?_
    obtain rfl := Option.some.inj ht'
    exact ⟨List.mem_append_right _ (List.mem_singleton_self _), fun _ hmem => (by cases hmem)⟩
  | @asked sys t o k i ht hprogram hw hsys =>
    have hasks := hlater.asks ht hprogram
    cases (SysStep.outside (d := d) _ hsys).outcome with
    | requested request =>
      have hsent : Service.Checked (h ++ [.asked i o.request]) { s with
          sys := { s.sys with state_queue := s.sys.state_queue ++ [o.request] },
          owners := s.owners ++ [some i] } := by
        refine ⟨hlater.arrived, hlater.tasks, fun request' hmem => ?_, hlater.in_hand⟩
        rcases List.mem_append.mp hmem with hmem | hmem
        · exact hlater.queue request' hmem
        · rw [List.mem_singleton.mp hmem]
          exact hasks
      refine hsent.setTask i fun t' ht' => ?_
      obtain rfl := Option.some.inj ht'
      exact ⟨hlater.arrived i t ht, fun currency hmem => hlater.tasks i t currency ht hmem⟩
  | @unheard t o k i ht hprogram hend =>
    refine hlater.setTask i fun t' ht' => ?_
    obtain rfl := Option.some.inj ht'
    refine ⟨hlater.arrived i t ht, fun currency hmem => ?_⟩
    rcases List.mem_append.mp hmem with hmem | hmem
    · exact hlater.tasks i t currency ht hmem
    · obtain ⟨rfl, hr⟩ := Sigma.mk.inj (List.mem_singleton.mp hmem)
      cases eq_of_heq hr
  | left i | responded i => exact hlater.setTask i fun _ ht => (by cases ht)
  | daemon e hs hfollow => exact (hs.followed hreports hfollow).checked hsound hp hlater

end Steps

theorem ServiceRun.checked {h : List (ServiceEvent lib)} {s : Service lib}
    (run : ServiceRunIf display d allow (Sys.Begun d) h s) : s.Checked h := by
  refine run.invariant (P := fun h s => s.Checked h) ?_ ?_
  · rintro s ⟨sys, ⟨orders, -, rfl⟩, rfl⟩
    exact ⟨fun _ _ ht => (by cases ht), fun _ _ _ ht => (by cases ht),
      fun _ hmem => (by cases hmem), Handler.has_of_ne fun _ _ h => (by cases h)⟩
  · rintro h s e s' run ih - hs
    have hsys := ServiceRun.sysRun run
    exact hs.checked (SysRun.handler_sound hsys) (SysRun.reporting hsys) (ServiceRun.sound run) ih

/-! ## What follows -/

/-- A currency that was checked is known. -/
theorem Service.Checked.known {s : Service lib} {h : List (ServiceEvent lib)} (hc : s.Checked h)
    {said : Trace HandlerSig}
    {reply : HandlerReply} {k : Bool → Prog HandlerSig (Except Error HandlerNext)}
    (hpc : s.sys.store.handler.pc = .busy .handling said (.call (.reply reply) k)) :
    reply ≠ .createInvoice (.error (.order .unknownCurrency)) := by
  rintro rfl
  obtain ⟨request, hpasses, hserves⟩ := hc.in_hand said _ hpc
  have hends := hserves.1.ends _ rfl
  cases hends with
  | @createInvoice query _ _ hends =>
    have hknown := (hpasses query rfl).currency
    cases hends with
    | unknownCurrency hnone =>
      rw [StateData.Supports, hnone] at hknown
      cases hknown

/-- **No currency is found to be unknown when its order is placed**, in any run. -/
theorem alwaysKnown {h : List (ServiceEvent lib)} {s : Service lib}
    (run : ServiceRunIf display d allow (Sys.Begun d) h s) {x : DaemonTurn}
    (hx : .daemon (.daemon x) ∈ h) (taken : Bool) :
    x.event ≠ .handler
      (.said ⟨.reply (.createInvoice (.error (.order .unknownCurrency))), taken⟩) := by
  intro he
  obtain ⟨h₁, h₂, rfl⟩ := List.append_of_mem hx
  obtain ⟨s₁, s₂, run₁, -, hs⟩ := run.split
  cases hs with
  | daemon _ hs =>
    obtain ⟨phase, said, k, hpc, -, -⟩ := hs.outcome.daemonStep.said he
    obtain ⟨-, -, events, -, -, hevents⟩ := SysRun.handler_sound (ServiceRun.sysRun run₁)
    obtain rfl : phase = .handling := hevents.phase_eq hpc
    exact (ServiceRun.checked run₁).known hpc rfl

/-- An order is placed, and the answer to it is none of those. -/
theorem alwaysKnown_dotPlaced : ∃ h s x,
    ServiceRunIf (fun _ => "") Sample.deployment always (Sys.Begun Sample.deployment) h s ∧
      .daemon (.daemon x) ∈ h ∧ x.event ≠ .handler
        (.said ⟨.reply (.createInvoice (.error (.order .unknownCurrency))), true⟩) := by
  obtain ⟨h, s, run, hp⟩ := exists_reach_of_replay
    (Service.exec_sound (fun _ => "") Sample.deployment)
    (fun s => ∃ sys, Sys.Begun Sample.deployment sys ∧ s = .start sys)
    ⟨_, Sample.begun, rfl⟩ Sample.dotPlaced
    (p := fun q => q.1.any ServiceEvent.isOrderAnswer) (by decide +kernel)
  obtain ⟨e, hmem, he⟩ := List.any_eq_true.mp hp
  obtain ⟨x, rfl⟩ := ServiceEvent.exists_of_isOrderAnswer he
  exact ⟨h, s, x, run, hmem, alwaysKnown run hmem true⟩

/-- A record is what a client asked for, it passed the checks, and its currency is one that a
chain announced. -/
structure OrderInfo.Passed (h : List (ServiceEvent lib)) (id : String) (info : OrderInfo) :
    Prop where
  amount : ¬info.amount < EXISTENTIAL_DEPOSIT
  currency : ∃ properties, Announced (serviceSys h) info.currency.currency properties ∧
    info.currency = properties.info info.currency.currency
  asked : ∃ i p, .arrived i id (some p) ∈ h ∧ p.Describes info

theorem OrderInfo.Passed.snoc {h : List (ServiceEvent lib)} {id : String} {info : OrderInfo}
    (hp : info.Passed h id) (e : ServiceEvent lib) : info.Passed (h ++ [e]) id := by
  obtain ⟨hamount, ⟨properties, hannounced, hinfo⟩, i, p, hmem, hdescribes⟩ := hp
  refine ⟨hamount, ⟨properties, ?_, hinfo⟩, i, p, List.mem_append_left _ hmem, hdescribes⟩
  rw [serviceSys_append]
  cases e.sys? with
  | none => rwa [Option.toList_none, List.append_nil]
  | some e' => exact hannounced.snoc e'

/-- The handler asks for the orders that it has in hand. -/
theorem Handler.Has.createOrder {p : StateAccessRequest → Prop} {s : Handler}
    {events : List HandlerEvent} (h : s.Has lib p) (hsound : s.Sound lib events)
    {phase : HandlerPhase} {said : Trace HandlerSig} {order : String} {query : OrderQuery}
    {currency : CurrencyInfo} {payment_account : String}
    {k : HandlerSig.Answer (.db (.createOrder order query currency payment_account)) →
      Prog HandlerSig (Except Error HandlerNext)}
    (hpc : s.pc = .busy phase said (.call (.db (.createOrder order query currency
      payment_account)) k)) :
    p (.createInvoice query) ∧ order = query.order ∧
      ∃ properties, s.state.currencies.lookup query.currency = some properties ∧
        currency = properties.info query.currency := by
  rcases hsound.at_call hpc with ⟨-, -, ho⟩ | ⟨rfl, -⟩ | ⟨-, -, -, ho⟩
  · cases ho
  · obtain ⟨request, hp, hserves⟩ := h said _ hpc
    cases hserves.1.handles with
    | createOrder _ properties _ hlookup => exact ⟨hp, rfl, properties, hlookup, rfl⟩
  · rcases ho.op with ho | ho | ho | ho | ho <;> cases ho

/-- What the handler writes passed the checks. -/
theorem DaemonStep.passes {s s' : HandlerStore} {x : DaemonTurn} {turns : List DaemonTurn}
    {h : List (ServiceEvent lib)} (hs : DaemonStep lib d.account_lifetime s x s')
    (hsound : DaemonSound lib turns s) (hhas : s.handler.Has lib (·.Passes h s.handler.state))
    (htraced : s.handler.Traced lib (serviceSys h))
    (ih : ∀ id info, record s.orders id = some info → info.Passed h id) {id : String}
    {info : OrderInfo} (hrec : record s'.orders id = some info) : info.Passed h id := by
  rcases hs.effect hsound with hsame | ⟨r, answer, now, hx, hattempt, heffect⟩
  · exact ih id info (hsame ▸ hrec)
  obtain ⟨phase, said, k, hpc, -, -⟩ := hs.said hx
  obtain ⟨-, -, events, -, -, hevents⟩ := hsound
  have hplaced : ∀ order query currency payment_account,
      r = .createOrder order query currency payment_account →
        ∀ info : OrderInfo, info.amount = query.amount → info.currency = currency →
          info.Passed h order := by
    rintro order query currency payment_account rfl info hamount rfl
    obtain ⟨hpasses, rfl, properties, hlookup, hcurrency⟩ := hhas.createOrder hevents hpc
    obtain ⟨hdeposit, -, i, p, hmem, hplaces⟩ := hpasses query rfl
    have hname : info.currency.currency = query.currency := by
      rw [hcurrency]
      rfl
    refine ⟨hamount ▸ hdeposit, ⟨properties, ?_, ?_⟩, i, p, hmem, ?_, ?_⟩
    · rw [hname]
      exact htraced.currencies _ _ hlookup
    · rw [hname]
      exact hcurrency
    · rw [hamount]
      exact hplaces.amount
    · rw [hname]
      exact hplaces.currency
  have hwritten : ∀ (order : String) (new : OrderInfo),
      s'.orders = s.orders.insert (orderKey order) new.encode → new.Passed h order →
        info.Passed h id := by
    intro order new horders hnew
    rw [horders, record_insert] at hrec
    split_ifs at hrec with hid
    · exact Option.some.inj hrec ▸ hid ▸ hnew
    · exact ih id info hrec
  generalize horders : s'.orders = orders' at heffect hrec
  cases heffect with
  | failed | listed | read | collided => exact ih id info hrec
  | created order query currency payment_account new _ hi =>
    exact hwritten order new horders (hplaced _ _ _ _ rfl new (by rw [hi]; rfl) (by rw [hi]; rfl))
  | modified order query currency payment_account old new _ _ hi =>
    exact hwritten order new horders (hplaced _ _ _ _ rfl new (by rw [hi]; rfl) (by rw [hi]; rfl))
  | paid order old new hold _ hi =>
    refine hwritten order new horders ?_
    obtain ⟨hamount, hcurrency, i, p, hmem, hdescribes⟩ := ih order old hold
    exact hi ▸ ⟨hamount, hcurrency, i, p, hmem, ⟨hdescribes.amount, hdescribes.currency⟩⟩
  | withdrawn | stuck => cases hattempt

/-- **What is stored was asked for and passed the checks**, in a run that begins on an empty
tree. -/
theorem storedChecked {h : List (ServiceEvent lib)} {s : Service lib}
    (run : ServiceRunIf display d allow (· = Sys.start d ∅) h s) {id : String} {info : OrderInfo}
    (hrec : record s.sys.store.orders id = some info) : info.Passed h id := by
  have hinvariant : ServiceRunIf display d allow (Sys.Begun d) h s ∧ ∀ id info,
      record s.sys.store.orders id = some info → info.Passed h id := by
    refine run.invariant (P := fun h s => ServiceRunIf display d allow (Sys.Begun d) h s ∧
      ∀ id info, record s.sys.store.orders id = some info → info.Passed h id) ?_ ?_
    · rintro s ⟨sys, rfl, rfl⟩
      refine ⟨.start ⟨_, ⟨∅, earlier_empty, rfl⟩, rfl⟩, fun id info hrec => ?_⟩
      simp [Service.start, Sys.start, record, recordAt] at hrec
    · rintro h s e s' - ⟨run, ih⟩ hallow hs
      refine ⟨run.next hallow hs, fun id info hrec => ?_⟩
      have hsys := ServiceRun.sysRun run
      rcases hs.sysStep with ⟨e', he, hstep⟩ | ⟨he, hsame⟩
      · rcases hstep.outcome.store with ⟨x, rfl, hx⟩ | ⟨-, hstore⟩
        · exact (hx.passes (SysRun.handler_sound hsys) (ServiceRun.checked run).in_hand
            (SysRun.handler_traced hsys) ih hrec).snoc e
        · exact (ih id info (hstore ▸ hrec)).snoc e
      · exact (ih id info (hsame ▸ hrec)).snoc e
  exact hinvariant.2 id info hrec

/-- An order is placed and stored. -/
theorem storedChecked_dotPlaced : ∃ h s info,
    ServiceRunIf (fun _ => "") Sample.deployment always (· = Sys.start Sample.deployment ∅) h s ∧
      record s.sys.store.orders "order" = some info ∧ info.Passed h "order" := by
  obtain ⟨h, s, run, hp⟩ := exists_reach_of_replay
    (Service.exec_sound (fun _ => "") Sample.deployment)
    (fun s => ∃ sys, sys = Sys.start Sample.deployment ∅ ∧ s = .start sys)
    ⟨_, rfl, rfl⟩ Sample.dotPlaced
    (p := fun q => (record q.2.sys.store.orders "order").isSome) (by decide +kernel)
  obtain ⟨info, hrec⟩ := Option.isSome_iff_exists.mp hp
  exact ⟨h, s, info, run, hrec, storedChecked run hrec⟩

end Kalatori
