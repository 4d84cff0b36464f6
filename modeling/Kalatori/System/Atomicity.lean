import Kalatori.System.Checks

/-!
# Requests happen in one moment

A request for an order goes through two conversations of the handler, with those of
other requests before, between and after them, and payments are marked meanwhile.
Still each answer is the one of `OrderSpec`, which does the whole request at once:
there is a turn of the handler, after the request came and before it was answered,
at which the records were as the answer says, and changed as it says.  A request
that is answered with an error has a reason for it in that time.

* `Genuine`, `SysRun.genuine`: what the turns of the handler do to the records.
* `Backed`: what stands behind the answer to a task.
* `Service.Explained`: it stands behind all that the tasks were told.
* `Explains`: the explanations of a result; `answeredAtomically`.
-/

namespace Kalatori

open Program Transition

variable {lib : Libraries} {d : Deployment lib} {display : F64 → String}
  {allow : List (ServiceEvent lib) → Service lib → ServiceEvent lib → Prop}

/-! ## The turns of the handler -/

/-- A request to the database is served as it should be. -/
structure Genuine (account_lifetime : Timestamp) (x : DaemonTurn) (r : DbRequest)
    (answer : Except DbError r.Reply) : Prop where
  effect : ∃ now, Effect account_lifetime now x.before r answer x.after
  order : ∀ order query currency payment_account,
    r = .createOrder order query currency payment_account →
      order = query.order ∧ currency.currency = query.currency

theorem SysStep.genuine {s s' : Sys lib} {x : DaemonTurn} (hs : SysStep d s (.daemon x) s')
    {turns : List DaemonTurn} (hsound : DaemonSound lib turns s.store) {h : List (SysEvent lib)}
    (htraced : s.store.handler.Traced lib h) {r : DbRequest} {answer : Except DbError r.Reply}
    (hx : x.event = .handler (.said ⟨.db r, answer⟩)) :
    Genuine d.account_lifetime x r answer := by
  have hstep := hs.outcome.daemonStep
  obtain ⟨phase, said, k, hpc, -, ho⟩ := hstep.said hx
  obtain ⟨-, -, events, -, -, hevents⟩ := hsound
  rw [← hstep.before_eq, ← hstep.after_eq] at ho
  refine ⟨ho.effect, ?_⟩
  rintro order query currency payment_account rfl
  obtain ⟨-, horder, properties, -, rfl⟩ := htraced.in_hand.createOrder hevents hpc
  exact ⟨horder, rfl⟩

theorem SysRun.genuine {allow : List (SysEvent lib) → Sys lib → SysEvent lib → Prop}
    {h : List (SysEvent lib)} {s : Sys lib} (run : SysRunIf d allow h s) {x : DaemonTurn}
    (hmem : .daemon x ∈ h) {r : DbRequest} {answer : Except DbError r.Reply}
    (hx : x.event = .handler (.said ⟨.db r, answer⟩)) : Genuine d.account_lifetime x r answer := by
  obtain ⟨h₁, h₂, rfl⟩ := List.append_of_mem hmem
  obtain ⟨s₁, s₂, run₁, -, hs⟩ := run.split
  exact hs.genuine (SysRun.handler_sound run₁) (SysRun.handler_traced run₁) hx

/-! ## What stands behind an answer -/

/-- The handler took a turn. -/
def Turned (h : List (ServiceEvent lib)) (x : DaemonTurn) : Prop := .daemon (.daemon x) ∈ h

/-- What the handler did, in its order. -/
def handled (h : List (ServiceEvent lib)) : List DaemonEvent :=
  (daemonTurns (serviceSys h)).map (·.event)

def DaemonEvent.ofSaid (exchange : Exchange HandlerSig) : DaemonEvent := .handler (.said exchange)

/-- The handler made these exchanges, directly one after the other. -/
def Spoken (h : List (ServiceEvent lib)) (said : Trace HandlerSig) : Prop :=
  said.map DaemonEvent.ofSaid <:+: handled h

/-- There was a moment since `h₀` at which the daemon was so. -/
def Stood (display : F64 → String) (d : Deployment lib)
    (allow : List (ServiceEvent lib) → Service lib → ServiceEvent lib → Prop)
    (h₀ h : List (ServiceEvent lib)) (p : Sys lib → Prop) : Prop :=
  ∃ g g' s, h = g ++ g' ∧ ServiceRunIf display d allow (Sys.Begun d) (h₀ ++ g) s ∧ p s.sys

/-- **What stands behind an answer to a task**: a conversation of the handler since then, or
that the handler was gone. -/
inductive Backed (display : F64 → String) (d : Deployment lib)
    (allow : List (ServiceEvent lib) → Service lib → ServiceEvent lib → Prop)
    (h₀ h : List (ServiceEvent lib)) : Exchange StateSig → Prop
  | answered {o : StateOp} {r : StateSig.Answer o} {state : StateData} {said : Trace HandlerSig}
      {reply : HandlerReply} (hends : Ends lib state o.request said reply)
      (hr : reply.answer o = some r)
      (hknown : reply ≠ .createInvoice (.error (.order .unknownCurrency)))
      (hstate : Stood display d allow h₀ h fun sys => sys.store.handler.state = state)
      (hsaid : Spoken h said) : Backed display d allow h₀ h ⟨o, r⟩
  | unheard {o : StateOp}
      (hend : Stood display d allow h₀ h fun sys => sys.store.handler.hasEnded = true) :
      Backed display d allow h₀ h ⟨o, o.failed .fatal⟩

section Growth

variable {h₀ h : List (ServiceEvent lib)}

theorem handled_append (h h' : List (ServiceEvent lib)) :
    handled (h ++ h') = handled h ++ handled h' := by
  rw [handled, serviceSys, List.filterMap_append, daemonTurns, List.filterMap_append,
    List.map_append]
  rfl

theorem Spoken.snoc {said : Trace HandlerSig} (hs : Spoken h said) (e : ServiceEvent lib) :
    Spoken (h ++ [e]) said := by
  rw [Spoken, handled_append]
  exact hs.trans (List.prefix_append ..).isInfix

theorem Spoken.turned {said : Trace HandlerSig} (hs : Spoken h said)
    {exchange : Exchange HandlerSig} (hmem : exchange ∈ said) :
    ∃ x, Turned h x ∧ x.event = .handler (.said exchange) := by
  obtain ⟨x, hx, he⟩ := List.mem_map.mp (hs.subset (List.mem_map_of_mem hmem))
  obtain ⟨e, hmem, hsys⟩ := List.mem_filterMap.mp (mem_daemonTurns.mp hx)
  cases e with
  | daemon e =>
    obtain rfl := Option.some.inj hsys
    exact ⟨x, hmem, he⟩
  | _ => cases hsys

theorem Stood.snoc {p : Sys lib → Prop} (hp : Stood display d allow h₀ h p)
    (e : ServiceEvent lib) : Stood display d allow h₀ (h ++ [e]) p := by
  obtain ⟨g, g', s, rfl, hrun, hs⟩ := hp
  exact ⟨g, g' ++ [e], s, List.append_assoc .., hrun, hs⟩

theorem Backed.snoc {exchange : Exchange StateSig} (hb : Backed display d allow h₀ h exchange)
    (e : ServiceEvent lib) : Backed display d allow h₀ (h ++ [e]) exchange := by
  cases hb with
  | answered hends hr hknown hstate hsaid =>
    exact .answered hends hr hknown (hstate.snoc e) (hsaid.snoc e)
  | unheard hend => exact .unheard (hend.snoc e)

end Growth

/-- A request with this number comes, or its task comes to an end. -/
def ServiceEvent.Closes (i : ℕ) : ServiceEvent lib → Prop
  | .arrived j _ _ | .left j | .responded j _ => j = i
  | .daemon (.daemon x) => x.event = .restarted
  | _ => False

/-- What was said in the program of the handler since then, for the request in hand. -/
def Said (h : List (ServiceEvent lib)) (handler : Handler) : Prop :=
  ∀ said program, handler.pc = .busy .handling said program →
    said.map DaemonEvent.ofSaid <:+ handled h

/-- All that a task was told since it came has something behind it. -/
structure Since (display : F64 → String) (d : Deployment lib)
    (allow : List (ServiceEvent lib) → Service lib → ServiceEvent lib → Prop)
    (i : ℕ) (said : Trace StateSig) (served : Option ℕ) (handler : Handler)
    (h₀ h : List (ServiceEvent lib)) : Prop where
  quiet : ∀ e ∈ h, ¬e.Closes i
  backed : ∀ exchange ∈ said, Backed display d allow h₀ h exchange
  in_hand : served = some i → Said h handler

/-- It came in the history, and all that it was told has something behind it. -/
def OrderTask.Explained (display : F64 → String) (d : Deployment lib)
    (allow : List (ServiceEvent lib) → Service lib → ServiceEvent lib → Prop)
    (h : List (ServiceEvent lib)) (s : Service lib) (i : ℕ) (t : OrderTask) : Prop :=
  ∃ h₁ h₂, h = h₁ ++ .arrived i t.order_id t.payload :: h₂ ∧
    Since display d allow i t.said s.served s.sys.store.handler
      (h₁ ++ [.arrived i t.order_id t.payload]) h₂

/-- **All that the tasks were told has something behind it.** -/
def Service.Explained (display : F64 → String) (d : Deployment lib)
    (allow : List (ServiceEvent lib) → Service lib → ServiceEvent lib → Prop)
    (h : List (ServiceEvent lib)) (s : Service lib) : Prop :=
  ∀ i t, s.tasks i = some t → t.Explained display d allow h s i

/-! ## The steps -/

section Steps

variable {s s' : Service lib} {h₀ h : List (ServiceEvent lib)} {i : ℕ} {t : OrderTask}

/-- The handler is told something in the last turn. -/
theorem Said.step {account_lifetime : Timestamp} {store store' : HandlerStore} {x : DaemonTurn}
    (hx : DaemonStep lib account_lifetime store x store') (hs : Said h store.handler) :
    Said (h ++ [.daemon (.daemon x)]) store'.handler := by
  intro said program hpc
  rcases eq_or_ne said [] with rfl | hne
  · exact List.nil_suffix
  · obtain ⟨said₀, last, program₀, rfl, hlast, hpc₀⟩ := hx.said_snoc hpc hne
    obtain ⟨earlier, hearlier⟩ := hs said₀ program₀ hpc₀
    have hturn : @handled lib [.daemon (.daemon x)] = [DaemonEvent.ofSaid last] :=
      congrArg (fun event => [event]) hlast
    refine ⟨earlier, ?_⟩
    rw [handled_append, hturn, ← hearlier, List.map_append, List.append_assoc]
    rfl

theorem Said.snoc {handler : Handler} (hs : Said h handler) {e : ServiceEvent lib}
    (he : handled [e] = []) : Said (h ++ [e]) handler := by
  intro said program hpc
  rw [handled_append, he, List.append_nil]
  exact hs said program hpc

theorem not_closes_snoc {g : List (ServiceEvent lib)} (hg : ∀ e ∈ g, ¬e.Closes i)
    {e : ServiceEvent lib} (he : ¬e.Closes i) : ∀ e' ∈ g ++ [e], ¬e'.Closes i := by
  intro e' hmem
  rcases List.mem_append.mp hmem with hmem | hmem
  · exact hg e' hmem
  · exact List.mem_singleton.mp hmem ▸ he

/-- A task that is told nothing. -/
theorem OrderTask.Explained.keep (hx : t.Explained display d allow h s i) {e : ServiceEvent lib}
    (hquiet : ¬e.Closes i)
    (hsaid : s'.served = some i → ∀ g, (s.served = some i → Said g s.sys.store.handler) →
      Said (g ++ [e]) s'.sys.store.handler) :
    t.Explained display d allow (h ++ [e]) s' i := by
  obtain ⟨h₁, h₂, rfl, hs⟩ := hx
  refine ⟨h₁, h₂ ++ [e], by rw [List.append_assoc, List.cons_append],
    not_closes_snoc hs.quiet hquiet, fun exchange hmem => (hs.backed exchange hmem).snoc e,
    fun hi => hsaid hi h₂ hs.in_hand⟩

/-- A task that has its answer. -/
theorem OrderTask.Explained.told (hx : t.Explained display d allow h s i) {e : ServiceEvent lib}
    {o : StateOp} {k : StateSig.Answer o → Prog StateSig (Except OrderError OrderResponse)}
    (hp : t.program = .call o k) {r : StateSig.Answer o} (hquiet : ¬e.Closes i)
    (hsaid : s'.served = some i → ∀ g, (s.served = some i → Said g s.sys.store.handler) →
      Said (g ++ [e]) s'.sys.store.handler)
    (hbacked : ∀ h₀ g, h = h₀ ++ g → (s.served = some i → Said g s.sys.store.handler) →
      Backed display d allow h₀ (g ++ [e]) ⟨o, r⟩) :
    (t.answered hp r).Explained display d allow (h ++ [e]) s' i := by
  obtain ⟨h₁, h₂, rfl, hs⟩ := hx
  refine ⟨h₁, h₂ ++ [e], by rw [List.append_assoc, List.cons_append]; rfl,
    not_closes_snoc hs.quiet hquiet, fun exchange hmem => ?_, fun hi => hsaid hi h₂ hs.in_hand⟩
  rcases List.mem_append.mp hmem with hmem | hmem
  · exact (hs.backed exchange hmem).snoc e
  · rw [List.mem_singleton.mp hmem]
    exact hbacked _ h₂ (by rw [List.append_assoc, List.singleton_append]; rfl) hs.in_hand

/-- A task comes, goes or goes on, and the others are told nothing. -/
theorem Service.Explained.setTask (hx : s.Explained display d allow h) {e : ServiceEvent lib}
    {t' : Option OrderTask} (hturn : handled [e] = []) (hquiet : ∀ j, e.Closes j → j = i)
    (hserved : s'.served = s.served) (hstore : s'.sys.store = s.sys.store)
    (htasks : s'.tasks = s.tasks)
    (ht' : ∀ t, t' = some t → t.Explained display d allow (h ++ [e]) (s'.setTask i t') i) :
    (s'.setTask i t').Explained display d allow (h ++ [e]) := by
  intro j t ht
  by_cases hj : j = i
  · subst hj
    rw [Service.setTask_self] at ht
    exact ht' t ht
  · rw [Service.setTask_of_ne hj, htasks] at ht
    refine (hx j t ht).keep (fun he => hj (hquiet j he)) fun hi g hsaid => ?_
    have hnext := (hsaid (hserved ▸ hi)).snoc hturn
    rw [← hstore] at hnext
    exact hnext

theorem Followed.explained {s₁ : Service lib} {sys : Sys lib} {e : SysEvent lib}
    (hf : Followed d s sys e s₁) {turns : List DaemonTurn}
    (hsound : DaemonSound lib turns s.sys.store) (hp : s.Sound) (hc : s.Checked h)
    (run : ServiceRunIf display d allow (Sys.Begun d) h s)
    (hx : s.Explained display d allow h) :
    Service.Explained display d allow (h ++ [.daemon e]) { s₁ with sys := sys } := by
  have hkept : ∀ {s' : Service lib}, e.daemon? = none → s'.tasks = s.tasks →
      s'.served = s.served → s'.sys.store = s.sys.store →
      s'.Explained display d allow (h ++ [.daemon e]) := by
    intro s' he htasks hserved hstore i t ht
    refine (hx i t (htasks ▸ ht)).keep ?_ fun hi g hsaid => ?_
    · cases e with
      | daemon => cases he
      | _ => exact id
    · rw [hstore]
      refine (hsaid (hserved ▸ hi)).snoc ?_
      cases e with
      | daemon => cases he
      | _ => rfl
  cases hf with
  | still he hqueue hstore => exact hkept he rfl rfl hstore
  | enqueued he request hrequest hqueue hstore => exact hkept he rfl rfl hstore
  | received request hstep he hqueue =>
    intro i t ht
    refine (hx i t ht).keep (fun hclose => ?_) fun _ g _ => ?_
    · cases he.symm.trans hclose
    · obtain ⟨hpc, hhandler⟩ := hstep.receives he
      intro said program hpc'
      obtain ⟨-, rfl, -⟩ := HandlerPc.busy.inj (hhandler ▸ hpc')
      exact List.nil_suffix
  | replied reply taken hstep he hqueue hdeliver =>
    obtain ⟨phase, said, k, hpc, -, -⟩ := hstep.said he
    obtain ⟨-, -, events, -, -, hevents⟩ := hsound
    obtain rfl : phase = .handling := hevents.phase_eq hpc
    obtain ⟨request, hends, hfits, -⟩ := (hp (by rw [Handler.hasEnded, hpc])).answers hpc
    have hquiet : ∀ j, ¬(@ServiceEvent.daemon lib (.daemon _)).Closes j :=
      fun j hclose => by cases he.symm.trans hclose
    rcases Service.deliver_cases hdeliver with ⟨rfl, -⟩ | ⟨i, t, t', hi, ht, hreplied, -, rfl⟩
    · exact fun j t ht => (hx j t ht).keep (hquiet j) fun hj => (by cases hj)
    · obtain ⟨o, k', hprogram, r, rfl, hr, hanswered⟩ := hfits i hi t ht
      obtain rfl := Option.some.inj (hreplied.symm.trans hanswered)
      intro j t₁ ht₁
      by_cases hj : j = i
      · subst hj
        obtain rfl := Option.some.inj ((Service.setTask_self ..).symm.trans ht₁)
        refine (hx j t ht).told hprogram (hquiet j) (fun hj => by cases hj) ?_
        rintro h₀ g rfl hsaid
        have hspoken : Spoken g said := (hsaid hi said _ hpc).isInfix
        exact .answered hends hr (hc.known hpc) ⟨g, [_], s, rfl, run, rfl⟩ (hspoken.snoc _)
      · have ht₀ : s.tasks j = some t₁ := (Service.setTask_of_ne hj).symm.trans ht₁
        exact (hx j t₁ ht₀).keep (hquiet j) fun hj => (by cases hj)
  | handled ev hstep he hreceived hreply hqueue =>
    intro i t ht
    refine (hx i t ht).keep (fun hclose => ?_) fun hi g hsaid => (hsaid hi).step hstep
    cases he.symm.trans hclose
  | restarted hsys => exact fun i t ht => (by cases ht)

theorem ServiceStep.explained {e : ServiceEvent lib} (hs : ServiceStep display d s e s')
    (run : ServiceRunIf display d allow (Sys.Begun d) h s)
    (hx : s.Explained display d allow h) : s'.Explained display d allow (h ++ [e]) := by
  have hsys := ServiceRun.sysRun run
  have hsound := SysRun.handler_sound hsys
  cases hs with
  | arrived i order_id payload hfree hunused =>
    refine hx.setTask rfl (fun j hj => hj.symm) rfl rfl rfl fun t ht => ?_
    obtain rfl := Option.some.inj ht
    refine ⟨h, [], rfl, fun _ hmem => (by cases hmem), fun _ hmem => (by cases hmem), fun hi => ?_⟩
    exact absurd (mem_holders.mpr (.inl hi)) hunused
  | @asked sys t o k i ht hprogram hw hrequest =>
    have hstore : sys.store = s.sys.store := by
      cases (SysStep.outside (d := d) _ hrequest).outcome with
      | requested => rfl
    refine hx.setTask rfl (fun j hj => hj.elim) rfl hstore rfl fun t' ht' => ?_
    obtain rfl := Option.some.inj ht'
    refine OrderTask.Explained.keep (t := t) (s := s) (hx i t ht) id fun hi g hsaid => ?_
    show Said (g ++ [.asked i o.request]) sys.store.handler
    rw [hstore]
    exact (hsaid hi).snoc rfl
  | @unheard t o k i ht hprogram hend =>
    refine hx.setTask rfl (fun j hj => hj.elim) rfl rfl rfl fun t' ht' => ?_
    obtain rfl := Option.some.inj ht'
    refine (hx i t ht).told hprogram id (fun hi g hsaid => (hsaid hi).snoc rfl) ?_
    rintro h₀ g rfl -
    exact .unheard ⟨g, [_], s, rfl, run, hend⟩
  | left i ht =>
    exact hx.setTask rfl (fun j hj => hj.symm) rfl rfl rfl fun t ht => (by cases ht)
  | responded i ht hprogram =>
    exact hx.setTask rfl (fun j hj => hj.symm) rfl rfl rfl fun t ht => (by cases ht)
  | daemon e hs hfollow =>
    exact (hs.followed (SysRun.reporting hsys) hfollow).explained hsound (ServiceRun.sound run)
      (ServiceRun.checked run) run hx

end Steps

theorem ServiceRun.explained {h : List (ServiceEvent lib)} {s : Service lib}
    (run : ServiceRunIf display d allow (Sys.Begun d) h s) : s.Explained display d allow h := by
  refine run.invariant (P := fun h s => s.Explained display d allow h) ?_ ?_
  · rintro s ⟨sys, -, rfl⟩
    exact fun i t ht => (by cases ht)
  · rintro h s e s' run ih - hs
    exact hs.explained run ih

/-! ## The explanations -/

/-- Why a request for an order could not be done: what the handler was told, at the end of its
conversation about the order. -/
inductive Fails (lib : Libraries) (order_id : String) : Trace HandlerSig → Prop
  | unsigned {ss58 : UInt16} {e : SignerError} :
      Fails lib order_id [⟨.publicKey order_id ss58, .error e⟩]
  | unread {e : DbError} : Fails lib order_id [⟨.db (.readOrder order_id), .error e⟩]
  | unwritten {query : OrderQuery} {currency : CurrencyInfo} {payment_account : String}
      {e : DbError} :
      Fails lib order_id [⟨.db (.createOrder order_id query currency payment_account), .error e⟩]
  | unaddressed {query : OrderQuery} {currency : CurrencyInfo} {payment_account : String}
      {info : OrderInfo} {recipient : AccountId32} {e : ChainError}
      (h : WatchAccount.new lib order_id info recipient .stateHandler = .error e) :
      Fails lib order_id
        [⟨.db (.createOrder order_id query currency payment_account), .ok (.new info)⟩]
  | dropped {info : OrderInfo} {recipient : AccountId32} {request : WatchAccount}
      (h : WatchAccount.new lib order_id info recipient .stateHandler = .ok request) :
      Fails lib order_id [⟨.send (.watchAccount request), false⟩]
  | refused {info : OrderInfo} {recipient : AccountId32} {request : WatchAccount} {e : ChainError}
      (h : WatchAccount.new lib order_id info recipient .stateHandler = .ok request) :
      Fails lib order_id [⟨.send (.watchAccount request), true⟩, ⟨.await, .error e⟩]

/-- **The explanations of a result**, by what happened since the request came. -/
inductive Explains (display : F64 → String) (d : Deployment lib)
    (allow : List (ServiceEvent lib) → Service lib → ServiceEvent lib → Prop)
    (h₀ h : List (ServiceEvent lib)) (order_id : String) :
    Option OrderPayload → Except OrderError OrderResponse → Prop
  | performed {payload : Option OrderPayload} {r : OrderResponse} {x : DaemonTurn}
      (hx : Turned h x) (hspec : OrderSpec order_id payload (record x.before) r (record x.after)) :
      Explains display d allow h₀ h order_id payload (.ok r)
  | refused {p : OrderPayload} {e : OrderError} (he : p.refusal = some e) :
      Explains display d allow h₀ h order_id (some p) (.error e)
  | unsupported {p : OrderPayload} {currency : String} (hc : p.currency = some currency)
      (hstate : Stood display d allow h₀ h fun sys =>
        ¬sys.store.handler.state.Supports currency) :
      Explains display d allow h₀ h order_id (some p) (.error .unknownCurrency)
  | failed {payload : Option OrderPayload} {said : Trace HandlerSig} (hsaid : Spoken h said)
      (hfails : Fails lib order_id said) :
      Explains display d allow h₀ h order_id payload (.error .internalError)
  | gone {payload : Option OrderPayload}
      (hend : Stood display d allow h₀ h fun sys => sys.store.handler.hasEnded = true) :
      Explains display d allow h₀ h order_id payload (.error .internalError)

/-- A record is written. -/
theorem record_insert_update (orders : Orders) (order : String) (info : OrderInfo) :
    record (orders.insert (orderKey order) info.encode) =
      Function.update (record orders) order (some info) := by
  funext order'
  rw [record_insert, Function.update_apply]

section Explanations

variable {h₀ h : List (ServiceEvent lib)} {order_id : String} {account_lifetime : Timestamp}
  {x : DaemonTurn}

/-- What is answered to the task. -/
def OrderCreateResponse.response (status : OrderStatus) : OrderCreateResponse → OrderResponse
  | .new _ => .newOrder status
  | .modified _ => .modifiedOrder status
  | .collision _ => .collidedOrder status

/-- **What the database answers to a request for an order is what the request should do.** -/
theorem Genuine.orderSpec {order : String} {query : OrderQuery} {currency : CurrencyInfo}
    {payment_account : String} {answer : OrderCreateResponse} {status : OrderStatus}
    (hg : Genuine account_lifetime x (.createOrder order query currency payment_account)
      (.ok answer)) {p : OrderPayload} (hp : p.Places order_id query)
    (hs : status.Shows order_id answer.info) :
    OrderSpec order_id (some p) (record x.before) (answer.response status) (record x.after) := by
  obtain ⟨now, heffect⟩ := hg.effect
  obtain ⟨horder, hcurrency⟩ := hg.order _ _ _ _ rfl
  obtain rfl : order = order_id := horder.trans hp.order
  generalize x.after = orders' at heffect
  cases heffect with
  | created _ _ _ _ info hnone hi =>
    rw [record_insert_update]
    refine .new ?_ ⟨?_, ?_⟩ ?_ ?_ ?_ hs
    · rw [record, recordAt, hnone]
      rfl
    all_goals rw [hi]
    · exact hp.amount
    · rw [hp.currency, ← hcurrency]
      rfl
    · exact hp.callback
    · rfl
    · rfl
  | modified _ _ _ _ old info hold hpending hi =>
    rw [record_insert_update]
    refine .modified hold hpending ⟨?_, ?_⟩ ?_ hs <;> rw [hi]
    · exact hp.amount
    · rw [hp.currency, ← hcurrency]
      rfl
    · rfl
  | collided _ _ _ _ info hinfo hpaid => exact .collided hinfo hpaid hs

theorem Genuine.orderSpec_read {info : Option OrderInfo} {r : OrderResponse}
    (hg : Genuine account_lifetime x (.readOrder order_id) (.ok info))
    (hr : ∀ orders : Orders, record orders order_id = info →
      OrderSpec order_id none (record orders) r (record orders)) :
    OrderSpec order_id none (record x.before) r (record x.after) := by
  obtain ⟨now, heffect⟩ := hg.effect
  generalize x.after = orders' at heffect ⊢
  cases heffect with
  | read _ _ hrec => exact hr _ hrec

theorem Stood.mono {p q : Sys lib → Prop} (hp : Stood display d allow h₀ h p)
    (hle : ∀ sys, p sys → q sys) : Stood display d allow h₀ h q := by
  obtain ⟨g, g', s, hg, hrun, hs⟩ := hp
  exact ⟨g, g', s, hg, hrun, hle _ hs⟩

/-- An answer that is no error comes from the handler. -/
theorem Backed.ok {o : StateOp} {r : StateSig.Answer o}
    (hb : Backed display d allow h₀ h ⟨o, r⟩) (hr : ∀ e, r ≠ o.failed e) :
    ∃ state said reply, Ends lib state o.request said reply ∧ reply.answer o = some r ∧
      Stood display d allow h₀ h (fun sys => sys.store.handler.state = state) ∧
      Spoken h said := by
  generalize hexchange : (⟨o, r⟩ : Exchange StateSig) = exchange at hb
  cases hb with
  | answered hends hanswer hknown hstate hsaid =>
    obtain ⟨rfl, hr'⟩ := Sigma.mk.inj hexchange
    obtain rfl := eq_of_heq hr'
    exact ⟨_, _, _, hends, hanswer, hstate, hsaid⟩
  | unheard hend =>
    obtain ⟨rfl, hr'⟩ := Sigma.mk.inj hexchange
    exact absurd (eq_of_heq hr') (hr _)

/-- What stands behind an order that is answered with no error. -/
theorem Explains.created {p : OrderPayload} {query : OrderQuery} (hp : p.Places order_id query)
    {state : StateData} {said : Trace HandlerSig} {response : OrderResponse}
    (hends : CreationEnds lib state query said (.ok response))
    (hgenuine : ∀ x, Turned h x → ∀ r answer, x.event = .handler (.said ⟨.db r, answer⟩) →
      Genuine d.account_lifetime x r answer)
    (hsaid : Spoken h said) :
    Explains display d allow h₀ h order_id (some p) (.ok response) := by
  have hspec : ∀ (currency : CurrencyInfo) (payment_account message : String)
      (answer : OrderCreateResponse),
      ⟨.db (.createOrder query.order query currency payment_account), .ok answer⟩ ∈ said →
      Explains display d allow h₀ h order_id (some p)
        (.ok (answer.response (state.orderStatus lib query.order answer.info message))) := by
    intro currency payment_account message answer hmem
    obtain ⟨x, hx, he⟩ := hsaid.turned hmem
    exact .performed hx ((hgenuine x hx _ _ he).orderSpec hp ⟨hp.order, rfl⟩)
  cases hends with
  | new currency payment_account info =>
    exact hspec currency payment_account "" (.new info) (by simp [Kalatori.created])
  | modified currency payment_account info =>
    exact hspec currency payment_account "" (.modified info) (by simp [Kalatori.created])
  | collision currency payment_account info =>
    exact hspec currency payment_account "Order with this ID was already processed"
      (.collision info) (by simp [Kalatori.created])

/-- What stands behind an order that fails. -/
theorem CreationEnds.fails {state : StateData} {query : OrderQuery} {said : Trace HandlerSig}
    {e : Error} (hends : CreationEnds lib state query said (.error e))
    (he : e ≠ .order .unknownCurrency) :
    ∃ last, last <:+: said ∧ Fails lib query.order last := by
  cases hends with
  | unknownCurrency => exact absurd rfl he
  | unsigned => exact ⟨_, List.infix_rfl, .unsigned⟩
  | unserved => exact ⟨_, (List.suffix_cons ..).isInfix, .unwritten⟩
  | unregistered currency payment_account info rest e hfails =>
    cases hfails with
    | unaddressed _ hnew =>
      have hfails := @Fails.unaddressed lib query.order query currency payment_account _ _ _ hnew
      exact ⟨_, (List.suffix_cons ..).isInfix, hfails⟩
    | dropped _ hnew => exact ⟨_, (List.suffix_append ..).isInfix, .dropped hnew⟩
    | refused _ hnew => exact ⟨_, (List.suffix_append ..).isInfix, .refused hnew⟩

/-- What stands behind an operation that fails. -/
theorem Explains.failed_of {o : StateOp} {e : Error} (ho : o.Concerns order_id)
    (hb : Backed display d allow h₀ h ⟨o, o.failed e⟩) {payload : Option OrderPayload} :
    Explains display d allow h₀ h order_id payload (.error .internalError) := by
  generalize hexchange : (⟨o, o.failed e⟩ : Exchange StateSig) = exchange at hb
  cases hb with
  | unheard hend => exact .gone hend
  | @answered o' r _ said reply hends hanswer hknown hstate hsaid =>
    obtain ⟨rfl, hr⟩ := Sigma.mk.inj hexchange
    obtain rfl := eq_of_heq hr
    have hfails : ∃ last, last <:+: said ∧ Fails lib order_id last := by
      cases o with
      | isCurrencySupported =>
        cases hends with
        | supported => cases hanswer
      | createOrder query =>
        obtain rfl : query.order = order_id := ho
        cases hends with
        | createInvoice hends =>
          obtain rfl := Option.some.inj hanswer
          refine hends.fails ?_
          rintro rfl
          exact hknown rfl
      | orderStatus order =>
        obtain rfl : order = order_id := ho
        cases hends with
        | unread => exact ⟨_, List.infix_rfl, .unread⟩
        | found | notFound => cases hanswer
    obtain ⟨last, hlast, hfails⟩ := hfails
    exact .failed ((hlast.map _).trans hsaid) hfails

/-- **What was said before a result explains it.** -/
theorem Concludes.explains {payload : Option OrderPayload} {said : Trace StateSig}
    {result : Except OrderError OrderResponse} (hc : Concludes order_id payload said result)
    (hbacked : ∀ exchange ∈ said, Backed display d allow h₀ h exchange)
    (hgenuine : ∀ x, Turned h x → ∀ r answer, x.event = .handler (.said ⟨.db r, answer⟩) →
      Genuine d.account_lifetime x r answer) :
    Explains display d allow h₀ h order_id payload result := by
  cases hc with
  | refused he => exact .refused he
  | unsupported hcurrency =>
    obtain ⟨state, said, reply, hends, hanswer, hstate, -⟩ :=
      (hbacked _ (List.mem_singleton_self _)).ok fun e h => (by cases h)
    cases hends with
    | supported currency =>
      refine .unsupported hcurrency (hstate.mono fun sys hsys => ?_)
      have hunsupported := Except.ok.inj (Option.some.inj hanswer)
      rw [hsys, StateData.Supports, hunsupported]
      exact Bool.false_ne_true
  | created hplaces =>
    obtain ⟨state, said, reply, hends, hanswer, -, hsaid⟩ :=
      (hbacked _ (List.mem_append_right _ (List.mem_singleton_self _))).ok
        fun e h => (by cases h)
    cases hends with
    | createInvoice hends =>
      obtain rfl := Option.some.inj hanswer
      exact .created hplaces hends hgenuine hsaid
  | told =>
    obtain ⟨state, said, reply, hends, hanswer, -, hsaid⟩ :=
      (hbacked _ (List.mem_singleton_self _)).ok fun e h => (by cases h)
    cases hends with
    | found order info =>
      obtain rfl := Except.ok.inj (Option.some.inj hanswer)
      obtain ⟨x, hx, he⟩ := hsaid.turned (List.mem_singleton_self _)
      exact .performed hx ((hgenuine x hx _ _ he).orderSpec_read fun orders hrec =>
        .found hrec ⟨rfl, rfl⟩)
    | notFound =>
      obtain rfl := Except.ok.inj (Option.some.inj hanswer)
      obtain ⟨x, hx, he⟩ := hsaid.turned (List.mem_singleton_self _)
      exact .performed hx ((hgenuine x hx _ _ he).orderSpec_read fun orders hrec =>
        .notFound hrec)
    | unread => cases hanswer
  | failed ho =>
    exact .failed_of ho (hbacked _ (List.mem_append_right _ (List.mem_singleton_self _)))

end Explanations

/-- **Requests happen in one moment.**  A response explains itself by what happened since its
request came: there is a turn at which the whole request was done, or a reason not to. -/
theorem answeredAtomically {h : List (ServiceEvent lib)} {s : Service lib} {i : ℕ}
    {response : Response}
    (run : ServiceRunIf display d allow (Sys.Begun d) (h ++ [.responded i response]) s) :
    ∃ h₁ order_id payload h₂ result, h = h₁ ++ .arrived i order_id payload :: h₂ ∧
      (∀ e ∈ h₂, ¬e.Closes i) ∧ response = Server.order display result ∧
      Explains display d allow (h₁ ++ [.arrived i order_id payload]) h₂ order_id payload
        result := by
  obtain ⟨s₁, run₁, -, hs⟩ := run.last
  cases hs with
  | @responded t result _ ht hprogram =>
    obtain ⟨h₁, h₂, hh, hsince⟩ := ServiceRun.explained run₁ i t ht
    refine ⟨h₁, t.order_id, t.payload, h₂, result, hh, hsince.quiet, rfl, ?_⟩
    have hconcludes := (processOrder_concludes t.order_id t.payload).after t.handles
    rw [hprogram, List.nil_append] at hconcludes
    have hconcludes : Concludes t.order_id t.payload t.said result := hconcludes
    refine hconcludes.explains hsince.backed fun x hx r answer he => ?_
    have hmem : .daemon (.daemon x) ∈ h := by
      rw [hh]
      exact List.mem_append_right _ (List.mem_cons_of_mem _ hx)
    exact SysRun.genuine (ServiceRun.sysRun run₁) (List.mem_filterMap.mpr ⟨_, hmem, rfl⟩) he

/-- A task has placed an order. -/
def OrderTask.hasPlaced (t : OrderTask) : Bool :=
  match t.program with
  | .done (.ok (.newOrder _)) => true
  | _ => false

/-- An order is placed and the client is answered. -/
theorem answeredAtomically_dotPlaced : ∃ h s response,
    ServiceRunIf (fun _ => "") Sample.deployment always (Sys.Begun Sample.deployment)
        (h ++ [.responded 0 response]) s ∧ response.code = .created ∧
      ∃ h₁ order_id payload h₂ result, h = h₁ ++ .arrived 0 order_id payload :: h₂ ∧
        (∀ e ∈ h₂, ¬e.Closes 0) ∧ response = Server.order (fun _ => "") result ∧
        Explains (fun _ => "") Sample.deployment always (h₁ ++ [.arrived 0 order_id payload]) h₂
          order_id payload result := by
  obtain ⟨h, s, run, hp⟩ := exists_reach_of_replay
    (Service.exec_sound (fun _ => "") Sample.deployment)
    (fun s => ∃ sys, Sys.Begun Sample.deployment sys ∧ s = .start sys)
    ⟨_, Sample.begun, rfl⟩ Sample.dotPlaced
    (p := fun q => (q.2.tasks 0).any OrderTask.hasPlaced) (by decide +kernel)
  obtain ⟨t, ht, hplaced⟩ := (Option.any_eq_true _ _).mp hp
  unfold OrderTask.hasPlaced at hplaced
  split at hplaced
  · next status hprogram =>
    have hnext := run.next trivial (.responded 0 ht hprogram)
    exact ⟨h, _, _, hnext, rfl, answeredAtomically hnext⟩
  · cases hplaced

end Kalatori
