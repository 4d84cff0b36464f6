import Kalatori.Chain.Messages
import Kalatori.System.Records
import Kalatori.System.Service
import Mathlib.Data.List.ReduceOption

/-!
# Answers and those they are for

The state handler serves its queue in order and answers a request before it takes
the next, so the list of owners beside the queue stays in step with it: a task
waits for exactly the answer that is made for it, and of the right kind.

This is said as long as the handler has not ended.  Afterwards nobody is answered,
and a restart begins with no tasks.

* `Followed`: what a step of the daemon means for the queue, the handler and the tasks.
* `Service.Paired`: whose the requests are.
* `Service.Paired.answers`: an answer fits the one it is for.
* `ServiceRun.sound`: tasks and requests are in step as long as the handler runs.
-/

namespace Kalatori

open Program Transition

variable {lib : Libraries} {d : Deployment lib} {display : F64 → String}
  {allow : List (ServiceEvent lib) → Service lib → ServiceEvent lib → Prop}

/-- The requests that only tasks of the route for orders make. -/
def StateAccessRequest.fromTask : StateAccessRequest → Bool
  | .isCurrencySupported _ | .createInvoice _ | .getInvoiceStatus _ => true
  | .connectChain _ | .serverStatus | .orderPaid _ => false

theorem fromTask_of_fromTracker {message : StateAccessRequest} (h : message.fromTracker = true) :
    message.fromTask = false := by
  cases message with
  | connectChain | orderPaid => rfl
  | _ => cases h

/-! ## What a step means for the tasks -/

/-- What the trackers are at sends the right messages. -/
theorem SysRun.reporting {allow : List (SysEvent lib) → Sys lib → SysEvent lib → Prop}
    {h : List (SysEvent lib)} {s : Sys lib} (run : SysRunIf d allow h s) (index : ℕ) :
    (s.trackers index).Reporting := by
  refine run.invariant (P := fun _ s => (s.trackers index).Reporting) ?_ ?_
  · rintro s ⟨orders, -, rfl⟩
    exact Tracker.reporting_start
  · rintro h s e s' - ih - hs
    rcases hs.outcome.trackers index with heq | heq | ⟨chain, x, -, -, -, -, hx⟩
    · exact heq ▸ ih
    · exact heq ▸ Tracker.reporting_start
    · exact hx.reporting ih

/-- **What a step of the daemon means** for the queue of the handler, the handler, and the
tasks. -/
inductive Followed (d : Deployment lib) (s : Service lib) (sys : Sys lib) :
    SysEvent lib → Service lib → Prop
  | still {e : SysEvent lib} (he : e.daemon? = none)
      (hqueue : sys.state_queue = s.sys.state_queue) (hstore : sys.store = s.sys.store) :
      Followed d s sys e s
  | enqueued {e : SysEvent lib} (he : e.daemon? = none) (request : StateAccessRequest)
      (hrequest : request.fromTask = false)
      (hqueue : sys.state_queue = s.sys.state_queue ++ [request])
      (hstore : sys.store = s.sys.store) :
      Followed d s sys e { s with owners := s.owners ++ [none] }
  | received {x : DaemonTurn} (request : StateAccessRequest)
      (hx : DaemonStep lib d.account_lifetime s.sys.store x sys.store)
      (he : x.event = .handler (.received request))
      (hqueue : s.sys.state_queue = request :: sys.state_queue) :
      Followed d s sys (.daemon x) { s with owners := s.owners.tail, served := s.owners.head?.join }
  | replied {x : DaemonTurn} {s₁ : Service lib} (reply : HandlerReply) (taken : Bool)
      (hx : DaemonStep lib d.account_lifetime s.sys.store x sys.store)
      (he : x.event = .handler (.said ⟨.reply reply, taken⟩))
      (hqueue : sys.state_queue = s.sys.state_queue) (h : s.deliver reply taken = some s₁) :
      Followed d s sys (.daemon x) s₁
  | handled {x : DaemonTurn} (e : HandlerEvent)
      (hx : DaemonStep lib d.account_lifetime s.sys.store x sys.store)
      (he : x.event = .handler e) (hreceived : ∀ request, e ≠ .received request)
      (hreply : ∀ reply taken, e ≠ .said ⟨.reply reply, taken⟩)
      (hqueue : sys.state_queue = s.sys.state_queue) : Followed d s sys (.daemon x) s
  | restarted (hsys : sys = .start d s.sys.store.orders) :
      Followed d s sys (.daemon ⟨s.sys.store.orders, .restarted, s.sys.store.orders⟩)
        { s with tasks := fun _ => none, owners := [], served := none }

/-- An operation that is no answer. -/
theorem said_no_reply {exchange : Exchange HandlerSig} (h : ∀ reply, exchange.1 ≠ .reply reply) :
    (∀ request, HandlerEvent.said exchange ≠ .received request) ∧
      ∀ reply taken, HandlerEvent.said exchange ≠ .said ⟨.reply reply, taken⟩ := by
  refine ⟨fun _ heq => (by cases heq), fun reply taken heq => h reply ?_⟩
  rw [HandlerEvent.said.inj heq]

theorem Service.follow_handled {s s₁ : Service lib} {x : DaemonTurn} {e : HandlerEvent}
    (he : x.event = .handler e) (hreceived : ∀ request, e ≠ .received request)
    (hreply : ∀ reply taken, e ≠ .said ⟨.reply reply, taken⟩)
    (h : s.follow (.daemon x) = some s₁) : s₁ = s := by
  simp only [follow, he] at h
  exact (Option.some.inj h).symm

theorem Followed.said {s s₁ : Service lib} {sys : Sys lib} {x : DaemonTurn}
    {exchange : Exchange HandlerSig}
    (hx : DaemonStep lib d.account_lifetime s.sys.store x sys.store)
    (he : x.event = .handler (.said exchange)) (hno : ∀ reply, exchange.1 ≠ .reply reply)
    (hqueue : sys.state_queue = s.sys.state_queue) (h : s.follow (.daemon x) = some s₁) :
    Followed d s sys (.daemon x) s₁ := by
  obtain ⟨hreceived, hreply⟩ := said_no_reply hno
  obtain rfl := Service.follow_handled he hreceived hreply h
  exact .handled _ hx he hreceived hreply hqueue

theorem SysStep.followed {s s₁ : Service lib} {sys : Sys lib} {e : SysEvent lib}
    (hs : SysStep d s.sys e sys) (hreports : ∀ index, (s.sys.trackers index).Reporting)
    (h : s.follow e = some s₁) : Followed d s sys e s₁ := by
  have houtcome := hs.outcome
  cases houtcome with
  | requested request =>
    cases request with
    | serverStatus =>
      obtain rfl := Option.some.inj h
      exact .enqueued rfl .serverStatus rfl rfl rfl
    | _ => cases h
  | handler ev hx he hquiet =>
    by_cases hreply : ∃ reply taken, ev = .said ⟨.reply reply, taken⟩
    · obtain ⟨reply, taken, rfl⟩ := hreply
      simp only [Service.follow, he] at h
      exact .replied reply taken hx he rfl h
    · have hno : ∀ reply taken, ev ≠ .said ⟨.reply reply, taken⟩ :=
        fun reply taken heq => hreply ⟨reply, taken, heq⟩
      have hreceived : ∀ request, ev ≠ .received request := by
        rintro request rfl
        exact hquiet.elim
      obtain rfl := Service.follow_handled he hreceived hno h
      exact .handled ev hx he hreceived hno rfl
  | spawned _ hx he | handlerSent _ hx he | handlerAnswered _ hx he | databaseShutDown hx he =>
    exact Followed.said hx he (fun _ h => (by cases h)) rfl h
  | received request rest hx he hqueue =>
    simp only [Service.follow, he] at h
    obtain rfl := Option.some.inj h
    exact .received request hx he hqueue
  | restarted =>
    obtain rfl := Option.some.inj h
    exact .restarted rfl
  | tracker index hc hx hquiet =>
    simp only [Service.follow] at h
    split at h
    · next message heq =>
      rw [heq] at hquiet
      cases hquiet.1
    · obtain rfl := Option.some.inj h
      exact .still rfl rfl rfl
  | told index message hc hx he =>
    simp only [Service.follow, he] at h
    obtain rfl := Option.some.inj h
    obtain ⟨-, -, hx⟩ := hx
    rw [he] at hx
    exact .enqueued rfl message (fromTask_of_fromTracker (hx.reports (hreports index))) rfl rfl
  | took index request rest hc hx he =>
    simp only [Service.follow, he] at h
    obtain rfl := Option.some.inj h
    exact .still rfl (by simp) (by simp)
  | droppedTracker | lost =>
    obtain rfl := Option.some.inj h
    exact .still rfl (by simp) (by simp)
  | _ =>
    obtain rfl := Option.some.inj h
    exact .still rfl rfl rfl

/-! ## Whose the requests are -/

/-- Whose a request is. -/
def Service.Owns (s : Service lib) (request : StateAccessRequest) : Option ℕ → Prop
  | none => request.fromTask = false
  | some i => ∀ t, s.tasks i = some t → t.Awaits request

/-- The handler is in the middle of a request. -/
abbrev Handler.Serves (lib : Libraries) (s : Handler) (request : StateAccessRequest)
    (said : Trace HandlerSig) (program : Prog HandlerSig (Except Error HandlerNext)) : Prop :=
  Prog.Holds (Serving lib s.state request) (Leaves s.state request) said program

/-- The request that a handler has in hand has an owner until it is answered. -/
def Service.Holding (s : Service lib) (handler : Handler) : Prop :=
  ∀ said program, handler.pc = .busy .handling said program →
    ∃ request, handler.Serves lib request said program ∧
      (silent said = true → s.Owns request s.served) ∧ (silent said = false → s.served = none)

/-- **Tasks and requests are in step.** -/
structure Service.Paired (s : Service lib) : Prop where
  owned : List.Forall₂ s.Owns s.sys.state_queue s.owners
  in_hand : s.Holding s.sys.store.handler
  nodup : s.holders.Nodup
  idle : ∀ i t, s.tasks i = some t → t.waits = false → i ∉ s.holders

theorem mem_holders {s : Service lib} {i : ℕ} :
    i ∈ s.holders ↔ s.served = some i ∨ some i ∈ s.owners := by
  rw [Service.holders, List.mem_append, List.reduceOption_mem_iff, Option.mem_toList]

@[simp] theorem Service.setTask_self (s : Service lib) (i : ℕ) (t : Option OrderTask) :
    (s.setTask i t).tasks i = t := Function.update_self ..

theorem Service.setTask_of_ne {s : Service lib} {i j : ℕ} (h : j ≠ i) {t : Option OrderTask} :
    (s.setTask i t).tasks j = s.tasks j := Function.update_of_ne h ..

/-- Another task does not matter. -/
theorem Service.Owns.setTask {s : Service lib} {request : StateAccessRequest} {owner : Option ℕ}
    (h : s.Owns request owner) {i : ℕ} (hi : owner ≠ some i) (t : Option OrderTask) :
    (s.setTask i t).Owns request owner := by
  cases owner with
  | none => exact h
  | some j =>
    intro t' ht'
    have hj : j ≠ i := fun hj => hi (congrArg some hj)
    rw [Service.setTask_of_ne hj] at ht'
    exact h t' ht'

/-- A task that is gone owns anything. -/
theorem Service.owns_gone {s : Service lib} (request : StateAccessRequest) {i : ℕ} :
    (s.setTask i none).Owns request (some i) := by
  intro t ht
  rw [Service.setTask_self] at ht
  cases ht

/-- Growth of a silent conversation. -/
theorem silent_snoc {said : Trace HandlerSig} {o : HandlerOp} (answer : HandlerSig.Answer o)
    (h : ∀ reply, o ≠ .reply reply) : silent (said ++ [⟨o, answer⟩]) = silent said := by
  have hlast : silent [⟨o, answer⟩] = true := by
    cases o with
    | reply reply => exact absurd rfl (h reply)
    | _ => rfl
  rw [silent, List.all_append, ← silent, ← silent, hlast, Bool.and_true]

theorem silent_snoc_reply (said : Trace HandlerSig) (reply : HandlerReply) (taken : Bool) :
    silent (said ++ [⟨.reply reply, taken⟩]) = false := by
  simp [silent]

/-- An answer fits the operation whose request it is for. -/
theorem Ends.answer_isSome {state : StateData} {o : StateOp} {said : Trace HandlerSig}
    {reply : HandlerReply} (h : Ends lib state o.request said reply) :
    (reply.answer o).isSome := by
  cases o with
  | isCurrencySupported | createOrder | orderStatus => cases h <;> rfl

/-- What is answered to a request of nobody is the status of the server. -/
theorem Ends.status_of_fromTask {state : StateData} {request : StateAccessRequest}
    {said : Trace HandlerSig} {reply : HandlerReply} (h : Ends lib state request said reply)
    (hrequest : request.fromTask = false) : ∃ status, reply = .serverStatus status := by
  cases h with
  | status => exact ⟨_, rfl⟩
  | _ => cases hrequest

/-! ## They stay in step -/

/-- The queues are in step as long as the handler runs. -/
def Service.Sound (s : Service lib) : Prop :=
  s.sys.store.handler.hasEnded = false → s.Paired

section Steps

variable {s s' : Service lib}

theorem Service.paired_start (orders : Orders) : (Service.start (.start d orders)).Paired where
  owned := .nil
  in_hand := fun _ _ hpc => (by cases hpc)
  nodup := List.nodup_nil
  idle := fun _ _ ht => (by cases ht)

theorem forall₂_imp_of_mem {α β : Type} {R S : α → β → Prop} {l : List α} {l' : List β}
    (h : List.Forall₂ R l l') (himp : ∀ a, ∀ b ∈ l', R a b → S a b) : List.Forall₂ S l l' := by
  induction h with
  | nil => exact .nil
  | cons hab _ ih =>
    exact .cons (himp _ _ List.mem_cons_self hab)
      (ih fun a b hb => himp a b (List.mem_cons_of_mem _ hb))

/-- A task that owns nothing may change. -/
theorem Service.Paired.setTask_other (h : s.Paired) {i : ℕ} (hi : i ∉ s.holders)
    (t : Option OrderTask) : (s.setTask i t).Paired where
  owned := forall₂_imp_of_mem h.owned fun request owner hmem howns =>
    howns.setTask (fun heq => hi (mem_holders.mpr (.inr (heq ▸ hmem)))) t
  in_hand := fun said program hpc => by
    obtain ⟨request, hserves, hsilent, hanswered⟩ := h.in_hand said program hpc
    exact ⟨request, hserves, fun hs => (hsilent hs).setTask
      (fun heq => hi (mem_holders.mpr (.inl heq))) t, hanswered⟩
  nodup := h.nodup
  idle := fun j t' ht' hw => by
    by_cases hj : j = i
    · exact hj ▸ hi
    · rw [Service.setTask_of_ne hj] at ht'
      exact h.idle j t' ht' hw

/-- A task may go at any time. -/
theorem Service.Paired.setTask_none (h : s.Paired) (i : ℕ) : (s.setTask i none).Paired where
  owned := forall₂_imp_of_mem h.owned fun request owner _ howns => by
    by_cases howner : owner = some i
    · rw [howner]
      exact Service.owns_gone request
    · exact howns.setTask howner none
  in_hand := fun said program hpc => by
    obtain ⟨request, hserves, hsilent, hanswered⟩ := h.in_hand said program hpc
    refine ⟨request, hserves, fun hs => ?_, hanswered⟩
    by_cases howner : s.served = some i
    · show (s.setTask i none).Owns request s.served
      rw [howner]
      exact Service.owns_gone request
    · exact (hsilent hs).setTask howner none
  nodup := h.nodup
  idle := fun j t' ht' hw => by
    by_cases hj : j = i
    · rw [hj, Service.setTask_self] at ht'
      cases ht'
    · rw [Service.setTask_of_ne hj] at ht'
      exact h.idle j t' ht' hw

/-- A task sends its request. -/
theorem Service.Paired.asked (h : s.Paired) {i : ℕ} {t : OrderTask} {o : StateOp}
    {k : StateSig.Answer o → Prog StateSig (Except OrderError OrderResponse)}
    (ht : s.tasks i = some t) (hp : t.program = .call o k) (hw : t.waits = false) {sys : Sys lib}
    (hqueue : sys.state_queue = s.sys.state_queue ++ [o.request])
    (hstore : sys.store = s.sys.store) :
    ({ s with sys := sys, owners := s.owners ++ [some i] }.setTask i (some t.asks)).Paired := by
  have hi := h.idle i t ht hw
  have hother := h.setTask_other hi (some t.asks)
  have hself : (s.setTask i (some t.asks)).Owns o.request (some i) := by
    intro t' ht'
    rw [Service.setTask_self] at ht'
    obtain rfl := Option.some.inj ht'
    exact ⟨rfl, o, k, hp, rfl⟩
  have hholders : s.served.toList ++ (s.owners ++ [some i]).reduceOption = s.holders ++ [i] := by
    rw [List.reduceOption_append, ← List.append_assoc]
    rfl
  refine ⟨?_, ?_, ?_, ?_⟩
  · show List.Forall₂ (s.setTask i (some t.asks)).Owns sys.state_queue (s.owners ++ [some i])
    rw [hqueue]
    exact List.rel_append hother.owned (.cons hself .nil)
  · show (s.setTask i (some t.asks)).Holding sys.store.handler
    rw [hstore]
    exact hother.in_hand
  · show (s.served.toList ++ (s.owners ++ [some i]).reduceOption).Nodup
    rw [hholders]
    exact List.nodup_append.mpr ⟨h.nodup, List.nodup_singleton i, by
      rintro j hj _ hmem rfl
      exact hi (List.mem_singleton.mp hmem ▸ hj)⟩
  · intro j t' ht' hw'
    show j ∉ s.served.toList ++ (s.owners ++ [some i]).reduceOption
    have hne : j ≠ i := by
      rintro rfl
      rw [Service.setTask_self] at ht'
      obtain rfl := Option.some.inj ht'
      cases hw'
    rw [hholders, List.mem_append, List.mem_singleton, not_or]
    exact ⟨hother.idle j t' ht' hw', hne⟩

/-- Where the handler is after a step of its own. -/
theorem Service.Holding.said {handler : Handler} (h : s.Holding handler) {phase : HandlerPhase}
    {said : Trace HandlerSig} {o : HandlerOp}
    {k : HandlerSig.Answer o → Prog HandlerSig (Except Error HandlerNext)}
    (hpc : handler.pc = .busy phase said (.call o k)) (hno : ∀ reply, o ≠ .reply reply)
    (answer : HandlerSig.Answer o) :
    s.Holding { handler with pc := .busy phase (said ++ [⟨o, answer⟩]) (k answer) } := by
  intro said' program' hpc'
  obtain ⟨rfl, rfl, rfl⟩ := HandlerPc.busy.inj hpc'
  obtain ⟨request, hserves, hsilent, hanswered⟩ := h said _ hpc
  refine ⟨request, hserves.2 answer, ?_, ?_⟩ <;> rw [silent_snoc answer hno]
  · exact hsilent
  · exact hanswered

/-- A handler that is not in a request holds none. -/
theorem Service.holding_of_ne {handler : Handler}
    (h : ∀ said program, handler.pc ≠ .busy .handling said program) : s.Holding handler :=
  fun said program hpc => absurd hpc (h said program)

/-- A step of the handler that neither takes a request nor answers one. -/
theorem HandlerStep.holding {handler handler' : Handler} {e : HandlerEvent}
    (hs : HandlerStep lib handler e handler') (hreceived : ∀ request, e ≠ .received request)
    (hreply : ∀ reply taken, e ≠ .said ⟨.reply reply, taken⟩) (h : s.Holding handler) :
    s.Holding handler' := by
  cases hs with
  | @said phase said o k answer hpc =>
    refine h.said hpc ?_ answer
    rintro reply rfl
    exact hreply reply answer rfl
  | @settled _ _ result hpc =>
    rcases result with _ | _ | _ <;> exact Service.holding_of_ne fun _ _ h => (by cases h)
  | received request => exact absurd rfl (hreceived request)
  | closed | notified => exact Service.holding_of_ne fun _ _ h => (by cases h)

/-- The handler takes the first request. -/
theorem Service.Paired.received (h : s.Paired) {request : StateAccessRequest}
    {rest : List StateAccessRequest} (hqueue : s.sys.state_queue = request :: rest) :
    ∃ owner, s.owners = owner :: s.owners.tail ∧ s.owners.head?.join = owner ∧
      s.Owns request owner ∧ List.Forall₂ s.Owns rest s.owners.tail ∧
      owner.toList ++ s.owners.tail.reduceOption <:+ s.holders := by
  have howned := h.owned
  rw [hqueue] at howned
  cases howners : s.owners with
  | nil =>
    rw [howners] at howned
    cases howned
  | cons owner owners =>
    rw [howners] at howned
    obtain ⟨hfirst, hrest⟩ := List.forall₂_cons.mp howned
    refine ⟨owner, rfl, rfl, hfirst, hrest, ?_⟩
    rw [Service.holders, howners]
    cases owner with
    | none => exact List.suffix_append ..
    | some i => exact List.suffix_append ..

/-- The request in hand is answered. -/
theorem Service.Paired.cleared (h : s.Paired) {sys : Sys lib} {said : Trace HandlerSig}
    {reply : HandlerReply} {taken : Bool}
    {k : Bool → Prog HandlerSig (Except Error HandlerNext)}
    (hpc : s.sys.store.handler.pc = .busy .handling said (.call (.reply reply) k))
    (hqueue : sys.state_queue = s.sys.state_queue)
    (hhandler : sys.store.handler = { s.sys.store.handler with
      pc := .busy .handling (said ++ [⟨.reply reply, taken⟩]) (k taken) }) :
    Service.Paired { s with sys := sys, served := none } where
  owned := by
    show List.Forall₂ s.Owns sys.state_queue s.owners
    rw [hqueue]
    exact h.owned
  in_hand := by
    obtain ⟨request, hserves, -, -⟩ := h.in_hand said _ hpc
    intro said' program' hpc'
    obtain ⟨-, rfl, rfl⟩ := HandlerPc.busy.inj (hhandler ▸ hpc')
    refine ⟨request, ?_, fun hs => ?_, fun _ => rfl⟩
    · show sys.store.handler.Serves lib request _ _
      rw [hhandler]
      exact hserves.2 taken
    · cases (silent_snoc_reply said reply taken).symm.trans hs
  nodup := h.nodup.sublist (List.sublist_append_right ..)
  idle := fun i t ht hw hmem => h.idle i t ht hw (List.mem_append_right _ hmem)

/-- Whoever is served owns nothing else. -/
theorem Service.Paired.not_mem_owners (h : s.Paired) {i : ℕ} (hi : s.served = some i) :
    some i ∉ s.owners := by
  have hnodup := h.nodup
  rw [Service.holders, hi] at hnodup
  intro hmem
  exact (List.nodup_cons.mp hnodup).1 (List.reduceOption_mem_iff.mpr hmem)

/-- **An answer fits the one it is for**, and if it is for nobody here it is the status of the
server. -/
theorem Service.Paired.answers (h : s.Paired) {said : Trace HandlerSig} {reply : HandlerReply}
    {k : Bool → Prog HandlerSig (Except Error HandlerNext)}
    (hpc : s.sys.store.handler.pc = .busy .handling said (.call (.reply reply) k)) :
    ∃ request, Ends lib s.sys.store.handler.state request said reply ∧
      (∀ i, s.served = some i → ∀ t, s.tasks i = some t → ∃ o k,
        ∃ hp : t.program = .call o k, ∃ r, o.request = request ∧ reply.answer o = some r ∧
          t.replied reply = some (t.answered hp r)) ∧
      (s.served = none → ∃ status, reply = .serverStatus status) := by
  obtain ⟨request, hserves, hsilent, -⟩ := h.in_hand said _ hpc
  have hends := hserves.1.ends reply rfl
  have howns := hsilent hserves.1.silent
  refine ⟨request, hends, fun i hi t ht => ?_, fun hnone => ?_⟩
  · rw [hi] at howns
    obtain ⟨-, o, k', hp, rfl⟩ := howns t ht
    obtain ⟨r, hr⟩ := Option.isSome_iff_exists.mp hends.answer_isSome
    exact ⟨o, k', hp, r, rfl, hr, by rw [OrderTask.replied_of_call hp, hr, Option.map_some]⟩
  · rw [hnone] at howns
    exact hends.status_of_fromTask howns

/-- A handler that makes a step has not ended. -/
theorem HandlerStep.running {handler handler' : Handler} {e : HandlerEvent}
    (hs : HandlerStep lib handler e handler') : handler.hasEnded = false := by
  cases hs with
  | said _ hpc | settled hpc | received _ hpc | closed hpc | notified hpc =>
    rw [Handler.hasEnded, hpc]

/-- The handler takes a request. -/
theorem DaemonStep.receives {account_lifetime : Timestamp} {store store' : HandlerStore}
    {x : DaemonTurn} (hx : DaemonStep lib account_lifetime store x store')
    {request : StateAccessRequest} (he : x.event = .handler (.received request)) :
    store.handler.pc = .listening ∧ store'.handler = store.handler.receive lib request := by
  rcases hx.handlerStep with ⟨e, he', hstep⟩ | hrestart
  · obtain rfl := DaemonEvent.handler.inj (he.symm.trans he')
    generalize store'.handler = handler' at hstep
    cases hstep with
    | received _ hpc => exact ⟨hpc, rfl⟩
  · cases he.symm.trans hrestart

theorem Followed.sound {s₁ : Service lib} {sys : Sys lib} {e : SysEvent lib}
    (hf : Followed d s sys e s₁) {turns : List DaemonTurn}
    (hsound : DaemonSound lib turns s.sys.store) (h : s.Sound) :
    Service.Sound { s₁ with sys := sys } := by
  intro hend
  cases hf with
  | still he hqueue hstore =>
    have hp := h (hstore ▸ hend)
    refine ⟨?_, ?_, hp.nodup, hp.idle⟩
    · exact hqueue.symm ▸ hp.owned
    · exact hstore.symm ▸ hp.in_hand
  | enqueued he request hrequest hqueue hstore =>
    have hp := h (hstore ▸ hend)
    have hholders : s.served.toList ++ (s.owners ++ [none]).reduceOption = s.holders := by
      rw [List.reduceOption_append, ← List.append_assoc]
      exact List.append_nil _
    refine ⟨?_, ?_, ?_, ?_⟩
    · show List.Forall₂ s.Owns sys.state_queue (s.owners ++ [none])
      rw [hqueue]
      exact List.rel_append hp.owned (.cons hrequest .nil)
    · exact hstore.symm ▸ hp.in_hand
    · show (s.served.toList ++ (s.owners ++ [none]).reduceOption).Nodup
      rw [hholders]
      exact hp.nodup
    · exact fun i t ht hw hmem => hp.idle i t ht hw (hholders ▸ hmem)
  | received request hx he hqueue =>
    obtain ⟨hpc, hhandler⟩ := hx.receives he
    have hp := h (by rw [Handler.hasEnded, hpc])
    obtain ⟨owner, howners, hjoin, howns, hrest, hsuffix⟩ := hp.received hqueue
    have hholders : ∀ i, i ∈ owner.toList ++ s.owners.tail.reduceOption → i ∈ s.holders :=
      fun i hi => hsuffix.subset hi
    refine ⟨hrest, ?_, ?_, fun i t ht hw hmem => hp.idle i t ht hw (hholders i ?_)⟩
    · intro said program hpc'
      obtain ⟨-, rfl, rfl⟩ := HandlerPc.busy.inj (hhandler ▸ hpc')
      refine ⟨request, ?_, fun _ => ?_, fun h => (by cases h)⟩
      · show sys.store.handler.Serves lib request _ _
        rw [hhandler]
        exact handle_serves request
      · show s.Owns request s.owners.head?.join
        rw [hjoin]
        exact howns
    · show (s.owners.head?.join.toList ++ s.owners.tail.reduceOption).Nodup
      rw [hjoin]
      exact hp.nodup.sublist hsuffix.sublist
    · rw [← hjoin]
      exact hmem
  | replied reply taken hx he hqueue hdeliver =>
    obtain ⟨phase, said, k, hpc, hhandler, -⟩ := hx.said he
    obtain ⟨-, -, events, -, -, hevents⟩ := hsound
    obtain rfl : phase = .handling := hevents.phase_eq hpc
    have hp := h (by rw [Handler.hasEnded, hpc])
    have hcleared := hp.cleared hpc hqueue hhandler
    rcases Service.deliver_cases hdeliver with ⟨rfl, -⟩ | ⟨i, t, t', hserved, -, -, -, rfl⟩
    · exact hcleared
    · refine hcleared.setTask_other ?_ _
      rw [mem_holders, not_or]
      exact ⟨fun h => (by cases h), hp.not_mem_owners hserved⟩
  | handled ev hx he hreceived hreply hqueue =>
    rcases hx.handlerStep with ⟨ev', he', hstep⟩ | hrestart
    · obtain rfl := DaemonEvent.handler.inj (he.symm.trans he')
      have hp := h hstep.running
      exact ⟨hqueue.symm ▸ hp.owned, hstep.holding hreceived hreply hp.in_hand, hp.nodup, hp.idle⟩
    · cases he.symm.trans hrestart
  | restarted hsys =>
    rw [hsys]
    exact Service.paired_start _

/-- **A step of the service keeps tasks and requests in step.** -/
theorem ServiceStep.sound {e : ServiceEvent lib} (hs : ServiceStep display d s e s')
    {turns : List DaemonTurn} (hsound : DaemonSound lib turns s.sys.store)
    (hreports : ∀ index, (s.sys.trackers index).Reporting) (h : s.Sound) : s'.Sound := by
  cases hs with
  | arrived i order_id payload hfree hunused =>
    exact fun hend => (h hend).setTask_other hunused _
  | asked i ht hp hw hsys =>
    cases (SysStep.outside (d := d) _ hsys).outcome with
    | requested request => exact fun hend => (h hend).asked ht hp hw rfl rfl
  | unheard i ht hp hend =>
    intro hrunning
    cases hrunning.symm.trans hend
  | left i => exact fun hend => (h hend).setTask_none i
  | responded i => exact fun hend => (h hend).setTask_none i
  | daemon e hs hfollow => exact (hs.followed hreports hfollow).sound hsound h

end Steps

/-- **They are in step in every run.** -/
theorem ServiceRun.sound {h : List (ServiceEvent lib)} {s : Service lib}
    (run : ServiceRunIf display d allow (Sys.Begun d) h s) : s.Sound := by
  refine run.invariant (P := fun _ s => s.Sound) ?_ ?_
  · rintro s ⟨sys, ⟨orders, -, rfl⟩, rfl⟩
    exact fun _ => Service.paired_start orders
  · rintro h s e s' run ih - hs
    have hsys := ServiceRun.sysRun run
    exact hs.sound (SysRun.handler_sound hsys) (SysRun.reporting hsys) ih

end Kalatori
