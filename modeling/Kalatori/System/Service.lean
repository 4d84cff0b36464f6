import Kalatori.Handlers.Responses
import Kalatori.State.Answers
import Kalatori.System.Traffic

/-!
# The daemon and those who ask it

The server runs a task for every request to the route for orders.  The task goes
through `process_order`, and for each operation of the state it sends a request
to the state handler and waits for the answer.  The daemon of `Kalatori.System`
knows nothing of these tasks; here they are put beside it.

A request carries the sender of its answer.  In the model that is a list beside
the queue of the handler, which says of each message whose it is, and the owner
of the request that the handler has in hand.  A client may go away at any time,
and then its task is dropped, and the answer to it is in vain.  A request to
another route is the daemon's own: nobody follows what becomes of the answer.

* `OrderTask`: a task, at some point of `process_order`.
* `Service`, `ServiceStep`, `ServiceRun`: the daemon with its tasks.
* `ServiceRun.sysRun`: the daemon in it makes a run of its own.
-/

namespace Kalatori

open Program Transition

variable {lib : Libraries} {d : Deployment lib}

/-! ## The tasks -/

/-- The request that an operation sends. -/
def StateOp.request : StateOp → StateAccessRequest
  | .isCurrencySupported currency => .isCurrencySupported currency
  | .createOrder order_query => .createInvoice order_query
  | .orderStatus order => .getInvoiceStatus order

/-- What an answer of the handler is to an operation, if it belongs to its request. -/
def HandlerReply.answer : HandlerReply → (o : StateOp) → Option (StateSig.Answer o)
  | .isCurrencySupported supported, .isCurrencySupported _ => some (.ok supported)
  | .createInvoice result, .createOrder _ => some result
  | .invoiceStatus result, .orderStatus _ => some result
  | _, _ => none

/-- The task of a request to the route for orders. -/
structure OrderTask where
  order_id : String
  payload : Option OrderPayload
  said : Trace StateSig
  program : Prog StateSig (Except OrderError OrderResponse)
  /-- Its request is with the state handler. -/
  waits : Bool
  handles : Prog.After (processOrder order_id payload).run said program

namespace OrderTask

def start (order_id : String) (payload : Option OrderPayload) : OrderTask where
  order_id := order_id
  payload := payload
  said := []
  program := (processOrder order_id payload).run
  waits := false
  handles := .refl _

/-- The task has sent its request. -/
def asks (t : OrderTask) : OrderTask := { t with waits := true }

/-- The task goes on with an answer. -/
def answered (t : OrderTask) {o : StateOp}
    {k : StateSig.Answer o → Prog StateSig (Except OrderError OrderResponse)}
    (hp : t.program = .call o k) (r : StateSig.Answer o) : OrderTask where
  order_id := t.order_id
  payload := t.payload
  said := t.said ++ [⟨o, r⟩]
  program := k r
  waits := false
  handles := (hp ▸ t.handles).snoc r

/-- The task gets an answer of the handler. -/
def replied (t : OrderTask) (reply : HandlerReply) : Option OrderTask :=
  match hp : t.program with
  | .call o _ => (reply.answer o).map (t.answered hp)
  | .done _ => none

/-- It waits for the answer to a request. -/
def Awaits (t : OrderTask) (request : StateAccessRequest) : Prop :=
  t.waits = true ∧ ∃ o k, t.program = .call o k ∧ o.request = request

theorem replied_of_call {t : OrderTask} {o : StateOp}
    {k : StateSig.Answer o → Prog StateSig (Except OrderError OrderResponse)}
    (hp : t.program = .call o k) (reply : HandlerReply) :
    t.replied reply = (reply.answer o).map (t.answered hp) := by
  unfold replied
  split
  · next o' k' hp' =>
    obtain ⟨rfl, hk⟩ := Prog.call.inj (hp.symm.trans hp')
    obtain rfl := eq_of_heq hk
    rfl
  · next a hp' => cases hp.symm.trans hp'

/-- A task that is answered does not wait any more. -/
theorem replied_waits {t t' : OrderTask} {reply : HandlerReply}
    (h : t.replied reply = some t') : t'.waits = false := by
  unfold replied at h
  split at h
  · obtain ⟨r, -, rfl⟩ := Option.map_eq_some_iff.mp h
    rfl
  · cases h

end OrderTask

/-! ## The daemon with its tasks -/

structure Service (lib : Libraries) where
  sys : Sys lib
  tasks : ℕ → Option OrderTask
  /-- Whose the messages in the queue of the state handler are. -/
  owners : List (Option ℕ)
  /-- Whose request the handler has in hand, until it is answered. -/
  served : Option ℕ

inductive ServiceEvent (lib : Libraries)
  | arrived (i : ℕ) (order_id : String) (payload : Option OrderPayload)
  | asked (i : ℕ) (request : StateAccessRequest)
  | unheard (i : ℕ)
  | left (i : ℕ)
  | responded (i : ℕ) (response : Response)
  | daemon (e : SysEvent lib)

namespace Service

def start (sys : Sys lib) : Service lib := ⟨sys, fun _ => none, [], none⟩

def setTask (s : Service lib) (i : ℕ) (t : Option OrderTask) : Service lib :=
  { s with tasks := Function.update s.tasks i t }

/-- Those whose requests are not answered. -/
def holders (s : Service lib) : List ℕ := s.served.toList ++ s.owners.reduceOption

/-- An answer of the handler comes to the one whose request it has in hand. -/
def deliver (s : Service lib) (reply : HandlerReply) (taken : Bool) : Option (Service lib) :=
  match s.served with
  | none => some s
  | some i =>
    match s.tasks i with
    | some t =>
      if taken then
        (t.replied reply).map fun t => { s with served := none }.setTask i (some t)
      else none
    | none => if taken then none else some { s with served := none }

/-- What a step of the daemon means for the tasks.  A restart ends them. -/
def follow (s : Service lib) : SysEvent lib → Option (Service lib)
  | .outside (.requested .serverStatus) => some { s with owners := s.owners ++ [none] }
  | .outside (.requested _) => none
  | .tracker _ x =>
    match x.event with
    | .said ⟨.send _, true⟩ => some { s with owners := s.owners ++ [none] }
    | _ => some s
  | .daemon x =>
    match x.event with
    | .restarted => some { s with tasks := fun _ => none, owners := [], served := none }
    | .handler (.received _) =>
      some { s with owners := s.owners.tail, served := s.owners.head?.join }
    | .handler (.said ⟨.reply reply, taken⟩) => s.deliver reply taken
    | .handler _ => some s
  | _ => some s

end Service

/-- **A step of the service.**  `display` prints a number. -/
inductive ServiceStep (display : F64 → String) (d : Deployment lib) :
    Service lib → ServiceEvent lib → Service lib → Prop
  | arrived {s : Service lib} (i : ℕ) (order_id : String) (payload : Option OrderPayload)
      (hfree : s.tasks i = none) (hunused : i ∉ s.holders) :
      ServiceStep display d s (.arrived i order_id payload)
        (s.setTask i (some (.start order_id payload)))
  | asked {s : Service lib} {sys : Sys lib} {t : OrderTask} {o : StateOp}
      {k : StateSig.Answer o → Prog StateSig (Except OrderError OrderResponse)} (i : ℕ)
      (ht : s.tasks i = some t) (hp : t.program = .call o k) (hw : t.waits = false)
      (h : s.sys.outside (.requested o.request) = some sys) :
      ServiceStep display d s (.asked i o.request)
        ({ s with sys := sys, owners := s.owners ++ [some i] }.setTask i (some t.asks))
  -- The handler is gone, and `map_err(|_| Error::Fatal)?` makes an error of that.
  | unheard {s : Service lib} {t : OrderTask} {o : StateOp}
      {k : StateSig.Answer o → Prog StateSig (Except OrderError OrderResponse)} (i : ℕ)
      (ht : s.tasks i = some t) (hp : t.program = .call o k)
      (hend : s.sys.store.handler.hasEnded = true) :
      ServiceStep display d s (.unheard i) (s.setTask i (some (t.answered hp (o.failed .fatal))))
  | left {s : Service lib} {t : OrderTask} (i : ℕ) (ht : s.tasks i = some t) :
      ServiceStep display d s (.left i) (s.setTask i none)
  | responded {s : Service lib} {t : OrderTask} {result : Except OrderError OrderResponse} (i : ℕ)
      (ht : s.tasks i = some t) (hp : t.program = .done result) :
      ServiceStep display d s (.responded i (Server.order display result)) (s.setTask i none)
  | daemon {s s₁ : Service lib} {sys : Sys lib} (e : SysEvent lib) (hs : SysStep d s.sys e sys)
      (h : s.follow e = some s₁) :
      ServiceStep display d s (.daemon e) { s₁ with sys := sys }

/-- The runs of the service. -/
abbrev ServiceRunIf (display : F64 → String) (d : Deployment lib)
    (allow : List (ServiceEvent lib) → Service lib → ServiceEvent lib → Prop)
    (init : Sys lib → Prop) : List (ServiceEvent lib) → Service lib → Prop :=
  Reach (ServiceStep display d) allow fun s => ∃ sys, init sys ∧ s = .start sys

/-! ## The daemon in it -/

def ServiceEvent.sys? : ServiceEvent lib → Option (SysEvent lib)
  | .asked _ request => some (.outside (.requested request))
  | .daemon e => some e
  | .arrived .. | .unheard _ | .left _ | .responded .. => none

/-- The steps of the daemon. -/
def serviceSys (h : List (ServiceEvent lib)) : List (SysEvent lib) := h.filterMap ServiceEvent.sys?

variable {display : F64 → String}
  {allow : List (ServiceEvent lib) → Service lib → ServiceEvent lib → Prop}
  {init : Sys lib → Prop}

@[simp] theorem Service.setTask_sys (s : Service lib) (i : ℕ) (t : Option OrderTask) :
    (s.setTask i t).sys = s.sys := rfl

@[simp] theorem Service.setTask_holders (s : Service lib) (i : ℕ) (t : Option OrderTask) :
    (s.setTask i t).holders = s.holders := rfl

/-- **What an answer does**: it is in vain or for nobody, or the task goes on that it is for. -/
theorem Service.deliver_cases {s s₁ : Service lib} {reply : HandlerReply} {taken : Bool}
    (h : s.deliver reply taken = some s₁) :
    (s₁ = { s with served := none } ∧ ∀ i, s.served = some i → s.tasks i = none ∧ taken = false) ∨
      ∃ i t t', s.served = some i ∧ s.tasks i = some t ∧ t.replied reply = some t' ∧
        taken = true ∧ s₁ = { s with served := none }.setTask i (some t') := by
  unfold deliver at h
  cases hserved : s.served with
  | none =>
    rw [hserved] at h
    obtain rfl := Option.some.inj h
    refine .inl ⟨?_, fun i hi => (by cases hi)⟩
    rw [← hserved]
  | some i =>
    rw [hserved] at h
    simp only at h
    split at h
    · next t ht =>
      split_ifs at h with htaken
      obtain ⟨t', hreplied, rfl⟩ := Option.map_eq_some_iff.mp h
      exact .inr ⟨i, t, t', rfl, ht, hreplied, htaken, rfl⟩
    · next hnone =>
      split_ifs at h with htaken
      obtain rfl := Option.some.inj h
      refine .inl ⟨rfl, fun j hj => ?_⟩
      obtain rfl := Option.some.inj hj
      exact ⟨hnone, Bool.eq_false_of_not_eq_true htaken⟩

/-- The daemon steps as it does on its own, or not at all. -/
theorem ServiceStep.sysStep {s s' : Service lib} {e : ServiceEvent lib}
    (hs : ServiceStep display d s e s') :
    (∃ e', e.sys? = some e' ∧ SysStep d s.sys e' s'.sys) ∨ (e.sys? = none ∧ s'.sys = s.sys) := by
  cases hs with
  | arrived | unheard | left | responded => exact .inr ⟨rfl, rfl⟩
  | asked i ht hp hw h => exact .inl ⟨_, rfl, .outside _ h⟩
  | daemon e hs h => exact .inl ⟨_, rfl, hs⟩

theorem serviceSys_append (h : List (ServiceEvent lib)) (e : ServiceEvent lib) :
    serviceSys (h ++ [e]) = serviceSys h ++ e.sys?.toList := by
  rw [serviceSys, List.filterMap_append, ← serviceSys]
  cases he : e.sys? with
  | none => rw [List.filterMap_cons_none he, List.filterMap_nil, Option.toList_none]
  | some e' => rw [List.filterMap_cons_some he, List.filterMap_nil, Option.toList_some]

theorem ServiceRun.sysRun {h : List (ServiceEvent lib)} {s : Service lib}
    (run : ServiceRunIf display d allow (Sys.Begun d) h s) : SysRun d (serviceSys h) s.sys := by
  refine run.invariant (P := fun h s => SysRun d (serviceSys h) s.sys) ?_ ?_
  · rintro s ⟨sys, hsys, rfl⟩
    exact .start hsys
  · rintro h s e s' - ih - hs
    rw [serviceSys_append]
    rcases hs.sysStep with ⟨e', he, hstep⟩ | ⟨he, hsys⟩
    · rw [he]
      exact .next ih trivial hstep
    · rw [he, Option.toList_none, List.append_nil, hsys]
      exact ih

/-! ## Replaying a run -/

inductive ServiceAction (lib : Libraries)
  | arrive (i : ℕ) (order_id : String) (payload : Option OrderPayload)
  | ask (i : ℕ)
  | giveUp (i : ℕ)
  | leave (i : ℕ)
  | respond (i : ℕ)
  | daemon (a : SysAction lib)

/-- The service as a function of what happens next. -/
def Service.exec (display : F64 → String) (d : Deployment lib) (s : Service lib) :
    ServiceAction lib → Option (ServiceEvent lib × Service lib)
  | .arrive i order_id payload =>
    if (s.tasks i).isNone ∧ i ∉ s.holders then
      some (.arrived i order_id payload, s.setTask i (some (.start order_id payload)))
    else none
  | .ask i =>
    (s.tasks i).bind fun t =>
      match t.program with
      | .call o _ =>
        if t.waits then none
        else (s.sys.outside (.requested o.request)).map fun sys =>
          (.asked i o.request,
            { s with sys := sys, owners := s.owners ++ [some i] }.setTask i (some t.asks))
      | .done _ => none
  | .giveUp i =>
    (s.tasks i).bind fun t =>
      match hp : t.program with
      | .call o _ =>
        if s.sys.store.handler.hasEnded then
          some (.unheard i, s.setTask i (some (t.answered hp (o.failed .fatal))))
        else none
      | .done _ => none
  | .leave i => (s.tasks i).map fun _ => (.left i, s.setTask i none)
  | .respond i =>
    (s.tasks i).bind fun t =>
      match t.program with
      | .call .. => none
      | .done result => some (.responded i (Server.order display result), s.setTask i none)
  | .daemon a =>
    (s.sys.exec d a).bind fun (e, sys) =>
      (s.follow e).map fun s₁ => (.daemon e, { s₁ with sys := sys })

theorem Service.exec_sound (display : F64 → String) (d : Deployment lib) (s : Service lib)
    (a : ServiceAction lib) (e : ServiceEvent lib) (s' : Service lib)
    (h : s.exec display d a = some (e, s')) : ServiceStep display d s e s' := by
  cases a with
  | arrive i order_id payload =>
    simp only [exec] at h
    split_ifs at h with hfree
    obtain ⟨rfl, rfl⟩ := Prod.mk.inj (Option.some.inj h)
    exact .arrived i order_id payload (Option.isNone_iff_eq_none.mp hfree.1) hfree.2
  | ask i =>
    obtain ⟨t, ht, h⟩ := Option.bind_eq_some_iff.mp h
    split at h
    · next o k hp =>
      split_ifs at h with hw
      obtain ⟨sys, hsys, h⟩ := Option.map_eq_some_iff.mp h
      obtain ⟨rfl, rfl⟩ := Prod.mk.inj h
      exact .asked i ht hp (Bool.eq_false_of_not_eq_true hw) hsys
    · cases h
  | giveUp i =>
    obtain ⟨t, ht, h⟩ := Option.bind_eq_some_iff.mp h
    split at h
    · next o k hp =>
      split_ifs at h with hend
      obtain ⟨rfl, rfl⟩ := Prod.mk.inj (Option.some.inj h)
      exact .unheard i ht hp hend
    · cases h
  | leave i =>
    obtain ⟨t, ht, h⟩ := Option.map_eq_some_iff.mp h
    obtain ⟨rfl, rfl⟩ := Prod.mk.inj h
    exact .left i ht
  | respond i =>
    obtain ⟨t, ht, h⟩ := Option.bind_eq_some_iff.mp h
    split at h
    · cases h
    · next result hp =>
      obtain ⟨rfl, rfl⟩ := Prod.mk.inj (Option.some.inj h)
      exact .responded i ht hp
  | daemon a =>
    obtain ⟨⟨e', sys⟩, hexec, h⟩ := Option.bind_eq_some_iff.mp h
    obtain ⟨s₁, hfollow, h⟩ := Option.map_eq_some_iff.mp h
    obtain ⟨rfl, rfl⟩ := Prod.mk.inj h
    exact .daemon e' (Sys.exec_sound d s.sys a e' sys hexec) hfollow

/-- The handler answers a request for an order. -/
def ServiceEvent.isOrderAnswer : ServiceEvent lib → Bool
  | .daemon (.daemon x) =>
    match x.event with
    | .handler (.said ⟨.reply (.createInvoice _), _⟩) => true
    | _ => false
  | _ => false

theorem ServiceEvent.exists_of_isOrderAnswer {e : ServiceEvent lib} (h : e.isOrderAnswer = true) :
    ∃ x, e = .daemon (.daemon x) := by
  unfold isOrderAnswer at h
  split at h
  · exact ⟨_, rfl⟩
  · cases h

namespace Sample

/-- The daemon does these things. -/
def daemon (actions : List (SysAction libraries)) : List (ServiceAction libraries) :=
  actions.map .daemon

/-- The body of a request for an order of one `DOT`. -/
def oneDot : OrderPayload where
  amount := some one
  currency := some "DOT"
  callback := none
  amount_finite := fun _ hx => Option.some.inj hx ▸ by decide

/-- A client asks for an order, and its request waits for the handler. -/
def asked (i : ℕ) (order_id : String) (payload : Option OrderPayload) :
    List (ServiceAction libraries) :=
  [.arrive i order_id payload, .ask i, .daemon .receive]

/-- A client places an order, and has its answer. -/
def dotPlaced : List (ServiceAction libraries) :=
  daemon connected ++ asked 0 "order" (some oneDot) ++
    daemon (answers 1 ++ [settled]) ++ [.ask 0, .daemon .receive] ++
    daemon (answers 1 ++ [served 0] ++ registered)

end Sample

end Kalatori
