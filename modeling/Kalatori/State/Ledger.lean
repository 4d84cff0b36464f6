import Kalatori.State.Run

/-!
# The state handler and its database

The handler is the only task that sends requests about orders to the database,
and it waits for each answer.  `DaemonStep` puts the two together: whenever the
program of the handler asks the database, the server serves the request.  The
rest of the daemon is left open, so the requests that the handler takes may come
in any number and any order, and a payment may be reported again and again.  A
restart keeps the tree and nothing else.

`reapsOnce` is about the payouts: an order is handed to the chain manager for
its payout at most once, directly after the request that turned its record from
pending to paid, and with the record that this request stored.
-/

namespace Kalatori

open Program Transition

variable {lib : Libraries} {account_lifetime : Timestamp}

/-- What an event of the handler does to the tree.  A database that is down answers without
looking at it. -/
inductive StoreStep (account_lifetime : Timestamp) : Orders → HandlerEvent → Orders → Prop
  | served (orders : Orders) (around : Surroundings) (r : DbRequest) :
      StoreStep account_lifetime orders
        (.said ⟨.db r, ((serve account_lifetime around r).runOn orders).1⟩)
        ((serve account_lifetime around r).runOn orders).2
  | down (orders : Orders) (r : DbRequest) :
      StoreStep account_lifetime orders (.said ⟨.db r, .error .dbEngineDown⟩) orders
  | other (orders : Orders) (e : HandlerEvent) (h : ∀ r answer, e ≠ .said ⟨.db r, answer⟩) :
      StoreStep account_lifetime orders e orders

/-- A request to the database has one of its effects. -/
theorem StoreStep.effect {orders orders' : Orders} {r : DbRequest} {answer : Except DbError r.Reply}
    (h : StoreStep account_lifetime orders (.said ⟨.db r, answer⟩) orders') :
    ∃ now, Effect account_lifetime now orders r answer orders' := by
  generalize he : HandlerEvent.said ⟨.db r, answer⟩ = e at h
  cases h with
  | served around r' =>
    injection he with he
    obtain ⟨hr, hanswer⟩ := Sigma.mk.inj he
    cases hr
    cases hanswer
    exact ⟨around.now, serve_effect r⟩
  | down r' =>
    injection he with he
    obtain ⟨hr, hanswer⟩ := Sigma.mk.inj he
    cases hr
    cases hanswer
    exact ⟨0, .failed r _⟩
  | other _ h => exact absurd he.symm (h r answer)

/-- Everything else leaves the tree as it is. -/
theorem StoreStep.other_eq {orders orders' : Orders} {e : HandlerEvent}
    (h : StoreStep account_lifetime orders e orders')
    (he : ∀ r answer, e ≠ .said ⟨.db r, answer⟩) : orders' = orders := by
  cases h with
  | served around r => exact absurd rfl (he _ _)
  | down | other => rfl

/-! ## Runs across restarts -/

inductive DaemonEvent
  | handler (e : HandlerEvent)
  | restarted

/-- An event with the tree before and after it. -/
structure DaemonTurn where
  before : Orders
  event : DaemonEvent
  after : Orders

/-- The handler and the tree. -/
structure HandlerStore where
  orders : Orders
  handler : Handler

inductive DaemonStep (lib : Libraries) (account_lifetime : Timestamp) :
    HandlerStore → DaemonTurn → HandlerStore → Prop
  | handler {orders orders' : Orders} {s s' : Handler} {e : HandlerEvent}
      (hs : HandlerStep lib s e s') (ho : StoreStep account_lifetime orders e orders') :
      DaemonStep lib account_lifetime ⟨orders, s⟩ ⟨orders, .handler e, orders'⟩ ⟨orders', s'⟩
  | restarted (orders : Orders) (s : Handler) (recipient : AccountId32) (server_info : ServerInfo) :
      DaemonStep lib account_lifetime ⟨orders, s⟩ ⟨orders, .restarted, orders⟩
        ⟨orders, Handler.start recipient server_info⟩

/-- A run on a database with any content. -/
abbrev DaemonRun (lib : Libraries) (account_lifetime : Timestamp) :
    List DaemonTurn → HandlerStore → Prop :=
  Reach (DaemonStep lib account_lifetime) always
    fun s => ∃ recipient server_info, s.handler = Handler.start recipient server_info

/-- The events of the handler in a part of a run. -/
def handlerTurns (turns : List DaemonTurn) (h : List HandlerEvent) : Prop :=
  turns.map (·.event) = h.map .handler

/-- **One payout.**  An order is reaped in a turn of its own, which follows the turn in which its
record became paid, and no other turn reaps it. -/
structure ReapsOnce (h : List DaemonTurn) : Prop where
  paid : ∀ h₁ x h₂ id order, h = h₁ ++ x :: h₂ → x.event = .handler (.said ⟨.reap id order, ()⟩) →
    ∃ h₀ y, h₁ = h₀ ++ [y] ∧ y.event = .handler (.said ⟨.db (.markPaid id), .ok order⟩) ∧
      (∃ old, record y.before id = some old ∧ old.payment_status = .pending ∧ order = old.paid) ∧
      record y.after id = some order
  once : ∀ h₁ x h₂ x' h₃ id order order', h = h₁ ++ x :: (h₂ ++ x' :: h₃) →
    x.event = .handler (.said ⟨.reap id order, ()⟩) →
    x'.event ≠ .handler (.said ⟨.reap id order', ()⟩)

/-! ## The proof -/

/-- The part of the run since the last start belongs to the handler. -/
def DaemonSound (lib : Libraries) (h : List DaemonTurn) (s : HandlerStore) : Prop :=
  ∃ h₀ turns events, h = h₀ ++ turns ∧ handlerTurns turns events ∧ s.handler.Sound lib events

theorem DaemonRun.sound {h : List DaemonTurn} {s : HandlerStore}
    (run : DaemonRun lib account_lifetime h s) : DaemonSound lib h s := by
  refine run.invariant (P := DaemonSound lib) ?_ ?_
  · rintro s ⟨recipient, server_info, hs⟩
    exact ⟨[], [], [], rfl, rfl, hs ▸ Handler.sound_start⟩
  · rintro h s x s' - ⟨h₀, turns, events, rfl, hturns, hsound⟩ - hs
    cases hs with
    | @handler orders orders' _ _ e hs ho =>
      refine ⟨h₀, turns ++ [⟨orders, .handler e, orders'⟩], events ++ [e],
        List.append_assoc .., ?_, hs.sound hsound⟩
      rw [handlerTurns, List.map_append, List.map_append, hturns]
      rfl
    | restarted orders s recipient server_info =>
      exact ⟨h₀ ++ turns ++ [⟨orders, .restarted, orders⟩], [], [], (List.append_nil _).symm, rfl,
        Handler.sound_start⟩

theorem DaemonStep.before_eq {s s' : HandlerStore} {x : DaemonTurn}
    (hs : DaemonStep lib account_lifetime s x s') : x.before = s.orders := by
  cases hs with
  | handler | restarted => rfl

theorem DaemonStep.after_eq {s s' : HandlerStore} {x : DaemonTurn}
    (hs : DaemonStep lib account_lifetime s x s') : x.after = s'.orders := by
  cases hs with
  | handler | restarted => rfl

/-- A step in which the handler performs an operation. -/
theorem DaemonStep.said {s s' : HandlerStore} {x : DaemonTurn} {o : HandlerOp}
    {answer : HandlerSig.Answer o} (hs : DaemonStep lib account_lifetime s x s')
    (hx : x.event = .handler (.said ⟨o, answer⟩)) :
    ∃ phase said k, s.handler.pc = .busy phase said (.call o k) ∧
      s'.handler = { s.handler with pc := .busy phase (said ++ [⟨o, answer⟩]) (k answer) } ∧
      StoreStep account_lifetime s.orders (.said ⟨o, answer⟩) s'.orders := by
  cases hs with
  | restarted => cases hx
  | handler hs ho =>
    obtain rfl := DaemonEvent.handler.inj hx
    cases hs with
    | @said phase said _ k _ hpc => exact ⟨phase, said, k, hpc, rfl, ho⟩

/-- A handler that performs an operation does nothing else. -/
theorem DaemonStep.answered {s s' : HandlerStore} {x : DaemonTurn} {phase : HandlerPhase}
    {said : Trace HandlerSig} {o : HandlerOp}
    {k : HandlerSig.Answer o → Prog HandlerSig (Except Error HandlerNext)}
    (hs : DaemonStep lib account_lifetime s x s')
    (hpc : s.handler.pc = .busy phase said (.call o k))
    {e : HandlerEvent} (he : x.event = .handler e) : ∃ answer, e = .said ⟨o, answer⟩ := by
  cases hs with
  | restarted => cases he
  | handler hs =>
    obtain rfl := DaemonEvent.handler.inj he
    cases hs with
    | @said _ _ _ _ answer hpc' =>
      obtain ⟨-, -, hcall⟩ := HandlerPc.busy.inj (hpc.symm.trans hpc')
      injection hcall with ho
      subst ho
      exact ⟨answer, rfl⟩
    | settled hpc' | received _ hpc' | closed hpc' | notified hpc' => cases hpc.symm.trans hpc'

/-- A program that goes on was at an operation before. -/
theorem DaemonStep.went_on {s s' : HandlerStore} {x : DaemonTurn} {said' : Trace HandlerSig}
    {program : Prog HandlerSig (Except Error HandlerNext)} {e : HandlerEvent}
    (hs : DaemonStep lib account_lifetime s x s') (he : x.event = .handler e)
    (hpc : s'.handler.pc = .busy .starting said' program) :
    ∃ said o k answer, s.handler.pc = .busy .starting said (.call o k) ∧
      e = .said ⟨o, answer⟩ ∧ said' = said ++ [⟨o, answer⟩] := by
  cases hs with
  | restarted => cases he
  | handler hs =>
    obtain rfl := DaemonEvent.handler.inj he
    cases hs with
    | said answer hpc' =>
      obtain ⟨rfl, rfl, -⟩ := HandlerPc.busy.inj hpc
      exact ⟨_, _, _, answer, hpc', rfl, rfl⟩
    | @settled _ _ result => rcases result with _ | _ | _ <;> cases hpc
    | received | notified =>
      obtain ⟨hphase, -, -⟩ := HandlerPc.busy.inj hpc
      cases hphase
    | closed => cases hpc

/-- What is said to the handler in a step. -/
theorem DaemonStep.said_snoc {s s' : HandlerStore} {x : DaemonTurn}
    (hs : DaemonStep lib account_lifetime s x s') {phase : HandlerPhase}
    {said : Trace HandlerSig} {program : Prog HandlerSig (Except Error HandlerNext)}
    (hpc : s'.handler.pc = .busy phase said program) (hne : said ≠ []) :
    ∃ said₀ exchange program₀, said = said₀ ++ [exchange] ∧
      x.event = .handler (.said exchange) ∧ s.handler.pc = .busy phase said₀ program₀ := by
  cases hs with
  | restarted =>
    obtain ⟨-, rfl, -⟩ := HandlerPc.busy.inj hpc
    exact absurd rfl hne
  | handler hs =>
    cases hs with
    | said answer hpc' =>
      obtain ⟨rfl, rfl, -⟩ := HandlerPc.busy.inj hpc
      exact ⟨_, _, _, rfl, rfl, hpc'⟩
    | @settled _ _ result => rcases result with _ | _ | _ <;> cases hpc
    | received | notified =>
      obtain ⟨-, rfl, -⟩ := HandlerPc.busy.inj hpc
      exact absurd rfl hne
    | closed => cases hpc

/-- What a step does to the tree: nothing, or what a request of the handler does, which is not
one for a withdrawal. -/
theorem DaemonStep.effect {s s' : HandlerStore} {x : DaemonTurn} {h : List DaemonTurn}
    (hs : DaemonStep lib account_lifetime s x s') (hsound : DaemonSound lib h s) :
    s'.orders = s.orders ∨ ∃ r answer now, x.event = .handler (.said ⟨.db r, answer⟩) ∧
      r.attempt? = none ∧ Effect account_lifetime now s.orders r answer s'.orders := by
  by_cases hx : ∃ r answer, x.event = .handler (.said ⟨.db r, answer⟩)
  · obtain ⟨r, answer, hx⟩ := hx
    obtain ⟨phase, said, k, hpc, -, ho⟩ := hs.said hx
    obtain ⟨_, _, events, -, -, hsound⟩ := hsound
    obtain ⟨now, heffect⟩ := ho.effect
    exact .inr ⟨r, answer, now, hx, (hsound.at_db hpc).2, heffect⟩
  · cases hs with
    | restarted => exact .inl rfl
    | handler hs ho =>
      refine .inl (ho.other_eq fun r answer he => hx ⟨r, answer, ?_⟩)
      rw [he]

/-! ## What the handler was told is still true -/

/-- What the database told the handler in a conversation holds of the tree. -/
structure Fresh (orders : Orders) (said : Trace HandlerSig) : Prop where
  created : ∀ order query currency payment_account info,
    ⟨.db (.createOrder order query currency payment_account), .ok (.new info)⟩ ∈ said →
      record orders order = some info
  listed : ∀ order_list, ⟨.db .activeOrderList, .ok order_list⟩ ∈ said →
    ∀ order info, (order, info) ∈ order_list →
      record orders order = some info ∧ info.payment_status = .pending

/-- It holds of what was said in the program that the handler is in. -/
def HandlerStore.Fresh (s : HandlerStore) : Prop :=
  ∀ phase said program, s.handler.pc = .busy phase said program → Kalatori.Fresh s.orders said

theorem fresh_of_not_db {orders : Orders} {said : Trace HandlerSig}
    (h : ∀ exchange ∈ said, ∀ r, exchange.1 ≠ .db r) : Fresh orders said where
  created := fun _ _ _ _ _ hmem => absurd rfl (h _ hmem _)
  listed := fun _ hmem => absurd rfl (h _ hmem _)

theorem Fresh.append {orders : Orders} {said said' : Trace HandlerSig} (h : Fresh orders said)
    (h' : Fresh orders said') : Fresh orders (said ++ said') where
  created := fun order query currency payment_account info hmem =>
    (List.mem_append.mp hmem).elim (h.created order query currency payment_account info)
      (h'.created order query currency payment_account info)
  listed := fun order_list hmem =>
    (List.mem_append.mp hmem).elim (h.listed order_list) (h'.listed order_list)

theorem StoreStep.wellStored {orders orders' : Orders} {e : HandlerEvent}
    (h : StoreStep account_lifetime orders e orders') (hw : WellStored orders) :
    WellStored orders' := by
  cases h with
  | served around r => exact (serve_effect r).wellStored hw
  | down | other => exact hw

/-- What a request to the database told is true when it has been served. -/
theorem StoreStep.fresh {orders orders' : Orders} {r : DbRequest} {answer : Except DbError r.Reply}
    (h : StoreStep account_lifetime orders (.said ⟨.db r, answer⟩) orders')
    (hw : WellStored orders) : Fresh orders' [⟨.db r, answer⟩] := by
  refine ⟨fun order query currency payment_account info hmem => ?_,
    fun list hmem order info hl => ?_⟩
  · obtain ⟨hr, hanswer⟩ := Sigma.mk.inj (List.mem_singleton.mp hmem)
    cases hr
    cases hanswer
    obtain ⟨now, heffect⟩ := h.effect
    cases heffect with
    | created => exact record_insert_self ..
  · obtain ⟨hr, hanswer⟩ := Sigma.mk.inj (List.mem_singleton.mp hmem)
    cases hr
    cases hanswer
    generalize he : HandlerEvent.said ⟨.db .activeOrderList, .ok list⟩ = e at h
    cases h with
    | served around r =>
      injection he with he
      obtain ⟨hr, hanswer⟩ := Sigma.mk.inj he
      cases hr
      exact record_of_mem_activeOrderList hw (eq_of_heq hanswer).symm hl
    | down r =>
      injection he with he
      obtain ⟨hr, hanswer⟩ := Sigma.mk.inj he
      cases hr
      cases hanswer
    | other _ hne => exact absurd he.symm (hne _ _)

theorem DaemonStep.wellStored {s s' : HandlerStore} {x : DaemonTurn}
    (hs : DaemonStep lib account_lifetime s x s') (hw : WellStored s.orders) :
    WellStored s'.orders := by
  cases hs with
  | handler _ ho => exact ho.wellStored hw
  | restarted => exact hw

theorem DaemonStep.fresh {s s' : HandlerStore} {x : DaemonTurn} {h : List DaemonTurn}
    (hs : DaemonStep lib account_lifetime s x s') (hsound : DaemonSound lib h s)
    (hw : WellStored s.orders) (hf : s.Fresh) : s'.Fresh := by
  have hnil : ∀ orders : Orders, Kalatori.Fresh orders [] := fun _ =>
    fresh_of_not_db fun _ hmem => absurd hmem List.not_mem_nil
  cases hs with
  | restarted =>
    rintro phase said program ⟨⟩
    exact hnil _
  | @handler orders orders' handler _ _ hs ho =>
    cases hs with
    | @said phase said o k answer hpc =>
      rintro phase' said' program ⟨⟩
      by_cases hdb : ∃ r, o = .db r
      · obtain ⟨r, rfl⟩ := hdb
        obtain ⟨_, _, events, -, -, hsound⟩ := hsound
        exact (fresh_of_not_db (hsound.at_db hpc).1).append (ho.fresh hw)
      · have hother : orders' = orders := ho.other_eq fun r answer heq => by
          injection heq with heq
          exact hdb ⟨r, congrArg Sigma.fst heq⟩
        rw [hother]
        refine (hf phase said _ hpc).append (fresh_of_not_db fun exchange hmem r heq => ?_)
        rw [List.mem_singleton.mp hmem] at heq
        exact hdb ⟨r, heq⟩
    | @settled _ _ result hpc =>
      intro phase said program hpc'
      rcases result with _ | _ | _ <;> cases hpc'
    | received request | notified =>
      rintro phase said program ⟨⟩
      exact hnil _
    | closed => exact fun _ _ _ hpc => nomatch hpc

/-! ## Payouts -/

/-- A call of `reap` comes directly after the request that marked the order. -/
theorem markPaid_before_reap {h : List HandlerEvent} {s : Handler} {phase : HandlerPhase}
    {said : Trace HandlerSig} {id : String} {order : OrderInfo}
    {k : Unit → Prog HandlerSig (Except Error HandlerNext)} (hsound : s.Sound lib h)
    (hpc : s.pc = .busy phase said (.call (.reap id order) k)) :
    ∃ h', h = h' ++ [.said ⟨.db (.markPaid id), .ok order⟩] := by
  obtain ⟨-, h₀, request, hh, ho⟩ := hsound.handles hpc rfl
  cases ho with
  | callReap => exact ⟨h₀ ++ [.received (.orderPaid id)], by simp [hh]⟩

/-- A paid record stays as it is: the handler never asks for a withdrawal. -/
theorem DaemonStep.paid_kept {s s' : HandlerStore} {x : DaemonTurn} {h : List DaemonTurn}
    (hs : DaemonStep lib account_lifetime s x s') (hsound : DaemonSound lib h s) {id : String}
    {info : OrderInfo} (hrec : record s.orders id = some info) (hp : info.payment_status = .paid) :
    record s'.orders id = some info := by
  rcases hs.effect hsound with heq | ⟨r, answer, now, -, ha, heffect⟩
  · exact heq ▸ hrec
  · exact heffect.paid_kept ha hrec hp

/-- The turn that marks an order. -/
theorem DaemonStep.marked {s s' : HandlerStore} {x : DaemonTurn} {id : String} {order : OrderInfo}
    (hs : DaemonStep lib account_lifetime s x s')
    (hx : x.event = .handler (.said ⟨.db (.markPaid id), .ok order⟩)) :
    (∃ old, record x.before id = some old ∧ old.payment_status = .pending ∧ order = old.paid) ∧
      record x.after id = some order ∧ x.before = s.orders ∧ x.after = s'.orders := by
  obtain ⟨_, _, _, -, -, ho⟩ := hs.said hx
  rw [hs.before_eq, hs.after_eq]
  obtain ⟨now, heffect⟩ := ho.effect
  generalize s'.orders = orders' at heffect
  cases heffect with
  | paid _ old _ hrec hp hi =>
    exact ⟨⟨old, hrec, hp, hi⟩, record_insert_self .., rfl, rfl⟩

/-- The turn before a call of `reap` marked the order. -/
theorem reaped_after_marked {h : List DaemonTurn} {s s' : HandlerStore} {x : DaemonTurn}
    {id : String} {order : OrderInfo} (run : DaemonRun lib account_lifetime h s)
    (hs : DaemonStep lib account_lifetime s x s')
    (hx : x.event = .handler (.said ⟨.reap id order, ()⟩)) :
    ∃ h₀ y, h = h₀ ++ [y] ∧ y.event = .handler (.said ⟨.db (.markPaid id), .ok order⟩) := by
  obtain ⟨h₀, turns, events, rfl, hturns, hsound⟩ := DaemonRun.sound run
  obtain ⟨_, _, _, hpc, -⟩ := hs.said hx
  obtain ⟨events', rfl⟩ := markPaid_before_reap hsound hpc
  rw [handlerTurns, List.map_append] at hturns
  obtain ⟨turns', last, rfl, -, hlast⟩ := List.map_eq_append_iff.mp hturns
  obtain ⟨y, rfl, hy⟩ := List.map_eq_singleton_iff.mp hlast
  exact ⟨h₀ ++ turns', y, (List.append_assoc ..).symm, hy⟩

theorem reaped_paid {h : List DaemonTurn} {s : HandlerStore} {x : DaemonTurn} {id : String}
    {order : OrderInfo} (h₁ h₂ : List DaemonTurn) (run : DaemonRun lib account_lifetime h s)
    (hh : h = h₁ ++ x :: h₂)
    (hx : x.event = .handler (.said ⟨.reap id order, ()⟩)) :
    ∃ h₀ y, h₁ = h₀ ++ [y] ∧ y.event = .handler (.said ⟨.db (.markPaid id), .ok order⟩) ∧
      (∃ old, record y.before id = some old ∧ old.payment_status = .pending ∧ order = old.paid) ∧
      record y.after id = some order := by
  subst hh
  obtain ⟨s₁, s₂, run₁, -, hs⟩ := run.split
  obtain ⟨h₀, y, rfl, hy⟩ := reaped_after_marked run₁ hs hx
  obtain ⟨_, _, -, hsy⟩ := run₁.last
  obtain ⟨hbefore, hafter, -⟩ := hsy.marked hy
  exact ⟨h₀, y, rfl, hy, hbefore, hafter⟩

/-- **At most one payout for an order**, in runs of any length and across restarts. -/
theorem reapsOnce {h : List DaemonTurn} {s : HandlerStore}
    (run : DaemonRun lib account_lifetime h s) : ReapsOnce h where
  paid := fun _ _ _ _ _ hh hx => reaped_paid _ _ run hh hx
  once := by
    intro h₁ x h₂ x' h₃ id order order' hh hx hx'
    obtain ⟨h₀, y, rfl, hy, -⟩ := reaped_paid h₁ _ run hh hx
    obtain ⟨h₀', y', hh', hy', ⟨old, hold, hpending, -⟩, -⟩ :=
      reaped_paid (h₀ ++ [y] ++ x :: h₂) h₃ run (by rw [hh]; simp) hx'
    -- Between the two turns that marked the order, its record is paid.
    obtain ⟨h₂', hmid⟩ : ∃ h₂', h₀' = h₀ ++ y :: h₂' := by
      have hne : x :: h₂ ≠ [] := List.cons_ne_nil x h₂
      refine ⟨(x :: h₂).dropLast, ?_⟩
      have hdrop := congrArg List.dropLast hh'
      rw [List.dropLast_append_of_ne_nil hne, List.dropLast_concat] at hdrop
      rw [← hdrop, List.append_assoc, List.singleton_append]
    have hsplit : h = h₀' ++ y' :: x' :: h₃ := by
      rw [List.append_cons, ← hh', hh]
      simp
    rw [hsplit] at run
    obtain ⟨s₁, s₂, run₁, -, hs⟩ := run.split
    obtain ⟨-, -, hbefore, -⟩ := hs.marked hy'
    rw [hmid] at run₁
    have hpaid : ∃ info, record s₁.orders id = some info ∧ info.payment_status = .paid := by
      refine run₁.kept (Q := fun s => ∃ info, record s.orders id = some info ∧
        info.payment_status = .paid) ?_ ?_
      · rintro h s x s' run - hs ⟨info, hrec, hp⟩
        exact ⟨info, hs.paid_kept (DaemonRun.sound run) hrec hp, hp⟩
      · intro s₁ s₂ _ hs
        obtain ⟨⟨old, -, -, rfl⟩, hafter, -, heq⟩ := hs.marked hy
        exact ⟨old.paid, heq ▸ hafter, rfl⟩
    obtain ⟨info, hrec, hp⟩ := hpaid
    rw [hbefore] at hold
    obtain rfl := Option.some.inj (hold.symm.trans hrec)
    cases hpending.symm.trans hp

/-! ## Replaying the handler on a tree -/

inductive DaemonAction
  | serve (around : Surroundings)
  | handler (a : HandlerAction)
  | restart (recipient : AccountId32) (server_info : ServerInfo)

/-- Whether an event leaves the tree alone. -/
def HandlerEvent.noDb : HandlerEvent → Bool
  | .said ⟨.db _, _⟩ => false
  | _ => true

/-- The handler and the tree as a function of what their surroundings do. -/
def HandlerStore.exec (lib : Libraries) (account_lifetime : Timestamp) (s : HandlerStore) :
    DaemonAction → Option (DaemonTurn × HandlerStore)
  | .serve around =>
    match s.handler.pc with
    | .busy phase said (.call (.db r) k) =>
      let out := (serve account_lifetime around r).runOn s.orders
      some (⟨s.orders, .handler (.said ⟨.db r, out.1⟩), out.2⟩,
        ⟨out.2, { s.handler with pc := .busy phase (said ++ [⟨.db r, out.1⟩]) (k out.1) }⟩)
    | _ => none
  | .handler a =>
    match s.handler.exec lib a with
    | some (e, s') =>
      if e.noDb then some (⟨s.orders, .handler e, s.orders⟩, ⟨s.orders, s'⟩) else none
    | none => none
  | .restart recipient server_info =>
    some (⟨s.orders, .restarted, s.orders⟩, ⟨s.orders, Handler.start recipient server_info⟩)

theorem HandlerStore.exec_sound (lib : Libraries) (account_lifetime : Timestamp) (s : HandlerStore)
    (a : DaemonAction) (x : DaemonTurn) (s' : HandlerStore)
    (h : s.exec lib account_lifetime a = some (x, s')) :
    DaemonStep lib account_lifetime s x s' := by
  cases a with
  | serve around =>
    simp only [exec] at h
    split at h
    · rename_i phase said r k hpc
      obtain ⟨rfl, rfl⟩ := Prod.mk.inj (Option.some.inj h)
      exact .handler (.said _ hpc) (.served s.orders around r)
    · cases h
  | handler a =>
    simp only [exec] at h
    split at h
    · rename_i e s₁ he
      split_ifs at h with hdb
      obtain ⟨rfl, rfl⟩ := Prod.mk.inj (Option.some.inj h)
      refine .handler (Handler.exec_sound lib _ _ _ _ he) (.other _ _ ?_)
      rintro r answer rfl
      cases hdb
    · cases h
  | restart recipient server_info =>
    obtain ⟨rfl, rfl⟩ := Prod.mk.inj (Option.some.inj h)
    exact .restarted s.orders s.handler recipient server_info

namespace Sample

/-- A pending order for a price of ten, in the smallest unit of a currency with ten decimals. -/
def pending : OrderInfo :=
  OrderInfo.new ⟨"order", ⟨0x3e112e0be826d695⟩, "", "DOT"⟩ dot
    "111111111111111111111111111111111HC1" 1000

/-- The tree with one pending order, and the handler at its start. -/
def oneOrder : HandlerStore :=
  ⟨(∅ : Orders).insert (orderKey "order") pending.encode, Handler.start account serverInfo⟩

/-- The start of the handler, with the tree. -/
def started : List DaemonAction :=
  [.handler (.answer (calm true)), .serve (.calm 0), .handler (.answer (calm true)),
    .handler .settle]

/-- The order is reported paid, reaped, and reported again, before and after a restart. -/
def paidTwice : List DaemonAction :=
  started ++ .handler (.receive (.orderPaid "order")) :: .serve (.calm 0) ::
    List.replicate 3 (.handler (.answer (calm true))) ++
    [.handler .settle, .handler (.receive (.orderPaid "order")), .serve (.calm 0),
      .handler .settle, .restart account serverInfo] ++ started ++
    [.handler (.receive (.orderPaid "order")), .serve (.calm 0), .handler .settle]

end Sample

/-- Whether a turn calls `reap`. -/
def DaemonTurn.reaps (x : DaemonTurn) : Bool :=
  match x.event with
  | .handler (.said ⟨.reap _ _, _⟩) => true
  | _ => false

theorem reapsOnce_paidTwice : ∃ h s, DaemonRun Sample.libraries 0 h s ∧
    (∃ x ∈ h, x.reaps = true) ∧ ReapsOnce h := by
  obtain ⟨h, s, run, hp⟩ := exists_reach_of_replay
    (HandlerStore.exec_sound Sample.libraries 0)
    (fun s => ∃ recipient server_info, s.handler = Handler.start recipient server_info)
    ⟨Sample.account, Sample.serverInfo, rfl⟩ Sample.paidTwice (s := Sample.oneOrder)
    (p := fun q => q.1.any DaemonTurn.reaps) (by decide +kernel)
  exact ⟨h, s, run, List.any_eq_true.mp hp, reapsOnce run⟩

end Kalatori
