import Kalatori.State.Addresses

/-!
# Requests for a new order that fail

A request for a new order is answered with an error if the currency is not
known, if the signer or the database fails, or if the order cannot be registered
with the chain manager.  Before the last of these the order is already in the
database, and there it stays.  So the next request for it finds a pending order:
it is answered with `ModifiedOrder`, which is meant for orders that are being
watched, and nobody registers it.

* `CreationEnds`, `createInvoice_ends`: how `create_invoice` ends, after what was said.
* `Call`: the handler takes a request for an order, and answers it.
* `leavesNoTrace_iff`: the failures after which everything is as it was.
-/

namespace Kalatori

open Program Transition

variable {lib : Libraries} {account_lifetime : Timestamp}

/-! ## How `create_invoice` ends -/

/-- **The registration of an order fails**, with what was said to the chain manager: the request
for it cannot be made, nobody takes it, or it is answered with an error. -/
inductive RegistrationFails (lib : Libraries) (recipient : AccountId32) (order : String)
    (info : OrderInfo) : Trace HandlerSig → ChainError → Prop
  | unaddressed (e : ChainError)
      (h : WatchAccount.new lib order info recipient .stateHandler = .error e) :
      RegistrationFails lib recipient order info [] e
  | dropped (request : WatchAccount)
      (h : WatchAccount.new lib order info recipient .stateHandler = .ok request) :
      RegistrationFails lib recipient order info [⟨.send (.watchAccount request), false⟩]
        .messageDropped
  | refused (request : WatchAccount)
      (h : WatchAccount.new lib order info recipient .stateHandler = .ok request)
      (e : ChainError) :
      RegistrationFails lib recipient order info
        [⟨.send (.watchAccount request), true⟩, ⟨.await, .error e⟩] e

/-- **How `create_invoice` ends**, after what was said. -/
inductive CreationEnds (lib : Libraries) (state : StateData) (query : OrderQuery) :
    Trace HandlerSig → Except Error OrderResponse → Prop
  | unknownCurrency (h : state.currencies.lookup query.currency = none) :
      CreationEnds lib state query [] (.error (.order .unknownCurrency))
  | unsigned (ss58 : UInt16) (e : SignerError) :
      CreationEnds lib state query [⟨.publicKey query.order ss58, .error e⟩] (.error (.signer e))
  | unserved (currency : CurrencyInfo) (payment_account : String) (e : DbError) :
      CreationEnds lib state query
        [⟨.publicKey query.order currency.ss58, .ok payment_account⟩,
          ⟨.db (.createOrder query.order query currency payment_account), .error e⟩]
        (.error (.db e))
  | unregistered (currency : CurrencyInfo) (payment_account : String) (info : OrderInfo)
      (rest : Trace HandlerSig) (e : ChainError)
      (h : RegistrationFails lib state.recipient query.order info rest e) :
      CreationEnds lib state query (created query currency payment_account (.new info) ++ rest)
        (.error (.chain e))
  | new (currency : CurrencyInfo) (payment_account : String) (info : OrderInfo)
      (request : WatchAccount)
      (h : WatchAccount.new lib query.order info state.recipient .stateHandler = .ok request) :
      CreationEnds lib state query
        (created query currency payment_account (.new info) ++
          [⟨.send (.watchAccount request), true⟩, ⟨.await, .ok ()⟩])
        (.ok (.newOrder (state.orderStatus lib query.order info "")))
  | modified (currency : CurrencyInfo) (payment_account : String) (info : OrderInfo) :
      CreationEnds lib state query (created query currency payment_account (.modified info))
        (.ok (.modifiedOrder (state.orderStatus lib query.order info "")))
  | collision (currency : CurrencyInfo) (payment_account : String) (info : OrderInfo) :
      CreationEnds lib state query (created query currency payment_account (.collision info))
        (.ok (.collidedOrder (state.orderStatus lib query.order info
          "Order with this ID was already processed")))

section Ends

variable {state : StateData}

theorem createInvoice_ends (query : OrderQuery) :
    Prog.Holds (fun _ o => ∀ answer, o ≠ HandlerOp.reply answer) (CreationEnds lib state query) []
      (createInvoice lib state query).run := by
  unfold createInvoice
  cases hp : state.currencies.lookup query.currency with
  | none => exact .unknownCurrency hp
  | some properties =>
    simp only
    rw [Prog.holds_run_bind, holds_publicKey]
    refine ⟨fun _ h => (by cases h), fun answer => ?_⟩
    cases answer with
    | error e => exact .unsigned _ e
    | ok payment_account =>
      simp only [Except.mapError]
      rw [Prog.holds_run_bind, holds_db]
      refine ⟨fun _ h => (by cases h), fun answer => ?_⟩
      cases answer with
      | error e => exact .unserved (properties.info query.currency) payment_account e
      | ok answer =>
        cases answer with
        | collision info =>
          exact .collision (properties.info query.currency) payment_account info
        | modified info =>
          exact .modified (properties.info query.currency) payment_account info
        | new info =>
          have hfails : ∀ rest e, RegistrationFails lib state.recipient query.order info rest e →
              CreationEnds lib state query (created query (properties.info query.currency)
                payment_account (.new info) ++ rest) (.error (.chain e)) :=
            fun rest e h => .unregistered _ payment_account info rest e h
          simp only [Except.mapError]
          rw [Prog.holds_run_bind, addInvoice]
          refine holds_callManager (fun e he => hfails [] e (.unaddressed e he)) fun w hw =>
            ⟨fun _ h => (by cases h), hfails _ _ (.dropped w hw), fun _ h => (by cases h),
              fun answer => ?_⟩
          cases answer with
          | error e => exact hfails _ e (.refused w hw e)
          | ok => exact .new (properties.info query.currency) payment_account info w hw

/-- An answer to a request for an order is what `create_invoice` ended with. -/
theorem handle_ends (query : OrderQuery) :
    Prog.Holds (fun said o => ∀ answer, o = HandlerOp.reply (.createInvoice answer) →
        CreationEnds lib state query said answer) (fun _ _ => True) []
      (handle lib state (.createInvoice query) >>=
        fun state => pure (HandlerNext.listen state)).run := by
  rw [handle, bind_assoc, Prog.holds_run_bind, holds_result]
  refine (createInvoice_ends query).mono (fun _ o ho answer h => absurd h (ho _)) ?_
  intro said result hends
  simp only
  rw [bind_assoc, Prog.holds_run_bind, holds_reply]
  refine ⟨fun answer h => ?_, trivial, trivial⟩
  obtain rfl := HandlerReply.createInvoice.inj (HandlerOp.reply.inj h)
  exact hends

end Ends

/-! ## A call -/

/-- The steps in which the handler performs the operations of a conversation. -/
inductive Talk (lib : Libraries) (account_lifetime : Timestamp) :
    HandlerStore → Trace HandlerSig → HandlerStore → Prop
  | nil (s : HandlerStore) : Talk lib account_lifetime s [] s
  | cons {s s₁ s' : HandlerStore} {x : DaemonTurn} {exchange : Exchange HandlerSig}
      {said : Trace HandlerSig} (hs : DaemonStep lib account_lifetime s x s₁)
      (hx : x.event = .handler (.said exchange)) (rest : Talk lib account_lifetime s₁ said s') :
      Talk lib account_lifetime s (exchange :: said) s'

/-- **The handler takes a request for an order and answers it**, after what it says in between. -/
structure Call (lib : Libraries) (account_lifetime : Timestamp) (query : OrderQuery)
    (s : HandlerStore) (said : Trace HandlerSig) (answer : Except Error OrderResponse)
    (s' : HandlerStore) : Prop where
  steps : ∃ x s₁ taken, DaemonStep lib account_lifetime s x s₁ ∧
    x.event = .handler (.received (.createInvoice query)) ∧
    Talk lib account_lifetime s₁ (said ++ [⟨.reply (.createInvoice answer), taken⟩]) s'

/-- Nothing was asked of the database. -/
def NoDb (said : Trace HandlerSig) : Prop := ∀ exchange ∈ said, ∀ r, exchange.1 ≠ .db r

theorem noDb_nil : NoDb [] := fun _ hmem => absurd hmem List.not_mem_nil

theorem NoDb.append {said said' : Trace HandlerSig} (h : NoDb said) (h' : NoDb said') :
    NoDb (said ++ said') := by
  intro exchange hmem
  rcases List.mem_append.mp hmem with hmem | hmem
  · exact h exchange hmem
  · exact h' exchange hmem

theorem noDb_reply (answer : HandlerReply) (taken : Bool) :
    NoDb [⟨.reply answer, taken⟩] := by
  intro exchange hmem r
  rw [List.mem_singleton.mp hmem]
  exact HandlerOp.noConfusion

theorem RegistrationFails.noDb {recipient : AccountId32} {order : String} {info : OrderInfo}
    {said : Trace HandlerSig} {e : ChainError}
    (h : RegistrationFails lib recipient order info said e) : NoDb said := by
  cases h with
  | unaddressed => exact noDb_nil
  | dropped | refused => simp [NoDb]

section Talks

variable {s s' : HandlerStore} {said said' : Trace HandlerSig}

theorem Talk.append_iff : Talk lib account_lifetime s (said ++ said') s' ↔
    ∃ m, Talk lib account_lifetime s said m ∧ Talk lib account_lifetime m said' s' := by
  induction said generalizing s with
  | nil =>
    constructor
    · intro h
      exact ⟨s, .nil s, h⟩
    · rintro ⟨m, h, h'⟩
      cases h
      exact h'
  | cons exchange said ih =>
    constructor
    · intro h
      cases h with
      | cons hs hx rest =>
        obtain ⟨m, h, h'⟩ := ih.mp rest
        exact ⟨m, .cons hs hx h, h'⟩
    · rintro ⟨m, h, h'⟩
      cases h with
      | cons hs hx rest => exact .cons hs hx (ih.mpr ⟨m, rest, h'⟩)

/-- A conversation is one of the program that the handler is in. -/
theorem Talk.holds {pre : Trace HandlerSig → HandlerOp → Prop}
    {post : Trace HandlerSig → Except Error HandlerNext → Prop} {phase : HandlerPhase}
    {before : Trace HandlerSig} {program : Prog HandlerSig (Except Error HandlerNext)}
    (h : Talk lib account_lifetime s said s') (hpc : s.handler.pc = .busy phase before program)
    (hp : Prog.Holds pre post before program) :
    s'.handler.state = s.handler.state ∧ ∃ program',
      s'.handler.pc = .busy phase (before ++ said) program' ∧
        Prog.Holds pre post (before ++ said) program' := by
  induction h generalizing before program with
  | nil s => exact ⟨rfl, program, by rw [List.append_nil, hpc], by rw [List.append_nil]; exact hp⟩
  | @cons s s₁ s' x exchange said hs hx _ ih =>
    obtain ⟨o, answer⟩ := exchange
    obtain ⟨_, _, k, hpc', hs₁, -⟩ := hs.said hx
    obtain ⟨rfl, rfl, rfl⟩ := HandlerPc.busy.inj (hpc.symm.trans hpc')
    have hstate : s₁.handler.state = s.handler.state := by rw [hs₁]
    obtain ⟨hkept, program', hpc₁, hp₁⟩ := ih (congrArg Handler.pc hs₁) (hp.2 answer)
    rw [List.append_assoc] at hpc₁ hp₁
    exact ⟨hkept.trans hstate, program', hpc₁, hp₁⟩

/-- Without a request to the database, the tree stays as it is. -/
theorem Talk.orders_eq (h : Talk lib account_lifetime s said s') (hno : NoDb said) :
    s'.orders = s.orders := by
  induction h with
  | nil => rfl
  | @cons s s₁ s' x exchange said hs hx _ ih =>
    obtain ⟨_, _, _, -, -, ho⟩ := hs.said hx
    have hsame : s₁.orders = s.orders := ho.other_eq fun r answer heq => by
      injection heq with heq
      exact hno exchange List.mem_cons_self r (congrArg Sigma.fst heq)
    rw [ih fun e hmem => hno e (List.mem_cons_of_mem _ hmem), hsame]

/-- What the one request to the database does to the tree. -/
theorem Talk.effect {id : String} {ss58 : UInt16} {account : Except SignerError String}
    {r : DbRequest} {answer : Except DbError r.Reply}
    (h : Talk lib account_lifetime s (⟨.publicKey id ss58, account⟩ :: ⟨.db r, answer⟩ :: said) s')
    (hno : NoDb said) :
    ∃ now, Effect account_lifetime now s.orders r answer s'.orders := by
  cases h with
  | @cons _ s₁ _ _ _ _ hs hx rest =>
    cases rest with
    | @cons _ s₂ _ _ _ _ hs' hx' rest' =>
      obtain ⟨_, _, _, -, -, ho⟩ := hs.said hx
      have hsame : s₁.orders = s.orders := ho.other_eq fun r answer heq => by
        injection heq with heq
        cases congrArg Sigma.fst heq
      obtain ⟨_, _, _, -, -, ho'⟩ := hs'.said hx'
      rw [hsame] at ho'
      rw [rest'.orders_eq hno]
      exact ho'.effect

end Talks

section Calls

variable {query : OrderQuery} {s s' : HandlerStore} {said : Trace HandlerSig}
  {answer : Except Error OrderResponse}

/-- The program of a call, and what is said in it. -/
theorem Call.talk (h : Call lib account_lifetime query s said answer s') :
    ∃ s₁ taken, s₁.orders = s.orders ∧
      s₁.handler = s.handler.receive lib (.createInvoice query) ∧
      Talk lib account_lifetime s₁ (said ++ [⟨.reply (.createInvoice answer), taken⟩]) s' := by
  obtain ⟨x, s₁, taken, hs, hx, htalk⟩ := h.steps
  cases hs with
  | restarted => cases hx
  | handler hs ho =>
    obtain rfl := DaemonEvent.handler.inj hx
    cases hs with
    | received => exact ⟨_, taken, ho.other_eq fun _ _ => nofun, rfl, htalk⟩

/-- **What is answered is what `create_invoice` ended with.** -/
theorem Call.ends (h : Call lib account_lifetime query s said answer s') :
    CreationEnds lib s.handler.state query said answer := by
  obtain ⟨s₁, taken, -, hs₁, htalk⟩ := h.talk
  obtain ⟨m, htalk, hreply⟩ := Talk.append_iff.mp htalk
  have hpc₁ : s₁.handler.pc = .busy .handling [] (handle lib s.handler.state
      (.createInvoice query) >>= fun state => pure (HandlerNext.listen state)).run := by
    rw [hs₁]
    rfl
  obtain ⟨-, program, hpc, hp⟩ := htalk.holds hpc₁ (handle_ends query)
  cases hreply with
  | cons hs hx =>
    obtain ⟨_, _, k, hpc', -, -⟩ := hs.said hx
    obtain ⟨-, rfl, rfl⟩ := HandlerPc.busy.inj (hpc.symm.trans hpc')
    exact hp.1 answer rfl

/-- A call in which nothing was asked of the database. -/
theorem Call.orders_eq (h : Call lib account_lifetime query s said answer s') (hno : NoDb said) :
    s'.orders = s.orders := by
  obtain ⟨s₁, taken, horders, -, htalk⟩ := h.talk
  rw [htalk.orders_eq (hno.append (noDb_reply _ taken)), horders]

/-- A call with one request to the database. -/
theorem Call.effect {id : String} {ss58 : UInt16} {account : Except SignerError String}
    {r : DbRequest} {reply : Except DbError r.Reply}
    (h : Call lib account_lifetime query s (⟨.publicKey id ss58, account⟩ :: ⟨.db r, reply⟩ :: said)
      answer s') (hno : NoDb said) :
    ∃ now, Effect account_lifetime now s.orders r reply s'.orders := by
  obtain ⟨s₁, taken, horders, -, htalk⟩ := h.talk
  rw [← horders]
  exact htalk.effect (hno.append (noDb_reply _ taken))

/-! ## When a failure leaves no trace -/

/-- The order is said to be new, and it was registered. -/
def RegisteredAsNew (order : String) (said : Trace HandlerSig) (response : OrderResponse) : Prop :=
  ∃ status request, response = .newOrder status ∧ request.id = order ∧
    ⟨.send (.watchAccount request), true⟩ ∈ said ∧ ⟨.await, .ok ()⟩ ∈ said

/-- **A failed call leaves no trace.**  The tree is as it was before, and if the order is new then
it is still new for the same request later, unless somebody else has asked for it. -/
structure LeavesNoTrace (lib : Libraries) (account_lifetime : Timestamp) (query : OrderQuery)
    (s s' : HandlerStore) : Prop where
  tree : s'.orders = s.orders
  retry : ∀ s₁ said response s₂, Call lib account_lifetime query s₁ said (.ok response) s₂ →
    s₁.orders[orderKey query.order]? = s'.orders[orderKey query.order]? →
    s.orders[orderKey query.order]? = none → RegisteredAsNew query.order said response

/-- **An order was recorded and then not registered.** -/
def RegistrationFailed (lib : Libraries) (state : StateData) (query : OrderQuery)
    (said : Trace HandlerSig) : Prop :=
  ∃ currency payment_account info rest e,
    said = created query currency payment_account (.new info) ++ rest ∧
      RegistrationFails lib state.recipient query.order info rest e

/-- A call for a new order that succeeds registers it. -/
theorem Call.registeredAsNew {response : OrderResponse}
    (h : Call lib account_lifetime query s said (.ok response) s')
    (hnew : s.orders[orderKey query.order]? = none) :
    RegisteredAsNew query.order said response := by
  have hrecord : record s.orders query.order = none := by
    rw [record, recordAt, hnew]
    rfl
  cases h.ends with
  | new currency payment_account info request hrequest =>
    refine ⟨_, request, rfl, WatchAccount.new_id hrequest, ?_, ?_⟩
    · exact List.mem_append_right _ List.mem_cons_self
    · exact List.mem_append_right _ (List.mem_cons_of_mem _ (List.mem_singleton_self _))
  | modified currency payment_account info =>
    obtain ⟨now, heffect⟩ := h.effect noDb_nil
    generalize s'.orders = orders' at heffect
    cases heffect with
    | modified _ _ _ _ old _ hold => cases hrecord.symm.trans hold
  | collision currency payment_account info =>
    obtain ⟨now, heffect⟩ := h.effect noDb_nil
    generalize s'.orders = orders' at heffect
    cases heffect with
    | collided _ _ _ _ _ hold => cases hrecord.symm.trans hold

theorem leavesNoTrace_of_tree (h : s'.orders = s.orders) :
    LeavesNoTrace lib account_lifetime query s s' where
  tree := h
  retry := by
    intro s₁ said response s₂ hcall hsame hnew
    rw [h] at hsame
    exact hcall.registeredAsNew (hsame.trans hnew)

/-- A new order is recorded before it is registered. -/
theorem Effect.ne_of_new {now : Timestamp} {orders orders' : Orders} {order : String}
    {query : OrderQuery} {currency : CurrencyInfo} {payment_account : String} {info : OrderInfo}
    (h : Effect account_lifetime now orders (.createOrder order query currency payment_account)
      (.ok (.new info)) orders') : orders' ≠ orders := by
  cases h with
  | created _ _ _ _ _ hnone =>
    intro heq
    have hsome := getElem?_insert_orders orders (orderKey order) (orderKey order) info.encode
    rw [heq, hnone, if_pos rfl] at hsome
    cases hsome

/-- **When a failed call leaves no trace**: it had not recorded an order that it then failed to
register. -/
theorem leavesNoTrace_iff {e : Error}
    (h : Call lib account_lifetime query s said (.error e) s') :
    LeavesNoTrace lib account_lifetime query s s' ↔
      ¬RegistrationFailed lib s.handler.state query said := by
  cases h.ends with
  | unknownCurrency =>
    refine iff_of_true (leavesNoTrace_of_tree (h.orders_eq noDb_nil)) ?_
    rintro ⟨_, _, _, _, _, hsaid, -⟩
    cases hsaid
  | unsigned ss58 e =>
    refine iff_of_true (leavesNoTrace_of_tree (h.orders_eq ?_)) ?_
    · simp [NoDb]
    · rintro ⟨_, _, _, _, _, hsaid, -⟩
      simp [created] at hsaid
  | unserved currency payment_account e =>
    refine iff_of_true (leavesNoTrace_of_tree ?_) ?_
    · obtain ⟨now, heffect⟩ := h.effect noDb_nil
      exact heffect.of_error
    · rintro ⟨_, _, _, _, _, hsaid, -⟩
      simp [created] at hsaid
  | unregistered currency payment_account info rest e hfails =>
    refine iff_of_false (fun hclean => ?_) (not_not.mpr ⟨_, _, _, _, _, rfl, hfails⟩)
    obtain ⟨now, heffect⟩ := Call.effect h hfails.noDb
    exact heffect.ne_of_new hclean.tree

end Calls

/-! ## An order that nobody watches -/

/-- What the exchanges of a conversation do to the tree, one after the other. -/
inductive Moves (account_lifetime : Timestamp) : Orders → Trace HandlerSig → Orders → Prop
  | nil (orders : Orders) : Moves account_lifetime orders [] orders
  | cons {orders orders₁ orders' : Orders} {exchange : Exchange HandlerSig}
      {said : Trace HandlerSig} (h : StoreStep account_lifetime orders (.said exchange) orders₁)
      (rest : Moves account_lifetime orders₁ said orders') :
      Moves account_lifetime orders (exchange :: said) orders'

theorem moves_of_noDb {said : Trace HandlerSig} (hno : NoDb said) (orders : Orders) :
    Moves account_lifetime orders said orders := by
  induction said with
  | nil => exact .nil orders
  | cons exchange said ih =>
    refine .cons (.other orders _ fun r answer heq => ?_)
      (ih fun e hmem => hno e (List.mem_cons_of_mem _ hmem))
    injection heq with heq
    exact hno exchange List.mem_cons_self r (congrArg Sigma.fst heq)

theorem Moves.append {orders orders₁ orders' : Orders} {said said' : Trace HandlerSig}
    (h : Moves account_lifetime orders said orders₁)
    (h' : Moves account_lifetime orders₁ said' orders') :
    Moves account_lifetime orders (said ++ said') orders' := by
  induction h with
  | nil => exact h'
  | cons ho _ ih => exact .cons ho (ih h')

/-- A conversation of a program, with what it does to the tree. -/
theorem talk_of_runs {program : Prog HandlerSig (Except Error HandlerNext)}
    {said : Trace HandlerSig} {result : Except Error HandlerNext}
    (h : Prog.Runs program said result)
    {orders orders' : Orders} (hm : Moves account_lifetime orders said orders')
    {state : StateData} {phase : HandlerPhase} {before : Trace HandlerSig} :
    Talk lib account_lifetime ⟨orders, state, .busy phase before program⟩ said
      ⟨orders', state, .busy phase (before ++ said) (.done result)⟩ := by
  induction h generalizing orders before with
  | done a =>
    cases hm
    rw [List.append_nil]
    exact .nil _
  | @call o k said a answer _ ih =>
    cases hm with
    | cons ho rest =>
      have hbefore : before ++ ⟨o, answer⟩ :: said = before ++ [⟨o, answer⟩] ++ said :=
        List.append_cons before _ said
      rw [hbefore]
      exact .cons (.handler (.said answer rfl) ho) rfl (ih rest)

/-- **Every conversation of `create_invoice` is one of a call**, after which the handler is at its
queue again. -/
theorem exists_call {state : StateData} {query : OrderQuery} {said : Trace HandlerSig}
    {answer : Except Error OrderResponse}
    (h : Prog.Runs (createInvoice lib state query).run said answer) {orders orders' : Orders}
    (hm : Moves account_lifetime orders said orders') :
    ∃ s' x, Call lib account_lifetime query ⟨orders, state, .listening⟩ said answer s' ∧
      s'.orders = orders' ∧ DaemonStep lib account_lifetime s' x ⟨orders', state, .listening⟩ := by
  have hanswered : Prog.Runs (handle lib state (.createInvoice query) >>=
      fun state => pure (HandlerNext.listen state)).run
      (said ++ [⟨.reply (.createInvoice answer), true⟩]) (.ok (.listen state)) := by
    rw [handle, bind_assoc, ExceptT.run_bind, Handling.result, ExceptT.run_lift,
      map_eq_pure_bind, bind_assoc]
    exact h.bind (.call (S := HandlerSig) (o := .reply (.createInvoice answer)) true (.done _))
  have hmoves : Moves account_lifetime orders
      (said ++ [⟨.reply (.createInvoice answer), true⟩]) orders' :=
    hm.append (moves_of_noDb (noDb_reply _ _) orders')
  have htalk : Talk lib account_lifetime
      ⟨orders, Handler.receive lib ⟨state, .listening⟩ (.createInvoice query)⟩ _ _ :=
    talk_of_runs hanswered hmoves
  have hreceived : DaemonStep lib account_lifetime ⟨orders, state, .listening⟩
      ⟨orders, .handler (.received (.createInvoice query)), orders⟩
      ⟨orders, Handler.receive lib ⟨state, .listening⟩ (.createInvoice query)⟩ :=
    .handler (.received _ rfl) (.other _ _ fun _ _ h => by cases h)
  refine ⟨_, ⟨orders', .handler .settled, orders'⟩, ⟨_, _, true, hreceived, rfl, htalk⟩, rfl, ?_⟩
  exact .handler (@HandlerStep.settled lib _ _ _ (.ok (.listen state)) rfl)
    (.other _ _ fun _ _ h => by cases h)

/-- The database does not fail, and there is no entry for the order: the order is recorded. -/
theorem served_new {orders : Orders} {query : OrderQuery}
    (hnew : orders[orderKey query.order]? = none) (now : Timestamp) (currency : CurrencyInfo)
    (payment_account : String) :
    ∃ info, info = OrderInfo.new query currency payment_account
        (calculateDeathTs now account_lifetime) ∧
      Moves account_lifetime orders (created query currency payment_account (.new info))
        (orders.insert (orderKey query.order) info.encode) := by
  have hserved : (serve account_lifetime (.calm now)
      (.createOrder query.order query currency payment_account)).runOn orders =
        (.ok (.new (OrderInfo.new query currency payment_account
          (calculateDeathTs now account_lifetime))),
          orders.insert (orderKey query.order) (OrderInfo.new query currency payment_account
            (calculateDeathTs now account_lifetime)).encode) := by
    simp only [serve, createOrder]
    rw [Db.runOn_bind, Db.runOn_get, hnew]
    rfl
  have hstep := @StoreStep.served account_lifetime orders (.calm now)
    (.createOrder query.order query currency payment_account)
  rw [hserved] at hstep
  exact ⟨_, rfl, .cons (.other _ _ fun _ _ => nofun) (.cons hstep (.nil _))⟩

/-- There is a pending record of the order: it is renewed. -/
theorem served_modified {orders : Orders} {query : OrderQuery} {old : OrderInfo}
    (hold : orders[orderKey query.order]? = some old.encode) (hp : old.payment_status = .pending)
    (now : Timestamp) (currency : CurrencyInfo) (payment_account : String) :
    ∃ info orders', Moves account_lifetime orders
      (created query currency payment_account (.modified info)) orders' := by
  have hserved : ((serve account_lifetime (.calm now)
      (.createOrder query.order query currency payment_account)).runOn orders).1 =
        .ok (.modified { old with death := calculateDeathTs now account_lifetime,
                                  currency := currency, amount := query.amount }) := by
    simp only [serve, createOrder, Surroundings.calm, Db.runOn_bind, Db.runOn_get, hold,
      Bool.false_eq_true, if_false, Db.runOn_decode, OrderInfo.decode_encode, hp, Db.runOn_insert,
      Db.runOn_pure]
  have hstep := @StoreStep.served account_lifetime orders (.calm now)
    (.createOrder query.order query currency payment_account)
  rw [hserved] at hstep
  exact ⟨_, _, .cons (.other _ _ fun _ _ => nofun) (.cons hstep (.nil _))⟩

section Conversations

variable {state : StateData} {query : OrderQuery} {properties : CurrencyProperties}

theorem runs_refused (hp : state.currencies.lookup query.currency = some properties)
    {payment_account : String} {info : OrderInfo} {request : WatchAccount}
    (hw : WatchAccount.new lib query.order info state.recipient .stateHandler = .ok request)
    (e : ChainError) :
    Prog.Runs (createInvoice lib state query).run
      (created query (properties.info query.currency) payment_account (.new info) ++
        [⟨.send (.watchAccount request), true⟩, ⟨.await, .error e⟩]) (.error (.chain e)) := by
  have hmake : WatchAccount.new lib query.order info state.recipient handlerPort.res =
      .ok request := hw
  unfold createInvoice
  rw [hp]
  refine Prog.Runs.call (S := HandlerSig) (o := .publicKey _ _) (.ok payment_account) ?_
  refine Prog.Runs.call (S := HandlerSig) (o := .db (.createOrder query.order query
    (properties.info query.currency) payment_account)) (.ok (.new info)) ?_
  have hregister : Prog.Runs (addInvoice lib handlerPort query.order info state.recipient).run
      ([⟨.send (.watchAccount request), true⟩, ⟨.await, .error e⟩] ++ []) (.ok (.error e)) := by
    rw [addInvoice, callManager, hmake]
    exact Prog.Runs.call (S := HandlerSig) (o := .send _) true
      (Prog.Runs.call (S := HandlerSig) (o := .await) (.error e) (.done _))
  exact hregister.bind (.done _)

theorem runs_modified (hp : state.currencies.lookup query.currency = some properties)
    (payment_account : String) (info : OrderInfo) :
    Prog.Runs (createInvoice lib state query).run
      (created query (properties.info query.currency) payment_account (.modified info))
      (.ok (.modifiedOrder (state.orderStatus lib query.order info ""))) := by
  unfold createInvoice
  rw [hp]
  refine Prog.Runs.call (S := HandlerSig) (o := .publicKey _ _) (.ok payment_account) ?_
  exact Prog.Runs.call (S := HandlerSig) (o := .db (.createOrder query.order query
    (properties.info query.currency) payment_account)) (.ok (.modified info)) (.done _)

theorem runs_unknownCurrency (hp : state.currencies.lookup query.currency = none) :
    Prog.Runs (createInvoice lib state query).run [] (.error (.order .unknownCurrency)) := by
  unfold createInvoice
  rw [hp]
  exact .done _

end Conversations

namespace Sample

/-- An order in a currency of a chain, and the same order in another one. -/
def dotQuery : OrderQuery := ⟨"order", ⟨0x3e112e0be826d695⟩, "", "DOT"⟩
def ksmQuery : OrderQuery := ⟨"order", ⟨0x3e112e0be826d695⟩, "", "KSM"⟩

/-- Whether the handler is at its queue, and knows one currency but not the order. -/
def isReady (s : HandlerStore) : Bool :=
  match s.handler.pc with
  | .listening => s.orders[orderKey "order"]?.isNone &&
      (s.handler.state.currencies.lookup "DOT").isSome &&
      (s.handler.state.currencies.lookup "KSM").isNone
  | _ => false

/-- The handler has been started, and a chain has been connected. -/
theorem exists_ready : ∃ h orders state, DaemonRun libraries 0 h ⟨orders, state, .listening⟩ ∧
    orders[orderKey "order"]? = none ∧
    (∃ properties, state.currencies.lookup "DOT" = some properties) ∧
    state.currencies.lookup "KSM" = none := by
  obtain ⟨h, ⟨orders, state, pc⟩, run, hp⟩ := exists_reach_of_replay
    (HandlerStore.exec_sound libraries 0)
    (fun s => ∃ recipient server_info, s.handler = Handler.start recipient server_info)
    ⟨account, serverInfo, rfl⟩
    (started ++ [.handler (.receive (.connectChain currencies)), .handler .settle])
    (s := ⟨∅, Handler.start account serverInfo⟩) (p := fun q => isReady q.2) (by decide +kernel)
  simp only [isReady] at hp
  split at hp
  · rw [Bool.and_eq_true, Bool.and_eq_true, Option.isNone_iff_eq_none, Option.isSome_iff_exists,
      Option.isNone_iff_eq_none] at hp
    exact ⟨h, orders, state, run, hp.1.1, hp.1.2, hp.2⟩
  · cases hp

end Sample

/-- A currency that is not known. -/
theorem leavesNoTrace_iff_unknownCurrency : ∃ h s s', DaemonRun Sample.libraries 0 h s ∧
    Call Sample.libraries 0 Sample.ksmQuery s [] (.error (.order .unknownCurrency)) s' ∧
    LeavesNoTrace Sample.libraries 0 Sample.ksmQuery s s' := by
  obtain ⟨h, orders, state, run, -, -, hksm⟩ := Sample.exists_ready
  have hruns : Prog.Runs (createInvoice Sample.libraries state Sample.ksmQuery).run []
      (.error (.order .unknownCurrency)) := runs_unknownCurrency hksm
  obtain ⟨s', -, hcall, -, -⟩ := exists_call hruns (.nil orders)
  refine ⟨h, _, s', run, hcall, (leavesNoTrace_iff hcall).mpr ?_⟩
  rintro ⟨_, _, _, _, _, hsaid, -⟩
  cases hsaid

/-- **An order that nobody watches.**  The tracker is gone, so the order is recorded and not
registered.  When it is asked for again, it is said to be modified, and nobody is told. -/
theorem unregistered_order_modified : ∃ h s said s₁ s₂ said' status s₃,
    DaemonRun Sample.libraries 0 h s ∧
    Call Sample.libraries 0 Sample.dotQuery s said (.error (.chain .messageDropped)) s₁ ∧
    s₁.orders ≠ s.orders ∧ ¬LeavesNoTrace Sample.libraries 0 Sample.dotQuery s s₁ ∧
    (∃ x, DaemonStep Sample.libraries 0 s₁ x s₂) ∧
    Call Sample.libraries 0 Sample.dotQuery s₂ said' (.ok (.modifiedOrder status)) s₃ ∧
    ∀ exchange ∈ said', ∀ request, exchange.1 ≠ .send request := by
  obtain ⟨h, orders, state, run, hnew, ⟨properties, hdot⟩, -⟩ := Sample.exists_ready
  -- The first request: the order is recorded, and the request for it dropped.
  obtain ⟨info, hinfo, hmoves⟩ := @served_new 0 orders Sample.dotQuery hnew 0
    (properties.info "DOT") "111111111111111111111111111111111HC1"
  obtain ⟨request, hrequest⟩ : ∃ request, WatchAccount.new Sample.libraries "order" info
      state.recipient .stateHandler = .ok request := by
    rw [hinfo]
    exact ⟨_, rfl⟩
  have hrest : NoDb [⟨.send (.watchAccount request), true⟩,
      ⟨.await, .error ChainError.messageDropped⟩] :=
    (RegistrationFails.refused request hrequest .messageDropped).noDb
  obtain ⟨s₁, x, hcall, horders, hsettled⟩ := exists_call
    (runs_refused hdot hrequest .messageDropped) (hmoves.append (moves_of_noDb hrest _))
  have hne : s₁.orders ≠ orders := by
    obtain ⟨now, heffect⟩ := hcall.effect hrest
    exact heffect.ne_of_new
  -- The second: it finds the record.
  have hold : (orders.insert (orderKey "order") info.encode)[orderKey "order"]? =
      some info.encode := Std.TreeMap.getElem?_insert_self
  have hpending : info.payment_status = .pending := by
    rw [hinfo]
    rfl
  obtain ⟨info', orders', hmoves'⟩ := @served_modified 0 _ Sample.dotQuery _ hold hpending 0
    (properties.info "DOT") "111111111111111111111111111111111HC1"
  obtain ⟨s₃, -, hcall', -, -⟩ := exists_call (runs_modified hdot _ info') hmoves'
  refine ⟨h, _, _, s₁, _, _, _, s₃, run, hcall, hne, fun hclean => hne hclean.tree,
    ⟨x, hsettled⟩, hcall', ?_⟩
  simp [created]

end Kalatori
