import Kalatori.State

/-!
# What the programs of the state handler do

`Handles` lists the operations that the handler performs for a request, each
with everything that was said before it.  The programs are short, so this is all
there is to know about them; how they end is added in `handle_spec`.

* `handle_spec`: the requests.
* `startUp_spec`, `shutDown_spec`: the start and the shutdown.
-/

namespace Kalatori

open Program

variable {lib : Libraries}

/-- The order that an answer says is new or renewed. -/
def HandlerReply.accepted : HandlerReply → Option OrderStatus
  | .createInvoice (.ok (.newOrder status)) | .createInvoice (.ok (.modifiedOrder status)) =>
    some status
  | _ => none

/-- The conversation of `create_invoice` up to the answer of the database. -/
def created (query : OrderQuery) (currency : CurrencyInfo) (payment_account : String)
    (response : OrderCreateResponse) : Trace HandlerSig :=
  [⟨.publicKey query.order currency.ss58, .ok payment_account⟩,
    ⟨.db (.createOrder query.order query currency payment_account), .ok response⟩]

/-- The conversation for `OrderPaid` up to the call of `reap`. -/
def marked (id : String) (order : OrderInfo) : Trace HandlerSig :=
  [⟨.db (.markPaid id), .ok order⟩, ⟨.reap id order, ()⟩]

/-- A requester was gone when its answer was ready. -/
def Abandoned (said : Trace HandlerSig) : Prop :=
  ∃ answer : HandlerReply, ⟨.reply answer, false⟩ ∈ said

/-- A call of the chain manager was the last thing said, and it is still to be answered. -/
def expecting (said : Trace HandlerSig) : Bool :=
  match said.getLast? with
  | some ⟨.send request, true⟩ => request.account.isSome
  | _ => false

/-- **What the handler does for a request**, after what was said. -/
inductive Handles (lib : Libraries) (state : StateData) :
    StateAccessRequest → Trace HandlerSig → HandlerOp → Prop
  | readOrder (order : String) :
      Handles lib state (.getInvoiceStatus order) [] (.db (.readOrder order))
  | publicKey (query : OrderQuery) (properties : CurrencyProperties) :
      Handles lib state (.createInvoice query) [] (.publicKey query.order properties.ss58)
  | createOrder (query : OrderQuery) (properties : CurrencyProperties) (payment_account : String)
      (hp : state.currencies.lookup query.currency = some properties) :
      Handles lib state (.createInvoice query)
        [⟨.publicKey query.order properties.ss58, .ok payment_account⟩]
        (.db (.createOrder query.order query (properties.info query.currency) payment_account))
  | watch (query : OrderQuery) (properties : CurrencyProperties) (payment_account : String)
      (info : OrderInfo) (request : WatchAccount)
      (hr : WatchAccount.new lib query.order info state.recipient .stateHandler = .ok request) :
      Handles lib state (.createInvoice query)
        (created query (properties.info query.currency) payment_account (.new info))
        (.send (.watchAccount request))
  | awaitWatch (query : OrderQuery) (properties : CurrencyProperties) (payment_account : String)
      (info : OrderInfo) (request : WatchAccount)
      (hr : WatchAccount.new lib query.order info state.recipient .stateHandler = .ok request) :
      Handles lib state (.createInvoice query)
        (created query (properties.info query.currency) payment_account (.new info) ++
          [⟨.send (.watchAccount request), true⟩])
        .await
  | replyNew (query : OrderQuery) (properties : CurrencyProperties) (payment_account : String)
      (info : OrderInfo) (request : WatchAccount)
      (hr : WatchAccount.new lib query.order info state.recipient .stateHandler = .ok request) :
      Handles lib state (.createInvoice query)
        (created query (properties.info query.currency) payment_account (.new info) ++
          [⟨.send (.watchAccount request), true⟩, ⟨.await, .ok ()⟩])
        (.reply (.createInvoice (.ok (.newOrder (state.orderStatus lib query.order info "")))))
  | replyModified (query : OrderQuery) (properties : CurrencyProperties) (payment_account : String)
      (info : OrderInfo) :
      Handles lib state (.createInvoice query)
        (created query (properties.info query.currency) payment_account (.modified info))
        (.reply (.createInvoice (.ok (.modifiedOrder (state.orderStatus lib query.order info "")))))
  | reply (request : StateAccessRequest) (said : Trace HandlerSig) (answer : HandlerReply)
      (h : answer.accepted = none) (hs : ¬Abandoned said) (hx : expecting said = false) :
      Handles lib state request said (.reply answer)
  | markPaid (id : String) : Handles lib state (.orderPaid id) [] (.db (.markPaid id))
  | callReap (id : String) (order : OrderInfo) :
      Handles lib state (.orderPaid id) [⟨.db (.markPaid id), .ok order⟩] (.reap id order)
  | reap (id : String) (order : OrderInfo) (request : WatchAccount)
      (hr : WatchAccount.new lib id order state.recipient .stateHandler = .ok request) :
      Handles lib state (.orderPaid id) (marked id order) (.send (.reap request))
  | awaitReap (id : String) (order : OrderInfo) (request : WatchAccount)
      (hr : WatchAccount.new lib id order state.recipient .stateHandler = .ok request) :
      Handles lib state (.orderPaid id) (marked id order ++ [⟨.send (.reap request), true⟩]) .await

/-- It waits for the answer to a call directly after it, and at no other time. -/
theorem Handles.expecting_iff {state : StateData} {request : StateAccessRequest}
    {said : Trace HandlerSig} {o : HandlerOp} (h : Handles lib state request said o) :
    expecting said = true ↔ o = .await := by
  cases h with
  | reply _ _ _ _ _ hx => simp [hx]
  | _ => simp [expecting, created, marked, ChainRequest.account]

/-- Where the handler goes on after a request: at its queue, unless the requester was gone. -/
def Concluded (said : Trace HandlerSig) : Except Error HandlerNext → Prop
  | .ok (.listen _) => ¬Abandoned said
  | .ok .finish => False
  | .error e => e = .fatal ∧ Abandoned said

/-- An order that was marked was reaped. -/
def Reaped (said : Trace HandlerSig) : Prop :=
  ∀ id order, ⟨.db (.markPaid id), .ok order⟩ ∈ said → ⟨.reap id order, ()⟩ ∈ said

/-- **How the handler ends a request.** -/
structure Handled (said : Trace HandlerSig) (result : Except Error HandlerNext) : Prop where
  concluded : Concluded said result
  answered : expecting said = false
  reaped : Reaped said

/-- No answer was given. -/
def silent (said : Trace HandlerSig) : Bool :=
  said.all fun exchange =>
    match exchange.1 with
    | .reply _ => false
    | _ => true

theorem not_abandoned_of_silent {said : Trace HandlerSig} (h : silent said = true) :
    ¬Abandoned said := by
  rintro ⟨answer, hmem⟩
  exact absurd (List.all_eq_true.mp h _ hmem) (by simp)

/-- No answer was given, and no order marked. -/
def plain (said : Trace HandlerSig) : Bool :=
  silent said && said.all fun exchange =>
    match exchange with
    | ⟨.db (.markPaid _), .ok _⟩ => false
    | _ => true

theorem reaped_of_plain {said : Trace HandlerSig} (h : plain said = true) : Reaped said := by
  intro id order hmem
  rw [plain, Bool.and_eq_true] at h
  exact absurd (List.all_eq_true.mp h.2 _ hmem) (by simp)

theorem Reaped.append {said said' : Trace HandlerSig} (h : Reaped said) (h' : Reaped said') :
    Reaped (said ++ said') := by
  intro id order hmem
  rcases List.mem_append.mp hmem with hmem | hmem
  · exact List.mem_append_left _ (h id order hmem)
  · exact List.mem_append_right _ (h' id order hmem)

theorem reaped_reply (answer : HandlerReply) (taken : Bool) :
    Reaped [⟨.reply answer, taken⟩] := by
  intro id order hmem
  cases congrArg Sigma.fst (List.mem_singleton.mp hmem)

theorem reaped_marked (id : String) (order : OrderInfo) : Reaped (marked id order) := by
  intro id' order' hmem
  rcases List.mem_cons.mp hmem with hmem | hmem
  · cases hmem
    exact List.mem_cons_of_mem _ (List.mem_singleton_self _)
  · cases congrArg Sigma.fst (List.mem_singleton.mp hmem)

theorem abandoned_append {said said' : Trace HandlerSig} :
    Abandoned (said ++ said') ↔ Abandoned said ∨ Abandoned said' := by
  simp only [Abandoned, List.mem_append, exists_or]

theorem not_abandoned_reply {said : Trace HandlerSig} (h : ¬Abandoned said)
    (answer : HandlerReply) : ¬Abandoned (said ++ [⟨.reply answer, true⟩]) := by
  rw [abandoned_append, not_or]
  refine ⟨h, fun ⟨reply, hmem⟩ => ?_⟩
  obtain ⟨hreply, hfalse⟩ := Sigma.mk.inj (List.mem_singleton.mp hmem)
  cases hreply
  exact Bool.false_ne_true (eq_of_heq hfalse)

section Rules

variable {α β : Type} {pre : Trace HandlerSig → HandlerOp → Prop} {said : Trace HandlerSig}

theorem holds_perform_run (o : HandlerOp)
    {post : Trace HandlerSig → Except Error (HandlerSig.Answer o) → Prop} :
    Prog.Holds pre post said (Handling.perform o).run ↔
      pre said o ∧ ∀ answer, post (said ++ [⟨o, answer⟩]) (.ok answer) := Iff.rfl

theorem holds_db (request : DbRequest)
    {post : Trace HandlerSig → Except Error request.Reply → Prop} :
    Prog.Holds pre post said (Handling.db request).run ↔
      pre said (.db request) ∧ ∀ answer : Except DbError request.Reply,
        post (said ++ [⟨.db request, answer⟩]) (answer.mapError Error.db) := Iff.rfl

theorem holds_publicKey (id : String) (ss58 : UInt16)
    {post : Trace HandlerSig → Except Error String → Prop} :
    Prog.Holds pre post said (Handling.publicKey id ss58).run ↔
      pre said (.publicKey id ss58) ∧ ∀ answer : Except SignerError String,
        post (said ++ [⟨.publicKey id ss58, answer⟩]) (answer.mapError Error.signer) := Iff.rfl

theorem holds_result (p : Handling α)
    {post : Trace HandlerSig → Except Error (Except Error α) → Prop} :
    Prog.Holds pre post said p.result.run ↔
      Prog.Holds pre (fun said result => post said (.ok result)) said p.run := by
  rw [Handling.result, ExceptT.run_lift, map_eq_pure_bind, Prog.holds_bind]
  rfl

theorem holds_reply (answer : HandlerReply) {post : Trace HandlerSig → Except Error Unit → Prop} :
    Prog.Holds pre post said (reply answer).run ↔
      pre said (.reply answer) ∧ post (said ++ [⟨.reply answer, true⟩]) (.ok ()) ∧
        post (said ++ [⟨.reply answer, false⟩]) (.error .fatal) := by
  rw [reply, Prog.holds_run_bind, holds_perform_run]
  refine and_congr_right fun _ => ⟨fun h => ⟨h true, h false⟩, fun h answer => ?_⟩
  cases answer
  · exact h.2
  · exact h.1

theorem holds_handlerSend (request : ChainRequest)
    {post : Trace HandlerSig → Except Error Bool → Prop} :
    Prog.Holds pre post said (handlerPort.send request).run ↔
      pre said (.send request) ∧ ∀ taken : Bool,
        post (said ++ [⟨.send request, taken⟩]) (.ok taken) := Iff.rfl

/-- A call of the chain manager. -/
theorem holds_callManager {request : WatchAccount → ChainRequest} {id : String}
    {order : OrderInfo} {recipient : AccountId32}
    {post : Trace HandlerSig → Except Error (Except ChainError Unit) → Prop}
    (hnew : ∀ e, WatchAccount.new lib id order recipient .stateHandler = .error e →
      post said (.ok (.error e)))
    (hsend : ∀ w, WatchAccount.new lib id order recipient .stateHandler = .ok w →
      pre said (.send (request w)) ∧
      post (said ++ [⟨.send (request w), false⟩]) (.ok (.error .messageDropped)) ∧
      pre (said ++ [⟨.send (request w), true⟩]) .await ∧
      ∀ answer : Except ChainError Unit,
        post (said ++ [⟨.send (request w), true⟩] ++ [⟨.await, answer⟩]) (.ok answer)) :
    Prog.Holds pre post said (callManager lib handlerPort request id order recipient).run := by
  unfold callManager
  cases hw : WatchAccount.new lib id order recipient handlerPort.res with
  | error e => exact hnew e hw
  | ok w =>
    obtain ⟨h₁, h₂, h₃, h₄⟩ := hsend w hw
    simp only
    rw [Prog.holds_run_bind, holds_handlerSend]
    refine ⟨h₁, fun taken => ?_⟩
    cases taken with
    | false => exact h₂
    | true => exact ⟨h₃, h₄⟩

end Rules

/-! ## Requests -/

section Requests

variable {state : StateData}

theorem abandoned_snoc (said : Trace HandlerSig) (answer : HandlerReply) :
    Abandoned (said ++ [⟨.reply answer, false⟩]) :=
  ⟨answer, List.mem_append_right _ (List.mem_singleton_self _)⟩

/-- What is left of a request once its result is known: sending it on. -/
structure Replies (lib : Libraries) (state : StateData) (request : StateAccessRequest) {α : Type}
    (answer : Except Error α → HandlerReply) (said : Trace HandlerSig)
    (result : Except Error α) : Prop where
  handles : Handles lib state request said (.reply (answer result))
  present : ¬Abandoned said
  reaped : Reaped said

theorem not_abandoned_of_plain {said : Trace HandlerSig} (h : plain said = true) :
    ¬Abandoned said := by
  rw [plain, Bool.and_eq_true] at h
  exact not_abandoned_of_silent h.1

theorem replies_other {request : StateAccessRequest} {α : Type}
    {answer : Except Error α → HandlerReply} {said : Trace HandlerSig} {result : Except Error α}
    (h : (answer result).accepted = none) (hs : plain said = true) (hx : expecting said = false) :
    Replies lib state request answer said result where
  handles := .reply _ _ _ h (not_abandoned_of_plain hs) hx
  present := not_abandoned_of_plain hs
  reaped := reaped_of_plain hs

theorem expecting_reply (said : Trace HandlerSig) (answer : HandlerReply) (taken : Bool) :
    expecting (said ++ [⟨.reply answer, taken⟩]) = false := by
  simp [expecting]

/-- Answering at the end of a request. -/
theorem handled_reply {request : StateAccessRequest} {said : Trace HandlerSig}
    {answer : HandlerReply} (h : Handles lib state request said (.reply answer))
    (hs : ¬Abandoned said) (hr : Reaped said) (state' : StateData) :
    Prog.Holds (Handles lib state request) Handled said
      ((do reply answer; return state') >>=
        fun state' => pure (HandlerNext.listen state')).run := by
  rw [bind_assoc, Prog.holds_run_bind, holds_reply]
  refine ⟨h, ⟨not_abandoned_reply hs answer, expecting_reply .., ?_⟩,
    ⟨⟨rfl, abandoned_snoc said answer⟩, expecting_reply .., ?_⟩⟩
  · exact hr.append (reaped_reply answer true)
  · exact hr.append (reaped_reply answer false)

theorem Replies.handled {request : StateAccessRequest} {α : Type}
    {answer : Except Error α → HandlerReply} {said : Trace HandlerSig} {result : Except Error α}
    (h : Replies lib state request answer said result) (state' : StateData) :
    Prog.Holds (Handles lib state request) Handled said
      ((do reply (answer result); return state') >>=
        fun state' => pure (HandlerNext.listen state')).run :=
  handled_reply h.handles h.present h.reaped state'

theorem createInvoice_spec (query : OrderQuery) :
    Prog.Holds (Handles lib state (.createInvoice query))
      (Replies lib state (.createInvoice query) .createInvoice) []
      (createInvoice lib state query).run := by
  unfold createInvoice
  cases hp : state.currencies.lookup query.currency with
  | none => exact replies_other rfl rfl rfl
  | some properties =>
    simp only
    rw [Prog.holds_run_bind, holds_publicKey]
    refine ⟨.publicKey query properties, fun answer => ?_⟩
    cases answer with
    | error e => exact replies_other rfl rfl rfl
    | ok payment_account =>
      simp only [Except.mapError]
      rw [Prog.holds_run_bind, holds_db]
      refine ⟨.createOrder query properties payment_account hp, fun answer => ?_⟩
      match answer with
      | .error e => exact replies_other rfl rfl rfl
      | .ok (.collision info) => exact replies_other rfl rfl rfl
      | .ok (.modified info) =>
        have hplain : plain (created query (properties.info query.currency) payment_account
            (.modified info)) = true := rfl
        exact ⟨.replyModified query properties payment_account info,
          not_abandoned_of_plain hplain, reaped_of_plain hplain⟩
      | .ok (.new info) =>
        simp only [Except.mapError]
        rw [Prog.holds_run_bind, addInvoice]
        refine holds_callManager (fun e _ => replies_other rfl rfl rfl) fun w hw =>
          ⟨.watch query properties payment_account info w hw, replies_other rfl rfl rfl,
            .awaitWatch query properties payment_account info w hw, fun answer => ?_⟩
        match answer with
        | .error e => exact replies_other rfl rfl rfl
        | .ok () =>
          have hplain : plain (created query (properties.info query.currency) payment_account
              (.new info) ++ [⟨.send (.watchAccount w), true⟩, ⟨.await, .ok ()⟩]) = true := rfl
          exact ⟨.replyNew query properties payment_account info w hw,
            not_abandoned_of_plain hplain, reaped_of_plain hplain⟩

theorem getInvoiceStatus_spec (order : String) :
    Prog.Holds (Handles lib state (.getInvoiceStatus order))
      (Replies lib state (.getInvoiceStatus order) .invoiceStatus) []
      (getInvoiceStatus lib state order).run := by
  rw [getInvoiceStatus, Prog.holds_run_bind, holds_db]
  refine ⟨.readOrder order, fun answer => ?_⟩
  match answer with
  | .error e => exact replies_other rfl rfl rfl
  | .ok none => exact replies_other rfl rfl rfl
  | .ok (some info) => exact replies_other rfl rfl rfl

/-- The end of a request in which nothing was answered. -/
theorem handled_silent {said : Trace HandlerSig} (hs : silent said = true)
    (hx : expecting said = false) (hr : Reaped said) (state' : StateData) :
    Handled said (.ok (.listen state')) where
  concluded := not_abandoned_of_silent hs
  answered := hx
  reaped := hr

/-- What follows the call of `reap`. -/
theorem handled_reap (id : String) (order : OrderInfo) (rest : Trace HandlerSig)
    (hrest : plain rest = true) (hx : expecting (marked id order ++ rest) = false)
    (state' : StateData) : Handled (marked id order ++ rest) (.ok (.listen state')) := by
  refine handled_silent ?_ hx ((reaped_marked id order).append (reaped_of_plain hrest)) state'
  rw [plain, Bool.and_eq_true] at hrest
  exact hrest.1

/-- **The handler does nothing else, and goes on unless a requester was gone.** -/
theorem handle_spec (request : StateAccessRequest) :
    Prog.Holds (Handles lib state request) Handled []
      (handle lib state request >>= fun state => pure (HandlerNext.listen state)).run := by
  have hnil : ¬Abandoned [] := not_abandoned_of_silent rfl
  have hreaped : Reaped [] := reaped_of_plain rfl
  cases request with
  | connectChain assets => exact handled_silent rfl rfl (reaped_of_plain rfl) _
  | isCurrencySupported currency =>
    exact handled_reply (.reply _ _ _ rfl hnil rfl) hnil hreaped state
  | serverStatus => exact handled_reply (.reply _ _ _ rfl hnil rfl) hnil hreaped state
  | getInvoiceStatus order =>
    rw [handle, bind_assoc, Prog.holds_run_bind, holds_result]
    exact (getInvoiceStatus_spec order).mono (fun _ _ h => h) fun _ _ h => h.handled state
  | createInvoice query =>
    rw [handle, bind_assoc, Prog.holds_run_bind, holds_result]
    exact (createInvoice_spec query).mono (fun _ _ h => h) fun _ _ h => h.handled state
  | orderPaid id =>
    rw [handle, bind_assoc, Prog.holds_run_bind, holds_result, holds_db]
    refine ⟨.markPaid id, fun answer => ?_⟩
    match answer with
    | .error e => exact handled_silent rfl rfl (reaped_of_plain rfl) _
    | .ok order =>
      simp only [Except.mapError]
      rw [bind_assoc, Prog.holds_run_bind, reap, Prog.holds_run_bind]
      refine ⟨.callReap id order, fun _ => ?_⟩
      refine holds_callManager (fun _ _ => ?_) fun w hw => ⟨.reap id order w hw, ?_,
        .awaitReap id order w hw, fun answer => ?_⟩
      · exact handled_reap id order [] rfl rfl state
      · exact handled_reap id order [⟨.send (.reap w), false⟩] rfl rfl state
      · exact handled_reap id order [⟨.send (.reap w), true⟩, ⟨.await, answer⟩] rfl rfl state

end Requests

/-! ## Start and shutdown -/

/-- What the handler does before its loop. -/
inductive Starts : Trace HandlerSig → HandlerOp → Prop
  | chainManager : Starts [] .chainManager
  | orderList : Starts [⟨.chainManager, true⟩] (.db .activeOrderList)
  | spawnRestore (order_list : List (String × OrderInfo)) :
      Starts [⟨.chainManager, true⟩, ⟨.db .activeOrderList, .ok order_list⟩]
        (.spawnRestore order_list)

/-- The conversation of a start that leads to the loop. -/
def startUpSaid (order_list : List (String × OrderInfo)) : Trace HandlerSig :=
  [⟨.chainManager, true⟩, ⟨.db .activeOrderList, .ok order_list⟩, ⟨.spawnRestore order_list, ()⟩]

/-- How the start ends: with the loop, or with an error before the restoring task is spawned. -/
def Started (state : StateData) (said : Trace HandlerSig) : Except Error HandlerNext → Prop
  | .ok (.listen state') => state' = state ∧ ∃ order_list, said = startUpSaid order_list
  | .ok .finish => False
  | .error _ => said.length < 3 ∧ silent said = true ∧ expecting said = false

theorem startUp_spec (state : StateData) :
    Prog.Holds Starts (Started state) []
      (startUp >>= fun _ => pure (HandlerNext.listen state)).run := by
  rw [startUp, bind_assoc, Prog.holds_run_bind, holds_perform_run]
  refine ⟨.chainManager, fun taken => ?_⟩
  cases taken with
  | false => exact ⟨by decide, rfl, rfl⟩
  | true =>
    simp only [↓reduceIte]
    rw [bind_assoc, Prog.holds_run_bind, holds_db]
    refine ⟨.orderList, fun answer => ?_⟩
    match answer with
    | .error e => exact ⟨by simp, rfl, rfl⟩
    | .ok order_list => exact ⟨.spawnRestore order_list, fun _ => ⟨rfl, order_list, rfl⟩⟩

/-- The conversation of the shutdown. -/
def shutDownSaid : Trace HandlerSig :=
  [⟨.send .shutdown, true⟩, ⟨.awaitShutdown, ()⟩, ⟨.dbShutdown, ()⟩, ⟨.signerShutdown, ()⟩]

/-- What the handler does in its shutdown: the next of its operations, or a wait without end where
the chain manager is gone. -/
inductive Winds (said : Trace HandlerSig) (o : HandlerOp) : Prop
  | next (answer : HandlerSig.Answer o) (rest : Trace HandlerSig)
      (h : said ++ ⟨o, answer⟩ :: rest = shutDownSaid)
  | hangs (hsaid : said = [⟨.send .shutdown, false⟩]) (ho : o = .awaitRefused)

/-- How the shutdown ends: after all of its operations, with the task. -/
def Wound (said : Trace HandlerSig) (result : Except Error HandlerNext) : Prop :=
  result = .ok .finish ∧ said = shutDownSaid

theorem shutDown_spec :
    Prog.Holds Winds Wound [] (shutDown >>= fun _ => pure HandlerNext.finish).run := by
  rw [shutDown, bind_assoc, Prog.holds_run_bind, managerShutdown, Prog.holds_run_bind,
    holds_perform_run]
  refine ⟨.next true _ rfl, fun taken => ?_⟩
  cases taken with
  | true =>
    exact ⟨.next () _ rfl, fun _ => ⟨.next () _ rfl, fun _ => ⟨.next () _ rfl, fun _ =>
      ⟨rfl, rfl⟩⟩⟩⟩
  | false => exact ⟨.hangs rfl rfl, fun never => Empty.elim never⟩

theorem exists_mem_of_expecting {said : Trace HandlerSig} (h : expecting said = true) :
    ∃ request, request.account.isSome ∧ ⟨.send request, true⟩ ∈ said := by
  unfold expecting at h
  split at h
  · rename_i request hlast
    exact ⟨request, h, List.mem_of_getLast? hlast⟩
  · cases h

/-- No answer is waited for before the loop. -/
theorem Starts.not_expecting {said : Trace HandlerSig} {o : HandlerOp} (h : Starts said o) :
    expecting said = false := by
  cases h with
  | chainManager | orderList | spawnRestore => rfl

theorem Started.not_expecting {state : StateData} {said : Trace HandlerSig}
    {result : Except Error HandlerNext} (h : Started state said result) :
    expecting said = false := by
  match result with
  | .ok (.listen _) =>
    obtain ⟨-, order_list, rfl⟩ := h
    rfl
  | .ok .finish => exact h.elim
  | .error _ => exact h.2.2

/-- The shutdown sends no request that is answered. -/
theorem not_expecting_of_prefix {said : Trace HandlerSig} (h : said <+: shutDownSaid) :
    expecting said = false := by
  rw [← Bool.not_eq_true]
  intro hx
  obtain ⟨request, haccount, hmem⟩ := exists_mem_of_expecting hx
  have hmem' := h.subset hmem
  simp only [shutDownSaid, List.mem_cons, List.not_mem_nil, or_false] at hmem'
  grind [ChainRequest.account]

theorem Wound.not_expecting {said : Trace HandlerSig} {result : Except Error HandlerNext}
    (h : Wound said result) : expecting said = false := by
  obtain ⟨-, rfl⟩ := h
  exact not_expecting_of_prefix (List.prefix_refl _)

theorem Winds.not_expecting {said : Trace HandlerSig} {o : HandlerOp} (h : Winds said o) :
    expecting said = false := by
  cases h with
  | next answer rest h => exact not_expecting_of_prefix ⟨⟨o, answer⟩ :: rest, h⟩
  | hangs hsaid => subst hsaid; rfl

/-- The operations of the shutdown. -/
theorem Winds.op {said : Trace HandlerSig} {o : HandlerOp} (h : Winds said o) :
    o = .send .shutdown ∨ o = .awaitShutdown ∨ o = .awaitRefused ∨ o = .dbShutdown ∨
      o = .signerShutdown := by
  cases h with
  | hangs _ ho => exact .inr (.inr (.inl ho))
  | next answer rest h =>
    have hmem : (⟨o, answer⟩ : Exchange HandlerSig) ∈ shutDownSaid := by
      rw [← h]
      exact List.mem_append_right _ List.mem_cons_self
    have hops : ∀ exchange ∈ shutDownSaid, exchange.1 = .send .shutdown ∨
        exchange.1 = .awaitShutdown ∨ exchange.1 = .awaitRefused ∨ exchange.1 = .dbShutdown ∨
        exchange.1 = .signerShutdown := by
      simp [shutDownSaid]
    exact hops _ hmem

end Kalatori
