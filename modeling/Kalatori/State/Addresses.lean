import Kalatori.Signer
import Kalatori.State.Ledger

/-!
# The address of an order

The account that an order is paid to is asked of the signer in the format of the
currency that the order names, and stored with the order.  A request that
renews a pending order stores the new currency but keeps the old account, so the
two agree as long as every such request names a currency of the same format.

The runs are those of the state handler with its database, on a tree that is
empty at the start, with a signer that answers as `Signer.serve` does or not at
all.

* `OrderCreateResponse.info`, `OrderResponse.status`: what the two kinds of answers are about.
* `Tells`: an invoice that the handler sends back is one that the database answered with.
* `Addressed`, `DaemonTurn.KeepsFormat`: the law and its condition.
* `addressed`: the law holds in every run whose turns meet the condition.
-/

namespace Kalatori

open Program Transition

variable {lib : Libraries} {account_lifetime : Timestamp} {keys : Keys} {signer : Signer keys}

/-- The record that an answer of the database shows. -/
def OrderCreateResponse.info : OrderCreateResponse → OrderInfo
  | .new info | .modified info | .collision info => info

/-- The order that an answer to a requester shows. -/
def OrderResponse.status : OrderResponse → Option OrderStatus
  | .newOrder status | .foundOrder status | .modifiedOrder status | .collidedOrder status =>
    some status
  | .notFound => none

/-! ## What the handler sends back -/

/-- An invoice that is sent back is one that the database answered with. -/
def Tells (said : Trace HandlerSig) (o : HandlerOp) : Prop :=
  ∀ response status, o = .reply (.createInvoice (.ok response)) → response.status = some status →
    ∃ query currency payment_account answer,
      ⟨.db (.createOrder status.order query currency payment_account), .ok answer⟩ ∈ said ∧
        status.order_info = answer.info

/-- The result of `create_invoice` is. -/
def Shown (said : Trace HandlerSig) (result : Except Error OrderResponse) : Prop :=
  Tells said (.reply (.createInvoice result))

theorem tells_of_ne {said : Trace HandlerSig} {o : HandlerOp}
    (h : ∀ response, o ≠ .reply (.createInvoice (.ok response))) : Tells said o :=
  fun response _ ho => absurd ho (h response)

theorem shown_error (said : Trace HandlerSig) (e : Error) : Shown said (.error e) :=
  tells_of_ne fun _ h => by cases h

/-- A call of the chain manager tells no invoice. -/
theorem tells_callManager {request : WatchAccount → ChainRequest} {id : String}
    {order : OrderInfo} {recipient : AccountId32}
    {post : Trace HandlerSig → Except Error (Except ChainError Unit) → Prop}
    {said : Trace HandlerSig} (hpost : ∀ seg answer, post (said ++ seg) (.ok answer)) :
    Prog.Holds Tells post said (callManager lib handlerPort request id order recipient).run := by
  have hop : ∀ said (o : HandlerOp), (∀ answer, o ≠ .reply answer) → Tells said o :=
    fun _ _ ho => tells_of_ne fun _ => ho _
  refine holds_callManager (fun e _ => ?_) fun w _ => ⟨?_, ?_, ?_, fun answer => ?_⟩
  · simpa using hpost [] (.error e)
  · exact hop _ _ fun _ h => nomatch h
  · exact hpost _ _
  · exact hop _ _ fun _ h => nomatch h
  · rw [List.append_assoc]
    exact hpost _ _

theorem createInvoice_shown (state : StateData) (query : OrderQuery) :
    Prog.Holds Tells Shown [] (createInvoice lib state query).run := by
  unfold createInvoice
  cases hp : state.currencies.lookup query.currency with
  | none => exact shown_error _ _
  | some properties =>
    simp only
    rw [Prog.holds_run_bind, holds_publicKey]
    refine ⟨tells_of_ne fun _ h => (by cases h), fun answer => ?_⟩
    cases answer with
    | error e => exact shown_error _ _
    | ok payment_account =>
      simp only [Except.mapError]
      rw [Prog.holds_run_bind, holds_db]
      refine ⟨tells_of_ne fun _ h => (by cases h), fun answer => ?_⟩
      -- Whatever kind of answer it is, its record is in the conversation from here on.
      have hshown : ∀ (answer : OrderCreateResponse) (status : OrderStatus) seg,
          status.order = query.order → status.order_info = answer.info →
          ∃ query' currency payment_account' answer',
            ⟨.db (.createOrder status.order query' currency payment_account'), .ok answer'⟩ ∈
              (created query (properties.info query.currency) payment_account answer ++ seg :
                Trace HandlerSig) ∧ status.order_info = answer'.info := by
        intro answer status seg horder hinfo
        rw [horder]
        exact ⟨_, _, _, answer,
          List.mem_append_left _ (List.mem_cons_of_mem _ (List.mem_singleton_self _)), hinfo⟩
      cases answer with
      | error e => exact shown_error _ _
      | ok answer =>
        cases answer with
        | collision info =>
          rintro response status ⟨⟩ ⟨⟩
          have hmem := hshown (.collision info) (state.orderStatus lib query.order info
            "Order with this ID was already processed") [] rfl rfl
          rwa [List.append_nil] at hmem
        | modified info =>
          rintro response status ⟨⟩ ⟨⟩
          have hmem :=
            hshown (.modified info) (state.orderStatus lib query.order info "") [] rfl rfl
          rwa [List.append_nil] at hmem
        | new info =>
          simp only [Except.mapError]
          rw [Prog.holds_run_bind, addInvoice]
          refine tells_callManager fun seg answer => ?_
          cases answer with
          | error e => exact shown_error _ _
          | ok =>
            rintro response status ⟨⟩ ⟨⟩
            exact hshown (.new info) _ seg rfl rfl

/-- Answering at the end of a request. -/
theorem tells_reply {said : Trace HandlerSig} {answer : HandlerReply}
    (h : Tells said (.reply answer)) (state : StateData) :
    Prog.Holds Tells (fun _ _ => True) said
      ((do reply answer; return state) >>= fun state => pure (HandlerNext.listen state)).run := by
  rw [bind_assoc, Prog.holds_run_bind, holds_reply]
  exact ⟨h, trivial, trivial⟩

theorem handle_tells (state : StateData) (request : StateAccessRequest) :
    Prog.Holds Tells (fun _ _ => True) []
      (handle lib state request >>= fun state => pure (HandlerNext.listen state)).run := by
  have hother : ∀ said (answer : HandlerReply), (∀ result, answer ≠ .createInvoice result) →
      Tells said (.reply answer) :=
    fun said answer ho => tells_of_ne fun response h => ho _ (HandlerOp.reply.inj h)
  cases request with
  | connectChain assets => exact trivial
  | isCurrencySupported currency => exact tells_reply (hother _ _ fun _ h => by cases h) state
  | serverStatus => exact tells_reply (hother _ _ fun _ h => by cases h) state
  | getInvoiceStatus order =>
    rw [handle, bind_assoc, Prog.holds_run_bind, holds_result]
    rw [getInvoiceStatus, Prog.holds_run_bind, holds_db]
    refine ⟨tells_of_ne fun _ h => (by cases h), fun answer => ?_⟩
    cases answer with
    | error e => exact tells_reply (hother _ _ fun _ h => by cases h) state
    | ok found => cases found <;> exact tells_reply (hother _ _ fun _ h => by cases h) state
  | createInvoice query =>
    rw [handle, bind_assoc, Prog.holds_run_bind, holds_result]
    exact (createInvoice_shown state query).mono (fun _ _ h => h) fun _ _ h => tells_reply h state
  | orderPaid id =>
    rw [handle, bind_assoc, Prog.holds_run_bind, holds_result, holds_db]
    refine ⟨tells_of_ne fun _ h => (by cases h), fun answer => ?_⟩
    cases answer with
    | error e => exact trivial
    | ok order =>
      simp only [Except.mapError]
      rw [bind_assoc, Prog.holds_run_bind, reap, Prog.holds_run_bind]
      refine ⟨tells_of_ne fun _ h => (by cases h), fun _ => ?_⟩
      exact tells_callManager fun _ _ => trivial

/-- The program that the handler is in tells what the database answered. -/
def Handler.Telling (s : Handler) : Prop :=
  ∀ phase said program, s.pc = .busy phase said program →
    Prog.Holds Tells (fun _ _ => True) said program

theorem Handler.telling_start (recipient : AccountId32) (server_info : ServerInfo) :
    (Handler.start recipient server_info).Telling := by
  rintro phase said program ⟨⟩
  refine (startUp_spec _).mono (fun said o ho => tells_of_ne ?_) fun _ _ _ => trivial
  rintro response rfl
  cases ho

theorem HandlerStep.telling {s s' : Handler} {e : HandlerEvent} (hs : HandlerStep lib s e s')
    (h : s.Telling) : s'.Telling := by
  cases hs with
  | said answer hpc =>
    rintro phase said program ⟨⟩
    exact (h _ _ _ hpc).2 answer
  | @settled _ _ result hpc =>
    intro phase said program hpc'
    rcases result with _ | _ | _ <;> cases hpc'
  | received request hpc =>
    rintro phase said program ⟨⟩
    exact handle_tells s.state request
  | closed => exact fun _ _ _ hpc => nomatch hpc
  | notified =>
    rintro phase said program ⟨⟩
    refine shutDown_spec.mono (fun said o ho => tells_of_ne ?_) fun _ _ _ => trivial
    rintro response rfl
    rcases ho.op with ho | ho | ho | ho | ho <;> cases ho

/-! ## The law -/

/-- **The account of a record is the key of its order in the format of its currency.** -/
def Addressed (lib : Libraries) (signer : Signer keys) (order : String) (info : OrderInfo) : Prop :=
  ∃ pair, signer.pair lib order = .ok pair ∧
    info.payment_account = lib.toBase58String (keys.publicKey pair) info.currency.ss58

/-- Every record of a tree has such an account. -/
def AllAddressed (lib : Libraries) (signer : Signer keys) (orders : Orders) : Prop :=
  ∀ order info, record orders order = some info → Addressed lib signer order info

/-- The answer of the signer in a turn is one that it can give. -/
def DaemonTurn.Signed (lib : Libraries) (signer : Signer keys) (x : DaemonTurn) : Prop :=
  ∀ id ss58 answer, x.event = .handler (.said ⟨.publicKey id ss58, answer⟩) →
    signer.Answers lib (.publicKey id ss58) answer

/-- A turn in which a pending order is to be renewed names a currency of the same format. -/
def DaemonTurn.KeepsFormat (x : DaemonTurn) : Prop :=
  ∀ order query currency payment_account answer old,
    x.event = .handler (.said ⟨.db (.createOrder order query currency payment_account), answer⟩) →
    record x.before order = some old → old.payment_status = .pending →
    currency.ss58 = old.currency.ss58

/-- The runs that begin on an empty tree, with a signer, and whose turns meet a condition. -/
abbrev SignedRun (lib : Libraries) (signer : Signer keys) (account_lifetime : Timestamp)
    (allow : DaemonTurn → Prop) : List DaemonTurn → HandlerStore → Prop :=
  Reach (DaemonStep lib account_lifetime) (fun _ _ x => x.Signed lib signer ∧ allow x)
    fun s => ∃ server_info, s = ⟨∅, Handler.start signer.recipient server_info⟩

/-! ## The proof -/

/-- What the signer and the database said in a conversation agrees with the law. -/
structure Honest (lib : Libraries) (signer : Signer keys) (said : Trace HandlerSig) : Prop where
  publicKey : ∀ id ss58 address, ⟨.publicKey id ss58, .ok address⟩ ∈ said →
    ∃ pair, signer.pair lib id = .ok pair ∧
      address = lib.toBase58String (keys.publicKey pair) ss58
  answered : ∀ order query currency payment_account answer,
    ⟨.db (.createOrder order query currency payment_account), .ok answer⟩ ∈ said →
      Addressed lib signer order answer.info

theorem Honest.nil : Honest lib signer [] where
  publicKey := fun _ _ _ h => absurd h List.not_mem_nil
  answered := fun _ _ _ _ _ h => absurd h List.not_mem_nil

theorem Honest.snoc {said : Trace HandlerSig} {exchange : Exchange HandlerSig}
    (h : Honest lib signer said) (h' : Honest lib signer [exchange]) :
    Honest lib signer (said ++ [exchange]) where
  publicKey := fun id ss58 address hmem =>
    (List.mem_append.mp hmem).elim (h.publicKey id ss58 address) (h'.publicKey id ss58 address)
  answered := fun order query currency payment_account answer hmem =>
    (List.mem_append.mp hmem).elim (h.answered order query currency payment_account answer)
      (h'.answered order query currency payment_account answer)

/-- What a run keeps. -/
structure AddressSound (lib : Libraries) (signer : Signer keys) (h : List DaemonTurn)
    (s : HandlerStore) : Prop where
  orders : AllAddressed lib signer s.orders
  honest : ∀ phase said program, s.handler.pc = .busy phase said program → Honest lib signer said
  telling : s.handler.Telling
  sound : DaemonSound lib h s

/-- A request to the database, made by a handler that was told the truth, keeps the law; and
what it is answered with agrees with it. -/
theorem Effect.addressed {now : Timestamp} {orders orders' : Orders} {r : DbRequest}
    {answer : Except DbError r.Reply} (h : Effect account_lifetime now orders r answer orders')
    (hall : AllAddressed lib signer orders) (hr : r.attempt? = none)
    (hnew : ∀ order query currency payment_account,
      r = .createOrder order query currency payment_account →
        (∃ pair, signer.pair lib order = .ok pair ∧
          payment_account = lib.toBase58String (keys.publicKey pair) currency.ss58) ∧
        ∀ old, record orders order = some old → old.payment_status = .pending →
          currency.ss58 = old.currency.ss58) :
    AllAddressed lib signer orders' ∧ Honest lib signer [⟨.db r, answer⟩] := by
  have hinsert : ∀ order info, Addressed lib signer order info →
      AllAddressed lib signer (orders.insert (orderKey order) info.encode) := by
    intro order info hinfo order' info' hrec
    rw [record_insert] at hrec
    split_ifs at hrec with heq
    · rw [heq, ← Option.some.inj hrec]
      exact hinfo
    · exact hall order' info' hrec
  have hother : (∀ order query currency payment_account answer',
        (⟨.db r, answer⟩ : Exchange HandlerSig) ≠
          ⟨.db (.createOrder order query currency payment_account), .ok answer'⟩) →
      Honest lib signer [⟨.db r, answer⟩] := by
    intro hne
    refine ⟨fun _ _ _ hmem => ?_, fun _ _ _ _ _ hmem => ?_⟩
    · cases congrArg Sigma.fst (List.mem_singleton.mp hmem)
    · exact absurd (List.mem_singleton.mp hmem).symm (hne _ _ _ _ _)
  have hcreated : ∀ order query currency payment_account answer',
      Addressed lib signer order answer'.info →
        Honest lib signer [⟨.db (.createOrder order query currency payment_account),
          .ok answer'⟩] := by
    intro order query currency payment_account answer' hinfo
    refine ⟨fun _ _ _ hmem => ?_, fun _ _ _ _ _ hmem => ?_⟩
    · cases congrArg Sigma.fst (List.mem_singleton.mp hmem)
    · obtain ⟨hreq, hans⟩ := Sigma.mk.inj (List.mem_singleton.mp hmem)
      cases hreq
      cases hans
      exact hinfo
  cases h with
  | failed | listed | read =>
    refine ⟨hall, hother ?_⟩
    intro order query currency payment_account answer' heq
    cases heq
  | created order query currency payment_account info _ hi =>
    obtain ⟨pair, hpair, haddress⟩ := (hnew _ _ _ _ rfl).1
    have hinfo : Addressed lib signer order info := ⟨pair, hpair, by rw [hi]; exact haddress⟩
    exact ⟨hinsert _ _ hinfo, hcreated _ _ _ _ (.new info) hinfo⟩
  | modified order query currency payment_account old info hrec hp hi =>
    obtain ⟨pair, hpair, haddress⟩ := hall order old hrec
    have hss58 := (hnew _ _ _ _ rfl).2 old hrec hp
    have hinfo : Addressed lib signer order info := by
      refine ⟨pair, hpair, ?_⟩
      rw [hi]
      show old.payment_account = _
      rw [haddress, ← hss58]
      rfl
    exact ⟨hinsert _ _ hinfo, hcreated _ _ _ _ (.modified info) hinfo⟩
  | collided order query currency payment_account info hrec =>
    exact ⟨hall, hcreated _ _ _ _ (.collision info) (hall order info hrec)⟩
  | paid order old info hrec _ hi =>
    have hinfo : Addressed lib signer order info := by
      rw [hi]
      exact hall order old hrec
    refine ⟨hinsert _ _ hinfo, hother ?_⟩
    intro order query currency payment_account answer' heq
    cases congrArg Sigma.fst heq
  | withdrawn | stuck => cases hr

theorem DaemonStep.addressSound {h : List DaemonTurn} {s s' : HandlerStore} {x : DaemonTurn}
    (hs : DaemonStep lib account_lifetime s x s') (hsigned : x.Signed lib signer)
    (hkeeps : x.KeepsFormat) (hsound : DaemonSound lib (h ++ [x]) s')
    (ih : AddressSound lib signer h s) : AddressSound lib signer (h ++ [x]) s' := by
  cases hs with
  | restarted orders s recipient server_info =>
    refine ⟨ih.orders, ?_, Handler.telling_start recipient server_info, hsound⟩
    rintro phase said program ⟨⟩
    exact .nil
  | @handler orders orders' s s' e hs ho =>
    have htelling := hs.telling ih.telling
    by_cases hdb : ∃ r answer, e = .said ⟨.db r, answer⟩
    · obtain ⟨r, answer, rfl⟩ := hdb
      obtain ⟨now, heffect⟩ := ho.effect
      generalize he : HandlerEvent.said ⟨.db r, answer⟩ = e at hs
      cases hs with
      | @said phase said o k answer' hpc =>
        injection he with he
        obtain ⟨hop, hanswer⟩ := Sigma.mk.inj he
        cases hop
        cases hanswer
        obtain ⟨_, _, events, -, -, hcall⟩ := ih.sound
        obtain ⟨-, hattempt⟩ := hcall.at_db hpc
        have hnow := heffect.addressed ih.orders hattempt ?_
        · refine ⟨hnow.1, ?_, htelling, hsound⟩
          rintro phase' said' program ⟨⟩
          exact (ih.honest _ _ _ hpc).snoc hnow.2
        · rintro order query currency payment_account rfl
          refine ⟨?_, fun old hrec hp => hkeeps _ _ _ _ _ old rfl hrec hp⟩
          -- The account that is stored is the one that the signer has just named.
          obtain ⟨-, _, request, -, ho⟩ := hcall.handles hpc rfl
          cases ho with
          | createOrder query properties payment_account hp =>
            exact (ih.honest _ _ _ hpc).publicKey _ _ _ (List.mem_singleton_self _)
      | settled | received | closed | notified => cases he
    · obtain rfl : orders' = orders := ho.other_eq fun r answer he => hdb ⟨r, answer, he⟩
      refine ⟨ih.orders, ?_, htelling, hsound⟩
      cases hs with
      | @said phase said o k answer hpc =>
        rintro phase' said' program ⟨⟩
        refine (ih.honest _ _ _ hpc).snoc ⟨fun id ss58 address hmem => ?_,
          fun order query currency payment_account answer' hmem => ?_⟩
        · exact (hsigned id ss58 (.ok address)
            (by rw [List.mem_singleton.mp hmem])).publicKey
        · exact absurd ⟨_, _, congrArg HandlerEvent.said (List.mem_singleton.mp hmem).symm⟩ hdb
      | @settled _ _ result hpc =>
        intro phase said program hpc'
        rcases result with _ | _ | _ <;> cases hpc'
      | received | notified =>
        rintro phase said program ⟨⟩
        exact .nil
      | closed => exact fun _ _ _ hpc => nomatch hpc

/-- Such a run is one of the handler on its database. -/
theorem SignedRun.daemonRun {allow : DaemonTurn → Prop} {h : List DaemonTurn} {s : HandlerStore}
    (run : SignedRun lib signer account_lifetime allow h s) : DaemonRun lib account_lifetime h s :=
  run.weaken.widen fun _ ⟨server_info, hs⟩ => ⟨signer.recipient, server_info, by rw [hs]⟩

theorem SignedRun.addressSound {h : List DaemonTurn} {s : HandlerStore}
    (run : SignedRun lib signer account_lifetime DaemonTurn.KeepsFormat h s) :
    AddressSound lib signer h s := by
  refine run.invariant (P := AddressSound lib signer) ?_ ?_
  · rintro s ⟨server_info, rfl⟩
    refine ⟨fun order info hrec => ?_, ?_, Handler.telling_start _ _, ?_⟩
    · simp [record, recordAt] at hrec
    · rintro phase said program ⟨⟩
      exact .nil
    · exact ⟨[], [], [], rfl, rfl, Handler.sound_start⟩
  · intro h s x s' run ih hallow hs
    have hnext : SignedRun lib signer account_lifetime DaemonTurn.KeepsFormat (h ++ [x]) s' :=
      .next run hallow hs
    exact hs.addressSound hallow.1 hallow.2 (DaemonRun.sound hnext.daemonRun) ih

/-- **The address that is shown is that of the order's key, in the format of its currency**, in
the tree and in every answer to a request for an invoice. -/
structure AddressesRight (lib : Libraries) (signer : Signer keys) (h : List DaemonTurn)
    (s : HandlerStore) : Prop where
  stored : AllAddressed lib signer s.orders
  shown : ∀ x ∈ h, ∀ response taken status,
    x.event = .handler (.said ⟨.reply (.createInvoice (.ok response)), taken⟩) →
    response.status = some status → Addressed lib signer status.order status.order_info

theorem addressesRight {h : List DaemonTurn} {s : HandlerStore}
    (run : SignedRun lib signer account_lifetime DaemonTurn.KeepsFormat h s) :
    AddressesRight lib signer h s where
  stored := run.addressSound.orders
  shown := by
    intro x hx response taken status hevent hstatus
    obtain ⟨h₁, h₂, rfl⟩ := List.append_of_mem hx
    obtain ⟨s₁, s₂, run₁, -, hs⟩ := run.split
    obtain ⟨phase, said, k, hpc, -, -⟩ := hs.said hevent
    have hsound := SignedRun.addressSound run₁
    obtain ⟨query, currency, payment_account, answer, hmem, hinfo⟩ :=
      (hsound.telling _ _ _ hpc).1 response status rfl hstatus
    rw [hinfo]
    exact (hsound.honest _ _ _ hpc).answered _ _ _ _ _ hmem

/-! ## Two orders -/

namespace Sample

/-- Two currencies of one format, and a third of another. -/
def currencies : HashMap String CurrencyProperties :=
  ((AList.singleton "DOT" ⟨"polkadot", .native, 10, "wss://node", none, 0⟩).insert "USDC"
    ⟨"statemint", .asset, 6, "wss://node", some 1337, 0⟩).insert "WND"
    ⟨"westend", .native, 12, "wss://node", none, 42⟩

/-- The surroundings of `calm`, with the signer. -/
def truthful : ∀ o : HandlerOp, Option (HandlerSig.Answer o)
  | .publicKey id ss58 => some (Sample.signer.serve libraries (.publicKey id ss58))
  | o => calm true o

/-- The handler gets so many answers. -/
def truthfulAnswers (n : ℕ) : List DaemonAction := List.replicate n (.handler (.answer truthful))

/-- An order is placed, up to the answer of the database. -/
def placed (currency : String) : List DaemonAction :=
  [.handler (.receive (.createInvoice ⟨"order", ⟨0x3e112e0be826d695⟩, "", currency⟩))] ++
    truthfulAnswers 1 ++ [.serve (.calm 0)]

/-- An order is placed, and then placed again for a currency. -/
def placedTwice (currency : String) : List DaemonAction :=
  started ++ [.handler (.receive (.connectChain currencies)), .handler .settle] ++
    placed "DOT" ++ truthfulAnswers 3 ++ [.handler .settle] ++
    placed currency ++ truthfulAnswers 1 ++ [.handler .settle]

end Sample

/-- Whether a turn is one that the sample signer takes part in truthfully. -/
def DaemonTurn.checkSigned (x : DaemonTurn) : Bool :=
  match x.event with
  | .handler (.said ⟨.publicKey id ss58, answer⟩) =>
    match answer with
    | .ok address =>
      match Sample.signer.serve Sample.libraries (.publicKey id ss58) with
      | .ok served => address = served
      | .error _ => false
    | .error e => e = .signerDown
  | _ => true

theorem DaemonTurn.signed_of_check {x : DaemonTurn} (h : x.checkSigned = true) :
    x.Signed Sample.libraries Sample.signer := by
  intro id ss58 answer hevent
  rw [checkSigned, hevent] at h
  cases answer with
  | error e => exact .inr (congrArg Except.error (of_decide_eq_true h))
  | ok address => exact .inl (congrArg Except.ok (of_decide_eq_true h))

/-- Whether a turn names a currency of the same format. -/
def DaemonTurn.checkFormat (x : DaemonTurn) : Bool :=
  match x.event with
  | .handler (.said ⟨.db (.createOrder order _ currency _), _⟩) =>
    match record x.before order with
    | some old => currency.ss58 = old.currency.ss58
    | none => true
  | _ => true

theorem DaemonTurn.keepsFormat_of_check {x : DaemonTurn} (h : x.checkFormat = true) :
    x.KeepsFormat := by
  intro order query currency payment_account answer old hevent hrec _
  rw [checkFormat, hevent] at h
  simp only [hrec] at h
  exact of_decide_eq_true h

/-- Whether a request for a new order was answered as one that renewed an order. -/
def shownModified (h : List DaemonTurn) : Bool :=
  h.any fun x =>
    match x.event with
    | .handler (.said ⟨.reply (.createInvoice (.ok (.modifiedOrder _))), _⟩) => true
    | _ => false

/-- An order that is renewed for another currency of the same format. -/
theorem addressesRight_sameFormat : ∃ h s,
    SignedRun Sample.libraries Sample.signer 0 DaemonTurn.KeepsFormat h s ∧
      shownModified h = true ∧ AddressesRight Sample.libraries Sample.signer h s := by
  obtain ⟨h, s, run, hp⟩ := exists_reach_of_replay (HandlerStore.exec_sound Sample.libraries 0)
    (fun s => ∃ server_info, s = ⟨∅, Handler.start Sample.signer.recipient server_info⟩)
    ⟨Sample.serverInfo, rfl⟩ (Sample.placedTwice "USDC")
    (p := fun q => q.1.all (fun x => x.checkSigned && x.checkFormat) && shownModified q.1)
    (by decide +kernel)
  rw [Bool.and_eq_true] at hp
  have hrun : SignedRun Sample.libraries Sample.signer 0 DaemonTurn.KeepsFormat h s := by
    refine run.strengthen fun x hx => ?_
    have hcheck := List.all_eq_true.mp hp.1 x hx
    rw [Bool.and_eq_true] at hcheck
    exact ⟨DaemonTurn.signed_of_check hcheck.1, DaemonTurn.keepsFormat_of_check hcheck.2⟩
  exact ⟨h, s, hrun, hp.2, addressesRight hrun⟩

/-- **An order that is renewed for a currency of another format** keeps an address in the format
of the old one. -/
theorem renewed_order_misaddressed : ∃ h s,
    SignedRun Sample.libraries Sample.signer 0 (fun _ => True) h s ∧
      ¬AddressesRight Sample.libraries Sample.signer h s := by
  obtain ⟨h, s, run, hp⟩ := exists_reach_of_replay (HandlerStore.exec_sound Sample.libraries 0)
    (fun s => ∃ server_info, s = ⟨∅, Handler.start Sample.signer.recipient server_info⟩)
    ⟨Sample.serverInfo, rfl⟩ (Sample.placedTwice "WND")
    (p := fun q => q.1.all DaemonTurn.checkSigned &&
      (match record q.2.orders "order" with
      | some info =>
        info.payment_account = "111111111111111111111111111111111HC1" && info.currency.ss58 = 42
      | none => false))
    (by decide +kernel)
  rw [Bool.and_eq_true] at hp
  refine ⟨h, s, run.strengthen fun x hx =>
    ⟨DaemonTurn.signed_of_check (List.all_eq_true.mp hp.1 x hx), trivial⟩, fun hright => ?_⟩
  have hrecord := hp.2
  split at hrecord
  · rename_i info hrec
    obtain ⟨pair, -, haddress⟩ := hright.stored "order" info hrec
    rw [Bool.and_eq_true, decide_eq_true_eq, decide_eq_true_eq] at hrecord
    rw [hrecord.1, hrecord.2] at haddress
    simp [Sample.libraries] at haddress
  · cases hrecord

end Kalatori
