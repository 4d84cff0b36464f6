import Kalatori.State.Creation

/-!
# What a request is answered with

The handler answers a request at the end of what it does for it, and no sooner.
`Ends` lists the answers with the conversations that they come after, and
`handle_serves` says that there are no others: whoever waits for an answer gets
one of the kind that belongs to its request.

The currencies of the handler change with the requests that connect a chain, and
then there are only more of them.

* `Ends`: the answers.
* `Serving`, `handle_serves`: the handler in the middle of a request.
* `Leaves`: the data that it has afterwards.
-/

namespace Kalatori

open Program

variable {lib : Libraries} {state : StateData}

/-- **The answers to requests**, after what was said. -/
inductive Ends (lib : Libraries) (state : StateData) :
    StateAccessRequest → Trace HandlerSig → HandlerReply → Prop
  | createInvoice {query : OrderQuery} {said : Trace HandlerSig}
      {answer : Except Error OrderResponse} (h : CreationEnds lib state query said answer) :
      Ends lib state (.createInvoice query) said (.createInvoice answer)
  | found (order : String) (info : OrderInfo) :
      Ends lib state (.getInvoiceStatus order) [⟨.db (.readOrder order), .ok (some info)⟩]
        (.invoiceStatus (.ok (.foundOrder (state.orderStatus lib order info ""))))
  | notFound (order : String) :
      Ends lib state (.getInvoiceStatus order) [⟨.db (.readOrder order), .ok none⟩]
        (.invoiceStatus (.ok .notFound))
  | unread (order : String) (e : DbError) :
      Ends lib state (.getInvoiceStatus order) [⟨.db (.readOrder order), .error e⟩]
        (.invoiceStatus (.error (.db e)))
  | supported (currency : String) :
      Ends lib state (.isCurrencySupported currency) []
        (.isCurrencySupported (state.currencies.lookup currency).isSome)
  | status : Ends lib state .serverStatus [] (.serverStatus ⟨state.server_info, state.currencies⟩)

/-- Nothing was answered before an operation, and an answer is one of those listed. -/
structure Serving (lib : Libraries) (state : StateData) (request : StateAccessRequest)
    (said : Trace HandlerSig) (o : HandlerOp) : Prop where
  handles : Handles lib state request said o
  silent : silent said = true
  ends : ∀ answer, o = .reply answer → Ends lib state request said answer

/-- The data after a request. -/
def Leaves (state : StateData) (request : StateAccessRequest) (_ : Trace HandlerSig)
    (result : Except Error HandlerNext) : Prop :=
  ∀ state', result = .ok (.listen state') →
    state' = state ∨ ∃ assets, request = .connectChain assets ∧
      state' = state.updateCurrencies assets

theorem leaves_same {request : StateAccessRequest} {said : Trace HandlerSig} :
    Leaves state request said (.ok (.listen state)) := by
  intro state' h
  injection h with h
  injection h with h
  exact .inl h.symm

theorem leaves_error {request : StateAccessRequest} {said : Trace HandlerSig} {e : Error} :
    Leaves state request said (.error e) := nofun

/-- Operations that are no answers leave the conversation silent. -/
theorem silent_of_ops {said : Trace HandlerSig}
    (h : ∀ exchange ∈ said, ∀ answer, exchange.1 ≠ HandlerOp.reply answer) :
    silent said = true := by
  refine List.all_eq_true.mpr fun exchange hmem => ?_
  obtain ⟨o, answer⟩ := exchange
  cases o with
  | reply a => exact absurd rfl (h _ hmem a)
  | _ => rfl

/-- An operation before the answer. -/
abbrev Unanswered (lib : Libraries) (state : StateData) (request : StateAccessRequest)
    (said : Trace HandlerSig) (o : HandlerOp) : Prop :=
  silent said = true ∧ ∀ answer, o = .reply answer → Ends lib state request said answer

theorem unanswered_of_ne {request : StateAccessRequest} {said : Trace HandlerSig} {o : HandlerOp}
    (hs : silent said = true) (ho : ∀ answer, o ≠ .reply answer) :
    Unanswered lib state request said o :=
  ⟨hs, fun answer h => absurd h (ho answer)⟩

/-- Answering is the last thing that is done for a request. -/
theorem holds_answer {request : StateAccessRequest} {said : Trace HandlerSig}
    {answer : HandlerReply} (hs : silent said = true) (h : Ends lib state request said answer) :
    Prog.Holds (Unanswered lib state request) (Leaves state request) said
      ((do reply answer; return state) >>=
        fun state => pure (HandlerNext.listen state)).run := by
  rw [bind_assoc, Prog.holds_run_bind, holds_reply]
  refine ⟨⟨hs, fun answer' h' => ?_⟩, leaves_same, leaves_error⟩
  rw [← HandlerOp.reply.inj h']
  exact h

theorem getInvoiceStatus_ends (order : String) :
    Prog.Holds (fun _ o => ∀ answer, o ≠ HandlerOp.reply answer)
      (fun said result => Ends lib state (.getInvoiceStatus order) said (.invoiceStatus result)) []
      (getInvoiceStatus lib state order).run := by
  rw [getInvoiceStatus, Prog.holds_run_bind, holds_db]
  refine ⟨fun _ h => (by cases h), fun answer => ?_⟩
  rcases answer with e | _ | info
  · exact .unread order e
  · exact .notFound order
  · exact .found order info

theorem handle_unanswered (request : StateAccessRequest) :
    Prog.Holds (Unanswered lib state request) (Leaves state request) []
      (handle lib state request >>= fun state => pure (HandlerNext.listen state)).run := by
  cases request with
  | connectChain assets =>
    intro state' h
    injection h with h
    injection h with h
    exact .inr ⟨assets, rfl, h.symm⟩
  | isCurrencySupported currency => exact holds_answer rfl (.supported currency)
  | serverStatus => exact holds_answer rfl .status
  | getInvoiceStatus order =>
    rw [handle, bind_assoc, Prog.holds_run_bind, holds_result]
    refine (getInvoiceStatus_ends order).ops.mono ?_ ?_
    · rintro said o ⟨⟨seg, rfl, hseg⟩, ho⟩
      exact unanswered_of_ne (silent_of_ops hseg) ho
    · rintro said result ⟨⟨seg, rfl, hseg⟩, hends⟩
      exact holds_answer (silent_of_ops hseg) hends
  | createInvoice query =>
    rw [handle, bind_assoc, Prog.holds_run_bind, holds_result]
    refine (createInvoice_ends query).ops.mono ?_ ?_
    · rintro said o ⟨⟨seg, rfl, hseg⟩, ho⟩
      exact unanswered_of_ne (silent_of_ops hseg) ho
    · rintro said result ⟨⟨seg, rfl, hseg⟩, hends⟩
      exact holds_answer (silent_of_ops hseg) (.createInvoice hends)
  | orderPaid id =>
    rw [handle, bind_assoc, Prog.holds_run_bind, holds_result, holds_db]
    refine ⟨unanswered_of_ne rfl fun _ h => (by cases h), fun answer => ?_⟩
    cases answer with
    | error e => exact leaves_same
    | ok order =>
      simp only [Except.mapError]
      rw [bind_assoc, Prog.holds_run_bind, reap, Prog.holds_run_bind]
      refine ⟨unanswered_of_ne rfl fun _ h => (by cases h), fun _ => ?_⟩
      exact holds_callManager (fun _ _ => leaves_same) fun w _ =>
        ⟨unanswered_of_ne rfl fun _ h => (by cases h), leaves_same,
          unanswered_of_ne rfl fun _ h => (by cases h), fun _ => leaves_same⟩

/-- **A request is answered at the end**, and with what belongs to it. -/
theorem handle_serves (request : StateAccessRequest) :
    Prog.Holds (Serving lib state request) (Leaves state request) []
      (handle lib state request >>= fun state => pure (HandlerNext.listen state)).run :=
  ((handle_spec request).and (handle_unanswered request)).mono
    (fun _ _ h => ⟨h.1, h.2.1, h.2.2⟩) fun _ _ h => h.2

end Kalatori
