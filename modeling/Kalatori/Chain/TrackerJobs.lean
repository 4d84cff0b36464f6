import Kalatori.Chain.Tracker

/-!
# What the programs of a tracker do

A conversation of a tracker is read off here: which balances it saw, when it
looked at the clock, what it told the state handler.  `Pass` says what a loop
over the watch list does with every invoice it visits, and the two programs are
specified in terms of it.

* `Pass.append`: the rounds of a loop compose.
* `checkMonitored_spec`, `checkInvoices_spec`: the two loops.
* `connect_spec`, `newBlock_spec`: the two programs, whatever the node answers.
-/

namespace Kalatori

open Program

variable {lib : Libraries}

/-! ## Reading a conversation -/

/-- What a check of the invoice `id` was answered: whether the balance suffices, or nothing. -/
def verdict (id : String) : Exchange (TrackerSig lib) → Option (Option Bool)
  | ⟨.rpc (.balance _ invoice _), .ok balance⟩ =>
    if invoice.id = id then some (some (decide (invoice.amount ≤ balance))) else none
  | ⟨.rpc (.balance _ invoice _), .error _⟩ => if invoice.id = id then some none else none
  | _ => none

/-- All checks of an invoice in a conversation. -/
def verdicts (id : String) (said : Trace (TrackerSig lib)) : List (Option Bool) :=
  said.filterMap (verdict id)

/-- The readings of the clock in a conversation. -/
def clock (said : Trace (TrackerSig lib)) : List Timestamp :=
  said.filterMap fun
    | ⟨.now, now⟩ => some now
    | _ => none

/-- The payment of an order was reported. -/
def Told (said : Trace (TrackerSig lib)) (id : String) : Prop :=
  ∃ delivered : Bool, ⟨.send (.orderPaid id), delivered⟩ ∈ said

/-- A balance was seen that suffices for an invoice. -/
def Funded (said : Trace (TrackerSig lib)) (invoice : Invoice) : Prop :=
  ∃ (watcher : ChainWatcher lib) (block : BlockHash) (balance : Balance),
    ⟨.rpc (.balance watcher invoice block), .ok balance⟩ ∈ said ∧ invoice.amount ≤ balance

/-- The code that read an answer of the node panicked. -/
def SaidPanic (said : Trace (TrackerSig lib)) : Prop :=
  ∃ call : RpcCall lib, ⟨.rpc call, .error .panicked⟩ ∈ said

/-- The node would not tell its runtime version. -/
def SaidNoVersion (said : Trace (TrackerSig lib)) (e : ChainError) : Prop :=
  ∃ block : BlockHash, ⟨.rpc (.runtimeVersionIdentifier block), .error (.failed e)⟩ ∈ said

@[simp] theorem verdicts_nil (id : String) : verdicts id ([] : Trace (TrackerSig lib)) = [] := rfl

@[simp] theorem verdicts_append (id : String) (said said' : Trace (TrackerSig lib)) :
    verdicts id (said ++ said') = verdicts id said ++ verdicts id said' :=
  List.filterMap_append

@[simp] theorem clock_append (said said' : Trace (TrackerSig lib)) :
    clock (said ++ said') = clock said ++ clock said' :=
  List.filterMap_append

@[simp] theorem verdicts_send (id : String) (message : StateAccessRequest) (delivered : Bool) :
    verdicts id ([⟨.send message, delivered⟩] : Trace (TrackerSig lib)) = [] := rfl

@[simp] theorem clock_send (message : StateAccessRequest) (delivered : Bool) :
    clock ([⟨.send message, delivered⟩] : Trace (TrackerSig lib)) = [] := rfl

@[simp] theorem clock_rpc (call : RpcCall lib) (answer : Except Stop call.Result) :
    clock ([⟨.rpc call, answer⟩] : Trace (TrackerSig lib)) = [] := rfl

theorem Told.append_left {said : Trace (TrackerSig lib)} {id : String} (h : Told said id)
    (said' : Trace (TrackerSig lib)) : Told (said ++ said') id :=
  h.imp fun _ h => List.mem_append_left _ h

theorem Told.append_right {said : Trace (TrackerSig lib)} {id : String} (h : Told said id)
    (said' : Trace (TrackerSig lib)) : Told (said' ++ said) id :=
  h.imp fun _ h => List.mem_append_right _ h

theorem Funded.append_left {said : Trace (TrackerSig lib)} {invoice : Invoice}
    (h : Funded said invoice) (said' : Trace (TrackerSig lib)) :
    Funded (said ++ said') invoice := by
  obtain ⟨watcher, block, balance, hmem, hle⟩ := h
  exact ⟨watcher, block, balance, List.mem_append_left _ hmem, hle⟩

theorem not_saidPanic_nil : ¬SaidPanic ([] : Trace (TrackerSig lib)) := fun ⟨_, h⟩ =>
  absurd h List.not_mem_nil

theorem saidPanic_append {said said' : Trace (TrackerSig lib)} :
    SaidPanic (said ++ said') ↔ SaidPanic said ∨ SaidPanic said' := by
  simp only [SaidPanic, List.mem_append, exists_or]

theorem saidPanic_singleton {exchange : Exchange (TrackerSig lib)} :
    SaidPanic [exchange] ↔ ∃ call : RpcCall lib, exchange = ⟨.rpc call, .error .panicked⟩ := by
  simp only [SaidPanic, List.mem_singleton, eq_comm]

theorem not_saidPanic_send (message : StateAccessRequest) (delivered : Bool) :
    ¬SaidPanic ([⟨.send message, delivered⟩] : Trace (TrackerSig lib)) := by
  rw [saidPanic_singleton]
  rintro ⟨call, h⟩
  cases congrArg Sigma.fst h

theorem not_saidPanic_rpc {call : RpcCall lib} {answer : Except Stop call.Result}
    (h : answer ≠ .error .panicked) :
    ¬SaidPanic ([⟨.rpc call, answer⟩] : Trace (TrackerSig lib)) := by
  rw [saidPanic_singleton]
  rintro ⟨call', h'⟩
  obtain ⟨hcall, hanswer⟩ := Sigma.mk.inj h'
  cases hcall
  exact h (eq_of_heq hanswer)

/-! ## One loop over the watch list -/

/-- What a loop over the watch list makes of an invoice.  It removes it after a check that
found it paid, and in the branch for the death of the invoice, which `now?` turns on, after a
check that did not. -/
def Drops (now? : Option Timestamp) (invoice : Invoice) (answers : List (Option Bool)) : Prop :=
  some true ∈ answers ∨
    ∃ now, now? = some now ∧ now ≤ invoice.death ∧ answers.getLast? = some (some false)

/-- **A loop over the watch list** that visited the invoices of `accounts`, said `said` and
collected `removed`. -/
structure Pass (now? : Option Timestamp) (accounts : List (Σ _ : String, Invoice))
    (said : Trace (TrackerSig lib)) (removed : List String) : Prop where
  silent : ∀ id, id ∉ accounts.keys → verdicts id said = [] ∧ id ∉ removed
  removed_iff : ∀ id invoice, ⟨id, invoice⟩ ∈ accounts →
    (id ∈ removed ↔ Drops now? invoice (verdicts id said))
  told : ∀ id, some true ∈ verdicts id said → Told said id
  single : ∀ id invoice now, ⟨id, invoice⟩ ∈ accounts → now? = some now → invoice.death < now →
    (verdicts id said).length ≤ 1
  clock : clock said = []
  calm : ¬SaidPanic said

theorem Pass.nil (now? : Option Timestamp) : Pass now? [] ([] : Trace (TrackerSig lib)) [] where
  silent := fun _ _ => ⟨rfl, List.not_mem_nil⟩
  removed_iff := fun _ _ h => absurd h List.not_mem_nil
  told := fun _ h => absurd h List.not_mem_nil
  single := fun _ _ _ h => absurd h List.not_mem_nil
  clock := rfl
  calm := not_saidPanic_nil

/-- The rounds of a loop compose. -/
theorem Pass.append {now? : Option Timestamp} {accounts accounts' : List (Σ _ : String, Invoice)}
    {said said' : Trace (TrackerSig lib)} {removed removed' : List String}
    (h : Pass now? accounts said removed) (h' : Pass now? accounts' said' removed')
    (hdisj : ∀ id, id ∈ accounts.keys → id ∉ accounts'.keys) :
    Pass now? (accounts ++ accounts') (said ++ said') (removed ++ removed') where
  silent := by
    intro id hid
    rw [List.keys_append, List.mem_append, not_or] at hid
    obtain ⟨hv, hr⟩ := h.silent id hid.1
    obtain ⟨hv', hr'⟩ := h'.silent id hid.2
    rw [verdicts_append, hv, hv', List.mem_append]
    exact ⟨rfl, not_or.mpr ⟨hr, hr'⟩⟩
  removed_iff := by
    intro id invoice hmem
    rw [verdicts_append, List.mem_append]
    rcases List.mem_append.mp hmem with hmem | hmem
    · obtain ⟨hv, hr⟩ := h'.silent id (hdisj id (List.mem_keys_of_mem hmem))
      rw [hv, List.append_nil, ← h.removed_iff id invoice hmem]
      exact or_iff_left hr
    · have hkey : id ∉ accounts.keys := fun hk => hdisj id hk (List.mem_keys_of_mem hmem)
      obtain ⟨hv, hr⟩ := h.silent id hkey
      rw [hv, List.nil_append, ← h'.removed_iff id invoice hmem]
      exact or_iff_right hr
  told := by
    intro id hid
    rw [verdicts_append] at hid
    rcases List.mem_append.mp hid with hid | hid
    · exact (h.told id hid).append_left said'
    · exact (h'.told id hid).append_right said
  single := by
    intro id invoice now hmem hnow hdeath
    rw [verdicts_append]
    rcases List.mem_append.mp hmem with hmem | hmem
    · obtain ⟨hv, -⟩ := h'.silent id (hdisj id (List.mem_keys_of_mem hmem))
      rw [hv, List.append_nil]
      exact h.single id invoice now hmem hnow hdeath
    · have hkey : id ∉ accounts.keys := fun hk => hdisj id hk (List.mem_keys_of_mem hmem)
      obtain ⟨hv, -⟩ := h.silent id hkey
      rw [hv, List.nil_append]
      exact h'.single id invoice now hmem hnow hdeath
  clock := by rw [clock_append, h.clock, h'.clock, List.append_nil]
  calm := fun hp => (saidPanic_append.mp hp).elim h.calm h'.calm

/-! ## Rules for the operations -/

section Rules

variable {pre : Trace (TrackerSig lib) → TrackerOp lib → Prop} {said : Trace (TrackerSig lib)}
  {α : Type}

theorem holds_rpc (call : RpcCall lib)
    {post : Trace (TrackerSig lib) → Except Stop call.Result → Prop} :
    Prog.Holds pre post said (Job.rpc call).run ↔
      pre said (.rpc call) ∧ ∀ answer, post (said ++ [⟨.rpc call, answer⟩]) answer := Iff.rfl

theorem holds_tell (message : StateAccessRequest)
    {post : Trace (TrackerSig lib) → Except Stop Unit → Prop} :
    Prog.Holds pre post said (Job.tell message : Job lib Unit).run ↔
      pre said (.send message) ∧
        ∀ delivered : Bool, post (said ++ [⟨.send message, delivered⟩]) (.ok ()) := Iff.rfl

/-- What is left of a function when its result is looked at. -/
def Attempted (post : Trace (TrackerSig lib) → Except Stop (Except ChainError α) → Prop)
    (said : Trace (TrackerSig lib)) : Except Stop α → Prop
  | .ok a => post said (.ok (.ok a))
  | .error (.failed e) => post said (.ok (.error e))
  | .error .panicked => post said (.error .panicked)

theorem holds_attempt (job : Job lib α)
    {post : Trace (TrackerSig lib) → Except Stop (Except ChainError α) → Prop} :
    Prog.Holds pre post said job.attempt.run ↔
      Prog.Holds pre (Attempted post) said job.run := by
  simp only [Job.attempt, ExceptT.run_mk, Prog.holds_bind]
  refine ⟨fun h => h.mono (fun _ _ h => h) ?_, fun h => h.mono (fun _ _ h => h) ?_⟩ <;>
    rintro said' ((e | _) | a) h <;> exact h

theorem holds_attempt_check (watcher : ChainWatcher lib) (block : BlockHash) (invoice : Invoice)
    {post : Trace (TrackerSig lib) → Except Stop (Except ChainError Bool) → Prop} :
    Prog.Holds pre post said (invoice.check watcher block).attempt.run ↔
      pre said (.rpc (.balance watcher invoice block)) ∧
        ∀ answer : Except Stop Balance,
          Attempted post (said ++ [⟨.rpc (.balance watcher invoice block), answer⟩])
            (answer.map fun balance => decide (invoice.amount ≤ balance)) := by
  rw [holds_attempt, Invoice.check, Prog.holds_run_bind, holds_rpc]
  refine and_congr_right fun _ => forall_congr' fun answer => ?_
  cases answer <;> rfl

end Rules

/-! ## The loops -/

/-- What the programs may do: report only what they saw paid, and ask only for the balances of
watched invoices. -/
def MayDo (watched_accounts : WatchedAccounts) (said : Trace (TrackerSig lib)) :
    TrackerOp lib → Prop
  | .send (.orderPaid id) =>
    ∃ invoice, watched_accounts.lookup id = some invoice ∧ Funded said invoice
  | .rpc (.balance _ invoice _) => ∃ id, watched_accounts.lookup id = some invoice
  | _ => True

/-- At most one check of the invoice `id`, which gave `answer?`. -/
structure Checked (id : String) (said : Trace (TrackerSig lib)) (answer? : Option (Option Bool)) :
    Prop where
  own : verdicts id said = answer?.toList
  others : ∀ id', id' ≠ id → verdicts id' said = []
  clock : clock said = []
  told : answer? = some (some true) → Told said id
  calm : ¬SaidPanic said

theorem Checked.none (id : String) : Checked id ([] : Trace (TrackerSig lib)) none where
  own := rfl
  others := fun _ _ => rfl
  clock := rfl
  told := nofun
  calm := not_saidPanic_nil

/-- The answer to a check. -/
def answerOf : Except Stop Bool → Option Bool
  | .ok paid => some paid
  | .error _ => none

theorem checked_balance (watcher : ChainWatcher lib) (block : BlockHash) {id : String}
    {invoice : Invoice} (hid : invoice.id = id) (answer : Except Stop Balance)
    (said : Trace (TrackerSig lib)) (hv : ∀ id, verdicts id said = []) (hc : clock said = [])
    (hcalm : ¬SaidPanic said) (hanswer : answer ≠ .error .panicked)
    (htold : ∀ balance, answer = .ok balance → invoice.amount ≤ balance → Told said id) :
    Checked id ([⟨.rpc (.balance watcher invoice block), answer⟩] ++ said)
      (some (answerOf (answer.map fun balance => decide (invoice.amount ≤ balance)))) where
  own := by
    rw [verdicts_append, hv, List.append_nil]
    cases answer <;> simp [verdicts, verdict, hid, answerOf, Except.map]
  others := by
    intro id' hne
    rw [verdicts_append, hv, List.append_nil]
    have hne' : invoice.id ≠ id' := hid ▸ hne.symm
    cases answer <;> simp [verdicts, verdict, hne']
  clock := by rw [clock_append, clock_rpc, hc, List.append_nil]
  told := by
    intro h
    cases answer with
    | error e => simp [answerOf, Except.map] at h
    | ok balance =>
      refine (htold balance rfl ?_).append_right _
      simpa [answerOf, Except.map] using h
  calm := fun hp => (saidPanic_append.mp hp).elim (not_saidPanic_rpc hanswer) hcalm

/-- The result of a loop or of a part of one: what it collected, or a panic. -/
def Collected (done : Trace (TrackerSig lib) → List String → Prop)
    (said said' : Trace (TrackerSig lib)) (result : Except Stop (List String)) : Prop :=
  ∃ seg, said' = said ++ seg ∧
    match result with
    | .ok removed => done seg removed
    | .error stop => stop = .panicked ∧ SaidPanic seg

/-- One check was made, and the invoice collected if `gone` says so of the answer. -/
def CheckedOnce (id : String) (gone : Option Bool → Bool) (seg : Trace (TrackerSig lib))
    (removed : List String) : Prop :=
  ∃ answer, Checked id seg (some answer) ∧ removed = if gone answer then [id] else []

section Loops

variable {watched_accounts : WatchedAccounts} {said : Trace (TrackerSig lib)}
  {watcher : ChainWatcher lib} {block : BlockHash} {id : String} {invoice : Invoice}

theorem funded_of_le {answer : Balance} (h : invoice.amount ≤ answer)
    (said : Trace (TrackerSig lib)) :
    Funded (said ++ [⟨.rpc (.balance watcher invoice block), .ok answer⟩]) invoice :=
  ⟨watcher, block, answer, List.mem_append_right _ (List.mem_singleton_self _), h⟩

theorem saidPanic_balance : SaidPanic
    ([⟨.rpc (.balance watcher invoice block), .error .panicked⟩] : Trace (TrackerSig lib)) :=
  ⟨.balance watcher invoice block, List.mem_singleton_self _⟩

/-- A check whose answer decides whether the invoice is collected, and which reports it if it
was paid. -/
theorem collected_check (hlookup : watched_accounts.lookup id = some invoice)
    (hid : invoice.id = id) (gone : Option Bool → Bool)
    {next : Except ChainError Bool → Job lib (List String)} (hgone : gone (some true) = true)
    (hpaid : next (.ok true) = do Job.tell (.orderPaid id); pure [id])
    (hunpaid : next (.ok false) = pure (if gone (some false) then [id] else []))
    (herror : ∀ e, next (.error e) = pure (if gone none then [id] else [])) :
    Prog.Holds (MayDo watched_accounts) (Collected (CheckedOnce id gone) said) said
      ((invoice.check watcher block).attempt >>= next).run := by
  rw [Prog.holds_run_bind, holds_attempt_check]
  refine ⟨⟨id, hlookup⟩, fun answer => ?_⟩
  match answer with
  | .error .panicked => exact ⟨_, rfl, rfl, saidPanic_balance⟩
  | .error (.failed e) =>
    simp only [Except.map, Attempted, herror]
    refine ⟨_, rfl, none, ?_, rfl⟩
    exact checked_balance watcher block hid (.error (.failed e)) [] (fun _ => rfl) rfl
      not_saidPanic_nil
      (by simp) nofun
  | .ok balance =>
    by_cases hle : invoice.amount ≤ balance
    · have hdec : decide (invoice.amount ≤ balance) = true := decide_eq_true hle
      simp only [Except.map, Attempted, hdec, hpaid]
      rw [Prog.holds_run_bind, holds_tell]
      refine ⟨⟨invoice, hlookup, funded_of_le hle said⟩, fun delivered => ?_⟩
      refine ⟨_, List.append_assoc .., some true, ?_, by rw [hgone]; rfl⟩
      have h := checked_balance watcher block hid (.ok balance)
        [⟨.send (.orderPaid id), delivered⟩] (fun _ => rfl) rfl
        (not_saidPanic_send _ _) (by simp) fun _ _ _ => ⟨delivered, List.mem_singleton_self _⟩
      simpa [Except.map, answerOf, hdec] using h
    · have hdec : decide (invoice.amount ≤ balance) = false := decide_eq_false hle
      simp only [Except.map, Attempted, hdec, hunpaid]
      refine ⟨_, rfl, some false, ?_, rfl⟩
      have hunfunded : ∀ b, (.ok balance : Except Stop Balance) = .ok b → ¬invoice.amount ≤ b := by
        intro b hb
        obtain rfl := Except.ok.inj hb
        exact hle
      have h := checked_balance watcher block hid (.ok balance) [] (fun _ => rfl) rfl
        not_saidPanic_nil (by simp) fun b hb hle' => absurd hle' (hunfunded b hb)
      simpa [Except.map, answerOf, hdec] using h

theorem reportIfPaid_spec (hlookup : watched_accounts.lookup id = some invoice)
    (hid : invoice.id = id) :
    Prog.Holds (MayDo watched_accounts) (Collected (CheckedOnce id (· = some true)) said) said
      (reportIfPaid watcher block id invoice).run :=
  collected_check hlookup hid _ rfl rfl rfl fun _ => rfl

theorem forgetAtDeath_spec (hlookup : watched_accounts.lookup id = some invoice)
    (hid : invoice.id = id) :
    Prog.Holds (MayDo watched_accounts) (Collected (CheckedOnce id Option.isSome) said) said
      (forgetAtDeath watcher block id invoice).run :=
  collected_check hlookup hid _ rfl rfl rfl fun _ => rfl

/-- One round makes one pass over one invoice. -/
theorem pass_of_checked {answer? answer?' : Option (Option Bool)}
    {seg seg' : Trace (TrackerSig lib)}
    {now? : Option Timestamp} (gone gone' : Bool)
    (h : Checked id seg answer?) (h' : Checked id seg' answer?')
    (hgone : gone = true ↔ answer? = some (some true))
    (hgone' : gone' = true ↔ ∃ answer, answer?' = some (some answer))
    (hnow : ∀ now, now? = some now → (answer?' = none ↔ invoice.death < now))
    (hnone : now? = none → answer?' = none) :
    Pass now? [⟨id, invoice⟩] (seg ++ seg')
      ((if gone then [id] else []) ++ if gone' then [id] else []) where
  silent := by
    intro id' hid'
    have hne : id' ≠ id := by simpa using hid'
    rw [verdicts_append, h.others id' hne, h'.others id' hne]
    refine ⟨rfl, ?_⟩
    cases gone <;> cases gone' <;> simp [hne]
  removed_iff := by
    intro id' invoice' hmem
    obtain ⟨rfl, rfl⟩ : id' = id ∧ invoice' = invoice := by simpa using hmem
    have hmem : id' ∈ ((if gone then [id'] else []) ++ if gone' then [id'] else []) ↔
        gone = true ∨ gone' = true := by cases gone <;> cases gone' <;> simp
    rw [hmem, hgone, hgone', verdicts_append, h.own, h'.own, Drops]
    cases hn : now? with
    | none =>
      rw [hnone hn]
      cases answer? <;> simp [eq_comm]
    | some now =>
      have hiff := hnow now hn
      have hle : now ≤ invoice'.death ↔ answer?' ≠ none := by
        rw [Ne, hiff, UInt64.not_lt]
      simp only [Option.some.injEq, exists_eq_left', hle]
      rcases answer?' with _ | _ | _ | _ <;> rcases answer? with _ | _ | _ | _ <;> simp
  told := by
    intro id' hid'
    rw [verdicts_append, List.mem_append] at hid'
    by_cases hne : id' = id
    · subst hne
      rw [h.own, h'.own] at hid'
      rcases hid' with hid' | hid'
      · exact (h.told (by simpa using hid')).append_left _
      · exact (h'.told (by simpa using hid')).append_right _
    · rw [h.others id' hne, h'.others id' hne] at hid'
      simp at hid'
  single := by
    intro id' invoice' now hmem hnow' hdeath
    obtain ⟨rfl, rfl⟩ : id' = id ∧ invoice' = invoice := by simpa using hmem
    rw [verdicts_append, h.own, h'.own, (hnow now hnow').mpr hdeath]
    cases answer? <;> simp
  clock := by rw [clock_append, h.clock, h'.clock, List.append_nil]
  calm := fun hp => (saidPanic_append.mp hp).elim h.calm h'.calm

/-- The list of the invoices that a loop has still to visit. -/
structure Remaining (watched_accounts : WatchedAccounts) (list : List (Σ _ : String, Invoice)) :
    Prop where
  nodup : list.NodupKeys
  watched : ∀ id invoice, ⟨id, invoice⟩ ∈ list → watched_accounts.lookup id = some invoice
  keyed : ∀ id invoice, ⟨id, invoice⟩ ∈ list → invoice.id = id

theorem Remaining.tail {list : List (Σ _ : String, Invoice)} {entry : Σ _ : String, Invoice}
    (h : Remaining watched_accounts (entry :: list)) : Remaining watched_accounts list where
  nodup := (List.nodupKeys_cons.mp h.nodup).2
  watched := fun id invoice hmem => h.watched id invoice (List.mem_cons_of_mem _ hmem)
  keyed := fun id invoice hmem => h.keyed id invoice (List.mem_cons_of_mem _ hmem)

/-- A loop that visits one invoice after the other, given what a round does. -/
theorem collected_loop {now? : Option Timestamp}
    {loop : List (Σ _ : String, Invoice) → Job lib (List String)}
    {round : String → Invoice → Job lib (List String)}
    (hnil : loop [] = pure [])
    (hcons : ∀ id invoice rest, loop (⟨id, invoice⟩ :: rest) = do
      let removed ← round id invoice
      return removed ++ (← loop rest))
    (hround : ∀ id invoice said, watched_accounts.lookup id = some invoice → invoice.id = id →
      Prog.Holds (MayDo watched_accounts) (Collected (Pass now? [⟨id, invoice⟩]) said) said
        (round id invoice).run)
    (list : List (Σ _ : String, Invoice)) (hlist : Remaining watched_accounts list)
    (said : Trace (TrackerSig lib)) :
    Prog.Holds (MayDo watched_accounts) (Collected (Pass now? list) said) said (loop list).run := by
  induction list generalizing said with
  | nil =>
    rw [hnil]
    exact ⟨[], (List.append_nil _).symm, Pass.nil now?⟩
  | cons entry rest ih =>
    obtain ⟨id, invoice⟩ := entry
    have hwatched := hlist.watched id invoice List.mem_cons_self
    have hkeyed := hlist.keyed id invoice List.mem_cons_self
    rw [hcons, Prog.holds_run_bind]
    refine (hround id invoice said hwatched hkeyed).mono (fun _ _ h => h) ?_
    rintro said₁ (stop | removed) ⟨seg, rfl, h⟩
    · exact ⟨seg, rfl, h⟩
    · simp only
      rw [Prog.holds_run_bind]
      refine (ih hlist.tail (said ++ seg)).mono (fun _ _ h => h) ?_
      rintro said₂ (stop | removed') ⟨seg', rfl, h'⟩
      · exact ⟨seg ++ seg', List.append_assoc .., h'.1,
          h'.2.imp fun _ hmem => List.mem_append_right _ hmem⟩
      · refine ⟨seg ++ seg', List.append_assoc .., h.append h' fun id' hid' => ?_⟩
        obtain rfl : id' = id := by simpa using hid'
        exact (List.nodupKeys_cons.mp hlist.nodup).1

theorem checkMonitored_spec (list : List (Σ _ : String, Invoice))
    (hlist : Remaining watched_accounts list) (said : Trace (TrackerSig lib)) :
    Prog.Holds (MayDo watched_accounts) (Collected (Pass none list) said) said
      (checkMonitored watcher block list).run := by
  refine collected_loop rfl (fun _ _ _ => rfl) (fun id invoice said hlookup hid => ?_) list hlist
    said
  refine (reportIfPaid_spec hlookup hid).mono (fun _ _ h => h) ?_
  rintro said' (stop | removed) ⟨seg, rfl, h⟩
  · exact ⟨seg, rfl, h⟩
  · obtain ⟨answer, hchecked, rfl⟩ := h
    refine ⟨seg, rfl, ?_⟩
    have hpass : Pass none [⟨id, invoice⟩] (seg ++ []) _ :=
      pass_of_checked (decide (answer = some true)) false hchecked (Checked.none id) (by simp)
        (by simp) nofun fun _ => rfl
    simpa using hpass

/-- A check that is made under a condition. -/
theorem collected_if (condition : Prop) [Decidable condition] {gone : Option Bool → Bool}
    {check : Job lib (List String)}
    (h : Prog.Holds (MayDo watched_accounts) (Collected (CheckedOnce id gone) said) said
      check.run) :
    Prog.Holds (MayDo watched_accounts)
      (Collected (fun seg removed => ∃ answer?, Checked id seg answer? ∧
        (answer? = none ↔ ¬condition) ∧ removed = if answer?.any gone then [id] else []) said) said
      (if condition then check else pure []).run := by
  by_cases hc : condition
  · rw [if_pos hc]
    refine h.mono (fun _ _ h => h) ?_
    rintro said' (stop | removed) ⟨seg, rfl, h⟩
    · exact ⟨seg, rfl, h⟩
    · obtain ⟨answer, hchecked, hremoved⟩ := h
      exact ⟨seg, rfl, some answer, hchecked, by simp [hc], hremoved⟩
  · rw [if_neg hc]
    exact ⟨[], (List.append_nil _).symm, none, Checked.none id, by simp [hc], rfl⟩

theorem checkInvoice_spec {events : List Event} {now : Timestamp}
    (hlookup : watched_accounts.lookup id = some invoice) (hid : invoice.id = id) :
    Prog.Holds (MayDo watched_accounts) (Collected (Pass (some now) [⟨id, invoice⟩]) said) said
      (checkInvoice watcher block events now id invoice).run := by
  rw [checkInvoice, Prog.holds_run_bind]
  refine (collected_if _ (reportIfPaid_spec hlookup hid)).mono (fun _ _ h => h) ?_
  rintro said₁ (stop | removed) ⟨seg, rfl, h⟩
  · exact ⟨seg, rfl, h⟩
  obtain ⟨answer?, hchecked, -, rfl⟩ := h
  simp only
  rw [Prog.holds_run_bind]
  refine (collected_if _ (forgetAtDeath_spec hlookup hid)).mono (fun _ _ h => h) ?_
  rintro said₂ (stop | removed') ⟨seg', rfl, h'⟩
  · exact ⟨seg ++ seg', List.append_assoc .., h'.1,
      h'.2.imp fun _ hmem => List.mem_append_right _ hmem⟩
  obtain ⟨answer?', hchecked', hdeath, rfl⟩ := h'
  refine ⟨seg ++ seg', List.append_assoc .., ?_⟩
  refine pass_of_checked _ _ hchecked hchecked' ?_ ?_ ?_ nofun
  · rcases answer? with _ | _ | _ | _ <;> simp
  · rcases answer?' with _ | _ | _ <;> simp
  · rintro _ ⟨rfl⟩
    rw [hdeath, ge_iff_le, UInt64.not_le]

theorem checkInvoices_spec {events : List Event} {now : Timestamp}
    (list : List (Σ _ : String, Invoice)) (hlist : Remaining watched_accounts list)
    (said : Trace (TrackerSig lib)) :
    Prog.Holds (MayDo watched_accounts) (Collected (Pass (some now) list) said) said
      (checkInvoices watcher block events now list).run :=
  collected_loop rfl (fun _ _ _ => rfl) (fun _ _ _ hlookup hid => checkInvoice_spec hlookup hid)
    list hlist said

end Loops

/-! ## The two programs -/

theorem lookup_removeAll (watched_accounts : WatchedAccounts) (ids : List String) (id : String) :
    (removeAll watched_accounts ids).lookup id =
      if id ∈ ids then none else watched_accounts.lookup id := by
  induction ids generalizing watched_accounts with
  | nil => rfl
  | cons id' ids ih =>
    rw [removeAll, List.foldl_cons, ← removeAll, ih]
    by_cases hid : id = id'
    · subst hid
      simp
    · simp [hid, AList.lookup_erase_ne hid]

/-- Every invoice is watched under its own identifier. -/
def WellKeyed (watched_accounts : WatchedAccounts) : Prop :=
  ∀ id invoice, watched_accounts.lookup id = some invoice → invoice.id = id

/-- **What becomes of the watch list in a pass over it.**  `said` is the whole conversation of
the program that made the pass. -/
structure Visited (now? : Option Timestamp) (watched_accounts : WatchedAccounts)
    (said : Trace (TrackerSig lib)) (watched_accounts' : WatchedAccounts) : Prop where
  dropped : ∀ id invoice, watched_accounts.lookup id = some invoice →
    Drops now? invoice (verdicts id said) → watched_accounts'.lookup id = none
  kept : ∀ id invoice, watched_accounts.lookup id = some invoice →
    ¬Drops now? invoice (verdicts id said) → watched_accounts'.lookup id = some invoice
  absent : ∀ id, watched_accounts.lookup id = none →
    watched_accounts'.lookup id = none ∧ verdicts id said = []
  told : ∀ id, some true ∈ verdicts id said → Told said id
  single : ∀ id invoice now, watched_accounts.lookup id = some invoice → now? = some now →
    invoice.death < now → (verdicts id said).length ≤ 1
  clock : clock said = now?.toList
  calm : ¬SaidPanic said

theorem mem_enumeration {watched_accounts : WatchedAccounts}
    (accounts : Enumeration watched_accounts) (id : String) (invoice : Invoice) :
    ⟨id, invoice⟩ ∈ accounts.entries ↔ watched_accounts.lookup id = some invoice := by
  rw [accounts.perm.mem_iff, ← AList.mem_lookup_iff, Option.mem_def]

theorem remaining_enumeration {watched_accounts : WatchedAccounts}
    (hkeyed : WellKeyed watched_accounts) (accounts : Enumeration watched_accounts) :
    Remaining watched_accounts accounts.entries where
  nodup := (List.perm_nodupKeys accounts.perm).mpr watched_accounts.nodupKeys
  watched := fun id invoice h => (mem_enumeration accounts id invoice).mp h
  keyed := fun id invoice h => hkeyed id invoice ((mem_enumeration accounts id invoice).mp h)

/-- A pass at the end of a conversation that checked nothing before. -/
theorem Visited.of_pass {now? : Option Timestamp} {watched_accounts : WatchedAccounts}
    {accounts : Enumeration watched_accounts} {said seg : Trace (TrackerSig lib)}
    {removed : List String} (hquiet : ∀ id, verdicts id said = [])
    (hclock : Kalatori.clock said = now?.toList) (hcalm : ¬SaidPanic said)
    (h : Pass now? accounts.entries seg removed) :
    Visited now? watched_accounts (said ++ seg) (removeAll watched_accounts removed) := by
  have hverdicts : ∀ id, verdicts id (said ++ seg) = verdicts id seg := fun id => by
    rw [verdicts_append, hquiet, List.nil_append]
  refine ⟨fun id invoice hl hd => ?_, fun id invoice hl hd => ?_, fun id hl => ?_, fun id hid => ?_,
    fun id invoice now hl hnow hdeath => ?_, ?_,
    fun hp => (saidPanic_append.mp hp).elim hcalm h.calm⟩
  · rw [hverdicts, ← h.removed_iff id invoice ((mem_enumeration accounts id invoice).mpr hl)] at hd
    rw [lookup_removeAll, if_pos hd]
  · rw [hverdicts, ← h.removed_iff id invoice ((mem_enumeration accounts id invoice).mpr hl)] at hd
    rw [lookup_removeAll, if_neg hd, hl]
  · have hkey : id ∉ accounts.entries.keys := by
      intro hk
      obtain ⟨invoice, hmem⟩ := List.exists_of_mem_keys hk
      rw [(mem_enumeration accounts id invoice).mp hmem] at hl
      cases hl
    obtain ⟨hv, hr⟩ := h.silent id hkey
    rw [lookup_removeAll, if_neg hr, hverdicts, hv]
    exact ⟨hl, rfl⟩
  · rw [hverdicts] at hid
    exact (h.told id hid).append_right said
  · rw [hverdicts]
    exact h.single id invoice now ((mem_enumeration accounts id invoice).mpr hl) hnow hdeath
  · rw [clock_append, hclock, h.clock, List.append_nil]

/-- **How a program of a tracker ends.** -/
def Settled (now? : Option Timestamp) (watched_accounts : WatchedAccounts)
    (said : Trace (TrackerSig lib)) : Except Stop (Continuation lib) → Prop
  | .ok (.rotate watched_accounts') => watched_accounts' = watched_accounts ∧ clock said = []
  | .ok (.serve _ watched_accounts') => Visited now? watched_accounts said watched_accounts'
  | .error .panicked => SaidPanic said
  | .error (.failed e) => SaidNoVersion said e ∧ clock said = []

/-- Nothing was checked, the clock was not looked at, and nothing panicked. -/
structure Quiet (said : Trace (TrackerSig lib)) : Prop where
  verdicts : ∀ id, verdicts id said = []
  clock : clock said = []
  calm : ¬SaidPanic said

theorem Quiet.nil : Quiet ([] : Trace (TrackerSig lib)) := ⟨fun _ => rfl, rfl, not_saidPanic_nil⟩

theorem Quiet.snoc {said : Trace (TrackerSig lib)} (h : Quiet said) {call : RpcCall lib}
    {answer : Except Stop call.Result} (hv : ∀ id, verdict id ⟨.rpc call, answer⟩ = none)
    (hanswer : answer ≠ .error .panicked) : Quiet (said ++ [⟨.rpc call, answer⟩]) where
  verdicts := fun id => by
    rw [verdicts_append, h.verdicts, Kalatori.verdicts, List.filterMap_cons, hv]
    rfl
  clock := by rw [clock_append, h.clock, clock_rpc, List.append_nil]
  calm := fun hp => (saidPanic_append.mp hp).elim h.calm (not_saidPanic_rpc hanswer)

theorem saidPanic_snoc (said : Trace (TrackerSig lib)) (call : RpcCall lib) :
    SaidPanic (said ++ [⟨.rpc call, .error .panicked⟩]) :=
  ⟨call, List.mem_append_right _ (List.mem_singleton_self _)⟩

theorem holds_now {pre : Trace (TrackerSig lib) → TrackerOp lib → Prop}
    {said : Trace (TrackerSig lib)} {post : Trace (TrackerSig lib) → Except Stop Timestamp → Prop} :
    Prog.Holds pre post said (Job.now : Job lib Timestamp).run ↔
      pre said .now ∧ ∀ now : Timestamp, post (said ++ [⟨.now, now⟩]) (.ok now) := Iff.rfl

theorem holds_iterate {pre : Trace (TrackerSig lib) → TrackerOp lib → Prop}
    {said : Trace (TrackerSig lib)} (watched_accounts : WatchedAccounts)
    {post : Trace (TrackerSig lib) → Except Stop (Enumeration watched_accounts) → Prop} :
    Prog.Holds pre post said (Job.iterate watched_accounts : Job lib _).run ↔
      pre said (.iterate watched_accounts) ∧ ∀ accounts : Enumeration watched_accounts,
        post (said ++ [⟨.iterate watched_accounts, accounts⟩]) (.ok accounts) := Iff.rfl

section Programs

variable {watched_accounts : WatchedAccounts} {α : Type}

/-- A call before the watch list is looked at, where a failure ends the program. -/
theorem quiet_rpc_bind {said : Trace (TrackerSig lib)} {call : RpcCall lib}
    {next : call.Result → Job lib α} {post : Trace (TrackerSig lib) → Except Stop α → Prop}
    (hmay : MayDo watched_accounts said (.rpc call)) (hquiet : Quiet said)
    (hv : ∀ answer id, verdict id ⟨.rpc call, answer⟩ = none)
    (hpanicked : ∀ said, SaidPanic said → post said (.error .panicked))
    (hfailed : ∀ e, Quiet (said ++ [⟨.rpc call, .error (.failed e)⟩]) →
      post (said ++ [⟨.rpc call, .error (.failed e)⟩]) (.error (.failed e)))
    (hnext : ∀ said a, Quiet said →
      Prog.Holds (MayDo watched_accounts) post said (next a).run) :
    Prog.Holds (MayDo watched_accounts) post said (Job.rpc call >>= next).run := by
  rw [Prog.holds_run_bind, holds_rpc]
  refine ⟨hmay, fun answer => ?_⟩
  match answer with
  | .error .panicked => exact hpanicked _ (saidPanic_snoc _ _)
  | .error (.failed e) => exact hfailed e (hquiet.snoc (hv (.error (.failed e))) (by simp))
  | .ok a => exact hnext _ a (hquiet.snoc (hv (.ok a)) (by simp))

/-- The same where a failure is looked at. -/
theorem quiet_attempt_bind {said : Trace (TrackerSig lib)} {call : RpcCall lib}
    {next : Except ChainError call.Result → Job lib α}
    {post : Trace (TrackerSig lib) → Except Stop α → Prop}
    (hmay : MayDo watched_accounts said (.rpc call)) (hquiet : Quiet said)
    (hv : ∀ answer id, verdict id ⟨.rpc call, answer⟩ = none)
    (hpanicked : ∀ said, SaidPanic said → post said (.error .panicked))
    (hfailed : ∀ said e, Quiet said →
      Prog.Holds (MayDo watched_accounts) post said (next (.error e)).run)
    (hnext : ∀ said a, Quiet said →
      Prog.Holds (MayDo watched_accounts) post said (next (.ok a)).run) :
    Prog.Holds (MayDo watched_accounts) post said ((Job.rpc call).attempt >>= next).run := by
  rw [Prog.holds_run_bind, holds_attempt, holds_rpc]
  refine ⟨hmay, fun answer => ?_⟩
  match answer with
  | .error .panicked => exact hpanicked _ (saidPanic_snoc _ _)
  | .error (.failed e) => exact hfailed _ e (hquiet.snoc (hv (.error (.failed e))) (by simp))
  | .ok a => exact hnext _ a (hquiet.snoc (hv (.ok a)) (by simp))

theorem not_saidPanic_now {said : Trace (TrackerSig lib)} (h : Quiet said) (now : Timestamp)
    (accounts : Enumeration watched_accounts) :
    ¬SaidPanic (said ++ [⟨.now, now⟩] ++ [⟨.iterate watched_accounts, accounts⟩]) := by
  rw [saidPanic_append, saidPanic_append, saidPanic_singleton, saidPanic_singleton]
  rintro ((hp | ⟨call, hp⟩) | ⟨call, hp⟩)
  · exact h.calm hp
  · cases congrArg Sigma.fst hp
  · cases congrArg Sigma.fst hp

theorem newBlock_spec (hkeyed : WellKeyed watched_accounts) (watcher : ChainWatcher lib)
    (number : String) :
    Prog.Holds (MayDo watched_accounts)
      (fun said result => ∃ now?, now?.isSome ∧ Settled now? watched_accounts said result) []
      (newBlock watcher watched_accounts number).run := by
  unfold newBlock
  refine quiet_attempt_bind trivial Quiet.nil (fun _ _ => rfl) (fun _ h => ⟨some 0, rfl, h⟩)
    (fun _ _ hquiet => ⟨some 0, rfl, rfl, hquiet.clock⟩) fun said block hquiet => ?_
  refine quiet_rpc_bind trivial hquiet (fun _ _ => rfl) (fun _ h => ⟨some 0, rfl, h⟩)
    (fun e hquiet => ⟨some 0, rfl,
      ⟨block, List.mem_append_right _ (List.mem_singleton_self _)⟩, hquiet.clock⟩)
    fun said version hquiet => ?_
  split_ifs with hversion
  · exact ⟨some 0, rfl, rfl, hquiet.clock⟩
  refine quiet_attempt_bind trivial hquiet (fun _ _ => rfl) (fun _ h => ⟨some 0, rfl, h⟩)
    (fun _ _ hquiet => ⟨some 0, rfl, rfl, hquiet.clock⟩) fun said events hquiet => ?_
  simp only
  rw [Prog.holds_run_bind, holds_now]
  refine ⟨trivial, fun now => ?_⟩
  simp only
  rw [Prog.holds_run_bind, holds_iterate]
  refine ⟨trivial, fun accounts => ?_⟩
  simp only
  rw [Prog.holds_run_bind]
  refine (checkInvoices_spec accounts.entries (remaining_enumeration hkeyed accounts) _).mono
    (fun _ _ h => h) ?_
  rintro said' (stop | removed) ⟨seg, rfl, h⟩
  · obtain ⟨rfl, hpanic⟩ := h
    exact ⟨some 0, rfl, hpanic.imp fun _ hmem => List.mem_append_right _ hmem⟩
  · refine ⟨some now, rfl, Visited.of_pass (fun id => ?_) ?_
      (not_saidPanic_now hquiet now accounts) h⟩
    · rw [verdicts_append, verdicts_append, hquiet.verdicts]
      rfl
    · rw [clock_append, clock_append, hquiet.clock]
      rfl

/-- What `prepare_chain` leaves when it does not fail. -/
theorem prepareChain_spec (hkeyed : WellKeyed watched_accounts) (chain : Chain) (rpc_url : String)
    {said : Trace (TrackerSig lib)} (hquiet : Quiet said) :
    Prog.Holds (MayDo watched_accounts)
      (fun said result =>
        match result with
        | .ok (_, watched_accounts') => Visited none watched_accounts said watched_accounts'
        | .error .panicked => SaidPanic said
        | .error (.failed _) => clock said = []) said
      (prepareChain chain watched_accounts rpc_url).run := by
  unfold prepareChain
  refine quiet_rpc_bind trivial hquiet (fun _ _ => rfl) (fun _ h => h) (fun _ => Quiet.clock)
    fun said genesis_hash hquiet => ?_
  refine quiet_rpc_bind trivial hquiet (fun _ _ => rfl) (fun _ h => h) (fun _ => Quiet.clock)
    fun said _ hquiet => ?_
  refine quiet_rpc_bind trivial hquiet (fun _ _ => rfl) (fun _ h => h) (fun _ => Quiet.clock)
    fun said block hquiet => ?_
  refine quiet_rpc_bind trivial hquiet (fun _ _ => rfl) (fun _ h => h) (fun _ => Quiet.clock)
    fun said version hquiet => ?_
  refine quiet_rpc_bind trivial hquiet (fun _ _ => rfl) (fun _ h => h) (fun _ => Quiet.clock)
    fun said metadata hquiet => ?_
  cases lib.specName metadata with
  | none => exact hquiet.clock
  | some name =>
    simp only
    split_ifs with hname
    · exact hquiet.clock
    refine quiet_rpc_bind trivial hquiet (fun _ _ => rfl) (fun _ h => h) (fun _ => Quiet.clock)
      fun said specs hquiet => ?_
    refine quiet_rpc_bind trivial hquiet (fun _ _ => rfl) (fun _ h => h) (fun _ => Quiet.clock)
      fun said assets hquiet => ?_
    split_ifs with hassets
    · exact hquiet.clock
    rw [Prog.holds_run_bind, holds_tell]
    refine ⟨trivial, fun delivered => ?_⟩
    simp only
    rw [Prog.holds_run_bind, holds_iterate]
    refine ⟨trivial, fun accounts => ?_⟩
    simp only
    rw [Prog.holds_run_bind]
    refine (checkMonitored_spec accounts.entries (remaining_enumeration hkeyed accounts) _).mono
      (fun _ _ h => h) ?_
    rintro said' (stop | removed) ⟨seg, rfl, h⟩
    · obtain ⟨rfl, hpanic⟩ := h
      exact hpanic.imp fun _ hmem => List.mem_append_right _ hmem
    · refine Visited.of_pass (fun id => ?_) ?_ ?_ h
      · rw [verdicts_append, verdicts_append, hquiet.verdicts]
        rfl
      · rw [clock_append, clock_append, hquiet.clock]
        rfl
      · rw [saidPanic_append, saidPanic_append, saidPanic_singleton, saidPanic_singleton]
        rintro ((hp | ⟨call, hp⟩) | ⟨call, hp⟩)
        · exact hquiet.calm hp
        · cases congrArg Sigma.fst hp
        · cases congrArg Sigma.fst hp

theorem connect_spec (hkeyed : WellKeyed watched_accounts) (chain : Chain) (endpoint : String) :
    Prog.Holds (MayDo watched_accounts)
      (fun said result => Settled none watched_accounts said result ∧
        ∀ e, result ≠ .error (.failed e)) []
      (connect chain watched_accounts endpoint : Job lib _).run := by
  unfold connect
  refine quiet_attempt_bind trivial Quiet.nil (fun _ _ => rfl) (fun _ h => ⟨h, nofun⟩)
    (fun _ _ hquiet => ⟨⟨rfl, hquiet.clock⟩, nofun⟩) fun said _ hquiet => ?_
  simp only
  rw [Prog.holds_run_bind, holds_attempt]
  refine (prepareChain_spec hkeyed chain endpoint hquiet).mono (fun _ _ h => h) ?_
  rintro said ((e | _) | ⟨watcher, watched_accounts'⟩) h
  · exact ⟨⟨rfl, h⟩, nofun⟩
  · exact ⟨h, nofun⟩
  · exact ⟨h, nofun⟩

end Programs

end Kalatori
