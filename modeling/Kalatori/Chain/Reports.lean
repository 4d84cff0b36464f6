import Kalatori.Chain.WatchList
import Kalatori.Database.LifeCycle

/-!
# How often a payment is reported

A loop over the watch list may check an invoice twice: after a transfer to its
account, and, while it lives, because of the inverted comparison with its death.
Each check that finds the invoice paid reports it, and the invoice leaves the
watch list only when the loop is over.

`Tally` counts what a loop asks and what it reports, invoice by invoice, whether
the loop comes to its end or not.  What a run owes to the state handler is
`Turn.Verified`: one report at most for an order, after a check at the block of
the pass, and the order is watched no longer.  `turns_verified_iff` says that a
run owes nothing exactly if no pass finds an invoice paid at both of its checks.

* `Checking`: the conversation of one check.
* `tally_checkMonitored`, `tally_checkInvoices`: the two loops.
* `TrackerRun.settled`: how the programs of a run end, given how the two programs do.
* `order_reported_twice`: a block at which an order is reported twice.
-/

namespace Kalatori

open Program Transition

variable {lib : Libraries} {chain : Chain}

/-- The orders whose payment was reported, in the order of the reports. -/
def reports (said : Trace (TrackerSig lib)) : List String :=
  said.filterMap fun
    | ⟨.send (.orderPaid id), _⟩ => some id
    | _ => none

@[simp] theorem reports_nil : reports ([] : Trace (TrackerSig lib)) = [] := rfl

@[simp] theorem reports_append (said said' : Trace (TrackerSig lib)) :
    reports (said ++ said') = reports said ++ reports said' :=
  List.filterMap_append

@[simp] theorem reports_rpc (call : RpcCall lib) (answer : Except Stop call.Result) :
    reports ([⟨.rpc call, answer⟩] : Trace (TrackerSig lib)) = [] := rfl

theorem mem_reports {said : Trace (TrackerSig lib)} {id : String} :
    id ∈ reports said ↔ Told said id := by
  simp only [reports, List.mem_filterMap, Told]
  constructor
  · rintro ⟨exchange, hmem, h⟩
    split at h
    · rename_i id' delivered
      obtain rfl := Option.some.inj h
      exact ⟨delivered, hmem⟩
    · cases h
  · rintro ⟨delivered, hmem⟩
    exact ⟨_, hmem, rfl⟩

/-- A report comes after a check that found its order paid. -/
def Justified (accounts : List (Σ _ : String, Invoice)) (watcher : ChainWatcher lib)
    (block : BlockHash) (said : Trace (TrackerSig lib)) : Prop :=
  ∀ before after id delivered, said = before ++ ⟨.send (.orderPaid id), delivered⟩ :: after →
    ∃ invoice balance, ⟨id, invoice⟩ ∈ accounts ∧
      ⟨.rpc (.balance watcher invoice block), .ok balance⟩ ∈ before ∧ invoice.amount ≤ balance

/-! ## One check -/

section Check

variable (watcher : ChainWatcher lib) (block : BlockHash) (id : String) (invoice : Invoice)

/-- What is said in a check, and what the check finds. -/
inductive Checking : Trace (TrackerSig lib) → Option Bool → Prop
  | panicked : Checking [⟨.rpc (.balance watcher invoice block), .error .panicked⟩] none
  | failed (e : ChainError) :
      Checking [⟨.rpc (.balance watcher invoice block), .error (.failed e)⟩] none
  | unpaid (balance : Balance) (h : ¬invoice.amount ≤ balance) :
      Checking [⟨.rpc (.balance watcher invoice block), .ok balance⟩] (some false)
  | paid (balance : Balance) (h : invoice.amount ≤ balance) (delivered : Bool) :
      Checking [⟨.rpc (.balance watcher invoice block), .ok balance⟩,
        ⟨.send (.orderPaid id), delivered⟩] (some true)

variable {watcher block id invoice} {said seg : Trace (TrackerSig lib)} {answer : Option Bool}

theorem Checking.verdicts_self (h : Checking watcher block id invoice seg answer)
    (hid : invoice.id = id) : verdicts id seg = [answer] := by
  cases h with
  | panicked | failed => simp [verdicts, verdict, hid]
  | unpaid _ h | paid _ h => simp [verdicts, verdict, hid, h]

theorem Checking.verdicts_of_ne (h : Checking watcher block id invoice seg answer)
    (hid : invoice.id = id) {id' : String} (hne : id' ≠ id) : verdicts id' seg = [] := by
  have hne' : invoice.id ≠ id' := hid ▸ hne.symm
  cases h with
  | panicked | failed | unpaid | paid => simp [verdicts, verdict, hne']

theorem Checking.reports (h : Checking watcher block id invoice seg answer) :
    reports seg = if answer = some true then [id] else [] := by
  cases h with
  | panicked | failed | unpaid | paid => rfl

/-- A check asks for one balance. -/
theorem Checking.asked (h : Checking watcher block id invoice seg answer)
    {watcher' : ChainWatcher lib} {invoice' : Invoice} {block' : BlockHash}
    {balance : Except Stop Balance}
    (hmem : ⟨.rpc (.balance watcher' invoice' block'), balance⟩ ∈ seg) :
    watcher' = watcher ∧ invoice' = invoice ∧ block' = block := by
  cases h with
  | panicked | failed | unpaid =>
    obtain ⟨hop, -⟩ := Sigma.mk.inj (List.mem_singleton.mp hmem)
    cases hop
    exact ⟨rfl, rfl, rfl⟩
  | paid =>
    rcases List.mem_cons.mp hmem with hmem | hmem
    · obtain ⟨hop, -⟩ := Sigma.mk.inj hmem
      cases hop
      exact ⟨rfl, rfl, rfl⟩
    · cases congrArg Sigma.fst (List.mem_singleton.mp hmem)

theorem Checking.justified (h : Checking watcher block id invoice seg answer) :
    Justified [⟨id, invoice⟩] watcher block seg := by
  intro before after id' delivered' heq
  cases h with
  | panicked | failed | unpaid =>
    have hmem : (⟨.send (.orderPaid id'), delivered'⟩ : Exchange (TrackerSig lib)) ∈
        before ++ ⟨.send (.orderPaid id'), delivered'⟩ :: after := by simp
    rw [← heq] at hmem
    cases congrArg Sigma.fst (List.mem_singleton.mp hmem)
  | paid balance h delivered =>
    cases before with
    | nil => cases congrArg (·.map Sigma.fst) heq
    | cons first before =>
      obtain ⟨rfl, hrest⟩ := List.cons.inj heq
      cases before with
      | nil =>
        obtain ⟨hreport, -⟩ := List.cons.inj hrest
        obtain ⟨hop, -⟩ := Sigma.mk.inj hreport
        cases hop
        exact ⟨invoice, balance, List.mem_singleton_self _, List.mem_singleton_self _, h⟩
      | cons _ before => simpa using congrArg List.length hrest

end Check

/-! ## One loop over the watch list -/

section Tally

variable (watcher : ChainWatcher lib) (block : BlockHash) (bound : Invoice → ℕ)

/-- **What a loop over the watch list asks and reports**, if it visited invoices of `accounts`
and checked none of them more often than `bound` says. -/
structure Tally (accounts : List (Σ _ : String, Invoice)) (said : Trace (TrackerSig lib)) :
    Prop where
  silent : ∀ id, id ∉ accounts.keys → verdicts id said = [] ∧ id ∉ reports said
  count : ∀ id, (reports said).count id = (verdicts id said).count (some true)
  few : ∀ id invoice, ⟨id, invoice⟩ ∈ accounts → (verdicts id said).length ≤ bound invoice
  asked : ∀ watcher' invoice block' balance,
    ⟨.rpc (.balance watcher' invoice block'), balance⟩ ∈ said →
    watcher' = watcher ∧ block' = block ∧ ∃ id, ⟨id, invoice⟩ ∈ accounts
  justified : Justified accounts watcher block said

/-- Every invoice was checked as often as `bound` says. -/
def Full (accounts : List (Σ _ : String, Invoice)) (said : Trace (TrackerSig lib)) : Prop :=
  ∀ id invoice, ⟨id, invoice⟩ ∈ accounts → (verdicts id said).length = bound invoice

variable {watcher block bound} {bound' : Invoice → ℕ}
  {accounts accounts' : List (Σ _ : String, Invoice)} {said said' : Trace (TrackerSig lib)}

theorem justified_nil : Justified accounts watcher block [] := by
  intro before after id delivered h
  simpa using congrArg List.length h

theorem Justified.append (h : Justified accounts watcher block said)
    (h' : Justified accounts' watcher block said') :
    Justified (accounts ++ accounts') watcher block (said ++ said') := by
  intro before after id delivered heq
  rcases List.append_eq_append_iff.mp heq with ⟨seg, rfl, hseg⟩ | ⟨seg, hseg, hafter⟩
  · obtain ⟨invoice, balance, hmem, hasked, hle⟩ := h' seg after id delivered hseg
    exact ⟨invoice, balance, List.mem_append_right _ hmem, List.mem_append_right _ hasked, hle⟩
  · cases seg with
    | nil =>
      obtain ⟨_, _, -, hasked, -⟩ := h' [] after id delivered (by simpa using hafter.symm)
      cases hasked
    | cons exchange seg =>
      obtain ⟨rfl, -⟩ := List.cons.inj hafter
      obtain ⟨invoice, balance, hmem, hasked, hle⟩ := h before seg id delivered hseg
      exact ⟨invoice, balance, List.mem_append_left _ hmem, hasked, hle⟩

theorem Tally.nil : Tally watcher block bound accounts [] where
  silent := fun _ _ => ⟨rfl, List.not_mem_nil⟩
  count := fun _ => rfl
  few := fun _ _ _ => Nat.zero_le _
  asked := fun _ _ _ _ h => absurd h List.not_mem_nil
  justified := justified_nil

theorem Tally.congr (h : Tally watcher block bound accounts said)
    (hb : ∀ id invoice, ⟨id, invoice⟩ ∈ accounts → bound invoice = bound' invoice) :
    Tally watcher block bound' accounts said :=
  { h with few := fun id invoice hmem => (h.few id invoice hmem).trans_eq (hb id invoice hmem) }

theorem Full.congr (h : Full bound accounts said)
    (hb : ∀ id invoice, ⟨id, invoice⟩ ∈ accounts → bound invoice = bound' invoice) :
    Full bound' accounts said :=
  fun id invoice hmem => (h id invoice hmem).trans (hb id invoice hmem)

/-- Two parts of a loop add up. -/
theorem Tally.append (h : Tally watcher block bound accounts said)
    (h' : Tally watcher block bound' accounts' said') {bound'' : Invoice → ℕ}
    (hfew : ∀ id invoice, ⟨id, invoice⟩ ∈ accounts ++ accounts' →
      (verdicts id said).length + (verdicts id said').length ≤ bound'' invoice) :
    Tally watcher block bound'' (accounts ++ accounts') (said ++ said') where
  silent := by
    intro id hid
    rw [List.keys_append, List.mem_append, not_or] at hid
    obtain ⟨hv, hr⟩ := h.silent id hid.1
    obtain ⟨hv', hr'⟩ := h'.silent id hid.2
    rw [verdicts_append, hv, hv', reports_append, List.mem_append]
    exact ⟨rfl, not_or.mpr ⟨hr, hr'⟩⟩
  count := by
    intro id
    have hcount := h.count id
    have hcount' := h'.count id
    rw [reports_append, verdicts_append, List.count_append, List.count_append]
    omega
  few := by
    intro id invoice hmem
    rw [verdicts_append, List.length_append]
    exact hfew id invoice hmem
  asked := by
    intro watcher' invoice block' balance hmem
    rcases List.mem_append.mp hmem with hmem | hmem
    · obtain ⟨hw, hb, id, hid⟩ := h.asked _ _ _ _ hmem
      exact ⟨hw, hb, id, List.mem_append_left _ hid⟩
    · obtain ⟨hw, hb, id, hid⟩ := h'.asked _ _ _ _ hmem
      exact ⟨hw, hb, id, List.mem_append_right _ hid⟩
  justified := h.justified.append h'.justified

/-- The number of checks of an invoice in two parts of a loop that share none. -/
theorem Tally.length_verdicts (h : Tally watcher block bound accounts said)
    (h' : Tally watcher block bound' accounts' said')
    (hdisj : ∀ id, id ∈ accounts.keys → id ∉ accounts'.keys) {id : String} {invoice : Invoice}
    (hmem : ⟨id, invoice⟩ ∈ accounts ++ accounts') :
    ⟨id, invoice⟩ ∈ accounts ∧ (verdicts id said').length = 0 ∨
      ⟨id, invoice⟩ ∈ accounts' ∧ (verdicts id said).length = 0 := by
  rcases List.mem_append.mp hmem with hmem | hmem
  · obtain ⟨hv, -⟩ := h'.silent id (hdisj id (List.mem_keys_of_mem hmem))
    exact .inl ⟨hmem, by rw [hv]; rfl⟩
  · have hkey : id ∉ accounts.keys := fun hk => hdisj id hk (List.mem_keys_of_mem hmem)
    obtain ⟨hv, -⟩ := h.silent id hkey
    exact .inr ⟨hmem, by rw [hv]; rfl⟩

theorem Tally.next (h : Tally watcher block bound accounts said)
    (h' : Tally watcher block bound accounts' said')
    (hdisj : ∀ id, id ∈ accounts.keys → id ∉ accounts'.keys) :
    Tally watcher block bound (accounts ++ accounts') (said ++ said') := by
  refine h.append h' fun id invoice hmem => ?_
  rcases h.length_verdicts h' hdisj hmem with ⟨hmem, hnone⟩ | ⟨hmem, hnone⟩
  · have hfew := h.few id invoice hmem
    omega
  · have hfew := h'.few id invoice hmem
    omega

theorem Full.next (h : Tally watcher block bound accounts said)
    (h' : Tally watcher block bound accounts' said')
    (hfull : Full bound accounts said) (hfull' : Full bound accounts' said')
    (hdisj : ∀ id, id ∈ accounts.keys → id ∉ accounts'.keys) :
    Full bound (accounts ++ accounts') (said ++ said') := by
  intro id invoice hmem
  rw [verdicts_append, List.length_append]
  rcases h.length_verdicts h' hdisj hmem with ⟨hmem, hnone⟩ | ⟨hmem, hnone⟩
  · have hcount := hfull id invoice hmem
    omega
  · have hcount := hfull' id invoice hmem
    omega

/-- Two checks of one invoice. -/
theorem Tally.again {entry : Σ _ : String, Invoice} (h : Tally watcher block bound [entry] said)
    (h' : Tally watcher block bound' [entry] said') :
    Tally watcher block (fun invoice => bound invoice + bound' invoice) [entry]
      (said ++ said') := by
  have hboth : Tally watcher block (fun invoice => bound invoice + bound' invoice)
      ([entry] ++ [entry]) (said ++ said') := by
    refine h.append h' fun id invoice hmem => ?_
    have hmem : ⟨id, invoice⟩ ∈ [entry] := by simpa using hmem
    exact Nat.add_le_add (h.few id invoice hmem) (h'.few id invoice hmem)
  have hsame : ∀ x : Σ _ : String, Invoice, x ∈ [entry] ++ [entry] ↔ x ∈ [entry] := by simp
  refine ⟨fun id hid => hboth.silent id ?_, hboth.count,
    fun id invoice hmem => hboth.few id invoice ((hsame _).mpr hmem), ?_, ?_⟩
  · simpa using hid
  · intro watcher' invoice block' balance hmem
    obtain ⟨hw, hb, id, hid⟩ := hboth.asked _ _ _ _ hmem
    exact ⟨hw, hb, id, (hsame _).mp hid⟩
  · intro before after id delivered heq
    obtain ⟨invoice, balance, hmem, hrest⟩ := hboth.justified before after id delivered heq
    exact ⟨invoice, balance, (hsame _).mp hmem, hrest⟩

/-- A check is made once. -/
theorem Checking.tally {id : String} {invoice : Invoice} {answer : Option Bool}
    (h : Checking watcher block id invoice said answer) (hid : invoice.id = id) :
    Tally watcher block (fun _ => 1) [⟨id, invoice⟩] said where
  silent := by
    intro id' hid'
    have hne : id' ≠ id := by simpa using hid'
    rw [h.verdicts_of_ne hid hne, h.reports]
    refine ⟨rfl, ?_⟩
    split_ifs <;> simp [hne]
  count := by
    intro id'
    rw [h.reports]
    by_cases hne : id' = id
    · subst hne
      rw [h.verdicts_self hid]
      by_cases ha : answer = some true
      · rw [if_pos ha, ha]
        simp
      · rw [if_neg ha, List.count_singleton, if_neg (by simpa using ha), List.count_nil]
    · rw [h.verdicts_of_ne hid hne, List.count_nil]
      split_ifs
      · exact List.count_eq_zero.mpr (by simpa using hne)
      · rfl
  few := by
    intro id' invoice' hmem
    obtain ⟨rfl, -⟩ : id' = id ∧ invoice' = invoice := by simpa using hmem
    rw [h.verdicts_self hid]
    rfl
  asked := by
    intro watcher' invoice' block' balance hmem
    obtain ⟨rfl, rfl, rfl⟩ := h.asked hmem
    exact ⟨rfl, rfl, id, List.mem_singleton_self _⟩
  justified := h.justified

end Tally

/-! ## The loops -/

/-- Operations that check an invoice or report one. -/
def loud : TrackerOp lib → Bool
  | .rpc (.balance ..) | .send (.orderPaid _) => true
  | _ => false

/-- What a check of invoices performs: requests for balances, with a watcher at a block, and
reports. -/
inductive Checks (watcher : ChainWatcher lib) (block : BlockHash) : TrackerOp lib → Prop
  | balance (invoice : Invoice) : Checks watcher block (.rpc (.balance watcher invoice block))
  | orderPaid (id : String) : Checks watcher block (.send (.orderPaid id))

theorem Checks.loud {watcher : ChainWatcher lib} {block : BlockHash} {o : TrackerOp lib}
    (h : Checks watcher block o) : loud o = true := by
  cases h with
  | balance | orderPaid => rfl

section Checking

variable (watcher : ChainWatcher lib) (block : BlockHash)

/-- A check of an invoice, whatever is made of its result. -/
theorem checks_attempt (invoice : Invoice) (said : Trace (TrackerSig lib))
    {next : Except ChainError Bool → Job lib (List String)}
    (hnext : ∀ said result, Prog.Holds (fun _ o => Checks watcher block o) (fun _ _ => True) said
      (next result).run) :
    Prog.Holds (fun _ o => Checks watcher block o) (fun _ _ => True) said
      ((invoice.check watcher block).attempt >>= next).run := by
  rw [Prog.holds_run_bind, holds_attempt_check]
  refine ⟨.balance invoice, fun answer => ?_⟩
  match answer with
  | .error .panicked => exact trivial
  | .error (.failed e) => exact hnext _ _
  | .ok balance => exact hnext _ _

/-- A part of a loop, and then the rest of it. -/
theorem checks_bind {α β : Type} {said : Trace (TrackerSig lib)} {job : Job lib α}
    {next : α → Job lib β}
    (h : Prog.Holds (fun _ o => Checks watcher block o) (fun _ _ => True) said job.run)
    (hnext : ∀ said a, Prog.Holds (fun _ o => Checks watcher block o) (fun _ _ => True) said
      (next a).run) :
    Prog.Holds (fun _ o => Checks watcher block o) (fun _ _ => True) said (job >>= next).run := by
  rw [Prog.holds_run_bind]
  refine h.mono (fun _ _ h => h) ?_
  rintro said (stop | a) -
  · trivial
  · exact hnext said a

theorem checks_reportIfPaid (id : String) (invoice : Invoice) (said : Trace (TrackerSig lib)) :
    Prog.Holds (fun _ o => Checks watcher block o) (fun _ _ => True) said
      (reportIfPaid watcher block id invoice).run := by
  refine checks_attempt watcher block invoice said fun said result => ?_
  match result with
  | .ok true => exact ⟨.orderPaid id, fun _ => trivial⟩
  | .ok false | .error _ => exact trivial

theorem checks_forgetAtDeath (id : String) (invoice : Invoice) (said : Trace (TrackerSig lib)) :
    Prog.Holds (fun _ o => Checks watcher block o) (fun _ _ => True) said
      (forgetAtDeath watcher block id invoice).run := by
  refine checks_attempt watcher block invoice said fun said result => ?_
  match result with
  | .ok true => exact ⟨.orderPaid id, fun _ => trivial⟩
  | .ok false | .error _ => exact trivial

/-- The loop of `prepare_chain` asks for balances and reports payments, and does nothing else. -/
theorem checks_checkMonitored (list : List (Σ _ : String, Invoice))
    (said : Trace (TrackerSig lib)) :
    Prog.Holds (fun _ o => Checks watcher block o) (fun _ _ => True) said
      (checkMonitored watcher block list).run := by
  induction list generalizing said with
  | nil => trivial
  | cons entry rest ih =>
    obtain ⟨id, account⟩ := entry
    refine checks_bind watcher block (checks_reportIfPaid watcher block id account said)
      fun said removed => ?_
    exact checks_bind watcher block (ih said) fun _ _ => trivial

/-- So does the one for a new block. -/
theorem checks_checkInvoices (events : List Event) (now : Timestamp)
    (list : List (Σ _ : String, Invoice)) (said : Trace (TrackerSig lib)) :
    Prog.Holds (fun _ o => Checks watcher block o) (fun _ _ => True) said
      (checkInvoices watcher block events now list).run := by
  induction list generalizing said with
  | nil => trivial
  | cons entry rest ih =>
    obtain ⟨id, invoice⟩ := entry
    have hround : ∀ said, Prog.Holds (fun _ o => Checks watcher block o) (fun _ _ => True) said
        (checkInvoice watcher block events now id invoice).run := by
      intro said
      refine checks_bind watcher block ?_ fun said reported => ?_
      · split_ifs
        · exact checks_reportIfPaid watcher block id invoice said
        · trivial
      refine checks_bind watcher block ?_ fun _ _ => trivial
      split_ifs
      · exact checks_forgetAtDeath watcher block id invoice said
      · trivial
    refine checks_bind watcher block (hround said) fun said removed => ?_
    exact checks_bind watcher block (ih said) fun _ _ => trivial

end Checking

/-- How a loop or a part of one is counted, whether it ends or panics.  It does not fail. -/
def Counted (watcher : ChainWatcher lib) (block : BlockHash) (bound : Invoice → ℕ)
    (accounts : List (Σ _ : String, Invoice)) (said said' : Trace (TrackerSig lib))
    (result : Except Stop (List String)) : Prop :=
  ∃ seg, said' = said ++ seg ∧ Tally watcher block bound accounts seg ∧
    (∀ removed, result = .ok removed → Full bound accounts seg) ∧ ∀ e, result ≠ .error (.failed e)

section Loops

variable {said : Trace (TrackerSig lib)} {watcher : ChainWatcher lib} {block : BlockHash}
  {id : String} {invoice : Invoice}

/-- A check that reports a paid invoice, and nothing else. -/
theorem counted_check (hid : invoice.id = id)
    {next : Except ChainError Bool → Job lib (List String)}
    (hpaid : next (.ok true) = do Job.tell (.orderPaid id); pure [id])
    (hunpaid : ∃ removed, next (.ok false) = pure removed)
    (herror : ∃ removed, ∀ e, next (.error e) = pure removed) :
    Prog.Holds (fun _ o => loud o = true)
      (Counted watcher block (fun _ => 1) [⟨id, invoice⟩] said) said
      ((invoice.check watcher block).attempt >>= next).run := by
  have hone : ∀ {seg answer} (result : Except Stop (List String)),
      Checking watcher block id invoice seg answer → (∀ e, result ≠ .error (.failed e)) →
      Counted watcher block (fun _ => 1) [⟨id, invoice⟩] said (said ++ seg) result := by
    intro seg answer result hc hcalm
    refine ⟨seg, rfl, hc.tally hid, fun _ _ id' invoice' hmem => ?_, hcalm⟩
    obtain ⟨rfl, -⟩ : id' = id ∧ invoice' = invoice := by simpa using hmem
    rw [hc.verdicts_self hid]
    rfl
  rw [Prog.holds_run_bind, holds_attempt_check]
  refine ⟨rfl, fun answer => ?_⟩
  cases answer with
  | error stop =>
    cases stop with
    | panicked => exact hone _ .panicked fun _ h => by cases h
    | failed e =>
      obtain ⟨removed, herror⟩ := herror
      simp only [Except.map, Attempted, herror]
      exact hone _ (.failed e) fun _ h => by cases h
  | ok balance =>
    by_cases hle : invoice.amount ≤ balance
    · have hdec : decide (invoice.amount ≤ balance) = true := decide_eq_true hle
      simp only [Except.map, Attempted, hdec, hpaid]
      rw [Prog.holds_run_bind, holds_tell]
      refine ⟨rfl, fun delivered => ?_⟩
      simp only [List.append_assoc]
      exact hone _ (.paid balance hle delivered) fun _ h => by cases h
    · obtain ⟨removed, hunpaid⟩ := hunpaid
      have hdec : decide (invoice.amount ≤ balance) = false := decide_eq_false hle
      simp only [Except.map, Attempted, hdec, hunpaid]
      exact hone _ (.unpaid balance hle) fun _ h => by cases h

theorem counted_reportIfPaid (hid : invoice.id = id) :
    Prog.Holds (fun _ o => loud o = true)
      (Counted watcher block (fun _ => 1) [⟨id, invoice⟩] said) said
      (reportIfPaid watcher block id invoice).run :=
  counted_check hid rfl ⟨[], rfl⟩ ⟨[], fun _ => rfl⟩

theorem counted_forgetAtDeath (hid : invoice.id = id) :
    Prog.Holds (fun _ o => loud o = true)
      (Counted watcher block (fun _ => 1) [⟨id, invoice⟩] said) said
      (forgetAtDeath watcher block id invoice).run :=
  counted_check hid rfl ⟨[id], rfl⟩ ⟨[], fun _ => rfl⟩

/-- A check that is made under a condition. -/
theorem counted_if (bound : Invoice → ℕ) (condition : Prop) [Decidable condition]
    {check : Job lib (List String)} (hb : bound invoice = (decide condition).toNat)
    (h : Prog.Holds (fun _ o => loud o = true)
      (Counted watcher block (fun _ => 1) [⟨id, invoice⟩] said) said check.run) :
    Prog.Holds (fun _ o => loud o = true) (Counted watcher block bound [⟨id, invoice⟩] said) said
      (if condition then check else pure []).run := by
  by_cases hc : condition
  · rw [if_pos hc]
    refine h.mono (fun _ _ h => h) ?_
    rintro said' result ⟨seg, rfl, htally, hfull, hcalm⟩
    have hone : ∀ id' invoice', ⟨id', invoice'⟩ ∈ [(⟨id, invoice⟩ : Σ _ : String, Invoice)] →
        1 = bound invoice' := by
      intro id' invoice' hmem
      obtain ⟨-, rfl⟩ : id' = id ∧ invoice' = invoice := by simpa using hmem
      simp [hb, hc]
    exact ⟨seg, rfl, htally.congr hone, fun removed hr => (hfull removed hr).congr hone, hcalm⟩
  · rw [if_neg hc]
    refine ⟨[], (List.append_nil _).symm, Tally.nil, fun _ _ id' invoice' hmem => ?_, nofun⟩
    obtain ⟨-, rfl⟩ : id' = id ∧ invoice' = invoice := by simpa using hmem
    simp [hb, hc]

/-- One part of a loop after the other: the second is not begun if the first panics. -/
theorem counted_bind {bound bound' bound'' : Invoice → ℕ}
    {accounts accounts' accounts'' : List (Σ _ : String, Invoice)} {p p' : Job lib (List String)}
    (hp : Prog.Holds (fun _ o => loud o = true) (Counted watcher block bound accounts said) said
      p.run)
    (hp' : ∀ said, Prog.Holds (fun _ o => loud o = true)
      (Counted watcher block bound' accounts' said) said p'.run)
    (hboth : ∀ seg seg', Tally watcher block bound accounts seg →
      Tally watcher block bound' accounts' seg' →
      Tally watcher block bound'' accounts'' (seg ++ seg') ∧
        (Full bound accounts seg → Full bound' accounts' seg' →
          Full bound'' accounts'' (seg ++ seg'))) :
    Prog.Holds (fun _ o => loud o = true) (Counted watcher block bound'' accounts'' said) said
      (do let a ← p; return a ++ (← p') : Job lib (List String)).run := by
  rw [Prog.holds_run_bind]
  refine hp.mono (fun _ _ h => h) ?_
  rintro said₁ (stop | removed) ⟨seg, rfl, htally, hfull, hcalm⟩
  · obtain ⟨h, -⟩ := hboth seg [] htally Tally.nil
    exact ⟨seg ++ [], by rw [List.append_nil], h, nofun, fun e he => hcalm e (by cases he; rfl)⟩
  simp only
  rw [Prog.holds_run_bind]
  refine (hp' _).mono (fun _ _ h => h) ?_
  rintro said₂ (stop | removed') ⟨seg', rfl, htally', hfull', hcalm'⟩
  · obtain ⟨h, -⟩ := hboth seg seg' htally htally'
    refine ⟨seg ++ seg', List.append_assoc .., h, nofun, fun e he => hcalm' e (by cases he; rfl)⟩
  · obtain ⟨h, hf⟩ := hboth seg seg' htally htally'
    exact ⟨seg ++ seg', List.append_assoc .., h, fun _ _ => hf (hfull _ rfl) (hfull' _ rfl), nofun⟩

/-- A loop that visits one invoice after the other, given what a round does. -/
theorem counted_loop {bound : Invoice → ℕ}
    {loop : List (Σ _ : String, Invoice) → Job lib (List String)}
    {round : String → Invoice → Job lib (List String)}
    (hnil : loop [] = pure [])
    (hcons : ∀ id invoice rest, loop (⟨id, invoice⟩ :: rest) = do
      let removed ← round id invoice
      return removed ++ (← loop rest))
    (hround : ∀ id invoice said, invoice.id = id →
      Prog.Holds (fun _ o => loud o = true) (Counted watcher block bound [⟨id, invoice⟩] said) said
        (round id invoice).run)
    (list : List (Σ _ : String, Invoice)) (hnodup : list.NodupKeys)
    (hkeyed : ∀ id invoice, ⟨id, invoice⟩ ∈ list → invoice.id = id)
    (said : Trace (TrackerSig lib)) :
    Prog.Holds (fun _ o => loud o = true) (Counted watcher block bound list said) said
      (loop list).run := by
  induction list generalizing said with
  | nil =>
    rw [hnil]
    exact ⟨[], (List.append_nil _).symm, Tally.nil, fun _ _ _ _ h => absurd h List.not_mem_nil,
      nofun⟩
  | cons entry rest ih =>
    obtain ⟨id, invoice⟩ := entry
    obtain ⟨hfresh, hnodup⟩ := List.nodupKeys_cons.mp hnodup
    have hdisj : ∀ id', id' ∈ List.keys [(⟨id, invoice⟩ : Σ _ : String, Invoice)] →
        id' ∉ rest.keys := by
      intro id' hid'
      obtain rfl : id' = id := by simpa using hid'
      exact hfresh
    rw [hcons]
    refine counted_bind (hround id invoice said (hkeyed id invoice List.mem_cons_self))
      (ih hnodup fun id invoice h => hkeyed id invoice (List.mem_cons_of_mem _ h)) ?_
    intro seg seg' h h'
    exact ⟨h.next h' hdisj, fun hfull hfull' => Full.next h h' hfull hfull' hdisj⟩

theorem counted_checkMonitored (list : List (Σ _ : String, Invoice)) (hnodup : list.NodupKeys)
    (hkeyed : ∀ id invoice, ⟨id, invoice⟩ ∈ list → invoice.id = id)
    (said : Trace (TrackerSig lib)) :
    Prog.Holds (fun _ o => loud o = true) (Counted watcher block (fun _ => 1) list said) said
      (checkMonitored watcher block list).run :=
  counted_loop rfl (fun _ _ _ => rfl) (fun _ _ _ hid => counted_reportIfPaid hid) list hnodup hkeyed
    said

/-- An invoice received a transfer, as far as the events tell. -/
def Received (events : List Event) (invoice : Invoice) : Bool :=
  events.any fun event => wasBalanceReceivedAtAccount invoice.address event.fields

/-- How often an invoice is checked after a block. -/
def checksAfter (events : List Event) (now : Timestamp) (invoice : Invoice) : ℕ :=
  (Received events invoice).toNat + (decide (invoice.death ≥ now)).toNat

theorem counted_checkInvoices {events : List Event} {now : Timestamp}
    (list : List (Σ _ : String, Invoice)) (hnodup : list.NodupKeys)
    (hkeyed : ∀ id invoice, ⟨id, invoice⟩ ∈ list → invoice.id = id)
    (said : Trace (TrackerSig lib)) :
    Prog.Holds (fun _ o => loud o = true)
      (Counted watcher block (checksAfter events now) list said) said
      (checkInvoices watcher block events now list).run := by
  refine counted_loop rfl (fun _ _ _ => rfl) (fun id invoice said hid => ?_) list hnodup hkeyed said
  refine counted_bind (counted_if (fun invoice => (Received events invoice).toNat) _
      (by rw [Received, Bool.decide_eq_true]) (counted_reportIfPaid hid))
    (fun said => counted_if (fun invoice => (decide (invoice.death ≥ now)).toNat) _ rfl
      (counted_forgetAtDeath hid)) ?_
  intro seg seg' h h'
  refine ⟨h.again h', fun hfull hfull' id' invoice' hmem => ?_⟩
  rw [verdicts_append, List.length_append, hfull id' invoice' hmem, hfull' id' invoice' hmem]
  rfl

end Loops

/-! ## The programs -/

/-- Neither a check nor a report was made. -/
def Silent (said : Trace (TrackerSig lib)) : Prop := ∀ e ∈ said, loud e.1 = false

theorem Silent.verdicts {said : Trace (TrackerSig lib)} (h : Silent said) (id : String) :
    verdicts id said = [] := by
  refine List.filterMap_eq_nil_iff.mpr fun e he => ?_
  have hquiet := h e he
  unfold verdict
  split
  · simp [loud] at hquiet
  · simp [loud] at hquiet
  · rfl

theorem Silent.reports {said : Trace (TrackerSig lib)} (h : Silent said) : reports said = [] := by
  refine List.filterMap_eq_nil_iff.mpr fun e he => ?_
  have hquiet := h e he
  split
  · simp [loud] at hquiet
  · rfl

theorem Silent.justified {said : Trace (TrackerSig lib)} (h : Silent said)
    {watcher : ChainWatcher lib} {block : BlockHash} : Justified [] watcher block said := by
  rintro before after id delivered rfl
  have hquiet := h ⟨.send (.orderPaid id), delivered⟩ (by simp)
  simp [loud] at hquiet

theorem Silent.nil : Silent ([] : Trace (TrackerSig lib)) := fun _ h => absurd h List.not_mem_nil

theorem Silent.snoc {said : Trace (TrackerSig lib)} (h : Silent said)
    {e : Exchange (TrackerSig lib)} (he : loud e.1 = false) : Silent (said ++ [e]) := by
  intro e' he'
  rcases List.mem_append.mp he' with he' | he'
  · exact h e' he'
  · obtain rfl := List.mem_singleton.mp he'
    exact he

/-- **A pass over the watch list**, at a block, which checks an invoice as often as `bound`
says. -/
structure Sweep (watched_accounts : WatchedAccounts) (watcher : ChainWatcher lib)
    (block : BlockHash) (bound : Invoice → ℕ) (said : Trace (TrackerSig lib)) : Prop where
  count : ∀ id, (reports said).count id = (verdicts id said).count (some true)
  few : ∀ id invoice, watched_accounts.lookup id = some invoice →
    (verdicts id said).length ≤ bound invoice
  absent : ∀ id, watched_accounts.lookup id = none → verdicts id said = []
  asked : ∀ watcher' invoice block' balance,
    ⟨.rpc (.balance watcher' invoice block'), balance⟩ ∈ said →
    watcher' = watcher ∧ block' = block ∧ ∃ id, watched_accounts.lookup id = some invoice
  justified : ∀ before after id delivered,
    said = before ++ ⟨.send (.orderPaid id), delivered⟩ :: after →
    ∃ invoice balance, watched_accounts.lookup id = some invoice ∧
      ⟨.rpc (.balance watcher invoice block), .ok balance⟩ ∈ before ∧ invoice.amount ≤ balance

section Sweeps

variable {watched_accounts : WatchedAccounts} {watcher : ChainWatcher lib} {block : BlockHash}
  {bound : Invoice → ℕ} {said seg : Trace (TrackerSig lib)}

/-- A loop over the watch list, after a silent conversation, makes a pass. -/
theorem sweep_of_tally (hsilent : Silent said) {accounts : Enumeration watched_accounts}
    (h : Tally watcher block bound accounts.entries seg) :
    Sweep watched_accounts watcher block bound (said ++ seg) where
  count := by
    intro id
    rw [reports_append, verdicts_append, hsilent.reports, hsilent.verdicts]
    exact h.count id
  few := by
    intro id invoice hl
    rw [verdicts_append, hsilent.verdicts]
    exact h.few id invoice ((mem_enumeration accounts id invoice).mpr hl)
  absent := by
    intro id hl
    have hkey : id ∉ accounts.entries.keys := by
      intro hk
      obtain ⟨invoice, hmem⟩ := List.exists_of_mem_keys hk
      rw [(mem_enumeration accounts id invoice).mp hmem] at hl
      cases hl
    rw [verdicts_append, hsilent.verdicts, (h.silent id hkey).1]
    rfl
  asked := by
    intro watcher' invoice block' balance hmem
    rcases List.mem_append.mp hmem with hmem | hmem
    · have hquiet := hsilent _ hmem
      simp [loud] at hquiet
    · obtain ⟨hw, hb, id, hid⟩ := h.asked _ _ _ _ hmem
      exact ⟨hw, hb, id, (mem_enumeration accounts id invoice).mp hid⟩
  justified := by
    intro before after id delivered heq
    obtain ⟨invoice, balance, hmem, hasked, hle⟩ :=
      (hsilent.justified.append h.justified) before after id delivered heq
    exact ⟨invoice, balance, (mem_enumeration accounts id invoice).mp hmem, hasked, hle⟩

end Sweeps

/-- What a tracker learned before the pass that follows a block. -/
structure BlockPass (watcher : ChainWatcher lib) (number : String) (block : BlockHash)
    (events : List Event) (now : Timestamp) (said : Trace (TrackerSig lib)) : Prop where
  hash : ⟨.rpc (.blockHash number), .ok block⟩ ∈ said
  version : ∃ version, ⟨.rpc (.runtimeVersionIdentifier block), .ok version⟩ ∈ said ∧
    (watcher.version != version) = false
  events : ⟨.rpc (.transferEvents block watcher.metadata), .ok events⟩ ∈ said
  now : ⟨.now, now⟩ ∈ said

/-- How the branch `NewBlock` ends: without a pass, or after one, which is complete if the tracker
goes on. -/
def BlockServed (watched_accounts : WatchedAccounts) (watcher : ChainWatcher lib) (number : String)
    (said : Trace (TrackerSig lib)) (result : Except Stop (Continuation lib)) : Prop :=
  (Silent said ∧ ∀ watcher' watched_accounts', result ≠ .ok (.serve watcher' watched_accounts')) ∨
    (∀ watched_accounts', result ≠ .ok (.rotate watched_accounts')) ∧
      ∃ block events now, BlockPass watcher number block events now said ∧
      Sweep watched_accounts watcher block (checksAfter events now) said ∧
      ∀ watcher' watched_accounts', result = .ok (.serve watcher' watched_accounts') →
        watcher' = watcher ∧ ∀ id invoice, watched_accounts.lookup id = some invoice →
          (verdicts id said).length = checksAfter events now invoice

/-- The loop at the end of a program, after a silent conversation. -/
theorem sweep_of_counted {watched_accounts : WatchedAccounts} {watcher : ChainWatcher lib}
    {block : BlockHash} {bound : Invoice → ℕ} {said said' : Trace (TrackerSig lib)}
    (hsilent : Silent said) {accounts : Enumeration watched_accounts}
    {result : Except Stop (List String)}
    (h : Counted watcher block bound accounts.entries said said' result) :
    said <+: said' ∧ Sweep watched_accounts watcher block bound said' ∧
      ∀ removed, result = .ok removed → ∀ id invoice, watched_accounts.lookup id = some invoice →
        (verdicts id said').length = bound invoice := by
  obtain ⟨seg, rfl, htally, hfull, -⟩ := h
  refine ⟨List.prefix_append said seg, sweep_of_tally hsilent htally, ?_⟩
  intro removed hr id invoice hl
  rw [verdicts_append, hsilent.verdicts]
  exact hfull removed hr id invoice ((mem_enumeration accounts id invoice).mpr hl)

theorem newBlock_served {watched_accounts : WatchedAccounts} (hkeyed : WellKeyed watched_accounts)
    (watcher : ChainWatcher lib) (number : String) :
    Prog.Holds (fun _ _ => True) (BlockServed watched_accounts watcher number) []
      (newBlock watcher watched_accounts number).run := by
  unfold newBlock
  rw [Prog.holds_run_bind, holds_attempt, holds_rpc]
  refine ⟨trivial, fun answer => ?_⟩
  have hsilent : Silent ([] ++ [⟨.rpc (.blockHash number), answer⟩] : Trace (TrackerSig lib)) :=
    Silent.nil.snoc rfl
  cases answer with
  | error stop => cases stop <;> exact .inl ⟨hsilent, fun _ _ h => by cases h⟩
  | ok block =>
  simp only [Attempted]
  rw [Prog.holds_run_bind, holds_rpc]
  refine ⟨trivial, fun answer => ?_⟩
  replace hsilent := hsilent.snoc (e := ⟨.rpc (.runtimeVersionIdentifier block), answer⟩) rfl
  cases answer with
  | error stop => exact .inl ⟨hsilent, fun _ _ h => by cases h⟩
  | ok version =>
  simp only
  by_cases hversion : watcher.version != version
  · rw [if_pos hversion]
    exact .inl ⟨hsilent, fun _ _ h => by cases h⟩
  rw [if_neg hversion]
  rw [Prog.holds_run_bind, holds_attempt, holds_rpc]
  refine ⟨trivial, fun answer => ?_⟩
  replace hsilent :=
    hsilent.snoc (e := ⟨.rpc (.transferEvents block watcher.metadata), answer⟩) rfl
  cases answer with
  | error stop => cases stop <;> exact .inl ⟨hsilent, fun _ _ h => by cases h⟩
  | ok events =>
  simp only [Attempted]
  rw [Prog.holds_run_bind, holds_now]
  refine ⟨trivial, fun now => ?_⟩
  replace hsilent := hsilent.snoc (e := ⟨.now, now⟩) rfl
  simp only
  rw [Prog.holds_run_bind, holds_iterate]
  refine ⟨trivial, fun accounts => ?_⟩
  replace hsilent := hsilent.snoc (e := ⟨.iterate watched_accounts, accounts⟩) rfl
  simp only
  rw [Prog.holds_run_bind]
  have hremaining := remaining_enumeration hkeyed accounts
  refine (counted_checkInvoices accounts.entries hremaining.nodup hremaining.keyed _).mono
    (fun _ _ _ => trivial) ?_
  intro said' result hcounted
  obtain ⟨hsub, hsweep, hfull⟩ := sweep_of_counted hsilent hcounted
  have hpass : BlockPass watcher number block events now said' := by
    refine ⟨hsub.subset ?_, ⟨version, hsub.subset ?_, by simpa using hversion⟩,
      hsub.subset ?_, hsub.subset ?_⟩ <;> simp
  cases result with
  | error stop =>
    exact .inr ⟨fun _ h => (by cases h), block, events, now, hpass, hsweep, fun _ _ h => by cases h⟩
  | ok removed =>
    refine .inr ⟨fun _ h => (by cases h), block, events, now, hpass, hsweep, ?_⟩
    rintro watcher' watched_accounts' ⟨⟩
    exact ⟨rfl, hfull removed rfl⟩

/-- How `prepare_chain` ends: without a pass, or after one that checks every invoice at most
once, and which it survives unless it panics. -/
def Prepared {α : Type} (watched_accounts : WatchedAccounts) (said : Trace (TrackerSig lib))
    (result : Except Stop α) : Prop :=
  Silent said ∨ (∀ e, result ≠ .error (.failed e)) ∧ ∃ watcher block,
    ⟨.rpc .nextBlock, .ok block⟩ ∈ said ∧ Sweep watched_accounts watcher block (fun _ => 1) said

/-- How a turn of the loop over the endpoints ends. -/
def Connected (watched_accounts : WatchedAccounts) (said : Trace (TrackerSig lib))
    (result : Except Stop (Continuation lib)) : Prop :=
  Silent said ∨ (∀ watched_accounts', result ≠ .ok (.rotate watched_accounts')) ∧
    ∃ watcher block, ⟨.rpc .nextBlock, .ok block⟩ ∈ said ∧
      Sweep watched_accounts watcher block (fun _ => 1) said

section Connecting

variable {watched_accounts : WatchedAccounts} {said : Trace (TrackerSig lib)} {α : Type}

/-- A call before the watch list is looked at. -/
theorem prepared_rpc_bind {call : RpcCall lib} (hloud : loud (.rpc call : TrackerOp lib) = false)
    (hsilent : Silent said) {next : call.Result → Job lib α}
    (hnext : ∀ a, Silent (said ++ [⟨.rpc call, .ok a⟩]) →
      Prog.Holds (fun _ _ => True) (Prepared watched_accounts) (said ++ [⟨.rpc call, .ok a⟩])
        (next a).run) :
    Prog.Holds (fun _ _ => True) (Prepared watched_accounts) said (Job.rpc call >>= next).run := by
  rw [Prog.holds_run_bind, holds_rpc]
  refine ⟨trivial, fun answer => ?_⟩
  have hsilent' := hsilent.snoc (e := ⟨.rpc call, answer⟩) hloud
  cases answer with
  | error stop => exact .inl hsilent'
  | ok a => exact hnext a hsilent'

theorem prepareChain_prepared (hkeyed : WellKeyed watched_accounts) (chain : Chain)
    (rpc_url : String) (hsilent : Silent said) :
    Prog.Holds (fun _ _ => True) (Prepared watched_accounts) said
      (prepareChain chain watched_accounts rpc_url : Job lib _).run := by
  unfold prepareChain
  refine prepared_rpc_bind rfl hsilent fun genesis_hash hsilent => ?_
  refine prepared_rpc_bind rfl hsilent fun _ hsilent => ?_
  refine prepared_rpc_bind rfl hsilent fun block hsilent => ?_
  refine prepared_rpc_bind rfl hsilent fun version hsilent => ?_
  refine prepared_rpc_bind rfl hsilent fun metadata hsilent => ?_
  cases lib.specName metadata with
  | none => exact .inl hsilent
  | some name =>
  simp only
  split_ifs with hname
  · exact .inl hsilent
  refine prepared_rpc_bind rfl hsilent fun specs hsilent => ?_
  refine prepared_rpc_bind rfl hsilent fun assets hsilent => ?_
  split_ifs with hassets
  · exact .inl hsilent
  rw [Prog.holds_run_bind, holds_tell]
  refine ⟨trivial, fun delivered => ?_⟩
  replace hsilent := hsilent.snoc
    (e := ⟨.send (.connectChain (retainAssets chain specs assets)), delivered⟩) rfl
  simp only
  rw [Prog.holds_run_bind, holds_iterate]
  refine ⟨trivial, fun accounts => ?_⟩
  replace hsilent := hsilent.snoc (e := ⟨.iterate watched_accounts, accounts⟩) rfl
  simp only
  rw [Prog.holds_run_bind]
  have hremaining := remaining_enumeration hkeyed accounts
  refine (counted_checkMonitored accounts.entries hremaining.nodup hremaining.keyed _).mono
    (fun _ _ _ => trivial) ?_
  intro said' result hcounted
  obtain ⟨hsub, hsweep, -⟩ := sweep_of_counted hsilent hcounted
  obtain ⟨_, -, -, -, hcalm⟩ := hcounted
  have hblock : ⟨.rpc .nextBlock, .ok block⟩ ∈ said' := hsub.subset (by simp)
  cases result with
  | error stop =>
    exact .inr ⟨fun e he => hcalm e (by cases he; rfl), _, block, hblock, hsweep⟩
  | ok removed => exact .inr ⟨nofun, _, block, hblock, hsweep⟩

theorem connect_connected (hkeyed : WellKeyed watched_accounts) (chain : Chain)
    (endpoint : String) :
    Prog.Holds (fun _ _ => True) (Connected watched_accounts) []
      (connect chain watched_accounts endpoint : Job lib _).run := by
  unfold connect
  rw [Prog.holds_run_bind, holds_attempt, holds_rpc]
  refine ⟨trivial, fun answer => ?_⟩
  have hsilent : Silent ([] ++ [⟨.rpc (.build endpoint), answer⟩] : Trace (TrackerSig lib)) :=
    Silent.nil.snoc rfl
  cases answer with
  | error stop => cases stop <;> exact .inl hsilent
  | ok =>
  simp only [Attempted]
  rw [Prog.holds_run_bind, holds_attempt]
  refine (prepareChain_prepared hkeyed chain endpoint hsilent).mono (fun _ _ h => h) ?_
  rintro said ((e | _) | ⟨watcher, watched_accounts'⟩) (h | ⟨hcalm, h⟩)
  · exact .inl h
  · exact absurd rfl (hcalm e)
  · exact .inl h
  · exact .inr ⟨fun _ h => (by cases h), h⟩
  · exact .inl h
  · exact .inr ⟨fun _ h => (by cases h), h⟩

end Connecting

/-! ## Runs -/

/-- The program that runs ends with `Post`. -/
def Tracker.EndsWith (Post : WatchedAccounts → Trace (TrackerSig lib) →
    Except Stop (Continuation lib) → Prop) (t : Tracker lib) : Prop :=
  ∀ said job, t.pc = .busy said job →
    Prog.Holds (fun _ _ => True) (Post t.watched_accounts) said job

section Runs

variable {Post : WatchedAccounts → Trace (TrackerSig lib) → Except Stop (Continuation lib) → Prop}
  (hconnect : ∀ watched_accounts endpoint, WellKeyed watched_accounts →
    Prog.Holds (fun _ _ => True) (Post watched_accounts) []
      (connect chain watched_accounts endpoint).run)
  (hnewBlock : ∀ watcher watched_accounts number, WellKeyed watched_accounts →
    Prog.Holds (fun _ _ => True) (Post watched_accounts) []
      (newBlock watcher watched_accounts number).run)
include hconnect hnewBlock

theorem TrackerStep.endsWith {t t' : Tracker lib} {e : TrackerEvent lib}
    (hs : TrackerStep chain t e t') (hsound : t.Sound) (h : t.EndsWith Post) :
    t'.EndsWith Post := by
  cases hs with
  | stopped | timedOut => exact nofun
  | turned endpoint =>
    rintro said job ⟨⟩
    exact hconnect t.watched_accounts endpoint hsound.keyed
  | said answer hpc =>
    rintro said job ⟨⟩
    exact (h _ _ hpc).2 answer
  | @settled said result hpc =>
    match result with
    | .error _ | .ok (.rotate _) | .ok (.serve _ _) => exact nofun
  | @received watcher request hpc =>
    match request with
    | .newBlock number =>
      rintro said job ⟨⟩
      exact hnewBlock watcher t.watched_accounts number hsound.keyed
    | .watchAccount request => exact fun said job hbusy => nomatch hpc.symm.trans hbusy
    | .reap _ => exact h
    | .shutdown => exact nofun

/-- What holds at the end of either program holds whenever a run comes to the end of one. -/
theorem TrackerRun.settled {h : List (Turn lib)} {t : Tracker lib}
    (run : TrackerRun lib chain h t) {x : Turn lib} (hx : x ∈ h)
    {said : Trace (TrackerSig lib)} (he : x.event = .settled said) :
    ∃ result, x.after = x.before.settle result ∧ Post x.before.watched_accounts said result ∧
      ∃ now?, Settled now? x.before.watched_accounts said result := by
  have hends : ∀ {h : List (Turn lib)} {t : Tracker lib}, TrackerRun lib chain h t →
      t.EndsWith Post := fun run =>
    run.invariant (P := fun _ t => t.EndsWith Post) (fun _ h => h ▸ nofun)
      fun _ _ _ _ run h _ hs =>
        TrackerStep.endsWith hconnect hnewBlock hs.2.2 (TrackerRun.sound run) h
  obtain ⟨h₁, h₂, rfl⟩ := List.append_of_mem hx
  obtain ⟨t₁, t₂, run₁, -, hbefore, hafter, hs⟩ := run.split
  rw [he] at hs
  cases hs with
  | @settled _ result hpc =>
    refine ⟨result, by rw [hafter, hbefore], ?_, ?_⟩
    · rw [hbefore]
      exact hends run₁ _ _ hpc
    · rw [hbefore]
      exact (TrackerRun.sound run₁).busy _ _ hpc

end Runs

/-- How a turn of a run settles. -/
theorem TrackerRun.served {h : List (Turn lib)} {t : Tracker lib}
    (run : TrackerRun lib chain h t) {x : Turn lib} (hx : x ∈ h)
    {said : Trace (TrackerSig lib)} (he : x.event = .settled said) :
    ∃ result, x.after = x.before.settle result ∧
      (Connected x.before.watched_accounts said result ∨
        ∃ watcher number, BlockServed x.before.watched_accounts watcher number said result) ∧
      ∃ now?, Settled now? x.before.watched_accounts said result :=
  @TrackerRun.settled lib chain
    (fun watched_accounts said result => Connected watched_accounts said result ∨
      ∃ watcher number, BlockServed watched_accounts watcher number said result)
    (fun _ endpoint hkeyed => (connect_connected hkeyed chain endpoint).mono (fun _ _ h => h)
      fun _ _ h => .inl h)
    (fun watcher _ number hkeyed => (newBlock_served hkeyed watcher number).mono (fun _ _ h => h)
      fun _ _ h => .inr ⟨watcher, number, h⟩)
    h t run x hx said he

/-- The order whose payment a request records. -/
def DbRequest.paid? : DbRequest → Option String
  | .markPaid order => some order
  | _ => none

/-- A request was not answered well. -/
def Served.Failed (e : Served) : Prop := ∃ err, e.reply = .error err

/-- **A pass over the watch list reports what it saw paid, and once.**  `x` is the end of a
program. -/
structure Turn.Verified (x : Turn lib) : Prop where
  /-- There is at most one report for an order. -/
  once : ∀ said, x.event = .settled said → (reports said).Nodup
  /-- A report follows a check, at the block of the pass, that found the invoice paid. -/
  checked : ∀ said, x.event = .settled said → ∀ before after id delivered,
    said = before ++ ⟨.send (.orderPaid id), delivered⟩ :: after →
    ∃ invoice watcher block balance, x.before.watched_accounts.lookup id = some invoice ∧
      (⟨.rpc .nextBlock, .ok block⟩ ∈ said ∨
        ∃ number, ⟨.rpc (.blockHash number), .ok block⟩ ∈ said) ∧
      ⟨.rpc (.balance watcher invoice block), .ok balance⟩ ∈ before ∧ invoice.amount ≤ balance
  /-- What was reported is watched no longer. -/
  removed : ∀ said, x.event = .settled said → ∀ id ∈ reports said,
    x.after.watched_accounts.lookup id = none
  /-- If what the reports ask for, in their order and among whatever else the database has to
  do, then no order that was recorded cannot be recorded. -/
  recorded : ∀ said, x.event = .settled said → ∀ account_lifetime h orders,
    Reach (LedgerStep account_lifetime) always (fun _ => True) h orders →
    (h.filterMap fun e => e.request.paid?).Sublist (reports said) →
    ∀ h₁ e h₂, h = h₁ ++ e :: h₂ → e.Failed → ∀ id, e.request.paid? = some id →
      ∀ e' ∈ h₁, e'.request.paid? = some id → e'.Failed

/-- A pass after a block finds an invoice paid twice: after a transfer to its account, and
again because it has not expired. -/
def Turn.PaidTwice (x : Turn lib) : Prop :=
  ∃ said watcher number block events now, x.event = .settled said ∧
    BlockPass watcher number block events now said ∧
    ∃ id invoice, x.before.watched_accounts.lookup id = some invoice ∧
      Received events invoice ∧ now ≤ invoice.death ∧ verdicts id said = [some true, some true]

/-- Reports that are not repeated do not record an order twice. -/
theorem recorded_of_nodup {ids : List String} (hnodup : ids.Nodup) {h : List Served}
    (hsub : (h.filterMap fun e => e.request.paid?).Sublist ids) {h₁ h₂ : List Served}
    {e e' : Served}
    (heq : h = h₁ ++ e :: h₂) {id : String} (hid : e.request.paid? = some id) (he' : e' ∈ h₁)
    (hid' : e'.request.paid? = some id) : False := by
  have hnodup' := hnodup.sublist hsub
  rw [heq, List.filterMap_append, List.filterMap_cons, hid] at hnodup'
  have hmem : id ∈ h₁.filterMap fun e => e.request.paid? := List.mem_filterMap.mpr ⟨e', he', hid'⟩
  exact (List.nodup_append.mp hnodup').2.2 id hmem id List.mem_cons_self rfl

theorem Sweep.once {watched_accounts : WatchedAccounts} {watcher : ChainWatcher lib}
    {block : BlockHash} {bound : Invoice → ℕ} {said : Trace (TrackerSig lib)}
    (h : Sweep watched_accounts watcher block bound said)
    (hone : ∀ id invoice, watched_accounts.lookup id = some invoice →
      (verdicts id said).count (some true) ≤ 1) : (reports said).Nodup := by
  refine List.nodup_iff_count_le_one.mpr fun id => ?_
  rw [h.count]
  cases hl : watched_accounts.lookup id with
  | none => simp [h.absent id hl]
  | some invoice => exact hone id invoice hl

/-- A pass that reports no order twice does what it should. -/
theorem Turn.verified_of_nodup {x : Turn lib} {said : Trace (TrackerSig lib)}
    (he : x.event = .settled said) {result : Except Stop (Continuation lib)}
    (hafter : x.after = x.before.settle result) {now? : Option Timestamp}
    (hsettled : Settled now? x.before.watched_accounts said result)
    {watcher : ChainWatcher lib} {block : BlockHash} {bound : Invoice → ℕ}
    (hsweep : Sweep x.before.watched_accounts watcher block bound said)
    (hat : ⟨.rpc .nextBlock, .ok block⟩ ∈ said ∨
      ∃ number, ⟨.rpc (.blockHash number), .ok block⟩ ∈ said)
    (hrotate : ∀ watched_accounts', result ≠ .ok (.rotate watched_accounts'))
    (hnodup : (reports said).Nodup) : x.Verified := by
  have hsaid : ∀ {said'}, x.event = .settled said' → said' = said := by
    intro said' he'
    rw [he] at he'
    injection he' with he'
    exact he'.symm
  refine ⟨?_, ?_, ?_, ?_⟩
  · intro said' he'
    rw [hsaid he']
    exact hnodup
  · intro said' he' before after id delivered heq
    obtain rfl := hsaid he'
    obtain ⟨invoice, balance, hl, hmem, hle⟩ := hsweep.justified before after id delivered heq
    exact ⟨invoice, watcher, block, balance, hl, hat, hmem, hle⟩
  · intro said' he' id hid
    obtain rfl := hsaid he'
    rw [hafter]
    match result, hsettled, hrotate with
    | .error _, _, _ => exact AList.lookup_empty id
    | .ok (.rotate watched_accounts'), _, hr => exact absurd rfl (hr watched_accounts')
    | .ok (.serve _ _), hvisited, _ =>
      have hpaid : some true ∈ verdicts id said' := by
        rw [← List.count_pos_iff, ← hsweep.count]
        exact List.count_pos_iff.mpr hid
      cases hl : x.before.watched_accounts.lookup id with
      | none => exact (hvisited.absent id hl).1
      | some invoice => exact hvisited.dropped id invoice hl (.inl hpaid)
  · intro said' he' account_lifetime h orders _ hsub h₁ e h₂ heq _ id hid e' he₁ hid'
    obtain rfl := hsaid he'
    exact (recorded_of_nodup hnodup hsub heq hid he₁ hid').elim

theorem Turn.verified_of_silent {x : Turn lib} {said : Trace (TrackerSig lib)}
    (he : x.event = .settled said) (hsilent : Silent said) : x.Verified := by
  have hno : ∀ {said'}, x.event = .settled said' → reports said' = [] := by
    intro said' he'
    rw [he] at he'
    injection he' with he'
    rw [← he', hsilent.reports]
  refine ⟨fun said' he' => ?_, fun said' he' before after id delivered heq => ?_,
    fun said' he' id hid => ?_, fun said' he' _ h _ _ hsub h₁ e h₂ heq _ id hid e' he₁ hid' => ?_⟩
  · rw [hno he']
    exact List.nodup_nil
  · have hmem : id ∈ reports said' := mem_reports.mpr ⟨delivered, by rw [heq]; simp⟩
    rw [hno he'] at hmem
    cases hmem
  · rw [hno he'] at hid
    cases hid
  · rw [hno he'] at hsub
    exact (recorded_of_nodup List.nodup_nil hsub heq hid he₁ hid').elim

theorem count_le_one_of_length {answers : List (Option Bool)} (h : answers.length ≤ 1) :
    answers.count (some true) ≤ 1 :=
  List.count_le_length.trans h

/-- Two checks that both found an invoice paid. -/
theorem eq_of_two_le_count {answers : List (Option Bool)} (hlength : answers.length ≤ 2)
    (hcount : 2 ≤ answers.count (some true)) : answers = [some true, some true] := by
  have hle : answers.count (some true) ≤ answers.length := List.count_le_length
  have hall : answers.count (some true) = answers.length := by omega
  have hsame : answers = List.replicate answers.length (some true) :=
    List.eq_replicate_iff.mpr ⟨rfl, fun b hb => (List.count_eq_length.mp hall b hb).symm⟩
  rw [hsame, show answers.length = 2 by omega]
  rfl

/-- An invoice that a pass after a block finds paid twice. -/
theorem Sweep.paidTwice {x : Turn lib} {said : Trace (TrackerSig lib)}
    {watcher : ChainWatcher lib} {number : String} {block : BlockHash} {events : List Event}
    {now : Timestamp}
    (h : Sweep x.before.watched_accounts watcher block (checksAfter events now) said)
    (he : x.event = .settled said) (hpass : BlockPass watcher number block events now said)
    {id : String} {invoice : Invoice} (hl : x.before.watched_accounts.lookup id = some invoice)
    (htwice : 2 ≤ (verdicts id said).count (some true)) : x.PaidTwice := by
  have hfew := h.few id invoice hl
  have hle : (verdicts id said).count (some true) ≤ (verdicts id said).length :=
    List.count_le_length
  have hboth : 2 ≤ checksAfter events now invoice := by omega
  have hreceived : Received events invoice = true := by
    by_contra hno
    simp only [checksAfter, Bool.not_eq_true] at hboth hno
    rw [hno] at hboth
    have := Bool.toNat_le (decide (invoice.death ≥ now))
    simp only [Bool.toNat_false] at hboth
    omega
  have hdeath : now ≤ invoice.death := by
    by_contra hno
    have := Bool.toNat_le (Received events invoice)
    rw [checksAfter, decide_eq_false hno, Bool.toNat_false] at hboth
    omega
  have hbound : checksAfter events now invoice = 2 := by
    simp [checksAfter, hreceived, hdeath]
  exact ⟨said, watcher, number, block, events, now, he, hpass, id, invoice, hl, hreceived, hdeath,
    eq_of_two_le_count (hbound ▸ hfew) htwice⟩

theorem turn_verified_iff {h : List (Turn lib)} {t : Tracker lib} (run : TrackerRun lib chain h t)
    {x : Turn lib} (hx : x ∈ h) : x.Verified ↔ ¬x.PaidTwice := by
  by_cases he : ∃ said, x.event = .settled said
  swap
  · have he' : ∀ said, x.event ≠ .settled said := fun said hsaid => he ⟨said, hsaid⟩
    refine iff_of_true ⟨?_, ?_, ?_, ?_⟩ ?_
    · exact fun said hsaid => absurd hsaid (he' said)
    · exact fun said hsaid => absurd hsaid (he' said)
    · exact fun said hsaid => absurd hsaid (he' said)
    · exact fun said hsaid => absurd hsaid (he' said)
    · rintro ⟨said, _, _, _, _, _, hsaid, -⟩
      exact he' said hsaid
  obtain ⟨said, he⟩ := he
  obtain ⟨result, hafter, hserved, now?, hsettled⟩ := TrackerRun.served run hx he
  constructor
  · rintro hverified ⟨said', watcher, number, block, events, now, he', hpass, id, invoice, hl, -, -,
      htwice⟩
    obtain rfl : said' = said := by
      rw [he] at he'
      injection he' with he'
      exact he'.symm
    have hcount : (verdicts id said').count (some true) = 2 := by rw [htwice]; rfl
    have hloud : ¬Silent said' := fun hsilent => by simp [hsilent.verdicts] at htwice
    have hreports : (reports said').count id = 2 := by
      rcases hserved with (hsilent | ⟨-, _, _, -, hsweep⟩) |
        ⟨_, _, ⟨hsilent, -⟩ | ⟨-, _, _, _, -, hsweep, -⟩⟩
      · exact absurd hsilent hloud
      · rw [hsweep.count, hcount]
      · exact absurd hsilent hloud
      · rw [hsweep.count, hcount]
    have hone := List.nodup_iff_count_le_one.mp (hverified.once said' he) id
    omega
  · intro htwice
    rcases hserved with (hsilent | ⟨hrotate, watcher, block, hblock, hsweep⟩) |
      ⟨watcher, number, ⟨hsilent, -⟩ | ⟨hrotate, block, events, now, hpass, hsweep, -⟩⟩
    · exact Turn.verified_of_silent he hsilent
    · refine Turn.verified_of_nodup he hafter hsettled hsweep (.inl hblock) hrotate
        (hsweep.once fun id invoice hl => ?_)
      exact count_le_one_of_length (hsweep.few id invoice hl)
    · exact Turn.verified_of_silent he hsilent
    · refine Turn.verified_of_nodup he hafter hsettled hsweep
        (.inr ⟨number, hpass.hash⟩) hrotate (hsweep.once fun id invoice hl => ?_)
      by_contra hmany
      exact htwice (hsweep.paidTwice he hpass hl (by omega))

/-- **A run reports what it saw paid, and once, exactly when no pass finds an invoice paid
twice.** -/
theorem turns_verified_iff {h : List (Turn lib)} {t : Tracker lib}
    (run : TrackerRun lib chain h t) :
    (∀ x ∈ h, x.Verified) ↔ ∀ x ∈ h, ¬x.PaidTwice :=
  forall₂_congr fun _ hx => turn_verified_iff run hx

/-! ## A payment that is reported twice -/

namespace Sample

/-- A transfer to the account. -/
def transfer : Event := ⟨"Balances", "Transfer", [(some "to", .id account)]⟩

/-- The node, at a block with that transfer. -/
def nodeWithTransfer (balance : Balance) (now : Timestamp) :
    ∀ o : TrackerOp libraries, (TrackerSig libraries).Answer o
  | .rpc (.transferEvents ..) => .ok [transfer]
  | o => node balance now o

/-- As `oneBlock`, with the transfer in the block. -/
def oneTransfer (balance : Balance) (now : Timestamp) (operations : ℕ) :
    List (TrackerAction libraries) :=
  .turn :: (List.replicate 10 (.answer (node balance now)) ++
    [.settle, .receive (.watchAccount request), .receive (.newBlock "0x1")] ++
    List.replicate operations (.answer (nodeWithTransfer balance now)) ++ [.settle])

end Sample

theorem Turn.settled_of_reports {x : Turn lib} {id : String} (h : id ∈ reports x.conversation) :
    ∃ said, x.event = .settled said ∧ id ∈ reports said := by
  unfold Turn.conversation at h
  split at h
  · next said he => exact ⟨said, he, h⟩
  · cases h

/-- An invoice that has expired is checked once, and reported. -/
theorem turns_verified_iff_oneTransfer : ∃ h t,
    TrackerRun Sample.libraries Sample.polkadot h t ∧
      (∃ x ∈ h, ∃ said, x.event = .settled said ∧ "order" ∈ reports said) ∧
        ∀ x ∈ h, x.Verified := by
  obtain ⟨h, t, run, hp⟩ := exists_reach_of_replay (turnExec_sound Sample.polkadot)
    (· = Tracker.start) rfl (Sample.oneTransfer 10 2000 7)
    (p := fun q => q.1.any (fun x => (reports x.conversation).contains "order") &&
      q.1.all fun x => x.before.watched_accounts.keys.all fun id =>
        verdicts id x.conversation != [some true, some true]) (by decide +kernel)
  simp only [Bool.and_eq_true, List.any_eq_true, List.all_eq_true, List.contains_iff_mem] at hp
  obtain ⟨⟨x, hx, hreport⟩, honce⟩ := hp
  refine ⟨h, t, run, ⟨x, hx, x.settled_of_reports hreport⟩, (turns_verified_iff run).mpr ?_⟩
  · rintro y hy ⟨said, -, -, -, -, -, he, -, id, invoice, hl, -, -, htwice⟩
    have hkey : id ∈ y.before.watched_accounts.keys :=
      AList.mem_keys.mp (AList.lookup_isSome.mp (by rw [hl]; rfl))
    have hne := honce y hy id hkey
    rw [y.conversation_of_settled he, htwice] at hne
    exact absurd hne (by decide)

/-- **An order that is reported twice.**  A transfer pays it long before its death. -/
theorem order_reported_twice : ∃ h t, TrackerRun Sample.libraries Sample.polkadot h t ∧
    ¬∀ x ∈ h, x.Verified := by
  obtain ⟨h, t, run, hp⟩ := exists_reach_of_replay (turnExec_sound Sample.polkadot)
    (· = Tracker.start) rfl (Sample.oneTransfer 10 5 9)
    (p := fun q => q.1.any fun x => reports x.conversation == ["order", "order"])
    (by decide +kernel)
  obtain ⟨x, hx, hreport⟩ := List.any_eq_true.mp hp
  have hreports : reports x.conversation = ["order", "order"] := beq_iff_eq.mp hreport
  refine ⟨h, t, run, fun hverified => ?_⟩
  obtain ⟨said, he, -⟩ := x.settled_of_reports (hreports ▸ List.mem_cons_self)
  have hnodup := (hverified x hx).once said he
  rw [← x.conversation_of_settled he, hreports] at hnodup
  exact absurd hnodup (by decide)

end Kalatori
