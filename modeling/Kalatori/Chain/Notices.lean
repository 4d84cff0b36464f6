import Kalatori.Chain.Balances
import Kalatori.Chain.Receivers
import Kalatori.Chain.Reports

/-!
# Which payments are noticed

After a block a tracker checks the invoices whose account received a transfer of
the native token, and, whatever they received, those that have not expired; the
comparison with the death of an invoice is the wrong way round, and hides that no
transfer of an asset is looked for.  So an invoice in an asset is noticed as long
as it lives, and never after its death.  A check fails where the account has no
entry in the storage, so an invoice over nothing may go unnoticed too.

* `newBlock_heard`: what is said before the pass over the watch list.
* `verdicts_eq`: what the checks of an invoice find, when the node is truthful.
* `told_iff`: which of the paid invoices are reported.
* `noticed_iff`: when every payment in a block is noticed.
-/

namespace Kalatori

open Program Transition

variable {lib : Libraries} {chain : Chain}

/-! ## A pass that comes to its end -/

/-- The requests of the branch `NewBlock` before its pass over the watch list, and then checks
and reports. -/
def Heard (said : Trace (TrackerSig lib)) : Prop :=
  ∃ (number : String) (hash : Except Stop BlockHash) (block : BlockHash)
    (version : Except Stop Json) (metadata : lib.Metadata) (events : Except Stop (List Event))
    (now : Timestamp) (watched_accounts : WatchedAccounts)
    (accounts : Enumeration watched_accounts) (seg : Trace (TrackerSig lib)),
    said = [⟨.rpc (.blockHash number), hash⟩, ⟨.rpc (.runtimeVersionIdentifier block), version⟩,
      ⟨.rpc (.transferEvents block metadata), events⟩, ⟨.now, now⟩,
      ⟨.iterate watched_accounts, accounts⟩] ++ seg ∧ ∀ e ∈ seg, loud e.1 = true

theorem newBlock_heard (watched_accounts : WatchedAccounts) (watcher : ChainWatcher lib)
    (number : String) :
    Prog.Holds (fun _ _ => True)
      (fun said result => (∃ watcher' accounts', result = .ok (.serve watcher' accounts')) →
        Heard said) []
      (newBlock watcher watched_accounts number).run := by
  unfold newBlock
  rw [Prog.holds_run_bind, holds_attempt, holds_rpc]
  refine ⟨trivial, fun hash => ?_⟩
  cases hash with
  | error stop => cases stop <;> rintro ⟨_, _, ⟨⟩⟩
  | ok block =>
  simp only [Attempted]
  rw [Prog.holds_run_bind, holds_rpc]
  refine ⟨trivial, fun version => ?_⟩
  cases version with
  | error stop => rintro ⟨_, _, ⟨⟩⟩
  | ok version =>
  simp only
  by_cases hversion : watcher.version != version
  · rw [if_pos hversion]
    rintro ⟨_, _, ⟨⟩⟩
  rw [if_neg hversion]
  rw [Prog.holds_run_bind, holds_attempt, holds_rpc]
  refine ⟨trivial, fun events => ?_⟩
  cases events with
  | error stop => cases stop <;> rintro ⟨_, _, ⟨⟩⟩
  | ok events =>
  simp only [Attempted]
  rw [Prog.holds_run_bind, holds_now]
  refine ⟨trivial, fun now => ?_⟩
  simp only
  rw [Prog.holds_run_bind, holds_iterate]
  refine ⟨trivial, fun accounts => ?_⟩
  simp only
  rw [Prog.holds_run_bind]
  have hchecks := (checks_checkInvoices watcher block events now accounts.entries
    ([⟨.rpc (.blockHash number), .ok block⟩,
      ⟨.rpc (.runtimeVersionIdentifier block), .ok version⟩,
      ⟨.rpc (.transferEvents block watcher.metadata), .ok events⟩, ⟨.now, now⟩,
      ⟨.iterate watched_accounts, accounts⟩])).ops
  refine Prog.Holds.mono hchecks (fun _ _ _ => trivial) ?_
  rintro said result ⟨⟨seg, hsaid, hseg⟩, -⟩
  have hheard : Heard said :=
    ⟨number, .ok block, block, .ok version, watcher.metadata, .ok events, now, watched_accounts,
      accounts, seg, hsaid, fun e he => (hseg e he).loud⟩
  cases result with
  | error stop => exact fun _ => hheard
  | ok removed => exact fun _ => hheard

/-- The operations that the branch performs once and that the pass depends on. -/
def stage : TrackerOp lib → ℕ
  | .rpc (.blockHash _) => 1
  | .rpc (.transferEvents ..) => 2
  | .now => 3
  | _ => 0

theorem stage_of_loud {o : TrackerOp lib} (h : loud o = true) : stage o = 0 := by
  unfold loud at h
  split at h
  · rfl
  · rfl
  · cases h

theorem Heard.unique {said : Trace (TrackerSig lib)} (h : Heard said)
    {e e' : Exchange (TrackerSig lib)} (he : e ∈ said) (he' : e' ∈ said) (hstage : stage e.1 ≠ 0)
    (heq : stage e'.1 = stage e.1) : e' = e := by
  obtain ⟨number, hash, block, version, metadata, events, now, watched_accounts, accounts, seg,
    rfl, hloud⟩ := h
  have hfirst : ∀ x : Exchange (TrackerSig lib),
      x ∈ ([⟨.rpc (.blockHash number), hash⟩, ⟨.rpc (.runtimeVersionIdentifier block), version⟩,
        ⟨.rpc (.transferEvents block metadata), events⟩, ⟨.now, now⟩,
        ⟨.iterate watched_accounts, accounts⟩] ++ seg : Trace (TrackerSig lib)) →
      stage x.1 ≠ 0 → x = ⟨.rpc (.blockHash number), hash⟩ ∨
        x = ⟨.rpc (.transferEvents block metadata), events⟩ ∨ x = ⟨.now, now⟩ := by
    intro x hx hstage
    simp only [List.cons_append, List.nil_append, List.mem_cons] at hx
    rcases hx with rfl | rfl | rfl | rfl | rfl | hx
    · exact .inl rfl
    · exact absurd rfl hstage
    · exact .inr (.inl rfl)
    · exact .inr (.inr rfl)
    · exact absurd rfl hstage
    · exact absurd (stage_of_loud (hloud x hx)) hstage
  rcases hfirst e he hstage with rfl | rfl | rfl <;>
    rcases hfirst e' he' (heq ▸ hstage) with rfl | rfl | rfl <;>
    first | rfl | cases heq

/-- A conversation tells of one pass. -/
theorem BlockPass.unique {said : Trace (TrackerSig lib)} (hheard : Heard said)
    {watcher : ChainWatcher lib} {number number' : String} {block block' : BlockHash}
    {events events' : List Event} {now now' : Timestamp}
    (h : BlockPass watcher number block events now said)
    (h' : BlockPass watcher number' block' events' now' said) :
    block' = block ∧ events' = events ∧ now' = now := by
  have hhash := hheard.unique h.hash h'.hash (by simp [stage]) rfl
  have hevents := hheard.unique h.events h'.events (by simp [stage]) rfl
  have hnow := hheard.unique h.now h'.now (by simp [stage]) rfl
  refine ⟨?_, ?_, ?_⟩
  · cases hhash
    rfl
  · cases hevents
    rfl
  · cases hnow
    rfl

/-- A turn ends a pass after a block, and the tracker goes on. -/
structure Turn.Passes (x : Turn lib) (watcher : ChainWatcher lib) (block : BlockHash)
    (found : List Event) (now : Timestamp) (said : Trace (TrackerSig lib)) : Prop where
  event : x.event = .settled said
  pass : ∃ number, BlockPass watcher number block found now said
  goes_on : x.after.pc = .serve watcher

/-- A program that ends with the tracker going on, after a look at the clock, made a pass after a
block. -/
theorem TrackerRun.passed {h : List (Turn lib)} {t : Tracker lib} (run : TrackerRun lib chain h t)
    {x : Turn lib} (hx : x ∈ h) {watcher : ChainWatcher lib} {said : Trace (TrackerSig lib)}
    (he : x.event = .settled said) (hpc : x.after.pc = .serve watcher) (hclock : clock said ≠ []) :
    Heard said ∧ ∃ number block found now, BlockPass watcher number block found now said ∧
      Sweep x.before.watched_accounts watcher block (checksAfter found now) said ∧
      ∀ id invoice, x.before.watched_accounts.lookup id = some invoice →
        (verdicts id said).length = checksAfter found now invoice := by
  obtain ⟨result, hafter, hend, -⟩ := @TrackerRun.settled lib chain
    (fun watched_accounts said result =>
      (∀ watcher accounts, result = .ok (.serve watcher accounts) → clock said = []) ∨
        ((∃ watcher accounts, result = .ok (.serve watcher accounts)) → Heard said) ∧
          ∃ watcher number, BlockServed watched_accounts watcher number said result)
    (fun watched_accounts endpoint hkeyed =>
      (connect_spec hkeyed chain endpoint).mono (fun _ _ _ => trivial) (by
        rintro said result ⟨hsettled, -⟩
        refine .inl fun watcher accounts hresult => ?_
        rw [hresult] at hsettled
        exact hsettled.clock))
    (fun watcher watched_accounts number hkeyed =>
      ((newBlock_heard watched_accounts watcher number).and
        (newBlock_served hkeyed watcher number)).mono (fun _ _ _ => trivial)
        fun _ _ h => .inr ⟨h.1, watcher, number, h.2⟩)
    h t run x hx said he
  have hserve : ∃ accounts, result = .ok (.serve watcher accounts) := by
    rw [hafter] at hpc
    match result with
    | .ok (.rotate _) | .error _ => cases hpc
    | .ok (.serve _ accounts) =>
      cases hpc
      exact ⟨accounts, rfl⟩
  obtain ⟨accounts, rfl⟩ := hserve
  rcases hend with hnone | ⟨hheard, watcher', number, hserved⟩
  · exact absurd (hnone watcher accounts rfl) hclock
  · rcases hserved with ⟨-, hnot⟩ | ⟨-, block, found, now, hblock, hsweep, hfull⟩
    · exact absurd rfl (hnot watcher accounts)
    · obtain ⟨rfl, hlength⟩ := hfull watcher accounts rfl
      exact ⟨hheard ⟨watcher, accounts, rfl⟩, number, block, found, now, hblock, hsweep, hlength⟩

/-- What is asked and reported in a pass that comes to its end. -/
theorem Turn.Passes.sweep {h : List (Turn lib)} {t : Tracker lib} (run : TrackerRun lib chain h t)
    {x : Turn lib} (hx : x ∈ h) {watcher : ChainWatcher lib} {block : BlockHash}
    {found : List Event} {now : Timestamp} {said : Trace (TrackerSig lib)}
    (hpass : x.Passes watcher block found now said) :
    Sweep x.before.watched_accounts watcher block (checksAfter found now) said ∧
      ∀ id invoice, x.before.watched_accounts.lookup id = some invoice →
        (verdicts id said).length = checksAfter found now invoice := by
  obtain ⟨number, hblock⟩ := hpass.pass
  have hnow : now ∈ clock said := List.mem_filterMap.mpr ⟨_, hblock.now, rfl⟩
  obtain ⟨hheard, number', block', found', now', hblock', hsweep, hlength⟩ :=
    run.passed hx hpass.event hpass.goes_on (List.ne_nil_of_mem hnow)
  obtain ⟨rfl, rfl, rfl⟩ := BlockPass.unique hheard hblock hblock'
  exact ⟨hsweep, hlength⟩

/-! ## What a transfer is -/

/-- The event says that a currency with these properties was transferred. -/
def Event.Moves (event : Event) (properties : CurrencyProperties) : Prop :=
  match properties.kind with
  | .native => event.pallet_name = "Balances" ∧ event.variant_name = "Transfer"
  | .asset => event.pallet_name = "Assets" ∧ event.variant_name = "Transferred" ∧
      ∃ asset_id, properties.asset_id = some asset_id ∧
        (some "asset_id", .primitiveU32 asset_id) ∈ event.fields

/-- The event names the account, and no other, as the receiver. -/
def Event.To (event : Event) (account : AccountId32) : Prop :=
  (event.fields.filter fun field => field.1 = some "to") = [(some "to", .id account)]

/-- The account of an invoice received a transfer of its own currency. -/
def ReceivedOwn (watcher : ChainWatcher lib) (events : List Event) (invoice : Invoice) : Prop :=
  ∃ properties event, watcher.assets.lookup invoice.currency = some properties ∧ event ∈ events ∧
    event.Moves properties ∧ event.To invoice.address

/-- An event that names the account, and no other, names one receiver. -/
theorem Event.To.receivers {event : Event} {account : AccountId32} (h : event.To account) :
    receivers event.fields = [account] := by
  have hfields : (event.fields.filter fun field => field.1 = some "to").filterMap receiver =
      event.fields.filterMap receiver := by
    rw [List.filterMap_filter]
    refine List.filterMap_congr fun field _ => ?_
    split_ifs with hname
    · rfl
    · cases hreceiver : receiver field with
      | none => rfl
      | some account =>
        obtain rfl := receiver_eq_some_iff.mp hreceiver
        exact absurd rfl hname
  rw [Kalatori.receivers, ← hfields, h]
  rfl

/-! ## Which invoices are reported -/

section Notices

variable (parser : Parser lib.Metadata) (library : BalanceLibrary lib.Metadata) (node : Node)
  (watcher : ChainWatcher lib) (block : BlockHash)
  (entryOf : AccountId32 → String → Option Balance)

/-- All requests of a pass were answered, and truthfully: what the calls for the events of the
block and for balances returned, they made of the answers of a node to their requests. -/
structure TrulyAnswered (said : Trace (TrackerSig lib)) : Prop where
  served : ∀ n, node.answered n = true
  events : ∀ found, ⟨.rpc (.transferEvents block watcher.metadata), .ok found⟩ ∈ said →
    (Prog.play node.answers 0 (transferEvents parser watcher.metadata block).run).1 = .ok found
  balance : ∀ invoice answer, ⟨.rpc (.balance watcher invoice block), answer⟩ ∈ said →
    ∃ n, answer = (Prog.play node.answers n (invoice.balance library watcher block).run).1

/-- The ledger at the block has these entries for the accounts of the invoices on a list, in
their currencies. -/
def HoldsEntries (watched_accounts : WatchedAccounts) : Prop :=
  ∀ id invoice properties, watched_accounts.lookup id = some invoice →
    watcher.assets.lookup invoice.currency = some properties →
      LedgerEntry library watcher.metadata (node.state block) invoice.address
        (entryOf invoice.address invoice.currency) properties.asset_id

/-- **The invoice was paid in the block**: its account received a transfer of its own currency,
and holds at least its amount. -/
structure PaidInBlock (events : List Event) (invoice : Invoice) : Prop where
  received : ReceivedOwn watcher events invoice
  enough : invoice.amount ≤ (entryOf invoice.address invoice.currency).getD 0

variable {parser library node watcher block entryOf} {h : List (Turn lib)} {t : Tracker lib}
  {x : Turn lib} {found : List Event} {now : Timestamp} {said : Trace (TrackerSig lib)}

/-- **What the checks of an invoice find**: its balance, or a failure where there is no entry. -/
theorem verdicts_eq (run : TrackerRun lib chain h t) (hx : x ∈ h)
    (hpass : x.Passes watcher block found now said)
    (hanswered : TrulyAnswered parser library node watcher block said)
    (hentries : HoldsEntries library node watcher block entryOf x.before.watched_accounts)
    {id : String} {invoice : Invoice} {properties : CurrencyProperties}
    (hl : x.before.watched_accounts.lookup id = some invoice)
    (hcurrency : watcher.assets.lookup invoice.currency = some properties) :
    verdicts id said = List.replicate (checksAfter found now invoice)
      ((entryOf invoice.address invoice.currency).map fun balance =>
        decide (invoice.amount ≤ balance)) := by
  obtain ⟨hsweep, hlength⟩ := hpass.sweep run hx
  have hkeyed : WellKeyed x.before.watched_accounts := by
    obtain ⟨h₁, h₂, rfl⟩ := List.append_of_mem hx
    obtain ⟨t₁, t₂, run₁, -, hbefore, -, -⟩ := run.split
    rw [hbefore]
    exact (TrackerRun.sound run₁).keyed
  have hledger := hentries id invoice properties hl hcurrency
  have hread : ∀ answer, ⟨.rpc (.balance watcher invoice block), answer⟩ ∈ said →
      answer = (entryOf invoice.address invoice.currency).elim
        (.error (.failed (noEntryError properties.asset_id))) .ok := by
    intro answer hsaid
    obtain ⟨n, rfl⟩ := hanswered.balance invoice answer hsaid
    exact play_balance hanswered.served hcurrency hledger
  have hsame : ∀ watcher' invoice' block' answer,
      ⟨.rpc (.balance watcher' invoice' block'), answer⟩ ∈ said → invoice'.id = id →
      watcher' = watcher ∧ invoice' = invoice ∧ block' = block := by
    intro watcher' invoice' block' answer hsaid hid
    obtain ⟨rfl, rfl, id', hl'⟩ := hsweep.asked _ _ _ _ hsaid
    obtain rfl : id' = id := (hkeyed id' invoice' hl').symm.trans hid
    exact ⟨rfl, Option.some.inj (hl'.symm.trans hl), rfl⟩
  refine List.eq_replicate_iff.mpr ⟨hlength id invoice hl, fun answer hmem => ?_⟩
  obtain ⟨exchange, hsaid, hverdict⟩ := List.mem_filterMap.mp hmem
  unfold verdict at hverdict
  split at hverdict
  · rename_i watcher' invoice' block' balance
    split_ifs at hverdict with hid
    obtain ⟨rfl, rfl, rfl⟩ := hsame _ _ _ _ hsaid hid
    have hanswer := hread _ hsaid
    cases hentry : entryOf invoice'.address invoice'.currency with
    | none =>
      rw [hentry] at hanswer
      cases hanswer
    | some entry =>
      rw [hentry] at hanswer
      rw [← Option.some.inj hverdict, Except.ok.inj hanswer]
      rfl
  · rename_i watcher' invoice' block' stop
    split_ifs at hverdict with hid
    obtain ⟨rfl, rfl, rfl⟩ := hsame _ _ _ _ hsaid hid
    have hanswer := hread _ hsaid
    cases hentry : entryOf invoice'.address invoice'.currency with
    | none => exact (Option.some.inj hverdict).symm
    | some entry =>
      rw [hentry] at hanswer
      cases hanswer
  · cases hverdict

/-- **Which of the paid invoices are reported**: those with an entry, if a transfer to them was
found or they have not expired. -/
theorem told_iff (run : TrackerRun lib chain h t) (hx : x ∈ h)
    (hpass : x.Passes watcher block found now said)
    (hanswered : TrulyAnswered parser library node watcher block said)
    (hentries : HoldsEntries library node watcher block entryOf x.before.watched_accounts)
    {id : String} {invoice : Invoice} {events : List Event}
    (hl : x.before.watched_accounts.lookup id = some invoice)
    (hpaid : PaidInBlock watcher entryOf events invoice) :
    Told said id ↔ entryOf invoice.address invoice.currency ≠ none ∧
      (now ≤ invoice.death ∨ Received found invoice) := by
  obtain ⟨properties, -, hcurrency, -⟩ := hpaid.received
  obtain ⟨hsweep, -⟩ := hpass.sweep run hx
  have henough := hpaid.enough
  rw [← mem_reports, ← List.count_pos_iff, hsweep.count,
    verdicts_eq run hx hpass hanswered hentries hl hcurrency]
  cases hentry : entryOf invoice.address invoice.currency with
  | none => simp [List.count_replicate]
  | some balance =>
    rw [hentry, Option.getD_some] at henough
    rw [Option.map_some, decide_eq_true henough, List.count_replicate_self, checksAfter]
    cases hreceived : Received found invoice with
    | true => simp
    | false =>
      by_cases hdeath : now ≤ invoice.death
      · simp [hdeath]
      · simp [hdeath]

/-- What a node that answers lets the tracker find. -/
theorem found_eq {events : List Event}
    (hholds : HoldsEvents parser node watcher.metadata block events)
    (hfound : (Prog.play node.answers 0 (transferEvents parser watcher.metadata block).run).1 =
      .ok found) :
    found = if FirstPageHasKey parser node block then balanceTransfers events else [] := by
  cases hentry : eventsEntryMetadata parser watcher.metadata with
  | error e =>
    rw [transferEvents, hentry] at hfound
    cases hfound
  | ok events_entry =>
    split
    · rename_i hpage
      exact transferEvents_found hholds hentry hpage hfound
    · rename_i hpage
      rw [transferEvents_none hholds hentry hpage] at hfound
      exact (Except.ok.inj hfound).symm

/-- **A payment in a block is noticed exactly if** the account of its invoice has an entry, and
the invoice has not expired, or the scan finds the events of the block and among them a transfer
of the native token to its account. -/
theorem noticed_iff {events : List Event} (run : TrackerRun lib chain h t) (hx : x ∈ h)
    (hpass : x.Passes watcher block found now said)
    (hholds : HoldsEvents parser node watcher.metadata block events)
    (hentries : HoldsEntries library node watcher block entryOf x.before.watched_accounts)
    (hanswered : TrulyAnswered parser library node watcher block said) :
    (∀ id invoice, x.before.watched_accounts.lookup id = some invoice →
      PaidInBlock watcher entryOf events invoice → Told said id) ↔
    ∀ id invoice, x.before.watched_accounts.lookup id = some invoice →
      PaidInBlock watcher entryOf events invoice →
        entryOf invoice.address invoice.currency ≠ none ∧ (now ≤ invoice.death ∨
          FirstPageHasKey parser node block ∧ Received (balanceTransfers events) invoice) := by
  obtain ⟨number, hblock⟩ := hpass.pass
  have hfound := found_eq hholds (hanswered.events found hblock.events)
  refine forall₂_congr fun id invoice => forall₂_congr fun hl hpaid => ?_
  rw [told_iff run hx hpass hanswered hentries hl hpaid, hfound]
  refine and_congr_right fun _ => or_congr Iff.rfl ?_
  split
  · rename_i hpage
    exact ⟨fun hreceived => ⟨hpage, hreceived⟩, fun hreceived => hreceived.2⟩
  · rename_i hpage
    refine iff_of_false ?_ fun hreceived => hpage hreceived.1
    exact Bool.false_ne_true

end Notices

/-! ## Two payments after the death of an invoice -/

namespace Sample

/-- An account that nobody has paid to, and its key. -/
def openAccount : AccountId32 := ⟨Vector.replicate 32 1⟩

def openAccountKey : List UInt8 :=
  [38, 170, 57, 78, 234, 86, 48, 224, 124, 72, 174, 12, 149, 88, 206, 247] ++
  [185, 157, 136, 14, 198, 129, 121, 156, 12, 243, 14, 136, 134, 55, 29, 169] ++
  [192, 53, 248, 83, 252, 208, 240, 88, 158, 48, 201, 226, 220, 26, 15, 87] ++
  openAccount.bytes.toList

/-- The record of an account with 1000 of an asset, as it is stored. -/
def storedAssetAccount : List UInt8 := [232, 3] ++ List.replicate 16 0

def assetAccount : ParsedData :=
  .composite [(some "balance", .primitiveU128 1000 true), (some "status", .other),
    (some "reason", .other), (some "extra", .other)]

/-- Libraries for these accounts and their records. -/
def accountsLibrary : BalanceLibrary libraries.Metadata where
  toStorageLibrary := balanceLibrary.toStorageLibrary
  storageKey query :=
    match query.key with
    | some (.specialType (.accountId32 (some owner))) =>
      if owner = account then accountKey else openAccountKey
    | _ => assetAccountKey
  decodeAllAsType _ _ value :=
    if value = storedAccountInfo then some accountInfo
    else if value = storedAssetAccount then some assetAccount else none

/-- A block with these events, and with the records of one of the accounts. -/
def paidState (stored : List UInt8) : ChainState where
  entries := [(eventsKey parser, stored), (accountKey, storedAccountInfo),
    (assetAccountKey, storedAssetAccount)]
  ordered := by
    have hkeys : [eventsKey parser, accountKey, assetAccountKey].Pairwise (· < ·) := by
      decide +kernel
    exact List.pairwise_map.mp hkeys

def paidNode (stored : List UInt8) : Node where
  state _ := paidState stored
  best _ := paidState stored
  answered _ := true

theorem paidState_get (stored : List UInt8) :
    (paidState stored).get accountKey = some storedAccountInfo ∧
      (paidState stored).get assetAccountKey = some storedAssetAccount ∧
      (paidState stored).get openAccountKey = none := by
  have h₁ : eventsKey parser ≠ accountKey := by decide +kernel
  have h₂ : eventsKey parser ≠ assetAccountKey := by decide +kernel
  have h₃ : eventsKey parser ≠ openAccountKey := by decide +kernel
  have h₄ : accountKey ≠ assetAccountKey := by decide +kernel
  have h₅ : accountKey ≠ openAccountKey := by decide +kernel
  have h₆ : assetAccountKey ≠ openAccountKey := by decide +kernel
  simp [ChainState.get, paidState, h₁, h₂, h₃, h₄, h₅, h₆]

theorem paidNode_holds {stored : List UInt8} {event : Event}
    (hdecode : ∀ metadata entry key,
      parser.decodeAsStorageEntry metadata entry key stored = some (oneRecord event))
    (metadata : libraries.Metadata) :
    HoldsEvents parser (paidNode stored) metadata zeroBlock [event] := by
  have hplain : (paidState stored).Plain (eventsKey parser) := by
    intro key hmem hprefix
    have hkeys : ∀ key ∈ [eventsKey parser, accountKey, assetAccountKey],
        eventsKey parser <+: key → key = eventsKey parser := by decide +kernel
    exact hkeys key hmem hprefix
  refine ⟨hplain, hplain, .inr ⟨stored, ?_, fun events_entry _ => ⟨oneRecord event, hdecode _ _ _,
    List.Forall₂.cons rfl .nil⟩⟩⟩
  show ((List.find? _ ((eventsKey parser, stored) :: _)).map Prod.snd) = _
  rw [List.find?_cons_of_pos (by simp)]
  rfl

theorem paidNode_firstPageHasKey (stored : List UInt8) :
    FirstPageHasKey parser (paidNode stored) zeroBlock :=
  ⟨rfl, lt_eventsKey (List.replicate 31 0), List.mem_cons_self⟩

/-- What the accounts hold. -/
def holdings (owner : AccountId32) (_ : String) : Option Balance :=
  if owner = account then some 1000 else none

/-- The invoice is in this currency, and for the one account, or in the native token for the
other. -/
def known (properties : CurrencyProperties) (watcher : ChainWatcher libraries)
    (invoice : Invoice) : Bool :=
  watcher.assets.lookup invoice.currency = some properties &&
    (invoice.address = account || invoice.address = openAccount && properties.asset_id = none)

/-- A currency of these chains. -/
def Listed (properties : CurrencyProperties) : Prop :=
  properties.asset_id = none ∨ properties.asset_id = some 1984

theorem ledgerEntry_known {properties : CurrencyProperties} (hlisted : Listed properties)
    {watcher : ChainWatcher libraries} {invoice : Invoice}
    (h : known properties watcher invoice = true) (stored : List UInt8) :
    watcher.assets.lookup invoice.currency = some properties ∧
      LedgerEntry accountsLibrary watcher.metadata ((paidNode stored).state zeroBlock)
        invoice.address (holdings invoice.address invoice.currency) properties.asset_id := by
  simp only [known, Bool.and_eq_true, Bool.or_eq_true, decide_eq_true_eq] at h
  obtain ⟨hcurrency, haddress⟩ := h
  obtain ⟨hnative, hasset, hopen⟩ := paidState_get stored
  refine ⟨hcurrency, ?_⟩
  have hdistinct : openAccount ≠ account := by decide
  have hother : storedAssetAccount ≠ storedAccountInfo := by decide +kernel
  rcases haddress with haddress | ⟨haddress, hid⟩
  · rw [haddress, holdings, if_pos rfl]
    rcases hlisted with hid | hid
    · rw [hid]
      exact ⟨_, describes_account _ _, storedAccountInfo, accountInfo, hnative,
        by simp [accountsLibrary], _, rfl, rfl⟩
    · rw [hid]
      exact ⟨_, describes_assetAccount _ _, storedAssetAccount, assetAccount, hasset,
        by simp [accountsLibrary, hother], _, rfl⟩
  · rw [haddress, holdings, if_neg hdistinct, hid]
    exact ⟨_, describes_account _ _, hopen⟩

/-- The node at a block with a transfer, at the hour `2000`, when every transfer of the native
token that it holds is found. -/
def nodeWithEvents (found : List Event) :
    ∀ o : TrackerOp libraries, (TrackerSig libraries).Answer o
  | .rpc (.transferEvents ..) => .ok found
  | .rpc (.balance _ invoice _) =>
    if invoice.address = account then .ok 1000 else .error (.failed .balanceNotFound)
  | o => node 1000 2000 o

/-- What is read of the account of an invoice. -/
def balanceTold (invoice : Invoice) : Except Stop Balance → Bool
  | .ok balance => invoice.address = account && balance = 1000
  | .error (.failed error) => invoice.address = openAccount && error = .balanceNotFound
  | .error .panicked => false

theorem told_of_balanceTold {invoice : Invoice} {answer : Except Stop Balance}
    (h : balanceTold invoice answer = true) :
    (invoice.address = account ∧ answer = .ok 1000) ∨
      (invoice.address = openAccount ∧ answer = .error (.failed .balanceNotFound)) := by
  rcases answer with (error | -) | balance
  · simp only [balanceTold, Bool.and_eq_true, decide_eq_true_eq] at h
    exact .inr ⟨h.1, h.2 ▸ rfl⟩
  · cases h
  · simp only [balanceTold, Bool.and_eq_true, decide_eq_true_eq] at h
    exact .inl ⟨h.1, h.2 ▸ rfl⟩

/-- What that node says of one exchange, in a chain with this currency. -/
def toldTruly (properties : CurrencyProperties) (isFound : List Event → Bool) :
    Exchange (TrackerSig libraries) → Bool
  | ⟨.rpc (.blockHash _), .ok hash⟩ => hash = zeroBlock
  | ⟨.rpc (.transferEvents ..), .ok found⟩ => isFound found
  | ⟨.rpc (.balance watcher invoice _), answer⟩ =>
    known properties watcher invoice && balanceTold invoice answer
  | ⟨.now, now⟩ => now = 2000
  | _ => true

theorem trulyAnswered_of_toldTruly {properties : CurrencyProperties} (hlisted : Listed properties)
    {isFound : List Event → Bool} {event : Event} {stored : List UInt8}
    (hdecode : ∀ metadata entry key,
      parser.decodeAsStorageEntry metadata entry key stored = some (oneRecord event))
    (hfound : ∀ found, isFound found = true → found = balanceTransfers [event])
    {watcher : ChainWatcher libraries} {said : Trace (TrackerSig libraries)}
    (h : ∀ e ∈ said, toldTruly properties isFound e = true) :
    TrulyAnswered parser accountsLibrary (paidNode stored) watcher zeroBlock said where
  served _ := rfl
  events found hmem := by
    rw [hfound found (h _ hmem)]
    have hentry : eventsEntryMetadata parser watcher.metadata = .ok ⟨"Events", .plain 18⟩ := rfl
    have hkey : eventsKey parser ∈ (paidState stored).keys := List.mem_cons_self
    exact transferEvents_play (paidNode_holds hdecode watcher.metadata) hentry (fun _ => rfl)
      (paidNode_firstPageHasKey stored) hkey
  balance invoice answer hmem := by
    have htold := h _ hmem
    simp only [toldTruly, Bool.and_eq_true] at htold
    obtain ⟨hcurrency, hledger⟩ := ledgerEntry_known hlisted htold.1 stored
    refine ⟨0, ?_⟩
    rw [play_balance (fun _ => rfl) hcurrency hledger]
    rcases told_of_balanceTold htold.2 with ⟨haddress, rfl⟩ | ⟨haddress, rfl⟩
    · rw [haddress, holdings, if_pos rfl, Option.elim_some]
    · have hdistinct : openAccount ≠ account := by decide
      have hnative : properties.asset_id = none := by
        have hknown := htold.1
        simp only [known, Bool.and_eq_true, Bool.or_eq_true, decide_eq_true_eq] at hknown
        rcases hknown.2 with haccount | ⟨-, hid⟩
        · exact absurd (haddress.symm.trans haccount) hdistinct
        · exact hid
      rw [haddress, holdings, if_neg hdistinct, hnative, Option.elim_none, noEntryError]

/-- The events in which the transfer of the native token is found. -/
def isRecordedTransfer : List Event → Bool
  | [⟨pallet, variant, [(some "from", .id from_account), (some "to", .id to_account),
      (some "amount", .primitiveU128 amount true)]⟩] =>
    pallet = "Balances" && variant = "Transfer" && from_account = account &&
      to_account = account && amount = 1000
  | _ => false

theorem eq_of_isRecordedTransfer {found : List Event} (h : isRecordedTransfer found = true) :
    found = balanceTransfers [recordedTransfer] := by
  unfold isRecordedTransfer at h
  split at h
  · simp only [Bool.and_eq_true, decide_eq_true_eq] at h
    obtain ⟨⟨⟨⟨rfl, rfl⟩, rfl⟩, rfl⟩, rfl⟩ := h
    rfl
  · cases h

theorem eq_of_isEmpty {found : List Event} (h : found.isEmpty = true) :
    found = balanceTransfers [recordedAssetTransfer] := by
  rw [List.isEmpty_iff.mp h]
  rfl

/-- A tracker connects to a chain, is asked to watch accounts, and serves one block. -/
def expiredPayment (answers : ∀ o : TrackerOp libraries, (TrackerSig libraries).Answer o)
    (requests : List WatchAccount) (operations : ℕ) : List (TrackerAction libraries) :=
  .turn :: (List.replicate 10 (.answer answers) ++ [.settle] ++
    (requests.map fun request => .receive (.watchAccount request)) ++
    [.receive (.newBlock "0x1")] ++ List.replicate operations (.answer answers) ++ [.settle])

/-- Nothing is reported. -/
def tellsNothing : TrackerEvent libraries → Bool
  | .settled said => (reports said).isEmpty
  | _ => false

/-- A request to watch the other account, until the hour `3000`. -/
def openRequest : WatchAccount :=
  ⟨"open", openAccount, "DOT", 10, account, .stateHandler, 3000⟩

/-- A chain with an asset and no native token. -/
def assetChain : Chain := ⟨"statemint", ["wss://node"], none, [⟨"USDt", 1984⟩]⟩

def usdt : CurrencyProperties := ⟨"statemint", .asset, 6, "wss://node", some 1984, 0⟩

/-- A node of that chain, where no transfer of the native token is found. -/
def assetNode : ∀ o : TrackerOp libraries, (TrackerSig libraries).Answer o
  | .rpc (.metadata _) => .ok "statemint"
  | .rpc (.assetsSetAtBlock ..) => .ok (AList.singleton "USDt" usdt)
  | o => nodeWithEvents [] o

/-- The turn that ends the pass after the block. -/
def isPass (properties : CurrencyProperties) (isFound : List Event → Bool)
    (x : Turn libraries) : Bool :=
  match x.event, x.after.pc with
  | .settled said, .serve watcher => !(clock said).isEmpty &&
      said.all (toldTruly properties isFound) &&
      x.before.watched_accounts.entries.all fun entry => known properties watcher entry.2
  | _, _ => false

theorem passes_of_isPass {chain : Chain} {h : List (Turn libraries)} {t : Tracker libraries}
    (run : TrackerRun libraries chain h t) {x : Turn libraries} (hx : x ∈ h)
    {properties : CurrencyProperties} {isFound : List Event → Bool}
    (hpass : isPass properties isFound x = true) :
    ∃ watcher found said, x.Passes watcher zeroBlock found 2000 said ∧
      (∀ e ∈ said, toldTruly properties isFound e = true) ∧
      ∀ id invoice, x.before.watched_accounts.lookup id = some invoice →
        known properties watcher invoice = true := by
  unfold isPass at hpass
  split at hpass
  · rename_i said watcher he hpc
    simp only [Bool.and_eq_true, Bool.not_eq_true', List.isEmpty_eq_false_iff,
      List.all_eq_true] at hpass
    obtain ⟨⟨hclock, htold⟩, hknown⟩ := hpass
    obtain ⟨-, number, block, found, now, hblock, -⟩ := run.passed hx he hpc hclock
    have hhash : block = zeroBlock := of_decide_eq_true (htold _ hblock.hash)
    have hnow : now = 2000 := of_decide_eq_true (htold _ hblock.now)
    rw [hhash, hnow] at hblock
    exact ⟨watcher, found, said, ⟨he, ⟨number, hblock⟩, hpc⟩, htold, fun id invoice hl =>
      hknown ⟨id, invoice⟩ (AList.mem_lookup_iff.mp hl)⟩
  · cases hpass

theorem holdsEntries_of_known {properties : CurrencyProperties} (hlisted : Listed properties)
    {watcher : ChainWatcher libraries} {watched_accounts : WatchedAccounts}
    (hknown : ∀ id invoice, watched_accounts.lookup id = some invoice →
      known properties watcher invoice = true) (stored : List UInt8) :
    HoldsEntries accountsLibrary (paidNode stored) watcher zeroBlock holdings
      watched_accounts := by
  intro id invoice properties' hl hcurrency
  obtain ⟨hcurrency', hledger⟩ := ledgerEntry_known hlisted (hknown id invoice hl) stored
  obtain rfl := Option.some.inj (hcurrency.symm.trans hcurrency')
  exact hledger

end Sample

/-- A payment in the native token is noticed after the death of its invoice, while another account
has no entry. -/
theorem noticed_iff_expiredPayment : ∃ h t x watcher found said,
    TrackerRun Sample.libraries Sample.polkadot h t ∧ x ∈ h ∧
      x.Passes watcher Sample.zeroBlock found 2000 said ∧
      (x.before.watched_accounts.lookup "open").isSome ∧
      (∃ invoice, x.before.watched_accounts.lookup "order" = some invoice ∧
        invoice.death < 2000) ∧
      ∀ id invoice, x.before.watched_accounts.lookup id = some invoice →
        PaidInBlock watcher Sample.holdings [Sample.recordedTransfer] invoice → Told said id := by
  obtain ⟨h, t, run, hp⟩ := exists_reach_of_replay (turnExec_sound Sample.polkadot)
    (· = Tracker.start) rfl
    (Sample.expiredPayment (Sample.nodeWithEvents [Sample.recordedTransfer])
      [Sample.request, Sample.openRequest] 8)
    (p := fun q => q.1.any fun x => Sample.isPass Sample.currency Sample.isRecordedTransfer x &&
      (x.before.watched_accounts.lookup "open").isSome &&
      (x.before.watched_accounts.lookup "order").any fun invoice : Invoice =>
        decide (invoice.death < 2000))
    (by decide +kernel)
  obtain ⟨x, hx, hp⟩ := List.any_eq_true.mp hp
  simp only [Bool.and_eq_true, decide_eq_true_eq, Option.any_eq_true] at hp
  obtain ⟨⟨hpass, hopen⟩, hdead⟩ := hp
  obtain ⟨watcher, found, said, hpasses, htold, hknown⟩ := Sample.passes_of_isPass run hx hpass
  have hlisted : Sample.Listed Sample.currency := .inl rfl
  refine ⟨h, t, x, watcher, found, said, run, hx, hpasses, hopen, hdead, ?_⟩
  refine (noticed_iff run hx hpasses
    (Sample.paidNode_holds Sample.parser_storedTransfer _)
    (Sample.holdsEntries_of_known hlisted hknown _)
    (Sample.trulyAnswered_of_toldTruly hlisted Sample.parser_storedTransfer
      (fun _ => Sample.eq_of_isRecordedTransfer) htold)).mpr ?_
  intro id invoice hl hpaid
  obtain ⟨properties, event, -, hmem, -, hto⟩ := hpaid.received
  obtain rfl := List.mem_singleton.mp hmem
  have haccount : invoice.address = Sample.account := by
    have hfields := (List.cons.inj hto).1
    simpa using (Prod.mk.inj hfields).2.symm
  refine ⟨?_, .inr ⟨Sample.paidNode_firstPageHasKey _, ?_⟩⟩
  · rw [haccount, Sample.holdings, if_pos rfl]
    exact Option.some_ne_none _
  · rw [Received, haccount]
    decide

/-- A payment in an asset is not noticed after the death of its invoice. -/
theorem assetPayment_unnoticed : ∃ h t x watcher found said,
    TrackerRun Sample.libraries Sample.assetChain h t ∧ x ∈ h ∧
      x.Passes watcher Sample.zeroBlock found 2000 said ∧
      HoldsEvents Sample.parser (Sample.paidNode Sample.storedAssetTransfer) watcher.metadata
        Sample.zeroBlock [Sample.recordedAssetTransfer] ∧
      HoldsEntries Sample.accountsLibrary (Sample.paidNode Sample.storedAssetTransfer) watcher
        Sample.zeroBlock Sample.holdings x.before.watched_accounts ∧
      TrulyAnswered Sample.parser Sample.accountsLibrary
        (Sample.paidNode Sample.storedAssetTransfer) watcher Sample.zeroBlock said ∧
      ¬∀ id invoice, x.before.watched_accounts.lookup id = some invoice →
        PaidInBlock watcher Sample.holdings [Sample.recordedAssetTransfer] invoice →
          Told said id := by
  obtain ⟨h, t, run, hp⟩ := exists_reach_of_replay (turnExec_sound Sample.assetChain)
    (· = Tracker.start) rfl
    (Sample.expiredPayment Sample.assetNode [{ Sample.request with currency := "USDt" }] 5)
    (p := fun q => q.1.any fun x => Sample.isPass Sample.usdt List.isEmpty x &&
      Sample.tellsNothing x.event &&
      x.before.watched_accounts.lookup "order" =
        some (Invoice.fromRequest { Sample.request with currency := "USDt" }))
    (by decide +kernel)
  obtain ⟨x, hx, hp⟩ := List.any_eq_true.mp hp
  simp only [Bool.and_eq_true, decide_eq_true_eq] at hp
  obtain ⟨⟨hpass, hquiet⟩, hl⟩ := hp
  obtain ⟨watcher, found, said, hpasses, htold, hknown⟩ := Sample.passes_of_isPass run hx hpass
  have hlisted : Sample.Listed Sample.usdt := .inr rfl
  rw [hpasses.event] at hquiet
  refine ⟨h, t, x, watcher, found, said, run, hx, hpasses,
    Sample.paidNode_holds Sample.parser_storedAssetTransfer _,
    Sample.holdsEntries_of_known hlisted hknown _,
    Sample.trulyAnswered_of_toldTruly hlisted Sample.parser_storedAssetTransfer
      (fun _ => Sample.eq_of_isEmpty) htold, fun hnoticed => ?_⟩
  have hcurrency := (Sample.ledgerEntry_known hlisted (hknown _ _ hl) []).1
  have hreceived : ReceivedOwn watcher [Sample.recordedAssetTransfer]
      (Invoice.fromRequest { Sample.request with currency := "USDt" }) := by
    refine ⟨Sample.usdt, _, hcurrency, List.mem_singleton_self _, ?_, rfl⟩
    exact ⟨rfl, rfl, 1984, rfl, List.mem_cons_self⟩
  have hreport := hnoticed "order" _ hl ⟨hreceived, by decide⟩
  rw [← mem_reports, List.isEmpty_iff.mp hquiet] at hreport
  cases hreport

end Kalatori
