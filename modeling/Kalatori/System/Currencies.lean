import Kalatori.System.Checks
import Kalatori.System.Registrations
import Kalatori.System.Settlements

/-!
# What the daemon says of its currencies

The state handler has a table of currencies, which it fills with what the
trackers announce to it, and which it shows in its status.  In the source a
comment at that place says that the assets must be those and only those that the
user requested, and leaves it to the trackers to see to it.

They do.  A tracker announces the assets that a node told it, after it has found
the name of its chain in the metadata of the node and has thrown away all that
was not asked for.  So each line of the table goes back to an answer of a node of
a chain of the configuration, and was wanted there.

* `Vouched`: the answers that are behind a currency.
* `SysRun.vouched`: what was announced to the handler has such answers.
* `announcedCurrencies`, `SysRun.current`: the table, as a function of the history.
* `statusGenuine`: what a status says.
-/

namespace Kalatori

open Program Transition

variable {lib : Libraries} {d : Deployment lib} {chain : Chain}
  {allow : List (SysEvent lib) → Sys lib → SysEvent lib → Prop}

/-! ## What a tracker announces -/

/-- The assets are what is left of those that a node told, for the metadata of a block in which
the chain has its name. -/
inductive Reflects (chain : Chain) (said : Trace (TrackerSig lib)) :
    HashMap String CurrencyProperties → Prop
  | intro (endpoint : String) (block : BlockHash) (metadata : lib.Metadata) (specs : ShortSpecs)
      (found : HashMap String CurrencyProperties)
      (built : ⟨.rpc (.build endpoint), .ok ()⟩ ∈ said)
      (fetched : ⟨.rpc (.metadata block), .ok metadata⟩ ∈ said)
      (named : lib.specName metadata = some chain.name)
      (specified : ⟨.rpc (.specs metadata block), .ok specs⟩ ∈ said)
      (listed : ⟨.rpc (.assetsSetAtBlock block metadata endpoint specs), .ok found⟩ ∈ said)
      (complete : (retainAssets chain specs found).entries.length = requestedAssets chain) :
      Reflects chain said (retainAssets chain specs found)

/-- A tracker announces what it was told, and nothing else. -/
def Vouches (chain : Chain) (said : Trace (TrackerSig lib)) (o : TrackerOp lib) : Prop :=
  ∀ assets, o = .send (.connectChain assets) → Reflects chain said assets

theorem vouches_of_ne {said : Trace (TrackerSig lib)} {o : TrackerOp lib}
    (h : ∀ assets, o ≠ .send (.connectChain assets)) : Vouches chain said o :=
  fun assets ho => absurd ho (h assets)

/-- A call that is answered with a value, with what follows. -/
theorem vouches_rpc_bind {α : Type} {call : RpcCall lib} {next : call.Result → Job lib α}
    {said : Trace (TrackerSig lib)}
    (hnext : ∀ a, Prog.Holds (Vouches chain) (fun _ _ => True)
      (said ++ [⟨.rpc call, .ok a⟩]) (next a).run) :
    Prog.Holds (Vouches chain) (fun _ _ => True) said (Job.rpc call >>= next).run := by
  rw [Prog.holds_run_bind, holds_rpc]
  refine ⟨vouches_of_ne fun _ h => (by cases h), fun answer => ?_⟩
  cases answer with
  | error stop => trivial
  | ok a => exact hnext a

theorem prepareChain_vouches (watched_accounts : WatchedAccounts) (endpoint : String)
    {said : Trace (TrackerSig lib)} (hbuilt : ⟨.rpc (.build endpoint), .ok ()⟩ ∈ said) :
    Prog.Holds (Vouches chain) (fun _ _ => True) said
      (prepareChain chain watched_accounts endpoint).run := by
  unfold prepareChain
  refine vouches_rpc_bind fun genesis_hash => ?_
  refine vouches_rpc_bind fun _ => ?_
  refine vouches_rpc_bind fun block => ?_
  refine vouches_rpc_bind fun version => ?_
  refine vouches_rpc_bind fun metadata => ?_
  generalize hsaid : said ++ [_] ++ [_] ++ [_] ++ [_] ++ [_] = said'
  have hbuilt' : ⟨.rpc (.build endpoint), .ok ()⟩ ∈ said' := by simp [← hsaid, hbuilt]
  have hfetched : ⟨.rpc (.metadata block), .ok metadata⟩ ∈ said' := by simp [← hsaid]
  clear hsaid
  cases hname : lib.specName metadata with
  | none => trivial
  | some name =>
  simp only
  split_ifs with hne
  · trivial
  obtain rfl : name = chain.name := not_not.mp hne
  refine vouches_rpc_bind fun specs => ?_
  refine vouches_rpc_bind fun found => ?_
  simp only
  split_ifs with hlength
  · trivial
  rw [Prog.holds_run_bind, holds_tell]
  refine ⟨?_, fun delivered => ?_⟩
  · rintro assets hsend
    cases hsend
    exact .intro endpoint block metadata specs found (by simp [hbuilt']) (by simp [hfetched])
      hname (by simp) (by simp) (not_not.mp hlength)
  simp only
  rw [Prog.holds_run_bind, holds_iterate]
  refine ⟨vouches_of_ne fun _ h => (by cases h), fun accounts => ?_⟩
  simp only
  rw [Prog.holds_run_bind]
  refine (checks_checkMonitored _ block accounts.entries _).mono ?_ ?_
  · rintro said o ho
    refine vouches_of_ne ?_
    rintro assets rfl
    cases ho
  · rintro said (stop | removed) -
    · trivial
    · trivial

/-- The program with which a turn over the endpoints begins. -/
theorem connect_vouches (watched_accounts : WatchedAccounts) (endpoint : String) :
    Prog.Holds (Vouches chain) (fun _ _ => True) []
      (connect chain watched_accounts endpoint : Job lib _).run := by
  unfold connect
  rw [Prog.holds_run_bind, holds_attempt, holds_rpc]
  refine ⟨vouches_of_ne fun _ h => (by cases h), fun answer => ?_⟩
  cases answer with
  | error stop => cases stop <;> trivial
  | ok =>
  simp only [Attempted]
  rw [Prog.holds_run_bind, holds_attempt]
  refine (prepareChain_vouches watched_accounts endpoint (List.mem_singleton_self _)).mono
    (fun _ _ h => h) ?_
  rintro said (stop | result) -
  · cases stop <;> trivial
  · trivial

/-- The branch for a new block announces nothing. -/
theorem newBlock_vouches (watcher : ChainWatcher lib) (watched_accounts : WatchedAccounts)
    (number : String) :
    Prog.Holds (Vouches chain) (fun _ _ => True) []
      (newBlock watcher watched_accounts number).run :=
  (newBlock_inspects watcher watched_accounts number).mono
    (fun _ _ h => vouches_of_ne h.connects) fun _ _ _ => trivial

/-- Whatever a tracker is doing, it announces what it was told. -/
def Tracker.Vouching (chain : Chain) (t : Tracker lib) : Prop :=
  ∀ said job, t.pc = .busy said job → Prog.Holds (Vouches chain) (fun _ _ => True) said job

theorem TrackerStep.vouching {t t' : Tracker lib} {e : TrackerEvent lib}
    (hs : TrackerStep chain t e t') (ha : t.Vouching chain) : t'.Vouching chain := by
  intro said' job hpc'
  cases hs with
  | stopped | timedOut => cases hpc'
  | turned endpoint =>
    obtain ⟨rfl, rfl⟩ := TrackerPc.busy.inj hpc'
    exact connect_vouches _ endpoint
  | said answer hpc =>
    obtain ⟨rfl, rfl⟩ := TrackerPc.busy.inj hpc'
    exact (ha _ _ hpc).2 answer
  | @settled _ result =>
    rcases result with _ | _ | _ <;> cases hpc'
  | received request hpc =>
    cases request with
    | newBlock number =>
      obtain ⟨rfl, rfl⟩ := TrackerPc.busy.inj hpc'
      exact newBlock_vouches _ _ number
    | watchAccount | reap => cases hpc.symm.trans hpc'
    | shutdown => cases hpc'

theorem SysRun.vouching {h : List (SysEvent lib)} {s : Sys lib} (run : SysRunIf d allow h s)
    {index : ℕ} (hc : d.chain[index]? = some chain) : (s.trackers index).Vouching chain := by
  refine run.invariant (P := fun _ s => (s.trackers index).Vouching chain) ?_ ?_
  · rintro s ⟨orders, -, rfl⟩ said job hpc
    cases hpc
  · rintro h s e s' - ih - hs
    rcases hs.outcome.trackers index with heq | heq | ⟨chain', x, -, hc', -, -, hx⟩
    · exact heq ▸ ih
    · rw [heq]
      rintro said job hpc
      cases hpc
    · obtain rfl := Option.some.inj (hc.symm.trans hc')
      exact hx.vouching ih

/-! ## What the handler is told -/

/-- A tracker announced assets, and the handler was there. -/
def Introduced (h : List (SysEvent lib)) (assets : HashMap String CurrencyProperties) : Prop :=
  ∃ index x, .tracker index x ∈ h ∧ x.event = .said ⟨.send (.connectChain assets), true⟩

/-- **A currency is vouched for**: a node of a chain of the configuration told it, and it was
wanted there. -/
inductive Vouched (d : Deployment lib) (h : List (SysEvent lib)) (name : String)
    (properties : CurrencyProperties) : Prop
  | intro (index : ℕ) (chain : Chain) (endpoint : String) (block : BlockHash)
      (metadata : lib.Metadata) (specs : ShortSpecs) (found : HashMap String CurrencyProperties)
      (configured : d.chain[index]? = some chain)
      (built : Answered (turnsOf index h) (.build endpoint) ())
      (fetched : Answered (turnsOf index h) (.metadata block) metadata)
      (named : lib.specName metadata = some chain.name)
      (specified : Answered (turnsOf index h) (.specs metadata block) specs)
      (listed : Answered (turnsOf index h) (.assetsSetAtBlock block metadata endpoint specs) found)
      (told : found.lookup name = some properties)
      (wanted : wantedAsset chain specs name properties = true)

theorem Answered.turnsOf_append {h : List (SysEvent lib)} {index : ℕ} {call : RpcCall lib}
    {answer : call.Result} (ha : Answered (turnsOf index h) call answer)
    (h' : List (SysEvent lib)) : Answered (turnsOf index (h ++ h')) call answer := by
  rw [Kalatori.turnsOf_append]
  exact ha.append _

theorem Vouched.append {h : List (SysEvent lib)} {name : String} {properties : CurrencyProperties}
    (hv : Vouched d h name properties) (h' : List (SysEvent lib)) :
    Vouched d (h ++ h') name properties := by
  obtain ⟨index, chain, endpoint, block, metadata, specs, found, hconfigured, hbuilt, hfetched,
    hnamed, hspecified, hlisted, htold, hwanted⟩ := hv
  exact ⟨index, chain, endpoint, block, metadata, specs, found, hconfigured,
    hbuilt.turnsOf_append h', hfetched.turnsOf_append h', hnamed, hspecified.turnsOf_append h',
    hlisted.turnsOf_append h', htold, hwanted⟩

/-- Currencies that a node is known to have told are vouched for. -/
theorem Reflects.vouched {said : Trace (TrackerSig lib)}
    {assets : HashMap String CurrencyProperties} (hr : Reflects chain said assets)
    {h : List (SysEvent lib)} {index : ℕ} (hc : d.chain[index]? = some chain)
    (hsaid : ∀ exchange ∈ said, ∃ x, .tracker index x ∈ h ∧ x.event = .said exchange)
    {name : String} {properties : CurrencyProperties}
    (hl : assets.lookup name = some properties) : Vouched d h name properties := by
  have hanswered : ∀ (call : RpcCall lib) (answer : call.Result),
      ⟨.rpc call, .ok answer⟩ ∈ said → Answered (turnsOf index h) call answer := by
    intro call answer hmem
    obtain ⟨x, hx, he⟩ := hsaid _ hmem
    exact ⟨x, mem_turnsOf.mpr hx, he⟩
  obtain ⟨endpoint, block, metadata, specs, found, hbuilt, hfetched, hnamed, hspecified, hlisted,
    -⟩ := hr
  obtain ⟨htold, hwanted⟩ := lookup_retainAssets.mp hl
  exact ⟨index, chain, endpoint, block, metadata, specs, found, hc, hanswered _ _ hbuilt,
    hanswered _ _ hfetched, hnamed, hanswered _ _ hspecified, hanswered _ _ hlisted, htold, hwanted⟩

section Runs

variable {h : List (SysEvent lib)} {s : Sys lib} {assets : HashMap String CurrencyProperties}
  {name : String} {properties : CurrencyProperties}

/-- What a tracker announces is vouched for. -/
theorem SysRun.introduced_vouched (run : SysRunIf d allow h s) (hintroduced : Introduced h assets)
    (hl : assets.lookup name = some properties) : Vouched d h name properties := by
  obtain ⟨index, x, hx, he⟩ := hintroduced
  obtain ⟨h₁, h₂, rfl⟩ := List.append_of_mem hx
  refine Vouched.append ?_ _
  obtain ⟨s₁, s₂, run₁, -, hs⟩ := run.split
  obtain ⟨chain, hc, -, -, hstep⟩ := hs.outcome.turn
  rw [he] at hstep
  generalize (s₂.trackers index) = t' at hstep
  cases hstep with
  | @said said _ k _ hpc =>
    have hreflects := (SysRun.vouching run₁ hc _ _ hpc).1 assets rfl
    exact hreflects.vouched hc ((SysRun.traced run₁).said index _ _ hpc) hl

/-- A chain that the handler is about to hear of was announced. -/
theorem SysRun.queued_introduced (run : SysRunIf d allow h s) :
    ∀ assets, .connectChain assets ∈ s.state_queue → Introduced h assets := by
  refine run.invariant
    (P := fun h s => ∀ assets, .connectChain assets ∈ s.state_queue → Introduced h assets) ?_ ?_
  · rintro s ⟨orders, -, rfl⟩ assets hmem
    cases hmem
  · rintro h s e s' - ih - hs assets hmem
    rcases hs.outcome.state_queue hmem with hmem | hhttp | ⟨index, x, rfl, he⟩
    · obtain ⟨index, x, hx, he⟩ := ih assets hmem
      exact ⟨index, x, List.mem_append_left _ hx, he⟩
    · cases hhttp
    · exact ⟨index, x, List.mem_append_right _ (List.mem_singleton_self _), he⟩

/-- **What was announced to the handler is vouched for.** -/
theorem SysRun.vouched (run : SysRunIf d allow h s) (ha : Announced h name properties) :
    Vouched d h name properties := by
  obtain ⟨assets, x, hx, he, hl⟩ := ha
  obtain ⟨h₁, h₂, rfl⟩ := List.append_of_mem hx
  obtain ⟨s₁, s₂, run₁, -, hs⟩ := run.split
  have hintroduced := SysRun.queued_introduced run₁ assets (hs.outcome.received_mem he)
  exact (SysRun.introduced_vouched run₁ hintroduced hl).append _

end Runs

/-! ## The table of currencies -/

/-- The assets that the handler hears of. -/
def HandlerEvent.assets? : HandlerEvent → Option (HashMap String CurrencyProperties)
  | .received (.connectChain assets) => some assets
  | _ => none

def SysEvent.assets? : SysEvent lib → Option (HashMap String CurrencyProperties)
  | .daemon ⟨_, .handler e, _⟩ => e.assets?
  | _ => none

theorem SysEvent.assets?_daemon {x : DaemonTurn} {e : HandlerEvent} (he : x.event = .handler e) :
    (SysEvent.daemon x : SysEvent lib).assets? = e.assets? := by
  obtain ⟨before, event, after⟩ := x
  obtain rfl : event = .handler e := he
  rfl

theorem SysEvent.assets?_of_not_daemon {e : SysEvent lib} (he : e.daemon? = none) :
    e.assets? = none := by
  cases e with
  | daemon => cases he
  | outside | restore | manager | tracker => rfl

/-- The table with the assets of a chain. -/
def extendCurrencies (currencies : HashMap String CurrencyProperties) :
    Option (HashMap String CurrencyProperties) → HashMap String CurrencyProperties
  | some assets => assets ∪ currencies
  | none => currencies

/-- **The currencies that were announced**, the later ones in the place of the earlier ones. -/
def announcedCurrencies (h : List (SysEvent lib)) : HashMap String CurrencyProperties :=
  h.foldl (fun currencies e => extendCurrencies currencies e.assets?) ∅

theorem announcedCurrencies_append (h : List (SysEvent lib)) (e : SysEvent lib) :
    announcedCurrencies (h ++ [e]) = extendCurrencies (announcedCurrencies h) e.assets? :=
  List.foldl_append

/-- The data after a request. -/
def StateData.after (state : StateData) : StateAccessRequest → StateData
  | .connectChain assets => state.updateCurrencies assets
  | _ => state

theorem StateData.currencies_after (state : StateData) (request : StateAccessRequest) :
    (state.after request).currencies =
      extendCurrencies state.currencies (HandlerEvent.received request).assets? := by
  cases request <;> rfl

/-- An operation shows the data, if it is the answer with the status. -/
def StateData.Shows (state : StateData) (request : StateAccessRequest) (o : HandlerOp) : Prop :=
  ∀ status, o = .reply (.serverStatus status) →
    request = .serverStatus ∧ status = ⟨state.server_info, state.currencies⟩

/-- A program goes on with the data after the request. -/
def StateData.GoesOn (state : StateData) (request : StateAccessRequest)
    (result : Except Error HandlerNext) : Prop :=
  ∀ state', result = .ok (.listen state') → state' = state.after request

theorem handle_after (state : StateData) (request : StateAccessRequest) :
    Prog.Holds (fun _ o => state.Shows request o) (fun _ result => state.GoesOn request result) []
      (handle lib state request >>= fun state => pure (HandlerNext.listen state)).run := by
  have hstatus : ∀ said o, Serving lib state request said o → state.Shows request o := by
    rintro said o hserving status rfl
    have hends := hserving.ends _ rfl
    cases hends with
    | status => exact ⟨rfl, rfl⟩
  cases request with
  | connectChain assets =>
    intro state' h
    injection h with h
    injection h with h
    exact h.symm
  | getInvoiceStatus | createInvoice | isCurrencySupported | serverStatus | orderPaid =>
    refine (handle_serves _).mono hstatus ?_
    rintro said result hleaves state' hresult
    rcases hleaves state' hresult with rfl | ⟨assets, hrequest, -⟩
    · rfl
    · cases hrequest

/-- **The table is the one that was announced**, once the request in hand is through. -/
structure Handler.Current (lib : Libraries) (announced : HashMap String CurrencyProperties)
    (s : Handler) : Prop where
  in_hand : ∀ said program, s.pc = .busy .handling said program → ∃ request,
    Prog.Holds (fun _ o => s.state.Shows request o) (fun _ result => s.state.GoesOn request result)
      said program ∧ announced = (s.state.after request).currencies
  idle : s.hasEnded = false → (∀ said program, s.pc ≠ .busy .handling said program) →
    announced = s.state.currencies

theorem Handler.current_start (recipient : AccountId32) (server_info : ServerInfo) :
    (Handler.start recipient server_info).Current lib ∅ where
  in_hand := fun _ _ h => by cases h
  idle := fun _ _ => rfl

theorem HandlerStep.current {s s' : Handler} {e : HandlerEvent} {events : List HandlerEvent}
    (hs : HandlerStep lib s e s') (hsound : s.Sound lib events)
    {announced : HashMap String CurrencyProperties} (h : s.Current lib announced) :
    s'.Current lib (extendCurrencies announced e.assets?) := by
  cases hs with
  | @said phase said o k answer hpc =>
    refine ⟨fun said' program hpc' => ?_, fun _ hother => ?_⟩
    · obtain ⟨rfl, rfl, rfl⟩ := HandlerPc.busy.inj hpc'
      obtain ⟨request, hholds, hannounced⟩ := h.in_hand _ _ hpc
      exact ⟨request, hholds.2 answer, hannounced⟩
    · refine h.idle (by rw [Handler.hasEnded, hpc]) fun said' program hpc' => ?_
      obtain ⟨rfl, rfl, rfl⟩ := HandlerPc.busy.inj (hpc.symm.trans hpc')
      exact hother _ _ rfl
  | @settled phase said result hpc =>
    rcases result with e | ⟨state⟩ | _
    · exact ⟨fun _ _ h => (by cases h), fun hend => (by cases hend)⟩
    · refine ⟨fun _ _ h => (by cases h), fun _ _ => ?_⟩
      show announced = state.currencies
      cases hsound with
      | starting hpc' hp =>
        obtain ⟨rfl, rfl, rfl⟩ := HandlerPc.busy.inj (hpc'.symm.trans hpc)
        have hstate : state = s.state := hp.1
        rw [hstate]
        refine h.idle (by rw [Handler.hasEnded, hpc]) fun said' program hpc' => ?_
        cases hpc.symm.trans hpc'
      | handling hpc' =>
        obtain ⟨rfl, rfl, rfl⟩ := HandlerPc.busy.inj (hpc'.symm.trans hpc)
        obtain ⟨request, hholds, hannounced⟩ := h.in_hand _ _ hpc
        rw [hholds state rfl]
        exact hannounced
      | winding hpc' _ hp =>
        obtain ⟨rfl, rfl, rfl⟩ := HandlerPc.busy.inj (hpc'.symm.trans hpc)
        cases hp.1
      | listening hpc' | stopped hpc' | shutDown hpc' | failed hpc' | notStarted hpc' =>
        cases hpc'.symm.trans hpc
    · exact ⟨fun _ _ h => (by cases h), fun hend => (by cases hend)⟩
  | received request hpc =>
    refine ⟨fun said program hpc' => ?_, fun _ hother => absurd rfl (hother _ _)⟩
    obtain ⟨-, rfl, rfl⟩ := HandlerPc.busy.inj hpc'
    refine ⟨request, handle_after s.state request, ?_⟩
    have hannounced : announced = s.state.currencies :=
      h.idle (by rw [Handler.hasEnded, hpc]) fun _ _ h => (by cases hpc.symm.trans h)
    rw [hannounced]
    exact (s.state.currencies_after request).symm
  | closed => exact ⟨fun _ _ h => (by cases h), fun hend => (by cases hend)⟩
  | notified hpc =>
    refine ⟨fun _ _ h => (by cases h), fun _ _ => ?_⟩
    exact h.idle (by rw [Handler.hasEnded, hpc]) fun _ _ h => (by cases hpc.symm.trans h)

/-- **The table is what was announced since the last start.** -/
theorem SysRun.current {h : List (SysEvent lib)} {s : Sys lib} (run : SysRunIf d allow h s) :
    s.store.handler.Current lib (announcedCurrencies (sinceStart h)) := by
  refine run.invariant (P := fun h s =>
    s.store.handler.Current lib (announcedCurrencies (sinceStart h))) ?_ ?_
  · rintro s ⟨orders, -, rfl⟩
    exact Handler.current_start _ _
  · rintro h s e s' run ih - hs
    by_cases hrestart : e.Restarts
    · rw [sinceStart_restart hrestart, hs.outcome.restarted_eq hrestart]
      exact Handler.current_start _ _
    rw [sinceStart_append hrestart, announcedCurrencies_append]
    rcases hs.outcome.store with ⟨x, rfl, hx⟩ | ⟨he, hstore⟩
    · rcases hx.handlerStep with ⟨e, he, hstep⟩ | he
      · obtain ⟨_, _, _, -, -, hsound⟩ := SysRun.handler_sound run
        rw [SysEvent.assets?_daemon he]
        exact hstep.current hsound ih
      · exact absurd ⟨x, rfl, he⟩ hrestart
    · rw [SysEvent.assets?_of_not_daemon he, hstore]
      exact ih

/-! ## The status -/

/-- **What a status says**: the information that the daemon was started with, and the currencies
that were announced since it was started last.  Each of them was told by a node that has the
metadata of a configured chain, and was wanted there. -/
theorem statusGenuine {h₁ h₂ : List (SysEvent lib)} {s : Sys lib} {x : DaemonTurn}
    (run : SysRunIf d allow (h₁ ++ .daemon x :: h₂) s) {status : ServerStatus} {taken : Bool}
    (he : x.event = .handler (.said ⟨.reply (.serverStatus status), taken⟩)) :
    status = ⟨d.server_info, announcedCurrencies (sinceStart h₁)⟩ ∧
      ∀ name properties, status.supported_currencies.lookup name = some properties →
        Vouched d h₁ name properties := by
  obtain ⟨s₁, s₂, run₁, -, hs⟩ := run.split
  obtain ⟨phase, said, k, hpc, -, -⟩ := hs.outcome.daemonStep.said he
  obtain ⟨-, -, events, -, -, hevents⟩ := SysRun.handler_sound run₁
  obtain rfl : phase = .handling := hevents.phase_eq hpc
  obtain ⟨request, hholds, hannounced⟩ := (SysRun.current run₁).in_hand _ _ hpc
  obtain ⟨rfl, rfl⟩ := hholds.1 status rfl
  have hinfo : s₁.store.handler.state.server_info = d.server_info :=
    (SysRun.configured run₁).state.server_info
  refine ⟨?_, fun name properties hl => ?_⟩
  · rw [hannounced, ← hinfo]
    rfl
  · exact SysRun.vouched run₁ ((SysRun.handler_traced run₁).currencies name properties hl)

/-- After a chain has connected, somebody asks for the status. -/
def Sample.statusAsked : List (SysAction libraries) :=
  connected ++ [.outside (.requested .serverStatus), .receive] ++ answers 1

/-- The step answers with a status in which there is the currency. -/
def SysEvent.lists (name : String) : SysEvent lib → Bool
  | .daemon ⟨_, .handler (.said ⟨.reply (.serverStatus status), _⟩), _⟩ =>
    (status.supported_currencies.lookup name).isSome
  | _ => false

theorem SysEvent.exists_of_lists {e : SysEvent lib} {name : String} (h : e.lists name = true) :
    ∃ x status taken properties, e = .daemon x ∧
      x.event = .handler (.said ⟨.reply (.serverStatus status), taken⟩) ∧
      status.supported_currencies.lookup name = some properties := by
  unfold lists at h
  split at h
  · obtain ⟨properties, hl⟩ := Option.isSome_iff_exists.mp h
    exact ⟨_, _, _, properties, rfl, rfl, hl⟩
  · cases h

/-- The status lists the currency of the chain that has connected, and it is vouched for. -/
theorem statusGenuine_statusAsked : ∃ h₁ x h₂ s status taken properties,
    SysRun Sample.deployment (h₁ ++ .daemon x :: h₂) s ∧
      x.event = .handler (.said ⟨.reply (.serverStatus status), taken⟩) ∧
      status = ⟨Sample.deployment.server_info, announcedCurrencies (sinceStart h₁)⟩ ∧
      Vouched Sample.deployment h₁ "DOT" properties := by
  obtain ⟨h, s, run, hp⟩ := exists_reach_of_replay (Sys.exec_sound Sample.deployment)
    (Sys.Begun Sample.deployment) Sample.begun Sample.statusAsked
    (p := fun q => q.1.any (SysEvent.lists "DOT")) (by decide +kernel)
  obtain ⟨e, hmem, he⟩ := List.any_eq_true.mp hp
  obtain ⟨x, status, taken, properties, rfl, hx, hl⟩ := SysEvent.exists_of_lists he
  obtain ⟨h₁, h₂, rfl⟩ := List.append_of_mem hmem
  obtain ⟨hstatus, hvouched⟩ := statusGenuine run hx
  exact ⟨h₁, x, h₂, s, status, taken, properties, run, hx, hstatus, hvouched _ _ hl⟩

end Kalatori
