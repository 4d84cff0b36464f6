import Kalatori.Chain.Assets

/-!
# What a tracker knows about its chain

`prepare_chain` puts a `ChainWatcher` together from the answers of one node at
one block, and the tracker keeps it until it connects again: a new block is
looked at with the watcher as it is.  The metadata that a request to the node
interprets data with are those of the watcher, or, while it is being put
together, those that were fetched just before.

* `Prepares`, `Inspects`: what the two programs of a tracker may ask and tell.
* `prepareChain_prepares`, `newBlock_inspects`: that they do nothing else.
* `Tracker.Acquainted`: what holds of a tracker at any time, given its history.
-/

namespace Kalatori

open Program

variable {lib : Libraries} {chain : Chain}

/-- The metadata that a call reads data with, and the block from which they come. -/
def RpcCall.interprets : RpcCall lib → Option (lib.Metadata × BlockHash)
  | .specs known block | .assetsSetAtBlock block known _ _ | .transferEvents block known =>
    some (known, block)
  | .balance watcher _ block => some (watcher.metadata, block)
  | _ => none

/-- Assets that `prepare_chain` accepts. -/
def Accepts (chain : Chain) (assets : HashMap String CurrencyProperties) : Prop :=
  ∃ specs found, assets = retainAssets chain specs found ∧
    assets.entries.length = requestedAssets chain

/-- They are those that were declared. -/
theorem Accepts.lookup {assets : HashMap String CurrencyProperties} (h : Accepts chain assets)
    (hnodup : chain.declared.Nodup) (name : String) :
    (assets.lookup name).isSome ↔ name ∈ chain.declared := by
  obtain ⟨specs, found, rfl, hlength⟩ := h
  constructor
  · intro hsome
    obtain ⟨properties, hl⟩ := Option.isSome_iff_exists.mp hsome
    exact declared_of_wanted (lookup_retainAssets.mp hl).2
  · exact (length_retainAssets_iff hnodup specs found).mp hlength name

/-! ## The two programs -/

/-- **What `prepare_chain` asks and tells.**  The metadata are those of the block that it reads
from. -/
structure Prepares (chain : Chain) (said : Trace (TrackerSig lib)) (o : TrackerOp lib) : Prop where
  reads : ∀ call metadata block, o = .rpc call → call.interprets = some (metadata, block) →
    ⟨.rpc (.metadata block), .ok metadata⟩ ∈ said
  connects : ∀ assets, o = .send (.connectChain assets) → Accepts chain assets

/-- **What a tracker asks when there is a new block.**  It reads with the metadata of its watcher,
from a block with the watcher's version. -/
structure Inspects (watcher : ChainWatcher lib) (said : Trace (TrackerSig lib))
    (o : TrackerOp lib) : Prop where
  reads : ∀ call metadata block, o = .rpc call → call.interprets = some (metadata, block) →
    metadata = watcher.metadata ∧
      ∃ version, ⟨.rpc (.runtimeVersionIdentifier block), .ok version⟩ ∈ said ∧
        (watcher.version != version) = false
  connects : ∀ assets, o ≠ .send (.connectChain assets)

/-- A watcher was put together at one block of a chain that was accepted. -/
structure Assembled (chain : Chain) (said : Trace (TrackerSig lib)) (watcher : ChainWatcher lib) :
    Prop where
  fetched : ∃ block, ⟨.rpc (.metadata block), .ok watcher.metadata⟩ ∈ said ∧
    ⟨.rpc (.runtimeVersionIdentifier block), .ok watcher.version⟩ ∈ said
  accepted : Accepts chain watcher.assets

/-- The watcher with which a program goes on. -/
def Continues (P : ChainWatcher lib → Prop) : Except Stop (Continuation lib) → Prop
  | .ok (.serve watcher _) => P watcher
  | .ok (.rotate _) | .error _ => True

section Programs

variable {said : Trace (TrackerSig lib)}

theorem prepares_of_plain {o : TrackerOp lib}
    (h : ∀ call, o = .rpc call → call.interprets = none)
    (h' : ∀ assets, o ≠ .send (.connectChain assets)) : Prepares chain said o where
  reads := by
    rintro call metadata block ho hreads
    rw [h call ho] at hreads
    cases hreads
  connects := fun assets ho => absurd ho (h' assets)

theorem inspects_of_plain {watcher : ChainWatcher lib} {o : TrackerOp lib}
    (h : ∀ call, o = .rpc call → call.interprets = none)
    (h' : ∀ assets, o ≠ .send (.connectChain assets)) : Inspects watcher said o where
  reads := by
    rintro call metadata block ho hreads
    rw [h call ho] at hreads
    cases hreads
  connects := h'

/-- A check reads the balances of its own block. -/
theorem Checks.prepares {watcher : ChainWatcher lib} {block : BlockHash} {o : TrackerOp lib}
    (h : Checks watcher block o)
    (hfetched : ⟨.rpc (.metadata block), .ok watcher.metadata⟩ ∈ said) :
    Prepares chain said o where
  reads := by
    rintro call metadata block' rfl hreads
    cases h
    cases hreads
    exact hfetched
  connects := by
    rintro assets rfl
    cases h

theorem Checks.inspects {watcher : ChainWatcher lib} {block : BlockHash} {o : TrackerOp lib}
    (h : Checks watcher block o) {version : Json}
    (hversion : ⟨.rpc (.runtimeVersionIdentifier block), .ok version⟩ ∈ said)
    (hsame : (watcher.version != version) = false) : Inspects watcher said o where
  reads := by
    rintro call metadata block' rfl hreads
    cases h
    cases hreads
    exact ⟨rfl, version, hversion, hsame⟩
  connects := by
    rintro assets rfl
    cases h

/-- A call that reads no data, with what follows. -/
theorem prepares_rpc_bind {α : Type} {call : RpcCall lib} {next : call.Result → Job lib α}
    {post : Trace (TrackerSig lib) → Except Stop α → Prop} (hplain : call.interprets = none)
    (hstop : ∀ said stop, post said (.error stop))
    (hnext : ∀ a, Prog.Holds (Prepares chain) post (said ++ [⟨.rpc call, .ok a⟩]) (next a).run) :
    Prog.Holds (Prepares chain) post said (Job.rpc call >>= next).run := by
  rw [Prog.holds_run_bind, holds_rpc]
  refine ⟨prepares_of_plain ?_ nofun, fun answer => ?_⟩
  · rintro call' ho
    rw [← TrackerOp.rpc.inj ho, hplain]
  · cases answer with
    | error stop => exact hstop _ stop
    | ok a => exact hnext a

/-- How `prepare_chain` ends. -/
def Returns {α : Type} (chain : Chain) (said : Trace (TrackerSig lib)) :
    Except Stop (ChainWatcher lib × α) → Prop
  | .ok (watcher, _) => Assembled chain said watcher
  | .error _ => True

theorem prepareChain_prepares (watched_accounts : WatchedAccounts) (rpc_url : String)
    (said : Trace (TrackerSig lib)) :
    Prog.Holds (Prepares chain) (Returns chain) said
      (prepareChain chain watched_accounts rpc_url).run := by
  have hstop : ∀ said stop, @Returns lib WatchedAccounts chain said (.error stop) :=
    fun _ _ => trivial
  unfold prepareChain
  refine prepares_rpc_bind rfl hstop fun genesis_hash => ?_
  refine prepares_rpc_bind rfl hstop fun _ => ?_
  refine prepares_rpc_bind rfl hstop fun block => ?_
  refine prepares_rpc_bind rfl hstop fun version => ?_
  refine prepares_rpc_bind rfl hstop fun metadata => ?_
  generalize hsaid : said ++ [_] ++ [_] ++ [_] ++ [_] ++ [_] = said'
  have hversion : ⟨.rpc (.runtimeVersionIdentifier block), .ok version⟩ ∈ said' := by simp [← hsaid]
  have hmetadata : ⟨.rpc (.metadata block), .ok metadata⟩ ∈ said' := by simp [← hsaid]
  clear hsaid
  cases lib.specName metadata with
  | none => trivial
  | some name =>
  simp only
  split_ifs with hname
  · trivial
  have hreads : ∀ (said : Trace (TrackerSig lib)) (call : RpcCall lib),
      call.interprets = some (metadata, block) → (∀ exchange ∈ said', exchange ∈ said) →
      Prepares chain said (.rpc call) := by
    intro said call hcall hmem
    refine ⟨?_, nofun⟩
    rintro call' metadata' block' ho hcall'
    obtain rfl := TrackerOp.rpc.inj ho
    obtain ⟨rfl, rfl⟩ := Prod.mk.inj (Option.some.inj (hcall.symm.trans hcall'))
    exact hmem _ hmetadata
  rw [Prog.holds_run_bind, holds_rpc]
  refine ⟨hreads _ _ rfl fun _ h => h, fun answer => ?_⟩
  cases answer with
  | error stop => trivial
  | ok specs =>
  simp only
  rw [Prog.holds_run_bind, holds_rpc]
  refine ⟨hreads _ _ rfl fun _ h => List.mem_append_left _ h, fun answer => ?_⟩
  cases answer with
  | error stop => trivial
  | ok assets =>
  simp only
  split_ifs with hlength
  · trivial
  have haccepts : Accepts chain (retainAssets chain specs assets) :=
    ⟨specs, assets, rfl, not_not.mp hlength⟩
  rw [Prog.holds_run_bind, holds_tell]
  refine ⟨⟨nofun, ?_⟩, fun delivered => ?_⟩
  · rintro assets' hsend
    cases hsend
    exact haccepts
  simp only
  rw [Prog.holds_run_bind, holds_iterate]
  refine ⟨prepares_of_plain nofun nofun, fun accounts => ?_⟩
  simp only
  rw [Prog.holds_run_bind]
  refine (checks_checkMonitored _ block accounts.entries _).grows.mono ?_ ?_
  · rintro said'' o ⟨hsub, ho⟩
    refine ho.prepares (hsub.subset ?_)
    simp [hmetadata]
  · rintro said'' (stop | removed) ⟨hsub, -⟩
    · trivial
    · refine ⟨⟨block, hsub.subset ?_, hsub.subset ?_⟩, haccepts⟩
      · simp [hmetadata]
      · simp [hversion]

/-- The program with which a turn over the endpoints begins. -/
theorem connect_prepares (watched_accounts : WatchedAccounts) (endpoint : String) :
    Prog.Holds (Prepares chain) (fun said result => Continues (Assembled chain said) result) []
      (connect chain watched_accounts endpoint : Job lib _).run := by
  unfold connect
  rw [Prog.holds_run_bind, holds_attempt, holds_rpc]
  refine ⟨prepares_of_plain (by rintro call ⟨⟩; rfl) (fun _ h => by cases h), fun answer => ?_⟩
  cases answer with
  | error stop => cases stop <;> trivial
  | ok =>
  simp only [Attempted]
  rw [Prog.holds_run_bind, holds_attempt]
  refine (prepareChain_prepares watched_accounts endpoint _).mono (fun _ _ h => h) ?_
  intro said result h
  cases result with
  | error stop => cases stop <;> trivial
  | ok assembled => exact h

/-- The branch for a new block. -/
theorem newBlock_inspects (watcher : ChainWatcher lib) (watched_accounts : WatchedAccounts)
    (number : String) :
    Prog.Holds (Inspects watcher) (fun _ result => Continues (· = watcher) result) []
      (newBlock watcher watched_accounts number).run := by
  unfold newBlock
  rw [Prog.holds_run_bind, holds_attempt, holds_rpc]
  refine ⟨inspects_of_plain (by rintro call ⟨⟩; rfl) (fun _ h => by cases h), fun answer => ?_⟩
  cases answer with
  | error stop => cases stop <;> trivial
  | ok block =>
  simp only [Attempted]
  rw [Prog.holds_run_bind, holds_rpc]
  refine ⟨inspects_of_plain (by rintro call ⟨⟩; rfl) (fun _ h => by cases h), fun answer => ?_⟩
  cases answer with
  | error stop => trivial
  | ok version =>
  simp only
  split_ifs with hversion
  · trivial
  have hsame : (watcher.version != version) = false := Bool.eq_false_of_not_eq_true hversion
  rw [Prog.holds_run_bind, holds_attempt, holds_rpc]
  refine ⟨⟨?_, fun _ h => by cases h⟩, fun answer => ?_⟩
  · rintro call metadata block' ⟨⟩ hreads
    cases hreads
    exact ⟨rfl, version, List.mem_append_right _ (List.mem_singleton_self _), hsame⟩
  cases answer with
  | error stop => cases stop <;> trivial
  | ok events =>
  simp only [Attempted]
  rw [Prog.holds_run_bind, holds_now]
  refine ⟨inspects_of_plain (fun _ h => by cases h) (fun _ h => by cases h), fun now => ?_⟩
  simp only
  rw [Prog.holds_run_bind, holds_iterate]
  refine ⟨inspects_of_plain (fun _ h => by cases h) (fun _ h => by cases h), fun accounts => ?_⟩
  simp only
  rw [Prog.holds_run_bind]
  refine (checks_checkInvoices watcher block events now accounts.entries _).grows.mono ?_ ?_
  · rintro said o ⟨hsub, ho⟩
    exact ho.inspects (hsub.subset (by simp)) hsame
  · rintro said (stop | removed) -
    · trivial
    · rfl

end Programs

/-! ## The task -/

/-- An answer that a tracker got at some time. -/
def Answered (h : List (Turn lib)) (call : RpcCall lib) (answer : call.Result) : Prop :=
  ∃ x ∈ h, x.event = .said ⟨.rpc call, .ok answer⟩

theorem Answered.append {h : List (Turn lib)} {call : RpcCall lib} {answer : call.Result}
    (ha : Answered h call answer) (h' : List (Turn lib)) : Answered (h ++ h') call answer := by
  obtain ⟨x, hx, he⟩ := ha
  exact ⟨x, List.mem_append_left _ hx, he⟩

/-- **Where a watcher comes from.** -/
structure Known (chain : Chain) (h : List (Turn lib)) (watcher : ChainWatcher lib) : Prop where
  fetched : ∃ block, Answered h (.metadata block) watcher.metadata ∧
    Answered h (.runtimeVersionIdentifier block) watcher.version
  accepted : Accepts chain watcher.assets

theorem Known.append {h : List (Turn lib)} {watcher : ChainWatcher lib}
    (hk : Known chain h watcher) (h' : List (Turn lib)) : Known chain (h ++ h') watcher where
  fetched := by
    obtain ⟨block, hm, hv⟩ := hk.fetched
    exact ⟨block, hm.append h', hv.append h'⟩
  accepted := hk.accepted

/-- The program that a tracker is in: it connects, or looks at a block with what it knows. -/
inductive Working (chain : Chain) (h : List (Turn lib)) (said : Trace (TrackerSig lib))
    (job : Prog (TrackerSig lib) (Except Stop (Continuation lib))) : Prop
  | connecting (hjob : Prog.Holds (Prepares chain)
      (fun said result => Continues (Assembled chain said) result) said job)
  | inspecting (watcher : ChainWatcher lib) (hk : Known chain h watcher)
      (hjob : Prog.Holds (Inspects watcher) (fun _ result => Continues (· = watcher) result) said
        job)

theorem Working.append {h : List (Turn lib)} {said : Trace (TrackerSig lib)}
    {job : Prog (TrackerSig lib) (Except Stop (Continuation lib))} (hw : Working chain h said job)
    (h' : List (Turn lib)) : Working chain (h ++ h') said job := by
  cases hw with
  | connecting hjob => exact .connecting hjob
  | inspecting watcher hk hjob => exact .inspecting watcher (hk.append h') hjob

/-- **What holds of a tracker, given its history.** -/
structure Tracker.Acquainted (chain : Chain) (h : List (Turn lib)) (t : Tracker lib) : Prop where
  serving : ∀ watcher, t.pc = .serve watcher → Known chain h watcher
  working : ∀ said job, t.pc = .busy said job → Working chain h said job
  said : ∀ said job, t.pc = .busy said job → ∀ exchange ∈ said, ∃ x ∈ h, x.event = .said exchange

theorem Tracker.acquainted_start (h : List (Turn lib)) :
    (Tracker.start : Tracker lib).Acquainted chain h where
  serving := nofun
  working := nofun
  said := nofun

theorem Tracker.Acquainted.append {h : List (Turn lib)} {t : Tracker lib}
    (ha : t.Acquainted chain h) (h' : List (Turn lib)) : t.Acquainted chain (h ++ h') where
  serving := fun watcher hpc => (ha.serving watcher hpc).append h'
  working := fun said job hpc => (ha.working said job hpc).append h'
  said := by
    intro said job hpc exchange hmem
    obtain ⟨x, hx, he⟩ := ha.said said job hpc exchange hmem
    exact ⟨x, List.mem_append_left _ hx, he⟩

/-- The watcher with which a program goes on is known. -/
theorem Tracker.Acquainted.settled {h : List (Turn lib)} {t : Tracker lib}
    (ha : t.Acquainted chain h) {said : Trace (TrackerSig lib)} {watcher : ChainWatcher lib}
    {watched_accounts : WatchedAccounts}
    (hpc : t.pc = .busy said (.done (.ok (.serve watcher watched_accounts)))) :
    Known chain h watcher := by
  have hanswered : ∀ (call : RpcCall lib) (answer : call.Result),
      ⟨.rpc call, .ok answer⟩ ∈ said → Answered h call answer :=
    fun call answer hmem => ha.said _ _ hpc _ hmem
  cases ha.working _ _ hpc with
  | connecting hjob =>
    have hjob : Assembled chain said watcher := hjob
    obtain ⟨block, hm, hv⟩ := hjob.fetched
    exact ⟨⟨block, hanswered _ _ hm, hanswered _ _ hv⟩, hjob.accepted⟩
  | inspecting watcher' hk hjob =>
    obtain rfl : watcher = watcher' := hjob
    exact hk

theorem TurnStep.acquainted {h : List (Turn lib)} {t t' : Tracker lib} {x : Turn lib}
    (hs : TurnStep chain t x t') (ha : t.Acquainted chain h) :
    t'.Acquainted chain (h ++ [x]) := by
  obtain ⟨-, -, hs⟩ := hs
  have hnew : ∀ job, Working chain (h ++ [x]) [] job → ∀ t' : Tracker lib,
      t'.pc = .busy [] job → t'.Acquainted chain (h ++ [x]) := by
    intro job hjob t' hpc
    refine ⟨fun watcher hpc' => ?_, fun said' job' hpc' => ?_, fun said' job' hpc' => ?_⟩
    · cases hpc.symm.trans hpc'
    · obtain ⟨rfl, rfl⟩ := TrackerPc.busy.inj (hpc.symm.trans hpc')
      exact hjob
    · obtain ⟨rfl, rfl⟩ := TrackerPc.busy.inj (hpc.symm.trans hpc')
      exact fun _ hmem => absurd hmem List.not_mem_nil
  generalize hx : x.event = e at hs
  cases hs with
  | stopped | timedOut => exact ⟨nofun, nofun, nofun⟩
  | turned endpoint => exact hnew _ (.connecting (connect_prepares _ endpoint)) _ rfl
  | @said said o k answer hpc =>
    refine ⟨nofun, ?_, ?_⟩
    · rintro said' job ⟨⟩
      cases (ha.working _ _ hpc).append [x] with
      | connecting hjob => exact .connecting (hjob.2 answer)
      | inspecting watcher hk hjob => exact .inspecting watcher hk (hjob.2 answer)
    · rintro said' job ⟨⟩ exchange hmem
      rcases List.mem_append.mp hmem with hmem | hmem
      · obtain ⟨y, hy, he⟩ := ha.said _ _ hpc exchange hmem
        exact ⟨y, List.mem_append_left _ hy, he⟩
      · exact ⟨x, List.mem_append_right _ (List.mem_singleton_self _),
          by rw [hx, List.mem_singleton.mp hmem]⟩
  | @settled said result hpc =>
    match result with
    | .error _ | .ok (.rotate _) => exact ⟨nofun, nofun, nofun⟩
    | .ok (.serve watcher watched) =>
      refine ⟨?_, nofun, nofun⟩
      rintro watcher' ⟨⟩
      exact (ha.settled hpc).append [x]
  | @received watcher request hpc =>
    have hk := (ha.serving watcher hpc).append [x]
    match request with
    | .newBlock number =>
      exact hnew _ (.inspecting watcher hk (newBlock_inspects watcher _ number)) _ rfl
    | .watchAccount request =>
      refine ⟨?_, fun said job hpc' => ?_, fun said job hpc' => ?_⟩
      · intro watcher' hpc'
        obtain rfl := TrackerPc.serve.inj (hpc.symm.trans hpc')
        exact hk
      · cases hpc.symm.trans hpc'
      · cases hpc.symm.trans hpc'
    | .reap request => exact ha.append [x]
    | .shutdown => exact ⟨nofun, nofun, nofun⟩

end Kalatori
