import Kalatori.System.Authors
import Kalatori.System.Routing

/-!
# Which metadata data are read with

A runtime upgrade changes how the data of a chain are to be read.  A tracker
asks every new block for its runtime version and connects anew when that is not
the version of its watcher, so it reads every block with metadata of the block's
own version.  A payout reads the newest block there is when it begins, with the
watcher of the tracker that spawned it, and asks for no version.

* `PayoutEvent.Interprets`: data of a block are read, or a transaction is built for it.
* `UpToDate`: the law.
* `PayoutEvent.Current`: a payout begins at a block of its watcher's version.
* `upToDate`: the law holds in every run whose payouts do.
-/

namespace Kalatori

open Program Transition

variable {lib : Libraries} {d : Deployment lib} {engine : PayoutEngine lib}

/-! ## The law -/

/-- The metadata that a call of a payout reads data with, and the block from which they come. -/
def PayoutCall.interprets : PayoutCall lib → Option (lib.Metadata × BlockHash)
  | .currentBlockNumber known block => some (known, block)
  | .balance chain _ block => some (chain.metadata, block)
  | .build _ | .head | .sendStuff _ => none

/-- Data of a block are read with some metadata, or a transaction is built for the block. -/
inductive PayoutEvent.Interprets (known : lib.Metadata) (block : BlockHash) :
    PayoutEvent lib → Prop
  | tracker (index : ℕ) (x : Turn lib) (call : RpcCall lib) (answer : Except Stop call.Result)
      (he : x.event = .said ⟨.rpc call, answer⟩) (hc : call.interprets = some (known, block)) :
      Interprets known block (.daemon (.tracker index x))
  | payout (task : PayoutTask lib) (call : PayoutCall lib) (answer : Except Stop call.Result)
      (hc : call.interprets = some (known, block)) :
      Interprets known block (.said task ⟨.rpc call, answer⟩)
  | built (task : PayoutTask lib) (transaction : TransactionToFill) :
      Interprets known block (.said task ⟨.built known block transaction, ()⟩)

/-- Metadata were fetched at a block. -/
def FetchedAt (h : List (PayoutEvent lib)) (known : lib.Metadata) (block : BlockHash) : Prop :=
  ∃ index x, .daemon (.tracker index x) ∈ h ∧ x.event = .said ⟨.rpc (.metadata block), .ok known⟩

/-- **Nothing is read with outdated metadata**: those that are used at a block were fetched at
one of the same runtime version. -/
def UpToDate (version : BlockHash → Json) (h : List (PayoutEvent lib)) : Prop :=
  ∀ h₁ e h₂ known block, h = h₁ ++ e :: h₂ → e.Interprets known block →
    ∃ block', FetchedAt h₁ known block' ∧ version block' = version block

/-- The version that a node tells is the one of the block. -/
def PayoutEvent.Truthful (version : BlockHash → Json) (e : PayoutEvent lib) : Prop :=
  ∀ index x block answer, e = .daemon (.tracker index x) →
    x.event = .said ⟨.rpc (.runtimeVersionIdentifier block), .ok answer⟩ → answer = version block

/-- The block that a payout is told to be the newest has the version of its watcher. -/
def PayoutEvent.Current (version : BlockHash → Json) (e : PayoutEvent lib) : Prop :=
  ∀ task block, e = .said task ⟨.rpc .head, .ok block⟩ → task.chain.version = version block

/-- The runs with truthful nodes whose steps meet a condition. -/
abbrev TruthfulRun (d : Deployment lib) (engine : PayoutEngine lib) (version : BlockHash → Json)
    (allow : PayoutEvent lib → Prop) : List (PayoutEvent lib) → PayoutSys lib → Prop :=
  PayoutRunIf d engine (fun _ _ e => e.Truthful version ∧ allow e) (Sys.Begun d)

/-! ## The proof -/

variable {version : BlockHash → Json} {allow : PayoutEvent lib → Prop}
  {h : List (PayoutEvent lib)} {s s' : PayoutSys lib}

theorem FetchedAt.append {known : lib.Metadata} {block : BlockHash} (hf : FetchedAt h known block)
    (h' : List (PayoutEvent lib)) : FetchedAt (h ++ h') known block := by
  obtain ⟨index, x, hx, he⟩ := hf
  exact ⟨index, x, List.mem_append_left _ hx, he⟩

theorem TruthfulRun.truthful (run : TruthfulRun d engine version allow h s) :
    ∀ e ∈ h, e.Truthful version := by
  intro e he
  obtain ⟨h₁, h₂, rfl⟩ := List.append_of_mem he
  obtain ⟨_, _, -, ok, -⟩ := run.split
  exact ok.1

/-- A watcher, with a block of which it has the metadata and the version. -/
def Dated (version : BlockHash → Json) (h : List (PayoutEvent lib)) (watcher : ChainWatcher lib) :
    Prop :=
  ∃ block, FetchedAt h watcher.metadata block ∧ watcher.version = version block

theorem Dated.append {watcher : ChainWatcher lib} (hw : Dated version h watcher)
    (h' : List (PayoutEvent lib)) : Dated version (h ++ h') watcher := by
  obtain ⟨block, hf, hv⟩ := hw
  exact ⟨block, hf.append h', hv⟩

theorem mem_of_mem_turnsOf {index : ℕ} {x : Turn lib} (hx : x ∈ turnsOf index (sysEvents h)) :
    .daemon (.tracker index x) ∈ h :=
  mem_sysEvents.mp (mem_turnsOf.mp hx)

/-- What is known of a chain is dated by the block at which it was learned. -/
theorem Known.dated {chain : Chain} {index : ℕ} {watcher : ChainWatcher lib}
    (hk : Known chain (turnsOf index (sysEvents h)) watcher)
    (htruth : ∀ e ∈ h, e.Truthful version) : Dated version h watcher := by
  obtain ⟨block, ⟨x, hx, hxe⟩, ⟨y, hy, hye⟩⟩ := hk.fetched
  refine ⟨block, ⟨index, x, mem_of_mem_turnsOf hx, hxe⟩, ?_⟩
  exact htruth _ (mem_of_mem_turnsOf hy) index y block _ rfl hye

/-- The trackers of a run know their chains. -/
theorem TruthfulRun.acquainted (run : TruthfulRun d engine version allow h s) {index : ℕ}
    {chain : Chain} (hc : d.chain[index]? = some chain) :
    (s.sys.trackers index).Acquainted chain (turnsOf index (sysEvents h)) :=
  have hrun : SysRun d (sysEvents h) s.sys := PayoutRun.sysRun run
  (SysRun.wired hrun).trackers index chain hc

/-- A tracker reads with metadata of the right version. -/
theorem TruthfulRun.tracker_reads (run : TruthfulRun d engine version allow h s) {index : ℕ}
    {x : Turn lib} {sys' : Sys lib} (hs : SysStep d s.sys (.tracker index x) sys')
    {call : RpcCall lib} {answer : Except Stop call.Result}
    (he : x.event = .said ⟨.rpc call, answer⟩) {known : lib.Metadata} {block : BlockHash}
    (hc : call.interprets = some (known, block)) :
    ∃ block', FetchedAt h known block' ∧ version block' = version block := by
  obtain ⟨chain, hchain, -, -, hstep⟩ := hs.outcome.turn
  have hacquainted := TruthfulRun.acquainted run hchain
  have htruth := TruthfulRun.truthful run
  rw [he] at hstep
  generalize sys'.trackers index = t' at hstep
  cases hstep with
  | @said said _ k _ hpc =>
    have hsaid : ∀ exchange ∈ said, ∃ y, .daemon (.tracker index y) ∈ h ∧
        y.event = .said exchange := by
      intro exchange hmem
      obtain ⟨y, hy, hye⟩ := hacquainted.said _ _ hpc exchange hmem
      exact ⟨y, mem_of_mem_turnsOf hy, hye⟩
    cases hacquainted.working _ _ hpc with
    | connecting hjob =>
      obtain ⟨y, hy, hye⟩ := hsaid _ (hjob.1.reads call known block rfl hc)
      exact ⟨block, ⟨index, y, hy, hye⟩, rfl⟩
    | inspecting watcher hk hjob =>
      obtain ⟨rfl, answer, hmem, hsame⟩ := hjob.1.reads call known block rfl hc
      obtain ⟨y, hy, hye⟩ := hsaid _ hmem
      obtain ⟨block', hf, hversion⟩ := hk.dated htruth
      refine ⟨block', hf, ?_⟩
      calc version block' = watcher.version := hversion.symm
        _ = answer := Json.eq_of_bne hsame
        _ = version block := htruth _ hy index y block answer rfl hye

/-- The watcher of a payout is dated. -/
theorem TruthfulRun.engaged (run : TruthfulRun d engine version allow h s) :
    s.Engaged engine fun c => Dated version h c.chain := by
  refine PayoutRun.engaged (P := fun h c => Dated version h c.chain) run
    (fun h e c hc => hc.append [e]) ?_
  intro h s e sys' c run hs hc
  obtain ⟨index, x, rfl, -, hpc⟩ := commission_eq_some hc
  obtain ⟨chain, hchain, -⟩ := hs.outcome.turn
  have hk := (TruthfulRun.acquainted run hchain).serving c.chain hpc
  exact (hk.dated (TruthfulRun.truthful run)).append _

/-- A payout that knows its block has a watcher of the block's version. -/
theorem TruthfulRun.current
    (run : TruthfulRun d engine version (PayoutEvent.Current version) h s) :
    ∀ task ∈ s.running, ∀ block, ⟨.rpc .head, .ok block⟩ ∈ task.said →
      task.chain.version = version block := by
  refine run.invariant (P := fun _ s => ∀ task ∈ s.running, ∀ block,
    ⟨.rpc .head, .ok block⟩ ∈ task.said → task.chain.version = version block) ?_ ?_
  · rintro s ⟨sys, -, rfl⟩ task hmem
    cases hmem
  · rintro h s e s' - ih ⟨-, hcurrent⟩ hs
    cases hs with
    | daemon hs => exact fun task hmem => ih task (PayoutSys.mem_follow_running hmem)
    | began n hc hs =>
      intro task hmem
      rcases List.mem_append.mp hmem with hmem | hmem
      · exact ih task hmem
      · obtain rfl := List.mem_singleton.mp hmem
        exact fun block hsaid => absurd hsaid List.not_mem_nil
    | @said task o k n answer ht hp ha =>
      intro task' hmem block hsaid
      rcases List.mem_or_eq_of_mem_set hmem with hmem | rfl
      · exact ih task' hmem block hsaid
      · rcases List.mem_append.mp hsaid with hsaid | hsaid
        · exact ih task (List.mem_of_getElem? ht) block hsaid
        · refine hcurrent task block ?_
          rw [List.mem_singleton.mp hsaid]

/-- A payout reads and builds with the metadata of its watcher. -/
theorem Pays.metadata {con : Constructor lib.Metadata} {order : Invoice}
    {chain : ChainWatcher lib} {said : Trace (PayoutSig lib)} {o : PayoutOp lib}
    (h : Pays con order chain said o) {task : PayoutTask lib} {answer : (PayoutSig lib).Answer o}
    {known : lib.Metadata} {block : BlockHash}
    (hi : PayoutEvent.Interprets known block (.said task ⟨o, answer⟩)) :
    known = chain.metadata ∧ ⟨.rpc .head, .ok block⟩ ∈ said := by
  generalize he : PayoutEvent.said task ⟨o, answer⟩ = e at hi
  cases hi with
  | tracker => cases he
  | payout task' call answer' hc =>
    obtain ⟨-, hexchange⟩ := PayoutEvent.said.inj he
    obtain ⟨rfl, -⟩ := Sigma.mk.inj hexchange
    cases h with
    | build | head | sendStuff => cases hc
    | currentBlockNumber block' hb | balance block' hb =>
      cases hc
      exact ⟨rfl, hb⟩
  | built task' transaction =>
    obtain ⟨-, hexchange⟩ := PayoutEvent.said.inj he
    obtain ⟨rfl, -⟩ := Sigma.mk.inj hexchange
    cases h with
    | built _ _ hb => exact ⟨rfl, hb⟩

/-- **No metadata are outdated** where payouts begin at a block of their watcher's version. -/
theorem upToDate (run : TruthfulRun d engine version (PayoutEvent.Current version) h s) :
    UpToDate version h := by
  rintro h₁ e h₂ known block rfl hi
  obtain ⟨s₁, s₂, run₁, -, hs⟩ := run.split
  have run₁ : TruthfulRun d engine version (PayoutEvent.Current version) h₁ s₁ := run₁
  cases hs with
  | daemon hs =>
    cases hi with
    | tracker index x call answer he hc => exact TruthfulRun.tracker_reads run₁ hs he hc
  | began => cases hi
  | @said task o k n answer ht hp =>
    have hmem : task ∈ s₁.running := List.mem_of_getElem? ht
    have hengaged := TruthfulRun.engaged run₁
    have hpays := hengaged.paying task hmem
    rw [hp] at hpays
    obtain ⟨rfl, hhead⟩ := hpays.1.metadata hi
    obtain ⟨c, ⟨block', hf, hversion⟩, -, hchain⟩ := hengaged.running task hmem
    rw [hchain]
    refine ⟨block', hf, ?_⟩
    calc version block' = c.chain.version := hversion.symm
      _ = task.chain.version := by rw [hchain]
      _ = version block := TruthfulRun.current run₁ task hmem block hhead

/-! ## An upgrade -/

namespace Sample

/-- The block that the trackers of `node` see, and one after an upgrade. -/
def oldBlock : BlockHash := ⟨Vector.replicate 32 0⟩
def newBlock : BlockHash := ⟨Vector.replicate 32 1⟩

/-- The runtime version at a block. -/
def runtimeVersion (block : BlockHash) : Json :=
  .object [("specVersion", .posInt (if block = newBlock then 2 else 1))]

/-- A node that is told of a newest block. -/
def payoutNodeAt (head : BlockHash) : ∀ call : PayoutCall libraries, Except Stop call.Result
  | .head => .ok head
  | call => payoutNode 10 call

/-- An order is reaped, and its payout reads the balance at the newest block. -/
def paidAt (head : BlockHash) : List (PayoutAction libraries) :=
  reapedOrder ++ List.replicate 4 (.answer 0 (payoutNodeAt head))

theorem fresh_begun : ∃ sys, Sys.Begun deployment sys ∧
    PayoutSys.start (Sys.start deployment ∅) = .start sys := ⟨_, begun, rfl⟩

end Sample

/-- Whether a step of the sample is truthful. -/
def PayoutEvent.checkTruthful : PayoutEvent Sample.libraries → Bool
  | .daemon (.tracker _ x) =>
    match x.event with
    | .said ⟨.rpc (.runtimeVersionIdentifier block), .ok answer⟩ =>
      !(answer != Sample.runtimeVersion block)
    | _ => true
  | _ => true

theorem PayoutEvent.truthful_of_check {e : PayoutEvent Sample.libraries}
    (h : e.checkTruthful = true) : e.Truthful Sample.runtimeVersion := by
  rintro index x block answer rfl he
  rw [checkTruthful, he] at h
  exact Json.eq_of_bne ((Bool.not_eq_true' _).mp h)

/-- Whether a payout is told of a newest block of its watcher's version, if the step is that. -/
def PayoutEvent.checkCurrent : PayoutEvent Sample.libraries → Bool
  | .said task ⟨.rpc .head, .ok block⟩ => !(task.chain.version != Sample.runtimeVersion block)
  | _ => true

theorem PayoutEvent.current_of_check {e : PayoutEvent Sample.libraries}
    (h : e.checkCurrent = true) : e.Current Sample.runtimeVersion := by
  rintro task block rfl
  exact Json.eq_of_bne ((Bool.not_eq_true' _).mp h)

/-- Whether a payout reads the balance at a block. -/
def PayoutEvent.readsAt (block : BlockHash) : PayoutEvent Sample.libraries → Bool
  | .said _ ⟨.rpc (.balance _ _ block'), _⟩ => block' = block
  | _ => false

/-- Whether metadata are fetched at no block but this one. -/
def PayoutEvent.fetchesAt (block : BlockHash) : PayoutEvent Sample.libraries → Bool
  | .daemon (.tracker _ x) =>
    match x.event with
    | .said ⟨.rpc (.metadata block'), _⟩ => block' = block
    | _ => true
  | _ => true

/-- A payout of an order, at a block of the version that the tracker knows. -/
theorem upToDate_oldBlock : ∃ h s,
    TruthfulRun Sample.deployment Sample.payer Sample.runtimeVersion
        (PayoutEvent.Current Sample.runtimeVersion) h s ∧
      h.getLast?.any (PayoutEvent.readsAt Sample.oldBlock) = true ∧
      UpToDate Sample.runtimeVersion h := by
  obtain ⟨h, s, run, hp⟩ := exists_reach_of_replay
    (PayoutSys.exec_sound Sample.deployment Sample.payer)
    (fun s => ∃ sys, Sys.Begun Sample.deployment sys ∧ s = .start sys) Sample.fresh_begun
    (Sample.paidAt Sample.oldBlock)
    (p := fun q => q.1.all (fun e => e.checkTruthful && e.checkCurrent) &&
      q.1.getLast?.any (PayoutEvent.readsAt Sample.oldBlock)) (by decide +kernel)
  rw [Bool.and_eq_true] at hp
  have run' : TruthfulRun Sample.deployment Sample.payer Sample.runtimeVersion
      (PayoutEvent.Current Sample.runtimeVersion) h s := by
    refine run.strengthen (P := fun e => e.Truthful Sample.runtimeVersion ∧
      e.Current Sample.runtimeVersion) fun e he => ?_
    have hcheck := List.all_eq_true.mp hp.1 e he
    rw [Bool.and_eq_true] at hcheck
    exact ⟨PayoutEvent.truthful_of_check hcheck.1, PayoutEvent.current_of_check hcheck.2⟩
  exact ⟨h, s, run', hp.2, upToDate run'⟩

/-- **A payout reads a balance with metadata from before an upgrade.** -/
theorem payout_outdated : ∃ h s,
    TruthfulRun Sample.deployment Sample.payer Sample.runtimeVersion (fun _ => True) h s ∧
      ¬UpToDate Sample.runtimeVersion h := by
  obtain ⟨h, s, run, hp⟩ := exists_reach_of_replay
    (PayoutSys.exec_sound Sample.deployment Sample.payer)
    (fun s => ∃ sys, Sys.Begun Sample.deployment sys ∧ s = .start sys) Sample.fresh_begun
    (Sample.paidAt Sample.newBlock)
    (p := fun q => q.1.all (fun e => e.checkTruthful && e.fetchesAt Sample.oldBlock) &&
      q.1.getLast?.any (PayoutEvent.readsAt Sample.newBlock)) (by decide +kernel)
  rw [Bool.and_eq_true, List.all_eq_true] at hp
  obtain ⟨hchecks, hlast⟩ := hp
  refine ⟨h, s, run.strengthen (P := fun e => e.Truthful Sample.runtimeVersion ∧ True)
    fun e he => ?_, fun hlaw => ?_⟩
  · have hcheck := hchecks e he
    rw [Bool.and_eq_true] at hcheck
    exact ⟨PayoutEvent.truthful_of_check hcheck.1, trivial⟩
  · rw [Option.any_eq_true] at hlast
    obtain ⟨e, he, hreads⟩ := hlast
    obtain ⟨h₁, rfl⟩ := List.getLast?_eq_some_iff.mp he
    rw [PayoutEvent.readsAt.eq_def] at hreads
    split at hreads
    · next task chain order block answer =>
      obtain rfl := of_decide_eq_true hreads
      obtain ⟨block', ⟨index, x, hx, hxe⟩, hversion⟩ :=
        hlaw h₁ _ [] chain.metadata Sample.newBlock rfl (.payout task _ answer rfl)
      have hcheck := hchecks _ (List.mem_append_left _ hx)
      rw [Bool.and_eq_true, PayoutEvent.fetchesAt, hxe] at hcheck
      obtain rfl := of_decide_eq_true hcheck.2
      simp [Sample.runtimeVersion, Sample.oldBlock, Sample.newBlock] at hversion
    · cases hreads

end Kalatori
