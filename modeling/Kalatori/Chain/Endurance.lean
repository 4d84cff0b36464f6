import Kalatori.Chain.Preparation
import Kalatori.Chain.WatchList

/-!
# What a node can do to a tracker

A node may let a tracker connect or not, and may answer every request as it likes
or not at all.  Here the answers to the calls of a tracker are no longer left open:
a turn is kept with the requests that its call made, and the answer to the call is
what the function behind it returned on the answers to these.

Nothing that a node does should end the task.  Two things do.  The version of the
runtime is asked for at every new block, and a failure to tell it is returned from
the task instead of being caught; and stored events that cannot be decoded are a
panic.  `unstoppable` says that there is nothing else: as long as neither of these
happens the task goes on until it is told to stop, and the watch list loses nothing
to a failure.

* `NodeRun`: runs of a tracker in conversation with a node.
* `NodeTurn.WellBehaved`: the node does neither of the two.
* `Enduring`: what is then kept from turn to turn.
-/

namespace Kalatori

open Program Transition

variable {lib : Libraries} {chain : Chain}

/-! ## Runs in conversation with a node -/

/-- A turn of a tracker, with the requests that its call made and the answers to them. -/
structure NodeTurn (lib : Libraries) extends Turn lib where
  asked : Trace NodeSig

/-- The answer to a call is what the function behind it returned. -/
def NodeTurn.Heard (library : NodeLibrary lib.Metadata) (x : NodeTurn lib) : Prop :=
  match x.event with
  | .said ⟨.rpc call, answer⟩ =>
    ∃ line, Prog.Runs (call.fetch library line).run x.asked answer
  | _ => x.asked = []

/-- The steps of a tracker, recorded with what its node was asked. -/
def NodeStep (library : NodeLibrary lib.Metadata) (chain : Chain) (t : Tracker lib)
    (x : NodeTurn lib) (t' : Tracker lib) : Prop :=
  TurnStep chain t x.toTurn t' ∧ x.Heard library

/-- A run of a tracker in conversation with a node that may do anything. -/
abbrev NodeRun (library : NodeLibrary lib.Metadata) (chain : Chain) :
    List (NodeTurn lib) → Tracker lib → Prop :=
  Reach (NodeStep library chain) always (· = .start)

/-- A program that deals with a new block has begun. -/
def AtNewBlock (said : Trace (TrackerSig lib)) : Prop :=
  ∃ number answer rest, said = ⟨.rpc (.blockHash number), answer⟩ :: rest

/-- **The node does not do the two things that end the task.** -/
structure NodeTurn.WellBehaved (library : NodeLibrary lib.Metadata) (x : NodeTurn lib) : Prop where
  /-- At a new block, the request for the version of the runtime is answered. -/
  version : ∀ said job block answer, x.before.pc = .busy said job → AtNewBlock said →
    x.event = .said ⟨.rpc (.runtimeVersionIdentifier block), answer⟩ →
      ∀ e ∈ x.asked, e.2 ≠ none
  /-- The stored events of a block can be decoded. -/
  events : ∀ block metadata answer,
    x.event = .said ⟨.rpc (.transferEvents block metadata), answer⟩ →
      ∀ e ∈ x.asked, ¬Undecodable library.parser metadata block e

/-- **A misbehaving node cannot stop a tracker.** -/
structure Unstoppable (h : List (NodeTurn lib)) (t : Tracker lib) : Prop where
  /-- The task does not end, by itself or by a panic, before it is told to. -/
  ends : ∀ result, t.pc = .ended result → result = .ok () ∧
    ((∃ x ∈ h, x.event = .received .shutdown) ∨ ∃ x ∈ h, x.event = .stopped true)
  /-- It moves to the next endpoint with the watch list as it was. -/
  moves : ∀ x ∈ h, x.after.pc = .rotate → x.after.watched_accounts = x.before.watched_accounts
  /-- An invoice that leaves the list was reported paid, or its last check did not fail. -/
  skips : ∀ x ∈ h, x.after.Alive → ∀ id invoice,
    x.before.watched_accounts.lookup id = some invoice →
    x.after.watched_accounts.lookup id = none → ∃ said, x.event = .settled said ∧
      (Told said id ∨ (verdicts id said).getLast? = some (some false))

theorem NodeRun.trackerRun {library : NodeLibrary lib.Metadata} {h : List (NodeTurn lib)}
    {t : Tracker lib} (run : NodeRun library chain h t) :
    TrackerRun lib chain (h.map NodeTurn.toTurn) t := by
  induction run with
  | start h0 => exact .start h0
  | next _ _ hs ih =>
    rw [List.map_append]
    exact ih.next trivial hs.1

/-! ## What becomes of the watch list -/

/-- Without a request to stop, an endpoint that is left takes no invoice with it. -/
theorem TrackerStep.moves {t t' : Tracker lib} {e : TrackerEvent lib}
    (hs : TrackerStep chain t e t') (hsound : t.Sound) (hrotate : t'.pc = .rotate) :
    t'.watched_accounts = t.watched_accounts := by
  cases hs with
  | stopped => cases hrotate
  | turned | said | timedOut => rfl
  | @settled said result hpc =>
    obtain ⟨now?, hsettled⟩ := hsound.busy _ _ hpc
    match result with
    | .error _ => cases hrotate
    | .ok (.serve _ _) => cases hrotate
    | .ok (.rotate _) => exact hsettled.1
  | @received watcher request hpc =>
    match request with
    | .newBlock number => rfl
    | .watchAccount request => cases hpc.symm.trans hrotate
    | .reap _ => rfl
    | .shutdown => rfl

/-! ## What the programs stop at -/

/-- The branch for a new block begins with the hash of the block. -/
theorem newBlock_atNewBlock (watcher : ChainWatcher lib) (watched_accounts : WatchedAccounts)
    (number : String) :
    Prog.Holds (fun _ _ => True) (fun said _ => AtNewBlock said) []
      (newBlock watcher watched_accounts number).run := by
  unfold newBlock
  rw [Prog.holds_run_bind, holds_attempt, holds_rpc]
  refine ⟨trivial, fun answer => ?_⟩
  have hrest : ∀ p : Prog (TrackerSig lib) (Except Stop (Continuation lib)),
      Prog.Holds (fun _ _ => True) (fun said _ => AtNewBlock said)
        [⟨.rpc (.blockHash number), answer⟩] p := by
    intro p
    refine (Prog.holds_true _ p).grows.mono (fun _ _ _ => trivial) ?_
    rintro said _ ⟨⟨rest, hsaid⟩, -⟩
    exact ⟨number, answer, rest, hsaid.symm⟩
  match answer with
  | .error .panicked => exact ⟨number, _, [], rfl⟩
  | .error (.failed e) => exact hrest _
  | .ok block => exact hrest _

/-- **What is kept from turn to turn while the node is well-behaved.** -/
structure Enduring (h : List (NodeTurn lib)) (t : Tracker lib) : Prop where
  calm : ∀ said job, t.pc = .busy said job → ¬SaidPanic said
  version : ∀ said job, t.pc = .busy said job → AtNewBlock said → ∀ e, ¬SaidNoVersion said e
  fails : ∀ said job, t.pc = .busy said job → Prog.Holds (fun _ _ => True)
    (fun said result => ∀ e, result = .error (.failed e) → AtNewBlock said) said job
  shutdown : t.shutdown = true → ∃ x ∈ h, x.event = .received .shutdown
  ended : ∀ result, t.pc = .ended result → result = .ok () ∧
    ((∃ x ∈ h, x.event = .received .shutdown) ∨ ∃ x ∈ h, x.event = .stopped true)

section Answers

variable {library : NodeLibrary lib.Metadata}

/-- A well-behaved node makes no call panic. -/
theorem NodeTurn.not_panicked {x : NodeTurn lib} (hheard : x.Heard library)
    (hx : x.WellBehaved library) {call : RpcCall lib} {answer : Except Stop call.Result}
    (he : x.event = .said ⟨.rpc call, answer⟩) : answer ≠ .error .panicked := by
  rw [NodeTurn.Heard, he] at hheard
  obtain ⟨line, hruns⟩ := hheard
  rintro rfl
  by_cases hcall : ∃ block metadata, call = .transferEvents block metadata
  · obtain ⟨block, metadata, rfl⟩ := hcall
    obtain ⟨asked, hasked, hiff⟩ := (panicsOn_transferEvents []).runs hruns
    obtain ⟨e, hmem, hundecodable⟩ := hiff.mp rfl
    obtain rfl : x.asked = asked := by simpa using hasked
    exact hx.events block metadata _ he e hmem hundecodable
  · have hcalm := calm_fetch library line call fun block metadata hc =>
      hcall ⟨block, metadata, hc⟩
    obtain ⟨asked, -, hiff⟩ := (hcalm []).runs hruns
    obtain ⟨e, -, hfalse⟩ := hiff.mp rfl
    exact hfalse

/-- It tells the version of the runtime at a new block. -/
theorem NodeTurn.version_told {x : NodeTurn lib} (hheard : x.Heard library)
    (hx : x.WellBehaved library) {said : Trace (TrackerSig lib)}
    {job : Prog (TrackerSig lib) (Except Stop (Continuation lib))}
    (hpc : x.before.pc = .busy said job) (hsaid : AtNewBlock said) {block : BlockHash}
    {e : ChainError} :
    x.event ≠ .said ⟨.rpc (.runtimeVersionIdentifier block), .error (.failed e)⟩ := by
  intro he
  have hanswered := hx.version said job block _ hpc hsaid he
  rw [NodeTurn.Heard, he] at hheard
  obtain ⟨line, hruns⟩ := hheard
  have hfetch : Prog.Holds (fun _ _ => True)
      (fun asked result => (∀ e ∈ asked, e.2 ≠ none) → ∀ e, result ≠ .error (.failed e)) []
      (Fetch.runtimeVersionIdentifier block).run := by
    rw [Fetch.runtimeVersionIdentifier, holds_request]
    refine ⟨trivial, fun hnone => ?_, fun value _ => nofun⟩
    exact absurd rfl (hnone _ (List.mem_singleton_self _))
  exact hfetch.runs hruns hanswered e rfl

end Answers

/-! ## What a turn keeps -/

section Turns

variable {library : NodeLibrary lib.Metadata} {h : List (NodeTurn lib)} {t t' : Tracker lib}

theorem Enduring.start : Enduring [] (.start : Tracker lib) where
  calm := nofun
  version := nofun
  fails := nofun
  shutdown := nofun
  ended := nofun

/-- A task that has not ended, and is in no program. -/
theorem Enduring.idle {x : NodeTurn lib} (he : Enduring h t)
    (hshutdown : t'.shutdown = true → t.shutdown = true ∨ x.event = .received .shutdown)
    (hbusy : ∀ said job, t'.pc ≠ .busy said job) (hended : ∀ result, t'.pc ≠ .ended result) :
    Enduring (h ++ [x]) t' where
  calm := fun said job hpc => absurd hpc (hbusy said job)
  version := fun said job hpc => absurd hpc (hbusy said job)
  fails := fun said job hpc => absurd hpc (hbusy said job)
  shutdown := by
    intro hs
    rcases hshutdown hs with hs | hx
    · obtain ⟨y, hy, hevent⟩ := he.shutdown hs
      exact ⟨y, List.mem_append_left _ hy, hevent⟩
    · exact ⟨x, List.mem_append_right _ (List.mem_singleton_self x), hx⟩
  ended := fun result hpc => absurd hpc (hended result)

/-- A task that begins a program. -/
theorem Enduring.begun {x : NodeTurn lib} (he : Enduring h t)
    {job : Prog (TrackerSig lib) (Except Stop (Continuation lib))}
    (hshutdown : t'.shutdown = t.shutdown) (hpc : t'.pc = .busy [] job)
    (hjob : Prog.Holds (fun _ _ => True)
      (fun said result => ∀ e, result = .error (.failed e) → AtNewBlock said) [] job) :
    Enduring (h ++ [x]) t' where
  calm := by
    intro said job' hpc'
    obtain ⟨rfl, rfl⟩ : [] = said ∧ job = job' := by simpa using hpc.symm.trans hpc'
    exact not_saidPanic_nil
  version := by
    intro said job' hpc' _ e
    obtain ⟨rfl, rfl⟩ : [] = said ∧ job = job' := by simpa using hpc.symm.trans hpc'
    rintro ⟨block, hmem⟩
    cases hmem
  fails := by
    intro said job' hpc'
    obtain ⟨rfl, rfl⟩ : [] = said ∧ job = job' := by simpa using hpc.symm.trans hpc'
    exact hjob
  shutdown := by
    intro hs
    obtain ⟨y, hy, hevent⟩ := he.shutdown (hshutdown ▸ hs)
    exact ⟨y, List.mem_append_left _ hy, hevent⟩
  ended := fun result hpc' => nomatch hpc.symm.trans hpc'

/-- There always is a next endpoint, if there is one. -/
theorem endpoint_isSome (hend : chain.endpoints ≠ []) (turn : ℕ) :
    chain.endpoint turn ≠ none := by
  have hlt : turn % chain.endpoints.length < chain.endpoints.length :=
    Nat.mod_lt _ (List.length_pos_of_ne_nil hend)
  rw [Chain.endpoint, List.getElem?_eq_getElem hlt]
  exact Option.some_ne_none _

theorem Enduring.next {x : NodeTurn lib} (hend : chain.endpoints ≠ []) (hsound : t.Sound)
    (hstep : NodeStep library chain t x t') (hx : x.WellBehaved library) (he : Enduring h t) :
    Enduring (h ++ [x]) t' := by
  obtain ⟨⟨hbefore, -, hs⟩, hheard⟩ := hstep
  generalize hevent : x.event = event at hs
  have hmem : x ∈ h ++ [x] := List.mem_append_right _ (List.mem_singleton_self x)
  cases hs with
  | stopped cancelled hpc hs =>
    refine ⟨nofun, nofun, nofun, fun hs => ?_, ?_⟩
    · obtain ⟨y, hy, hevent⟩ := he.shutdown hs
      exact ⟨y, List.mem_append_left _ hy, hevent⟩
    · rintro _ ⟨⟩
      refine ⟨rfl, ?_⟩
      rcases hs with hs | rfl | hnone
      · obtain ⟨y, hy, hevent⟩ := he.shutdown hs
        exact .inl ⟨y, List.mem_append_left _ hy, hevent⟩
      · exact .inr ⟨x, hmem, hevent⟩
      · exact absurd hnone (endpoint_isSome hend _)
  | turned endpoint =>
    refine he.begun rfl rfl ((connect_spec hsound.keyed chain endpoint).mono
      (fun _ _ _ => trivial) ?_)
    rintro said result ⟨-, hfailed⟩ e hresult
    exact absurd hresult (hfailed e)
  | @said said o k answer hpc =>
    refine ⟨?_, ?_, ?_, fun hs => ?_, nofun⟩
    · rintro _ _ ⟨⟩ hpanic
      rcases saidPanic_append.mp hpanic with hpanic | hpanic
      · exact he.calm _ _ hpc hpanic
      · obtain ⟨call, hexchange⟩ := saidPanic_singleton.mp hpanic
        exact NodeTurn.not_panicked hheard hx (hevent.trans (congrArg _ hexchange)) rfl
    · rintro _ _ ⟨⟩ hnew e ⟨block, hmem⟩
      obtain ⟨number, answer', rest, hfirst⟩ := hnew
      cases said with
      | nil =>
        obtain ⟨hexchange, -⟩ := List.cons.inj hfirst
        rw [hexchange] at hmem
        cases congrArg Sigma.fst (List.mem_singleton.mp hmem)
      | cons first rest' =>
        obtain ⟨rfl, -⟩ := List.cons.inj hfirst
        have hsaid : AtNewBlock (⟨.rpc (.blockHash number), answer'⟩ :: rest') :=
          ⟨number, answer', rest', rfl⟩
        rcases List.mem_append.mp hmem with hmem | hmem
        · exact he.version _ _ hpc hsaid e ⟨block, hmem⟩
        · have htold : x.event ≠
              .said ⟨.rpc (.runtimeVersionIdentifier block), .error (.failed e)⟩ :=
            NodeTurn.version_told hheard hx (hbefore ▸ hpc) hsaid
          exact htold (hevent.trans (congrArg _ (List.mem_singleton.mp hmem).symm))
    · rintro _ _ ⟨⟩
      exact (he.fails _ _ hpc).2 answer
    · obtain ⟨y, hy, hevent⟩ := he.shutdown hs
      exact ⟨y, List.mem_append_left _ hy, hevent⟩
  | @settled said result hpc =>
    obtain ⟨now?, hsettled⟩ := hsound.busy _ _ hpc
    match result with
    | .ok (.rotate _) => exact he.idle .inl nofun nofun
    | .ok (.serve _ _) => exact he.idle .inl nofun nofun
    | .error .panicked => exact absurd hsettled (he.calm _ _ hpc)
    | .error (.failed e) =>
      have hnew : AtNewBlock said := he.fails _ _ hpc e rfl
      exact absurd hsettled.1 (he.version _ _ hpc hnew e)
  | @received watcher request hpc =>
    match request with
    | .newBlock number =>
      exact he.begun rfl rfl ((newBlock_atNewBlock watcher _ number).mono (fun _ _ _ => trivial)
        fun _ _ hnew _ _ => hnew)
    | .watchAccount request =>
      exact he.idle .inl (fun _ _ hbusy => nomatch hpc.symm.trans hbusy)
        fun _ hended => nomatch hpc.symm.trans hended
    | .reap request =>
      exact he.idle .inl (fun _ _ hbusy => nomatch hpc.symm.trans hbusy)
        fun _ hended => nomatch hpc.symm.trans hended
    | .shutdown => exact he.idle (fun _ => .inr hevent) nofun nofun
  | timedOut => exact he.idle .inl nofun nofun

end Turns

/-- **What stops a tracker.**  While its node does neither of the two things, a tracker that has
an endpoint goes on until it is told to stop.  `ChainManager::ignite` starts no other. -/
theorem unstoppable {library : NodeLibrary lib.Metadata} {h : List (NodeTurn lib)}
    {t : Tracker lib} (run : NodeRun library chain h t) (hend : chain.endpoints ≠ [])
    (hx : ∀ x ∈ h, x.WellBehaved library) : Unstoppable h t := by
  have henduring : Enduring h t := (run.strengthen hx).invariant (P := Enduring)
    (fun _ h0 => h0 ▸ Enduring.start)
    fun _ _ _ _ run₁ he hx hs =>
      he.next hend (TrackerRun.sound (NodeRun.trackerRun run₁.weaken)) hs hx
  have hsteps : ∀ x ∈ h, ∃ h₁ t₁, NodeRun library chain h₁ t₁ ∧ x.before = t₁ ∧
      TrackerStep chain t₁ x.event x.after := by
    intro x hmem
    obtain ⟨h₁, h₂, rfl⟩ := List.append_of_mem hmem
    obtain ⟨t₁, t₂, run₁, -, ⟨hbefore, hafter, hs⟩, -⟩ := run.split
    exact ⟨h₁, t₁, run₁, hbefore, hafter ▸ hs⟩
  refine ⟨henduring.ended, fun x hmem hrotate => ?_, fun x hmem halive id invoice hl hl' => ?_⟩
  · obtain ⟨h₁, t₁, run₁, hbefore, hs⟩ := hsteps x hmem
    rw [hbefore]
    exact hs.moves run₁.trackerRun.sound hrotate
  · obtain ⟨h₁, t₁, run₁, hbefore, hs⟩ := hsteps x hmem
    rw [hbefore] at hl
    exact hs.skips run₁.trackerRun.sound halive id invoice hl hl'

/-! ## Replaying the conversation -/

/-- What the surroundings of a tracker do next: its node and the others answer, or anything else
happens. -/
inductive NodeAction (lib : Libraries)
  | answer (line : Line) (node : NodeRequest → Option Json)
  | act (action : TrackerAction lib)

section Replay

variable (library : NodeLibrary lib.Metadata)

/-- The answers to the operations of a tracker, at the hour zero. -/
def surroundings (line : Line) (node : NodeRequest → Option Json) :
    ∀ o : TrackerOp lib, (TrackerSig lib).Answer o
  | .rpc call => ((call.fetch library line).run.converse node).2
  | .now => (0 : Timestamp)
  | .iterate watched_accounts => Enumeration.ofMap watched_accounts
  | .send _ => true

/-- What the node is asked on the way. -/
def askedFor (line : Line) (node : NodeRequest → Option Json) : TrackerEvent lib → Trace NodeSig
  | .said ⟨.rpc call, _⟩ => ((call.fetch library line).run.converse node).1
  | _ => []

/-- The tracker as a function of what its surroundings do. -/
def nodeExec (chain : Chain) (t : Tracker lib) :
    NodeAction lib → Option (NodeTurn lib × Tracker lib)
  | .answer line node =>
    (turnExec chain t (.answer (surroundings library line node))).map fun (x, t') =>
      (⟨x, askedFor library line node x.event⟩, t')
  | .act action =>
    match turnExec chain t action with
    | some (⟨_, .said _, _⟩, _) => none
    | some (x, t') => some (⟨x, []⟩, t')
    | none => none

/-- An answer is to the operation that the program waits for. -/
theorem turnExec_answer {t t' : Tracker lib} {x : Turn lib}
    {answers : ∀ o : TrackerOp lib, (TrackerSig lib).Answer o}
    (h : turnExec chain t (.answer answers) = some (x, t')) :
    ∃ o, x.event = .said ⟨o, answers o⟩ := by
  obtain ⟨⟨event, t''⟩, hexec, hx⟩ := Option.map_eq_some_iff.mp h
  obtain ⟨rfl, rfl⟩ := Prod.mk.inj hx
  simp only [Tracker.exec] at hexec
  split at hexec
  · rename_i o k _
    obtain ⟨rfl, -⟩ := Prod.mk.inj (Option.some.inj hexec)
    exact ⟨o, rfl⟩
  · cases hexec

theorem nodeExec_sound (t : Tracker lib) (a : NodeAction lib) (x : NodeTurn lib) (t' : Tracker lib)
    (h : nodeExec library chain t a = some (x, t')) : NodeStep library chain t x t' := by
  cases a with
  | answer line node =>
    obtain ⟨⟨y, t''⟩, hy, hx⟩ := Option.map_eq_some_iff.mp h
    obtain ⟨rfl, rfl⟩ := Prod.mk.inj hx
    obtain ⟨o, ho⟩ := turnExec_answer hy
    refine ⟨turnExec_sound chain t _ y t'' hy, ?_⟩
    simp only [NodeTurn.Heard, ho]
    cases o with
    | rpc call =>
      exact ⟨line, Prog.runs_converse (S := NodeSig) node (call.fetch library line).run⟩
    | _ => rfl
  | act action =>
    simp only [nodeExec] at h
    split at h
    · cases h
    · rename_i y t'' hsaid hy
      obtain ⟨rfl, rfl⟩ := Prod.mk.inj (Option.some.inj h)
      refine ⟨turnExec_sound chain t _ y t'' hy, ?_⟩
      obtain ⟨before, event, after⟩ := y
      cases event with
      | said exchange => exact (hsaid before exchange after rfl).elim
      | _ => rfl
    · cases h

end Replay

namespace Sample

/-- Libraries for metadata that are kept as the name of their runtime, and encoded as a version
and that name. -/
def nodeLibrary : NodeLibrary libraries.Metadata where
  toBalanceLibrary := balanceLibrary
  parser := parser
  pallets _ := []
  storageEntryKey _ _ _ _ := .plain
  decodeMetadata
    | 15 :: name => (stringFromUtf8 name).map some
    | _ :: _ => some none
    | [] => none
  resolvesToU32 _ _ := none
  blake2_128 := id
  blake2_256 := id
  twox64 := id
  twox256 := id

def encodedMetadata : List UInt8 :=
  (Scale.Codec.option (.seq .byte)).encode
    (some ("meta".toUTF8.toList ++ 15 :: "polkadot".toUTF8.toList))

/-- A node of the chain, which tells the version of its runtime or not, and has these events. -/
def nodeReplies (told : Bool) (events : Option (List UInt8)) (request : NodeRequest) :
    Option Json :=
  match request.method with
  | "chain_getBlockHash" => some (.string (hexString (List.replicate 32 0)))
  | "chain_subscribeFinalizedHeads" => some (.string "subscription")
  | "state_getRuntimeVersion" =>
    if told then some (.object [("specVersion", .posInt 1)]) else none
  | "state_call" => some (.string (hexString encodedMetadata))
  | "system_properties" => some (.object properties)
  | "state_getKeysPaged" =>
    if events.isSome && request.params.length = 3 then
      some (.array [.string (hexString (storageKeyStart parser "System" "Events"))])
    else some (.array [])
  | "state_getStorage" => events.map fun value => .string (hexString value)
  | _ => none

/-- The tracker is turned away, connects at the next endpoint, and is told of a block, about
which its surroundings are asked so many times. -/
def aBlock (calls : ℕ) (told : Bool) (events : Option (List UInt8)) :
    List (NodeAction libraries) :=
  [.act .turn, .answer ⟨false, .terminated⟩ (nodeReplies true none), .act .settle, .act .turn] ++
    List.replicate 10 (.answer ⟨true, .head "0x1"⟩ (nodeReplies true none)) ++
    [.act .settle, .act (.receive (.newBlock "0x1"))] ++
    List.replicate calls (.answer ⟨true, .head "0x1"⟩ (nodeReplies told events)) ++ [.act .settle]

/-- A turn in which the node does neither of the two things. -/
def harmless (x : NodeTurn libraries) : Bool :=
  match x.event with
  | .said ⟨.rpc (.runtimeVersionIdentifier _), _⟩ => x.asked.all fun e => e.2.isSome
  | .said ⟨.rpc (.transferEvents ..), _⟩ => x.asked.all fun e => e.1.method != "state_getStorage"
  | _ => true

/-- How a tracker has ended. -/
def ending : TrackerPc libraries → Option (Except Stop Unit)
  | .ended result => some result
  | _ => none

theorem ending_eq_some {pc : TrackerPc libraries} {result : Except Stop Unit} :
    ending pc = some result ↔ pc = .ended result := by
  cases pc with
  | ended result' => exact ⟨fun h => congrArg _ (Option.some.inj h), fun h => by cases h; rfl⟩
  | rotate | busy | serve => exact iff_of_false (fun h => by cases h) fun h => by cases h

end Sample

theorem wellBehaved_of_harmless {x : NodeTurn Sample.libraries} (h : Sample.harmless x = true) :
    x.WellBehaved Sample.nodeLibrary where
  version := by
    intro said job block answer _ _ he e hmem hnone
    rw [Sample.harmless, he] at h
    have hanswered := List.all_eq_true.mp h e hmem
    rw [hnone] at hanswered
    cases hanswered
  events := by
    rintro block metadata answer he e hmem ⟨_, _, _, _, _, -, rfl, -⟩
    rw [Sample.harmless, he] at h
    have hmethod := List.all_eq_true.mp h _ hmem
    exact absurd hmethod (by simp)

/-- A tracker that was turned away once, and has served a block. -/
theorem unstoppable_aBlock : ∃ h t, NodeRun Sample.nodeLibrary Sample.polkadot h t ∧
    (∃ watcher, t.pc = .serve watcher) ∧ Unstoppable h t := by
  obtain ⟨h, t, run, hp⟩ := exists_reach_of_replay
    (@nodeExec_sound _ Sample.polkadot Sample.nodeLibrary) (· = Tracker.start) rfl
    (Sample.aBlock 5 true none)
    (p := fun q => q.1.all Sample.harmless && q.2.pc.serving) (by decide +kernel)
  obtain ⟨hharmless, hserve⟩ := Bool.and_eq_true_iff.mp hp
  exact ⟨h, t, run, TrackerPc.serving_iff.mp hserve, unstoppable run (by decide) fun x hmem =>
    wellBehaved_of_harmless (List.all_eq_true.mp hharmless x hmem)⟩

/-- **A node that does not tell the version of its runtime, or whose events cannot be decoded.** -/
theorem stopped_by_node :
    (∃ h t, NodeRun Sample.nodeLibrary Sample.polkadot h t ∧
      t.pc = .ended (.error (.failed .client)) ∧ ¬Unstoppable h t) ∧
    ∃ h t, NodeRun Sample.nodeLibrary Sample.polkadot h t ∧
      t.pc = .ended (.error .panicked) ∧ ¬Unstoppable h t := by
  have hstopped : ∀ (calls : ℕ) (told : Bool) (events : Option (List UInt8)) (stop : Stop),
      (replay (nodeExec Sample.nodeLibrary Sample.polkadot) .start
        (Sample.aBlock calls told events)).any
          (fun q => Sample.ending q.2.pc = some (.error stop)) = true →
      ∃ h t, NodeRun Sample.nodeLibrary Sample.polkadot h t ∧
        t.pc = .ended (.error stop) ∧ ¬Unstoppable h t := by
    intro calls told events stop hreplay
    obtain ⟨h, t, run, hp⟩ := exists_reach_of_replay (nodeExec_sound Sample.nodeLibrary)
      (· = Tracker.start) rfl _ hreplay
    have hpc : t.pc = .ended (.error stop) := Sample.ending_eq_some.mp (of_decide_eq_true hp)
    refine ⟨h, t, run, hpc, fun hunstoppable => ?_⟩
    have hok : Except.error stop = .ok () := (hunstoppable.ends _ hpc).1
    cases hok
  exact ⟨hstopped 2 false none _ (by decide +kernel),
    hstopped 3 true (some [255]) _ (by decide +kernel)⟩

end Kalatori
