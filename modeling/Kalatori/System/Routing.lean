import Kalatori.Chain.Routes
import Kalatori.Chain.Watchers
import Kalatori.System.Traffic

/-!
# Which tracker a request goes to

The manager finds the tracker of a currency by the name of a chain.  `ignite`
refuses a currency that is declared twice, but of two chains with one name it
keeps only the channel of the later one.  So the requests for the currencies of
the earlier chain go to the wrong tracker, and a shutdown does not reach its own.

* `Sys.Wired`: the trackers announce what was declared, and the handler accepts no more.
* `Sys.Drains`: in a shutdown, the trackers that were asked so far have been told.
* `CurrenciesRouted`: the law, for one state of a run.
* `currenciesRouted_iff`: it holds in every run exactly if the names are distinct.
-/

namespace Kalatori

open Program Transition

variable {lib : Libraries} {d : Deployment lib}
  {allow : List (SysEvent lib) → Sys lib → SysEvent lib → Prop}

/-! ## The handler -/

/-- The currencies of a map were all declared. -/
def Deployment.Declares (d : Deployment lib) (currencies : HashMap String CurrencyProperties) :
    Prop :=
  ∀ currency, (currencies.lookup currency).isSome → ∃ chain ∈ d.chain, currency ∈ chain.declared

theorem Deployment.Declares.update {state : StateData} {assets : HashMap String CurrencyProperties}
    (h : d.Declares state.currencies) (h' : d.Declares assets) :
    d.Declares (state.updateCurrencies assets).currencies := by
  intro currency hsome
  have hmem : currency ∈ assets ∪ state.currencies := AList.lookup_isSome.mp hsome
  rcases AList.mem_union.mp hmem with hmem | hmem
  · exact h' currency (AList.lookup_isSome.mpr hmem)
  · exact h currency (AList.lookup_isSome.mpr hmem)

/-- The data with which the handler goes on. -/
def Listens (P : StateData → Prop) : Except Error HandlerNext → Prop
  | .ok (.listen state) => P state
  | .ok .finish | .error _ => True

/-- Whatever is done before, the handler goes on with the data that it returns. -/
theorem listens_return {α : Type} {P : StateData → Prop} {state : StateData} (h : P state)
    (said : Trace HandlerSig) (p : Handling α) :
    Prog.Holds (fun _ _ => True) (fun _ result => Listens P result) said
      ((do let _ ← p; return state) >>= fun state => pure (HandlerNext.listen state)).run := by
  rw [bind_assoc, Prog.holds_run_bind]
  refine (Prog.holds_true said p.run).mono (fun _ _ h => h) ?_
  rintro said' (e | a) -
  · trivial
  · exact h

/-- Only a chain that connects changes what the handler knows. -/
theorem handle_listens (state : StateData) (request : StateAccessRequest) :
    Prog.Holds (fun _ _ => True)
      (fun _ result => Listens (fun state' => state' = state ∨
        ∃ assets, request = .connectChain assets ∧
          state' = state.updateCurrencies assets) result) []
      (handle lib state request >>= fun state => pure (HandlerNext.listen state)).run := by
  cases request with
  | connectChain assets => exact .inr ⟨assets, rfl, rfl⟩
  | isCurrencySupported currency | serverStatus => exact listens_return (.inl rfl) [] _
  | getInvoiceStatus order | createInvoice query =>
    rw [handle, bind_assoc, Prog.holds_run_bind]
    refine (Prog.holds_true [] _).mono (fun _ _ h => h) ?_
    rintro said (e | result) -
    · trivial
    · exact listens_return (.inl rfl) said _
  | orderPaid id =>
    rw [handle, bind_assoc, Prog.holds_run_bind]
    refine (Prog.holds_true [] _).mono (fun _ _ h => h) ?_
    rintro said (e | (e | order)) -
    · trivial
    · exact .inl rfl
    · exact listens_return (.inl rfl) said _

/-- The handler knows only what was declared, and goes on so. -/
structure Handler.Knows (d : Deployment lib) (s : Handler) : Prop where
  state : d.Declares s.state.currencies
  busy : ∀ phase said program, s.pc = .busy phase said program →
    Prog.Holds (fun _ _ => True)
      (fun _ result => Listens (fun state => d.Declares state.currencies) result) said program

theorem Handler.knows_start (recipient : AccountId32) (server_info : ServerInfo) :
    (Handler.start recipient server_info).Knows d := by
  have hempty : d.Declares ∅ := fun _ hsome => by simp at hsome
  refine ⟨hempty, ?_⟩
  rintro phase said program ⟨⟩
  rw [Prog.holds_run_bind]
  refine (Prog.holds_true [] _).mono (fun _ _ h => h) ?_
  rintro said (e | a) -
  · trivial
  · exact hempty

theorem HandlerStep.knows {s s' : Handler} {e : HandlerEvent} (hs : HandlerStep lib s e s')
    (hassets : ∀ assets, e = .received (.connectChain assets) → d.Declares assets)
    (h : s.Knows d) : s'.Knows d := by
  cases hs with
  | said answer hpc =>
    refine ⟨h.state, ?_⟩
    rintro phase said program ⟨⟩
    exact (h.busy _ _ _ hpc).2 answer
  | @settled phase said result hpc =>
    have hresult := h.busy _ _ _ hpc
    match result with
    | .ok (.listen state) => exact ⟨hresult, nofun⟩
    | .ok .finish | .error _ => exact ⟨h.state, nofun⟩
  | received request hpc =>
    refine ⟨h.state, ?_⟩
    rintro phase said program ⟨⟩
    refine (handle_listens s.state request).mono (fun _ _ h => h) fun said result hresult => ?_
    match result with
    | .ok (.listen state) =>
      rcases hresult with rfl | ⟨assets, rfl, rfl⟩
      · exact h.state
      · exact h.state.update (hassets assets rfl)
    | .ok .finish | .error _ => trivial
  | closed => exact ⟨h.state, nofun⟩
  | notified =>
    refine ⟨h.state, ?_⟩
    rintro phase said program ⟨⟩
    rw [Prog.holds_run_bind]
    refine (Prog.holds_true [] _).mono (fun _ _ h => h) ?_
    rintro said (e | a) -
    · trivial
    · trivial

/-! ## The trackers and their messages -/

/-- The turns of one tracker. -/
def SysEvent.turn? (index : ℕ) : SysEvent lib → Option (Turn lib)
  | .tracker i x => if i = index then some x else none
  | _ => none

def turnsOf (index : ℕ) (h : List (SysEvent lib)) : List (Turn lib) :=
  h.filterMap (SysEvent.turn? index)

theorem turnsOf_append (index : ℕ) (h h' : List (SysEvent lib)) :
    turnsOf index (h ++ h') = turnsOf index h ++ turnsOf index h' := List.filterMap_append

theorem mem_turnsOf {index : ℕ} {h : List (SysEvent lib)} {x : Turn lib} :
    x ∈ turnsOf index h ↔ .tracker index x ∈ h := by
  rw [turnsOf, List.mem_filterMap]
  constructor
  · rintro ⟨e, he, hx⟩
    cases e with
    | tracker i y =>
      rw [SysEvent.turn?] at hx
      split_ifs at hx with hi
      obtain rfl := Option.some.inj hx
      exact hi ▸ he
    | outside | daemon | restore | manager => cases hx
  · intro h
    exact ⟨_, h, by simp [SysEvent.turn?]⟩

/-- **What the trackers and the handler know**, and what they tell each other. -/
structure Sys.Wired (d : Deployment lib) (h : List (SysEvent lib)) (s : Sys lib) : Prop where
  trackers : ∀ index chain, d.chain[index]? = some chain →
    (s.trackers index).Acquainted chain (turnsOf index h)
  queued : ∀ assets, .connectChain assets ∈ s.state_queue → d.Declares assets
  handler : s.store.handler.Knows d

/-- What a tracker announces was declared. -/
theorem Tracker.Acquainted.declares {chain : Chain} (hc : chain ∈ d.chain) {h : List (Turn lib)}
    {t t' : Tracker lib} {x : Turn lib} (ha : t.Acquainted chain h) (hs : TurnStep chain t x t')
    {assets : HashMap String CurrencyProperties} {taken : Bool}
    (he : x.event = .said ⟨.send (.connectChain assets), taken⟩) : d.Declares assets := by
  obtain ⟨-, -, hs⟩ := hs
  rw [he] at hs
  cases hs with
  | said _ hpc =>
    cases ha.working _ _ hpc with
    | connecting hjob =>
      have haccepts := hjob.1.connects assets rfl
      have hnodup := (ignite_ok d.ignited).nodup chain hc
      exact fun currency hsome => ⟨chain, hc, (haccepts.lookup hnodup currency).mp hsome⟩
    | inspecting watcher hk hjob => exact absurd rfl (hjob.1.connects assets)

theorem SysStep.wired {h : List (SysEvent lib)} {s s' : Sys lib} {e : SysEvent lib}
    (hs : SysStep d s e s') (hw : s.Wired d h) : s'.Wired d (h ++ [e]) where
  trackers := by
    intro index chain hc
    rw [turnsOf_append]
    rcases hs.outcome.trackers index with heq | heq | ⟨chain', x, rfl, hc', hx⟩
    · rw [heq]
      exact (hw.trackers index chain hc).append _
    · rw [heq]
      exact Tracker.acquainted_start _
    · obtain rfl := Option.some.inj (hc.symm.trans hc')
      have hturn : turnsOf index [SysEvent.tracker index x] = [x] := by
        simp [turnsOf, SysEvent.turn?]
      rw [hturn]
      exact hx.acquainted (hw.trackers index chain hc)
  queued := by
    intro assets hm
    rcases hs.outcome.state_queue hm with hm | hm | ⟨index, x, rfl, he⟩
    · exact hw.queued assets hm
    · cases hm
    · obtain ⟨chain, hc, hx⟩ := hs.outcome.turn
      exact (hw.trackers index chain hc).declares (List.mem_of_getElem? hc) hx he
  handler := by
    rcases hs.outcome.store with ⟨x, rfl, hx⟩ | ⟨-, hstore⟩
    · generalize hbefore : s.store = store at hx
      generalize s'.store = store' at hx
      cases hx with
      | @handler orders orders' handler handler' ev hh ho =>
        refine hh.knows (fun assets he => ?_) ?_
        · refine hw.queued assets (hs.outcome.received_mem ?_)
          rw [he]
        · have hknows := hw.handler
          rwa [hbefore] at hknows
      | restarted => exact Handler.knows_start _ _
    · rw [hstore]
      exact hw.handler

theorem SysRun.wired {h : List (SysEvent lib)} {s : Sys lib} (run : SysRunIf d allow h s) :
    s.Wired d h := by
  refine run.invariant (P := fun h s => s.Wired d h) ?_ ?_
  · rintro s ⟨orders, -, rfl⟩
    exact ⟨fun _ _ _ => Tracker.acquainted_start _, fun _ hm => (nomatch hm),
      Handler.knows_start _ _⟩
  · rintro h s e s' - ih - hs
    exact hs.wired ih

/-! ## The shutdown -/

/-- A tracker has been told to stop, or is over. -/
def Sys.ToldToStop (s : Sys lib) (index : ℕ) : Prop :=
  (s.trackers index).hasEnded = true ∨ (s.trackers index).shutdown = true ∨
    .shutdown ∈ s.tracker_queue index

/-- Of the trackers that the manager goes through, those before the next one have been told. -/
def Sys.Drains (d : Deployment lib) (s : Sys lib) : Prop :=
  ∀ left, s.manager = .drain left ∨ s.manager = .wait left →
    ∃ done, (done ++ left).Perm d.routes.watch_chain.entries ∧
      ∀ entry ∈ done, s.ToldToStop entry.2

/-- A tracker does not forget that it was told. -/
theorem TrackerStep.shutdown_kept {chain : Chain} {t t' : Tracker lib} {e : TrackerEvent lib}
    (hs : TrackerStep chain t e t') (h : t.shutdown = true) : t'.shutdown = true := by
  cases hs with
  | @settled _ result => rcases result with _ | _ | _ <;> exact h
  | @received _ request => cases request <;> first | exact h | rfl
  | _ => exact h

/-- A tracker that takes the request is told. -/
theorem TrackerStep.shutdown_received {chain : Chain} {t t' : Tracker lib}
    (hs : TrackerStep chain t (.received .shutdown) t') : t'.shutdown = true := by
  cases hs with
  | received => rfl

/-- A tracker that has ended makes no step. -/
theorem TrackerStep.not_ended {chain : Chain} {t t' : Tracker lib} {e : TrackerEvent lib}
    (hs : TrackerStep chain t e t') : t.hasEnded = false := by
  cases hs with
  | stopped _ h | turned _ h | said _ h | settled h | received _ h | timedOut h =>
    rw [Tracker.hasEnded, h]

theorem Outcome.toldToStop {s s' : Sys lib} {e : SysEvent lib} (h : Outcome d s e s')
    (he : ∀ orders, e ≠ .daemon ⟨orders, .restarted, orders⟩) {index : ℕ}
    (ht : s.ToldToStop index) : s'.ToldToStop index := by
  have hqueue : ∀ (i : ℕ) (request : ChainTrackerRequest),
      .shutdown ∈ s.tracker_queue index →
        .shutdown ∈ Function.update s.tracker_queue i (s.tracker_queue i ++ [request]) index := by
    intro i request hmem
    by_cases hi : index = i
    · subst hi
      simp [hmem]
    · simpa [hi] using hmem
  have hsame : ∀ s' : Sys lib, s'.trackers = s.trackers → s'.tracker_queue = s.tracker_queue →
      s'.ToldToStop index := by
    intro s' htrackers hqueues
    rw [Sys.ToldToStop, htrackers, hqueues]
    exact ht
  have hpushed : ∀ (s' : Sys lib) (i : ℕ) (request : ChainTrackerRequest),
      s'.trackers = s.trackers →
      s'.tracker_queue = Function.update s.tracker_queue i (s.tracker_queue i ++ [request]) →
      s'.ToldToStop index := by
    intro s' i request htrackers hqueues
    rw [Sys.ToldToStop, htrackers, hqueues]
    exact ht.imp_right fun ht => ht.imp_right (hqueue i request)
  have hstepped : ∀ (s' : Sys lib) (i : ℕ) (chain : Chain) (x : Turn lib) (t' : Tracker lib),
      TurnStep chain (s.trackers i) x t' → s'.trackers = Function.update s.trackers i t' →
      (.shutdown ∈ s.tracker_queue index →
        .shutdown ∈ s'.tracker_queue index ∨ index = i ∧ t'.shutdown = true) →
      s'.ToldToStop index := by
    rintro s' i chain x t' ⟨-, -, hs⟩ htrackers hqueues
    rw [Sys.ToldToStop, htrackers]
    by_cases hi : index = i
    · subst hi
      simp only [Function.update_self]
      rcases ht with ht | ht | ht
      · exact absurd ht (by simp [hs.not_ended])
      · exact .inr (.inl (hs.shutdown_kept ht))
      · rcases hqueues ht with ht | ⟨-, ht⟩
        · exact .inr (.inr ht)
        · exact .inr (.inl ht)
    · rw [Function.update_of_ne hi]
      exact ht.imp_right fun ht => ht.imp_right fun ht =>
        (hqueues ht).resolve_right fun h => hi h.1
  cases h with
  | restarted => exact absurd rfl (he _)
  | blockSeen i number => exact hpushed _ i _ rfl rfl
  | forwarded i request => exact hpushed _ i _ rfl rfl
  | asked name i rest => exact hpushed _ i _ rfl rfl
  | droppedTracker i request rest hend hqueue =>
    by_cases hi : index = i
    · subst hi
      exact .inl (by simpa using hend)
    · have hother : Function.update s.tracker_queue i rest index = s.tracker_queue index :=
        Function.update_of_ne hi _ _
      simp only [Sys.ToldToStop, Sys.drop_trackers, Sys.drop_tracker_queue, hother]
      exact ht
  | lost => exact hsame _ (by simp) (by simp)
  | tracker i hc hs => exact hstepped _ i _ _ _ hs rfl .inl
  | told i message hc hs => exact hstepped _ i _ _ _ hs rfl .inl
  | @took i request rest chain x t' hc hs he hfirst =>
    refine hstepped _ i _ _ _ hs (by simp) fun hmem => ?_
    by_cases hi : index = i
    · subst hi
      rw [hfirst] at hmem
      rcases List.mem_cons.mp hmem with rfl | hmem
      · obtain ⟨-, -, hs⟩ := hs
        rw [he] at hs
        exact .inr ⟨rfl, hs.shutdown_received⟩
      · exact .inl (by simpa using hmem)
    · exact .inl (by simpa [hi] using hmem)
  | _ => exact hsame _ rfl rfl

theorem SysStep.drains {s s' : Sys lib} {e : SysEvent lib} (hs : SysStep d s e s')
    (hd : s.Drains d) : s'.Drains d := by
  by_cases he : ∃ orders, e = .daemon ⟨orders, .restarted, orders⟩
  · obtain ⟨orders, rfl⟩ := he
    cases hs with
    | handler _ _ he => cases he
    | restarted => rintro left (hpc | hpc) <;> cases hpc
  have hkeep : ∀ index, s.ToldToStop index → s'.ToldToStop index := fun index =>
    hs.outcome.toldToStop (fun orders heq => he ⟨orders, heq⟩)
  -- Unless the manager moves, the same trackers are left.
  have hsame : s'.manager = s.manager → s'.Drains d := by
    intro hmanager left hpc
    rw [hmanager] at hpc
    obtain ⟨done, hperm, htold⟩ := hd left hpc
    exact ⟨done, hperm, fun entry hmem => hkeep _ (htold entry hmem)⟩
  have hmoved : (∀ left, s'.manager ≠ .drain left ∧ s'.manager ≠ .wait left) → s'.Drains d := by
    intro hother left hpc
    exact (hpc.elim (hother left).1 (hother left).2).elim
  -- The next tracker has been told as well.
  have hnext : ∀ entry rest, s.manager = .drain (entry :: rest) → s'.ToldToStop entry.2 →
      (s'.manager = .drain rest ∨ s'.manager = .wait rest) → s'.Drains d := by
    intro entry rest hpc htold hpc' left hleft
    obtain ⟨done, hperm, hdone⟩ := hd _ (.inl hpc)
    obtain rfl : left = rest := by
      rcases hpc' with hpc' | hpc' <;> rcases hleft with hleft | hleft <;>
        cases hpc'.symm.trans hleft <;> rfl
    refine ⟨done ++ [entry], by simpa using hperm, fun entry' hmem => ?_⟩
    rcases List.mem_append.mp hmem with hmem | hmem
    · exact hkeep _ (hdone entry' hmem)
    · rw [List.mem_singleton.mp hmem]
      exact htold
  cases hs.outcome with
  | restarted => exact absurd ⟨_, rfl⟩ he
  | routed | forwarded | finished | closed => exact hmoved fun _ => ⟨nofun, nofun⟩
  | lost => exact hmoved fun _ => ⟨by simp, by simp⟩
  | winding watch_chain rest hpc hqueue hperm =>
    rintro left (hpc' | hpc') <;> cases hpc'
    exact ⟨[], hperm, nofun⟩
  | asked name index rest hpc =>
    refine hnext ⟨name, index⟩ rest hpc (.inr (.inr ?_)) (.inr rfl)
    simp
  | skipped name index rest hpc hend => exact hnext ⟨name, index⟩ rest hpc (.inl hend) (.inl rfl)
  | waited rest hpc =>
    rintro left (hpc' | hpc') <;> cases hpc'
    obtain ⟨done, hperm, htold⟩ := hd rest (.inr hpc)
    exact ⟨done, hperm, fun entry hmem => hkeep _ (htold entry hmem)⟩
  | droppedTracker | took => exact hsame (by simp)
  | _ => exact hsame rfl

theorem SysRun.drains {h : List (SysEvent lib)} {s : Sys lib} (run : SysRunIf d allow h s) :
    s.Drains d := by
  refine run.invariant (P := fun _ s => s.Drains d) ?_ ?_
  · rintro s ⟨orders, -, rfl⟩ left (hpc | hpc) <;> cases hpc
  · rintro h s e s' - ih - hs
    exact hs.drains ih

/-! ## The law -/

/-- **Currencies are routed to the chain that declares them**, in one state of a run. -/
structure CurrenciesRouted (d : Deployment lib) (h : List (SysEvent lib)) (s : Sys lib) : Prop where
  routed : ∀ index chain currency, d.chain[index]? = some chain → currency ∈ chain.declared →
    d.routes.route currency = .ok index
  /-- The manager sends a request for a currency, to watch or to reap, to the tracker of the
  chain that declares it. -/
  received : ∀ s' request rest w forward index chain, SysStep d s (.manager .received) s' →
    s.manager_queue = request :: rest → request.forTracker = some (w, forward) →
    d.chain[index]? = some chain → w.currency ∈ chain.declared →
    s'.manager = .forward index forward
  /-- A currency that an invoice may name is one that its tracker knows, once connected. -/
  accepted : ∀ currency, (s.store.handler.state.currencies.lookup currency).isSome →
    ∃ index chain, d.chain[index]? = some chain ∧ d.routes.route currency = .ok index ∧
      ∀ watcher, (s.trackers index).pc = .serve watcher →
        (watcher.assets.lookup currency).isSome
  /-- So is the currency of every request that is on its way to a tracker. -/
  found : ∀ index request w watcher, s.Heading d index request → request.account = some w →
    (s.trackers index).pc = .serve watcher → (watcher.assets.lookup w.currency).isSome
  /-- A shutdown goes through all trackers, in any order. -/
  shutdown : ∀ watch_chain : List (Σ _ : String, ℕ),
    watch_chain.Perm d.routes.watch_chain.entries → ∀ index < d.chain.length,
      ∃ name, ⟨name, index⟩ ∈ watch_chain
  /-- When it is over, all of them have been told. -/
  told : ∀ h', h = h' ++ [.manager .finished] → ∀ index < d.chain.length, s.ToldToStop index

/-- What a connected tracker knows of. -/
theorem SysRun.lookup_assets {h : List (SysEvent lib)} {s : Sys lib} (run : SysRunIf d allow h s)
    {index : ℕ} {chain : Chain} (hc : d.chain[index]? = some chain) {watcher : ChainWatcher lib}
    (hpc : (s.trackers index).pc = .serve watcher) (currency : String) :
    (watcher.assets.lookup currency).isSome ↔ currency ∈ chain.declared := by
  have hwired := SysRun.wired run
  have hknown := (hwired.trackers index chain hc).serving watcher hpc
  exact hknown.accepted.lookup ((ignite_ok d.ignited).nodup chain (List.mem_of_getElem? hc))
    currency

/-- A currency is routed to the one chain that declares it. -/
theorem route_ok_iff (hdistinct : Distinct d.chain) {currency : String} {index : ℕ} :
    d.routes.route currency = .ok index ↔
      ∃ chain, d.chain[index]? = some chain ∧ currency ∈ chain.declared := by
  constructor
  · intro hroute
    obtain ⟨chain, hmem, hcurrency⟩ := declared_of_route d.ignited hroute
    obtain ⟨i, hi⟩ := List.getElem?_of_mem hmem
    have hroute' := route_declared d.ignited hdistinct hi hcurrency
    obtain rfl : i = index := Except.ok.inj (hroute'.symm.trans hroute)
    exact ⟨chain, hi, hcurrency⟩
  · rintro ⟨chain, hc, hcurrency⟩
    exact route_declared d.ignited hdistinct hc hcurrency

theorem currenciesRouted_of_distinct (hdistinct : Distinct d.chain) {h : List (SysEvent lib)}
    {s : Sys lib} (run : SysRun d h s) : CurrenciesRouted d h s where
  routed := fun _ chain _ hc hcurrency => (route_ok_iff hdistinct).mpr ⟨chain, hc, hcurrency⟩
  received := by
    intro s' request rest w forward index chain hs hqueue hreq hc hcurrency
    have hroute := (route_ok_iff hdistinct).mpr ⟨chain, hc, hcurrency⟩
    cases hs with
    | manager _ hm =>
      rw [Sys.manage] at hm
      split at hm
      · rename_i request' rest' hpc hqueue'
        obtain ⟨rfl, rfl⟩ := List.cons.inj (hqueue.symm.trans hqueue')
        rw [hreq] at hm
        simp only [Option.map_some, hroute] at hm
        rw [← Option.some.inj hm]
      · cases hm
  accepted := by
    intro currency hsome
    obtain ⟨chain, hmem, hcurrency⟩ := (SysRun.wired run).handler.state currency hsome
    obtain ⟨index, hc⟩ := List.getElem?_of_mem hmem
    exact ⟨index, chain, hc, (route_ok_iff hdistinct).mpr ⟨chain, hc, hcurrency⟩,
      fun watcher hpc => (SysRun.lookup_assets run hc hpc currency).mpr hcurrency⟩
  found := by
    intro index request w watcher hw ha hpc
    have hroute := (SysRun.traced run).routed index request w hw ha
    obtain ⟨chain, hc, hcurrency⟩ := (route_ok_iff hdistinct).mp hroute
    exact (SysRun.lookup_assets run hc hpc w.currency).mpr hcurrency
  shutdown := by
    intro watch_chain hperm index hindex
    obtain ⟨name, hmem⟩ := (watch_chain_complete_iff d.ignited).mpr hdistinct index hindex
    exact ⟨name, hperm.mem_iff.mpr hmem⟩
  told := by
    rintro h' rfl index hindex
    obtain ⟨s₁, run₁, -, hs⟩ := run.last
    have hdrains := SysRun.drains run₁
    cases hs with
    | manager _ hm =>
      rw [Sys.manage] at hm
      split at hm
      · rename_i hpc
        obtain ⟨done, hperm, htold⟩ := hdrains [] (.inl hpc)
        obtain ⟨name, hmem⟩ := (watch_chain_complete_iff d.ignited).mpr hdistinct index hindex
        rw [List.append_nil] at hperm
        rw [← Option.some.inj hm]
        exact htold ⟨name, index⟩ (hperm.mem_iff.mpr hmem)
      · cases hm

/-- **Currencies are routed to the chain that declares them**, and a shutdown reaches every
tracker, in all runs exactly if no two chains have the same name. -/
theorem currenciesRouted_iff (d : Deployment lib) :
    (∀ h s, SysRun d h s → CurrenciesRouted d h s) ↔ Distinct d.chain := by
  constructor
  · intro hall
    have hstart := hall [] _ (.start ⟨∅, earlier_empty, rfl⟩)
    exact (watch_chain_complete_iff d.ignited).mp (hstart.shutdown _ (List.Perm.refl _))
  · exact fun hdistinct h s run => currenciesRouted_of_distinct hdistinct run

/-! ## Two chains of one name -/

namespace Sample

/-- Two chains that differ in their tokens and their nodes, but not in their names. -/
def twins : List Chain :=
  [⟨"westend", ["wss://relay"], some ⟨"WND", 12⟩, []⟩,
    ⟨"westend", ["wss://node"], none, [⟨"JOE", 8⟩]⟩]

def twinned : Deployment libraries where
  chain := twins
  recipient := account
  server_info := serverInfo
  account_lifetime := 1000
  account := fun _ => account
  routes := ⟨AList.singleton "westend" 1,
    (AList.singleton "WND" "westend").insert "JOE" "westend"⟩
  ignited := rfl

end Sample

theorem currency_routed_to_namesake :
    ∃ d : Deployment Sample.libraries, ∃ h s, SysRun d h s ∧ ¬CurrenciesRouted d h s := by
  refine ⟨Sample.twinned, [], _, .start ⟨∅, earlier_empty, rfl⟩, fun hrouted => ?_⟩
  have hroute := hrouted.routed 0 _ "WND" rfl (by decide)
  exact absurd hroute (by decide)

end Kalatori
