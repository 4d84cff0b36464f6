import Kalatori.Chain.Payout
import Kalatori.System.Traffic

/-!
# The daemon with its payouts

A tracker that takes a request to reap spawns a payout, with a copy of what it
then knows of the chain and the endpoint that it is connected to.  The payout
begins some time later, and goes on by itself from there: nothing waits for it,
and a tracker that connects anew does not touch it.  A restart of the daemon
forgets the payouts.

* `PayoutEngine`: what payouts need, the library that builds transactions and the signer.
* `PayoutSys`, `PayoutStep`, `PayoutRunIf`: the daemon of `SysStep` with its payouts.
* `PayoutRun.sysRun`: without them it is a run of the daemon.
* `PayoutRun.paying`: every payout does what the engine does.
-/

namespace Kalatori

open Program Transition

variable {lib : Libraries} {d : Deployment lib}

/-! ## States -/

structure PayoutEngine (lib : Libraries) where
  con : Constructor lib.Metadata
  overflow_checks : Bool
  keys : Keys
  signer : Signer keys

/-- A payout that has been spawned. -/
structure Commission (lib : Libraries) where
  rpc : String
  request : WatchAccount
  chain : ChainWatcher lib

/-- A payout that has begun, with what was said in it. -/
structure PayoutTask (lib : Libraries) where
  order : Invoice
  chain : ChainWatcher lib
  said : Trace (PayoutSig lib)
  program : Prog (PayoutSig lib) (Except Stop Unit)

structure PayoutSys (lib : Libraries) where
  sys : Sys lib
  spawned : List (Commission lib)
  running : List (PayoutTask lib)

/-- The payout that a step of the daemon spawns. -/
def commission (d : Deployment lib) (s : Sys lib) : SysEvent lib → Option (Commission lib)
  | .tracker index x =>
    match x.event, (s.trackers index).pc with
    | .received (.reap request), .serve chain =>
      (d.chain[index]?.bind fun c => c.endpoint ((s.trackers index).turn - 1)).map fun rpc =>
        ⟨rpc, request, chain⟩
    | _, _ => none
  | _ => none

/-- The payout when it begins. -/
def Commission.begin (engine : PayoutEngine lib) (c : Commission lib) : PayoutTask lib where
  order := Invoice.fromRequest c.request
  chain := c.chain
  said := []
  program := (payout engine.con engine.overflow_checks c.rpc (Invoice.fromRequest c.request)
    c.chain).run

namespace PayoutSys

def start (s : Sys lib) : PayoutSys lib := ⟨s, [], []⟩

/-- The payouts after a step of the daemon. -/
def follow (d : Deployment lib) (s : PayoutSys lib) (e : SysEvent lib) (sys' : Sys lib) :
    PayoutSys lib :=
  match e with
  | .daemon ⟨_, .restarted, _⟩ => .start sys'
  | e => ⟨sys', s.spawned ++ (commission d s.sys e).toList, s.running⟩

end PayoutSys

/-! ## Steps -/

inductive PayoutEvent (lib : Libraries)
  | daemon (e : SysEvent lib)
  | said (task : PayoutTask lib) (exchange : Exchange (PayoutSig lib))

/-- How the surroundings answer an operation: the signer is the one of the engine. -/
def PayoutEngine.Answers (engine : PayoutEngine lib) :
    (o : PayoutOp lib) → (PayoutSig lib).Answer o → Prop
  | .rpc _, _ | .built .., _ => True
  | .sign id sign_this, answer => engine.signer.Answers lib (.sign id sign_this) answer

/-- **A step of the daemon or of a payout.** -/
inductive PayoutStep (d : Deployment lib) (engine : PayoutEngine lib) :
    PayoutSys lib → PayoutEvent lib → PayoutSys lib → Prop
  | daemon {s : PayoutSys lib} {e : SysEvent lib} {sys' : Sys lib} (hs : SysStep d s.sys e sys')
      (he : ∀ request, e ≠ .outside (.payoutBegun request)) :
      PayoutStep d engine s (.daemon e) (s.follow d e sys')
  | began {s : PayoutSys lib} {sys' : Sys lib} {c : Commission lib} (n : ℕ)
      (hc : s.spawned[n]? = some c)
      (hs : SysStep d s.sys (.outside (.payoutBegun c.request)) sys') :
      PayoutStep d engine s (.daemon (.outside (.payoutBegun c.request)))
        ⟨sys', s.spawned.eraseIdx n, s.running ++ [c.begin engine]⟩
  | said {s : PayoutSys lib} {task : PayoutTask lib} {o : PayoutOp lib}
      {k : (PayoutSig lib).Answer o → Prog (PayoutSig lib) (Except Stop Unit)} (n : ℕ)
      (answer : (PayoutSig lib).Answer o) (ht : s.running[n]? = some task)
      (hp : task.program = .call o k) (ha : engine.Answers o answer) :
      PayoutStep d engine s (.said task ⟨o, answer⟩)
        { s with
          running := s.running.set n
            { task with said := task.said ++ [⟨o, answer⟩], program := k answer } }

abbrev PayoutRunIf (d : Deployment lib) (engine : PayoutEngine lib)
    (allow : List (PayoutEvent lib) → PayoutSys lib → PayoutEvent lib → Prop)
    (init : Sys lib → Prop) : List (PayoutEvent lib) → PayoutSys lib → Prop :=
  Reach (PayoutStep d engine) allow fun s => ∃ sys, init sys ∧ s = .start sys

/-! ## Runs -/

variable {engine : PayoutEngine lib}
  {allow : List (PayoutEvent lib) → PayoutSys lib → PayoutEvent lib → Prop}
  {init : Sys lib → Prop}

def PayoutEvent.daemon? : PayoutEvent lib → Option (SysEvent lib)
  | .daemon e => some e
  | .said .. => none

/-- The steps of the daemon. -/
def sysEvents (h : List (PayoutEvent lib)) : List (SysEvent lib) :=
  h.filterMap PayoutEvent.daemon?

theorem sysEvents_append (h h' : List (PayoutEvent lib)) :
    sysEvents (h ++ h') = sysEvents h ++ sysEvents h' := List.filterMap_append

theorem mem_sysEvents {h : List (PayoutEvent lib)} {e : SysEvent lib} :
    e ∈ sysEvents h ↔ .daemon e ∈ h := by
  rw [sysEvents, List.mem_filterMap]
  constructor
  · rintro ⟨e', he', heq⟩
    cases e' with
    | daemon => exact Option.some.inj heq ▸ he'
    | said => cases heq
  · exact fun he => ⟨_, he, rfl⟩

theorem PayoutSys.follow_sys (s : PayoutSys lib) (e : SysEvent lib) (sys' : Sys lib) :
    (s.follow d e sys').sys = sys' := by
  rw [follow.eq_def]
  split <;> rfl

/-- A payout that waits to begin was there before, or is spawned. -/
theorem PayoutSys.mem_follow_spawned {s : PayoutSys lib} {e : SysEvent lib} {sys' : Sys lib}
    {c : Commission lib} (h : c ∈ (s.follow d e sys').spawned) :
    c ∈ s.spawned ∨ commission d s.sys e = some c := by
  rw [follow.eq_def] at h
  split at h
  · cases h
  · exact (List.mem_append.mp h).imp id Option.mem_toList.mp

theorem PayoutSys.mem_follow_running {s : PayoutSys lib} {e : SysEvent lib} {sys' : Sys lib}
    {task : PayoutTask lib} (h : task ∈ (s.follow d e sys').running) : task ∈ s.running := by
  rw [follow.eq_def] at h
  split at h
  · cases h
  · exact h

theorem PayoutRun.sysRun {h : List (PayoutEvent lib)} {s : PayoutSys lib}
    (run : PayoutRunIf d engine allow init h s) :
    Reach (SysStep d) always init (sysEvents h) s.sys := by
  refine run.invariant (P := fun h s => Reach (SysStep d) always init (sysEvents h) s.sys) ?_ ?_
  · rintro s ⟨sys, hsys, rfl⟩
    exact .start hsys
  · rintro h s e s' - ih - hs
    rw [sysEvents_append]
    cases hs with
    | daemon hs =>
      rw [PayoutSys.follow_sys]
      exact ih.next trivial hs
    | began _ _ hs => exact ih.next trivial hs
    | said =>
      rw [show sysEvents [PayoutEvent.said _ _] = [] from rfl, List.append_nil]
      exact ih

/-- Payouts of which something is known since they were spawned. -/
structure PayoutSys.Engaged (engine : PayoutEngine lib) (P : Commission lib → Prop)
    (s : PayoutSys lib) : Prop where
  spawned : ∀ c ∈ s.spawned, P c
  running : ∀ task ∈ s.running, ∃ c, P c ∧ task.order = Invoice.fromRequest c.request ∧
    task.chain = c.chain
  paying : ∀ task ∈ s.running,
    Prog.Holds (Pays engine.con task.order task.chain) (fun _ _ => True) task.said task.program

theorem PayoutStep.engaged {P P' : Commission lib → Prop} {s s' : PayoutSys lib}
    {e : PayoutEvent lib} (hs : PayoutStep d engine s e s') (h : s.Engaged engine P)
    (hgrow : ∀ c, P c → P' c)
    (hnew : ∀ e' sys' c, e = .daemon e' → SysStep d s.sys e' sys' →
      commission d s.sys e' = some c → P' c) : s'.Engaged engine P' := by
  have hrunning : ∀ task ∈ s.running, ∃ c, P' c ∧ task.order = Invoice.fromRequest c.request ∧
      task.chain = c.chain := by
    intro task hmem
    obtain ⟨c, hc, horder, hchain⟩ := h.running task hmem
    exact ⟨c, hgrow c hc, horder, hchain⟩
  cases hs with
  | daemon hs =>
    refine ⟨fun c hc => ?_, fun task ht => ?_, fun task ht => ?_⟩
    · rcases PayoutSys.mem_follow_spawned hc with hc | hc
      · exact hgrow c (h.spawned c hc)
      · exact hnew _ _ c rfl hs hc
    · exact hrunning task (PayoutSys.mem_follow_running ht)
    · exact h.paying task (PayoutSys.mem_follow_running ht)
  | @began _ c n hc hs =>
    have hmem : c ∈ s.spawned := List.mem_of_getElem? hc
    refine ⟨fun c' hc' => hgrow c' (h.spawned c' (List.mem_of_mem_eraseIdx hc')), ?_, ?_⟩
    · intro task ht
      rcases List.mem_append.mp ht with ht | ht
      · exact hrunning task ht
      · obtain rfl := List.mem_singleton.mp ht
        exact ⟨c, hgrow c (h.spawned c hmem), rfl, rfl⟩
    · intro task ht
      rcases List.mem_append.mp ht with ht | ht
      · exact h.paying task ht
      · obtain rfl := List.mem_singleton.mp ht
        exact payout_pays c.rpc
  | @said task o k n answer ht hp =>
    have hmem : task ∈ s.running := List.mem_of_getElem? ht
    refine ⟨fun c hc => hgrow c (h.spawned c hc), ?_, ?_⟩
    · intro task' ht'
      rcases List.mem_or_eq_of_mem_set ht' with ht' | rfl
      · exact hrunning task' ht'
      · exact hrunning task hmem
    · intro task' ht'
      rcases List.mem_or_eq_of_mem_set ht' with ht' | rfl
      · exact h.paying task' ht'
      · have hpays := h.paying task hmem
        rw [hp] at hpays
        exact hpays.2 answer

/-- **What is true of every payout when it is spawned, and stays true, is true of those that
run**, which do what a payout does. -/
theorem PayoutRun.engaged {P : List (PayoutEvent lib) → Commission lib → Prop}
    {h : List (PayoutEvent lib)} {s : PayoutSys lib} (run : PayoutRunIf d engine allow init h s)
    (hgrow : ∀ h e c, P h c → P (h ++ [e]) c)
    (hnew : ∀ h s e sys' c, PayoutRunIf d engine allow init h s → SysStep d s.sys e sys' →
      commission d s.sys e = some c → P (h ++ [.daemon e]) c) : s.Engaged engine (P h) := by
  refine run.invariant (P := fun h s => s.Engaged engine (P h)) ?_ ?_
  · rintro s ⟨sys, -, rfl⟩
    exact ⟨nofun, nofun, nofun⟩
  · intro h s e s' run ih _ hs
    refine hs.engaged ih (fun c => hgrow h e c) ?_
    rintro e' sys' c rfl hs' hc
    exact hnew h s e' sys' c run hs' hc

/-- A payout is spawned for a request that a tracker takes. -/
theorem commission_eq_some {s : Sys lib} {e : SysEvent lib} {c : Commission lib}
    (h : commission d s e = some c) : ∃ index x, e = .tracker index x ∧
      x.event = .received (.reap c.request) ∧ (s.trackers index).pc = .serve c.chain := by
  cases e with
  | tracker index x =>
    simp only [commission] at h
    split at h
    · next request chain hevent hpc =>
      obtain ⟨rpc, -, rfl⟩ := Option.map_eq_some_iff.mp h
      exact ⟨index, x, rfl, hevent, hpc⟩
    · cases h
  | outside | daemon | restore | manager => cases h

/-! ## Replaying a run -/

inductive PayoutAction (lib : Libraries)
  | daemon (a : SysAction lib)
  | begin (n : ℕ)
  | answer (n : ℕ) (answers : ∀ call : PayoutCall lib, Except Stop call.Result)

/-- The answer of a truthful signer, and of a node. -/
def PayoutEngine.answer (engine : PayoutEngine lib)
    (answers : ∀ call : PayoutCall lib, Except Stop call.Result) :
    (o : PayoutOp lib) → (PayoutSig lib).Answer o
  | .rpc call => answers call
  | .built .. => ()
  | .sign id sign_this => engine.signer.serve lib (.sign id sign_this)

/-- The daemon with its payouts as a function of what happens next. -/
def PayoutSys.exec (d : Deployment lib) (engine : PayoutEngine lib) (s : PayoutSys lib) :
    PayoutAction lib → Option (PayoutEvent lib × PayoutSys lib)
  | .daemon a =>
    (s.sys.exec d a).bind fun (e, sys') =>
      match e with
      | .outside (.payoutBegun _) => none
      | e => some (.daemon e, s.follow d e sys')
  | .begin n =>
    s.spawned[n]?.bind fun c =>
      (s.sys.outside (.payoutBegun c.request)).map fun sys' =>
        (.daemon (.outside (.payoutBegun c.request)),
          ⟨sys', s.spawned.eraseIdx n, s.running ++ [c.begin engine]⟩)
  | .answer n answers =>
    s.running[n]?.bind fun task =>
      match task.program with
      | .call o k =>
        let answer := engine.answer answers o
        some (.said task ⟨o, answer⟩,
          { s with
            running := s.running.set n
              { task with said := task.said ++ [⟨o, answer⟩], program := k answer } })
      | .done _ => none

theorem PayoutSys.exec_sound (d : Deployment lib) (engine : PayoutEngine lib) (s : PayoutSys lib)
    (a : PayoutAction lib) (e : PayoutEvent lib) (s' : PayoutSys lib)
    (h : s.exec d engine a = some (e, s')) : PayoutStep d engine s e s' := by
  cases a with
  | daemon a =>
    obtain ⟨⟨e', sys'⟩, hexec, h⟩ := Option.bind_eq_some_iff.mp h
    simp only at h
    split at h
    · cases h
    · next hne =>
      obtain ⟨rfl, rfl⟩ := Prod.mk.inj (Option.some.inj h)
      exact .daemon (Sys.exec_sound d s.sys a e' sys' hexec) hne
  | begin n =>
    obtain ⟨c, hc, h⟩ := Option.bind_eq_some_iff.mp h
    obtain ⟨sys', hs, h⟩ := Option.map_eq_some_iff.mp h
    obtain ⟨rfl, rfl⟩ := Prod.mk.inj h
    exact .began n hc (.outside _ hs)
  | answer n answers =>
    obtain ⟨task, ht, h⟩ := Option.bind_eq_some_iff.mp h
    split at h
    · next o k hp =>
      obtain ⟨rfl, rfl⟩ := Prod.mk.inj (Option.some.inj h)
      refine .said n _ ht hp ?_
      cases o with
      | rpc | built => trivial
      | sign id sign_this => exact .inl rfl
    · cases h

end Kalatori
