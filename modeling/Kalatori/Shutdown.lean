import Kalatori.Lib.Transition

/-!
# The shutdown and its reason

Two cells are shared by everything that may end the daemon: a token, which is
cancelled when the shutdown starts, and the reason, from which `main` takes its
exit code.  A panic runs the hook, a fatal error of a task comes to
`wait_with_notification`, and a signal of the user to `listener`; each of them
reads and writes the cells in its own way.

The hook should remember that there was a panic, and ask for a report of the
first one.  It reads the reason with `blocking_read`, which panics itself on a
thread that drives the tasks of a runtime, and a panic in the hook aborts the
process: so ends every panic of a task.  On other threads the hook asks for a
report when the reason is already an error, and only then writes it, so a panic by
itself leaves no trace in the reason, and it keeps a later error of a task from
leaving one, since it cancels the token.  In a build whose panics abort the process,
as the release profile says, no reason is returned after any of them.

* `State.step?`: one event.
* `ShutdownRun.cells`: the cells remember nothing but the first event of the run.
* `ShutdownRun.crashed`: what a process that crashes leaves.
* `remembered_iff`: the runs after which that is enough.
-/

namespace Kalatori

namespace Shutdown

open Transition

inductive ShutdownReason
  | userRequested
  | unrecoverableError
  deriving DecidableEq

structure ShutdownNotification where
  /-- Whether the token is cancelled. -/
  token : Bool
  reason : ShutdownReason

namespace ShutdownNotification

def new : ShutdownNotification := ⟨false, .userRequested⟩

def isIgnited (n : ShutdownNotification) : Bool := n.token

def cancel (n : ShutdownNotification) : ShutdownNotification := { n with token := true }

def ignite (n : ShutdownNotification) : ShutdownNotification :=
  { n with reason := .unrecoverableError }.cancel

end ShutdownNotification

/-! ## Panics -/

/-- The payload of a panic. -/
inductive Payload
  | str (s : String)
  | string (s : String)
  | other

structure PanicInfo where
  location : Option String
  payload : Payload

structure PrettyPanic where
  panic_info : PanicInfo
  first : Bool

/-- The request to report a panic. -/
def reportRequest : String :=
  "\n\nThis is a bug. Please report it at https://github.com/Alzymologist/Kalatori-backend/issues."

def PrettyPanic.fmt (p : PrettyPanic) : String :=
  let f := "A panic detected"
  let f := match p.panic_info.location with
    | some location => f ++ " at " ++ location
    | none => f
  let message_option := match p.panic_info.payload with
    | .str string | .string string => some string
    | .other => none
  let f := match message_option with
    | some panic_message => f ++ ":\n    " ++ panic_message
    | none => f
  let f := f ++ "."
  if p.first then f ++ reportRequest else f

/-- The thread that panics: one that drives the tasks of the runtime, or another one, as those of
the database and those that the runtime keeps for blocking calls. -/
inductive Thread
  | runtime
  | plain
  deriving DecidableEq

/-- `RwLock::blocking_read`, which panics on a thread of the runtime. -/
def blockingRead (thread : Thread) (reason : ShutdownReason) : Option ShutdownReason :=
  match thread with
  | .runtime => none
  | .plain => some reason

/-- The hook of `set_panic_hook`: what it prints, and the cells it leaves.  If it panics itself
the process is aborted. -/
def panicHook (n : ShutdownNotification) (thread : Thread) (panic_info : PanicInfo) :
    Option (String × ShutdownNotification) := do
  let reason ← blockingRead thread n.reason
  let (first, n) := match reason with
    | .userRequested => (false, n)
    | .unrecoverableError => (true, { n with reason := .unrecoverableError })
  return (PrettyPanic.fmt ⟨panic_info, first⟩, n.cancel)

/-! ## The daemon -/

/-- What becomes of a panic after its hook: the setting `panic` of the profile of a build. -/
inductive PanicStrategy
  | unwind
  | abort
  deriving DecidableEq

/-- Where `listener` stands: before the first signal, or before the second. -/
inductive Listener
  | first
  | second
  deriving DecidableEq

/-- The process runs, or was aborted: by the second signal, or by a panic. -/
inductive Process
  | running
  | killed
  | crashed
  deriving DecidableEq

structure State where
  shutdown_notification : ShutdownNotification
  /-- The variable of `wait_with_notification`. -/
  failed : Bool
  listener : Listener
  process : Process
  /-- What the hook has printed. -/
  printed : List String

def State.start : State := ⟨.new, false, .first, .running, []⟩

/-- What happens to a daemon that runs. -/
inductive Event
  | panic (thread : Thread) (panic_info : PanicInfo)
  /-- `wait_with_notification` receives a fatal error. -/
  | taskError
  | ctrlC
  /-- `listener` finds the token cancelled. -/
  | notified

/-- The body of the loop of `wait_with_notification`. -/
def receive (s : State) : State :=
  if s.failed || !s.shutdown_notification.isIgnited then
    { s with failed := true, shutdown_notification := s.shutdown_notification.ignite }
  else s

/-- The hook runs, and the thread is unwound or the process is aborted. -/
def panicked (strategy : PanicStrategy) (s : State) (thread : Thread) (panic_info : PanicInfo) :
    State :=
  match panicHook s.shutdown_notification thread panic_info with
  | none => { s with process := .crashed }
  | some (message, n) =>
    { s with
      shutdown_notification := n
      printed := s.printed ++ [message]
      process := if strategy = .abort then .crashed else s.process }

/-- `listener` receives a signal. -/
def signalled (s : State) : State :=
  match s.listener with
  | .first =>
    { s with shutdown_notification := s.shutdown_notification.cancel, listener := .second }
  | .second => { s with process := .killed }

/-- One event.  Nothing happens in a process that was aborted. -/
def State.step? (strategy : PanicStrategy) (s : State) (e : Event) : Option State :=
  if s.process ≠ .running then none
  else match e with
    | .panic thread panic_info => some (panicked strategy s thread panic_info)
    | .taskError => some (receive s)
    | .ctrlC => some (signalled s)
    | .notified =>
      if s.listener = .first ∧ s.shutdown_notification.token = true then
        some { s with listener := .second }
      else none

/-- A run of the daemon. -/
abbrev ShutdownRun (strategy : PanicStrategy) : List Event → State → Prop :=
  Reach (fun s e s' => s.step? strategy e = some s') always (· = .start)

inductive ExitCode
  | success
  | failure
  deriving DecidableEq

/-- What `main` makes of the reason that `wait_with_notification` returns. -/
def exitCode : ShutdownReason → ExitCode
  | .userRequested => .success
  | .unrecoverableError => .failure

/-- The reason that is returned when the daemon ends like this.  A process that was aborted
returns none. -/
def State.returned (s : State) : Option ShutdownReason :=
  if s.process = .running then some s.shutdown_notification.reason else none

/-! ## What should be remembered -/

/-- The panics of a run. -/
def panics (h : List Event) : List (Thread × PanicInfo) :=
  h.filterMap fun
    | .panic thread panic_info => some (thread, panic_info)
    | _ => none

/-- The error of a task was received before the user had started the shutdown. -/
def ErrorBeforeUser (h : List Event) : Prop :=
  ∃ h₁ h₂, h = h₁ ++ .taskError :: h₂ ∧ .ctrlC ∉ h₁

/-- **Failures are remembered until the exit.** -/
structure Remembered (h : List Event) (s : State) : Prop where
  /-- The reason that is returned is that there was a panic, or an error in time, unless the user
  has killed the process. -/
  reason : s.process ≠ .killed → (s.returned = some .unrecoverableError ↔
    panics h ≠ [] ∨ ErrorBeforeUser h)
  /-- Every panic is printed, and the first one with the request to report it. -/
  reported : s.printed =
    (panics h).mapIdx fun k panic => PrettyPanic.fmt ⟨panic.2, k == 0⟩

/-! ## What is remembered -/

variable {strategy : PanicStrategy}

/-- The first event of a run was the error of a task. -/
def startsWithError : List Event → Bool
  | .taskError :: _ => true
  | _ => false

theorem panics_append (h h' : List Event) : panics (h ++ h') = panics h ++ panics h' :=
  List.filterMap_append

theorem startsWithError_append {h : List Event} (hne : h ≠ []) (h' : List Event) :
    startsWithError (h ++ h') = startsWithError h := by
  obtain ⟨e, t, rfl⟩ := List.exists_cons_of_ne_nil hne
  cases e <;> rfl

/-- What is printed of panics, in a run that begins like this. -/
def messages (h : List Event) : List String :=
  (panics h).map fun panic => PrettyPanic.fmt ⟨panic.2, startsWithError h⟩

/-- The cells as a run leaves them that did not crash. -/
structure Cells (strategy : PanicStrategy) (h : List Event) (s : State) : Prop where
  token : s.shutdown_notification.token = true ↔ h ≠ []
  failed : s.failed = startsWithError h
  reason : s.shutdown_notification.reason = .unrecoverableError ↔ startsWithError h = true
  listener : s.listener = .second → h ≠ []
  plain : ∀ panic ∈ panics h, panic.1 = .plain ∧ strategy = .unwind
  printed : s.printed = messages h

/-- A run that crashed: its last event was a panic that is not unwound. -/
structure Crashed (strategy : PanicStrategy) (h : List Event) (s : State) : Prop where
  last : ∃ g thread panic_info, h = g ++ [.panic thread panic_info] ∧
    (thread = .runtime ∨ strategy = .abort)
  process : s.process = .crashed

theorem panicHook_plain (n : ShutdownNotification) (panic_info : PanicInfo) :
    panicHook n .plain panic_info =
      some (PrettyPanic.fmt ⟨panic_info, n.reason = .unrecoverableError⟩, n.cancel) := by
  obtain ⟨token, reason⟩ := n
  cases reason <;> rfl

theorem panicked_plain (s : State) (panic_info : PanicInfo) : panicked .unwind s .plain panic_info =
    { s with
      shutdown_notification := s.shutdown_notification.cancel
      printed := s.printed ++
        [PrettyPanic.fmt ⟨panic_info, s.shutdown_notification.reason = .unrecoverableError⟩] } := by
  rw [panicked, panicHook_plain]
  rfl

/-- Where the process outlives a panic. -/
theorem unwound_of_panicked {s : State} {thread : Thread} {panic_info : PanicInfo}
    (h : (panicked strategy s thread panic_info).process ≠ .crashed) :
    thread = .plain ∧ strategy = .unwind := by
  cases thread with
  | runtime => exact absurd rfl h
  | plain =>
    rw [panicked, panicHook_plain] at h
    cases strategy with
    | unwind => exact ⟨rfl, rfl⟩
    | abort => exact absurd rfl h

theorem receive_of_ignites {s : State}
    (h : s.failed = true ∨ s.shutdown_notification.token = false) : receive s =
      { s with failed := true, shutdown_notification := s.shutdown_notification.ignite } := by
  rw [receive, if_pos]
  rcases h with h | h
  · rw [h, Bool.true_or]
  · rw [ShutdownNotification.isIgnited, h, Bool.not_false, Bool.or_true]

theorem receive_of_ignited {s : State} (hf : s.failed = false)
    (ht : s.shutdown_notification.token = true) : receive s = s := by
  rw [receive, if_neg]
  simp [ShutdownNotification.isIgnited, hf, ht]

theorem cells_start : Cells strategy [] .start where
  token := by simp [State.start, ShutdownNotification.new]
  failed := rfl
  reason := by simp [State.start, ShutdownNotification.new, startsWithError]
  listener := nofun
  plain := nofun
  printed := rfl

/-- What an event does to a process that runs. -/
theorem State.step?_cases {s s' : State} {e : Event} (h : s.step? strategy e = some s') :
    s.process = .running ∧
      ((∃ thread panic_info, e = .panic thread panic_info ∧
          s' = panicked strategy s thread panic_info) ∨
        (e = .taskError ∧ s' = receive s) ∨ (e = .ctrlC ∧ s' = signalled s) ∨
        (e = .notified ∧ s.shutdown_notification.token = true ∧
          s' = { s with listener := .second })) := by
  rw [State.step?.eq_def] at h
  by_cases hrunning : s.process = .running
  swap
  · rw [if_pos hrunning] at h
    cases h
  rw [if_neg (not_not.mpr hrunning)] at h
  refine ⟨hrunning, ?_⟩
  cases e with
  | panic thread panic_info => exact .inl ⟨thread, panic_info, rfl, (Option.some.inj h).symm⟩
  | taskError => exact .inr (.inl ⟨rfl, (Option.some.inj h).symm⟩)
  | ctrlC => exact .inr (.inr (.inl ⟨rfl, (Option.some.inj h).symm⟩))
  | notified =>
    simp only at h
    split_ifs at h with hnotified
    exact .inr (.inr (.inr ⟨rfl, hnotified.2, (Option.some.inj h).symm⟩))

/-- An event that is no panic, and leaves the reason as it is. -/
theorem Cells.quiet {h : List Event} {s s' : State} {e : Event} (hc : Cells strategy h s)
    (hne : h ≠ []) (he : panics [e] = []) (htoken : s'.shutdown_notification.token = true)
    (hfailed : s'.failed = s.failed)
    (hreason : s'.shutdown_notification.reason = s.shutdown_notification.reason)
    (hprinted : s'.printed = s.printed) : Cells strategy (h ++ [e]) s' := by
  have hne' : h ++ [e] ≠ [] := List.append_ne_nil_of_left_ne_nil hne _
  have hstarts := startsWithError_append hne [e]
  have hpanics : panics (h ++ [e]) = panics h := by
    rw [panics_append, he, List.append_nil]
  refine ⟨iff_of_true htoken hne', ?_, ?_, fun _ => hne', hpanics ▸ hc.plain, ?_⟩
  · rw [hfailed, hstarts, hc.failed]
  · rw [hreason, hstarts, hc.reason]
  · rw [hprinted, messages, hpanics, hstarts, hc.printed, messages]

/-- The first event decides on the reason. -/
theorem Cells.first {s s' : State} {e : Event} (hc : Cells strategy [] s)
    (hs : s.step? strategy e = some s')
    (hcrash : s'.process ≠ .crashed) : Cells strategy [e] s' := by
  have htoken : s.shutdown_notification.token = false :=
    Bool.eq_false_iff.mpr fun h => hc.token.mp h rfl
  have hlistener : s.listener = .first := by
    cases h : s.listener with
    | first => rfl
    | second => exact absurd rfl (hc.listener h)
  have hreason : s.shutdown_notification.reason ≠ .unrecoverableError := fun h => by
    cases hc.reason.mp h
  have hfailed : s.failed = false := hc.failed
  have hprinted : s.printed = [] := hc.printed
  obtain ⟨hrunning, ⟨thread, panic_info, rfl, rfl⟩ | ⟨rfl, rfl⟩ | ⟨rfl, rfl⟩ | ⟨-, hnotified, -⟩⟩ :=
    State.step?_cases hs
  · obtain ⟨rfl, rfl⟩ := unwound_of_panicked hcrash
    rw [panicked_plain]
    refine ⟨iff_of_true rfl (List.cons_ne_nil _ _), hfailed, iff_of_false hreason nofun,
      fun _ => List.cons_ne_nil _ _, ?_, ?_⟩
    · exact fun panic hmem => List.mem_singleton.mp hmem ▸ ⟨rfl, rfl⟩
    · simp only [hprinted, decide_eq_false hreason]
      rfl
  · rw [receive_of_ignites (.inr htoken)]
    exact ⟨iff_of_true rfl (List.cons_ne_nil _ _), rfl, iff_of_true rfl rfl,
      fun _ => List.cons_ne_nil _ _, nofun, hprinted⟩
  · rw [signalled, hlistener]
    exact ⟨iff_of_true rfl (List.cons_ne_nil _ _), hfailed, iff_of_false hreason nofun,
      fun _ => List.cons_ne_nil _ _, nofun, hprinted⟩
  · cases htoken.symm.trans hnotified

/-- No later event changes it. -/
theorem Cells.later {h : List Event} {s s' : State} {e : Event} (hc : Cells strategy h s)
    (hne : h ≠ []) (hs : s.step? strategy e = some s') (hcrash : s'.process ≠ .crashed) :
    Cells strategy (h ++ [e]) s' := by
  have hne' : h ++ [e] ≠ [] := List.append_ne_nil_of_left_ne_nil hne _
  have hstarts := startsWithError_append hne [e]
  have htoken : s.shutdown_notification.token = true := hc.token.mpr hne
  obtain ⟨hrunning, ⟨thread, panic_info, rfl, rfl⟩ | ⟨rfl, rfl⟩ | ⟨rfl, rfl⟩ | ⟨rfl, -, rfl⟩⟩ :=
    State.step?_cases hs
  · have hreason : decide (s.shutdown_notification.reason = .unrecoverableError) =
        startsWithError h := by
      rw [Bool.eq_iff_iff, decide_eq_true_eq]
      exact hc.reason
    obtain ⟨rfl, rfl⟩ := unwound_of_panicked hcrash
    rw [panicked_plain]
    refine ⟨iff_of_true rfl hne', hstarts ▸ hc.failed, hstarts ▸ hc.reason, fun _ => hne', ?_, ?_⟩
    · intro panic hmem
      rw [panics_append] at hmem
      rcases List.mem_append.mp hmem with hmem | hmem
      · exact hc.plain panic hmem
      · exact List.mem_singleton.mp hmem ▸ ⟨rfl, rfl⟩
    · simp only [messages, panics_append, hstarts, hc.printed, hreason, List.map_append]
      rfl
  · cases hf : s.failed with
    | true =>
      have hreason := hc.reason.mpr (hc.failed.symm.trans hf)
      rw [receive_of_ignites (.inl hf)]
      exact hc.quiet hne rfl rfl hf.symm hreason.symm rfl
    | false =>
      rw [receive_of_ignited hf htoken]
      exact hc.quiet hne rfl htoken rfl rfl rfl
  · rw [signalled]
    cases s.listener with
    | first => exact hc.quiet hne rfl rfl rfl rfl rfl
    | second => exact hc.quiet hne rfl htoken rfl rfl rfl
  · exact hc.quiet hne rfl htoken rfl rfl rfl

/-- A process crashes by a panic that is not unwound. -/
theorem Cells.crashes {h : List Event} {s s' : State} {e : Event} (hc : Cells strategy h s)
    (hs : s.step? strategy e = some s') (hcrash : s'.process = .crashed) :
    Crashed strategy (h ++ [e]) s' := by
  refine ⟨?_, hcrash⟩
  obtain ⟨hrunning, ⟨thread, panic_info, rfl, rfl⟩ | ⟨rfl, rfl⟩ | ⟨rfl, rfl⟩ | ⟨rfl, -, rfl⟩⟩ :=
    State.step?_cases hs
  · refine ⟨h, thread, panic_info, rfl, ?_⟩
    cases thread with
    | runtime => exact .inl rfl
    | plain =>
      cases strategy with
      | abort => exact .inr rfl
      | unwind =>
        rw [panicked_plain] at hcrash
        cases hrunning.symm.trans hcrash
  · rw [receive] at hcrash
    split_ifs at hcrash <;> cases hrunning.symm.trans hcrash
  · rw [signalled] at hcrash
    cases hlistener : s.listener with
    | first =>
      rw [hlistener] at hcrash
      cases hrunning.symm.trans hcrash
    | second =>
      rw [hlistener] at hcrash
      cases hcrash
  · cases hrunning.symm.trans hcrash

/-- **The cells remember the first event of a run**, and nothing else, until the process
crashes. -/
theorem ShutdownRun.cells {h : List Event} {s : State} (run : ShutdownRun strategy h s) :
    s.process ≠ .crashed ∧ Cells strategy h s ∨ Crashed strategy h s := by
  refine run.invariant
    (P := fun h s => s.process ≠ .crashed ∧ Cells strategy h s ∨ Crashed strategy h s) ?_ ?_
  · rintro s rfl
    exact .inl ⟨nofun, cells_start⟩
  · rintro h s e s' - (⟨-, hc⟩ | hcrashed) - hs
    · by_cases hcrash : s'.process = .crashed
      · exact .inr (hc.crashes hs hcrash)
      · refine .inl ⟨hcrash, ?_⟩
        by_cases hne : h = []
        · subst hne
          exact hc.first hs hcrash
        · exact hc.later hne hs hcrash
    · have hrunning := (State.step?_cases hs).1
      cases hrunning.symm.trans hcrashed.process

/-- The listener is not notified before something has cancelled the token. -/
theorem not_notified_first {h : List Event} {s : State} (run : ShutdownRun strategy h s)
    (t : List Event) : h ≠ .notified :: t := by
  induction run generalizing t with
  | start => exact (List.cons_ne_nil _ _).symm
  | @next h s s' e run _ hs ih =>
    intro heq
    rcases List.append_eq_cons_iff.mp heq with ⟨rfl, he⟩ | ⟨t', rfl, -⟩
    · obtain rfl : e = .notified := (List.cons.inj he).1
      rcases ShutdownRun.cells run with ⟨-, hc⟩ | hcrashed
      · obtain ⟨-, ⟨_, _, he, -⟩ | ⟨he, -⟩ | ⟨he, -⟩ | ⟨-, htoken, -⟩⟩ := State.step?_cases hs
        · cases he
        · cases he
        · cases he
        · exact hc.token.mp htoken rfl
      · cases (State.step?_cases hs).1.symm.trans hcrashed.process
    · exact ih t' rfl

/-- Without a panic, an error was in time exactly if it came first. -/
theorem errorBeforeUser_iff {h : List Event} {s : State} (run : ShutdownRun strategy h s)
    (hp : panics h = []) : ErrorBeforeUser h ↔ startsWithError h = true := by
  constructor
  · rintro ⟨h₁, h₂, rfl, hsignal⟩
    match h₁ with
    | [] => rfl
    | .taskError :: t => rfl
    | .ctrlC :: t => exact absurd (List.mem_cons_self ..) hsignal
    | .notified :: t => exact absurd rfl (not_notified_first run _)
    | .panic .. :: t => cases hp
  · intro hstarts
    match h, hstarts with
    | .taskError :: t, _ => exact ⟨[], t, rfl, List.not_mem_nil⟩

theorem PrettyPanic.fmt_first (panic_info : PanicInfo) :
    PrettyPanic.fmt ⟨panic_info, true⟩ = PrettyPanic.fmt ⟨panic_info, false⟩ ++ reportRequest := rfl

/-- A panic is printed with the request in one way only. -/
theorem PrettyPanic.fmt_injective {panic_info : PanicInfo} {first first' : Bool}
    (h : PrettyPanic.fmt ⟨panic_info, first⟩ = PrettyPanic.fmt ⟨panic_info, first'⟩) :
    first = first' := by
  have hne : PrettyPanic.fmt ⟨panic_info, true⟩ ≠ PrettyPanic.fmt ⟨panic_info, false⟩ := by
    intro heq
    have hlength := congrArg String.length heq
    have hrequest : 0 < reportRequest.length := by decide
    rw [PrettyPanic.fmt_first, String.length_append] at hlength
    omega
  match first, first' with
  | true, true | false, false => rfl
  | true, false => exact absurd h hne
  | false, true => exact absurd h.symm hne

/-- A run that crashed has had a panic. -/
theorem Crashed.panics_ne_nil {h : List Event} {s : State} (hc : Crashed strategy h s) :
    panics h ≠ [] := by
  obtain ⟨g, thread, panic_info, rfl, -⟩ := hc.last
  rw [panics_append]
  exact List.append_ne_nil_of_right_ne_nil _ (List.cons_ne_nil _ _)

/-- A crash is not remembered: no reason is returned. -/
theorem Crashed.not_remembered {h : List Event} {s : State} (hc : Crashed strategy h s) :
    ¬Remembered h s := by
  intro hr
  have hprocess : s.process ≠ .killed := by
    rw [hc.process]
    nofun
  have hreturned := (hr.reason hprocess).mpr (.inl hc.panics_ne_nil)
  rw [State.returned, if_neg (by rw [hc.process]; nofun)] at hreturned
  cases hreturned

/-- What is printed is what should be, if there was no panic, or one after an error. -/
theorem messages_eq_iff {h : List Event} :
    messages h = ((panics h).mapIdx fun k panic => PrettyPanic.fmt ⟨panic.2, k == 0⟩) ↔
      panics h = [] ∨ (∃ panic, panics h = [panic]) ∧ startsWithError h = true := by
  rw [messages]
  constructor
  · intro heq
    match hp : panics h with
    | [] => exact .inl rfl
    | [panic] =>
      rw [hp] at heq
      exact .inr ⟨⟨panic, rfl⟩, PrettyPanic.fmt_injective (List.cons.inj heq).1⟩
    | panic :: panic' :: rest =>
      -- The first two panics are printed alike.
      rw [hp, List.mapIdx_cons, List.mapIdx_cons] at heq
      obtain ⟨hfirst, hrest⟩ := List.cons.inj heq
      have hsecond := (List.cons.inj hrest).1
      have hstarts := (PrettyPanic.fmt_injective hfirst).symm.trans
        (PrettyPanic.fmt_injective hsecond)
      cases hstarts
  · rintro (hp | ⟨⟨panic, hp⟩, hstarts⟩)
    · rw [hp]
      rfl
    · rw [hp, hstarts]
      rfl

/-- **When failures are remembered until the exit**: there was no panic, or only one, which was
unwound, on no thread of the runtime, and the first event was the error of a task. -/
theorem remembered_iff {h : List Event} {s : State} (run : ShutdownRun strategy h s) :
    Remembered h s ↔ panics h = [] ∨ strategy = .unwind ∧
      (∃ panic_info, panics h = [(.plain, panic_info)]) ∧ startsWithError h = true := by
  rcases ShutdownRun.cells run with ⟨hcrash, hcells⟩ | hcrashed
  · have hplain : (∃ panic, panics h = [panic]) ↔
        strategy = .unwind ∧ ∃ panic_info, panics h = [(.plain, panic_info)] := by
      constructor
      · rintro ⟨⟨thread, panic_info⟩, hp⟩
        obtain ⟨rfl, hunwind⟩ :=
          hcells.plain (thread, panic_info) (hp ▸ List.mem_singleton_self _)
        exact ⟨hunwind, panic_info, hp⟩
      · rintro ⟨-, panic_info, hp⟩
        exact ⟨_, hp⟩
    rw [← and_assoc, ← hplain, ← messages_eq_iff, ← hcells.printed]
    refine ⟨Remembered.reported, fun hreported => ⟨fun hkilled => ?_, hreported⟩⟩
    have hrunning : s.process = .running := by
      cases hprocess : s.process with
      | running => rfl
      | killed => exact absurd hprocess hkilled
      | crashed => exact absurd hprocess hcrash
    rw [State.returned, if_pos hrunning, Option.some.injEq, hcells.reason]
    rw [hcells.printed, messages_eq_iff] at hreported
    rcases hreported with hp | ⟨⟨panic, hp⟩, hstarts⟩
    · rw [← errorBeforeUser_iff run hp, hp]
      simp
    · exact iff_of_true hstarts (.inl (hp ▸ List.cons_ne_nil _ _))
  · refine iff_of_false hcrashed.not_remembered ?_
    rintro (hp | ⟨hunwind, ⟨panic_info, hp⟩, -⟩)
    · exact hcrashed.panics_ne_nil hp
    · obtain ⟨g, thread, panic_info', rfl, rfl | habort⟩ := hcrashed.last
      · -- The panic that ended the process was the only one.
        have hmem : (Thread.runtime, panic_info') ∈
            panics (g ++ [.panic .runtime panic_info']) := by
          rw [panics_append]
          exact List.mem_append_right _ (List.mem_singleton_self _)
        rw [hp] at hmem
        cases List.mem_singleton.mp hmem
      · cases hunwind.symm.trans habort

/-- A panic with a message. -/
def somePanic : PanicInfo := ⟨some "src/state.rs:1:1", .str "a panic"⟩

/-- A panic of a plain thread after an error is remembered, if it is unwound. -/
theorem remembered_iff_errorThenPanic : ∃ h s, ShutdownRun .unwind h s ∧
    h = [.taskError, .panic .plain somePanic] ∧ Remembered h s := by
  have run₀ : ShutdownRun .unwind [] .start := .start rfl
  have run : ShutdownRun .unwind ([] ++ [.taskError] ++ [.panic .plain somePanic]) _ :=
    (run₀.next trivial rfl).next trivial rfl
  exact ⟨_, _, run, rfl, (remembered_iff run).mpr (.inr ⟨rfl, ⟨_, rfl⟩, rfl⟩)⟩

/-- **A panic is forgotten.**  That of a task aborts the process, which returns no reason and
prints nothing, and after that of another thread the daemon exits with success, if it is unwound. -/
theorem panic_not_remembered :
    (∀ strategy, ∃ h s, ShutdownRun strategy h s ∧ h = [.panic .runtime somePanic] ∧
      s.process = .crashed ∧ s.returned = none ∧ s.printed = [] ∧ ¬Remembered h s) ∧
    ∃ h s, ShutdownRun .unwind h s ∧ h = [.panic .plain somePanic] ∧
      s.returned.map exitCode = some .success ∧ ¬Remembered h s := by
  constructor
  · intro strategy
    have run₀ : ShutdownRun strategy [] .start := .start rfl
    have run : ShutdownRun strategy ([] ++ [.panic .runtime somePanic]) _ := run₀.next trivial rfl
    refine ⟨_, _, run, rfl, rfl, rfl, rfl, fun hr => ?_⟩
    have hreason := (hr.reason nofun).mpr (.inl (List.cons_ne_nil _ _))
    cases hreason
  · have run₀ : ShutdownRun .unwind [] .start := .start rfl
    have run : ShutdownRun .unwind ([] ++ [.panic .plain somePanic]) _ := run₀.next trivial rfl
    refine ⟨_, _, run, rfl, rfl, fun hr => ?_⟩
    have hreason := (hr.reason nofun).mpr (.inl (List.cons_ne_nil _ _))
    cases hreason

end Shutdown

end Kalatori
