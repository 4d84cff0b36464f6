import Kalatori.Database.LifeCycle
import Kalatori.State.Programs

/-!
# How the state handler ends

A run of the handler is the list of its events, the exchanges of its programs
among them.  `Handler.Sound` ties the program that the handler is in to the part
of the run that belongs to it.

Every answer to a requester is sent with `map_err(|_| Error::Fatal)?`, so a
requester that is gone when its answer is ready takes the handler down with it.
`ended_by_shutDown_iff` says that nothing else does: once the loop has started,
and as long as the queue is open, the handler has ended by its shutdown branch
exactly if no answer was in vain.
-/

namespace Kalatori

open Program Transition

variable {lib : Libraries} {recipient : AccountId32} {server_info : ServerInfo}

/-- A run of the handler, whatever the rest of the daemon does. -/
abbrev HandlerRun (lib : Libraries) (recipient : AccountId32) (server_info : ServerInfo) :
    List HandlerEvent → Handler → Prop :=
  Reach (HandlerStep lib) always (· = Handler.start recipient server_info)

/-- An answer found nobody. -/
def InVain (h : List HandlerEvent) : Prop :=
  ∃ answer : HandlerReply, .said ⟨.reply answer, false⟩ ∈ h

/-- The events of a conversation. -/
abbrev events (said : Trace HandlerSig) : List HandlerEvent := said.map .said

/-- The loop of the handler has started. -/
def LoopStarted (h : List HandlerEvent) : Prop :=
  ∃ order_list h', h = events (startUpSaid order_list) ++ .settled :: h'

/-- The last thing that happened was the shutdown branch, from the notification on: the chain
manager was told to shut down, then the database, then the signer. -/
def ShutDownLast (h : List HandlerEvent) : Prop :=
  ∃ h₀, h = h₀ ++ .notified :: (events shutDownSaid ++ [.settled])

theorem inVain_append {h h' : List HandlerEvent} : InVain (h ++ h') ↔ InVain h ∨ InVain h' := by
  simp only [InVain, List.mem_append, exists_or]

theorem inVain_events {said : Trace HandlerSig} : InVain (events said) ↔ Abandoned said := by
  refine exists_congr fun answer => ⟨fun h => ?_, fun h => List.mem_map_of_mem h⟩
  obtain ⟨exchange, hmem, he⟩ := List.mem_map.mp h
  injection he with he
  exact he ▸ hmem

theorem inVain_cons {e : HandlerEvent} {h : List HandlerEvent}
    (he : ∀ exchange, e ≠ .said exchange) : InVain (e :: h) ↔ InVain h :=
  exists_congr fun _ => by
    rw [List.mem_cons, or_iff_right fun heq => he _ heq.symm]

theorem not_inVain_snoc {h : List HandlerEvent} (hv : ¬InVain h) {e : HandlerEvent}
    (he : ∀ exchange, e ≠ .said exchange) : ¬InVain (h ++ [e]) := by
  rw [inVain_append, inVain_cons he, not_or]
  exact ⟨hv, fun ⟨_, h⟩ => absurd h List.not_mem_nil⟩

/-- A branch of the loop adds what was said in it. -/
theorem inVain_branch {h₀ : List HandlerEvent} {e : HandlerEvent}
    (he : ∀ exchange, e ≠ .said exchange) {said : Trace HandlerSig} :
    InVain (h₀ ++ e :: events said) ↔ InVain h₀ ∨ Abandoned said := by
  rw [inVain_append, inVain_cons he, inVain_events]

/-- **Where the handler is, and what led there.** -/
inductive Handler.Sound (lib : Libraries) : List HandlerEvent → Handler → Prop
  | starting {s : Handler} {said : Trace HandlerSig}
      {program : Prog HandlerSig (Except Error HandlerNext)}
      (hpc : s.pc = .busy .starting said program)
      (hp : Prog.Holds Starts (Started s.state) said program) : Sound lib (events said) s
  | handling {s : Handler} {h₀ : List HandlerEvent} {request : StateAccessRequest}
      {said : Trace HandlerSig} {program : Prog HandlerSig (Except Error HandlerNext)}
      (hpc : s.pc = .busy .handling said program) (hv : ¬InVain h₀)
      (hp : Prog.Holds (Handles lib s.state request) Handled said program) :
      Sound lib (h₀ ++ .received request :: events said) s
  | winding {s : Handler} {h₀ : List HandlerEvent} {said : Trace HandlerSig}
      {program : Prog HandlerSig (Except Error HandlerNext)}
      (hpc : s.pc = .busy .winding said program) (hv : ¬InVain h₀)
      (hp : Prog.Holds Winds Wound said program) :
      Sound lib (h₀ ++ .notified :: events said) s
  | listening {s : Handler} {h : List HandlerEvent} (hpc : s.pc = .listening) (hv : ¬InVain h) :
      Sound lib h s
  | stopped {s : Handler} {h : List HandlerEvent} (hpc : s.pc = .ended (.ok ())) (hv : ¬InVain h)
      (hclosed : .closed ∈ h) : Sound lib h s
  | shutDown {s : Handler} {h : List HandlerEvent} (hpc : s.pc = .ended (.ok ()))
      (hv : ¬InVain h) (hs : ShutDownLast h) : Sound lib h s
  | failed {s : Handler} {h : List HandlerEvent} (hpc : s.pc = .ended (.error .fatal))
      (hv : InVain h) : Sound lib h s
  | notStarted {s : Handler} {h : List HandlerEvent} {e : Error} {said : Trace HandlerSig}
      (hpc : s.pc = .ended (.error e)) (hh : h = events said ++ [.settled])
      (hp : Started s.state said (.error e)) : Sound lib h s

theorem events_snoc (said : Trace HandlerSig) (exchange : Exchange HandlerSig) :
    events said ++ [.said exchange] = events (said ++ [exchange]) := by
  rw [events, events, List.map_append]
  rfl

theorem not_inVain_silent {said : Trace HandlerSig} (h : silent said = true) :
    ¬InVain (events said) :=
  inVain_events.not.mpr (not_abandoned_of_silent h)

theorem silent_shutDownSaid : silent shutDownSaid = true := rfl

theorem silent_startUpSaid (order_list : List (String × OrderInfo)) :
    silent (startUpSaid order_list) = true := rfl

theorem Handler.sound_start : (Handler.start recipient server_info).Sound lib [] :=
  @Sound.starting lib _ [] _ rfl (startUp_spec _)

theorem HandlerStep.sound {h : List HandlerEvent} {s s' : Handler} {e : HandlerEvent}
    (hs : HandlerStep lib s e s') (hsound : s.Sound lib h) : s'.Sound lib (h ++ [e]) := by
  cases hsound with
  | @starting _ said _ hpc hp =>
    cases hs with
    | said answer hpc' =>
      obtain ⟨rfl, rfl, rfl⟩ := HandlerPc.busy.inj (hpc.symm.trans hpc')
      rw [events_snoc]
      exact .starting rfl (hp.2 answer)
    | @settled _ _ result hpc' =>
      obtain ⟨rfl, rfl, rfl⟩ := HandlerPc.busy.inj (hpc.symm.trans hpc')
      replace hp : Started s.state said result := hp
      match result with
      | .ok (.listen state) =>
        obtain ⟨-, order_list, rfl⟩ := hp
        exact .listening rfl
          (not_inVain_snoc (not_inVain_silent (silent_startUpSaid order_list)) fun _ => nofun)
      | .ok .finish => exact hp.elim
      | .error e => exact .notStarted rfl rfl hp
    | received _ hpc' | closed hpc' | notified hpc' => cases hpc.symm.trans hpc'
  | @handling _ h₀ request said program hpc hv hp =>
    cases hs with
    | said answer hpc' =>
      obtain ⟨rfl, rfl, rfl⟩ := HandlerPc.busy.inj (hpc.symm.trans hpc')
      rw [List.append_assoc, List.cons_append, events_snoc]
      exact .handling rfl hv (hp.2 answer)
    | @settled _ _ result hpc' =>
      obtain ⟨rfl, rfl, rfl⟩ := HandlerPc.busy.inj (hpc.symm.trans hpc')
      have hend : Concluded said result := hp.concluded
      match result with
      | .ok (.listen state) =>
        refine .listening rfl (not_inVain_snoc ?_ fun _ => nofun)
        exact (inVain_branch (e := .received request) fun _ => nofun).not.mpr
          (not_or.mpr ⟨hv, hend⟩)
      | .ok .finish => exact hend.elim
      | .error e =>
        obtain ⟨rfl, habandoned⟩ := hend
        refine .failed rfl (inVain_append.mpr (.inl ?_))
        exact (inVain_branch (e := .received request) fun _ => nofun).mpr (.inr habandoned)
    | received _ hpc' | closed hpc' | notified hpc' => cases hpc.symm.trans hpc'
  | @winding _ h₀ said program hpc hv hp =>
    cases hs with
    | said answer hpc' =>
      obtain ⟨rfl, rfl, rfl⟩ := HandlerPc.busy.inj (hpc.symm.trans hpc')
      rw [List.append_assoc, List.cons_append, events_snoc]
      exact .winding rfl hv (hp.2 answer)
    | @settled _ _ result hpc' =>
      obtain ⟨rfl, rfl, rfl⟩ := HandlerPc.busy.inj (hpc.symm.trans hpc')
      obtain ⟨rfl, rfl⟩ := hp
      refine .shutDown rfl (not_inVain_snoc ?_ fun _ => nofun)
        ⟨h₀, by rw [List.append_assoc, List.cons_append]⟩
      exact (inVain_branch (e := .notified) fun _ => nofun).not.mpr
        (not_or.mpr ⟨hv, not_abandoned_of_silent silent_shutDownSaid⟩)
    | received _ hpc' | closed hpc' | notified hpc' => cases hpc.symm.trans hpc'
  | listening hpc hv =>
    cases hs with
    | said _ hpc' | settled hpc' => cases hpc.symm.trans hpc'
    | received request => exact @Handler.Sound.handling lib _ _ _ [] _ rfl hv (handle_spec request)
    | closed =>
      exact .stopped rfl (not_inVain_snoc hv fun _ => nofun)
        (List.mem_append_right _ (List.mem_singleton_self _))
    | notified => exact @Handler.Sound.winding lib _ _ [] _ rfl hv shutDown_spec
  | stopped hpc | shutDown hpc | failed hpc | notStarted hpc =>
    cases hs with
    | said _ hpc' | settled hpc' | received _ hpc' | closed hpc' | notified hpc' =>
      cases hpc.symm.trans hpc'

/-- **What an operation of the handler belongs to**: the start, a request, or the shutdown. -/
theorem Handler.Sound.at_call {h : List HandlerEvent} {s : Handler} {phase : HandlerPhase}
    {said : Trace HandlerSig} {o : HandlerOp}
    {k : HandlerSig.Answer o → Prog HandlerSig (Except Error HandlerNext)}
    (hsound : s.Sound lib h) (hpc : s.pc = .busy phase said (.call o k)) :
    (phase = .starting ∧ h = events said ∧ Starts said o) ∨
      (phase = .handling ∧ ∃ h₀ request, h = h₀ ++ .received request :: events said ∧
        Handles lib s.state request said o) ∨
      (phase = .winding ∧ ∃ h₀, h = h₀ ++ .notified :: events said ∧ Winds said o) := by
  cases hsound with
  | starting hpc' hp =>
    obtain ⟨rfl, rfl, rfl⟩ := HandlerPc.busy.inj (hpc'.symm.trans hpc)
    exact .inl ⟨rfl, rfl, hp.1⟩
  | @handling _ h₀ request _ _ hpc' _ hp =>
    obtain ⟨rfl, rfl, rfl⟩ := HandlerPc.busy.inj (hpc'.symm.trans hpc)
    exact .inr (.inl ⟨rfl, h₀, request, rfl, hp.1⟩)
  | @winding _ h₀ _ _ hpc' _ hp =>
    obtain ⟨rfl, rfl, rfl⟩ := HandlerPc.busy.inj (hpc'.symm.trans hpc)
    exact .inr (.inr ⟨rfl, h₀, rfl, hp.1⟩)
  | listening hpc' | stopped hpc' | shutDown hpc' | failed hpc' | notStarted hpc' =>
    cases hpc'.symm.trans hpc

/-- The program that an operation belongs to. -/
def HandlerOp.phase : HandlerOp → HandlerPhase
  | .chainManager | .db .activeOrderList | .spawnRestore _ => .starting
  | .send .shutdown | .awaitShutdown | .awaitRefused | .dbShutdown | .signerShutdown => .winding
  | _ => .handling

theorem Handler.Sound.phase_eq {h : List HandlerEvent} {s : Handler} {phase : HandlerPhase}
    {said : Trace HandlerSig} {o : HandlerOp}
    {k : HandlerSig.Answer o → Prog HandlerSig (Except Error HandlerNext)}
    (hsound : s.Sound lib h) (hpc : s.pc = .busy phase said (.call o k)) : phase = o.phase := by
  rcases hsound.at_call hpc with ⟨rfl, -, ho⟩ | ⟨rfl, _, request, -, ho⟩ | ⟨rfl, _, -, ho⟩
  · cases ho <;> rfl
  · cases ho <;> rfl
  · rcases ho.op with rfl | rfl | rfl | rfl | rfl <;> rfl

/-- An operation of the start. -/
theorem Handler.Sound.starts {h : List HandlerEvent} {s : Handler} {phase : HandlerPhase}
    {said : Trace HandlerSig} {o : HandlerOp}
    {k : HandlerSig.Answer o → Prog HandlerSig (Except Error HandlerNext)}
    (hsound : s.Sound lib h) (hpc : s.pc = .busy phase said (.call o k))
    (ho : o.phase = .starting) : phase = .starting ∧ Starts said o := by
  have hphase : phase = .starting := (hsound.phase_eq hpc).trans ho
  rcases hsound.at_call hpc with ⟨-, -, hstarts⟩ | ⟨hother, -⟩ | ⟨hother, -⟩
  · exact ⟨hphase, hstarts⟩
  · cases hother.symm.trans hphase
  · cases hother.symm.trans hphase

/-- An operation that serves a request. -/
theorem Handler.Sound.handles {h : List HandlerEvent} {s : Handler} {phase : HandlerPhase}
    {said : Trace HandlerSig} {o : HandlerOp}
    {k : HandlerSig.Answer o → Prog HandlerSig (Except Error HandlerNext)}
    (hsound : s.Sound lib h) (hpc : s.pc = .busy phase said (.call o k))
    (ho : o.phase = .handling) : phase = .handling ∧ ∃ h₀ request,
      h = h₀ ++ .received request :: events said ∧ Handles lib s.state request said o := by
  have hphase : phase = .handling := (hsound.phase_eq hpc).trans ho
  rcases hsound.at_call hpc with ⟨hother, -⟩ | hhandles | ⟨hother, -⟩
  · cases hother.symm.trans hphase
  · exact hhandles
  · cases hother.symm.trans hphase

/-- In one program there is one request to the database at most, and none for a withdrawal. -/
theorem Handler.Sound.at_db {h : List HandlerEvent} {s : Handler} {phase : HandlerPhase}
    {said : Trace HandlerSig} {r : DbRequest}
    {k : HandlerSig.Answer (.db r) → Prog HandlerSig (Except Error HandlerNext)}
    (hsound : s.Sound lib h) (hpc : s.pc = .busy phase said (.call (.db r) k)) :
    (∀ exchange ∈ said, ∀ r', exchange.1 ≠ .db r') ∧ r.attempt? = none := by
  rcases hsound.at_call hpc with ⟨-, -, ho⟩ | ⟨-, h₀, request, -, ho⟩ | ⟨-, h₀, -, ho⟩
  · cases ho with
    | orderList => simp [DbRequest.attempt?]
  · cases ho with
    | readOrder | createOrder | markPaid => simp [DbRequest.attempt?]
  · rcases ho.op with ho | ho | ho | ho | ho <;> cases ho

/-- The handler waits for the answer to a call of the chain manager. -/
def Handler.Awaits (s : Handler) : Prop := ∃ phase said k, s.pc = .busy phase said (.call .await k)

/-- It does so exactly when the call was the last thing it said. -/
theorem Handler.Sound.awaits_iff {h : List HandlerEvent} {s : Handler} {phase : HandlerPhase}
    {said : Trace HandlerSig} {program : Prog HandlerSig (Except Error HandlerNext)}
    (hsound : s.Sound lib h) (hpc : s.pc = .busy phase said program) :
    s.Awaits ↔ expecting said = true := by
  have hawaits : s.Awaits ↔ ∃ k, program = .call .await k := by
    constructor
    · rintro ⟨_, _, k, hpc'⟩
      exact ⟨k, (HandlerPc.busy.inj (hpc.symm.trans hpc')).2.2⟩
    · rintro ⟨k, rfl⟩
      exact ⟨_, _, k, hpc⟩
  rw [hawaits]
  cases program with
  | done result =>
    refine iff_of_false (fun ⟨k, hk⟩ => nomatch hk) (Bool.not_eq_true _ ▸ ?_)
    cases hsound with
    | starting hpc' hp =>
      obtain ⟨-, rfl, rfl⟩ := HandlerPc.busy.inj (hpc'.symm.trans hpc)
      exact Started.not_expecting hp
    | handling hpc' _ hp =>
      obtain ⟨-, rfl, rfl⟩ := HandlerPc.busy.inj (hpc'.symm.trans hpc)
      exact Handled.answered hp
    | winding hpc' _ hp =>
      obtain ⟨-, rfl, rfl⟩ := HandlerPc.busy.inj (hpc'.symm.trans hpc)
      exact Wound.not_expecting hp
    | listening hpc' | stopped hpc' | shutDown hpc' | failed hpc' | notStarted hpc' =>
      cases hpc'.symm.trans hpc
  | call o k =>
    have ho : (∃ k', Prog.call (S := HandlerSig) o k = .call .await k') ↔ o = .await := by
      constructor
      · rintro ⟨k', hk⟩
        injection hk
      · rintro rfl
        exact ⟨k, rfl⟩
    rw [ho]
    rcases hsound.at_call hpc with ⟨-, -, hs⟩ | ⟨-, _, _, -, hs⟩ | ⟨-, _, -, hs⟩
    · rw [hs.not_expecting]
      refine iff_of_false ?_ Bool.false_ne_true
      rintro rfl
      cases hs
    · exact hs.expecting_iff.symm
    · rw [hs.not_expecting]
      refine iff_of_false ?_ Bool.false_ne_true
      rintro rfl
      rcases hs.op with ho | ho | ho | ho | ho <;> cases ho

theorem HandlerRun.sound {h : List HandlerEvent} {s : Handler}
    (run : HandlerRun lib recipient server_info h s) : s.Sound lib h :=
  run.invariant (P := fun h s => s.Sound lib h) (fun _ h => h ▸ Handler.sound_start)
    fun _ _ _ _ _ hsound _ hs => hs.sound hsound

/-- **How the handler ends.**  Once its loop has started, and as long as its queue is open, it
has ended by its shutdown branch and without an error exactly if no answer was in vain. -/
theorem ended_by_shutDown_iff {h : List HandlerEvent} {s : Handler}
    (run : HandlerRun lib recipient server_info h s) (hloop : LoopStarted h)
    (hopen : .closed ∉ h) {result : Except Error Unit} (hend : s.pc = .ended result) :
    (result = .ok () ∧ ShutDownLast h) ↔ ¬InVain h := by
  cases run.sound with
  | starting hpc | handling hpc | winding hpc | listening hpc => cases hpc.symm.trans hend
  | stopped _ _ hclosed => exact absurd hclosed hopen
  | shutDown hpc hv hs =>
    obtain rfl := HandlerPc.ended.inj (hpc.symm.trans hend)
    exact iff_of_true ⟨rfl, hs⟩ hv
  | failed hpc hv =>
    obtain rfl := HandlerPc.ended.inj (hpc.symm.trans hend)
    exact iff_of_false (fun hok => nomatch hok.1) (not_not.mpr hv)
  | @notStarted _ _ _ said _ hh hp =>
    obtain ⟨order_list, h', hh'⟩ := hloop
    -- The loop begins after three exchanges, of which this start made fewer.
    have hlen := congrArg List.length (hh.symm.trans hh')
    simp [startUpSaid] at hlen
    exact absurd hp.1 (by omega)

/-! ## Two ends -/

namespace Sample

def serverInfo : ServerInfo := ⟨"0.2.2", "instance", false, none⟩

/-- Surroundings that know of no order, and that take an answer if `present` says so. -/
def calm (present : Bool) : ∀ o : HandlerOp, Option (HandlerSig.Answer o)
  | .chainManager | .send _ => some true
  | .publicKey .. => some (.ok "111111111111111111111111111111111HC1")
  | .db .activeOrderList => some (.ok [])
  | .db (.readOrder _) => some (.ok none)
  | .db _ => some (.error .dbEngineDown)
  | .await => some (.ok ())
  | .awaitRefused => none
  | .reply _ => some present
  | .spawnRestore _ | .reap .. | .awaitShutdown | .dbShutdown | .signerShutdown => some ()

/-- The handler starts and is asked one question. -/
def oneQuestion (present : Bool) : List HandlerAction :=
  List.replicate 3 (.answer (calm present)) ++
    [.settle, .receive (.isCurrencySupported "DOT"), .answer (calm present), .settle]

/-- It answers the question and is then told to shut down. -/
def questionAndShutdown : List HandlerAction :=
  oneQuestion true ++ .notify :: (List.replicate 4 (.answer (calm true)) ++ [.settle])

end Sample

/-- How the task has ended. -/
def HandlerPc.ending : HandlerPc → Option (Except Error Unit)
  | .ended result => some result
  | _ => none

theorem HandlerPc.ending_eq_some {pc : HandlerPc} {result : Except Error Unit} :
    pc.ending = some result ↔ pc = .ended result := by
  cases pc with
  | ended result' => exact ⟨fun h => congrArg _ (Option.some.inj h), fun h => by cases h; rfl⟩
  | busy | listening => exact iff_of_false (fun h => by cases h) fun h => by cases h

/-- The loop has started, the queue was open, and the answers so far were taken or not. -/
def checkEvents (taken : Bool) : List HandlerEvent → Bool
  | .said ⟨.chainManager, true⟩ :: .said ⟨.db .activeOrderList, .ok []⟩ ::
      .said ⟨.spawnRestore [], ()⟩ :: .settled :: h => h.all fun e =>
    match e with
    | .closed => false
    | .said ⟨.reply _, delivered⟩ => delivered || !taken
    | _ => true
  | _ => false

theorem loopStarted_of_checkEvents {taken : Bool} {h : List HandlerEvent}
    (hc : checkEvents taken h = true) :
    LoopStarted h ∧ .closed ∉ h ∧ (taken = true → ¬InVain h) := by
  unfold checkEvents at hc
  split at hc
  · rename_i h
    refine ⟨⟨[], h, rfl⟩, fun hmem => ?_, fun ht ⟨answer, hmem⟩ => ?_⟩
    · have hrest : .closed ∈ h := by simpa using hmem
      simpa using List.all_eq_true.mp hc _ hrest
    · have hrest : .said ⟨.reply answer, false⟩ ∈ h := by simpa using hmem
      simpa [ht] using List.all_eq_true.mp hc _ hrest
  · cases hc

/-- A handler whose answers are taken ends by its shutdown. -/
theorem ended_by_shutDown_iff_questionAndShutdown : ∃ h s,
    HandlerRun Sample.libraries Sample.account Sample.serverInfo h s ∧
      s.pc = .ended (.ok ()) ∧ ShutDownLast h := by
  obtain ⟨h, s, run, hp⟩ := exists_reach_of_replay
    (Handler.exec_sound Sample.libraries)
    (· = Handler.start Sample.account Sample.serverInfo) rfl Sample.questionAndShutdown
    (p := fun q => checkEvents true q.1 && q.2.pc.ending = some (.ok ())) (by decide +kernel)
  rw [Bool.and_eq_true, decide_eq_true_eq] at hp
  obtain ⟨hloop, hopen, hvain⟩ := loopStarted_of_checkEvents hp.1
  have hend : s.pc = .ended (.ok ()) := HandlerPc.ending_eq_some.mp hp.2
  exact ⟨h, s, run, hend, ((ended_by_shutDown_iff run hloop hopen hend).mpr (hvain rfl)).2⟩

/-- **A requester that does not wait takes the handler down.**  It asks whether a currency is
supported and is gone when the answer is sent. -/
theorem impatient_requester_ends_handler : ∃ h s,
    HandlerRun Sample.libraries Sample.account Sample.serverInfo h s ∧
      LoopStarted h ∧ .closed ∉ h ∧ s.pc = .ended (.error .fatal) := by
  obtain ⟨h, s, run, hp⟩ := exists_reach_of_replay
    (Handler.exec_sound Sample.libraries)
    (· = Handler.start Sample.account Sample.serverInfo) rfl (Sample.oneQuestion false)
    (p := fun q => checkEvents false q.1 && q.2.pc.ending = some (.error .fatal))
    (by decide +kernel)
  rw [Bool.and_eq_true, decide_eq_true_eq] at hp
  obtain ⟨hloop, hopen, -⟩ := loopStarted_of_checkEvents hp.1
  have hend : s.pc = .ended (.error .fatal) := HandlerPc.ending_eq_some.mp hp.2
  exact ⟨h, s, run, hloop, hopen, hend⟩

end Kalatori
