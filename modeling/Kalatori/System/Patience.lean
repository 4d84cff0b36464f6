import Kalatori.System.Pairing

/-!
# Clients that wait

The state handler sends its answers with `map_err(|_| Error::Fatal)?`: a client
that goes away before it is answered takes the handler down, and with it every
order of every other client.  Here is the other side: as long as nobody goes away,
no answer is in vain, since each request has just one owner, whose task stays until
it has its answer.  Then a handler that has started does not fail.

* `Patient`: nobody goes away.
* `Service.Attended`: whoever is to be answered is there.
* `alwaysHeard`: no answer is in vain, and a handler that has started does not fail.
-/

namespace Kalatori

open Program Transition

variable {lib : Libraries} {d : Deployment lib} {display : F64 → String}

/-! ## Nobody goes away -/

/-- **Nobody goes away**: no client of the route for orders, and none that asks for the status.
The clients that ask for the status are no tasks of the service.  That they stay is said as what it
comes to: the handler is not told that nobody hears its answer. -/
structure ServiceEvent.Waits (e : ServiceEvent lib) : Prop where
  tasks : ∀ i, e ≠ .left i
  status : ∀ x status, e = .daemon (.daemon x) →
    x.event ≠ .handler (.said ⟨.reply (.serverStatus status), false⟩)

/-- The runs in which nobody goes away. -/
abbrev PatientRun (display : F64 → String) (d : Deployment lib) :
    List (ServiceEvent lib) → Service lib → Prop :=
  ServiceRunIf display d (fun _ _ e => e.Waits) (Sys.Begun d)

/-! ## Whoever is to be answered is there -/

/-- **Whoever is to be answered is there**, and who waits is at a request. -/
structure Service.Attended (s : Service lib) : Prop where
  present : ∀ i ∈ s.holders, s.tasks i ≠ none
  calls : ∀ i t, s.tasks i = some t → t.waits = true → ∃ o k, t.program = .call o k

section Steps

variable {s s' : Service lib}

theorem Service.attended_start (sys : Sys lib) : (Service.start sys).Attended where
  present := fun _ hmem => (by cases hmem)
  calls := fun _ _ ht => (by cases ht)

/-- A task comes, or goes on. -/
theorem Service.Attended.setTask (h : s.Attended) (i : ℕ) {t : OrderTask}
    (ht : t.waits = true → ∃ o k, t.program = .call o k) :
    (s.setTask i (some t)).Attended where
  present := fun j hmem => by
    by_cases hj : j = i
    · rw [hj, Service.setTask_self]
      exact Option.some_ne_none t
    · rw [Service.setTask_of_ne hj]
      exact h.present j hmem
  calls := fun j t' ht' => by
    by_cases hj : j = i
    · rw [hj, Service.setTask_self] at ht'
      obtain rfl := Option.some.inj ht'
      exact ht
    · rw [Service.setTask_of_ne hj] at ht'
      exact h.calls j t' ht'

/-- A task that is to have no answer goes. -/
theorem Service.Attended.setTask_none (h : s.Attended) {i : ℕ} (hi : i ∉ s.holders) :
    (s.setTask i none).Attended where
  present := fun j hmem => by
    have hj : j ≠ i := by
      rintro rfl
      exact hi hmem
    rw [Service.setTask_of_ne hj]
    exact h.present j hmem
  calls := fun j t' ht' => by
    by_cases hj : j = i
    · rw [hj, Service.setTask_self] at ht'
      cases ht'
    · rw [Service.setTask_of_ne hj] at ht'
      exact h.calls j t' ht'

/-- There are no more to be answered. -/
theorem Service.Attended.subset {s₁ : Service lib} (h : s.Attended) (htasks : s₁.tasks = s.tasks)
    (hholders : ∀ i ∈ s₁.holders, i ∈ s.holders) : s₁.Attended where
  present := fun i hmem => htasks ▸ h.present i (hholders i hmem)
  calls := htasks ▸ h.calls

/-- What an answer does when whoever it is for is there. -/
theorem Service.Attended.deliver {s₁ : Service lib} {reply : HandlerReply} {taken : Bool}
    (h : s.Attended) (hdeliver : s.deliver reply taken = some s₁) :
    s₁.Attended ∧ (taken = true ∨ s.served = none) := by
  have hcleared : Service.Attended { s with served := none } :=
    h.subset rfl fun i hmem => List.mem_append_right _ hmem
  rcases Service.deliver_cases hdeliver with
    ⟨rfl, hvain⟩ | ⟨i, t, t', hi, ht, hreplied, htaken, rfl⟩
  · refine ⟨hcleared, .inr ?_⟩
    cases hserved : s.served with
    | none => rfl
    | some i =>
      have hpresent := h.present i (mem_holders.mpr (.inl hserved))
      exact absurd (hvain i hserved).1 hpresent
  · refine ⟨hcleared.setTask i ?_, .inl htaken⟩
    intro hwaits
    cases hwaits.symm.trans (OrderTask.replied_waits hreplied)

/-- They are there as long as the handler runs. -/
def Service.Heeded (s : Service lib) : Prop := s.sys.store.handler.hasEnded = false → s.Attended

/-- No answer is in vain. -/
def SysEvent.Heard (e : SysEvent lib) : Prop :=
  ∀ x reply, e = .daemon x → x.event ≠ .handler (.said ⟨.reply reply, false⟩)

theorem heard_of_not_daemon {e : SysEvent lib} (he : e.daemon? = none) : e.Heard := by
  rintro x reply rfl
  cases he

theorem Followed.heeded {s₁ : Service lib} {sys : Sys lib} {e : SysEvent lib}
    (hf : Followed d s sys e s₁) (hwaits : (ServiceEvent.daemon e).Waits)
    {turns : List DaemonTurn} (hsound : DaemonSound lib turns s.sys.store) (hp : s.Sound)
    (h : s.Heeded) : Service.Heeded { s₁ with sys := sys } ∧ e.Heard := by
  cases hf with
  | still he hqueue hstore =>
    refine ⟨fun hend => ?_, heard_of_not_daemon he⟩
    exact (h (hstore ▸ hend)).subset rfl fun i hmem => hmem
  | enqueued he request hrequest hqueue hstore =>
    refine ⟨fun hend => ?_, heard_of_not_daemon he⟩
    refine (h (hstore ▸ hend)).subset rfl fun i hmem => ?_
    rcases mem_holders.mp hmem with hi | hi
    · exact mem_holders.mpr (.inl hi)
    · rcases List.mem_append.mp hi with hi | hi
      · exact mem_holders.mpr (.inr hi)
      · cases List.mem_singleton.mp hi
  | received request hx he hqueue =>
    obtain ⟨hpc, -⟩ := hx.receives he
    have hrunning : s.sys.store.handler.hasEnded = false := by rw [Handler.hasEnded, hpc]
    refine ⟨fun _ => (h hrunning).subset rfl fun i hmem => ?_, ?_⟩
    · obtain ⟨owner, -, hjoin, -, -, hsuffix⟩ := (hp hrunning).received hqueue
      refine hsuffix.subset ?_
      rw [← hjoin]
      exact hmem
    · rintro x reply ⟨⟩ heq
      cases he.symm.trans heq
  | @replied x _ reply taken hx he hqueue hdeliver =>
    obtain ⟨phase, said, k, hpc, -, -⟩ := hx.said he
    obtain ⟨-, -, events, -, -, hevents⟩ := hsound
    obtain rfl : phase = .handling := hevents.phase_eq hpc
    have hrunning : s.sys.store.handler.hasEnded = false := by rw [Handler.hasEnded, hpc]
    obtain ⟨hattended, hheard⟩ := (h hrunning).deliver hdeliver
    refine ⟨fun _ => hattended.subset rfl fun i hmem => hmem, ?_⟩
    rintro x' reply' ⟨⟩ heq
    obtain ⟨rfl, htaken⟩ : reply = reply' ∧ taken = false := by
      have hsaid := HandlerEvent.said.inj (DaemonEvent.handler.inj (he.symm.trans heq))
      obtain ⟨hreply, htaken⟩ := Sigma.mk.inj hsaid
      exact ⟨HandlerOp.reply.inj hreply, eq_of_heq htaken⟩
    rcases hheard with hheard | hnobody
    · cases hheard.symm.trans htaken
    · -- What is for nobody is the status of the server.
      obtain ⟨-, -, -, hstatus⟩ := (hp hrunning).answers hpc
      obtain ⟨status, rfl⟩ := hstatus hnobody
      exact hwaits.status x status rfl heq
  | handled ev hx he hreceived hreply hqueue =>
    refine ⟨fun hend => ?_, ?_⟩
    · rcases hx.handlerStep with ⟨ev', -, hstep⟩ | hrestart
      · exact (h hstep.running).subset rfl fun i hmem => hmem
      · cases he.symm.trans hrestart
    · rintro x reply ⟨⟩ heq
      exact hreply reply false (DaemonEvent.handler.inj (he.symm.trans heq))
  | restarted hsys =>
    refine ⟨fun _ => ?_, ?_⟩
    · exact (Service.attended_start sys).subset rfl fun i hmem => hmem
    · rintro x reply ⟨⟩ heq
      cases heq

theorem ServiceStep.heeded {e : ServiceEvent lib} (hs : ServiceStep display d s e s')
    (hwaits : e.Waits) {turns : List DaemonTurn} (hsound : DaemonSound lib turns s.sys.store)
    (hreports : ∀ index, (s.sys.trackers index).Reporting) (hp : s.Sound) (h : s.Heeded) :
    s'.Heeded ∧ ∀ e', e.sys? = some e' → e'.Heard := by
  cases hs with
  | arrived i order_id payload hfree hunused =>
    refine ⟨fun hend => (h hend).setTask i fun hw => (by cases hw), fun _ he => (by cases he)⟩
  | @asked sys t o k i ht hprogram hw hrequest =>
    have hstore : sys.store = s.sys.store := by
      cases (SysStep.outside (d := d) _ hrequest).outcome with
      | requested => rfl
    refine ⟨fun hend => ?_, ?_⟩
    · have hnext := (h (hstore ▸ hend)).setTask i (t := t.asks) fun _ => ⟨o, k, hprogram⟩
      refine ⟨fun j hmem => ?_, hnext.calls⟩
      rcases mem_holders.mp hmem with hj | hj
      · exact hnext.present j (mem_holders.mpr (.inl hj))
      · rcases List.mem_append.mp hj with hj | hj
        · exact hnext.present j (mem_holders.mpr (.inr hj))
        · obtain rfl := Option.some.inj (List.mem_singleton.mp hj)
          rw [Service.setTask_self]
          exact Option.some_ne_none _
    · rintro e' he
      obtain rfl := Option.some.inj he
      exact heard_of_not_daemon rfl
  | unheard i ht hprogram hend =>
    refine ⟨fun hrunning => ?_, fun _ he => (by cases he)⟩
    cases hrunning.symm.trans hend
  | left i => exact absurd rfl (hwaits.tasks i)
  | @responded t result i ht hprogram =>
    refine ⟨fun hend => (h hend).setTask_none ?_, fun _ he => (by cases he)⟩
    refine (hp hend).idle i t ht (Bool.eq_false_of_not_eq_true fun hw => ?_)
    obtain ⟨o, k, hcall⟩ := (h hend).calls i t ht hw
    cases hprogram.symm.trans hcall
  | daemon e hs hfollow =>
    obtain ⟨hnext, hheard⟩ := (hs.followed hreports hfollow).heeded hwaits hsound hp h
    refine ⟨hnext, fun e' he => ?_⟩
    exact Option.some.inj he ▸ hheard

end Steps

/-! ## No answer is in vain -/

theorem PatientRun.heeded {h : List (ServiceEvent lib)} {s : Service lib}
    (run : PatientRun display d h s) : s.Heeded ∧ ∀ e ∈ serviceSys h, e.Heard := by
  refine run.invariant (P := fun h s => s.Heeded ∧ ∀ e ∈ serviceSys h, e.Heard) ?_ ?_
  · rintro s ⟨sys, -, rfl⟩
    exact ⟨fun _ => Service.attended_start sys, fun _ hmem => (by cases hmem)⟩
  · rintro h s e s' run ⟨hheeded, hheard⟩ hwaits hs
    have hsys := ServiceRun.sysRun run
    obtain ⟨hnext, hlast⟩ := hs.heeded hwaits (SysRun.handler_sound hsys)
      (SysRun.reporting hsys) (ServiceRun.sound run) hheeded
    refine ⟨hnext, fun e' hmem => ?_⟩
    rw [serviceSys_append, List.mem_append, Option.mem_toList] at hmem
    rcases hmem with hmem | hmem
    · exact hheard e' hmem
    · exact hlast e' hmem

/-- **No answer is in vain** as long as nobody goes away, and a handler that has failed never
took a request: it failed in its start. -/
theorem alwaysHeard {h : List (ServiceEvent lib)} {s : Service lib}
    (run : PatientRun display d h s) :
    (∀ x reply, .daemon (.daemon x) ∈ h → x.event ≠ .handler (.said ⟨.reply reply, false⟩)) ∧
      ∀ e, s.sys.store.handler.pc = .ended (.error e) →
        ∃ h₀ turns said, daemonTurns (serviceSys h) = h₀ ++ turns ∧
          handlerTurns turns (events said ++ [.settled]) ∧ Started s.sys.store.handler.state said
            (.error e) := by
  have hheard := (PatientRun.heeded run).2
  refine ⟨fun x reply hmem => hheard _ (List.mem_filterMap.mpr ⟨_, hmem, rfl⟩) x reply rfl,
    fun e hpc => ?_⟩
  obtain ⟨h₀, turns, events, hh, hturns, hsound⟩ := SysRun.handler_sound (ServiceRun.sysRun run)
  cases hsound with
  | failed hpc' hvain =>
    obtain ⟨reply, hmem⟩ := hvain
    obtain ⟨x, hx, he⟩ := mem_of_handlerTurns hh hturns hmem
    exact absurd he (hheard _ hx x reply rfl)
  | notStarted hpc' hevents hstarted =>
    cases hpc'.symm.trans hpc
    exact ⟨h₀, turns, _, hh, hevents ▸ hturns, hstarted⟩
  | starting hpc' | handling hpc' | winding hpc' | listening hpc' | stopped hpc' | shutDown hpc' =>
    cases hpc'.symm.trans hpc

def ServiceEvent.waits : ServiceEvent lib → Bool
  | .left _ => false
  | .daemon (.daemon x) =>
    match x.event with
    | .handler (.said ⟨.reply (.serverStatus _), false⟩) => false
    | _ => true
  | _ => true

theorem ServiceEvent.waits_of {e : ServiceEvent lib} (h : e.waits = true) : e.Waits := by
  refine ⟨?_, ?_⟩
  · rintro i rfl
    cases h
  · rintro x status rfl hx
    simp only [ServiceEvent.waits, hx] at h
    cases h

/-- A client places an order and waits for the answer. -/
theorem alwaysHeard_dotPlaced : ∃ h s, PatientRun (fun _ => "") Sample.deployment h s ∧
    h.any ServiceEvent.isOrderAnswer = true ∧
      (∀ x reply, .daemon (.daemon x) ∈ h → x.event ≠ .handler (.said ⟨.reply reply, false⟩)) ∧
        ∀ e, s.sys.store.handler.pc = .ended (.error e) →
          ∃ h₀ turns said, daemonTurns (serviceSys h) = h₀ ++ turns ∧
            handlerTurns turns (events said ++ [.settled]) ∧
              Started s.sys.store.handler.state said (.error e) := by
  have hallowed : ∀ (_ : List (ServiceEvent Sample.libraries)) (_ : Service Sample.libraries)
      (e : ServiceEvent Sample.libraries), e.waits = true → e.Waits :=
    fun _ _ _ => ServiceEvent.waits_of
  obtain ⟨h, s, run, hp⟩ := exists_reach_of_guarded
    (Service.exec_sound (fun _ => "") Sample.deployment) hallowed
    (fun s => ∃ sys, Sys.Begun Sample.deployment sys ∧ s = .start sys)
    ⟨_, Sample.begun, rfl⟩ Sample.dotPlaced
    (p := fun q => q.1.any ServiceEvent.isOrderAnswer) (by decide +kernel)
  exact ⟨h, s, run, hp, alwaysHeard run⟩

end Kalatori
