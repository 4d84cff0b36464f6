import Kalatori.System.Requests

/-!
# When the daemon stands still

The state handler calls the chain manager and waits for the answer; a tracker
that has found a payment waits for room in the channel of the handler.  If the
handler waits for that very tracker and the channel is full, neither goes on.

The tracker comes to its queue only between two programs, so the handler waits
for it as long as a pass over the watch list takes, and all the while everybody
else may put messages into the channel of the handler.  `not_deadlocked` says
that there is no other way: as long as the channel has room while the handler
waits for a tracker that is in a program, the two do not wait for each other.

* `Sys.Deadlocked`: the handler and a tracker wait for each other.
* `Sys.KeepsRoom`: the condition on a step.
* `deadlocked_flood`: a run into the deadlock, by requests over HTTP.
-/

namespace Kalatori

open Program Transition

variable {lib : Libraries} {d : Deployment lib}
  {allow : List (SysEvent lib) → Sys lib → SysEvent lib → Prop}

/-! ## Waiting for each other -/

/-- The tracker is in one of its programs, and takes no requests. -/
def Tracker.Busy (t : Tracker lib) : Prop := ∃ said job, t.pc = .busy said job

namespace Sys

/-- The handler waits for an answer that only the tracker can give: its request is on its way
to the tracker, or in the queue of the tracker. -/
structure WaitsFor (d : Deployment lib) (s : Sys lib) (index : ℕ) : Prop where
  awaits : s.store.handler.Awaits
  unanswered : s.replies .stateHandler = none
  heading : ∃ request w, s.Heading d index request ∧ request.account = some w ∧
    w.res = .stateHandler

/-- The tracker has a message for the handler, and the channel of the handler is full. -/
structure Blocked (s : Sys lib) (index : ℕ) : Prop where
  sending : ∃ said message k, (s.trackers index).pc = .busy said (.call (.send message) k)
  full : capacity ≤ s.state_queue.length

/-- **The deadlock.** -/
def Deadlocked (d : Deployment lib) (s : Sys lib) : Prop :=
  ∃ index, s.WaitsFor d index ∧ s.Blocked index

end Sys

/-- A message is put into the channel of the handler. -/
def SysEvent.Puts (e : SysEvent lib) : Prop :=
  (∃ request, e = .outside (.requested request)) ∨
    ∃ index x message, e = .tracker index x ∧ x.event = .said ⟨.send message, true⟩

/-- A tracker begins a program: it takes the next endpoint, or a block. -/
def Turn.Begins (x : Turn lib) : Prop :=
  x.event = .turned ∨ ∃ number, x.event = .received (.newBlock number)

/-- **There is room while the handler waits for a tracker in a program.**  The handler calls
such a tracker only if there is room, nobody takes the last place while it waits for one, and no
tracker it waits for begins a program without. -/
structure Sys.KeepsRoom (d : Deployment lib) (s : Sys lib) (e : SysEvent lib) : Prop where
  call : ∀ x r w request index, e = .daemon x → x.event = .handler (.said ⟨.send r, true⟩) →
    r.forTracker = some (w, request) → d.routes.route w.currency = .ok index →
    (s.trackers index).Busy → s.state_queue.length < capacity
  put : ∀ index, s.WaitsFor d index → (s.trackers index).Busy → e.Puts →
    s.state_queue.length + 1 < capacity
  begins : ∀ index x, e = .tracker index x → x.Begins → s.WaitsFor d index →
    s.state_queue.length < capacity

/-! ## Without it nobody waits forever -/

theorem Outcome.length_state_queue {s s' : Sys lib} {e : SysEvent lib} (ho : Outcome d s e s') :
    s'.state_queue.length ≤ s.state_queue.length ∨
      e.Puts ∧ s'.state_queue.length = s.state_queue.length + 1 := by
  cases ho with
  | requested request => exact .inr ⟨.inl ⟨request, rfl⟩, List.length_append⟩
  | told index message _ _ he =>
    exact .inr ⟨.inr ⟨index, _, message, rfl, he⟩, List.length_append⟩
  | received request rest _ _ hqueue =>
    left
    rw [hqueue, List.length_cons]
    exact Nat.le_succ _
  | restarted => exact .inl (Nat.zero_le _)
  | droppedTracker | lost | took => exact .inl (by simp)
  | _ => exact .inl le_rfl

/-- A tracker that is in a program was in one before, or has just begun it. -/
theorem TrackerStep.busy_before {chain : Chain} {t t' : Tracker lib} {e : TrackerEvent lib}
    (hs : TrackerStep chain t e t') (hb : t'.Busy) :
    t.Busy ∨ e = .turned ∨ ∃ number, e = .received (.newBlock number) := by
  obtain ⟨said', job', hpc'⟩ := hb
  cases hs with
  | stopped => cases hpc'
  | turned => exact .inr (.inl rfl)
  | said answer hpc => exact .inl ⟨_, _, hpc⟩
  | settled hpc => exact .inl ⟨_, _, hpc⟩
  | received request hpc =>
    match request with
    | .newBlock number => exact .inr (.inr ⟨number, rfl⟩)
    | .watchAccount _ | .reap _ => exact .inl ⟨said', job', hpc'⟩
    | .shutdown => cases hpc'
  | timedOut => cases hpc'

/-- What the handler waits for was on its way before, or the handler has just asked for it. -/
theorem SysStep.waitsFor_before {h : List (SysEvent lib)} {s s' : Sys lib} {e : SysEvent lib}
    (run : SysRunIf d allow h s) (hallow : allow h s e) (hs : SysStep d s e s') {index : ℕ}
    (hw : s'.WaitsFor d index) : s.WaitsFor d index ∨
      ∃ x r w request, e = .daemon x ∧ x.event = .handler (.said ⟨.send r, true⟩) ∧
        r.forTracker = some (w, request) ∧ d.routes.route w.currency = .ok index := by
  obtain ⟨request, w, hheading, haccount, hres⟩ := hw.heading
  have hsome : request.account.isSome := by
    rw [haccount]
    rfl
  rcases hs.outcome.heading_before hheading hsome with hold | ⟨r, account, hsends, hreq, hroute⟩
  · obtain ⟨hawaits, hreply⟩ := (SysRun.oneCall run).awaits hold haccount
    rw [hres] at hawaits hreply
    exact .inl ⟨hawaits, hreply, request, w, hold, haccount, hres⟩
  · obtain rfl := Option.some.inj (haccount.symm.trans (account_of_forTracker hreq).2)
    rcases hsends with ⟨x, rfl, hx⟩ | rfl
    · exact .inr ⟨x, r, w, request, rfl, hx, hreq, hroute⟩
    · -- The restoring task waits for its own answers.
      obtain ⟨⟨w', rfl, hrestore⟩, -⟩ := restore_sends run hallow hs
      obtain ⟨rfl, -⟩ := Prod.mk.inj (Option.some.inj hreq)
      cases hrestore.symm.trans hres

theorem SysStep.room {h : List (SysEvent lib)} {s s' : Sys lib} {e : SysEvent lib}
    (run : SysRunIf d allow h s) (hallow : allow h s e) (hroom : s.KeepsRoom d e)
    (hs : SysStep d s e s')
    (ih : ∀ index, s.WaitsFor d index → (s.trackers index).Busy → s.state_queue.length < capacity)
    {index : ℕ} (hw : s'.WaitsFor d index) (hb : (s'.trackers index).Busy) :
    s'.state_queue.length < capacity := by
  rcases hs.waitsFor_before run hallow hw with hold | ⟨x, r, w, request, rfl, he, hreq, hroute⟩
  · -- The handler waited for it before, so the tracker was in a program or begins one.
    have hbefore : s.state_queue.length < capacity := by
      rcases hs.outcome.trackers index with heq | heq | ⟨chain, x, rfl, -, -, -, hx⟩
      · exact ih index hold (heq ▸ hb)
      · rw [heq] at hb
        obtain ⟨_, _, hpc⟩ := hb
        cases hpc
      · rcases hx.busy_before hb with hbusy | hbegins
        · exact ih index hold hbusy
        · exact hroom.begins index x rfl hbegins hold
    rcases hs.outcome.length_state_queue with hle | ⟨hputs, hlen⟩
    · omega
    · have hbusy : (s.trackers index).Busy := by
        rcases hs.outcome.trackers index with heq | heq | ⟨chain, x, rfl, -, -, -, hx⟩
        · exact heq ▸ hb
        · rw [heq] at hb
          obtain ⟨_, _, hpc⟩ := hb
          cases hpc
        · rcases hx.busy_before hb with hbusy | hbegins
          · exact hbusy
          · obtain ⟨_, hrequest⟩ | ⟨i, y, message, hy, hsaid⟩ := hputs
            · cases hrequest
            · obtain ⟨-, rfl⟩ := SysEvent.tracker.inj hy
              rcases hbegins with hbegins | ⟨_, hbegins⟩ <;> cases hsaid.symm.trans hbegins
      have hfree := hroom.put index hold hbusy hputs
      omega
  · -- The handler has just called.
    have ho := hs.outcome
    cases ho with
    | handler _ _ he' hquiet =>
      obtain rfl := DaemonEvent.handler.inj (he.symm.trans he')
      exact absurd hquiet.1 Bool.noConfusion
    | handlerSent =>
      exact hroom.call x r w request index rfl he hreq hroute hb
    | spawned _ _ he' | handlerAnswered _ _ he' | databaseShutDown _ he' | received _ _ _ he' =>
      cases he.symm.trans he'
    | restarted => cases he

/-- **No deadlock while there is room.** -/
theorem not_deadlocked {h : List (SysEvent lib)} {s : Sys lib}
    (run : SysRunIf d (fun _ s e => s.KeepsRoom d e) h s) : ¬s.Deadlocked d := by
  have hroom : ∀ index, s.WaitsFor d index → (s.trackers index).Busy →
      s.state_queue.length < capacity := by
    refine run.invariant (P := fun _ s => ∀ index, s.WaitsFor d index → (s.trackers index).Busy →
      s.state_queue.length < capacity) ?_ ?_
    · rintro s ⟨orders, -, rfl⟩ index - -
      exact Nat.zero_lt_succ 1023
    · intro h s e s' run ih hroom hs index hw hb
      exact hs.room run hroom hroom ih hw hb
  rintro ⟨index, hw, ⟨said, message, k, hpc⟩, hfull⟩
  have hlt := hroom index hw ⟨said, _, hpc⟩
  omega

/-! ## Two runs -/

namespace Sample

/-- Two orders are placed and found paid at one block.  The handler has taken the report of the
first and waits for the tracker to take the request for its payout, while the tracker has yet to
report the second. -/
def twoPayments : List (SysAction libraries) :=
  connected ++ ordered "a" ten ++ registered ++ ordered "b" ten ++ registered ++
    [.outside (.blockSeen 0 "0x1"), .trackerReceive 0] ++ nodeAnswers 10 8 ++
    [.receive, served 5] ++ answers 2 ++ [.manager .received, .manager .forwarded]

end Sample

/-- The handler waits, the tracker has its request, and it is to send a message. -/
def Sys.waiting (s : Sys lib) : Bool :=
  (match s.store.handler.pc with
    | .busy _ _ (.call .await _) => true
    | _ => false) &&
  (match (s.trackers 0).pc with
    | .busy _ (.call (.send _) _) => true
    | _ => false) &&
  (s.replies .stateHandler).isNone &&
  (s.tracker_queue 0).any (fun request => asks .stateHandler request.account) &&
  s.state_queue.isEmpty

theorem waitsFor_of_waiting {s : Sys lib} (h : s.waiting = true) :
    s.WaitsFor d 0 ∧ (∃ said message k, (s.trackers 0).pc = .busy said (.call (.send message) k)) ∧
      s.state_queue = [] := by
  simp only [Sys.waiting, Bool.and_eq_true, List.any_eq_true, List.isEmpty_iff,
    Option.isNone_iff_eq_none] at h
  obtain ⟨⟨⟨⟨hhandler, htracker⟩, hreply⟩, request, hmem, hasks⟩, hqueue⟩ := h
  have hawaits : s.store.handler.Awaits := by
    split at hhandler
    · rename_i phase said k hpc
      exact ⟨phase, said, k, hpc⟩
    · cases hhandler
  have hsending : ∃ said message k, (s.trackers 0).pc = .busy said (.call (.send message) k) := by
    split at htracker
    · rename_i said message k hpc
      exact ⟨said, message, k, hpc⟩
    · cases htracker
  rw [asks, Option.any_eq_true] at hasks
  obtain ⟨w, hw, hres⟩ := hasks
  exact ⟨⟨hawaits, hreply, request, w, .waiting hmem, hw, of_decide_eq_true hres⟩, hsending, hqueue⟩

/-- There is a message in the channel of the handler for an event at most. -/
theorem SysRun.length_state_queue_le {h : List (SysEvent lib)} {s : Sys lib}
    (run : SysRunIf d allow h s) : s.state_queue.length ≤ h.length := by
  refine run.invariant (P := fun h s => s.state_queue.length ≤ h.length) ?_ ?_
  · rintro s ⟨orders, -, rfl⟩
    exact le_rfl
  · intro h s e s' _ ih _ hs
    rw [List.length_append, List.length_singleton]
    rcases hs.outcome.length_state_queue with hle | ⟨-, heq⟩ <;> omega

/-- A short run never fills the channel. -/
theorem SysRun.keepsRoom {h : List (SysEvent lib)} {s : Sys lib} (run : SysRun d h s)
    (hshort : h.length < capacity) : SysRunIf d (fun _ s e => s.KeepsRoom d e) h s := by
  induction run with
  | start h0 => exact .start h0
  | @next h s s' e run _ hs ih =>
    rw [List.length_append, List.length_singleton] at hshort
    have hlen := SysRun.length_state_queue_le run
    refine .next (ih (by omega)) ⟨?_, ?_, ?_⟩ hs
    · intro _ _ _ _ _ _ _ _ _ _
      omega
    · intro _ _ _ _
      omega
    · intro _ _ _ _ _
      omega

/-- The two wait, but there is room. -/
theorem not_deadlocked_twoPayments : ∃ h s,
    SysRunIf Sample.deployment (fun _ s e => s.KeepsRoom Sample.deployment e) h s ∧
      s.WaitsFor Sample.deployment 0 ∧ ¬s.Deadlocked Sample.deployment := by
  obtain ⟨h, s, run, hp⟩ := exists_reach_of_replay (Sys.exec_sound Sample.deployment)
    (Sys.Begun Sample.deployment) Sample.begun Sample.twoPayments
    (p := fun q => q.2.waiting && decide (q.1.length < 100)) (by decide +kernel)
  rw [Bool.and_eq_true, decide_eq_true_eq] at hp
  have hshort : h.length < capacity := hp.2.trans (by decide)
  have run' := SysRun.keepsRoom run hshort
  exact ⟨h, s, run', (waitsFor_of_waiting hp.1).1, not_deadlocked run'⟩

/-- Requests over HTTP fill the channel of the handler, whatever the others do. -/
theorem exists_flooded {h : List (SysEvent lib)} {s : Sys lib} (run : SysRun d h s)
    (halive : s.store.handler.hasEnded = false) (n : ℕ)
    (hn : s.state_queue.length + n ≤ capacity) : ∃ h', SysRun d h'
      { s with state_queue := s.state_queue ++ List.replicate n .serverStatus } := by
  induction n with
  | zero => exact ⟨h, by simpa using run⟩
  | succ n ih =>
    obtain ⟨h', run'⟩ := ih (by omega)
    refine ⟨h' ++ [.outside (.requested .serverStatus)], .next run' trivial (.outside _ ?_)⟩
    have hroom : (s.state_queue ++ List.replicate n StateAccessRequest.serverStatus).length <
        capacity := by
      rw [List.length_append, List.length_replicate]
      omega
    rw [List.replicate_succ', ← List.append_assoc]
    simp [Sys.outside, Sys.tellState, StateAccessRequest.fromHttp, halive] at hroom ⊢
    omega

/-- **A flood of requests closes the cycle.** -/
theorem deadlocked_flood :
    ∃ h s, SysRun Sample.deployment h s ∧ s.Deadlocked Sample.deployment := by
  obtain ⟨h, s, run, hp⟩ := exists_reach_of_replay (Sys.exec_sound Sample.deployment)
    (Sys.Begun Sample.deployment) Sample.begun Sample.twoPayments
    (p := fun q => q.2.waiting) (by decide +kernel)
  obtain ⟨hwaits, hsending, hqueue⟩ := waitsFor_of_waiting (d := Sample.deployment) hp
  have halive : s.store.handler.hasEnded = false := by
    obtain ⟨_, _, _, hpc⟩ := hwaits.awaits
    rw [Handler.hasEnded, hpc]
  have hfree : s.state_queue.length + capacity ≤ capacity := by
    rw [hqueue]
    exact le_rfl
  obtain ⟨h', run'⟩ := exists_flooded run halive capacity hfree
  refine ⟨h', _, run', 0, ⟨hwaits.awaits, hwaits.unanswered, ?_⟩, hsending, ?_⟩
  · obtain ⟨request, w, hheading, hw, hres⟩ := hwaits.heading
    refine ⟨request, w, ?_, hw, hres⟩
    cases hheading with
    | queued r account hmem hreq hroute => exact .queued r account hmem hreq hroute
    | forwarding hpc => exact .forwarding hpc
    | waiting hmem => exact .waiting hmem
  · rw [List.length_append, List.length_replicate]
    exact Nat.le_add_left _ _

end Kalatori
