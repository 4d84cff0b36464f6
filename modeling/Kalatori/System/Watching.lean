import Kalatori.System.Registrations
import Kalatori.System.Routing

/-!
# What becomes of a request to watch an account

A task that asks for an account to be watched is told whether it is.  Whoever
answers that it is has put the invoice into a watch list, and it stays there until
the tracker drops it; whoever answers that it is not has found no tracker for the
currency, or one that is over.

Between the two the request goes through two channels and the hands of the manager.
`Sys.Asked` says that of all the requests of a task that waits it is the only one, so
the answer that the task gets is an answer to it.

* `Sys.Follows`, `SysStep.follows`: an invoice is watched until the tracker drops it.
* `Removed.dropped`: when it does so for a good reason.
* `Sys.Replies`, `Outcome.replies`: every way in which an answer comes about.
* `SysRun.pursued`: what an answer means, for both tasks.
-/

namespace Kalatori

open Program Transition

variable {lib : Libraries} {d : Deployment lib}
  {allow : List (SysEvent lib) → Sys lib → SysEvent lib → Prop}

/-! ## The watch list -/

/-- In one of the turns the tracker dropped the invoice from its watch list, and went on. -/
def Removed (h : List (SysEvent lib)) (index : ℕ) (invoice : Invoice) : Prop :=
  ∃ x, .tracker index x ∈ h ∧ x.after.Alive ∧
    x.before.watched_accounts.lookup invoice.id = some invoice ∧
    x.after.watched_accounts.lookup invoice.id = none

/-- In one of the turns the tracker dropped the invoice: it had reported it paid, or the clock had
passed its death. -/
def Dropped (h : List (SysEvent lib)) (index : ℕ) (invoice : Invoice) : Prop :=
  ∃ x said, .tracker index x ∈ h ∧ x.event = .settled said ∧
    x.before.watched_accounts.lookup invoice.id = some invoice ∧
    x.after.watched_accounts.lookup invoice.id = none ∧
    (Told said invoice.id ∨ ∃ now ∈ clock said, invoice.death < now)

/-- The tracker has the invoice, or dropped it in one of the turns, or is over. -/
inductive Sys.Follows (s : Sys lib) (h : List (SysEvent lib)) (index : ℕ) (invoice : Invoice) :
    Prop
  | gone (hend : (s.trackers index).hasEnded = true)
  | watched (hl : (s.trackers index).watched_accounts.lookup invoice.id = some invoice)
  | removed (hd : Removed h index invoice)

theorem Removed.append {h : List (SysEvent lib)} {index : ℕ} {invoice : Invoice}
    (hd : Removed h index invoice) (h' : List (SysEvent lib)) :
    Removed (h ++ h') index invoice := by
  obtain ⟨x, hx, hrest⟩ := hd
  exact ⟨x, List.mem_append_left _ hx, hrest⟩

/-- No invoice is last found unpaid in the step, if it is one of a tracker. -/
def SysEvent.LastPaid (e : SysEvent lib) : Prop := ∀ index x, e = .tracker index x → x.LastPaid

/-- **An invoice that is dropped was paid or has expired**, where none is last found unpaid. -/
theorem Removed.dropped {h g : List (SysEvent lib)} {s : Sys lib} (run : SysRunIf d allow h s)
    (hsub : g ⊆ h) (hlast : ∀ e ∈ g, e.LastPaid) {index : ℕ} {invoice : Invoice}
    (hd : Removed g index invoice) : Dropped g index invoice := by
  obtain ⟨x, hx, halive, hbefore, hafter⟩ := hd
  obtain ⟨h₁, h₂, rfl⟩ := List.append_of_mem (hsub hx)
  obtain ⟨s₁, s₂, run₁, -, hs⟩ := run.split
  obtain ⟨chain, -, hx₁, hx₂, hstep⟩ := hs.outcome.turn
  rw [← hx₁, ← hx₂] at hstep
  have hsound : x.before.Sound := hx₁ ▸ SysRun.sound run₁ index
  have hlawful : x.Lawful := (turn_lawful_iff hstep hsound).mpr (hlast _ hx index x rfl)
  obtain ⟨said, he, hwhy⟩ := hlawful.leaves halive invoice.id invoice hbefore hafter
  exact ⟨x, said, hx, he, hbefore, hafter, hwhy.imp_left And.right⟩

theorem Tracker.alive_of_hasEnded {t : Tracker lib} (h : t.hasEnded = false) : t.Alive := by
  intro result hpc
  rw [Tracker.hasEnded, hpc] at h
  cases h

/-- What a step does to an invoice that is watched. -/
theorem TrackerStep.follows {chain : Chain} {t t' : Tracker lib} {e : TrackerEvent lib}
    (hs : TrackerStep chain t e t') (hsound : t.Sound) {invoice : Invoice}
    (hl : t.watched_accounts.lookup invoice.id = some invoice) :
    t'.hasEnded = true ∨ t'.watched_accounts.lookup invoice.id = some invoice ∨
      (t'.Alive ∧ t'.watched_accounts.lookup invoice.id = none) ∨
      ∃ w, e = .received (.watchAccount w) ∧ w.id = invoice.id ∧
        t'.watched_accounts.lookup invoice.id = some (Invoice.fromRequest w) := by
  by_cases hend : t'.hasEnded = true
  · exact .inl hend
  have halive : t'.Alive := Tracker.alive_of_hasEnded (Bool.eq_false_of_not_eq_true hend)
  cases hl' : t'.watched_accounts.lookup invoice.id with
  | none => exact .inr (.inr (.inl ⟨halive, rfl⟩))
  | some invoice' =>
    rcases hs.lookup_after hsound hl' with hbefore | ⟨w, he, hid, rfl⟩
    · obtain rfl := Option.some.inj (hl.symm.trans hbefore)
      exact .inr (.inl rfl)
    · exact .inr (.inr (.inr ⟨w, he, hid, rfl⟩))

/-- In one life a tracker steps as it does on its own, or not at all. -/
theorem Outcome.tracker_step {s s' : Sys lib} {e : SysEvent lib} (h : Outcome d s e s')
    (hlife : ¬e.Restarts) (index : ℕ) :
    s'.trackers index = s.trackers index ∨ ∃ chain x, e = .tracker index x ∧
      d.chain[index]? = some chain ∧
      TurnStep chain (s.trackers index) x (s'.trackers index) := by
  cases h with
  | restarted => exact absurd ⟨_, rfl, rfl⟩ hlife
  | droppedTracker | lost => exact .inl (by simp)
  | tracker i hc hs | told i _ hc hs | took i _ _ hc hs =>
    by_cases hi : index = i
    · subst hi
      refine .inr ⟨_, _, rfl, hc, ?_⟩
      simpa using hs
    · exact .inl (by simp [hi])
  | _ => exact .inl rfl

/-- A tracker that is over stays so. -/
theorem SysStep.tracker_over {s s' : Sys lib} {e : SysEvent lib} (hs : SysStep d s e s')
    (hlife : ¬e.Restarts) {index : ℕ} (hend : (s.trackers index).hasEnded = true) :
    (s'.trackers index).hasEnded = true := by
  rcases hs.outcome.tracker_step hlife index with heq | ⟨chain, x, -, -, -, -, hx⟩
  · rw [heq]
    exact hend
  · cases hend.symm.trans hx.not_ended

/-- So does the manager. -/
theorem SysStep.manager_over {s s' : Sys lib} {e : SysEvent lib} (hs : SysStep d s e s')
    (hlife : ¬e.Restarts) (hend : s.manager = .ended) : s'.manager = .ended := by
  have houtcome := hs.outcome
  cases houtcome with
  | restarted => exact absurd ⟨_, rfl, rfl⟩ hlife
  | routed _ _ _ _ _ hpc | winding _ _ hpc | forwarded _ _ hpc | lost _ _ hpc | asked _ _ _ hpc
  | skipped _ _ _ hpc | waited _ hpc => cases hend.symm.trans hpc
  | finished | closed => rfl
  | droppedTracker | took => simpa using hend
  | _ => exact hend

/-- **An invoice that was asked for is watched until the tracker drops it.** -/
theorem SysStep.follows {orders : Orders} {h g recent : List (SysEvent lib)} {s s' : Sys lib}
    {e : SysEvent lib} (run : SysRunIf d allow h s) (hlife : ¬e.Restarts) (hs : SysStep d s e s')
    (hr : s.Registering d orders g) {w : WatchAccount} (hw : Sent g w) {index : ℕ}
    (hf : s.Follows recent index (Invoice.fromRequest w)) :
    s'.Follows (recent ++ [e]) index (Invoice.fromRequest w) := by
  cases hf with
  | gone hend => exact .gone (hs.tracker_over hlife hend)
  | removed hd => exact .removed (hd.append _)
  | watched hl =>
    rcases hs.outcome.tracker_step hlife index with heq | ⟨chain, x, rfl, -, hbefore, hafter, hx⟩
    · rw [← heq] at hl
      exact .watched hl
    · rcases hx.follows (SysRun.sound run index) hl with hend | hl' | ⟨halive, hl'⟩ |
        ⟨w', he, hid, hl'⟩
      · exact .gone hend
      · exact .watched hl'
      · have hmem : SysEvent.tracker index x ∈ recent ++ [.tracker index x] :=
          List.mem_append_right _ (List.mem_singleton_self _)
        rw [← hafter] at halive hl'
        rw [← hbefore] at hl
        exact .removed ⟨x, hmem, halive, hl, hl'⟩
      · -- It is asked for again, with the same invoice.
        have hheading : s.Heading d index (.watchAccount w') := .waiting (hs.outcome.taken he)
        have hsent' : Sent g w' := hr.traced.heading index w' hheading
        obtain rfl := hr.agreed w' w hsent' hw hid
        exact .watched hl'

/-! ## What an answer means -/

/-- What the answer to a request says. -/
def Sys.Fate (d : Deployment lib) (s : Sys lib) (recent : List (SysEvent lib)) (w : WatchAccount) :
    Except ChainError Unit → Prop
  | .ok () => ∃ index, d.routes.route w.currency = .ok index ∧
      s.Follows recent index (Invoice.fromRequest w)
  | .error e => d.routes.route w.currency = .error e ∨ s.manager = .ended ∨
      ∃ index, d.routes.route w.currency = .ok index ∧ (s.trackers index).hasEnded = true

theorem SysStep.fate {orders : Orders} {h g recent : List (SysEvent lib)} {s s' : Sys lib}
    {e : SysEvent lib} (run : SysRunIf d allow h s) (hlife : ¬e.Restarts) (hs : SysStep d s e s')
    (hr : s.Registering d orders g) {w : WatchAccount} (hw : Sent g w)
    {result : Except ChainError Unit} (hf : s.Fate d recent w result) :
    s'.Fate d (recent ++ [e]) w result := by
  match result with
  | .ok () =>
    obtain ⟨index, hroute, hf⟩ := hf
    exact ⟨index, hroute, hs.follows run hlife hr hw hf⟩
  | .error _ =>
    rcases hf with hroute | hend | ⟨index, hroute, hend⟩
    · exact .inl hroute
    · exact .inr (.inl (hs.manager_over hlife hend))
    · exact .inr (.inr ⟨index, hroute, hs.tracker_over hlife hend⟩)

/-- How the answer to a task comes about in a step. -/
inductive Sys.Replies (d : Deployment lib) (s : Sys lib) (e : SysEvent lib) (r : Requester) :
    Except ChainError Unit → Prop
  | kept (result : Except ChainError Unit) (h : s.replies r = some result) :
      Sys.Replies d s e r result
  | refused (request : ChainRequest) (w : WatchAccount) (err : ChainError)
      (hmem : request ∈ s.manager_queue) (hw : request.account = some w) (hr : w.res = r)
      (hroute : d.routes.route w.currency = .error err) : Sys.Replies d s e r (.error err)
  | unserved (request : ChainRequest) (w : WatchAccount) (err : ChainError)
      (hmem : request ∈ s.manager_queue) (hw : request.account = some w) (hr : w.res = r)
      (hend : s.manager = .ended) : Sys.Replies d s e r (.error err)
  | unheard (index : ℕ) (request : ChainTrackerRequest) (w : WatchAccount) (err : ChainError)
      (hheading : s.Heading d index request) (hw : request.account = some w) (hr : w.res = r)
      (hend : (s.trackers index).hasEnded = true) : Sys.Replies d s e r (.error err)
  | begun (w : WatchAccount) (result : Except ChainError Unit) (hmem : w ∈ s.payouts)
      (hr : w.res = r) : Sys.Replies d s e r result
  | taken (index : ℕ) (x : Turn lib) (w : WatchAccount) (he : e = .tracker index x)
      (hx : x.event = .received (.watchAccount w)) (hr : w.res = r) : Sys.Replies d s e r (.ok ())

/-- An answer was there before, or is for the one who has been answered. -/
theorem Sys.answer_replies {s : Sys lib} {res r : Requester} {told result : Except ChainError Unit}
    (h : (s.answer res told).replies r = some result) :
    s.replies r = some result ∨ res = r ∧ told = result := by
  by_cases hr : r = res
  · subst hr
    exact .inr ⟨rfl, by simpa [answer] using h⟩
  · exact .inl (by simpa [answer, hr] using h)

theorem Sys.drop_replies {s : Sys lib} {request : ChainTrackerRequest} {r : Requester}
    {result : Except ChainError Unit} (h : (s.drop request).replies r = some result) :
    s.replies r = some result ∨ ∃ w, request.account = some w ∧ w.res = r ∧
      result = .error .messageDropped := by
  cases request with
  | watchAccount w | reap w =>
    rcases Sys.answer_replies h with h | ⟨hr, rfl⟩
    · exact .inl h
    · exact .inr ⟨w, rfl, hr, rfl⟩
  | newBlock | shutdown => exact .inl h

/-- Every way in which an answer comes about. -/
theorem Outcome.replies {s s' : Sys lib} {e : SysEvent lib} (h : Outcome d s e s')
    {r : Requester} {result : Except ChainError Unit} (hreply : s'.replies r = some result) :
    s.Replies d e r result := by
  have htaken : ∀ res, Function.update s.replies res none r = some result →
      s.replies r = some result := by
    intro res hnone
    by_cases hr : r = res
    · subst hr
      simp at hnone
    · simpa [hr] using hnone
  cases h with
  | restarted => cases hreply
  | handlerAnswered => exact .kept _ (htaken _ hreply)
  | restoreAnswered => exact .kept _ (htaken _ hreply)
  | payoutBegun request hmem =>
    rcases Sys.answer_replies hreply with hreply | ⟨hr, -⟩
    · exact .kept _ hreply
    · exact .begun request _ hmem hr
  | droppedTracker index request rest hend hqueue =>
    rcases Sys.drop_replies hreply with hreply | ⟨w, hw, hr, rfl⟩
    · exact .kept _ hreply
    · have hmem : request ∈ s.tracker_queue index := by
        rw [hqueue]
        exact List.mem_cons_self
      exact .unheard index request w _ (.waiting hmem) hw hr hend
  | refused request rest account forward err hpc hqueue hreq hroute =>
    rcases Sys.answer_replies hreply with hreply | ⟨hr, rfl⟩
    · exact .kept _ hreply
    · have hmem : request ∈ s.manager_queue := by
        rw [hqueue]
        exact List.mem_cons_self
      exact .refused request account err hmem (account_of_forTracker hreq).1 hr hroute
  | lost index request hpc hend =>
    rcases Sys.drop_replies hreply with hreply | ⟨w, hw, hr, rfl⟩
    · exact .kept _ hreply
    · exact .unheard index request w _ (.forwarding hpc) hw hr hend
  | dropped account request forward rest hpc hqueue hreq =>
    rcases Sys.answer_replies hreply with hreply | ⟨hr, rfl⟩
    · exact .kept _ hreply
    · have hmem : request ∈ s.manager_queue := by
        rw [hqueue]
        exact List.mem_cons_self
      exact .unserved request account _ hmem (account_of_forTracker hreq).1 hr hpc
  | took index request rest _ _ he =>
    cases request with
    | watchAccount w =>
      rcases Sys.answer_replies hreply with hreply | ⟨hr, rfl⟩
      · exact .kept _ hreply
      · exact .taken index _ w rfl he hr
    | reap | newBlock | shutdown => exact .kept _ hreply
  | _ => exact .kept _ hreply

/-! ## Which request an answer is for -/

/-- The task has just asked for the account to be watched. -/
def Sys.Asks (s : Sys lib) (w : WatchAccount) : Requester → Prop
  | .stateHandler => ∃ phase said program, s.store.handler.pc =
      .busy phase (said ++ [⟨.send (.watchAccount w), true⟩]) program
  | .restore => ∃ said program,
      s.restore = some (said ++ [⟨.send (.watchAccount w), true⟩], program)

/-- The task has asked for the account to be watched, and was answered. -/
def Sys.Answered (s : Sys lib) (w : WatchAccount) (result : Except ChainError Unit) :
    Requester → Prop
  | .stateHandler => ∃ phase before after program, s.store.handler.pc =
      .busy phase (before ++ [⟨.send (.watchAccount w), true⟩, ⟨.await, result⟩] ++ after) program
  | .restore => ∃ before after program, s.restore =
      some (before ++ [⟨.send (.watchAccount w), true⟩, ⟨.await, result⟩] ++ after, program)

/-- **Of the requests of the task this one is the only one**, and its answer is true. -/
structure Sys.Asked (d : Deployment lib) (s : Sys lib) (g recent : List (SysEvent lib))
    (w : WatchAccount) (r : Requester) : Prop where
  sent : Sent g w
  queued : ∀ request ∈ s.manager_queue, ∀ w', request.account = some w' → w'.res = r →
    request = .watchAccount w
  heading : ∀ index request w', s.Heading d index request → request.account = some w' →
    w'.res = r → request = .watchAccount w
  payouts : ∀ w' ∈ s.payouts, w'.res ≠ r
  answered : ∀ result, s.replies r = some result → s.Fate d recent w result

theorem Sys.Asks.awaits {h : List (SysEvent lib)} {s : Sys lib} (run : SysRunIf d allow h s)
    {w : WatchAccount} {r : Requester} (ha : s.Asks w r) : s.Awaits r := by
  cases r with
  | stateHandler =>
    obtain ⟨phase, said, program, hpc⟩ := ha
    obtain ⟨_, _, _, -, -, hsound⟩ := SysRun.handler_sound run
    exact (hsound.awaits_iff hpc).mpr (by simp [expecting, ChainRequest.account])
  | restore =>
    obtain ⟨said, program, hp⟩ := ha
    exact SysRun.restore_awaits run hp (by simp [asking, ChainRequest.account])

/-- What is said to the restoring task in a step. -/
theorem Outcome.restore_snoc {s s' : Sys lib} {e : SysEvent lib} (h : Outcome d s e s')
    {said : Trace RestoreSig} {program : Prog RestoreSig Unit}
    (hp : s'.restore = some (said, program)) (hne : said ≠ []) :
    s.restore = some (said, program) ∨ ∃ said₀ exchange program₀, said = said₀ ++ [exchange] ∧
      e = .restore exchange ∧ s.restore = some (said₀, program₀) := by
  cases h with
  | spawned =>
    obtain ⟨rfl, -⟩ := Prod.mk.inj (Option.some.inj hp)
    exact absurd rfl hne
  | restoreSent _ _ hp₀ | restoreAnswered _ hp₀ =>
    obtain ⟨rfl, -⟩ := Prod.mk.inj (Option.some.inj hp)
    exact .inr ⟨_, _, _, rfl, rfl, hp₀⟩
  | restarted => cases hp
  | droppedTracker | lost | took => exact .inl (by simpa using hp)
  | _ => exact .inl hp

/-- An answer that is taken was there. -/
theorem Outcome.replied {s s' : Sys lib} {x : DaemonTurn} {result : Except ChainError Unit}
    (h : Outcome d s (.daemon x) s') (hx : x.event = .handler (.said ⟨.await, result⟩)) :
    s.replies .stateHandler = some result := by
  cases h with
  | handler e _ he hquiet =>
    obtain rfl := DaemonEvent.handler.inj (hx.symm.trans he)
    exact hquiet.elim
  | handlerAnswered result' _ he hreply =>
    obtain ⟨⟩ := hx.symm.trans he
    exact hreply
  | spawned _ _ he | handlerSent _ _ he | databaseShutDown _ he | received _ _ _ he =>
    cases hx.symm.trans he
  | restarted => cases hx

section Steps

variable {h g : List (SysEvent lib)} {s s' : Sys lib} {e : SysEvent lib} {w : WatchAccount}
  {r : Requester}

/-- A task that has just asked had done so before, or does so in the step. -/
theorem SysStep.asks (run : SysRunIf d allow h s) (hallow : allow h s e) (hs : SysStep d s e s')
    (ha : s'.Asks w r) : s.Asks w r ∨ e.Sends (.watchAccount w) ∧ w.res = r := by
  cases r with
  | stateHandler =>
    obtain ⟨phase, said, program, hpc⟩ := ha
    rcases hs.outcome.store with ⟨x, rfl, hx⟩ | ⟨-, heq⟩
    · obtain ⟨said₀, exchange, _, hsaid, he, -⟩ := hx.said_snoc hpc (by simp)
      obtain ⟨-, rfl⟩ := List.append_singleton_inj.mp hsaid
      obtain ⟨hres, -⟩ := handler_sends run hallow hs he rfl
      exact .inr ⟨.inl ⟨x, rfl, he⟩, hres⟩
    · rw [heq] at hpc
      exact .inl ⟨phase, said, program, hpc⟩
  | restore =>
    obtain ⟨said, program, hp⟩ := ha
    rcases hs.outcome.restore_snoc hp (by simp) with hp | ⟨said₀, exchange, _, hsaid, rfl, -⟩
    · exact .inl ⟨said, program, hp⟩
    · obtain ⟨-, rfl⟩ := List.append_singleton_inj.mp hsaid
      obtain ⟨⟨w', hreq, hres⟩, -⟩ := restore_sends run hallow hs
      obtain rfl := ChainRequest.watchAccount.inj hreq
      exact .inr ⟨.inr rfl, hres⟩

/-- A task that was answered had been before, or takes the answer that is there for it. -/
theorem SysStep.answered {result : Except ChainError Unit} (hs : SysStep d s e s')
    (ha : s'.Answered w result r) :
    s.Answered w result r ∨ s.Asks w r ∧ s.replies r = some result := by
  cases r with
  | stateHandler =>
    obtain ⟨phase, before, after, program, hpc⟩ := ha
    rcases hs.outcome.store with ⟨x, rfl, hx⟩ | ⟨-, heq⟩
    swap
    · rw [heq] at hpc
      exact .inl ⟨phase, before, after, program, hpc⟩
    obtain ⟨said₀, exchange, program₀, hsaid, he, hpc₀⟩ := hx.said_snoc hpc (by simp)
    rcases List.eq_nil_or_concat after with rfl | ⟨after, last, rfl⟩
    · have hcons : before ++ [⟨.send (.watchAccount w), true⟩] ++ [⟨.await, result⟩] =
          said₀ ++ [exchange] := by
        rw [← hsaid]
        simp
      obtain ⟨rfl, rfl⟩ := List.append_singleton_inj.mp hcons
      exact .inr ⟨⟨phase, before, program₀, hpc₀⟩, hs.outcome.replied he⟩
    · rw [List.concat_eq_append, ← List.append_assoc] at hsaid
      obtain ⟨rfl, -⟩ := List.append_singleton_inj.mp hsaid
      exact .inl ⟨phase, before, after, program₀, hpc₀⟩
  | restore =>
    obtain ⟨before, after, program, hp⟩ := ha
    rcases hs.outcome.restore_snoc hp (by simp) with
      hp | ⟨said₀, exchange, program₀, hsaid, rfl, hp₀⟩
    · exact .inl ⟨before, after, program, hp⟩
    rcases List.eq_nil_or_concat after with rfl | ⟨after, last, rfl⟩
    · have hcons : before ++ [⟨.send (.watchAccount w), true⟩] ++ [⟨.await, result⟩] =
          said₀ ++ [exchange] := by
        rw [← hsaid]
        simp
      obtain ⟨rfl, rfl⟩ := List.append_singleton_inj.mp hcons
      refine .inr ⟨⟨before, program₀, hp₀⟩, ?_⟩
      have houtcome := hs.outcome
      cases houtcome with
      | restoreAnswered _ _ hreply => exact hreply
    · rw [List.concat_eq_append, ← List.append_assoc] at hsaid
      obtain ⟨rfl, -⟩ := List.append_singleton_inj.mp hsaid
      exact .inl ⟨before, after, program₀, hp₀⟩

/-- A step that sends a request counts. -/
theorem SysEvent.Sends.ne_zero {request : ChainRequest} (hsends : e.Sends request)
    (hw : request.account = some w) (hr : w.res = r) : e.sends r ≠ 0 := by
  have hasks : (asks r request.account).toNat = 1 := by simp [asks, hw, hr]
  rcases hsends with ⟨x, rfl, he⟩ | rfl
  · rw [sends_daemon r he, hasks]
    exact one_ne_zero
  · show (asks r request.account).toNat ≠ 0
    rw [hasks]
    exact one_ne_zero

/-- What is in the channel of the manager was there before, or has just been sent. -/
theorem Outcome.manager_queue (ho : Outcome d s e s') {request : ChainRequest}
    (hmem : request ∈ s'.manager_queue) : request ∈ s.manager_queue ∨ e.Sends request := by
  cases ho with
  | handlerSent request' _ he =>
    rcases List.mem_append.mp hmem with hmem | hmem
    · exact .inl hmem
    · obtain rfl := List.mem_singleton.mp hmem
      exact .inr (.inl ⟨_, rfl, he⟩)
  | restoreSent request' taken =>
    cases taken with
    | false => exact .inl hmem
    | true =>
      rcases List.mem_append.mp hmem with hmem | hmem
      · exact .inl hmem
      · obtain rfl := List.mem_singleton.mp hmem
        exact .inr (.inr rfl)
  | refused _ rest _ _ _ _ hqueue | routed _ rest _ _ _ _ hqueue | winding _ rest _ hqueue
  | dropped _ _ _ rest _ hqueue | droppedShutdown rest _ hqueue =>
    refine .inl ?_
    rw [hqueue]
    exact List.mem_cons_of_mem _ hmem
  | restarted => cases hmem
  | droppedTracker | lost | took => exact .inl (by simpa using hmem)
  | _ => exact .inl hmem

/-- A payout was there before, or has just been taken by a tracker. -/
theorem Outcome.payouts (ho : Outcome d s e s') (hmem : w ∈ s'.payouts) :
    w ∈ s.payouts ∨ ∃ index, s.Heading d index (.reap w) := by
  cases ho with
  | payoutBegun request => exact .inl (List.mem_of_mem_erase hmem)
  | restarted => cases hmem
  | droppedTracker | lost => exact .inl (by simpa using hmem)
  | took index request rest _ _ he hqueue =>
    cases request with
    | reap w' =>
      rcases List.mem_append.mp hmem with hmem | hmem
      · exact .inl hmem
      · obtain rfl := List.mem_singleton.mp hmem
        refine .inr ⟨index, .waiting ?_⟩
        rw [hqueue]
        exact List.mem_cons_self
    | watchAccount | newBlock | shutdown => exact .inl hmem
  | _ => exact .inl hmem

/-- A task with no request on its way has none in the places where one may be. -/
theorem Sys.calls_eq_zero (hzero : ∀ n, s.calls n r = 0) :
    (∀ request ∈ s.manager_queue, ∀ w, request.account = some w → w.res ≠ r) ∧
      (∀ w ∈ s.payouts, w.res ≠ r) ∧ s.replies r = none := by
  have hparts := hzero 0
  simp only [Sys.calls, Nat.add_eq_zero_iff, List.countP_eq_zero] at hparts
  obtain ⟨⟨⟨⟨hqueue, -⟩, -⟩, hpayouts⟩, hreplies⟩ := hparts
  refine ⟨fun request hmem w hw hr => hqueue request hmem ?_, fun w hmem hr => hpayouts w hmem ?_,
    ?_⟩
  · simp [asks, hw, hr]
  · simp [asks, hr]
  · cases hreply : s.replies r with
    | none => rfl
    | some result =>
      rw [hreply] at hreplies
      cases hreplies

/-- A request that a tracker takes is watched. -/
theorem TrackerStep.watches {chain : Chain} {t t' : Tracker lib}
    (hs : TrackerStep chain t (.received (.watchAccount w)) t') :
    t'.watched_accounts.lookup w.id = some (Invoice.fromRequest w) := by
  cases hs with
  | received => rw [Tracker.receive, AList.lookup_insert]

/-- A task that asks for an account to be watched has no other request on its way. -/
theorem SysStep.asked_new (run : SysRunIf d allow h s) (hallow : allow h s e)
    (hs : SysStep d s e s') (hsends : e.Sends (.watchAccount w)) (hr : w.res = r)
    (recent : List (SysEvent lib)) : s'.Asked d (g ++ [e]) recent w r := by
  obtain ⟨hidle, -, -⟩ := hs.sends run hallow (hsends.ne_zero rfl hr)
  have hone := SysRun.oneCall run
  obtain ⟨hqueue, hpayouts, hreplies⟩ := Sys.calls_eq_zero (hone.idle r hidle)
  have hheading : ∀ index request w', s.Heading d index request → request.account = some w' →
      w'.res ≠ r := by
    rintro index request w' hw' ha rfl
    exact hidle (hone.awaits hw' ha).1
  refine ⟨⟨e, List.mem_append_right _ (List.mem_singleton_self _), hsends⟩, ?_, ?_, ?_, ?_⟩
  · intro request hmem w' hw' hr'
    rcases hs.outcome.manager_queue hmem with hmem | hsends'
    · exact absurd hr' (hqueue request hmem w' hw')
    · exact sends_unique hsends' hsends
  · intro index request w' hw' ha hr'
    rcases hs.outcome.heading_before hw' (by rw [ha]; rfl) with hw' |
      ⟨request', account, hsends', hreq, -⟩
    · exact absurd hr' (hheading index request w' hw' ha)
    · obtain rfl := sends_unique hsends' hsends
      exact (Prod.mk.inj (Option.some.inj hreq)).2.symm
  · intro w' hmem hr'
    rcases hs.outcome.payouts hmem with hmem | ⟨index, hreap⟩
    · exact hpayouts w' hmem hr'
    · exact hheading index _ w' hreap rfl hr'
  · intro result hreply
    cases hs.outcome.replies hreply with
    | kept _ hkept => cases hreplies.symm.trans hkept
    | refused request w' _ hmem hw' hr' | unserved request w' _ hmem hw' hr' =>
      exact absurd hr' (hqueue request hmem w' hw')
    | unheard index request w' _ hw' ha hr' => exact absurd hr' (hheading index request w' hw' ha)
    | begun w' _ hmem hr' => exact absurd hr' (hpayouts w' hmem)
    | taken index x w' he hx hr' =>
      subst he
      exact absurd hr' (hheading index _ w' (.waiting (hs.outcome.taken hx)) rfl)

/-- It remains the only one until it is answered. -/
theorem SysStep.asked_kept {orders : Orders} {recent : List (SysEvent lib)}
    (run : SysRunIf d allow h s) (hallow : allow h s e) (hlife : ¬e.Restarts)
    (hs : SysStep d s e s') (hreg : s.Registering d orders g) (ha : s.Asks w r)
    (hasked : s.Asked d g recent w r) : s'.Asked d (g ++ [e]) (recent ++ [e]) w r := by
  have hsilent : ∀ request w', e.Sends request → request.account = some w' → w'.res ≠ r := by
    intro request w' hsends hw' hr
    exact (hs.sends run hallow (hsends.ne_zero hw' hr)).1 (ha.awaits run)
  refine ⟨hasked.sent.append _, ?_, ?_, ?_, ?_⟩
  · intro request hmem w' hw' hr
    rcases hs.outcome.manager_queue hmem with hmem | hsends
    · exact hasked.queued request hmem w' hw' hr
    · exact absurd hr (hsilent request w' hsends hw')
  · intro index request w' hw' haccount hr
    rcases hs.outcome.heading_before hw' (by rw [haccount]; rfl) with hw' |
      ⟨request', account, hsends, hreq, -⟩
    · exact hasked.heading index request w' hw' haccount hr
    · obtain ⟨hrequest', haccount'⟩ := account_of_forTracker hreq
      obtain rfl := Option.some.inj (haccount.symm.trans haccount')
      exact absurd hr (hsilent request' w' hsends hrequest')
  · intro w' hmem hr
    rcases hs.outcome.payouts hmem with hmem | ⟨index, hreap⟩
    · exact hasked.payouts w' hmem hr
    · cases hasked.heading index _ w' hreap rfl hr
  · intro result hreply
    cases hs.outcome.replies hreply with
    | kept _ hkept => exact hs.fate run hlife hreg hasked.sent (hasked.answered result hkept)
    | refused request w' _ hmem hw' hr hroute =>
      obtain rfl := hasked.queued request hmem w' hw' hr
      obtain rfl := Option.some.inj hw'
      exact .inl hroute
    | unserved _ _ _ _ _ _ hend => exact .inr (.inl (hs.manager_over hlife hend))
    | unheard index request w' _ hw' haccount hr hend =>
      obtain rfl := hasked.heading index request w' hw' haccount hr
      obtain rfl := Option.some.inj haccount
      have hroute : d.routes.route w.currency = .ok index := hreg.traced.routed index _ w hw' rfl
      exact .inr (.inr ⟨index, hroute, hs.tracker_over hlife hend⟩)
    | begun w' _ hmem hr => exact absurd hr (hasked.payouts w' hmem)
    | taken index x w' he hx hr =>
      subst he
      have hw' : s.Heading d index (.watchAccount w') := .waiting (hs.outcome.taken hx)
      obtain rfl := ChainTrackerRequest.watchAccount.inj (hasked.heading index _ w' hw' rfl hr)
      obtain ⟨chain, -, -, -, hstep⟩ := hs.outcome.turn
      rw [hx] at hstep
      exact ⟨index, hreg.traced.routed index _ w' hw' rfl, .watched hstep.watches⟩

end Steps

/-! ## Every run -/

/-- The handler takes a request. -/
def SysEvent.opensCall : SysEvent lib → Bool
  | .daemon ⟨_, .handler (.received _), _⟩ => true
  | _ => false

/-- What has happened since the handler took the request that it serves. -/
def sinceCall (h : List (SysEvent lib)) : List (SysEvent lib) :=
  h.rtakeWhile fun e => !e.opensCall

/-- What has happened in the time that concerns a task: for the handler, since it took a request,
and for the task that restores the orders, since the start. -/
def Requester.recent (h : List (SysEvent lib)) : Requester → List (SysEvent lib)
  | .stateHandler => sinceCall h
  | .restore => sinceStart h

/-- **What the answers mean.** -/
structure Sys.Pursued (d : Deployment lib) (h : List (SysEvent lib)) (s : Sys lib) : Prop where
  asked : ∀ w r, s.Asks w r → s.Asked d (sinceStart h) (r.recent h) w r
  answered : ∀ w result r, s.Answered w result r →
    Sent (sinceStart h) w ∧ s.Fate d (r.recent h) w result

/-- In the middle of a request the handler does not take another. -/
theorem SysStep.recent_append {h : List (SysEvent lib)} {s s' : Sys lib} {e : SysEvent lib}
    (hs : SysStep d s e s') (hlife : ¬e.Restarts) {r : Requester} (hbusy : r = .stateHandler →
      ∃ phase said program, s'.store.handler.pc = .busy phase said program ∧ said ≠ []) :
    r.recent (h ++ [e]) = r.recent h ++ [e] := by
  cases r with
  | restore => exact sinceStart_append hlife
  | stateHandler =>
    have hopens : e.opensCall = false := by
      obtain ⟨phase, said, program, hpc, hne⟩ := hbusy rfl
      rcases hs.outcome.store with ⟨⟨before, event, after⟩, rfl, hx⟩ | ⟨he, -⟩
      · obtain ⟨_, exchange, _, -, rfl, -⟩ := hx.said_snoc hpc hne
        rfl
      · cases e with
        | daemon x => cases he
        | outside | restore | manager | tracker => rfl
    exact List.rtakeWhile_concat_pos _ _ _ (by simp [hopens])

theorem Sys.pursued_start (orders : Orders) (h : List (SysEvent lib)) :
    (Sys.start d orders).Pursued d h where
  asked := by
    intro w r ha
    cases r with
    | stateHandler =>
      obtain ⟨_, said, _, hpc⟩ := ha
      obtain ⟨-, hnil, -⟩ := HandlerPc.busy.inj hpc
      simp at hnil
    | restore =>
      obtain ⟨_, _, hp⟩ := ha
      cases hp
  answered := by
    intro w result r ha
    cases r with
    | stateHandler =>
      obtain ⟨_, before, after, _, hpc⟩ := ha
      obtain ⟨-, hnil, -⟩ := HandlerPc.busy.inj hpc
      simp at hnil
    | restore =>
      obtain ⟨_, _, _, hp⟩ := ha
      cases hp

theorem SysStep.pursued {orders : Orders} {h : List (SysEvent lib)} {s s' : Sys lib}
    {e : SysEvent lib} (run : SysRunIf d allow h s) (hallow : allow h s e) (hlife : ¬e.Restarts)
    (hs : SysStep d s e s') (hreg : s.Registering d orders (sinceStart h)) (hp : s.Pursued d h) :
    s'.Pursued d (h ++ [e]) where
  asked := by
    intro w r ha
    rw [sinceStart_append hlife]
    rcases hs.asks run hallow ha with hbefore | ⟨hsends, hr⟩
    · rw [hs.recent_append hlife]
      · exact hs.asked_kept run hallow hlife hreg hbefore (hp.asked w r hbefore)
      · rintro rfl
        obtain ⟨phase, said, program, hpc⟩ := ha
        exact ⟨phase, _, program, hpc, by simp⟩
    · exact hs.asked_new run hallow hsends hr _
  answered := by
    intro w result r ha
    have hbefore : Sent (sinceStart h) w ∧ s.Fate d (r.recent h) w result := by
      rcases hs.answered ha with hanswered | ⟨hasks, hreply⟩
      · exact hp.answered w result r hanswered
      · have hasked := hp.asked w r hasks
        exact ⟨hasked.sent, hasked.answered result hreply⟩
    rw [sinceStart_append hlife, hs.recent_append hlife]
    · exact ⟨hbefore.1.append _, hs.fate run hlife hreg hbefore.1 hbefore.2⟩
    · rintro rfl
      obtain ⟨phase, before, after, program, hpc⟩ := ha
      exact ⟨phase, _, program, hpc, by simp⟩

/-- **What was asked for, and what the answers mean**, since the last start of any run. -/
theorem SysRun.pursued {h : List (SysEvent lib)} {s : Sys lib} (run : SysRunIf d allow h s) :
    ∃ orders, Begins h orders ∧ s.Registering d orders (sinceStart h) ∧ s.Pursued d h := by
  refine SysRun.lifetime
    (P := fun orders h s => s.Registering d orders (sinceStart h) ∧ s.Pursued d h)
    (fun orders h hstart => ?_) ?_ run
  · rw [hstart]
    exact ⟨Sys.registering_start orders, Sys.pursued_start orders h⟩
  · rintro orders h s e s' run ⟨hreg, hp⟩ hallow hlife hs
    refine ⟨?_, hs.pursued run hallow hlife hreg hp⟩
    rw [sinceStart_append hlife]
    exact hs.registering run hallow hlife hreg

end Kalatori
