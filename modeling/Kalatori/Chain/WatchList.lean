import Kalatori.Chain.TrackerJobs
import Kalatori.Lib.Transition

/-!
# When the watch list forgets an invoice

A run of a tracker is a list of turns, each a step with the states before and
after it.  `Turn.Lawful` is the law of the watch list: an invoice leaves it only
after a check that found it paid and was reported, or after its death; and once
its death is past, an invoice that a check of a block found unpaid does leave it.

The comparison of the death of an invoice with the clock is the wrong way
around, so what the second check of a block removes without a payment are the
invoices that have not expired.  `turns_lawful_iff` makes this exact: a run obeys
the law exactly when in no pass over the watch list after a block the last check
of an invoice finds too small a balance, unless the check before it did not.
-/

namespace Kalatori

open Program Transition

variable {lib : Libraries} {chain : Chain}

/-! ## What holds of a tracker in every run -/

/-- The watch list is in order, and the program that runs was started on it. -/
structure Tracker.Sound (t : Tracker lib) : Prop where
  keyed : WellKeyed t.watched_accounts
  busy : ∀ said job, t.pc = .busy said job →
    Prog.Holds (MayDo t.watched_accounts)
      (fun said result => ∃ now?, Settled now? t.watched_accounts said result) said job

theorem wellKeyed_empty : WellKeyed ∅ := fun id invoice h => by
  rw [AList.lookup_empty] at h
  cases h

theorem WellKeyed.insert {watched_accounts : WatchedAccounts} (h : WellKeyed watched_accounts)
    (request : WatchAccount) :
    WellKeyed (watched_accounts.insert request.id (Invoice.fromRequest request)) := by
  intro id invoice hl
  by_cases hid : id = request.id
  · subst hid
    rw [AList.lookup_insert] at hl
    obtain rfl := Option.some.inj hl
    rfl
  · rw [AList.lookup_insert_ne hid] at hl
    exact h id invoice hl

theorem WellKeyed.visited {now? : Option Timestamp}
    {watched_accounts watched_accounts' : WatchedAccounts} {said : Trace (TrackerSig lib)}
    (h : WellKeyed watched_accounts) (hv : Visited now? watched_accounts said watched_accounts') :
    WellKeyed watched_accounts' := by
  intro id invoice hl
  cases hl₀ : watched_accounts.lookup id with
  | none =>
    rw [(hv.absent id hl₀).1] at hl
    cases hl
  | some invoice₀ =>
    by_cases hd : Drops now? invoice₀ (verdicts id said)
    · rw [hv.dropped id invoice₀ hl₀ hd] at hl
      cases hl
    · rw [hv.kept id invoice₀ hl₀ hd] at hl
      obtain rfl := Option.some.inj hl
      exact h id invoice₀ hl₀

theorem Tracker.sound_start : (Tracker.start : Tracker lib).Sound where
  keyed := wellKeyed_empty
  busy := nofun

theorem TrackerStep.sound {t t' : Tracker lib} {e : TrackerEvent lib}
    (hs : TrackerStep chain t e t') (h : t.Sound) : t'.Sound := by
  cases hs with
  | stopped => exact ⟨wellKeyed_empty, nofun⟩
  | turned endpoint =>
    refine ⟨h.keyed, ?_⟩
    rintro said job ⟨⟩
    exact (connect_spec h.keyed chain endpoint).mono (fun _ _ h => h) fun _ _ h => ⟨none, h.1⟩
  | said answer hpc =>
    refine ⟨h.keyed, ?_⟩
    rintro said job ⟨⟩
    exact (h.busy _ _ hpc).2 answer
  | @settled said result hpc =>
    obtain ⟨now?, hsettled⟩ := h.busy _ _ hpc
    match result with
    | .error _ => exact ⟨wellKeyed_empty, nofun⟩
    | .ok (.rotate _) =>
      obtain ⟨rfl, -⟩ := hsettled
      exact ⟨h.keyed, nofun⟩
    | .ok (.serve _ _) => exact ⟨h.keyed.visited hsettled, nofun⟩
  | @received watcher request hpc =>
    match request with
    | .newBlock number =>
      refine ⟨h.keyed, ?_⟩
      rintro said job ⟨⟩
      exact (newBlock_spec h.keyed watcher number).mono (fun _ _ h => h)
        fun _ _ ⟨now?, _, h⟩ => ⟨now?, h⟩
    | .watchAccount request =>
      exact ⟨h.keyed.insert request, fun said job hbusy => nomatch hpc.symm.trans hbusy⟩
    | .reap _ => exact h
    | .shutdown => exact ⟨h.keyed, nofun⟩
  | timedOut => exact ⟨h.keyed, nofun⟩

/-! ## The law -/

/-- A step with the states before and after it. -/
structure Turn (lib : Libraries) where
  before : Tracker lib
  event : TrackerEvent lib
  after : Tracker lib

/-- The steps of a tracker, recorded. -/
def TurnStep (chain : Chain) (t : Tracker lib) (x : Turn lib) (t' : Tracker lib) : Prop :=
  x.before = t ∧ x.after = t' ∧ TrackerStep chain t x.event t'

/-- A run of a tracker. -/
abbrev TrackerRun (lib : Libraries) (chain : Chain) : List (Turn lib) → Tracker lib → Prop :=
  Reach (TurnStep chain) always (· = .start)

theorem TrackerRun.sound {h : List (Turn lib)} {t : Tracker lib} (run : TrackerRun lib chain h t) :
    t.Sound :=
  run.invariant (P := fun _ t => t.Sound) (fun _ h => h ▸ Tracker.sound_start)
    fun _ _ _ _ _ hsound _ hs => hs.2.2.sound hsound

/-- **The law of the watch list.**  It is about the steps after which there still is a watch
list. -/
structure Turn.Lawful (x : Turn lib) : Prop where
  /-- An invoice leaves after a check that found it paid, and that was reported, or after its
  death. -/
  leaves : x.after.Alive → ∀ id invoice, x.before.watched_accounts.lookup id = some invoice →
    x.after.watched_accounts.lookup id = none →
    ∃ said, x.event = .settled said ∧
      (some true ∈ verdicts id said ∧ Told said id ∨ ∃ now ∈ clock said, invoice.death < now)
  /-- After its death, an invoice leaves with the block at which it was found unpaid. -/
  expires : x.after.Alive → ∀ said, x.event = .settled said → ∀ id invoice now,
    x.before.watched_accounts.lookup id = some invoice → now ∈ clock said →
    invoice.death < now → some false ∈ verdicts id said → some true ∉ verdicts id said →
    x.after.watched_accounts.lookup id = none

/-- **No invoice is last found unpaid.**  If a pass over the watch list after a block comes to
its end, an invoice whose last check found too small a balance was found paid by the check
before. -/
def Turn.LastPaid (x : Turn lib) : Prop :=
  ∀ said, x.event = .settled said → ¬SaidPanic said → clock said ≠ [] →
    ∀ id invoice, x.before.watched_accounts.lookup id = some invoice →
      (verdicts id said).getLast? = some (some false) → some true ∈ verdicts id said

/-! ## When a run obeys it -/

/-- A step that shows no pass over the watch list keeps every invoice. -/
theorem TrackerStep.isSome_lookup {t t' : Tracker lib} {e : TrackerEvent lib}
    (hs : TrackerStep chain t e t') (he : ∀ said, e ≠ .settled said) (halive : t'.Alive)
    (id : String) (hl : (t.watched_accounts.lookup id).isSome) :
    (t'.watched_accounts.lookup id).isSome := by
  cases hs with
  | stopped => exact absurd rfl (halive _)
  | turned | said | timedOut => exact hl
  | settled => exact absurd rfl (he _)
  | received request =>
    match request with
    | .newBlock _ | .reap _ | .shutdown => exact hl
    | .watchAccount request =>
      by_cases hid : id = request.id
      · subst hid
        simp [Tracker.receive]
      · simpa [Tracker.receive, AList.lookup_insert_ne hid] using hl

/-- An invoice leaves the watch list when it was reported, or when its last check found it
unpaid. -/
theorem TrackerStep.skips {t t' : Tracker lib} {e : TrackerEvent lib}
    (hs : TrackerStep chain t e t') (hsound : t.Sound) (halive : t'.Alive) (id : String)
    (invoice : Invoice) (hl : t.watched_accounts.lookup id = some invoice)
    (hl' : t'.watched_accounts.lookup id = none) : ∃ said, e = .settled said ∧
      (Told said id ∨ (verdicts id said).getLast? = some (some false)) := by
  by_cases he : ∃ said, e = .settled said
  swap
  · have hsome := hs.isSome_lookup (fun said hsaid => he ⟨said, hsaid⟩) halive id (by rw [hl]; rfl)
    rw [hl'] at hsome
    cases hsome
  obtain ⟨said, rfl⟩ := he
  refine ⟨said, rfl, ?_⟩
  cases hs with
  | @settled _ result hpc =>
    obtain ⟨now?, hsettled⟩ := hsound.busy _ _ hpc
    match result with
    | .error _ => exact absurd rfl (halive _)
    | .ok (.rotate _) =>
      rw [show _ = _ from hsettled.1] at hl'
      cases hl.symm.trans hl'
    | .ok (.serve _ _) =>
      by_cases hd : Drops now? invoice (verdicts id said)
      · rcases hd with hpaid | ⟨now, -, -, hlast⟩
        · exact .inl (hsettled.told id hpaid)
        · exact .inr hlast
      · cases (hsettled.kept id invoice hl hd).symm.trans hl'

theorem lawful_of_not_settled {x : Turn lib}
    (hs : TrackerStep chain x.before x.event x.after) (he : ∀ said, x.event ≠ .settled said) :
    x.Lawful where
  leaves := by
    intro halive id invoice hl hl'
    have hsome := hs.isSome_lookup he halive id (by rw [hl]; rfl)
    rw [hl'] at hsome
    cases hsome
  expires := fun _ said hsaid => absurd hsaid (he said)

/-- A pass over the watch list obeys the law exactly if nothing was last found unpaid. -/
theorem visited_lawful_iff {x : Turn lib} {said : Trace (TrackerSig lib)}
    {now? : Option Timestamp} (he : x.event = .settled said) (halive : x.after.Alive)
    (hv : Visited now? x.before.watched_accounts said x.after.watched_accounts) :
    x.Lawful ↔ x.LastPaid := by
  have hreading : ∀ now, now ∈ clock said ↔ now? = some now := fun now => by
    rw [hv.clock, Option.mem_toList]
  constructor
  · rintro hlaw said' hsaid' - hclock id invoice hl hlast
    obtain rfl : said' = said := by
      rw [he] at hsaid'
      injection hsaid' with hsaid'
      exact hsaid'.symm
    by_contra hpaid
    obtain ⟨now, hnow⟩ := List.exists_mem_of_ne_nil _ hclock
    have hnow? := (hreading now).mp hnow
    have hfalse : some false ∈ verdicts id said' := List.mem_of_getLast? hlast
    by_cases hdeath : invoice.death < now
    · -- It expired, and the pass keeps it.
      have hgone := hlaw.expires halive said' he id invoice now hl hnow hdeath hfalse hpaid
      have hkept := hv.kept id invoice hl fun hd => by
        rcases hd with hd | ⟨now', hnow', hle, -⟩
        · exact hpaid hd
        · obtain rfl := Option.some.inj (hnow?.symm.trans hnow')
          exact absurd hdeath (UInt64.not_lt.mpr hle)
      rw [hgone] at hkept
      cases hkept
    · -- It has not expired, and the pass removes it.
      have hgone := hv.dropped id invoice hl
        (.inr ⟨now, hnow?, UInt64.not_lt.mp hdeath, hlast⟩)
      obtain ⟨said, hsaid, ⟨hpaid', -⟩ | ⟨now', hnow', hdeath'⟩⟩ :=
        hlaw.leaves halive id invoice hl hgone
      · rw [he] at hsaid
        injection hsaid with hsaid
        exact hpaid (hsaid ▸ hpaid')
      · rw [he] at hsaid
        injection hsaid with hsaid
        obtain rfl := Option.some.inj (hnow?.symm.trans ((hreading now').mp (hsaid ▸ hnow')))
        exact hdeath hdeath'
  · intro hlast
    refine ⟨fun _ id invoice hl hl' => ⟨said, he, .inl ?_⟩, ?_⟩
    · suffices hpaid : some true ∈ verdicts id said from ⟨hpaid, hv.told id hpaid⟩
      have hd : Drops now? invoice (verdicts id said) := by
        by_contra hd
        rw [hv.kept id invoice hl hd] at hl'
        cases hl'
      rcases hd with hd | ⟨now, hnow?, -, hfalse⟩
      · exact hd
      · have hclock : clock said ≠ [] := List.ne_nil_of_mem ((hreading now).mpr hnow?)
        exact hlast said he hv.calm hclock id invoice hl hfalse
    · intro _ said' hsaid' id invoice now hl hnow hdeath hfalse hpaid
      obtain rfl : said' = said := by
        rw [he] at hsaid'
        injection hsaid' with hsaid'
        exact hsaid'.symm
      -- An expired invoice is checked at most once, so the answer is the last one.
      have hone := hv.single id invoice now hl ((hreading now).mp hnow) hdeath
      have hlast' : (verdicts id said').getLast? = some (some false) := by
        match hverdicts : verdicts id said', hone, hfalse with
        | [answer], _, hmem =>
          rw [List.mem_singleton.mp hmem]
          rfl
      exact absurd (hlast said' he hv.calm (List.ne_nil_of_mem hnow) id invoice hl hlast') hpaid

theorem turn_lawful_iff {x : Turn lib} (hs : TrackerStep chain x.before x.event x.after)
    (hsound : x.before.Sound) : x.Lawful ↔ x.LastPaid := by
  by_cases he : ∃ said, x.event = .settled said
  swap
  · have he' : ∀ said, x.event ≠ .settled said := fun said hsaid => he ⟨said, hsaid⟩
    exact iff_of_true (lawful_of_not_settled hs he') fun said hsaid => absurd hsaid (he' said)
  obtain ⟨said, he⟩ := he
  obtain ⟨before, event, after⟩ := x
  obtain rfl : event = .settled said := he
  replace hs : TrackerStep chain before (.settled said) after := hs
  replace hsound : before.Sound := hsound
  cases hs with
  | @settled _ result hpc =>
    obtain ⟨now?, hsettled⟩ := hsound.busy _ _ hpc
    match result with
    | .ok (.serve _ _) => exact visited_lawful_iff rfl nofun hsettled
    | .ok (.rotate _) =>
      obtain ⟨rfl, hclock⟩ := hsettled
      refine iff_of_true ⟨fun _ id invoice hl hl' => ?_, fun _ said hsaid id _ now _ hnow => ?_⟩
        fun said hsaid _ hclock' => ?_
      · exact nomatch hl.symm.trans hl'
      · injection hsaid with hsaid
        rw [← hsaid, hclock] at hnow
        cases hnow
      · injection hsaid with hsaid
        exact absurd (hsaid ▸ hclock) hclock'
    | .error .panicked =>
      refine iff_of_true ⟨fun halive => absurd rfl (halive _), fun halive => absurd rfl (halive _)⟩
        fun said hsaid hcalm => ?_
      injection hsaid with hsaid
      exact absurd (hsaid ▸ hsettled) hcalm
    | .error (.failed e) =>
      refine iff_of_true ⟨fun halive => absurd rfl (halive _), fun halive => absurd rfl (halive _)⟩
        fun said hsaid _ hclock' => ?_
      injection hsaid with hsaid
      exact absurd (hsaid ▸ hsettled.2) hclock'

/-- **A run obeys the law exactly when no invoice is last found unpaid.** -/
theorem turns_lawful_iff {h : List (Turn lib)} {t : Tracker lib} (run : TrackerRun lib chain h t) :
    (∀ x ∈ h, x.Lawful) ↔ ∀ x ∈ h, x.LastPaid := by
  refine forall₂_congr fun x hx => ?_
  obtain ⟨h₁, h₂, rfl⟩ := List.append_of_mem hx
  obtain ⟨t₁, t₂, run₁, -, hbefore, hafter, hs⟩ := run.split
  rw [← hbefore, ← hafter] at hs
  exact turn_lawful_iff hs (hbefore ▸ TrackerRun.sound run₁)

/-! ## Replaying a tracker -/

/-- What the surroundings of a tracker do next. -/
inductive TrackerAction (lib : Libraries)
  | stop (cancelled : Bool)
  | turn
  | answer (answers : ∀ o : TrackerOp lib, (TrackerSig lib).Answer o)
  | settle
  | receive (request : ChainTrackerRequest)
  | timeOut

/-- The tracker as a function of what its surroundings do. -/
def Tracker.exec (chain : Chain) (t : Tracker lib) :
    TrackerAction lib → Option (TrackerEvent lib × Tracker lib)
  | .stop cancelled =>
    match t.pc with
    | .rotate =>
      if t.shutdown ∨ cancelled ∨ chain.endpoint t.turn = none then
        some (.stopped cancelled, t.finish (.ok ()))
      else none
    | _ => none
  | .turn =>
    match t.pc, chain.endpoint t.turn with
    | .rotate, some endpoint =>
      if t.shutdown = false then
        some (.turned, { t with
          turn := t.turn + 1
          pc := .busy [] (connect chain t.watched_accounts endpoint).run })
      else none
    | _, _ => none
  | .answer answers =>
    match t.pc with
    | .busy said (.call o k) =>
      some (.said ⟨o, answers o⟩, { t with pc := .busy (said ++ [⟨o, answers o⟩]) (k (answers o)) })
    | _ => none
  | .settle =>
    match t.pc with
    | .busy said (.done result) => some (.settled said, t.settle result)
    | _ => none
  | .receive request =>
    match t.pc with
    | .serve watcher => some (.received request, t.receive watcher request)
    | _ => none
  | .timeOut =>
    match t.pc with
    | .serve _ => some (.timedOut, { t with pc := .rotate })
    | _ => none

theorem Tracker.exec_sound {t t' : Tracker lib} {a : TrackerAction lib} {e : TrackerEvent lib}
    (h : t.exec chain a = some (e, t')) : TrackerStep chain t e t' := by
  cases a with
  | stop cancelled =>
    simp only [exec] at h
    split at h
    · rename_i hpc
      split_ifs at h with hs
      obtain ⟨rfl, rfl⟩ := Prod.mk.inj (Option.some.inj h)
      exact .stopped cancelled hpc hs
    · cases h
  | turn =>
    simp only [exec] at h
    split at h
    · rename_i endpoint hpc he
      split_ifs at h with hs
      obtain ⟨rfl, rfl⟩ := Prod.mk.inj (Option.some.inj h)
      exact .turned endpoint hpc hs he
    · cases h
  | answer answers =>
    simp only [exec] at h
    split at h
    · rename_i said o k hpc
      obtain ⟨rfl, rfl⟩ := Prod.mk.inj (Option.some.inj h)
      exact .said (answers o) hpc
    · cases h
  | settle =>
    simp only [exec] at h
    split at h
    · rename_i said result hpc
      obtain ⟨rfl, rfl⟩ := Prod.mk.inj (Option.some.inj h)
      exact .settled hpc
    · cases h
  | receive request =>
    simp only [exec] at h
    split at h
    · rename_i watcher hpc
      obtain ⟨rfl, rfl⟩ := Prod.mk.inj (Option.some.inj h)
      exact .received request hpc
    · cases h
  | timeOut =>
    simp only [exec] at h
    split at h
    · rename_i watcher hpc
      obtain ⟨rfl, rfl⟩ := Prod.mk.inj (Option.some.inj h)
      exact .timedOut hpc
    · cases h

/-- The tracker as a function, recording its turns. -/
def turnExec (chain : Chain) (t : Tracker lib) (a : TrackerAction lib) :
    Option (Turn lib × Tracker lib) :=
  (t.exec chain a).map fun (e, t') => (⟨t, e, t'⟩, t')

theorem turnExec_sound (chain : Chain) (t : Tracker lib) (a : TrackerAction lib) (x : Turn lib)
    (t' : Tracker lib) (h : turnExec chain t a = some (x, t')) : TurnStep chain t x t' := by
  obtain ⟨⟨e, t''⟩, he, hx⟩ := Option.map_eq_some_iff.mp h
  obtain ⟨rfl, rfl⟩ := Prod.mk.inj hx
  exact ⟨rfl, rfl, Tracker.exec_sound he⟩

namespace Sample

/-- A chain with one endpoint and one token. -/
def polkadot : Chain := ⟨"polkadot", ["wss://node"], some ⟨"DOT", 10⟩, []⟩

def currency : CurrencyProperties := ⟨"polkadot", .native, 10, "wss://node", none, 0⟩

/-- A node of the chain with the same balance on every account, and the hour. -/
def node (balance : Balance) (now : Timestamp) :
    ∀ o : TrackerOp libraries, (TrackerSig libraries).Answer o
  | .rpc (.build _) | .rpc .subscribeBlocks => .ok ()
  | .rpc .genesisHash | .rpc .nextBlock | .rpc (.blockHash _) => .ok ⟨Vector.replicate 32 0⟩
  | .rpc (.runtimeVersionIdentifier _) => .ok (.object [("specVersion", .posInt 1)])
  | .rpc (.metadata _) => .ok "polkadot"
  | .rpc (.specs ..) => .ok ⟨0, 10, "DOT"⟩
  | .rpc (.assetsSetAtBlock ..) => .ok (AList.singleton "DOT" currency)
  | .rpc (.transferEvents ..) => .ok []
  | .rpc (.balance ..) => .ok balance
  | .now => now
  | .iterate watched_accounts => .ofMap watched_accounts
  | .send _ => true

/-- A request to watch the account until the hour `1000`, for a price of `10`. -/
def request : WatchAccount :=
  ⟨"order", account, "DOT", 10, account, .stateHandler, 1000⟩

/-- The tracker connects, is asked to watch an account, and serves one block at the hour `5`,
which takes it so many operations. -/
def oneBlock (balance : Balance) (operations : ℕ) : List (TrackerAction libraries) :=
  .turn :: (List.replicate 10 (.answer (node balance 5)) ++
    [.settle, .receive (.watchAccount request), .receive (.newBlock "0x1")] ++
    List.replicate operations (.answer (node balance 5)) ++ [.settle])

end Sample

/-- The conversation of the program that ends in the step. -/
def Turn.conversation (x : Turn lib) : Trace (TrackerSig lib) :=
  match x.event with
  | .settled said => said
  | _ => []

theorem Turn.conversation_of_settled {x : Turn lib} {said : Trace (TrackerSig lib)}
    (h : x.event = .settled said) : x.conversation = said := by
  rw [Turn.conversation, h]

/-- A paid invoice is reported and removed, as the law has it. -/
theorem turns_lawful_iff_oneBlock : ∃ h t,
    TrackerRun Sample.libraries Sample.polkadot h t ∧
      (∃ x ∈ h, (x.before.watched_accounts.lookup "order").isSome ∧
        x.after.watched_accounts.lookup "order" = none) ∧ ∀ x ∈ h, x.Lawful := by
  obtain ⟨h, t, run, hp⟩ := exists_reach_of_replay (turnExec_sound Sample.polkadot)
    (· = Tracker.start) rfl (Sample.oneBlock 10 7)
    (p := fun q => q.1.any (fun x => (x.before.watched_accounts.lookup "order").isSome &&
        (x.after.watched_accounts.lookup "order").isNone) &&
      q.1.all fun x => x.before.watched_accounts.keys.all fun id =>
        (verdicts id x.conversation).getLast? != some (some false)) (by decide +kernel)
  simp only [Bool.and_eq_true, List.any_eq_true, List.all_eq_true,
    Option.isNone_iff_eq_none] at hp
  refine ⟨h, t, run, hp.1, (turns_lawful_iff run).mpr ?_⟩
  intro x hx said he _ _ id invoice hl hlast
  have hkey : id ∈ x.before.watched_accounts.keys :=
    AList.mem_keys.mp (AList.lookup_isSome.mp (by rw [hl]; rfl))
  have hne := hp.2 x hx id hkey
  rw [x.conversation_of_settled he, hlast] at hne
  exact absurd hne (by decide)

/-- A block goes by after which the invoice of an order is gone, though it was not found paid and
had not run out. -/
def Turn.forgets (x : Turn lib) (id : String) : Bool :=
  match x.event, x.after.pc, x.before.watched_accounts.lookup id with
  | .settled said, .serve _, some invoice =>
    (x.after.watched_accounts.lookup id).isNone && !(verdicts id said).contains (some true) &&
      (clock said).all (· ≤ invoice.death)
  | _, _, _ => false

theorem Turn.not_lawful_of_forgets {x : Turn lib} {id : String} (hx : x.forgets id = true) :
    ¬x.Lawful := by
  intro hlaw
  rw [Turn.forgets] at hx
  split at hx
  · rename_i said watcher invoice he hpc hl
    simp only [Bool.and_eq_true, Option.isNone_iff_eq_none, Bool.not_eq_true', List.all_eq_true,
      decide_eq_true_eq] at hx
    obtain ⟨⟨hgone, hpaid⟩, hclock⟩ := hx
    have halive : x.after.Alive := by
      intro result hr
      rw [hpc] at hr
      cases hr
    obtain ⟨said', he', ⟨hpaid', -⟩ | ⟨now, hnow, hdeath⟩⟩ :=
      hlaw.leaves halive id invoice hl hgone
    · obtain rfl : said = said' := by
        rw [he] at he'
        injection he'
      rw [List.contains_eq_mem, decide_eq_false_iff_not] at hpaid
      exact hpaid hpaid'
    · obtain rfl : said = said' := by
        rw [he] at he'
        injection he'
      exact absurd hdeath (UInt64.not_lt.mpr (hclock now hnow))
  · cases hx

/-- An unpaid invoice is removed long before its death. -/
theorem unpaid_invoice_forgotten : ∃ h t, TrackerRun Sample.libraries Sample.polkadot h t ∧
    ¬∀ x ∈ h, x.Lawful := by
  obtain ⟨h, t, run, hp⟩ := exists_reach_of_replay (turnExec_sound Sample.polkadot)
    (· = Tracker.start) rfl (Sample.oneBlock 0 6)
    (p := fun q => q.1.getLast?.any fun x => x.forgets "order") (by decide +kernel)
  obtain ⟨x, hx, hp⟩ := Option.any_eq_true _ _ |>.mp hp
  exact ⟨h, t, run, fun hlaw => x.not_lawful_of_forgets hp (hlaw x (List.mem_of_getLast? hx))⟩

end Kalatori
