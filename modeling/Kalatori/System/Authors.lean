import Kalatori.Chain.Calls
import Kalatori.System.Payment
import Kalatori.System.Payouts

/-!
# Who authors a payout

The author of a payout is read off the record of its order, and its signature
is made with the key that the signer derives from the identifier.  The two agree
because the record was written with what the signer named, because nothing
rewrites the account of a record, and because a request to reap carries it to
the tracker and on to the payout.

There is no author, though, where the addresses of the chain are of another kind than
those that are looked for: the transaction is signed as it was prepared.

* `writtenAuthor`: the account that a transaction names as its author.
* `TakesAuthor`, `writtenAuthor_fillAuthor`: where one is written.
* `Owned`, `Informed`, `Sys.Authored`: where the account of an order is.
* `authorSigns_iff`: when the author of what is signed is the account of the key that signs.
-/

namespace Kalatori

open Program Transition Results

variable {lib : Libraries} {d : Deployment lib}

/-! ## The author -/

/-- The account that is filled in as an author. -/
def writtenAuthor : TypeToFill → Option AccountId32
  | .composite [(_, .specialType (.accountId32 author))] => author
  | .specialType (.accountId32 author) => author
  | .variant available_variants selected [(_, .specialType (.accountId32 author))] =>
    if (available_variants.get selected).name = "Id" then author else none
  | _ => none

section Author

variable {Metadata : Type} (con : Constructor Metadata) (metadata : Metadata)

/-- The account is there as an author. -/
def HasAuthor (account : AccountId32) : TypeToFill → Prop
  | .composite fields => Only (IsAccount account) fields
  | .variant available_variants selected fields_to_fill =>
    IsAddress account (.variant available_variants selected fields_to_fill)
  | t => IsAccount account t

/-- **An author can be written into a prepared type**: it is an account, or has one as its only
field, or has a variant `Id` with one. -/
def TakesAuthor : TypeToFill → Prop
  | .composite fields => Only TakesAccount fields
  | .variant available_variants selected fields_to_fill =>
    TakesAddress con metadata (.variant available_variants selected fields_to_fill)
  | t => TakesAccount t

variable {con metadata} {author : AccountId32}

theorem only_isAccount {account : AccountId32} {fields : List FieldToFill} :
    Only (IsAccount account) fields ↔
      ∃ field_name, fields = [(field_name, .specialType (.accountId32 (some account)))] := by
  constructor
  · intro h
    match fields with
    | [(field_name, t)] => exact ⟨field_name, by rw [show t = _ from h]⟩
  · rintro ⟨field_name, rfl⟩
    rfl

theorem writtenAuthor_eq_some {t : TypeToFill} {account : AccountId32} :
    writtenAuthor t = some account ↔ HasAuthor account t := by
  constructor
  · intro h
    rw [writtenAuthor.eq_def] at h
    split at h
    · subst h
      rfl
    · subst h
      rfl
    · split_ifs at h with hname
      subst h
      exact ⟨beq_iff_eq.mpr hname, rfl⟩
    · cases h
  · intro h
    cases t with
    | composite fields =>
      obtain ⟨field_name, rfl⟩ := only_isAccount.mp h
      rfl
    | variant available_variants selected fields_to_fill =>
      obtain ⟨hname, hfields⟩ := h
      obtain ⟨field_name, rfl⟩ := only_isAccount.mp hfields
      exact if_pos (beq_iff_eq.mp hname)
    | specialType =>
      cases h
      rfl
    | primitive | sequenceRegular | tuple | other => cases h

/-- Selecting among variants leaves variants. -/
theorem select_variant {wanted : String → Bool}
    {fill : List FieldToFill → Except ChainError (List FieldToFill)}
    {available_variants : List Variant} {selected : Fin available_variants.length}
    {fields_to_fill : List FieldToFill} {t : TypeToFill}
    (h : select con metadata wanted fill
      (.variant available_variants selected fields_to_fill) = .ok t) :
    ∃ selected' fields, t = .variant available_variants selected' fields := by
  have hgives : Gives (· = t) (select con metadata wanted fill
    (.variant available_variants selected fields_to_fill)) := ⟨t, h, rfl⟩
  rw [select] at hgives
  split at hgives
  · obtain ⟨_, -, hgives⟩ := gives_bind.mp hgives
    obtain ⟨_, -, hgives⟩ := gives_bind.mp hgives
    exact ⟨_, _, (gives_ok.mp hgives).symm⟩
  · exact ⟨_, _, (gives_ok.mp hgives).symm⟩

theorem gives_fillAuthor {account : AccountId32} (t : TypeToFill) :
    Gives (HasAuthor account) (fillAuthor con metadata author t) ↔
      TakesAuthor con metadata t ∧ account = author := by
  cases t with
  | composite fields =>
    match fields with
    | [(_, t)] => exact gives_ok.trans (isAccount_fill t)
    | [] | _ :: _ :: _ => exact gives_ok.trans (iff_of_false not_false And.left)
  | variant available_variants selected fields_to_fill =>
    rw [TakesAuthor, ← gives_fillAddress]
    refine exists_congr fun t' => and_congr_right fun ht' => ?_
    rw [fillAuthor, fillAddress] at ht'
    obtain ⟨selected', fields, rfl⟩ := select_variant ht'
    exact Iff.rfl
  | specialType content =>
    cases content with
    | accountId32 => exact gives_ok.trans (isAccount_fill _)
    | era | signatureSr25519 | other => exact gives_ok.trans (isAccount_fill _)
  | primitive | sequenceRegular | tuple | other => exact gives_ok.trans (isAccount_fill _)

/-- **What is written as an author** is what was to be, and it is written where the type takes
one. -/
theorem writtenAuthor_fillAuthor {t t' : TypeToFill}
    (h : fillAuthor con metadata author t = .ok t') {account : AccountId32} :
    writtenAuthor t' = some account ↔ TakesAuthor con metadata t ∧ account = author := by
  rw [writtenAuthor_eq_some, ← gives_fillAuthor, h]
  exact gives_ok.symm

end Author

/-! ## Where the account of an order is -/

/-- The record of an order has its account, in some format. -/
def Owned (d : Deployment lib) (order : String) (info : OrderInfo) : Prop :=
  ∃ ss58, info.payment_account = lib.toBase58String (d.account order) ss58

/-- What the handler was told of accounts and records in a conversation. -/
structure Informed (d : Deployment lib) (said : Trace HandlerSig) : Prop where
  publicKey : ∀ id ss58 address, ⟨.publicKey id ss58, .ok address⟩ ∈ said →
    address = lib.toBase58String (d.account id) ss58
  paid : ∀ id order, ⟨.db (.markPaid id), .ok order⟩ ∈ said → Owned d id order

/-- **The account of an order is its own**, wherever it is on its way to a payout. -/
structure Sys.Authored (d : Deployment lib) (s : Sys lib) : Prop where
  stored : ∀ order info, record s.store.orders order = some info → Owned d order info
  told : ∀ phase said program, s.store.handler.pc = .busy phase said program → Informed d said
  heading : ∀ index w, s.Heading d index (.reap w) → w.address = d.account w.id

/-! ## The proof -/

/-- The signer answers the handler with the account of the order. -/
theorem Outcome.publicKey {s s' : Sys lib} {x : DaemonTurn} (h : Outcome d s (.daemon x) s')
    {id : String} {ss58 : UInt16} {address : String}
    (he : x.event = .handler (.said ⟨.publicKey id ss58, .ok address⟩)) :
    address = lib.toBase58String (d.account id) ss58 := by
  cases h with
  | handler e _ he' hquiet =>
    obtain rfl := DaemonEvent.handler.inj (he.symm.trans he')
    exact hquiet
  | spawned _ _ he' | handlerSent _ _ he' | handlerAnswered _ _ he' | databaseShutDown _ he'
  | received _ _ _ he' => cases he.symm.trans he'
  | restarted => cases he

/-- A record that is there after a request: it was there before, or it was made, renewed or
marked by it. -/
theorem Effect.record_after {account_lifetime now : Timestamp} {orders orders' : Orders}
    {r : DbRequest} {answer : Except DbError r.Reply}
    (h : Effect account_lifetime now orders r answer orders') (hr : r.attempt? = none)
    {order : String} {info : OrderInfo} (hrec : record orders' order = some info) :
    (∃ old, record orders order = some old ∧ info.payment_account = old.payment_account) ∨
      ∃ query currency payment_account, r = .createOrder order query currency payment_account ∧
        info.payment_account = payment_account := by
  cases h.recordOrigin hr hrec with
  | kept hrec => exact .inl ⟨info, hrec, rfl⟩
  | made query currency payment_account _ hi =>
    refine .inr ⟨query, currency, payment_account, rfl, ?_⟩
    rw [hi]
    rfl
  | renewed _ _ _ _ old hold _ hi =>
    refine .inl ⟨old, hold, ?_⟩
    rw [hi]
    rfl
  | paid old hold hi =>
    refine .inl ⟨old, hold, ?_⟩
    rw [hi]
    rfl

/-- A record that a step leaves has the account of its order. -/
theorem SysStep.stored {s s' : Sys lib} {e : SysEvent lib} {h : List (SysEvent lib)}
    (hs : SysStep d s e s') (hsound : DaemonSound lib (daemonTurns h) s.store)
    (ha : s.Authored d) {order : String} {info : OrderInfo}
    (hrec : record s'.store.orders order = some info) : Owned d order info := by
  rcases hs.outcome.store with ⟨x, -, hx⟩ | ⟨-, heq⟩
  · rcases hx.effect hsound with heq | ⟨r, answer, now, hevent, hattempt, heffect⟩
    · exact ha.stored order info (heq ▸ hrec)
    · rcases heffect.record_after hattempt hrec with ⟨old, hold, haccount⟩ |
        ⟨query, currency, payment_account, rfl, rfl⟩
      · obtain ⟨ss58, hss58⟩ := ha.stored order old hold
        exact ⟨ss58, haccount.trans hss58⟩
      · -- The account that is stored is the one that the signer has just named.
        obtain ⟨phase, said, k, hpc, -⟩ := hx.said hevent
        obtain ⟨_, _, events, -, -, hcall⟩ := hsound
        obtain ⟨-, _, request, -, ho⟩ := hcall.handles hpc rfl
        cases ho with
        | createOrder query properties payment_account hp =>
          exact ⟨_, (ha.told _ _ _ hpc).publicKey _ _ _ (List.mem_singleton_self _)⟩
  · exact ha.stored order info (heq ▸ hrec)

/-- What has been said in the program of the handler. -/
theorem DaemonStep.said_after {account_lifetime : Timestamp} {s s' : HandlerStore}
    {x : DaemonTurn} (hs : DaemonStep lib account_lifetime s x s') {phase : HandlerPhase}
    {said : Trace HandlerSig} {program : Prog HandlerSig (Except Error HandlerNext)}
    (hpc : s'.handler.pc = .busy phase said program) {exchange : Exchange HandlerSig}
    (hmem : exchange ∈ said) : x.event = .handler (.said exchange) ∨
      ∃ phase' said' program', s.handler.pc = .busy phase' said' program' ∧ exchange ∈ said' := by
  obtain ⟨said₀, last, program₀, rfl, he, hpc₀⟩ := hs.said_snoc hpc (List.ne_nil_of_mem hmem)
  rcases List.mem_append.mp hmem with hmem | hmem
  · exact .inr ⟨phase, said₀, program₀, hpc₀, hmem⟩
  · exact .inl (List.mem_singleton.mp hmem ▸ he)

/-- What the handler is told in a step agrees. -/
theorem SysStep.informed {s s' : Sys lib} {e : SysEvent lib} (hs : SysStep d s e s')
    (ha : s.Authored d)
    (hstored : ∀ order info, record s'.store.orders order = some info → Owned d order info)
    {phase : HandlerPhase} {said : Trace HandlerSig}
    {program : Prog HandlerSig (Except Error HandlerNext)}
    (hpc : s'.store.handler.pc = .busy phase said program) : Informed d said := by
  have houtcome := hs.outcome
  rcases houtcome.store with ⟨x, rfl, hx⟩ | ⟨-, heq⟩
  · refine ⟨fun id ss58 address hmem => ?_, fun id order hmem => ?_⟩
    · rcases hx.said_after hpc hmem with hevent | ⟨_, _, _, hpc', hmem'⟩
      · exact houtcome.publicKey hevent
      · exact (ha.told _ _ _ hpc').publicKey id ss58 address hmem'
    · rcases hx.said_after hpc hmem with hevent | ⟨_, _, _, hpc', hmem'⟩
      · obtain ⟨-, hrec, -, hafter⟩ := hx.marked hevent
        exact hstored id order (hafter ▸ hrec)
      · exact (ha.told _ _ _ hpc').paid id order hmem'
  · exact ha.told phase said program (heq ▸ hpc)

/-- A request that is made from a record of its order is for the account of the order. -/
theorem Owned.address (hbase58 : ∀ order ss58,
      lib.fromBase58String (lib.toBase58String (d.account order) ss58) = some (d.account order))
    {order : String} {info : OrderInfo} (h : Owned d order info) {recipient : AccountId32}
    {res : Requester} {w : WatchAccount}
    (hw : WatchAccount.new lib order info recipient res = .ok w) :
    w.address = d.account w.id := by
  obtain ⟨ss58, haccount⟩ := h
  rw [WatchAccount.new, haccount, hbase58] at hw
  obtain rfl := Except.ok.inj hw
  rfl

/-- A request to reap that is sent is made from the record of its order. -/
theorem SysStep.reap_sent (hbase58 : ∀ order ss58,
      lib.fromBase58String (lib.toBase58String (d.account order) ss58) = some (d.account order))
    {s s' : Sys lib} {e : SysEvent lib} {h : List (SysEvent lib)} (hs : SysStep d s e s')
    (hsound : DaemonSound lib (daemonTurns h) s.store) (ht : s.Traced d h) (ha : s.Authored d)
    {w : WatchAccount} (hsends : e.Sends (.reap w)) : w.address = d.account w.id := by
  rcases hsends with ⟨x, rfl, he⟩ | rfl
  · obtain ⟨phase, said, k, hpc, -⟩ := hs.outcome.daemonStep.said he
    obtain ⟨_, _, events, -, -, hcall⟩ := hsound
    obtain ⟨-, _, _, -, ho⟩ := hcall.handles hpc rfl
    cases ho with
    | reap id order _ hr =>
      have howned := (ha.told _ _ _ hpc).paid id order (by simp [marked])
      exact howned.address hbase58 hr
  · have houtcome := hs.outcome
    cases houtcome with
    | restoreSent _ _ hrestore =>
      obtain ⟨order_list, -, hholds⟩ := ht.restoring _ _ hrestore
      obtain ⟨-, _, _, _, -, -, hreq⟩ := hholds.1
      cases hreq

theorem eq_reap_of_forTracker {request : ChainRequest} {account w : WatchAccount}
    (h : request.forTracker = some (account, .reap w)) : request = .reap w := by
  cases request with
  | watchAccount w' => cases (Prod.mk.inj (Option.some.inj h)).2
  | reap w' =>
    obtain ⟨-, hw⟩ := Prod.mk.inj (Option.some.inj h)
    rw [ChainTrackerRequest.reap.inj hw]
  | shutdown => cases h

theorem SysStep.authored (hbase58 : ∀ order ss58,
      lib.fromBase58String (lib.toBase58String (d.account order) ss58) = some (d.account order))
    {s s' : Sys lib} {e : SysEvent lib} {h : List (SysEvent lib)} (hs : SysStep d s e s')
    (hsound : DaemonSound lib (daemonTurns h) s.store) (ht : s.Traced d h) (ha : s.Authored d) :
    s'.Authored d := by
  have hstored : ∀ order info, record s'.store.orders order = some info → Owned d order info :=
    fun order info hrec => hs.stored hsound ha hrec
  refine ⟨hstored, fun phase said program hpc => hs.informed ha hstored hpc, ?_⟩
  intro index w hw
  rcases hs.outcome.heading_before hw rfl with hw | ⟨r, account, hsends, hreq, -⟩
  · exact ha.heading index w hw
  · rw [eq_reap_of_forTracker hreq] at hsends
    exact hs.reap_sent hbase58 hsound ht ha hsends

/-- The runs that begin on an empty tree. -/
abbrev FreshRun (d : Deployment lib) : List (SysEvent lib) → Sys lib → Prop :=
  Reach (SysStep d) always (· = Sys.start d ∅)

theorem FreshRun.sysRun {h : List (SysEvent lib)} {s : Sys lib} (run : FreshRun d h s) :
    SysRun d h s :=
  run.widen fun _ hs => ⟨∅, earlier_empty, hs⟩

theorem FreshRun.authored (hbase58 : ∀ order ss58,
      lib.fromBase58String (lib.toBase58String (d.account order) ss58) = some (d.account order))
    {h : List (SysEvent lib)} {s : Sys lib} (run : FreshRun d h s) : s.Authored d := by
  refine run.invariant (P := fun _ s => s.Authored d) ?_ ?_
  · rintro s rfl
    refine ⟨fun order info hrec => ?_, ?_, fun index w hw => ?_⟩
    · simp [Sys.start, record, recordAt] at hrec
    · rintro phase said program ⟨⟩
      exact ⟨fun _ _ _ hmem => absurd hmem List.not_mem_nil,
        fun _ _ hmem => absurd hmem List.not_mem_nil⟩
    · exact absurd hw (Sys.not_heading_start _ _ _)
  · rintro h s e s' run ih - hs
    have hrun : SysRun d h s := FreshRun.sysRun run
    exact hs.authored hbase58 (SysRun.handler_sound hrun) (SysRun.traced hrun) ih

/-! ## Payouts -/

/-- The accounts that a deployment knows are those of the keys that a signer derives. -/
structure Deployment.SignedBy (d : Deployment lib) {keys : Keys} (signer : Signer keys) : Prop where
  recipient : signer.recipient = d.recipient
  account : ∀ id pair, signer.pair lib id = .ok pair → d.account id = keys.publicKey pair

/-- **The author of a payout is the account of the key that signs it.**  Of the payout the
conversation up to the request to the signer is given, with the request: the transaction that
was built last has an author. -/
def AuthorSigns (engine : PayoutEngine lib) (said : Trace (PayoutSig lib)) (id : String)
    (sign_this : List UInt8) : Prop :=
  ∃ metadata block transaction author,
    said.getLast? = some ⟨.built metadata block transaction, ()⟩ ∧
    engine.con.signThis transaction = some sign_this ∧
    writtenAuthor transaction.author = some author ∧
    ∀ pair, engine.signer.pair lib id = .ok pair → author = engine.keys.publicKey pair

/-- **A chain where transactions have authors**: what is prepared for a transaction takes one. -/
def NamesAuthor (con : Constructor lib.Metadata) (chain : ChainWatcher lib) : Prop :=
  ∃ prepared, con.init chain.metadata chain.genesis_hash = .ok prepared ∧
    TakesAuthor con chain.metadata prepared.author

/-- Where transactions have authors, the account of the order is the one. -/
theorem Built.author {con : Constructor lib.Metadata} {order : Invoice} {chain : ChainWatcher lib}
    {block : BlockHash} {transaction : TransactionToFill}
    (h : Built con order chain block transaction) (account : AccountId32) :
    writtenAuthor transaction.author = some account ↔
      NamesAuthor con chain ∧ account = order.address := by
  obtain ⟨call, block_number, htransaction⟩ := h
  obtain ⟨prepared, hprepared, hfilled, -⟩ := constructBatchTransaction_ok _ _ htransaction
  rw [writtenAuthor_fillAuthor hfilled]
  refine and_congr_left fun _ => ⟨fun htakes => ⟨prepared, hprepared, htakes⟩, ?_⟩
  rintro ⟨prepared', hprepared', htakes⟩
  obtain rfl := Except.ok.inj (hprepared.symm.trans hprepared')
  exact htakes

variable {engine : PayoutEngine lib}

theorem commission_authored (hbase58 : ∀ order ss58,
      lib.fromBase58String (lib.toBase58String (d.account order) ss58) = some (d.account order))
    {h : List (SysEvent lib)} {s sys' : Sys lib} {e : SysEvent lib} {c : Commission lib}
    (run : FreshRun d h s) (hs : SysStep d s e sys') (hc : commission d s e = some c) :
    c.request.address = d.account c.request.id := by
  obtain ⟨index, x, rfl, hevent, -⟩ := commission_eq_some hc
  have hheading : s.Heading d index (.reap c.request) := .waiting (hs.outcome.taken hevent)
  exact (FreshRun.authored hbase58 run).heading index c.request hheading

/-- **A payout that reaches the signer is authored by the account of its key exactly if its chain
lets an author be written**, in every run on a tree that was empty at first. -/
theorem authorSigns_iff (hsigned : d.SignedBy engine.signer) (hbase58 : ∀ order ss58,
      lib.fromBase58String (lib.toBase58String (d.account order) ss58) = some (d.account order))
    {h : List (PayoutEvent lib)} {s : PayoutSys lib}
    (run : PayoutRunIf d engine always (· = Sys.start d ∅) h s) {task : PayoutTask lib}
    (hmem : task ∈ s.running) {id : String} {sign_this : List UInt8}
    {k : Except SignerError Sr25519Signature → Prog (PayoutSig lib) (Except Stop Unit)}
    (hp : task.program = .call (.sign id sign_this) k) :
    AuthorSigns engine task.said id sign_this ↔ NamesAuthor engine.con task.chain := by
  have hengaged := PayoutRun.engaged
    (P := fun _ c => c.request.address = d.account c.request.id) run (fun _ _ _ hc => hc)
    fun h s e sys' c run hs hc => commission_authored hbase58 (PayoutRun.sysRun run) hs hc
  obtain ⟨c, haddress, horder, -⟩ := hengaged.running task hmem
  have hpays := hengaged.paying task hmem
  rw [hp] at hpays
  obtain ⟨hpays, -⟩ := hpays
  cases hpays with
  | sign block transaction _ hb ht hs =>
    constructor
    · rintro ⟨metadata, block', transaction', author, hb', -, hauthor, -⟩
      obtain ⟨hop, -⟩ := Sigma.mk.inj (Option.some.inj (hb.symm.trans hb'))
      obtain ⟨-, -, rfl⟩ := PayoutOp.built.inj hop
      exact ((ht.author author).mp hauthor).1
    · intro hnames
      refine ⟨_, block, transaction, task.order.address, hb, hs,
        (ht.author _).mpr ⟨hnames, rfl⟩, fun pair hpair => ?_⟩
      calc task.order.address = d.account task.order.id := by
            rw [horder]
            exact haddress
        _ = engine.keys.publicKey pair := hsigned.account _ pair hpair

/-! ## A payout -/

namespace Sample

def payer : PayoutEngine libraries where
  con := constructor libraries.Metadata true
  overflow_checks := false
  keys := keys
  signer := signer

/-- A runtime whose addresses are wrapped arrays of bytes, and not accounts. -/
def arrayAddresses : Constructor libraries.Metadata where
  __ := constructor libraries.Metadata true
  init _ genesis_hash := .ok
    { author := .composite [(none, .other)], call := .other, extensions := [],
      signature := .other, genesis_hash }

def unnamed : PayoutEngine libraries where
  __ := payer
  con := arrayAddresses

/-- A node with a balance on every account. -/
def payoutNode (balance : Balance) : ∀ call : PayoutCall libraries, Except Stop call.Result
  | .build _ | .sendStuff _ => .ok ()
  | .head => .ok ⟨Vector.replicate 32 0⟩
  | .currentBlockNumber .. => .ok 1
  | .balance .. => .ok balance

/-- The order of `paidOrder` is reaped, and its payout begins. -/
def reapedOrder : List (PayoutAction libraries) :=
  let daemon : List (SysAction libraries) :=
    paidOrder ++ answers 2 ++ [.manager .received, .manager .forwarded, .trackerReceive 0]
  daemon.map .daemon ++ [.begin 0]

/-- The payout gets so many answers. -/
def payoutAnswers (balance : Balance) (n : ℕ) : List (PayoutAction libraries) :=
  List.replicate n (.answer 0 (payoutNode balance))

theorem signedBy : deployment.SignedBy signer := ⟨rfl, fun _ _ _ => rfl⟩

theorem fromBase58_toBase58 (order : String) (ss58 : UInt16) :
    libraries.fromBase58String (libraries.toBase58String (deployment.account order) ss58) =
      some (deployment.account order) := by
  by_cases h : ss58 = 0
  · simp [libraries, deployment, h]
  · simp [libraries, deployment, h]

end Sample

/-- The transaction that was built last has an author. -/
def hasAuthor (said : Trace (PayoutSig lib)) : Bool :=
  said.getLast?.any fun exchange =>
    match exchange.1 with
    | .built _ _ transaction => (writtenAuthor transaction.author).isSome
    | _ => false

theorem AuthorSigns.hasAuthor {said : Trace (PayoutSig lib)} {id : String}
    {sign_this : List UInt8} (h : AuthorSigns engine said id sign_this) :
    Kalatori.hasAuthor said = true := by
  obtain ⟨metadata, block, transaction, author, hlast, -, hauthor, -⟩ := h
  simp [Kalatori.hasAuthor, hlast, hauthor]

/-- Whether the one payout waits for the signer, and whether it has an author. -/
def PayoutSys.signing (s : PayoutSys Sample.libraries) (author : Bool) : Bool :=
  match s.running with
  | [task] =>
    match task.program with
    | .call (.sign _ _) _ => hasAuthor task.said == author
    | _ => false
  | _ => false

theorem PayoutSys.exists_sign {s : PayoutSys Sample.libraries} {author : Bool}
    (h : s.signing author = true) :
    ∃ task ∈ s.running, hasAuthor task.said = author ∧
      ∃ id sign_this k, task.program = .call (.sign id sign_this) k := by
  rw [signing] at h
  split at h
  · next task hrunning =>
    split at h
    · next id sign_this k hp =>
      exact ⟨task, by simp [hrunning], beq_iff_eq.mp h, id, sign_this, k, hp⟩
    · cases h
  · cases h

/-- An order is paid for, reaped and paid out. -/
theorem authorSigns_iff_reapedOrder : ∃ h s,
    PayoutRunIf Sample.deployment Sample.payer always (· = Sys.start Sample.deployment ∅) h s ∧
      ∃ task ∈ s.running, ∃ id sign_this k,
        task.program = .call (.sign id sign_this) k ∧
          AuthorSigns Sample.payer task.said id sign_this := by
  obtain ⟨h, s, run, hp⟩ := exists_reach_of_replay
    (PayoutSys.exec_sound Sample.deployment Sample.payer)
    (fun s => ∃ sys, sys = Sys.start Sample.deployment ∅ ∧ s = .start sys) ⟨_, rfl, rfl⟩
    (Sample.reapedOrder ++ Sample.payoutAnswers 10 5) (p := fun q => q.2.signing true)
    (by decide +kernel)
  obtain ⟨task, hmem, -, id, sign_this, k, hsign⟩ := PayoutSys.exists_sign hp
  have hnames : NamesAuthor Sample.payer.con task.chain := ⟨_, rfl, none, rfl⟩
  exact ⟨h, s, run, task, hmem, id, sign_this, k, hsign,
    (authorSigns_iff Sample.signedBy Sample.fromBase58_toBase58 run hmem hsign).mpr hnames⟩

/-- **A payout without an author reaches the signer**, where the addresses of the chain are not
accounts. -/
theorem payout_without_author : ∃ h s,
    PayoutRunIf Sample.deployment Sample.unnamed always (· = Sys.start Sample.deployment ∅) h s ∧
      ∃ task ∈ s.running, ∃ id sign_this k,
        task.program = .call (.sign id sign_this) k ∧
          ¬AuthorSigns Sample.unnamed task.said id sign_this := by
  obtain ⟨h, s, run, hp⟩ := exists_reach_of_replay
    (PayoutSys.exec_sound Sample.deployment Sample.unnamed)
    (fun s => ∃ sys, sys = Sys.start Sample.deployment ∅ ∧ s = .start sys) ⟨_, rfl, rfl⟩
    (Sample.reapedOrder ++ Sample.payoutAnswers 10 5) (p := fun q => q.2.signing false)
    (by decide +kernel)
  obtain ⟨task, hmem, hnone, id, sign_this, k, hsign⟩ := PayoutSys.exists_sign hp
  refine ⟨h, s, run, task, hmem, id, sign_this, k, hsign, fun hauthor => ?_⟩
  rw [hauthor.hasAuthor] at hnone
  cases hnone

end Kalatori
