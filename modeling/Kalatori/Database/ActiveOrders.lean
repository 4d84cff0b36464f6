import Kalatori.Database.Withdrawal

/-!
# The list of active orders

After a restart the daemon watches the orders that `ActiveOrderList` answers, and
no others.  The list is read from the bytes of the tree, and an entry that cannot
be decoded is passed over in silence, so an entry that is lost is a payment that
nobody waits for.

The history of the requests says which orders should be listed: those that were
made and not marked as paid.  `activeOrderList_exact` says that these are listed,
each once, with the record that `read_order` answers.

* `LedgerStep.hasRecord_iff`: a step makes a record exactly by creating an order.
* `LedgerStep.hasPaid_iff`: and a paid one exactly by marking it.
* `OrderlyRun.listed`: what the tree knows of a history.
* `activeOrderList_nodup`: no order is listed twice.
-/

namespace Kalatori

open Scale Transition

/-- A payment was marked. -/
def MarkedPaid (h : List Served) (order : String) : Prop :=
  ∃ e ∈ h, ∃ info, e.request = .markPaid order ∧
    HEq e.reply (Except.ok info : Except DbError OrderInfo)

/-- One of the requests that make, pay, read and list orders, while the iteration of the tree
loses no entry. -/
structure Orderly (_ : List Served) (_ : Orders) (e : Served) : Prop where
  no_withdrawal : e.request.attempt? = none
  iterates : ∀ key, e.around.iter_loses key = false

/-- A run of such requests, from an empty tree. -/
abbrev OrderlyRun (account_lifetime : Timestamp) : List Served → Orders → Prop :=
  Reach (LedgerStep account_lifetime) Orderly (· = ∅)

/-- There is a record of the order. -/
def HasRecord (orders : Orders) (order : String) : Prop :=
  ∃ info, record orders order = some info

/-- There is a record of the order, and it is paid. -/
def HasPaid (orders : Orders) (order : String) : Prop :=
  ∃ info, record orders order = some info ∧ info.payment_status = .paid

theorem created_append (h h' : List Served) (order : String) :
    Created (h ++ h') order ↔ Created h order ∨ Created h' order := by
  simp only [Created, List.mem_append, or_and_right, exists_or]

theorem markedPaid_append (h h' : List Served) (order : String) :
    MarkedPaid (h ++ h') order ↔ MarkedPaid h order ∨ MarkedPaid h' order := by
  simp only [MarkedPaid, List.mem_append, or_and_right, exists_or]

section Steps

variable {account_lifetime : Timestamp} {orders orders' : Orders} {e : Served} {order : String}

/-- A record is there after a request if it was there before, or if the request made the
order. -/
theorem LedgerStep.hasRecord_iff (hs : LedgerStep account_lifetime orders e orders')
    (hno : e.request.attempt? = none) :
    HasRecord orders' order ↔ HasRecord orders order ∨ Created [e] order := by
  constructor
  · rintro ⟨info, hrec⟩
    by_cases hne : e.request.order? = some order
    swap
    · exact .inl ⟨info, hs.effect.record_of_ne hne ▸ hrec⟩
    obtain ⟨before, around, r, reply, after⟩ := e
    have heffect : Effect account_lifetime around.now orders r reply orders' := hs.effect
    clear hs
    cases heffect with
    | failed | listed | read | collided => exact .inl ⟨info, hrec⟩
    | withdrawn | stuck => cases hno
    | created o query currency payment_account =>
      obtain rfl : o = order := Option.some.inj hne
      exact .inr ⟨_, List.mem_singleton_self _, query, currency, payment_account, _, rfl, .rfl⟩
    | modified o query currency payment_account =>
      obtain rfl : o = order := Option.some.inj hne
      exact .inr ⟨_, List.mem_singleton_self _, query, currency, payment_account, _, rfl, .rfl⟩
    | paid o old _ hold =>
      obtain rfl : o = order := Option.some.inj hne
      exact .inl ⟨old, hold⟩
  · rintro (hrec | hcreated)
    · exact hs.record_kept hrec
    · exact hs.record_created hcreated

/-- A paid record that is there after a request was there before, or the request marked the
order. -/
theorem Effect.hasPaid {now : Timestamp} {r : DbRequest} {reply : Except DbError r.Reply}
    (h : Effect account_lifetime now orders r reply orders') (hno : r.attempt? = none)
    (hpaid : HasPaid orders' order) :
    HasPaid orders order ∨ ∃ info : OrderInfo, r = .markPaid order ∧
      HEq reply (Except.ok info : Except DbError OrderInfo) := by
  obtain ⟨info, hrec, hpaid⟩ := hpaid
  cases h.recordOrigin hno hrec with
  | kept hrec => exact .inl ⟨info, hrec, hpaid⟩
  | made _ _ _ _ hi =>
    rw [hi] at hpaid
    cases hpaid
  | renewed _ _ _ _ old _ hp hi =>
    rw [hi] at hpaid
    cases hp.symm.trans hpaid
  | paid => exact .inr ⟨info, rfl, .rfl⟩

/-- A paid record is there after a request if it was there before, or if the request marked the
order as paid. -/
theorem LedgerStep.hasPaid_iff (hs : LedgerStep account_lifetime orders e orders')
    (hno : e.request.attempt? = none) :
    HasPaid orders' order ↔ HasPaid orders order ∨ MarkedPaid [e] order := by
  constructor
  · intro hpaid
    rcases hs.effect.hasPaid hno hpaid with hpaid | ⟨info, hrequest, hreply⟩
    · exact .inl hpaid
    · exact .inr ⟨e, List.mem_singleton_self _, info, hrequest, hreply⟩
  · rintro (⟨info, hrec, hpaid⟩ | ⟨e', he', info, hrequest, hreply⟩)
    · exact ⟨info, hs.effect.paid_kept hno hrec hpaid, hpaid⟩
    · obtain rfl : e' = e := by simpa using he'
      obtain ⟨before, around, r, reply, after⟩ := e'
      have heffect : Effect account_lifetime around.now orders r reply orders' := hs.effect
      clear hs
      cases hrequest
      cases hreply
      cases heffect with
      | paid _ old _ _ _ hi => exact ⟨info, record_insert_self .., by rw [hi]; rfl⟩

end Steps

/-- **What the tree knows of a history**: which orders were made, and which were marked. -/
theorem OrderlyRun.listed {account_lifetime : Timestamp} {h : List Served} {orders : Orders}
    (run : OrderlyRun account_lifetime h orders) (order : String) :
    (HasRecord orders order ↔ Created h order) ∧ (HasPaid orders order ↔ MarkedPaid h order) := by
  induction run with
  | start h0 =>
    subst h0
    have hnone : record ∅ order = none := by simp [record, recordAt]
    simp [HasRecord, HasPaid, Created, MarkedPaid, hnone]
  | next _ ok hs ih =>
    obtain ⟨hrecord, hpaid⟩ := ih
    rw [created_append, markedPaid_append, ← hrecord, ← hpaid]
    exact ⟨hs.hasRecord_iff ok.no_withdrawal, hs.hasPaid_iff ok.no_withdrawal⟩

/-- The keys of the tree are distinct, and on a tree that the server wrote a key is that of one
order. -/
theorem activeOrderList_nodup {around : Surroundings} {orders : Orders} (hw : WellStored orders)
    {list : List (String × OrderInfo)}
    (h : ((activeOrderList around).runOn orders).1 = .ok list) : (list.map Prod.fst).Nodup := by
  obtain rfl := Except.ok.inj h
  have hkeys : orders.toList.Pairwise fun a b => a ∈ orders.toList ∧ b ∈ orders.toList ∧
      a.1 ≠ b.1 := by
    have hdistinct := orders.distinct_keys_toList
    refine List.Pairwise.imp_of_mem ?_ hdistinct
    intro a b ha hb hne
    exact ⟨ha, hb, fun heq => hne (by rw [heq]; exact Std.ReflCmp.compare_self)⟩
  rw [List.nodup_iff_pairwise_ne, List.pairwise_map]
  refine List.Pairwise.filter _ ?_
  rw [List.pairwise_filterMap]
  refine (hkeys.filter _).imp ?_
  rintro ⟨key, value⟩ ⟨key', value'⟩ ⟨hmem, hmem', hne⟩ ⟨a, b⟩ hab ⟨a', b'⟩ hab' heq
  simp only [Option.bind_eq_some_iff, Option.map_eq_some_iff, Prod.mk.injEq] at hab hab'
  obtain ⟨_, ha, _, -, rfl, -⟩ := hab
  obtain ⟨_, ha', _, -, rfl, -⟩ := hab'
  rw [Std.TreeMap.mem_toList_iff_getElem?_eq_some] at hmem hmem'
  obtain ⟨order, info, rfl, -⟩ := hw key value hmem
  obtain ⟨order', info', rfl, -⟩ := hw key' value' hmem'
  rw [decodeKey_orderKey] at ha ha'
  obtain rfl := Option.some.inj ha
  obtain rfl := Option.some.inj ha'
  exact hne (congrArg orderKey heq)

/-- What `read_order` answers is the record. -/
theorem record_of_runOn_readOrder {around : Surroundings} {orders : Orders} {order : String}
    {info : OrderInfo} (h : ((readOrder around order).runOn orders).1 = .ok (some info)) :
    record orders order = some info := by
  have heffect : Effect 0 around.now orders (.readOrder order)
      ((readOrder around order).runOn orders).1 ((readOrder around order).runOn orders).2 :=
    readOrder_effect order
  generalize (readOrder around order).runOn orders = out at h heffect
  obtain ⟨reply, orders'⟩ := out
  obtain rfl : reply = .ok (some info) := h
  cases heffect with
  | read _ _ hrec => exact hrec

/-- **The list of active orders is exact.**  Each order that was made and not marked as paid is
listed, once, with the record that `read_order` answers, and nothing else is. -/
theorem activeOrderList_exact {account_lifetime : Timestamp} {h₁ h₂ : List Served}
    {before around list after} {orders : Orders}
    (run : OrderlyRun account_lifetime
      (h₁ ++ ⟨before, around, .activeOrderList, .ok list, after⟩ :: h₂) orders) :
    (list.map Prod.fst).Nodup ∧
      (∀ order, Created h₁ order → ¬MarkedPaid h₁ order → ∃ info, (order, info) ∈ list) ∧
      ∀ order info, (order, info) ∈ list ↔
        Created h₁ order ∧ ¬MarkedPaid h₁ order ∧ ∀ around' : Surroundings, around'.Works →
          ((readOrder around' order).runOn before).1 = .ok (some info) := by
  obtain ⟨s₁, s₂, run₁, hok, hs⟩ := run.split
  obtain rfl : before = s₁ := hs.before_eq
  have hw : WellStored before := LedgerRun.wellStored run₁.weaken
  have hanswer : ((activeOrderList around).runOn before).1 = .ok list := by
    cases hs with
    | serve => rfl
  have hlisted : ∀ order info, record before order = some info → ¬MarkedPaid h₁ order →
      (order, info) ∈ list := by
    intro order info hrec hunmarked
    refine mem_activeOrderList_of_record hok.iterates hanswer hrec ?_
    cases hp : info.payment_status with
    | pending => rfl
    | paid => exact absurd ((OrderlyRun.listed run₁ order).2.mp ⟨info, hrec, hp⟩) hunmarked
  refine ⟨activeOrderList_nodup hw hanswer, fun order hcreated hunmarked => ?_,
    fun order info => ⟨fun hmem => ?_, ?_⟩⟩
  · obtain ⟨info, hrec⟩ := (OrderlyRun.listed run₁ order).1.mpr hcreated
    exact ⟨info, hlisted order info hrec hunmarked⟩
  · obtain ⟨hrec, hpending⟩ := record_of_mem_activeOrderList hw hanswer hmem
    obtain ⟨hcreated, hmarked⟩ := OrderlyRun.listed run₁ order
    refine ⟨hcreated.mp ⟨info, hrec⟩, fun hm => ?_, fun _ hworks => runOn_readOrder hworks hrec⟩
    obtain ⟨info', hrec', hpaid⟩ := hmarked.mpr hm
    obtain rfl : info' = info := Option.some.inj (hrec'.symm.trans hrec)
    cases hpending.symm.trans hpaid
  · rintro ⟨-, hunmarked, hread⟩
    exact hlisted order info (record_of_runOn_readOrder (hread (.calm 0) ⟨rfl, rfl⟩)) hunmarked

theorem OrderlyRun.serveCalm {account_lifetime : Timestamp} {h : List Served} {orders : Orders}
    (run : OrderlyRun account_lifetime h orders) (now : Timestamp) {r : DbRequest}
    (hno : r.attempt? = none) :
    let out := (serve account_lifetime (.calm now) r).runOn orders
    OrderlyRun account_lifetime (h ++ [⟨orders, .calm now, r, out.1, out.2⟩]) out.2 :=
  run.next ⟨hno, fun _ => rfl⟩ (.serve orders (.calm now) r)

/-- Two purchases, one of them paid, and a list, which has the other. -/
theorem activeOrderList_exact_purchases : ∃ h₁ before around list after orders,
    OrderlyRun 0 (h₁ ++ [⟨before, around, .activeOrderList, .ok list, after⟩]) orders ∧
    h₁.map (·.request) = [purchase "abc", purchase "def", .markPaid "abc"] ∧
    list.map Prod.fst = ["def"] ∧
    (list.map Prod.fst).Nodup ∧
      (∀ order, Created h₁ order → ¬MarkedPaid h₁ order → ∃ info, (order, info) ∈ list) ∧
      ∀ order info, (order, info) ∈ list ↔
        Created h₁ order ∧ ¬MarkedPaid h₁ order ∧ ∀ around' : Surroundings, around'.Works →
          ((readOrder around' order).runOn before).1 = .ok (some info) := by
  have run₀ : OrderlyRun 0 [] ∅ := .start rfl
  have run₁ := run₀.serveCalm 0 (r := purchase "abc") rfl
  have run₂ := run₁.serveCalm 0 (r := purchase "def") rfl
  have run₃ := run₂.serveCalm 0 (r := .markPaid "abc") rfl
  have run₄ := run₃.serveCalm 0 (r := .activeOrderList) rfl
  exact ⟨_, _, _, _, _, _, run₄, rfl, by decide +kernel, activeOrderList_exact run₄⟩

end Kalatori
