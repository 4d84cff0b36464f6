import Kalatori.Chain.Events
import Kalatori.Chain.Queries
import Kalatori.Chain.Tracker

/-!
# Balances

An account without an entry in the storage holds nothing, and a node answers a
request for its entry with null.  Neither of the two functions that read a balance
makes a zero of it.  For an asset the answer is a value of the wrong format, and
for the native token the balance is not found, and either way the check of an
invoice fails until somebody has paid something.

* `assetBalanceAtAccount`, `systemBalanceAtAccount`, `Invoice.balance`: reading a balance.
* `LedgerEntry`: what the chain has of an account, and how it is stored.
* `play_balance`: what is read of it.
* `balanceAgrees_iff`: the accounts whose balance is read rightly.
-/

namespace Kalatori

open Program Prog

variable {lib : Libraries}

/-- The libraries that make keys and decode values. -/
structure BalanceLibrary (Metadata : Type) extends StorageLibrary Metadata where
  /-- The key of a query, hashed. -/
  storageKey : FinalizedStorageQuery → List UInt8
  /-- `decode_all_as_type`, without a value where it fails. -/
  decodeAllAsType : Metadata → UInt32 → List UInt8 → Option ParsedData

section Reading

variable (library : BalanceLibrary lib.Metadata)

/-- The first field that is marked as a balance. -/
def assetBalanceOf (fields : List FieldData) : Option Balance :=
  fields.findSome? fun
    | (_, .primitiveU128 value true) => some value
    | _ => none

/-- The first field `free` that is marked as a balance, in a field `data`. -/
def freeBalanceOf (fields : List FieldData) : Option Balance :=
  fields.findSome? fun
    | (some "data", .composite inner_fields) => inner_fields.findSome? fun
      | (some "free", .primitiveU128 value true) => some value
      | _ => none
    | _ => none

/-- `decode_all_as_type`, with `?` on its result. -/
def decodeValue (metadata_v15 : lib.Metadata) (value_ty : UInt32) (value_data : List UInt8) :
    Except ChainError ParsedData :=
  match library.decodeAllAsType metadata_v15 value_ty value_data with
  | some data => .ok data
  | none => .error .parserError

def assetBalanceAtAccount (block : BlockHash) (metadata_v15 : lib.Metadata)
    (account_id : AccountId32) (asset_id : AssetId) : Fetch Balance := do
  let query ← Fetch.ofExcept
    (assetBalanceQuery library.toStorageLibrary metadata_v15 account_id asset_id)
  match ← getValueFromStorage (hexString (library.storageKey query)) block with
  | .string string_value => do
    let value_data ← Fetch.ofExcept (unhex string_value .storageValue)
    match ← Fetch.ofExcept (decodeValue library metadata_v15 query.value_ty value_data) with
    | .composite fields =>
      match assetBalanceOf fields with
      | some balance => return balance
      | none => throw (.failed .assetBalanceNotFound)
    | _ => throw (.failed .assetBalanceFormat)
  | _ => throw (.failed .storageValueFormat)

def systemBalanceAtAccount (block : BlockHash) (metadata_v15 : lib.Metadata)
    (account_id : AccountId32) : Fetch Balance := do
  let query ← Fetch.ofExcept
    (systemBalanceQuery library.toStorageLibrary metadata_v15 account_id)
  match ← getValueFromStorage (hexString (library.storageKey query)) block with
  | .string string_value => do
    let value_data ← Fetch.ofExcept (unhex string_value .storageValue)
    match ← Fetch.ofExcept (decodeValue library metadata_v15 query.value_ty value_data) with
    | .composite fields =>
      match freeBalanceOf fields with
      | some balance => return balance
      | none => throw (.failed .balanceNotFound)
    | _ => throw (.failed .balanceNotFound)
  | _ => throw (.failed .balanceNotFound)

/-- `Invoice::balance` -/
def Invoice.balance (chain_watcher : ChainWatcher lib) (block : BlockHash) (invoice : Invoice) :
    Fetch Balance :=
  match chain_watcher.assets.lookup invoice.currency with
  | none => throw (.failed (.invalidCurrency invoice.currency))
  | some currency =>
    match currency.asset_id with
    | some asset_id =>
      assetBalanceAtAccount library block chain_watcher.metadata invoice.address asset_id
    | none => systemBalanceAtAccount library block chain_watcher.metadata invoice.address

end Reading

/-! ## What is on the chain -/

/-- A number that is marked as a balance. -/
def ParsedData.isBalance : ParsedData → Bool
  | .primitiveU128 _ true => true
  | _ => false

/-- The record of an account in an asset: just one field of it is a balance. -/
def IsAssetAccount (balance : Balance) : ParsedData → Prop
  | .composite fields => ∃ field_name,
      (fields.filter fun field => field.2.isBalance) = [(field_name, .primitiveU128 balance true)]
  | _ => False

/-- The record of an account: it has one field `data`, and that one field `free`. -/
def IsAccountInfo (balance : Balance) : ParsedData → Prop
  | .composite fields => ∃ inner_fields,
      (fields.filter fun field => field.1 = some "data") =
        [(some "data", .composite inner_fields)] ∧
      (inner_fields.filter fun field => field.1 = some "free") =
        [(some "free", .primitiveU128 balance true)]
  | _ => False

/-- The metadata have the entry `Account` of a pallet, and with its key filled in it makes a
query. -/
def Describes {Metadata : Type} (library : StorageLibrary Metadata) (metadata : Metadata)
    (pallet : String) (fill : TypeToFill → TypeToFill) (query : FinalizedStorageQuery) : Prop :=
  (∃ p₀, (library.storages metadata).First p₀) ∧ ∃ p,
    (library.storages metadata).available_pallets.find? (fun p => p.stem = pallet) = some p ∧
      p.Prepares ∧ ∃ e, p.available_entries.find? (fun e => e.name = "Account") = some e ∧
        ∃ t, e.type_to_fill = .ok t ∧ Makes library p.stem e (t.fillKey fill) query

/-- What is stored for a query: nothing, or a record of a balance. -/
def Stores (library : BalanceLibrary lib.Metadata) (metadata : lib.Metadata) (state : ChainState)
    (query : FinalizedStorageQuery) (IsRecord : Balance → ParsedData → Prop) :
    Option Balance → Prop
  | none => state.get (library.storageKey query) = none
  | some balance => ∃ value data, state.get (library.storageKey query) = some value ∧
      library.decodeAllAsType metadata query.value_ty value = some data ∧ IsRecord balance data

/-- **What the ledger has of an account**, in an asset or the native token: no entry, or one with
a balance. -/
def LedgerEntry (library : BalanceLibrary lib.Metadata) (metadata : lib.Metadata)
    (state : ChainState) (account : AccountId32) (entry : Option Balance) :
    Option AssetId → Prop
  | some asset_id => ∃ query,
      Describes library.toStorageLibrary metadata "Assets" (fillAssetKey account asset_id) query ∧
        Stores library metadata state query IsAssetAccount entry
  | none => ∃ query,
      Describes library.toStorageLibrary metadata "System" (fillAccountKey account) query ∧
        Stores library metadata state query IsAccountInfo entry

/-! ## What is read of it -/

theorem Describes.balanceQuery_eq {Metadata : Type} {library : StorageLibrary Metadata}
    {metadata : Metadata} {pallet : String} {fill : TypeToFill → TypeToFill}
    {query : FinalizedStorageQuery} (h : Describes library metadata pallet fill query) :
    balanceQuery library pallet fill metadata = .ok query := by
  obtain ⟨⟨p₀, hfirst⟩, p, hfind, hprepares, e, hentry, hmade⟩ := h
  have hanswers : p.Answers library fill query := by
    rw [PalletStorage.Answers, hentry]
    exact hmade
  exact balanceQuery_of_find hfirst hfind hprepares hanswers

/-- What a search skips may be left out. -/
theorem findSome?_eq_of_filter {α β : Type} {f : α → Option β} {p : α → Bool}
    (h : ∀ a, p a = false → f a = none) (l : List α) :
    l.findSome? f = (l.filter p).findSome? f := by
  induction l with
  | nil => rfl
  | cons a l ih =>
    cases hp : p a with
    | true => rw [List.filter_cons_of_pos hp, List.findSome?_cons, List.findSome?_cons, ih]
    | false => rw [List.filter_cons_of_neg (by simp [hp]), List.findSome?_cons, h a hp, ih]

theorem assetBalanceOf_eq {balance : Balance} {fields : List FieldData}
    (h : IsAssetAccount balance (.composite fields)) : assetBalanceOf fields = some balance := by
  obtain ⟨field_name, hfields⟩ := h
  rw [assetBalanceOf, findSome?_eq_of_filter (p := fun field => field.2.isBalance), hfields]
  · rfl
  · rintro ⟨name, data⟩ hdata
    split
    · next heq =>
      obtain ⟨-, rfl⟩ := Prod.mk.inj heq
      exact absurd hdata Bool.noConfusion
    · rfl

theorem freeBalanceOf_eq {balance : Balance} {fields : List FieldData}
    (h : IsAccountInfo balance (.composite fields)) : freeBalanceOf fields = some balance := by
  obtain ⟨inner_fields, hfields, hinner⟩ := h
  rw [freeBalanceOf, findSome?_eq_of_filter (p := fun field => field.1 = some "data"), hfields]
  · rw [List.findSome?_cons]
    simp only
    rw [findSome?_eq_of_filter (p := fun field => field.1 = some "free"), hinner]
    · rfl
    · rintro ⟨name, data⟩ hname
      split
      · next heq =>
        obtain ⟨rfl, -⟩ := Prod.mk.inj heq
        exact absurd rfl (of_decide_eq_false hname)
      · rfl
  · rintro ⟨name, data⟩ hname
    split
    · next heq =>
      obtain ⟨rfl, -⟩ := Prod.mk.inj heq
      exact absurd rfl (of_decide_eq_false hname)
    · rfl

section Play

variable {library : BalanceLibrary lib.Metadata} {metadata : lib.Metadata} {node : Node}
  {block : BlockHash} {n : ℕ} {account : AccountId32} {entry : Option Balance}

/-- A request for a value, answered. -/
theorem play_getValueFromStorage (hanswered : ∀ n, node.answered n = true) (key : List UInt8) :
    play node.answers n (getValueFromStorage (hexString key) block).run =
      (.ok (match (node.state block).get key with
        | some value => .string (hexString value)
        | none => .null), n + 1) := by
  have hanswer : node.answers n
      ⟨"state_getStorage", [.string (hexString key), .string block.toString]⟩ =
        some (match (node.state block).get key with
          | some value => .string (hexString value)
          | none => .null) := by
    rw [Node.answers, if_pos (hanswered n)]
    exact node.answer_storage n key block
  rw [getValueFromStorage, Fetch.request, play_run_bind, play_attempt, hanswer]
  rfl

/-- A query is made, and its value requested. -/
theorem play_query {α : Type} (hanswered : ∀ n, node.answered n = true)
    {made : Except ChainError FinalizedStorageQuery} {query : FinalizedStorageQuery}
    (hmade : made = .ok query) (f : FinalizedStorageQuery → Json → Fetch α) :
    play node.answers n (do
      let query ← Fetch.ofExcept made
      let value_fetch ← getValueFromStorage (hexString (library.storageKey query)) block
      f query value_fetch : Fetch α).run =
    play node.answers (n + 1) (f query (match (node.state block).get (library.storageKey query) with
      | some value => .string (hexString value)
      | none => .null)).run := by
  rw [hmade, play_run_bind, Fetch.ofExcept]
  show play node.answers n (getValueFromStorage _ block >>= f query).run = _
  rw [play_run_bind, play_getValueFromStorage hanswered]

/-- A value is decoded. -/
theorem play_decode {α : Type} {ty : UInt32} {value : List UInt8} {data : ParsedData}
    (hdecode : library.decodeAllAsType metadata ty value = some data)
    (f : ParsedData → Fetch α) :
    play node.answers n (do
      let value_data ← Fetch.ofExcept (unhex (hexString value) .storageValue)
      f (← Fetch.ofExcept (decodeValue library metadata ty value_data)) : Fetch α).run =
    play node.answers n (f data).run := by
  have hdecoded : decodeValue library metadata ty value = .ok data := by
    rw [decodeValue, hdecode]
  rw [unhex_hexString, play_run_bind, Fetch.ofExcept]
  show play node.answers n (Fetch.ofExcept (decodeValue library metadata ty value) >>= f).run = _
  rw [hdecoded, play_run_bind, Fetch.ofExcept]
  rfl

theorem play_assetBalanceAtAccount (hanswered : ∀ n, node.answered n = true) {asset_id : AssetId}
    (h : LedgerEntry library metadata (node.state block) account entry (some asset_id)) :
    (play node.answers n (assetBalanceAtAccount library block metadata account asset_id).run).1 =
      entry.elim (.error (.failed .storageValueFormat)) .ok := by
  obtain ⟨query, hquery, hstores⟩ := h
  have hmade : assetBalanceQuery library.toStorageLibrary metadata account asset_id = .ok query :=
    hquery.balanceQuery_eq
  rw [assetBalanceAtAccount, play_query hanswered hmade]
  cases entry with
  | none =>
    rw [show (node.state block).get (library.storageKey query) = none from hstores]
    rfl
  | some balance =>
    obtain ⟨value, data, hvalue, hdecode, hrecord⟩ := hstores
    rw [hvalue]
    simp only
    rw [play_decode hdecode]
    match data, hrecord with
    | .composite fields, hrecord =>
      simp only [assetBalanceOf_eq hrecord]
      rfl

theorem play_systemBalanceAtAccount (hanswered : ∀ n, node.answered n = true)
    (h : LedgerEntry library metadata (node.state block) account entry none) :
    (play node.answers n (systemBalanceAtAccount library block metadata account).run).1 =
      entry.elim (.error (.failed .balanceNotFound)) .ok := by
  obtain ⟨query, hquery, hstores⟩ := h
  have hmade : systemBalanceQuery library.toStorageLibrary metadata account = .ok query :=
    hquery.balanceQuery_eq
  rw [systemBalanceAtAccount, play_query hanswered hmade]
  cases entry with
  | none =>
    rw [show (node.state block).get (library.storageKey query) = none from hstores]
    rfl
  | some balance =>
    obtain ⟨value, data, hvalue, hdecode, hrecord⟩ := hstores
    rw [hvalue]
    simp only
    rw [play_decode hdecode]
    match data, hrecord with
    | .composite fields, hrecord =>
      simp only [freeBalanceOf_eq hrecord]
      rfl

variable {watcher : ChainWatcher lib} {invoice : Invoice} {currency : CurrencyProperties}

/-- The error in place of an entry. -/
def noEntryError : Option AssetId → ChainError
  | some _ => .storageValueFormat
  | none => .balanceNotFound

/-- **What is read of an account**: the balance of its entry, and an error without one. -/
theorem play_balance (hanswered : ∀ n, node.answered n = true)
    (hcurrency : watcher.assets.lookup invoice.currency = some currency)
    (h : LedgerEntry library watcher.metadata (node.state block) invoice.address entry
      currency.asset_id) :
    (play node.answers n (invoice.balance library watcher block).run).1 =
      entry.elim (.error (.failed (noEntryError currency.asset_id))) .ok := by
  rw [Invoice.balance, hcurrency]
  simp only
  cases hid : currency.asset_id with
  | some asset_id =>
    rw [hid] at h
    exact play_assetBalanceAtAccount hanswered h
  | none =>
    rw [hid] at h
    exact play_systemBalanceAtAccount hanswered h

end Play

/-! ## When it agrees -/

/-- **The balance that is read is that of the ledger**, zero without an entry, and the check of
an invoice compares it, whatever else the surroundings of the tracker answer. -/
structure BalanceAgrees (library : BalanceLibrary lib.Metadata) (node : Node)
    (watcher : ChainWatcher lib) (block : BlockHash) (invoice : Invoice) (n : ℕ)
    (entry : Option Balance) : Prop where
  balance : (play node.answers n (invoice.balance library watcher block).run).1 =
    .ok (entry.getD 0)
  check : ∀ (answers : ℕ → ∀ o : (TrackerSig lib).Op, (TrackerSig lib).Answer o) m,
    answers m (.rpc (.balance watcher invoice block)) =
        (play node.answers n (invoice.balance library watcher block).run).1 →
      (play answers m (invoice.check watcher block).run).1 =
        .ok (decide (invoice.amount ≤ entry.getD 0))

theorem play_check {watcher : ChainWatcher lib} {block : BlockHash} {invoice : Invoice}
    {answers : ℕ → ∀ o : (TrackerSig lib).Op, (TrackerSig lib).Answer o} {m : ℕ}
    {result : Except Stop Balance}
    (h : answers m (.rpc (.balance watcher invoice block)) = result) :
    (play answers m (invoice.check watcher block).run).1 =
      result.map fun balance => decide (invoice.amount ≤ balance) := by
  have hrpc : play answers m (Job.rpc (.balance watcher invoice block)).run = (result, m + 1) := by
    rw [← h]
    rfl
  rw [Invoice.check, play_run_bind, hrpc]
  cases result <;> rfl

/-- **When the balance agrees**: the account has an entry. -/
theorem balanceAgrees_iff {library : BalanceLibrary lib.Metadata} {node : Node}
    {watcher : ChainWatcher lib} {block : BlockHash} {invoice : Invoice} {n : ℕ}
    {currency : CurrencyProperties} {entry : Option Balance}
    (hanswered : ∀ n, node.answered n = true)
    (hcurrency : watcher.assets.lookup invoice.currency = some currency)
    (h : LedgerEntry library watcher.metadata (node.state block) invoice.address entry
      currency.asset_id) :
    BalanceAgrees library node watcher block invoice n entry ↔ entry ≠ none := by
  have hbalance := @play_balance _ _ _ _ n _ _ _ _ hanswered hcurrency h
  cases entry with
  | none =>
    refine iff_of_false (fun hagrees => ?_) (fun hne => hne rfl)
    have hread := hagrees.balance
    rw [hbalance] at hread
    cases hread
  | some balance =>
    refine iff_of_true ⟨hbalance, fun answers m hanswer => ?_⟩ (Option.some_ne_none balance)
    rw [play_check hanswer, hbalance]
    rfl

/-! ## An account with nothing -/

namespace Sample

/-- Metadata with the accounts of a chain, and those in its assets. -/
def accountStorages : Storages where
  available_pallets := [
    ⟨"System", [⟨"Account", .ok (.map [.blake2_128Concat] (.specialType (.accountId32 none)) 3)⟩],
      0, fun _ => Nat.one_pos⟩,
    ⟨"Assets", [⟨"Account", .ok (.map [.blake2_128Concat, .blake2_128Concat]
        (.tuple [.primitive (.unsigned (.u32 none) .none), .specialType (.accountId32 none)]) 5)⟩],
      0, fun _ => Nat.one_pos⟩]
  preselected := 0
  preselected_lt _ := Nat.two_pos

/-- The key of the account, as it is stored. -/
def accountKey : List UInt8 :=
  [38, 170, 57, 78, 234, 86, 48, 224, 124, 72, 174, 12, 149, 88, 206, 247] ++
  [185, 157, 136, 14, 198, 129, 121, 156, 12, 243, 14, 136, 134, 55, 29, 169] ++
  [255, 15, 34, 73, 47, 68, 186, 196, 196, 179, 10, 229, 141, 14, 141, 170] ++
  account.bytes.toList

/-- The key of the account in the asset 1984. -/
def assetAccountKey : List UInt8 :=
  [104, 42, 89, 213, 26, 185, 228, 138, 140, 140, 196, 24, 255, 151, 8, 210] ++
  [185, 157, 136, 14, 198, 129, 121, 156, 12, 243, 14, 136, 134, 55, 29, 169] ++
  [163, 25, 208, 232, 114, 33, 202, 30, 231, 81, 193, 82, 159, 32, 21, 34] ++
  [192, 7, 0, 0] ++
  [255, 15, 34, 73, 47, 68, 186, 196, 196, 179, 10, 229, 141, 14, 141, 170] ++
  account.bytes.toList

/-- The record of an account with 1000, as it is stored. -/
def storedAccountInfo : List UInt8 :=
  [0, 0, 0, 0, 0, 0, 0, 0, 1, 0, 0, 0, 0, 0, 0, 0] ++ [232, 3] ++ List.replicate 61 0 ++ [128]

def accountInfo : ParsedData :=
  .composite [(some "nonce", .primitiveU32 0), (some "consumers", .primitiveU32 0),
    (some "providers", .primitiveU32 1), (some "sufficients", .primitiveU32 0),
    (some "data", .composite [(some "free", .primitiveU128 1000 true),
      (some "reserved", .primitiveU128 0 true), (some "frozen", .primitiveU128 0 true),
      (some "flags", .composite [(none, .primitiveU128 (1 <<< 127) false)])])]

/-- Libraries for these metadata, these keys and this record. -/
def balanceLibrary : BalanceLibrary libraries.Metadata where
  storages _ := accountStorages
  finalizeKey
    | _, .specialType (.accountId32 value) => .ok value.isSome
    | _, .tuple [.primitive (.unsigned (.u32 asset_id) _), .specialType (.accountId32 value)] =>
      .ok (asset_id.isSome && value.isSome)
    | _, _ => .ok false
  storageKey query := if query.pallet = "System" then accountKey else assetAccountKey
  decodeAllAsType _ _ value := if value = storedAccountInfo then some accountInfo else none

/-- A chain with its native token and an asset. -/
def hubChain : ChainWatcher libraries where
  genesis_hash := zeroBlock
  metadata := "statemint"
  specs := ⟨0, 10, "DOT"⟩
  assets := (AList.singleton "DOT" ⟨"statemint", .native, 10, "wss://node", none, 0⟩).insert
    "USDC" ⟨"statemint", .asset, 6, "wss://node", some 1984, 0⟩
  version := .null

def hubInvoice (currency : String) : Invoice := ⟨"order", account, currency, 1000, account, 0⟩

/-- A node all of whose blocks hold this record of the account, or nothing. -/
def accountNode (record : Option (List UInt8)) : Node where
  state _ := ⟨(record.map fun value => (accountKey, value)).toList, by cases record <;> simp⟩
  best _ := ⟨(record.map fun value => (accountKey, value)).toList, by cases record <;> simp⟩
  answered _ := true

theorem describes_account (metadata : libraries.Metadata) (owner : AccountId32) :
    Describes balanceLibrary.toStorageLibrary metadata "System" (fillAccountKey owner)
      ⟨"System", "Account", some (.specialType (.accountId32 (some owner))), 3⟩ := by
  refine ⟨⟨_, rfl, fun e he => ?_⟩, _, rfl, fun e he => ?_, _, rfl, _, rfl, rfl⟩
  · obtain rfl := Option.some.inj he
    exact ⟨_, rfl⟩
  · obtain rfl := Option.some.inj he
    exact ⟨_, rfl⟩

theorem describes_assetAccount (metadata : libraries.Metadata) (owner : AccountId32) :
    Describes balanceLibrary.toStorageLibrary metadata "Assets" (fillAssetKey owner 1984)
      ⟨"Assets", "Account", some (.tuple [.primitive (.unsigned (.u32 (some 1984)) .none),
        .specialType (.accountId32 (some owner))]), 5⟩ := by
  refine ⟨⟨_, rfl, fun e he => ?_⟩, _, rfl, fun e he => ?_, _, rfl, _, rfl, rfl⟩
  · obtain rfl := Option.some.inj he
    exact ⟨_, rfl⟩
  · obtain rfl := Option.some.inj he
    exact ⟨_, rfl⟩

/-- The node has the record of the account that it holds. -/
theorem ledgerEntry_funded : LedgerEntry balanceLibrary "statemint"
    ((accountNode (some storedAccountInfo)).state zeroBlock) account (some 1000) none := by
  refine ⟨_, describes_account _ _, storedAccountInfo, accountInfo, ?_, ?_, _, rfl, rfl⟩
  · show ((List.find? _ [(accountKey, storedAccountInfo)]).map Prod.snd) = _
    rw [List.find?_cons_of_pos (by simp [balanceLibrary])]
    rfl
  · show (if storedAccountInfo = storedAccountInfo then some accountInfo else none) = _
    rw [if_pos rfl]

/-- Without a record, the account has nothing, in the native token and in the asset. -/
theorem ledgerEntry_unfunded {asset_id : Option AssetId}
    (h : asset_id = none ∨ asset_id = some 1984) : LedgerEntry balanceLibrary "statemint"
    ((accountNode none).state zeroBlock) account none asset_id := by
  rcases h with rfl | rfl
  · exact ⟨_, describes_account _ _, rfl⟩
  · exact ⟨_, describes_assetAccount _ _, rfl⟩

end Sample

/-- An account with something. -/
theorem balanceAgrees_iff_funded :
    BalanceAgrees Sample.balanceLibrary (Sample.accountNode (some Sample.storedAccountInfo))
      Sample.hubChain Sample.zeroBlock (Sample.hubInvoice "DOT") 0 (some 1000) :=
  (balanceAgrees_iff (fun _ => rfl) rfl Sample.ledgerEntry_funded).mpr (Option.some_ne_none _)

/-- **An account that nobody has paid to.**  Its balance is not zero but an error, and another one
in the native token than in an asset. -/
theorem unfunded_account_not_agreed :
    (LedgerEntry Sample.balanceLibrary "statemint"
          ((Sample.accountNode none).state Sample.zeroBlock) Sample.account none none ∧
        ¬BalanceAgrees Sample.balanceLibrary (Sample.accountNode none) Sample.hubChain
          Sample.zeroBlock (Sample.hubInvoice "DOT") 0 none ∧
        (play (Sample.accountNode none).answers 0 ((Sample.hubInvoice "DOT").balance
          Sample.balanceLibrary Sample.hubChain Sample.zeroBlock).run).1 =
            .error (.failed .balanceNotFound)) ∧
      LedgerEntry Sample.balanceLibrary "statemint"
          ((Sample.accountNode none).state Sample.zeroBlock) Sample.account none (some 1984) ∧
        ¬BalanceAgrees Sample.balanceLibrary (Sample.accountNode none) Sample.hubChain
          Sample.zeroBlock (Sample.hubInvoice "USDC") 0 none ∧
        (play (Sample.accountNode none).answers 0 ((Sample.hubInvoice "USDC").balance
          Sample.balanceLibrary Sample.hubChain Sample.zeroBlock).run).1 =
            .error (.failed .storageValueFormat) := by
  have hnative := Sample.ledgerEntry_unfunded (.inl rfl)
  have hasset := Sample.ledgerEntry_unfunded (.inr rfl)
  have hdot : Sample.hubChain.assets.lookup (Sample.hubInvoice "DOT").currency =
      some ⟨"statemint", .native, 10, "wss://node", none, 0⟩ := rfl
  have husdc : Sample.hubChain.assets.lookup (Sample.hubInvoice "USDC").currency =
      some ⟨"statemint", .asset, 6, "wss://node", some 1984, 0⟩ := rfl
  have hread_native : (play (Sample.accountNode none).answers 0 ((Sample.hubInvoice "DOT").balance
      Sample.balanceLibrary Sample.hubChain Sample.zeroBlock).run).1 =
        .error (.failed .balanceNotFound) := by
    rw [play_balance (fun _ => rfl) hdot hnative]
    rfl
  have hread_asset : (play (Sample.accountNode none).answers 0 ((Sample.hubInvoice "USDC").balance
      Sample.balanceLibrary Sample.hubChain Sample.zeroBlock).run).1 =
        .error (.failed .storageValueFormat) := by
    rw [play_balance (fun _ => rfl) husdc hasset]
    rfl
  refine ⟨⟨hnative, fun hagrees => ?_, hread_native⟩, hasset, fun hagrees => ?_, hread_asset⟩
  · cases hread_native.symm.trans hagrees.balance
  · cases hread_asset.symm.trans hagrees.balance

end Kalatori
