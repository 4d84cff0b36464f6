import Kalatori.Chain.Rpc
import Kalatori.Chain.Transaction

/-!
# Storage queries

A query for a stored item is prepared by a library that selects a pallet and one
of its entries, to begin with some of them, and is told to select others.  The
three functions of this module look for the pallet and the entry by their names
and fill in the key.

The query for the block number is an error where one of them is not found.  The
two for balances go on with what is selected, and make a query for it if there is
nothing to fill in: for the first entry of the first pallet, for example.

* `StorageSelector.init`, `StorageSelectorFunctional.newAt`, `EntrySelectorFunctional.newAt`:
  what the library selects.
* `assetBalanceQuery`, `systemBalanceQuery`, `blockNumberQuery`: the queries.
* `balanceQuery_cases`: the items that a query for a balance can be for.
* `queriesRight_iff`: when they are for the item asked for, or errors.
-/

namespace Kalatori

open Results

/-! ## What the library selects -/

inductive StorageEntryTypeToFill
  | map (hashers : List StorageHasher) (key_to_fill : TypeToFill) (value : UInt32)
  | plain (value : UInt32)

/-- An entry of a storage, with what the library prepares when it is selected. -/
structure StorageEntry where
  name : String
  type_to_fill : Except ChainError StorageEntryTypeToFill

/-- The storage of a pallet, under the name that its keys begin with, and the entry that is
selected at first. -/
structure PalletStorage where
  stem : String
  available_entries : List StorageEntry
  preselected : ℕ
  preselected_lt : available_entries ≠ [] → preselected < available_entries.length

/-- The storages of the pallets, and the one that is selected at first. -/
structure Storages where
  available_pallets : List PalletStorage
  preselected : ℕ
  preselected_lt : available_pallets ≠ [] → preselected < available_pallets.length

structure StorageEntryToFill where
  name : String
  type_to_fill : StorageEntryTypeToFill

structure EntrySelectorFunctional where
  available_entries : List StorageEntry
  selected_entry : StorageEntryToFill

inductive EntrySelector
  | empty
  | functional (selector : EntrySelectorFunctional)

structure StorageQuery where
  pallet : String
  entry_selector : EntrySelector

structure StorageSelectorFunctional where
  available_pallets : List PalletStorage
  query : StorageQuery

inductive StorageSelector
  | empty
  | functional (selector : StorageSelectorFunctional)

/-- A query, with its key as what the library hashes: the names of the pallet and of the entry,
and what was filled in. -/
structure FinalizedStorageQuery where
  pallet : String
  entry : String
  key : Option TypeToFill
  value_ty : UInt32

/-- The libraries that read metadata and make keys. -/
structure StorageLibrary (Metadata : Type) where
  storages : Metadata → Storages
  /-- Whether a key is complete; hashing it may fail. -/
  finalizeKey : List StorageHasher → TypeToFill → Except ChainError Bool

namespace EntrySelectorFunctional

/-- `EntrySelectorFunctional::new_at`, for an index that is in range. -/
def newAt (available_entries : List StorageEntry) (entry : StorageEntry) :
    Except ChainError EntrySelectorFunctional := do
  return ⟨available_entries, entry.name, ← entry.type_to_fill⟩

end EntrySelectorFunctional

/-- `StorageSelectorFunctional::new_at`, for an index that is in range. -/
def StorageSelectorFunctional.newAt (available_pallets : List PalletStorage)
    (pallet : PalletStorage) : Except ChainError StorageSelectorFunctional := do
  match pallet.available_entries[pallet.preselected]? with
  | some entry =>
    let selector ← EntrySelectorFunctional.newAt pallet.available_entries entry
    return ⟨available_pallets, pallet.stem, .functional selector⟩
  | none => return ⟨available_pallets, pallet.stem, .empty⟩

/-- `StorageSelector::init` -/
def StorageSelector.init (storages : Storages) : Except ChainError StorageSelector := do
  match storages.available_pallets[storages.preselected]? with
  | some pallet =>
    return .functional (← StorageSelectorFunctional.newAt storages.available_pallets pallet)
  | none => return .empty

section Finalize

variable {Metadata : Type} (lib : StorageLibrary Metadata)

/-- `finalize`, of a selected entry. -/
def StorageEntryToFill.finalize (entry : StorageEntryToFill) (pallet : String) :
    Except ChainError (Option FinalizedStorageQuery) :=
  match entry.type_to_fill with
  | .plain value => return some ⟨pallet, entry.name, none, value⟩
  | .map hashers key_to_fill value => do
    if ← lib.finalizeKey hashers key_to_fill then
      return some ⟨pallet, entry.name, some key_to_fill, value⟩
    else return none

def StorageQuery.finalize (query : StorageQuery) :
    Except ChainError (Option FinalizedStorageQuery) :=
  match query.entry_selector with
  | .empty => return none
  | .functional selector => selector.selected_entry.finalize lib query.pallet

end Finalize

/-! ## The queries -/

/-- What is filled in for one type of the key of an asset account. -/
def fillAssetKeyType (account_id : AccountId32) (asset_id : AssetId) : TypeToFill → TypeToFill
  | .specialType (.accountId32 _) => .specialType (.accountId32 (some account_id))
  | .primitive (.compactUnsigned (.u32 _) specialty) =>
    .primitive (.compactUnsigned (.u32 (some asset_id)) specialty)
  | .primitive (.unsigned (.u32 _) specialty) =>
    .primitive (.unsigned (.u32 (some asset_id)) specialty)
  | ty => ty

/-- The key of `asset_balance_query`. -/
def fillAssetKey (account_id : AccountId32) (asset_id : AssetId) : TypeToFill → TypeToFill
  | .tuple set => .tuple (set.map (fillAssetKeyType account_id asset_id))
  | key_to_fill => key_to_fill

/-- The key of `system_balance_query`. -/
def fillAccountKey (account_id : AccountId32) : TypeToFill → TypeToFill
  | .specialType (.accountId32 _) => .specialType (.accountId32 (some account_id))
  | key_to_fill => key_to_fill

def StorageEntryTypeToFill.fillKey (fill : TypeToFill → TypeToFill) :
    StorageEntryTypeToFill → StorageEntryTypeToFill
  | .map hashers key_to_fill value => .map hashers (fill key_to_fill) value
  | .plain value => .plain value

section Queries

variable {Metadata : Type} (lib : StorageLibrary Metadata)

/-- The entry `Account` is selected, and its key filled in, if there is one. -/
def selectAccount (fill : TypeToFill → TypeToFill) (query : StorageQuery) :
    Except ChainError StorageQuery :=
  match query.entry_selector with
  | .functional selector =>
    match selector.available_entries.find? fun entry => entry.name = "Account" with
    | some entry => do
      let selector ← EntrySelectorFunctional.newAt selector.available_entries entry
      let selected_entry := { selector.selected_entry with
        type_to_fill := selector.selected_entry.type_to_fill.fillKey fill }
      return { query with
        entry_selector := .functional { selector with selected_entry := selected_entry } }
    | none => return query
  | .empty => return query

/-- `asset_balance_query` and `system_balance_query`, which differ in the pallet and the key. -/
def balanceQuery (pallet : String) (fill : TypeToFill → TypeToFill) (metadata : Metadata) :
    Except ChainError FinalizedStorageQuery := do
  match ← StorageSelector.init (lib.storages metadata) with
  | .functional selector =>
    let query ←
      match selector.available_pallets.find? fun storage => storage.stem = pallet with
      | some storage => do
        let selector ← StorageSelectorFunctional.newAt selector.available_pallets storage
        selectAccount fill selector.query
      | none => pure selector.query
    match ← query.finalize lib with
    | some query => return query
    | none => throw .storageQuery
  | .empty => throw .storageQuery

def assetBalanceQuery (metadata : Metadata) (account_id : AccountId32) (asset_id : AssetId) :
    Except ChainError FinalizedStorageQuery :=
  balanceQuery lib "Assets" (fillAssetKey account_id asset_id) metadata

def systemBalanceQuery (metadata : Metadata) (account_id : AccountId32) :
    Except ChainError FinalizedStorageQuery :=
  balanceQuery lib "System" (fillAccountKey account_id) metadata

def blockNumberQuery (metadata : Metadata) : Except ChainError FinalizedStorageQuery := do
  match ← StorageSelector.init (lib.storages metadata) with
  | .functional selector =>
    match selector.available_pallets.find? fun storage => storage.stem = "System" with
    | some storage =>
      let selector ← StorageSelectorFunctional.newAt selector.available_pallets storage
      match selector.query.entry_selector with
      | .functional entry_selector =>
        match entry_selector.available_entries.find? fun entry => entry.name = "Number" with
        | some entry =>
          let entry_selector ← EntrySelectorFunctional.newAt entry_selector.available_entries entry
          let query := { selector.query with entry_selector := .functional entry_selector }
          match ← query.finalize lib with
          | some query => return query
          | none => throw .storageQuery
        | none => throw .noBlockNumberDefinition
      | .empty => throw .noStorageInSystem
    | none => throw .noSystem
  | .empty => throw .noStorage

end Queries

/-! ## What is asked for -/

/-- The metadata have an entry whose key can be filled in. -/
def Storages.Has (storages : Storages) (pallet entry : String)
    (Fillable : StorageEntryTypeToFill → Prop) : Prop :=
  ∃ p ∈ storages.available_pallets, p.stem = pallet ∧ ∃ e ∈ p.available_entries,
    e.name = entry ∧ ∃ t, e.type_to_fill = .ok t ∧ Fillable t

/-- **A query is for the item asked for, or an error.** -/
structure QueryRight (storages : Storages) (pallet entry : String)
    (Fillable : StorageEntryTypeToFill → Prop) (IsKey : Option TypeToFill → Prop)
    (query : Except ChainError FinalizedStorageQuery) : Prop where
  item : ∀ q, query = .ok q → q.pallet = pallet ∧ q.entry = entry ∧ IsKey q.key
  lacking : ¬storages.Has pallet entry Fillable → Refuses query

/-- A number that an asset is known by. -/
def NamesAsset (asset_id : AssetId) : TypeToFill → Prop
  | .primitive (.compactUnsigned (.u32 value) _) | .primitive (.unsigned (.u32 value) _) =>
    value = some asset_id
  | _ => False

/-- The asset and the account, as the key of an asset account. -/
def IsAssetKey (account_id : AccountId32) (asset_id : AssetId) (key : Option TypeToFill) : Prop :=
  ∃ k, NamesAsset asset_id k ∧
    key = some (.tuple [k, .specialType (.accountId32 (some account_id))])

/-- The account as the key. -/
def IsAccountKey (account_id : AccountId32) (key : Option TypeToFill) : Prop :=
  key = some (.specialType (.accountId32 (some account_id)))

def HoldsAssetId : TypeToFill → Prop
  | .primitive (.compactUnsigned (.u32 _) _) | .primitive (.unsigned (.u32 _) _) => True
  | _ => False

def HoldsAccount : TypeToFill → Prop
  | .specialType (.accountId32 _) => True
  | _ => False

/-- A map from assets and accounts. -/
def FillableAsset : StorageEntryTypeToFill → Prop
  | .map _ (.tuple [a, b]) _ => HoldsAssetId a ∧ HoldsAccount b
  | _ => False

/-- A map from accounts. -/
def FillableAccount : StorageEntryTypeToFill → Prop
  | .map _ key _ => HoldsAccount key
  | .plain _ => False

section Cases

variable {Metadata : Type} {lib : StorageLibrary Metadata} {metadata : Metadata}

/-- A query is made of a selected entry. -/
def Makes (lib : StorageLibrary Metadata) (pallet : String) (e : StorageEntry)
    (t : StorageEntryTypeToFill) (q : FinalizedStorageQuery) : Prop :=
  (StorageEntryToFill.mk e.name t).finalize lib pallet = .ok (some q)

/-- The entry that is selected at first, if there is one, can be prepared. -/
def PalletStorage.Prepares (p : PalletStorage) : Prop :=
  ∀ e, p.available_entries[p.preselected]? = some e → ∃ t, e.type_to_fill = .ok t

/-- The entry that is selected at first, as it is prepared, makes a query. -/
def PalletStorage.Offers (lib : StorageLibrary Metadata) (p : PalletStorage)
    (q : FinalizedStorageQuery) : Prop :=
  ∃ e t, p.available_entries[p.preselected]? = some e ∧ e.type_to_fill = .ok t ∧
    Makes lib p.stem e t q

/-- The pallet that is selected at first, if its entry can be prepared. -/
def Storages.First (storages : Storages) (p : PalletStorage) : Prop :=
  storages.available_pallets[storages.preselected]? = some p ∧ p.Prepares

/-- What is selected in a pallet. -/
inductive Selects (pallets : List PalletStorage) (p : PalletStorage) :
    StorageSelectorFunctional → Prop
  | empty (h : p.available_entries = []) : Selects pallets p ⟨pallets, p.stem, .empty⟩
  | entry (e : StorageEntry) (t : StorageEntryTypeToFill)
      (he : p.available_entries[p.preselected]? = some e) (ht : e.type_to_fill = .ok t) :
      Selects pallets p ⟨pallets, p.stem, .functional ⟨p.available_entries, e.name, t⟩⟩

theorem newAt_eq_ok_iff {pallets : List PalletStorage} {p : PalletStorage}
    {selector : StorageSelectorFunctional} :
    StorageSelectorFunctional.newAt pallets p = .ok selector ↔ Selects pallets p selector := by
  unfold StorageSelectorFunctional.newAt
  cases he : p.available_entries[p.preselected]? with
  | none =>
    have hempty : p.available_entries = [] := by
      by_contra hne
      have hlt := p.preselected_lt hne
      rw [List.getElem?_eq_getElem hlt] at he
      cases he
    constructor
    · intro h
      obtain rfl := Except.ok.inj h
      exact .empty hempty
    · intro h
      cases h with
      | empty => rfl
      | entry e t he' => cases he.symm.trans he'
  | some e =>
    simp only [EntrySelectorFunctional.newAt, bind_eq_ok_iff]
    constructor
    · rintro ⟨_, ⟨t, ht, hsel⟩, h⟩
      obtain rfl := Except.ok.inj hsel
      obtain rfl := Except.ok.inj h
      exact .entry e t he ht
    · intro h
      cases h with
      | empty h =>
        rw [h] at he
        cases he
      | entry e' t he' ht =>
        obtain rfl := Option.some.inj (he.symm.trans he')
        exact ⟨_, ⟨t, ht, rfl⟩, rfl⟩

theorem exists_selects_iff {pallets : List PalletStorage} {p : PalletStorage} :
    (∃ selector, Selects pallets p selector) ↔ p.Prepares := by
  constructor
  · rintro ⟨_, h⟩ e he
    cases h with
    | empty h =>
      rw [h] at he
      cases he
    | entry e' t he' ht =>
      obtain rfl := Option.some.inj (he.symm.trans he')
      exact ⟨t, ht⟩
  · intro h
    by_cases hempty : p.available_entries = []
    · exact ⟨_, .empty hempty⟩
    · have he := List.getElem?_eq_getElem (p.preselected_lt hempty)
      obtain ⟨t, ht⟩ := h _ he
      exact ⟨_, .entry _ t he ht⟩

/-- What is selected at first makes the query that is offered. -/
theorem Selects.finalize_iff {pallets : List PalletStorage} {p : PalletStorage}
    {selector : StorageSelectorFunctional} (h : Selects pallets p selector)
    {q : FinalizedStorageQuery} :
    selector.query.finalize lib = .ok (some q) ↔ p.Offers lib q := by
  cases h with
  | empty hempty =>
    refine iff_of_false nofun ?_
    rintro ⟨e, t, he, -⟩
    rw [hempty] at he
    cases he
  | entry e t he ht =>
    constructor
    · intro hq
      exact ⟨e, t, he, ht, hq⟩
    · rintro ⟨e', t', he', ht', hq⟩
      obtain rfl := Option.some.inj (he.symm.trans he')
      obtain rfl := Except.ok.inj (ht.symm.trans ht')
      exact hq

/-- The query that is made in a pallet: for its entry `Account`, or for what is selected at
first. -/
def PalletStorage.Answers (lib : StorageLibrary Metadata) (fill : TypeToFill → TypeToFill)
    (p : PalletStorage) (q : FinalizedStorageQuery) : Prop :=
  match p.available_entries.find? fun entry => entry.name = "Account" with
  | some e => ∃ t, e.type_to_fill = .ok t ∧ Makes lib p.stem e (t.fillKey fill) q
  | none => p.Offers lib q

theorem Selects.selectAccount_iff {pallets : List PalletStorage} {p : PalletStorage}
    {selector : StorageSelectorFunctional} (h : Selects pallets p selector)
    {fill : TypeToFill → TypeToFill} {q : FinalizedStorageQuery} :
    (∃ query, selectAccount fill selector.query = .ok query ∧
      query.finalize lib = .ok (some q)) ↔ p.Answers lib fill q := by
  have hfirst := @Selects.finalize_iff _ lib _ _ _ h q
  have hkept : (∃ query, (.ok selector.query : Except ChainError _) = .ok query ∧
      query.finalize lib = .ok (some q)) ↔ p.Offers lib q := by
    rw [← hfirst]
    simp only [Except.ok.injEq, exists_eq_left']
  unfold PalletStorage.Answers selectAccount
  cases h with
  | empty hempty =>
    rw [hempty]
    exact hkept
  | entry e t he ht =>
    cases hfind : p.available_entries.find? fun entry => entry.name = "Account" with
    | none =>
      simp only [hfind]
      exact hkept
    | some account =>
      simp only [hfind, EntrySelectorFunctional.newAt, bind_eq_ok_iff]
      constructor
      · rintro ⟨_, ⟨_, ⟨t', ht', hsel⟩, hquery⟩, hq⟩
        obtain rfl := Except.ok.inj hsel
        obtain rfl := Except.ok.inj hquery
        exact ⟨t', ht', hq⟩
      · rintro ⟨t', ht', hq⟩
        exact ⟨_, ⟨_, ⟨t', ht', rfl⟩, rfl⟩, hq⟩

theorem Selects.available_pallets_eq {pallets : List PalletStorage} {p : PalletStorage}
    {selector : StorageSelectorFunctional} (h : Selects pallets p selector) :
    selector.available_pallets = pallets := by
  cases h <;> rfl

theorem init_available_pallets {storages : Storages} {selector : StorageSelectorFunctional}
    (h : StorageSelector.init storages = .ok (.functional selector)) :
    selector.available_pallets = storages.available_pallets := by
  unfold StorageSelector.init at h
  split at h
  · obtain ⟨s, hs, heq⟩ := bind_eq_ok_iff.mp h
    obtain rfl := StorageSelector.functional.inj (Except.ok.inj heq)
    exact (newAt_eq_ok_iff.mp hs).available_pallets_eq
  · cases Except.ok.inj h

/-- A query that is not made is an error. -/
theorem finalized_eq_ok_iff {query : StorageQuery} {q : FinalizedStorageQuery} :
    (do
      match ← query.finalize lib with
      | some query => return query
      | none => throw ChainError.storageQuery : Except ChainError FinalizedStorageQuery) = .ok q ↔
      query.finalize lib = .ok (some q) := by
  rw [bind_eq_ok_iff]
  constructor
  · rintro ⟨_ | q', hq', h⟩
    · cases h
    · obtain rfl := Except.ok.inj h
      exact hq'
  · intro h
    exact ⟨some q, h, rfl⟩

/-- **The items that a query for a balance can be for.** -/
theorem balanceQuery_eq_ok_iff {pallet : String} {fill : TypeToFill → TypeToFill}
    {q : FinalizedStorageQuery} :
    balanceQuery lib pallet fill metadata = .ok q ↔
      ∃ p₀, (lib.storages metadata).First p₀ ∧
        match (lib.storages metadata).available_pallets.find? fun p => p.stem = pallet with
        | some p => p.Prepares ∧ p.Answers lib fill q
        | none => p₀.Offers lib q := by
  unfold balanceQuery StorageSelector.init Storages.First
  cases hfirst :
      (lib.storages metadata).available_pallets[(lib.storages metadata).preselected]? with
  | none =>
    refine iff_of_false nofun ?_
    rintro ⟨p₀, ⟨h, -⟩, -⟩
    cases h
  | some p₀ =>
    rw [bind_eq_ok_iff]
    simp only [bind_eq_ok_iff, newAt_eq_ok_iff]
    constructor
    · rintro ⟨_, ⟨s, hs, hsel⟩, hq⟩
      obtain rfl := Except.ok.inj hsel
      refine ⟨p₀, ⟨rfl, exists_selects_iff.mp ⟨s, hs⟩⟩, ?_⟩
      simp only [hs.available_pallets_eq] at hq
      cases hfind : (lib.storages metadata).available_pallets.find? fun p => p.stem = pallet with
      | none =>
        simp only [hfind] at hq ⊢
        exact hs.finalize_iff.mp (finalized_eq_ok_iff.mp hq)
      | some p =>
        simp only [hfind, bind_eq_ok_iff, newAt_eq_ok_iff] at hq ⊢
        obtain ⟨s', hs', query, hquery, hq⟩ := hq
        refine ⟨exists_selects_iff.mp ⟨s', hs'⟩, hs'.selectAccount_iff.mp ⟨query, hquery, ?_⟩⟩
        rw [← finalized_eq_ok_iff, bind_eq_ok_iff]
        exact hq
    · rintro ⟨_, ⟨h, hprepares⟩, hmade⟩
      obtain rfl := Option.some.inj h
      obtain ⟨s, hs⟩ := exists_selects_iff.mpr hprepares
      refine ⟨_, ⟨s, hs, rfl⟩, ?_⟩
      simp only [hs.available_pallets_eq]
      cases hfind : (lib.storages metadata).available_pallets.find? fun p => p.stem = pallet with
      | none =>
        simp only [hfind] at hmade ⊢
        exact finalized_eq_ok_iff.mpr (hs.finalize_iff.mpr hmade)
      | some p =>
        simp only [hfind, bind_eq_ok_iff, newAt_eq_ok_iff] at hmade ⊢
        obtain ⟨s', hs'⟩ := exists_selects_iff.mpr hmade.1
        obtain ⟨query, hquery, hq⟩ := hs'.selectAccount_iff.mpr hmade.2
        refine ⟨s', hs', query, hquery, ?_⟩
        rw [← bind_eq_ok_iff]
        exact finalized_eq_ok_iff.mpr hq

/-- The query that is made in a pallet, where there is one of the name. -/
theorem balanceQuery_of_find {pallet : String} {fill : TypeToFill → TypeToFill}
    {p₀ p : PalletStorage} {q : FinalizedStorageQuery} (hfirst : (lib.storages metadata).First p₀)
    (hfind : (lib.storages metadata).available_pallets.find? (fun p => p.stem = pallet) = some p)
    (hprepares : p.Prepares) (hanswers : p.Answers lib fill q) :
    balanceQuery lib pallet fill metadata = .ok q := by
  rw [balanceQuery_eq_ok_iff]
  refine ⟨p₀, hfirst, ?_⟩
  rw [hfind]
  exact ⟨hprepares, hanswers⟩

end Cases

/-! ## When it is what is asked for -/

/-- The key of a query for an entry. -/
def StorageEntryTypeToFill.key? : StorageEntryTypeToFill → Option TypeToFill
  | .map _ key _ => some key
  | .plain _ => none

section Right

variable {Metadata : Type} (lib : StorageLibrary Metadata) (storages : Storages)

/-- **Nothing makes a query in place of an entry `Account` whose key can be filled in**: not the
first entry of the first pallet when there is no such pallet, not the first entry of that pallet
when it has no such entry, and not that entry when its key is of another kind. -/
structure NoSubstitute (pallet : String) (fill : TypeToFill → TypeToFill)
    (Fillable : StorageEntryTypeToFill → Prop) : Prop where
  no_pallet : ∀ p₀ q, storages.First p₀ →
    (storages.available_pallets.find? fun p => p.stem = pallet) = none → ¬p₀.Offers lib q
  no_entry : ∀ p₀ p q, storages.First p₀ →
    (storages.available_pallets.find? fun p => p.stem = pallet) = some p → p.Prepares →
    (p.available_entries.find? fun e => e.name = "Account") = none → ¬p.Offers lib q
  other_key : ∀ p₀ p e t q, storages.First p₀ →
    (storages.available_pallets.find? fun p => p.stem = pallet) = some p → p.Prepares →
    (p.available_entries.find? fun e => e.name = "Account") = some e → e.type_to_fill = .ok t →
    Makes lib p.stem e (t.fillKey fill) q → Fillable t

variable {lib storages}

theorem Makes.eq {pallet : String} {e : StorageEntry} {t : StorageEntryTypeToFill}
    {q : FinalizedStorageQuery} (h : Makes lib pallet e t q) :
    q.pallet = pallet ∧ q.entry = e.name ∧ q.key = t.key? := by
  unfold Makes StorageEntryToFill.finalize at h
  cases t with
  | plain value =>
    obtain rfl := Option.some.inj (Except.ok.inj h)
    exact ⟨rfl, rfl, rfl⟩
  | map hashers key value =>
    obtain ⟨complete, -, hq⟩ := bind_eq_ok_iff.mp h
    cases complete with
    | false => cases Except.ok.inj hq
    | true =>
      obtain rfl := Option.some.inj (Except.ok.inj hq)
      exact ⟨rfl, rfl, rfl⟩

theorem PalletStorage.Offers.eq {p : PalletStorage} {q : FinalizedStorageQuery}
    (h : p.Offers lib q) : q.pallet = p.stem ∧ ∃ e ∈ p.available_entries, q.entry = e.name := by
  obtain ⟨e, t, he, -, hmakes⟩ := h
  exact ⟨hmakes.eq.1, e, List.mem_of_getElem? he, hmakes.eq.2.1⟩

theorem queryRight_iff {metadata : Metadata} {pallet : String} {fill : TypeToFill → TypeToFill}
    {Fillable : StorageEntryTypeToFill → Prop} {IsKey : Option TypeToFill → Prop}
    (hkey : ∀ t : StorageEntryTypeToFill, IsKey (t.fillKey fill).key? ↔ Fillable t) :
    QueryRight (lib.storages metadata) pallet "Account" Fillable IsKey
        (balanceQuery lib pallet fill metadata) ↔
      NoSubstitute lib (lib.storages metadata) pallet fill Fillable := by
  constructor
  · rintro ⟨hitem, -⟩
    refine ⟨fun p₀ q hfirst hfind hoffers => ?_,
      fun p₀ p q hfirst hfind hprepares hno hoffers => ?_,
      fun p₀ p e t q hfirst hfind hprepares hsome ht hmakes => ?_⟩
    · have hok : balanceQuery lib pallet fill metadata = .ok q := by
        rw [balanceQuery_eq_ok_iff]
        refine ⟨p₀, hfirst, ?_⟩
        rw [hfind]
        exact hoffers
      have hstem : p₀.stem = pallet := hoffers.eq.1.symm.trans (hitem q hok).1
      have hnone := List.find?_eq_none.mp hfind p₀ (List.mem_of_getElem? hfirst.1)
      exact hnone (decide_eq_true hstem)
    · have hanswers : p.Answers lib fill q := by
        rw [PalletStorage.Answers, hno]
        exact hoffers
      have hok := balanceQuery_of_find hfirst hfind hprepares hanswers
      obtain ⟨-, e, he, hname⟩ := hoffers.eq
      have hnone := List.find?_eq_none.mp hno e he
      exact hnone (decide_eq_true (hname.symm.trans (hitem q hok).2.1))
    · have hanswers : p.Answers lib fill q := by
        rw [PalletStorage.Answers, hsome]
        exact ⟨t, ht, hmakes⟩
      have hok := balanceQuery_of_find hfirst hfind hprepares hanswers
      have hq := (hitem q hok).2.2
      rw [hmakes.eq.2.2, hkey] at hq
      exact hq
  · intro h
    have hmade : ∀ q, balanceQuery lib pallet fill metadata = .ok q → ∃ p ∈
        (lib.storages metadata).available_pallets, p.stem = pallet ∧ ∃ e ∈ p.available_entries,
          e.name = "Account" ∧ ∃ t, e.type_to_fill = .ok t ∧ Fillable t ∧
            Makes lib p.stem e (t.fillKey fill) q := by
      intro q hq
      obtain ⟨p₀, hfirst, hmade⟩ := balanceQuery_eq_ok_iff.mp hq
      cases hfind : (lib.storages metadata).available_pallets.find? fun p => p.stem = pallet with
      | none =>
        rw [hfind] at hmade
        exact absurd hmade (h.no_pallet p₀ q hfirst hfind)
      | some p =>
        rw [hfind] at hmade
        obtain ⟨hprepares, hanswers⟩ := hmade
        rw [PalletStorage.Answers] at hanswers
        cases hentry : p.available_entries.find? fun e => e.name = "Account" with
        | none =>
          rw [hentry] at hanswers
          exact absurd hanswers (h.no_entry p₀ p q hfirst hfind hprepares hentry)
        | some e =>
          rw [hentry] at hanswers
          obtain ⟨t, ht, hmakes⟩ := hanswers
          have hstem : p.stem = pallet := by simpa using List.find?_some hfind
          have hname : e.name = "Account" := by simpa using List.find?_some hentry
          exact ⟨p, List.mem_of_find?_eq_some hfind, hstem, e,
            List.mem_of_find?_eq_some hentry, hname, t, ht,
            h.other_key p₀ p e t q hfirst hfind hprepares hentry ht hmakes, hmakes⟩
    refine ⟨fun q hq => ?_, fun hlacks => ?_⟩
    · obtain ⟨p, -, hstem, e, -, hname, t, -, hfillable, hmakes⟩ := hmade q hq
      refine ⟨hmakes.eq.1.trans hstem, hmakes.eq.2.1.trans hname, ?_⟩
      rw [hmakes.eq.2.2, hkey]
      exact hfillable
    · cases hq : balanceQuery lib pallet fill metadata with
      | error e => exact ⟨e, rfl⟩
      | ok q =>
        obtain ⟨p, hp, hstem, e, he, hname, t, ht, hfillable, -⟩ := hmade q hq
        exact absurd ⟨p, hp, hstem, e, he, hname, t, ht, hfillable⟩ hlacks

/-! ## The three queries -/

theorem fillAssetKeyType_eq_account_iff {account_id : AccountId32} {asset_id : AssetId}
    {t : TypeToFill} :
    fillAssetKeyType account_id asset_id t = .specialType (.accountId32 (some account_id)) ↔
      HoldsAccount t := by
  unfold fillAssetKeyType HoldsAccount
  split <;> simp_all

theorem namesAsset_fillAssetKeyType_iff {account_id : AccountId32} {asset_id : AssetId}
    {t : TypeToFill} :
    NamesAsset asset_id (fillAssetKeyType account_id asset_id t) ↔ HoldsAssetId t := by
  cases t with
  | primitive content =>
    match content with
    | .compactUnsigned (.u32 _) _ | .unsigned (.u32 _) _ => exact iff_of_true rfl trivial
    | .compactUnsigned (.u128 _) _ | .unsigned (.u128 _) _ | .compactUnsigned .other _
    | .unsigned .other _ | .bool _ | .other => exact Iff.rfl
  | specialType content => cases content <;> exact Iff.rfl
  | composite | sequenceRegular | tuple | variant | other => exact Iff.rfl

theorem isAssetKey_iff {account_id : AccountId32} {asset_id : AssetId}
    (t : StorageEntryTypeToFill) :
    IsAssetKey account_id asset_id (t.fillKey (fillAssetKey account_id asset_id)).key? ↔
      FillableAsset t := by
  match t with
  | .map _ (.tuple [a, b]) _ =>
    show (∃ k, NamesAsset asset_id k ∧ some (TypeToFill.tuple [_, _]) = some (.tuple [k, _])) ↔
      HoldsAssetId a ∧ HoldsAccount b
    rw [← @namesAsset_fillAssetKeyType_iff account_id asset_id a,
      ← @fillAssetKeyType_eq_account_iff account_id asset_id b]
    constructor
    · rintro ⟨k, hk, heq⟩
      obtain ⟨rfl, hb, -⟩ : _ = k ∧ _ ∧ True := by simpa using heq
      exact ⟨hk, hb⟩
    · rintro ⟨ha, hb⟩
      exact ⟨_, ha, by rw [hb]⟩
  | .map _ (.tuple []) _ | .map _ (.tuple [_]) _ | .map _ (.tuple (_ :: _ :: _ :: _)) _ =>
    refine iff_of_false ?_ not_false
    rintro ⟨k, -, heq⟩
    simp [StorageEntryTypeToFill.key?, StorageEntryTypeToFill.fillKey, fillAssetKey] at heq
  | .map _ (.composite _) _ | .map _ (.primitive _) _ | .map _ (.sequenceRegular _) _
  | .map _ (.specialType _) _ | .map _ (.variant ..) _ | .map _ .other _ | .plain _ =>
    refine iff_of_false ?_ not_false
    rintro ⟨k, -, heq⟩
    cases heq

theorem isAccountKey_iff {account_id : AccountId32} (t : StorageEntryTypeToFill) :
    IsAccountKey account_id (t.fillKey (fillAccountKey account_id)).key? ↔ FillableAccount t := by
  match t with
  | .map _ (.specialType (.accountId32 _)) _ => exact iff_of_true rfl trivial
  | .map _ (.specialType (.era _)) _ | .map _ (.specialType (.signatureSr25519 _)) _
  | .map _ (.specialType .other) _ | .map _ (.composite _) _ | .map _ (.primitive _) _
  | .map _ (.sequenceRegular _) _ | .map _ (.tuple _) _ | .map _ (.variant ..) _
  | .map _ .other _ | .plain _ => exact iff_of_false nofun not_false

/-- A query for the block number is for the block number, or an error. -/
theorem blockNumberQuery_right (metadata : Metadata) :
    QueryRight (lib.storages metadata) "System" "Number" (fun _ => True) (fun _ => True)
      (blockNumberQuery lib metadata) := by
  have hmade : ∀ q, blockNumberQuery lib metadata = .ok q → ∃ p ∈
      (lib.storages metadata).available_pallets, p.stem = "System" ∧ ∃ e ∈ p.available_entries,
        e.name = "Number" ∧ ∃ t, e.type_to_fill = .ok t ∧ Makes lib p.stem e t q := by
    intro q hq
    unfold blockNumberQuery at hq
    obtain ⟨_ | s₀, hinit, hq⟩ := bind_eq_ok_iff.mp hq
    · cases hq
    rw [← init_available_pallets hinit]
    simp only at hq
    cases hfind : s₀.available_pallets.find? fun p => p.stem = "System" with
    | none =>
      simp only [hfind] at hq
      cases hq
    | some p =>
      simp only [hfind] at hq
      obtain ⟨s, hs, hq⟩ := bind_eq_ok_iff.mp hq
      cases newAt_eq_ok_iff.mp hs with
      | empty => cases hq
      | entry =>
        cases hentry : p.available_entries.find? fun e => e.name = "Number" with
        | none =>
          simp only [hentry] at hq
          cases hq
        | some e =>
          simp only [hentry] at hq
          obtain ⟨entry_selector, hsel, hq⟩ := bind_eq_ok_iff.mp hq
          obtain ⟨t, ht, hsel⟩ := bind_eq_ok_iff.mp hsel
          obtain rfl := Except.ok.inj hsel
          have hstem : p.stem = "System" := by simpa using List.find?_some hfind
          have hname : e.name = "Number" := by simpa using List.find?_some hentry
          exact ⟨p, List.mem_of_find?_eq_some hfind, hstem, e, List.mem_of_find?_eq_some hentry,
            hname, t, ht, finalized_eq_ok_iff.mp hq⟩
  refine ⟨fun q hq => ?_, fun hlacks => ?_⟩
  · obtain ⟨p, -, hstem, e, -, hname, t, -, hmakes⟩ := hmade q hq
    exact ⟨hmakes.eq.1.trans hstem, hmakes.eq.2.1.trans hname, trivial⟩
  · cases hq : blockNumberQuery lib metadata with
    | error e => exact ⟨e, rfl⟩
    | ok q =>
      obtain ⟨p, hp, hstem, e, he, hname, t, ht, -⟩ := hmade q hq
      exact absurd ⟨p, hp, hstem, e, he, hname, t, ht, trivial⟩ hlacks

/-- **The three queries are each for the item asked for, or an error.** -/
structure QueriesRight (lib : StorageLibrary Metadata) (metadata : Metadata)
    (account_id : AccountId32) (asset_id : AssetId) : Prop where
  asset : QueryRight (lib.storages metadata) "Assets" "Account" FillableAsset
    (IsAssetKey account_id asset_id) (assetBalanceQuery lib metadata account_id asset_id)
  system : QueryRight (lib.storages metadata) "System" "Account" FillableAccount
    (IsAccountKey account_id) (systemBalanceQuery lib metadata account_id)
  number : QueryRight (lib.storages metadata) "System" "Number" (fun _ => True) (fun _ => True)
    (blockNumberQuery lib metadata)

/-- **When the queries are right**: nothing makes a query in place of an account. -/
theorem queriesRight_iff {metadata : Metadata} {account_id : AccountId32} {asset_id : AssetId} :
    QueriesRight lib metadata account_id asset_id ↔
      NoSubstitute lib (lib.storages metadata) "Assets" (fillAssetKey account_id asset_id)
        FillableAsset ∧
      NoSubstitute lib (lib.storages metadata) "System" (fillAccountKey account_id)
        FillableAccount := by
  rw [← queryRight_iff isAssetKey_iff, ← queryRight_iff isAccountKey_iff]
  constructor
  · rintro ⟨hasset, hsystem, -⟩
    exact ⟨hasset, hsystem⟩
  · rintro ⟨hasset, hsystem⟩
    exact ⟨hasset, hsystem, blockNumberQuery_right metadata⟩

end Right

/-! ## Metadata without assets -/

namespace Sample

/-- Libraries for metadata that are their storages, and for the keys of accounts. -/
def storageLibrary : StorageLibrary Storages where
  storages := id
  finalizeKey
    | _, .specialType (.accountId32 value) => .ok value.isSome
    | _, .tuple [.primitive (.compactUnsigned (.u32 asset_id) _),
        .specialType (.accountId32 account)] => .ok (asset_id.isSome && account.isSome)
    | _, _ => .ok false

/-- A chain whose first pallet keeps the time. -/
def timestampStorage : Storages where
  available_pallets := [⟨"Timestamp", [⟨"Now", .ok (.plain 11)⟩], 0, fun _ => Nat.one_pos⟩]
  preselected := 0
  preselected_lt _ := Nat.one_pos

end Sample

/-- **The balance is read from the clock.**  Without the pallet of the assets, the query for a
balance is one for the first entry of the first pallet. -/
theorem timestamp_queried :
    assetBalanceQuery Sample.storageLibrary Sample.timestampStorage Sample.account 7 =
        .ok ⟨"Timestamp", "Now", none, 11⟩ ∧
      ¬QueriesRight Sample.storageLibrary Sample.timestampStorage Sample.account 7 := by
  have hquery : assetBalanceQuery Sample.storageLibrary Sample.timestampStorage Sample.account 7 =
      .ok ⟨"Timestamp", "Now", none, 11⟩ := rfl
  refine ⟨hquery, fun h => ?_⟩
  have hpallet := (h.asset.item _ hquery).1
  exact absurd hpallet (by decide)

end Kalatori
