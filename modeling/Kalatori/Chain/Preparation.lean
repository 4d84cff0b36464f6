import Kalatori.Chain.Assets
import Kalatori.Chain.Balances
import Kalatori.Chain.Specs
import Kalatori.Lib.Scale

/-!
# Getting to know a chain

The functions of the RPC module that a tracker calls before it serves a chain: the
hashes of blocks, the version of the runtime, the metadata, the specs and the
assets.  With those for events and balances they are all that a tracker asks a
node, and `RpcCall.fetch` puts them together: every call of a tracker is a program
over requests.

A node may answer a request with anything, and the functions are written to make
an error of what they cannot read.  `PanicsOn` says on which answers this fails.
There are none for all calls but the one that reads the events of a block, which
panics on stored events that it cannot decode.

* `Fetch.blockHash`, `Fetch.metadata`, `Fetch.specs`, `assetsSetAtBlock`: the functions.
* `calm_fetch`: every call but one does not panic.
* `Undecodable`, `panicsOn_transferEvents`: when that one does.
-/

namespace Kalatori

open Program Prog

variable {lib : Libraries}

/-! ## The libraries -/

/-- `substrate_parser::storage_data::KeyPart` -/
inductive KeyPart
  | hash
  | parsed (data : ParsedData)

/-- `substrate_parser::storage_data::KeyData` -/
inductive KeyData
  | plain
  | singleHash (content : KeyPart)
  | tupleHash (content : List KeyPart)

/-- The libraries with which the answers of a node are read. -/
structure NodeLibrary (Metadata : Type) extends BalanceLibrary Metadata where
  parser : Parser Metadata
  /-- The pallets of the metadata, with their constants. -/
  pallets : Metadata → List PalletConstants
  /-- The key in the result of `decode_as_storage_entry`. -/
  storageEntryKey : Metadata → StorageEntryMetadata → List UInt8 → List UInt8 → KeyData
  /-- `RuntimeMetadata::decode_all`, and the metadata if they are of the version 15. -/
  decodeMetadata : List UInt8 → Option (Option Metadata)
  /-- `resolve_ty`, and whether it finds the integers of 32 bits. -/
  resolvesToU32 : Metadata → UInt32 → Option Bool
  blake2_128 : List UInt8 → List UInt8
  blake2_256 : List UInt8 → List UInt8
  twox64 : List UInt8 → List UInt8
  twox256 : List UInt8 → List UInt8

/-- The reader of the constants. -/
def NodeLibrary.constants {Metadata : Type} (library : NodeLibrary Metadata) :
    ConstantsParser Metadata where
  pallets := library.pallets
  decodeAllAsType := library.decodeAllAsType

/-! ## Blocks and versions -/

/-- `genesis_hash` -/
def Fetch.genesisHash : Fetch BlockHash := do
  match ← request "chain_getBlockHash" [.posInt 0] with
  | .string x => ofExcept (BlockHash.fromStr x)
  | _ => throw (.failed .genesisHashFormat)

/-- `block_hash` -/
def Fetch.blockHash (number : Option String) : Fetch BlockHash := do
  match ← request "chain_getBlockHash" (number.map Json.string).toList with
  | .string x => ofExcept (BlockHash.fromStr x)
  | _ => throw (.failed .blockHashFormat)

/-- `subscribe_blocks` -/
def Fetch.subscribeBlocks : Fetch Unit := do
  let _ ← request "chain_subscribeFinalizedHeads" []

/-- What a subscription to blocks brings: a head, something that is none, or its end. -/
inductive Notification
  | head (number : String)
  | malformed
  | terminated

/-- `next_block_number` -/
def nextBlockNumber : Notification → Except ChainError String
  | .head number => .ok number
  | .malformed => .error .serde
  | .terminated => .error .blockSubscriptionTerminated

/-- `next_block` -/
def Fetch.nextBlock (notification : Notification) : Fetch BlockHash := do
  let number ← ofExcept (nextBlockNumber notification)
  blockHash (some number)

/-- `runtime_version_identifier` -/
def Fetch.runtimeVersionIdentifier (block : BlockHash) : Fetch Json :=
  request "state_getRuntimeVersion" [.string block.toString]

section Preparation

variable (library : NodeLibrary lib.Metadata)

/-! ## Metadata and specs -/

/-- `Option::<Vec<u8>>::decode_all` -/
def decodeRawMetadata (bytes : List UInt8) : Option (Option (List UInt8)) :=
  match (Scale.Codec.option (.seq .byte)).decode bytes with
  | some (raw, []) => some raw
  | _ => none

/-- What is made of the bytes that `Metadata_metadata_at_version` returned. -/
def readMetadata (bytes : List UInt8) : Except ChainError lib.Metadata :=
  match decodeRawMetadata bytes with
  | none => .error .rawMetadataNotDecodeable
  | some none => .error .noMetadataV15
  | some (some meta_v15_bytes) =>
    if "meta".toUTF8.toList.isPrefixOf meta_v15_bytes then
      match library.decodeMetadata (meta_v15_bytes.drop 4) with
      | some (some runtime_metadata_v15) => .ok runtime_metadata_v15
      | some none => .error .noMetadataV15
      | none => .error .metadataNotDecodeable
    else .error .noMetaPrefix

/-- `metadata` -/
def Fetch.metadata (block : BlockHash) : Fetch lib.Metadata := do
  match ← request "state_call" [.string "Metadata_metadata_at_version", .string "0x0f000000",
      .string block.toString] with
  | .string x => do
    let metadata_request_raw ← ofExcept (unhex x .metadata)
    ofExcept (readMetadata library metadata_request_raw)
  | _ => throw (.failed .metadataFormat)

/-- `specs` -/
def Fetch.specs (metadata : lib.Metadata) (block : BlockHash) : Fetch ShortSpecs := do
  match ← request "system_properties" [.string block.toString] with
  | .object properties =>
    ofExcept (systemPropertiesToShortSpecs library.constants properties metadata)
  | _ => throw (.failed .propertiesFormat)

/-! ## Assets -/

/-- `hashed_key_element` -/
def hashedKeyElement (data : List UInt8) : StorageHasher → List UInt8
  | .blake2_128 => library.blake2_128 data
  | .blake2_256 => library.blake2_256 data
  | .blake2_128Concat => library.blake2_128 data ++ data
  | .twox128 => library.parser.twox128 data
  | .twox256 => library.twox256 data
  | .twox64Concat => library.twox64 data ++ data
  | .identity => data

/-- The loop that looks for the two entries of the assets. -/
def findAssetEntries : Option StorageEntryMetadata → Option StorageEntryMetadata →
    List StorageEntryMetadata → Option StorageEntryMetadata × Option StorageEntryMetadata
  | asset, metadata, [] => (asset, metadata)
  | asset, metadata, entry :: entries =>
    let asset := if entry.name = "Asset" then some entry else asset
    let metadata := if entry.name = "Metadata" then some entry else metadata
    if asset.isSome && metadata.isSome then (asset, metadata)
    else findAssetEntries asset metadata entries

/-- The entries of the first storage of the assets. -/
def assetEntries (metadata : lib.Metadata) :
    Option StorageEntryMetadata × Option StorageEntryMetadata :=
  match (library.parser.storages metadata).find? fun storage => storage.stem = "Assets" with
  | some storage => findAssetEntries none none storage.entries
  | none => (none, none)

/-- The number of an asset, in the key of its record. -/
def assetIdOfKey : KeyData → Except ChainError AssetId
  | .singleHash (.parsed (.primitiveU32 value)) => .ok value
  | .singleHash (.parsed _) => .error .assetIdFormat
  | .singleHash .hash => .error .assetKeyEmpty
  | .plain | .tupleHash _ => .error .assetKeyNotSingleHash

/-- The record of an asset says that it is sufficient. -/
def verifiedSufficient : ParsedData → Bool
  | .composite fields =>
    match fields.find? fun field => field.1 = some "is_sufficient" with
    | some (_, .primitiveBool is_it) => is_it
    | _ => false
  | _ => false

/-- `String::from_utf8` -/
def stringFromUtf8 (bytes : List UInt8) : Option String := String.fromUTF8? ⟨bytes.toArray⟩

/-- A text, or the bytes of one, or a composite of just that. -/
def textOf : ParsedData → Option String
  | .text text | .composite [(_, .text text)] => some text
  | .bytes bytes | .composite [(_, .bytes bytes)] => stringFromUtf8 bytes
  | _ => none

/-- What was read of the description of an asset. -/
structure AssetDescription where
  name : Option String
  symbol : Option String
  decimals : Option Decimals

/-- A field that cannot be read is passed over. -/
def AssetDescription.read (description : AssetDescription) : FieldData → AssetDescription
  | (some "name", data) => { description with name := (textOf data).or description.name }
  | (some "symbol", data) => { description with symbol := (textOf data).or description.symbol }
  | (some "decimals", .primitiveU8 value) => { description with decimals := some value }
  | _ => description

/-- The loop over the fields of a description, which ends when there is one of each. -/
def AssetDescription.readAll : AssetDescription → List FieldData → AssetDescription
  | description, [] => description
  | description, field :: fields =>
    let description := description.read field
    if description.name.isSome && description.symbol.isSome && description.decimals.isSome then
      description
    else description.readAll fields

/-- The hasher of the keys of the descriptions, and the type of the descriptions. -/
def descriptionType (metadata : lib.Metadata) :
    StorageEntryType → Except ChainError (StorageHasher × UInt32)
  | .plain _ => .error .assetMetadataPlain
  | .map [hasher] key_ty value_ty =>
    match library.resolvesToU32 metadata key_ty with
    | some true => .ok (hasher, value_ty)
    | some false => .error .assetMetadataType
    | none => .error .registryError
  | .map _ _ _ => .error .assetMetadataMapSize

/-- What a description says of a sufficient asset, if it has a symbol and decimals. -/
def describedAsset (asset_id : AssetId) : ParsedData → Except ChainError (Option SufficientAsset)
  | .composite fields =>
    let description := AssetDescription.readAll ⟨none, none, none⟩ fields
    match description.symbol, description.decimals with
    | some symbol, some decimals => .ok (some ⟨asset_id, symbol, decimals⟩)
    | _, _ => .ok none
  | _ => .error .assetMetadataUnexpected

variable (block : BlockHash) (metadata : lib.Metadata)
  (asset_entry metadata_entry : StorageEntryMetadata)

/-- The description of a sufficient asset is fetched.  An asset without one is passed over. -/
def describeAsset (asset_id : AssetId) : Fetch (Option SufficientAsset) := do
  let (hasher, value_ty) ← Fetch.ofExcept (descriptionType library metadata metadata_entry.ty)
  let key_assets_metadata := hexString (storageKeyStart library.parser "Assets" "Metadata" ++
    hashedKeyElement library (Scale.Codec.u32.encode asset_id) hasher)
  match ← getValueFromStorage key_assets_metadata block with
  | .string string_value => do
    let value_data ← Fetch.ofExcept (unhex string_value .storageValue)
    let value ← Fetch.ofExcept
      (decodeValue library.toBalanceLibrary metadata value_ty value_data)
    Fetch.ofExcept (describedAsset asset_id value)
  | _ => return none

/-- What is read under one key of the assets. -/
def assetAtKey (key : String) : Fetch (Option SufficientAsset) := do
  match ← getValueFromStorage key block with
  | .string string_value => do
    let key_data ← Fetch.ofExcept (unhex key .storageKey)
    let value_data ← Fetch.ofExcept (unhex string_value .storageValue)
    match library.parser.decodeAsStorageEntry metadata asset_entry key_data value_data with
    | some storage_entry => do
      let asset_id ← Fetch.ofExcept
        (assetIdOfKey (library.storageEntryKey metadata asset_entry key_data value_data))
      if verifiedSufficient storage_entry then
        describeAsset library block metadata metadata_entry asset_id
      else return none
    | none => throw (.failed .storageDecodeError)
  | _ => return none

/-- The loop over the keys of the assets. -/
def assetsAtKeys : List Json → Fetch (List SufficientAsset)
  | [] => pure []
  | .string key :: keys => do
    let asset ← assetAtKey library block metadata asset_entry metadata_entry key
    let assets ← assetsAtKeys keys
    return asset.toList ++ assets
  | _ :: keys => assetsAtKeys keys

/-- `assets_set_at_block` -/
def assetsSetAtBlock (rpc_url : String) (specs : ShortSpecs) :
    Fetch (HashMap String CurrencyProperties) := do
  match lib.specName metadata with
  | none => throw (.failed .metaVersionErrorPallets)
  | some chain_name =>
    match assetEntries library metadata with
    | (some asset_entry, some metadata_entry) => do
      let available_keys ← getKeysFromStorage library.parser "Assets" "Asset" block
      let found ← assetsAtKeys library block metadata asset_entry metadata_entry
        (available_keys.flatMap pageKeys)
      return assetsSet chain_name rpc_url specs found
    | _ => return assetsSet chain_name rpc_url specs []

end Preparation

/-! ## The calls -/

/-- What the calls of a tracker depend on besides the answers to requests: whether the node can
be connected to, and what the subscription brings next. -/
structure Line where
  connects : Bool
  next : Notification

/-- The function behind a call. -/
def RpcCall.fetch (library : NodeLibrary lib.Metadata) (line : Line) :
    (call : RpcCall lib) → Fetch call.Result
  | .build _ => if line.connects then pure () else throw (.failed .client)
  | .genesisHash => Fetch.genesisHash
  | .subscribeBlocks => Fetch.subscribeBlocks
  | .nextBlock => Fetch.nextBlock line.next
  | .blockHash number => Fetch.blockHash (some number)
  | .runtimeVersionIdentifier block => Fetch.runtimeVersionIdentifier block
  | .metadata block => Fetch.metadata library block
  | .specs metadata_v15 block => Fetch.specs library metadata_v15 block
  | .assetsSetAtBlock block metadata_v15 rpc_url short_specs =>
    Kalatori.assetsSetAtBlock library block metadata_v15 rpc_url short_specs
  | .transferEvents block metadata_v15 => Kalatori.transferEvents library.parser metadata_v15 block
  | .balance watcher invoice block => invoice.balance library.toBalanceLibrary watcher block

/-! ## Panics -/

/-- The function panics exactly if there is one of certain exchanges in its conversation. -/
def PanicsOn {α : Type} (q : Exchange NodeSig → Prop) (p : Fetch α) : Prop :=
  ∀ tr, Prog.Holds (fun _ _ => True) (fun tr' result => ∃ asked, tr' = tr ++ asked ∧
    (result = .error .panicked ↔ ∃ e ∈ asked, q e)) tr p.run

/-- Whatever it is answered, the function returns or fails. -/
abbrev Calm {α : Type} (p : Fetch α) : Prop := PanicsOn (fun _ => False) p

section Rules

variable {α β : Type} {q : Exchange NodeSig → Prop}

theorem panicsOn_pure (a : α) : PanicsOn q (pure a) :=
  fun tr => ⟨[], (List.append_nil tr).symm, iff_of_false nofun (by simp)⟩

theorem panicsOn_failed (e : ChainError) : PanicsOn q (throw (.failed e) : Fetch α) :=
  fun tr => ⟨[], (List.append_nil tr).symm, iff_of_false nofun (by simp)⟩

theorem panicsOn_ofExcept (x : Except ChainError α) : PanicsOn q (Fetch.ofExcept x) := by
  cases x with
  | ok a => exact panicsOn_pure a
  | error e => exact panicsOn_failed e

theorem PanicsOn.bind {p : Fetch β} {f : β → Fetch α} (h : PanicsOn q p)
    (h' : ∀ b, PanicsOn q (f b)) : PanicsOn q (p >>= f) := by
  intro tr
  rw [Prog.holds_run_bind]
  refine (h tr).mono (fun _ _ h => h) ?_
  rintro _ (stop | b) ⟨asked, rfl, hiff⟩
  · refine ⟨asked, rfl, ?_⟩
    rw [← hiff]
    simp
  · refine (h' b _).mono (fun _ _ h => h) ?_
    rintro _ result ⟨asked', rfl, hiff'⟩
    have hnone : ¬∃ e ∈ asked, q e := fun he => nomatch hiff.mpr he
    refine ⟨asked ++ asked', List.append_assoc .., ?_⟩
    rw [hiff']
    simp only [List.mem_append, or_and_right, exists_or, hnone, false_or]

theorem panicsOn_attempt {method : String} {params : List Json}
    (h : ∀ answer, ¬q ⟨⟨method, params⟩, answer⟩) : PanicsOn q (Fetch.attempt method params) := by
  refine fun tr => ⟨trivial, fun answer => ⟨_, rfl, iff_of_false nofun ?_⟩⟩
  rintro ⟨e, he, hq⟩
  rw [List.mem_singleton.mp he] at hq
  exact h answer hq

theorem holds_request {pre : Trace NodeSig → NodeRequest → Prop}
    {post : Trace NodeSig → Except Stop Json → Prop} {tr : Trace NodeSig} (method : String)
    (params : List Json) :
    Prog.Holds pre post tr (Fetch.request method params).run ↔ pre tr ⟨method, params⟩ ∧
      post (tr ++ [⟨⟨method, params⟩, none⟩]) (.error (.failed .client)) ∧
        ∀ value, post (tr ++ [⟨⟨method, params⟩, some value⟩]) (.ok value) := by
  constructor
  · intro h
    exact ⟨h.1, h.2 none, fun value => h.2 (some value)⟩
  · rintro ⟨hpre, hnone, hsome⟩
    refine ⟨hpre, fun answer => ?_⟩
    cases answer with
    | none => exact hnone
    | some value => exact hsome value

theorem holds_ofExcept_bind {pre : Trace NodeSig → NodeRequest → Prop}
    {post : Trace NodeSig → Except Stop α → Prop} {tr : Trace NodeSig} (x : Except ChainError β)
    (f : β → Fetch α) :
    Prog.Holds pre post tr (Fetch.ofExcept x >>= f).run ↔
      match x with
      | .ok b => Prog.Holds pre post tr (f b).run
      | .error e => post tr (.error (.failed e)) := by
  cases x <;> exact Iff.rfl

theorem panicsOn_request {method : String} {params : List Json}
    (h : ∀ answer, ¬q ⟨⟨method, params⟩, answer⟩) : PanicsOn q (Fetch.request method params) := by
  refine (panicsOn_attempt h).bind fun answer => ?_
  cases answer with
  | none => exact panicsOn_failed _
  | some value => exact panicsOn_pure value

theorem calm_request (method : String) (params : List Json) :
    Calm (Fetch.request method params) := panicsOn_request fun _ => not_false

theorem panicsOn_scanKeys (h : ∀ params answer, ¬q ⟨⟨"state_getKeysPaged", params⟩, answer⟩)
    (storage_key_start : String) (block : BlockHash) (pages : ℕ) (start_key : Option String) :
    PanicsOn q (scanKeys storage_key_start block pages start_key) := by
  induction pages generalizing start_key with
  | zero => exact panicsOn_pure _
  | succ pages ih =>
    refine (panicsOn_attempt (h _)).bind fun answer => ?_
    split
    · split
      · exact (ih _).bind fun keys_vec => panicsOn_pure _
      · exact panicsOn_pure _
    · exact panicsOn_pure _

end Rules

theorem calm_blockHash (number : Option String) : Calm (Fetch.blockHash number) := by
  refine (calm_request _ _).bind fun value => ?_
  split
  · exact panicsOn_ofExcept _
  · exact panicsOn_failed _

theorem calm_genesisHash : Calm Fetch.genesisHash := by
  refine (calm_request _ _).bind fun value => ?_
  split
  · exact panicsOn_ofExcept _
  · exact panicsOn_failed _

section Calls

variable (library : NodeLibrary lib.Metadata)

theorem calm_metadata (block : BlockHash) : Calm (Fetch.metadata library block) := by
  refine (calm_request _ _).bind fun value => ?_
  split
  · exact (panicsOn_ofExcept _).bind fun _ => panicsOn_ofExcept _
  · exact panicsOn_failed _

theorem calm_specs (metadata : lib.Metadata) (block : BlockHash) :
    Calm (Fetch.specs library metadata block) := by
  refine (calm_request _ _).bind fun value => ?_
  split
  · exact panicsOn_ofExcept _
  · exact panicsOn_failed _

variable (block : BlockHash) (metadata : lib.Metadata)
  (asset_entry metadata_entry : StorageEntryMetadata)

theorem calm_describeAsset (asset_id : AssetId) :
    Calm (describeAsset library block metadata metadata_entry asset_id) := by
  refine (panicsOn_ofExcept _).bind fun ty => (calm_request _ _).bind fun value => ?_
  split
  · exact (panicsOn_ofExcept _).bind fun _ => (panicsOn_ofExcept _).bind fun _ =>
      panicsOn_ofExcept _
  · exact panicsOn_pure _

theorem calm_assetAtKey (key : String) :
    Calm (assetAtKey library block metadata asset_entry metadata_entry key) := by
  refine (calm_request _ _).bind fun value => ?_
  split
  · refine (panicsOn_ofExcept _).bind fun key_data => ?_
    refine (panicsOn_ofExcept _).bind fun value_data => ?_
    split
    · refine (panicsOn_ofExcept _).bind fun asset_id => ?_
      split_ifs
      · exact calm_describeAsset library block metadata metadata_entry asset_id
      · exact panicsOn_pure _
    · exact panicsOn_failed _
  · exact panicsOn_pure _

theorem calm_assetsAtKeys (keys : List Json) :
    Calm (assetsAtKeys library block metadata asset_entry metadata_entry keys) := by
  induction keys with
  | nil => exact panicsOn_pure _
  | cons key keys ih =>
    cases key with
    | string key =>
      exact (calm_assetAtKey library block metadata asset_entry metadata_entry key).bind
        fun asset => ih.bind fun assets => panicsOn_pure _
    | _ => exact ih

theorem calm_assetsSetAtBlock (rpc_url : String) (specs : ShortSpecs) :
    Calm (assetsSetAtBlock library block metadata rpc_url specs) := by
  unfold assetsSetAtBlock
  split
  · exact panicsOn_failed _
  · split
    · exact (panicsOn_scanKeys (fun _ _ => not_false) _ _ _ _).bind fun keys =>
        (calm_assetsAtKeys library block metadata _ _ _).bind fun found => panicsOn_pure _
    · exact panicsOn_pure _

theorem calm_balance (watcher : ChainWatcher lib) (invoice : Invoice) :
    Calm (invoice.balance library.toBalanceLibrary watcher block) := by
  unfold Invoice.balance
  split
  · exact panicsOn_failed _
  split
  -- The two functions differ in the query and in the fields they look for.
  all_goals
    refine (panicsOn_ofExcept _).bind fun query => (calm_request _ _).bind fun value => ?_
    split
    · refine (panicsOn_ofExcept _).bind fun value_data => (panicsOn_ofExcept _).bind fun data => ?_
      split
      · split
        · exact panicsOn_pure _
        · exact panicsOn_failed _
      · exact panicsOn_failed _
    · exact panicsOn_failed _

/-- **Every call but one is calm.** -/
theorem calm_fetch (line : Line) (call : RpcCall lib)
    (h : ∀ block metadata, call ≠ .transferEvents block metadata) :
    Calm (call.fetch library line) := by
  cases call with
  | build endpoint =>
    unfold RpcCall.fetch
    split_ifs
    · exact panicsOn_pure _
    · exact panicsOn_failed _
  | genesisHash => exact calm_genesisHash
  | subscribeBlocks => exact (calm_request _ _).bind fun _ => panicsOn_pure _
  | nextBlock => exact (panicsOn_ofExcept _).bind fun number => calm_blockHash _
  | blockHash number => exact calm_blockHash _
  | runtimeVersionIdentifier block => exact calm_request _ _
  | metadata block => exact calm_metadata library block
  | specs metadata block => exact calm_specs library metadata block
  | assetsSetAtBlock block metadata rpc_url specs =>
    exact calm_assetsSetAtBlock library block metadata rpc_url specs
  | transferEvents block metadata => exact absurd rfl (h block metadata)
  | balance watcher invoice block => exact calm_balance library block watcher invoice

end Calls

/-! ## The events of a block -/

section Events

variable (parser : Parser lib.Metadata) (metadata : lib.Metadata) (block : BlockHash)

/-- **Stored events that cannot be decoded.**  The key and the value are hexadecimal, but the
value is none of the type of the events. -/
def Undecodable (e : Exchange NodeSig) : Prop :=
  ∃ events_entry key value key_bytes value_bytes,
    eventsEntryMetadata parser metadata = .ok events_entry ∧
    e = ⟨⟨"state_getStorage", [.string key, .string block.toString]⟩, some (.string value)⟩ ∧
    unhex key .storageValue = .ok key_bytes ∧ unhex value .storageValue = .ok value_bytes ∧
    parser.decodeAsStorageEntry metadata events_entry key_bytes value_bytes = none

variable {parser metadata block} {events_entry : StorageEntryMetadata}

theorem undecodable_iff (hentry : eventsEntryMetadata parser metadata = .ok events_entry)
    {key : String} {answer : Option Json} :
    Undecodable parser metadata block
        ⟨⟨"state_getStorage", [.string key, .string block.toString]⟩, answer⟩ ↔
      ∃ value key_bytes value_bytes, answer = some (.string value) ∧
        unhex key .storageValue = .ok key_bytes ∧ unhex value .storageValue = .ok value_bytes ∧
        parser.decodeAsStorageEntry metadata events_entry key_bytes value_bytes = none := by
  constructor
  · rintro ⟨entry, key', value, key_bytes, value_bytes, hentry', he, hkey, hvalue, hdecode⟩
    obtain rfl := Except.ok.inj (hentry.symm.trans hentry')
    obtain ⟨hrequest, hanswer⟩ := Sigma.mk.inj he
    obtain rfl : key = key' := by simpa using hrequest
    exact ⟨value, key_bytes, value_bytes, eq_of_heq hanswer, hkey, hvalue, hdecode⟩
  · rintro ⟨value, key_bytes, value_bytes, rfl, hkey, hvalue, hdecode⟩
    exact ⟨events_entry, key, value, key_bytes, value_bytes, hentry, rfl, hkey, hvalue, hdecode⟩

/-- What is read under a key panics if that is not decoded. -/
theorem panicsOn_eventsAtKey (hentry : eventsEntryMetadata parser metadata = .ok events_entry)
    (optional_filter : Option EventFilter) (key : String) :
    PanicsOn (Undecodable parser metadata block)
      (eventsAtKey parser optional_filter events_entry metadata block key) := by
  intro tr
  unfold eventsAtKey getValueFromStorage
  rw [Prog.holds_run_bind, holds_request]
  have hlone : ∀ {P : Exchange NodeSig → Prop} {e}, (∃ e' ∈ [e], P e') ↔ P e := by simp
  refine ⟨trivial, ⟨_, rfl, ?_⟩, fun value => ?_⟩
  · rw [hlone, undecodable_iff hentry]
    simp
  simp only
  rw [holds_ofExcept_bind]
  cases hkey : unhex key .storageValue with
  | error e =>
    refine ⟨_, rfl, ?_⟩
    rw [hlone, undecodable_iff hentry, hkey]
    simp
  | ok key_bytes =>
    cases value with
    | string value =>
      simp only
      rw [holds_ofExcept_bind]
      cases hvalue : unhex value .storageValue with
      | error e =>
        refine ⟨_, rfl, ?_⟩
        rw [hlone, undecodable_iff hentry, hkey]
        simp [hvalue]
      | ok value_bytes =>
        simp only
        cases hdecode : parser.decodeAsStorageEntry metadata events_entry key_bytes value_bytes with
        | none =>
          refine ⟨_, rfl, iff_of_true rfl (hlone.mpr ?_)⟩
          exact (undecodable_iff hentry).mpr ⟨value, _, _, rfl, hkey, hvalue, hdecode⟩
        | some data =>
          refine ⟨_, rfl, iff_of_false nofun ?_⟩
          rw [hlone, undecodable_iff hentry, hkey]
          simp [hvalue, hdecode]
    | _ =>
      refine ⟨_, rfl, ?_⟩
      rw [hlone, undecodable_iff hentry]
      simp

theorem panicsOn_eventsAtKeys (hentry : eventsEntryMetadata parser metadata = .ok events_entry)
    (optional_filter : Option EventFilter) (keys : List Json) :
    PanicsOn (Undecodable parser metadata block)
      (eventsAtKeys parser optional_filter events_entry metadata block keys) := by
  induction keys with
  | nil => exact panicsOn_pure _
  | cons key keys ih =>
    cases key with
    | string key =>
      exact (panicsOn_eventsAtKey hentry optional_filter key).bind fun events =>
        ih.bind fun events' => panicsOn_pure _
    | _ => exact ih

/-- **Reading the events of a block panics exactly if some of them cannot be decoded.** -/
theorem panicsOn_transferEvents :
    PanicsOn (Undecodable parser metadata block) (transferEvents parser metadata block) := by
  unfold transferEvents
  cases hentry : eventsEntryMetadata parser metadata with
  | error e => exact panicsOn_failed e
  | ok events_entry =>
    intro tr
    rw [holds_ofExcept_bind]
    refine (PanicsOn.bind (panicsOn_scanKeys ?_ _ _ _ _) fun keys =>
      panicsOn_eventsAtKeys hentry _ _) tr
    rintro params answer ⟨_, _, _, _, _, -, he, -⟩
    have hmethod : "state_getKeysPaged" = "state_getStorage" := congrArg (fun e => e.1.method) he
    exact absurd hmethod (by decide)

end Events

end Kalatori
