import Kalatori.Chain.KeyScan
import Kalatori.Chain.Preparation

/-!
# The assets that a tracker sees

`assets_set_at_block` scans the keys of the assets, reads the record under every key
that it comes to, and the description of those that are sufficient.  So what it
sees of a chain are the sufficient assets whose keys the scan comes to, and that
depends on the hash of the block, which stands in the place of the key to start
from.

The chain is then judged by what is seen, and not by what it has.

* `AssetUnder`, `HoldsAssets`: what a chain has under the keys of the assets.
* `play_assetsSetAtBlock`: what is seen of it.
* `judgedByProgram_iff`: which chains are accepted as they should be.
-/

namespace Kalatori

open Program Prog

variable {lib : Libraries}

/-! ## What is on the chain -/

/-- The record of an asset, with one field that says whether it is sufficient. -/
def IsAssetRecord (sufficient : Bool) : ParsedData → Prop
  | .composite fields => (fields.filter fun field => field.1 = some "is_sufficient") =
      [(some "is_sufficient", .primitiveBool sufficient)]
  | _ => False

/-- The symbol that a field tells. -/
def symbolOf : FieldData → Option String
  | (some "symbol", data) => textOf data
  | _ => none

/-- The decimals that a field tells. -/
def decimalsOf : FieldData → Option Decimals
  | (some "decimals", .primitiveU8 value) => some value
  | _ => none

/-- The description of an asset: one field tells its symbol, and one its decimals. -/
def IsDescription (asset : SufficientAsset) : ParsedData → Prop
  | .composite fields =>
    fields.filterMap symbolOf = [asset.symbol] ∧ fields.filterMap decimalsOf = [asset.decimals]
  | _ => False

section Chain

variable (library : NodeLibrary lib.Metadata) (metadata : lib.Metadata)
  (asset_entry metadata_entry : StorageEntryMetadata) (state : ChainState)

/-- The key of the description of an asset. -/
def descriptionKey (hasher : StorageHasher) (asset_id : AssetId) : List UInt8 :=
  storageKeyStart library.parser "Assets" "Metadata" ++
    hashedKeyElement library (Scale.Codec.u32.encode asset_id) hasher

/-- How the chain describes the asset with a number: not at all, or with a symbol and decimals. -/
inductive Described (asset_id : AssetId) : Option SufficientAsset → Prop
  | absent (hasher : StorageHasher) (value_ty : UInt32)
      (hty : descriptionType library metadata metadata_entry.ty = .ok (hasher, value_ty))
      (hvalue : state.get (descriptionKey library hasher asset_id) = none) :
      Described asset_id none
  | described (hasher : StorageHasher) (value_ty : UInt32) (asset : SufficientAsset)
      (value : List UInt8) (data : ParsedData) (hid : asset.id = asset_id)
      (hty : descriptionType library metadata metadata_entry.ty = .ok (hasher, value_ty))
      (hvalue : state.get (descriptionKey library hasher asset_id) = some value)
      (hdecode : library.decodeAllAsType metadata value_ty value = some data)
      (hdata : IsDescription asset data) : Described asset_id (some asset)

/-- **What the chain has under a key of the assets**: nothing, an asset that is not sufficient,
or a sufficient one that may be described. -/
inductive AssetUnder (key : List UInt8) : Option SufficientAsset → Prop
  | absent (hvalue : state.get key = none) : AssetUnder key none
  | stored (value : List UInt8) (record : ParsedData) (asset_id : AssetId) (sufficient : Bool)
      (asset : Option SufficientAsset) (hvalue : state.get key = some value)
      (hdecode : library.parser.decodeAsStorageEntry metadata asset_entry key value = some record)
      (hkey : library.storageEntryKey metadata asset_entry key value =
        .singleHash (.parsed (.primitiveU32 asset_id)))
      (hrecord : IsAssetRecord sufficient record)
      (hasset : if sufficient then Described library metadata metadata_entry state asset_id asset
        else asset = none) : AssetUnder key asset

/-- The key with which those of the assets begin. -/
abbrev assetsStem : List UInt8 := storageKeyStart library.parser "Assets" "Asset"

/-- **The assets of a chain**, by their keys, if its metadata know of assets. -/
inductive HoldsAssets (assetAt : List UInt8 → Option SufficientAsset) : Prop
  | stored (asset_entry metadata_entry : StorageEntryMetadata)
      (hentries : assetEntries library metadata = (some asset_entry, some metadata_entry))
      (h : ∀ key, (assetsStem library).isPrefixOf key = true →
        AssetUnder library metadata asset_entry metadata_entry state key (assetAt key)) :
      HoldsAssets assetAt
  | unknown (hentries : (assetEntries library metadata).1 = none ∨
        (assetEntries library metadata).2 = none) (h : ∀ key, assetAt key = none) :
      HoldsAssets assetAt

/-- The sufficient assets of a chain, in the order of their keys. -/
def sufficientAssets (assetAt : List UInt8 → Option SufficientAsset) : List SufficientAsset :=
  (state.matching (assetsStem library)).filterMap assetAt

/-- **The assets that are seen** of a block, those whose keys the scan comes to. -/
def seenAssets (node : Node) (block : BlockHash) (n : ℕ)
    (assetAt : List UInt8 → Option SufficientAsset) : List SufficientAsset :=
  (scannedKeys library.parser node "Assets" "Asset" block n).filterMap assetAt

end Chain

/-! ## What is read of it -/

theorem verifiedSufficient_eq {sufficient : Bool} {record : ParsedData}
    (h : IsAssetRecord sufficient record) : verifiedSufficient record = sufficient := by
  cases record with
  | composite fields =>
    have hfind : fields.find? (fun field => field.1 = some "is_sufficient") =
        some (some "is_sufficient", .primitiveBool sufficient) := by
      rw [← List.head?_filter, show fields.filter _ = _ from h]
      rfl
    rw [verifiedSufficient, hfind]
  | _ => exact absurd h id

namespace AssetDescription

variable (description : AssetDescription)

theorem read_symbol (field : FieldData) :
    (description.read field).symbol = (symbolOf field).or description.symbol := by
  unfold read symbolOf
  split
  · simp
  · rfl
  · simp
  · next hsymbol _ =>
    split
    · exact absurd rfl (hsymbol _)
    · rfl

theorem read_decimals (field : FieldData) :
    (description.read field).decimals = (decimalsOf field).or description.decimals := by
  unfold read decimalsOf
  split
  · simp
  · simp
  · rfl
  · next hdecimals =>
    split
    · exact absurd rfl (hdecimals _)
    · rfl

/-- What was told before and what a field tells are one thing. -/
theorem toList_or_filterMap {α β : Type} {f : α → Option β} {before : Option β} {a : α}
    {l : List α} {b : β} (h : before.toList ++ (a :: l).filterMap f = [b]) :
    ((f a).or before).toList ++ l.filterMap f = [b] := by
  cases hf : f a with
  | none => rwa [List.filterMap_cons_none hf] at h
  | some c =>
    rw [List.filterMap_cons_some hf] at h
    cases before with
    | none => exact h
    | some c' => cases (List.cons.inj h).2

/-- **All fields are read**: what is told once is what is read in the end. -/
theorem readAll_eq {symbol : String} {decimals : Decimals} (fields : List FieldData)
    (hsymbol : description.symbol.toList ++ fields.filterMap symbolOf = [symbol])
    (hdecimals : description.decimals.toList ++ fields.filterMap decimalsOf = [decimals]) :
    (description.readAll fields).symbol = some symbol ∧
      (description.readAll fields).decimals = some decimals := by
  induction fields generalizing description with
  | nil =>
    rw [List.filterMap_nil, List.append_nil, Option.toList_eq_singleton_iff] at hsymbol hdecimals
    exact ⟨hsymbol, hdecimals⟩
  | cons field fields ih =>
    have hsymbol' := toList_or_filterMap hsymbol
    have hdecimals' := toList_or_filterMap hdecimals
    rw [← read_symbol] at hsymbol'
    rw [← read_decimals] at hdecimals'
    simp only [readAll]
    split
    · next hall =>
      -- There is one of each already, so nothing is left to be told.
      simp only [Bool.and_eq_true, Option.isSome_iff_exists] at hall
      obtain ⟨⟨-, s, hs⟩, d, hd⟩ := hall
      rw [hs] at hsymbol'
      rw [hd] at hdecimals'
      rw [hs, hd, (List.cons.inj hsymbol').1, (List.cons.inj hdecimals').1]
      exact ⟨rfl, rfl⟩
    · exact ih _ hsymbol' hdecimals'

end AssetDescription

theorem describedAsset_eq {asset : SufficientAsset} {data : ParsedData}
    (h : IsDescription asset data) : describedAsset asset.id data = .ok (some asset) := by
  cases data with
  | composite fields =>
    obtain ⟨hsymbol, hdecimals⟩ :=
      AssetDescription.readAll_eq ⟨none, none, none⟩ fields h.1 h.2
    simp only [describedAsset, hsymbol, hdecimals]
  | _ => exact absurd h id

section Play

variable {library : NodeLibrary lib.Metadata} {metadata : lib.Metadata}
  {asset_entry metadata_entry : StorageEntryMetadata} {node : Node} {block : BlockHash}
  (hanswered : ∀ n, node.answered n = true)
include hanswered

theorem play_describeAsset {asset_id : AssetId} {asset : Option SufficientAsset}
    (h : Described library metadata metadata_entry (node.state block) asset_id asset) (n : ℕ) :
    play node.answers n (describeAsset library block metadata metadata_entry asset_id).run =
      (.ok asset, n + 1) := by
  cases h with
  | absent hasher value_ty hty hvalue =>
    rw [describeAsset, hty, play_run_bind, play_ofExcept_ok]
    simp only
    rw [play_run_bind, ← descriptionKey, play_getValueFromStorage hanswered, hvalue]
    rfl
  | described hasher value_ty asset value data hid hty hvalue hdecode hdata =>
    rw [describeAsset, hty, play_run_bind, play_ofExcept_ok]
    simp only
    rw [play_run_bind, ← descriptionKey, play_getValueFromStorage hanswered, hvalue]
    simp only
    rw [play_decode hdecode, ← hid, describedAsset_eq hdata]
    rfl

theorem play_assetAtKey {key : List UInt8} {asset : Option SufficientAsset}
    (h : AssetUnder library metadata asset_entry metadata_entry (node.state block) key asset)
    (n : ℕ) :
    ∃ m, play node.answers n (assetAtKey library block metadata asset_entry metadata_entry
      (hexString key)).run = (.ok asset, m) := by
  rw [assetAtKey, play_run_bind, play_getValueFromStorage hanswered]
  cases h with
  | absent hvalue =>
    rw [hvalue]
    exact ⟨n + 1, rfl⟩
  | stored value record asset_id sufficient asset hvalue hdecode hkey hrecord hasset =>
    rw [hvalue]
    simp only [unhex_hexString]
    rw [play_run_bind, play_ofExcept_ok]
    simp only
    rw [play_run_bind, play_ofExcept_ok]
    simp only [hdecode, hkey, assetIdOfKey, verifiedSufficient_eq hrecord]
    rw [play_run_bind, play_ofExcept_ok]
    cases sufficient with
    | false =>
      obtain rfl : asset = none := hasset
      exact ⟨n + 1, rfl⟩
    | true => exact ⟨_, play_describeAsset hanswered hasset (n + 1)⟩

/-- **What is read under the keys**, one after the other. -/
theorem play_assetsAtKeys {assetAt : List UInt8 → Option SufficientAsset}
    (keys : List (List UInt8))
    (h : ∀ key ∈ keys, AssetUnder library metadata asset_entry metadata_entry (node.state block)
      key (assetAt key)) (n : ℕ) :
    ∃ m, play node.answers n (assetsAtKeys library block metadata asset_entry metadata_entry
      (keys.map fun key => .string (hexString key))).run = (.ok (keys.filterMap assetAt), m) := by
  induction keys generalizing n with
  | nil => exact ⟨n, rfl⟩
  | cons key keys ih =>
    obtain ⟨m, hkey⟩ := play_assetAtKey hanswered (h key List.mem_cons_self) n
    obtain ⟨m', hkeys⟩ := ih (fun key hmem => h key (List.mem_cons_of_mem _ hmem)) m
    refine ⟨m', ?_⟩
    rw [List.map_cons, assetsAtKeys, play_run_bind, hkey]
    simp only
    rw [play_run_bind, hkeys]
    cases hasset : assetAt key with
    | none => rw [List.filterMap_cons_none hasset]; rfl
    | some asset => rw [List.filterMap_cons_some hasset]; rfl

/-- **`assets_set_at_block` returns the assets that are seen.** -/
theorem play_assetsSetAtBlock {assetAt : List UInt8 → Option SufficientAsset}
    {chain_name : String} (hname : lib.specName metadata = some chain_name)
    (h : HoldsAssets library metadata (node.state block) assetAt) (rpc_url : String)
    (specs : ShortSpecs) (n : ℕ) :
    (play node.answers n (assetsSetAtBlock library block metadata rpc_url specs).run).1 =
      .ok (assetsSet chain_name rpc_url specs (seenAssets library node block n assetAt)) := by
  rw [assetsSetAtBlock, hname]
  simp only
  cases h with
  | stored asset_entry metadata_entry hentries h =>
    rw [hentries]
    simp only
    obtain ⟨keys, m, hscan, hkeys⟩ :=
      @play_scan _ library.parser node "Assets" "Asset" block hanswered n
    obtain ⟨m', hread⟩ := play_assetsAtKeys hanswered
      (scannedKeys library.parser node "Assets" "Asset" block n)
      (fun key hmem => h key (isPrefixOf_of_mem_scannedKeys hmem)) m
    rw [play_run_bind, hscan]
    simp only
    rw [hkeys, play_run_bind, hread]
    rfl
  | unknown hentries hnone =>
    have hseen : seenAssets library node block n assetAt = [] :=
      List.filterMap_eq_nil_iff.mpr fun key _ => hnone key
    rw [hseen]
    split
    · next hboth =>
      rw [hboth] at hentries
      rcases hentries with hentry | hentry <;> cases hentry
    · rfl

end Play

/-- What is seen of a chain is on it. -/
theorem HoldsAssets.seen_subset {library : NodeLibrary lib.Metadata} {metadata : lib.Metadata}
    {node : Node} {block : BlockHash} {assetAt : List UInt8 → Option SufficientAsset}
    (h : HoldsAssets library metadata (node.state block) assetAt) (n : ℕ) :
    seenAssets library node block n assetAt ⊆
      sufficientAssets library (node.state block) assetAt := by
  intro asset hmem
  obtain ⟨key, hkey, hasset⟩ := List.mem_filterMap.mp hmem
  refine List.mem_filterMap.mpr ⟨key, ?_, hasset⟩
  have hstem := isPrefixOf_of_mem_scannedKeys hkey
  cases h with
  | stored asset_entry metadata_entry _ h =>
    have hunder := h key hstem
    rw [hasset] at hunder
    cases hunder with
    | stored value _ _ _ _ hvalue =>
      refine List.mem_filter.mpr ⟨?_, hstem⟩
      by_contra hnot
      cases hvalue.symm.trans (((node.state block).get_eq_none_iff key).mpr hnot)
  | unknown _ hnone => cases hasset.symm.trans (hnone key)

/-! ## Judging by what is seen -/

section Program

variable (library : NodeLibrary lib.Metadata) (node : Node) (metadata : lib.Metadata)
  (block : BlockHash) (n : ℕ) (chain : Chain) (specs : ShortSpecs)

/-- **`prepare_chain` judges a chain rightly**: if the node that it asks for the assets of a block
answers with what is stored there, it reports to the state handler if and only if the chain
serves the configured tokens, and it reports these. -/
def JudgedByProgram (found : List SufficientAsset) : Prop :=
  ∀ (watched_accounts : WatchedAccounts) (rpc_url : String) (said : Trace (TrackerSig lib)) result,
    Prog.Runs (prepareChain chain watched_accounts rpc_url : Job lib _).run said result →
    ⟨.rpc (.assetsSetAtBlock block metadata rpc_url specs),
      (play node.answers n (assetsSetAtBlock library block metadata rpc_url specs).run).1⟩ ∈ said →
    ((∃ assets, Connects said assets) ↔ Serves chain specs found) ∧
      ∀ assets, Connects said assets → Faithful chain assets

variable {library node metadata block n chain specs}
  {assetAt : List UInt8 → Option SufficientAsset}

theorem judgedByProgram_iff_judged (hanswered : ∀ n, node.answered n = true)
    (hname : lib.specName metadata = some chain.name)
    (h : HoldsAssets library metadata (node.state block) assetAt) (found : List SufficientAsset) :
    JudgedByProgram library node metadata block n chain specs found ↔ ∀ rpc_url,
      Judged chain specs (seenAssets library node block n assetAt) found chain.name rpc_url := by
  have htold : ∀ rpc_url, (play node.answers n
      (assetsSetAtBlock library block metadata rpc_url specs).run).1 = .ok (assetsSet chain.name
        rpc_url specs (seenAssets library node block n assetAt)) :=
    fun rpc_url => play_assetsSetAtBlock hanswered hname h rpc_url specs n
  simp only [JudgedByProgram, htold]
  constructor
  · intro hjudged rpc_url
    obtain ⟨said, result, hr, hl⟩ := exists_told hname block specs
      (assetsSet chain.name rpc_url specs (seenAssets library node block n assetAt)) ∅ rpc_url
    obtain ⟨hiff, hfaithful⟩ := hjudged ∅ rpc_url said result hr hl
    simp only [connects_iff hr hl, exists_eq_left] at hiff hfaithful
    exact ⟨hiff, fun hlength => hfaithful _ ⟨rfl, hlength⟩⟩
  · intro hjudged watched_accounts rpc_url said result hr hl
    obtain ⟨hiff, hfaithful⟩ := hjudged rpc_url
    simp only [connects_iff hr hl, exists_eq_left]
    refine ⟨hiff, ?_⟩
    rintro assets ⟨rfl, hlength⟩
    exact hfaithful hlength

/-- **Which chains `prepare_chain` judges rightly.** -/
theorem judgedByProgram_iff (hanswered : ∀ n, node.answered n = true)
    (hname : lib.specName metadata = some chain.name) (hnodup : chain.declared.Nodup)
    (h : HoldsAssets library metadata (node.state block) assetAt) :
    JudgedByProgram library node metadata block n chain specs
        (sufficientAssets library (node.state block) assetAt) ↔
      Judgeable chain specs (seenAssets library node block n assetAt)
        (sufficientAssets library (node.state block) assetAt) := by
  rw [judgedByProgram_iff_judged hanswered hname h]
  have hsub := h.seen_subset n
  exact ⟨fun hjudged => (judged_iff hnodup hsub).mp (hjudged ""),
    fun hjudgeable _ => (judged_iff hnodup hsub).mpr hjudgeable⟩

end Program

/-! ## A chain with one asset -/

namespace Sample

/-- A chain with a native token and an asset. -/
def assetHub : Chain := ⟨"westmint", ["wss://node"], some ⟨"WND", 12⟩, [⟨"JOE", 8⟩]⟩

/-- The same chain, of which only the asset is wanted. -/
def joeChain : Chain := ⟨"westmint", ["wss://node"], none, [⟨"JOE", 8⟩]⟩

def assetHubSpecs : ShortSpecs := ⟨42, 12, "WND"⟩

/-- The asset of the chain. -/
def joe : SufficientAsset := ⟨8, "JOE", 3⟩

def joeHash : List UInt8 :=
  [190, 31, 57, 49, 2, 140, 192, 92, 46, 24, 163, 25, 232, 246, 79, 158]

/-- The key of its record. -/
def joeKey : List UInt8 :=
  [104, 42, 89, 213, 26, 185, 228, 138, 140, 140, 196, 24, 255, 151, 8, 210] ++
  [211, 67, 113, 161, 147, 167, 81, 238, 165, 136, 62, 149, 83, 69, 123, 46] ++
  joeHash ++ [8, 0, 0, 0]

/-- The key of its description. -/
def joeDescriptionKey : List UInt8 :=
  [104, 42, 89, 213, 26, 185, 228, 138, 140, 140, 196, 24, 255, 151, 8, 210] ++
  [181, 243, 130, 46, 53, 202, 47, 49, 206, 53, 38, 234, 177, 54, 63, 210] ++
  joeHash ++ [8, 0, 0, 0]

/-- The record, as it is stored. -/
def storedJoe : List UInt8 :=
  account.bytes.toList ++ account.bytes.toList ++ account.bytes.toList ++ account.bytes.toList ++
    List.replicate 48 0 ++ [1] ++ List.replicate 13 0

def joeRecord : ParsedData :=
  .composite [(some "owner", .id account), (some "issuer", .id account),
    (some "admin", .id account), (some "freezer", .id account),
    (some "supply", .primitiveU128 0 true), (some "deposit", .primitiveU128 0 true),
    (some "min_balance", .primitiveU128 0 true), (some "is_sufficient", .primitiveBool true),
    (some "accounts", .primitiveU32 0), (some "sufficients", .primitiveU32 0),
    (some "approvals", .primitiveU32 0), (some "status", .other)]

/-- The description, as it is stored. -/
def storedJoeDescription : List UInt8 :=
  List.replicate 16 0 ++ [12, 74, 111, 101] ++ [12, 74, 79, 69] ++ [3, 0]

def joeDescription : ParsedData :=
  .composite [(some "deposit", .primitiveU128 0 true),
    (some "name", .composite [(none, .bytes [74, 111, 101])]),
    (some "symbol", .composite [(none, .bytes [74, 79, 69])]),
    (some "decimals", .primitiveU8 3), (some "is_frozen", .primitiveBool false)]

/-- Libraries for metadata with assets, and for this one. -/
def assetLibrary : NodeLibrary libraries.Metadata where
  toStorageLibrary := balanceLibrary.toStorageLibrary
  storageKey := balanceLibrary.storageKey
  decodeAllAsType _ _ value := if value = storedJoeDescription then some joeDescription else none
  parser := {
    twox128 := fun bytes =>
      if bytes = "Assets".toUTF8.toList then
        [104, 42, 89, 213, 26, 185, 228, 138, 140, 140, 196, 24, 255, 151, 8, 210]
      else if bytes = "Asset".toUTF8.toList then
        [211, 67, 113, 161, 147, 167, 81, 238, 165, 136, 62, 149, 83, 69, 123, 46]
      else [181, 243, 130, 46, 53, 202, 47, 49, 206, 53, 38, 234, 177, 54, 63, 210]
    storages := fun _ => [⟨"Assets", [⟨"Asset", .map [.blake2_128Concat] 2 40⟩,
      ⟨"Metadata", .map [.blake2_128Concat] 2 41⟩]⟩]
    decodeAsStorageEntry := fun _ _ _ value => if value = storedJoe then some joeRecord else none }
  pallets _ := []
  storageEntryKey _ _ key _ :=
    match Scale.Codec.u32.decode (key.drop 48) with
    | some (asset_id, []) => .singleHash (.parsed (.primitiveU32 asset_id))
    | _ => .plain
  decodeMetadata _ := none
  resolvesToU32 _ ty := some (ty = 2)
  blake2_128 data := if data = [8, 0, 0, 0] then joeHash else data
  blake2_256 := id
  twox64 := id
  twox256 := id

def joeState : ChainState where
  entries := [(joeDescriptionKey, storedJoeDescription), (joeKey, storedJoe)]
  ordered := by decide +kernel

/-- A node all of whose blocks hold this asset. -/
def assetHubNode : Node where
  state _ := joeState
  best _ := joeState
  answered _ := true

/-- What the chain has under a key. -/
def joeAt (key : List UInt8) : Option SufficientAsset := if key = joeKey then some joe else none

theorem decode_storedJoe (metadata : libraries.Metadata) (entry : StorageEntryMetadata)
    (key : List UInt8) :
    assetLibrary.parser.decodeAsStorageEntry metadata entry key storedJoe = some joeRecord := by
  simp [assetLibrary]

theorem decode_storedJoeDescription (metadata : libraries.Metadata) (ty : UInt32) :
    assetLibrary.decodeAllAsType metadata ty storedJoeDescription = some joeDescription := by
  simp [assetLibrary]

theorem joeState_holds : HoldsAssets assetLibrary "westmint" joeState joeAt := by
  refine .stored ⟨"Asset", .map [.blake2_128Concat] 2 40⟩
    ⟨"Metadata", .map [.blake2_128Concat] 2 41⟩ rfl fun key hstem => ?_
  by_cases hkey : key = joeKey
  · subst hkey
    rw [joeAt, if_pos rfl]
    refine .stored storedJoe joeRecord 8 true _ (by decide +kernel) (decode_storedJoe ..) rfl rfl ?_
    exact .described .blake2_128Concat 41 joe storedJoeDescription joeDescription rfl rfl
      (by decide +kernel) (decode_storedJoeDescription ..) ⟨by decide +kernel, rfl⟩
  · rw [joeAt, if_neg hkey]
    refine .absent ((ChainState.get_eq_none_iff _ _).mpr fun hmem => ?_)
    have hother : (assetsStem assetLibrary).isPrefixOf joeDescriptionKey = false := by
      decide +kernel
    rcases List.mem_pair.mp hmem with rfl | rfl
    · cases hstem.symm.trans hother
    · exact hkey rfl

/-- The hash of a block comes before the keys of the assets or after them. -/
theorem seenAssets_assetHubNode :
    seenAssets assetLibrary assetHubNode zeroBlock 0 joeAt = [joe] ∧
      seenAssets assetLibrary assetHubNode highBlock 0 joeAt = [] ∧
      sufficientAssets assetLibrary joeState joeAt = [joe] :=
  ⟨by decide +kernel, by decide +kernel, by decide +kernel⟩

end Sample

/-- The asset is wanted, seen and reported. -/
theorem judgedByProgram_iff_joeChain :
    JudgedByProgram Sample.assetLibrary Sample.assetHubNode "westmint" Sample.zeroBlock 0
      Sample.joeChain Sample.assetHubSpecs
      (sufficientAssets Sample.assetLibrary Sample.joeState Sample.joeAt) := by
  obtain ⟨hseen, -, -⟩ := Sample.seenAssets_assetHubNode
  refine (judgedByProgram_iff (fun _ => rfl) rfl (by decide) Sample.joeState_holds).mpr
    (.inr fun a ha => ?_)
  obtain rfl := List.mem_singleton.mp ha
  rw [hseen]
  exact ⟨[], Sample.joe, [], rfl, rfl, rfl, nofun⟩

/-- **A chain that serves what was configured, and is refused**: because a native token is wanted
too, or because the hash of the block hides the asset. -/
theorem native_with_asset_refused :
    ¬JudgedByProgram Sample.assetLibrary Sample.assetHubNode "westmint" Sample.zeroBlock 0
        Sample.assetHub Sample.assetHubSpecs
        (sufficientAssets Sample.assetLibrary Sample.joeState Sample.joeAt) ∧
      ¬JudgedByProgram Sample.assetLibrary Sample.assetHubNode "westmint" Sample.highBlock 0
        Sample.joeChain Sample.assetHubSpecs
        (sufficientAssets Sample.assetLibrary Sample.joeState Sample.joeAt) := by
  obtain ⟨-, hhidden, hfound⟩ := Sample.seenAssets_assetHubNode
  constructor
  · intro h
    have hjudged := (judgedByProgram_iff_judged (fun _ => rfl) rfl Sample.joeState_holds _).mp h
    rw [hfound] at hjudged
    refine (judged_both_iff rfl (by decide) (by decide)).mp (hjudged "wss://node") ⟨?_, ?_⟩
    · rintro native ⟨⟩
      exact ⟨rfl, rfl⟩
    · simp [Sample.assetHub, Sample.joe]
  · intro h
    have hjudged := (judgedByProgram_iff_judged (fun _ => rfl) rfl Sample.joeState_holds _).mp h
    rw [hfound, hhidden] at hjudged
    rcases (judged_assets_iff rfl (by decide) (List.nil_subset _)).mp (hjudged "wss://node") with
      hserves | hseen
    · refine hserves ⟨nofun, ?_⟩
      simp [Sample.joeChain, Sample.joe]
    · obtain ⟨before, asset, after, hnil, -⟩ := hseen _ (List.mem_singleton_self _)
      exact absurd hnil (by simp)

end Kalatori
