import Kalatori.Chain.Tracker
import Kalatori.Lib.Hex

/-!
# Requests to a node

The functions of the RPC module that read the events of a block: a scan of the
keys below the events of the system pallet, page by page, and for every key its
value, decoded and filtered.

A function is a program over `NodeSig`.  A request is a method and its positional
parameters, and is answered with a JSON value or not at all.  What the parser
library finds in metadata, and how it decodes a stored value, is a parameter
(`Parser`); of the decoded value only the data are kept.

* `getKeysFromStorage`, `getValueFromStorage`: keys and values.
* `eventsEntryMetadata`, `eventsAtBlock`, `transferEvents`: events.
-/

namespace Kalatori

open Program

variable {lib : Libraries}

/-! ## Strings of bytes -/

/-- `unhex` -/
def unhex (hex_data : String) (what_is_hex : NotHex) : Except ChainError (List UInt8) :=
  let digits :=
    match hex_data.toList with
    | '0' :: 'x' :: stripped => stripped
    | digits => digits
  match Hex.decodeDigits digits with
  | some bytes => .ok bytes
  | none => .error (.notHex what_is_hex)

/-- The digits of bytes as a node writes them. -/
def hexString (bytes : List UInt8) : String := "0x" ++ Hex.encode bytes

/-- `BlockHash::to_string` -/
def BlockHash.toString (block : BlockHash) : String := hexString block.bytes.toList

/-- `BlockHash::from_str` -/
def BlockHash.fromStr (s : String) : Except ChainError BlockHash := do
  let block_hash_raw ← unhex s .blockHash
  if h : block_hash_raw.length = 32 then return ⟨⟨block_hash_raw.toArray, h⟩⟩
  else throw .blockHashLength

@[simp] theorem unhex_hexString (bytes : List UInt8) (what : NotHex) :
    unhex (hexString bytes) what = .ok bytes := by
  have htext : (hexString bytes).toList = '0' :: 'x' :: (bytes.flatMap Hex.byteDigits) := by
    rw [hexString, String.toList_append, Hex.encode, String.toList_ofList, String.toList_ofList]
    rfl
  simp only [unhex, htext, Hex.decodeDigits_byteDigits]

@[simp] theorem BlockHash.fromStr_toString (block : BlockHash) :
    BlockHash.fromStr block.toString = .ok block := by
  have hlength : block.bytes.toList.length = 32 := Vector.length_toList
  have hbytes : (⟨block.bytes.toList.toArray, hlength⟩ : Vector UInt8 32) = block.bytes := by
    simp [Vector.toList]
  simp only [BlockHash.fromStr, BlockHash.toString, unhex_hexString, bind, Except.bind, hlength,
    dite_true, pure, Except.pure, hbytes]

/-! ## Requests -/

structure NodeRequest where
  method : String
  params : List Json

abbrev NodeSig : Signature where
  Op := NodeRequest
  Answer _ := Option Json

/-- A function that asks a node. -/
abbrev Fetch := ExceptT Stop (Prog NodeSig)

namespace Fetch

/-- A request, for a `match` on its result. -/
def attempt (method : String) (params : List Json) : Fetch (Option Json) :=
  ExceptT.lift (Prog.perform (S := NodeSig) ⟨method, params⟩)

def request (method : String) (params : List Json) : Fetch Json := do
  match ← attempt method params with
  | some value => pure value
  | none => throw (.failed .client)

def ofExcept {α : Type} : Except ChainError α → Fetch α
  | .ok a => pure a
  | .error e => throw (.failed e)

end Fetch

/-! ## Keys and values -/

/-- `get_value_from_storage` -/
def getValueFromStorage (whole_key : String) (block : BlockHash) : Fetch Json :=
  Fetch.request "state_getStorage" [.string whole_key, .string block.toString]

def maxKeyPages : ℕ := 256

/-- One after the other, the pages of keys.  Whatever is wrong with a page, the pages before it
are returned. -/
def scanKeys (storage_key_start : String) (block : BlockHash) :
    ℕ → Option String → Fetch (List Json)
  | 0, _ => pure []
  | pages + 1, start_key => do
    match ← Fetch.attempt "state_getKeysPaged"
        ([.string storage_key_start, .posInt 10] ++ (start_key.map Json.string).toList ++
          [.string block.toString]) with
    | some (.array keys_inside) =>
      match keys_inside.getLast? with
      | some (.string key_string) => do
        let keys_vec ← scanKeys storage_key_start block pages (some key_string)
        pure (.array keys_inside :: keys_vec)
      | _ => pure []
    | _ => pure []

/-! ## Metadata -/

inductive StorageHasher
  | blake2_128
  | blake2_256
  | blake2_128Concat
  | twox128
  | twox256
  | twox64Concat
  | identity
  deriving DecidableEq

inductive StorageEntryType
  | plain (ty : UInt32)
  | map (hashers : List StorageHasher) (key value : UInt32)
  deriving DecidableEq

/-- `StorageEntryMetadata`, as far as it is read. -/
structure StorageEntryMetadata where
  name : String
  ty : StorageEntryType
  deriving DecidableEq

/-- The storage of a pallet, under the name that its keys begin with. -/
structure PalletStorageMetadata where
  stem : String
  entries : List StorageEntryMetadata

/-- The libraries that read metadata and stored values. -/
structure Parser (Metadata : Type) where
  /-- `twox_128` -/
  twox128 : List UInt8 → List UInt8
  /-- The storage of every pallet of the metadata that has one. -/
  storages : Metadata → List PalletStorageMetadata
  /-- `decode_as_storage_entry`, for a key and its value. -/
  decodeAsStorageEntry :
    Metadata → StorageEntryMetadata → List UInt8 → List UInt8 → Option ParsedData

section Events

variable (parser : Parser lib.Metadata)

/-- The key under which a plain storage entry is kept, and with which the keys of other entries
begin. -/
def storageKeyStart (pallet storage_name : String) : List UInt8 :=
  parser.twox128 pallet.toUTF8.toList ++ parser.twox128 storage_name.toUTF8.toList

/-- `get_keys_from_storage` -/
def getKeysFromStorage (pallet storage_name : String) (block : BlockHash) : Fetch (List Json) :=
  scanKeys (hexString (storageKeyStart parser pallet storage_name)) block maxKeyPages none

/-- `events_entry_metadata`: the first such entry of the last such storage that has one. -/
def eventsEntryMetadata (metadata : lib.Metadata) : Except ChainError StorageEntryMetadata :=
  let found_events_entry_metadata := (parser.storages metadata).foldl (fun found storage =>
    if storage.stem = "System" then
      (storage.entries.find? fun entry => entry.name = "Events").or found
    else found) none
  match found_events_entry_metadata with
  | some entry => .ok entry
  | none => .error .eventsNonexistant

/-! ## Events -/

structure EventFilter where
  pallet : String
  optional_event_variant : Option String

def EventFilter.passes (filter : EventFilter) (event : Event) : Bool :=
  match filter.optional_event_variant with
  | some event_variant => event.pallet_name = filter.pallet ∧ event.variant_name = event_variant
  | none => event.pallet_name = filter.pallet

/-- The events that a record of the events of a block holds and the filter lets through. -/
def recordEvents (optional_filter : Option EventFilter) : ParsedData → List Event
  | .composite event_record => event_record.filterMap fun
    | (some "event", .event pallet_name variant_name fields) =>
      let event : Event := ⟨pallet_name, variant_name, fields⟩
      if optional_filter.all (·.passes event) then some event else none
    | _ => none
  | _ => []

def valueEvents (optional_filter : Option EventFilter) : ParsedData → List Event
  | .sequenceRaw data => data.flatMap (recordEvents optional_filter)
  | _ => []

variable (optional_filter : Option EventFilter) (events_entry : StorageEntryMetadata)
  (metadata : lib.Metadata) (block : BlockHash)

/-- What `events_at_block` reads under one key. -/
def eventsAtKey (key : String) : Fetch (List Event) := do
  let data_from_storage ← getValueFromStorage key block
  let key_bytes ← Fetch.ofExcept (unhex key .storageValue)
  match data_from_storage with
  | .string data_from_storage => do
    let value_bytes ← Fetch.ofExcept (unhex data_from_storage .storageValue)
    match parser.decodeAsStorageEntry metadata events_entry key_bytes value_bytes with
    | some data => pure (valueEvents optional_filter data)
    | none => throw .panicked
  | _ => throw (.failed .storageValueFormat)

def eventsAtKeys : List Json → Fetch (List Event)
  | [] => pure []
  | .string key :: keys => do
    let events ← eventsAtKey parser optional_filter events_entry metadata block key
    let events' ← eventsAtKeys keys
    pure (events ++ events')
  | _ :: keys => eventsAtKeys keys

/-- The keys of a page. -/
def pageKeys : Json → List Json
  | .array keys_array => keys_array
  | _ => []

/-- `events_at_block` -/
def eventsAtBlock : Fetch (List Event) := do
  let keys_from_storage_vec ← getKeysFromStorage parser "System" "Events" block
  eventsAtKeys parser optional_filter events_entry metadata block
    (keys_from_storage_vec.flatMap pageKeys)

/-- The filter of `transfer_events`. -/
def transferFilter : EventFilter where
  pallet := "Balances"
  optional_event_variant := some "Transfer"

/-- `transfer_events` -/
def transferEvents : Fetch (List Event) := do
  let events_entry ← Fetch.ofExcept (eventsEntryMetadata parser metadata)
  eventsAtBlock parser (some transferFilter) events_entry metadata block

end Events

end Kalatori
