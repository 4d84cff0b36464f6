import Kalatori.Chain.Rpc

/-!
# The events of a block

A node answers by position: the third parameter of a request for keys is the key
to start from, and the fourth is the block.  The scan of `getKeysFromStorage` has
no key to start from when it begins, and puts the block in the third place, so its
first page is of the best block and begins above the hash of the block asked
about; and when a request for a page fails, the scan ends without an error.

The events of a block are a plain entry of the storage, so there is one key to
find, and it is found on the first page or not at all.  `hidesNothing_iff` says
when the transfers that `transferEvents` returns are those of the block.

* `ChainState.keysPaged`, `Node`: states, and a node that answers truthfully or not at all.
* `play_getKeysFromStorage`: what the scan returns.
* `valueEvents_of_records`: what the filter makes of the records of a block.
-/

namespace Kalatori

open Program Prog

variable {lib : Libraries}

/-! ## A truthful node -/

/-- What is stored at a block, in the order of the keys. -/
structure ChainState where
  entries : List (List UInt8 × List UInt8)
  ordered : entries.Pairwise fun a b => a.1 < b.1

namespace ChainState

variable (state : ChainState)

def keys : List (List UInt8) := state.entries.map Prod.fst

def get (key : List UInt8) : Option (List UInt8) :=
  (state.entries.find? fun entry => entry.1 = key).map Prod.snd

/-- The first keys that begin as asked for and lie above the key to start from. -/
def keysPaged (stem : List UInt8) (count : ℕ) (start_key : Option (List UInt8)) :
    List (List UInt8) :=
  (state.keys.filter fun key => stem.isPrefixOf key && start_key.all fun s => s < key).take count

/-- No key begins with this one but itself. -/
def Plain (key : List UInt8) : Prop := ∀ key' ∈ state.keys, key <+: key' → key' = key

theorem nodup_keys : state.keys.Nodup := by
  rw [keys, List.Nodup, List.pairwise_map]
  refine state.ordered.imp fun {a b} hlt heq => ?_
  rw [heq] at hlt
  exact List.lt_irrefl _ hlt

theorem get_eq_none_iff (key : List UInt8) : state.get key = none ↔ key ∉ state.keys := by
  rw [get, Option.map_eq_none_iff, List.find?_eq_none, keys, List.mem_map]
  simp only [decide_eq_true_eq, not_exists, not_and]

variable {state}

theorem keysPaged_plain {key : List UInt8} (hplain : state.Plain key) {count : ℕ}
    (hcount : 0 < count) (start_key : List UInt8) :
    state.keysPaged key count (some start_key) =
      if start_key < key ∧ key ∈ state.keys then [key] else [] := by
  have hfilter : (state.keys.filter fun key' => key.isPrefixOf key' && decide (start_key < key')) =
      if start_key < key then state.keys.filter fun key' => key' = key else [] := by
    split
    · rename_i hstart
      refine List.filter_congr fun key' hmem => ?_
      rw [Bool.eq_iff_iff, Bool.and_eq_true, List.isPrefixOf_iff_prefix, decide_eq_true_iff,
        decide_eq_true_iff]
      constructor
      · intro h
        exact hplain key' hmem h.1
      · intro h
        rw [h]
        exact ⟨List.prefix_refl key, hstart⟩
    · rename_i hstart
      rw [List.filter_eq_nil_iff]
      intro key' hmem h
      rw [Bool.and_eq_true, List.isPrefixOf_iff_prefix, decide_eq_true_iff] at h
      have hself : key' = key := hplain key' hmem h.1
      rw [hself] at h
      exact hstart h.2
  have hself : (state.keys.filter fun key' => key' = key) =
      if key ∈ state.keys then [key] else [] := by
    split
    · rename_i hmem
      rw [List.filter_eq]
      rw [List.count_eq_one_of_mem state.nodup_keys hmem]
      rfl
    · rename_i hmem
      rw [List.filter_eq_nil_iff]
      intro key' hmem' h
      rw [decide_eq_true_iff] at h
      rw [h] at hmem'
      exact hmem hmem'
  rw [keysPaged]
  simp only [Option.all_some]
  rw [hfilter, hself]
  by_cases hstart : start_key < key <;> by_cases hmem : key ∈ state.keys <;>
    simp [hstart, hmem, List.take_of_length_le (show [key].length ≤ count from hcount)]

end ChainState

/-- A node: the state of every block, the state of its best block at every request, and which
requests it answers. -/
structure Node where
  state : BlockHash → ChainState
  best : ℕ → ChainState
  answered : ℕ → Bool

namespace Node

/-- The bytes of a parameter. -/
def bytesParam : Json → Option (List UInt8)
  | .string s => (unhex s .storageKey).toOption
  | _ => none

variable (node : Node) (n : ℕ)

/-- The state that the last parameter is about, or the one of the best block. -/
def stateAt : List Json → Option ChainState
  | [] => some (node.best n)
  | [.string s] => (BlockHash.fromStr s).toOption.map node.state
  | _ => none

/-- The true answer to a request, by its positional parameters. -/
def answer (request : NodeRequest) : Option Json :=
  match request.method, request.params with
  | "state_getKeysPaged", [stem, .posInt count] => do
    let stem ← bytesParam stem
    return .array (((node.best n).keysPaged stem count.toNat none).map fun key =>
      .string (hexString key))
  | "state_getKeysPaged", stem :: .posInt count :: start_key :: block => do
    let stem ← bytesParam stem
    let start_key ← bytesParam start_key
    let state ← node.stateAt n block
    return .array ((state.keysPaged stem count.toNat (some start_key)).map fun key =>
      .string (hexString key))
  | "state_getStorage", key :: block => do
    let key ← bytesParam key
    let state ← node.stateAt n block
    return match state.get key with
    | some value => .string (hexString value)
    | none => .null
  | _, _ => none

def answers : ℕ → ∀ request : NodeSig.Op, NodeSig.Answer request := fun n request =>
  if node.answered n then node.answer n request else none

/-- Without a key to start from, the block stands in its place. -/
theorem answer_firstPage (stem : List UInt8) (block : BlockHash) :
    node.answer n ⟨"state_getKeysPaged",
        [.string (hexString stem), .posInt 10, .string block.toString]⟩ =
      some (.array (((node.best n).keysPaged stem 10 (some block.bytes.toList)).map fun key =>
        .string (hexString key))) := by
  simp [answer, bytesParam, stateAt, BlockHash.toString, Except.toOption]

theorem answer_nextPage (stem start_key : List UInt8) (block : BlockHash) :
    node.answer n ⟨"state_getKeysPaged",
        [.string (hexString stem), .posInt 10, .string (hexString start_key),
          .string block.toString]⟩ =
      some (.array (((node.state block).keysPaged stem 10 (some start_key)).map fun key =>
        .string (hexString key))) := by
  simp [answer, bytesParam, stateAt, Except.toOption]

theorem answer_storage (key : List UInt8) (block : BlockHash) :
    node.answer n ⟨"state_getStorage", [.string (hexString key), .string block.toString]⟩ =
      some (match (node.state block).get key with
        | some value => .string (hexString value)
        | none => .null) := by
  simp [answer, bytesParam, stateAt, Except.toOption]

end Node

/-! ## The scan -/

section Scan

variable (parser : Parser lib.Metadata) (node : Node) (block : BlockHash)

/-- The key of the events. -/
def eventsKey : List UInt8 := storageKeyStart parser "System" "Events"

/-- The first page comes and has the key of the events. -/
def FirstPageHasKey : Prop :=
  node.answered 0 = true ∧ block.bytes.toList < eventsKey parser ∧
    eventsKey parser ∈ (node.best 0).keys

instance : Decidable (FirstPageHasKey parser node block) := by
  unfold FirstPageHasKey
  infer_instance

variable {parser node block}

@[simp] theorem play_attempt (n : ℕ) (method : String) (params : List Json) :
    play node.answers n (Fetch.attempt method params).run =
      (.ok (node.answers n ⟨method, params⟩), n + 1) := rfl

/-- The request for a page. -/
def pageRequest (stem : String) (block : BlockHash) (start_key : Option String) : NodeRequest :=
  ⟨"state_getKeysPaged", [.string stem, .posInt 10] ++ (start_key.map Json.string).toList ++
    [.string block.toString]⟩

/-- A page without keys is the last one, and so is one that does not come. -/
theorem play_scanKeys_end {n pages : ℕ} {stem : String} {start_key : Option String}
    (h : node.answers n (pageRequest stem block start_key) = none ∨
      node.answers n (pageRequest stem block start_key) = some (.array [])) :
    play node.answers n (scanKeys stem block (pages + 1) start_key).run = (.ok [], n + 1) := by
  rw [scanKeys, play_run_bind, play_attempt]
  unfold pageRequest at h
  rcases h with h | h <;> rw [h] <;> rfl

theorem play_scanKeys_next {n m pages : ℕ} {stem last : String} {start_key : Option String}
    {keys keys_vec : List Json}
    (h : node.answers n (pageRequest stem block start_key) = some (.array keys))
    (hlast : keys.getLast? = some (.string last))
    (hrest : play node.answers (n + 1) (scanKeys stem block pages (some last)).run =
      (.ok keys_vec, m)) :
    play node.answers n (scanKeys stem block (pages + 1) start_key).run =
      (.ok (.array keys :: keys_vec), m) := by
  rw [scanKeys, play_run_bind, play_attempt]
  unfold pageRequest at h
  rw [h]
  simp only [hlast]
  rw [play_run_bind, hrest]
  rfl

/-- **The scan finds the key on its first page or not at all.** -/
theorem play_getKeysFromStorage (hbest : (node.best 0).Plain (eventsKey parser))
    (hstate : (node.state block).Plain (eventsKey parser)) :
    play node.answers 0 (getKeysFromStorage parser "System" "Events" block).run =
      if FirstPageHasKey parser node block then
        (.ok [.array [.string (hexString (eventsKey parser))]], 2)
      else (.ok [], 1) := by
  have hfirst : node.answer 0 (pageRequest (hexString (eventsKey parser)) block none) =
      some (.array (((node.best 0).keysPaged (eventsKey parser) 10
        (some block.bytes.toList)).map fun key => .string (hexString key))) :=
    node.answer_firstPage 0 (eventsKey parser) block
  rw [ChainState.keysPaged_plain hbest (by decide)] at hfirst
  have hsecond : node.answer 1 (pageRequest (hexString (eventsKey parser)) block
      (some (hexString (eventsKey parser)))) = some (.array []) := by
    have hnext := node.answer_nextPage 1 (eventsKey parser) (eventsKey parser) block
    rw [ChainState.keysPaged_plain hstate (by decide),
      if_neg fun h => List.lt_irrefl (eventsKey parser) h.1] at hnext
    exact hnext
  split
  · rename_i hpage
    obtain ⟨hanswered, hlt, hmem⟩ := hpage
    rw [if_pos ⟨hlt, hmem⟩] at hfirst
    refine play_scanKeys_next ?_ rfl (play_scanKeys_end ?_)
    · rw [Node.answers, if_pos hanswered]
      exact hfirst
    · rw [Node.answers]
      split
      · exact .inr hsecond
      · exact .inl rfl
  · rename_i hpage
    refine play_scanKeys_end ?_
    rw [Node.answers]
    split
    · rename_i hanswered
      rw [if_neg fun h => hpage ⟨hanswered, h.1, h.2⟩] at hfirst
      exact .inr hfirst
    · exact .inl rfl

/-! ## The records of a block -/

/-- The record of an event, whatever else it says. -/
def IsRecord (event : Event) : ParsedData → Prop
  | .composite fields => (fields.filter fun field => field.1 = some "event") =
      [(some "event", .event event.pallet_name event.variant_name event.fields)]
  | _ => False

/-- The value under the key of the events. -/
def Records (events : List Event) : ParsedData → Prop
  | .sequenceRaw records => List.Forall₂ IsRecord events records
  | _ => False

theorem recordEvents_of_isRecord {event : Event} {record : ParsedData}
    (h : IsRecord event record) (filter : EventFilter) :
    recordEvents (some filter) record = [event].filter filter.passes := by
  cases record with
  | composite fields =>
    have hfields : recordEvents (some filter) (.composite fields) =
        recordEvents (some filter)
          (.composite (fields.filter fun field => field.1 = some "event")) := by
      rw [recordEvents, recordEvents, List.filterMap_filter]
      refine List.filterMap_congr fun field _ => ?_
      by_cases hname : field.1 = some "event"
      · rw [if_pos (decide_eq_true hname)]
      · rw [if_neg (by simpa using hname)]
        obtain ⟨name, data⟩ := field
        split
        · rename_i heq
          exact absurd (congrArg Prod.fst heq) hname
        · rfl
    rw [hfields, show (fields.filter fun field => field.1 = some "event") = _ from h]
    cases hpasses : filter.passes event with
    | true => simp [recordEvents, hpasses]
    | false => simp [recordEvents, hpasses]
  | _ => exact absurd h id

/-- **The filter makes of the records the events that pass it.** -/
theorem valueEvents_of_records {events : List Event} {data : ParsedData}
    (h : Records events data) (filter : EventFilter) :
    valueEvents (some filter) data = events.filter filter.passes := by
  cases data with
  | sequenceRaw records =>
    have hrecords : List.Forall₂ IsRecord events records := h
    rw [valueEvents]
    induction hrecords with
    | nil => rfl
    | cons hrecord _ ih =>
      rename_i event _ events records _
      rw [List.flatMap_cons, ih (by assumption), recordEvents_of_isRecord hrecord,
        ← List.filter_append]
      rfl
  | _ => exact absurd h id

end Scan

/-! ## The transfers of a block -/

section Transfers

variable (parser : Parser lib.Metadata) (node : Node) (metadata : lib.Metadata) (block : BlockHash)
  (events : List Event)

/-- A block holds these events, and metadata that describe them have them decoded rightly. -/
structure HoldsEvents : Prop where
  best_plain : (node.best 0).Plain (eventsKey parser)
  state_plain : (node.state block).Plain (eventsKey parser)
  stored :
    (node.state block).get (eventsKey parser) = none ∧ events = [] ∨
      ∃ value, (node.state block).get (eventsKey parser) = some value ∧
        ∀ events_entry, eventsEntryMetadata parser metadata = .ok events_entry →
          ∃ data, parser.decodeAsStorageEntry metadata events_entry (eventsKey parser) value =
            some data ∧ Records events data

/-- The transfers of the native token. -/
def balanceTransfers : List Event :=
  events.filter fun event => event.pallet_name = "Balances" ∧ event.variant_name = "Transfer"

/-- If the function returns events, they are the transfers of the block. -/
def HidesNothing : Prop :=
  ∀ found, (play node.answers 0 (transferEvents parser metadata block).run).1 = .ok found →
    found = balanceTransfers events

variable {parser node metadata block events}

@[simp] theorem play_ofExcept_ok {α : Type} (n : ℕ) (a : α) :
    play node.answers n (Fetch.ofExcept (.ok a)).run = (.ok a, n) := rfl

theorem play_request (n : ℕ) (method : String) (params : List Json) :
    play node.answers n (Fetch.request method params).run =
      match node.answers n ⟨method, params⟩ with
      | some value => (.ok value, n + 1)
      | none => (.error (.failed .client), n + 1) := by
  rw [Fetch.request, play_run_bind, play_attempt]
  cases node.answers n ⟨method, params⟩ with
  | none => rfl
  | some value => rfl

theorem eventsEntryMetadata_error {e : ChainError}
    (h : eventsEntryMetadata parser metadata = .error e) : e = .eventsNonexistant := by
  simp only [eventsEntryMetadata] at h
  split at h
  · cases h
  · exact (Except.error.inj h).symm

/-- A reading of the events, begun after `n` requests, returns the transfers, or else there was no
answer or no value. -/
def Reads (node : Node) (n : ℕ) (block : BlockHash) (key : List UInt8) (events : List Event)
    (result : Except Stop (List Event)) : Prop :=
  result = .ok (balanceTransfers events) ∨
    (∃ stop, result = .error stop) ∧ (node.answered n = false ∨ (node.state block).get key = none)

theorem eventsAtKey_reads (h : HoldsEvents parser node metadata block events)
    {events_entry : StorageEntryMetadata}
    (hentry : eventsEntryMetadata parser metadata = .ok events_entry) (n : ℕ) :
    Reads node n block (eventsKey parser) events (play node.answers n
      (eventsAtKey parser (some transferFilter) events_entry metadata block
        (hexString (eventsKey parser))).run).1 := by
  rw [eventsAtKey, getValueFromStorage, play_run_bind, play_request, Node.answers,
    node.answer_storage]
  cases hanswered : node.answered n with
  | false => exact .inr ⟨⟨_, rfl⟩, .inl hanswered⟩
  | true =>
    rw [if_pos rfl]
    simp only [unhex_hexString]
    rw [play_run_bind, play_ofExcept_ok]
    simp only
    rcases h.stored with ⟨hnone, -⟩ | ⟨value, hvalue, hdecode⟩
    -- of a key without a value the node says null, which is an error
    · rw [hnone]
      exact .inr ⟨⟨_, rfl⟩, .inr hnone⟩
    · obtain ⟨data, hdata, hrecords⟩ := hdecode events_entry hentry
      rw [hvalue]
      simp only [unhex_hexString]
      rw [play_run_bind, play_ofExcept_ok]
      simp only [hdata]
      rw [valueEvents_of_records hrecords]
      exact .inl rfl

theorem eventsAtKeys_reads (h : HoldsEvents parser node metadata block events)
    {events_entry : StorageEntryMetadata}
    (hentry : eventsEntryMetadata parser metadata = .ok events_entry) (n : ℕ) :
    Reads node n block (eventsKey parser) events (play node.answers n
      (eventsAtKeys parser (some transferFilter) events_entry metadata block
        [.string (hexString (eventsKey parser))]).run).1 := by
  have hkey := eventsAtKey_reads h hentry n
  rw [eventsAtKeys, play_run_bind]
  cases hplay : play node.answers n (eventsAtKey parser (some transferFilter) events_entry metadata
      block (hexString (eventsKey parser))).run with
  | mk result m =>
    rw [hplay] at hkey
    rcases hkey with rfl | ⟨⟨stop, rfl⟩, hnot⟩
    · exact .inl (congrArg Except.ok (List.append_nil _))
    · exact .inr ⟨⟨stop, rfl⟩, hnot⟩

/-- Without the key on the first page there are no events. -/
theorem transferEvents_none (h : HoldsEvents parser node metadata block events)
    {events_entry : StorageEntryMetadata}
    (hentry : eventsEntryMetadata parser metadata = .ok events_entry)
    (hpage : ¬FirstPageHasKey parser node block) :
    (play node.answers 0 (transferEvents parser metadata block).run).1 = .ok [] := by
  rw [transferEvents, hentry, play_run_bind, play_ofExcept_ok]
  simp only [eventsAtBlock]
  rw [play_run_bind, play_getKeysFromStorage h.best_plain h.state_plain, if_neg hpage]
  rfl

theorem transferEvents_reads (h : HoldsEvents parser node metadata block events)
    {events_entry : StorageEntryMetadata}
    (hentry : eventsEntryMetadata parser metadata = .ok events_entry)
    (hpage : FirstPageHasKey parser node block) :
    Reads node 2 block (eventsKey parser) events
      (play node.answers 0 (transferEvents parser metadata block).run).1 := by
  rw [transferEvents, hentry, play_run_bind, play_ofExcept_ok]
  simp only [eventsAtBlock]
  rw [play_run_bind, play_getKeysFromStorage h.best_plain h.state_plain, if_pos hpage]
  exact eventsAtKeys_reads h hentry 2

/-- A node that answers every request lets the transfers be found, if the first page has the key. -/
theorem transferEvents_play (h : HoldsEvents parser node metadata block events)
    {events_entry : StorageEntryMetadata}
    (hentry : eventsEntryMetadata parser metadata = .ok events_entry)
    (hanswered : ∀ n, node.answered n = true) (hpage : FirstPageHasKey parser node block)
    (hmem : eventsKey parser ∈ (node.state block).keys) :
    (play node.answers 0 (transferEvents parser metadata block).run).1 =
      .ok (balanceTransfers events) := by
  rcases transferEvents_reads h hentry hpage with hread | ⟨-, hunanswered | hvalue⟩
  · exact hread
  · cases hunanswered.symm.trans (hanswered 2)
  · exact absurd hmem (((node.state block).get_eq_none_iff _).mp hvalue)

theorem transferEvents_found (h : HoldsEvents parser node metadata block events)
    {events_entry : StorageEntryMetadata}
    (hentry : eventsEntryMetadata parser metadata = .ok events_entry)
    (hpage : FirstPageHasKey parser node block) {found : List Event}
    (hfound : (play node.answers 0 (transferEvents parser metadata block).run).1 = .ok found) :
    found = balanceTransfers events := by
  rcases transferEvents_reads h hentry hpage with hread | ⟨⟨stop, hstop⟩, -⟩
  · rw [hfound] at hread
    exact Except.ok.inj hread
  · rw [hfound] at hstop
    cases hstop

/-- **What is returned are the transfers of the block, exactly if the first page has the key of
its events, or there is nothing to miss.** -/
theorem hidesNothing_iff (h : HoldsEvents parser node metadata block events) :
    HidesNothing parser node metadata block events ↔
      eventsEntryMetadata parser metadata = .error .eventsNonexistant ∨
        balanceTransfers events = [] ∨ FirstPageHasKey parser node block := by
  cases hentry : eventsEntryMetadata parser metadata with
  | error e =>
    rw [eventsEntryMetadata_error hentry]
    refine iff_of_true ?_ (.inl rfl)
    intro found hfound
    rw [transferEvents, hentry] at hfound
    cases hfound
  | ok events_entry =>
    constructor
    · intro hall
      by_cases hpage : FirstPageHasKey parser node block
      · exact .inr (.inr hpage)
      · exact .inr (.inl (hall [] (transferEvents_none h hentry hpage)).symm)
    · rintro (hcond | hnothing | hpage) found hfound
      · cases hcond
      · by_cases hpage : FirstPageHasKey parser node block
        · exact transferEvents_found h hentry hpage hfound
        · rw [transferEvents_none h hentry hpage] at hfound
          rw [hnothing]
          exact (Except.ok.inj hfound).symm
      · exact transferEvents_found h hentry hpage hfound

end Transfers

/-! ## A block with one transfer -/

namespace Sample

/-- A transfer in the native token. -/
def recordedTransfer : Event where
  pallet_name := "Balances"
  variant_name := "Transfer"
  fields := [(some "from", .id account), (some "to", .id account),
    (some "amount", .primitiveU128 1000 true)]

/-- A transfer in an asset. -/
def recordedAssetTransfer : Event where
  pallet_name := "Assets"
  variant_name := "Transferred"
  fields := [(some "asset_id", .primitiveU32 1984), (some "from", .id account),
    (some "to", .id account), (some "amount", .primitiveU128 1000 true)]

/-- The events of a block with the one, as they are stored. -/
def storedTransfer : List UInt8 :=
  [4, 0, 1, 0, 0, 0, 5, 2] ++ account.bytes.toList ++ account.bytes.toList ++
    [232, 3, 0, 0, 0, 0, 0, 0, 0, 0, 0, 0, 0, 0, 0, 0, 0]

/-- The events of a block with the other. -/
def storedAssetTransfer : List UInt8 :=
  [4, 0, 1, 0, 0, 0, 50, 1, 192, 7, 0, 0] ++ account.bytes.toList ++ account.bytes.toList ++
    [232, 3, 0, 0, 0, 0, 0, 0, 0, 0, 0, 0, 0, 0, 0, 0, 0]

/-- What the stored events of a block decode to, if there is one. -/
def oneRecord (event : Event) : ParsedData :=
  .sequenceRaw [.composite [(some "phase", .other),
    (some "event", .event event.pallet_name event.variant_name event.fields),
    (some "topics", .sequenceRaw [])]]

/-- A parser for metadata with the events of the system pallet, and for these values. -/
def parser : Parser libraries.Metadata where
  twox128 bytes :=
    if bytes = "System".toUTF8.toList then
      [0x26, 0xaa, 0x39, 0x4e, 0xea, 0x56, 0x30, 0xe0, 0x7c, 0x48, 0xae, 0x0c, 0x95, 0x58, 0xce,
        0xf7]
    else
      [0x80, 0xd4, 0x1e, 0x5e, 0x16, 0x05, 0x67, 0x65, 0xbc, 0x84, 0x61, 0x85, 0x10, 0x72, 0xc9,
        0xd7]
  storages _ := [⟨"System", [⟨"Number", .plain 4⟩, ⟨"Events", .plain 18⟩]⟩]
  decodeAsStorageEntry _ _ _ value :=
    if value = storedTransfer then some (oneRecord recordedTransfer)
    else if value = storedAssetTransfer then some (oneRecord recordedAssetTransfer)
    else none

/-- The key of the events comes late among the keys. -/
theorem lt_eventsKey (bytes : List UInt8) : 0 :: bytes < eventsKey parser := by
  rw [eventsKey, storageKeyStart]
  simp only [parser, if_true, List.cons_append]
  exact List.Lex.rel (by decide)

/-- The hash of a block. -/
def zeroBlock : BlockHash := ⟨Vector.replicate 32 0⟩

/-- A node all of whose blocks hold these events, and which answers these requests. -/
def truthfulNode (stored : List UInt8) (answered : ℕ → Bool) : Node where
  state _ := ⟨[(eventsKey parser, stored)], List.pairwise_singleton _ _⟩
  best _ := ⟨[(eventsKey parser, stored)], List.pairwise_singleton _ _⟩
  answered := answered

theorem truthfulNode_holds {stored : List UInt8} {event : Event}
    (hdecode : ∀ metadata entry key,
      parser.decodeAsStorageEntry metadata entry key stored = some (oneRecord event))
    (answered : ℕ → Bool) (metadata : libraries.Metadata) :
    HoldsEvents parser (truthfulNode stored answered) metadata zeroBlock [event] where
  best_plain _ hmem _ := List.mem_singleton.mp hmem
  state_plain _ hmem _ := List.mem_singleton.mp hmem
  stored := by
    refine .inr ⟨stored, ?_, fun events_entry _ => ⟨oneRecord event, hdecode _ _ _, ?_⟩⟩
    · show ((List.find? _ [(eventsKey parser, stored)]).map Prod.snd) = _
      rw [List.find?_cons_of_pos (by simp)]
      rfl
    · exact List.Forall₂.cons rfl .nil

theorem firstPageHasKey (stored : List UInt8) :
    FirstPageHasKey parser (truthfulNode stored fun _ => true) zeroBlock :=
  ⟨rfl, lt_eventsKey (List.replicate 31 0), List.mem_singleton_self _⟩

theorem parser_storedTransfer (metadata : libraries.Metadata) (entry : StorageEntryMetadata)
    (key : List UInt8) :
    parser.decodeAsStorageEntry metadata entry key storedTransfer =
      some (oneRecord recordedTransfer) := by
  simp [parser]

theorem parser_storedAssetTransfer (metadata : libraries.Metadata) (entry : StorageEntryMetadata)
    (key : List UInt8) :
    parser.decodeAsStorageEntry metadata entry key storedAssetTransfer =
      some (oneRecord recordedAssetTransfer) := by
  have hne : storedAssetTransfer ≠ storedTransfer := by
    intro heq
    exact absurd (congrArg (·.drop 6) heq) (by simp [storedAssetTransfer, storedTransfer])
  simp [parser, hne]

end Sample

/-- When the request for the first page fails, the block looks empty. -/
theorem transfer_hidden :
    ¬∀ (node : Node) (block : BlockHash) (events : List Event),
      HoldsEvents Sample.parser node "polkadot" block events →
        HidesNothing Sample.parser node "polkadot" block events := by
  intro hall
  have hholds := Sample.truthfulNode_holds Sample.parser_storedTransfer (fun n => n ≠ 0) "polkadot"
  have hpage : ¬FirstPageHasKey Sample.parser
      (Sample.truthfulNode Sample.storedTransfer fun n => n ≠ 0) Sample.zeroBlock :=
    fun h => absurd h.1 (by decide)
  have hentry : eventsEntryMetadata Sample.parser "polkadot" = .ok ⟨"Events", .plain 18⟩ := rfl
  have hnone := transferEvents_none hholds hentry hpage
  have hempty := hall _ _ _ hholds [] hnone
  cases hempty

theorem hidesNothing_iff_oneTransfer :
    HidesNothing Sample.parser (Sample.truthfulNode Sample.storedTransfer fun _ => true) "polkadot"
      Sample.zeroBlock [Sample.recordedTransfer] :=
  (hidesNothing_iff (Sample.truthfulNode_holds Sample.parser_storedTransfer _ _)).mpr
    (.inr (.inr (Sample.firstPageHasKey _)))

end Kalatori
