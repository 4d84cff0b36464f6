import Kalatori.Chain.Events
import Kalatori.Lib.Paging

/-!
# The scan of keys

`get_keys_from_storage` asks for page after page of the keys below a prefix, and
should return those of one block, all of them and in order.  Its parameters are
positional, and while there is no key to start from the hash of the block takes
that place.  So the first page is read from the best block, from that hash on,
and only the pages after it are of the block that was asked about.

* `ChainState.matching`: the keys that should be found.
* `play_scanKeys_pages`: the pages after a key.
* `scannedKeys`, `play_scan`: the keys that the whole scan comes to.
* `scanExact_iff`: the states for which this is what it should be.
-/

namespace Kalatori

open Program Prog Paging

variable {lib : Libraries}

/-- The order of the keys. -/
abbrev KeyLt (a b : List UInt8) : Prop := a < b

/-- The keys that begin with a prefix, in order. -/
def ChainState.matching (state : ChainState) (stem : List UInt8) : List (List UInt8) :=
  state.keys.filter fun key => stem.isPrefixOf key

theorem ChainState.pairwise_matching (state : ChainState) (stem : List UInt8) :
    (state.matching stem).Pairwise KeyLt := by
  refine List.Pairwise.filter _ ?_
  rw [ChainState.keys, List.pairwise_map]
  exact state.ordered

theorem ChainState.keysPaged_eq (state : ChainState) (stem : List UInt8) (count : ℕ)
    (start_key : Option (List UInt8)) :
    state.keysPaged stem count start_key =
      (above KeyLt start_key (state.matching stem)).take count := by
  rw [keysPaged, above, matching, List.filter_filter]
  congr 1
  refine List.filter_congr fun key _ => ?_
  rw [Bool.and_comm]

/-- A page, as a node writes it. -/
def pageJson (keys : List (List UInt8)) : Json :=
  .array (keys.map fun key => .string (hexString key))

theorem hexString_injective : Function.Injective hexString := by
  intro a b h
  have ha := unhex_hexString a .storageKey
  rw [h, unhex_hexString] at ha
  exact (Except.ok.inj ha).symm

theorem flatMap_pageKeys_map (pages : List (List (List UInt8))) :
    (pages.map pageJson).flatMap pageKeys =
      pages.flatten.map fun key => .string (hexString key) := by
  induction pages with
  | nil => rfl
  | cons page pages ih =>
    rw [List.map_cons, List.flatMap_cons, ih, List.flatten_cons, List.map_append]
    rfl

section Scan

variable {node : Node} {block : BlockHash} (hanswered : ∀ n, node.answered n = true)
include hanswered

/-- **The pages after a key** are those of the block. -/
theorem play_scanKeys_pages (stem : List UInt8) (pages n : ℕ) (start_key : List UInt8) :
    ∃ m, play node.answers n
        (scanKeys (hexString stem) block pages (some (hexString start_key))).run =
      (.ok ((Paging.pages KeyLt 10 ((node.state block).matching stem) pages
        (some start_key)).map pageJson), m) := by
  induction pages generalizing n start_key with
  | zero => exact ⟨n, rfl⟩
  | succ pages ih =>
    have hpage : node.answers n (pageRequest (hexString stem) block (some (hexString start_key))) =
        some (pageJson ((above KeyLt (some start_key) ((node.state block).matching stem)).take
          10)) := by
      rw [Node.answers, if_pos (hanswered n), ← ChainState.keysPaged_eq]
      exact node.answer_nextPage n stem start_key block
    rw [Paging.pages]
    cases hlast : ((above KeyLt (some start_key) ((node.state block).matching stem)).take
        10).getLast? with
    | none =>
      rw [List.getLast?_eq_none_iff.mp hlast] at hpage
      exact ⟨n + 1, play_scanKeys_end (.inr hpage)⟩
    | some last =>
      obtain ⟨m, hrest⟩ := ih (n + 1) last
      refine ⟨m, play_scanKeys_next hpage ?_ hrest⟩
      rw [List.getLast?_map, hlast]
      rfl

/-- The answer to the first request: the block stands where the key to start from should be. -/
theorem answers_firstPage (n : ℕ) (stem : List UInt8) :
    node.answers n (pageRequest (hexString stem) block none) =
      some (pageJson ((node.best n).keysPaged stem 10 (some block.bytes.toList))) := by
  rw [Node.answers, if_pos (hanswered n)]
  exact node.answer_firstPage n stem block

end Scan

/-- The first page: keys of the best block, above the key whose bytes are the hash. -/
def firstPage (parser : Parser lib.Metadata) (node : Node) (pallet storage_name : String)
    (block : BlockHash) (n : ℕ) : List (List UInt8) :=
  (node.best n).keysPaged (storageKeyStart parser pallet storage_name) 10
    (some block.bytes.toList)

/-- **The keys that a scan comes to**: those of the first page, and if there are any, the first
keys of the block above the last one of them, as many as fit on the other pages. -/
def scannedKeys (parser : Parser lib.Metadata) (node : Node) (pallet storage_name : String)
    (block : BlockHash) (n : ℕ) : List (List UInt8) :=
  firstPage parser node pallet storage_name block n ++
    ((firstPage parser node pallet storage_name block n).getLast?.elim [] fun last =>
      (above KeyLt (some last) ((node.state block).matching
        (storageKeyStart parser pallet storage_name))).take 2550)

section Scan

variable {parser : Parser lib.Metadata} {node : Node} {pallet storage_name : String}
  {block : BlockHash} (hanswered : ∀ n, node.answered n = true)
include hanswered

/-- **The scan returns the keys that it comes to.** -/
theorem play_scan (n : ℕ) :
    ∃ found m, play node.answers n (getKeysFromStorage parser pallet storage_name block).run =
        (.ok found, m) ∧
      found.flatMap pageKeys = (scannedKeys parser node pallet storage_name block n).map
        fun key => .string (hexString key) := by
  have hpage := @answers_firstPage node block hanswered n
    (storageKeyStart parser pallet storage_name)
  rw [← firstPage] at hpage
  rw [scannedKeys]
  cases hlast : (firstPage parser node pallet storage_name block n).getLast? with
  | none =>
    rw [List.getLast?_eq_none_iff.mp hlast] at hpage ⊢
    exact ⟨[], n + 1, play_scanKeys_end (.inr hpage), rfl⟩
  | some last =>
    obtain ⟨m, hrest⟩ := @play_scanKeys_pages node block hanswered
      (storageKeyStart parser pallet storage_name) 255 (n + 1) last
    refine ⟨_, m, play_scanKeys_next hpage ?_ hrest, ?_⟩
    · rw [List.getLast?_map, hlast]
      rfl
    · rw [List.flatMap_cons, flatMap_pageKeys_map,
        flatten_pages ((node.state block).pairwise_matching _), Option.elim_some, List.map_append]
      rfl

end Scan

/-- What a scan comes to begins with the prefix. -/
theorem isPrefixOf_of_mem_scannedKeys {parser : Parser lib.Metadata} {node : Node}
    {pallet storage_name : String} {block : BlockHash} {n : ℕ} {key : List UInt8}
    (h : key ∈ scannedKeys parser node pallet storage_name block n) :
    (storageKeyStart parser pallet storage_name).isPrefixOf key = true := by
  rcases List.mem_append.mp h with h | h
  · have hkey := (List.mem_filter.mp (List.mem_of_mem_take h)).2
    exact (Bool.and_eq_true_iff.mp hkey).1
  · cases hlast : (firstPage parser node pallet storage_name block n).getLast? with
    | none =>
      rw [hlast] at h
      exact absurd h List.not_mem_nil
    | some last =>
      rw [hlast] at h
      have hmem : key ∈ (node.state block).matching (storageKeyStart parser pallet storage_name) :=
        List.mem_of_mem_filter (List.mem_of_mem_take h)
      exact (List.mem_filter.mp hmem).2

section Exact

variable (parser : Parser lib.Metadata) (node : Node) (pallet storage_name : String)
  (block : BlockHash) (n : ℕ)

/-- **The scan is exact**: page by page, it returns the keys of the block with the prefix, all of
them, once each and in order. -/
def ScanExact : Prop :=
  ∃ found m, play node.answers n (getKeysFromStorage parser pallet storage_name block).run =
      (.ok found, m) ∧
    found.flatMap pageKeys = ((node.state block).matching
      (storageKeyStart parser pallet storage_name)).map fun key => .string (hexString key)

variable {parser node pallet storage_name block n}

theorem map_hexString_inj {keys keys' : List (List UInt8)} :
    (keys.map fun key => Json.string (hexString key)) =
      (keys'.map fun key => Json.string (hexString key)) ↔ keys = keys' := by
  refine List.map_inj_right ?_
  intro a b h
  exact hexString_injective (Json.string.inj h)

/-- The scan is exact if it comes to just the keys that it should. -/
theorem scanExact_iff_scannedKeys (hanswered : ∀ n, node.answered n = true) :
    ScanExact parser node pallet storage_name block n ↔
      scannedKeys parser node pallet storage_name block n = (node.state block).matching
        (storageKeyStart parser pallet storage_name) := by
  obtain ⟨found, m, hplay, hfound⟩ :=
    @play_scan _ parser node pallet storage_name block hanswered n
  rw [← map_hexString_inj, ← hfound]
  constructor
  · rintro ⟨found', m', hplay', hfound'⟩
    obtain ⟨rfl, -⟩ : found = found' ∧ m = m' := by simpa using hplay.symm.trans hplay'
    exact hfound'
  · exact fun h => ⟨found, m, hplay, h⟩

/-- **When the scan is exact**: the first page has the first of the keys that should be found, all
the others fit on the pages after it, and it is empty only if there is nothing to find. -/
theorem scanExact_iff (hanswered : ∀ n, node.answered n = true) :
    ScanExact parser node pallet storage_name block n ↔
      (firstPage parser node pallet storage_name block n = [] → (node.state block).matching
        (storageKeyStart parser pallet storage_name) = []) ∧
      firstPage parser node pallet storage_name block n <+: (node.state block).matching
        (storageKeyStart parser pallet storage_name) ∧
      ((node.state block).matching (storageKeyStart parser pallet storage_name)).length ≤
        (firstPage parser node pallet storage_name block n).length + 2550 := by
  rw [scanExact_iff_scannedKeys hanswered, scannedKeys]
  cases hlast : (firstPage parser node pallet storage_name block n).getLast? with
  | none =>
    rw [List.getLast?_eq_none_iff.mp hlast, Option.elim_none, List.append_nil]
    constructor
    · intro hnil
      rw [← hnil]
      exact ⟨fun _ => rfl, List.prefix_refl _, Nat.zero_le _⟩
    · rintro ⟨hnil, -⟩
      exact (hnil rfl).symm
  | some last =>
    have hne : firstPage parser node pallet storage_name block n ≠ [] := by
      rintro hnil
      rw [hnil] at hlast
      cases hlast
    rw [Option.elim_some, append_take_above_iff ((node.state block).pairwise_matching _) hlast]
    exact ⟨fun h => ⟨fun hnil => absurd hnil hne, h⟩, fun h => h.2⟩

end Exact

namespace Sample

theorem matching_truthfulNode (stored : List UInt8) (block : BlockHash) :
    ((truthfulNode stored fun _ => true).state block).matching (eventsKey parser) =
      [eventsKey parser] := by
  rw [ChainState.matching]
  show [eventsKey parser].filter _ = _
  rw [List.filter_cons_of_pos (List.isPrefixOf_iff_prefix.mpr (List.prefix_refl _))]
  rfl

theorem firstPage_truthfulNode (stored : List UInt8) (block : BlockHash) (n : ℕ) :
    firstPage parser (truthfulNode stored fun _ => true) "System" "Events" block n =
      if block.bytes.toList < eventsKey parser then [eventsKey parser] else [] := by
  have hplain : ((truthfulNode stored fun _ => true).best n).Plain (eventsKey parser) :=
    fun _ hmem _ => List.mem_singleton.mp hmem
  have hmem : eventsKey parser ∈ ((truthfulNode stored fun _ => true).best n).keys :=
    List.mem_singleton_self _
  rw [firstPage]
  refine (ChainState.keysPaged_plain hplain (by decide) _).trans ?_
  simp only [hmem, and_true]

/-- A block whose hash comes after every key. -/
def highBlock : BlockHash := ⟨Vector.replicate 32 255⟩

end Sample

/-- One key, in a block whose hash comes before it. -/
theorem scanExact_iff_zeroBlock :
    ScanExact Sample.parser (Sample.truthfulNode Sample.storedTransfer fun _ => true) "System"
      "Events" Sample.zeroBlock 0 := by
  have hfirst := Sample.firstPage_truthfulNode Sample.storedTransfer Sample.zeroBlock 0
  have hbefore : Sample.zeroBlock.bytes.toList < eventsKey Sample.parser :=
    Sample.lt_eventsKey (List.replicate 31 0)
  rw [if_pos hbefore] at hfirst
  have hkeys := Sample.matching_truthfulNode Sample.storedTransfer Sample.zeroBlock
  refine (scanExact_iff fun _ => rfl).mpr ⟨fun hnil => ?_, ?_, ?_⟩
  · rw [hfirst] at hnil
    cases hnil
  · rw [hfirst]
    exact hkeys ▸ List.prefix_refl _
  · rw [hfirst]
    exact (congrArg List.length hkeys).le.trans (by decide)

/-- **A key that is not found.**  The block asked about is like the best one, and its hash comes
after the key. -/
theorem highBlock_not_scanned :
    ¬ScanExact Sample.parser (Sample.truthfulNode Sample.storedTransfer fun _ => true) "System"
      "Events" Sample.highBlock 0 := by
  have hfirst := Sample.firstPage_truthfulNode Sample.storedTransfer Sample.highBlock 0
  have hafter : ¬Sample.highBlock.bytes.toList < eventsKey Sample.parser := by decide +kernel
  rw [if_neg hafter] at hfirst
  have hanswered : ∀ n,
      (Sample.truthfulNode Sample.storedTransfer fun _ => true).answered n = true := fun _ => rfl
  rw [scanExact_iff_scannedKeys hanswered, scannedKeys, hfirst]
  intro hnil
  have hkeys := Sample.matching_truthfulNode Sample.storedTransfer Sample.highBlock
  cases hkeys.symm.trans hnil.symm

end Kalatori
