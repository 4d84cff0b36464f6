import Kalatori.Chain.Reports
import Mathlib.Data.List.Induction

/-!
# Which chains are accepted

A tracker collects the native token and the sufficient assets of its chain in one
map under their symbols (`assetsSet`), keeps of it what the configuration wants
(`retainAssets`), and goes on if it kept as many as were asked for.

`Serves` is what a chain should have for that, and `Faithful` what should then be
reported.  The filter looks for the assets of the configuration only if there is no
native token, so a chain with both is never accepted; and symbols need not be
unique, so an asset may take the place of another, or of the native token.
`judged_iff` says for which configurations and chains none of this matters, if the
assets that are seen of a chain may be fewer than it has.

* `length_retainAssets_iff`: the comparison of the sizes, as a condition on the names.
* `lookup_assetsSet`: what the map binds a symbol to.
* `connects_iff`: the program, in terms of the two maps.
-/

namespace Kalatori

open Program

variable {lib : Libraries}

/-! ## The names of a configuration -/

/-- The currencies that a configured chain declares. -/
def Chain.declared (chain : Chain) : List String :=
  (chain.native_token.map (·.name)).toList ++ chain.asset.map (·.name)

theorem requestedAssets_eq (chain : Chain) : requestedAssets chain = chain.declared.length := by
  rw [requestedAssets, Chain.declared, List.length_append, List.length_map, Nat.add_comm]
  cases chain.native_token <;> rfl

theorem mem_declared {chain : Chain} {name : String} :
    name ∈ chain.declared ↔ (∃ native, chain.native_token = some native ∧ native.name = name) ∨
      ∃ a ∈ chain.asset, a.name = name := by
  simp [Chain.declared]

/-- What the filter keeps was declared. -/
theorem declared_of_wanted {chain : Chain} {specs : ShortSpecs} {name : String}
    {properties : CurrencyProperties} (h : wantedAsset chain specs name properties) :
    name ∈ chain.declared := by
  rw [mem_declared]
  unfold wantedAsset at h
  cases hnative : chain.native_token with
  | some native =>
    rw [hnative] at h
    simp only [Bool.and_eq_true, decide_eq_true_eq] at h
    exact .inl ⟨native, rfl, h.1⟩
  | none =>
    rw [hnative] at h
    simp only [List.any_eq_true, Bool.and_eq_true, decide_eq_true_eq] at h
    obtain ⟨a, ha, hname, -⟩ := h
    exact .inr ⟨a, ha, hname⟩

theorem lookup_retainAssets {chain : Chain} {specs : ShortSpecs}
    {assets : HashMap String CurrencyProperties} {name : String}
    {properties : CurrencyProperties} :
    (retainAssets chain specs assets).lookup name = some properties ↔
      assets.lookup name = some properties ∧ wantedAsset chain specs name properties := by
  rw [← Option.mem_def, ← Option.mem_def, AList.mem_lookup_iff, AList.mem_lookup_iff]
  simp [retainAssets]

/-- **The sizes agree exactly when every declared currency was kept.** -/
theorem length_retainAssets_iff {chain : Chain} (hnodup : chain.declared.Nodup)
    (specs : ShortSpecs) (assets : HashMap String CurrencyProperties) :
    (retainAssets chain specs assets).entries.length = requestedAssets chain ↔
      ∀ name ∈ chain.declared, ((retainAssets chain specs assets).lookup name).isSome := by
  have hkeys : (retainAssets chain specs assets).entries.length =
      (retainAssets chain specs assets).keys.length := (List.length_map _).symm
  have hsub : (retainAssets chain specs assets).keys ⊆ chain.declared := by
    intro name hname
    obtain ⟨properties, hl⟩ := Option.isSome_iff_exists.mp
      (AList.lookup_isSome.mpr (AList.mem_keys.mpr hname))
    exact declared_of_wanted (lookup_retainAssets.mp hl).2
  rw [hkeys, requestedAssets_eq]
  constructor
  · intro hlength name hname
    have hperm : (retainAssets chain specs assets).keys.Perm chain.declared :=
      (List.subperm_of_subset (AList.keys_nodup _) hsub).perm_of_length_le hlength.ge
    exact AList.lookup_isSome.mpr (AList.mem_keys.mp (hperm.mem_iff.mpr hname))
  · intro hall
    have hsub' : chain.declared ⊆ (retainAssets chain specs assets).keys := fun name hname =>
      AList.mem_keys.mp (AList.lookup_isSome.mp (hall name hname))
    exact ((List.perm_ext_iff_of_nodup (AList.keys_nodup _) hnodup).mpr fun name =>
      ⟨fun h => hsub h, fun h => hsub' h⟩).length_eq

/-! ## The assets of a chain -/

/-- A sufficient asset, as the storage of a chain describes it. -/
structure SufficientAsset where
  id : AssetId
  symbol : String
  decimals : Decimals
  deriving DecidableEq

/-- The properties that `assets_set_at_block` gives to the native token. -/
def nativeProperties (chain_name rpc_url : String) (specs : ShortSpecs) : CurrencyProperties where
  chain_name := chain_name
  kind := .native
  decimals := specs.decimals
  rpc_url := rpc_url
  asset_id := none
  ss58 := specs.base58prefix

/-- The properties that it gives to an asset. -/
def SufficientAsset.properties (chain_name rpc_url : String) (specs : ShortSpecs)
    (asset : SufficientAsset) : CurrencyProperties where
  chain_name := chain_name
  kind := .asset
  decimals := asset.decimals
  rpc_url := rpc_url
  asset_id := some asset.id
  ss58 := specs.base58prefix

/-- The map that `assets_set_at_block` fills, from the sufficient assets in the order in which it
comes to them. -/
def assetsSet (chain_name rpc_url : String) (specs : ShortSpecs) (found : List SufficientAsset) :
    HashMap String CurrencyProperties :=
  found.foldl (fun assets_set asset =>
      assets_set.insert asset.symbol (asset.properties chain_name rpc_url specs))
    (AList.singleton specs.unit (nativeProperties chain_name rpc_url specs))

/-- The last asset with a symbol. -/
def lastNamed (found : List SufficientAsset) (symbol : String) : Option SufficientAsset :=
  (found.filter fun asset => asset.symbol = symbol).getLast?

theorem lookup_assetsSet (chain_name rpc_url : String) (specs : ShortSpecs)
    (found : List SufficientAsset) (symbol : String) :
    (assetsSet chain_name rpc_url specs found).lookup symbol =
      match lastNamed found symbol with
      | some asset => some (asset.properties chain_name rpc_url specs)
      | none => if symbol = specs.unit then some (nativeProperties chain_name rpc_url specs)
        else none := by
  induction found using List.reverseRecOn with
  | nil =>
    rw [assetsSet, List.foldl_nil, ← AList.insert_empty]
    by_cases hunit : symbol = specs.unit
    · rw [hunit, AList.lookup_insert]
      simp [lastNamed]
    · rw [AList.lookup_insert_ne hunit]
      simp [hunit, lastNamed]
  | append_singleton found asset ih =>
    rw [assetsSet, List.foldl_append, ← assetsSet]
    simp only [List.foldl_cons, List.foldl_nil, lastNamed, List.filter_append]
    by_cases hsymbol : asset.symbol = symbol
    · subst hsymbol
      simp
    · rw [AList.lookup_insert_ne (Ne.symm hsymbol), ih, lastNamed]
      simp [hsymbol]

theorem lastNamed_eq_none_iff {found : List SufficientAsset} {symbol : String} :
    lastNamed found symbol = none ↔ ∀ asset ∈ found, asset.symbol ≠ symbol := by
  simp [lastNamed]

theorem lastNamed_eq_some_iff {found : List SufficientAsset} {symbol : String}
    {asset : SufficientAsset} :
    lastNamed found symbol = some asset ↔ ∃ before after, found = before ++ asset :: after ∧
      asset.symbol = symbol ∧ ∀ later ∈ after, later.symbol ≠ symbol := by
  constructor
  · intro h
    induction found using List.reverseRecOn with
    | nil => cases h
    | append_singleton found last ih =>
      by_cases hlast : last.symbol = symbol
      · obtain rfl : last = asset := by simpa [lastNamed, hlast] using h
        exact ⟨found, [], rfl, hlast, nofun⟩
      · obtain ⟨before, after, rfl, hsymbol, hafter⟩ := ih (by simpa [lastNamed, hlast] using h)
        refine ⟨before, after ++ [last], by simp, hsymbol, fun later hlater => ?_⟩
        rcases List.mem_append.mp hlater with hlater | hlater
        · exact hafter later hlater
        · rwa [List.mem_singleton.mp hlater]
  · rintro ⟨before, after, rfl, hsymbol, hafter⟩
    have hnone : after.filter (fun asset => asset.symbol = symbol) = [] :=
      List.filter_eq_nil_iff.mpr fun later hlater => by simpa using hafter later hlater
    simp [lastNamed, hsymbol, hnone]

/-! ## What should be accepted -/

/-- The chain serves the configured tokens. -/
structure Serves (chain : Chain) (specs : ShortSpecs) (found : List SufficientAsset) : Prop where
  native : ∀ native, chain.native_token = some native →
    native.name = specs.unit ∧ native.decimals = specs.decimals
  asset : ∀ a ∈ chain.asset, ∃ asset ∈ found, asset.symbol = a.name ∧ asset.id = a.id

/-- The map that is reported has the configured tokens, and nothing else. -/
structure Faithful (chain : Chain) (assets : HashMap String CurrencyProperties) : Prop where
  keys : ∀ name, (assets.lookup name).isSome ↔ name ∈ chain.declared
  native : ∀ native, chain.native_token = some native → ∃ properties,
    assets.lookup native.name = some properties ∧ properties.kind = .native ∧
      properties.asset_id = none
  asset : ∀ a ∈ chain.asset, ∃ properties, assets.lookup a.name = some properties ∧
    properties.kind = .asset ∧ properties.asset_id = some a.id

/-- **A chain is judged rightly** by the assets that are seen of it: it is accepted if and only if
it serves the configured tokens, and then these are what is kept. -/
def Judged (chain : Chain) (specs : ShortSpecs) (seen found : List SufficientAsset)
    (chain_name rpc_url : String) : Prop :=
  let assets := retainAssets chain specs (assetsSet chain_name rpc_url specs seen)
  (assets.entries.length = requestedAssets chain ↔ Serves chain specs found) ∧
    (assets.entries.length = requestedAssets chain → Faithful chain assets)

/-- The asset is seen, and none after it has its symbol. -/
def Unshadowed (seen : List SufficientAsset) (a : AssetInfo) : Prop :=
  ∃ before asset after, seen = before ++ asset :: after ∧ asset.symbol = a.name ∧
    asset.id = a.id ∧ ∀ later ∈ after, later.symbol ≠ a.name

/-- **When the judgement is right.**  A native token alone: its decimals are not those of the
chain, or no asset that is seen has its name for a symbol.  Assets alone: one of them is missing,
or they are all seen, each with no other asset of its symbol after it.  Both: something is
missing. -/
def Judgeable (chain : Chain) (specs : ShortSpecs) (seen found : List SufficientAsset) : Prop :=
  match chain.native_token with
  | some native =>
    if chain.asset = [] then
      native.decimals ≠ specs.decimals ∨ ∀ asset ∈ seen, asset.symbol ≠ native.name
    else ¬Serves chain specs found
  | none => ¬Serves chain specs found ∨ ∀ a ∈ chain.asset, Unshadowed seen a

section Judging

variable {chain : Chain} {specs : ShortSpecs} {seen found : List SufficientAsset}
  {chain_name rpc_url : String}

/-- What is kept of the map, if the sizes agree, has the declared names. -/
theorem lookup_isSome_iff_declared (hnodup : chain.declared.Nodup)
    {assets : HashMap String CurrencyProperties}
    (hlength : (retainAssets chain specs assets).entries.length = requestedAssets chain)
    (name : String) :
    ((retainAssets chain specs assets).lookup name).isSome ↔ name ∈ chain.declared := by
  constructor
  · intro h
    obtain ⟨properties, hl⟩ := Option.isSome_iff_exists.mp h
    exact declared_of_wanted (lookup_retainAssets.mp hl).2
  · exact (length_retainAssets_iff hnodup specs assets).mp hlength name

theorem asset_declared {a : AssetInfo} (ha : a ∈ chain.asset) : a.name ∈ chain.declared :=
  mem_declared.mpr (.inr ⟨a, ha, rfl⟩)

theorem wanted_native_iff {native : NativeToken} (hnative : chain.native_token = some native)
    (name : String) (properties : CurrencyProperties) :
    wantedAsset chain specs name properties ↔
      native.name = name ∧ native.decimals = specs.decimals := by
  simp [wantedAsset, hnative]

theorem wanted_asset_iff (hnative : chain.native_token = none) (name : String)
    (properties : CurrencyProperties) :
    wantedAsset chain specs name properties ↔
      ∃ a ∈ chain.asset, a.name = name ∧ some a.id = properties.asset_id := by
  simp [wantedAsset, hnative]

/-- A native token alone is taken for served if any asset has its name. -/
theorem judged_native_iff {native : NativeToken} (hnative : chain.native_token = some native)
    (hasset : chain.asset = []) : Judged chain specs seen found chain_name rpc_url ↔
      native.decimals ≠ specs.decimals ∨ ∀ asset ∈ seen, asset.symbol ≠ native.name := by
  have hdeclared : chain.declared = [native.name] := by simp [Chain.declared, hnative, hasset]
  have hnodup : chain.declared.Nodup := by simp [hdeclared]
  have hserves : Serves chain specs found ↔
      native.name = specs.unit ∧ native.decimals = specs.decimals := by
    refine ⟨fun h => h.native native hnative, fun h => ⟨fun native' hn => ?_, ?_⟩⟩
    · obtain rfl : native = native' := Option.some.inj (hnative.symm.trans hn)
      exact h
    · simp [hasset]
  have haccepted :
      (retainAssets chain specs (assetsSet chain_name rpc_url specs seen)).entries.length =
          requestedAssets chain ↔
        ((assetsSet chain_name rpc_url specs seen).lookup native.name).isSome ∧
          native.decimals = specs.decimals := by
    rw [length_retainAssets_iff hnodup, hdeclared]
    simp only [List.forall_mem_singleton, Option.isSome_iff_exists, lookup_retainAssets,
      wanted_native_iff hnative, true_and, exists_and_right]
  rw [Judged, haccepted, hserves]
  constructor
  · rintro ⟨-, hfaithful⟩
    by_contra hno
    obtain ⟨hdecimals, hnamed⟩ := not_or.mp hno
    have hdecimals := not_not.mp hdecimals
    -- The last asset of that name is reported in place of the native token.
    cases hlast : lastNamed seen native.name with
    | none => exact hnamed (lastNamed_eq_none_iff.mp hlast)
    | some asset =>
      have hl := lookup_assetsSet chain_name rpc_url specs seen native.name
      rw [hlast] at hl
      obtain ⟨properties, hkept, hkind, -⟩ :=
        (hfaithful ⟨by rw [hl]; rfl, hdecimals⟩).native native hnative
      rw [(lookup_retainAssets.mp hkept).1] at hl
      obtain rfl := Option.some.inj hl
      cases hkind
  · rintro (hdecimals | hnone)
    · refine ⟨iff_of_false (fun h => hdecimals h.2) (fun h => hdecimals h.2), fun h => ?_⟩
      exact absurd h.2 hdecimals
    · have hl := lookup_assetsSet chain_name rpc_url specs seen native.name
      rw [lastNamed_eq_none_iff.mpr hnone] at hl
      simp only at hl
      by_cases hunit : native.name = specs.unit
      · rw [if_pos hunit] at hl
        refine ⟨by simp [hl, hunit], fun h => ?_⟩
        refine ⟨lookup_isSome_iff_declared hnodup (haccepted.mpr h), fun native' hn => ?_, ?_⟩
        · obtain rfl : native = native' := Option.some.inj (hnative.symm.trans hn)
          refine ⟨_, lookup_retainAssets.mpr ⟨hl, ?_⟩, rfl, rfl⟩
          exact (wanted_native_iff hnative _ _).mpr ⟨rfl, h.2⟩
        · simp [hasset]
      · rw [if_neg hunit] at hl
        simp [hl, hunit]

/-- A native token together with assets is never taken for served. -/
theorem judged_both_iff {native : NativeToken} (hnative : chain.native_token = some native)
    (hasset : chain.asset ≠ []) (hnodup : chain.declared.Nodup) :
    Judged chain specs seen found chain_name rpc_url ↔ ¬Serves chain specs found := by
  have hrefused :
      (retainAssets chain specs (assetsSet chain_name rpc_url specs seen)).entries.length ≠
        requestedAssets chain := by
    intro hlength
    obtain ⟨a, ha⟩ := List.exists_mem_of_ne_nil _ hasset
    have hkept := (lookup_isSome_iff_declared hnodup hlength a.name).mpr (asset_declared ha)
    obtain ⟨properties, hl⟩ := Option.isSome_iff_exists.mp hkept
    obtain ⟨hname, -⟩ := (wanted_native_iff hnative _ _).mp (lookup_retainAssets.mp hl).2
    rw [Chain.declared, hnative] at hnodup
    exact (List.nodup_append.mp hnodup).2.2 native.name (by simp) a.name
      (List.mem_map_of_mem ha) hname
  rw [Judged]
  simp only [hrefused, false_iff, false_implies, and_true]

/-- Without a native token, what decides is the last asset of each name. -/
theorem judged_assets_iff (hnative : chain.native_token = none) (hnodup : chain.declared.Nodup)
    (hsub : seen ⊆ found) :
    Judged chain specs seen found chain_name rpc_url ↔
      ¬Serves chain specs found ∨ ∀ a ∈ chain.asset, Unshadowed seen a := by
  have hnames : (chain.asset.map (·.name)).Nodup := by
    rwa [Chain.declared, hnative] at hnodup
  have hkept : ∀ a ∈ chain.asset, ∀ properties,
      (retainAssets chain specs (assetsSet chain_name rpc_url specs seen)).lookup a.name =
        some properties ↔ ∃ asset, lastNamed seen a.name = some asset ∧ asset.id = a.id ∧
          properties = asset.properties chain_name rpc_url specs := by
    intro a ha properties
    rw [lookup_retainAssets, lookup_assetsSet, wanted_asset_iff hnative]
    constructor
    · rintro ⟨hl, a', ha', hname, hid⟩
      obtain rfl : a' = a := List.inj_on_of_nodup_map hnames ha' ha hname
      cases hlast : lastNamed seen a'.name with
      | none =>
        rw [hlast] at hl
        simp only at hl
        split_ifs at hl
        obtain rfl := Option.some.inj hl
        cases hid
      | some asset =>
        rw [hlast] at hl
        obtain rfl := Option.some.inj hl
        exact ⟨asset, rfl, (Option.some.inj hid).symm, rfl⟩
    · rintro ⟨asset, hlast, hid, rfl⟩
      rw [hlast]
      exact ⟨rfl, a, ha, rfl, congrArg some hid.symm⟩
  have hunshadowed : ∀ a, Unshadowed seen a ↔
      ∃ asset, lastNamed seen a.name = some asset ∧ asset.id = a.id := by
    intro a
    constructor
    · rintro ⟨before, asset, after, hfound, hsymbol, hid, hafter⟩
      exact ⟨asset, lastNamed_eq_some_iff.mpr ⟨before, after, hfound, hsymbol, hafter⟩, hid⟩
    · rintro ⟨asset, hlast, hid⟩
      obtain ⟨before, after, hfound, hsymbol, hafter⟩ := lastNamed_eq_some_iff.mp hlast
      exact ⟨before, asset, after, hfound, hsymbol, hid, hafter⟩
  have haccepted :
      (retainAssets chain specs (assetsSet chain_name rpc_url specs seen)).entries.length =
        requestedAssets chain ↔ ∀ a ∈ chain.asset, Unshadowed seen a := by
    rw [length_retainAssets_iff hnodup]
    have hdeclared : ∀ name, name ∈ chain.declared ↔ ∃ a ∈ chain.asset, a.name = name := by
      simp [mem_declared, hnative]
    constructor
    · intro h a ha
      obtain ⟨properties, hl⟩ := Option.isSome_iff_exists.mp (h a.name (asset_declared ha))
      obtain ⟨asset, hlast, hid, -⟩ := (hkept a ha properties).mp hl
      exact (hunshadowed a).mpr ⟨asset, hlast, hid⟩
    · intro h name hname
      obtain ⟨a, ha, rfl⟩ := (hdeclared name).mp hname
      obtain ⟨asset, hlast, hid⟩ := (hunshadowed a).mp (h a ha)
      rw [(hkept a ha _).mpr ⟨asset, hlast, hid, rfl⟩]
      rfl
  have hserves : (∀ a ∈ chain.asset, Unshadowed seen a) → Serves chain specs found := by
    refine fun h => ⟨fun native hn => (nomatch hnative.symm.trans hn), fun a ha => ?_⟩
    obtain ⟨before, asset, after, rfl, hsymbol, hid, -⟩ := h a ha
    exact ⟨asset, hsub (List.mem_append_right _ List.mem_cons_self), hsymbol, hid⟩
  have hfaithful : (∀ a ∈ chain.asset, Unshadowed seen a) → Faithful chain
      (retainAssets chain specs (assetsSet chain_name rpc_url specs seen)) := by
    refine fun h => ⟨lookup_isSome_iff_declared hnodup (haccepted.mpr h),
      fun native hn => (nomatch hnative.symm.trans hn), fun a ha => ?_⟩
    obtain ⟨asset, hlast, hid⟩ := (hunshadowed a).mp (h a ha)
    exact ⟨_, (hkept a ha _).mpr ⟨asset, hlast, hid, rfl⟩, rfl, congrArg some hid⟩
  rw [Judged, haccepted]
  constructor
  · rintro ⟨hiff, -⟩
    by_cases hs : Serves chain specs found
    · exact .inr (hiff.mpr hs)
    · exact .inl hs
  · rintro (hs | h)
    · exact ⟨iff_of_false (fun h => hs (hserves h)) hs, hfaithful⟩
    · exact ⟨iff_of_true h (hserves h), hfaithful⟩

/-- **Which chains are judged rightly.** -/
theorem judged_iff (hnodup : chain.declared.Nodup) (hsub : seen ⊆ found) :
    Judged chain specs seen found chain_name rpc_url ↔ Judgeable chain specs seen found := by
  unfold Judgeable
  cases hnative : chain.native_token with
  | none => exact judged_assets_iff hnative hnodup hsub
  | some native =>
    by_cases hasset : chain.asset = []
    · simpa [hasset] using judged_native_iff hnative hasset
    · simpa [hasset] using judged_both_iff hnative hasset hnodup

end Judging

/-! ## The program -/

/-- The node told `prepare_chain` the assets of the chain. -/
def Learned (rpc_url : String) (said : Trace (TrackerSig lib)) (specs : ShortSpecs)
    (assets : HashMap String CurrencyProperties) : Prop :=
  ∃ block metadata, ⟨.rpc (.assetsSetAtBlock block metadata rpc_url specs), .ok assets⟩ ∈ said

/-- The state handler was told of these assets. -/
def Connects (said : Trace (TrackerSig lib)) (assets : HashMap String CurrencyProperties) : Prop :=
  ∃ delivered : Bool, ⟨.send (.connectChain assets), delivered⟩ ∈ said

/-- `prepare_chain` reports what it kept, if it kept enough, and nothing else. -/
structure Announces (chain : Chain) (rpc_url : String) (said : Trace (TrackerSig lib)) :
    Prop where
  kept : ∀ assets, Connects said assets → ∃ specs found, Learned rpc_url said specs found ∧
    assets = retainAssets chain specs found ∧ assets.entries.length = requestedAssets chain
  connects : ∀ specs found, Learned rpc_url said specs found →
    (retainAssets chain specs found).entries.length = requestedAssets chain →
    Connects said (retainAssets chain specs found)
  once : ∀ specs found specs' found', Learned rpc_url said specs found →
    Learned rpc_url said specs' found' → specs = specs' ∧ found = found'

/-- An exchange in which the assets of a chain are told. -/
def assetNews : Exchange (TrackerSig lib) → Bool
  | ⟨.rpc (.assetsSetAtBlock ..), .ok _⟩ | ⟨.send (.connectChain _), _⟩ => true
  | _ => false

/-- Nothing was told of the assets. -/
def Uninformed (said : Trace (TrackerSig lib)) : Prop := ∀ e ∈ said, assetNews e = false

theorem Uninformed.nil : Uninformed ([] : Trace (TrackerSig lib)) :=
  fun _ h => absurd h List.not_mem_nil

theorem Uninformed.snoc {said : Trace (TrackerSig lib)} (h : Uninformed said)
    {e : Exchange (TrackerSig lib)} (he : assetNews e = false) : Uninformed (said ++ [e]) := by
  intro e' he'
  rcases List.mem_append.mp he' with he' | he'
  · exact h e' he'
  · obtain rfl := List.mem_singleton.mp he'
    exact he

section Announcing

variable {chain : Chain} {rpc_url : String} {said seg : Trace (TrackerSig lib)}

theorem Uninformed.not_learned (h : Uninformed said) {specs : ShortSpecs}
    {assets : HashMap String CurrencyProperties} : ¬Learned rpc_url said specs assets := by
  rintro ⟨block, metadata, hmem⟩
  have hnews := h _ hmem
  simp [assetNews] at hnews

theorem Uninformed.not_connects (h : Uninformed said)
    {assets : HashMap String CurrencyProperties} : ¬Connects said assets := by
  rintro ⟨delivered, hmem⟩
  have hnews := h _ hmem
  simp [assetNews] at hnews

theorem Uninformed.announces (h : Uninformed said) : Announces chain rpc_url said where
  kept := fun _ hc => absurd hc h.not_connects
  connects := fun _ _ hl => absurd hl h.not_learned
  once := fun _ _ _ _ hl => absurd hl h.not_learned

theorem learned_append {specs : ShortSpecs} {assets : HashMap String CurrencyProperties} :
    Learned rpc_url (said ++ seg) specs assets ↔
      Learned rpc_url said specs assets ∨ Learned rpc_url seg specs assets := by
  simp only [Learned, List.mem_append, exists_or]

theorem connects_append {assets : HashMap String CurrencyProperties} :
    Connects (said ++ seg) assets ↔ Connects said assets ∨ Connects seg assets := by
  simp only [Connects, List.mem_append, exists_or]

theorem learned_singleton {block : BlockHash} {metadata : lib.Metadata} {specs specs' : ShortSpecs}
    {assets assets' : HashMap String CurrencyProperties} :
    Learned rpc_url [⟨.rpc (.assetsSetAtBlock block metadata rpc_url specs), .ok assets⟩] specs'
      assets' ↔ specs' = specs ∧ assets' = assets := by
  constructor
  · rintro ⟨block', metadata', hmem⟩
    obtain ⟨hop, hanswer⟩ := Sigma.mk.inj (List.mem_singleton.mp hmem)
    cases hop
    cases hanswer
    exact ⟨rfl, rfl⟩
  · rintro ⟨rfl, rfl⟩
    exact ⟨block, metadata, List.mem_singleton_self _⟩

theorem connects_singleton {delivered : Bool} {assets assets' : HashMap String CurrencyProperties} :
    Connects ([⟨.send (.connectChain assets), delivered⟩] : Trace (TrackerSig lib)) assets' ↔
      assets' = assets := by
  constructor
  · rintro ⟨delivered', hmem⟩
    obtain ⟨hop, -⟩ := Sigma.mk.inj (List.mem_singleton.mp hmem)
    cases hop
    rfl
  · rintro rfl
    exact ⟨delivered, List.mem_singleton_self _⟩

/-- After the assets were told, the rest is decided by their number. -/
theorem announces_of_learned (h : Uninformed said) (block : BlockHash) (metadata : lib.Metadata)
    (specs : ShortSpecs) (assets : HashMap String CurrencyProperties)
    (seg : Trace (TrackerSig lib))
    (hnone : ∀ specs' assets', ¬Learned rpc_url seg specs' assets')
    (hconnects : ∀ kept, Connects seg kept ↔ kept = retainAssets chain specs assets ∧
      kept.entries.length = requestedAssets chain) :
    Announces chain rpc_url
      (said ++ [⟨.rpc (.assetsSetAtBlock block metadata rpc_url specs), .ok assets⟩] ++ seg) := by
  have hlearned : ∀ specs' assets', Learned rpc_url
      (said ++ [⟨.rpc (.assetsSetAtBlock block metadata rpc_url specs), .ok assets⟩] ++ seg)
      specs' assets' ↔ specs' = specs ∧ assets' = assets := by
    intro specs' assets'
    rw [learned_append, learned_append, learned_singleton]
    simp [h.not_learned, hnone]
  have hsent : ∀ kept, Connects
      (said ++ [⟨.rpc (.assetsSetAtBlock block metadata rpc_url specs), .ok assets⟩] ++ seg)
      kept ↔ Connects seg kept := by
    intro kept
    have hother : ¬Connects ([⟨.rpc (.assetsSetAtBlock block metadata rpc_url specs), .ok assets⟩] :
        Trace (TrackerSig lib)) kept := by
      rintro ⟨delivered, hmem⟩
      cases congrArg Sigma.fst (List.mem_singleton.mp hmem)
    rw [connects_append, connects_append]
    simp [h.not_connects, hother]
  refine ⟨fun kept hkept => ?_, fun specs' assets' hl hlength => ?_, fun _ _ _ _ hl hl' => ?_⟩
  · obtain ⟨heq, hlength⟩ := (hconnects kept).mp ((hsent kept).mp hkept)
    exact ⟨specs, assets, (hlearned _ _).mpr ⟨rfl, rfl⟩, heq, hlength⟩
  · obtain ⟨rfl, rfl⟩ := (hlearned specs' assets').mp hl
    exact (hsent _).mpr ((hconnects _).mpr ⟨rfl, hlength⟩)
  · obtain ⟨rfl, rfl⟩ := (hlearned _ _).mp hl
    obtain ⟨rfl, rfl⟩ := (hlearned _ _).mp hl'
    exact ⟨rfl, rfl⟩

theorem uninformed_of_loud (h : ∀ e ∈ seg, loud e.1 = true) : Uninformed seg := by
  intro e he
  have hloud := h e he
  unfold assetNews
  split
  · simp [loud] at hloud
  · simp [loud] at hloud
  · rfl

/-- A call before the assets are asked for. -/
theorem announces_rpc_bind {α : Type} {call : RpcCall lib}
    {next : call.Result → Job lib α}
    (hnews : ∀ answer : Except Stop call.Result, assetNews ⟨.rpc call, answer⟩ = false)
    (h : Uninformed said)
    (hnext : ∀ said a, Uninformed said →
      Prog.Holds (fun _ _ => True) (fun said _ => Announces chain rpc_url said) said
        (next a).run) :
    Prog.Holds (fun _ _ => True) (fun said _ => Announces chain rpc_url said) said
      (Job.rpc call >>= next).run := by
  rw [Prog.holds_run_bind, holds_rpc]
  refine ⟨trivial, fun answer => ?_⟩
  have h' := h.snoc (hnews answer)
  cases answer with
  | error stop => exact h'.announces
  | ok a => exact hnext _ a h'

theorem prepareChain_announces (watched_accounts : WatchedAccounts) (h : Uninformed said) :
    Prog.Holds (fun _ _ => True) (fun said _ => Announces chain rpc_url said) said
      (prepareChain chain watched_accounts rpc_url : Job lib _).run := by
  unfold prepareChain
  refine announces_rpc_bind (fun _ => rfl) h fun said genesis_hash h => ?_
  refine announces_rpc_bind (fun _ => rfl) h fun said _ h => ?_
  refine announces_rpc_bind (fun _ => rfl) h fun said block h => ?_
  refine announces_rpc_bind (fun _ => rfl) h fun said version h => ?_
  refine announces_rpc_bind (fun _ => rfl) h fun said metadata h => ?_
  cases lib.specName metadata with
  | none => exact h.announces
  | some name =>
  simp only
  split_ifs with hname
  · exact h.announces
  refine announces_rpc_bind (fun _ => rfl) h fun said specs h => ?_
  rw [Prog.holds_run_bind, holds_rpc]
  refine ⟨trivial, fun answer => ?_⟩
  cases answer with
  | error stop => exact (h.snoc rfl).announces
  | ok assets =>
  simp only
  split_ifs with hlength
  · have hrefused : Announces chain rpc_url _ := announces_of_learned h block metadata specs assets
      [] (fun _ _ => Uninformed.nil.not_learned) fun kept => ?_
    · rw [List.append_nil] at hrefused
      exact hrefused
    · refine iff_of_false Uninformed.nil.not_connects ?_
      rintro ⟨rfl, hkept⟩
      exact hlength hkept
  rw [Prog.holds_run_bind, holds_tell]
  refine ⟨trivial, fun delivered => ?_⟩
  simp only
  rw [Prog.holds_run_bind, holds_iterate]
  refine ⟨trivial, fun accounts => ?_⟩
  simp only
  rw [Prog.holds_run_bind]
  refine (checks_checkMonitored _ _ _ _).ops.mono (fun _ _ _ => trivial) ?_
  rintro said' result ⟨⟨seg, rfl, hseg⟩, -⟩
  have hrest : Uninformed ([⟨.iterate watched_accounts, accounts⟩] ++ seg) := by
    intro e he
    rcases List.mem_append.mp he with he | he
    · rw [List.mem_singleton.mp he]
      rfl
    · exact uninformed_of_loud (fun e he => (hseg e he).loud) e he
  have hend : Announces chain rpc_url _ := announces_of_learned h block metadata specs assets
    ([⟨.send (.connectChain (retainAssets chain specs assets)), delivered⟩] ++
      ([⟨.iterate watched_accounts, accounts⟩] ++ seg)) (fun specs' assets' => ?_) fun kept => ?_
  · simp only [List.append_assoc] at hend ⊢
    cases result with
    | error stop => exact hend
    | ok removed => exact hend
  · rw [learned_append, not_or]
    refine ⟨?_, hrest.not_learned⟩
    rintro ⟨block', metadata', hmem⟩
    cases congrArg Sigma.fst (List.mem_singleton.mp hmem)
  · rw [connects_append, connects_singleton, or_iff_left hrest.not_connects]
    refine ⟨?_, fun h => h.1⟩
    rintro rfl
    exact ⟨rfl, not_not.mp hlength⟩

end Announcing

/-! ## Being told of the assets -/

/-- A node that answers everything until the watch list is looked at. -/
def informant (block : BlockHash) (metadata : lib.Metadata) (specs : ShortSpecs)
    (assets : HashMap String CurrencyProperties) :
    ∀ o : TrackerOp lib, (TrackerSig lib).Answer o
  | .rpc (.build _) | .rpc .subscribeBlocks => .ok ()
  | .rpc .genesisHash | .rpc .nextBlock | .rpc (.blockHash _) => .ok block
  | .rpc (.runtimeVersionIdentifier _) => .ok .null
  | .rpc (.metadata _) => .ok metadata
  | .rpc (.specs ..) => .ok specs
  | .rpc (.assetsSetAtBlock ..) => .ok assets
  | .rpc (.transferEvents ..) => .ok []
  | .rpc (.balance ..) => .error (.failed .client)
  | .now => 0
  | .iterate watched_accounts => .ofMap watched_accounts
  | .send _ => true

/-- A call that the node answers. -/
theorem runs_rpc_bind {α : Type} {answers : ∀ o : TrackerOp lib, (TrackerSig lib).Answer o}
    {said : Trace (TrackerSig lib)} {result : Except Stop α} {call : RpcCall lib}
    {next : call.Result → Job lib α} {a : call.Result} (ha : answers (.rpc call) = .ok a)
    (hr : Prog.Runs (Job.rpc call >>= next).run said result)
    (hsaid : ∀ e ∈ said, e.2 = answers e.1) :
    ∃ said', said = ⟨.rpc call, .ok a⟩ :: said' ∧ Prog.Runs (next a).run said' result ∧
      ∀ e ∈ said', e.2 = answers e.1 := by
  cases hr with
  | @call _ _ said' _ answer hr =>
    have hanswer : answer = .ok a := (hsaid _ List.mem_cons_self).trans ha
    subst hanswer
    exact ⟨said', rfl, hr, fun e he => hsaid e (List.mem_cons_of_mem _ he)⟩

/-- There is a conversation in which `prepare_chain` is told any assets of any block. -/
theorem exists_told {metadata : lib.Metadata} {chain : Chain}
    (hname : lib.specName metadata = some chain.name) (block : BlockHash) (specs : ShortSpecs)
    (assets : HashMap String CurrencyProperties) (watched_accounts : WatchedAccounts)
    (rpc_url : String) : ∃ said result,
      Prog.Runs (prepareChain chain watched_accounts rpc_url : Job lib _).run said result ∧
        ⟨.rpc (.assetsSetAtBlock block metadata rpc_url specs), .ok assets⟩ ∈ said := by
  obtain ⟨said, result, hr, hsaid⟩ := Prog.exists_runs (informant block metadata specs assets)
    (prepareChain chain watched_accounts rpc_url : Job lib _).run
  refine ⟨said, result, hr, ?_⟩
  unfold prepareChain at hr
  obtain ⟨said₁, rfl, hr, hsaid⟩ := runs_rpc_bind (by rfl) hr hsaid
  obtain ⟨said₂, rfl, hr, hsaid⟩ := runs_rpc_bind (by rfl) hr hsaid
  obtain ⟨said₃, rfl, hr, hsaid⟩ := runs_rpc_bind (a := block) (by rfl) hr hsaid
  obtain ⟨said₄, rfl, hr, hsaid⟩ := runs_rpc_bind (by rfl) hr hsaid
  obtain ⟨said₅, rfl, hr, hsaid⟩ := runs_rpc_bind (a := metadata) (by rfl) hr hsaid
  rw [hname] at hr
  simp only [ne_eq, not_true_eq_false, ↓reduceIte] at hr
  obtain ⟨said₆, rfl, hr, hsaid⟩ := runs_rpc_bind (a := specs) (by rfl) hr hsaid
  obtain ⟨said₇, rfl, hr, hsaid⟩ := runs_rpc_bind (a := assets) (by rfl) hr hsaid
  simp

/-- **What `prepare_chain` does with the assets that it is told**: it reports those that it keeps
if they are as many as were asked for. -/
theorem connects_iff {chain : Chain} {watched_accounts : WatchedAccounts} {rpc_url : String}
    {said : Trace (TrackerSig lib)} {result : Except Stop (ChainWatcher lib × WatchedAccounts)}
    (hr : Prog.Runs (prepareChain chain watched_accounts rpc_url : Job lib _).run said result)
    {block : BlockHash} {metadata : lib.Metadata} {specs : ShortSpecs}
    {assets : HashMap String CurrencyProperties}
    (htold : ⟨.rpc (.assetsSetAtBlock block metadata rpc_url specs), .ok assets⟩ ∈ said)
    (kept : HashMap String CurrencyProperties) : Connects said kept ↔
      kept = retainAssets chain specs assets ∧
        (retainAssets chain specs assets).entries.length = requestedAssets chain := by
  have h : Announces chain rpc_url said :=
    (prepareChain_announces watched_accounts Uninformed.nil).runs hr
  have hl : Learned rpc_url said specs assets := ⟨block, metadata, htold⟩
  constructor
  · intro hc
    obtain ⟨specs', assets', hl', rfl, hlength⟩ := h.kept kept hc
    obtain ⟨rfl, rfl⟩ := h.once _ _ _ _ hl hl'
    exact ⟨rfl, hlength⟩
  · rintro ⟨rfl, hlength⟩
    exact h.connects _ _ hl hlength

end Kalatori
