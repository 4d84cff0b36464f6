import Kalatori.Chain.Definitions
import Kalatori.Lib.Results

/-!
# Network specs

The specs of a chain are put together from the answer to `system_properties` and
from a constant of its metadata.  Both may know the prefix of its addresses, and
then they should agree.

The constant may be an unsigned integer of any width, and the prefix is one of 16
bits.  One that does not fit is dropped on the way, with the constants that are no
number at all, and a constant of 256 bits is dropped without a look at its value.
What is left is a chain that seems to have no such constant, so nothing is
compared.

* `optionalPrefixFromMeta`, `base58prefix`, `decimals`, `unit`: the parts.
* `base58prefix_eq_ok_iff`, `decimals_eq_ok_iff`, `unit_eq_ok_iff`: what they accept.
* `Accepted`: the specs on which all sources agree.
* `specsAgree_iff`: when these are the specs that are accepted.
-/

namespace Kalatori

/-! ## The constant -/

structure PalletConstantMetadata where
  name : String
  value : List UInt8
  ty : UInt32

structure PalletConstants where
  name : String
  constants : List PalletConstantMetadata

/-- The libraries that read the constants of metadata. -/
structure ConstantsParser (Metadata : Type) where
  pallets : Metadata → List PalletConstants
  /-- `decode_all_as_type`, without a value where it fails. -/
  decodeAllAsType : Metadata → UInt32 → List UInt8 → Option ParsedData

section Constant

variable {Metadata : Type} (parser : ConstantsParser Metadata) (metadata : Metadata)

/-- The constant that is looked at: the first of its name, in the first pallet of its name. -/
def base58PrefixData : Option PalletConstantMetadata :=
  ((parser.pallets metadata).find? fun pallet => pallet.name = "System").bind fun pallet =>
    pallet.constants.find? fun system_constant => system_constant.name = "SS58Prefix"

/-- What is decoded of it. -/
def decodedPrefix : Option ParsedData :=
  (base58PrefixData parser metadata).bind fun constant =>
    parser.decodeAllAsType metadata constant.ty constant.value

/-- `try_into` of a natural number, into the integers of 16 bits. -/
def tryIntoU16 (value : ℕ) : Option UInt16 :=
  if value < 2 ^ 16 then some (UInt16.ofNat value) else none

def tryIntoU8 (value : ℕ) : Option UInt8 :=
  if value < 2 ^ 8 then some (UInt8.ofNat value) else none

/-- The arms of the `match` on the decoded constant. -/
def prefixOfData : ParsedData → Option UInt16
  | .primitiveU8 value => some value.toUInt16
  | .primitiveU16 value => some value
  | .primitiveU32 value => tryIntoU16 value.toNat
  | .primitiveU64 value => tryIntoU16 value.toNat
  | .primitiveU128 value _ => tryIntoU16 value.toNat
  | _ => none

/-- `optional_prefix_from_meta` -/
def optionalPrefixFromMeta : Option UInt16 := (decodedPrefix parser metadata).bind prefixOfData

end Constant

/-! ## The properties -/

/-- The properties that a node answers with. -/
abbrev Properties := List (String × Json)

/-- `decimals`: what is done with a number. -/
def decimalsOfNumber : Json → Except ChainError Decimals
  | .posInt c =>
    match tryIntoU8 c.toNat with
    | some d => .ok d
    | none => .error .decimalsFormatNotSupported
  | _ => .error .decimalsFormatNotSupported

def decimals (x : Properties) : Except ChainError Decimals :=
  match Json.get x "tokenDecimals" with
  | some (.array [c]) => decimalsOfNumber c
  | some (.array _) => .error .decimalsFormatNotSupported
  | some a => decimalsOfNumber a
  | none => .error .noDecimals

def base58prefix (x : Properties) (optional_prefix_from_meta : Option UInt16) :
    Except ChainError UInt16 :=
  match Json.get x "ss58Format" with
  | some (.posInt c) =>
    match tryIntoU16 c.toNat with
    | some d =>
      match optional_prefix_from_meta with
      | some prefix_from_meta =>
        if prefix_from_meta = d then .ok d
        else .error (.base58PrefixMismatch d prefix_from_meta)
      | none => .ok d
    | none => .error .base58PrefixFormatNotSupported
  | some _ => .error .base58PrefixFormatNotSupported
  | none =>
    match optional_prefix_from_meta with
    | some prefix_from_meta => .ok prefix_from_meta
    | none => .error .noBase58Prefix

def unit (x : Properties) : Except ChainError String :=
  match Json.get x "tokenSymbol" with
  | some (.string b) => .ok b
  | some (.array [.string c]) => .ok c
  | some _ => .error .unitFormatNotSupported
  | none => .error .noUnit

/-- `system_properties_to_short_specs` -/
def systemPropertiesToShortSpecs {Metadata : Type} (parser : ConstantsParser Metadata)
    (system_properties : Properties) (metadata : Metadata) : Except ChainError ShortSpecs := do
  let optional_prefix_from_meta := optionalPrefixFromMeta parser metadata
  let base58prefix ← base58prefix system_properties optional_prefix_from_meta
  let decimals ← decimals system_properties
  let unit ← unit system_properties
  return { base58prefix := base58prefix, decimals := decimals, unit := unit }

/-! ## What the parts accept -/

theorem tryIntoU16_eq_some_iff {value : ℕ} {d : UInt16} :
    tryIntoU16 value = some d ↔ value = d.toNat := by
  rw [tryIntoU16]
  split_ifs with h
  · rw [Option.some.injEq, ← UInt16.toNat_inj, UInt16.toNat_ofNat_of_lt' h]
  · refine iff_of_false nofun fun heq => h ?_
    rw [heq]
    exact d.toNat_lt

theorem tryIntoU8_eq_some_iff {value : ℕ} {d : UInt8} :
    tryIntoU8 value = some d ↔ value = d.toNat := by
  rw [tryIntoU8]
  split_ifs with h
  · rw [Option.some.injEq, ← UInt8.toNat_inj, UInt8.toNat_ofNat_of_lt' h]
  · refine iff_of_false nofun fun heq => h ?_
    rw [heq]
    exact d.toNat_lt

/-- A property is a number, or an array of just that number. -/
def IsDecimals (x : Properties) (d : Decimals) : Prop :=
  ∃ n : UInt64, n.toNat = d.toNat ∧
    (Json.get x "tokenDecimals" = some (.posInt n) ∨
      Json.get x "tokenDecimals" = some (.array [.posInt n]))

/-- A property is a text, or an array of just that text. -/
def IsUnit (x : Properties) (s : String) : Prop :=
  Json.get x "tokenSymbol" = some (.string s) ∨ Json.get x "tokenSymbol" = some (.array [.string s])

theorem decimalsOfNumber_eq_ok_iff {a : Json} {d : Decimals} :
    decimalsOfNumber a = .ok d ↔ ∃ n : UInt64, n.toNat = d.toNat ∧ a = .posInt n := by
  cases a with
  | posInt c =>
    simp only [decimalsOfNumber, Json.posInt.injEq, exists_eq_right']
    rw [← tryIntoU8_eq_some_iff]
    cases tryIntoU8 c.toNat <;> simp
  | _ => simp [decimalsOfNumber]

theorem decimals_eq_ok_iff {x : Properties} {d : Decimals} :
    decimals x = .ok d ↔ IsDecimals x d := by
  unfold decimals IsDecimals
  generalize Json.get x "tokenDecimals" = found
  match found with
  | none => simp
  | some (.array []) | some (.array (_ :: _ :: _)) => simp
  | some (.array [c]) => simp [decimalsOfNumber_eq_ok_iff]
  | some .null | some (.bool _) | some (.posInt _) | some (.negInt _) | some (.float _)
  | some (.string _) | some (.object _) => simp [decimalsOfNumber_eq_ok_iff]

theorem unit_eq_ok_iff {x : Properties} {s : String} : unit x = .ok s ↔ IsUnit x s := by
  unfold unit IsUnit
  split
  · next b hb => simp [hb]
  · next c hc => simp [hc]
  · next a hstring harray ha =>
    refine iff_of_false nofun ?_
    rintro (h | h)
    · exact hstring s (Option.some.inj (ha.symm.trans h))
    · exact harray s (Option.some.inj (ha.symm.trans h))
  · next hnone => simp [hnone]

/-- The prefix of the properties, if there is one, and that of the metadata, if there is one. -/
theorem base58prefix_eq_ok_iff {x : Properties} {o : Option UInt16} {p : UInt16} :
    base58prefix x o = .ok p ↔ (Json.get x "ss58Format" = none ∧ o = some p) ∨
      ∃ n : UInt64, Json.get x "ss58Format" = some (.posInt n) ∧ n.toNat = p.toNat ∧
        (o = none ∨ o = some p) := by
  unfold base58prefix
  split
  · next c hc =>
    simp only [hc, reduceCtorEq, false_and, false_or, Option.some.injEq, Json.posInt.injEq,
      exists_eq_left']
    rw [← tryIntoU16_eq_some_iff]
    cases htry : tryIntoU16 c.toNat with
    | none => simp
    | some d =>
      cases o with
      | none => simp
      | some prefix_from_meta =>
        by_cases heq : prefix_from_meta = d
        · subst heq
          simp
        · simp only [if_neg heq, reduceCtorEq, Option.some.injEq, false_or, false_iff, not_and]
          exact fun hd hp => heq (hp.trans hd.symm)
  · next a hne ha =>
    refine iff_of_false nofun ?_
    rintro (⟨h, -⟩ | ⟨n, h, -⟩)
    · cases ha.symm.trans h
    · exact hne n (Option.some.inj (ha.symm.trans h))
  · next hnone => cases o <;> simp [hnone]

theorem systemPropertiesToShortSpecs_eq_ok_iff {Metadata : Type} {parser : ConstantsParser Metadata}
    {x : Properties} {metadata : Metadata} {specs : ShortSpecs} :
    systemPropertiesToShortSpecs parser x metadata = .ok specs ↔
      base58prefix x (optionalPrefixFromMeta parser metadata) = .ok specs.base58prefix ∧
        IsDecimals x specs.decimals ∧ IsUnit x specs.unit := by
  rw [← decimals_eq_ok_iff, ← unit_eq_ok_iff, systemPropertiesToShortSpecs]
  obtain ⟨p, d, s⟩ := specs
  cases base58prefix x (optionalPrefixFromMeta parser metadata) with
  | error e => exact iff_of_false nofun fun h => nomatch h.1
  | ok p' =>
    cases decimals x with
    | error e => exact iff_of_false nofun fun h => nomatch h.2.1
    | ok d' =>
      cases unit x with
      | error e => exact iff_of_false nofun fun h => nomatch h.2.2
      | ok s' =>
        show Except.ok (⟨p', d', s'⟩ : ShortSpecs) = Except.ok ⟨p, d, s⟩ ↔ _
        simp

/-! ## What should be accepted -/

/-- An unsigned integer, of whatever width. -/
def ParsedData.unsigned? : ParsedData → Option ℕ
  | .primitiveU8 value => some value.toNat
  | .primitiveU16 value => some value.toNat
  | .primitiveU32 value => some value.toNat
  | .primitiveU64 value => some value.toNat
  | .primitiveU128 value _ => some value.toNat
  | .primitiveU256 value => some value.toNat
  | _ => none

/-- One of 256 bits. -/
def ParsedData.IsU256 : ParsedData → Prop
  | .primitiveU256 _ => True
  | _ => False

/-- Both sources say that this is the prefix, or one does and the other says nothing. -/
structure AgreedPrefix (of_metadata : Option ℕ) (x : Properties) (p : UInt16) : Prop where
  format : ∀ a, Json.get x "ss58Format" = some a →
    ∃ n : UInt64, a = .posInt n ∧ n.toNat = p.toNat
  constant : ∀ m, of_metadata = some m → m = p.toNat
  present : Json.get x "ss58Format" ≠ none ∨ of_metadata ≠ none

/-- **All sources agree on the specs.** -/
structure Accepted (of_metadata : Option ℕ) (x : Properties) (specs : ShortSpecs) : Prop where
  base58prefix : AgreedPrefix of_metadata x specs.base58prefix
  decimals : IsDecimals x specs.decimals
  unit : IsUnit x specs.unit

/-- Specs are accepted exactly if all sources agree on them. -/
def SpecsAgree {Metadata : Type} (parser : ConstantsParser Metadata) (x : Properties)
    (metadata : Metadata) : Prop :=
  ∀ specs, systemPropertiesToShortSpecs parser x metadata = .ok specs ↔
    Accepted ((decodedPrefix parser metadata).bind ParsedData.unsigned?) x specs

/-- A format that is no integer of 16 bits. -/
def MalformedFormat (x : Properties) : Prop :=
  ∃ a, Json.get x "ss58Format" = some a ∧ ∀ n : UInt64, a = .posInt n → 2 ^ 16 ≤ n.toNat

/-- A constant that is not heeded does no harm: the format is malformed, or it is not there and
the constant is too large for a prefix, or it is the same number. -/
def Harmless (m : ℕ) (x : Properties) : Prop :=
  MalformedFormat x ∨ (Json.get x "ss58Format" = none ∧ 2 ^ 16 ≤ m) ∨
    ∃ n : UInt64, Json.get x "ss58Format" = some (.posInt n) ∧ n.toNat = m

/-! ## When this is what is accepted -/

theorem prefixOfData_eq_some_iff {data : ParsedData} {p : UInt16} :
    prefixOfData data = some p ↔ data.unsigned? = some p.toNat ∧ ¬data.IsU256 := by
  cases data with
  | primitiveU8 value =>
    simp [prefixOfData, ParsedData.unsigned?, ParsedData.IsU256, ← UInt16.toNat_inj]
  | primitiveU16 value =>
    simp [prefixOfData, ParsedData.unsigned?, ParsedData.IsU256, UInt16.toNat_inj]
  | primitiveU32 | primitiveU64 | primitiveU128 =>
    simp [prefixOfData, ParsedData.unsigned?, ParsedData.IsU256, tryIntoU16_eq_some_iff]
  | _ => simp [prefixOfData, ParsedData.unsigned?, ParsedData.IsU256]

section Prefixes

variable {x : Properties}

/-- Nothing is said by the metadata. -/
theorem prefix_agrees_of_none (p : UInt16) :
    base58prefix x none = .ok p ↔ AgreedPrefix none x p := by
  rw [base58prefix_eq_ok_iff]
  constructor
  · rintro (⟨-, h⟩ | ⟨n, hn, hp, -⟩)
    · cases h
    · refine ⟨fun a ha => ⟨n, Option.some.inj (ha.symm.trans hn), hp⟩, nofun, .inl ?_⟩
      exact hn ▸ Option.some_ne_none _
  · rintro ⟨hformat, -, hpresent⟩
    have hsome : Json.get x "ss58Format" ≠ none := hpresent.resolve_right fun h => h rfl
    obtain ⟨a, ha⟩ := Option.ne_none_iff_exists'.mp hsome
    obtain ⟨n, rfl, hn⟩ := hformat a ha
    exact .inr ⟨n, ha, hn, .inl rfl⟩

/-- What the metadata say is heeded. -/
theorem prefix_agrees_of_some (p₀ p : UInt16) :
    base58prefix x (some p₀) = .ok p ↔ AgreedPrefix (some p₀.toNat) x p := by
  rw [base58prefix_eq_ok_iff]
  constructor
  · rintro (⟨hnone, h⟩ | ⟨n, hn, hp, h⟩)
    · obtain rfl := Option.some.inj h
      refine ⟨fun a ha => ?_, fun m hm => (Option.some.inj hm).symm, .inr nofun⟩
      cases hnone.symm.trans ha
    · obtain rfl : p₀ = p := Option.some.inj (h.resolve_left nofun)
      refine ⟨fun a ha => ⟨n, Option.some.inj (ha.symm.trans hn), hp⟩,
        fun m hm => (Option.some.inj hm).symm, .inr nofun⟩
  · rintro ⟨hformat, hconstant, -⟩
    obtain rfl : p₀ = p := UInt16.toNat_inj.mp (hconstant _ rfl)
    cases hget : Json.get x "ss58Format" with
    | none => exact .inl ⟨rfl, rfl⟩
    | some a =>
      obtain ⟨n, rfl, hn⟩ := hformat a hget
      exact .inr ⟨n, rfl, hn, .inr rfl⟩

/-- What the metadata say is not heeded. -/
theorem prefix_agrees_of_unheeded (m : ℕ) :
    (∀ p, base58prefix x none = .ok p ↔ AgreedPrefix (some m) x p) ↔ Harmless m x := by
  simp only [base58prefix_eq_ok_iff, reduceCtorEq, and_false, true_or, and_true, false_or]
  constructor
  · intro h
    cases hget : Json.get x "ss58Format" with
    | none =>
      by_cases hm : m < 2 ^ 16
      · have hagreed : AgreedPrefix (some m) x (UInt16.ofNat m) := by
          refine ⟨fun a ha => ?_, fun m' hm' => ?_, .inr nofun⟩
          · cases hget.symm.trans ha
          · rw [UInt16.toNat_ofNat_of_lt' hm]
            exact (Option.some.inj hm').symm
        obtain ⟨n, hn, -⟩ := (h _).mpr hagreed
        cases hget.symm.trans hn
      · exact .inr (.inl ⟨hget, not_lt.mp hm⟩)
    | some a =>
      by_cases hmalformed : ∀ n : UInt64, a = .posInt n → 2 ^ 16 ≤ n.toNat
      · exact .inl ⟨a, hget, hmalformed⟩
      · push Not at hmalformed
        obtain ⟨n, rfl, hn⟩ := hmalformed
        have haccepted := (h (UInt16.ofNat n.toNat)).mp
          ⟨n, hget, (UInt16.toNat_ofNat_of_lt' hn).symm⟩
        have hm := haccepted.constant m rfl
        rw [UInt16.toNat_ofNat_of_lt' hn] at hm
        exact .inr (.inr ⟨n, hget, hm.symm⟩)
  · intro hharmless p
    constructor
    · rintro ⟨n, hget, hn⟩
      refine ⟨fun a ha => ⟨n, Option.some.inj (ha.symm.trans hget), hn⟩, fun m' hm' => ?_,
        .inr nofun⟩
      obtain rfl := Option.some.inj hm'
      rcases hharmless with ⟨a, ha, hlarge⟩ | ⟨hnone, -⟩ | ⟨n', hn', hm⟩
      · have hle := hlarge n (Option.some.inj (ha.symm.trans hget))
        have hlt := p.toNat_lt
        omega
      · cases hnone.symm.trans hget
      · obtain rfl : n' = n := Json.posInt.inj (Option.some.inj (hn'.symm.trans hget))
        exact hm.symm.trans hn
    · rintro ⟨hformat, hconstant, -⟩
      have hm := hconstant m rfl
      cases hget : Json.get x "ss58Format" with
      | none =>
        exfalso
        rcases hharmless with ⟨a, ha, -⟩ | ⟨-, hlarge⟩ | ⟨n', hn', -⟩
        · cases hget.symm.trans ha
        · have hlt := p.toNat_lt
          omega
        · cases hget.symm.trans hn'
      | some a =>
        obtain ⟨n, rfl, hn⟩ := hformat a hget
        exact ⟨n, rfl, hn⟩

end Prefixes

section Specs

variable {Metadata : Type} {parser : ConstantsParser Metadata} {x : Properties}
  {metadata : Metadata}

/-- Where the other properties are well formed, it comes down to the prefix. -/
theorem specsAgree_iff_base58 (hd : ∃ d, IsDecimals x d) (hs : ∃ s, IsUnit x s) :
    SpecsAgree parser x metadata ↔ ∀ p,
      base58prefix x (optionalPrefixFromMeta parser metadata) = .ok p ↔
        AgreedPrefix ((decodedPrefix parser metadata).bind ParsedData.unsigned?) x p := by
  obtain ⟨d, hd⟩ := hd
  obtain ⟨s, hs⟩ := hs
  constructor
  · intro h p
    have hspecs := h ⟨p, d, s⟩
    rw [systemPropertiesToShortSpecs_eq_ok_iff] at hspecs
    constructor
    · intro hok
      exact Accepted.base58prefix (hspecs.mp ⟨hok, hd, hs⟩)
    · intro hagreed
      exact (hspecs.mpr ⟨hagreed, hd, hs⟩).1
  · intro h specs
    rw [systemPropertiesToShortSpecs_eq_ok_iff, h]
    exact ⟨fun ⟨h₁, h₂, h₃⟩ => ⟨h₁, h₂, h₃⟩, fun ⟨h₁, h₂, h₃⟩ => ⟨h₁, h₂, h₃⟩⟩

/-- A constant of at most 128 bits that fits is heeded, and no other. -/
theorem prefixOfData_of_unsigned {data : ParsedData} {m : ℕ} (hm : data.unsigned? = some m) :
    (m < 2 ^ 16 ∧ ¬data.IsU256 ∧ ∃ p : UInt16, p.toNat = m ∧ prefixOfData data = some p) ∨
      (¬(m < 2 ^ 16 ∧ ¬data.IsU256) ∧ prefixOfData data = none) := by
  by_cases hheeded : m < 2 ^ 16 ∧ ¬data.IsU256
  · refine .inl ⟨hheeded.1, hheeded.2, UInt16.ofNat m, UInt16.toNat_ofNat_of_lt' hheeded.1, ?_⟩
    rw [prefixOfData_eq_some_iff, UInt16.toNat_ofNat_of_lt' hheeded.1]
    exact ⟨hm, hheeded.2⟩
  · refine .inr ⟨hheeded, Option.eq_none_iff_forall_ne_some.mpr fun p hp => hheeded ?_⟩
    obtain ⟨hp, hnarrow⟩ := prefixOfData_eq_some_iff.mp hp
    obtain rfl : m = p.toNat := Option.some.inj (hm.symm.trans hp)
    exact ⟨p.toNat_lt, hnarrow⟩

/-- **When specs are accepted exactly if all sources agree**: another property is malformed, or
the constant is no unsigned integer, or it is heeded, or it does no harm that it is not. -/
theorem specsAgree_iff : SpecsAgree parser x metadata ↔
    (¬∃ d, IsDecimals x d) ∨ (¬∃ s, IsUnit x s) ∨ ∀ data m,
      decodedPrefix parser metadata = some data → data.unsigned? = some m →
        (m < 2 ^ 16 ∧ ¬data.IsU256) ∨ Harmless m x := by
  by_cases hd : ∃ d, IsDecimals x d
  swap
  · refine iff_of_true (fun specs => ?_) (.inl hd)
    rw [systemPropertiesToShortSpecs_eq_ok_iff]
    exact iff_of_false (fun h => hd ⟨_, h.2.1⟩) fun h => hd ⟨_, h.decimals⟩
  by_cases hs : ∃ s, IsUnit x s
  swap
  · refine iff_of_true (fun specs => ?_) (.inr (.inl hs))
    rw [systemPropertiesToShortSpecs_eq_ok_iff]
    exact iff_of_false (fun h => hs ⟨_, h.2.2⟩) fun h => hs ⟨_, h.unit⟩
  rw [specsAgree_iff_base58 hd hs, or_iff_right (not_not_intro hd),
    or_iff_right (not_not_intro hs), optionalPrefixFromMeta]
  cases hdecoded : decodedPrefix parser metadata with
  | none => exact iff_of_true prefix_agrees_of_none nofun
  | some data =>
    simp only [Option.bind_some, Option.some.injEq]
    cases hm : data.unsigned? with
    | none =>
      have hnone : prefixOfData data = none := by
        refine Option.eq_none_iff_forall_ne_some.mpr fun p hp => ?_
        cases hm.symm.trans (prefixOfData_eq_some_iff.mp hp).1
      rw [hnone]
      refine iff_of_true prefix_agrees_of_none ?_
      rintro _ m rfl hm'
      cases hm.symm.trans hm'
    | some m =>
      rcases prefixOfData_of_unsigned hm with ⟨hlt, hnarrow, p, rfl, hp⟩ | ⟨hunheeded, hnone⟩
      · rw [hp]
        refine iff_of_true (prefix_agrees_of_some p) ?_
        rintro _ m' rfl hm'
        obtain rfl := Option.some.inj (hm.symm.trans hm')
        exact .inl ⟨hlt, hnarrow⟩
      · rw [hnone, prefix_agrees_of_unheeded]
        constructor
        · rintro hharmless _ m' rfl hm'
          obtain rfl := Option.some.inj (hm.symm.trans hm')
          exact .inr hharmless
        · intro h
          exact (h data m rfl hm).resolve_left hunheeded

end Specs

/-! ## A chain with a large constant -/

namespace Sample

/-- Metadata that are kept as the bytes of their constant, an integer of 32 bits. -/
def constantsParser : ConstantsParser (List UInt8) where
  pallets value := [⟨"System", [⟨"SS58Prefix", value, 2⟩]⟩]
  decodeAllAsType
    | _, _, [a, b, c, d] => some (.primitiveU32
        (a.toUInt32 ||| b.toUInt32 <<< 8 ||| c.toUInt32 <<< 16 ||| d.toUInt32 <<< 24))
    | _, _, _ => none

def properties : Properties :=
  [("ss58Format", .posInt 42), ("tokenDecimals", .posInt 10), ("tokenSymbol", .string "DOT")]

end Sample

/-- **Sources that differ are accepted.**  The properties say 42, and the constant 65578. -/
theorem largeConstant_not_agreed :
    systemPropertiesToShortSpecs Sample.constantsParser Sample.properties [42, 0, 1, 0] =
        .ok ⟨42, 10, "DOT"⟩ ∧
      ¬SpecsAgree Sample.constantsParser Sample.properties [42, 0, 1, 0] := by
  have haccepted : systemPropertiesToShortSpecs Sample.constantsParser Sample.properties
      [42, 0, 1, 0] = .ok ⟨42, 10, "DOT"⟩ := by rfl
  refine ⟨haccepted, fun h => ?_⟩
  have hagreed := Accepted.base58prefix ((h _).mp haccepted)
  exact absurd (hagreed.constant 65578 (by decide)) (by decide)

end Kalatori
