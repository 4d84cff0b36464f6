import Kalatori.Lib.Results
import Kalatori.Signer

/-!
# Building a transaction

The metadata of a chain describe a call as a tree of types.  A library prepares
such a tree to be filled in: where a type has variants one of them is selected,
and selecting another one prepares its fields.  The functions of this module
look for the pallet, the method and the fields of a transfer by their names and
fill in what they find.  What they do not find stays as it was prepared.

What the library does is a parameter (`Constructor`); a prepared type is kept
without the descriptions that the daemon does not look at.

* `select`, `onlyField`, `fillNamed`: the three things that are done on the way down.
* `constructSingleAssetTransferCall`, `constructSingleBalanceTransferCall`,
  `constructBatchCall`: the calls.
* `constructBatchTransaction`: the transaction.
-/

namespace Kalatori

open Results

/-! ## Types to fill in -/

/-- `scale_info::Variant`.  The types of the fields are known by their symbols. -/
structure Variant where
  name : String
  index : UInt8
  fields : List (Option String × UInt32)
  deriving DecidableEq

/-- `SpecialtyUnsignedInteger`, as far as it matters which one it is. -/
inductive SpecialtyUnsignedInteger
  | none
  | balance
  | other
  deriving DecidableEq

inductive UnsignedToFill
  | u32 (value : Option UInt32)
  | u128 (value : Option (BitVec 128))
  | other
  deriving DecidableEq

inductive PrimitiveToFill
  | compactUnsigned (content : UnsignedToFill) (specialty : SpecialtyUnsignedInteger)
  | unsigned (content : UnsignedToFill) (specialty : SpecialtyUnsignedInteger)
  | bool (value : Option Bool)
  | other
  deriving DecidableEq

inductive EraToFill
  | immortal
  | mortal (period_entry : UInt64) (block_number_entry : Option UInt64)
  deriving DecidableEq

inductive SpecialTypeToFill
  | accountId32 (account : Option AccountId32)
  | era (era : EraToFill)
  | signatureSr25519 (signature : Option Sr25519Signature)
  | other
  deriving DecidableEq

/-- A prepared type, with the fields of the selected variant if it has variants. -/
inductive TypeToFill
  | composite (fields : List (Option String × TypeToFill))
  | primitive (content : PrimitiveToFill)
  | sequenceRegular (content : List TypeToFill)
  | specialType (content : SpecialTypeToFill)
  | tuple (set : List TypeToFill)
  | variant (available_variants : List Variant) (selected : Fin available_variants.length)
      (fields_to_fill : List (Option String × TypeToFill))
  | other

/-- A field, with its name if it has one. -/
abbrev FieldToFill := Option String × TypeToFill

structure TransactionToFill where
  author : TypeToFill
  call : TypeToFill
  extensions : List TypeToFill
  signature : TypeToFill
  genesis_hash : BlockHash

/-- The library that prepares types, `substrate_constructor`, for one kind of metadata. -/
structure Constructor (Metadata : Type) where
  /-- `prepare_type`, for the type of the calls. -/
  prepareCall : Metadata → Except ChainError TypeToFill
  /-- The fields that `VariantSelector::new_at` prepares for the variant it selects. -/
  prepareFields : Metadata → Variant → Except ChainError (List FieldToFill)
  /-- `TransactionToFill::init` -/
  init : Metadata → BlockHash → Except ChainError TransactionToFill
  /-- `populate_block_info`, which is about the extensions. -/
  populateBlockInfo : Option BlockHash → Option UInt64 → List TypeToFill → List TypeToFill
  /-- `populate_nonce`, which is about the extensions. -/
  populateNonce : UInt32 → List TypeToFill → List TypeToFill
  /-- `DEFAULT_PERIOD` -/
  default_period : UInt64
  /-- `sign_this` -/
  signThis : TransactionToFill → Option (List UInt8)
  /-- `send_this_signed` -/
  sendThisSigned : Metadata → TransactionToFill → Except ChainError (Option (List UInt8))

/-! ## Filling in -/

section Filling

variable {Metadata : Type} (con : Constructor Metadata) (metadata : Metadata)

/-- Selects the first variant with a name that is wanted, and fills in its fields.  Without such
a variant, and where there are no variants, everything stays as it is. -/
def select (wanted : String → Bool)
    (fill : List FieldToFill → Except ChainError (List FieldToFill)) :
    TypeToFill → Except ChainError TypeToFill
  | .variant available_variants selected fields_to_fill =>
    match available_variants.findFinIdx? fun variant => wanted variant.name with
    | some index => do
      let fields ← con.prepareFields metadata available_variants[index]
      return .variant available_variants index (← fill fields)
    | none => return .variant available_variants selected fields_to_fill
  | t => return t

/-- Fills in a field that is the only one. -/
def onlyField (fill : TypeToFill → Except ChainError TypeToFill) :
    List FieldToFill → Except ChainError (List FieldToFill)
  | [(field_name, type_to_fill)] => do return [(field_name, ← fill type_to_fill)]
  | fields => return fields

/-- Fills in a field by its name. -/
def fillNamed (fills : String → Option (TypeToFill → Except ChainError TypeToFill)) :
    FieldToFill → Except ChainError FieldToFill
  | (some field_name, type_to_fill) =>
    match fills field_name with
    | some fill => do return (some field_name, ← fill type_to_fill)
    | none => return (some field_name, type_to_fill)
  | field => return field

def fillAccount (account : AccountId32) : TypeToFill → TypeToFill
  | .specialType (.accountId32 _) => .specialType (.accountId32 (some account))
  | t => t

/-- The variant `Id` of an address. -/
def fillAddress (account : AccountId32) : TypeToFill → Except ChainError TypeToFill :=
  select con metadata (· == "Id") (onlyField fun t => return fillAccount account t)

def fillAssetId (asset_id : UInt32) : TypeToFill → TypeToFill
  | .primitive (.compactUnsigned (.u32 _) .none) =>
    .primitive (.compactUnsigned (.u32 (some asset_id)) .none)
  | .primitive (.unsigned (.u32 _) .none) => .primitive (.unsigned (.u32 (some asset_id)) .none)
  | t => t

def fillAmount (amount : BitVec 128) : TypeToFill → TypeToFill
  | .primitive (.compactUnsigned (.u128 _) .balance) =>
    .primitive (.compactUnsigned (.u128 (some amount)) .balance)
  | .primitive (.unsigned (.u128 _) .balance) =>
    .primitive (.unsigned (.u128 (some amount)) .balance)
  | t => t

def fillBool (value : Bool) : TypeToFill → TypeToFill
  | .primitive (.bool _) => .primitive (.bool (some value))
  | t => t

def fillCalls (call_set : List TypeToFill) : TypeToFill → TypeToFill
  | .sequenceRegular _ => .sequenceRegular call_set
  | t => t

/-- A method of a pallet, with its fields. -/
def fillCall (pallet : String) (method : String → Bool)
    (fill : List FieldToFill → Except ChainError (List FieldToFill)) :
    Except ChainError TypeToFill := do
  select con metadata (· == pallet) (onlyField (select con metadata method fill))
    (← con.prepareCall metadata)

/-! ## The calls -/

structure AssetTransferConstructor where
  asset_id : UInt32
  amount : BitVec 128
  to_account : AccountId32

structure BalanceTransferConstructor where
  amount : BitVec 128
  to_account : AccountId32
  is_clearing : Bool

/-- The `match` on the name of a field of an asset transfer. -/
def assetFills (c : AssetTransferConstructor) (field_name : String) :
    Option (TypeToFill → Except ChainError TypeToFill) :=
  match field_name with
  | "target" => some (fillAddress con metadata c.to_account)
  | "id" => some fun t => return fillAssetId c.asset_id t
  | "amount" => some fun t => return fillAmount c.amount t
  | _ => none

def constructSingleAssetTransferCall (c : AssetTransferConstructor) :
    Except ChainError TypeToFill :=
  fillCall con metadata "Assets" (· == "transfer")
    (List.mapM (fillNamed (assetFills con metadata c)))

/-- The `match` on the name of a field of a balance transfer. -/
def balanceFills (c : BalanceTransferConstructor) (field_name : String) :
    Option (TypeToFill → Except ChainError TypeToFill) :=
  match field_name with
  | "dest" => some (fillAddress con metadata c.to_account)
  | "keep_alive" => some fun t => return fillBool false t
  | "value" => some fun t => return fillAmount c.amount t
  | _ => none

/-- The method that a balance transfer looks for. -/
def balanceMethod (is_clearing : Bool) (name : String) : Bool :=
  match name with
  | "transfer_keep_alive" => !is_clearing
  | "transfer_all" => is_clearing
  | _ => false

def constructSingleBalanceTransferCall (c : BalanceTransferConstructor) :
    Except ChainError TypeToFill :=
  fillCall con metadata "Balances" (balanceMethod c.is_clearing)
    (List.mapM (fillNamed (balanceFills con metadata c)))

/-- The transfer of a payout: all that the account has, or an amount of an asset. -/
inductive Transfer
  | native (amount : BitVec 128) (to_account : AccountId32)
  | asset (c : AssetTransferConstructor)

def Transfer.kind : Transfer → TokenKind
  | .native .. => .native
  | .asset _ => .asset

/-- The call that is built for a transfer. -/
def Transfer.construct : Transfer → Except ChainError TypeToFill
  | .native amount to_account => constructSingleBalanceTransferCall con metadata
      { amount, to_account, is_clearing := true }
  | .asset c => constructSingleAssetTransferCall con metadata c

/-- The fields of `batch_all`, of which there must be just the calls. -/
def fillBatch (call_set : List TypeToFill) : List FieldToFill → Except ChainError (List FieldToFill)
  | [(some "calls", type_to_fill)] => return [(some "calls", fillCalls call_set type_to_fill)]
  | fields => return fields

def constructBatchCall (call_set : List TypeToFill) : Except ChainError TypeToFill :=
  fillCall con metadata "Utility" (· == "batch_all") (fillBatch call_set)

/-! ## The transaction -/

/-- The author, who may be wrapped in a field or in a variant. -/
def fillAuthor (author : AccountId32) : TypeToFill → Except ChainError TypeToFill
  | .composite [(field_name, type_to_fill)] =>
    return .composite [(field_name, fillAccount author type_to_fill)]
  | .variant available_variants selected fields_to_fill =>
    fillAddress con metadata author (.variant available_variants selected fields_to_fill)
  | t => return fillAccount author t

/-- The era of an extension made mortal, if the extension is one. -/
def mortalEra : TypeToFill → Option TypeToFill
  | .composite [(field_name, .specialType (.era _))] =>
    some (.composite [(field_name, .specialType (.era (.mortal con.default_period none)))])
  | .specialType (.era _) => some (.specialType (.era (.mortal con.default_period none)))
  | _ => none

/-- The loop over the extensions, which stops at the first era. -/
def setMortal : List TypeToFill → List TypeToFill
  | [] => []
  | ext :: extensions =>
    match mortalEra con ext with
    | some ext => ext :: extensions
    | none => ext :: setMortal extensions

/-- `construct_batch_transaction`, without the text it prints about its extensions. -/
def constructBatchTransaction (genesis_hash : BlockHash) (author : AccountId32)
    (call_set : List TypeToFill) (block : BlockHash) (block_number nonce : UInt32) :
    Except ChainError TransactionToFill := do
  let transaction ← con.init metadata genesis_hash
  let author ← fillAuthor con metadata author transaction.author
  let call ← constructBatchCall con metadata call_set
  let extensions := con.populateNonce nonce
    (con.populateBlockInfo (some block) (some block_number.toUInt64)
      (setMortal con transaction.extensions))
  return { transaction with author, call, extensions }

/-- What a transaction is built from: its author is filled in, and its call is the batch. -/
theorem constructBatchTransaction_ok {genesis_hash : BlockHash} {author : AccountId32}
    {call_set : List TypeToFill} {block : BlockHash} {block_number nonce : UInt32}
    {transaction : TransactionToFill}
    (h : constructBatchTransaction con metadata genesis_hash author call_set block block_number
      nonce = .ok transaction) :
    ∃ prepared, con.init metadata genesis_hash = .ok prepared ∧
      fillAuthor con metadata author prepared.author = .ok transaction.author ∧
      constructBatchCall con metadata call_set = .ok transaction.call := by
  have hgives : Gives (· = transaction) (constructBatchTransaction con metadata genesis_hash
      author call_set block block_number nonce) := ⟨_, h, rfl⟩
  rw [constructBatchTransaction, gives_bind] at hgives
  obtain ⟨prepared, hprepared, hgives⟩ := hgives
  obtain ⟨filled, hfilled, hgives⟩ := gives_bind.mp hgives
  obtain ⟨call, hcall, hgives⟩ := gives_bind.mp hgives
  obtain rfl := gives_ok.mp hgives
  exact ⟨prepared, hprepared, hfilled, hcall⟩

end Filling

/-- A runtime with or without the pallet of the batches.  The first variants are selected where
nothing else is looked for, as in `System.remark`. -/
def Sample.constructor (Metadata : Type) (utility : Bool) : Constructor Metadata where
  prepareCall _ := .ok (.variant
    (⟨"System", 0, []⟩ :: ⟨"Balances", 10, []⟩ :: if utility then [⟨"Utility", 40, []⟩] else [])
    ⟨0, Nat.succ_pos _⟩ [(none, .variant [⟨"remark", 0, []⟩] ⟨0, Nat.one_pos⟩
      [(some "remark", .other)])])
  prepareFields _ variant :=
    match variant.name with
    | "Balances" => .ok [(none, .variant [⟨"transfer_all", 4, []⟩] ⟨0, Nat.one_pos⟩ [])]
    | "transfer_all" => .ok
        [(some "dest", .variant [⟨"Id", 0, []⟩] ⟨0, Nat.one_pos⟩ []),
          (some "keep_alive", .primitive (.bool none))]
    | "Id" => .ok [(none, .specialType (.accountId32 none))]
    | "Utility" => .ok [(none, .variant [⟨"batch_all", 2, []⟩] ⟨0, Nat.one_pos⟩ [])]
    | "batch_all" => .ok [(some "calls", .sequenceRegular [])]
    | _ => .ok []
  init _ genesis_hash := .ok
    { author := .specialType (.accountId32 none), call := .other, extensions := [],
      signature := .other, genesis_hash }
  populateBlockInfo _ _ extensions := extensions
  populateNonce _ extensions := extensions
  default_period := 64
  signThis _ := some []
  sendThisSigned _ _ := .ok (some [])

end Kalatori
