import Kalatori.Chain.Transaction

/-!
# Which calls are built

A builder that finds everything it looks for builds the call it was asked for.
One that does not find a pallet, a method or a field, or finds it with another
type, says nothing: the call keeps what the library selected or left open there,
and is built into the transaction all the same.

Everything is said of the trees that the library prepares.  `Selected`, `Only` and
`Carries` describe a call that is filled in, `Offers` the metadata in which there is
such a call to fill in, and `Unprepared` those in which the library refuses a type on
the way.

* `IsTransfer`, `IsBatch`: the calls that are wanted.
* `Expresses`, `Unreadable`: the condition on the metadata.
* `buildsTransfer_iff`: what was asked for is built, and nothing else, exactly under it.
-/

namespace Kalatori

open Results

variable {Metadata : Type} {con : Constructor Metadata} {metadata : Metadata}

/-! ## Trees -/

/-- A variant of a name that is wanted is selected. -/
def Selected (wanted : String → Bool) (Q : List FieldToFill → Prop) : TypeToFill → Prop
  | .variant available_variants selected fields_to_fill =>
    wanted (available_variants.get selected).name = true ∧ Q fields_to_fill
  | _ => False

/-- There is one field. -/
def Only (Q : TypeToFill → Prop) : List FieldToFill → Prop
  | [(_, t)] => Q t
  | _ => False

/-- The fields are those of some arguments, and are filled in with them. -/
structure Carries (arguments : List (String × (TypeToFill → Prop))) (fields : List FieldToFill) :
    Prop where
  names : (fields.map (·.1)).Perm (arguments.map fun a => some a.1)
  filled : ∀ field ∈ fields, ∀ a ∈ arguments, field.1 = some a.1 → a.2 field.2

variable (con metadata)

/-- A variant of a name that is wanted can be prepared. -/
def Offers (wanted : String → Bool) (Q : List FieldToFill → Prop) : TypeToFill → Prop
  | .variant available_variants _ _ =>
    match available_variants.findFinIdx? fun variant => wanted variant.name with
    | some index => Gives Q (con.prepareFields metadata (available_variants.get index))
    | none => False
  | _ => False

/-- A variant of a name that is wanted cannot be prepared, or a type of its fields cannot. -/
def Unprepared (wanted : String → Bool) (F : List FieldToFill → Prop) : TypeToFill → Prop
  | .variant available_variants _ _ =>
    match available_variants.findFinIdx? fun variant => wanted variant.name with
    | some index => Refuses (con.prepareFields metadata (available_variants.get index)) ∨
        Gives F (con.prepareFields metadata (available_variants.get index))
    | none => False
  | _ => False

section Selecting

variable {wanted : String → Bool} {fill : List FieldToFill → Except ChainError (List FieldToFill)}
  {t : TypeToFill}

theorem gives_select {Q : List FieldToFill → Prop} :
    Gives (Selected wanted Q) (select con metadata wanted fill t) ↔
      Offers con metadata wanted (fun fields => Gives Q (fill fields)) t := by
  cases t with
  | variant available_variants selected fields_to_fill =>
    rw [select, Offers]
    cases hfind : available_variants.findFinIdx? fun variant => wanted variant.name with
    | none =>
      -- The variant that was selected before is not a wanted one either.
      refine iff_of_false ?_ not_false
      rintro ⟨t', ht', hselected⟩
      obtain rfl := Except.ok.inj ht'
      have hnone := List.findFinIdx?_eq_none_iff.mp hfind available_variants[selected]
        (List.getElem_mem _)
      exact hnone hselected.1
    | some index =>
      have hwanted : wanted available_variants[index].name = true :=
        (List.findFinIdx?_eq_some_iff.mp hfind).1
      simp only
      rw [gives_bind]
      refine gives_congr (fun fields => ?_) _
      rw [gives_bind]
      refine gives_congr (fun fields' => ?_) _
      exact gives_ok.trans (and_iff_right hwanted)
  | composite | primitive | sequenceRegular | specialType | tuple | other =>
    refine iff_of_false ?_ not_false
    rintro ⟨t', ht', h⟩
    obtain rfl := Except.ok.inj ht'
    exact h

theorem refuses_select :
    Refuses (select con metadata wanted fill t) ↔
      Unprepared con metadata wanted (fun fields => Refuses (fill fields)) t := by
  cases t with
  | variant available_variants selected fields_to_fill =>
    rw [select, Unprepared]
    cases available_variants.findFinIdx? fun variant => wanted variant.name with
    | none => exact iff_of_false not_refuses_ok not_false
    | some index =>
      simp only
      rw [refuses_bind]
      refine or_congr_right (gives_congr (fun fields => ?_) _)
      rw [refuses_bind]
      refine or_iff_left ?_
      rintro ⟨fields', -, h⟩
      exact not_refuses_ok h
  | composite | primitive | sequenceRegular | specialType | tuple | other =>
    exact iff_of_false not_refuses_ok not_false

theorem Offers.congr {Q Q' : List FieldToFill → Prop} (h : ∀ fields, Q fields ↔ Q' fields) :
    Offers con metadata wanted Q t ↔ Offers con metadata wanted Q' t := by
  have heq : Q = Q' := funext fun fields => propext (h fields)
  rw [heq]

theorem offers_and {Q : List FieldToFill → Prop} {p : Prop} :
    Offers con metadata wanted (fun fields => Q fields ∧ p) t ↔
      Offers con metadata wanted Q t ∧ p := by
  cases t with
  | variant available_variants selected fields_to_fill =>
    rw [Offers, Offers]
    cases available_variants.findFinIdx? fun variant => wanted variant.name with
    | none => exact iff_of_false not_false And.left
    | some index => exact gives_and _
  | composite | primitive | sequenceRegular | specialType | tuple | other =>
    exact iff_of_false not_false And.left

theorem Unprepared.congr {Q Q' : List FieldToFill → Prop} (h : ∀ fields, Q fields ↔ Q' fields) :
    Unprepared con metadata wanted Q t ↔ Unprepared con metadata wanted Q' t := by
  have heq : Q = Q' := funext fun fields => propext (h fields)
  rw [heq]

end Selecting

theorem gives_onlyField {Q : TypeToFill → Prop} {fill : TypeToFill → Except ChainError TypeToFill}
    (fields : List FieldToFill) :
    Gives (Only Q) (onlyField fill fields) ↔ Only (fun t => Gives Q (fill t)) fields := by
  match fields with
  | [(field_name, t)] =>
    rw [onlyField, gives_bind]
    exact gives_congr (fun t' => gives_ok) _
  | [] | _ :: _ :: _ => exact gives_ok

theorem only_and {Q : TypeToFill → Prop} {p : Prop} (fields : List FieldToFill) :
    Only (fun t => Q t ∧ p) fields ↔ Only Q fields ∧ p := by
  match fields with
  | [(_, t)] => exact Iff.rfl
  | [] | _ :: _ :: _ => exact iff_of_false not_false And.left

theorem refuses_onlyField {fill : TypeToFill → Except ChainError TypeToFill}
    (fields : List FieldToFill) :
    Refuses (onlyField fill fields) ↔ Only (fun t => Refuses (fill t)) fields := by
  match fields with
  | [(field_name, t)] =>
    rw [onlyField, refuses_bind]
    refine or_iff_left ?_
    rintro ⟨t', -, h⟩
    exact not_refuses_ok h
  | [] | _ :: _ :: _ => exact iff_of_false not_refuses_ok not_false

/-! ## Fields -/

/-- What is filled in for a name. -/
def fillWith (fills : String → Option (TypeToFill → Except ChainError TypeToFill))
    (field_name : String) (t : TypeToFill) : Except ChainError TypeToFill :=
  match fills field_name with
  | some fill => fill t
  | none => .ok t

section Named

variable {fills : String → Option (TypeToFill → Except ChainError TypeToFill)}

theorem fillNamed_some (field_name : String) (t : TypeToFill) :
    fillNamed fills (some field_name, t) =
      (fillWith fills field_name t >>= fun t => .ok (some field_name, t)) := by
  rw [fillNamed, fillWith]
  cases fills field_name <;> rfl

theorem fillNamed_name {field field' : FieldToFill} (h : fillNamed fills field = .ok field') :
    field'.1 = field.1 := by
  obtain ⟨field_name, t⟩ := field
  cases field_name with
  | none =>
    obtain rfl := Except.ok.inj h
    rfl
  | some field_name =>
    rw [fillNamed_some] at h
    cases hfill : fillWith fills field_name t with
    | error e =>
      rw [hfill] at h
      cases h
    | ok t' =>
      rw [hfill] at h
      obtain rfl := Except.ok.inj h
      rfl

/-- The arguments are filled in if the fields are theirs and can be filled in with them. -/
theorem gives_carries {arguments : List (String × (TypeToFill → Prop))}
    (fields : List FieldToFill) :
    Gives (Carries arguments) (fields.mapM (fillNamed fills)) ↔
      Carries (arguments.map fun a => (a.1, fun t => Gives a.2 (fillWith fills a.1 t))) fields := by
  have hcarries : ∀ {arguments fields}, Carries arguments fields ↔
      (fields.map (·.1)).Perm (arguments.map fun a => some a.1) ∧
        ∀ field ∈ fields, ∀ a ∈ arguments, field.1 = some a.1 → a.2 field.2 :=
    fun {_ _} => ⟨fun h => ⟨h.names, h.filled⟩, fun h => ⟨h.1, h.2⟩⟩
  rw [gives_congr (fun _ => hcarries), hcarries,
    gives_mapM (P := fun names => names.Perm (arguments.map fun a => some a.1))
      (fun _ _ => fillNamed_name)]
  rw [List.map_map]
  refine and_congr_right fun hnames => forall₂_congr fun field hfield => ?_
  -- The name is that of an argument, so that what it is filled in with is there.
  obtain ⟨a₀, ha₀, hname⟩ : ∃ a ∈ arguments, some a.1 = field.1 :=
    List.mem_map.mp (hnames.subset (List.mem_map_of_mem hfield))
  obtain ⟨field_name, t⟩ := field
  obtain rfl : some a₀.1 = field_name := hname
  rw [List.forall_mem_map, fillNamed_some, gives_bind]
  simp only [gives_ok]
  constructor
  · rintro ⟨t', ht', h⟩ a ha hname
    obtain hname : a₀.1 = a.1 := Option.some.inj hname
    exact ⟨t', hname ▸ ht', h a ha (congrArg some hname)⟩
  · intro h
    obtain ⟨t', ht', -⟩ := h a₀ ha₀ rfl
    refine ⟨t', ht', fun a ha hname => ?_⟩
    obtain ⟨t'', ht'', hfilled⟩ := h a ha hname
    obtain rfl : t' = t'' := Except.ok.inj (ht'.symm.trans (Option.some.inj hname ▸ ht''))
    exact hfilled

theorem refuses_fillNamed (fields : List FieldToFill) :
    Refuses (fields.mapM (fillNamed fills)) ↔
      ∃ field_name t, (some field_name, t) ∈ fields ∧ Refuses (fillWith fills field_name t) := by
  rw [refuses_mapM]
  constructor
  · rintro ⟨⟨field_name, t⟩, hmem, hrefuses⟩
    cases field_name with
    | none => exact absurd hrefuses not_refuses_ok
    | some field_name =>
      rw [fillNamed_some, refuses_bind] at hrefuses
      rcases hrefuses with hrefuses | ⟨t', -, h⟩
      · exact ⟨field_name, t, hmem, hrefuses⟩
      · exact absurd h not_refuses_ok
  · rintro ⟨field_name, t, hmem, hrefuses⟩
    refine ⟨_, hmem, ?_⟩
    rw [fillNamed_some, refuses_bind]
    exact .inl hrefuses

end Named

/-! ## Calls -/

def IsAccount (account : AccountId32) (t : TypeToFill) : Prop :=
  t = .specialType (.accountId32 (some account))

/-- `Id(account)` -/
def IsAddress (account : AccountId32) : TypeToFill → Prop :=
  Selected (· == "Id") (Only (IsAccount account))

def IsAssetId (asset_id : UInt32) (t : TypeToFill) : Prop :=
  t = .primitive (.compactUnsigned (.u32 (some asset_id)) .none) ∨
    t = .primitive (.unsigned (.u32 (some asset_id)) .none)

def IsAmount (amount : BitVec 128) (t : TypeToFill) : Prop :=
  t = .primitive (.compactUnsigned (.u128 (some amount)) .balance) ∨
    t = .primitive (.unsigned (.u128 (some amount)) .balance)

def IsBool (value : Bool) (t : TypeToFill) : Prop := t = .primitive (.bool (some value))

/-- A call of a method of a pallet. -/
def IsCall (pallet method : String) (Q : List FieldToFill → Prop) : TypeToFill → Prop :=
  Selected (· == pallet) (Only (Selected (· == method) Q))

/-- The call that a transfer asks for. -/
def IsTransfer : Transfer → TypeToFill → Prop
  | .native _ to_account => IsCall "Balances" "transfer_all"
      (Carries [("dest", IsAddress to_account), ("keep_alive", IsBool false)])
  | .asset c => IsCall "Assets" "transfer"
      (Carries [("id", IsAssetId c.asset_id), ("target", IsAddress c.to_account),
        ("amount", IsAmount c.amount)])

/-- The call of all calls of a set, or of none. -/
def IsBatch (call_set : List TypeToFill) : TypeToFill → Prop :=
  IsCall "Utility" "batch_all" (· = [(some "calls", .sequenceRegular call_set)])

/-! ## What the metadata can express -/

def TakesAccount (t : TypeToFill) : Prop := ∃ account, t = .specialType (.accountId32 account)

def TakesAssetId (t : TypeToFill) : Prop :=
  ∃ value, t = .primitive (.compactUnsigned (.u32 value) .none) ∨
    t = .primitive (.unsigned (.u32 value) .none)

def TakesAmount (t : TypeToFill) : Prop :=
  ∃ value, t = .primitive (.compactUnsigned (.u128 value) .balance) ∨
    t = .primitive (.unsigned (.u128 value) .balance)

def TakesBool (t : TypeToFill) : Prop := ∃ value, t = .primitive (.bool value)

def TakesAddress : TypeToFill → Prop := Offers con metadata (· == "Id") (Only TakesAccount)

def UnpreparedAddress : TypeToFill → Prop := Unprepared con metadata (· == "Id") fun _ => False

/-- There is a method of a pallet, with fields as they are needed. -/
def OffersCall (pallet method : String) (Q : List FieldToFill → Prop) : Prop :=
  Gives (Offers con metadata (· == pallet) (Only (Offers con metadata (· == method) Q)))
    (con.prepareCall metadata)

/-- A type on the way to the method of a pallet cannot be prepared, or one of its fields. -/
def UnpreparedCall (pallet method : String) (F : List FieldToFill → Prop) : Prop :=
  Refuses (con.prepareCall metadata) ∨
    Gives (Unprepared con metadata (· == pallet) (Only (Unprepared con metadata (· == method) F)))
      (con.prepareCall metadata)

def ExpressesTransfer : TokenKind → Prop
  | .native => OffersCall con metadata "Balances" "transfer_all"
      (Carries [("dest", TakesAddress con metadata), ("keep_alive", TakesBool)])
  | .asset => OffersCall con metadata "Assets" "transfer"
      (Carries [("id", TakesAssetId), ("target", TakesAddress con metadata),
        ("amount", TakesAmount)])

def ExpressesBatch : Prop :=
  OffersCall con metadata "Utility" "batch_all"
    fun fields => ∃ calls, fields = [(some "calls", .sequenceRegular calls)]

/-- The call of a transfer can be expressed, and the batch with it. -/
def Expresses (kind : TokenKind) : Prop :=
  ExpressesTransfer con metadata kind ∧ ExpressesBatch con metadata

def UnpreparedTransfer : TokenKind → Prop
  | .native => UnpreparedCall con metadata "Balances" "transfer_all"
      fun fields => ∃ t, (some "dest", t) ∈ fields ∧ UnpreparedAddress con metadata t
  | .asset => UnpreparedCall con metadata "Assets" "transfer"
      fun fields => ∃ t, (some "target", t) ∈ fields ∧ UnpreparedAddress con metadata t

def UnpreparedTransaction (genesis_hash : BlockHash) : Prop :=
  Refuses (con.init metadata genesis_hash) ∨
    Gives (fun transaction => UnpreparedAddress con metadata transaction.author)
      (con.init metadata genesis_hash) ∨
    UnpreparedCall con metadata "Utility" "batch_all" fun _ => False

/-- The library refuses a type that is gone through on the way. -/
def Unreadable (kind : TokenKind) (genesis_hash : BlockHash) : Prop :=
  UnpreparedTransfer con metadata kind ∨ UnpreparedTransaction con metadata genesis_hash

/-! ## What is filled in -/

theorem isAccount_fill {account filled : AccountId32} (t : TypeToFill) :
    IsAccount account (fillAccount filled t) ↔ TakesAccount t ∧ account = filled := by
  rw [fillAccount.eq_def]
  split
  · next old =>
    constructor
    · rintro ⟨⟩
      exact ⟨⟨old, rfl⟩, rfl⟩
    · rintro ⟨-, rfl⟩
      rfl
  · next h => exact iff_of_false (fun h' => h _ h') fun ⟨⟨_, h'⟩, _⟩ => h _ h'

theorem isBool_fill {value : Bool} (t : TypeToFill) :
    IsBool value (fillBool value t) ↔ TakesBool t := by
  rw [fillBool.eq_def]
  split
  · exact iff_of_true rfl ⟨_, rfl⟩
  · next h => exact iff_of_false (fun h' => h _ h') fun ⟨_, h'⟩ => h _ h'

theorem isAssetId_fill {asset_id : UInt32} (t : TypeToFill) :
    IsAssetId asset_id (fillAssetId asset_id t) ↔ TakesAssetId t := by
  rw [fillAssetId.eq_def]
  split
  · exact iff_of_true (.inl rfl) ⟨_, .inl rfl⟩
  · exact iff_of_true (.inr rfl) ⟨_, .inr rfl⟩
  · next h h' =>
    exact iff_of_false (fun h'' => h''.elim (h _) (h' _)) fun ⟨_, h''⟩ => h''.elim (h _) (h' _)

theorem isAmount_fill {amount : BitVec 128} (t : TypeToFill) :
    IsAmount amount (fillAmount amount t) ↔ TakesAmount t := by
  rw [fillAmount.eq_def]
  split
  · exact iff_of_true (.inl rfl) ⟨_, .inl rfl⟩
  · exact iff_of_true (.inr rfl) ⟨_, .inr rfl⟩
  · next h h' =>
    exact iff_of_false (fun h'' => h''.elim (h _) (h' _)) fun ⟨_, h''⟩ => h''.elim (h _) (h' _)

variable {con metadata}

theorem gives_fillAddress {account filled : AccountId32} (t : TypeToFill) :
    Gives (IsAddress account) (fillAddress con metadata filled t) ↔
      TakesAddress con metadata t ∧ account = filled := by
  rw [IsAddress, fillAddress, gives_select, TakesAddress, ← offers_and]
  refine Offers.congr con metadata fun fields => ?_
  rw [gives_onlyField, ← only_and]
  have hfill : (fun t => Gives (IsAccount account)
      (pure (fillAccount filled t) : Except ChainError TypeToFill)) =
        fun t => TakesAccount t ∧ account = filled :=
    funext fun t => propext (gives_ok.trans (isAccount_fill t))
  rw [hfill]

theorem refuses_fillAddress {account : AccountId32} (t : TypeToFill) :
    Refuses (fillAddress con metadata account t) ↔ UnpreparedAddress con metadata t := by
  rw [fillAddress, refuses_select, UnpreparedAddress]
  refine Unprepared.congr con metadata fun fields => ?_
  rw [refuses_onlyField]
  match fields with
  | [(_, t)] => exact iff_of_false not_refuses_ok not_false
  | [] | _ :: _ :: _ => exact Iff.rfl

theorem gives_fillCall {pallet method : String} {Q : List FieldToFill → Prop}
    {fill : List FieldToFill → Except ChainError (List FieldToFill)} :
    Gives (IsCall pallet method Q) (fillCall con metadata pallet (· == method) fill) ↔
      OffersCall con metadata pallet method fun fields => Gives Q (fill fields) := by
  rw [fillCall, gives_bind, OffersCall]
  refine gives_congr (fun t => ?_) _
  rw [IsCall, gives_select]
  refine Offers.congr con metadata fun fields => ?_
  rw [gives_onlyField]
  have hselect : (fun t => Gives (Selected (· == method) Q)
      (select con metadata (· == method) fill t)) =
        Offers con metadata (· == method) fun fields => Gives Q (fill fields) :=
    funext fun t => propext (gives_select con metadata)
  rw [hselect]

theorem refuses_fillCall {pallet method : String}
    {fill : List FieldToFill → Except ChainError (List FieldToFill)} :
    Refuses (fillCall con metadata pallet (· == method) fill) ↔
      UnpreparedCall con metadata pallet method fun fields => Refuses (fill fields) := by
  rw [fillCall, refuses_bind, UnpreparedCall]
  refine or_congr_right (gives_congr (fun t => ?_) _)
  rw [refuses_select]
  refine Unprepared.congr con metadata fun fields => ?_
  rw [refuses_onlyField]
  have hselect : (fun t => Refuses (select con metadata (· == method) fill t)) =
      Unprepared con metadata (· == method) fun fields => Refuses (fill fields) :=
    funext fun t => propext (refuses_select con metadata)
  rw [hselect]

theorem offersCall_congr {pallet method : String} {Q Q' : List FieldToFill → Prop}
    (h : ∀ fields, Q fields ↔ Q' fields) :
    OffersCall con metadata pallet method Q ↔ OffersCall con metadata pallet method Q' := by
  have heq : Q = Q' := funext fun fields => propext (h fields)
  rw [heq]

theorem unpreparedCall_congr {pallet method : String} {F F' : List FieldToFill → Prop}
    (h : ∀ fields, F fields ↔ F' fields) :
    UnpreparedCall con metadata pallet method F ↔
      UnpreparedCall con metadata pallet method F' := by
  have heq : F = F' := funext fun fields => propext (h fields)
  rw [heq]

theorem balanceMethod_clearing : balanceMethod true = (· == "transfer_all") := by
  funext name
  rw [balanceMethod.eq_def]
  split
  · rfl
  · rfl
  · next hother => exact (beq_eq_false_iff_ne.mpr hother).symm

/-- What is built for a transfer is the call that it asks for, if the metadata can express it. -/
theorem gives_construct (transfer : Transfer) :
    Gives (IsTransfer transfer) (transfer.construct con metadata) ↔
      ExpressesTransfer con metadata transfer.kind := by
  have haddress : ∀ account, (fun t => Gives (IsAddress account)
      (fillAddress con metadata account t)) = TakesAddress con metadata :=
    fun account => funext fun t => propext ((gives_fillAddress t).trans (and_iff_left rfl))
  cases transfer with
  | native amount to_account =>
    have hbool : (fun t => Gives (IsBool false)
        (.ok (fillBool false t) : Except ChainError TypeToFill)) = TakesBool :=
      funext fun t => propext (gives_ok.trans (isBool_fill t))
    show Gives (IsCall "Balances" "transfer_all" _)
      (fillCall con metadata "Balances" (balanceMethod true) _) ↔ OffersCall _ _ _ _ _
    rw [balanceMethod_clearing, gives_fillCall, ← haddress to_account, ← hbool]
    exact offersCall_congr fun fields => gives_carries fields
  | asset c =>
    have hid : (fun t => Gives (IsAssetId c.asset_id)
        (.ok (fillAssetId c.asset_id t) : Except ChainError TypeToFill)) = TakesAssetId :=
      funext fun t => propext (gives_ok.trans (isAssetId_fill t))
    have hamount : (fun t => Gives (IsAmount c.amount)
        (.ok (fillAmount c.amount t) : Except ChainError TypeToFill)) = TakesAmount :=
      funext fun t => propext (gives_ok.trans (isAmount_fill t))
    show Gives (IsCall "Assets" "transfer" _)
      (fillCall con metadata "Assets" (· == "transfer") _) ↔ OffersCall _ _ _ _ _
    rw [gives_fillCall, ← haddress c.to_account, ← hid, ← hamount]
    exact offersCall_congr fun fields => gives_carries fields

/-- Of the fields of a balance transfer only the address can be refused. -/
theorem refuses_balanceFills {c : BalanceTransferConstructor} {field_name : String}
    {t : TypeToFill} (h : Refuses (fillWith (balanceFills con metadata c) field_name t)) :
    field_name = "dest" ∧ UnpreparedAddress con metadata t := by
  rw [fillWith, balanceFills.eq_def] at h
  split at h
  · next fill hfill =>
    split at hfill
    · obtain rfl := Option.some.inj hfill
      exact ⟨rfl, (refuses_fillAddress t).mp h⟩
    · obtain rfl := Option.some.inj hfill
      exact absurd h not_refuses_ok
    · obtain rfl := Option.some.inj hfill
      exact absurd h not_refuses_ok
    · exact absurd hfill (Option.some_ne_none _).symm
  · exact absurd h not_refuses_ok

/-- Of the fields of an asset transfer, too. -/
theorem refuses_assetFills {c : AssetTransferConstructor} {field_name : String}
    {t : TypeToFill} (h : Refuses (fillWith (assetFills con metadata c) field_name t)) :
    field_name = "target" ∧ UnpreparedAddress con metadata t := by
  rw [fillWith, assetFills.eq_def] at h
  split at h
  · next fill hfill =>
    split at hfill
    · obtain rfl := Option.some.inj hfill
      exact ⟨rfl, (refuses_fillAddress t).mp h⟩
    · obtain rfl := Option.some.inj hfill
      exact absurd h not_refuses_ok
    · obtain rfl := Option.some.inj hfill
      exact absurd h not_refuses_ok
    · exact absurd hfill (Option.some_ne_none _).symm
  · exact absurd h not_refuses_ok

theorem refuses_construct (transfer : Transfer) :
    Refuses (transfer.construct con metadata) ↔
      UnpreparedTransfer con metadata transfer.kind := by
  cases transfer with
  | native amount to_account =>
    show Refuses (fillCall con metadata "Balances" (balanceMethod true) _) ↔
      UnpreparedCall _ _ _ _ _
    rw [balanceMethod_clearing, refuses_fillCall]
    refine unpreparedCall_congr fun fields => ?_
    rw [refuses_fillNamed]
    constructor
    · rintro ⟨field_name, t, hmem, hrefuses⟩
      obtain ⟨rfl, h⟩ := refuses_balanceFills hrefuses
      exact ⟨t, hmem, h⟩
    · rintro ⟨t, hmem, h⟩
      exact ⟨"dest", t, hmem, (refuses_fillAddress t).mpr h⟩
  | asset c =>
    show Refuses (fillCall con metadata "Assets" (· == "transfer") _) ↔ UnpreparedCall _ _ _ _ _
    rw [refuses_fillCall]
    refine unpreparedCall_congr fun fields => ?_
    rw [refuses_fillNamed]
    constructor
    · rintro ⟨field_name, t, hmem, hrefuses⟩
      obtain ⟨rfl, h⟩ := refuses_assetFills hrefuses
      exact ⟨t, hmem, h⟩
    · rintro ⟨t, hmem, h⟩
      exact ⟨"target", t, hmem, (refuses_fillAddress t).mpr h⟩

theorem gives_constructBatchCall (call_set : List TypeToFill) :
    Gives (IsBatch call_set) (constructBatchCall con metadata call_set) ↔
      ExpressesBatch con metadata := by
  rw [IsBatch, constructBatchCall, gives_fillCall, ExpressesBatch]
  refine offersCall_congr fun fields => ?_
  rw [fillBatch.eq_def]
  split
  · next t =>
    refine gives_ok.trans ?_
    rw [fillCalls.eq_def]
    split
    · exact iff_of_true rfl ⟨_, rfl⟩
    · next hother =>
      refine iff_of_false (fun h => ?_) fun ⟨calls, h⟩ => ?_
      · exact hother _ (Prod.mk.inj (List.cons.inj h).1).2
      · exact hother _ (Prod.mk.inj (List.cons.inj h).1).2
  · next hother =>
    exact gives_ok.trans (iff_of_false (fun h => hother _ h) fun ⟨_, h⟩ => hother _ h)

theorem refuses_constructBatchCall (call_set : List TypeToFill) :
    Refuses (constructBatchCall con metadata call_set) ↔
      UnpreparedCall con metadata "Utility" "batch_all" fun _ => False := by
  rw [constructBatchCall, refuses_fillCall]
  refine unpreparedCall_congr fun fields => iff_of_false ?_ not_false
  rw [fillBatch.eq_def]
  split <;> exact not_refuses_ok

/-! ## The transaction -/

theorem refuses_fillAuthor {author : AccountId32} (t : TypeToFill) :
    Refuses (fillAuthor con metadata author t) ↔ UnpreparedAddress con metadata t := by
  rw [fillAuthor.eq_def]
  split
  · exact iff_of_false not_refuses_ok not_false
  · exact refuses_fillAddress _
  · next hother =>
    refine iff_of_false not_refuses_ok fun h => ?_
    cases t with
    | variant available_variants selected fields => exact hother _ _ _ rfl
    | composite | primitive | sequenceRegular | specialType | tuple | other => exact h

variable {genesis_hash : BlockHash} {author : AccountId32} {call_set : List TypeToFill}
  {block : BlockHash} {block_number nonce : UInt32}

theorem refuses_constructBatchTransaction :
    Refuses (constructBatchTransaction con metadata genesis_hash author call_set block
      block_number nonce) ↔ UnpreparedTransaction con metadata genesis_hash := by
  rw [constructBatchTransaction, refuses_bind, UnpreparedTransaction]
  cases con.init metadata genesis_hash with
  | error e => exact iff_of_true (.inl refuses_error) (.inl refuses_error)
  | ok transaction =>
    simp only [not_refuses_ok, false_or, gives_ok]
    rw [refuses_bind, refuses_fillAuthor, ← refuses_constructBatchCall call_set]
    cases hauthor : fillAuthor con metadata author transaction.author with
    | error e =>
      have h : Refuses (fillAuthor con metadata author transaction.author) := ⟨e, hauthor⟩
      rw [refuses_fillAuthor] at h
      exact iff_of_true (.inl h) (.inl h)
    | ok filled =>
      rw [gives_ok, refuses_bind]
      refine or_congr_right (or_iff_left ?_)
      rintro ⟨call, -, h⟩
      exact not_refuses_ok h

/-- Every transaction that is built is a batch of the calls, unless there is none. -/
theorem batch_of_constructBatchTransaction :
    (∀ transaction, constructBatchTransaction con metadata genesis_hash author call_set block
        block_number nonce = .ok transaction → IsBatch call_set transaction.call) ↔
      UnpreparedTransaction con metadata genesis_hash ∨ ExpressesBatch con metadata := by
  rw [forall_ok_iff, refuses_constructBatchTransaction]
  constructor
  · rintro (h | ⟨transaction, htransaction, hbatch⟩)
    · exact .inl h
    · refine .inr ((gives_constructBatchCall call_set).mp ?_)
      obtain ⟨prepared, -, -, hcall⟩ := constructBatchTransaction_ok _ _ htransaction
      exact ⟨_, hcall, hbatch⟩
  · rintro (h | h)
    · exact .inl h
    · obtain ⟨call, hcall, hbatch⟩ := (gives_constructBatchCall call_set).mpr h
      cases htransaction : constructBatchTransaction con metadata genesis_hash author call_set
          block block_number nonce with
      | error e => exact .inl (refuses_constructBatchTransaction.mp ⟨e, htransaction⟩)
      | ok transaction =>
        obtain ⟨prepared, -, -, hcall'⟩ := constructBatchTransaction_ok _ _ htransaction
        obtain rfl : call = transaction.call := Except.ok.inj (hcall.symm.trans hcall')
        exact .inr (gives_ok.mpr hbatch)

variable (con metadata genesis_hash author block block_number nonce) in
/-- What is asked for with a transfer is built, and where it cannot be expressed nothing is. -/
structure BuildsTransfer (transfer : Transfer) : Prop where
  built : ∀ call transaction, transfer.construct con metadata = .ok call →
    constructBatchTransaction con metadata genesis_hash author [call] block block_number nonce =
      .ok transaction → IsTransfer transfer call ∧ IsBatch [call] transaction.call
  refused : ¬Expresses con metadata transfer.kind → ∀ call,
    transfer.construct con metadata = .ok call →
      Refuses (constructBatchTransaction con metadata genesis_hash author [call] block
        block_number nonce)

/-- A builder builds what it is asked for, and nothing else, exactly where the metadata can
express it or the library refuses a type. -/
theorem buildsTransfer_iff (transfer : Transfer) :
    BuildsTransfer con metadata genesis_hash author block block_number nonce transfer ↔
      Expresses con metadata transfer.kind ∨
        Unreadable con metadata transfer.kind genesis_hash := by
  constructor
  · intro h
    by_cases hunreadable : Unreadable con metadata transfer.kind genesis_hash
    · exact .inr hunreadable
    · obtain ⟨htransfer, hbatch⟩ := not_or.mp hunreadable
      have hbuilt : ∀ call, transfer.construct con metadata = .ok call →
          IsTransfer transfer call ∧ ExpressesBatch con metadata := by
        intro call hcall
        cases htransaction : constructBatchTransaction con metadata genesis_hash author [call]
            block block_number nonce with
        | error e => exact absurd (refuses_constructBatchTransaction.mp ⟨e, htransaction⟩) hbatch
        | ok transaction =>
          obtain ⟨hasked, hcalls⟩ := h.built call transaction hcall htransaction
          obtain ⟨prepared, -, -, hcall⟩ := constructBatchTransaction_ok _ _ htransaction
          exact ⟨hasked, (gives_constructBatchCall [call]).mp ⟨_, hcall, hcalls⟩⟩
      rcases forall_ok_iff.mp hbuilt with hrefuses | ⟨call, hcall, hasked, hexpresses⟩
      · exact absurd ((refuses_construct transfer).mp hrefuses) htransfer
      · exact .inl ⟨(gives_construct transfer).mp ⟨call, hcall, hasked⟩, hexpresses⟩
  · rintro (⟨htransfer, hbatch⟩ | hunreadable)
    · have hasked : ∀ call, transfer.construct con metadata = .ok call →
          IsTransfer transfer call :=
        forall_ok_iff.mpr (.inr ((gives_construct transfer).mpr htransfer))
      refine ⟨fun call transaction hcall htransaction => ⟨hasked call hcall, ?_⟩, ?_⟩
      · exact batch_of_constructBatchTransaction.mpr (.inr hbatch) transaction htransaction
      · intro hnot
        exact absurd ⟨htransfer, hbatch⟩ hnot
    · have hrefused : ∀ call, transfer.construct con metadata = .ok call →
          Refuses (constructBatchTransaction con metadata genesis_hash author [call] block
            block_number nonce) := by
        intro call hcall
        rcases hunreadable with htransfer | hbatch
        · exact absurd hcall ((refuses_construct transfer).mpr htransfer).ne_ok
        · exact refuses_constructBatchTransaction.mpr hbatch
      refine ⟨fun call transaction hcall htransaction => ?_, fun _ => hrefused⟩
      exact absurd htransaction (hrefused call hcall).ne_ok

/-! ## A runtime without the pallet of the batches -/

/-- A payout of all that an account has becomes a remark. -/
theorem payout_becomes_remark :
    ¬BuildsTransfer (Sample.constructor Unit false) () ⟨Vector.replicate 32 0⟩ Sample.account
      ⟨Vector.replicate 32 0⟩ 0 0 (.native 0 Sample.account) := by
  intro h
  have hselected : ("System" == "Utility") = true := (h.built _ _ rfl rfl).2.1
  exact absurd hselected (by decide)

end Kalatori
