import Mathlib.Algebra.Group.Nat.Defs
import Mathlib.Data.List.Basic
import Mathlib.Logic.Function.Basic
import Mathlib.Tactic.Common

/-!
# Prefix codecs in the SCALE format

A codec here writes a value as bytes and reads one value off the front of a
byte string, handing back what it did not use.  The law `decode_encode` is the
prefix form of a round trip: it holds with arbitrary bytes behind the value,
which is what makes codecs compose by concatenation.

The formats are those of SCALE: fixed-width integers are little-endian, an
enumeration is its index byte, an optional value is a tag byte and the value, a
sequence is its compact length and its items, a string is the sequence of its
UTF-8 bytes.

* `Codec.pair`, `Codec.imap`, `Codec.option`, `Codec.seq`: the combinators.
* `Codec.compact`: lengths.
* `Codec.string`: strings.
* `Codec.encode_injective`: a codec separates values.
-/

namespace Scale

abbrev Bytes := List UInt8

/-- A prefix codec: `decode` reads one value off the front. -/
structure Codec (α : Type) where
  encode : α → Bytes
  decode : Bytes → Option (α × Bytes)
  decode_encode : ∀ a rest, decode (encode a ++ rest) = some (a, rest)

namespace Codec

variable {α β : Type}

attribute [simp] Codec.decode_encode

@[simp] theorem decode_encode_self (c : Codec α) (a : α) :
    c.decode (c.encode a) = some (a, []) := by
  simpa using c.decode_encode a []

/-- A codec separates values. -/
theorem encode_injective (c : Codec α) : Function.Injective c.encode := by
  intro a b h
  have hb := c.decode_encode_self b
  rw [← h, c.decode_encode_self] at hb
  exact congrArg Prod.fst (Option.some.inj hb)

@[simp] theorem encode_inj (c : Codec α) {a b : α} : c.encode a = c.encode b ↔ a = b :=
  c.encode_injective.eq_iff

/-! ## Combinators -/

/-- Concatenation. -/
def pair (c : Codec α) (d : Codec β) : Codec (α × β) where
  encode p := c.encode p.1 ++ d.encode p.2
  decode bs := (c.decode bs).bind fun p => (d.decode p.2).map fun q => ((p.1, q.1), q.2)
  decode_encode := by
    rintro ⟨a, b⟩ rest
    simp only [List.append_assoc, decode_encode, Option.bind_some, Option.map_some]

/-- A codec read through a pair of maps, the first undoing the second. -/
def imap (c : Codec α) (f : α → β) (g : β → α) (h : ∀ b, f (g b) = b) : Codec β where
  encode b := c.encode (g b)
  decode bs := (c.decode bs).map fun p => (f p.1, p.2)
  decode_encode := by
    intro b rest
    rw [decode_encode, Option.map_some, h]

/-- One byte. -/
def byte : Codec UInt8 where
  encode b := [b]
  decode
    | [] => none
    | b :: bs => some (b, bs)
  decode_encode _ _ := rfl

/-- An enumeration, by the index of its variant. -/
def enum (index : α → UInt8) (ofIndex : UInt8 → Option α)
    (h : ∀ a, ofIndex (index a) = some a) : Codec α where
  encode a := [index a]
  decode
    | [] => none
    | b :: bs => (ofIndex b).map fun a => (a, bs)
  decode_encode := by
    intro a rest
    simp only [List.singleton_append, h, Option.map_some]

/-- An optional value: the tag `0`, or the tag `1` and the value. -/
def option (c : Codec α) : Codec (Option α) where
  encode
    | none => [0]
    | some a => 1 :: c.encode a
  decode
    | [] => none
    | b :: bs =>
      if b = 0 then some (none, bs)
      else if b = 1 then (c.decode bs).map fun p => (some p.1, p.2)
      else none
  decode_encode := by
    intro a rest
    cases a with
    | none => rfl
    | some a =>
      show (c.decode (c.encode a ++ rest)).map _ = _
      rw [decode_encode, Option.map_some]

end Codec

/-! ## Little-endian integers -/

/-- The `w` low bytes of `v`, lowest first. -/
def encodeLE : ℕ → ℕ → Bytes
  | 0, _ => []
  | w + 1, v => UInt8.ofNat v :: encodeLE w (v / 256)

/-- The value of the first `w` bytes, lowest first. -/
def decodeLE : ℕ → Bytes → Option (ℕ × Bytes)
  | 0, bs => some (0, bs)
  | _ + 1, [] => none
  | w + 1, b :: bs => (decodeLE w bs).map fun p => (b.toNat + 256 * p.1, p.2)

theorem decodeLE_encodeLE (w v : ℕ) (rest : Bytes) (h : v < 256 ^ w) :
    decodeLE w (encodeLE w v ++ rest) = some (v, rest) := by
  induction w generalizing v with
  | zero =>
    have hv : v = 0 := by simpa using h
    rw [hv]
    rfl
  | succ w ih =>
    have hq : v / 256 < 256 ^ w := by
      rw [Nat.div_lt_iff_lt_mul (by decide), ← Nat.pow_succ]
      exact h
    have hb : (UInt8.ofNat v).toNat = v % 256 := UInt8.toNat_ofNat'
    rw [encodeLE, List.cons_append, decodeLE, ih _ hq, Option.map_some, hb]
    congr 2
    omega

namespace Codec

/-- `u16`. -/
def u16 : Codec UInt16 where
  encode n := encodeLE 2 n.toNat
  decode bs := (decodeLE 2 bs).map fun p => (UInt16.ofNat p.1, p.2)
  decode_encode := by
    intro n rest
    rw [decodeLE_encodeLE _ _ _ (by simpa using n.toNat_lt), Option.map_some,
      UInt16.ofNat_toNat]

/-- `u32`. -/
def u32 : Codec UInt32 where
  encode n := encodeLE 4 n.toNat
  decode bs := (decodeLE 4 bs).map fun p => (UInt32.ofNat p.1, p.2)
  decode_encode := by
    intro n rest
    rw [decodeLE_encodeLE _ _ _ (by simpa using n.toNat_lt), Option.map_some,
      UInt32.ofNat_toNat]

/-- `u64`. -/
def u64 : Codec UInt64 where
  encode n := encodeLE 8 n.toNat
  decode bs := (decodeLE 8 bs).map fun p => (UInt64.ofNat p.1, p.2)
  decode_encode := by
    intro n rest
    rw [decodeLE_encodeLE _ _ _ (by simpa using n.toNat_lt), Option.map_some,
      UInt64.ofNat_toNat]

end Codec

/-! ## Compact lengths

The two low bits of the first byte are the mode.  Lengths from `2 ^ 32` on, which
an encoder of a 32-bit length refuses, are continued here in unary behind a
prefix that no shorter length uses, so that the codec is total. -/

/-- Ones up to the first other byte. -/
def countOnes : Bytes → Option (ℕ × Bytes)
  | [] => none
  | b :: bs => if b = 1 then (countOnes bs).map fun p => (p.1 + 1, p.2) else some (0, bs)

theorem countOnes_replicate (n : ℕ) (rest : Bytes) :
    countOnes (List.replicate n 1 ++ 0 :: rest) = some (n, rest) := by
  induction n with
  | zero => rfl
  | succ n ih =>
    rw [List.replicate_succ, List.cons_append, countOnes, if_pos rfl, ih, Option.map_some]

def encodeCompact (n : ℕ) : Bytes :=
  if n < 2 ^ 6 then [UInt8.ofNat (4 * n)]
  else if n < 2 ^ 14 then encodeLE 2 (4 * n + 1)
  else if n < 2 ^ 30 then encodeLE 4 (4 * n + 2)
  else if n < 2 ^ 32 then 3 :: encodeLE 4 n
  else 7 :: (List.replicate n 1 ++ [0])

/-- A decoded length is refused when a shorter mode would have done. -/
def refuseBelow (least : ℕ) (p : ℕ × Bytes) : Option (ℕ × Bytes) :=
  if least ≤ p.1 then some p else none

def decodeCompact : Bytes → Option (ℕ × Bytes)
  | [] => none
  | b :: bs =>
    if b.toNat % 4 = 0 then some (b.toNat / 4, bs)
    else if b.toNat % 4 = 1 then
      (decodeLE 2 (b :: bs)).bind fun p => refuseBelow (2 ^ 6) (p.1 / 4, p.2)
    else if b.toNat % 4 = 2 then
      (decodeLE 4 (b :: bs)).bind fun p => refuseBelow (2 ^ 14) (p.1 / 4, p.2)
    else if b = 3 then (decodeLE 4 bs).bind (refuseBelow (2 ^ 30))
    else if b = 7 then (countOnes bs).bind (refuseBelow (2 ^ 32))
    else none

/-- The mode of a multi-byte length is in its first byte. -/
theorem encodeLE_mode (w v : ℕ) :
    ∃ b bs, encodeLE (w + 1) v = b :: bs ∧ b.toNat % 4 = v % 4 := by
  refine ⟨UInt8.ofNat v, encodeLE w (v / 256), rfl, ?_⟩
  rw [UInt8.toNat_ofNat']
  omega

theorem decodeCompact_encodeCompact (n : ℕ) (rest : Bytes) :
    decodeCompact (encodeCompact n ++ rest) = some (n, rest) := by
  unfold encodeCompact
  split_ifs with h6 h14 h30 h32
  · have hb : (UInt8.ofNat (4 * n)).toNat = 4 * n := by
      rw [UInt8.toNat_ofNat', Nat.mod_eq_of_lt (by omega)]
    rw [List.singleton_append, decodeCompact, hb, if_pos (by omega)]
    congr 2
    omega
  · obtain ⟨b, bs, hbs, hmode⟩ := encodeLE_mode 1 (4 * n + 1)
    have hdec := decodeLE_encodeLE 2 (4 * n + 1) rest (by omega)
    rw [hbs, List.cons_append] at hdec ⊢
    rw [decodeCompact, if_neg (by omega), if_pos (by omega), hdec, Option.bind_some,
      refuseBelow, if_pos (by omega)]
    congr 2
    omega
  · obtain ⟨b, bs, hbs, hmode⟩ := encodeLE_mode 3 (4 * n + 2)
    have hdec := decodeLE_encodeLE 4 (4 * n + 2) rest (by omega)
    rw [hbs, List.cons_append] at hdec ⊢
    rw [decodeCompact, if_neg (by omega), if_neg (by omega), if_pos (by omega), hdec,
      Option.bind_some, refuseBelow, if_pos (by omega)]
    congr 2
    omega
  · have h3 : (3 : UInt8).toNat % 4 = 3 := rfl
    rw [List.cons_append, decodeCompact, h3, if_neg (by omega), if_neg (by omega),
      if_neg (by omega), if_pos rfl, decodeLE_encodeLE 4 n rest (by omega), Option.bind_some,
      refuseBelow, if_pos (by simpa using h30)]
  · have h7 : (7 : UInt8).toNat % 4 = 3 := rfl
    rw [List.cons_append, decodeCompact, h7, if_neg (by omega), if_neg (by omega),
      if_neg (by omega), if_neg (by decide), if_pos rfl, List.append_assoc,
      List.singleton_append, countOnes_replicate, Option.bind_some, refuseBelow,
      if_pos (by simpa using h32)]

namespace Codec

variable {α : Type}

/-- The length of a sequence. -/
def compact : Codec ℕ where
  encode := encodeCompact
  decode := decodeCompact
  decode_encode := decodeCompact_encodeCompact

/-! ## Sequences and strings -/

/-- `n` items in a row. -/
def decodeMany (c : Codec α) : ℕ → Bytes → Option (List α × Bytes)
  | 0, bs => some ([], bs)
  | n + 1, bs =>
    (c.decode bs).bind fun p => (decodeMany c n p.2).map fun q => (p.1 :: q.1, q.2)

theorem decodeMany_flatMap (c : Codec α) (l : List α) (rest : Bytes) :
    decodeMany c l.length (l.flatMap c.encode ++ rest) = some (l, rest) := by
  induction l with
  | nil => rfl
  | cons a l ih =>
    rw [List.length_cons, List.flatMap_cons, List.append_assoc, decodeMany, decode_encode,
      Option.bind_some, ih, Option.map_some]

/-- A sequence: its length, then its items. -/
def seq (c : Codec α) : Codec (List α) where
  encode l := compact.encode l.length ++ l.flatMap c.encode
  decode bs := (compact.decode bs).bind fun p => decodeMany c p.1 p.2
  decode_encode := by
    intro l rest
    rw [List.append_assoc, compact.decode_encode, Option.bind_some, decodeMany_flatMap]

/-- The bytes of a string, which is not their encoding. -/
def rawBytes (s : String) : Bytes := s.toUTF8.data.toList

theorem fromUTF8?_rawBytes (s : String) :
    String.fromUTF8? ⟨(rawBytes s).toArray⟩ = some s := by
  unfold rawBytes String.fromUTF8?
  rw [Array.toArray_toList]
  exact dif_pos s.isValidUTF8

/-- A string: its length in bytes, then its bytes; the bytes read have to be UTF-8. -/
def string : Codec String where
  encode s := compact.encode (rawBytes s).length ++ rawBytes s
  decode bs := (compact.decode bs).bind fun p =>
    if p.2.length < p.1 then none
    else (String.fromUTF8? ⟨(p.2.take p.1).toArray⟩).map fun s => (s, p.2.drop p.1)
  decode_encode := by
    intro s rest
    rw [List.append_assoc, compact.decode_encode, Option.bind_some,
      if_neg (by simp), List.take_left, List.drop_left, fromUTF8?_rawBytes, Option.map_some]

end Codec

end Scale
