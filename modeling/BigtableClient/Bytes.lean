import Mathlib

/-!
# Byte strings and their order

Row keys, qualifiers and values are raw byte strings.  `Bytes` compares slices
the way Rust does: unsigned and lexicographic, a proper prefix first.  The empty
string is the least one, which is what makes an empty bound "unbounded".
-/

namespace BigtableClient

instance instLinearOrderUInt8 : LinearOrder UInt8 where
  le_refl := UInt8.le_refl
  le_trans _ _ _ := UInt8.le_trans
  le_antisymm _ _ := UInt8.le_antisymm
  le_total := UInt8.le_total
  lt_iff_le_not_ge a b := by
    simp only [UInt8.le_iff_toNat_le, UInt8.lt_iff_toNat_lt]
    omega
  toDecidableLE := inferInstance
  toDecidableLT := inferInstance
  toDecidableEq := inferInstance

/-- A raw byte string (`bytes::Bytes`, `&[u8]`). -/
abbrev Bytes := List UInt8

instance : OrderBot Bytes where
  bot := []
  bot_le bytes := by
    cases bytes with
    | nil => exact le_rfl
    | cons byte rest => exact le_of_lt (List.nil_lt_cons byte rest)

theorem nil_lt_iff {key : Bytes} : ([] : Bytes) < key ↔ key ≠ [] :=
  bot_lt_iff_ne_bot

theorem nil_le (key : Bytes) : ([] : Bytes) ≤ key :=
  bot_le

theorem le_nil_iff {key : Bytes} : key ≤ [] ↔ key = [] :=
  le_bot_iff

end BigtableClient
