import Mathlib.Data.Fin.VecNotation
import Mathlib.Data.ZMod.Defs

/-!
# Field elements, words and the values encoded in them

The chain computes in the field of order `p = 2^64 - 2^32 + 1`. A felt is its
canonical representative, so `Fin` has the arithmetic of the chain: subtraction
wraps modulo `p`, comparison is on representatives.
-/

namespace Bartok.Miden

/-- The field order `2^64 - 2^32 + 1`. -/
abbrev modulus : ℕ := 18446744069414584321

instance : NeZero modulus := ⟨by decide⟩

abbrev Felt := Fin modulus

/-- `Felt::new`: rejects a `u64` that is not canonical. -/
def Felt.new (v : ℕ) : Option Felt :=
  if h : v < modulus then some ⟨v, h⟩ else none

/-- `as_canonical_u64`. -/
abbrev Felt.asCanonicalU64 (f : Felt) : ℕ := f.val

abbrev Word := Fin 4 → Felt

structure AccountId where
  prefixFelt : Felt
  suffixFelt : Felt
deriving DecidableEq

/-- `NoteType`: a private note is encoded as 0, a public one as 1. -/
inductive NoteType
  | privateNote
  | publicNote
deriving DecidableEq

def Felt.ofNoteType : NoteType → Felt
  | .privateNote => 0
  | .publicNote => 1

/-- A note tag is a `u32`. -/
def Felt.ofNoteTag (tag : UInt32) : Felt :=
  ⟨tag.toNat, lt_trans tag.toNat_lt (by decide)⟩

/-- A fungible asset as the kernel stores it: its amount is the first felt of
the value word. -/
structure Asset where
  key : Word
  value : Word
deriving DecidableEq

theorem Felt.new_of_lt {v : ℕ} (h : v < modulus) : Felt.new v = some ⟨v, h⟩ := by
  rw [Felt.new, dif_pos h]

/-- No wrap: subtracting a representative that is not larger is subtraction of
integers. -/
theorem Felt.sub_val_add {a b : Felt} (h : b.val ≤ a.val) : b.val + (a - b).val = a.val := by
  rw [Fin.sub_val_of_le h]
  omega

end Bartok.Miden
