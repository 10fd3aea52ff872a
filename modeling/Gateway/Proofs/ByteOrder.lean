/-
Module: Gateway.Proofs.ByteOrder
Layer: Proofs
Purpose: Texts are ordered as their bytes are (`Utf8.encode_lt_encode`).  A wider character opens
  with a larger byte than a narrower one, and of two characters of one width the larger has the
  larger byte where their bytes first differ.
Main exports: Utf8.utf8EncodeChar_append_lt, Utf8.encode_lt_encode
-/
import Gateway.Proofs.Utf8

namespace Gateway.Utf8

variable {s t : List UInt8}

/-- Sequences of bytes are told apart by the first byte in which they differ. -/
theorem ofNat_cons_lt {m n : Nat} (hn : n < 0x100) (h : m < n ∨ m = n ∧ s < t) :
    UInt8.ofNat m :: s < UInt8.ofNat n :: t := by
  rcases h with h | ⟨rfl, h⟩
  · apply List.cons_lt_cons_iff.2
    left
    rw [UInt8.lt_iff_toNat_lt, UInt8.toNat_ofNat', UInt8.toNat_ofNat']
    omega
  · exact List.cons_lt_cons_iff.2 (Or.inr ⟨rfl, h⟩)

/-- Two characters of two bytes each. -/
theorem two_lt {v w : Nat} (h : v < w) (hw : w ≤ 0x7FF) :
    UInt8.ofNat (v / 64 % 32 + 192) :: UInt8.ofNat (v % 64 + 128) :: s <
      UInt8.ofNat (w / 64 % 32 + 192) :: UInt8.ofNat (w % 64 + 128) :: t := by
  apply ofNat_cons_lt (by omega)
  by_cases hlead : v / 64 < w / 64
  · exact Or.inl (by omega)
  · exact Or.inr ⟨by omega, ofNat_cons_lt (by omega) (Or.inl (by omega))⟩

/-- Two characters of three bytes each. -/
theorem three_lt {v w : Nat} (h : v < w) (hw : w ≤ 0xFFFF) :
    UInt8.ofNat (v / 4096 % 16 + 224) :: UInt8.ofNat (v / 64 % 64 + 128) ::
        UInt8.ofNat (v % 64 + 128) :: s <
      UInt8.ofNat (w / 4096 % 16 + 224) :: UInt8.ofNat (w / 64 % 64 + 128) ::
        UInt8.ofNat (w % 64 + 128) :: t := by
  apply ofNat_cons_lt (by omega)
  by_cases hlead : v / 4096 < w / 4096
  · exact Or.inl (by omega)
  refine Or.inr ⟨by omega, ofNat_cons_lt (by omega) ?_⟩
  by_cases hnext : v / 64 < w / 64
  · exact Or.inl (by omega)
  · exact Or.inr ⟨by omega, ofNat_cons_lt (by omega) (Or.inl (by omega))⟩

/-- Two characters of four bytes each. -/
theorem four_lt {v w : Nat} (h : v < w) (hw : w < 0x110000) :
    UInt8.ofNat (v / 262144 % 8 + 240) :: UInt8.ofNat (v / 4096 % 64 + 128) ::
        UInt8.ofNat (v / 64 % 64 + 128) :: UInt8.ofNat (v % 64 + 128) :: s <
      UInt8.ofNat (w / 262144 % 8 + 240) :: UInt8.ofNat (w / 4096 % 64 + 128) ::
        UInt8.ofNat (w / 64 % 64 + 128) :: UInt8.ofNat (w % 64 + 128) :: t := by
  apply ofNat_cons_lt (by omega)
  by_cases hlead : v / 262144 < w / 262144
  · exact Or.inl (by omega)
  refine Or.inr ⟨by omega, ofNat_cons_lt (by omega) ?_⟩
  by_cases hnext : v / 4096 < w / 4096
  · exact Or.inl (by omega)
  refine Or.inr ⟨by omega, ofNat_cons_lt (by omega) ?_⟩
  by_cases hlast : v / 64 < w / 64
  · exact Or.inl (by omega)
  · exact Or.inr ⟨by omega, ofNat_cons_lt (by omega) (Or.inl (by omega))⟩

/-- The bytes of the smaller of two characters come first, whatever follows. -/
theorem utf8EncodeChar_append_lt {c d : Char} (h : c < d) :
    String.utf8EncodeChar c ++ s < String.utf8EncodeChar d ++ t := by
  have hlt : c.val.toNat < d.val.toNat := UInt32.lt_iff_toNat_lt.1 h
  have hlast : d.val.toNat < 0x110000 := by
    rcases d.valid with hlow | ⟨_, hhigh⟩
    · exact Nat.lt_trans hlow (by decide)
    · exact hhigh
  unfold String.utf8EncodeChar
  generalize c.val.toNat = v at hlt
  generalize d.val.toNat = w at hlt hlast
  dsimp only
  by_cases hone : w ≤ 0x7F
  · rw [if_pos (by omega : v ≤ 0x7F), if_pos hone]
    exact ofNat_cons_lt (by omega) (Or.inl hlt)
  by_cases htwo : w ≤ 0x7FF
  · rw [if_neg hone, if_pos htwo]
    split
    · exact ofNat_cons_lt (by omega) (Or.inl (by omega))
    · rw [if_pos (by omega : v ≤ 0x7FF)]
      exact two_lt hlt htwo
  by_cases hthree : w ≤ 0xFFFF
  · rw [if_neg hone, if_neg htwo, if_pos hthree]
    split
    · exact ofNat_cons_lt (by omega) (Or.inl (by omega))
    split
    · exact ofNat_cons_lt (by omega) (Or.inl (by omega))
    · rw [if_pos (by omega : v ≤ 0xFFFF)]
      exact three_lt hlt hthree
  · rw [if_neg hone, if_neg htwo, if_neg hthree]
    split
    · exact ofNat_cons_lt (by omega) (Or.inl (by omega))
    split
    · exact ofNat_cons_lt (by omega) (Or.inl (by omega))
    split
    · exact ofNat_cons_lt (by omega) (Or.inl (by omega))
    · exact four_lt hlt hlast

/-- Texts are ordered as their bytes are. -/
theorem encode_lt_encode {a b : String} (h : a < b) : encode a < encode b := by
  have hlists : ∀ {cs ds : List Char}, cs < ds →
      cs.flatMap String.utf8EncodeChar < ds.flatMap String.utf8EncodeChar := by
    intro cs ds hlt
    induction hlt with
    | @nil d ds =>
        obtain ⟨b, rest, hb⟩ := List.exists_cons_of_ne_nil (String.utf8EncodeChar_ne_nil (c := d))
        rw [List.flatMap_cons, hb]
        exact .nil
    | rel hlt => exact utf8EncodeChar_append_lt hlt
    | cons _ ih => exact List.append_left_lt ih
  have hchars : a.toList < b.toList := h
  exact hlists hchars

end Gateway.Utf8
