/-
Module: Gateway.Proofs.Utf8
Layer: Proofs
Purpose: Text as bytes and back.  Text that was written is read back character by character
  (`Utf8.decodeLossy_encode`).  Bytes that were not written as text are read all the same, but
  nothing within ASCII is made up: such a character is read only where its byte stands
  (`Utf8.byte_mem_of_mem_decodeLossy`).
Main exports: Utf8.units_encode, Utf8.decodeLossy_encode, Utf8.encode_append,
  Utf8.length_le_utf8ByteSize, Utf8.encode_ofList_ascii, Utf8.le_of_mem_utf8EncodeChar,
  Utf8.byte_mem_of_mem_decodeLossy
-/
import Mathlib.Algebra.Group.Nat.Defs
import Gateway.Text.Utf8

namespace Gateway.Utf8

/-! ### Writing -/

theorem encode_append (s t : String) : encode (s ++ t) = encode s ++ encode t := by
  rw [encode, String.toList_append, List.flatMap_append]
  rfl

/-- The bytes of characters within ASCII: one each. -/
def single (text : List Char) : List UInt8 :=
  text.map fun c => UInt8.ofNat c.toNat

theorem utf8EncodeChar_ascii {c : Char} (h : c.toNat < 0x80) :
    String.utf8EncodeChar c = [UInt8.ofNat c.toNat] := by
  rw [String.utf8EncodeChar]
  exact if_pos (Nat.le_of_lt_succ h)

/-- A character outside ASCII is written in bytes outside ASCII. -/
theorem le_of_mem_utf8EncodeChar {c : Char} (h : 0x80 ≤ c.toNat) {b : UInt8}
    (hb : b ∈ String.utf8EncodeChar c) : 0x80 ≤ b.toNat := by
  rw [String.utf8EncodeChar] at hb
  split at hb
  · rename_i hone
    change c.toNat ≤ 0x7F at hone
    omega
  -- every byte of the longer forms is a mark and some bits below it
  have hbyte : ∃ n width mark, 0x80 ≤ mark ∧ 0 < width ∧ width + mark ≤ 0x100 ∧
      b = UInt8.ofNat (n % width + mark) := by
    split at hb
    · simp only [List.mem_cons, List.not_mem_nil, or_false] at hb
      rcases hb with hb | hb <;> exact ⟨_, _, _, by decide, by decide, by decide, hb⟩
    split at hb
    · simp only [List.mem_cons, List.not_mem_nil, or_false] at hb
      rcases hb with hb | hb | hb <;> exact ⟨_, _, _, by decide, by decide, by decide, hb⟩
    · simp only [List.mem_cons, List.not_mem_nil, or_false] at hb
      rcases hb with hb | hb | hb | hb <;> exact ⟨_, _, _, by decide, by decide, by decide, hb⟩
  obtain ⟨n, width, mark, hmark, hwidth, hsum, rfl⟩ := hbyte
  have hrest := Nat.mod_lt n hwidth
  rw [UInt8.toNat_ofNat', Nat.mod_eq_of_lt (by omega)]
  omega

theorem length_le_utf8ByteSize (s : List Char) : s.length ≤ (String.ofList s).utf8ByteSize := by
  induction s with
  | nil => exact Nat.zero_le _
  | cons c s ih =>
      have hpos := c.utf8Size_pos
      rw [String.ofList_cons, String.utf8ByteSize_append, String.utf8ByteSize_singleton,
        List.length_cons]
      omega

theorem encode_ofList_ascii {text : List Char} (h : ∀ c ∈ text, c.toNat < 0x80) :
    encode (String.ofList text) = single text := by
  rw [encode, String.toList_ofList]
  induction text with
  | nil => rfl
  | cons c rest ih =>
    rw [List.forall_mem_cons] at h
    rw [List.flatMap_cons, utf8EncodeChar_ascii h.1, ih h.2]
    rfl

/-! ### One byte -/

/-- What holds of the bytes of all numbers below 256 holds of all bytes. -/
theorem forall_byte {P : UInt8 → Prop} (h : ∀ n < 0x100, P (UInt8.ofNat n)) (b : UInt8) : P b := by
  have hb := h b.toNat b.toNat_lt
  rwa [UInt8.ofNat_toNat] at hb

theorem opening_ascii : ∀ n < 0x80,
    opening (UInt8.ofNat n) = ([some (Char.ofNat n)], .boundary) := by
  decide +kernel

theorem opening_two : ∀ n < 0x20, 2 ≤ n →
    opening (UInt8.ofNat (n + 0xC0)) = ([], .inside 0 0x80 0xBF n) := by
  decide +kernel

theorem opening_three : ∀ n < 0x10,
    opening (UInt8.ofNat (n + 0xE0)) =
      ([], .inside 1 (if n = 0 then 0xA0 else 0x80) (if n = 13 then 0x9F else 0xBF) n) := by
  decide +kernel

theorem opening_four : ∀ n < 5,
    opening (UInt8.ofNat (n + 0xF0)) =
      ([], .inside 2 (if n = 0 then 0x90 else 0x80) (if n = 4 then 0x8F else 0xBF) n) := by
  decide +kernel

/-- The byte that continues a sequence with the six bits `d`. -/
theorem advance_inside {owed value d : Nat} {low high : UInt8} (hd : d < 64)
    (hlow : low.toNat ≤ d + 0x80) (hhigh : d + 0x80 ≤ high.toNat) :
    advance (.inside owed low high value) (UInt8.ofNat (d + 0x80)) =
      match owed with
      | 0 => ([some (Char.ofNat (value * 64 + d))], .boundary)
      | owed + 1 => ([], .inside owed 0x80 0xBF (value * 64 + d)) := by
  have hb : (UInt8.ofNat (d + 0x80)).toNat = d + 0x80 := by
    rw [UInt8.toNat_ofNat']
    omega
  have hin : (low ≤ UInt8.ofNat (d + 0x80) && UInt8.ofNat (d + 0x80) ≤ high) = true := by
    rw [Bool.and_eq_true, decide_eq_true_eq, decide_eq_true_eq, UInt8.le_iff_toNat_le,
      UInt8.le_iff_toNat_le, hb]
    exact ⟨hlow, hhigh⟩
  have hbits : (d + 0x80) % 64 = d := by omega
  cases owed with
  | zero => simp only [advance, if_pos hin, hb, hbits]
  | succ owed => simp only [advance, if_pos hin, hb, hbits]

/-! ### Reading what was written -/

theorem unitsFrom_last {value d : Nat} {low high : UInt8} (hd : d < 64)
    (hlow : low.toNat ≤ d + 0x80) (hhigh : d + 0x80 ≤ high.toNat) (rest : List UInt8) :
    unitsFrom (.inside 0 low high value) (UInt8.ofNat (d + 0x80) :: rest) =
      some (Char.ofNat (value * 64 + d)) :: units rest := by
  rw [unitsFrom, advance_inside hd hlow hhigh]
  rfl

theorem unitsFrom_next {owed value d : Nat} {low high : UInt8} (hd : d < 64)
    (hlow : low.toNat ≤ d + 0x80) (hhigh : d + 0x80 ≤ high.toNat) (rest : List UInt8) :
    unitsFrom (.inside (owed + 1) low high value) (UInt8.ofNat (d + 0x80) :: rest) =
      unitsFrom (.inside owed 0x80 0xBF (value * 64 + d)) rest := by
  rw [unitsFrom, advance_inside hd hlow hhigh]
  rfl

theorem units_cons (b : UInt8) (rest : List UInt8) :
    units (b :: rest) = (opening b).1 ++ unitsFrom (opening b).2 rest := rfl

section Sequences

variable {v : Nat} (rest : List UInt8)

theorem units_two (hv : 0x80 ≤ v) (hv' : v ≤ 0x7FF) :
    units (UInt8.ofNat (v / 64 % 32 + 192) :: UInt8.ofNat (v % 64 + 128) :: rest) =
      some (Char.ofNat v) :: units rest := by
  have hlead : v / 64 % 32 = v / 64 := by omega
  have hvalue : v / 64 * 64 + v % 64 = v := by omega
  have hlow : (0x80 : UInt8).toNat = 0x80 := rfl
  have hhigh : (0xBF : UInt8).toNat = 0xBF := rfl
  rw [hlead, units_cons, opening_two (v / 64) (by omega) (by omega), List.nil_append,
    unitsFrom_last (by omega) (by omega) (by omega), hvalue]

theorem units_three (hv : 0x800 ≤ v) (hv' : v ≤ 0xFFFF) (hvalid : v < 0xD800 ∨ 0xDFFF < v) :
    units (UInt8.ofNat (v / 4096 % 16 + 224) :: UInt8.ofNat (v / 64 % 64 + 128) ::
      UInt8.ofNat (v % 64 + 128) :: rest) = some (Char.ofNat v) :: units rest := by
  have hlead : v / 4096 % 16 = v / 4096 := by omega
  have hvalue : (v / 4096 * 64 + v / 64 % 64) * 64 + v % 64 = v := by omega
  have hlow : (0x80 : UInt8).toNat = 0x80 := rfl
  have hhigh : (0xBF : UInt8).toNat = 0xBF := rfl
  -- a first byte of 0xE0 leaves only the upper half of the second bytes, 0xED only the lower
  have hlow' : (if v / 4096 = 0 then 0xA0 else 0x80 : UInt8).toNat ≤ v / 64 % 64 + 0x80 := by
    split
    · change 0xA0 ≤ _
      omega
    · omega
  have hhigh' : v / 64 % 64 + 0x80 ≤ (if v / 4096 = 13 then 0x9F else 0xBF : UInt8).toNat := by
    split
    · change _ ≤ 0x9F
      omega
    · omega
  rw [hlead, units_cons, opening_three (v / 4096) (by omega), List.nil_append,
    unitsFrom_next (by omega) hlow' hhigh', unitsFrom_last (by omega) (by omega) (by omega),
    hvalue]

theorem units_four (hv : 0x10000 ≤ v) (hv' : v < 0x110000) :
    units (UInt8.ofNat (v / 262144 % 8 + 240) :: UInt8.ofNat (v / 4096 % 64 + 128) ::
      UInt8.ofNat (v / 64 % 64 + 128) :: UInt8.ofNat (v % 64 + 128) :: rest) =
      some (Char.ofNat v) :: units rest := by
  have hlead : v / 262144 % 8 = v / 262144 := by omega
  have hvalue : ((v / 262144 * 64 + v / 4096 % 64) * 64 + v / 64 % 64) * 64 + v % 64 = v := by
    omega
  have hlow : (0x80 : UInt8).toNat = 0x80 := rfl
  have hhigh : (0xBF : UInt8).toNat = 0xBF := rfl
  have hlow' : (if v / 262144 = 0 then 0x90 else 0x80 : UInt8).toNat ≤ v / 4096 % 64 + 0x80 := by
    split
    · change 0x90 ≤ _
      omega
    · omega
  have hhigh' : v / 4096 % 64 + 0x80 ≤ (if v / 262144 = 4 then 0x8F else 0xBF : UInt8).toNat := by
    split
    · change _ ≤ 0x8F
      omega
    · omega
  rw [hlead, units_cons, opening_four (v / 262144) (by omega), List.nil_append,
    unitsFrom_next (by omega) hlow' hhigh', unitsFrom_next (by omega) (by omega) (by omega),
    unitsFrom_last (by omega) (by omega) (by omega), hvalue]

end Sequences

/-- A character that was written is the first unit that is read. -/
theorem units_encodeChar (c : Char) (rest : List UInt8) :
    units (String.utf8EncodeChar c ++ rest) = some c :: units rest := by
  have hvalid : c.val.toNat < 0xD800 ∨ 0xDFFF < c.val.toNat ∧ c.val.toNat < 0x110000 := c.valid
  have hc : some c = some (Char.ofNat c.val.toNat) := congrArg some (Char.ofNat_toNat c).symm
  rw [hc, String.utf8EncodeChar]
  generalize c.val.toNat = v at hvalid
  by_cases hone : v ≤ 0x7F
  · rw [if_pos hone, List.singleton_append, units_cons, opening_ascii v (by omega)]
    rfl
  by_cases htwo : v ≤ 0x7FF
  · rw [if_neg hone, if_pos htwo]
    exact units_two rest (by omega) htwo
  by_cases hthree : v ≤ 0xFFFF
  · rw [if_neg hone, if_neg htwo, if_pos hthree]
    exact units_three rest (by omega) hthree (by omega)
  · rw [if_neg hone, if_neg htwo, if_neg hthree]
    exact units_four rest (by omega) (by omega)

/-- Text that was written is read back character by character. -/
theorem units_encode (text : String) : units (encode text) = text.toList.map some := by
  rw [encode]
  induction text.toList with
  | nil => rfl
  | cons c rest ih => rw [List.flatMap_cons, units_encodeChar, ih, List.map_cons]

theorem decodeLossy_encode (text : String) : decodeLossy (encode text) = text := by
  rw [decodeLossy, units_encode, List.map_map]
  simp [Function.comp_def]

/-! ### What bytes are read as -/

theorem toNat_ofNat_of_valid {n : Nat} (h : n.isValidChar) : (Char.ofNat n).toNat = n := by
  rw [Char.ofNat, dif_pos h]
  rfl

/-- A standing whose open sequence, if there is one, comes to a character outside ASCII however it
goes on: all numbers that it can still come to are such characters. -/
def Progress.Wide : Progress → Prop
  | .boundary => True
  | .inside owed low high value =>
    let first := (value * 64 + low.toNat % 64) * 64 ^ owed
    let stop := (value * 64 + high.toNat % 64 + 1) * 64 ^ owed
    0x80 ≤ low.toNat ∧ high.toNat ≤ 0xBF ∧ 0x80 ≤ first ∧
      (stop ≤ 0xD800 ∨ 0xE000 ≤ first ∧ stop ≤ 0x110000)

instance : (p : Progress) → Decidable p.Wide
  | .boundary => inferInstanceAs (Decidable True)
  | .inside .. => inferInstanceAs (Decidable (_ ∧ _))

theorem wide_opening : ∀ b, (opening b).2.Wide :=
  forall_byte (by decide +kernel)

/-- A first byte yields no character but itself. -/
theorem opening_units (b : UInt8) : ∀ u ∈ (opening b).1, ∀ c ∈ u, UInt8.ofNat c.toNat = b := by
  have hall : ∀ b, (opening b).1.all (·.all fun c => UInt8.ofNat c.toNat == b) = true :=
    forall_byte (by decide +kernel)
  intro u hu c hc
  have hu := List.all_eq_true.1 (hall b) u hu
  rw [Option.mem_def.1 hc] at hu
  exact beq_iff_eq.1 hu

/-- A byte within the range of an open sequence leaves fewer numbers to come to. -/
theorem Progress.Wide.next {owed value d : Nat} {low high : UInt8}
    (h : (Progress.inside (owed + 1) low high value).Wide) (hlow : low.toNat % 64 ≤ d)
    (hhigh : d ≤ high.toNat % 64) : (Progress.inside owed 0x80 0xBF (value * 64 + d)).Wide := by
  have hleast : (0x80 : UInt8).toNat = 0x80 := rfl
  have hmost : (0xBF : UInt8).toNat = 0xBF := rfl
  have hfirst : (value * 64 + low.toNat % 64) * 64 ^ (owed + 1) ≤
      (value * 64 + d) * 64 * 64 ^ owed := by
    rw [Nat.pow_succ, Nat.mul_comm (64 ^ owed), ← Nat.mul_assoc]
    exact Nat.mul_le_mul_right _ (Nat.mul_le_mul_right _ (Nat.add_le_add_left hlow _))
  have hstop : (value * 64 + d + 1) * 64 * 64 ^ owed ≤
      (value * 64 + high.toNat % 64 + 1) * 64 ^ (owed + 1) := by
    rw [Nat.pow_succ, Nat.mul_comm (64 ^ owed), ← Nat.mul_assoc]
    exact Nat.mul_le_mul_right _ (Nat.mul_le_mul_right _ (by omega))
  have hleast' : (value * 64 + d) * 64 + 0x80 % 64 = (value * 64 + d) * 64 := by omega
  have hmost' : (value * 64 + d) * 64 + 0xBF % 64 + 1 = (value * 64 + d + 1) * 64 := by omega
  simp only [Progress.Wide, hleast, hmost, hleast', hmost'] at h ⊢
  omega

/-- The byte that completes a sequence yields a character outside ASCII. -/
theorem Progress.Wide.last {value d : Nat} {low high : UInt8}
    (h : (Progress.inside 0 low high value).Wide) (hlow : low.toNat % 64 ≤ d)
    (hhigh : d ≤ high.toNat % 64) : 0x80 ≤ (Char.ofNat (value * 64 + d)).toNat := by
  simp only [Progress.Wide, Nat.pow_zero, Nat.mul_one] at h
  have hvalid : (value * 64 + d).isValidChar := by
    rw [Nat.isValidChar]
    omega
  rw [toNat_ofNat_of_valid hvalid]
  omega

theorem Progress.Wide.advance {p : Progress} (h : p.Wide) (b : UInt8) :
    (advance p b).2.Wide ∧
      ∀ c, some c ∈ (Utf8.advance p b).1 → 0x80 ≤ c.toNat ∨ UInt8.ofNat c.toNat = b := by
  cases p with
  | boundary => exact ⟨wide_opening b, fun c hc => Or.inr (opening_units b _ hc c rfl)⟩
  | inside owed low high value =>
    rw [Utf8.advance]
    split
    · rename_i hin
      rw [Bool.and_eq_true, decide_eq_true_eq, decide_eq_true_eq, UInt8.le_iff_toNat_le,
        UInt8.le_iff_toNat_le] at hin
      have hrange : 0x80 ≤ low.toNat ∧ high.toNat ≤ 0xBF := ⟨h.1, h.2.1⟩
      have hlow : low.toNat % 64 ≤ b.toNat % 64 := by omega
      have hhigh : b.toNat % 64 ≤ high.toNat % 64 := by omega
      cases owed with
      | zero =>
        refine ⟨trivial, fun c hc => Or.inl ?_⟩
        obtain rfl : c = Char.ofNat (value * 64 + b.toNat % 64) := by simpa using hc
        exact h.last hlow hhigh
      | succ owed => exact ⟨h.next hlow hhigh, fun c hc => absurd hc List.not_mem_nil⟩
    · refine ⟨wide_opening b, ?_⟩
      intro c hc
      rcases List.mem_cons.1 hc with hc | hc
      · cases hc
      · exact Or.inr (opening_units b _ hc c rfl)

theorem byte_mem_of_mem_unitsFrom {p : Progress} {bytes : List UInt8} {c : Char} (h : p.Wide)
    (hc : some c ∈ unitsFrom p bytes) : 0x80 ≤ c.toNat ∨ UInt8.ofNat c.toNat ∈ bytes := by
  induction bytes generalizing p with
  | nil => cases p <;> simp [unitsFrom] at hc
  | cons b rest ih =>
    obtain ⟨hnext, hhere⟩ := h.advance b
    rw [unitsFrom, List.mem_append] at hc
    rcases hc with hc | hc
    · exact (hhere c hc).imp_right fun heq => List.mem_cons.2 (Or.inl heq)
    · exact (ih hnext hc).imp_right (List.mem_cons_of_mem b)

/-- Reading bytes makes up no character within ASCII: each one has its byte there. -/
theorem byte_mem_of_mem_decodeLossy {bytes : List UInt8} {c : Char}
    (hc : c ∈ (decodeLossy bytes).toList) : 0x80 ≤ c.toNat ∨ UInt8.ofNat c.toNat ∈ bytes := by
  rw [decodeLossy, String.toList_ofList, List.mem_map] at hc
  obtain ⟨u, hu, rfl⟩ := hc
  cases u with
  | none => exact Or.inl (by decide)
  | some c => exact byte_mem_of_mem_unitsFrom (p := .boundary) trivial hu

end Gateway.Utf8
