/-
Module: Gateway.Proofs.Replacement
Layer: Proofs
Purpose: What bytes say that need not be text.  Characters are read where they are written; where
  none is, one replacement character stands for the longest bytes with which a character could
  begin, or for one byte if there are none (`Utf8.Says`).  Bytes say one thing only, and that is
  what lossy reading makes of them (`Utf8.says_iff`).  A reader inside a sequence stands behind
  bytes that every way of going on within its range makes a character (`Utf8.Standing.completes`).
Main exports: Utf8.Begins, Utf8.Says, Utf8.Standing, Utf8.says_iff
-/
import Mathlib.Data.List.Induction
import Gateway.Proofs.Utf8

namespace Gateway.Utf8

/-- The bytes of some character begin with these. -/
def Begins (piece : List UInt8) : Prop :=
  ∃ c, piece <+: String.utf8EncodeChar c

/-- What bytes say, a replacement character standing for whatever is no character. -/
inductive Says : List UInt8 → List Char → Prop where
  | nil : Says [] []
  | char {c : Char} {rest : List UInt8} {text : List Char} :
      Says rest text → Says (String.utf8EncodeChar c ++ rest) (c :: text)
  /-- A character is cut off: no character begins with more of the bytes. -/
  | cut {piece rest : List UInt8} {text : List Char} :
      piece ≠ [] → Begins piece → (∀ c, String.utf8EncodeChar c ≠ piece) →
        (∀ b ∈ rest.head?, ¬ Begins (piece ++ [b])) → Says rest text →
          Says (piece ++ rest) (replacement :: text)
  /-- No character begins with the byte. -/
  | stray {b : UInt8} {rest : List UInt8} {text : List Char} :
      ¬ Begins [b] → Says rest text → Says (b :: rest) (replacement :: text)

/-! ### Characters of several bytes -/

section Encode

variable {n d e f : Nat}

theorem utf8EncodeChar_two (hn : 2 ≤ n) (hn' : n < 0x20) (hd : d < 64) :
    String.utf8EncodeChar (Char.ofNat (n * 64 + d)) =
      [UInt8.ofNat (n + 0xC0), UInt8.ofNat (d + 0x80)] := by
  have hvalue : (Char.ofNat (n * 64 + d)).val.toNat = n * 64 + d :=
    toNat_ofNat_of_valid (Or.inl (by omega))
  have hlead : (n * 64 + d) / 64 % 32 = n := by omega
  have hlast : (n * 64 + d) % 64 = d := by omega
  rw [String.utf8EncodeChar]
  simp only [hvalue]
  rw [if_neg (by omega), if_pos (by omega), hlead, hlast]

theorem utf8EncodeChar_three (hn : n < 0x10) (hd : d < 64) (he : e < 64)
    (hlow : n = 0 → 32 ≤ d) (hhigh : n = 13 → d < 32) :
    String.utf8EncodeChar (Char.ofNat ((n * 64 + d) * 64 + e)) =
      [UInt8.ofNat (n + 0xE0), UInt8.ofNat (d + 0x80), UInt8.ofNat (e + 0x80)] := by
  have hvalid : ((n * 64 + d) * 64 + e).isValidChar := by
    rw [Nat.isValidChar]
    omega
  have hvalue : (Char.ofNat ((n * 64 + d) * 64 + e)).val.toNat = (n * 64 + d) * 64 + e :=
    toNat_ofNat_of_valid hvalid
  have hlead : ((n * 64 + d) * 64 + e) / 4096 % 16 = n := by omega
  have hnext : ((n * 64 + d) * 64 + e) / 64 % 64 = d := by omega
  have hlast : ((n * 64 + d) * 64 + e) % 64 = e := by omega
  rw [String.utf8EncodeChar]
  simp only [hvalue]
  rw [if_neg (by omega), if_neg (by omega), if_pos (by omega), hlead, hnext, hlast]

theorem utf8EncodeChar_four (hn : n < 5) (hd : d < 64) (he : e < 64) (hf : f < 64)
    (hlow : n = 0 → 16 ≤ d) (hhigh : n = 4 → d < 16) :
    String.utf8EncodeChar (Char.ofNat (((n * 64 + d) * 64 + e) * 64 + f)) =
      [UInt8.ofNat (n + 0xF0), UInt8.ofNat (d + 0x80), UInt8.ofNat (e + 0x80),
        UInt8.ofNat (f + 0x80)] := by
  have hvalid : (((n * 64 + d) * 64 + e) * 64 + f).isValidChar := by
    rw [Nat.isValidChar]
    omega
  have hvalue : (Char.ofNat (((n * 64 + d) * 64 + e) * 64 + f)).val.toNat =
      ((n * 64 + d) * 64 + e) * 64 + f :=
    toNat_ofNat_of_valid hvalid
  have hlead : (((n * 64 + d) * 64 + e) * 64 + f) / 262144 % 8 = n := by omega
  have hnext : (((n * 64 + d) * 64 + e) * 64 + f) / 4096 % 64 = d := by omega
  have hthen : (((n * 64 + d) * 64 + e) * 64 + f) / 64 % 64 = e := by omega
  have hlast : (((n * 64 + d) * 64 + e) * 64 + f) % 64 = f := by omega
  rw [String.utf8EncodeChar]
  simp only [hvalue]
  rw [if_neg (by omega), if_neg (by omega), if_neg (by omega), hlead, hnext, hthen, hlast]

end Encode

/-! ### Standing inside a sequence -/

/-- The byte that continues a sequence with the six bits `d`. -/
def continuing (d : Nat) : UInt8 :=
  UInt8.ofNat (d + 0x80)

theorem exists_continuing {low high b : UInt8} (hlow : 0x80 ≤ low.toNat)
    (hin : (low ≤ b && b ≤ high) = true) :
    ∃ d, b = continuing d ∧ low.toNat ≤ d + 0x80 ∧ d + 0x80 ≤ high.toNat := by
  rw [Bool.and_eq_true, decide_eq_true_eq, decide_eq_true_eq, UInt8.le_iff_toNat_le,
    UInt8.le_iff_toNat_le] at hin
  obtain ⟨d, hd⟩ := Nat.exists_eq_add_of_le' (Nat.le_trans hlow hin.1)
  refine ⟨d, ?_, hd ▸ hin.1, hd ▸ hin.2⟩
  rw [continuing, ← hd, UInt8.ofNat_toNat]

/-- A byte out of the range breaks the sequence and is read anew. -/
theorem unitsFrom_broken {owed value : Nat} {low high b : UInt8}
    (hb : ¬ (low ≤ b && b ≤ high) = true) (rest : List UInt8) :
    unitsFrom (.inside owed low high value) (b :: rest) = none :: units (b :: rest) := by
  rw [unitsFrom, advance, if_neg hb]
  rfl

/-- The bytes behind a reader that stands inside a sequence. -/
inductive Standing : List UInt8 → Nat → UInt8 → UInt8 → Nat → Prop where
  | two {n : Nat} : 2 ≤ n → n < 0x20 → Standing [UInt8.ofNat (n + 0xC0)] 0 0x80 0xBF n
  | three {n : Nat} : n < 0x10 →
      Standing [UInt8.ofNat (n + 0xE0)] 1 (if n = 0 then 0xA0 else 0x80)
        (if n = 13 then 0x9F else 0xBF) n
  | four {n : Nat} : n < 5 →
      Standing [UInt8.ofNat (n + 0xF0)] 2 (if n = 0 then 0x90 else 0x80)
        (if n = 4 then 0x8F else 0xBF) n
  | next {piece : List UInt8} {owed : Nat} {low high : UInt8} {value d : Nat} :
      Standing piece (owed + 1) low high value → low.toNat ≤ d + 0x80 → d + 0x80 ≤ high.toNat →
        Standing (piece ++ [continuing d]) owed 0x80 0xBF (value * 64 + d)

namespace Standing

variable {piece : List UInt8} {owed : Nat} {low high : UInt8} {value : Nat}

theorem range (h : Standing piece owed low high value) :
    0x80 ≤ low.toNat ∧ low.toNat ≤ high.toNat ∧ high.toNat ≤ 0xBF := by
  cases h with
  | two => decide
  | three hn =>
      have hall : ∀ n < 0x10, 0x80 ≤ (if n = 0 then 0xA0 else 0x80 : UInt8).toNat ∧
          (if n = 0 then 0xA0 else 0x80 : UInt8).toNat ≤
            (if n = 13 then 0x9F else 0xBF : UInt8).toNat ∧
          (if n = 13 then 0x9F else 0xBF : UInt8).toNat ≤ 0xBF := by decide
      exact hall value hn
  | four hn =>
      have hall : ∀ n < 5, 0x80 ≤ (if n = 0 then 0x90 else 0x80 : UInt8).toNat ∧
          (if n = 0 then 0x90 else 0x80 : UInt8).toNat ≤
            (if n = 4 then 0x8F else 0xBF : UInt8).toNat ∧
          (if n = 4 then 0x8F else 0xBF : UInt8).toNat ≤ 0xBF := by decide
      exact hall value hn
  | next => decide

/-- Reading the bytes leads there, and yields nothing on the way. -/
theorem units_append (h : Standing piece owed low high value) (rest : List UInt8) :
    units (piece ++ rest) = unitsFrom (.inside owed low high value) rest := by
  induction h generalizing rest with
  | two hn hn' =>
      rw [List.singleton_append, units_cons, opening_two _ hn' hn]
      rfl
  | three hn =>
      rw [List.singleton_append, units_cons, opening_three _ hn]
      rfl
  | four hn =>
      rw [List.singleton_append, units_cons, opening_four _ hn]
      rfl
  | next hbefore hlow hhigh ih =>
      have hd := hbefore.range
      rw [List.append_assoc, List.singleton_append, ih, continuing,
        unitsFrom_next (by omega) hlow hhigh]

/-- Every way of going on within the range makes a character. -/
theorem completes (h : Standing piece owed low high value) {d : Nat} {more : List Nat}
    (hlow : low.toNat ≤ d + 0x80) (hhigh : d + 0x80 ≤ high.toNat) (hmore : ∀ e ∈ more, e < 64)
    (hlength : more.length = owed) :
    String.utf8EncodeChar (Char.ofNat (more.foldl (· * 64 + ·) (value * 64 + d))) =
      piece ++ (d :: more).map continuing := by
  have hd := h.range
  induction h generalizing d more with
  | two hn hn' =>
      obtain rfl := List.length_eq_zero_iff.1 hlength
      exact utf8EncodeChar_two hn hn' (by omega)
  | three hn =>
      obtain ⟨e, rfl⟩ := List.length_eq_one_iff.1 hlength
      have he := hmore e List.mem_cons_self
      refine utf8EncodeChar_three hn (by omega) he ?_ ?_
      · rintro rfl
        have hlow : 0xA0 ≤ d + 0x80 := hlow
        omega
      · rintro rfl
        have hhigh : d + 0x80 ≤ 0x9F := hhigh
        omega
  | four hn =>
      obtain ⟨e, more, rfl⟩ := List.exists_cons_of_length_eq_add_one hlength
      obtain ⟨f, rfl⟩ := List.length_eq_one_iff.1 (Nat.succ.inj hlength)
      have he := hmore e List.mem_cons_self
      have hf := hmore f (List.mem_cons_of_mem _ List.mem_cons_self)
      refine utf8EncodeChar_four hn (by omega) he hf ?_ ?_
      · rintro rfl
        have hlow : 0x90 ≤ d + 0x80 := hlow
        omega
      · rintro rfl
        have hhigh : d + 0x80 ≤ 0x8F := hhigh
        omega
  | next hbefore hlow' hhigh' ih =>
      rename_i piece owed low high value first
      have hmore' : ∀ e ∈ d :: more, e < 64 := List.forall_mem_cons.2 ⟨by omega, hmore⟩
      have hlength' : (d :: more).length = owed + 1 := by rw [List.length_cons, hlength]
      have hwhole := ih hlow' hhigh' hmore' hlength' hbefore.range
      rw [List.append_assoc, List.singleton_append, ← List.map_cons]
      exact hwhole

/-- The byte within the range that completes a sequence makes a character. -/
theorem last (h : Standing piece 0 low high value) {d : Nat} (hlow : low.toNat ≤ d + 0x80)
    (hhigh : d + 0x80 ≤ high.toNat) :
    String.utf8EncodeChar (Char.ofNat (value * 64 + d)) = piece ++ [continuing d] :=
  h.completes hlow hhigh (List.forall_mem_nil fun e => e < 64) List.length_nil

theorem begins (h : Standing piece owed low high value) : Begins piece := by
  obtain ⟨hlow, hrange, _⟩ := h.range
  obtain ⟨d, hd⟩ := Nat.exists_eq_add_of_le' hlow
  have hmore : ∀ e ∈ List.replicate owed 0, e < 64 := by
    intro e he
    rw [List.eq_of_mem_replicate he]
    decide
  have hwhole := h.completes (d := d) (by omega) (by omega) hmore List.length_replicate
  exact ⟨_, _, hwhole.symm⟩

theorem ne_nil (h : Standing piece owed low high value) : piece ≠ [] := by
  cases h <;> simp

/-- The bytes are not all of a character's. -/
theorem not_whole (h : Standing piece owed low high value) (c : Char) :
    String.utf8EncodeChar c ≠ piece := by
  rintro rfl
  have hread := h.units_append []
  rw [units_encodeChar] at hread
  cases hread

theorem begins_append (h : Standing piece owed low high value) {b : UInt8}
    (hb : (low ≤ b && b ≤ high) = true) : Begins (piece ++ [b]) := by
  obtain ⟨d, rfl, hlow, hhigh⟩ := exists_continuing h.range.1 hb
  cases owed with
  | zero => exact ⟨_, [], (List.append_nil _).trans (h.last hlow hhigh).symm⟩
  | succ owed => exact (h.next hlow hhigh).begins

/-- No character goes on beyond the range. -/
theorem not_begins (h : Standing piece owed low high value) {b : UInt8}
    (hb : ¬ (low ≤ b && b ≤ high) = true) : ¬ Begins (piece ++ [b]) := by
  rintro ⟨c, more, hwhole⟩
  have hread := h.units_append (b :: more)
  rw [unitsFrom_broken hb, List.append_cons, hwhole, ← List.append_nil (String.utf8EncodeChar c),
    units_encodeChar] at hread
  cases hread

end Standing

theorem opening_stray : ∀ n < 0x100, (0x80 ≤ n ∧ n < 0xC2 ∨ 0xF5 ≤ n) →
    opening (UInt8.ofNat n) = ([none], .boundary) := by
  decide +kernel

/-- A first byte is a character, opens a sequence, or no character begins with it. -/
theorem opening_cases (b : UInt8) :
    (∃ c, String.utf8EncodeChar c = [b] ∧ opening b = ([some c], .boundary)) ∨
    (∃ owed low high value, Standing [b] owed low high value ∧
      opening b = ([], .inside owed low high value)) ∨
    ¬ Begins [b] ∧ opening b = ([none], .boundary) := by
  revert b
  apply forall_byte
  intro n hn
  by_cases hone : n < 0x80
  · have hc : (Char.ofNat n).toNat = n := toNat_ofNat_of_valid (Or.inl (by omega))
    have hbytes := utf8EncodeChar_ascii (hc.symm ▸ hone)
    rw [hc] at hbytes
    exact .inl ⟨_, hbytes, opening_ascii n hone⟩
  by_cases hstray : n < 0xC2 ∨ 0xF5 ≤ n
  · have hopening := opening_stray n hn (by omega)
    refine .inr (.inr ⟨?_, hopening⟩)
    rintro ⟨c, more, hwhole⟩
    have hread := units_cons (UInt8.ofNat n) more
    rw [hopening, ← List.singleton_append, hwhole, ← List.append_nil (String.utf8EncodeChar c),
      units_encodeChar] at hread
    cases hread
  · refine .inr (.inl ?_)
    by_cases htwo : n < 0xE0
    · obtain ⟨d, rfl⟩ := Nat.exists_eq_add_of_le' (show 0xC0 ≤ n by omega)
      exact ⟨_, _, _, _, .two (by omega) (by omega), opening_two d (by omega) (by omega)⟩
    by_cases hthree : n < 0xF0
    · obtain ⟨d, rfl⟩ := Nat.exists_eq_add_of_le' (show 0xE0 ≤ n by omega)
      exact ⟨_, _, _, _, .three (by omega), opening_three d (by omega)⟩
    · obtain ⟨d, rfl⟩ := Nat.exists_eq_add_of_le' (show 0xF0 ≤ n by omega)
      exact ⟨_, _, _, _, .four (by omega), opening_four d (by omega)⟩

/-- Bytes say what lossy reading makes of them, from wherever the reader stands. -/
theorem says_units (bytes : List UInt8) :
    Says bytes ((units bytes).map (·.getD replacement)) ∧
    ∀ piece owed low high value, Standing piece owed low high value →
      Says (piece ++ bytes)
        ((unitsFrom (.inside owed low high value) bytes).map (·.getD replacement)) := by
  induction bytes with
  | nil =>
      refine ⟨.nil, fun piece owed low high value h => ?_⟩
      exact .cut h.ne_nil h.begins h.not_whole nofun .nil
  | cons b rest ih =>
      obtain ⟨hrest, hinside⟩ := ih
      have hhere : Says (b :: rest) ((units (b :: rest)).map (·.getD replacement)) := by
        rw [units_cons]
        rcases opening_cases b with ⟨c, hc, hopening⟩ | ⟨_, _, _, _, hstanding, hopening⟩ |
          ⟨hstray, hopening⟩
        · rw [hopening, ← List.singleton_append, ← hc]
          exact .char hrest
        · rw [hopening]
          exact hinside _ _ _ _ _ hstanding
        · rw [hopening]
          exact .stray hstray hrest
      refine ⟨hhere, fun piece owed low high value h => ?_⟩
      by_cases hin : (low ≤ b && b ≤ high) = true
      · obtain ⟨d, rfl, hlow, hhigh⟩ := exists_continuing h.range.1 hin
        have hd := h.range
        rw [List.append_cons]
        cases owed with
        | zero =>
            rw [continuing, unitsFrom_last (by omega) hlow hhigh, ← continuing,
              ← h.last hlow hhigh]
            exact .char hrest
        | succ owed =>
            rw [continuing, unitsFrom_next (by omega) hlow hhigh, ← continuing]
            exact hinside _ _ _ _ _ (h.next hlow hhigh)
      · rw [unitsFrom_broken hin]
        refine .cut h.ne_nil h.begins h.not_whole ?_ hhere
        rintro _ ⟨⟩
        exact h.not_begins hin

/-! ### One thing only -/

theorem Says.eq_nil {bytes : List UInt8} (h : Says bytes []) : bytes = [] := by
  generalize htext : ([] : List Char) = text at h
  cases h with
  | nil => rfl
  | _ => cases htext

theorem units_ne_nil (b : UInt8) (rest : List UInt8) : units (b :: rest) ≠ [] := by
  intro hnone
  have hsays := (says_units (b :: rest)).1
  rw [hnone] at hsays
  cases hsays.eq_nil

/-- Where a character begins but is not all there, a reader stands inside a sequence. -/
theorem Begins.exists_standing {piece : List UInt8} (h : Begins piece) (hne : piece ≠ [])
    (hwhole : ∀ c, String.utf8EncodeChar c ≠ piece) :
    ∃ owed low high value, Standing piece owed low high value := by
  induction piece using List.reverseRecOn with
  | nil => exact absurd rfl hne
  | append_singleton piece b ih =>
      by_cases hfirst : piece = []
      · subst hfirst
        rcases opening_cases b with ⟨c, hc, _⟩ | ⟨owed, low, high, value, hstanding, _⟩ |
          ⟨hstray, _⟩
        · exact absurd hc (hwhole c)
        · exact ⟨owed, low, high, value, hstanding⟩
        · exact absurd h hstray
      · obtain ⟨c, more, hmore⟩ := id h
        have hbegins : Begins piece := ⟨c, b :: more, by rw [← hmore, List.append_cons]⟩
        -- a character that were all there would leave nothing to the byte behind it
        have hcut : ∀ c, String.utf8EncodeChar c ≠ piece := by
          rintro first rfl
          have hread : units (String.utf8EncodeChar c) = [some c] := by
            rw [← List.append_nil (String.utf8EncodeChar c), units_encodeChar]
            rfl
          rw [← hmore, ← List.append_cons, units_encodeChar, List.cons.injEq] at hread
          exact units_ne_nil b more hread.2
        obtain ⟨owed, low, high, value, hstanding⟩ := ih hbegins hfirst hcut
        by_cases hin : (low ≤ b && b ≤ high) = true
        · obtain ⟨d, rfl, hlow, hhigh⟩ := exists_continuing hstanding.range.1 hin
          cases owed with
          | zero => exact absurd (hstanding.last hlow hhigh) (hwhole _)
          | succ owed => exact ⟨owed, _, _, _, hstanding.next hlow hhigh⟩
        · exact absurd h (hstanding.not_begins hin)

/-- What bytes say is what lossy reading makes of them. -/
theorem eq_units_of_says {bytes : List UInt8} {text : List Char} (h : Says bytes text) :
    text = (units bytes).map (·.getD replacement) := by
  induction h with
  | nil => rfl
  | char _ ih => rw [units_encodeChar, List.map_cons, ← ih, Option.getD_some]
  | @stray b rest text hstray _ ih =>
      rcases opening_cases b with ⟨c, hc, _⟩ | ⟨owed, low, high, value, hstanding, _⟩ |
        ⟨_, hopening⟩
      · exact absurd ⟨c, hc ▸ List.prefix_rfl⟩ hstray
      · exact absurd hstanding.begins hstray
      · rw [units_cons, hopening, ih]
        rfl
  | @cut piece rest text hne hbegins hwhole hmore _ ih =>
      obtain ⟨owed, low, high, value, hstanding⟩ := hbegins.exists_standing hne hwhole
      rw [hstanding.units_append, ih]
      cases rest with
      | nil => rfl
      | cons b rest =>
          have hout : ¬ (low ≤ b && b ≤ high) = true :=
            fun hin => hmore b rfl (hstanding.begins_append hin)
          rw [unitsFrom_broken hout]
          rfl

/-- Bytes say one thing only: what lossy reading makes of them. -/
theorem says_iff {bytes : List UInt8} {text : String} :
    Says bytes text.toList ↔ decodeLossy bytes = text := by
  rw [decodeLossy]
  constructor
  · intro h
    rw [← eq_units_of_says h, String.ofList_toList]
  · rintro rfl
    rw [String.toList_ofList]
    exact (says_units bytes).1

end Gateway.Utf8
