/-
Module: Gateway.Proofs.Forms
Layer: Proofs
Purpose: Query strings that were written are read back pair by pair (`Http.Form.parse_print`), and
  two query strings with `&` between them are read one after the other
  (`Http.Form.parseText_append`).  A written query holds letters, digits and a few marks of ASCII,
  none of which can end or break the query of a target (`Http.Form.isFormChar_of_mem_print`).
Main exports: splitOn_separator, cutAt_append_of_mem, cutAt_append_of_not_mem, exists_cutAt_of_mem,
  Http.Form.decode_encode, Http.Form.parse_print, Http.Form.parseText_append,
  Http.Form.print_eq_empty_iff, Http.Form.isFormChar_of_mem_print
-/
import Gateway.Http.Form
import Gateway.Proofs.Patterns
import Gateway.Proofs.Utf8

namespace Gateway

/-! ### Cutting and joining -/

section Split

variable {α : Type} [BEq α] [LawfulBEq α] {separator : α}

/-- Where a separator stands, the pieces before it and those after it are apart. -/
theorem splitOn_separator (s rest : List α) :
    splitOn separator (s ++ separator :: rest) = splitOn separator s ++ splitOn separator rest := by
  induction s with
  | nil => simp [splitOn]
  | cons a s ih =>
      rw [List.cons_append, splitOn, splitOn, ih]
      split
      · rfl
      · cases hs : splitOn separator s with
        | nil => exact absurd hs (splitOn_ne_nil separator s)
        | cons piece pieces => rfl

theorem cutAt_append_of_not_mem {s : List α} (h : separator ∉ s) (rest : List α) :
    cutAt separator (s ++ rest) = (s ++ (cutAt separator rest).1, (cutAt separator rest).2) := by
  induction s with
  | nil => rfl
  | cons a s ih =>
      rw [List.mem_cons, not_or] at h
      have hne : ¬ (a == separator) = true := by simpa using Ne.symm h.1
      rw [List.cons_append, cutAt, if_neg hne, ih h.2]
      rfl

theorem cutAt_of_not_mem {s : List α} (h : separator ∉ s) : cutAt separator s = (s, none) := by
  have hcut := cutAt_append_of_not_mem h []
  rwa [List.append_nil, cutAt, List.append_nil] at hcut

theorem cutAt_append_of_mem {s : List α} (h : separator ∈ s) (rest : List α) :
    cutAt separator (s ++ rest) =
      ((cutAt separator s).1, (cutAt separator s).2.map (· ++ rest)) := by
  induction s with
  | nil => cases h
  | cons a s ih =>
      rw [List.cons_append, cutAt, cutAt]
      split
      · rfl
      · rename_i hne
        have hmem : separator ∈ s :=
          (List.mem_cons.1 h).resolve_left fun heq => hne (beq_iff_eq.2 heq.symm)
        rw [ih hmem]

theorem not_mem_cutAt (s : List α) : separator ∉ (cutAt separator s).1 := by
  induction s with
  | nil => exact List.not_mem_nil
  | cons a s ih =>
      rw [cutAt]
      split
      · exact List.not_mem_nil
      · rename_i hne
        rw [List.mem_cons, not_or]
        exact ⟨fun h => hne (beq_iff_eq.2 h.symm), ih⟩

omit [LawfulBEq α] in
theorem mem_of_mem_cutAt {s : List α} {a : α} (h : a ∈ (cutAt separator s).1) : a ∈ s := by
  induction s with
  | nil => cases h
  | cons b s ih =>
      rw [cutAt] at h
      split at h
      · cases h
      · exact List.mem_cons.2 ((List.mem_cons.1 h).imp_right ih)

/-- A sequence is cut at the first of its separators. -/
theorem exists_cutAt_of_mem {s : List α} (h : separator ∈ s) :
    ∃ before after, s = before ++ separator :: after ∧
      cutAt separator s = (before, some after) := by
  obtain ⟨before, after, rfl, hnot⟩ := List.eq_append_cons_of_mem h
  refine ⟨before, after, rfl, ?_⟩
  rw [cutAt_append_of_not_mem hnot, cutAt, if_pos (beq_self_eq_true separator)]
  simp

end Split

theorem mem_joinWith {α : Type} {separator a : α} {pieces : List (List α)}
    (ha : a ∈ joinWith separator pieces) : a = separator ∨ ∃ piece ∈ pieces, a ∈ piece := by
  induction pieces with
  | nil => cases ha
  | cons piece pieces ih =>
      cases pieces with
      | nil => exact Or.inr ⟨piece, List.mem_singleton_self _, ha⟩
      | cons next pieces =>
          rcases List.mem_append.1 ha with ha | ha
          · exact Or.inr ⟨piece, List.mem_cons_self, ha⟩
          · rcases List.mem_cons.1 ha with rfl | ha
            · exact Or.inl rfl
            · rcases ih ha with h | ⟨p, hp, h⟩
              · exact Or.inl h
              · exact Or.inr ⟨p, List.mem_cons_of_mem _ hp, h⟩

namespace Http.Form

/-! ### Characters of a written query -/

/-- A character of a written query: one that stands for itself, or a mark. -/
def isFormChar (c : Char) : Bool :=
  isPlain c || ['+', '%', '&', '='].contains c

theorem isFormChar_iff {c : Char} : isFormChar c = true ↔ Ascii.isAlphanumeric c = true ∨
    c ∈ ['*', '-', '.', '_', '+', '%', '&', '='] := by
  simp [isFormChar, isPlain, or_assoc]

theorem isPlain_ascii {c : Char} (h : isPlain c = true) : c.toNat < 0x80 := by
  simp only [isPlain, Ascii.isAlphanumeric, Ascii.isDigit, Ascii.isLower, Ascii.isUpper,
    Bool.or_eq_true, Bool.and_eq_true, decide_eq_true_eq, beq_iff_eq] at h
  rcases h with ((((((⟨_, h⟩ | ⟨_, h⟩) | ⟨_, h⟩) | rfl) | rfl) | rfl) | rfl)
  · exact Nat.lt_of_le_of_lt h (by decide)
  · exact Nat.lt_of_le_of_lt h (by decide)
  · exact Nat.lt_of_le_of_lt h (by decide)
  all_goals decide

theorem isFormChar_ascii {c : Char} (h : isFormChar c = true) : c.toNat < 0x80 := by
  rw [isFormChar, Bool.or_eq_true, List.contains_iff_mem] at h
  rcases h with h | h
  · exact isPlain_ascii h
  · simp only [List.mem_cons, List.not_mem_nil, or_false] at h
    rcases h with rfl | rfl | rfl | rfl <;> decide

theorem encodeByte_chars (b : UInt8) :
    ∀ c ∈ encodeByte b, isFormChar c = true ∧ c ≠ '&' ∧ c ≠ '=' := by
  have hall : ∀ b, (encodeByte b).all (fun c => isFormChar c && c != '&' && c != '=') = true :=
    Utf8.forall_byte (by decide +kernel)
  intro c hc
  have hchar := List.all_eq_true.1 (hall b) c hc
  simpa [and_assoc] using hchar

theorem mem_encode {text : String} {c : Char} (hc : c ∈ encode text) :
    isFormChar c = true ∧ c ≠ '&' ∧ c ≠ '=' := by
  obtain ⟨b, _, hc⟩ := List.mem_flatMap.1 hc
  exact encodeByte_chars b c hc

theorem mem_encodePair {pair : String × String} {c : Char} (hc : c ∈ encodePair pair) :
    isFormChar c = true ∧ c ≠ '&' := by
  rcases List.mem_append.1 hc with hc | hc
  · exact (mem_encode hc).imp_right And.left
  · rcases List.mem_cons.1 hc with rfl | hc
    · decide
    · exact (mem_encode hc).imp_right And.left

theorem isFormChar_of_mem_print {pairs : List (String × String)} {c : Char}
    (hc : c ∈ (print pairs).toList) : isFormChar c = true := by
  rw [print, String.toList_ofList] at hc
  rcases mem_joinWith hc with rfl | ⟨piece, hpiece, hc⟩
  · decide
  · obtain ⟨pair, _, rfl⟩ := List.mem_map.1 hpiece
    exact (mem_encodePair hc).1

/-! ### Names and values -/

/-- A plus sign read as the blank that it stands for. -/
def blankOfPlus (b : UInt8) : UInt8 :=
  if b == 0x2B then 0x20 else b

theorem decode_eq (bytes : List UInt8) :
    decode bytes = Utf8.decodeLossy (percentDecode (bytes.map blankOfPlus)) := rfl

theorem percentDecode_cons {a : UInt8} (h : a ≠ 0x25) (rest : List UInt8) :
    percentDecode (a :: rest) = a :: percentDecode rest := by
  match rest with
  | [] => rfl
  | [_] => rfl
  | b :: c :: rest =>
      have hnone : escapedByte? a b c = none := if_neg (by simpa using h)
      rw [percentDecode, hnone]

/-- The byte of a hexadecimal digit. -/
def digitByte (n : Nat) : UInt8 :=
  UInt8.ofNat (Ascii.hexDigitUpper n).toNat

theorem hexValue?_digitByte : ∀ n < 16,
    Ascii.hexValue? (Char.ofNat (digitByte n).toNat) = some n := by
  decide +kernel

theorem blankOfPlus_digitByte : ∀ n < 16, blankOfPlus (digitByte n) = digitByte n := by
  decide +kernel

/-- The two digits of a byte stand for it. -/
theorem escapedByte?_digits (b : UInt8) :
    escapedByte? 0x25 (digitByte (b.toNat / 16)) (digitByte (b.toNat % 16)) = some b := by
  have hb : b.toNat < 256 := b.toNat_lt
  have hvalue : 16 * (b.toNat / 16) + b.toNat % 16 = b.toNat := by omega
  rw [escapedByte?, if_pos (by decide), hexValue?_digitByte _ (by omega),
    hexValue?_digitByte _ (by omega)]
  change some (UInt8.ofNat (16 * (b.toNat / 16) + b.toNat % 16)) = some b
  rw [hvalue, UInt8.ofNat_toNat]

theorem plain_byte : ∀ b : UInt8, isPlain (Char.ofNat b.toNat) = true →
    UInt8.ofNat (Char.ofNat b.toNat).toNat = b ∧ blankOfPlus b = b ∧ b ≠ 0x25 :=
  Utf8.forall_byte (by decide +kernel)

/-- A byte that was written is the first one that is read. -/
theorem percentDecode_encodeByte (b : UInt8) (rest : List UInt8) :
    percentDecode ((Utf8.single (encodeByte b)).map blankOfPlus ++ rest) =
      b :: percentDecode rest := by
  have hb : b.toNat < 256 := b.toNat_lt
  unfold encodeByte
  split
  · rename_i hplain
    obtain ⟨hbyte, hplus, hpercent⟩ := plain_byte b hplain
    rw [Utf8.single, List.map_singleton, hbyte, List.map_singleton, hplus, List.singleton_append]
    exact percentDecode_cons hpercent rest
  · split
    · rename_i hblank
      obtain rfl : b = 0x20 := beq_iff_eq.1 hblank
      exact percentDecode_cons (by decide) rest
    · have hescape : (Utf8.single ['%', Ascii.hexDigitUpper (b.toNat / 16),
          Ascii.hexDigitUpper (b.toNat % 16)]).map blankOfPlus =
          [blankOfPlus 0x25, blankOfPlus (digitByte (b.toNat / 16)),
            blankOfPlus (digitByte (b.toNat % 16))] := rfl
      rw [hescape, blankOfPlus_digitByte _ (by omega), blankOfPlus_digitByte _ (by omega)]
      change percentDecode (0x25 :: digitByte _ :: digitByte _ :: rest) = _
      rw [percentDecode, escapedByte?_digits]

theorem percentDecode_encode (bytes : List UInt8) :
    percentDecode ((Utf8.single (bytes.flatMap encodeByte)).map blankOfPlus) = bytes := by
  induction bytes with
  | nil => rfl
  | cons b rest ih =>
      rw [List.flatMap_cons, Utf8.single, List.map_append, List.map_append]
      exact (percentDecode_encodeByte b _).trans (congrArg (b :: ·) ih)

/-- A name or a value that was written is read back. -/
theorem decode_encode (text : String) : decode (Utf8.single (encode text)) = text := by
  rw [decode_eq, encode, percentDecode_encode, Utf8.decodeLossy_encode]

/-! ### Pairs -/

theorem not_mem_single {text : List Char} (mark : Char) (hmark : mark.toNat < 0x80)
    (h : ∀ c ∈ text, c.toNat < 0x80 ∧ c ≠ mark) :
    UInt8.ofNat mark.toNat ∉ Utf8.single text := by
  intro hmem
  obtain ⟨c, hc, heq⟩ := List.mem_map.1 hmem
  obtain ⟨hascii, hne⟩ := h c hc
  have hnat := congrArg UInt8.toNat heq
  rw [UInt8.toNat_ofNat', UInt8.toNat_ofNat'] at hnat
  apply hne
  apply Char.toNat_inj.1
  omega

theorem decodePair_encodePair (pair : String × String) :
    decodePair (Utf8.single (encodePair pair)) = pair := by
  have hbytes : Utf8.single (encodePair pair) =
      Utf8.single (encode pair.1) ++ 0x3D :: Utf8.single (encode pair.2) := List.map_append
  have hname : 0x3D ∉ Utf8.single (encode pair.1) :=
    not_mem_single '=' (by decide)
      fun c hc => ⟨isFormChar_ascii (mem_encode hc).1, (mem_encode hc).2.2⟩
  have hcut : cutAt 0x3D (Utf8.single (encodePair pair)) =
      (Utf8.single (encode pair.1), some (Utf8.single (encode pair.2))) := by
    rw [hbytes, cutAt_append_of_not_mem hname]
    simp [cutAt]
  rw [decodePair, hcut]
  exact Prod.ext (decode_encode pair.1) (decode_encode pair.2)

theorem single_joinWith (pieces : List (List Char)) :
    Utf8.single (joinWith '&' pieces) = joinWith 0x26 (pieces.map Utf8.single) := by
  induction pieces with
  | nil => rfl
  | cons piece pieces ih =>
      cases pieces with
      | nil => rfl
      | cons next pieces =>
          change Utf8.single (piece ++ '&' :: joinWith '&' (next :: pieces)) = _
          rw [Utf8.single, List.map_append, List.map_cons]
          exact congrArg (Utf8.single piece ++ 0x26 :: ·) ih

theorem encode_print (pairs : List (String × String)) :
    Utf8.encode (print pairs) =
      joinWith 0x26 (pairs.map fun pair => Utf8.single (encodePair pair)) := by
  have hascii : ∀ c ∈ joinWith '&' (pairs.map encodePair), c.toNat < 0x80 := by
    intro c hc
    have hprint : c ∈ (print pairs).toList := by rwa [print, String.toList_ofList]
    exact isFormChar_ascii (isFormChar_of_mem_print hprint)
  rw [print, Utf8.encode_ofList_ascii hascii, single_joinWith, List.map_map]
  rfl

/-- A query that was written is read back pair by pair. -/
theorem parse_print (pairs : List (String × String)) : parseText (print pairs) = pairs := by
  rw [parseText, encode_print, parse]
  by_cases hnil : pairs = []
  · subst hnil
    rfl
  have hmark : ∀ piece ∈ pairs.map fun pair => Utf8.single (encodePair pair), 0x26 ∉ piece := by
    rintro piece hpiece
    obtain ⟨pair, _, rfl⟩ := List.mem_map.1 hpiece
    apply not_mem_single '&' (by decide)
    exact fun c hc => ⟨isFormChar_ascii (mem_encodePair hc).1, (mem_encodePair hc).2⟩
  have hfull : ∀ piece ∈ pairs.map fun pair => Utf8.single (encodePair pair),
      (!piece.isEmpty) = true := by
    rintro piece hpiece
    obtain ⟨pair, _, rfl⟩ := List.mem_map.1 hpiece
    simp [Utf8.single, encodePair]
  rw [splitOn_joinWith (mt List.map_eq_nil_iff.1 hnil) hmark, List.filter_eq_self.2 hfull,
    List.map_map]
  simp only [Function.comp_def, decodePair_encodePair, List.map_id']

theorem print_eq_empty_iff {pairs : List (String × String)} : print pairs = "" ↔ pairs = [] := by
  constructor
  · intro h
    rw [← parse_print pairs, h]
    rfl
  · rintro rfl
    rfl

/-- Two queries with a mark between them are read one after the other. -/
theorem parseText_append (first second : String) :
    parseText (first ++ "&" ++ second) = parseText first ++ parseText second := by
  have hbytes : Utf8.encode (first ++ "&" ++ second) =
      Utf8.encode first ++ 0x26 :: Utf8.encode second := by
    rw [Utf8.encode_append, Utf8.encode_append, List.append_assoc]
    rfl
  rw [parseText, hbytes, parse, splitOn_separator, List.filter_append, List.map_append]
  rfl

end Http.Form

end Gateway
