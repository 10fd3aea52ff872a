/-
Module: Gateway.Proofs.ReadingBack
Layer: Proofs
Purpose: What was printed is read back.  Numbers are read digit by digit into the significand, which
  never gets too large (`Json.gather_digits`); of a string every character is read as it is escaped
  (`Json.stringBytes_escapeChar`); items and entries are read one after the other
  (`Json.readItems_rest`, `Json.readFields_rest`).  What the first byte of a value decides is said
  once (`Json.opening`).  The text of a value, its entries listed in any order, is read as the value
  that comes of putting them in (`Json.readValue_chars`).
Main exports: Json.readNumber_digits, Json.readString_printString, Json.opening,
  Json.readItems_charsOfItems, Json.readFields_charsOfFields, Json.readValue_chars,
  Json.readWhole_print
-/
import Gateway.Json.Printer
import Gateway.Json.Reader
import Gateway.Proofs.Contents
import Gateway.Proofs.Utf8

namespace Gateway.Json

/-! ### The bytes of characters -/

/-- The bytes of a text, character by character. -/
def bytesOf (text : List Char) : List UInt8 :=
  text.flatMap String.utf8EncodeChar

theorem encode_ofList (text : List Char) : Utf8.encode (String.ofList text) = bytesOf text := by
  rw [Utf8.encode, String.toList_ofList, bytesOf]

@[simp] theorem bytesOf_nil : bytesOf [] = [] := rfl

@[simp] theorem bytesOf_append (s t : List Char) : bytesOf (s ++ t) = bytesOf s ++ bytesOf t :=
  List.flatMap_append

theorem bytesOf_cons {c : Char} (h : c.toNat < 0x80) (text : List Char) :
    bytesOf (c :: text) = byte c :: bytesOf text := by
  rw [bytesOf, List.flatMap_cons, Utf8.utf8EncodeChar_ascii h]
  rfl

theorem byte_inj {c d : Char} (hc : c.toNat < 0x80) (hd : d.toNat < 0x80)
    (h : byte c = byte d) : c = d := by
  have hnat := congrArg UInt8.toNat h
  rw [byte, byte, UInt8.toNat_ofNat', UInt8.toNat_ofNat'] at hnat
  apply Char.toNat_inj.1
  omega

/-! ### Numbers -/

/-- A digit is one of ten characters. -/
theorem exists_digit {c : Char} (h : c.isDigit = true) : ∃ d < 10, c = Char.ofNat (0x30 + d) := by
  obtain ⟨hlow, hhigh⟩ := Char.isDigit_iff_toNat.1 h
  change 0x30 ≤ c.toNat at hlow
  change c.toNat ≤ 0x39 at hhigh
  refine ⟨c.toNat - 0x30, by omega, ?_⟩
  rw [Nat.add_sub_cancel' hlow, Char.ofNat_toNat]

theorem digit_ascii {c : Char} (h : c.isDigit = true) : c.toNat < 0x80 := by
  have hhigh : c.toNat ≤ 0x39 := (Char.isDigit_iff_toNat.1 h).2
  omega

theorem digitOf?_byte {c : Char} (h : c.isDigit = true) :
    digitOf? (byte c) = some (c.toNat - '0'.toNat) := by
  obtain ⟨d, hd, rfl⟩ := exists_digit h
  have hall : ∀ d < 10, digitOf? (byte (Char.ofNat (0x30 + d))) =
      some ((Char.ofNat (0x30 + d)).toNat - '0'.toNat) := by
    decide
  exact hall d hd

/-- A number ends before this text: what follows does not go on with it. -/
def EndsNumber (rest : List UInt8) : Prop :=
  ∀ b ∈ rest.head?, digitOf? b = none ∧ (b == byte '.') = false ∧ opensExponent b = false

theorem endsNumber_nil : EndsNumber [] := by
  intro b hb
  cases hb

theorem endsNumber_cons {b : UInt8}
    (h : digitOf? b = none ∧ (b == byte '.') = false ∧ opensExponent b = false)
    (rest : List UInt8) : EndsNumber (b :: rest) := by
  intro b' hb
  cases hb
  exact h

theorem le_ofDigitChars (digits : List Char) (n : Nat) : n ≤ Nat.ofDigitChars 10 digits n := by
  induction digits generalizing n with
  | nil => exact Nat.le_refl n
  | cons c digits ih =>
      rw [Nat.ofDigitChars_cons]
      exact Nat.le_trans (by omega) (ih _)

/-- Digits are gathered to the end if their number fits. -/
theorem gather_digits {digits : List Char} (hdigits : ∀ c ∈ digits, c.isDigit = true)
    {rest : List UInt8} (hrest : EndsNumber rest) {significand : Nat}
    (hfits : fits (Nat.ofDigitChars 10 digits significand) = true) :
    gather significand (bytesOf digits ++ rest) =
      (Nat.ofDigitChars 10 digits significand, false, rest) := by
  induction digits generalizing significand with
  | nil =>
      cases rest with
      | nil => rfl
      | cons b rest =>
          have hnone := (hrest b rfl).1
          simp only [bytesOf_nil, List.nil_append, gather, hnone, Nat.ofDigitChars_nil]
  | cons c digits ih =>
      rw [List.forall_mem_cons] at hdigits
      rw [Nat.ofDigitChars_cons] at hfits ⊢
      -- What has been gathered so far is no larger than the whole.
      have hfits' : fits (significand * 10 + (c.toNat - '0'.toNat)) = true := by
        have hle := le_ofDigitChars digits (10 * significand + (c.toNat - '0'.toNat))
        simp only [fits, decide_eq_true_eq] at hfits ⊢
        omega
      rw [bytesOf_cons (digit_ascii hdigits.1), List.cons_append, gather, digitOf?_byte hdigits.1]
      simp only [hfits', if_true]
      rw [Nat.mul_comm significand 10]
      exact ih hdigits.2 hfits

/-- The first digit of a number is not zero, unless the number is. -/
theorem exists_toDigits {n : Nat} (h : 0 < n) :
    ∃ c digits, Nat.toDigits 10 n = c :: digits ∧ 0 < c.toNat - '0'.toNat := by
  induction n using Nat.strongRecOn with
  | ind n ih =>
      by_cases hn : n < 10
      · have hfew : ∀ n < 10, 0 < n → 0 < n.digitChar.toNat - '0'.toNat := by decide
        exact ⟨n.digitChar, [], Nat.toDigits_of_lt_base hn, hfew n hn h⟩
      · obtain ⟨c, digits, heq, hc⟩ := ih (n / 10) (by omega) (by omega)
        refine ⟨c, digits ++ [(n % 10).digitChar], ?_, hc⟩
        rw [Nat.toDigits_of_base_le (by decide) (by omega), heq, List.cons_append]

theorem exists_first_digit (n : Nat) :
    ∃ c digits, Nat.toDigits 10 n = c :: digits ∧ c.isDigit = true := by
  obtain ⟨c, digits, heq⟩ := List.exists_cons_of_ne_nil (@Nat.toDigits_ne_nil n 10)
  have hmem : c ∈ Nat.toDigits 10 n := heq ▸ List.mem_cons_self
  exact ⟨c, digits, heq, Nat.isDigit_of_mem_toDigits (by decide) (by decide) hmem⟩

theorem afterInteger_of_ends {rest : List UInt8} (h : EndsNumber rest) (negative : Bool) (n : Nat) :
    afterInteger negative n rest = .ok (wholeNumber negative n, rest) := by
  cases rest with
  | nil => rfl
  | cons b rest =>
      obtain ⟨_, hpoint, hexponent⟩ := h b rfl
      rw [afterInteger, hpoint, hexponent]
      rfl

/-- A number of 64 bits is read back from its digits. -/
theorem readNumber_digits {n : Nat} (hn : fits n = true) {rest : List UInt8}
    (hrest : EndsNumber rest) (negative : Bool) :
    readNumber negative (bytesOf (Nat.toDigits 10 n) ++ rest) =
      .ok (wholeNumber negative n, rest) := by
  rcases Nat.eq_zero_or_pos n with rfl | hpos
  · have hzero : digitOf? (byte '0') = some 0 := by decide
    have hend := afterInteger_of_ends hrest negative 0
    rw [Nat.toDigits_zero, bytesOf_cons (by decide), bytesOf_nil, List.cons_append,
      List.nil_append]
    unfold readNumber
    simp only [hzero]
    cases rest with
    | nil => exact hend
    | cons b rest =>
        have hnone := (hrest b rfl).1
        simp only [hnone, Option.isSome_none, Bool.false_eq_true, if_false, hend]
  · have hdigits : ∀ c ∈ Nat.toDigits 10 n, c.isDigit = true :=
      fun c hc => Nat.isDigit_of_mem_toDigits (by decide) (by decide) hc
    have hvalue : Nat.ofDigitChars 10 (Nat.toDigits 10 n) 0 = n := Nat.ofDigitChars_ten_toDigits
    obtain ⟨c, digits, heq, hc⟩ := exists_toDigits hpos
    rw [heq, List.forall_mem_cons] at hdigits
    rw [heq, Nat.ofDigitChars_cons, Nat.mul_zero, Nat.zero_add] at hvalue
    -- The first digit is not zero, so the others are gathered after it.
    obtain ⟨d, hd⟩ := Nat.exists_eq_succ_of_ne_zero (Nat.ne_of_gt hc)
    rw [hd] at hvalue
    have hgather := gather_digits hdigits.2 hrest (hvalue.symm ▸ hn)
    rw [hvalue] at hgather
    rw [heq, bytesOf_cons (digit_ascii hdigits.1), List.cons_append]
    unfold readNumber
    simp only [digitOf?_byte hdigits.1, hd, hgather]
    exact afterInteger_of_ends hrest negative n

theorem toList_toString_int (n : Int) : (toString n).toList =
    if 0 ≤ n then Nat.toDigits 10 n.toNat else '-' :: Nat.toDigits 10 (-n).toNat := by
  rw [Int.toString_eq_repr, Int.repr_eq_if]
  split
  · rw [Nat.repr_eq_ofList_toDigits, String.toList_ofList]
  · have hminus : "-".toList = ['-'] := rfl
    rw [String.toList_append, Nat.repr_eq_ofList_toDigits, hminus, String.toList_ofList,
      List.singleton_append]

/-! ### Strings -/

/-- Bytes that stand for themselves are read as they are. -/
theorem stringBytes_plain {bytes : List UInt8}
    (h : ∀ b ∈ bytes, (b == byte '"') = false ∧ (b == byte '\\') = false ∧ ¬ b < 0x20)
    (read rest : List UInt8) : stringBytes .plain read (bytes ++ rest) =
      stringBytes .plain (bytes.reverse ++ read) rest := by
  induction bytes generalizing read with
  | nil => rfl
  | cons b bytes ih =>
      rw [List.forall_mem_cons] at h
      obtain ⟨⟨hquote, hbackslash, hcontrol⟩, hbytes⟩ := h
      rw [List.cons_append, stringBytes, hquote, hbackslash, if_neg Bool.false_ne_true,
        if_neg Bool.false_ne_true, if_neg hcontrol, ih hbytes, List.reverse_cons,
        List.append_assoc, List.singleton_append]

/-- An escape of one letter. -/
theorem stringBytes_letter {letter : Char} {b : UInt8} (hletter : (byte letter == byte 'u') = false)
    (h : escapedByte? (byte letter) = some b) (read rest : List UInt8) :
    stringBytes .plain read (byte '\\' :: byte letter :: rest) =
      stringBytes .plain (b :: read) rest := by
  have hescape : stringBytes .plain read (byte '\\' :: byte letter :: rest) =
      stringBytes .escape read (byte letter :: rest) := by
    rw [stringBytes]
    rfl
  rw [hescape, stringBytes, hletter, if_neg Bool.false_ne_true, h]

/-- An escape of four digits, the first two of them zeros. -/
theorem stringBytes_digits {n : Nat} (hn : n < 0x20) (read rest : List UInt8) :
    stringBytes .plain read (byte '\\' :: byte 'u' :: byte '0' :: byte '0' ::
      byte (Ascii.hexDigitLower (n / 16)) :: byte (Ascii.hexDigitLower (n % 16)) :: rest) =
      stringBytes .plain (UInt8.ofNat n :: read) rest := by
  have hdigit : ∀ d < 16, Ascii.hexValue? (charOf (byte (Ascii.hexDigitLower d))) = some d := by
    decide
  have hzero : Ascii.hexValue? (charOf (byte '0')) = some 0 := by decide
  have hfour : hexFour? [byte '0', byte '0', byte (Ascii.hexDigitLower (n / 16)),
      byte (Ascii.hexDigitLower (n % 16))] = some n := by
    simp [hexFour?, hzero, hdigit (n / 16) (by omega), hdigit (n % 16) (by omega),
      Nat.div_add_mod']
  have hbytes : ∀ n < 0x20, scalarBytes n = [UInt8.ofNat n] := by decide
  have hclose : closeEscape none n = .ok ([UInt8.ofNat n], .plain) := by
    have hlow : (0xDC00 ≤ n && n ≤ 0xDFFF) = false := by simp; omega
    have hhigh : (0xD800 ≤ n && n ≤ 0xDBFF) = false := by simp; omega
    simp only [closeEscape, hlow, hhigh, hbytes n hn, Bool.false_eq_true, if_false]
  have hhex : stringBytes .plain read (byte '\\' :: byte 'u' :: byte '0' :: byte '0' ::
      byte (Ascii.hexDigitLower (n / 16)) :: byte (Ascii.hexDigitLower (n % 16)) :: rest) =
      stringBytes (.hex none [byte '0', byte '0', byte (Ascii.hexDigitLower (n / 16))]) read
        (byte (Ascii.hexDigitLower (n % 16)) :: rest) := by
    simp only [stringBytes]
    rfl
  rw [hhex, stringBytes]
  simp [hfour, hclose]

/-- A character that is not escaped has no byte that ends the string or is escaped. -/
theorem plain_utf8EncodeChar {c : Char} (hquote : c ≠ '"') (hbackslash : c ≠ '\\')
    (hcontrol : 0x20 ≤ c.toNat) : ∀ b ∈ String.utf8EncodeChar c,
      (b == byte '"') = false ∧ (b == byte '\\') = false ∧ ¬ b < 0x20 := by
  intro b hb
  by_cases hwide : 0x80 ≤ c.toNat
  · have hbyte := Utf8.le_of_mem_utf8EncodeChar hwide hb
    refine ⟨?_, ?_, ?_⟩
    · exact beq_eq_false_iff_ne.2 fun heq => absurd (heq ▸ hbyte) (by decide)
    · exact beq_eq_false_iff_ne.2 fun heq => absurd (heq ▸ hbyte) (by decide)
    · exact fun hlt => absurd (UInt8.lt_iff_toNat_lt.1 hlt)
        (Nat.not_lt.2 (Nat.le_trans (by decide) hbyte))
  · have hascii := Nat.not_le.1 hwide
    rw [Utf8.utf8EncodeChar_ascii hascii, List.mem_singleton] at hb
    subst hb
    refine ⟨?_, ?_, ?_⟩
    · exact beq_eq_false_iff_ne.2 fun heq => hquote (byte_inj hascii (by decide) heq)
    · exact beq_eq_false_iff_ne.2 fun heq => hbackslash (byte_inj hascii (by decide) heq)
    · rw [UInt8.lt_iff_toNat_lt, UInt8.toNat_ofNat', Nat.mod_eq_of_lt (by omega)]
      exact Nat.not_lt.2 hcontrol

/-- A character is read as it is escaped. -/
theorem stringBytes_escapeChar (c : Char) (read rest : List UInt8) :
    stringBytes .plain read (bytesOf (escapeChar c) ++ rest) =
      stringBytes .plain ((String.utf8EncodeChar c).reverse ++ read) rest := by
  by_cases hletter : c ∈ ['"', '\\', '\x08', '\t', '\n', '\x0c', '\r']
  · simp only [List.mem_cons, List.not_mem_nil, or_false] at hletter
    rcases hletter with rfl | rfl | rfl | rfl | rfl | rfl | rfl <;>
      exact stringBytes_letter (by decide) (by decide) read rest
  · simp only [List.mem_cons, List.not_mem_nil, or_false, not_or] at hletter
    obtain ⟨hquote, hbackslash, hback, htab, hline, hform, hreturn⟩ := hletter
    simp only [escapeChar, beq_iff_eq, hquote, hbackslash, hback, htab, hline, hform, hreturn,
      if_false]
    split
    · rename_i hcontrol
      have hdigits : ∀ n < 0x20, bytesOf ['\\', 'u', '0', '0', Ascii.hexDigitLower (n / 16),
          Ascii.hexDigitLower (n % 16)] = [byte '\\', byte 'u', byte '0', byte '0',
            byte (Ascii.hexDigitLower (n / 16)), byte (Ascii.hexDigitLower (n % 16))] := by
        decide
      rw [hdigits _ hcontrol, Utf8.utf8EncodeChar_ascii (by omega)]
      exact stringBytes_digits hcontrol read rest
    · rename_i hcontrol
      have hplain := plain_utf8EncodeChar hquote hbackslash (Nat.not_lt.1 hcontrol)
      have hbytes : bytesOf [c] = String.utf8EncodeChar c := List.append_nil _
      rw [hbytes, stringBytes_plain hplain]

theorem stringBytes_escaped (text : List Char) (read rest : List UInt8) :
    stringBytes .plain read (bytesOf (text.flatMap escapeChar) ++ byte '"' :: rest) =
      .ok (read.reverse ++ bytesOf text, rest) := by
  induction text generalizing read with
  | nil =>
      rw [List.flatMap_nil, bytesOf_nil, List.nil_append, List.append_nil, stringBytes]
      rfl
  | cons c text ih =>
      rw [List.flatMap_cons, bytesOf_append, List.append_assoc, stringBytes_escapeChar, ih,
        List.reverse_append, List.reverse_reverse, List.append_assoc]
      rfl

theorem decode?_encode (text : String) : Utf8.decode? (Utf8.encode text) = some text := by
  simp [Utf8.decode?, Utf8.units_encode]

/-- A string is read back from what stands after its opening quote. -/
theorem readString_printString (text : String) (rest : List UInt8) :
    readString (bytesOf (printString text).tail ++ rest) = .ok (text, rest) := by
  have hbytes : bytesOf (printString text).tail ++ rest =
      bytesOf (text.toList.flatMap escapeChar) ++ byte '"' :: rest := by
    rw [printString, List.cons_append, List.tail_cons, bytesOf_append, List.append_assoc]
    rfl
  have hread := stringBytes_escaped text.toList [] rest
  have hdecode := decode?_encode text
  rw [List.reverse_nil, List.nil_append] at hread
  rw [Utf8.encode, ← bytesOf] at hdecode
  rw [hbytes, readString, hread]
  simp only [bind, Except.bind, hdecode]
  rfl

/-! ### Single values -/

/-- What the first byte of a value decides. -/
structure Opening (depth : Nat) (s : List UInt8) : Prop where
  wordNull : readValue depth (byte 'n' :: s) = do
    let ((), s) ← readWord ['u', 'l', 'l'] s
    return (.null, s)
  wordTrue : readValue depth (byte 't' :: s) = do
    let ((), s) ← readWord ['r', 'u', 'e'] s
    return (.bool true, s)
  wordFalse : readValue depth (byte 'f' :: s) = do
    let ((), s) ← readWord ['a', 'l', 's', 'e'] s
    return (.bool false, s)
  minus : readValue depth (byte '-' :: s) = do
    let (n, s) ← readNumber true s
    return (.number n, s)
  digit : ∀ d < 10, readValue depth (byte (Char.ofNat (0x30 + d)) :: s) = do
    let (n, s) ← readNumber false (byte (Char.ofNat (0x30 + d)) :: s)
    return (.number n, s)
  quote : readValue depth (byte '"' :: s) = do
    let (text, s) ← readString s
    return (.string text, s)
  bracket : readValue (depth + 1) (byte '[' :: s) = do
    let (items, s) ← readItems (readValue depth) (s.length + 1) true [] s
    return (.array items, s)
  brace : readValue (depth + 1) (byte '\x7b' :: s) = do
    let (fields, s) ← readFields (readValue depth) (s.length + 1) true [] s
    return (.object fields, s)

theorem opening (depth : Nat) (s : List UInt8) : Opening depth s where
  wordNull := by rw [readValue]; rfl
  wordTrue := by rw [readValue]; rfl
  wordFalse := by rw [readValue]; rfl
  minus := by rw [readValue]; rfl
  digit d hd := by
    have hcases : d = 0 ∨ d = 1 ∨ d = 2 ∨ d = 3 ∨ d = 4 ∨ d = 5 ∨ d = 6 ∨ d = 7 ∨ d = 8 ∨
        d = 9 := by
      omega
    rw [readValue]
    rcases hcases with rfl | rfl | rfl | rfl | rfl | rfl | rfl | rfl | rfl | rfl <;> rfl
  quote := by rw [readValue]; rfl
  bracket := by rw [readValue]; rfl
  brace := by rw [readValue]; rfl

theorem readValue_digit {c : Char} (hc : c.isDigit = true) {s rest : List UInt8} {n : Number}
    (h : readNumber false (byte c :: s) = .ok (n, rest)) (depth : Nat) :
    readValue depth (byte c :: s) = .ok (.number n, rest) := by
  obtain ⟨d, hd, rfl⟩ := exists_digit hc
  rw [(opening depth s).digit d hd, h]
  rfl

theorem readValue_minus {s rest : List UInt8} {n : Number}
    (h : readNumber true s = .ok (n, rest)) (depth : Nat) :
    readValue depth (byte '-' :: s) = .ok (.number n, rest) := by
  rw [(opening depth s).minus, h]
  rfl

/-- An integer of 64 bits is read back. -/
theorem readValue_integer {n : Int} (hmin : minInteger ≤ n) (hmax : n ≤ maxInteger) (depth : Nat)
    {rest : List UInt8} (hrest : EndsNumber rest) :
    readValue depth (bytesOf (toString n).toList ++ rest) = .ok (.number (.integer n), rest) := by
  have hleast : minInteger = -(2 ^ 63) := by decide
  have hmost : maxInteger = 2 ^ 64 - 1 := by decide
  have hpow : Nat.pow 2 63 = 2 ^ 63 ∧ Nat.pow 2 64 = 2 ^ 64 := ⟨rfl, rfl⟩
  rw [toList_toString_int]
  split
  · rename_i hsign
    have hfits : fits n.toNat = true := by
      simp only [fits, decide_eq_true_eq]
      omega
    have hwhole : wholeNumber false n.toNat = .integer n := by
      simp only [wholeNumber, Bool.not_false, if_true, Int.toNat_of_nonneg hsign]
    have hread := readNumber_digits hfits hrest false
    obtain ⟨c, digits, heq, hc⟩ := exists_first_digit n.toNat
    rw [hwhole, heq, bytesOf_cons (digit_ascii hc), List.cons_append] at hread
    rw [heq, bytesOf_cons (digit_ascii hc), List.cons_append]
    exact readValue_digit hc hread depth
  · rename_i hsign
    have hfits : fits (-n).toNat = true := by
      simp only [fits, decide_eq_true_eq]
      omega
    have hwhole : wholeNumber true (-n).toNat = .integer n := by
      have hsmall : ¬ ((-n).toNat = 0 ∨ Nat.pow 2 63 < (-n).toNat) := by omega
      have hvalue : -((-n).toNat : Int) = n := by omega
      simp only [wholeNumber, Bool.not_true, Bool.false_eq_true, if_false, Bool.or_eq_true,
        decide_eq_true_eq, hsmall, hvalue]
    have hread := readNumber_digits hfits hrest true
    rw [hwhole] at hread
    rw [bytesOf_cons (by decide), List.cons_append]
    exact readValue_minus hread depth

theorem readValue_string (text : String) (depth : Nat) (rest : List UInt8) :
    readValue depth (bytesOf (printString text) ++ rest) = .ok (.string text, rest) := by
  have hstring := (opening depth (bytesOf (printString text).tail ++ rest)).quote
  rw [readString_printString] at hstring
  exact hstring

theorem readValue_null (depth : Nat) (rest : List UInt8) :
    readValue depth (bytesOf (chars .null) ++ rest) = .ok (.null, rest) :=
  (opening depth (byte 'u' :: byte 'l' :: byte 'l' :: rest)).wordNull

theorem readValue_bool (b : Bool) (depth : Nat) (rest : List UInt8) :
    readValue depth (bytesOf (chars (.bool b)) ++ rest) = .ok (.bool b, rest) := by
  cases b with
  | false => exact (opening depth (byte 'a' :: byte 'l' :: byte 's' :: byte 'e' :: rest)).wordFalse
  | true => exact (opening depth (byte 'r' :: byte 'u' :: byte 'e' :: rest)).wordTrue

/-! ### Items -/

theorem skipBlanks_cons {b : UInt8} (h : isBlank b = false) (rest : List UInt8) :
    skipBlanks (b :: rest) = b :: rest := by
  rw [skipBlanks, List.dropWhile_cons, h, if_neg Bool.false_ne_true]

/-- The text of a value opens with a byte that neither is a blank nor ends an array. -/
theorem exists_bytes {v : Json} (h : v.Integral) : ∃ b rest, bytesOf (chars v) = b :: rest ∧
    isBlank b = false ∧ (b == byte ']') = false := by
  cases v with
  | null => exact ⟨_, _, rfl, by decide, by decide⟩
  | bool b => cases b <;> exact ⟨_, _, rfl, by decide, by decide⟩
  | number n =>
      cases n with
      | integer n =>
          have hdigit : ∀ d < 10, isBlank (byte (Char.ofNat (0x30 + d))) = false ∧
              (byte (Char.ofNat (0x30 + d)) == byte ']') = false := by
            decide
          have htext := toList_toString_int n
          rw [chars, printNumber, htext]
          split
          · obtain ⟨c, digits, heq, hc⟩ := exists_first_digit n.toNat
            obtain ⟨d, hd, hcd⟩ := exists_digit hc
            refine ⟨byte c, bytesOf digits, ?_, ?_⟩
            · rw [heq, bytesOf_cons (digit_ascii hc)]
            · rw [hcd]
              exact hdigit d hd
          · exact ⟨_, _, bytesOf_cons (by decide) _, by decide, by decide⟩
      | double d => exact h.elim
  | string s => exact ⟨_, _, rfl, by decide, by decide⟩
  | array items => exact ⟨_, _, rfl, by decide, by decide⟩
  | object fields => exact ⟨_, _, rfl, by decide, by decide⟩

theorem charsOfItems_cons (v : Json) (items : List Json) :
    charsOfItems (v :: items) = chars v ++ items.flatMap fun item => ',' :: chars item := by
  induction items generalizing v with
  | nil => rw [charsOfItems, List.flatMap_nil, List.append_nil]
  | cons next items ih => rw [charsOfItems, ih, List.flatMap_cons, List.cons_append]

/-- The text of an entry. -/
def entryChars (e : String × Json) : List Char :=
  printString e.1 ++ ':' :: chars e.2

theorem charsOfFields_cons (e : String × Json) (fields : Fields) :
    charsOfFields (e :: fields) =
      entryChars e ++ fields.flatMap fun e => ',' :: entryChars e := by
  induction fields generalizing e with
  | nil => rw [charsOfFields, List.flatMap_nil, List.append_nil, entryChars]
  | cons next fields ih =>
      rw [charsOfFields, ← entryChars, ih, List.flatMap_cons, List.cons_append]

theorem endsNumber_items (items : List Json) (rest : List UInt8) :
    EndsNumber (bytesOf (items.flatMap fun item => ',' :: chars item) ++ byte ']' :: rest) := by
  cases items with
  | nil => exact endsNumber_cons (by decide) rest
  | cons item items => exact endsNumber_cons (by decide) _

theorem endsNumber_fields (fields : Fields) (rest : List UInt8) :
    EndsNumber (bytesOf (fields.flatMap fun e => ',' :: entryChars e) ++
      byte '\x7d' :: rest) := by
  cases fields with
  | nil => exact endsNumber_cons (by decide) rest
  | cons e fields => exact endsNumber_cons (by decide) _

section Reading

variable {item : List UInt8 → Except Stop (Json × List UInt8)}

/-- What `item` makes of the text of a value, whatever follows that ends a number. -/
def Reads (item : List UInt8 → Except Stop (Json × List UInt8)) (v w : Json) : Prop :=
  ∀ rest, EndsNumber rest → item (bytesOf (chars v) ++ rest) = .ok (w, rest)

theorem readItems_first {v w : Json} (hv : v.Integral) (h : Reads item v w) (rounds : Nat)
    {rest : List UInt8} (hrest : EndsNumber rest) :
    readItems item (rounds + 1) true [] (bytesOf (chars v) ++ rest) =
      readItems item rounds false [w] rest := by
  obtain ⟨b, bytes, heq, hblank, hend⟩ := exists_bytes hv
  have hread := h rest hrest
  rw [heq, List.cons_append] at hread ⊢
  rw [readItems, skipBlanks_cons hblank]
  simp only [hend, Bool.false_eq_true, if_false, if_true, hread]
  rfl

/-- One more item is read after a comma. -/
theorem readItems_next {v w : Json} (hv : v.Integral) (h : Reads item v w) (rounds : Nat)
    (read : List Json) {rest : List UInt8} (hrest : EndsNumber rest) :
    readItems item (rounds + 1) false read (byte ',' :: (bytesOf (chars v) ++ rest)) =
      readItems item rounds false (w :: read) rest := by
  obtain ⟨b, bytes, heq, hblank, hend⟩ := exists_bytes hv
  have hread := h rest hrest
  have hcomma : (byte ',' == byte ']') = false := by decide
  rw [heq, List.cons_append] at hread ⊢
  rw [readItems, skipBlanks_cons (by decide)]
  simp only [hcomma, beq_self_eq_true, Bool.false_eq_true, if_false, if_true,
    skipBlanks_cons hblank, hend, hread]
  rfl

/-- The items after the first are read one after the other. -/
theorem readItems_rest {items : List Json} {f : Json → Json}
    (hitems : ∀ v ∈ items, v.Integral) (h : ∀ v ∈ items, Reads item v (f v)) {rounds : Nat}
    (hrounds : items.length < rounds) (read : List Json) (rest : List UInt8) :
    readItems item rounds false read
        (bytesOf (items.flatMap fun v => ',' :: chars v) ++ byte ']' :: rest) =
      .ok (read.reverse ++ items.map f, rest) := by
  obtain ⟨rounds, rfl⟩ := Nat.exists_eq_succ_of_ne_zero (Nat.ne_zero_of_lt hrounds)
  induction items generalizing rounds read with
  | nil =>
      rw [List.flatMap_nil, bytesOf_nil, List.nil_append, readItems, skipBlanks_cons (by decide),
        List.map_nil, List.append_nil]
      simp only [beq_self_eq_true, if_true]
  | cons v items ih =>
      rw [List.forall_mem_cons] at hitems h
      rw [List.length_cons] at hrounds
      obtain ⟨rounds, rfl⟩ := Nat.exists_eq_succ_of_ne_zero (show rounds ≠ 0 by omega)
      rw [List.flatMap_cons, List.cons_append, bytesOf_cons (by decide), bytesOf_append,
        List.cons_append, List.append_assoc,
        readItems_next hitems.1 h.1 _ read (endsNumber_items items rest),
        ih hitems.2 h.2 _ _ (by omega), List.reverse_cons, List.append_assoc, List.map_cons,
        List.singleton_append]

/-- The items of an array are read one after the other. -/
theorem readItems_charsOfItems {items : List Json} {f : Json → Json}
    (hitems : ∀ v ∈ items, v.Integral) (h : ∀ v ∈ items, Reads item v (f v)) {rounds : Nat}
    (hrounds : items.length < rounds) (rest : List UInt8) :
    readItems item rounds true [] (bytesOf (charsOfItems items) ++ byte ']' :: rest) =
      .ok (items.map f, rest) := by
  obtain ⟨rounds, rfl⟩ := Nat.exists_eq_succ_of_ne_zero (Nat.ne_zero_of_lt hrounds)
  cases items with
  | nil =>
      rw [charsOfItems, bytesOf_nil, List.nil_append, readItems, skipBlanks_cons (by decide)]
      simp only [beq_self_eq_true, if_true, List.reverse_nil, List.map_nil]
  | cons v items =>
      rw [List.forall_mem_cons] at hitems h
      rw [List.length_cons] at hrounds
      rw [charsOfItems_cons, bytesOf_append, List.append_assoc,
        readItems_first hitems.1 h.1 _ (endsNumber_items items rest),
        readItems_rest hitems.2 h.2 (by omega) [f v] rest]
      rfl

/-! ### Entries -/

/-- A key and its value. -/
theorem readEntry_print {e : String × Json} {w : Json} (h : Reads item e.2 w) {rest : List UInt8}
    (hrest : EndsNumber rest) :
    readEntry item (bytesOf (entryChars e) ++ rest) =
      .ok ((e.1, w), rest) := by
  have hkey : (bytesOf (entryChars e) ++ rest).drop 1 =
      bytesOf (printString e.1).tail ++ byte ':' :: (bytesOf (chars e.2) ++ rest) := by
    rw [entryChars, bytesOf_append, bytesOf_cons (by decide), List.append_assoc]
    rfl
  rw [readEntry, hkey, readString_printString]
  simp only [bind, Except.bind, skipBlanks_cons (show isBlank (byte ':') = false by decide),
    beq_self_eq_true, if_true, h rest hrest]
  rfl

theorem readFields_first {e : String × Json} {w : Json} (h : Reads item e.2 w) (rounds : Nat)
    {rest : List UInt8} (hrest : EndsNumber rest) :
    readFields item (rounds + 1) true [] (bytesOf (entryChars e) ++ rest) =
      readFields item rounds false (insertSorted e.1 w []) rest := by
  have hread := readEntry_print h hrest
  have hopen : bytesOf (entryChars e) ++ rest =
      byte '"' :: (bytesOf ((printString e.1).tail ++ ':' :: chars e.2) ++ rest) := rfl
  have hend : (byte '"' == byte '\x7d') = false := by decide
  rw [hopen] at hread ⊢
  rw [readFields, skipBlanks_cons (by decide)]
  simp only [hend, beq_self_eq_true, Bool.false_eq_true, if_false, if_true, hread]
  rfl

/-- One more entry is read after a comma. -/
theorem readFields_next {e : String × Json} {w : Json} (h : Reads item e.2 w) (rounds : Nat)
    (read : Fields) {rest : List UInt8} (hrest : EndsNumber rest) :
    readFields item (rounds + 1) false read
        (byte ',' :: (bytesOf (entryChars e) ++ rest)) =
      readFields item rounds false (insertSorted e.1 w read) rest := by
  have hread := readEntry_print h hrest
  have hopen : bytesOf (entryChars e) ++ rest =
      byte '"' :: (bytesOf ((printString e.1).tail ++ ':' :: chars e.2) ++ rest) := rfl
  have hcomma : (byte ',' == byte '\x7d') = false := by decide
  rw [hopen] at hread ⊢
  rw [readFields, skipBlanks_cons (by decide)]
  simp only [hcomma, beq_self_eq_true, Bool.false_eq_true, if_false, if_true,
    skipBlanks_cons (show isBlank (byte '"') = false by decide), hread]
  rfl

/-- The entries after the first are read one after the other. -/
theorem readFields_rest {fields : Fields} {f : Json → Json}
    (h : ∀ e ∈ fields, Reads item e.2 (f e.2)) {rounds : Nat} (hrounds : fields.length < rounds)
    (read : Fields) (rest : List UInt8) :
    readFields item rounds false read
        (bytesOf (fields.flatMap fun e => ',' :: entryChars e) ++
          byte '\x7d' :: rest) =
      .ok (insertAll read (fields.map fun e => (e.1, f e.2)), rest) := by
  obtain ⟨rounds, rfl⟩ := Nat.exists_eq_succ_of_ne_zero (Nat.ne_zero_of_lt hrounds)
  induction fields generalizing rounds read with
  | nil =>
      rw [List.flatMap_nil, bytesOf_nil, List.nil_append, readFields, skipBlanks_cons (by decide)]
      simp only [beq_self_eq_true, if_true]
      rfl
  | cons e fields ih =>
      rw [List.forall_mem_cons] at h
      rw [List.length_cons] at hrounds
      obtain ⟨rounds, rfl⟩ := Nat.exists_eq_succ_of_ne_zero (show rounds ≠ 0 by omega)
      rw [List.flatMap_cons, List.cons_append, bytesOf_cons (by decide), bytesOf_append,
        List.cons_append, List.append_assoc,
        readFields_next h.1 _ read (endsNumber_fields fields rest), ih h.2 _ _ (by omega)]
      rfl

/-- The entries of an object are read one after the other. -/
theorem readFields_charsOfFields {fields : Fields} {f : Json → Json}
    (h : ∀ e ∈ fields, Reads item e.2 (f e.2)) {rounds : Nat} (hrounds : fields.length < rounds)
    (rest : List UInt8) :
    readFields item rounds true [] (bytesOf (charsOfFields fields) ++ byte '\x7d' :: rest) =
      .ok (insertAll [] (fields.map fun e => (e.1, f e.2)), rest) := by
  obtain ⟨rounds, rfl⟩ := Nat.exists_eq_succ_of_ne_zero (Nat.ne_zero_of_lt hrounds)
  cases fields with
  | nil =>
      rw [charsOfFields, bytesOf_nil, List.nil_append, readFields, skipBlanks_cons (by decide)]
      simp only [beq_self_eq_true, if_true]
      rfl
  | cons e fields =>
      rw [List.forall_mem_cons] at h
      rw [List.length_cons] at hrounds
      rw [charsOfFields_cons, bytesOf_append, List.append_assoc,
        readFields_first h.1 _ (endsNumber_fields fields rest),
        readFields_rest h.2 (by omega) _ rest]
      rfl

end Reading

/-! ### Values -/

/-- No text has more characters than bytes. -/
theorem length_le_bytesOf (text : List Char) : text.length ≤ (bytesOf text).length := by
  induction text with
  | nil => exact Nat.le_refl 0
  | cons c text ih =>
      have hpos := List.length_pos_iff.2 (@String.utf8EncodeChar_ne_nil c)
      rw [bytesOf, List.flatMap_cons, ← bytesOf, List.length_append, List.length_cons]
      omega

/-- Every item adds to the text of an array, every entry to that of an object. -/
theorem length_le_flatMap_cons {α : Type} (c : Char) (f : α → List Char) (xs : List α) :
    xs.length ≤ (xs.flatMap fun x => c :: f x).length := by
  induction xs with
  | nil => exact Nat.le_refl 0
  | cons x xs ih =>
      rw [List.flatMap_cons, List.length_append, List.length_cons, List.length_cons]
      omega

theorem length_items_le (items : List Json) (rest : List UInt8) :
    items.length ≤ (bytesOf (charsOfItems items) ++ byte ']' :: rest).length := by
  rw [List.length_append, List.length_cons]
  cases items with
  | nil => exact Nat.zero_le _
  | cons v items =>
      have hbytes := length_le_bytesOf (charsOfItems (v :: items))
      have hitems := length_le_flatMap_cons ',' chars items
      rw [charsOfItems_cons, List.length_append, ← charsOfItems_cons] at hbytes
      rw [List.length_cons]
      omega

theorem length_fields_le (fields : Fields) (rest : List UInt8) :
    fields.length ≤ (bytesOf (charsOfFields fields) ++ byte '\x7d' :: rest).length := by
  rw [List.length_append, List.length_cons]
  cases fields with
  | nil => exact Nat.zero_le _
  | cons e fields =>
      have hbytes := length_le_bytesOf (charsOfFields (e :: fields))
      have hfields := length_le_flatMap_cons ',' entryChars fields
      rw [charsOfFields_cons, List.length_append, ← charsOfFields_cons] at hbytes
      rw [List.length_cons]
      omega

theorem readValue_array {items : List Json} {f : Json → Json} {depth : Nat}
    (hitems : ∀ v ∈ items, v.Integral) (h : ∀ v ∈ items, Reads (readValue depth) v (f v))
    (rest : List UInt8) :
    readValue (depth + 1) (bytesOf (chars (.array items)) ++ rest) =
      .ok (.array (items.map f), rest) := by
  let inner := bytesOf (charsOfItems items) ++ byte ']' :: rest
  have hopen : bytesOf (chars (.array items)) ++ rest = byte '[' :: inner := by
    rw [chars, List.cons_append, bytesOf_cons (by decide), bytesOf_append, List.cons_append,
      List.append_assoc]
    rfl
  have hrounds := Nat.lt_succ_of_le (length_items_le items rest)
  rw [hopen, (opening depth inner).bracket, readItems_charsOfItems hitems h hrounds rest]
  rfl

theorem readValue_object {fields : Fields} {f : Json → Json} {depth : Nat}
    (h : ∀ e ∈ fields, Reads (readValue depth) e.2 (f e.2)) (rest : List UInt8) :
    readValue (depth + 1) (bytesOf (chars (.object fields)) ++ rest) =
      .ok (.object (insertAll [] (fields.map fun e => (e.1, f e.2))), rest) := by
  let inner := bytesOf (charsOfFields fields) ++ byte '\x7d' :: rest
  have hopen : bytesOf (chars (.object fields)) ++ rest = byte '\x7b' :: inner := by
    rw [chars, List.cons_append, bytesOf_cons (by decide), bytesOf_append, List.cons_append,
      List.append_assoc]
    rfl
  have hrounds := Nat.lt_succ_of_le (length_fields_le fields rest)
  rw [hopen, (opening depth inner).brace, readFields_charsOfFields h hrounds rest]
  rfl

/-- The text of a value is read as the value that comes of putting its entries in. -/
theorem readValue_chars {v : Json} (hv : v.Integral) {depth : Nat} (hdepth : v.nesting ≤ depth) :
    Reads (readValue depth) v v.assemble := by
  induction v using inductionOn generalizing depth with
  | null => exact fun rest _ => readValue_null depth rest
  | bool b => exact fun rest _ => readValue_bool b depth rest
  | number n =>
      cases n with
      | integer n => exact fun _ hrest => readValue_integer hv.1 hv.2 depth hrest
      | double d => exact hv.elim
  | string s => exact fun rest _ => readValue_string s depth rest
  | array items ih =>
      intro rest _
      have hitems : ∀ item ∈ items, item.Integral := integralItems_iff.1 hv
      obtain ⟨depth, rfl⟩ := Nat.exists_eq_succ_of_ne_zero (Nat.ne_zero_of_lt hdepth)
      rw [assemble_array]
      exact readValue_array hitems (fun item hitem => ih item hitem (hitems item hitem)
        (nestingItems_le_iff.1 (Nat.le_of_succ_le_succ hdepth) item hitem)) rest
  | object fields ih =>
      intro rest _
      obtain ⟨depth, rfl⟩ := Nat.exists_eq_succ_of_ne_zero (Nat.ne_zero_of_lt hdepth)
      rw [assemble_object]
      exact readValue_object (fun e he => ih e he (integralFields_iff.1 hv e he)
        (nestingFields_le_iff.1 (Nat.le_of_succ_le_succ hdepth) e he)) rest

/-- The whole text of a value, its entries listed in any order, is read as the value that comes of
putting them in. -/
theorem readWhole_print {v : Json} (hv : v.Integral) {depth : Nat} (hdepth : v.nesting ≤ depth) :
    readWhole depth (Utf8.encode v.print) = .ok v.assemble := by
  have hread := readValue_chars hv hdepth [] endsNumber_nil
  rw [List.append_nil] at hread
  rw [print, encode_ofList, readWhole, hread]
  rfl

end Gateway.Json
