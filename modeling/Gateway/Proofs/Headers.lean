/-
Module: Gateway.Proofs.Headers
Layer: Proofs
Purpose: What the headers of a message hold after one of them is set, and which texts are header
  values.  A number in decimal always is one, and so is the text of a value, whatever its bytes.
Main exports: Http.Headers.values_set_self, Http.Headers.values_set_of_ne,
  Http.Headers.set_of_values_eq_nil,
  Http.HeaderValue.isValueText_append, Http.HeaderValue.isValueText_toString,
  Http.HeaderValue.isValueText_text
-/
import Gateway.Http.Header
import Gateway.Proofs.Utf8

namespace Gateway

/-! ### Values of a name -/

namespace Http.Headers

theorem values_append (headers more : Headers) (name : HeaderName) :
    values (headers ++ more) name = values headers name ++ values more name := by
  simp [values]

theorem first?_eq_head? (headers : Headers) (name : HeaderName) :
    headers.first? name = (headers.values name).head? := by
  rw [first?, values, ← List.head?_filter, List.head?_map]

/-- A header that was set has the value that was set, and no other. -/
theorem values_set_self (headers : Headers) (name : HeaderName) (value : HeaderValue) :
    (headers.set name value).values name = [value] := by
  have hgone : values (headers.filter (·.1 != name)) name = [] := by
    rw [values, List.filter_filter, List.map_eq_nil_iff, List.filter_eq_nil_iff]
    intro field _
    simp
  rw [set, values_append, hgone]
  simp [values]

/-- Setting a header leaves the others alone. -/
theorem values_set_of_ne {name other : HeaderName} (h : other ≠ name) (headers : Headers)
    (value : HeaderValue) : (headers.set name value).values other = headers.values other := by
  have hkept : values (headers.filter (·.1 != name)) other = values headers other := by
    rw [values, List.filter_filter, values]
    congr 1
    apply List.filter_congr
    intro field _
    by_cases hfield : field.1 = other
    · simp [hfield, h]
    · simp [hfield]
  have hnone : values [(name, value)] other = [] := by
    simp [values, Ne.symm h]
  rw [set, values_append, hkept, hnone, List.append_nil]

/-- A name that does not occur is set by adding it. -/
theorem set_of_values_eq_nil {headers : Headers} {name : HeaderName} (value : HeaderValue)
    (h : headers.values name = []) : headers.set name value = headers ++ [(name, value)] := by
  have hkept : headers.filter (·.1 != name) = headers := by
    rw [List.filter_eq_self]
    intro field hfield
    rw [values, List.map_eq_nil_iff, List.filter_eq_nil_iff] at h
    simpa using h field hfield
  rw [set, hkept]

end Http.Headers

/-! ### Texts of values -/

namespace Http.HeaderValue

/-- Whether the bytes of a text make a header value. -/
def isValueText (text : String) : Bool :=
  (Utf8.encode text).all isValueByte

theorem isValueText_append (s t : String) :
    isValueText (s ++ t) = (isValueText s && isValueText t) := by
  simp [isValueText, Utf8.encode]

theorem exists_ofString? {text : String} (h : isValueText text = true) :
    ∃ value, ofString? text = some value ∧ value.bytes = Utf8.encode text := by
  have hbytes : (Utf8.encode text).all isValueByte = true := h
  exact ⟨⟨Utf8.encode text, hbytes⟩, dif_pos hbytes, rfl⟩

theorem isValueByte_of_isDigit {c : Char} (h : c.isDigit = true) :
    (String.utf8EncodeChar c).all isValueByte = true := by
  obtain ⟨hlow, hhigh⟩ := Char.isDigit_iff_toNat.1 h
  have hc : c = Char.ofNat c.toNat := (Char.ofNat_toNat c).symm
  have hcases : c.toNat = 48 ∨ c.toNat = 49 ∨ c.toNat = 50 ∨ c.toNat = 51 ∨ c.toNat = 52 ∨
      c.toNat = 53 ∨ c.toNat = 54 ∨ c.toNat = 55 ∨ c.toNat = 56 ∨ c.toNat = 57 := by
    change 48 ≤ c.toNat at hlow
    change c.toNat ≤ 57 at hhigh
    omega
  rw [hc]
  rcases hcases with h | h | h | h | h | h | h | h | h | h <;> rw [h] <;> decide

/-- A number in decimal is a header value. -/
theorem isValueText_toString (n : Nat) : isValueText (toString n) = true := by
  rw [isValueText, Utf8.encode, List.all_flatMap, List.all_eq_true]
  intro c hc
  have hdigits : c ∈ Nat.toDigits 10 n := by
    simpa [toString, Nat.repr] using hc
  exact isValueByte_of_isDigit (Nat.isDigit_of_mem_toDigits (by decide) (by decide) hdigits)

theorem isValueByte_of_le : ∀ b : UInt8, 0x80 ≤ b.toNat → isValueByte b = true :=
  Utf8.forall_byte (by decide +kernel)

theorem isValueByte_of_wide {c : Char} (h : 0x80 ≤ c.toNat) :
    (String.utf8EncodeChar c).all isValueByte = true := by
  rw [List.all_eq_true]
  exact fun b hb => isValueByte_of_le b (Utf8.le_of_mem_utf8EncodeChar h hb)

/-- The text of a header value is a header value once more, also where its bytes are not UTF-8. -/
theorem isValueText_text (value : HeaderValue) : isValueText value.text = true := by
  rw [isValueText, Utf8.encode, List.all_flatMap, List.all_eq_true]
  intro c hc
  rcases Utf8.byte_mem_of_mem_decodeLossy hc with hwide | hbyte
  · exact isValueByte_of_wide hwide
  · by_cases hwide : 0x80 ≤ c.toNat
    · exact isValueByte_of_wide hwide
    · rw [Utf8.utf8EncodeChar_ascii (Nat.not_le.1 hwide), List.all_cons, List.all_nil,
        Bool.and_true]
      exact List.all_eq_true.1 value.valid _ hbyte

end Http.HeaderValue

end Gateway
