/-
Module: Gateway.Proofs.DataBodies
Layer: Proofs
Purpose: The body of a response that shows data.  What stands in a value stands, text for text, in
  the value's text (`Json.Within.chars_infix`), and the text is read back; so the mapping settles
  the body, and the body the mapping (`Endpoint.data_body_settles_mapping`).
Main exports: Json.enclosed, Json.Within.chars_infix, Json.eq_of_print_eq,
  Endpoint.Outcome.data?, Endpoint.status_render_eq_ok_iff, Endpoint.data_body_settles_mapping
-/
import Gateway.Endpoint.Rendering
import Gateway.Proofs.ByteOrder
import Gateway.Proofs.ReadingBack

namespace Gateway

namespace Json

/-! ### Texts within texts -/

/-- Texts in a row, with commas between them and brackets around them. -/
def enclosed (opening closing : Char) (texts : List (List Char)) : List Char :=
  opening :: [','].intercalate texts ++ [closing]

theorem intercalate_cons (c : Char) (text : List Char) (texts : List (List Char)) :
    [c].intercalate (text :: texts) = text ++ texts.flatMap (c :: ·) := by
  induction texts generalizing text with
  | nil => rw [List.intercalate_singleton, List.flatMap_nil, List.append_nil]
  | cons next texts ih =>
      rw [List.intercalate_cons_cons, ih, List.flatMap_cons, List.append_assoc,
        List.singleton_append, List.cons_append]

theorem chars_array (items : List Json) :
    chars (.array items) = enclosed '[' ']' (items.map chars) := by
  rw [chars, enclosed]
  cases items with
  | nil => rfl
  | cons v items => rw [charsOfItems_cons, List.map_cons, intercalate_cons, List.flatMap_map]

theorem chars_object (fields : Fields) :
    chars (.object fields) = enclosed '\x7b' '\x7d' (fields.map entryChars) := by
  rw [chars, enclosed]
  cases fields with
  | nil => rfl
  | cons e fields => rw [charsOfFields_cons, List.map_cons, intercalate_cons, List.flatMap_map]

theorem infix_enclosed {text : List Char} {texts : List (List Char)} (h : text ∈ texts)
    (opening closing : Char) : text <:+: enclosed opening closing texts := by
  have hinner : text <:+: [','].intercalate texts := by
    obtain ⟨before, after, rfl⟩ := List.append_of_mem h
    cases before with
    | nil => exact intercalate_cons _ _ _ ▸ (List.prefix_append _ _).isInfix
    | cons first before =>
        rw [List.cons_append, intercalate_cons, List.flatMap_append, List.flatMap_cons]
        exact ⟨first ++ before.flatMap (',' :: ·) ++ [','], after.flatMap (',' :: ·), by simp⟩
  exact hinner.trans ⟨[opening], [closing], rfl⟩

/-- What stands in a value stands in its text. -/
theorem Within.chars_infix {part v : Json} (h : Within part v) : chars part <:+: chars v := by
  induction h with
  | self => exact List.infix_refl _
  | item hitem _ ih =>
      rw [chars_array]
      exact ih.trans (infix_enclosed (List.mem_map_of_mem hitem) _ _)
  | @field e fields he _ ih =>
      have hentry : chars e.2 <:+: entryChars e :=
        ⟨printString e.1 ++ [':'], [], by simp [entryChars]⟩
      rw [chars_object]
      exact (ih.trans hentry).trans (infix_enclosed (List.mem_map_of_mem he) _ _)

theorem bytesOf_infix {s t : List Char} (h : s <:+: t) : bytesOf s <:+: bytesOf t := by
  obtain ⟨before, after, rfl⟩ := h
  exact ⟨bytesOf before, bytesOf after, by simp⟩

/-! ### Texts of canonical values -/

variable {v w : Json}

theorem readWhole_print_of_canonical (hc : v.Canonical) (hi : v.Integral) {depth : Nat}
    (hdepth : v.nesting ≤ depth) : readWhole depth (Utf8.encode v.print) = .ok v := by
  rw [readWhole_print hi hdepth, assemble_of_canonical hc]

/-- Values with the same text are the same: a depth that suffices for both reads both from it. -/
theorem eq_of_print_eq (hv : v.Canonical) (hv' : v.Integral) (hw : w.Canonical)
    (hw' : w.Integral) (h : Utf8.encode v.print = Utf8.encode w.print) : v = w := by
  let depth := max v.nesting w.nesting
  have hfirst := readWhole_print_of_canonical hv hv' (Nat.le_max_left _ _ : _ ≤ depth)
  have hsecond := readWhole_print_of_canonical hw hw' (Nat.le_max_right _ _ : _ ≤ depth)
  rw [h, hsecond] at hfirst
  exact (Except.ok.inj hfirst).symm

end Json

namespace Endpoint

open Http (HeaderValue)

/-! ### Bodies -/

/-- The mapping that an outcome shows. -/
def Outcome.data? : Outcome → Option Json.Fields
  | .success (some payload) => some payload.data
  | .success none => some []
  | .failedWithData payload _ => some payload.data
  | .failed _ | .timeout | .methodNotAllowed => none

variable {outcome : Outcome} {data : Json.Fields}

/-- The responses with status 200 are those that show a mapping. -/
theorem status_render_eq_ok_iff {caching : Option HeaderValue} :
    (render outcome caching).status = 200 ↔ ∃ data, outcome.data? = some data := by
  cases outcome with
  | success payload => cases payload <;> exact iff_of_true rfl ⟨_, rfl⟩
  | failedWithData payload error => exact iff_of_true rfl ⟨_, rfl⟩
  | failed | timeout | methodNotAllowed =>
      constructor
      · intro h
        cases h
      · rintro ⟨_, h⟩
        cases h

theorem body_render (h : outcome.data? = some data) (caching : Option HeaderValue) :
    (render outcome caching).body = Utf8.encode (Json.object data).print := by
  cases outcome with
  | success payload => cases payload <;> cases h <;> rfl
  | failedWithData payload error =>
      cases h
      rfl
  | failed | timeout | methodNotAllowed => cases h

/-- A mapping without doubles is read back from the body that shows it, whatever depth the reader
allows beyond the mapping's own.  In the body each of its objects is written with its entries in the
order of their keys' bytes, and each of its arrays with its items in their order.  Listings that
hold the same, in whatever order they are put together, are shown with the same body, and different
mappings are shown with different bodies. -/
theorem data_body_settles_mapping (hshown : outcome.data? = some data)
    (hcanonical : (Json.object data).Canonical) (hintegral : (Json.object data).Integral)
    (caching : Option HeaderValue) :
    (render outcome caching).status = 200 ∧
    (∀ depth, (Json.object data).nesting ≤ depth →
      Json.readWhole depth (render outcome caching).body = .ok (.object data)) ∧
    (∀ fields, Json.Within (.object fields) (.object data) →
      fields.Pairwise (fun a b => Utf8.encode a.1 < Utf8.encode b.1) ∧
      Utf8.encode (.ofList (Json.enclosed '\x7b' '\x7d' (fields.map Json.entryChars))) <:+:
        (render outcome caching).body) ∧
    (∀ items, Json.Within (.array items) (.object data) →
      Utf8.encode (.ofList (Json.enclosed '[' ']' (items.map Json.chars))) <:+:
        (render outcome caching).body) ∧
    (∀ entries, Json.SameContent (.object entries) (.object data) →
      ∀ data', Json.assemble (.object entries) = .object data' →
      ∀ outcome' : Outcome, outcome'.data? = some data' →
      ∀ caching', (render outcome' caching').body = (render outcome caching).body) ∧
    ∀ data', (Json.object data').Canonical → (Json.object data').Integral →
      ∀ outcome' : Outcome, outcome'.data? = some data' →
      ∀ caching', (render outcome' caching').body = (render outcome caching).body →
      data' = data := by
  have hbody := body_render hshown caching
  have hbytes : (render outcome caching).body = Json.bytesOf (Json.object data).chars := by
    rw [hbody, Json.print, Json.encode_ofList]
  refine ⟨status_render_eq_ok_iff.2 ⟨data, hshown⟩, fun depth hdepth => ?_,
    fun fields hwithin => ⟨?_, ?_⟩, fun items hwithin => ?_,
    fun entries hsame data' hassembled outcome' hshown' caching' => ?_,
    fun data' hcanonical' hintegral' outcome' hshown' caching' hsame => ?_⟩
  · rw [hbody]
    exact Json.readWhole_print_of_canonical hcanonical hintegral hdepth
  · exact (hwithin.canonical hcanonical).1.imp Utf8.encode_lt_encode
  · rw [Json.encode_ofList, ← Json.chars_object, hbytes]
    exact Json.bytesOf_infix hwithin.chars_infix
  · rw [Json.encode_ofList, ← Json.chars_array, hbytes]
    exact Json.bytesOf_infix hwithin.chars_infix
  · have hdata : Json.object data' = .object data :=
      hassembled.symm.trans (Json.assemble_eq_of_sameContent hcanonical hsame)
    rw [body_render hshown' caching', hbody, hdata]
  · rw [body_render hshown' caching', hbody] at hsame
    exact Json.object.inj
      (Json.eq_of_print_eq hcanonical' hintegral' hcanonical hintegral hsame)

/-- Characters that are escaped in one way or another and characters that are not, integers at the
limits, and keys that the order of bytes puts after all of ASCII. -/
def ledger : Json.Fields :=
  [("", .null),
    ("\"\\/\x08\t\n\x0c\r\x00\x1f", .string "\x7f \\u0041"),
    ("rows", .array [Json.int Json.minInteger, Json.int (-1), Json.nat 0, Json.int Json.maxInteger,
      .array [], .array [.bool true, .bool false]]),
    ("z", .object [("b", .object []), ("é", .string "€"), ("😀", .string "\"")])]

/-- The entries of `ledger` in another order, an old value of one of them before the new. -/
def unsortedLedger : Json.Fields :=
  [("z", .object [("😀", .string "\""), ("b", .object []), ("é", .string "€")]),
    ("rows", .string "none yet"),
    ("\"\\/\x08\t\n\x0c\r\x00\x1f", .string "\x7f \\u0041"),
    ("rows", .array [Json.int Json.minInteger, Json.int (-1), Json.nat 0, Json.int Json.maxInteger,
      .array [], .array [.bool true, .bool false]]),
    ("", .null)]

theorem assemble_unsortedLedger :
    Json.assemble (.object unsortedLedger) = .object ledger := by
  rfl

theorem canonical_ledger : (Json.object ledger).Canonical := by
  rw [← assemble_unsortedLedger]
  exact Json.canonical_assemble _

theorem integral_ledger : (Json.object ledger).Integral := by
  simp only [ledger, Json.Integral, Json.IntegralFields, Json.IntegralItems, Json.int, Json.nat]
  decide

/-- `ledger` is read back, its innermost object is written in the order of the keys' bytes, the
unsorted entries are shown with the same body, and no data at all with another. -/
theorem ledger_body_is_sorted :
    (render (.success (some ⟨true, ledger⟩)) none).status = 200 ∧
    Json.readWhole 3 (render (.success (some ⟨true, ledger⟩)) none).body = .ok (.object ledger) ∧
    Utf8.encode "\x7b\"b\":\x7b\x7d,\"é\":\"€\",\"😀\":\"\\\"\"\x7d" <:+:
      (render (.success (some ⟨true, ledger⟩)) none).body ∧
    (∃ data, Json.assemble (.object unsortedLedger) = .object data ∧
      (render (.failedWithData ⟨false, data⟩ .aborted) none).body =
        (render (.success (some ⟨true, ledger⟩)) none).body) ∧
    (render (.success none) none).body ≠
      (render (.success (some ⟨true, ledger⟩)) none).body := by
  have hshown : (Outcome.success (some ⟨true, ledger⟩)).data? = some ledger := rfl
  have hsame : Json.SameContent (.object unsortedLedger) (.object ledger) := fun path => by
    rw [← assemble_unsortedLedger, Json.find?_assemble]
  have hwithin : Json.Within (.object [("b", .object []), ("é", .string "€"), ("😀", .string "\"")])
      (.object ledger) := by
    have hz : ("z", Json.object [("b", .object []), ("é", .string "€"), ("😀", .string "\"")]) ∈
        ledger := by
      simp [ledger]
    exact .field hz .self
  obtain ⟨hstatus, hread, hobjects, -, hlistings, hothers⟩ :=
    data_body_settles_mapping hshown canonical_ledger integral_ledger none
  refine ⟨hstatus, hread 3 (by decide), (hobjects _ hwithin).2, ?_, fun hempty => ?_⟩
  · exact ⟨ledger, assemble_unsortedLedger,
      hlistings _ hsame ledger assemble_unsortedLedger (.failedWithData ⟨false, ledger⟩ .aborted)
        rfl none⟩
  · have hnone := hothers [] ⟨List.Pairwise.nil, trivial⟩ trivial (.success none) rfl none hempty
    cases hnone

end Endpoint

end Gateway
