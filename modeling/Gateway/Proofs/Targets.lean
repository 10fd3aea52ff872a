/-
Module: Gateway.Proofs.Targets
Layer: Proofs
Purpose: Which texts with the scheme of calls are targets, and what is read from them
  (`Http.Uri.parse_http_eq_ok_iff`).  A written query that is appended to a target never makes it
  unreadable (`Http.Uri.exists_parse_append`), but what it is read as depends on the marks before
  it: after a `#` nothing is read, and after a question mark another one does not count
  (`Http.Uri.cutAt_hash_appended`, `Http.Uri.cutAt_mark_appended`).
Main exports: Http.Uri.ReadsAs, Http.Uri.parse_http_eq_ok_iff, Http.Uri.appended,
  Http.Uri.cutAt_hash_appended, Http.Uri.cutAt_mark_appended, Http.Uri.splitAuthority_append,
  Http.Uri.exists_parse_append
-/
import Gateway.Http.Uri
import Gateway.Proofs.Forms

namespace Gateway

namespace Http.Uri

/-! ### Targets with a scheme -/

/-- What a target says after its authority is read as a path and a query. -/
structure ReadsAs (rest path : List Char) (query : Option (List Char)) : Prop where
  cut : cutAt '?' (cutAt '#' rest).1 = (path, query)
  path : path.all isPathChar = true
  query : (query.getD []).all isQueryChar = true

theorem readPathAndQuery_eq_ok_iff {rest path : List Char} {query : Option (List Char)} :
    readPathAndQuery rest = .ok (path, query) ↔ ReadsAs rest path query := by
  have hunfold : readPathAndQuery rest =
      if !(cutAt '?' (cutAt '#' rest).1).1.all isPathChar then .error .badCharacter
      else if !((cutAt '?' (cutAt '#' rest).1).2.getD []).all isQueryChar then .error .badCharacter
      else .ok (cutAt '?' (cutAt '#' rest).1) := rfl
  rw [hunfold]
  constructor
  · intro h
    split at h
    · cases h
    · rename_i hpath
      split at h
      · cases h
      · rename_i hquery
        rw [Bool.not_eq_true, Bool.not_eq_false'] at hpath hquery
        have hcut := Except.ok.inj h
        rw [hcut] at hpath hquery
        exact ⟨hcut, hpath, hquery⟩
  · rintro ⟨hcut, hpath, hquery⟩
    rw [hcut]
    simp [hpath, hquery]

/-- The scheme of calls, with the mark that follows it. -/
def httpMark : List Char := ['h', 't', 't', 'p', ':', '/', '/']

theorem schemeLength?_http (rest : List Char) : schemeLength? (httpMark ++ rest) = some 4 := by
  have hscheme : (httpMark ++ rest).takeWhile isSchemeChar = ['h', 't', 't', 'p'] := rfl
  have hlength : ((httpMark ++ rest).length == 3) = false := by
    simp [httpMark]
  rw [schemeLength?, hscheme]
  change (if (httpMark ++ rest).length == 3 then none else some 4) = some 4
  rw [hlength]
  rfl

/-- The target with the scheme of calls, an authority, a path and a query. -/
def ofParts (authority path : List Char) (query : Option (List Char)) : Uri where
  scheme := some "http"
  authority := some (String.ofList authority)
  path := if path.isEmpty then "/" else String.ofList path
  query := query.map String.ofList

theorem parseFull_http (rest : List Char) : parseFull (httpMark ++ rest) =
    if rest.isEmpty then .error .empty
    else
      match checkAuthority (splitAuthority rest).1 with
      | .error fault => .error fault
      | .ok () =>
        if (splitAuthority rest).1.isEmpty then .error .badFormat
        else (fun read => ofParts (splitAuthority rest).1 read.1 read.2) <$>
          readPathAndQuery (splitAuthority rest).2 := by
  have hdrop : (httpMark ++ rest).drop (4 + 3) = rest := rfl
  rw [parseFull, schemeLength?_http]
  simp only [hdrop]
  rw [if_neg (by decide)]
  cases rest.isEmpty with
  | true => rfl
  | false =>
      cases checkAuthority (splitAuthority rest).1 with
      | error fault => rfl
      | ok done =>
          cases (splitAuthority rest).1.isEmpty with
          | true => rfl
          | false => cases readPathAndQuery (splitAuthority rest).2 <;> rfl

/-- A target with the scheme of calls is read if it is no longer than the longest, has an authority,
and the rest of it is a path with or without a query. -/
theorem parse_http_eq_ok_iff {text : String} {rest : List Char} {uri : Uri}
    (htext : text.toList = httpMark ++ rest) : parse text = .ok uri ↔
      text.utf8ByteSize ≤ longest ∧
      (splitAuthority rest).1 ≠ [] ∧ checkAuthority (splitAuthority rest).1 = .ok () ∧
      ∃ path query, ReadsAs (splitAuthority rest).2 path query ∧
        uri = ofParts (splitAuthority rest).1 path query := by
  have hfull : parse text =
      if longest < text.utf8ByteSize then .error .tooLong else parseFull (httpMark ++ rest) := by
    rw [parse, htext]
    rfl
  rw [hfull, parseFull_http]
  constructor
  · intro h
    split at h
    · cases h
    rename_i hlong
    split at h
    · cases h
    split at h
    · cases h
    rename_i hchecked
    split at h
    · cases h
    rename_i hsome
    cases hread : readPathAndQuery (splitAuthority rest).2 with
    | error fault => rw [hread] at h; cases h
    | ok read =>
        rw [hread] at h
        cases h
        exact ⟨Nat.not_lt.1 hlong, fun hnil => hsome (List.isEmpty_iff.2 hnil), hchecked,
          read.1, read.2, readPathAndQuery_eq_ok_iff.1 hread, rfl⟩
  · rintro ⟨hfits, hsome, hchecked, path, query, hread, rfl⟩
    have hrest : rest ≠ [] := by
      rintro rfl
      exact hsome rfl
    rw [if_neg (Nat.not_lt.2 hfits), if_neg (mt List.isEmpty_iff.1 hrest), hchecked]
    simp only [if_neg (mt List.isEmpty_iff.1 hsome), readPathAndQuery_eq_ok_iff.2 hread]
    rfl

/-! ### A query appended to a target -/

/-- What is put behind a path for a query: nothing if it is empty. -/
def appended (query : String) : List Char :=
  if query.isEmpty then [] else '?' :: query.toList

theorem isQueryChar_of_isFormChar {c : Char} (h : Form.isFormChar c = true) :
    isQueryChar c = true ∧ c ≠ '#' := by
  have hall : ∀ n < 0x80, Form.isFormChar (Char.ofNat n) = true →
      isQueryChar (Char.ofNat n) = true ∧ Char.ofNat n ≠ '#' := by
    decide +kernel
  have hc := hall c.toNat (Form.isFormChar_ascii h)
  rw [Char.ofNat_toNat] at hc
  exact hc h

section Appended

variable {query : String} (hquery : ∀ c ∈ query.toList, Form.isFormChar c = true)

include hquery

theorem mem_appended {c : Char} (hc : c ∈ appended query) : isQueryChar c = true ∧ c ≠ '#' := by
  unfold appended at hc
  split at hc
  · cases hc
  · rcases List.mem_cons.1 hc with rfl | hc
    · decide
    · exact isQueryChar_of_isFormChar (hquery c hc)

/-- After a `#` nothing is read. -/
theorem cutAt_hash_appended (rest : List Char) : (cutAt '#' (rest ++ appended query)).1 =
    if '#' ∈ rest then (cutAt '#' rest).1 else rest ++ appended query := by
  split
  · rename_i h
    rw [cutAt_append_of_mem h]
  · rename_i h
    have hnone : '#' ∉ appended query := fun hmem => (mem_appended hquery hmem).2 rfl
    rw [cutAt_append_of_not_mem h, cutAt_of_not_mem hnone]

end Appended

/-- After a question mark another one does not count. -/
theorem cutAt_mark_appended (rest : List Char) (query : String) :
    cutAt '?' (rest ++ appended query) =
      if '?' ∈ rest then ((cutAt '?' rest).1, (cutAt '?' rest).2.map (· ++ appended query))
      else (rest, if query.isEmpty then none else some query.toList) := by
  split
  · rename_i h
    exact cutAt_append_of_mem h _
  · rename_i h
    rw [cutAt_append_of_not_mem h]
    unfold appended
    split
    · simp [cutAt]
    · simp [cutAt]

/-- A path and query that can be read can be read with a query appended. -/
theorem ReadsAs.append {rest path : List Char} {query : Option (List Char)}
    (h : ReadsAs rest path query) {more : String}
    (hmore : ∀ c ∈ more.toList, Form.isFormChar c = true) :
    ∃ path' query', ReadsAs (rest ++ appended more) path' query' := by
  obtain ⟨hcut, hpath, hquery⟩ := h
  by_cases hhash : '#' ∈ rest
  · refine ⟨path, query, ?_, hpath, hquery⟩
    rw [cutAt_hash_appended hmore, if_pos hhash, hcut]
  · rw [cutAt_of_not_mem hhash] at hcut
    have hchars : (appended more).all isQueryChar = true :=
      List.all_eq_true.2 fun c hc => (mem_appended hmore hc).1
    have hread : cutAt '?' (cutAt '#' (rest ++ appended more)).1 =
        cutAt '?' (rest ++ appended more) := by
      rw [cutAt_hash_appended hmore, if_neg hhash]
    rw [cutAt_mark_appended] at hread
    by_cases hmark : '?' ∈ rest
    · rw [if_pos hmark, hcut] at hread
      refine ⟨path, query.map (· ++ appended more), hread, hpath, ?_⟩
      cases query with
      | none => rfl
      | some own => simpa [hchars] using hquery
    · rw [if_neg hmark] at hread
      rw [cutAt_of_not_mem hmark] at hcut
      cases hcut
      refine ⟨_, _, hread, hpath, ?_⟩
      split
      · rfl
      · rw [Option.getD_some, List.all_eq_true]
        exact fun c hc => (isQueryChar_of_isFormChar (hmore c hc)).1

theorem splitAuthority_cons (c : Char) (rest : List Char) : splitAuthority (c :: rest) =
    if endsAuthority c then ([], c :: rest)
    else (c :: (splitAuthority rest).1, (splitAuthority rest).2) := by
  rw [splitAuthority, List.takeWhile_cons, List.dropWhile_cons]
  cases endsAuthority c <;> rfl

/-- An authority that ends within a text ends there whatever follows. -/
theorem splitAuthority_append {rest : List Char} (h : ∃ c ∈ rest, endsAuthority c = true)
    (more : List Char) : splitAuthority (rest ++ more) =
      ((splitAuthority rest).1, (splitAuthority rest).2 ++ more) := by
  induction rest with
  | nil =>
      obtain ⟨_, hc, _⟩ := h
      cases hc
  | cons a rest ih =>
      rw [List.cons_append, splitAuthority_cons, splitAuthority_cons]
      split
      · rfl
      · rename_i ha
        have hrest : ∃ c ∈ rest, endsAuthority c = true := by
          obtain ⟨c, hc, hends⟩ := h
          rcases List.mem_cons.1 hc with rfl | hc
          · exact absurd hends ha
          · exact ⟨c, hc, hends⟩
        rw [ih hrest]

theorem splitAuthority_of_forall {authority : List Char}
    (h : ∀ c ∈ authority, endsAuthority c = false) (rest : List Char) :
    splitAuthority (authority ++ '/' :: rest) = (authority, '/' :: rest) := by
  induction authority with
  | nil => rfl
  | cons a authority ih =>
      rw [List.forall_mem_cons] at h
      rw [List.cons_append, splitAuthority_cons, h.1, ih h.2]
      rfl

/-- A target with the scheme of calls stays one with a query appended, unless it gets too long. -/
theorem exists_parse_append {base text : String} {rest : List Char} {query : String} {uri : Uri}
    (hbase : base.toList = httpMark ++ rest) (hends : ∃ c ∈ rest, endsAuthority c = true)
    (hquery : ∀ c ∈ query.toList, Form.isFormChar c = true) (hread : parse base = .ok uri)
    (htext : text.toList = httpMark ++ (rest ++ appended query))
    (hfits : text.utf8ByteSize ≤ longest) : ∃ uri', parse text = .ok uri' := by
  obtain ⟨_, hsome, hchecked, path, own, hreads, _⟩ := (parse_http_eq_ok_iff hbase).1 hread
  obtain ⟨path', own', hreads'⟩ := hreads.append hquery
  have hsplit := splitAuthority_append hends (appended query)
  refine ⟨_, (parse_http_eq_ok_iff htext).2 ⟨hfits, ?_, ?_, path', own', ?_, rfl⟩⟩
  · rw [hsplit]
    exact hsome
  · rw [hsplit]
    exact hchecked
  · rw [hsplit]
    exact hreads'

end Http.Uri

end Gateway
