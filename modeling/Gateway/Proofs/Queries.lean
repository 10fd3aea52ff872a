/-
Module: Gateway.Proofs.Queries
Layer: Proofs
Purpose: What becomes of the values in a query string.  Every value of an allow-listed name is
  forwarded in its place and nothing else is, just as if the pairs were filed under their names one
  by one, and queries that are put together are forwarded together
  (`AllowList.forwarded_query_keeps_values`).  The query that a backend server is sent holds the
  forwarded values (`Backend.lists_flatten`), so that a gateway in front of that server would
  forward the same once more (`AllowList.rewritten_query_forwards_same`).
Main exports: AllowList.Listed, AllowList.grouped, AllowList.get?_grouped, Backend.Lists,
  Backend.lists_flatten, AllowList.forwarded_query_keeps_values,
  AllowList.rewritten_query_forwards_same
-/
import Gateway.Proofs.Forms
import Gateway.Proofs.Forwarding

namespace Gateway

namespace Endpoint.AllowList

/-! ### Values of a name -/

/-- The values that come with a name in a list of pairs: every one of them, in its place. -/
inductive Listed (name : String) : List (String × String) → List String → Prop where
  | nil : Listed name [] []
  | same {value : String} {rest : List (String × String)} {values : List String} :
      Listed name rest values → Listed name ((name, value) :: rest) (value :: values)
  | other {key value : String} {rest : List (String × String)} {values : List String} :
      key ≠ name → Listed name rest values → Listed name ((key, value) :: rest) values

theorem valuesOf_cons (name key value : String) (rest : List (String × String)) :
    valuesOf name ((key, value) :: rest) =
      if key = name then value :: valuesOf name rest else valuesOf name rest := by
  by_cases h : key = name <;> simp [valuesOf, h]

theorem valuesOf_append (name : String) (first second : List (String × String)) :
    valuesOf name (first ++ second) = valuesOf name first ++ valuesOf name second := by
  simp [valuesOf]

theorem listed_iff {name : String} {pairs : List (String × String)} {values : List String} :
    Listed name pairs values ↔ values = valuesOf name pairs := by
  constructor
  · intro h
    induction h with
    | nil => rfl
    | same _ ih => rw [valuesOf_cons, if_pos rfl, ih]
    | other hne _ ih => rw [valuesOf_cons, if_neg hne, ih]
  · rintro rfl
    induction pairs with
    | nil => exact .nil
    | cons pair rest ih =>
        obtain ⟨key, value⟩ := pair
        rw [valuesOf_cons]
        by_cases h : key = name
        · subst h
          rw [if_pos rfl]
          exact .same ih
        · rw [if_neg h]
          exact .other h ih

theorem valuesOf_ne_nil_iff {name : String} {pairs : List (String × String)} :
    valuesOf name pairs ≠ [] ↔ ∃ value, (name, value) ∈ pairs := by
  simp [valuesOf, List.filter_eq_nil_iff]

/-! ### Filing pair by pair -/

/-- Files a value under its name, after those that are there already. -/
def file (m : SortedMap (List String)) (pair : String × String) : SortedMap (List String) :=
  m.insert pair.1 ((m.get? pair.1).getD [] ++ [pair.2])

/-- All pairs filed under their names, in one pass. -/
def grouped (pairs : List (String × String)) : SortedMap (List String) :=
  pairs.foldl file {}

theorem get?_foldl_file (pairs : List (String × String)) (m : SortedMap (List String))
    (name : String) : (pairs.foldl file m).get? name =
      if valuesOf name pairs = [] then m.get? name
      else some ((m.get? name).getD [] ++ valuesOf name pairs) := by
  induction pairs generalizing m with
  | nil => rfl
  | cons pair rest ih =>
      obtain ⟨key, value⟩ := pair
      rw [List.foldl_cons, ih, file, SortedMap.get?_insert, valuesOf_cons]
      by_cases hkey : key = name
      · subst hkey
        simp only [if_pos, List.cons_ne_nil, if_false, Option.getD_some, List.append_assoc,
          List.singleton_append]
        split
        · rename_i hnil
          rw [hnil]
        · rfl
      · rw [if_neg (Ne.symm hkey), if_neg hkey]

/-- Filing in one pass loses no value and puts none out of its place. -/
theorem get?_grouped (pairs : List (String × String)) (name : String) :
    (grouped pairs).get? name =
      if valuesOf name pairs = [] then none else some (valuesOf name pairs) :=
  get?_foldl_file pairs {} name

/-! ### Forwarding -/

/-- The values that a map has for a name; none if there is no entry. -/
def entry (m : SortedMap (List String)) (name : String) : List String :=
  (m.get? name).getD []

theorem entry_forwardQuery (allowed : AllowList) (raw : Option String) (name : String) :
    entry (allowed.forwardQuery raw) name =
      if name ∈ allowed.query then valuesOf name (Http.Form.parseText (raw.getD "")) else [] := by
  rw [entry, get?_forwardQuery]
  by_cases hname : name ∈ allowed.query
  · by_cases hvalues : valuesOf name (Http.Form.parseText (raw.getD "")) = [] <;>
      simp [hname, hvalues]
  · simp [hname]

theorem get?_forwardQuery_eq_some_iff {allowed : AllowList} {raw : Option String} {name : String}
    {values : List String} : (allowed.forwardQuery raw).get? name = some values ↔
      name ∈ allowed.query ∧ values ≠ [] ∧
        Listed name (Http.Form.parseText (raw.getD "")) values := by
  rw [get?_forwardQuery, listed_iff, Option.ite_none_right_eq_some, Option.some_inj, and_assoc]
  constructor
  · rintro ⟨hname, hvalues, rfl⟩
    exact ⟨hname, hvalues, rfl⟩
  · rintro ⟨hname, hvalues, rfl⟩
    exact ⟨hname, hvalues, rfl⟩

/-- The forwarded query is the allow-listed part of what is filed in one pass over the pairs.  A
name has an entry exactly if it is allowed and occurs, and the entry holds every value of the name
in its place, whatever the name ends in and however often it is allowed.  Queries that are put
together are forwarded together: each entry is that of the first, followed by that of the second. -/
theorem forwarded_query_keeps_values (allowed : AllowList) :
    (∀ (raw : Option String) (name : String),
      (allowed.forwardQuery raw).get? name =
        if name ∈ allowed.query then (grouped (Http.Form.parseText (raw.getD ""))).get? name
        else none) ∧
    (∀ (raw : Option String) (name : String),
      (∃ values, (allowed.forwardQuery raw).get? name = some values) ↔
        name ∈ allowed.query ∧ ∃ value, (name, value) ∈ Http.Form.parseText (raw.getD "")) ∧
    (∀ (raw : Option String) (name : String) (values : List String),
      (allowed.forwardQuery raw).get? name = some values →
        Listed name (Http.Form.parseText (raw.getD "")) values) ∧
    ∀ first second name : String,
      entry (allowed.forwardQuery (some (first ++ "&" ++ second))) name =
        entry (allowed.forwardQuery (some first)) name ++
          entry (allowed.forwardQuery (some second)) name := by
  refine ⟨?_, ?_, ?_, ?_⟩
  · intro raw name
    rw [get?_forwardQuery, get?_grouped]
    by_cases hname : name ∈ allowed.query <;> simp [hname]
  · intro raw name
    simp only [get?_forwardQuery_eq_some_iff, ← valuesOf_ne_nil_iff, listed_iff]
    constructor
    · rintro ⟨_, hname, hvalues, rfl⟩
      exact ⟨hname, hvalues⟩
    · rintro ⟨hname, hvalues⟩
      exact ⟨_, hname, hvalues, rfl⟩
  · intro raw name values h
    exact (get?_forwardQuery_eq_some_iff.1 h).2.2
  · intro first second name
    simp only [entry_forwardQuery, Option.getD_some, Http.Form.parseText_append, valuesOf_append]
    split <;> rfl

/-- An allow-list that names a parameter twice. -/
def searchAllowed : AllowList := ofNames ["q", "c[]", "q"] [] 16

/-- Values of two names in turn, one name being written in two ways. -/
theorem search_keeps_values :
    let forwarded := searchAllowed.forwardQuery (some "c%5B%5D=x&q=a=b&page=2&&c[]&q=%2")
    forwarded.get? "q" = some ["a=b", "%2"] ∧ forwarded.get? "c[]" = some ["x", ""] ∧
      forwarded.get? "page" = none := by
  have hentries := (forwarded_query_keeps_values searchAllowed).1
    (some "c%5B%5D=x&q=a=b&page=2&&c[]&q=%2")
  refine ⟨?_, ?_, ?_⟩
  · rw [hentries]
    decide +kernel
  · rw [hentries]
    decide +kernel
  · rw [hentries]
    decide +kernel

end Endpoint.AllowList

/-! ### The query of a call -/

namespace Backend

open Endpoint.AllowList (Listed entry valuesOf valuesOf_append listed_iff)

/-- A list of pairs holds the entries of a map: the names ascend, and a name comes with its values
in their order. -/
structure Lists (m : SortedMap (List String)) (pairs : List (String × String)) : Prop where
  ascending : pairs.Pairwise fun a b => a.1 ≤ b.1
  values : ∀ name, Listed name pairs (entry m name)

theorem valuesOf_map (name key : String) (values : List String) :
    valuesOf name (values.map (key, ·)) = if key = name then values else [] := by
  by_cases h : key = name <;> simp [valuesOf, List.filter_map, Function.comp_def, h]

/-- Among ascending entries a name has its values from one entry only. -/
theorem valuesOf_flatMap {entries : List (String × List String)} (h : Ascending entries)
    (name : String) :
    valuesOf name (entries.flatMap fun (key, values) => values.map (key, ·)) =
      (entries.lookup name).getD [] := by
  induction entries with
  | nil => rfl
  | cons head rest ih =>
      obtain ⟨key, values⟩ := head
      obtain ⟨hhead, hrest⟩ := List.pairwise_cons.1 h
      rw [List.flatMap_cons, valuesOf_append, valuesOf_map, ih hrest, lookup_cons_eq]
      by_cases hkey : key = name
      · subst hkey
        have hnone : rest.lookup key = none := by
          rw [List.lookup_eq_none_iff]
          intro other hother
          rw [bne_iff_ne]
          rintro rfl
          exact String.lt_irrefl _ (hhead other hother)
        simp [hnone]
      · simp [hkey, Ne.symm hkey]

theorem lists_flatten (m : SortedMap (List String)) : Lists m (flatten m) := by
  constructor
  · rw [flatten, List.pairwise_flatMap]
    constructor
    · intro entry _
      rw [List.pairwise_map]
      exact List.pairwise_of_forall fun _ _ => String.le_refl _
    · apply m.ascending.imp
      intro first second hlt a ha b hb
      obtain ⟨_, _, rfl⟩ := List.mem_map.1 ha
      obtain ⟨_, _, rfl⟩ := List.mem_map.1 hb
      exact String.not_lt.1 (String.lt_asymm hlt)
  · intro name
    rw [listed_iff, flatten, valuesOf_flatMap m.ascending]
    rfl

theorem queryText_eq (request : Pipeline.Request) :
    Http.Form.parseText (queryText request) = flatten request.query :=
  Http.Form.parse_print (flatten request.query)

theorem queryText_isEmpty (request : Pipeline.Request) :
    (queryText request).isEmpty = true ↔ flatten request.query = [] := by
  rw [String.isEmpty_iff]
  exact Http.Form.print_eq_empty_iff

end Backend

namespace Endpoint.AllowList

theorem valuesOf_flatten (m : SortedMap (List String)) (name : String) :
    valuesOf name (Backend.flatten m) = entry m name :=
  (listed_iff.1 ((Backend.lists_flatten m).values name)).symm

/-- A forwarded query has no entry without values, so it is written as nothing only if it is
empty. -/
theorem flatten_forwardQuery_eq_nil_iff (allowed : AllowList) (raw : Option String) :
    Backend.flatten (allowed.forwardQuery raw) = [] ↔ allowed.forwardQuery raw = {} := by
  constructor
  · intro hnil
    apply SortedMap.eq_of_get?_eq
    intro name
    cases hname : (allowed.forwardQuery raw).get? name with
    | none => rfl
    | some values =>
        have hvalues := valuesOf_flatten (allowed.forwardQuery raw) name
        rw [hnil, entry, hname] at hvalues
        exact absurd hvalues.symm (get?_forwardQuery_eq_some_iff.1 hname).2.1
  · intro hempty
    rw [hempty]
    rfl

/-- What was forwarded is forwarded once more by the same allow-list. -/
theorem forwardQuery_print (allowed : AllowList) (raw : Option String) :
    allowed.forwardQuery (some (Http.Form.print (Backend.flatten (allowed.forwardQuery raw)))) =
      allowed.forwardQuery raw := by
  apply SortedMap.eq_of_get?_eq
  intro name
  rw [get?_forwardQuery, Option.getD_some, Http.Form.parse_print, valuesOf_flatten,
    entry_forwardQuery, get?_forwardQuery]
  by_cases hname : name ∈ allowed.query <;> simp [hname]

/-- The address of a call has nothing after its path if nothing was forwarded, and else a question
mark and a text of ASCII letters, digits and eight marks.  A gateway that is asked with this text
and has the same allow-list forwards the same query. -/
theorem rewritten_query_forwards_same (allowed : AllowList) (raw : Option String)
    (backend : Config.Backend) (request : Pipeline.Request) :
    (allowed.forwardQuery raw = {} →
      Backend.target backend { request with query := allowed.forwardQuery raw } =
        "http://" ++ backend.address ++ backend.path) ∧
    (allowed.forwardQuery raw ≠ {} → ∃ text : String,
      Backend.target backend { request with query := allowed.forwardQuery raw } =
        "http://" ++ backend.address ++ backend.path ++ "?" ++ text ∧
      (∀ c ∈ text.toList, Ascii.isAlphanumeric c = true ∨
        c ∈ ['*', '-', '.', '_', '+', '%', '&', '=']) ∧
      allowed.forwardQuery (some text) = allowed.forwardQuery raw) := by
  have hempty := Backend.queryText_isEmpty { request with query := allowed.forwardQuery raw }
  rw [flatten_forwardQuery_eq_nil_iff] at hempty
  constructor
  · intro hnone
    rw [Backend.target, if_pos (hempty.2 hnone), String.append_empty]
  · intro hsome
    refine ⟨Http.Form.print (Backend.flatten (allowed.forwardQuery raw)), ?_, ?_, ?_⟩
    · rw [Backend.target, if_neg (mt hempty.1 hsome), ← String.append_assoc]
      rfl
    · intro c hc
      exact Http.Form.isFormChar_iff.1 (Http.Form.isFormChar_of_mem_print hc)
    · exact forwardQuery_print allowed raw

/-- Values that are no plain text: a sign outside ASCII, a percent sign without its digits, a byte
that is no text, and a separator. -/
theorem escaped_search_forwards_same :
    ∃ text : String,
      Backend.target { address := "10.0.0.7:80", path := "/find" }
        { (default : Pipeline.Request) with
          query := searchAllowed.forwardQuery (some "q=%E2%82%AC%zz&page=2&q=%FF+%26") } =
        "http://" ++ "10.0.0.7:80" ++ "/find" ++ "?" ++ text ∧
      (searchAllowed.forwardQuery (some text)).get? "q" = some ["€%zz", "\ufffd &"] := by
  have hvalues : (searchAllowed.forwardQuery (some "q=%E2%82%AC%zz&page=2&q=%FF+%26")).get? "q" =
      some ["€%zz", "\ufffd &"] := by decide +kernel
  have hsome : searchAllowed.forwardQuery (some "q=%E2%82%AC%zz&page=2&q=%FF+%26") ≠ {} := by
    intro hempty
    rw [hempty] at hvalues
    cases hvalues
  obtain ⟨text, htarget, _, hsame⟩ := (rewritten_query_forwards_same searchAllowed _
    { address := "10.0.0.7:80", path := "/find" } default).2 hsome
  refine ⟨text, htarget, ?_⟩
  rw [hsame]
  exact hvalues

end Endpoint.AllowList

end Gateway
