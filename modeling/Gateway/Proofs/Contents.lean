/-
Module: Gateway.Proofs.Contents
Layer: Proofs
Purpose: A value is settled by what it holds.  Whatever the order in which entries are put in, the
  value that comes of it holds the same (`Json.find?_assemble`), and canonical values that hold the
  same are the same (`Json.eq_of_sameContent`).  So a canonical value is what comes of every listing
  of its content (`Json.assemble_eq_of_sameContent`).
Main exports: Json.inductionOn, Json.canonical_assemble, Json.assemble_of_canonical,
  Json.find?_assemble, Json.eq_of_sameContent, Json.assemble_eq_of_sameContent,
  Json.Within.canonical
-/
import Gateway.Json.Content
import Gateway.Proofs.Forwarding

namespace Gateway.Json

/-! ### Induction -/

/-- What holds of a value whenever it holds of its items and of the values of its entries holds of
every value. -/
@[elab_as_elim]
theorem inductionOn {P : Json → Prop} (null : P .null) (bool : ∀ b, P (.bool b))
    (number : ∀ n, P (.number n)) (string : ∀ s, P (.string s))
    (array : ∀ items, (∀ item ∈ items, P item) → P (.array items))
    (object : ∀ fields : Fields, (∀ e ∈ fields, P e.2) → P (.object fields)) : ∀ v, P v
  | .null => null
  | .bool b => bool b
  | .number n => number n
  | .string s => string s
  | .array items => array items fun item _ =>
      inductionOn null bool number string array object item
  | .object fields => object fields fun e _ =>
      inductionOn null bool number string array object e.2
termination_by v => sizeOf v
decreasing_by
  · rename_i hitem
    have := List.sizeOf_lt_of_mem hitem
    simp only [Json.array.sizeOf_spec]
    omega
  · rename_i he
    have := List.sizeOf_lt_of_mem he
    obtain ⟨key, value⟩ := e
    simp only [Json.object.sizeOf_spec, Prod.mk.sizeOf_spec] at *
    omega

/-! ### Items and entries one by one -/

theorem canonicalItems_iff {items : List Json} :
    CanonicalItems items ↔ ∀ item ∈ items, item.Canonical := by
  induction items with
  | nil => simp [CanonicalItems]
  | cons item items ih => simp [CanonicalItems, ih]

theorem canonicalFields_iff {fields : Fields} :
    CanonicalFields fields ↔ ∀ e ∈ fields, e.2.Canonical := by
  induction fields with
  | nil => simp [CanonicalFields]
  | cons e fields ih => simp [CanonicalFields, ih]

theorem integralItems_iff {items : List Json} :
    IntegralItems items ↔ ∀ item ∈ items, item.Integral := by
  induction items with
  | nil => simp [IntegralItems]
  | cons item items ih => simp [IntegralItems, ih]

theorem integralFields_iff {fields : Fields} :
    IntegralFields fields ↔ ∀ e ∈ fields, e.2.Integral := by
  induction fields with
  | nil => simp [IntegralFields]
  | cons e fields ih => simp [IntegralFields, ih]

theorem assembleItems_eq (items : List Json) : assembleItems items = items.map assemble := by
  induction items with
  | nil => rfl
  | cons item items ih => rw [assembleItems, ih, List.map_cons]

theorem assembleFields_eq (fields : Fields) :
    assembleFields fields = fields.map fun e => (e.1, e.2.assemble) := by
  induction fields with
  | nil => rfl
  | cons e fields ih => rw [assembleFields, ih, List.map_cons]

theorem nestingItems_le_iff {items : List Json} {depth : Nat} :
    nestingItems items ≤ depth ↔ ∀ item ∈ items, item.nesting ≤ depth := by
  induction items with
  | nil => simp [nestingItems]
  | cons item items ih => rw [nestingItems, Nat.max_le, ih, List.forall_mem_cons]

theorem nestingFields_le_iff {fields : Fields} {depth : Nat} :
    nestingFields fields ≤ depth ↔ ∀ e ∈ fields, e.2.nesting ≤ depth := by
  induction fields with
  | nil => simp [nestingFields]
  | cons e fields ih => rw [nestingFields, Nat.max_le, ih, List.forall_mem_cons]

/-! ### Putting entries in -/

section Entries

variable {β : Type}

theorem latest?_cons (key : String) (e : String × β) (entries : List (String × β)) :
    latest? key (e :: entries) =
      (latest? key entries).or (if e.1 = key then some e.2 else none) := by
  have hfound : ∀ (entries : List (String × β)) (found : Option β),
      entries.foldl (fun found e => if e.1 = key then some e.2 else found) found =
        (latest? key entries).or found := by
    intro entries
    induction entries with
    | nil => exact fun _ => rfl
    | cons e entries ih =>
        intro found
        have hcons : latest? key (e :: entries) =
            (latest? key entries).or (if e.1 = key then some e.2 else none) := ih _
        rw [List.foldl_cons, ih, hcons]
        split <;> simp
  rw [latest?, List.foldl_cons, hfound]

theorem latest?_map {γ : Type} (f : β → γ) (key : String) (entries : List (String × β)) :
    latest? key (entries.map fun e => (e.1, f e.2)) = (latest? key entries).map f := by
  induction entries with
  | nil => rfl
  | cons e entries ih =>
      rw [List.map_cons, latest?_cons, latest?_cons, ih]
      cases latest? key entries with
      | none => split <;> rfl
      | some value => rfl

/-- Entries put into a listing one after the other. -/
def insertAll (listed entries : List (String × β)) : List (String × β) :=
  entries.foldl (fun listed e => insertSorted e.1 e.2 listed) listed

theorem ofFields_eq (entries : Fields) : ofFields entries = .object (insertAll [] entries) := rfl

theorem ascending_insertAll {listed : List (String × β)} (h : Ascending listed)
    (entries : List (String × β)) : Ascending (insertAll listed entries) := by
  induction entries generalizing listed with
  | nil => exact h
  | cons e entries ih => exact ih h.insertSorted

theorem mem_insertAll {listed entries : List (String × β)} {e : String × β}
    (h : e ∈ insertAll listed entries) : e ∈ listed ∨ e ∈ entries := by
  induction entries generalizing listed with
  | nil => exact Or.inl h
  | cons first entries ih =>
      rcases ih h with h | h
      · rcases mem_insertSorted h with rfl | h
        · exact Or.inr List.mem_cons_self
        · exact Or.inl h
      · exact Or.inr (List.mem_cons_of_mem _ h)

/-- The last entry with a key is the one that stays. -/
theorem lookup_insertAll (key : String) (listed entries : List (String × β)) :
    (insertAll listed entries).lookup key = (latest? key entries).or (listed.lookup key) := by
  induction entries generalizing listed with
  | nil => rfl
  | cons e entries ih =>
      rw [insertAll, List.foldl_cons, ← insertAll, ih, SortedMap.lookup_insertSorted, latest?_cons,
        Option.or_assoc]
      by_cases hkey : key = e.1
      · rw [if_pos hkey, if_pos hkey.symm]
        rfl
      · rw [if_neg hkey, if_neg (Ne.symm hkey)]
        rfl

theorem insertSorted_of_forall_lt {key : String} {value : β} {listed : List (String × β)}
    (h : ∀ e ∈ listed, e.1 < key) : insertSorted key value listed = listed ++ [(key, value)] := by
  induction listed with
  | nil => rfl
  | cons e listed ih =>
      rw [List.forall_mem_cons] at h
      rw [insertSorted, if_neg (String.lt_asymm h.1), if_pos h.1, ih h.2]
      rfl

theorem insertAll_of_append {listed entries : List (String × β)}
    (h : Ascending (listed ++ entries)) : insertAll listed entries = listed ++ entries := by
  induction entries generalizing listed with
  | nil => exact (List.append_nil listed).symm
  | cons e entries ih =>
      have hbefore : ∀ d ∈ listed, d.1 < e.1 := fun d hd =>
        (List.pairwise_append.1 h).2.2 d hd e List.mem_cons_self
      rw [insertAll, List.foldl_cons, ← insertAll, insertSorted_of_forall_lt hbefore]
      have happend : listed ++ e :: entries = listed ++ [e] ++ entries := by simp
      rw [happend] at h ⊢
      exact ih h

/-- Entries that ascend already are listed as they are. -/
theorem insertAll_of_ascending {entries : List (String × β)} (h : Ascending entries) :
    insertAll [] entries = entries :=
  @insertAll_of_append β [] entries h

theorem latest?_of_ascending {entries : List (String × β)} (h : Ascending entries)
    (key : String) : latest? key entries = entries.lookup key := by
  have hlookup := lookup_insertAll key [] entries
  rw [insertAll_of_ascending h, List.lookup_nil, Option.or_none] at hlookup
  exact hlookup.symm

end Entries

/-! ### Assembled values -/

theorem assemble_array (items : List Json) :
    assemble (.array items) = .array (items.map assemble) := by
  rw [assemble, assembleItems_eq]

theorem assemble_object (fields : Fields) : assemble (.object fields) =
    .object (insertAll [] (fields.map fun e => (e.1, e.2.assemble))) := by
  rw [assemble, assembleFields_eq, ofFields_eq]

theorem canonical_assemble (v : Json) : (assemble v).Canonical := by
  induction v using inductionOn with
  | null | bool | number | string => trivial
  | array items ih =>
      rw [assemble_array]
      exact canonicalItems_iff.2 (List.forall_mem_map.2 ih)
  | object fields ih =>
      rw [assemble_object]
      refine ⟨ascending_insertAll List.Pairwise.nil _, canonicalFields_iff.2 fun e he => ?_⟩
      rcases mem_insertAll he with he | he
      · cases he
      · obtain ⟨d, hd, rfl⟩ := List.mem_map.1 he
        exact ih d hd

/-- A canonical value is assembled already. -/
theorem assemble_of_canonical {v : Json} (h : v.Canonical) : assemble v = v := by
  induction v using inductionOn with
  | null | bool | number | string => rfl
  | array items ih =>
      have hitems : items.map assemble = items.map id :=
        List.map_congr_left fun item hitem => ih item hitem (canonicalItems_iff.1 h item hitem)
      rw [assemble_array, hitems, List.map_id]
  | object fields ih =>
      have hfields : (fields.map fun e => (e.1, e.2.assemble)) = fields.map id :=
        List.map_congr_left fun e he =>
          Prod.ext rfl (ih e he (canonicalFields_iff.1 h.2 e he))
      rw [assemble_object, hfields, List.map_id, insertAll_of_ascending h.1]

/-- Putting the entries in does not change what a value holds. -/
theorem find?_assemble (path : List Step) (v : Json) : find? path (assemble v) = find? path v := by
  induction path generalizing v with
  | nil =>
      cases v with
      | array items => simp [assemble_array, find?, kind]
      | _ => rfl
  | cons step path ih =>
      have hpath : find? path ∘ assemble = find? path := funext ih
      cases step with
      | index i =>
          cases v with
          | array items =>
              rw [assemble_array, find?, find?, List.getElem?_map, Option.bind_map, hpath]
          | object fields => rw [assemble_object]; rfl
          | _ => rfl
      | key key =>
          cases v with
          | array items => rw [assemble_array]; rfl
          | object fields =>
              have hascending := ascending_insertAll (β := Json) List.Pairwise.nil
                (fields.map fun e => (e.1, e.2.assemble))
              rw [assemble_object, find?, find?, latest?_of_ascending hascending, lookup_insertAll,
                latest?_map, List.lookup_nil, Option.or_none, Option.bind_map, hpath]
          | _ => rfl

/-! ### Values with the same content -/

theorem SameContent.kind_eq {v w : Json} (h : SameContent v w) : v.kind = w.kind :=
  Option.some.inj (h [])

theorem SameContent.item {items items' : List Json} (h : SameContent (.array items) (.array items'))
    {i : Nat} (hi : i < items.length) (hi' : i < items'.length) :
    SameContent items[i] items'[i] := by
  intro path
  have hpath := h (.index i :: path)
  rwa [find?, find?, List.getElem?_eq_getElem hi, List.getElem?_eq_getElem hi'] at hpath

theorem SameContent.lookup {fields fields' : Fields}
    (h : SameContent (.object fields) (.object fields')) (hfields : Ascending fields)
    (hfields' : Ascending fields') (key : String) (path : List Step) :
    (fields.lookup key).bind (find? path) = (fields'.lookup key).bind (find? path) := by
  have hpath := h (.key key :: path)
  rwa [find?, find?, latest?_of_ascending hfields, latest?_of_ascending hfields'] at hpath

/-- A canonical value is settled by what it holds. -/
theorem eq_of_sameContent {v w : Json} (hv : v.Canonical) (hw : w.Canonical)
    (h : SameContent v w) : v = w := by
  induction v using inductionOn generalizing w with
  | null | bool | number | string =>
      have hkind := h.kind_eq
      cases w <;> cases hkind
      rfl
  | array items ih =>
      have hkind := h.kind_eq
      cases w with
      | array items' =>
          have hlength : items.length = items'.length := Kind.array.inj hkind
          congr 1
          apply List.ext_getElem hlength
          intro i hi hi'
          have hmem := List.getElem_mem hi
          have hmem' := List.getElem_mem hi'
          exact ih _ hmem (canonicalItems_iff.1 hv _ hmem) (canonicalItems_iff.1 hw _ hmem')
            (h.item hi hi')
      | _ => cases hkind
  | object fields ih =>
      have hkind := h.kind_eq
      cases w with
      | object fields' =>
          have hsame : (⟨fields, hv.1⟩ : SortedMap Json) = ⟨fields', hw.1⟩ := by
            apply SortedMap.eq_of_get?_eq
            intro key
            change fields.lookup key = fields'.lookup key
            have hpath := h.lookup hv.1 hw.1 key
            cases hfound : fields.lookup key with
            | none =>
                rw [hfound] at hpath
                cases hfound' : fields'.lookup key with
                | none => rfl
                | some value' =>
                    rw [hfound'] at hpath
                    cases hpath []
            | some value =>
                rw [hfound] at hpath
                cases hfound' : fields'.lookup key with
                | none =>
                    rw [hfound'] at hpath
                    cases hpath []
                | some value' =>
                    rw [hfound'] at hpath
                    have hmem := hv.1.lookup_eq_some_iff.1 hfound
                    have hmem' := hw.1.lookup_eq_some_iff.1 hfound'
                    exact congrArg some (ih _ hmem (canonicalFields_iff.1 hv.2 _ hmem)
                      (canonicalFields_iff.1 hw.2 _ hmem') hpath)
          exact congrArg (fun m : SortedMap Json => Json.object m.entries) hsame
      | _ => cases hkind

/-- A canonical value comes of every listing of what it holds. -/
theorem assemble_eq_of_sameContent {v w : Json} (hw : w.Canonical) (h : SameContent v w) :
    assemble v = w :=
  eq_of_sameContent (canonical_assemble v) hw fun path => (find?_assemble path v).trans (h path)

/-! ### Parts -/

theorem Within.canonical {part v : Json} (h : Within part v) (hv : v.Canonical) :
    part.Canonical := by
  induction h with
  | self => exact hv
  | item hitem _ ih => exact ih (canonicalItems_iff.1 hv _ hitem)
  | field he _ ih => exact ih (canonicalFields_iff.1 hv.2 _ he)

end Gateway.Json
