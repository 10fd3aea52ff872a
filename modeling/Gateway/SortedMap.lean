/-
Module: Gateway.SortedMap
Layer: Data
Purpose: Finite maps from text to values, listed in the order of their keys.
Main exports: SortedMap, SortedMap.insert, SortedMap.get?, SortedMap.ofList
-/
namespace Gateway

/-!
A map keyed by text whose listing is determined by its content: the keys ascend strictly, so a map
has one listing whatever the order in which its entries were put in.  Texts are ordered by code
point, which is also the order of their UTF-8 bytes.
-/

/-- Puts a value under a key into a listing in key order; a value already there gives way. -/
def insertSorted {β : Type} (key : String) (value : β) :
    List (String × β) → List (String × β)
  | [] => [(key, value)]
  | (k, v) :: rest =>
    if key < k then (key, value) :: (k, v) :: rest
    else if k < key then (k, v) :: insertSorted key value rest
    else (key, value) :: rest

/-- Strictly ascending keys. -/
def Ascending {β : Type} (entries : List (String × β)) : Prop :=
  entries.Pairwise fun a b => a.1 < b.1

theorem mem_insertSorted {β : Type} {key : String} {value : β} {e : String × β}
    {entries : List (String × β)} (h : e ∈ insertSorted key value entries) :
    e = (key, value) ∨ e ∈ entries := by
  induction entries with
  | nil => simpa [insertSorted] using h
  | cons head rest ih =>
    obtain ⟨k, v⟩ := head
    unfold insertSorted at h
    split at h
    · simpa using h
    · split at h
      · rcases List.mem_cons.1 h with rfl | h
        · simp
        · rcases ih h with rfl | h <;> simp_all
      · rcases List.mem_cons.1 h with rfl | h <;> simp_all

theorem Ascending.insertSorted {β : Type} {key : String} {value : β}
    {entries : List (String × β)} (h : Ascending entries) :
    Ascending (insertSorted key value entries) := by
  induction entries with
  | nil => simp [Gateway.insertSorted, Ascending]
  | cons head rest ih =>
    obtain ⟨k, v⟩ := head
    have hrest : Ascending rest := (List.pairwise_cons.1 h).2
    have hhead : ∀ e ∈ rest, k < e.1 := (List.pairwise_cons.1 h).1
    unfold Gateway.insertSorted
    split
    · rename_i hlt
      refine List.pairwise_cons.2 ⟨?_, h⟩
      intro e he
      rcases List.mem_cons.1 he with rfl | he
      · exact hlt
      · exact String.lt_trans hlt (hhead e he)
    · split
      · rename_i hgt
        refine List.pairwise_cons.2 ⟨?_, ih hrest⟩
        intro e he
        rcases mem_insertSorted he with rfl | he
        · exact hgt
        · exact hhead e he
      · rename_i hnlt hngt
        have hk : key = k := String.le_antisymm hngt hnlt
        subst hk
        exact List.pairwise_cons.2 ⟨hhead, hrest⟩

/-- A finite map from text, listed by ascending key. -/
structure SortedMap (β : Type) where
  entries : List (String × β)
  ascending : Ascending entries

namespace SortedMap

variable {β : Type}

instance [DecidableEq β] : DecidableEq (SortedMap β) := fun a b =>
  decidable_of_iff (a.entries = b.entries) (by cases a; cases b; simp)

instance [Repr β] : Repr (SortedMap β) where
  reprPrec m p := reprPrec m.entries p

/-- The map without entries. -/
def empty : SortedMap β :=
  ⟨[], List.Pairwise.nil⟩

instance : EmptyCollection (SortedMap β) := ⟨empty⟩
instance : Inhabited (SortedMap β) := ⟨empty⟩

/-- Whether there is no entry. -/
def isEmpty (m : SortedMap β) : Bool :=
  m.entries.isEmpty

/-- Puts a value under a key; a value already there gives way. -/
def insert (m : SortedMap β) (key : String) (value : β) : SortedMap β :=
  ⟨insertSorted key value m.entries, m.ascending.insertSorted⟩

/-- The value under a key. -/
def get? (m : SortedMap β) (key : String) : Option β :=
  m.entries.lookup key

/-- The map of a list of entries; of two entries with one key the later stays. -/
def ofList (entries : List (String × β)) : SortedMap β :=
  entries.foldl (fun m e => m.insert e.1 e.2) empty

end SortedMap

end Gateway
