import Mathlib.Data.List.Sort
import StoreTasks.Json.Basic

/-!
# Proofs — Json — members

Sorting the members of an object changes none of its values (`lookup_sortMembers`), so an object
and its canonical form have the same keys, with the canonical values (`get?_canonical`).  Sorted
members are decided by the values of their keys (`SortedKeys.ext`), so two objects with the same
canonical values have the same canonical form (`canonical_obj_congr`).
-/

namespace StoreTasks.Json

/-- The keys are in order, and no key occurs twice. -/
def SortedKeys (members : List (String × Json)) : Prop :=
  members.Pairwise fun a b => a.1 < b.1

/-- A key before the first one is put before it. -/
theorem insertMember_of_lt {key k : String} (value v : Json) (rest : List (String × Json))
    (h : key < k) : insertMember key value ((k, v) :: rest) = (key, value) :: (k, v) :: rest := by
  rw [insertMember, if_pos h]

theorem insertMember_self (key : String) (value v : Json) (rest : List (String × Json)) :
    insertMember key value ((key, v) :: rest) = (key, value) :: rest := by
  rw [insertMember, if_neg (String.lt_irrefl key), if_pos rfl]

theorem insertMember_of_gt {key k : String} (value v : Json) (rest : List (String × Json))
    (h : k < key) :
    insertMember key value ((k, v) :: rest) = (k, v) :: insertMember key value rest := by
  rw [insertMember, if_neg (String.lt_asymm h), if_neg (String.ne_of_lt h).symm]

/-- The three places of a key beside another one. -/
theorem lt_or_eq_or_gt (key k : String) : key < k ∨ key = k ∨ k < key := by
  by_cases hlt : key < k
  · exact .inl hlt
  · by_cases hgt : k < key
    · exact .inr (.inr hgt)
    · exact .inr (.inl (String.le_antisymm hgt hlt))

theorem key_of_mem_insertMember {key : String} {value : Json} {members : List (String × Json)}
    {m : String × Json} (h : m ∈ insertMember key value members) : m.1 = key ∨ m ∈ members := by
  induction members with
  | nil =>
      rw [insertMember, List.mem_singleton] at h
      exact .inl (h ▸ rfl)
  | cons first rest ih =>
      obtain ⟨k, v⟩ := first
      rcases lt_or_eq_or_gt key k with hlt | rfl | hgt
      · rw [insertMember_of_lt value v rest hlt] at h
        rcases List.mem_cons.mp h with rfl | h
        · exact .inl rfl
        · exact .inr h
      · rw [insertMember_self] at h
        rcases List.mem_cons.mp h with rfl | h
        · exact .inl rfl
        · exact .inr (List.mem_cons_of_mem _ h)
      · rw [insertMember_of_gt value v rest hgt] at h
        rcases List.mem_cons.mp h with rfl | h
        · exact .inr List.mem_cons_self
        · exact (ih h).imp_right (List.mem_cons_of_mem _)

/-- Sorted members stay sorted when one is put in. -/
theorem SortedKeys.insertMember {members : List (String × Json)} (sorted : SortedKeys members)
    (key : String) (value : Json) : SortedKeys (insertMember key value members) := by
  induction members with
  | nil => exact List.pairwise_singleton _ _
  | cons first rest ih =>
      obtain ⟨k, v⟩ := first
      obtain ⟨hfirst, hrest⟩ := List.pairwise_cons.mp sorted
      rcases lt_or_eq_or_gt key k with hlt | rfl | hgt
      · rw [insertMember_of_lt value v rest hlt]
        refine List.pairwise_cons.mpr ⟨fun m hm => ?_, sorted⟩
        rcases List.mem_cons.mp hm with rfl | hm
        · exact hlt
        · exact String.lt_trans hlt (hfirst m hm)
      · rw [insertMember_self]
        exact List.pairwise_cons.mpr ⟨hfirst, hrest⟩
      · rw [insertMember_of_gt value v rest hgt]
        refine List.pairwise_cons.mpr ⟨fun m hm => ?_, ih hrest⟩
        rcases key_of_mem_insertMember hm with hkey | hm
        · exact hkey ▸ hgt
        · exact hfirst m hm

/-! ### Looking up -/

theorem lookup_eq_none {key : String} {members : List (String × Json)}
    (h : ∀ m ∈ members, m.1 ≠ key) : lookup key members = none := by
  induction members with
  | nil => rfl
  | cons first rest ih =>
      rw [lookup, ih fun m hm => h m (List.mem_cons_of_mem first hm),
        if_neg (h first List.mem_cons_self), Option.or_none]

/-- A member that is put into its place is found there, and no other member is lost. -/
theorem lookup_insertMember {members : List (String × Json)} (sorted : SortedKeys members)
    (key k : String) (value : Json) :
    lookup key (insertMember k value members)
      = if k = key then some value else lookup key members := by
  induction members with
  | nil => rfl
  | cons first rest ih =>
      obtain ⟨k₀, v₀⟩ := first
      obtain ⟨hfirst, hrest⟩ := List.pairwise_cons.mp sorted
      have hlater : lookup k₀ rest = none :=
        lookup_eq_none fun m hm => (String.ne_of_lt (hfirst m hm)).symm
      rcases lt_or_eq_or_gt k k₀ with hlt | rfl | hgt
      · -- The key comes before all others, so it is not found among them.
        rw [insertMember_of_lt value v₀ rest hlt, lookup]
        by_cases hk : k = key
        · have hnone : lookup key ((k₀, v₀) :: rest) = none := by
            refine lookup_eq_none fun m hm => ?_
            rcases List.mem_cons.mp hm with rfl | hm
            · exact hk ▸ (String.ne_of_lt hlt).symm
            · exact hk ▸ (String.ne_of_lt (String.lt_trans hlt (hfirst m hm))).symm
          rw [hnone, Option.none_or]
        · rw [if_neg hk, if_neg hk, Option.or_none]
      · rw [insertMember_self, lookup, lookup]
        by_cases hk : k = key
        · subst hk
          rw [hlater, if_pos rfl, if_pos rfl, Option.none_or]
        · rw [if_neg hk, if_neg hk, if_neg hk]
      · rw [insertMember_of_gt value v₀ rest hgt, lookup, ih hrest, lookup]
        by_cases hk : k = key
        · rw [if_pos hk, if_pos hk, Option.some_or]
        · rw [if_neg hk, if_neg hk]

/-- Members that are put in one after another are found, and else what was there before. -/
theorem lookup_foldl_insertMember (key : String) (members : List (String × Json)) :
    ∀ sorted : List (String × Json), SortedKeys sorted →
      lookup key (members.foldl (fun sorted (k, v) => insertMember k v sorted) sorted)
        = (lookup key members).or (lookup key sorted) := by
  induction members with
  | nil => exact fun _ _ => rfl
  | cons first rest ih =>
      intro sorted hsorted
      obtain ⟨k, v⟩ := first
      rw [List.foldl_cons, ih _ (hsorted.insertMember k v), lookup_insertMember hsorted, lookup]
      by_cases hk : k = key
      · rw [if_pos hk, if_pos hk, Option.or_assoc, Option.some_or]
      · rw [if_neg hk, if_neg hk, Option.or_none]

/-- Sorting changes nothing that is found. -/
theorem lookup_sortMembers (key : String) (members : List (String × Json)) :
    lookup key (sortMembers members) = lookup key members := by
  rw [sortMembers, lookup_foldl_insertMember key members [] .nil]
  exact Option.or_none

theorem canonicalItems_eq_map (items : List Json) : canonicalItems items = items.map canonical := by
  induction items with
  | nil => rfl
  | cons v rest ih => rw [canonicalItems, ih, List.map_cons]

/-- The canonical members hold what the members hold, in canonical form. -/
theorem lookup_canonicalMembers (key : String) (members : List (String × Json)) :
    lookup key (canonicalMembers members) = (lookup key members).map canonical := by
  induction members with
  | nil => rfl
  | cons first rest ih =>
      obtain ⟨k, v⟩ := first
      rw [canonicalMembers, lookup, lookup, ih]
      by_cases hk : k = key
      · rw [if_pos hk, if_pos hk, Option.map_or, Option.map_some]
      · rw [if_neg hk, if_neg hk, Option.or_none, Option.or_none]

/-- The canonical form has the same keys, with the canonical values. -/
theorem get?_canonical (value : Json) (key : String) :
    value.canonical.get? key = (value.get? key).map canonical := by
  cases value with
  | obj members =>
      rw [canonical, get?, get?, lookup_sortMembers, lookup_canonicalMembers]
  | _ => rfl

/-! ### Equal objects -/

theorem sortedKeys_sortMembers (members : List (String × Json)) :
    SortedKeys (sortMembers members) := by
  have hfold : ∀ sorted : List (String × Json), SortedKeys sorted → SortedKeys
      (members.foldl (fun sorted (k, v) => Json.insertMember k v sorted) sorted) := by
    induction members with
    | nil => exact fun _ h => h
    | cons first rest ih => exact fun sorted h => ih _ (h.insertMember first.1 first.2)
  exact hfold [] .nil

/-- A member is found by its key. -/
theorem SortedKeys.mem_iff {members : List (String × Json)} (sorted : SortedKeys members)
    {key : String} {value : Json} : (key, value) ∈ members ↔ lookup key members = some value := by
  induction members with
  | nil => simp [lookup]
  | cons first rest ih =>
      obtain ⟨k, v⟩ := first
      obtain ⟨hfirst, hrest⟩ := List.pairwise_cons.mp sorted
      rw [List.mem_cons, ih hrest, lookup, Option.or_eq_some_iff, or_comm]
      refine or_congr_right ?_
      by_cases hk : k = key
      · subst hk
        have hlater : lookup k rest = none :=
          lookup_eq_none fun m hm => (String.ne_of_lt (hfirst m hm)).symm
        simp [hlater, eq_comm]
      · simp [hk, Ne.symm hk]

/-- Sorted members are the same when they hold the same. -/
theorem SortedKeys.ext {members others : List (String × Json)} (sorted : SortedKeys members)
    (sorted' : SortedKeys others) (h : ∀ key, lookup key members = lookup key others) :
    members = others := by
  have irrefl : Std.Irrefl fun a b : String × Json => a.1 < b.1 := ⟨fun a => String.lt_irrefl a.1⟩
  refine List.Pairwise.eq_of_mem_iff sorted sorted' fun m => ?_
  rw [← Prod.mk.eta (p := m), sorted.mem_iff, sorted'.mem_iff, h]

/-- Objects with the same canonical values have the same canonical form. -/
theorem canonical_obj_congr {members others : List (String × Json)}
    (h : ∀ key, (lookup key members).map canonical = (lookup key others).map canonical) :
    (obj members).canonical = (obj others).canonical := by
  rw [canonical, canonical]
  refine congrArg obj ((sortedKeys_sortMembers _).ext (sortedKeys_sortMembers _) fun key => ?_)
  rw [lookup_sortMembers, lookup_sortMembers, lookup_canonicalMembers, lookup_canonicalMembers, h]

end StoreTasks.Json
