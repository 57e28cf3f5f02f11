/-!
# Maps in key order

A `SortedMap` holds its entries by strictly ascending key, so equal content means equal maps and
`toList` is the iteration order. `insert` replaces the value of a key that is there already. A set
is a map to `Unit`.
-/

namespace KeyDispatch

/-- Entries with strictly ascending keys. -/
structure SortedMap (κ β : Type) [Ord κ] where
  toList : List (κ × β)
  ascending : toList.Pairwise fun a b => compare a.1 b.1 = .lt

namespace SortedMap

variable {κ β : Type} [Ord κ]

/-- The value of `k` among ascending entries; the search stops at the first greater key. -/
def find (k : κ) : List (κ × β) → Option β
  | [] => none
  | (k', v) :: rest =>
    match compare k k' with
    | .lt => none
    | .eq => some v
    | .gt => find k rest

/-- Ascending entries with `k` set to `v`. -/
def put (k : κ) (v : β) : List (κ × β) → List (κ × β)
  | [] => [(k, v)]
  | (k', v') :: rest =>
    match compare k k' with
    | .lt => (k, v) :: (k', v') :: rest
    | .eq => (k, v) :: rest
    | .gt => (k', v') :: put k v rest

/-- Ascending entries without `k`. -/
def drop (k : κ) : List (κ × β) → List (κ × β)
  | [] => []
  | (k', v') :: rest =>
    match compare k k' with
    | .lt => (k', v') :: rest
    | .eq => rest
    | .gt => (k', v') :: drop k rest

/-- An entry after `put` is the one put or was there before. -/
theorem mem_put {k : κ} {v : β} {e : κ × β} {l : List (κ × β)} (h : e ∈ put k v l) :
    e = (k, v) ∨ e ∈ l := by
  induction l with
  | nil => simpa [put] using h
  | cons head rest ih =>
    obtain ⟨k', v'⟩ := head
    unfold put at h
    split at h
    · simpa using h
    · rcases List.mem_cons.1 h with rfl | hr
      · exact .inl rfl
      · exact .inr (List.mem_cons_of_mem _ hr)
    · rcases List.mem_cons.1 h with rfl | hr
      · exact .inr (by simp)
      · exact (ih hr).imp id (List.mem_cons_of_mem _)

/-- An entry after `drop` was there before. -/
theorem mem_drop {k : κ} {e : κ × β} {l : List (κ × β)} (h : e ∈ drop k l) : e ∈ l := by
  induction l with
  | nil => simp [drop] at h
  | cons head rest ih =>
    obtain ⟨k', v'⟩ := head
    unfold drop at h
    split at h
    · exact h
    · exact List.mem_cons_of_mem _ h
    · rcases List.mem_cons.1 h with rfl | hr
      · simp
      · exact List.mem_cons_of_mem _ (ih hr)

/-- Taking a key away keeps the keys ascending. -/
theorem drop_ascending (k : κ) {l : List (κ × β)}
    (h : l.Pairwise fun a b => compare a.1 b.1 = .lt) :
    (drop k l).Pairwise fun a b => compare a.1 b.1 = .lt := by
  induction l with
  | nil => simp [drop]
  | cons head rest ih =>
    obtain ⟨k', v'⟩ := head
    obtain ⟨hhead, hrest⟩ := List.pairwise_cons.1 h
    unfold drop
    split
    · exact h
    · exact hrest
    · exact List.pairwise_cons.2 ⟨fun e he => hhead e (mem_drop he), ih hrest⟩

/-- The map without entries. -/
def empty : SortedMap κ β := ⟨[], .nil⟩

instance : Inhabited (SortedMap κ β) := ⟨empty⟩

instance [BEq κ] [BEq β] : BEq (SortedMap κ β) := ⟨fun m n => m.toList == n.toList⟩

instance [DecidableEq κ] [DecidableEq β] : DecidableEq (SortedMap κ β) := fun m n =>
  decidable_of_iff (m.toList = n.toList) (by cases m; cases n; simp)

/-- Maps with the same entries are equal. -/
theorem ext_toList {m n : SortedMap κ β} (h : m.toList = n.toList) : m = n := by
  cases m
  cases n
  cases h
  rfl

/-- The value stored under `k`. -/
def get? (m : SortedMap κ β) (k : κ) : Option β := find k m.toList

/-- Some value is stored under `k`. -/
def contains (m : SortedMap κ β) (k : κ) : Bool := (m.get? k).isSome

/-- The map with nothing stored under `k`. -/
def erase (m : SortedMap κ β) (k : κ) : SortedMap κ β :=
  ⟨drop k m.toList, drop_ascending k m.ascending⟩

/-- Number of keys. -/
def size (m : SortedMap κ β) : Nat := m.toList.length

/-- No key has a value. -/
def isEmpty (m : SortedMap κ β) : Bool := m.toList.isEmpty

/-- The empty map stores nothing. -/
theorem get?_empty (k : κ) : (empty : SortedMap κ β).get? k = none := rfl

/-- A key below all others has no value. -/
theorem find_of_below {k : κ} {l : List (κ × β)} (h : ∀ e ∈ l, compare k e.1 = .lt) :
    find k l = none := by
  cases l with
  | nil => rfl
  | cons head rest => simp [find, h head (by simp)]

section Order

variable [Std.TransOrd κ] [Std.LawfulEqOrd κ]

/-- Setting a key keeps the keys ascending. -/
theorem put_ascending (k : κ) (v : β) {l : List (κ × β)}
    (h : l.Pairwise fun a b => compare a.1 b.1 = .lt) :
    (put k v l).Pairwise fun a b => compare a.1 b.1 = .lt := by
  induction l with
  | nil => simp [put]
  | cons head rest ih =>
    obtain ⟨k', v'⟩ := head
    obtain ⟨hhead, hrest⟩ := List.pairwise_cons.1 h
    unfold put
    split
    · rename_i hlt
      refine List.pairwise_cons.2 ⟨fun e he => ?_, h⟩
      rcases List.mem_cons.1 he with rfl | hr
      · exact hlt
      · exact Std.TransCmp.lt_trans hlt (hhead e hr)
    · rename_i heq
      obtain rfl : k = k' := Std.LawfulEqCmp.eq_of_compare heq
      exact List.pairwise_cons.2 ⟨hhead, hrest⟩
    · rename_i hgt
      refine List.pairwise_cons.2 ⟨fun e he => ?_, ih hrest⟩
      rcases mem_put he with rfl | hr
      · exact Std.OrientedCmp.lt_of_gt hgt
      · exact hhead e hr

/-- The map with `v` stored under `k`. -/
def insert (m : SortedMap κ β) (k : κ) (v : β) : SortedMap κ β :=
  ⟨put k v m.toList, put_ascending k v m.ascending⟩

/-- The map with the given entries added in turn, so that the last value of a key stays. -/
def insertMany (m : SortedMap κ β) (entries : List (κ × β)) : SortedMap κ β :=
  entries.foldl (fun m e => m.insert e.1 e.2) m

/-- The map of a list of entries, the last value of a key counting. -/
def ofList (entries : List (κ × β)) : SortedMap κ β := empty.insertMany entries

/-- An entry of a map with entries added is one of those added or was there before. -/
theorem mem_toList_insertMany {m : SortedMap κ β} {entries : List (κ × β)} {e : κ × β}
    (h : e ∈ (m.insertMany entries).toList) : e ∈ entries ∨ e ∈ m.toList := by
  induction entries generalizing m with
  | nil => exact .inr h
  | cons first entries ih =>
    rcases ih (m := m.insert first.1 first.2) h with h | h
    · exact .inl (List.mem_cons_of_mem _ h)
    · rcases mem_put h with rfl | h
      · exact .inl List.mem_cons_self
      · exact .inr h

/-- An entry of the map of a list is in the list. -/
theorem mem_of_mem_toList_ofList {entries : List (κ × β)} {e : κ × β}
    (h : e ∈ (ofList entries).toList) : e ∈ entries :=
  (mem_toList_insertMany h).resolve_right List.not_mem_nil

/-! ## Look-ups -/

omit [Std.TransOrd κ] in
/-- The key that was set has its new value. -/
theorem find_put_self (k : κ) (v : β) (l : List (κ × β)) : find k (put k v l) = some v := by
  induction l with
  | nil => simp [put, find]
  | cons head rest ih =>
    obtain ⟨k', v'⟩ := head
    unfold put
    split
    · simp [find]
    · simp [find]
    · rename_i hgt
      simp [find, hgt, ih]

/-- Every other key has the value it had. -/
theorem find_put_of_ne {k q : κ} (hne : q ≠ k) (v : β) (l : List (κ × β))
    (h : l.Pairwise fun a b => compare a.1 b.1 = .lt) : find q (put k v l) = find q l := by
  have hqk : compare q k ≠ .eq := fun e => hne (Std.LawfulEqCmp.eq_of_compare e)
  induction l with
  | nil =>
    simp only [put, find]
    split <;> first | rfl | contradiction
  | cons head rest ih =>
    obtain ⟨k', v'⟩ := head
    obtain ⟨_, hrest⟩ := List.pairwise_cons.1 h
    unfold put
    split
    · rename_i hlt
      cases hq : compare q k with
      | lt =>
        have hq' : compare q k' = .lt := Std.TransCmp.lt_trans hq hlt
        simp [find, hq, hq']
      | eq => exact absurd hq hqk
      | gt => simp [find, hq]
    · rename_i heq
      obtain rfl : k = k' := Std.LawfulEqCmp.eq_of_compare heq
      cases hq : compare q k with
      | lt => simp [find, hq]
      | eq => exact absurd hq hqk
      | gt => simp [find, hq]
    · cases hq : compare q k' with
      | lt => simp [find, hq]
      | eq => simp [find, hq]
      | gt => simp [find, hq, ih hrest]

/-- A look-up after an insertion. -/
theorem get?_insert (m : SortedMap κ β) (k q : κ) (v : β) [Decidable (q = k)] :
    (m.insert k v).get? q = if q = k then some v else m.get? q := by
  split
  · rename_i h
    subst h
    exact find_put_self q v m.toList
  · rename_i h
    exact find_put_of_ne h v m.toList m.ascending

/-- A key is there after an insertion if it was put there or was there before. -/
theorem contains_insert (m : SortedMap κ β) (k q : κ) (v : β) [Decidable (q = k)] :
    (m.insert k v).contains q = true ↔ q = k ∨ m.contains q = true := by
  unfold contains
  rw [get?_insert]
  by_cases h : q = k <;> simp [h]

/-- Among ascending entries, a search finds exactly what is there. -/
theorem find_eq_some_iff {k : κ} {v : β} {l : List (κ × β)}
    (h : l.Pairwise fun a b => compare a.1 b.1 = .lt) : find k l = some v ↔ (k, v) ∈ l := by
  induction l with
  | nil => simp [find]
  | cons head rest ih =>
    obtain ⟨k', v'⟩ := head
    obtain ⟨hhead, hrest⟩ := List.pairwise_cons.1 h
    unfold find
    split
    -- before a greater key the search stops, and all keys behind it are greater still
    · rename_i hlt
      constructor
      · simp
      · intro hm
        rcases List.mem_cons.1 hm with e | hr
        · obtain ⟨rfl, rfl⟩ := Prod.mk.inj e
          simp at hlt
        · have := Std.TransCmp.lt_trans hlt (hhead _ hr)
          simp at this
    · rename_i heq
      obtain rfl : k = k' := Std.LawfulEqCmp.eq_of_compare heq
      constructor
      · rintro ⟨⟩
        simp
      · intro hm
        rcases List.mem_cons.1 hm with e | hr
        · rw [(Prod.mk.inj e).2]
        · have := hhead _ hr
          simp at this
    · rename_i hgt
      rw [ih hrest, List.mem_cons]
      constructor
      · exact .inr
      · rintro (e | hr)
        · obtain ⟨rfl, rfl⟩ := Prod.mk.inj e
          simp at hgt
        · exact hr

/-- A look-up finds exactly the entries of the map. -/
theorem get?_eq_some_iff {m : SortedMap κ β} {k : κ} {v : β} :
    m.get? k = some v ↔ (k, v) ∈ m.toList := find_eq_some_iff m.ascending

/-- The first entry of a key is its only one. -/
theorem find?_toList [BEq κ] [LawfulBEq κ] (m : SortedMap κ β) (k : κ) :
    (m.toList.find? fun e => e.1 == k) = (m.get? k).map fun v => (k, v) := by
  cases hfind : m.toList.find? fun e => e.1 == k with
  | some e =>
    have hk : e.1 = k := by simpa using List.find?_some hfind
    have hget : m.get? k = some e.2 := get?_eq_some_iff.2 (hk ▸ List.mem_of_find?_eq_some hfind)
    rw [hget, Option.map_some, ← hk]
  | none =>
    cases hget : m.get? k with
    | none => rfl
    | some v => simpa using List.find?_eq_none.1 hfind (k, v) (get?_eq_some_iff.1 hget)

/-- Entries of different keys added to a map: each of them is found, and what was there under other
keys. -/
theorem get?_insertMany_eq_some_iff {m : SortedMap κ β} {entries : List (κ × β)} {k : κ} {v : β}
    (h : entries.Pairwise fun a b => a.1 ≠ b.1) :
    (m.insertMany entries).get? k = some v ↔
      (k, v) ∈ entries ∨ (∀ e ∈ entries, e.1 ≠ k) ∧ m.get? k = some v := by
  classical
  induction entries generalizing m with
  | nil => simp [insertMany]
  | cons e entries ih =>
    obtain ⟨hhead, hrest⟩ := List.pairwise_cons.1 h
    show ((m.insert e.1 e.2).insertMany entries).get? k = some v ↔ _
    rw [ih hrest, get?_insert]
    by_cases hk : k = e.1
    · subst hk
      have hnot : (e.1, v) ∉ entries := fun hm => hhead _ hm rfl
      have hne : ∀ e' ∈ entries, e'.1 ≠ e.1 := fun e' he' => (hhead e' he').symm
      rw [if_pos rfl, or_iff_right hnot, and_iff_right hne, List.mem_cons, or_iff_left hnot]
      constructor
      · intro hv
        exact .inl (Prod.ext rfl (Option.some.inj hv).symm)
      · rintro (hv | hv)
        · exact congrArg some (Prod.mk.inj hv).2.symm
        · exact absurd rfl (hv.1 e (by simp))
    · have hne : (k, v) ≠ e := fun he => hk (congrArg Prod.fst he)
      rw [if_neg hk, List.mem_cons, or_iff_right hne, List.forall_mem_cons,
        and_iff_right (Ne.symm hk)]

/-- The map of entries of different keys holds exactly these. -/
theorem get?_ofList_eq_some_iff {entries : List (κ × β)} {k : κ} {v : β}
    (h : entries.Pairwise fun a b => a.1 ≠ b.1) :
    (ofList entries).get? k = some v ↔ (k, v) ∈ entries := by
  rw [ofList, get?_insertMany_eq_some_iff h]
  exact or_iff_left fun hn => nomatch hn.2

omit [Std.TransOrd κ] in
/-- The keys of a map are different from one another. -/
theorem keys_ne (m : SortedMap κ β) : m.toList.Pairwise fun a b => a.1 ≠ b.1 := by
  refine m.ascending.imp fun {a b} hlt he => ?_
  rw [he] at hlt
  simp at hlt

/-- After a key is taken away a search finds what it found before, and nothing under that key. -/
theorem find_drop {k q : κ} (l : List (κ × β))
    (h : l.Pairwise fun a b => compare a.1 b.1 = .lt) [Decidable (q = k)] :
    find q (drop k l) = if q = k then none else find q l := by
  induction l with
  | nil => simp [drop, find]
  | cons head rest ih =>
    obtain ⟨k', v'⟩ := head
    obtain ⟨hhead, hrest⟩ := List.pairwise_cons.1 h
    unfold drop
    split
    · rename_i hlt
      split
      · rename_i e
        subst e
        simp [find, hlt]
      · rfl
    · rename_i heq
      obtain rfl : k = k' := Std.LawfulEqCmp.eq_of_compare heq
      split
      -- the entry goes, and the keys behind it are all greater
      · rename_i e
        subst e
        exact find_of_below hhead
      · rename_i hne
        cases hq : compare q k with
        | lt =>
          simp [find, hq, find_of_below fun e he => Std.TransCmp.lt_trans hq (hhead e he)]
        | eq => exact absurd (Std.LawfulEqCmp.eq_of_compare hq) hne
        | gt => simp [find, hq]
    · rename_i hgt
      unfold find
      split
      · rename_i hq
        split
        · rfl
        · rfl
      · rename_i hq
        obtain rfl : q = k' := Std.LawfulEqCmp.eq_of_compare hq
        split
        · rename_i e
          subst e
          simp at hgt
        · rfl
      · exact ih hrest

/-- A look-up after a removal. -/
theorem get?_erase (m : SortedMap κ β) (k q : κ) [Decidable (q = k)] :
    (m.erase k).get? q = if q = k then none else m.get? q := find_drop m.toList m.ascending

/-- Maps with the same answers are equal: they have the same entries, and only one order of entries
is ascending. -/
theorem ext_get? {m n : SortedMap κ β} (h : ∀ k, m.get? k = n.get? k) : m = n := by
  have hmem : ∀ e, e ∈ m.toList ↔ e ∈ n.toList := by
    rintro ⟨k, v⟩
    rw [← get?_eq_some_iff, ← get?_eq_some_iff, h]
  have hnodup : ∀ m : SortedMap κ β, m.toList.Nodup :=
    fun m => m.keys_ne.imp fun hne he => hne (congrArg Prod.fst he)
  have hperm : m.toList.Perm n.toList :=
    (List.perm_ext_iff_of_nodup (hnodup m) (hnodup n)).2 hmem
  refine ext_toList (List.Perm.eq_of_pairwise ?_ m.ascending n.ascending hperm)
  intro a b _ _ hab hba
  have hloop := Std.TransCmp.lt_trans hab hba
  simp at hloop

/-- A map is made again from its entries. -/
theorem ofList_toList (m : SortedMap κ β) : ofList m.toList = m := by
  refine ext_get? fun k => Option.ext fun v => ?_
  rw [get?_ofList_eq_some_iff m.keys_ne, get?_eq_some_iff]

end Order

end SortedMap

end KeyDispatch
