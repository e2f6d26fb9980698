import MemPort.AscMap

/-!
# The entries of a map

Look-ups say nothing about how many entries a map has or in which order they
stand.  Here the effect of a change is stated on the list of the entries: up to
their order for any change, and exactly for the changes that the allocator makes
most, at either end of the list.

## Main results

* `AscMap.entries_erase_perm`, `AscMap.entries_insert_perm` — a change up to
  order.
* `AscMap.entries_insert_of_lt` — a key above all others is appended.
* `AscMap.entries_insert_of_get?` — a new value takes the place of the old
  one.
* `AscMap.size_insert_of_lt`, `AscMap.size_erase` — how many entries there
  are.

## References

`SPEC_FULL.md`, section 3: the map of the requests in flight.
-/

namespace MemPort
namespace AscMap

variable {α : Type}

theorem nodup_entries (m : AscMap α) : m.entries.Nodup := by
  refine m.ascending.imp ?_
  intro a b hlt heq
  rw [heq] at hlt
  exact Nat.lt_irrefl _ hlt

theorem ext_entries {m n : AscMap α} (h : m.entries = n.entries) : m = n := by
  cases m
  cases n
  cases h
  rfl

/-- The entry of a key is the one that a look-up finds. -/
theorem eq_of_mem_of_get? {m : AscMap α} {k : Nat} {v : α} (h : m.get? k = some v) :
    ∀ e ∈ m.entries, e.1 = k → e = (k, v) := by
  rintro ⟨k', w⟩ hmem rfl
  rw [mem_entries_iff, h] at hmem
  cases hmem
  rfl

theorem get?_of_entries_nil {m : AscMap α} (h : m.entries = []) (k : Nat) : m.get? k = none := by
  unfold get?
  rw [h]
  rfl

theorem entries_ne_nil {m : AscMap α} {k : Nat} {v : α} (h : m.get? k = some v) :
    m.entries ≠ [] := by
  intro hnil
  rw [get?_of_entries_nil hnil] at h
  cases h

theorem get?_of_isEmpty {m : AscMap α} (h : m.isEmpty = true) (k : Nat) : m.get? k = none :=
  get?_of_entries_nil (List.isEmpty_iff.mp h) k

theorem eq_of_entries_singleton {m : AscMap α} {k k' : Nat} {v w : α} (h : m.entries = [(k, v)])
    (hget : m.get? k' = some w) : k' = k ∧ w = v := by
  have hmem := (mem_entries_iff m k' w).mpr hget
  rw [h] at hmem
  cases List.mem_singleton.mp hmem
  exact ⟨rfl, rfl⟩

/-! ### Removal -/

theorem erase_of_get?_eq_none {m : AscMap α} {k : Nat} (h : m.get? k = none) : m.erase k = m := by
  apply ext_entries
  unfold erase filter
  rw [List.filter_eq_self]
  rintro ⟨k', v⟩ hmem
  have hk := (mem_entries_iff m k' v).mp hmem
  rw [bne_iff_ne]
  rintro rfl
  rw [h] at hk
  cases hk

/-- The entry of a key that ascending entries begin with is the one that a
removal takes. -/
theorem entries_erase_of_cons {m : AscMap α} {k : Nat} {v : α} {rest : List (Nat × α)}
    (h : m.entries = (k, v) :: rest) : (m.erase k).entries = rest := by
  have hasc := m.ascending
  rw [h] at hasc
  obtain ⟨hhead, -⟩ := List.pairwise_cons.mp hasc
  unfold erase filter
  simp only [h, List.filter_cons, bne_self_eq_false, Bool.false_eq_true, if_false]
  rw [List.filter_eq_self]
  intro e he
  have hlt := hhead e he
  rw [bne_iff_ne]
  exact Nat.ne_of_gt hlt

/-- **A removal takes one entry**: the others are left, in whatever order. -/
theorem entries_erase_perm {m : AscMap α} {k : Nat} {v : α} (h : m.get? k = some v) :
    m.entries.Perm ((k, v) :: (m.erase k).entries) := by
  have hnodup : ((k, v) :: (m.erase k).entries).Nodup := by
    rw [List.nodup_cons]
    refine ⟨fun hmem => ?_, nodup_entries _⟩
    rw [mem_entries_iff, get?_erase, if_pos rfl] at hmem
    cases hmem
  rw [List.perm_ext_iff_of_nodup (nodup_entries m) hnodup]
  rintro ⟨k', v'⟩
  rw [List.mem_cons, mem_entries_iff, mem_entries_iff, get?_erase]
  by_cases hk : k = k'
  · subst hk
    rw [h, if_pos rfl]
    simp [eq_comm]
  · have hne : (k', v') ≠ (k, v) := fun heq => hk (congrArg Prod.fst heq).symm
    rw [if_neg hk]
    simp [hne]

/-! ### Insertion -/

theorem place_of_forall_lt {k : Nat} {v : α} {l : List (Nat × α)} (h : ∀ e ∈ l, e.1 < k) :
    place k v l = l ++ [(k, v)] := by
  induction l with
  | nil => rfl
  | cons e rest ih =>
    have he := h e List.mem_cons_self
    unfold place
    rw [if_neg (by omega), if_neg (by omega), ih fun x hx => h x (List.mem_cons_of_mem _ hx)]
    rfl

/-- **A key above all others is appended.** -/
theorem entries_insert_of_lt {m : AscMap α} {k : Nat} (v : α)
    (h : ∀ k' w, m.get? k' = some w → k' < k) :
    (m.insert k v).entries = m.entries ++ [(k, v)] :=
  place_of_forall_lt fun e he => h e.1 e.2 ((mem_entries_iff m e.1 e.2).mp he)

theorem place_of_mem {k : Nat} {v w : α} {l : List (Nat × α)}
    (hasc : l.Pairwise fun a b => a.1 < b.1) (hmem : (k, w) ∈ l) :
    place k v l = l.map fun e => if e.1 = k then (k, v) else e := by
  induction l with
  | nil => cases hmem
  | cons e rest ih =>
    obtain ⟨hhead, hrest⟩ := List.pairwise_cons.mp hasc
    unfold place
    rw [List.map_cons]
    rcases List.mem_cons.mp hmem with rfl | hmem
    · -- the key is at the front, so it is nowhere behind
      rw [if_neg (Nat.lt_irrefl _), if_pos rfl, if_pos rfl]
      congr 1
      have hsame : ∀ x ∈ rest, (if x.1 = k then (k, v) else x) = x := fun x hx =>
        if_neg (Nat.ne_of_gt (hhead x hx))
      rw [List.map_congr_left hsame, List.map_id']
    · have hlt : e.1 < k := hhead _ hmem
      rw [if_neg (by omega), if_neg (by omega), if_neg (by omega), ih hrest hmem]

/-- **A new value takes the place of the old one.** -/
theorem entries_insert_of_get? {m : AscMap α} {k : Nat} {w : α} (v : α) (h : m.get? k = some w) :
    (m.insert k v).entries = m.entries.map fun e => if e.1 = k then (k, v) else e :=
  place_of_mem m.ascending ((mem_entries_iff m k w).mpr h)

theorem keys_insert_of_get? {m : AscMap α} {k : Nat} {w : α} (v : α) (h : m.get? k = some w) :
    (m.insert k v).entries.map (·.1) = m.entries.map (·.1) := by
  rw [entries_insert_of_get? v h, List.map_map]
  refine List.map_congr_left fun e _ => ?_
  by_cases hk : e.1 = k <;> simp [hk]

theorem erase_insert (m : AscMap α) (k : Nat) (v : α) : (m.insert k v).erase k = m.erase k := by
  apply ext_entries
  refine ((List.perm_ext_iff_of_nodup (nodup_entries _) (nodup_entries _)).mpr ?_).eq_of_pairwise
    (fun a b _ _ hab hba => absurd (Nat.lt_trans hab hba) (Nat.lt_irrefl _))
    ((m.insert k v).erase k).ascending (m.erase k).ascending
  rintro ⟨k', v'⟩
  rw [mem_entries_iff, mem_entries_iff, get?_erase, get?_erase, get?_insert]
  by_cases hk : k = k'
  · rw [if_pos hk, if_pos hk]
  · rw [if_neg hk, if_neg hk, if_neg hk]

/-- **An insertion adds one entry** to those of the other keys, in whatever
order. -/
theorem entries_insert_perm (m : AscMap α) (k : Nat) (v : α) :
    (m.insert k v).entries.Perm ((k, v) :: (m.erase k).entries) := by
  have h : (m.insert k v).get? k = some v := by rw [get?_insert, if_pos rfl]
  have hperm := entries_erase_perm h
  rwa [erase_insert] at hperm

/-! ### How many there are -/

theorem size_of_isEmpty {m : AscMap α} (h : m.isEmpty = true) : m.size = 0 :=
  List.length_eq_zero_iff.mpr (List.isEmpty_iff.mp h)

theorem size_erase {m : AscMap α} {k : Nat} {v : α} (h : m.get? k = some v) :
    m.size = (m.erase k).size + 1 := (entries_erase_perm h).length_eq

theorem size_insert_of_get? {m : AscMap α} {k : Nat} {w : α} (h : m.get? k = some w) (v : α) :
    (m.insert k v).size = m.size := by
  rw [size_erase h]
  exact (entries_insert_perm m k v).length_eq

theorem size_insert_of_fresh {m : AscMap α} {k : Nat} (h : m.get? k = none) (v : α) :
    (m.insert k v).size = m.size + 1 := by
  have hperm := (entries_insert_perm m k v).length_eq
  rw [erase_of_get?_eq_none h] at hperm
  exact hperm

theorem size_insert_of_lt {m : AscMap α} {k : Nat} (v : α)
    (h : ∀ k' w, m.get? k' = some w → k' < k) : (m.insert k v).size = m.size + 1 := by
  refine size_insert_of_fresh (Option.eq_none_iff_forall_ne_some.mpr fun w hw => ?_) v
  exact Nat.lt_irrefl k (h k w hw)

end AscMap
end MemPort
