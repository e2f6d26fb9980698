import MemPort.Word

/-!
# Maps in ascending key order

A finite map from natural numbers that keeps its entries in ascending order of
their keys, so that "the oldest request" and "the lowest address" are found by
walking the entries from the front.  The order is part of the type, so no two
entries share a key.

## Main definitions

* `AscMap` — the entries, strictly ascending by key.
* `AscMap.get?`, `AscMap.insert`, `AscMap.erase`, `AscMap.filter` — look-up
  and change.

## Main results

* `AscMap.get?_insert`, `AscMap.get?_erase` — what a change does to every
  look-up.
* `AscMap.mem_entries_iff` — an entry is in the map exactly when its key is
  looked up to its value.

## References

`SPEC_FULL.md`, section 1: what happens must not depend on the order in which an
unordered container is gone through; section 3: the map of the requests in
flight and the lock table.
-/

namespace MemPort

/-- A finite map from natural numbers, its entries in strictly ascending key
order. -/
structure AscMap (α : Type) where
  /-- The keys with their values. -/
  entries : List (Nat × α)
  /-- The keys ascend. -/
  ascending : entries.Pairwise fun a b => a.1 < b.1

namespace AscMap

variable {α : Type}

/-- The map that holds nothing. -/
def empty : AscMap α := ⟨[], .nil⟩

instance : EmptyCollection (AscMap α) := ⟨empty⟩

instance : Inhabited (AscMap α) := ⟨empty⟩

/-- The number of entries. -/
def size (m : AscMap α) : Nat := m.entries.length

/-- Whether the map holds nothing. -/
def isEmpty (m : AscMap α) : Bool := m.entries.isEmpty

/-- The value stored under a key. -/
def get? (m : AscMap α) (k : Nat) : Option α := (m.entries.find? (·.1 == k)).map (·.2)

/-- Whether a value is stored under a key. -/
def contains (m : AscMap α) (k : Nat) : Bool := (m.get? k).isSome

/-- The values in ascending order of their keys. -/
def values (m : AscMap α) : List α := m.entries.map (·.2)

/-! ### Insertion -/

/-- Put an entry at its place among ascending entries, over an entry of the same
key. -/
def place (k : Nat) (v : α) : List (Nat × α) → List (Nat × α)
  | [] => [(k, v)]
  | e :: rest =>
      if k < e.1 then (k, v) :: e :: rest
      else if k = e.1 then (k, v) :: rest
      else e :: place k v rest

theorem mem_place {k : Nat} {v : α} {l : List (Nat × α)} {x : Nat × α}
    (h : x ∈ place k v l) :
    x = (k, v) ∨ x ∈ l := by
  induction l with
  | nil => simpa [place] using h
  | cons e rest ih =>
    unfold place at h
    split at h
    · simpa using h
    · split at h
      · rcases List.mem_cons.mp h with h | h
        · exact Or.inl h
        · exact Or.inr (List.mem_cons_of_mem _ h)
      · rcases List.mem_cons.mp h with h | h
        · exact Or.inr (h ▸ List.mem_cons_self)
        · exact (ih h).imp_right (List.mem_cons_of_mem _)

theorem ascending_place (k : Nat) (v : α) {l : List (Nat × α)}
    (h : l.Pairwise fun a b => a.1 < b.1) :
    (place k v l).Pairwise fun a b => a.1 < b.1 := by
  induction l with
  | nil => simp [place]
  | cons e rest ih =>
    obtain ⟨hhead, hrest⟩ := List.pairwise_cons.mp h
    unfold place
    split
    · -- the new key comes first of all
      rename_i hlt
      refine List.pairwise_cons.mpr ⟨fun x hx => ?_, h⟩
      rcases List.mem_cons.mp hx with rfl | hx
      · exact hlt
      · exact Nat.lt_trans hlt (hhead x hx)
    · split
      · rename_i heq
        exact List.pairwise_cons.mpr ⟨fun x hx => by simpa [heq] using hhead x hx, hrest⟩
      · rename_i hge hne
        refine List.pairwise_cons.mpr ⟨fun x hx => ?_, ih hrest⟩
        rcases mem_place hx with rfl | hx
        · simp only; omega
        · exact hhead x hx

/-- Store a value under a key, over what was there. -/
def insert (m : AscMap α) (k : Nat) (v : α) : AscMap α :=
  ⟨place k v m.entries, ascending_place k v m.ascending⟩

/-! ### Removal -/

/-- Keep the entries that satisfy a test. -/
def filter (m : AscMap α) (p : Nat → α → Bool) : AscMap α :=
  ⟨m.entries.filter fun e => p e.1 e.2, m.ascending.filter _⟩

/-- Remove the entry of a key. -/
def erase (m : AscMap α) (k : Nat) : AscMap α := m.filter fun k' _ => k' != k

/-! ### Look-up laws -/

@[simp] theorem get?_empty (k : Nat) : (empty : AscMap α).get? k = none := rfl

theorem find?_place (k : Nat) (v : α) (k' : Nat) (l : List (Nat × α)) :
    (place k v l).find? (·.1 == k') =
      if k = k' then some (k, v) else l.find? (·.1 == k') := by
  induction l with
  | nil => by_cases h : k = k' <;> simp [place, h]
  | cons e rest ih =>
    unfold place
    split
    · by_cases h : k = k' <;> simp [h]
    · split
      · rename_i heq
        by_cases h : k = k'
        · simp [h]
        · have h' : ¬ e.1 = k' := by omega
          simp [h, h']
      · rename_i hne
        by_cases he : e.1 = k'
        · have h : ¬ k = k' := by omega
          simp [he, h]
        · simp only [List.find?_cons]
          have : (e.1 == k') = false := by simpa using he
          rw [this]
          simpa using ih

/-- **Looking up after an insertion**: the new value under its key, the old
answer elsewhere. -/
theorem get?_insert (m : AscMap α) (k : Nat) (v : α) (k' : Nat) :
    (m.insert k v).get? k' = if k = k' then some v else m.get? k' := by
  unfold get? insert
  rw [find?_place]
  by_cases h : k = k' <;> simp [h]

/-- **Looking up after a removal**: nothing under its key, the old answer
elsewhere. -/
theorem get?_erase (m : AscMap α) (k k' : Nat) :
    (m.erase k).get? k' = if k = k' then none else m.get? k' := by
  have hfind : (m.erase k).entries.find? (·.1 == k') =
      m.entries.find? fun a => a.1 != k && a.1 == k' := by
    unfold erase filter
    rw [List.find?_filter]
    congr 1
    funext a
    simp only [Bool.decide_and, Bool.decide_eq_true]
  unfold get?
  rw [hfind]
  by_cases h : k = k'
  · -- no entry passes both tests
    have hnone : (m.entries.find? fun a => a.1 != k && a.1 == k') = none := by
      rw [List.find?_eq_none]
      intro x _
      by_cases hx : x.1 = k <;> simp [hx, h]
    rw [hnone, if_pos h]
    rfl
  · -- the first test follows from the second
    have hsame : (fun a : Nat × α => a.1 != k && a.1 == k') = fun a => a.1 == k' := by
      funext a
      by_cases ha : a.1 = k'
      · have : ¬ k' = k := fun h' => h h'.symm
        simp [ha, this]
      · simp [ha]
    rw [hsame, if_neg h]

/-- **Entries are look-ups**: an entry is in the map exactly when its key is
looked up to its value. -/
theorem mem_entries_iff (m : AscMap α) (k : Nat) (v : α) :
    (k, v) ∈ m.entries ↔ m.get? k = some v := by
  obtain ⟨entries, hasc⟩ := m
  simp only [get?]
  induction entries with
  | nil => simp
  | cons e rest ih =>
    obtain ⟨hhead, hrest⟩ := List.pairwise_cons.mp hasc
    by_cases he : e.1 = k
    · -- the head holds the key, so nothing behind it does
      have hnone : (k, v) ∉ rest := fun hmem => by
        have := hhead _ hmem
        simp only at this
        omega
      subst he
      simp only [List.find?_cons, beq_self_eq_true, Option.map_some, List.mem_cons, hnone,
        or_false, Option.some.injEq]
      constructor
      · intro h; rw [← h]
      · intro h; rw [← h]
    · have hne : (k, v) ≠ e := fun h => he (h ▸ rfl)
      have : (e.1 == k) = false := by simpa using he
      simp only [List.mem_cons, hne, false_or, List.find?_cons, this]
      exact ih hrest

end AscMap

end MemPort
