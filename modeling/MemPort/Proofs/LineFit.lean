import MemPort.Proofs.Merging

/-!
# Transactions that spill past their line

A transaction is refused if it ends beyond its line, and for that the address
after its last byte is compared with the start of the line.  That address is a
word: where the transaction runs over the end of the address space it is the
largest word instead.  Everywhere below, the check is exact, and so is the
number of bytes that it reports.

In the line at the very top, no word is far enough from the start of the line
for the check to refuse anything.  A transaction that spills past that line
passes, is sent, and comes to light only when the answer for the line turns out
to be too short for it.

## Main definitions

* `Transaction.lineReach` — where a transaction ends, counted from the start
  of its line.

## Main results

* `checkLineFit_eq` — the check in exact numbers.
* `lineFit_exact` — when the check lets a transaction pass, what it reports,
  and when a load can be cut out of the answer for its line.
* `spill_past_top_fits` — a transaction that spills past its line and passes.

## References

`SPEC_FULL.md`, section 4.4, step 5: a transaction must not exceed its line;
section 7, class (b).
-/

namespace MemPort

/-- Where a transaction ends, counted from the start of its line. -/
def Transaction.lineReach (t : Transaction) (lineSize : Nat) : Nat := t.addr % lineSize + t.size

section Lines

variable {lineSize : Nat} {t : Transaction}

theorem reach_eq_lineReach (hline : isPowerOfTwo lineSize = true) (port : Nat) :
    Origin.reach ⟨port, t⟩ (blockBase t.addr lineSize) = t.lineReach lineSize := by
  have hle := Nat.mod_le t.addr lineSize
  unfold Origin.reach Transaction.lineReach
  rw [blockBase_eq_sub_mod hline, Nat.sub_sub_self hle]

/-- How far a transaction seems to reach: no further than the largest word. -/
theorem stop_sub_blockBase (hline : isPowerOfTwo lineSize = true) :
    t.stop - blockBase t.addr lineSize =
      min (t.lineReach lineSize) (maxWord - blockBase t.addr lineSize) := by
  have hle := Nat.mod_le t.addr lineSize
  unfold Transaction.stop satAdd Transaction.lineReach
  rw [blockBase_eq_sub_mod hline]
  omega

/-- **The check in exact numbers.** -/
theorem checkLineFit_eq (hline : isPowerOfTwo lineSize = true) (port : Nat) :
    checkLineFit port t lineSize =
      if t.lineReach lineSize ≤ lineSize ∨ maxWord ≤ blockBase t.addr lineSize + lineSize then
        .ok ()
      else .error (.oversizedAccess port t.addr
        (min (t.lineReach lineSize) (maxWord - blockBase t.addr lineSize)) lineSize) := by
  unfold checkLineFit
  simp only [stop_sub_blockBase hline]
  split
  · rename_i hlong
    rw [if_neg (by omega)]
  · rename_i hfit
    rw [if_pos (by omega)]

/-- The reach that is reported is the exact one as long as the transaction ends
at a word. -/
theorem min_lineReach (hline : isPowerOfTwo lineSize = true) :
    min (t.lineReach lineSize) (maxWord - blockBase t.addr lineSize) =
      if t.addr + t.size ≤ maxWord then t.lineReach lineSize
      else maxWord - blockBase t.addr lineSize := by
  have hle := Nat.mod_le t.addr lineSize
  unfold Transaction.lineReach
  rw [blockBase_eq_sub_mod hline]
  split <;> omega

/-- **A load is cut out of the answer for its line** exactly if it does not
spill past it. -/
theorem fanOut_ofTransaction (hline : isPowerOfTwo lineSize = true) (hread : t.cmd = .read)
    (port : Nat) {response : BackendResponse} (hfull : response.data.length = lineSize) :
    let line := blockBase t.addr lineSize
    let answer := (Coalesced.ofTransaction port t lineSize).fanOut response
    (t.lineReach lineSize ≤ lineSize ∧
        ∃ d, answer = .ok [d] ∧ Origin.CutFrom ⟨port, t⟩ line response.data d) ∨
      (lineSize < t.lineReach lineSize ∧ answer =
        .error (.truncatedResponse response.id lineSize (t.lineReach lineSize))) := by
  intro line answer
  have hreach := reach_eq_lineReach (t := t) hline port
  have hfans : (Coalesced.ofTransaction port t lineSize).FansOut response answer :=
    Coalesced.fansOut_fanOut _ response
  clear_value answer
  -- one transaction stands behind the load, so it is the one that is cut out or reported
  cases hfans with
  | cut _ hfit hcuts =>
    obtain ⟨d, ds, hcut, hnone, rfl⟩ := List.forall₂_cons_left_iff.mp hcuts
    rw [List.forall₂_nil_left_iff.mp hnone]
    have hle : t.lineReach lineSize ≤ response.data.length :=
      hreach ▸ hfit ⟨port, t⟩ List.mem_cons_self
    exact Or.inl ⟨hfull ▸ hle, d, rfl, hcut⟩
  | @truncated before after o _ horigins _ hshort =>
    have horigin : o = ⟨port, t⟩ := by
      have hmem : o ∈ (Coalesced.ofTransaction port t lineSize).origins :=
        horigins ▸ List.mem_append_right _ List.mem_cons_self
      exact List.mem_singleton.mp hmem
    rw [horigin] at hshort ⊢
    rw [show Origin.reach ⟨port, t⟩ (Coalesced.ofTransaction port t lineSize).line = _
      from hreach, hfull] at hshort ⊢
    exact Or.inr ⟨hshort, rfl⟩
  | passed hcmd _ => exact absurd hread hcmd

end Lines

/-- **When transactions fit their line.**  The check lets a transaction pass
exactly if it ends within its line, or if that line ends with the address space.
Otherwise it reports where the transaction ends, counted from the start of the
line: exactly, or as far as there are words.  A load that is answered with the
bytes of its line gets its own bytes out of them exactly if it ends within the
line, and otherwise the answer is too short for it, also where the check has let
it pass. -/
theorem lineFit_exact {lineSize : Nat} (hline : isPowerOfTwo lineSize = true) (port : Nat)
    (t : Transaction) :
    let line := blockBase t.addr lineSize
    (checkLineFit port t lineSize = .ok () ↔
        t.lineReach lineSize ≤ lineSize ∨ maxWord ≤ line + lineSize) ∧
      (∀ v, checkLineFit port t lineSize = .error v → v = .oversizedAccess port t.addr
        (if t.addr + t.size ≤ maxWord then t.lineReach lineSize else maxWord - line) lineSize) ∧
      ∀ response : BackendResponse, t.cmd = .read → response.data.length = lineSize →
        let answer := (Coalesced.ofTransaction port t lineSize).fanOut response
        (t.lineReach lineSize ≤ lineSize ∧
            ∃ d, answer = .ok [d] ∧ Origin.CutFrom ⟨port, t⟩ line response.data d) ∨
          (lineSize < t.lineReach lineSize ∧ answer =
            .error (.truncatedResponse response.id lineSize (t.lineReach lineSize))) := by
  intro line
  refine ⟨?_, ?_, fun response hread hfull => fanOut_ofTransaction hline hread port hfull⟩
  · rw [checkLineFit_eq hline]
    split
    · rename_i hpass
      exact iff_of_true rfl hpass
    · rename_i hrefused
      exact iff_of_false (by simp) hrefused
  · intro v hv
    rw [checkLineFit_eq hline, min_lineReach hline] at hv
    split at hv
    · cases hv
    · cases hv
      rfl

/-- A load of eight bytes that begins at the fourth last address. -/
def loadPastTop : Transaction := .load .read 3 (maxWord - 3) 8

/-- It passes the check, and then the answer for its line is too short for it. -/
theorem lineFit_exact_loadPastTop : isPowerOfTwo 64 = true ∧
    checkLineFit 2 loadPastTop 64 = .ok () ∧
      (Coalesced.ofTransaction 2 loadPastTop 64).fanOut ⟨7, List.replicate 64 0, true⟩ =
        .error (.truncatedResponse 7 64 68) := by
  have hline : isPowerOfTwo 64 = true := by decide
  obtain ⟨hfit, -, hfan⟩ := lineFit_exact hline 2 loadPastTop
  refine ⟨hline, hfit.mpr (Or.inr (by decide)), ?_⟩
  rcases hfan ⟨7, List.replicate 64 0, true⟩ rfl rfl with ⟨hle, -⟩ | ⟨-, herror⟩
  · exact absurd hle (by decide)
  · exact herror

/-- **A transaction that spills past its line may pass**: not all transactions
that are let pass end within their line. -/
theorem spill_past_top_fits : ¬ ∀ (port lineSize : Nat) (t : Transaction),
    isPowerOfTwo lineSize = true → t.addr ≤ maxWord → t.size < 1 <<< 32 →
      (checkLineFit port t lineSize = .ok () ↔ t.addr % lineSize + t.size ≤ lineSize) := by
  intro h
  have hwithin := (h 2 64 loadPastTop (by decide) (by decide) (by decide)).mp rfl
  exact absurd hwithin (by decide)

end MemPort
