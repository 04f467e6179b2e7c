/-!
# Positions in a path

A match is followed by the positions that it can end at: ascending lists of indices into the bytes
of a path, the length of the path among them when all of it is used up.

* `step` — one byte of a kind; `mem_step` says which positions it leads to.
* `spread` — any number of bytes of a kind; `mem_spread` says which positions they lead to.
* `mergeEnds` — the ends of either of two matches, with `mem_mergeEnds`.
-/

namespace ProjectLayout.Glob

/-- Positions in a path, ascending. -/
abbrev Ends := List Nat

/-! ## One byte -/

/-- The ends of a match of one byte that satisfies `p`. -/
def step (path : Array UInt8) (p : UInt8 → Bool) (ends : Ends) : Ends :=
  ends.filterMap fun i => if path[i]?.any p then some (i + 1) else none

theorem mem_step {path : Array UInt8} {p : UInt8 → Bool} {ends : Ends} {j : Nat} :
    j ∈ step path p ends ↔ ∃ i ∈ ends, path[i]?.any p = true ∧ j = i + 1 := by
  simp only [step, List.mem_filterMap]
  constructor
  · rintro ⟨i, hi, h⟩
    split at h
    · exact ⟨i, hi, by assumption, by simpa using h.symm⟩
    · simp at h
  · rintro ⟨i, hi, hp, rfl⟩
    exact ⟨i, hi, by simp [hp]⟩

/-! ## Any number of bytes -/

/-- The positions from `i` on that bytes satisfying `p` lead to, with `left` bytes left, in front
of those in `later`.  The walk stops at the first of `later`, which takes it on. -/
def reach (path : Array UInt8) (p : UInt8 → Bool) (later : Ends) : Nat → Nat → Ends
  | 0, i => if later.head? = some i then later else i :: later
  | left + 1, i =>
    if later.head? = some i then later
    else if path[i]?.any p then i :: reach path p later left (i + 1)
    else i :: later

/-- The ends of a match of any number of bytes that satisfy `p`. -/
def spread (path : Array UInt8) (p : UInt8 → Bool) (ends : Ends) : Ends :=
  ends.foldr (fun i later => reach path p later (path.size - i) i) []

/-- Whether bytes that satisfy `p` lead from one position to another. -/
def Leads (path : Array UInt8) (p : UInt8 → Bool) (i j : Nat) : Prop :=
  i ≤ j ∧ ∀ k, i ≤ k → k < j → path[k]?.any p = true

theorem Leads.refl (path : Array UInt8) (p : UInt8 → Bool) (i : Nat) : Leads path p i i :=
  ⟨Nat.le_refl i, fun k h h' => absurd h' (by omega)⟩

/-- A position leads to itself, and past a byte to all that the next position leads to. -/
theorem leads_iff {path : Array UInt8} {p : UInt8 → Bool} {i j : Nat} :
    Leads path p i j ↔ j = i ∨ (path[i]?.any p = true ∧ Leads path p (i + 1) j) := by
  constructor
  · rintro ⟨hle, hall⟩
    by_cases h : j = i
    · exact .inl h
    · exact .inr ⟨hall i (Nat.le_refl i) (by omega), by omega, fun k hk hj => hall k (by omega) hj⟩
  · rintro (rfl | ⟨hi, hle, hall⟩)
    · exact Leads.refl path p j
    · refine ⟨by omega, fun k hk hj => ?_⟩
      by_cases h : k = i
      · exact h ▸ hi
      · exact hall k (by omega) hj

/-- Past the end of a path a position leads to nothing but itself. -/
theorem leads_of_size_le {path : Array UInt8} {p : UInt8 → Bool} {i j : Nat}
    (h : path.size ≤ i) : Leads path p i j ↔ j = i := by
  rw [leads_iff]
  simp [Array.getElem?_eq_none h]

theorem head?_reach {path : Array UInt8} {p : UInt8 → Bool} {later : Ends} (left i : Nat) :
    (reach path p later left i).head? = some i := by
  cases left with
  | zero =>
    simp only [reach]
    split
    · assumption
    · rfl
  | succ left =>
    simp only [reach]
    split
    · assumption
    · split <;> rfl

/-- A walk adds what its start leads to, if all that the first of `later` leads to is there. -/
theorem mem_reach {path : Array UInt8} {p : UInt8 → Bool} {later : Ends} {j : Nat}
    (closed : ∀ i, later.head? = some i → Leads path p i j → j ∈ later) (left i : Nat)
    (bound : path.size ≤ i + left) :
    j ∈ reach path p later left i ↔ Leads path p i j ∨ j ∈ later := by
  induction left generalizing i with
  | zero =>
    rw [leads_of_size_le (by omega)]
    simp only [reach]
    split
    · next h =>
      have := closed i h
      constructor
      · exact .inr
      · rintro (rfl | hj)
        · exact this (Leads.refl path p j)
        · exact hj
    · simp
  | succ left ih =>
    simp only [reach]
    split
    · next h =>
      constructor
      · exact .inr
      · rintro (hj | hj)
        · exact closed i h hj
        · exact hj
    · split
      · next hp =>
        rw [leads_iff, List.mem_cons, ih (i + 1) (by omega)]
        simp [hp, or_assoc]
      · next hp =>
        rw [leads_iff, List.mem_cons]
        simp [hp]

/-- The first position of a spread is the first of the positions spread. -/
theorem head?_spread {path : Array UInt8} {p : UInt8 → Bool} (ends : Ends) :
    (spread path p ends).head? = ends.head? := by
  cases ends with
  | nil => rfl
  | cons i ends => simp [spread, head?_reach]

theorem mem_spread {path : Array UInt8} {p : UInt8 → Bool} {ends : Ends} {j : Nat} :
    j ∈ spread path p ends ↔ ∃ i ∈ ends, Leads path p i j := by
  induction ends with
  | nil => simp [spread]
  | cons i ends ih =>
    have closed : ∀ k, (spread path p ends).head? = some k → Leads path p k j →
        j ∈ spread path p ends := by
      intro k hk hj
      rw [head?_spread] at hk
      exact ih.2 ⟨k, List.mem_of_head? hk, hj⟩
    have := mem_reach closed (path.size - i) i (by omega)
    simp only [spread, List.foldr_cons, List.mem_cons, exists_eq_or_imp] at this ih ⊢
    rw [this, ih]

/-! ## Two matches -/

/-- The ends of either of two matches. -/
def mergeEnds : Ends → Ends → Ends
  | [], others => others
  | i :: ends, others =>
    others.takeWhile (· < i) ++
      i :: mergeEnds ends ((others.dropWhile (· < i)).dropWhile (· == i))

theorem mem_mergeEnds {ends others : Ends} {j : Nat} :
    j ∈ mergeEnds ends others ↔ j ∈ ends ∨ j ∈ others := by
  induction ends generalizing others with
  | nil => simp [mergeEnds]
  | cons i ends ih =>
    have split : j ∈ others ↔ j ∈ others.takeWhile (· < i) ∨
        j ∈ (others.dropWhile (· < i)).takeWhile (· == i) ∨
        j ∈ (others.dropWhile (· < i)).dropWhile (· == i) := by
      rw [← List.mem_append, List.takeWhile_append_dropWhile, ← List.mem_append,
        List.takeWhile_append_dropWhile]
    have same : j ∈ (others.dropWhile (· < i)).takeWhile (· == i) → j = i := fun h => by
      have := List.all_takeWhile (p := (· == i)) (l := others.dropWhile (· < i))
      simpa using List.all_eq_true.1 this j h
    rw [mergeEnds, List.mem_append, List.mem_cons, ih, split, List.mem_cons]
    constructor
    · rintro (h | h | h | h)
      · exact .inr (.inl h)
      · exact .inl (.inl h)
      · exact .inl (.inr h)
      · exact .inr (.inr (.inr h))
    · rintro ((h | h) | h | h | h)
      · exact .inr (.inl h)
      · exact .inr (.inr (.inl h))
      · exact .inl h
      · exact .inr (.inl (same h))
      · exact .inr (.inr (.inr h))

end ProjectLayout.Glob
