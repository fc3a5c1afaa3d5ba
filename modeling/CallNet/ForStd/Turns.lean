import Mathlib.Data.Nat.Count
import Mathlib.Data.Nat.Periodic

/-!
# Taking turns

Turns are the natural numbers, and of every `n` successive turns each place of a round
has one: turn `t` belongs to the place `t % n`.  A scheduler that goes round looks from
the turn it last gave for the first one whose place satisfies a condition.

`Chain.nodup` is its fairness: as long as the condition does not change, the places it
picks come back only after every place that satisfies the condition has been picked.
-/

namespace Turns

/-- `t` is the first turn after `c` at which `p` holds. -/
structure Next (p : Nat → Prop) (c t : Nat) : Prop where
  after : c < t
  holds : p t
  first : ∀ u, c < u → u < t → ¬ p u

/-- The turns `ts` follow each other, the first one next after `c`. -/
abbrev Chain (p : Nat → Prop) (c : Nat) (ts : List Nat) : Prop := (c :: ts).IsChain (Next p)

variable {p : Nat → Prop} {n c t : Nat}

theorem Next.congr {q : Nat → Prop} (hpq : ∀ t, p t ↔ q t) (h : Next p c t) : Next q c t :=
  ⟨h.after, (hpq t).mp h.holds, fun u hc ht hu => h.first u hc ht ((hpq u).mpr hu)⟩

/-- Every turn of a chain has the property. -/
theorem Chain.holds {ts : List Nat} (h : Chain p c ts) (ht : t ∈ ts) : p t := by
  induction ts generalizing c with
  | nil => cases ht
  | cons u ts ih =>
    obtain ⟨hnext, hrest⟩ := List.isChain_cons_cons.mp h
    rcases List.mem_cons.mp ht with rfl | ht
    · exact hnext.holds
    · exact ih hrest ht

/-- A whole number of rounds later, the next turn is as far away. -/
theorem Next.add_rounds (hper : Function.Periodic p n) (m : Nat) (h : Next p c t) :
    Next p (c + m * n) (t + m * n) := by
  have hp : ∀ u, p (u + m * n) = p u := hper.nat_mul m
  refine ⟨Nat.add_lt_add_right h.after _, (hp t).mpr h.holds, fun u hcu hut hpu => ?_⟩
  obtain ⟨v, rfl⟩ : ∃ v, u = v + m * n := ⟨u - m * n, by omega⟩
  exact h.first v (by omega) (by omega) ((hp v).mp hpu)

/-! ## Counting the turns given -/

variable [DecidablePred p]

/-- Up to its next turn a property holds once more than up to the turn before. -/
theorem Next.count_succ (h : Next p c t) : Nat.count p (t + 1) = Nat.count p (c + 1) + 1 := by
  obtain ⟨d, rfl⟩ : ∃ d, t = c + 1 + d := ⟨t - (c + 1), by have := h.after; omega⟩
  have hnone : Nat.count (fun k => p (c + 1 + k)) d = 0 :=
    Nat.count_of_forall_not fun k hk => h.first _ (by omega) (by omega)
  rw [Nat.count_succ, if_pos h.holds, Nat.count_add, hnone, Nat.add_zero]

/-- One round holds the property as often as any other. -/
theorem count_add_round (hper : Function.Periodic p n) (a : Nat) :
    Nat.count p (a + n) = Nat.count p a + Nat.count p n := by
  rw [Nat.count_add']
  simp only [hper _]

/-- In every round a place that has the property gets a turn. -/
theorem exists_turn (hper : Function.Periodic p n) {i : Nat} (hi : i < n) (hp : p i) (c : Nat) :
    ∃ t, c < t ∧ t ≤ c + n ∧ p t := by
  by_contra hnone
  push Not at hnone
  have hzero : Nat.count (fun k => p (c + 1 + k)) n = 0 :=
    Nat.count_of_forall_not fun k hk => hnone _ (by omega) (by omega)
  have hround := count_add_round hper (c + 1)
  rw [Nat.count_add, hzero] at hround
  have hpos : 0 < Nat.count p n :=
    Nat.pos_of_ne_zero fun h => Nat.count_iff_forall_not.mp h i hi hp
  omega

/-- Along a chain the turns increase and use up at most one hit each. -/
theorem Chain.count_le {ts : List Nat} (h : Chain p c ts) (ht : t ∈ ts) :
    c < t ∧ Nat.count p (t + 1) ≤ Nat.count p (c + 1) + ts.length := by
  induction ts generalizing c with
  | nil => cases ht
  | cons u ts ih =>
    obtain ⟨hnext, hrest⟩ := List.isChain_cons_cons.mp h
    have hcount := hnext.count_succ
    rw [List.length_cons]
    rcases List.mem_cons.mp ht with rfl | ht
    · exact ⟨hnext.after, by omega⟩
    · obtain ⟨hlt, hle⟩ := ih hrest ht
      exact ⟨hnext.after.trans hlt, by omega⟩

/-- No place comes twice among the next turns, while there are no more of them than
    places with the property. -/
theorem Chain.nodup (hper : Function.Periodic p n) {ts : List Nat} (h : Chain p c ts)
    (hlen : ts.length ≤ Nat.count p n) : (ts.map (· % n)).Nodup := by
  induction ts generalizing c with
  | nil => exact List.nodup_nil
  | cons t ts ih =>
    have hrest : Chain p t ts := (List.isChain_cons_cons.mp h).2
    rw [List.length_cons] at hlen
    rw [List.map_cons, List.nodup_cons]
    refine ⟨fun hmem => ?_, ih hrest (by omega)⟩
    obtain ⟨u, hu, hmod⟩ := List.mem_map.mp hmem
    obtain ⟨hlt, hle⟩ := hrest.count_le hu
    -- the same place again is at least one whole round later
    have hround : t + n ≤ u := by
      have hdvd : n ∣ u - t := (Nat.modEq_iff_dvd' hlt.le).mp hmod.symm
      have := Nat.le_of_dvd (by omega) hdvd
      omega
    have hmono : Nat.count p (t + 1 + n) ≤ Nat.count p (u + 1) :=
      Nat.count_monotone p (by omega)
    rw [count_add_round hper] at hmono
    omega

end Turns
