import Mathlib.Data.List.Sort

/-! # Rankings

The elements of a list in the order of their ranks. There is one such list, as long as no two of them have the same
rank, and it can be read in pages. -/

namespace Ranking
variable {E E' O : Type} [LinearOrder O]

section Rankings
variable (rank : E → O)

def sort (l : List E) : List E := l.mergeSort fun x y => decide (rank x ≤ rank y)

/-- The list has the elements of the set, by ascending ranks, and so each of them once. -/
structure Ranks (s : Set E) (l : List E) : Prop where
  mem : ∀ e, e ∈ l ↔ e ∈ s
  ascending : l.Pairwise fun x y => rank x < rank y

end Rankings

variable {rank : E → O} {s : Set E} {l l' : List E}

theorem sort_perm (rank : E → O) (l : List E) : (sort rank l).Perm l := List.mergeSort_perm l _

theorem Ranks.unique (h : Ranks rank s l) (h' : Ranks rank s l') : l = l' := by
  have hirrefl : Std.Irrefl fun x y : E => rank x < rank y := ⟨fun x => lt_irrefl (rank x)⟩
  have hantisymm : Std.Antisymm fun x y : E => rank x < rank y := ⟨fun _ _ hxy hyx => absurd hxy hyx.asymm⟩
  exact h.ascending.eq_of_mem_iff h'.ascending fun e => (h.mem e).trans (h'.mem e).symm

theorem ranks_sort (hl : (l.map rank).Nodup) : Ranks rank {e | e ∈ l} (sort rank l) := by
  have hperm := sort_perm rank l
  refine ⟨fun e => hperm.mem_iff, ?_⟩
  have hle : (sort rank l).Pairwise fun x y => rank x ≤ rank y := by
    have hsorted : (sort rank l).Pairwise fun x y => decide (rank x ≤ rank y) = true :=
      List.pairwise_mergeSort
        (fun x y z hxy hyz => decide_eq_true ((of_decide_eq_true hxy).trans (of_decide_eq_true hyz)))
        (fun x y => by simpa using le_total (rank x) (rank y)) l
    exact hsorted.imp of_decide_eq_true
  have hne : (sort rank l).Pairwise fun x y => rank x ≠ rank y :=
    List.pairwise_map.mp ((hperm.map rank).nodup_iff.mpr hl)
  exact hle.imp₂ (fun x y hxy hne => lt_of_le_of_ne hxy hne) hne

/-- What is ranked is ranked as what it stands for. -/
theorem Ranks.of_map {f : E' → E} (hf : Function.Injective f) {l : List E'} (h : Ranks rank s (l.map f)) :
    Ranks (rank ∘ f) (Set.preimage f s) l := by
  have hascending := h.ascending
  rw [List.pairwise_map] at hascending
  exact ⟨fun e => (List.mem_map_of_injective hf).symm.trans (h.mem (f e)), hascending⟩

/-- Pages of one size, one after the other, are what they are pages of. -/
theorem pages_eq (l : List E) (size pages : Nat) :
    (List.range pages).flatMap (fun i => (l.drop (i * size)).take size) = l.take (pages * size) := by
  induction pages with
  | zero => rw [Nat.zero_mul, List.take_zero, List.range_zero, List.flatMap_nil]
  | succ pages ih =>
    rw [List.range_succ, List.flatMap_append, ih, List.flatMap_singleton, Nat.succ_mul, List.take_add]

end Ranking
