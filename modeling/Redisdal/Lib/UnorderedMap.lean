import Mathlib.Data.Finmap

/-! # Unordered containers

An unordered map is an association list with distinct keys; the order of its list is not a property of
the map, whose value is the finite map `AList.toFinmap` it represents. `emplace` keeps the entry that is
already there, as opposed to `AList.insert`. -/

/-- An unordered map: an association list with distinct keys. -/
abbrev UnorderedMap (K V : Type) : Type := AList fun _ : K => V

/-- An unordered set: a map that stores nothing under its keys. -/
abbrev UnorderedSet (K : Type) : Type := UnorderedMap K Unit

namespace UnorderedMap
variable {K V W : Type} [DecidableEq K]

/-- Insert `v` under `k` unless the map already has an entry there. -/
def emplace (m : UnorderedMap K V) (k : K) (v : V) : UnorderedMap K V :=
  if k ∈ m then m else m.insert k v

def emplaceAll (m : UnorderedMap K V) (l : List (K × V)) : UnorderedMap K V :=
  l.foldl (fun m e => m.emplace e.1 e.2) m

/-- Erase each key of `l` in turn; the number of keys that were there. -/
def eraseAll (m : UnorderedMap K V) : List K → Nat × UnorderedMap K V
  | [] => (0, m)
  | k :: l => ((if k ∈ m then 1 else 0) + (eraseAll (m.erase k) l).1, (eraseAll (m.erase k) l).2)

/-- Insert each pair of `l` in turn, replacing what was there. -/
def insertAll (m : UnorderedMap K V) (l : List (K × V)) : UnorderedMap K V :=
  l.foldl (fun m e => m.insert e.1 e.2) m

/-- The entries as pairs. -/
def pairs (m : UnorderedMap K V) : List (K × V) := m.entries.map fun e => (e.1, e.2)

def vals (m : UnorderedMap K V) : List V := m.entries.map fun e => e.2

/-- The value of the first pair with the key `k`. -/
def firstValue (l : List (K × V)) (k : K) : Option V := l.lookup k

/-! ### Looking up -/

theorem lookup_cons_ite (e : K × V) (l : List (K × V)) (x : K) :
    (e :: l).lookup x = if x = e.1 then some e.2 else l.lookup x := by
  rw [List.lookup_cons]
  by_cases h : x = e.1
  · simp [h]
  · simp [h, beq_eq_false_iff_ne.mpr h]

theorem lookup_insert_eq (m : UnorderedMap K V) (k x : K) (v : V) :
    AList.lookup x (m.insert k v) = if x = k then some v else AList.lookup x m := by
  by_cases h : x = k
  · subst h
    simp
  · simp [h]

theorem emplace_of_mem {m : UnorderedMap K V} {k : K} {v : V} (h : k ∈ m) : m.emplace k v = m := if_pos h

theorem lookup_emplace (m : UnorderedMap K V) (k x : K) (v : V) :
    AList.lookup x (m.emplace k v) = (AList.lookup x m).or (if x = k then some v else none) := by
  unfold emplace
  by_cases hk : k ∈ m
  · rw [if_pos hk]
    by_cases hx : x = k
    · subst hx
      obtain ⟨w, hw⟩ := Option.isSome_iff_exists.mp (AList.lookup_isSome.mpr hk)
      simp [hw]
    · simp [hx]
  · rw [if_neg hk, lookup_insert_eq]
    by_cases hx : x = k
    · subst hx
      simp [AList.lookup_eq_none.mpr hk]
    · simp [hx]

theorem mem_emplace {m : UnorderedMap K V} {k x : K} {v : V} : x ∈ m.emplace k v ↔ x ∈ m ∨ x = k := by
  rw [← AList.lookup_isSome, lookup_emplace, Option.isSome_or, Bool.or_eq_true, AList.lookup_isSome]
  split <;> simp [*]

theorem lookup_emplaceAll (m : UnorderedMap K V) (l : List (K × V)) (x : K) :
    AList.lookup x (m.emplaceAll l) = (AList.lookup x m).or (l.lookup x) := by
  induction l generalizing m with
  | nil => simp [emplaceAll]
  | cons e l ih =>
    show AList.lookup x ((m.emplace e.1 e.2).emplaceAll l) = _
    rw [ih, lookup_emplace, lookup_cons_ite, Option.or_assoc]
    by_cases h : x = e.1 <;> simp [h]

/-- Of the pairs with one key the first stays, unless the map has an entry for it. -/
theorem lookup_emplaceAll_first (m : UnorderedMap K V) (l : List (K × V)) (x : K) :
    AList.lookup x (m.emplaceAll l) = (AList.lookup x m).or (firstValue l x) := lookup_emplaceAll m l x

theorem firstValue_append (l l' : List (K × V)) (x : K) :
    firstValue (l ++ l') x = (firstValue l x).or (firstValue l' x) := List.lookup_append

@[simp] theorem lookup_emplaceAll_empty (l : List (K × V)) (x : K) :
    AList.lookup x (emplaceAll ∅ l) = l.lookup x := by
  rw [lookup_emplaceAll, AList.lookup_empty, Option.none_or]

theorem mem_emplaceAll {m : UnorderedMap K V} {l : List (K × V)} {x : K} :
    x ∈ m.emplaceAll l ↔ x ∈ m ∨ x ∈ l.map Prod.fst := by
  rw [← AList.lookup_isSome, lookup_emplaceAll, Option.isSome_or, Bool.or_eq_true, AList.lookup_isSome,
    List.lookup_isSome_iff]
  simp only [List.mem_map, beq_iff_eq, Eq.comm (a := x)]

theorem entries_emplaceAll_eq_nil {l : List (K × V)} : (emplaceAll (∅ : UnorderedMap K V) l).entries = [] ↔ l = [] := by
  constructor
  · intro h
    rcases l with _ | ⟨e, l⟩
    · rfl
    · have hmem : e.1 ∈ emplaceAll (∅ : UnorderedMap K V) (e :: l) := mem_emplaceAll.mpr (Or.inr (by simp))
      rw [AList.mem_keys, AList.keys, h] at hmem
      cases hmem
  · rintro rfl
    rfl

theorem mem_pairs {m : UnorderedMap K V} {k : K} {v : V} : (k, v) ∈ m.pairs ↔ AList.lookup k m = some v := by
  rw [← Option.mem_def, AList.mem_lookup_iff, pairs, List.mem_map]
  constructor
  · intro h
    obtain ⟨⟨k', v'⟩, he, heq⟩ := h
    cases heq
    exact he
  · exact fun he => ⟨⟨k, v⟩, he, rfl⟩

omit [DecidableEq K] in
theorem map_fst_pairs (m : UnorderedMap K V) : m.pairs.map Prod.fst = m.keys := by
  simp [pairs, AList.keys, List.keys, Function.comp_def]

omit [DecidableEq K] in
theorem vals_eq (m : UnorderedMap K V) : m.vals = m.pairs.map Prod.snd := by
  simp [pairs, vals, Function.comp_def]

omit [DecidableEq K] in
theorem nodup_pairs (m : UnorderedMap K V) : (m.pairs.map Prod.fst).Nodup := by
  rw [map_fst_pairs]
  exact m.keys_nodup

theorem toFinmap_eq_iff {m m' : UnorderedMap K V} :
    m.toFinmap = m'.toFinmap ↔ ∀ k, AList.lookup k m = AList.lookup k m' := by
  constructor
  · intro h k
    rw [← Finmap.lookup_toFinmap, ← Finmap.lookup_toFinmap]
    exact congrArg (Finmap.lookup k) h
  · intro h
    exact Finmap.ext_lookup fun k => by
      rw [Finmap.lookup_toFinmap, Finmap.lookup_toFinmap]
      exact h k

/-- Among pairs with distinct keys, the order does not change what a key is paired with. -/
theorem lookup_perm {l l' : List (K × V)} (h : l.Perm l') (hl : (l.map Prod.fst).Nodup) (k : K) :
    l.lookup k = l'.lookup k := by
  induction h with
  | nil => rfl
  | @cons e l l' _ ih =>
    rw [lookup_cons_ite, lookup_cons_ite, ih (List.nodup_cons.mp hl).2]
  | swap a b l =>
    have hne : a.1 ≠ b.1 := by
      simp only [List.map_cons, List.nodup_cons, List.mem_cons, not_or] at hl
      exact fun h => hl.1.1 h.symm
    simp only [lookup_cons_ite]
    by_cases ha : k = a.1
    · rw [if_pos ha, if_pos ha, if_neg fun hb => hne (ha.symm.trans hb)]
    · rw [if_neg ha, if_neg ha]
  | trans h₁ _ ih₁ ih₂ =>
    rw [ih₁ hl, ih₂ ((h₁.map Prod.fst).nodup_iff.mp hl)]

theorem lookup_pairs (m : UnorderedMap K V) (k : K) : m.pairs.lookup k = AList.lookup k m := by
  cases h : AList.lookup k m with
  | none =>
    rw [List.lookup_eq_none_iff]
    intro e he
    have hk : k ∉ m := AList.lookup_eq_none.mp h
    have : e.1 ∈ m := by
      rw [AList.mem_keys, ← map_fst_pairs]
      exact List.mem_map_of_mem he
    exact bne_iff_ne.mpr fun heq => hk (heq ▸ this)
  | some v =>
    have hm : (k, v) ∈ m.pairs := mem_pairs.mpr h
    obtain ⟨l₁, l₂, hl⟩ := List.append_of_mem hm
    have hn := nodup_pairs m
    rw [hl] at hn ⊢
    rw [lookup_perm List.perm_middle hn]
    simp

/-- The last pair of a key is the one that stays. -/
theorem lookup_insertAll (m : UnorderedMap K V) (l : List (K × V)) (x : K) :
    AList.lookup x (m.insertAll l) = (l.reverse.lookup x).or (AList.lookup x m) := by
  induction l generalizing m with
  | nil => simp [insertAll]
  | cons e l ih =>
    show AList.lookup x (insertAll (m.insert e.1 e.2) l) = _
    rw [ih, lookup_insert_eq, List.reverse_cons, List.lookup_append, Option.or_assoc, lookup_cons_ite]
    by_cases h : x = e.1 <;> simp [h]

theorem mem_of_lookup {l : List (K × V)} {x : K} {v : V} (h : l.lookup x = some v) : (x, v) ∈ l := by
  obtain ⟨l₁, l₂, rfl, -⟩ := List.lookup_eq_some_iff.mp h
  simp

theorem exists_lookup_of_mem {l : List (K × V)} {x : K} {v : V} (h : (x, v) ∈ l) : ∃ w, l.lookup x = some w := by
  rw [← Option.isSome_iff_exists, List.lookup_isSome_iff]
  exact ⟨(x, v), h, beq_self_eq_true x⟩

theorem mem_insertAll {m : UnorderedMap K V} {l : List (K × V)} {x : K} :
    x ∈ m.insertAll l ↔ x ∈ m ∨ x ∈ l.map Prod.fst := by
  rw [← AList.lookup_isSome, lookup_insertAll, Option.isSome_or, Bool.or_eq_true, AList.lookup_isSome,
    List.lookup_isSome_iff, or_comm]
  simp only [List.mem_reverse, List.mem_map, beq_iff_eq, Eq.comm (a := x)]

/-- Assigning to keys that a map has leaves its keys as they are. -/
theorem mem_insertAll_of_subset {m : UnorderedMap K V} {l : List (K × V)} (h : ∀ e ∈ l, e.1 ∈ m) (x : K) :
    x ∈ m.insertAll l ↔ x ∈ m := by
  rw [mem_insertAll, or_iff_left_of_imp]
  intro hx
  obtain ⟨e, he, rfl⟩ := List.mem_map.mp hx
  exact h e he

/-- Assigning to the keys that a map has what a function says of them. -/
theorem lookup_insertAll_of_forall {m : UnorderedMap K V} {l : List (K × V)} {g : K → V}
    (hl : ∀ e ∈ l, e.2 = g e.1) {x : K} (hx : x ∈ l.map Prod.fst) : AList.lookup x (m.insertAll l) = some (g x) := by
  obtain ⟨⟨x, v⟩, he, rfl⟩ := List.mem_map.mp hx
  obtain ⟨w, hw⟩ := exists_lookup_of_mem (List.mem_reverse.mpr he)
  rw [lookup_insertAll, hw]
  exact congrArg some (hl _ (List.mem_reverse.mp (mem_of_lookup hw)))

/-- Assigning changes nothing where the last pair of each key is the one that is there. -/
theorem insertAll_toFinmap_iff {m : UnorderedMap K V} {l : List (K × V)} :
    (m.insertAll l).toFinmap = m.toFinmap ↔ ∀ k v, l.reverse.lookup k = some v → AList.lookup k m = some v := by
  rw [toFinmap_eq_iff]
  refine forall_congr' fun k => ?_
  rw [lookup_insertAll]
  cases l.reverse.lookup k with
  | none => simp
  | some v => simp [eq_comm]

theorem lookup_of_mem {l : List (K × V)} (hl : (l.map Prod.fst).Nodup) {x : K} {v : V} (h : (x, v) ∈ l) :
    l.lookup x = some v := by
  obtain ⟨l₁, l₂, rfl⟩ := List.append_of_mem h
  rw [lookup_perm List.perm_middle hl, lookup_cons_ite, if_pos rfl]

theorem mem_pairs_insertAll {m : UnorderedMap K V} {l : List (K × V)} (hl : (l.map Prod.fst).Nodup)
    (hm : ∀ k ∈ m, k ∈ l.map Prod.fst) (e : K × V) : e ∈ (m.insertAll l).pairs ↔ e ∈ l := by
  obtain ⟨k, v⟩ := e
  rw [mem_pairs, lookup_insertAll, lookup_perm l.reverse_perm (by rwa [List.map_reverse, List.nodup_reverse])]
  constructor
  · intro h
    cases hk : l.lookup k with
    | some w =>
      rw [hk] at h
      cases h
      exact mem_of_lookup hk
    | none =>
      rw [hk] at h
      have hmem : k ∈ m := AList.lookup_isSome.mp (Option.isSome_iff_exists.mpr ⟨v, h⟩)
      obtain ⟨⟨k', w⟩, he, rfl⟩ := List.mem_map.mp (hm k hmem)
      obtain ⟨w', hw'⟩ := exists_lookup_of_mem he
      rw [hk] at hw'
      cases hw'
  · intro h
    rw [lookup_of_mem hl h]
    rfl

/-- A map built from pairs with distinct keys has just these pairs. -/
theorem pairs_emplaceAll_perm {l : List (K × V)} (hl : (l.map Prod.fst).Nodup) : (emplaceAll ∅ l).pairs.Perm l := by
  rw [List.perm_ext_iff_of_nodup (nodup_pairs _).of_map hl.of_map]
  intro e
  obtain ⟨k, v⟩ := e
  rw [mem_pairs, lookup_emplaceAll_empty]
  exact ⟨mem_of_lookup, lookup_of_mem hl⟩

/-- Every pair gets an entry exactly when the keys are distinct. -/
theorem length_emplaceAll_iff {l : List (K × V)} :
    (emplaceAll ∅ l).entries.length = l.length ↔ (l.map Prod.fst).Nodup := by
  have hset : (emplaceAll ∅ l).keys.toFinset = (l.map Prod.fst).toFinset := by
    ext k
    rw [List.mem_toFinset, ← AList.mem_keys, mem_emplaceAll, List.mem_toFinset]
    exact or_iff_right (AList.notMem_empty k)
  have hcard : (emplaceAll ∅ l).entries.length = (l.map Prod.fst).toFinset.card := by
    rw [← hset, List.toFinset_card_of_nodup (emplaceAll ∅ l).keys_nodup, AList.keys, List.keys, List.length_map]
  have hdistinct := Multiset.toFinset_card_eq_card_iff_nodup (m := (↑(l.map Prod.fst) : Multiset K))
  rw [Multiset.coe_card, List.length_map, Multiset.coe_nodup] at hdistinct
  rw [hcard]
  exact hdistinct

/-! ### Erasing -/

theorem lookup_eraseAll (m : UnorderedMap K V) (l : List K) (x : K) :
    AList.lookup x (m.eraseAll l).2 = if x ∈ l then none else AList.lookup x m := by
  induction l generalizing m with
  | nil => rfl
  | cons k l ih =>
    show AList.lookup x (eraseAll (m.erase k) l).2 = _
    rw [ih]
    by_cases hl : x ∈ l
    · simp [hl]
    · by_cases hk : x = k
      · subst hk
        simp
      · simp [hl, hk, AList.lookup_erase_ne hk]

/-- The distinct elements of a list that satisfy `p`, counted from its head on. -/
theorem card_filter_toFinset_cons (p : K → Prop) [DecidablePred p] (k : K) (l : List K) :
    ((k :: l).toFinset.filter p).card = (if p k then 1 else 0) + ((l.toFinset.filter p).erase k).card := by
  rw [List.toFinset_cons, Finset.filter_insert]
  by_cases hk : p k
  · have hinsert : insert k (l.toFinset.filter p) = insert k ((l.toFinset.filter p).erase k) := by grind
    rw [if_pos hk, if_pos hk, hinsert, Finset.card_insert_of_notMem (Finset.notMem_erase k _), Nat.add_comm]
  · rw [if_neg hk, if_neg hk, Finset.erase_eq_of_notMem fun h => hk (Finset.mem_filter.mp h).2, Nat.zero_add]

theorem fst_eraseAll (m : UnorderedMap K V) (l : List K) : (m.eraseAll l).1 = (l.toFinset.filter (· ∈ m)).card := by
  induction l generalizing m with
  | nil => rfl
  | cons k l ih =>
    have herase : l.toFinset.filter (· ∈ m.erase k) = (l.toFinset.filter (· ∈ m)).erase k := by
      ext x
      simp only [Finset.mem_filter, AList.mem_erase, Finset.mem_erase]
      tauto
    show (if k ∈ m then 1 else 0) + (eraseAll (m.erase k) l).1 = _
    rw [ih, herase, card_filter_toFinset_cons]

end UnorderedMap
