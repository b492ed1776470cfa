import Mathlib.Data.Set.List
import Redisdal.Lib.UnorderedMap

/-! # Maps through an encoding

A map over encoded keys and values represents a finite map over the keys and values themselves. The
operations on the two sides go together when the encodings are injective. -/

namespace UnorderedMap
variable {K V C W : Type} [DecidableEq K] [DecidableEq C]

theorem lookup_foldl_erase (f : Finmap fun _ : K => V) (l : List K) (k : K) :
    (l.foldl (fun f k => f.erase k) f).lookup k = if k ∈ l then none else f.lookup k := by
  induction l generalizing f with
  | nil => rfl
  | cons k' l ih =>
    rw [List.foldl_cons, ih]
    by_cases hl : k ∈ l
    · simp [hl]
    · by_cases hk : k = k'
      · subst hk
        simp
      · simp [hl, hk, Finmap.lookup_erase_ne hk]

/-- `m` has the encoded entries of `f`, and no others. -/
structure Represents (encK : K → C) (encV : V → W) (m : UnorderedMap C W) (f : Finmap fun _ : K => V) : Prop where
  lookup : ∀ k, AList.lookup (encK k) m = (f.lookup k).map encV
  keys : ∀ c ∈ m, ∃ k, encK k = c

namespace Represents
variable {encK : K → C} {encV : V → W} {m m' : UnorderedMap C W} {f g : Finmap fun _ : K => V}

theorem empty : Represents encK encV ∅ ∅ := ⟨fun _ => rfl, fun c hc => absurd hc (AList.notMem_empty c)⟩

theorem eq_empty (h : Represents encK encV ∅ f) : f = ∅ :=
  Finmap.ext_lookup fun k => Option.map_eq_none_iff.mp (h.lookup k).symm

theorem mem_iff (h : Represents encK encV m f) (k : K) : encK k ∈ m ↔ k ∈ f := by
  rw [← AList.lookup_isSome, h.lookup, Option.isSome_map, Finmap.lookup_isSome]

theorem eq_empty_iff (h : Represents encK encV m f) : m = ∅ ↔ f = ∅ := by
  constructor
  · intro hm
    exact (hm ▸ h).eq_empty
  · intro hf
    have hkeys : m.keys = [] := List.eq_nil_iff_forall_not_mem.mpr fun c hc => by
      obtain ⟨k, rfl⟩ := h.keys c (AList.mem_keys.mpr hc)
      have hmem := (h.mem_iff k).mp (AList.mem_keys.mpr hc)
      rw [hf] at hmem
      exact Finmap.notMem_empty hmem
    exact AList.ext (List.map_eq_nil_iff.mp hkeys)

/-- Only the value of a map counts. -/
theorem congr (h : Represents encK encV m f) (hm : ∀ c, AList.lookup c m' = AList.lookup c m) :
    Represents encK encV m' f := by
  refine ⟨fun k => (hm _).trans (h.lookup k), fun c hc => h.keys c ?_⟩
  rw [← AList.lookup_isSome, ← hm, AList.lookup_isSome]
  exact hc

/-- Storing the entries of one represented map into another. -/
theorem union (h : Represents encK encV m f) (h' : Represents encK encV m' g) {l : List (C × W)}
    (hl : l.Perm m'.pairs) : Represents encK encV (m.insertAll l) (g ∪ f) := by
  have hnodup : (l.map Prod.fst).Nodup := (hl.map Prod.fst).nodup_iff.mpr (nodup_pairs m')
  have hlookup (c : C) : l.reverse.lookup c = AList.lookup c m' := by
    rw [lookup_perm l.reverse_perm (by rwa [List.map_reverse, List.nodup_reverse]), lookup_perm hl hnodup, lookup_pairs]
  refine ⟨fun k => ?_, fun c hc => ?_⟩
  · rw [lookup_insertAll, hlookup, h.lookup, h'.lookup]
    by_cases hk : k ∈ g
    · obtain ⟨v, hv⟩ := Option.isSome_iff_exists.mp (Finmap.lookup_isSome.mpr hk)
      rw [Finmap.lookup_union_left hk, hv]
      rfl
    · rw [Finmap.lookup_union_right hk, Finmap.lookup_eq_none.mpr hk]
      rfl
  · rcases mem_insertAll.mp hc with hc | hc
    · exact h.keys c hc
    · refine h'.keys c ?_
      rw [AList.mem_keys, ← map_fst_pairs]
      exact (hl.map Prod.fst).mem_iff.mp hc

variable (hK : Function.Injective encK)
include hK

theorem insert (h : Represents encK encV m f) (k : K) (v : V) :
    Represents encK encV (m.insert (encK k) (encV v)) (f.insert k v) := by
  refine ⟨fun k' => ?_, fun c hc => ?_⟩
  · rw [lookup_insert_eq]
    by_cases hk : k' = k
    · subst hk
      simp
    · rw [if_neg (hK.ne hk), h.lookup, Finmap.lookup_insert_of_ne f hk]
  · rcases (AList.mem_insert m).mp hc with rfl | hc
    · exact ⟨k, rfl⟩
    · exact h.keys c hc

theorem lookup_map (l : List (K × V)) (k : K) :
    firstValue (l.map (Prod.map encK encV)) (encK k) = (firstValue l k).map encV := by
  induction l with
  | nil => rfl
  | cons e l ih =>
    unfold firstValue at ih ⊢
    rw [List.map_cons, lookup_cons_ite, lookup_cons_ite, ih, Prod.map_fst]
    by_cases hk : k = e.1
    · rw [if_pos hk, if_pos (congrArg encK hk)]
      rfl
    · rw [if_neg hk, if_neg (hK.ne hk)]

theorem encoded (encV : V → W) {m : UnorderedMap K V} {l : List (K × V)} (hl : l.Perm m.pairs) :
    Represents encK encV (emplaceAll ∅ (l.map (Prod.map encK encV))) m.toFinmap := by
  have hnodup : (l.map Prod.fst).Nodup := (hl.map Prod.fst).nodup_iff.mpr (nodup_pairs m)
  refine ⟨fun k => ?_, fun c hc => ?_⟩
  · have hlookup : firstValue l k = AList.lookup k m := (lookup_perm hl hnodup k).trans (lookup_pairs m k)
    rw [lookup_emplaceAll_first, AList.lookup_empty, Option.none_or, lookup_map hK, hlookup, Finmap.lookup_toFinmap]
  · rcases mem_emplaceAll.mp hc with hc | hc
    · exact absurd hc (AList.notMem_empty c)
    · rw [List.map_map] at hc
      obtain ⟨e, -, rfl⟩ := List.mem_map.mp hc
      exact ⟨e.1, rfl⟩

omit hK in
/-- One of the maps under encoded keys changes. -/
theorem update {D E : Type} [DecidableEq D] [DecidableEq E] {enc : D → E} (henc : Function.Injective enc)
    {ms : E → UnorderedMap C W} {fs : D → Finmap fun _ : K => V} (h : ∀ d, Represents encK encV (ms (enc d)) (fs d))
    (d : D) (hm : Represents encK encV m f) (d' : D) :
    Represents encK encV (Function.update ms (enc d) m (enc d')) (Function.update fs d f d') := by
  by_cases hd : d' = d
  · subst hd
    rwa [Function.update_self, Function.update_self]
  · rw [Function.update_of_ne (henc.ne hd), Function.update_of_ne hd]
    exact h d'

/-- Erasing keys; the encoded keys that were there are as many as the keys. -/
theorem eraseAll (h : Represents encK encV m f) (l : List K) :
    Represents encK encV (m.eraseAll (l.map encK)).2 (l.foldl (fun f k => f.erase k) f) ∧
      (m.eraseAll (l.map encK)).1 = (l.toFinset.filter (· ∈ f)).card := by
  refine ⟨⟨fun k => ?_, fun c hc => ?_⟩, ?_⟩
  · rw [lookup_eraseAll, h.lookup, lookup_foldl_erase]
    by_cases hk : k ∈ l
    · rw [if_pos (List.mem_map_of_mem hk), if_pos hk]
      rfl
    · rw [if_neg fun hmem => hk ((List.mem_map_of_injective hK).mp hmem), if_neg hk]
  · refine h.keys c ?_
    rw [← AList.lookup_isSome, lookup_eraseAll] at hc
    split at hc
    · cases hc
    · exact AList.lookup_isSome.mp hc
  · rw [fst_eraseAll]
    have himage : (l.map encK).toFinset.filter (· ∈ m) = (l.toFinset.filter (· ∈ f)).image encK := by
      ext c
      simp only [Finset.mem_filter, List.mem_toFinset, List.mem_map, Finset.mem_image]
      constructor
      · intro hex
        obtain ⟨⟨k, hk, rfl⟩, hc⟩ := hex
        exact ⟨k, ⟨hk, (h.mem_iff k).mp hc⟩, rfl⟩
      · intro hex
        obtain ⟨k, ⟨hk, hf⟩, rfl⟩ := hex
        exact ⟨⟨k, hk, rfl⟩, (h.mem_iff k).mpr hf⟩
    rw [himage, Finset.card_image_of_injective _ hK]

/-- The entries in any order are the encodings of the represented entries. -/
theorem exists_decoded (hV : Function.Injective encV) (h : Represents encK encV m f) {l : List (C × W)}
    (hl : l.Perm m.pairs) : ∃ l' : List (K × V), l'.map (Prod.map encK encV) = l ∧ (l'.map Prod.fst).Nodup ∧
      (emplaceAll ∅ l').toFinmap = f := by
  have hrange : l ∈ Set.range (List.map (Prod.map encK encV)) := by
    rw [Set.range_list_map]
    rintro ⟨c, w⟩ he
    have hlookup : AList.lookup c m = some w := mem_pairs.mp (hl.mem_iff.mp he)
    obtain ⟨k, rfl⟩ := h.keys c (AList.lookup_isSome.mp (by rw [hlookup]; rfl))
    rw [h.lookup] at hlookup
    obtain ⟨v, -, rfl⟩ := Option.map_eq_some_iff.mp hlookup
    exact ⟨(k, v), rfl⟩
  obtain ⟨l', rfl⟩ := hrange
  have hnodup : (l'.map Prod.fst).Nodup := by
    have hfst : ((l'.map (Prod.map encK encV)).map Prod.fst).Nodup :=
      (hl.map Prod.fst).nodup_iff.mpr (nodup_pairs m)
    rw [List.map_map] at hfst
    exact List.Nodup.of_map encK (by simpa [List.map_map, Function.comp_def] using hfst)
  refine ⟨l', rfl, hnodup, Finmap.ext_lookup fun k => ?_⟩
  rw [Finmap.lookup_toFinmap, lookup_emplaceAll_empty]
  have hmem {v : V} : (k, v) ∈ l' ↔ f.lookup k = some v := by
    rw [← List.mem_map_of_injective (hK.prodMap hV), hl.mem_iff, Prod.map_apply, mem_pairs, h.lookup]
    exact (Option.map_injective hV).eq_iff' rfl
  cases hk : l'.lookup k with
  | some v => exact (hmem.mp (mem_of_lookup hk)).symm
  | none =>
    cases hf : f.lookup k with
    | none => rfl
    | some v =>
      obtain ⟨w, hw⟩ := exists_lookup_of_mem (hmem.mpr hf)
      rw [hk] at hw
      cases hw

theorem exists_keys (h : Represents encK encV m f) {l : List C} (hl : l.Perm m.keys) :
    ∃ l' : List K, l'.map encK = l ∧ l'.toFinset = f.keys := by
  have hrange : l ∈ Set.range (List.map encK) := by
    rw [Set.range_list_map]
    exact fun c hc => h.keys c (hl.mem_iff.mp hc)
  obtain ⟨l', rfl⟩ := hrange
  refine ⟨l', rfl, ?_⟩
  ext k
  rw [List.mem_toFinset, ← List.mem_map_of_injective hK, hl.mem_iff, Finmap.mem_keys, ← h.mem_iff, AList.mem_keys]

theorem exists_vals (hV : Function.Injective encV) (h : Represents encK encV m f) {l : List W} (hl : l.Perm m.vals) :
    ∃ l' : List V, l'.map encV = l ∧ (l' : Multiset V) = f.entries.map (·.2) := by
  obtain ⟨entries, hentries, hnodup, rfl⟩ := h.exists_decoded hK hV (List.Perm.refl m.pairs)
  have hvals : m.vals = (entries.map Prod.snd).map encV := by
    rw [vals_eq, ← hentries, List.map_map, List.map_map]
    rfl
  have hrange : l ∈ Set.range (List.map encV) := by
    rw [Set.range_list_map]
    intro w hw
    obtain ⟨v, -, rfl⟩ := List.mem_map.mp (hvals ▸ hl.mem_iff.mp hw)
    exact ⟨v, rfl⟩
  obtain ⟨l', rfl⟩ := hrange
  refine ⟨l', rfl, ?_⟩
  have hperm : l'.Perm (emplaceAll ∅ entries).vals := by
    rw [vals_eq]
    exact ((List.map_perm_map_iff hV).mp (hvals ▸ hl)).trans ((pairs_emplaceAll_perm hnodup).map Prod.snd).symm
  exact Multiset.coe_eq_coe.mpr hperm

end Represents

/-- The members of `m` are the encoded members of `s`. -/
def RepresentsSet (enc : V → C) (m : UnorderedSet C) (s : Finset V) : Prop :=
  ∀ c, c ∈ m ↔ ∃ v ∈ s, enc v = c

namespace RepresentsSet
variable {enc : V → C} {m : UnorderedSet C} {s : Finset V}

omit [DecidableEq C] in
theorem empty : RepresentsSet enc ∅ ∅ := fun c =>
  iff_of_false (AList.notMem_empty c) (by simp)

omit [DecidableEq C] in
theorem eq_empty_iff (h : RepresentsSet enc m s) : m = ∅ ↔ s = ∅ := by
  constructor
  · intro hm
    refine Finset.eq_empty_of_forall_notMem fun v hv => ?_
    have hmem := (h (enc v)).mpr ⟨v, hv, rfl⟩
    rw [hm] at hmem
    exact AList.notMem_empty _ hmem
  · intro hs
    have hkeys : m.keys = [] := List.eq_nil_iff_forall_not_mem.mpr fun c hc => by
      obtain ⟨v, hv, -⟩ := (h c).mp ((AList.mem_keys).mpr hc)
      rw [hs] at hv
      exact Finset.notMem_empty v hv
    exact AList.ext (List.map_eq_nil_iff.mp hkeys)

variable [DecidableEq V]

theorem insertAll (h : RepresentsSet enc m s) (l : List V) :
    RepresentsSet enc (m.emplaceAll ((l.map enc).map fun c => (c, ()))) (s ∪ l.toFinset) := by
  intro c
  rw [mem_emplaceAll, h c, List.map_map]
  simp only [Function.comp_def, List.map_id', List.mem_map, Finset.mem_union, List.mem_toFinset]
  constructor
  · rintro (⟨v, hv, rfl⟩ | ⟨v, hv, rfl⟩)
    · exact ⟨v, Or.inl hv, rfl⟩
    · exact ⟨v, Or.inr hv, rfl⟩
  · rintro ⟨v, hv | hv, rfl⟩
    · exact Or.inl ⟨v, hv, rfl⟩
    · exact Or.inr ⟨v, hv, rfl⟩

variable (henc : Function.Injective enc)
include henc

omit [DecidableEq C] [DecidableEq V] in
theorem mem_iff (h : RepresentsSet enc m s) (v : V) : enc v ∈ m ↔ v ∈ s := by
  rw [h]
  exact ⟨fun hex => by obtain ⟨w, hw, heq⟩ := hex; exact henc heq ▸ hw, fun hv => ⟨v, hv, rfl⟩⟩

/-- The encodings of the elements of a list that satisfy what those elements satisfy. -/
theorem card_filter_image {p : C → Prop} {q : V → Prop} [DecidablePred p] [DecidablePred q]
    (hpq : ∀ v, p (enc v) ↔ q v) (l : List V) :
    ((l.map enc).toFinset.filter p).card = (l.toFinset.filter q).card := by
  have himage : (l.map enc).toFinset.filter p = (l.toFinset.filter q).image enc := by
    ext c
    simp only [Finset.mem_filter, List.mem_toFinset, List.mem_map, Finset.mem_image]
    constructor
    · rintro ⟨⟨v, hv, rfl⟩, hp⟩
      exact ⟨v, ⟨hv, (hpq v).mp hp⟩, rfl⟩
    · rintro ⟨v, ⟨hv, hq⟩, rfl⟩
      exact ⟨⟨v, hv, rfl⟩, (hpq v).mpr hq⟩
  rw [himage, Finset.card_image_of_injective _ henc]

theorem eraseAll (h : RepresentsSet enc m s) (l : List V) :
    RepresentsSet enc (m.eraseAll (l.map enc)).2 (s \ l.toFinset) ∧
      (m.eraseAll (l.map enc)).1 = (l.toFinset ∩ s).card := by
  refine ⟨fun c => ?_, ?_⟩
  · rw [← AList.lookup_isSome, lookup_eraseAll]
    constructor
    · intro hc
      split at hc
      · cases hc
      · next hl =>
        obtain ⟨v, hv, rfl⟩ := (h c).mp (AList.lookup_isSome.mp hc)
        refine ⟨v, Finset.mem_sdiff.mpr ⟨hv, fun hmem => hl ?_⟩, rfl⟩
        exact List.mem_map_of_mem (List.mem_toFinset.mp hmem)
    · rintro ⟨v, hv, rfl⟩
      obtain ⟨hv, hl⟩ := Finset.mem_sdiff.mp hv
      rw [if_neg fun hmem => hl (List.mem_toFinset.mpr ((List.mem_map_of_injective henc).mp hmem))]
      exact AList.lookup_isSome.mpr ((h.mem_iff henc v).mpr hv)
  · rw [fst_eraseAll, card_filter_image henc (h.mem_iff henc), Finset.filter_mem_eq_inter]

omit [DecidableEq C] in
/-- The members in any order are the encodings of the represented members. -/
theorem exists_members (h : RepresentsSet enc m s) {l : List C} (hl : l.Perm m.keys) :
    ∃ l' : List V, l'.map enc = l ∧ l'.Nodup ∧ l'.toFinset = s := by
  have hrange : l ∈ Set.range (List.map enc) := by
    rw [Set.range_list_map]
    intro c hc
    obtain ⟨v, -, rfl⟩ := (h c).mp (AList.mem_keys.mpr (hl.mem_iff.mp hc))
    exact ⟨v, rfl⟩
  obtain ⟨l', rfl⟩ := hrange
  refine ⟨l', rfl, (hl.nodup_iff.mpr m.keys_nodup).of_map, ?_⟩
  ext v
  rw [List.mem_toFinset, ← List.mem_map_of_injective henc, hl.mem_iff, ← AList.mem_keys, h.mem_iff henc]

omit [DecidableEq C] [DecidableEq V] in
theorem length_keys (h : RepresentsSet enc m s) : m.keys.length = s.card := by
  classical
  obtain ⟨l, hl, hnodup, rfl⟩ := h.exists_members henc (List.Perm.refl m.keys)
  rw [← hl, List.length_map, List.toFinset_card_of_nodup hnodup]

end RepresentsSet

end UnorderedMap
