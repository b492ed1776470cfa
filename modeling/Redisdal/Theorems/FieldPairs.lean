import Redisdal.Theorems.Decoding

/-! # Field-value pairs as a hash and as a stream entry

`hash` and `stream_entries` read the same flat arrays of fields and values. A hash keeps the first value of a
field, a stream entry keeps every pair. -/

namespace Redisdal.Reply

/-- An even number of strings. -/
def IsFieldList (items : List Reply) : Prop := items.length % 2 = 0 ∧ ∀ item ∈ items, item.kind = .string

/-- The reply with one stream entry. -/
def oneEntry (id : Bytes) (r : Reply) : Reply := array [array [string id, r]]

theorem exists_string_of_kind {r : Reply} (h : r.kind = .string) : ∃ text, r = string text := by
  cases r with
  | string text => exact ⟨text, rfl⟩
  | _ => cases h

theorem isFieldList_flatPairs (l : List (Bytes × Bytes)) : IsFieldList (flatPairs l) := by
  constructor
  · rw [length_flatPairs]
    omega
  · intro item hitem
    obtain ⟨p, -, hp⟩ := List.mem_flatMap.mp hitem
    rcases List.mem_pair.mp hp with rfl | rfl <;> rfl

/-- An even number of strings is a flat list of pairs. -/
theorem exists_flatPairs : ∀ {items : List Reply}, IsFieldList items → ∃ l, items = flatPairs l
  | [], _ => ⟨[], rfl⟩
  | [_], h => by cases h.1
  | x :: y :: items, h => by
    obtain ⟨heven, hall⟩ := h
    simp only [List.forall_mem_cons] at hall
    obtain ⟨hx, hy, hitems⟩ := hall
    obtain ⟨field, rfl⟩ := exists_string_of_kind hx
    obtain ⟨value, rfl⟩ := exists_string_of_kind hy
    have hrest : IsFieldList items := by
      refine ⟨?_, hitems⟩
      simp only [List.length_cons] at heven
      omega
    obtain ⟨l, rfl⟩ := exists_flatPairs hrest
    exact ⟨(field, value) :: l, rfl⟩

theorem flatPairs_injective : Function.Injective flatPairs
  | [], [], _ => rfl
  | [], _ :: _, h => by cases h
  | _ :: _, [], h => by cases h
  | p :: l, q :: l', h => by
    simp only [flatPairs, List.flatMap_cons, List.cons_append, List.nil_append, List.cons.injEq, string.injEq] at h
    obtain ⟨hfield, hvalue, hrest⟩ := h
    rw [Prod.ext hfield hvalue, flatPairs_injective hrest]

variable [Platform]

theorem streamEntries_oneEntry_iff {id c : Bytes} {items : List Reply} {entries : List (StreamEntry Bytes Bytes)} :
    (oneEntry id (array items)).toCmdReply.streamEntries c = .ok entries ↔
      ∃ l, items = flatPairs l ∧ entries = [⟨id, l⟩] := by
  rw [oneEntry, streamEntries_eq_ok_iff]
  constructor
  · intro h
    cases h with
    | entries h =>
      obtain ⟨e, rest, hentry, hrest, rfl⟩ := List.forall₂_cons_left_iff.mp h
      cases hrest
      cases hentry with
      | entry id hfields =>
        cases hfields with
        | fields => exact ⟨_, rfl, rfl⟩
  · intro hex
    obtain ⟨l, rfl, rfl⟩ := hex
    exact .entries (.cons (.entry id (.fields l)) .nil)

theorem hash_array_iff {c : Bytes} {items : List Reply} {m : UnorderedMap Bytes Bytes} :
    (array items).toCmdReply.hash c = .ok m ↔ ∃ l, items = flatPairs l ∧ m = UnorderedMap.emplaceAll ∅ l := by
  rw [hash_eq_ok_iff]
  simp only [array.injEq]

omit [Platform] in
/-- The reordered pairs of a list without repeated names give the same hash. -/
theorem hash_perm {l l' : List (Bytes × Bytes)} (hperm : l'.Perm l) (hnodup : (l.map Prod.fst).Nodup) :
    (UnorderedMap.emplaceAll ∅ l').toFinmap = (UnorderedMap.emplaceAll ∅ l).toFinmap := by
  rw [UnorderedMap.toFinmap_eq_iff]
  intro field
  rw [UnorderedMap.lookup_emplaceAll_empty, UnorderedMap.lookup_emplaceAll_empty]
  exact (UnorderedMap.lookup_perm hperm.symm hnodup field).symm

/-- What the hash of an array says about the fields of the stream entry over the same array. -/
structure HashOfFields (c : Bytes) (fields : List (Bytes × Bytes)) (m : UnorderedMap Bytes Bytes) : Prop where
  lookup : ∀ field, AList.lookup field m = UnorderedMap.firstValue fields field
  mem_iff : ∀ field, field ∈ m ↔ field ∈ fields.map Prod.fst
  perm : (fields.map Prod.fst).Nodup → ∀ fields', fields'.Perm fields →
    ∃ m', (array (flatPairs fields')).toCmdReply.hash c = .ok m' ∧ m'.toFinmap = m.toFinmap

theorem hashOfFields (c : Bytes) (fields : List (Bytes × Bytes)) :
    HashOfFields c fields (UnorderedMap.emplaceAll ∅ fields) where
  lookup field := UnorderedMap.lookup_emplaceAll_empty fields field
  mem_iff field := by
    rw [UnorderedMap.mem_emplaceAll]
    exact or_iff_right (AList.notMem_empty field)
  perm hnodup fields' hperm := ⟨_, hash_flatPairs fields' c, hash_perm hperm hnodup⟩

/-- `hash` and `stream_entries` accept the same arrays, and the hash is that of the fields of the entry. -/
theorem hash_agrees_streamEntries (items : List Reply) (id c c' : Bytes) :
    ((∃ m, (array items).toCmdReply.hash c = .ok m) ↔
        ∃ entries, (oneEntry id (array items)).toCmdReply.streamEntries c' = .ok entries) ∧
      ((∃ m, (array items).toCmdReply.hash c = .ok m) ↔ IsFieldList items) ∧
      ∀ m entries, (array items).toCmdReply.hash c = .ok m →
        (oneEntry id (array items)).toCmdReply.streamEntries c' = .ok entries →
        ∃ fields, items = flatPairs fields ∧ entries = [⟨id, fields⟩] ∧ HashOfFields c fields m := by
  simp only [hash_array_iff, streamEntries_oneEntry_iff]
  refine ⟨?_, ?_, ?_⟩
  · constructor
    · intro hex
      obtain ⟨m, l, rfl, -⟩ := hex
      exact ⟨_, l, rfl, rfl⟩
    · intro hex
      obtain ⟨entries, l, rfl, -⟩ := hex
      exact ⟨_, l, rfl, rfl⟩
  · constructor
    · intro hex
      obtain ⟨m, l, rfl, -⟩ := hex
      exact isFieldList_flatPairs l
    · intro h
      obtain ⟨l, rfl⟩ := exists_flatPairs h
      exact ⟨_, l, rfl, rfl⟩
  · intro m entries hm hentries
    obtain ⟨l, rfl, rfl⟩ := hm
    obtain ⟨l', hl, rfl⟩ := hentries
    cases flatPairs_injective hl
    exact ⟨l, rfl, rfl, hashOfFields c l⟩

end Redisdal.Reply
