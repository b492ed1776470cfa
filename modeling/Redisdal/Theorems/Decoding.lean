import Redisdal.Theorems.Replies

/-! # What a decoder has read

A decoder of `cmd_reply` that returns has read a tree of one form only, and returns what that tree denotes.
Stream replies decode by the grammar of `StreamBatchesTree`. -/

namespace Redisdal.Reply

/-! ### Strings and arrays -/

/-- A text that may be absent. -/
def ofOptional (text : Option Bytes) : Reply := (text.map string).getD nil

theorem asString_eq_ok_iff {r : Reply} {c v : Bytes} : r.toCmdReply.asString c = .ok v ↔ r = string v := by
  rcases asString_cases r c with ⟨w, rfl, h⟩ | ⟨hne, e, -, h⟩
  · rw [h]
    constructor
    · intro heq
      cases heq
      rfl
    · intro heq
      cases heq
      rfl
  · rw [h]
    refine iff_of_false (fun heq => by cases heq) fun heq => hne ?_
    rw [heq]
    rfl

theorem asArray_bind_eq_ok_iff {α : Type} {r : Reply} {c : Bytes} {f : List CmdReply → Outcome α} {a : α} :
    (r.toCmdReply.asArray c >>= f) = .ok a ↔ ∃ items, r = array items ∧ f (itemsOf items) = .ok a := by
  rcases asArray_cases r c with ⟨items, rfl, h⟩ | ⟨hne, e, -, h⟩
  · rw [h, Except.ok_bind]
    constructor
    · exact fun hf => ⟨items, rfl, hf⟩
    · intro hex
      obtain ⟨items', heq, hf⟩ := hex
      cases heq
      exact hf
  · rw [h]
    refine iff_of_false (fun heq => by cases heq) fun hex => hne ?_
    obtain ⟨items, rfl, -⟩ := hex
    rfl

theorem nilOrArray_eq_ok_iff {α : Type} {r : Reply} {c : Bytes} {f : List CmdReply → Outcome α} {a₀ a : α} :
    (if r.toCmdReply.isNil then pure a₀ else r.toCmdReply.asArray c >>= f) = .ok a ↔
      (r = nil ∧ a = a₀) ∨ ∃ items, r = array items ∧ f (itemsOf items) = .ok a := by
  by_cases hnil : r = nil
  · subst hnil
    rw [if_pos (isNil_iff.mpr rfl)]
    constructor
    · intro h
      cases h
      exact Or.inl ⟨rfl, rfl⟩
    · intro h
      rcases h with ⟨-, rfl⟩ | ⟨items, h, -⟩
      · rfl
      · cases h
  · rw [if_neg fun h => hnil (isNil_iff.mp h), asArray_bind_eq_ok_iff]
    exact (or_iff_right fun h => hnil h.1).symm

theorem optionalString_eq_ok_iff {r : Reply} {c : Bytes} {v : Option Bytes} :
    r.toCmdReply.optionalString c = .ok v ↔ r = ofOptional v := by
  unfold CmdReply.optionalString
  by_cases hnil : r = nil
  · subst hnil
    rw [if_pos (isNil_iff.mpr rfl)]
    cases v with
    | none => exact iff_of_true rfl rfl
    | some t => exact iff_of_false (fun h => by cases h) fun h => by cases h
  · rw [if_neg fun h => hnil (isNil_iff.mp h), Except.bind_eq_ok_iff]
    simp only [asString_eq_ok_iff]
    cases v with
    | none => exact iff_of_false (fun h => by obtain ⟨t, -, h⟩ := h; cases h) hnil
    | some t =>
      constructor
      · intro hex
        obtain ⟨t', rfl, h⟩ := hex
        cases h
        rfl
      · exact fun h => ⟨t, h, rfl⟩

theorem mapM_items_eq_ok_iff {α : Type} {f : CmdReply → Outcome α} {items : List Reply} {l : List α} :
    (itemsOf items).mapM f = .ok l ↔ List.Forall₂ (fun r a => f r.toCmdReply = .ok a) items l := by
  rw [Except.mapM_eq_ok_iff, itemsOf, List.forall₂_map_left_iff]

/-- An array whose elements are read one by one, or NIL. -/
theorem itemsOrNil_eq_ok_iff {α : Type} {r : Reply} {c : Bytes} {f : CmdReply → Outcome α} {l : List α} :
    (if r.toCmdReply.isNil then pure [] else r.toCmdReply.asArray c >>= fun items => items.mapM f) = .ok l ↔
      (r = nil ∧ l = []) ∨ ∃ items, r = array items ∧ List.Forall₂ (fun r a => f r.toCmdReply = .ok a) items l := by
  rw [nilOrArray_eq_ok_iff]
  simp only [mapM_items_eq_ok_iff]

theorem strings_eq_ok_iff {r : Reply} {c : Bytes} {texts : List Bytes} :
    r.toCmdReply.strings c = .ok texts ↔ (r = nil ∧ texts = []) ∨ r = array (texts.map string) := by
  unfold CmdReply.strings
  rw [itemsOrNil_eq_ok_iff]
  simp only [asString_eq_ok_iff]
  refine or_congr_right ?_
  constructor
  · intro hex
    obtain ⟨items, rfl, h⟩ := hex
    rw [← List.forall₂_map_right_iff (f := string), List.forall₂_eq_eq_eq] at h
    rw [h]
  · intro h
    exact ⟨_, h, List.forall₂_map_left_iff.mpr (List.forall₂_same.mpr fun _ _ => rfl)⟩

theorem orThrow_bind_eq_ok_iff {α : Type} {r : Reply} {f : CmdReply → Outcome α} {a : α} :
    (r.toCmdReply.orThrow >>= f) = .ok a ↔ r.kind ≠ .error ∧ f r.toCmdReply = .ok a := by
  by_cases hne : r.kind = .error
  · cases r with
    | error m => exact iff_of_false (fun h => by cases h) fun h => h.1 rfl
    | _ => cases hne
  · rw [orThrow_bind hne]
    exact ⟨fun h => ⟨hne, h⟩, fun h => h.2⟩

theorem stringsReply_eq_ok_iff {r : Reply} {c : Bytes} {texts : List Bytes} :
    Client.stringsReply c r.toCmdReply = .ok texts ↔ (r = nil ∧ texts = []) ∨ r = array (texts.map string) := by
  unfold Client.stringsReply
  rw [orThrow_bind_eq_ok_iff, strings_eq_ok_iff, and_iff_right_of_imp]
  intro h
  rcases h with ⟨rfl, -⟩ | rfl
  · exact fun hkind => by cases hkind
  · exact fun hkind => by cases hkind

theorem hmgetReply_eq_ok_iff {r : Reply} {size : Nat} {values : List (Option Bytes)} :
    Client.hmgetReply size r.toCmdReply = .ok values ↔ r = array (values.map ofOptional) ∧ values.length = size := by
  by_cases hne : r.kind = .error
  · cases r with
    | error m => exact iff_of_false (fun h => by cases h) fun h => by cases h.1
    | _ => cases hne
  unfold Client.hmgetReply
  rw [throwIfError_bind hne, asArray_bind_eq_ok_iff]
  constructor
  · intro hex
    obtain ⟨items, rfl, h⟩ := hex
    split at h
    · cases h
    · next hlen =>
      have hvalues := mapM_items_eq_ok_iff.mp h
      simp only [optionalString_eq_ok_iff] at hvalues
      rw [← hvalues.length_eq, ← length_itemsOf items, not_not.mp hlen]
      rw [← List.forall₂_map_right_iff (f := ofOptional), List.forall₂_eq_eq_eq] at hvalues
      exact ⟨by rw [hvalues], rfl⟩
  · intro hand
    obtain ⟨rfl, hlen⟩ := hand
    refine ⟨_, rfl, ?_⟩
    rw [if_neg (by simp [hlen])]
    refine mapM_items_eq_ok_iff.mpr (List.forall₂_map_left_iff.mpr (List.forall₂_same.mpr fun value _ => ?_))
    exact optionalString_eq_ok_iff.mpr rfl

theorem scanPage_eq_ok_iff {r : Reply} {c : Bytes} {next : UInt64} {results : CmdReply} :
    Client.scanPage c r.toCmdReply = .ok (next, results) ↔
      ∃ text n items, r = array [string text, array items] ∧ integralFromString .uint64 text = .ok n ∧
        next = UInt64.ofInt n ∧ results = (array items).toCmdReply := by
  by_cases htwo : ∃ x y, r = array [x, y]
  · obtain ⟨x, y, rfl⟩ := htwo
    rw [scanPage_two, asArray_bind_eq_ok_iff]
    constructor
    · intro hex
      obtain ⟨items, rfl, h⟩ := hex
      obtain ⟨text, htext, hrest⟩ := Except.bind_eq_ok_iff.mp h
      obtain ⟨n, hn, hpage⟩ := Except.bind_eq_ok_iff.mp hrest
      cases hpage
      exact ⟨text, n, items, by rw [asString_eq_ok_iff.mp htext], hn, rfl, rfl⟩
    · intro hex
      obtain ⟨text, n, items, heq, hn, rfl, rfl⟩ := hex
      cases heq
      exact ⟨items, rfl, by rw [asString_string, Except.ok_bind, hn]; rfl⟩
  · obtain ⟨e, -, he⟩ := scanPage_of_ne_two (c := c) fun x y heq => htwo ⟨x, y, heq⟩
    rw [he]
    refine iff_of_false (fun h => by cases h) fun hex => ?_
    obtain ⟨text, n, items, heq, -⟩ := hex
    exact htwo ⟨_, _, heq⟩

/-- Two elements, the first of them a string: an entry or a batch. -/
theorem labelled_bind_eq_ok_iff {α : Type} {r : Reply} {c what : Bytes} {f : Bytes → CmdReply → Outcome α} {a : α} :
    (r.toCmdReply.asArray c >>= fun parts => do
        if parts.length ≠ 2 then
          throw (.runtimeError what)
        let first ← deref parts[0]?
        let label ← first.asString c
        let second ← deref parts[1]?
        f label second) = .ok a ↔
      ∃ label r', r = array [string label, r'] ∧ f label r'.toCmdReply = .ok a := by
  rw [asArray_bind_eq_ok_iff]
  constructor
  · intro hex
    obtain ⟨items, rfl, h⟩ := hex
    split at h
    · cases h
    · next hlen =>
      rw [length_itemsOf, not_not] at hlen
      obtain ⟨x, y, rfl⟩ := List.length_eq_two.mp hlen
      replace h : (x.toCmdReply.asString c >>= fun label => f label y.toCmdReply) = .ok a := h
      obtain ⟨label, hlabel, hf⟩ := Except.bind_eq_ok_iff.mp h
      exact ⟨label, y, by rw [asString_eq_ok_iff.mp hlabel], hf⟩
  · intro hex
    obtain ⟨label, r', rfl, h⟩ := hex
    exact ⟨_, rfl, h⟩

variable [Platform]

/-! ### Fields and values -/

theorem fieldValue_eq_ok_iff {c : Bytes} {x y : Reply} {p : Bytes × Bytes} :
    CmdReply.fieldValue c x.toCmdReply y.toCmdReply = .ok p ↔ x = string p.1 ∧ y = string p.2 := by
  unfold CmdReply.fieldValue
  rw [← Prod.mk.eta (p := p), bothArguments_eq_ok, asString_eq_ok_iff, asString_eq_ok_iff]

/-- The loop over fields and values returns on a flat list of strings only. -/
theorem pairwise_eq_ok_iff {c : Bytes} : ∀ {items : List Reply} {l : List (Bytes × Bytes)},
    CmdReply.pairwise (CmdReply.fieldValue c) (itemsOf items) = .ok l ↔ items = flatPairs l
  | [], l => by
    constructor
    · intro h
      cases h
      rfl
    · intro h
      cases l with
      | nil => rfl
      | cons p l => cases h
  | [x], l => by
    refine iff_of_false (fun h => by cases h) fun h => ?_
    have hlen := congrArg List.length h
    rw [length_flatPairs, List.length_singleton] at hlen
    omega
  | x :: y :: items, l => by
    show (CmdReply.fieldValue c x.toCmdReply y.toCmdReply >>= fun a =>
      CmdReply.pairwise (CmdReply.fieldValue c) (itemsOf items) >>= fun l => pure (a :: l)) = .ok l ↔ _
    rw [Except.bind_eq_ok_iff]
    constructor
    · intro hex
      obtain ⟨p, hp, hrest⟩ := hex
      obtain ⟨l', hl', hcons⟩ := Except.bind_eq_ok_iff.mp hrest
      obtain ⟨rfl, rfl⟩ := fieldValue_eq_ok_iff.mp hp
      obtain rfl := pairwise_eq_ok_iff.mp hl'
      cases hcons
      rfl
    · intro h
      cases l with
      | nil => cases h
      | cons p l =>
        cases h
        exact ⟨p, fieldValue_eq_ok_iff.mpr ⟨rfl, rfl⟩,
          Except.bind_eq_ok_iff.mpr ⟨l, pairwise_eq_ok_iff.mpr rfl, rfl⟩⟩

theorem hash_eq_ok_iff {r : Reply} {c : Bytes} {m : UnorderedMap Bytes Bytes} :
    r.toCmdReply.hash c = .ok m ↔ ∃ l, r = array (flatPairs l) ∧ m = UnorderedMap.emplaceAll ∅ l := by
  constructor
  · intro h
    unfold CmdReply.hash at h
    rw [asArray_bind_eq_ok_iff] at h
    obtain ⟨items, rfl, h⟩ := h
    split at h
    · cases h
    · obtain ⟨pairs, hpairs, h⟩ := Except.bind_eq_ok_iff.mp h
      cases h
      exact ⟨pairs, by rw [pairwise_eq_ok_iff.mp hpairs], rfl⟩
  · intro hex
    obtain ⟨l, rfl, rfl⟩ := hex
    exact hash_flatPairs l c

theorem hscanReply_eq_ok_iff {r : Reply} {next : UInt64} {page : UnorderedMap Bytes Bytes} :
    Client.hscanReply r.toCmdReply = .ok (next, page) ↔
      ∃ text n pairs, r = array [string text, array (flatPairs pairs)] ∧ integralFromString .uint64 text = .ok n ∧
        next = UInt64.ofInt n ∧ page = UnorderedMap.emplaceAll ∅ pairs := by
  unfold Client.hscanReply
  rw [Except.bind_eq_ok_iff]
  constructor
  · intro hex
    obtain ⟨⟨cursor, results⟩, hpage, h⟩ := hex
    obtain ⟨text, n, items, rfl, hn, rfl, rfl⟩ := scanPage_eq_ok_iff.mp hpage
    obtain ⟨fields, hfields, heq⟩ := Except.bind_eq_ok_iff.mp h
    obtain ⟨pairs, hitems, rfl⟩ := hash_eq_ok_iff.mp hfields
    cases hitems
    cases heq
    exact ⟨text, n, pairs, rfl, hn, rfl, rfl⟩
  · intro hex
    obtain ⟨text, n, pairs, rfl, hn, rfl, rfl⟩ := hex
    refine ⟨_, scanPage_eq_ok_iff.mpr ⟨text, n, _, rfl, hn, rfl, rfl⟩, ?_⟩
    exact Except.bind_eq_ok_iff.mpr ⟨_, hash_flatPairs pairs _, rfl⟩

/-! ### Scores -/

theorem optionalScore_eq_ok_iff {r : Reply} {c : Bytes} {v : Option Double} :
    r.toCmdReply.optionalScore c = .ok v ↔
      (r = nil ∧ v = none) ∨ ∃ text d, r = string text ∧ doubleFromString text = .ok d ∧ v = some d := by
  unfold CmdReply.optionalScore
  rw [Except.bind_eq_ok_iff]
  simp only [optionalString_eq_ok_iff]
  constructor
  · intro hex
    obtain ⟨text, rfl, h⟩ := hex
    cases text with
    | none =>
      cases h
      exact Or.inl ⟨rfl, rfl⟩
    | some text =>
      dsimp only at h
      split at h
      · next d hd =>
        cases h
        exact Or.inr ⟨text, d, rfl, hd, rfl⟩
      · cases h
  · intro h
    rcases h with ⟨rfl, rfl⟩ | ⟨text, d, rfl, hd, rfl⟩
    · exact ⟨none, rfl, rfl⟩
    · refine ⟨some text, rfl, ?_⟩
      dsimp only
      rw [hd]
      rfl

/-- The element is a member, and the one after it the text of its score. -/
def ScoredBy (p : Reply × Reply) (e : Bytes × Double) : Prop :=
  ∃ text, p = (string e.1, string text) ∧ doubleFromString text = .ok e.2

theorem memberScore_eq_ok_iff {c : Bytes} {x y : Reply} {e : Bytes × Double} :
    CmdReply.memberScore c x.toCmdReply y.toCmdReply = .ok e ↔ ScoredBy (x, y) e := by
  unfold CmdReply.memberScore
  rw [← Prod.mk.eta (p := e), bothArguments_eq_ok, asString_eq_ok_iff, Except.bind_eq_ok_iff]
  simp only [optionalScore_eq_ok_iff]
  constructor
  · intro h
    obtain ⟨rfl, v, ⟨-, rfl⟩ | ⟨text, d, rfl, hd, rfl⟩, hv⟩ := h
    · cases hv
    · cases hv
      exact ⟨text, rfl, hd⟩
  · intro hex
    obtain ⟨text, heq, hd⟩ := hex
    cases heq
    exact ⟨rfl, some e.2, Or.inr ⟨text, e.2, rfl, hd, rfl⟩, rfl⟩

/-- Members and scores are read from an even number of strings that alternate, or from NIL. -/
theorem scores_eq_ok_iff {r : Reply} {c : Bytes} {l : List (Bytes × Double)} :
    r.toCmdReply.scores c = .ok l ↔ (r = nil ∧ l = []) ∨
      ∃ items, r = array items ∧ items.length % 2 = 0 ∧ List.Forall₂ ScoredBy (twoByTwo items) l := by
  have hloop {items : List Reply} (heven : items.length % 2 = 0) :
      CmdReply.pairwise (CmdReply.memberScore c) (itemsOf items) = .ok l ↔
        List.Forall₂ ScoredBy (twoByTwo items) l := by
    rw [pairwise_eq _ _ (by rwa [length_itemsOf]), itemsOf, twoByTwo_map, List.mapM_map, Except.mapM_eq_ok_iff]
    simp only [Function.comp_apply, memberScore_eq_ok_iff]
  unfold CmdReply.scores
  rw [nilOrArray_eq_ok_iff]
  refine or_congr_right (exists_congr fun items => and_congr_right fun _ => ?_)
  rw [length_itemsOf]
  by_cases heven : items.length % 2 = 0
  · rw [if_neg (not_not.mpr heven), and_iff_right heven]
    exact hloop heven
  · rw [if_pos heven]
    exact iff_of_false (fun h => by cases h) fun h => heven h.1

/-! ### Streams -/

/-- The fields of an entry, in order and with repeats. -/
def encodeFields (fields : List (Bytes × Bytes)) : Reply := array (flatPairs fields)

def encodeEntry (e : StreamEntry Bytes Bytes) : Reply := array [string e.id, encodeFields e.fields]

def encodeEntries (entries : List (StreamEntry Bytes Bytes)) : Reply := array (entries.map encodeEntry)

def encodeBatch (b : StreamBatch Bytes Bytes) : Reply := array [string b.key, encodeEntries b.entries]

def encodeBatches (batches : List (StreamBatch Bytes Bytes)) : Reply := array (batches.map encodeBatch)

/-- The encoded fields, or NIL for none: the fields of a deleted entry. -/
inductive StreamFieldsTree : Reply → List (Bytes × Bytes) → Prop where
  | fields (fields : List (Bytes × Bytes)) : StreamFieldsTree (encodeFields fields) fields
  | deleted : StreamFieldsTree nil []

inductive StreamEntryTree : Reply → StreamEntry Bytes Bytes → Prop where
  | entry (id : Bytes) {r : Reply} {fields : List (Bytes × Bytes)} (h : StreamFieldsTree r fields) :
    StreamEntryTree (array [string id, r]) ⟨id, fields⟩

/-- The entries in order, or NIL for none. -/
inductive StreamEntriesTree : Reply → List (StreamEntry Bytes Bytes) → Prop where
  | entries {items : List Reply} {entries : List (StreamEntry Bytes Bytes)}
    (h : List.Forall₂ StreamEntryTree items entries) : StreamEntriesTree (array items) entries
  | nil : StreamEntriesTree nil []

inductive StreamBatchTree : Reply → StreamBatch Bytes Bytes → Prop where
  | batch (key : Bytes) {r : Reply} {entries : List (StreamEntry Bytes Bytes)} (h : StreamEntriesTree r entries) :
    StreamBatchTree (array [string key, r]) ⟨key, entries⟩

/-- The batches in order, or NIL for none. -/
inductive StreamBatchesTree : Reply → List (StreamBatch Bytes Bytes) → Prop where
  | batches {items : List Reply} {batches : List (StreamBatch Bytes Bytes)}
    (h : List.Forall₂ StreamBatchTree items batches) : StreamBatchesTree (array items) batches
  | nil : StreamBatchesTree nil []

theorem streamFields_eq_ok_iff {r : Reply} {c id : Bytes} {e : StreamEntry Bytes Bytes} :
    (if r.toCmdReply.isNil then pure ⟨id, []⟩ else do
        let fields ← r.toCmdReply.asArray c
        if fields.length % 2 ≠ 0 then
          throw (.runtimeError (c ++ ": expected an even number of field-value elements"))
        let pairs ← CmdReply.pairwise (CmdReply.fieldValue c) fields
        pure ⟨id, pairs⟩ : Outcome (StreamEntry Bytes Bytes)) = .ok e ↔
      e.id = id ∧ StreamFieldsTree r e.fields := by
  rw [nilOrArray_eq_ok_iff]
  constructor
  · intro h
    rcases h with ⟨rfl, rfl⟩ | ⟨items, rfl, h⟩
    · exact ⟨rfl, .deleted⟩
    · split at h
      · cases h
      · obtain ⟨pairs, hpairs, hentry⟩ := Except.bind_eq_ok_iff.mp h
        obtain rfl := pairwise_eq_ok_iff.mp hpairs
        cases hentry
        exact ⟨rfl, .fields pairs⟩
  · intro hand
    obtain ⟨id', fields⟩ := e
    obtain ⟨rfl, h⟩ := hand
    cases h with
    | deleted => exact Or.inl ⟨rfl, rfl⟩
    | fields =>
      refine Or.inr ⟨_, rfl, ?_⟩
      rw [length_itemsOf, length_flatPairs, if_neg (by omega), pairwise_flatPairs]
      rfl

theorem streamEntry_eq_ok_iff {r : Reply} {c : Bytes} {e : StreamEntry Bytes Bytes} :
    CmdReply.streamEntry c r.toCmdReply = .ok e ↔ StreamEntryTree r e := by
  unfold CmdReply.streamEntry
  rw [labelled_bind_eq_ok_iff]
  simp only [streamFields_eq_ok_iff]
  constructor
  · intro hex
    obtain ⟨id, r', rfl, rfl, h⟩ := hex
    exact .entry e.id h
  · intro h
    cases h with
    | entry id h => exact ⟨id, _, rfl, rfl, h⟩

theorem streamEntries_eq_ok_iff {r : Reply} {c : Bytes} {entries : List (StreamEntry Bytes Bytes)} :
    r.toCmdReply.streamEntries c = .ok entries ↔ StreamEntriesTree r entries := by
  unfold CmdReply.streamEntries
  rw [itemsOrNil_eq_ok_iff]
  simp only [streamEntry_eq_ok_iff]
  constructor
  · intro h
    rcases h with ⟨rfl, rfl⟩ | ⟨items, rfl, h⟩
    · exact .nil
    · exact .entries h
  · intro h
    cases h with
    | nil => exact Or.inl ⟨rfl, rfl⟩
    | entries h => exact Or.inr ⟨_, rfl, h⟩

theorem streamBatch_eq_ok_iff {r : Reply} {c : Bytes} {b : StreamBatch Bytes Bytes} :
    CmdReply.streamBatch c r.toCmdReply = .ok b ↔ StreamBatchTree r b := by
  unfold CmdReply.streamBatch
  rw [labelled_bind_eq_ok_iff]
  constructor
  · intro hex
    obtain ⟨key, r', rfl, h⟩ := hex
    obtain ⟨entries, hentries, hbatch⟩ := Except.bind_eq_ok_iff.mp h
    cases hbatch
    exact .batch key (streamEntries_eq_ok_iff.mp hentries)
  · intro h
    cases h with
    | batch key h => exact ⟨key, _, rfl, Except.bind_eq_ok_iff.mpr ⟨_, streamEntries_eq_ok_iff.mpr h, rfl⟩⟩

theorem streamBatches_eq_ok_iff {r : Reply} {c : Bytes} {batches : List (StreamBatch Bytes Bytes)} :
    r.toCmdReply.streamBatches c = .ok batches ↔ StreamBatchesTree r batches := by
  unfold CmdReply.streamBatches
  rw [itemsOrNil_eq_ok_iff]
  simp only [streamBatch_eq_ok_iff]
  constructor
  · intro h
    rcases h with ⟨rfl, rfl⟩ | ⟨items, rfl, h⟩
    · exact .nil
    · exact .batches h
  · intro h
    cases h with
    | nil => exact Or.inl ⟨rfl, rfl⟩
    | batches h => exact Or.inr ⟨_, rfl, h⟩

omit [Platform] in
theorem streamEntriesTree_encode (entries : List (StreamEntry Bytes Bytes)) :
    StreamEntriesTree (encodeEntries entries) entries := by
  refine .entries (List.forall₂_map_left_iff.mpr (List.forall₂_same.mpr fun e _ => ?_))
  exact .entry e.id (.fields e.fields)

omit [Platform] in
theorem streamBatchesTree_encode (batches : List (StreamBatch Bytes Bytes)) :
    StreamBatchesTree (encodeBatches batches) batches := by
  refine .batches (List.forall₂_map_left_iff.mpr (List.forall₂_same.mpr fun b _ => ?_))
  exact .batch b.key (streamEntriesTree_encode b.entries)

/-- Decoding undoes encoding, and accepts the trees of the grammar only: an encoding, up to NIL for an empty list.
    Every other tree is rejected with an error derived from `std::runtime_error`. -/
theorem streamBatches_grammar (c : Bytes) :
    (∀ batches, (encodeBatches batches).toCmdReply.streamBatches c = .ok batches) ∧
      (∀ r batches, r.toCmdReply.streamBatches c = .ok batches ↔ StreamBatchesTree r batches) ∧
      ∀ r, (∀ batches, ¬StreamBatchesTree r batches) →
        ∃ e, IsRuntime e ∧ r.toCmdReply.streamBatches c = .error e := by
  refine ⟨fun batches => streamBatches_eq_ok_iff.mpr (streamBatchesTree_encode batches),
    fun r batches => streamBatches_eq_ok_iff, fun r h => ?_⟩
  cases hr : r.toCmdReply.streamBatches c with
  | ok batches => exact absurd (streamBatches_eq_ok_iff.mp hr) (h batches)
  | error e => exact ⟨e, throws_streamBatches r c e hr, rfl⟩

end Redisdal.Reply
