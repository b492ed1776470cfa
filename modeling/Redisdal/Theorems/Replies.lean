import Redisdal.Client
import Redisdal.Lib.MapM

/-! # Decoding reply trees

What the accessors and the decoders of `cmd_reply` do with a reply that the public constructors and
factories built. An accessor returns the payload of its kind or throws `unexpected_reply_type_error`; the
unchecked accesses behind it are then all defined. -/

namespace Redisdal

/-- The exceptions derived from `std::runtime_error`. -/
def IsRuntime (e : Exn) : Prop := e.isRuntimeError = true

@[simp] theorem isRuntime_unexpected (cmd expected actual : Bytes) :
    IsRuntime (.unexpectedReplyType cmd expected actual) := rfl

@[simp] theorem isRuntime_runtimeError (what : Bytes) : IsRuntime (.runtimeError what) := rfl

@[simp] theorem isRuntime_redisError (message : Bytes) : IsRuntime (.redisError message) := rfl

@[simp] theorem isRuntime_noScript (cmd sha1 : Bytes) : IsRuntime (.noScript cmd sha1) := rfl

@[simp] theorem throws_throw {α : Type} {P : Exn → Prop} {e : Exn} : Throws P (throw e : Outcome α) ↔ P e :=
  Throws.error_iff

namespace Reply

@[simp] theorem type_toCmdReply (r : Reply) : r.toCmdReply.type = r.kind := by
  cases r <;> rfl

/-- The elements of an array, as the class stores them. -/
def itemsOf (items : List Reply) : List CmdReply := items.map toCmdReply

@[simp] theorem arrayValue_array (items : List Reply) : (array items).toCmdReply.arrayValue = some (itemsOf items) := by
  rw [toCmdReply, toCmdReplies_eq_map]
  rfl

/-! ### Accessors -/

theorem asString_string (v c : Bytes) : (string v).toCmdReply.asString c = .ok v := rfl

theorem asString_of_ne {r : Reply} (h : r.kind ≠ .string) (c : Bytes) :
    r.toCmdReply.asString c = .error (.unexpectedReplyType c "string" r.toCmdReply.typeName) :=
  if_pos (by rwa [type_toCmdReply])

theorem asStatus_of_ne {r : Reply} (h : r.kind ≠ .status) (c : Bytes) :
    r.toCmdReply.asStatus c = .error (.unexpectedReplyType c "status" r.toCmdReply.typeName) :=
  if_pos (by rwa [type_toCmdReply])

theorem asArray_array (items : List Reply) (c : Bytes) : (array items).toCmdReply.asArray c = .ok (itemsOf items) := by
  unfold CmdReply.asArray
  rw [if_neg (by simp [kind]), arrayValue_array]
  rfl

theorem asArray_of_ne {r : Reply} (h : r.kind ≠ .array) (c : Bytes) :
    r.toCmdReply.asArray c = .error (.unexpectedReplyType c "array" r.toCmdReply.typeName) :=
  if_pos (by rwa [type_toCmdReply])

theorem asInteger_integer (v : UInt64) (c : Bytes) : ∃ n, (integer v).toCmdReply.asInteger c = .ok n :=
  ⟨_, rfl⟩

theorem asInteger_of_ne {r : Reply} (h : r.kind ≠ .integer) (c : Bytes) :
    r.toCmdReply.asInteger c = .error (.unexpectedReplyType c "integer" r.toCmdReply.typeName) :=
  if_pos (by rwa [type_toCmdReply])

theorem asString_cases (r : Reply) (c : Bytes) :
    (∃ v, r = string v ∧ r.toCmdReply.asString c = .ok v) ∨
      (r.kind ≠ .string ∧ ∃ e, IsRuntime e ∧ r.toCmdReply.asString c = .error e) := by
  by_cases h : r.kind = .string
  · cases r with
    | string v => exact Or.inl ⟨v, rfl, rfl⟩
    | _ => cases h
  · exact Or.inr ⟨h, _, isRuntime_unexpected .., asString_of_ne h c⟩

theorem asArray_cases (r : Reply) (c : Bytes) :
    (∃ items, r = array items ∧ r.toCmdReply.asArray c = .ok (itemsOf items)) ∨
      (r.kind ≠ .array ∧ ∃ e, IsRuntime e ∧ r.toCmdReply.asArray c = .error e) := by
  by_cases h : r.kind = .array
  · cases r with
    | array items => exact Or.inl ⟨items, rfl, asArray_array items c⟩
    | _ => cases h
  · exact Or.inr ⟨h, _, isRuntime_unexpected .., asArray_of_ne h c⟩

theorem isNil_iff {r : Reply} : r.toCmdReply.isNil = true ↔ r = nil := by
  cases r <;> simp [CmdReply.isNil, kind]

theorem isError_iff {r : Reply} : r.toCmdReply.isError = true ↔ ∃ m, r = error m := by
  cases r <;> simp [CmdReply.isError, kind]

theorem throwIfError_of_ne {r : Reply} (h : r.kind ≠ .error) : r.toCmdReply.throwIfError = .ok () := by
  unfold CmdReply.throwIfError
  rw [if_neg fun he => ?_]
  · rfl
  · obtain ⟨m, rfl⟩ := isError_iff.mp he
    exact h rfl

theorem orThrow_of_ne {r : Reply} (h : r.kind ≠ .error) : r.toCmdReply.orThrow = .ok r.toCmdReply := by
  unfold CmdReply.orThrow
  rw [throwIfError_of_ne h]
  rfl

/-! ### Replies of another kind -/

section OtherKinds
variable {r : Reply} (hne : r.kind ≠ .error) (c : Bytes)
include hne

theorem orThrow_bind {α : Type} (f : CmdReply → Outcome α) : (r.toCmdReply.orThrow >>= f) = f r.toCmdReply := by
  rw [orThrow_of_ne hne]
  rfl

theorem throwIfError_bind {α : Type} (f : Unit → Outcome α) : (r.toCmdReply.throwIfError >>= f) = f () := by
  rw [throwIfError_of_ne hne]
  rfl

omit hne in
theorem isNil_of_ne (h : r.kind ≠ .nil) : r.toCmdReply.isNil = false := by
  rw [← Bool.not_eq_true, isNil_iff]
  rintro rfl
  exact h rfl

theorem asText_of_ne (h : ¬(r.kind = .status ∨ r.kind = .string)) :
    r.toCmdReply.asText c = .error (.unexpectedReplyType c "text" r.toCmdReply.typeName) := by
  cases r with
  | string | status => exact absurd (by simp [kind]) h
  | error => exact absurd rfl hne
  | _ => rfl

omit hne in
theorem optionalString_of_ne (h : ¬(r.kind = .string ∨ r.kind = .nil)) :
    r.toCmdReply.optionalString c = .error (.unexpectedReplyType c "string" r.toCmdReply.typeName) := by
  rw [not_or] at h
  unfold CmdReply.optionalString
  rw [isNil_of_ne h.2, if_neg Bool.false_ne_true, asString_of_ne h.1]
  rfl

omit hne in
theorem isError_of_ne (hne : r.kind ≠ .error) : r.toCmdReply.isError = false := by
  rw [← Bool.not_eq_true, isError_iff]
  intro h
  obtain ⟨m, rfl⟩ := h
  exact hne rfl

theorem scanPage_of_ne (h : r.kind ≠ .array) :
    Client.scanPage c r.toCmdReply = .error (.unexpectedReplyType c "array" r.toCmdReply.typeName) := by
  unfold Client.scanPage CmdReply.scanCursor
  rw [orThrow_bind hne, asArray_of_ne h]
  rfl

end OtherKinds

/-! ### Accessors throw runtime errors only -/

theorem throws_asString (r : Reply) (c : Bytes) : Throws IsRuntime (r.toCmdReply.asString c) := by
  rcases asString_cases r c with ⟨v, -, h⟩ | ⟨-, e, he, h⟩ <;> simp [*]

/-- A decoder that begins with `as_array` goes on with the elements of an array only. -/
theorem throws_asArray_bind_of {α : Type} {P : Exn → Prop} (hP : ∀ e, IsRuntime e → P e) {r : Reply} {c : Bytes}
    {f : List CmdReply → Outcome α} (h : ∀ items, r = array items → Throws P (f (itemsOf items))) :
    Throws P (r.toCmdReply.asArray c >>= f) := by
  rcases asArray_cases r c with ⟨items, rfl, ha⟩ | ⟨-, e, he, ha⟩
  · rw [ha]
    exact h items rfl
  · rw [ha]
    exact Throws.error_iff.mpr (hP e he)

theorem throws_asArray_bind {α : Type} {r : Reply} {c : Bytes} {f : List CmdReply → Outcome α}
    (h : ∀ items, r = array items → Throws IsRuntime (f (itemsOf items))) :
    Throws IsRuntime (r.toCmdReply.asArray c >>= f) :=
  throws_asArray_bind_of (fun _ he => he) h

theorem throws_asText (r : Reply) (c : Bytes) : Throws IsRuntime (r.toCmdReply.asText c) := by
  unfold CmdReply.asText
  split
  · simp
  · exact .pure _

theorem throws_asStatus (r : Reply) (c : Bytes) : Throws IsRuntime (r.toCmdReply.asStatus c) := by
  unfold CmdReply.asStatus
  split
  · simp
  · exact throws_asText r c

theorem throws_asInteger (r : Reply) (c : Bytes) : Throws IsRuntime (r.toCmdReply.asInteger c) := by
  by_cases h : r.kind = .integer
  · cases r with
    | integer v =>
      obtain ⟨n, hn⟩ := asInteger_integer v c
      simp [hn]
    | _ => cases h
  · simp [asInteger_of_ne h]

theorem throws_throwIfError (r : Reply) : Throws IsRuntime r.toCmdReply.throwIfError := by
  by_cases h : r.kind = .error
  · cases r with
    | error m => exact throws_throw.mpr (isRuntime_redisError m)
    | _ => cases h
  · simp [throwIfError_of_ne h]

theorem throws_orThrow_bind {α : Type} {r : Reply} {f : CmdReply → Outcome α} (h : Throws IsRuntime (f r.toCmdReply)) :
    Throws IsRuntime (r.toCmdReply.orThrow >>= f) := by
  unfold CmdReply.orThrow
  cases ht : r.toCmdReply.throwIfError with
  | error e =>
    have := throws_throwIfError r
    rw [ht] at this
    exact fun e' he' => this e' (by cases he'; rfl)
  | ok u => exact h

theorem throws_optionalString (r : Reply) (c : Bytes) : Throws IsRuntime (r.toCmdReply.optionalString c) := by
  unfold CmdReply.optionalString
  split
  · exact .pure _
  · exact (throws_asString r c).bind fun _ _ => .pure _

/-! ### Arrays -/

theorem mem_itemsOf {items : List Reply} {x : CmdReply} : x ∈ itemsOf items ↔ ∃ r ∈ items, r.toCmdReply = x :=
  List.mem_map

@[simp] theorem length_itemsOf (items : List Reply) : (itemsOf items).length = items.length := List.length_map ..

theorem throws_mapM_items {α : Type} {f : CmdReply → Outcome α} {items : List Reply}
    (h : ∀ r ∈ items, Throws IsRuntime (f r.toCmdReply)) : Throws IsRuntime ((itemsOf items).mapM f) := by
  refine .mapM fun x hx => ?_
  obtain ⟨r, hr, rfl⟩ := mem_itemsOf.mp hx
  exact h r hr

theorem throws_strings (r : Reply) (c : Bytes) : Throws IsRuntime (r.toCmdReply.strings c) := by
  unfold CmdReply.strings
  split
  · exact .pure _
  · exact throws_asArray_bind fun items _ => throws_mapM_items fun r' _ => throws_asString r' c

/-- The elements two by two. -/
def twoByTwo {α : Type} : List α → List (α × α)
  | x :: y :: rest => (x, y) :: twoByTwo rest
  | _ => []

theorem twoByTwo_flatMap_pair {α β : Type} (f g : α → β) (l : List α) :
    twoByTwo (l.flatMap fun a => [f a, g a]) = l.map fun a => (f a, g a) := by
  induction l with
  | nil => rfl
  | cons a l ih =>
    rw [List.flatMap_cons]
    show (f a, g a) :: twoByTwo (l.flatMap fun a => [f a, g a]) = _
    rw [ih, List.map_cons]

theorem twoByTwo_flatMap {α : Type} (l : List (α × α)) : twoByTwo (l.flatMap fun p => [p.1, p.2]) = l := by
  rw [twoByTwo_flatMap_pair, List.map_id']

theorem length_flatMap_pair {α β : Type} (f g : α → β) (l : List α) :
    (l.flatMap fun a => [f a, g a]).length = 2 * l.length := by
  rw [List.length_flatMap]
  simp [Nat.mul_comm]

/-- A flat list of pairs is one that a command with pairs accepts. -/
theorem flatMap_pair_wellFormed {α β : Type} (f g : α → β) {l : List α} (hl : l ≠ []) :
    ¬((l.flatMap fun a => [f a, g a]) = [] ∨ (l.flatMap fun a => [f a, g a]).length % 2 ≠ 0) := by
  have hlength := List.length_pos_iff.mpr hl
  rw [← List.length_eq_zero_iff, length_flatMap_pair]
  omega

theorem twoByTwo_map {α β : Type} (f : α → β) :
    ∀ l : List α, twoByTwo (l.map f) = (twoByTwo l).map fun p => (f p.1, f p.2)
  | [] => rfl
  | [_] => rfl
  | x :: y :: l => by simp [twoByTwo, twoByTwo_map f l]

/-- On an even number of elements, the loop of the decoders is a traversal of the pairs. -/
theorem pairwise_eq {α : Type} (pair : CmdReply → CmdReply → Outcome α) :
    ∀ l : List CmdReply, l.length % 2 = 0 →
      CmdReply.pairwise pair l = (twoByTwo l).mapM fun p => pair p.1 p.2
  | [], _ => rfl
  | [_], h => by cases h
  | x :: y :: l, h => by
    have hl : l.length % 2 = 0 := by
      simp only [List.length_cons] at h
      omega
    rw [CmdReply.pairwise, twoByTwo, List.mapM_cons, pairwise_eq pair l hl]

theorem throws_pairwise {α : Type} {pair : CmdReply → CmdReply → Outcome α} {items : List Reply}
    (heven : items.length % 2 = 0) (h : ∀ x y : Reply, Throws IsRuntime (pair x.toCmdReply y.toCmdReply)) :
    Throws IsRuntime (CmdReply.pairwise pair (itemsOf items)) := by
  rw [pairwise_eq pair _ (by rwa [length_itemsOf]), itemsOf, twoByTwo_map]
  refine .mapM fun p hp => ?_
  obtain ⟨q, -, rfl⟩ := List.mem_map.mp hp
  exact h q.1 q.2

/-- What a scan reads from an array of two elements, in the order in which it reads them. -/
theorem scanPage_two (c : Bytes) (x y : Reply) :
    Client.scanPage c (array [x, y]).toCmdReply = (do
      let _ ← y.toCmdReply.asArray c
      let text ← x.toCmdReply.asString c
      let n ← integralFromString .uint64 text
      pure (UInt64.ofInt n, y.toCmdReply)) := by
  have ha : (array [x, y]).toCmdReply.asArray c = .ok [x.toCmdReply, y.toCmdReply] := asArray_array [x, y] c
  have hcursor : (array [x, y]).toCmdReply.scanCursor c = (do
      let _ ← y.toCmdReply.asArray c
      let text ← x.toCmdReply.asString c
      let n ← integralFromString .uint64 text
      pure (UInt64.ofInt n)) := by
    unfold CmdReply.scanCursor
    rw [ha]
    rfl
  unfold Client.scanPage
  rw [orThrow_of_ne (by simp [kind]), Except.ok_bind, hcursor, ha]
  cases y.toCmdReply.asArray c with
  | error e => rfl
  | ok items =>
    cases x.toCmdReply.asString c with
    | error e => rfl
    | ok text =>
      rw [Except.ok_bind, Except.ok_bind, Except.ok_bind, Except.ok_bind]
      cases integralFromString .uint64 text <;> rfl

theorem scanPage_of_ne_two {c : Bytes} {r : Reply} (h : ∀ x y, r ≠ array [x, y]) :
    ∃ e, IsRuntime e ∧ Client.scanPage c r.toCmdReply = .error e := by
  by_cases hne : r.kind = .error
  · cases r with
    | error m => exact ⟨_, isRuntime_redisError m, rfl⟩
    | _ => cases hne
  rcases asArray_cases r c with ⟨items, rfl, ha⟩ | ⟨hk, -⟩
  · have hlen : (itemsOf items).length ≠ 2 := fun hlen => by
      obtain ⟨x, y, rfl⟩ := List.length_eq_two.mp (length_itemsOf items ▸ hlen)
      exact h x y rfl
    refine ⟨.runtimeError (c ++ ": expected a cursor and result array"), rfl, ?_⟩
    unfold Client.scanPage CmdReply.scanCursor
    rw [orThrow_bind hne, ha, Except.ok_bind, if_pos hlen]
    rfl
  · exact ⟨_, isRuntime_unexpected .., scanPage_of_ne hne c hk⟩

/-! ### Well-formed arrays of strings -/

/-- Pairs as a flat array, each first component before its second. -/
def flatPairs (l : List (Bytes × Bytes)) : List Reply := l.flatMap fun p => [string p.1, string p.2]

theorem length_flatPairs (l : List (Bytes × Bytes)) : (flatPairs l).length = 2 * l.length :=
  length_flatMap_pair (fun p : Bytes × Bytes => string p.1) (fun p => string p.2) l

theorem strings_strings (texts : List Bytes) (c : Bytes) :
    (array (texts.map string)).toCmdReply.strings c = .ok texts := by
  have hmap : (itemsOf (texts.map string)).mapM (fun item => item.asString c) = .ok texts := by
    rw [itemsOf, List.map_map]
    exact Except.mapM_map_eq fun _ _ => rfl
  show (if (array (texts.map string)).toCmdReply.isNil then _ else _) = _
  rw [isNil_of_ne (by simp [kind]), if_neg Bool.false_ne_true, asArray_array]
  exact hmap

variable [Platform]

theorem throws_fieldValue (c : Bytes) (x y : Reply) :
    Throws IsRuntime (CmdReply.fieldValue c x.toCmdReply y.toCmdReply) :=
  (throws_asString x c).bothArguments (throws_asString y c)

theorem pairwise_flatPairs (l : List (Bytes × Bytes)) (c : Bytes) :
    CmdReply.pairwise (CmdReply.fieldValue c) (itemsOf (flatPairs l)) = .ok l := by
  induction l with
  | nil => rfl
  | cons p l ih =>
    show (do
      let a ← bothArguments (.ok p.1) (.ok p.2)
      let l ← CmdReply.pairwise (CmdReply.fieldValue c) (itemsOf (flatPairs l))
      pure (a :: l)) = _
    rw [bothArguments_ok, ih]
    rfl

/-- The hash that a flat array of fields and values denotes: the first value of a field is kept. -/
theorem hash_flatPairs (l : List (Bytes × Bytes)) (c : Bytes) :
    (array (flatPairs l)).toCmdReply.hash c = .ok (UnorderedMap.emplaceAll ∅ l) := by
  unfold CmdReply.hash
  rw [asArray_array, Except.ok_bind, length_itemsOf, length_flatPairs, if_neg (by omega), pairwise_flatPairs]
  rfl

theorem throws_hash (r : Reply) (c : Bytes) : Throws IsRuntime (r.toCmdReply.hash c) := by
  unfold CmdReply.hash
  refine throws_asArray_bind fun items _ => ?_
  rw [length_itemsOf]
  split
  · exact throws_throw.mpr (by simp)
  · exact (throws_pairwise (by omega) (throws_fieldValue c)).bind fun _ _ => .pure _

theorem throws_optionalScore (r : Reply) (c : Bytes) : Throws IsRuntime (r.toCmdReply.optionalScore c) := by
  unfold CmdReply.optionalScore
  refine (throws_optionalString r c).bind fun text _ => ?_
  cases text with
  | none => exact .pure _
  | some text =>
    dsimp only
    split
    · exact .pure _
    · simp

theorem throws_streamEntry (r : Reply) (c : Bytes) : Throws IsRuntime (CmdReply.streamEntry c r.toCmdReply) := by
  unfold CmdReply.streamEntry
  refine throws_asArray_bind fun parts _ => ?_
  rw [length_itemsOf]
  split
  · exact throws_throw.mpr (by simp)
  · next hlen =>
    obtain ⟨x, y, rfl⟩ := List.length_eq_two.mp (not_not.mp hlen)
    refine (throws_asString x c).bind fun id _ => ?_
    show Throws IsRuntime (if y.toCmdReply.isNil then _ else _)
    split
    · exact .pure _
    · refine throws_asArray_bind fun fields _ => ?_
      rw [length_itemsOf]
      split
      · exact throws_throw.mpr (by simp)
      · exact (throws_pairwise (by omega) (throws_fieldValue c)).bind fun _ _ => .pure _

theorem throws_streamEntries (r : Reply) (c : Bytes) : Throws IsRuntime (r.toCmdReply.streamEntries c) := by
  unfold CmdReply.streamEntries
  split
  · exact .pure _
  · exact throws_asArray_bind fun items _ => throws_mapM_items fun r' _ => throws_streamEntry r' c

theorem throws_streamBatch (r : Reply) (c : Bytes) : Throws IsRuntime (CmdReply.streamBatch c r.toCmdReply) := by
  unfold CmdReply.streamBatch
  refine throws_asArray_bind fun parts _ => ?_
  rw [length_itemsOf]
  split
  · exact throws_throw.mpr (by simp)
  · next hlen =>
    obtain ⟨x, y, rfl⟩ := List.length_eq_two.mp (not_not.mp hlen)
    exact (throws_asString x c).bind fun _ _ => (throws_streamEntries y c).bind fun _ _ => .pure _

theorem throws_streamBatches (r : Reply) (c : Bytes) : Throws IsRuntime (r.toCmdReply.streamBatches c) := by
  unfold CmdReply.streamBatches
  split
  · exact .pure _
  · exact throws_asArray_bind fun items _ => throws_mapM_items fun r' _ => throws_streamBatch r' c

end Reply

end Redisdal
