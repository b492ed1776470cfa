import Redisdal.SyncConnection
import Redisdal.Theorems.HashStore

/-! # Converting replies

`convert_reply` on every tree that hiredis can hand over. -/

namespace Redisdal

/-! ### The tree that a reply stands for -/

/-- A pointer that is not null, or a null pointer next to zero. -/
inductive Block.Holds {α : Type} : Block α → List α → Prop where
  | empty : Block.Holds (.null 0) []
  | items (values : List α) : Block.Holds (.items values) values

/-- The kinds of reply that carry a text. -/
def RedisReplyType.textKind : RedisReplyType → Option ReplyType
  | .string => some .string
  | .status => some .status
  | .error => some .error
  | _ => none

namespace RedisReply

/-- Some node is a text or an array without storage for what it counts, or a null element. -/
inductive Malformed : RedisReply → Prop where
  | text {type kind integer len element} (hkind : type.textKind = some kind) (hlen : len ≠ 0) :
    Malformed (mk type integer (.null len) element)
  | storage {integer str elements} (helements : elements ≠ 0) : Malformed (mk .array integer str (.null elements))
  | null {integer str elements} (hnull : none ∈ elements) : Malformed (mk .array integer str (.items elements))
  | element {integer str elements r} (hr : some r ∈ elements) (h : Malformed r) :
    Malformed (mk .array integer str (.items elements))

/-- The stored reply has the kinds, the texts, the integers and the order of elements of the tree. A reply of another
    kind is stored as an error. -/
inductive Represents : RedisReply → CmdReply → Prop where
  | text {type kind integer str element text c} (hkind : type.textKind = some kind) (h : Block.Holds str text)
    (htype : c.type = kind) (htext : c.strValue = some text) : Represents (mk type integer str element) c
  | integer {n : Int64} {str element c} (htype : c.type = .integer) (hvalue : c.getSignedInteger = some n.toInt) :
    Represents (mk .integer n str element) c
  | nil {integer str element c} (htype : c.type = .nil) : Represents (mk .nil integer str element) c
  | array {integer str element c} {replies : List RedisReply} {items : List CmdReply}
    (h : Block.Holds element (replies.map some)) (htype : c.type = .array) (hitems : c.arrayValue = some items)
    (hall : List.Forall₂ Represents replies items) : Represents (mk .array integer str element) c
  | other {code integer str element c} (htype : c.type = .error)
    (htext : c.strValue = some ("Unknown reply type" : Bytes)) : Represents (mk (.other code) integer str element) c

end RedisReply

namespace SyncConnection

open RedisReply

/-! ### Integers -/

/-- The unsigned storage of `make_signed_integer` gives back the signed value. -/
theorem getSignedInteger_int64 (n : Int64) :
    (Reply.integer n.toUInt64).toCmdReply.getSignedInteger = some n.toInt := by
  rw [getSignedInteger_integer]
  exact congrArg some (BitVec.toInt_eq_toNat_bmod n.toBitVec).symm

theorem ofInt_toInt (n : Int64) : UInt64.ofInt n.toInt = n.toUInt64 := by
  have hvalue : n.toInt = (n.toUInt64.toNat : Int).bmod (2 ^ 64) := BitVec.toInt_eq_toNat_bmod n.toBitVec
  have hmod : n.toInt % 2 ^ 64 = n.toUInt64.toNat := by
    have hlt := n.toUInt64.toNat_lt
    rw [hvalue, Int.bmod_def]
    split <;> omega
  rw [UInt64.ofInt, hmod, Int.toNat_natCast, UInt64.ofNat_toNat]

/-- A value of type `int64_t`, which a signed computation must not leave. -/
def inInt64 (v : Int) : Outcome Int := if -2 ^ 63 ≤ v ∧ v < 2 ^ 63 then .ok v else .error .undefinedBehavior

/-- `get_signed_integer` on the stored value, with every signed value on the way. -/
def signedView (v : UInt64) : Outcome Int :=
  if v.toNat ≤ 2 ^ 63 - 1 then inInt64 v.toNat
  else do
    let rest ← inInt64 ((2 ^ 64 - 1 - v.toNat : Nat) : Int)
    inInt64 (-1 - rest)

/-- No signed value on the way overflows. -/
theorem signedView_eq (v : UInt64) : signedView v = deref (CmdReply.makeInteger v).getSignedInteger := by
  have hv := v.toNat_lt
  have hinteger : (CmdReply.makeInteger v).intValue = some v := rfl
  unfold signedView inInt64 CmdReply.getSignedInteger
  rw [hinteger, Option.map_some]
  by_cases hlow : v.toNat ≤ 2 ^ 63 - 1
  · rw [if_pos hlow, if_pos hlow, if_pos (by omega)]
    rfl
  · rw [if_neg hlow, if_neg hlow, if_pos (by omega), Except.ok_bind, if_pos (by omega)]
    rfl

/-! ### Texts -/

theorem values_of_holds {α : Type} {b : Block α} {l : List α} (h : b.Holds l) : b.values = l := by
  cases h <;> rfl

theorem block_cases {α : Type} (b : Block α) : (∃ count, count ≠ 0 ∧ b = .null count) ∨ b.Holds b.values := by
  cases b with
  | null count =>
    by_cases h : count = 0
    · subst h
      exact Or.inr .empty
    · exact Or.inl ⟨count, h, rfl⟩
  | items values => exact Or.inr (.items values)

theorem not_null_of_holds {α : Type} {b : Block α} (h : b.Holds b.values) : ¬(b.isNull = true ∧ b.count ≠ 0) := by
  cases b with
  | null count =>
    cases h
    simp [Block.count]
  | items values => simp [Block.isNull]

theorem convertReply_of_null {type : RedisReplyType} {kind : ReplyType} {integer : Int64} {len : Nat}
    {element : Block (Option RedisReply)} (hkind : type.textKind = some kind) (hlen : len ≠ 0) :
    convertReply (mk type integer (.null len) element) = .error (.runtimeError "Malformed Redis text reply") := by
  have htype : type = .string ∨ type = .status ∨ type = .error := by
    cases type <;> simp [RedisReplyType.textKind] at hkind ⊢
  unfold convertReply
  exact if_pos ⟨htype, rfl, hlen⟩

theorem convertReply_of_text {type : RedisReplyType} {kind : ReplyType} {str : Block UInt8} (integer : Int64)
    (element : Block (Option RedisReply)) (hkind : type.textKind = some kind) (h : str.Holds str.values) :
    ∃ t, convertReply (mk type integer str element) = .ok t ∧ t.kind = kind ∧
      t.toCmdReply.strValue = some str.values := by
  unfold convertReply
  rw [if_neg fun hbad => not_null_of_holds h hbad.2]
  cases type with
  | string => cases hkind; exact ⟨_, rfl, rfl, rfl⟩
  | status => cases hkind; exact ⟨_, rfl, rfl, rfl⟩
  | error => cases hkind; exact ⟨_, rfl, rfl, rfl⟩
  | _ => cases hkind

/-- What becomes of a reply: it is malformed and rejected, or converted to a reply that represents it. -/
def Converts (r : RedisReply) : Prop :=
  (r.Malformed ∧ ∃ what, convertReply r = .error (.runtimeError what)) ∨
    (¬r.Malformed ∧ ∃ t, convertReply r = .ok t ∧ r.Represents t.toCmdReply)

section Leaves
variable {type : RedisReplyType} {kind : ReplyType} {integer : Int64} {str : Block UInt8}
  {element : Block (Option RedisReply)}

theorem converts_text (hkind : type.textKind = some kind) : Converts (mk type integer str element) := by
  rcases block_cases str with ⟨len, hlen, rfl⟩ | h
  · exact Or.inl ⟨.text hkind hlen, _, convertReply_of_null hkind hlen⟩
  · refine Or.inr ⟨fun hbad => ?_, ?_⟩
    · cases hbad with
      | text _ hlen =>
        cases h
        exact hlen rfl
      | _ => cases hkind
    · obtain ⟨t, ht, hk, htext⟩ := convertReply_of_text integer element hkind h
      exact ⟨t, ht, .text hkind h (by rw [Reply.type_toCmdReply, hk]) htext⟩

theorem not_malformed_of_leaf (hkind : type.textKind = none) (harray : type ≠ .array) :
    ¬(mk type integer str element).Malformed := by
  intro h
  cases h with
  | text h =>
    rw [hkind] at h
    cases h
  | _ => exact harray rfl

end Leaves

theorem convertReply_nullArray (integer : Int64) (str : Block UInt8) (elements : Nat) :
    convertReply (mk .array integer str (.null elements)) =
      if elements ≠ 0 then .error (.runtimeError "Malformed Redis array reply") else .ok (.array []) := rfl

theorem convertReply_array (integer : Int64) (str : Block UInt8) (elements : List (Option RedisReply)) :
    convertReply (mk .array integer str (.items elements)) = (convertElements elements).map .array := rfl

mutual

theorem converts : ∀ r : RedisReply, Converts r
  | .mk .string _ _ _ => converts_text rfl
  | .mk .status _ _ _ => converts_text rfl
  | .mk .error _ _ _ => converts_text rfl
  | .mk .integer n _ _ => Or.inr ⟨not_malformed_of_leaf rfl (by simp), _, rfl, .integer rfl (getSignedInteger_int64 n)⟩
  | .mk .nil _ _ _ => Or.inr ⟨not_malformed_of_leaf rfl (by simp), _, rfl, .nil rfl⟩
  | .mk (.other _) _ _ _ => Or.inr ⟨not_malformed_of_leaf rfl (by simp), _, rfl, .other rfl rfl⟩
  | .mk .array _ _ (.null elements) => by
    unfold Converts
    rw [convertReply_nullArray]
    by_cases helements : elements = 0
    · subst helements
      refine Or.inr ⟨fun h => ?_, .array [], rfl, @Represents.array _ _ _ _ [] [] .empty rfl rfl .nil⟩
      cases h with
      | text hkind => cases hkind
      | storage h => exact h rfl
    · exact Or.inl ⟨.storage helements, _, if_pos helements⟩
  | .mk .array _ _ (.items elements) => by
    unfold Converts
    rw [convertReply_array]
    rcases convertElements_cases elements with ⟨hbad, what, hl⟩ | ⟨replies, items, rfl, hgood, hl, hall⟩
    · refine Or.inl ⟨?_, what, by rw [hl]; rfl⟩
      rcases hbad with hnull | ⟨r, hr, h⟩
      · exact .null hnull
      · exact .element hr h
    · refine Or.inr ⟨fun h => ?_, .array items, by rw [hl]; rfl, ?_⟩
      · cases h with
        | text hkind => cases hkind
        | null hnull => simp at hnull
        | @element _ _ _ r hr h =>
          obtain ⟨r', hmem, heq⟩ := List.mem_map.mp hr
          cases heq
          exact hgood r hmem h
      · exact .array (.items _) rfl (Reply.arrayValue_array items) hall

theorem convertElements_cases : ∀ elements : List (Option RedisReply),
    ((none ∈ elements ∨ ∃ r, some r ∈ elements ∧ r.Malformed) ∧
        ∃ what, convertElements elements = .error (.runtimeError what)) ∨
      ∃ replies items, elements = replies.map some ∧ (∀ r ∈ replies, ¬r.Malformed) ∧
        convertElements elements = .ok items ∧ List.Forall₂ Represents replies (items.map Reply.toCmdReply)
  | [] => Or.inr ⟨[], [], rfl, by simp, rfl, .nil⟩
  | none :: _ => Or.inl ⟨Or.inl List.mem_cons_self, _, rfl⟩
  | some r :: elements => by
    have hcons : convertElements (some r :: elements) = convertReply r >>= fun item =>
      convertElements elements >>= fun items => pure (item :: items) := by rw [convertElements]
    rcases converts r with ⟨hbad, what, hr⟩ | ⟨hgood, t, hr, hrep⟩
    · exact Or.inl ⟨Or.inr ⟨r, List.mem_cons_self, hbad⟩, what, by rw [hcons, hr]; rfl⟩
    · rcases convertElements_cases elements with ⟨hbad, what, hl⟩ | ⟨replies, items, rfl, hgoods, hl, hall⟩
      · refine Or.inl ⟨?_, what, by rw [hcons, hr, hl]; rfl⟩
        rcases hbad with hnull | ⟨r', hr', h⟩
        · exact Or.inl (List.mem_cons_of_mem _ hnull)
        · exact Or.inr ⟨r', List.mem_cons_of_mem _ hr', h⟩
      · exact Or.inr ⟨r :: replies, t :: items, rfl, List.forall_mem_cons.mpr ⟨hgood, hgoods⟩,
          by rw [hcons, hr, hl]; rfl, .cons hrep hall⟩

end

/-! ### The detour of an error -/

section Commands
variable {τ : Type} (H : Hiredis τ) {context next : τ} {args : List Bytes} {reply : RedisReply}

/-- What `execv` makes of an answer. -/
def received (answer : Option RedisReply × τ) : Outcome RedisReply :=
  match answer.1 with
  | none => .error (.runtimeError (("Redis command failed: " : Bytes) ++ H.errstr answer.2))
  | some reply =>
    if reply.type = .error then stringOf reply.str >>= fun message => .error (.redisError message) else .ok reply

theorem run_execArgs (hne : args ≠ []) (hlen : args.length ≤ intMax) :
    (execArgs H args).run (some context) =
      (received H (H.commandArgv context args), some (H.commandArgv context args).2) := by
  have hlen' : ¬args.length > intMax := Nat.not_lt.mpr hlen
  unfold execArgs execv received
  simp only [if_neg hne, if_neg hlen', Program.run_bind, Program.run_get, Program.resume_ok, Program.run_modify]
  rcases H.commandArgv context args with ⟨_ | reply, next⟩
  · rfl
  · dsimp only
    split
    · rw [Program.run_bind, Program.run_ofExcept]
      cases stringOf reply.str <;> rfl
    · rfl

variable {H}

/-- The text of an error, as `std::string` makes it and as `convert_reply` does. -/
theorem error_cases {reply : RedisReply} (ht : reply.type = .error) :
    (stringOf reply.str = .error .undefinedBehavior ∧ ∃ what, convertReply reply = .error (.runtimeError what)) ∨
      ∃ message, stringOf reply.str = .ok message ∧ convertReply reply = .ok (.error message) := by
  obtain ⟨type, integer, str, element⟩ := reply
  cases ht
  rcases block_cases str with ⟨len, hlen, rfl⟩ | h
  · exact Or.inl ⟨if_pos ⟨rfl, hlen⟩, _, convertReply_of_null (show RedisReplyType.error.textKind = some .error from rfl) hlen⟩
  · refine Or.inr ⟨str.values, if_neg (not_null_of_holds h), ?_⟩
    unfold convertReply
    rw [if_neg fun hbad => not_null_of_holds h hbad.2]
    rfl

/-- The thrown and caught error is the converted one. -/
theorem run_cmdExecv_iff (hne : args ≠ []) (hlen : args.length ≤ intMax)
    (h : H.commandArgv context args = (some reply, next)) (t : Reply) :
    (cmdExecv H args).run (some context) = (.ok t, some next) ↔ convertReply reply = .ok t := by
  unfold cmdExecv execConverted
  show Program.recover _ (((execArgs H args).decode convertReply).run (some context)) = _ ↔ _
  rw [Program.run_decode, run_execArgs H hne hlen, h, received]
  dsimp only
  by_cases ht : reply.type = .error
  · rw [if_pos ht]
    rcases error_cases ht with ⟨hstring, what, hconvert⟩ | ⟨message, hstring, hconvert⟩
    · rw [hstring, hconvert]
      exact iff_of_false (fun h => by cases h) fun h => by cases h
    · rw [hstring, hconvert]
      exact ⟨fun h => by cases h; rfl, fun h => by cases h; rfl⟩
  · rw [if_neg ht, Program.resume_ok, Program.run_ofExcept]
    rcases converts reply with ⟨-, what, hconvert⟩ | ⟨-, t', hconvert, -⟩
    · rw [hconvert]
      exact iff_of_false (fun h => by cases h) fun h => by cases h
    · rw [hconvert]
      exact ⟨fun h => by cases h; rfl, fun h => by cases h; rfl⟩

end Commands

/-! ### Conversion is faithful -/

/-- A reply is rejected exactly when it is malformed, and is otherwise converted to a reply that represents it. A
    signed integer comes back from its unsigned storage without overflow, and what `cmd_execv` returns is the
    converted reply, of an error too. -/
theorem convertReply_faithful :
    (∀ r : RedisReply, (r.Malformed ↔ ∃ what, convertReply r = .error (.runtimeError what)) ∧
        (¬r.Malformed ↔ ∃ t, convertReply r = .ok t) ∧ ∀ t, convertReply r = .ok t → r.Represents t.toCmdReply) ∧
      (∀ n : Int64, (CmdReply.makeSignedInteger n.toInt).getSignedInteger = some n.toInt ∧
        signedView (UInt64.ofInt n.toInt) = .ok n.toInt) ∧
      ∀ (τ : Type) (H : Hiredis τ) (context next : τ) (args : List Bytes) (reply : RedisReply), args ≠ [] →
        args.length ≤ intMax → H.commandArgv context args = (some reply, next) →
        ∀ t, (cmdExecv H args).run (some context) = (.ok t, some next) ↔ convertReply reply = .ok t := by
  refine ⟨fun r => ?_, fun n => ?_, fun τ H context next args reply hne hlen h t => run_cmdExecv_iff hne hlen h t⟩
  · rcases converts r with ⟨hbad, what, hr⟩ | ⟨hgood, t, hr, hrep⟩
    · refine ⟨iff_of_true hbad ⟨what, hr⟩, iff_of_false (not_not.mpr hbad) fun h => ?_, fun t ht => ?_⟩
      · obtain ⟨t, ht⟩ := h
        rw [hr] at ht
        cases ht
      · rw [hr] at ht
        cases ht
    · refine ⟨iff_of_false hgood fun h => ?_, iff_of_true hgood ⟨t, hr⟩, fun t' ht => ?_⟩
      · obtain ⟨what, hwhat⟩ := h
        rw [hr] at hwhat
        cases hwhat
      · rw [hr] at ht
        cases ht
        exact hrep
  · rw [signedView_eq, CmdReply.makeSignedInteger, ofInt_toInt,
      show (CmdReply.makeInteger n.toUInt64).getSignedInteger = _ from getSignedInteger_int64 n]
    exact ⟨rfl, rfl⟩

end SyncConnection

end Redisdal
