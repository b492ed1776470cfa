import Mathlib.Data.Set.List
import Redisdal.Theorems.Decoding
import Redisdal.Theorems.ReplyErrors

/-! # The payloads of a reply

A `cmd_reply` holds the payload of its tag and no other, at every node of every reply that the public
constructors and factories build. The unchecked accesses of the decoders rest on that. -/

namespace Redisdal

namespace CmdReply

/-- A reply that code outside the class can build. -/
inductive Constructed : CmdReply → Prop where
  | nil : Constructed .makeNil
  | error (message : Bytes) : Constructed (.makeError message)
  | string (value : Bytes) : Constructed (.makeString value)
  /-- From a `const char *`, whose text ends at the first null character. -/
  | chars (value : Bytes) : Constructed (.makeString (value.takeWhile (· ≠ 0)))
  | integer (value : UInt64) : Constructed (.makeInteger value)
  | signedInteger (value : Int) : Constructed (.makeSignedInteger value)
  | double (value : Double) : Constructed (.makeDouble value)
  | bool (value : Bool) : Constructed (.makeBool value)
  | status (value : Bytes) : Constructed (.makeStatus value)
  | array (items : List CmdReply) (h : ∀ item ∈ items, Constructed item) : Constructed (.makeArray items)

/-- Each payload is there exactly under its tag. -/
structure PayloadsMatch (r : CmdReply) : Prop where
  text : r.strValue.isSome = true ↔ r.type = .string ∨ r.type = .status ∨ r.type = .error
  integer : r.intValue.isSome = true ↔ r.type = .integer
  double : r.doubleValue.isSome = true ↔ r.type = .double
  bool : r.boolValue.isSome = true ↔ r.type = .bool
  array : r.arrayValue.isSome = true ↔ r.type = .array

/-- The payloads match the tag at every node. -/
inductive WellFormed : CmdReply → Prop where
  | node {r : CmdReply} (payloads : r.PayloadsMatch)
    (items : ∀ items, r.arrayValue = some items → ∀ item ∈ items, WellFormed item) : WellFormed r

theorem WellFormed.of_no_items {r : CmdReply} (h : r.PayloadsMatch) (hitems : r.arrayValue = none) : r.WellFormed :=
  .node h fun items heq => by
    rw [hitems] at heq
    cases heq

/-- Every constructor and factory sets the payload of its tag only. -/
theorem wellFormed_of_constructed {r : CmdReply} (h : Constructed r) : r.WellFormed := by
  induction h with
  | nil => exact .of_no_items (by constructor <;> simp [makeNil]) rfl
  | error => exact .of_no_items (by constructor <;> simp [makeError, makeNil]) rfl
  | string => exact .of_no_items (by constructor <;> simp [makeString]) rfl
  | chars => exact .of_no_items (by constructor <;> simp [makeString]) rfl
  | integer => exact .of_no_items (by constructor <;> simp [makeInteger]) rfl
  | signedInteger => exact .of_no_items (by constructor <;> simp [makeSignedInteger, makeInteger]) rfl
  | double => exact .of_no_items (by constructor <;> simp [makeDouble]) rfl
  | bool => exact .of_no_items (by constructor <;> simp [makeBool]) rfl
  | status => exact .of_no_items (by constructor <;> simp [makeStatus, makeNil]) rfl
  | array items _ ih =>
    refine .node (by constructor <;> simp [makeArray]) ?_
    intro items' heq
    cases heq
    exact ih

theorem exists_tree_of_wellFormed {r : CmdReply} (h : r.WellFormed) : ∃ reply : Reply, reply.toCmdReply = r := by
  induction h with
  | @node r payloads _ ih =>
    obtain ⟨type, str, int, double, bool, array⟩ := r
    obtain ⟨htext, hint, hdouble, hbool, harray⟩ := payloads
    dsimp only at htext hint hdouble hbool harray ih
    cases type <;> simp at htext hint hdouble hbool harray <;> subst_vars
    case nil => exact ⟨.nil, rfl⟩
    case string =>
      obtain ⟨value, rfl⟩ := Option.isSome_iff_exists.mp htext
      exact ⟨.string value, rfl⟩
    case status =>
      obtain ⟨value, rfl⟩ := Option.isSome_iff_exists.mp htext
      exact ⟨.status value, rfl⟩
    case error =>
      obtain ⟨message, rfl⟩ := Option.isSome_iff_exists.mp htext
      exact ⟨.error message, rfl⟩
    case integer =>
      obtain ⟨value, rfl⟩ := Option.isSome_iff_exists.mp hint
      exact ⟨.integer value, rfl⟩
    case double =>
      obtain ⟨value, rfl⟩ := Option.isSome_iff_exists.mp hdouble
      exact ⟨.double value, rfl⟩
    case bool =>
      obtain ⟨value, rfl⟩ := Option.isSome_iff_exists.mp hbool
      exact ⟨.bool value, rfl⟩
    case array =>
      obtain ⟨items, rfl⟩ := Option.isSome_iff_exists.mp harray
      have hitems : items ∈ Set.range (List.map Reply.toCmdReply) := by
        rw [Set.range_list_map]
        exact ih items rfl
      obtain ⟨replies, rfl⟩ := hitems
      exact ⟨.array replies, by rw [Reply.toCmdReply, Reply.toCmdReplies_eq_map]; rfl⟩

end CmdReply

open Reply

/-! ### Accesses -/

/-- No undefined access, and no `at` on a key that the map lacks. -/
def IsDefined (e : Exn) : Prop := e ≠ .undefinedBehavior ∧ e ≠ .outOfRange "unordered_map::at"

theorem isDefined_of_isRuntime {e : Exn} (h : IsRuntime e) : IsDefined e := by
  constructor
  · rintro rfl
    cases h
  · rintro rfl
    cases h

theorem Throws.mono {α : Type} {P Q : Exn → Prop} {x : Outcome α} (h : Throws P x) (hPQ : ∀ e, P e → Q e) :
    Throws Q x := fun e he => hPQ e (h e he)

theorem isDefined_of_integralFromString {text : Bytes} : Throws IsDefined (integralFromString .uint64 text) := by
  intro e he
  by_cases hex : ∃ v, Numeral .uint64 text v
  · obtain ⟨v, hv⟩ := hex
    rw [integralFromString_of_numeral (Nat.le_refl 64) hv] at he
    split at he
    · cases he
    · cases he
      exact ⟨by simp, by decide⟩
  · obtain ⟨what, hwhat⟩ := integralFromString_of_not_numeral (not_exists.mp hex)
    rw [hwhat] at he
    cases he
    exact ⟨by simp, by simp⟩

theorem isDefined_scanPage (c : Bytes) (r : Reply) : Throws IsDefined (Client.scanPage c r.toCmdReply) := by
  by_cases htwo : ∃ x y, r = array [x, y]
  · obtain ⟨x, y, rfl⟩ := htwo
    rw [scanPage_two]
    refine throws_asArray_bind_of (fun _ => isDefined_of_isRuntime) fun _ _ => ?_
    refine ((throws_asString x c).mono fun _ => isDefined_of_isRuntime).bind fun text _ => ?_
    exact isDefined_of_integralFromString.bind fun _ _ => .pure _
  · obtain ⟨e, he, hpage⟩ := scanPage_of_ne_two (c := c) fun x y heq => htwo ⟨x, y, heq⟩
    rw [hpage]
    exact Throws.error_iff.mpr (isDefined_of_isRuntime he)

variable [Platform]

theorem isDefined_memberScore (c : Bytes) (x y : Reply) :
    Throws IsDefined (CmdReply.memberScore c x.toCmdReply y.toCmdReply) := by
  refine Throws.bothArguments ((throws_asString x c).mono fun _ => isDefined_of_isRuntime) ?_
  refine ((throws_optionalScore y c).mono fun _ => isDefined_of_isRuntime).bind fun score _ => ?_
  cases score with
  | none => exact throws_throw.mpr ⟨by simp, by simp⟩
  | some score => exact .pure _

theorem isDefined_scores (r : Reply) (c : Bytes) : Throws IsDefined (r.toCmdReply.scores c) := by
  unfold CmdReply.scores
  split
  · exact .pure _
  · refine throws_asArray_bind_of (fun _ => isDefined_of_isRuntime) fun items _ => ?_
    rw [length_itemsOf]
    split
    · exact throws_throw.mpr (isDefined_of_isRuntime (by simp))
    · next heven =>
      show Throws IsDefined (CmdReply.pairwise (CmdReply.memberScore c) (itemsOf items))
      rw [pairwise_eq _ _ (by rw [length_itemsOf]; exact not_not.mp heven), itemsOf, twoByTwo_map]
      refine .mapM fun p hp => ?_
      obtain ⟨q, -, rfl⟩ := List.mem_map.mp hp
      exact isDefined_memberScore c q.1 q.2

omit [Platform] in
/-- What follows a page decodes the array next to the cursor. -/
theorem isDefined_scanPage_bind {α : Type} {c : Bytes} {r : Reply} {f : UInt64 × CmdReply → Outcome α}
    (hf : ∀ n t, Throws IsRuntime (f (n, toCmdReply t))) : Throws IsDefined (Client.scanPage c r.toCmdReply >>= f) := by
  refine (isDefined_scanPage c r).bind fun page hpage => ?_
  obtain ⟨next, results⟩ := page
  obtain ⟨_, _, items, _, _, _, rfl⟩ := scanPage_eq_ok_iff.mp hpage
  exact (hf next (array items)).mono fun _ => isDefined_of_isRuntime

/-- Whatever a tree holds, decoding it makes defined accesses only. -/
theorem isDefined_decode (i : Interpretation) (r : Reply) : Throws IsDefined (i.decode r.toCmdReply) := by
  cases i with
  | scan => exact .map (isDefined_scanPage_bind fun _ t => (throws_strings t _).bind fun _ _ => .pure _)
  | hscan out => exact .map (isDefined_scanPage_bind fun _ t => (throws_hash t _).bind fun _ _ => .pure _)
  | scores c =>
    refine .map ?_
    unfold Client.scoresReply CmdReply.orThrow
    refine Throws.bind (((throws_throwIfError r).bind fun _ _ => .pure _).mono fun _ => isDefined_of_isRuntime) ?_
    intro reply hreply
    obtain ⟨-, -, h⟩ := Except.bind_eq_ok_iff.mp hreply
    cases h
    exact isDefined_scores r c
  | _ => exact (throws_decode (by simp) (by simp) (by simp) r).mono fun _ => isDefined_of_isRuntime

/-- Once the operation has received the reply, it makes defined accesses only. -/
def Operation.DefinedOn (op : Operation) (reply : Reply) : Prop :=
  ∀ (σ : Type) (E : Executor σ) (s t : σ) (argv : List Bytes), argv ∈ calls op E s →
    (E argv).run s = (.ok reply, t) → ∀ e, ((op.run E).run s).1 = .error e → IsDefined e

/-- The payloads of every reply that can be built match its tags, at every node, and every operation decodes it
    without an access to an absent payload or an element out of range. -/
theorem constructed_decodes_defined :
    ∀ r, CmdReply.Constructed r → CmdReply.WellFormed r ∧
      ∃ reply : Reply, reply.toCmdReply = r ∧ ∀ op : Operation, op.DefinedOn reply := by
  intro r h
  have hwell := CmdReply.wellFormed_of_constructed h
  obtain ⟨reply, rfl⟩ := CmdReply.exists_tree_of_wellFormed hwell
  refine ⟨hwell, reply, rfl, ?_⟩
  intro op σ E s t argv hargv hrun e he
  obtain ⟨i, hp⟩ := plan_of_mem_calls hargv
  rw [run_of_reply hp hrun] at he
  exact isDefined_decode i reply e he

omit [Platform] in
/-- A scan reply with a NIL among its keys. -/
theorem constructed_decodes_defined_nil : ∃ reply : Reply,
    reply.toCmdReply = .makeArray [.makeString "0", .makeArray [.makeNil]] ∧
      ∀ op : Operation, @Operation.DefinedOn referencePlatform op reply := by
  have hitems : ∀ item ∈ ([.makeString "0", .makeArray [.makeNil]] : List CmdReply), CmdReply.Constructed item := by
    simp only [List.forall_mem_cons]
    exact ⟨.string "0", .array _ (List.forall_mem_singleton.mpr .nil), by simp⟩
  exact (@constructed_decodes_defined referencePlatform _ (.array _ hitems)).2

end Redisdal
