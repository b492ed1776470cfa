import Redisdal.Theorems.Numbers
import Redisdal.Theorems.Contract
import Redisdal.Theorems.Decoding

/-! # The exceptions of a reply

Once a reply has been received, an operation throws exceptions derived from `std::runtime_error`, but for
two families of replies: a scan cursor that is no number, and a NIL score. -/

namespace Redisdal

open Reply

variable [Platform]

omit [Platform] in
theorem throws_map_iff {α β : Type} {P : Exn → Prop} (x : Outcome α) (g : α → β) : Throws P (x.map g) ↔ Throws P x := by
  cases x <;> simp [Except.map]

/-! ### Scan cursors -/

omit [Platform] in
/-- What a number is rejected with is no runtime error. -/
theorem not_isRuntime_of_fromStringWith {α : Type} {parse : Bytes → CharsResult α} {inRange : α → Bool} {s : Bytes}
    {e : Exn} (h : fromStringWith parse inRange s = .error e) : ¬IsRuntime e := by
  have hthrows : Throws (fun e => ¬IsRuntime e) (fromStringWith parse inRange s) := by
    unfold fromStringWith
    refine Throws.bind ?_ fun first _ => ?_
    · unfold skipPlus
      split
      · exact throws_throw.mpr Bool.false_ne_true
      · split
        · split
          · exact throws_throw.mpr Bool.false_ne_true
          · split
            · exact throws_throw.mpr Bool.false_ne_true
            · exact .pure _
        · exact .pure _
    · dsimp only
      split
      · exact throws_throw.mpr Bool.false_ne_true
      · split <;> exact throws_throw.mpr Bool.false_ne_true
      · split
        · exact throws_throw.mpr Bool.false_ne_true
        · split
          · exact .pure _
          · exact throws_throw.mpr Bool.false_ne_true
  exact hthrows e h

/-- A scan reply of the right shape whose cursor is no 64-bit number. -/
def NoCursor (r : Reply) : Prop := ∃ text items, r = array [string text, array items] ∧ ¬CursorText text

omit [Platform] in
/-- Reading a page goes wrong with a runtime error, unless it goes wrong on the cursor text. -/
theorem throws_scanPage_bind {α : Type} {c : Bytes} {r : Reply} {f : UInt64 × CmdReply → Outcome α}
    (hf : ∀ n t, Throws IsRuntime (f (n, toCmdReply t))) :
    Throws IsRuntime (Client.scanPage c r.toCmdReply >>= f) ↔ ¬NoCursor r := by
  by_cases htwo : ∃ x y, r = array [x, y]
  · obtain ⟨x, y, rfl⟩ := htwo
    rw [scanPage_two]
    rcases asArray_cases y c with ⟨items, rfl, ha⟩ | ⟨hk, e, he, ha⟩
    · rw [ha, Except.ok_bind]
      rcases asString_cases x c with ⟨text, rfl, hs⟩ | ⟨hk, e, he, hs⟩
      · rw [hs, Except.ok_bind]
        cases hn : integralFromString .uint64 text with
        | ok n =>
          refine iff_of_true (hf _ _) ?_
          intro hex
          obtain ⟨text', items', heq, hno⟩ := hex
          cases heq
          exact hno (exists_integralFromString_iff.mp ⟨n, hn⟩)
        | error e =>
          refine iff_of_false (fun h => not_isRuntime_of_fromStringWith hn (h e rfl))
            (not_not.mpr ⟨text, items, rfl, ?_⟩)
          intro h
          obtain ⟨n, hn'⟩ := exists_integralFromString_iff.mpr h
          rw [hn] at hn'
          cases hn'
      · rw [hs]
        refine iff_of_true (Throws.error_iff.mpr he) ?_
        intro hex
        obtain ⟨text, items', heq, -⟩ := hex
        cases heq
        exact hk rfl
    · rw [ha]
      refine iff_of_true (Throws.error_iff.mpr he) ?_
      intro hex
      obtain ⟨text, items, heq, -⟩ := hex
      cases heq
      exact hk rfl
  · obtain ⟨e, he, hpage⟩ := scanPage_of_ne_two (c := c) fun x y heq => htwo ⟨x, y, heq⟩
    rw [hpage]
    refine iff_of_true (Throws.error_iff.mpr he) ?_
    intro hex
    obtain ⟨text, items, rfl, -⟩ := hex
    exact htwo ⟨_, _, rfl⟩

omit [Platform] in
theorem throws_scanReply_iff (r : Reply) : Throws IsRuntime (Client.scanReply r.toCmdReply) ↔ ¬NoCursor r :=
  throws_scanPage_bind fun _ t => (throws_strings t _).bind fun _ _ => .pure _

theorem throws_hscanReply_iff (r : Reply) : Throws IsRuntime (Client.hscanReply r.toCmdReply) ↔ ¬NoCursor r :=
  throws_scanPage_bind fun _ t => (throws_hash t _).bind fun _ _ => .pure _

/-! ### Scores -/

/-- A member and its score. -/
def GoodScore (p : Reply × Reply) : Prop :=
  ∃ member text score, p = (string member, string text) ∧ doubleFromString text = .ok score

/-- The first pair that is not a member and its score has NIL for a score, and nothing that the platform
    evaluates before the score fails. -/
def NilScore (r : Reply) : Prop :=
  ∃ items before member after, r = array items ∧ items.length % 2 = 0 ∧
    twoByTwo items = before ++ (member, nil) :: after ∧ (∀ p ∈ before, GoodScore p) ∧
    (Platform.rightToLeft = true ∨ ∃ text, member = string text)

theorem optionalScore_nil (c : Bytes) : nil.toCmdReply.optionalScore c = .ok none := rfl

theorem exists_memberScore_iff {c : Bytes} {x y : Reply} :
    (∃ a, CmdReply.memberScore c x.toCmdReply y.toCmdReply = .ok a) ↔ GoodScore (x, y) := by
  simp only [memberScore_eq_ok_iff]
  constructor
  · intro hex
    obtain ⟨a, text, heq, hd⟩ := hex
    exact ⟨a.1, text, a.2, heq, hd⟩
  · intro hex
    obtain ⟨member, text, score, heq, hd⟩ := hex
    exact ⟨(member, score), text, heq, hd⟩

theorem isRuntime_memberScore_iff {c : Bytes} {x y : Reply} {e : Exn}
    (h : CmdReply.memberScore c x.toCmdReply y.toCmdReply = .error e) :
    IsRuntime e ↔ ¬(y = nil ∧ (Platform.rightToLeft = true ∨ ∃ text, x = string text)) := by
  by_cases hnil : y = nil
  · subst hnil
    unfold CmdReply.memberScore bothArguments at h
    rw [optionalScore_nil] at h
    split at h
    · next hrtl =>
      cases h
      exact iff_of_false Bool.false_ne_true (by simp [hrtl])
    · next hrtl =>
      rcases asString_cases x c with ⟨text, rfl, hx⟩ | ⟨hk, e', he', hx⟩
      · rw [hx] at h
        cases h
        exact iff_of_false Bool.false_ne_true (by simp)
      · rw [hx] at h
        cases h
        refine iff_of_true he' ?_
        intro hand
        rcases hand with ⟨-, hr | ⟨text, rfl⟩⟩
        · exact hrtl hr
        · exact hk rfl
  · refine iff_of_true ((throws_asString x c).bothArguments ?_ e h) fun hand => hnil hand.1
    refine (throws_optionalScore y c).bind fun score hscore => ?_
    rcases optionalScore_eq_ok_iff.mp hscore with ⟨heq, -⟩ | ⟨text, d, -, -, rfl⟩
    · exact absurd heq hnil
    · exact .pure _

theorem throws_scoresReply_iff (c : Bytes) (r : Reply) :
    Throws IsRuntime (Client.scoresReply c r.toCmdReply) ↔ ¬NilScore r := by
  unfold Client.scoresReply
  by_cases hne : r.kind = .error
  · cases r with
    | error m =>
      refine iff_of_true (Throws.error_iff.mpr (isRuntime_redisError m)) ?_
      intro hex
      obtain ⟨items, _, _, _, heq, -⟩ := hex
      cases heq
    | _ => cases hne
  rw [orThrow_bind hne]
  unfold CmdReply.scores
  by_cases hnil : r.toCmdReply.isNil = true
  · rw [if_pos hnil]
    refine iff_of_true (.pure _) ?_
    intro hex
    obtain ⟨items, _, _, _, rfl, -⟩ := hex
    cases hnil
  rw [if_neg hnil]
  rcases asArray_cases r c with ⟨items, rfl, ha⟩ | ⟨hk, e, he, ha⟩
  · rw [ha, Except.ok_bind, length_itemsOf]
    by_cases heven : items.length % 2 = 0
    · rw [if_neg (not_not.mpr heven)]
      show Throws IsRuntime (CmdReply.pairwise (CmdReply.memberScore c) (itemsOf items)) ↔ _
      rw [pairwise_eq _ _ (by rwa [length_itemsOf]), itemsOf, twoByTwo_map, List.mapM_map]
      constructor
      · rintro h ⟨items', before, member, after, heq, -, hsplit, hbefore, horder⟩
        cases heq
        cases hbad : CmdReply.memberScore c member.toCmdReply nil.toCmdReply with
        | ok a =>
          obtain ⟨_, _, _, heq, -⟩ := exists_memberScore_iff.mp ⟨a, hbad⟩
          cases heq
        | error e =>
          have he := h e (Except.mapM_eq_error_iff.mpr
            ⟨before, (member, nil), after, hsplit, fun p hp => exists_memberScore_iff.mpr (hbefore p hp), hbad⟩)
          exact (isRuntime_memberScore_iff hbad).mp he ⟨rfl, horder⟩
      · intro h e he
        obtain ⟨before, ⟨x, y⟩, after, hsplit, hbefore, hbad⟩ := Except.mapM_eq_error_iff.mp he
        refine (isRuntime_memberScore_iff hbad).mpr ?_
        intro hand
        obtain ⟨rfl, horder⟩ := hand
        exact h ⟨items, before, x, after, rfl, heven, hsplit, fun p hp => exists_memberScore_iff.mp (hbefore p hp),
          horder⟩
    · rw [if_pos heven]
      refine iff_of_true (throws_throw.mpr (isRuntime_runtimeError _)) ?_
      intro hex
      obtain ⟨items', _, _, _, heq, heven', -⟩ := hex
      cases heq
      exact heven heven'
  · rw [ha]
    refine iff_of_true (Throws.error_iff.mpr he) ?_
    intro hex
    obtain ⟨items, _, _, _, rfl, -⟩ := hex
    exact hk rfl

/-! ### Every other interpretation -/

omit [Platform] in
theorem throws_hmgetReply (size : Nat) (r : Reply) : Throws IsRuntime (Client.hmgetReply size r.toCmdReply) := by
  refine (throws_throwIfError r).bind fun _ _ => throws_asArray_bind fun items _ => ?_
  split
  · exact throws_throw.mpr (by simp)
  · exact throws_mapM_items fun r' _ => throws_optionalString r' _

omit [Platform] in
theorem throws_scriptLoadReply (r : Reply) : Throws IsRuntime (CmdOps.scriptLoadReply r.toCmdReply) := by
  unfold CmdOps.scriptLoadReply
  split
  · exact throws_throw.mpr (by simp)
  · split
    · exact throws_throw.mpr (by simp)
    · next h =>
      cases hs : r.toCmdReply.strValue with
      | none => exact absurd (Or.inr (by simp [hs])) h
      | some text => exact .ok _

omit [Platform] in
theorem throws_evalSha1Reply (sha1 : Bytes) (r : Reply) :
    Throws IsRuntime (CmdOps.noScriptReply sha1 r.toCmdReply >>= Client.evalSha1Reply) := by
  unfold CmdOps.noScriptReply
  split
  · exact throws_throw.mpr (by simp)
  · exact (throws_throwIfError r).bind fun _ _ => .pure _

/-- Outside the scans and the scores, a reply only ever leads to a runtime error. -/
theorem throws_decode {i : Interpretation} (hscan : i ≠ .scan) (hhscan : ∀ out, i ≠ .hscan out)
    (hscores : ∀ c, i ≠ .scores c) (r : Reply) : Throws IsRuntime (i.decode r.toCmdReply) := by
  cases i with
  | scan => exact absurd rfl hscan
  | hscan out => exact absurd rfl (hhscan out)
  | scores c => exact absurd rfl (hscores c)
  | integer c => exact .map (throws_orThrow_bind (throws_asInteger r c))
  | flag c => exact .map ((throws_orThrow_bind (throws_asInteger r c)).bind fun _ _ => .pure _)
  | text c => exact .map (throws_orThrow_bind (throws_asText r c))
  | status c => exact .map (throws_orThrow_bind (throws_asStatus r c))
  | statusOk c => exact .map (throws_orThrow_bind ((throws_asStatus r c).bind fun _ _ => .pure _))
  | set =>
    refine .map (throws_orThrow_bind ?_)
    split
    · exact (throws_asStatus r _).bind fun _ _ => .pure _
    · exact .pure _
  | hset =>
    refine .map (throws_orThrow_bind ?_)
    split
    · exact (throws_asInteger r _).bind fun _ _ => .pure _
    · exact .pure _
  | optionalText c => exact .map (throws_orThrow_bind (throws_optionalString r c))
  | texts c | keys out => exact .map (throws_orThrow_bind (throws_strings r _))
  | hash c => exact .map (throws_orThrow_bind (throws_hash r c))
  | score =>
    refine .map ((throws_orThrow_bind (throws_optionalScore r _)).bind fun score _ => ?_)
    cases score with
    | none => exact throws_throw.mpr (by simp)
    | some d => exact .pure _
  | optionalScore c => exact .map (throws_orThrow_bind (throws_optionalScore r c))
  | entries c => exact .map (throws_orThrow_bind (throws_streamEntries r c))
  | batches c => exact .map (throws_orThrow_bind (throws_streamBatches r c))
  | hmget fields out => exact .map (throws_hmgetReply _ r)
  | scriptLoad => exact .map (throws_scriptLoadReply r)
  | evalSha1 sha1 => exact .map (throws_evalSha1Reply sha1 r)
  | raw => exact .map ((throws_throwIfError r).bind fun _ _ => .pure _)

/-! ### Operations -/

namespace Operation

/-- The replies that make an operation throw an exception from outside the runtime-error family. -/
def Leaks (op : Operation) (reply : Reply) : Prop :=
  match op with
  | .scan .. | .hscan .. => NoCursor reply
  | .zrangeWithscores .. | .zrevrangeWithscores .. => NilScore reply
  | _ => False

/-- Once the operation has received the reply, whatever it throws is derived from `std::runtime_error`. -/
def RuntimeOnly (op : Operation) (reply : Reply) : Prop :=
  ∀ (σ : Type) (E : Executor σ) (s t : σ) (argv : List Bytes), argv ∈ calls op E s →
    (E argv).run s = (.ok reply, t) → ∀ e, ((op.run E).run s).1 = .error e → e.isRuntimeError = true

theorem runtimeOnly_of_throws {op : Operation} {reply : Reply}
    (h : ∀ argv i, op.plan = .send argv i → Throws IsRuntime (i.decode reply.toCmdReply)) : op.RuntimeOnly reply := by
  intro σ E s t argv hargv hrun e he
  obtain ⟨i, hp⟩ := plan_of_mem_calls hargv
  rw [run_of_reply hp hrun] at he
  exact h argv i hp e he

theorem throws_of_runtimeOnly {op : Operation} {reply : Reply} {argv : List Bytes} {i : Interpretation}
    (hp : op.plan = .send argv i) (h : op.RuntimeOnly reply) : Throws IsRuntime (i.decode reply.toCmdReply) := by
  intro e he
  have hargv : argv ∈ calls op (fun _ => (pure reply : Program Exn Unit Reply)) () := by
    rw [calls_eq, hp]
    exact List.mem_singleton_self argv
  refine h Unit (fun _ => pure reply) () () argv hargv rfl e ?_
  rw [run_of_reply (t := ()) hp rfl, he]

/-- A reply leads to runtime errors only, exactly when it is no scan reply whose cursor is not a 64-bit
    number, and no score reply whose first faulty pair has NIL for a score. -/
theorem runtimeOnly_iff (op : Operation) (reply : Reply) : op.RuntimeOnly reply ↔ ¬op.Leaks reply := by
  have of_iff {argv : List Bytes} {i : Interpretation} {P : Prop} (hp : op.plan = .send argv i)
      (hi : Throws IsRuntime (i.decode reply.toCmdReply) ↔ ¬P) : op.RuntimeOnly reply ↔ ¬P := by
    refine ⟨fun h => hi.mp (throws_of_runtimeOnly hp h), fun h => runtimeOnly_of_throws fun argv' i' hp' => ?_⟩
    cases hp.symm.trans hp'
    exact hi.mpr h
  cases op with
  | scan => exact of_iff rfl ((throws_map_iff _ _).trans (throws_scanReply_iff reply))
  | hscan => exact of_iff rfl ((throws_map_iff _ _).trans (throws_hscanReply_iff reply))
  | zrangeWithscores => exact of_iff rfl ((throws_map_iff _ _).trans (throws_scoresReply_iff _ reply))
  | zrevrangeWithscores => exact of_iff rfl ((throws_map_iff _ _).trans (throws_scoresReply_iff _ reply))
  | _ =>
    refine iff_of_true (runtimeOnly_of_throws fun argv i hp => throws_decode ?_ ?_ ?_ reply) id
    · rintro rfl
      obtain ⟨_, _, _, h⟩ := readsWith_of_plan hp
      cases h
    · rintro out rfl
      obtain ⟨_, _, _, _, h⟩ := readsWith_of_plan hp
      cases h
    · rintro c rfl
      rcases readsWith_of_plan hp with ⟨-, _, _, _, h⟩ | ⟨-, _, _, _, h⟩ <;> cases h

omit [Platform] in
/-- A cursor that is no number leaves `scan` as `std::invalid_argument`. -/
theorem not_runtimeOnly_scan :
    ¬@RuntimeOnly referencePlatform (.scan 0 "*" 10) (.array [.string "x", .array []]) := by
  intro h
  have he := h Unit (fun _ => pure (.array [.string "x", .array []])) () () _ (List.mem_singleton_self _) rfl
    (.invalidArgument "Invalid numeric input") rfl
  cases he

end Operation

end Redisdal
