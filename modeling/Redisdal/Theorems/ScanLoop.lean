import Redisdal.HashOperations
import Redisdal.Theorems.Numbers
import Redisdal.Theorems.Replies
import Redisdal.Theorems.Requests

/-! # Scan loops

A loop drives HSCAN through the pages of a server, each time with the cursor that the page before it
returned and with the same map. The string client accumulates the pages in the map; the typed facade keeps
the last page. -/

namespace Redisdal

/-- One page of an HSCAN. -/
structure ScanPage where
  cursor : UInt64
  fields : List (Bytes × Bytes)

/-- The page as the server sends it. -/
def ScanPage.reply (page : ScanPage) : Reply :=
  .array [.string (Bytes.decimal page.cursor.toNat), .array (Reply.flatPairs page.fields)]

/-- A server that answers the commands with the pages, in order. -/
def pageServer : Executor (List ScanPage) := fun _ => ⟨fun pages =>
  match pages with
  | [] => (.error (.foreign 0), [])
  | page :: rest => (.ok page.reply, rest)⟩

/-- Run `hscan` from `cursor` for as many rounds, feeding back each returned cursor. -/
def scanLoop {τ : Type} (hscan : UInt64 → Program Exn τ UInt64) : Nat → UInt64 → Program Exn τ (List UInt64)
  | 0, _ => pure []
  | rounds + 1, cursor => do
    let next ← hscan cursor
    let later ← scanLoop hscan rounds next
    pure (next :: later)

variable [Platform]

/-- The loop over `redis_client::hscan`. -/
def clientLoop (key pattern : Bytes) (count : UInt32) : Nat → UInt64 →
    Program Exn (UnorderedMap Bytes Bytes × List ScanPage) (List UInt64) :=
  scanLoop fun cursor => Client.hscan pageServer key cursor pattern count

/-- The loop over `ops_for_hash().hscan` of a `string_redis_template`. -/
def typedLoop (key pattern : Bytes) (count : UInt32) : Nat → UInt64 →
    Program Exn (UnorderedMap Bytes Bytes × List ScanPage) (List UInt64) :=
  scanLoop fun cursor => HashOperations.hscan stringTemplate pageServer key cursor pattern count

/-! ### One page -/

omit [Platform] in
theorem scanPage_reply (c : Bytes) (page : ScanPage) :
    Client.scanPage c page.reply.toCmdReply =
      .ok (page.cursor, (Reply.array (Reply.flatPairs page.fields)).toCmdReply) := by
  unfold ScanPage.reply
  rw [Reply.scanPage_two, Reply.asArray_array, Except.ok_bind, Reply.asString_string, Except.ok_bind,
    integralFromString_decimal, Except.ok_bind]
  show Except.ok (UInt64.ofInt page.cursor.toNat, _) = _
  rw [ofInt_toNat]

theorem hscanReply_reply (page : ScanPage) :
    Client.hscanReply page.reply.toCmdReply = .ok (page.cursor, UnorderedMap.emplaceAll ∅ page.fields) := by
  unfold Client.hscanReply
  rw [scanPage_reply, Except.ok_bind]
  dsimp only
  rw [Reply.hash_flatPairs]
  rfl

/-- The string client adds the fields of the page that the map does not have. -/
theorem run_client_hscan (key pattern : Bytes) (cursor : UInt64) (count : UInt32) (m : UnorderedMap Bytes Bytes)
    (page : ScanPage) (pages : List ScanPage) :
    ∃ m' : UnorderedMap Bytes Bytes,
      (Client.hscan pageServer key cursor pattern count).run (m, page :: pages) = (.ok page.cursor, (m', pages)) ∧
        ∀ field, AList.lookup field m' = (AList.lookup field m).or (UnorderedMap.firstValue page.fields field) := by
  refine ⟨m.emplaceAll (visit (UnorderedMap.emplaceAll ∅ page.fields)), ?_, fun field => ?_⟩
  · unfold Client.hscan CmdOps.hscan CmdOps.cmdExecv
    simp only [Program.run_bind, Program.run_lift, Program.run_decode]
    show Program.resume _ (Client.hscanReply page.reply.toCmdReply, (m, pages)) = _
    rw [hscanReply_reply]
    rfl
  · rw [UnorderedMap.lookup_emplaceAll_first, firstValue_visit, UnorderedMap.lookup_emplaceAll_first,
      AList.lookup_empty, Option.none_or]

theorem fieldAndValue_string (pair : Bytes × Bytes) : HashOperations.fieldAndValue stringTemplate pair = .ok pair :=
  bothArguments_ok pair.1 pair.2

/-- The typed facade replaces the map by the fields of the page. -/
theorem run_typed_hscan (key pattern : Bytes) (cursor : UInt64) (count : UInt32) (m : UnorderedMap Bytes Bytes)
    (page : ScanPage) (pages : List ScanPage) :
    ∃ m' : UnorderedMap Bytes Bytes,
      (HashOperations.hscan stringTemplate pageServer key cursor pattern count).run (m, page :: pages) =
          (.ok page.cursor, (m', pages)) ∧
        ∀ field, AList.lookup field m' = UnorderedMap.firstValue page.fields field := by
  obtain ⟨found, hfound, hlookup⟩ := run_client_hscan key pattern cursor count ∅ page pages
  refine ⟨UnorderedMap.emplaceAll ∅ (visit found), ?_, fun field => ?_⟩
  · have hargs : HashOperations.keyAndField stringTemplate key pattern = .ok (key, pattern) :=
      bothArguments_ok key pattern
    unfold HashOperations.hscan
    rw [hargs, Program.ofExcept_ok_bind, Program.run_bind, Program.run_lift, Program.run_withLocal,
      hfound]
    have hloop := Program.run_forM_decode_fst (HashOperations.fieldAndValue stringTemplate)
      (fun (e : Bytes × Bytes) (m : UnorderedMap Bytes Bytes) => m.emplace e.1 e.2) (visit found) ∅ pages
    rw [Program.decodePrefix_map (g := id) fun pair _ => fieldAndValue_string pair, List.map_id] at hloop
    exact congrArg (Program.resume fun _ =>
      (pure page.cursor : Program Exn (UnorderedMap Bytes Bytes × List ScanPage) UInt64)) hloop
  · rw [UnorderedMap.lookup_emplaceAll_first, firstValue_visit, AList.lookup_empty, Option.none_or, hlookup,
      AList.lookup_empty, Option.none_or]

/-! ### All pages -/

/-- The loop over the string client returns the cursors of the pages and accumulates their fields. -/
theorem run_clientLoop (key pattern : Bytes) (count : UInt32) (pages : List ScanPage) (cursor : UInt64)
    (m : UnorderedMap Bytes Bytes) :
    ∃ m' : UnorderedMap Bytes Bytes,
      (clientLoop key pattern count pages.length cursor).run (m, pages) = (.ok (pages.map (·.cursor)), (m', [])) ∧
        ∀ field, AList.lookup field m' =
          (AList.lookup field m).or (UnorderedMap.firstValue (pages.flatMap (·.fields)) field) := by
  induction pages generalizing cursor m with
  | nil => exact ⟨m, rfl, fun field => by simp [UnorderedMap.firstValue]⟩
  | cons page pages ih =>
    obtain ⟨m₁, hpage, h₁⟩ := run_client_hscan key pattern cursor count m page pages
    obtain ⟨m₂, hloop, h₂⟩ := ih page.cursor m₁
    refine ⟨m₂, ?_, fun field => ?_⟩
    · show Program.resume _ ((Client.hscan pageServer key cursor pattern count).run (m, page :: pages)) = _
      rw [hpage, Program.resume_ok]
      show Program.resume _ ((clientLoop key pattern count pages.length page.cursor).run (m₁, pages)) = _
      rw [hloop]
      rfl
    · rw [h₂, h₁, List.flatMap_cons, UnorderedMap.firstValue_append, Option.or_assoc]

/-- The loop over the typed facade returns the same cursors and keeps the last page only. -/
theorem run_typedLoop (key pattern : Bytes) (count : UInt32) (pages : List ScanPage) (cursor : UInt64)
    (m : UnorderedMap Bytes Bytes) :
    ∃ m' : UnorderedMap Bytes Bytes,
      (typedLoop key pattern count pages.length cursor).run (m, pages) = (.ok (pages.map (·.cursor)), (m', [])) ∧
        ∀ field, AList.lookup field m' = match pages.getLast? with
          | none => AList.lookup field m
          | some last => UnorderedMap.firstValue last.fields field := by
  induction pages generalizing cursor m with
  | nil => exact ⟨m, rfl, fun _ => rfl⟩
  | cons page pages ih =>
    obtain ⟨m₁, hpage, h₁⟩ := run_typed_hscan key pattern cursor count m page pages
    obtain ⟨m₂, hloop, h₂⟩ := ih page.cursor m₁
    refine ⟨m₂, ?_, fun field => ?_⟩
    · show Program.resume _ ((HashOperations.hscan stringTemplate pageServer key cursor pattern count).run
        (m, page :: pages)) = _
      rw [hpage, Program.resume_ok]
      show Program.resume _ ((typedLoop key pattern count pages.length page.cursor).run (m₁, pages)) = _
      rw [hloop]
      rfl
    · rw [h₂, List.getLast?_cons]
      cases pages.getLast? with
      | none => exact h₁ field
      | some last => rfl

/-- What a scan loop should make of the map: the entries it had and the fields of the pages, of which the
    first value seen is kept. -/
def accumulated (m : UnorderedMap Bytes Bytes) (pages : List ScanPage) (field : Bytes) : Option Bytes :=
  (AList.lookup field m).or (UnorderedMap.firstValue (pages.flatMap (·.fields)) field)

/-- Both loops return the cursors of the pages and accumulate their fields. -/
structure LoopsAgree (key pattern : Bytes) (count : UInt32) (cursor : UInt64) (m : UnorderedMap Bytes Bytes)
    (pages : List ScanPage) : Prop where
  typed_cursors : ((typedLoop key pattern count pages.length cursor).run (m, pages)).1 = .ok (pages.map (·.cursor))
  client_cursors : ((clientLoop key pattern count pages.length cursor).run (m, pages)).1 = .ok (pages.map (·.cursor))
  typed_map : ∀ field, AList.lookup field ((typedLoop key pattern count pages.length cursor).run (m, pages)).2.1 =
    accumulated m pages field
  client_map : ∀ field, AList.lookup field ((clientLoop key pattern count pages.length cursor).run (m, pages)).2.1 =
    accumulated m pages field

/-- The two loops agree exactly when there is no page, or the last page alone has what the map held and what
    every page brought. -/
theorem loopsAgree_iff (key pattern : Bytes) (count : UInt32) (cursor : UInt64) (m : UnorderedMap Bytes Bytes)
    (pages : List ScanPage) :
    LoopsAgree key pattern count cursor m pages ↔
      ∀ last, pages.getLast? = some last →
        ∀ field, UnorderedMap.firstValue last.fields field = accumulated m pages field := by
  obtain ⟨mt, htyped, ht⟩ := run_typedLoop key pattern count pages cursor m
  obtain ⟨mc, hclient, hc⟩ := run_clientLoop key pattern count pages cursor m
  constructor
  · intro h last hlast field
    have := h.typed_map field
    rw [htyped] at this
    rw [← this, ht, hlast]
  · intro h
    refine ⟨by rw [htyped], by rw [hclient], fun field => ?_, fun field => ?_⟩
    · rw [htyped, ht]
      cases hlast : pages.getLast? with
      | none =>
        rw [List.getLast?_eq_none_iff.mp hlast]
        simp [accumulated, UnorderedMap.firstValue]
      | some last => exact h last hlast field
    · rw [hclient]
      exact hc field

omit [Platform] in
/-- A field of the first of two pages is gone after the loop over the typed facade. -/
theorem not_loopsAgree : ¬@LoopsAgree referencePlatform "hash" "*" 10 0 ∅ [⟨7, [("a", "1")]⟩, ⟨0, [("b", "2")]⟩] := by
  intro h
  have hmap := @LoopsAgree.typed_map referencePlatform _ _ _ _ _ _ h "a"
  exact absurd hmap (by decide)

end Redisdal
