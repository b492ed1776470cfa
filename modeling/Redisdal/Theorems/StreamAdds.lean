import Redisdal.Theorems.Contract
import Redisdal.Theorems.StreamReads

/-! # XADD and XTRIM requests

A reader of `XADD key [NOMKSTREAM] [MAXLEN|MINID [~] threshold [LIMIT n]] id field value ...`, which tells a
threshold `~` from the flag by the number of arguments. Ids are handed on as the caller gives them, so that an id
may read as the option that could stand in its place; every other accepted call reads back. -/

namespace Redisdal

/-! ### The clauses that are sent -/

def strategyWord : StreamTrimStrategy → Bytes
  | .maxlen => "MAXLEN"
  | .minid => "MINID"

def approximateFlag (approximate : Bool) : List Bytes := if approximate then ["~"] else []

def trimClause (trim : StreamTrimOptions) : List Bytes :=
  strategyWord trim.strategy ::
    (approximateFlag trim.approximate ++ trim.threshold :: numberClause "LIMIT" trim.limit)

def nomkstreamFlag (nomkstream : Bool) : List Bytes := if nomkstream then ["NOMKSTREAM"] else []

/-- A trim clause that is sent. -/
structure AcceptedTrim (trim : StreamTrimOptions) : Prop where
  threshold : trim.threshold ≠ []
  nonneg : ∀ n, trim.limit = some n → 0 ≤ n
  approximate : trim.limit.isSome = true → trim.approximate = true

/-- A call of `xadd` that is sent. -/
structure AcceptedAdd (fields : List (Bytes × Bytes)) (options : StreamAddOptions) : Prop where
  fields : fields ≠ []
  id : options.id ≠ []
  trim : ∀ trim, options.trim = some trim → AcceptedTrim trim

/-- What follows the key. -/
def addClauses (fields : List (Bytes × Bytes)) (options : StreamAddOptions) : List Bytes :=
  nomkstreamFlag options.nomkstream ++ ((options.trim.map trimClause).getD [] ++
    options.id :: fields.flatMap fun field => [field.1, field.2])

namespace CmdOps

theorem appendStreamTrim_of_accepted {trim : StreamTrimOptions} (h : AcceptedTrim trim) (args : List Bytes)
    (command : Bytes) : appendStreamTrim args trim command = .ok (args ++ trimClause trim) := by
  unfold appendStreamTrim
  rw [if_neg (by simpa using h.threshold), if_neg (by simpa [Option.any_eq_true] using h.nonneg),
    if_neg (by simpa using h.approximate)]
  obtain ⟨strategy, threshold, approximate, limit⟩ := trim
  refine congrArg Except.ok ?_
  rw [List.append_assoc, List.append_assoc, List.append_assoc, List.append_cancel_left_eq]
  cases strategy <;> cases approximate <;> cases limit <;> rfl

theorem appendStreamTrim_eq_ok_iff {args argv : List Bytes} {trim : StreamTrimOptions} {command : Bytes} :
    appendStreamTrim args trim command = .ok argv ↔ AcceptedTrim trim ∧ argv = args ++ trimClause trim := by
  constructor
  · intro h
    have haccepted : AcceptedTrim trim := by
      unfold appendStreamTrim at h
      split at h
      · cases h
      next hthreshold =>
      split at h
      · cases h
      next hnonneg =>
      split at h
      · cases h
      next happroximate =>
      exact ⟨by simpa using hthreshold, by simpa [Option.any_eq_true] using hnonneg, by simpa using happroximate⟩
    rw [appendStreamTrim_of_accepted haccepted] at h
    exact ⟨haccepted, (Except.ok.inj h).symm⟩
  · intro hand
    rw [appendStreamTrim_of_accepted hand.1, hand.2]

theorem xaddArguments_eq_ok_iff {key : Bytes} {fields : List (Bytes × Bytes)} {options : StreamAddOptions}
    {argv : List Bytes} :
    xaddArguments key fields options = .ok argv ↔
      AcceptedAdd fields options ∧ argv = ("XADD" : Bytes) :: key :: addClauses fields options := by
  unfold xaddArguments
  by_cases hfields : fields = []
  · rw [if_pos (by simp [hfields])]
    exact iff_of_false (fun h => by cases h) fun h => h.1.fields hfields
  rw [if_neg (by simpa using hfields)]
  by_cases hid : options.id = []
  · rw [if_pos (by simp [hid])]
    exact iff_of_false (fun h => by cases h) fun h => h.1.id hid
  rw [if_neg (by simpa using hid)]
  obtain ⟨id, nomkstream, trim⟩ := options
  have hflag : (if nomkstream then ["XADD", key, "NOMKSTREAM"] else ["XADD", key] : List Bytes) =
      (["XADD", key] : List Bytes) ++ nomkstreamFlag nomkstream := by
    cases nomkstream <;> rfl
  simp only [hflag]
  cases trim with
  | none =>
    change Except.ok ((["XADD", key] : List Bytes) ++ nomkstreamFlag nomkstream ++ [id] ++ _) = .ok argv ↔ _
    rw [List.append_assoc, List.append_assoc]
    constructor
    · intro h
      exact ⟨⟨hfields, hid, fun _ htrim => by cases htrim⟩, (Except.ok.inj h).symm⟩
    · intro hand
      rw [hand.2]
      rfl
  | some trim =>
    change (appendStreamTrim ((["XADD", key] : List Bytes) ++ nomkstreamFlag nomkstream) trim "XADD" >>= fun args =>
      pure (args ++ [id] ++ _)) = .ok argv ↔ _
    rw [Except.bind_eq_ok_iff]
    constructor
    · intro hex
      obtain ⟨args, hargs, h⟩ := hex
      obtain ⟨htrim, rfl⟩ := appendStreamTrim_eq_ok_iff.mp hargs
      refine ⟨⟨hfields, hid, fun _ hsome => by cases hsome; exact htrim⟩, ?_⟩
      rw [← Except.ok.inj h, List.append_assoc, List.append_assoc, List.append_assoc]
      rfl
    · intro hand
      refine ⟨_, appendStreamTrim_of_accepted (hand.1.trim trim rfl) _ _, ?_⟩
      rw [hand.2, List.append_assoc, List.append_assoc, List.append_assoc]
      rfl

end CmdOps

/-! ### The reader -/

def readStrategy (word : Bytes) : Option StreamTrimStrategy :=
  if word = "MAXLEN" then some .maxlen else if word = "MINID" then some .minid else none

/-- A limit, and what follows it. -/
def readLimit (args : List Bytes) : Option (Option Int × List Bytes) :=
  match args with
  | word :: number :: rest =>
    if word = "LIMIT" then (readNumber number).map fun n => (some n, rest) else some (none, args)
  | _ => some (none, args)

/-- The threshold and limit of a trim clause, and what follows it. The flag `~` leaves an odd number of arguments
    after the strategy: itself, the threshold, perhaps a limit, the id and the pairs. -/
def readTrim (strategy : StreamTrimStrategy) (args : List Bytes) : Option (StreamTrimOptions × List Bytes) :=
  if args.length % 2 = 0 then
    match args with
    | threshold :: rest => some (⟨strategy, threshold, false, none⟩, rest)
    | [] => none
  else
    match args with
    | _ :: threshold :: rest => (readLimit rest).map fun p => (⟨strategy, threshold, true, p.1⟩, p.2)
    | _ => none

def readTrimClause (args : List Bytes) : Option (Option StreamTrimOptions × List Bytes) :=
  match args with
  | word :: rest =>
    match readStrategy word with
    | some strategy => (readTrim strategy rest).map fun p => (some p.1, p.2)
    | none => some (none, args)
  | [] => none

def readAddOptions (nomkstream : Bool) (args : List Bytes) : Option (List (Bytes × Bytes) × StreamAddOptions) :=
  match readTrimClause args with
  | some (trim, id :: pairs) => some (Reply.twoByTwo pairs, ⟨id, nomkstream, trim⟩)
  | _ => none

/-- What follows the key. -/
def readAdd (args : List Bytes) : Option (List (Bytes × Bytes) × StreamAddOptions) :=
  match args with
  | word :: rest => if word = "NOMKSTREAM" then readAddOptions true rest else readAddOptions false args
  | [] => none

/-- The id is the text of an option that may stand in its place. -/
def IdReadsAsOption (options : StreamAddOptions) : Prop :=
  (options.trim = none ∧ (options.id = "MAXLEN" ∨ options.id = "MINID")) ∨
    (options.trim = none ∧ options.nomkstream = false ∧ options.id = "NOMKSTREAM") ∨
    ((options.trim.any fun trim => trim.approximate && trim.limit.isNone) = true ∧ options.id = "LIMIT")

instance (options : StreamAddOptions) : Decidable (IdReadsAsOption options) :=
  inferInstanceAs (Decidable (_ ∧ _ ∨ _ ∧ _ ∧ _ ∨ _ ∧ _))

theorem readStrategy_strategyWord (strategy : StreamTrimStrategy) :
    readStrategy (strategyWord strategy) = some strategy := by
  cases strategy <;> decide

theorem strategyWord_ne_nomkstream (strategy : StreamTrimStrategy) : strategyWord strategy ≠ "NOMKSTREAM" := by
  cases strategy <;> decide

theorem readStrategy_eq_none {word : Bytes} (h : ¬(word = "MAXLEN" ∨ word = "MINID")) : readStrategy word = none := by
  obtain ⟨hmaxlen, hminid⟩ := not_or.mp h
  unfold readStrategy
  rw [if_neg hmaxlen, if_neg hminid]

theorem readLimit_numberClause {limit : Option Int} (hnonneg : ∀ n, limit = some n → 0 ≤ n) {id : Bytes}
    (hid : limit = none → id ≠ "LIMIT") (x : Bytes) (rest : List Bytes) :
    readLimit (numberClause "LIMIT" limit ++ id :: x :: rest) = some (limit, id :: x :: rest) := by
  cases limit with
  | none => exact if_neg (hid rfl)
  | some n =>
    unfold readLimit numberClause
    rw [Option.map_some, Option.getD_some, List.cons_append, List.cons_append, List.nil_append]
    dsimp only
    rw [if_pos rfl, readNumber_decimalInt (hnonneg n rfl)]
    rfl

/-- A trim clause reads back in front of an id and an even number of arguments. -/
theorem readTrimClause_trimClause {trim : StreamTrimOptions} (h : AcceptedTrim trim) {id : Bytes}
    (hid : trim.approximate = true → trim.limit = none → id ≠ "LIMIT") {x : Bytes} {pairs : List Bytes}
    (hlen : (x :: pairs).length % 2 = 0) :
    readTrimClause (trimClause trim ++ id :: x :: pairs) = some (some trim, id :: x :: pairs) := by
  obtain ⟨strategy, threshold, approximate, limit⟩ := trim
  suffices hread : readTrim strategy (approximateFlag approximate ++ threshold :: numberClause "LIMIT" limit ++
      id :: x :: pairs) = some (⟨strategy, threshold, approximate, limit⟩, id :: x :: pairs) by
    unfold readTrimClause trimClause
    rw [List.cons_append]
    dsimp only
    rw [readStrategy_strategyWord]
    dsimp only
    rw [hread]
    rfl
  have hlimit : (numberClause "LIMIT" limit).length % 2 = 0 := by
    cases limit with
    | none => rfl
    | some n => exact Nat.mod_self 2
  unfold readTrim
  cases approximate with
  | false =>
    have hnone : limit = none := by
      cases limit with
      | none => rfl
      | some n => exact absurd (h.approximate rfl) Bool.false_ne_true
    subst hnone
    rw [if_pos]
    · rfl
    · simp only [approximateFlag, numberClause, Option.map_none, Option.getD_none, Bool.false_eq_true, if_false,
        List.nil_append, List.cons_append, List.length_cons] at hlen ⊢
      omega
  | true =>
    rw [if_neg]
    · change (readLimit (numberClause "LIMIT" limit ++ id :: x :: pairs)).map _ = _
      rw [readLimit_numberClause h.nonneg (hid rfl)]
      rfl
    · simp only [approximateFlag, if_true, List.cons_append, List.nil_append, List.length_cons,
        List.length_append] at hlen ⊢
      omega

/-- Unless its id reads as an option, an accepted call reads back. -/
theorem readAdd_addClauses {fields : List (Bytes × Bytes)} {options : StreamAddOptions}
    (h : AcceptedAdd fields options) (hid : ¬IdReadsAsOption options) :
    readAdd (addClauses fields options) = some (fields, options) := by
  obtain ⟨hword, hflag, hlimit⟩ : _ ∧ _ ∧ _ := ⟨fun hw => hid (Or.inl hw), fun hw => hid (Or.inr (Or.inl hw)),
    fun hw => hid (Or.inr (Or.inr hw))⟩
  obtain ⟨id, nomkstream, trim⟩ := options
  obtain ⟨x, pairs, hpairs⟩ := List.exists_cons_of_ne_nil
    (show (fields.flatMap fun field => [field.1, field.2]) ≠ [] from by
      obtain ⟨field, rest, rfl⟩ := List.exists_cons_of_ne_nil h.fields
      exact List.cons_ne_nil _ _)
  have hlen : (x :: pairs).length % 2 = 0 := by
    rw [← hpairs, Reply.length_flatMap_pair]
    omega
  have hclause :
      readTrimClause ((trim.map trimClause).getD [] ++ id :: x :: pairs) = some (trim, id :: x :: pairs) := by
    cases trim with
    | none =>
      have hnone := readStrategy_eq_none fun hw => hword ⟨rfl, hw⟩
      change (match readStrategy id with | some strategy => _ | none => _) = _
      rw [hnone]
      rfl
    | some trim =>
      exact readTrimClause_trimClause (h.trim trim rfl) (fun happroximate hnone hw =>
        hlimit ⟨by simp [happroximate, hnone], hw⟩) hlen
  have hoptions : readAddOptions nomkstream ((trim.map trimClause).getD [] ++ id :: x :: pairs) =
      some (fields, ⟨id, nomkstream, trim⟩) := by
    unfold readAddOptions
    rw [hclause]
    dsimp only
    rw [← hpairs, Reply.twoByTwo_flatMap]
  unfold addClauses
  rw [hpairs]
  cases nomkstream with
  | true => exact hoptions
  | false =>
    cases trim with
    | none => exact (if_neg fun hw => hflag ⟨rfl, rfl, hw⟩).trans hoptions
    | some trim => exact (if_neg (strategyWord_ne_nomkstream trim.strategy)).trans hoptions

theorem trimClause_injective {trim trim' : StreamTrimOptions} (h : AcceptedTrim trim) (h' : AcceptedTrim trim')
    (heq : trimClause trim = trimClause trim') : trim = trim' := by
  have hread {trim : StreamTrimOptions} (h : AcceptedTrim trim) :
      readTrimClause (trimClause trim ++ (["*", "f", "v"] : List Bytes)) =
        some (some trim, (["*", "f", "v"] : List Bytes)) :=
    readTrimClause_trimClause h (fun _ _ => by decide) rfl
  have hsome := hread h
  rw [heq, hread h'] at hsome
  cases hsome
  rfl

/-! ### The requests -/

/-- A call that adds to a stream or trims it. -/
inductive StreamWriteCall where
  | xadd (key : Bytes) (fields : List (Bytes × Bytes)) (options : StreamAddOptions)
  | xtrim (key : Bytes) (options : StreamTrimOptions)

namespace StreamWriteCall

def run {σ : Type} (E : Executor σ) : StreamWriteCall → Program Exn σ CmdReply
  | xadd key fields options => CmdOps.xadd E key fields options
  | xtrim key options => CmdOps.xtrim E key options

def arguments : StreamWriteCall → Outcome (List Bytes)
  | xadd key fields options => CmdOps.xaddArguments key fields options
  | xtrim key options => CmdOps.appendStreamTrim ["XTRIM", key] options "XTRIM"

/-- The call is accepted and sends this request, and no other. -/
def Sends (call : StreamWriteCall) (argv : List Bytes) : Prop :=
  ∀ (σ : Type) (E : Executor σ) (s : σ), ((call.run (logged E)).run ([], s)).2.1 = [argv]

/-- The call adds an entry whose id reads as an option. -/
def HasOptionId : StreamWriteCall → Prop
  | xadd _ _ options => IdReadsAsOption options
  | xtrim _ _ => False

instance (call : StreamWriteCall) : Decidable call.HasOptionId :=
  match call with
  | xadd _ _ options => inferInstanceAs (Decidable (IdReadsAsOption options))
  | xtrim _ _ => inferInstanceAs (Decidable False)

/-- Two calls that differ and send the same request. -/
def Collide (call call' : StreamWriteCall) : Prop := call ≠ call' ∧ ∃ argv, call.Sends argv ∧ call'.Sends argv

theorem run_eq {σ : Type} (E : Executor σ) (call : StreamWriteCall) :
    call.run E = Program.ofExcept call.arguments >>= CmdOps.cmdExecv E := by
  cases call <;> rfl

theorem sends_iff {call : StreamWriteCall} {argv : List Bytes} : call.Sends argv ↔ call.arguments = .ok argv := by
  constructor
  · intro h
    have hsent := h Unit (fun _ => pure .nil) ()
    rw [run_eq] at hsent
    cases hargs : call.arguments with
    | error e =>
      rw [hargs] at hsent
      cases hsent
    | ok args =>
      rw [hargs] at hsent
      cases hsent
      rfl
  · intro h σ E s
    rw [run_eq, h, Program.ofExcept_ok_bind]
    unfold CmdOps.cmdExecv logged
    rw [Program.run_bind, Program.run_bind, Program.run_modify, Program.resume_ok, Program.run_lift]
    rcases (E argv).run s with ⟨_ | reply, t⟩ <;> rfl

theorem xadd_sends_iff {key : Bytes} {fields : List (Bytes × Bytes)} {options : StreamAddOptions} {argv : List Bytes} :
    (xadd key fields options).Sends argv ↔
      AcceptedAdd fields options ∧ argv = ("XADD" : Bytes) :: key :: addClauses fields options :=
  sends_iff.trans CmdOps.xaddArguments_eq_ok_iff

theorem xtrim_sends_iff {key : Bytes} {options : StreamTrimOptions} {argv : List Bytes} :
    (xtrim key options).Sends argv ↔ AcceptedTrim options ∧ argv = ("XTRIM" : Bytes) :: key :: trimClause options :=
  sends_iff.trans CmdOps.appendStreamTrim_eq_ok_iff

/-- Calls that send the same request are the same call, unless an id among them reads as an option. -/
theorem unambiguous {call call' : StreamWriteCall} {argv : List Bytes} (hid : ¬call.HasOptionId)
    (hid' : ¬call'.HasOptionId) (h : call.Sends argv) (h' : call'.Sends argv) : call = call' := by
  rcases call with ⟨key, fields, options⟩ | ⟨key, trim⟩ <;> rcases call' with ⟨key', fields', options'⟩ | ⟨key', trim'⟩
  · obtain ⟨haccepted, rfl⟩ := xadd_sends_iff.mp h
    obtain ⟨haccepted', heq⟩ := xadd_sends_iff.mp h'
    obtain ⟨hkey, hclauses⟩ := List.cons.inj (List.cons.inj heq).2
    have hread := readAdd_addClauses haccepted hid
    rw [hclauses, readAdd_addClauses haccepted' hid'] at hread
    cases hread
    rw [hkey]
  · obtain ⟨-, rfl⟩ := xadd_sends_iff.mp h
    obtain ⟨-, heq⟩ := xtrim_sends_iff.mp h'
    exact absurd (List.cons.inj heq).1 (by decide)
  · obtain ⟨-, rfl⟩ := xtrim_sends_iff.mp h
    obtain ⟨-, heq⟩ := xadd_sends_iff.mp h'
    exact absurd (List.cons.inj heq).1 (by decide)
  · obtain ⟨haccepted, rfl⟩ := xtrim_sends_iff.mp h
    obtain ⟨haccepted', heq⟩ := xtrim_sends_iff.mp h'
    obtain ⟨hkey, hclauses⟩ := List.cons.inj (List.cons.inj heq).2
    rw [hkey, trimClause_injective haccepted haccepted' hclauses]

/-- The texts of options are read as texts everywhere but in the place of the option. -/
theorem unambiguous_optionTexts :
    xadd "MINID" [("LIMIT", "~")] { id := "MAXLEN", trim := some { threshold := "10", approximate := true } } =
      xadd "MINID" [("LIMIT", "~")]
        { id := "MAXLEN", trim := some { threshold := Bytes.decimal 10, approximate := true } } :=
  have hten : Bytes.decimal 10 = "10" := by decide
  have hsends : (xadd "MINID" [("LIMIT", "~")]
      { id := "MAXLEN", trim := some { threshold := "10", approximate := true } }).Sends
        ["XADD", "MINID", "MAXLEN", "~", "10", "MAXLEN", "LIMIT", "~"] := sends_iff.mpr rfl
  unambiguous (by decide) (hten ▸ by decide) hsends (hten ▸ hsends)

theorem collide_of_id {key key' : Bytes} {fields fields' : List (Bytes × Bytes)} {options options' : StreamAddOptions}
    {argv : List Bytes} (hid : options.id ≠ options'.id) (h : CmdOps.xaddArguments key fields options = .ok argv)
    (h' : CmdOps.xaddArguments key' fields' options' = .ok argv) :
    Collide (xadd key fields options) (xadd key' fields' options') := by
  have hsends : (xadd key fields options).Sends argv := sends_iff.mpr h
  have hsends' : (xadd key' fields' options').Sends argv := sends_iff.mpr h'
  refine ⟨fun heq => ?_, argv, hsends, hsends'⟩
  cases heq
  exact hid rfl

/-- An id may read as a strategy, as NOMKSTREAM and as LIMIT. -/
theorem not_unambiguous :
    Collide (xadd "k" [("10", "*"), ("f", "v")] { id := "MAXLEN" })
        (xadd "k" [("f", "v")] { trim := some { threshold := "10" } }) ∧
      Collide (xadd "k" [("MAXLEN", "~"), ("10", "*"), ("f", "v")] { id := "NOMKSTREAM" })
        (xadd "k" [("f", "v")] { nomkstream := true, trim := some { threshold := "10", approximate := true } }) ∧
      Collide
        (xadd "k" [("5", "*"), ("f", "v")] { id := "LIMIT", trim := some { threshold := "10", approximate := true } })
        (xadd "k" [("f", "v")] { trim := some { threshold := "10", approximate := true, limit := some 5 } }) := by
  refine ⟨collide_of_id (by decide) rfl rfl, collide_of_id (by decide) rfl rfl, collide_of_id (by decide) rfl ?_⟩
  have hfive : Bytes.decimalInt 5 = "5" := by decide
  change Except.ok [("XADD" : Bytes), "k", "MAXLEN", "~", "10", "LIMIT", Bytes.decimalInt 5, "*", "f", "v"] = _
  rw [hfive]
  rfl

end StreamWriteCall

end Redisdal
