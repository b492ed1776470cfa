import Redisdal.CmdOps

/-! # XREAD and XREADGROUP requests

A reader of the two commands, which takes options until the first STREAMS and splits what follows into keys and
ids. It gives back what a call meant, whatever the call's texts look like. -/

namespace Redisdal

/-! ### The reader -/

/-- What a request asks for: the group and consumer of XREADGROUP, the options, and the streams. -/
structure StreamRead where
  group : Option (Bytes × Bytes)
  options : StreamReadGroupOptions
  streams : List (StreamReadRequest Bytes)

/-- The number of an option. -/
def readNumber (text : Bytes) : Option Int :=
  if text ≠ [] ∧ text.all Bytes.isDigit then some (Bytes.natValue text) else none

/-- The options up to the first STREAMS, and what follows it; NOACK is one of XREADGROUP only. -/
def readOptions (grouped : Bool) (options : StreamReadGroupOptions) :
    List Bytes → Option (StreamReadGroupOptions × List Bytes)
  | [] => none
  | word :: rest =>
    if word = "STREAMS" then some (options, rest)
    else if word = "NOACK" then
      if grouped then readOptions grouped { options with noack := true } rest else none
    else
      match rest with
      | [] => none
      | number :: rest =>
        if word = "COUNT" then
          (readNumber number).bind fun n => readOptions grouped { options with count := some n } rest
        else if word = "BLOCK" then
          (readNumber number).bind fun n => readOptions grouped { options with blockMs := some n } rest
        else none

/-- The first half are keys, the second half their ids. -/
def readStreams (args : List Bytes) : Option (List (StreamReadRequest Bytes)) :=
  if args.length % 2 = 0 then
    some (((args.take (args.length / 2)).zip (args.drop (args.length / 2))).map fun p => ⟨p.1, p.2⟩)
  else none

def readBody (group : Option (Bytes × Bytes)) (args : List Bytes) : Option StreamRead :=
  (readOptions group.isSome {} args).bind fun p => (readStreams p.2).map fun streams => ⟨group, p.1, streams⟩

def readStreamRead (argv : List Bytes) : Option StreamRead :=
  match argv with
  | [] => none
  | command :: args =>
    if command = "XREAD" then readBody none args
    else if command = "XREADGROUP" then
      match args with
      | word :: group :: consumer :: args => if word = "GROUP" then readBody (some (group, consumer)) args else none
      | _ => none
    else none

theorem readStreamRead_xread (args : List Bytes) : readStreamRead ("XREAD" :: args) = readBody none args := by
  unfold readStreamRead
  dsimp only
  rw [if_pos rfl]

theorem readStreamRead_xreadgroup (group consumer : Bytes) (args : List Bytes) :
    readStreamRead ("XREADGROUP" :: "GROUP" :: group :: consumer :: args) = readBody (some (group, consumer)) args := by
  unfold readStreamRead
  dsimp only
  rw [if_neg (by decide), if_pos rfl, if_pos rfl]

/-! ### The clauses that are sent -/

/-- A clause of one number. -/
def numberClause (word : Bytes) (n : Option Int) : List Bytes := (n.map fun n => [word, Bytes.decimalInt n]).getD []

def noackClause (noack : Bool) : List Bytes := if noack then ["NOACK"] else []

def streamsClause (streams : List (StreamReadRequest Bytes)) : List Bytes :=
  "STREAMS" :: (streams.map (·.key) ++ streams.map (·.id))

/-- The calls that are sent: some stream, no empty id, a positive count and a time that is not negative. -/
structure AcceptedRead (streams : List (StreamReadRequest Bytes)) (count blockMs : Option Int) : Prop where
  nonempty : streams ≠ []
  ids : ∀ stream ∈ streams, stream.id ≠ []
  count : ∀ n, count = some n → 0 < n
  block : ∀ n, blockMs = some n → 0 ≤ n

namespace CmdOps

theorem appendStreamCount_cases (args : List Bytes) (count : Option Int) (command : Bytes) :
    ((∀ n, count = some n → 0 < n) ∧ appendStreamCount args count command = .ok (args ++ numberClause "COUNT" count)) ∨
      ((¬∀ n, count = some n → 0 < n) ∧
        ∃ what, appendStreamCount args count command = .error (.invalidArgument what)) := by
  cases count with
  | none => exact Or.inl ⟨fun n h => (by cases h), congrArg Except.ok (List.append_nil args).symm⟩
  | some n =>
    by_cases hn : 0 < n
    · exact Or.inl ⟨fun m h => by cases h; exact hn, if_neg (Int.not_le.mpr hn)⟩
    · exact Or.inr ⟨fun h => hn (h n rfl), _, if_pos (Int.not_lt.mp hn)⟩

theorem appendStreamBlock_cases (args : List Bytes) (blockMs : Option Int) (command : Bytes) :
    ((∀ n, blockMs = some n → 0 ≤ n) ∧
        appendStreamBlock args blockMs command = .ok (args ++ numberClause "BLOCK" blockMs)) ∨
      ((¬∀ n, blockMs = some n → 0 ≤ n) ∧
        ∃ what, appendStreamBlock args blockMs command = .error (.invalidArgument what)) := by
  cases blockMs with
  | none => exact Or.inl ⟨fun n h => (by cases h), congrArg Except.ok (List.append_nil args).symm⟩
  | some n =>
    by_cases hn : 0 ≤ n
    · exact Or.inl ⟨fun m h => by cases h; exact hn, if_neg (Int.not_lt.mpr hn)⟩
    · exact Or.inr ⟨fun h => hn (h n rfl), _, if_pos (Int.not_le.mp hn)⟩

theorem appendStreams_cases (args : List Bytes) (streams : List (StreamReadRequest Bytes)) (command : Bytes) :
    ((streams ≠ [] ∧ ∀ stream ∈ streams, stream.id ≠ []) ∧
        appendStreams args streams command = .ok (args ++ streamsClause streams)) ∨
      ((¬(streams ≠ [] ∧ ∀ stream ∈ streams, stream.id ≠ [])) ∧
        ∃ what, appendStreams args streams command = .error (.invalidArgument what)) := by
  unfold appendStreams
  by_cases hne : streams = []
  · exact Or.inr ⟨fun h => h.1 hne, _, if_pos (by simpa using hne)⟩
  rw [if_neg (by simpa using hne)]
  by_cases hids : ∀ stream ∈ streams, stream.id ≠ []
  · refine Or.inl ⟨⟨hne, hids⟩, ?_⟩
    rw [if_neg (by simpa using hids), List.append_assoc, List.append_assoc]
    rfl
  · exact Or.inr ⟨fun h => hids h.2, _, if_pos (by simpa using hids)⟩

/-- The arguments of a read: all clauses one after the other, unless one of them is rejected. -/
theorem streamArguments_cases (pre : List Bytes) (streams : List (StreamReadRequest Bytes))
    (options : StreamReadGroupOptions) (command : Bytes) :
    let arguments : Outcome (List Bytes) := do
      let args ← appendStreamCount pre options.count command
      let args ← appendStreamBlock args options.blockMs command
      let args := if options.noack then args ++ (["NOACK"] : List Bytes) else args
      appendStreams args streams command
    (AcceptedRead streams options.count options.blockMs ∧
        arguments = .ok (pre ++ (numberClause "COUNT" options.count ++ (numberClause "BLOCK" options.blockMs ++
          (noackClause options.noack ++ streamsClause streams))))) ∨
      (¬AcceptedRead streams options.count options.blockMs ∧ ∃ what, arguments = .error (.invalidArgument what)) := by
  intro arguments
  rcases appendStreamCount_cases pre options.count command with ⟨hcount, h⟩ | ⟨hcount, what, h⟩
  case inr => exact Or.inr ⟨fun ha => hcount ha.count, what, by simp only [arguments, h]; rfl⟩
  rcases appendStreamBlock_cases (pre ++ numberClause "COUNT" options.count) options.blockMs command with
    ⟨hblock, h'⟩ | ⟨hblock, what, h'⟩
  case inr => exact Or.inr ⟨fun ha => hblock ha.block, what, by simp only [arguments, h, Except.ok_bind, h']; rfl⟩
  have hnoack (args : List Bytes) :
      (if options.noack then args ++ (["NOACK"] : List Bytes) else args) = args ++ noackClause options.noack := by
    unfold noackClause
    split
    · rfl
    · rw [List.append_nil]
  have harguments : arguments = appendStreams (pre ++ numberClause "COUNT" options.count ++
      numberClause "BLOCK" options.blockMs ++ noackClause options.noack) streams command := by
    simp only [arguments, h, h', Except.ok_bind, hnoack]
  rw [harguments]
  rcases appendStreams_cases (pre ++ numberClause "COUNT" options.count ++ numberClause "BLOCK" options.blockMs ++
      noackClause options.noack) streams command with ⟨⟨hne, hids⟩, hs⟩ | ⟨hstreams, what, hs⟩
  · exact Or.inl ⟨⟨hne, hids, hcount, hblock⟩, by rw [hs]; simp only [List.append_assoc]⟩
  · exact Or.inr ⟨fun ha => hstreams ⟨ha.nonempty, ha.ids⟩, what, hs⟩

end CmdOps

/-! ### Reading the clauses -/

theorem readNumber_decimalInt {n : Int} (h : 0 ≤ n) : readNumber (Bytes.decimalInt n) = some n := by
  have hdigits := Bytes.digitString_decimal n.natAbs
  unfold Bytes.decimalInt readNumber
  rw [if_neg (Int.not_lt.mpr h), if_pos ⟨hdigits.nonempty, List.all_eq_true.mpr hdigits.digits⟩,
    Bytes.natValue_decimal, Int.natAbs_of_nonneg h]

section Options
variable (grouped : Bool) (options : StreamReadGroupOptions) (rest : List Bytes)

theorem readOptions_streams (streams : List (StreamReadRequest Bytes)) :
    readOptions grouped options (streamsClause streams) =
      some (options, streams.map (·.key) ++ streams.map (·.id)) := by
  unfold streamsClause readOptions
  rw [if_pos rfl]

theorem readOptions_noack {noack : Bool} (hnoack : noack = true → grouped = true) (hoptions : options.noack = false) :
    readOptions grouped options (noackClause noack ++ rest) =
      readOptions grouped { options with noack := noack } rest := by
  cases noack with
  | false =>
    obtain ⟨count, blockMs, noack⟩ := options
    cases hoptions
    rfl
  | true =>
    show readOptions grouped options ("NOACK" :: rest) = _
    rw [readOptions.eq_def]
    dsimp only
    rw [if_neg (by decide), if_pos rfl, if_pos (hnoack rfl)]

theorem readOptions_block {blockMs : Option Int} (hblock : ∀ n, blockMs = some n → 0 ≤ n)
    (hoptions : options.blockMs = none) :
    readOptions grouped options (numberClause "BLOCK" blockMs ++ rest) =
      readOptions grouped { options with blockMs := blockMs } rest := by
  cases blockMs with
  | none =>
    obtain ⟨count, blockMs, noack⟩ := options
    cases hoptions
    rfl
  | some n =>
    show readOptions grouped options ("BLOCK" :: Bytes.decimalInt n :: rest) = _
    rw [readOptions.eq_def]
    dsimp only
    rw [if_neg (by decide), if_neg (by decide), if_neg (by decide), if_pos rfl, readNumber_decimalInt (hblock n rfl)]
    rfl

theorem readOptions_count {count : Option Int} (hcount : ∀ n, count = some n → 0 < n)
    (hoptions : options.count = none) :
    readOptions grouped options (numberClause "COUNT" count ++ rest) =
      readOptions grouped { options with count := count } rest := by
  cases count with
  | none =>
    obtain ⟨count, blockMs, noack⟩ := options
    cases hoptions
    rfl
  | some n =>
    show readOptions grouped options ("COUNT" :: Bytes.decimalInt n :: rest) = _
    rw [readOptions.eq_def]
    dsimp only
    rw [if_neg (by decide), if_neg (by decide), if_pos rfl, readNumber_decimalInt (Int.le_of_lt (hcount n rfl))]
    rfl

end Options

theorem readStreams_halves (streams : List (StreamReadRequest Bytes)) :
    readStreams (streams.map (·.key) ++ streams.map (·.id)) = some streams := by
  have hlen : (streams.map (·.key) ++ streams.map (·.id)).length = 2 * streams.length := by
    rw [List.length_append, List.length_map, List.length_map, Nat.two_mul]
  have hhalf : (streams.map (·.key) ++ streams.map (·.id)).length / 2 = (streams.map (·.key)).length := by
    rw [hlen, List.length_map]
    omega
  unfold readStreams
  rw [if_pos (by omega), hhalf, List.take_left, List.drop_left, List.zip_map', List.map_map]
  exact congrArg some (List.map_id streams)

theorem readBody_clauses {group : Option (Bytes × Bytes)} {options : StreamReadGroupOptions}
    {streams : List (StreamReadRequest Bytes)} (h : AcceptedRead streams options.count options.blockMs)
    (hnoack : options.noack = true → group.isSome = true) :
    readBody group (numberClause "COUNT" options.count ++ (numberClause "BLOCK" options.blockMs ++
        (noackClause options.noack ++ streamsClause streams))) = some ⟨group, options, streams⟩ := by
  unfold readBody
  rw [readOptions_count _ _ _ h.count rfl, readOptions_block _ _ _ h.block rfl, readOptions_noack _ _ _ hnoack rfl,
    readOptions_streams, Option.bind_some, readStreams_halves]
  rfl

/-! ### The requests -/

/-- A call that reads streams. -/
inductive StreamReadCall where
  | xread (streams : List (StreamReadRequest Bytes)) (options : StreamReadOptions)
  | xreadgroup (group consumer : Bytes) (streams : List (StreamReadRequest Bytes)) (options : StreamReadGroupOptions)

namespace StreamReadCall

def run {σ : Type} (E : Executor σ) : StreamReadCall → Program Exn σ CmdReply
  | xread streams options => CmdOps.xread E streams options
  | xreadgroup group consumer streams options => CmdOps.xreadgroup E group consumer streams options

/-- What the call asks for. -/
def meaning : StreamReadCall → StreamRead
  | xread streams options => ⟨none, ⟨options.count, options.blockMs, false⟩, streams⟩
  | xreadgroup group consumer streams options => ⟨some (group, consumer), options, streams⟩

def Accepted (call : StreamReadCall) : Prop :=
  AcceptedRead call.meaning.streams call.meaning.options.count call.meaning.options.blockMs

def arguments : StreamReadCall → Outcome (List Bytes)
  | xread streams options => CmdOps.xreadArguments streams options
  | xreadgroup group consumer streams options => CmdOps.xreadgroupArguments group consumer streams options

theorem run_eq {σ : Type} (E : Executor σ) (call : StreamReadCall) :
    call.run E = Program.ofExcept call.arguments >>= CmdOps.cmdExecv E := by
  cases call <;> rfl

theorem arguments_cases (call : StreamReadCall) :
    (call.Accepted ∧ ∃ argv, call.arguments = .ok argv ∧ readStreamRead argv = some call.meaning) ∨
      (¬call.Accepted ∧ ∃ what, call.arguments = .error (.invalidArgument what)) := by
  cases call with
  | xread streams options =>
    rcases CmdOps.streamArguments_cases ["XREAD"] streams ⟨options.count, options.blockMs, false⟩ "XREAD" with
      ⟨haccepted, hargs⟩ | hrejected
    · refine Or.inl ⟨haccepted, _, hargs, ?_⟩
      rw [List.singleton_append, readStreamRead_xread]
      exact readBody_clauses haccepted fun h => by cases h
    · exact Or.inr hrejected
  | xreadgroup group consumer streams options =>
    rcases CmdOps.streamArguments_cases ["XREADGROUP", "GROUP", group, consumer] streams options "XREADGROUP" with
      ⟨haccepted, hargs⟩ | hrejected
    · refine Or.inl ⟨haccepted, _, hargs, ?_⟩
      exact (readStreamRead_xreadgroup group consumer _).trans (readBody_clauses haccepted fun _ => rfl)
    · exact Or.inr hrejected

/-- An accepted call sends one request, which reads as what the call asks for; any other call is rejected with
    `std::invalid_argument` and sends nothing. -/
theorem uniquely_decodable {σ : Type} (E : Executor σ) (call : StreamReadCall) :
    (call.Accepted → ∃ argv, call.run E = CmdOps.cmdExecv E argv ∧ readStreamRead argv = some call.meaning) ∧
      (¬call.Accepted → ∃ what, call.run E = Program.throw (.invalidArgument what)) := by
  rw [run_eq]
  rcases call.arguments_cases with ⟨haccepted, argv, hargs, hread⟩ | ⟨hrejected, what, hargs⟩
  · exact ⟨fun _ => ⟨argv, by rw [hargs, Program.ofExcept_ok_bind], hread⟩, fun hnot => absurd haccepted hnot⟩
  · refine ⟨fun haccepted => absurd haccepted hrejected, fun _ => ⟨what, ?_⟩⟩
    rw [hargs, Program.ofExcept_error, Program.throw_bind]

end StreamReadCall

end Redisdal
