import Redisdal.Lib.ConsumerLog
import Redisdal.Theorems.Commands
import Redisdal.Theorems.Scores

/-! # What the stream commands do

Commands on one stream, as a server reads them and carries them out. An entry is the number that its id stands for,
with fields of any type, so that the same commands are carried out on encoded and on typed entries. -/

namespace Redisdal

/-! ### Texts and numbers -/

/-- A number as the two parts of an id. -/
def StreamId.text (n : Nat) : Bytes := Bytes.decimal (n / 2 ^ 64) ++ Bytes.ofChar '-' :: Bytes.decimal (n % 2 ^ 64)

/-- The greatest id. -/
def StreamId.last : Nat := 2 ^ 128 - 1

/-- How a server reads the texts that it is sent: scores, and ids of streams. -/
class ServerTexts extends ServerScores where
  /-- The number of an id, with what stands for a second part that is missing. -/
  readId : Nat → Bytes → Option Nat
  /-- The id of an entry that is added now, after the last one. -/
  nextId : Int → Nat → Nat

def IsLongLong (n : Int) : Prop := -2 ^ 63 ≤ n ∧ n < 2 ^ 63

instance (n : Int) : Decidable (IsLongLong n) := inferInstanceAs (Decidable (_ ∧ _))

/-- An integer that a `long long` holds. -/
def readLongLong (text : Bytes) : Option Int := (readInteger text).filter fun n => decide (IsLongLong n)

/-! ### Streams -/

abbrev StreamLog (F : Type) : Type := ConsumerLog Bytes Bytes F

/-- How a stream is trimmed: to a number of entries, or to the entries from an id on. -/
inductive StreamTrim where
  | length (size : Nat)
  | below (n : Nat)

/-- What a command on one stream asks for. -/
inductive StreamAction (F : Type) where
  | add (fields : F) (id : Option Nat) (nomkstream : Bool) (trim : Option StreamTrim)
  | length
  | range (start stop : Option Nat) (reversed : Bool) (count : Option Nat)
  | delete (ids : List Bytes)
  | trim (trim : StreamTrim)
  | createGroup (group id : Bytes) (mkstream : Bool)
  | setId (group id : Bytes)
  | destroyGroup (group : Bytes)
  | createConsumer (group consumer : Bytes)
  | deleteConsumer (group consumer : Bytes)
  | acknowledge (group : Bytes) (ids : List Bytes)

/-- What it answers, unless it fails. -/
inductive StreamAnswer (F : Type) where
  | ok
  | id (n : Option Nat)
  | count (n : Nat)
  | entries (entries : List (Nat × F))

namespace StreamError

def invalidId : Bytes := "ERR Invalid stream ID specified as stream command argument"

def zeroId : Bytes := "ERR The ID specified in XADD must be greater than 0-0"

def smallId : Bytes := "ERR The ID specified in XADD is equal or smaller than the target stream top item"

def invalidStart : Bytes := "ERR invalid start ID for the interval"

def invalidEnd : Bytes := "ERR invalid end ID for the interval"

def notANumber : Bytes := "ERR value is not an integer or out of range"

def negativeLength : Bytes := "ERR The MAXLEN argument must be >= 0."

def noKey : Bytes := "ERR The XGROUP subcommand requires the key to exist."

def noGroup : Bytes := "NOGROUP No such key or consumer group"

def busyGroup : Bytes := "BUSYGROUP Consumer Group name already exists"

def onlyGroup : Bytes := "ERR The > ID can be specified only when calling XREADGROUP"

def noDollar : Bytes := "ERR The $ ID is meaningless in the context of XREADGROUP"

end StreamError

/-! ### Reading the arguments -/

namespace StreamAction
variable [ServerTexts] {F F' : Type}

/-- The threshold of a trim. -/
def readTrim (options : StreamTrimOptions) : Except Bytes StreamTrim :=
  match options.strategy with
  | .maxlen =>
    match readLongLong options.threshold with
    | none => .error StreamError.notANumber
    | some n => if n < 0 then .error StreamError.negativeLength else .ok (.length n.toNat)
  | .minid => (ServerTexts.readId 0 options.threshold).elim (.error StreamError.invalidId) fun n => .ok (.below n)

/-- The id of a new entry, none if the server is to choose it. -/
def readNewId (id : Bytes) : Except Bytes (Option Nat) :=
  if id = "*" then .ok none
  else match ServerTexts.readId 0 id with
    | none => .error StreamError.invalidId
    | some 0 => .error StreamError.zeroId
    | some n => .ok (some n)

def xadd (fields : F) (options : StreamAddOptions) : Except Bytes (StreamAction F) := do
  let trim ← options.trim.mapM readTrim
  let id ← readNewId options.id
  pure (.add fields id options.nomkstream trim)

def xtrim (options : StreamTrimOptions) : Except Bytes (StreamAction F) := (readTrim options).map .trim

/-- One end of a range: its id and whether it is left out; no id is the end of all streams. -/
def readEnd (missing : Nat) (id : Bytes) : Except Bytes (Option Nat × Bool) :=
  if id = "-" then .ok (some 0, false)
  else if id = "+" then .ok (none, false)
  else if id.head? = some (Bytes.ofChar '(') then
    (ServerTexts.readId missing id.tail).elim (.error StreamError.invalidId) fun n => .ok (some n, true)
  else (ServerTexts.readId missing id).elim (.error StreamError.invalidId) fun n => .ok (some n, false)

/-- The first id of a range. -/
def readStart (id : Bytes) : Except Bytes (Option Nat) := do
  let e ← readEnd 0 id
  if e.2 then
    if e.1 = some StreamId.last then .error StreamError.invalidStart else .ok (e.1.map (· + 1))
  else .ok e.1

/-- The last id of a range. -/
def readStop (id : Bytes) : Except Bytes (Option Nat) := do
  let e ← readEnd (2 ^ 64 - 1) id
  if e.2 then
    if e.1 = some 0 then .error StreamError.invalidEnd else .ok (e.1.map (· - 1))
  else .ok e.1

def xrange (start stop : Bytes) (reversed : Bool) (count : Option Int) : Except Bytes (StreamAction F) := do
  let start ← readStart start
  let stop ← readStop stop
  pure (.range start stop reversed (count.map Int.toNat))

/-! ### Carrying it out -/

end StreamAction

def StreamTrim.apply {F : Type} (log : StreamLog F) : StreamTrim → Nat × StreamLog F
  | length size => log.trimLength size
  | below n => log.trimBelow n

namespace StreamAction
variable [ServerTexts] {F F' : Type}

/-- A command on a group of a stream that must exist. -/
def onGroup (stream : Option (StreamLog F)) (group : Bytes)
    (f : StreamLog F → ConsumerGroup Bytes → Except Bytes (StreamAnswer F) × StreamLog F) :
    Except Bytes (StreamAnswer F) × Option (StreamLog F) :=
  match stream with
  | none => (.error StreamError.noKey, none)
  | some log => match log.groups group with
    | none => (.error StreamError.noGroup, some log)
    | some cg => ((f log cg).1, some (f log cg).2)

/-- Where a group starts: at the end of the stream, or after an id. -/
def readGroupId (last : Nat) (id : Bytes) : Option Nat := if id = "$" then some last else ServerTexts.readId 0 id

/-- What a command does to the stream under a key, if there is one. -/
def run (now : Int) (stream : Option (StreamLog F)) :
    StreamAction F → Except Bytes (StreamAnswer F) × Option (StreamLog F)
  | .add fields id nomkstream trimming =>
    if nomkstream = true ∧ stream.isNone = true then (.ok (.id none), stream)
    else
      let log := stream.getD .empty
      let n := id.getD (ServerTexts.nextId now log.last)
      if h : log.last < n then
        (.ok (.id (some n)), some (trimming.elim (log.push n h fields) fun t => (t.apply (log.push n h fields)).2))
      else (.error StreamError.smallId, stream)
  | .length => (.ok (.count (stream.elim 0 (·.entries.length))), stream)
  | .range start stop reversed count =>
    let found := (stream.getD .empty).entries.filter fun e => start.any (· ≤ e.1) && stop.all (e.1 ≤ ·)
    (.ok (.entries ((if reversed then found.reverse else found).upTo count)), stream)
  | .delete ids =>
    match stream with
    | none => (.ok (.count 0), none)
    | some log => match ids.mapM (ServerTexts.readId 0) with
      | none => (.error StreamError.invalidId, some log)
      | some ns => (.ok (.count (log.eraseAll ns).1), some (log.eraseAll ns).2)
  | .trim t =>
    match stream with
    | none => (.ok (.count 0), none)
    | some log => (.ok (.count (t.apply log).1), some (t.apply log).2)
  | .createGroup group id mkstream =>
    if stream.isNone = true ∧ mkstream = false then (.error StreamError.noKey, stream)
    else
      let log := stream.getD .empty
      match readGroupId log.last id with
      | none => (.error StreamError.invalidId, stream)
      | some n =>
        if (log.groups group).isSome = true then (.error StreamError.busyGroup, stream)
        else (.ok .ok, some (log.setGroup group (some (.start n))))
  | .setId group id => onGroup stream group fun log cg =>
    match readGroupId log.last id with
    | none => (.error StreamError.invalidId, log)
    | some n => (.ok .ok, log.setGroup group (some { cg with last := n }))
  | .destroyGroup group =>
    match stream with
    | none => (.error StreamError.noKey, none)
    | some log =>
      (.ok (.count (if (log.groups group).isSome then 1 else 0)), some (log.setGroup group none))
  | .createConsumer group consumer => onGroup stream group fun log cg =>
    (.ok (.count (if consumer ∈ cg.consumers then 0 else 1)), log.setGroup group (some (cg.meet consumer)))
  | .deleteConsumer group consumer => onGroup stream group fun log cg =>
    (.ok (.count (log.dismiss group cg consumer).1), (log.dismiss group cg consumer).2)
  | .acknowledge group ids =>
    match stream with
    | none => (.ok (.count 0), none)
    | some log => match log.groups group with
      | none => (.ok (.count 0), some log)
      | some cg => match ids.mapM (ServerTexts.readId 0) with
        | none => (.error StreamError.invalidId, some log)
        | some ns => (.ok (.count (log.acknowledge group cg ns).1), some (log.acknowledge group cg ns).2)

/-- The answers that a command may give. -/
def Gives : StreamAction F → StreamAnswer F → Prop
  | add .., .id _ | length, .count _ | range .., .entries _ | delete _, .count _ | trim _, .count _
  | createGroup .., .ok | setId .., .ok | deleteConsumer .., .count _ | acknowledge .., .count _ => True
  | destroyGroup _, .count n | createConsumer .., .count n => n ≤ 1
  | _, _ => False

omit [ServerTexts] in
theorem exists_of_onGroup {stream : Option (StreamLog F)} {group : Bytes} {answer : StreamAnswer F}
    {f : StreamLog F → ConsumerGroup Bytes → Except Bytes (StreamAnswer F) × StreamLog F}
    (h : (onGroup stream group f).1 = .ok answer) : ∃ log cg, (f log cg).1 = .ok answer := by
  unfold onGroup at h
  split at h
  · cases h
  · split at h
    · cases h
    · exact ⟨_, _, h⟩

theorem run_gives {now : Int} {stream : Option (StreamLog F)} {a : StreamAction F} {answer : StreamAnswer F}
    (h : (a.run now stream).1 = .ok answer) : a.Gives answer := by
  cases a with
  | add fields id nomkstream trimming =>
    unfold run at h
    dsimp only at h
    split at h
    · cases h
      trivial
    · split at h <;> cases h
      trivial
  | length | range =>
    cases h
    trivial
  | delete ids =>
    unfold run at h
    dsimp only at h
    split at h
    · cases h
      trivial
    · split at h <;> cases h
      trivial
  | trim t =>
    unfold run at h
    dsimp only at h
    split at h <;> cases h <;> trivial
  | createGroup group id mkstream =>
    unfold run at h
    dsimp only at h
    split at h
    · cases h
    · split at h
      · cases h
      · split at h <;> cases h
        trivial
  | setId group id =>
    obtain ⟨log, cg, h⟩ := exists_of_onGroup h
    split at h <;> cases h
    trivial
  | destroyGroup group =>
    unfold run at h
    dsimp only at h
    split at h
    · cases h
    · cases h
      show (if _ then 1 else 0) ≤ 1
      split <;> omega
  | createConsumer group consumer =>
    obtain ⟨log, cg, h⟩ := exists_of_onGroup h
    cases h
    show (if _ then 0 else 1) ≤ 1
    split <;> omega
  | deleteConsumer group consumer =>
    obtain ⟨log, cg, h⟩ := exists_of_onGroup h
    cases h
    trivial
  | acknowledge group ids =>
    unfold run at h
    dsimp only at h
    split at h
    · cases h
      trivial
    · split at h
      · cases h
        trivial
      · split at h <;> cases h
        trivial

/-! ### Other fields -/

end StreamAction

def StreamAnswer.map {F F' : Type} (h : F → F') : StreamAnswer F → StreamAnswer F'
  | ok => ok
  | id n => id n
  | count n => count n
  | entries l => entries (l.map fun e => (e.1, h e.2))

namespace StreamAction
variable [ServerTexts] {F F' : Type}

def map (h : F → F') : StreamAction F → StreamAction F'
  | add fields id nomkstream trimming => add (h fields) id nomkstream trimming
  | length => length
  | range start stop reversed count => range start stop reversed count
  | delete ids => delete ids
  | trim t => trim t
  | createGroup group id mkstream => createGroup group id mkstream
  | setId group id => setId group id
  | destroyGroup group => destroyGroup group
  | createConsumer group consumer => createConsumer group consumer
  | deleteConsumer group consumer => deleteConsumer group consumer
  | acknowledge group ids => acknowledge group ids

section Map
variable (h : F → F')

theorem xadd_map (fields : F) (options : StreamAddOptions) :
    xadd (h fields) options = (xadd fields options).map (map h) := by
  unfold xadd
  cases options.trim.mapM readTrim with
  | error message => rfl
  | ok trimming => cases readNewId options.id <;> rfl

theorem xtrim_map (options : StreamTrimOptions) : (xtrim options : Except Bytes (StreamAction F')) =
    (xtrim options).map (map h) := by
  unfold xtrim
  cases readTrim options <;> rfl

theorem xrange_map (start stop : Bytes) (reversed : Bool) (count : Option Int) :
    (xrange start stop reversed count : Except Bytes (StreamAction F')) =
      (xrange start stop reversed count).map (map h) := by
  unfold xrange
  cases readStart start with
  | error message => rfl
  | ok first => cases readStop stop <;> rfl

/-- A result of a command, with other fields. -/
def mapResult (p : Except Bytes (StreamAnswer F) × Option (StreamLog F)) :
    Except Bytes (StreamAnswer F') × Option (StreamLog F') :=
  (p.1.map (StreamAnswer.map h), p.2.map (·.map h))

omit [ServerTexts] in
theorem apply_map (log : StreamLog F) (t : StreamTrim) :
    t.apply (log.map h) = ((t.apply log).1, (t.apply log).2.map h) := by
  cases t with
  | length size => exact log.trimLength_map h size
  | below n => exact log.trimBelow_map h n

omit [ServerTexts] in
theorem onGroup_map (stream : Option (StreamLog F)) (group : Bytes)
    {f : StreamLog F → ConsumerGroup Bytes → Except Bytes (StreamAnswer F) × StreamLog F}
    {f' : StreamLog F' → ConsumerGroup Bytes → Except Bytes (StreamAnswer F') × StreamLog F'}
    (hf : ∀ log cg, f' (log.map h) cg = ((f log cg).1.map (StreamAnswer.map h), (f log cg).2.map h)) :
    onGroup (stream.map (·.map h)) group f' = mapResult h (onGroup stream group f) := by
  cases stream with
  | none => rfl
  | some log =>
    unfold onGroup
    rw [Option.map_some]
    dsimp only
    rw [ConsumerLog.groups_map]
    cases log.groups group with
    | none => rfl
    | some cg =>
      dsimp only
      rw [hf]
      rfl

omit [ServerTexts] in
theorem getD_map (stream : Option (StreamLog F)) :
    (stream.map (·.map h)).getD .empty = (stream.getD .empty).map h := by
  cases stream <;> rfl

/-- A command does the same whatever the fields are. -/
theorem run_map (now : Int) (stream : Option (StreamLog F)) (a : StreamAction F) :
    (a.map h).run now (stream.map (·.map h)) = mapResult h (a.run now stream) := by
  cases a with
  | add fields id nomkstream trimming =>
    unfold map run
    rw [Option.isNone_map, getD_map]
    dsimp only
    by_cases hnone : nomkstream = true ∧ stream.isNone = true
    · rw [if_pos hnone, if_pos hnone]
      rfl
    · rw [if_neg hnone, if_neg hnone]
      by_cases hlast : (stream.getD .empty).last < id.getD (ServerTexts.nextId now (stream.getD .empty).last)
      · refine (dif_pos hlast).trans ?_
        rw [dif_pos hlast]
        cases trimming with
        | none => exact congrArg (fun log => (_, some log)) (ConsumerLog.push_map _ h hlast fields).symm
        | some t =>
          rw [Option.elim_some, Option.elim_some]
          have happly := apply_map h ((stream.getD .empty).push _ hlast fields) t
          rw [ConsumerLog.push_map] at happly
          exact congrArg (fun p => (_, some p.2)) happly
      · refine (dif_neg hlast).trans ?_
        rw [dif_neg hlast]
        rfl
  | length =>
    cases stream with
    | none => rfl
    | some log =>
      unfold map run
      rw [Option.map_some, Option.elim_some, ConsumerLog.entries_map, List.length_map]
      rfl
  | range start stop reversed count =>
    unfold map run
    dsimp only
    rw [getD_map, ConsumerLog.entries_map, List.filter_map]
    unfold mapResult StreamAnswer.map Except.map
    dsimp only
    rw [List.map_upTo]
    cases reversed with
    | false => rfl
    | true =>
      rw [if_pos rfl, if_pos rfl, List.map_reverse]
      rfl
  | delete ids =>
    cases stream with
    | none => rfl
    | some log =>
      unfold map run
      rw [Option.map_some]
      dsimp only
      cases ids.mapM (ServerTexts.readId 0) with
      | none => rfl
      | some ns =>
        dsimp only
        rw [ConsumerLog.eraseAll_map]
        rfl
  | trim t =>
    cases stream with
    | none => rfl
    | some log =>
      unfold map run
      rw [Option.map_some]
      dsimp only
      rw [apply_map]
      rfl
  | createGroup group id mkstream =>
    unfold map run
    rw [Option.isNone_map, getD_map]
    dsimp only
    by_cases hnone : stream.isNone = true ∧ mkstream = false
    · rw [if_pos hnone, if_pos hnone]
      rfl
    · rw [if_neg hnone, if_neg hnone, ConsumerLog.last_map, ConsumerLog.groups_map]
      cases readGroupId (stream.getD .empty).last id with
      | none => rfl
      | some n =>
        dsimp only
        split <;> rfl
  | setId group id =>
    refine onGroup_map h stream group fun log cg => ?_
    rw [ConsumerLog.last_map]
    cases readGroupId log.last id <;> rfl
  | destroyGroup group => cases stream <;> rfl
  | createConsumer group consumer => exact onGroup_map h stream group fun log cg => rfl
  | deleteConsumer group consumer =>
    refine onGroup_map h stream group fun log cg => ?_
    rw [ConsumerLog.dismiss_map]
    rfl
  | acknowledge group ids =>
    cases stream with
    | none => rfl
    | some log =>
      unfold map run
      rw [Option.map_some]
      dsimp only
      rw [ConsumerLog.groups_map]
      cases log.groups group with
      | none => rfl
      | some cg =>
        dsimp only
        cases ids.mapM (ServerTexts.readId 0) with
        | none => rfl
        | some ns =>
          dsimp only
          rw [ConsumerLog.acknowledge_map]
          rfl

end Map

end StreamAction

/-! ### Reading several streams -/

namespace StreamReading
variable [ServerTexts] {F F' : Type}

/-- Where a read of one stream starts, for a group if there is one. -/
def start (group : Option Bytes) (id : Bytes) (stream : Option (StreamLog F)) : Except Bytes ReadFrom :=
  if (group.any fun group => (stream.bind (·.groups group)).isNone) = true then .error StreamError.noGroup
  else if id = ">" then
    if group.isSome = true then .ok .new else .error StreamError.onlyGroup
  else if id = "$" then
    if group.isSome = true then .error StreamError.noDollar else .ok (.after (stream.elim 0 (·.last)))
  else (ServerTexts.readId 0 id).elim (.error StreamError.invalidId) fun n => .ok (.after n)

/-- Read one stream, as a consumer of a group or for everybody. -/
def read (reader : Option (Bytes × Bytes)) (limit : Option Nat) (track : Bool) (start : ReadFrom)
    (stream : Option (StreamLog F)) : Option (List (Nat × Option F)) × Option (StreamLog F) :=
  match stream, reader, start with
  | some log, some (group, consumer), start =>
    match log.groups group with
    | some cg =>
      ((log.readGroup group cg consumer start limit track).1,
        some (log.readGroup group cg consumer start limit track).2)
    | none => (none, some log)
  | some log, none, .after n =>
    (if log.newer n limit = [] then none else some ((log.newer n limit).map fun e => (e.1, some e.2)), some log)
  | stream, _, _ => (none, stream)

variable (h : F → F')

theorem start_map (group : Option Bytes) (id : Bytes) (stream : Option (StreamLog F)) :
    start group id (stream.map (·.map h)) = start group id stream := by
  cases stream <;> rfl

omit [ServerTexts] in
theorem read_map (reader : Option (Bytes × Bytes)) (limit : Option Nat) (track : Bool) (start : ReadFrom)
    (stream : Option (StreamLog F)) : read reader limit track start (stream.map (·.map h)) =
      ((read reader limit track start stream).1.map (List.map fun e => (e.1, e.2.map h)),
        (read reader limit track start stream).2.map (·.map h)) := by
  cases stream with
  | none => rfl
  | some log =>
    cases reader with
    | none =>
      cases start with
      | new => rfl
      | after n =>
        unfold read
        rw [Option.map_some]
        dsimp only
        rw [ConsumerLog.newer_map]
        cases log.newer n limit with
        | nil => rfl
        | cons e l =>
          rw [if_neg (by simp), if_neg (by simp), Option.map_some, List.map_map, List.map_map]
          rfl
    | some reader =>
      unfold read
      rw [Option.map_some]
      dsimp only
      rw [ConsumerLog.groups_map]
      cases log.groups reader.1 with
      | none => rfl
      | some cg =>
        dsimp only
        rw [ConsumerLog.readGroup_map]
        rfl

end StreamReading

end Redisdal
