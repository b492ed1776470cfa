import Mathlib.Data.List.Basic
import Mathlib.Logic.Function.Basic

/-! # Logs that groups of consumers share

A log of numbered entries. A deleted entry keeps its place, without its content. Each group hands out the entries of
the log in their order, one consumer or another at a time, and remembers who has an entry until it is acknowledged.
All of this commutes with a change of the contents (`ConsumerLog.map`). -/

/-- How far a group has come, the consumers that it knows, and who has what was handed out. -/
structure ConsumerGroup (C : Type) where
  last : Nat
  consumers : List C
  holder : Nat → Option C

namespace ConsumerGroup
variable {C : Type} (cg : ConsumerGroup C)

def start (last : Nat) : ConsumerGroup C := ⟨last, [], fun _ => none⟩

variable [DecidableEq C]

def meet (c : C) : ConsumerGroup C :=
  { cg with consumers := if c ∈ cg.consumers then cg.consumers else c :: cg.consumers }

def give (c : C) (ns : List Nat) : ConsumerGroup C :=
  { cg with holder := fun n => if n ∈ ns then some c else cg.holder n }

/-- Hand out entries, after which the group has come as far as the last of them; unless it keeps track, it does not
    remember to whom. -/
def take {F : Type} (c : C) (track : Bool) (entries : List (Nat × F)) : ConsumerGroup C :=
  let moved := { cg.meet c with last := (entries.getLast?.map Prod.fst).getD cg.last }
  if track then moved.give c (entries.map Prod.fst) else moved

omit [DecidableEq C] in
def release (ns : List Nat) : ConsumerGroup C := { cg with holder := fun n => if n ∈ ns then none else cg.holder n }

def dismiss (c : C) : ConsumerGroup C :=
  { cg with consumers := cg.consumers.filter (· ≠ c), holder := fun n => (cg.holder n).filter (· ≠ c) }

theorem last_take {F : Type} (c : C) (track : Bool) (entries : List (Nat × F)) :
    (cg.take c track entries).last = (entries.getLast?.map Prod.fst).getD cg.last := by
  cases track <;> rfl

theorem holder_take {F : Type} (c : C) (track : Bool) (entries : List (Nat × F)) (n : Nat) :
    (cg.take c track entries).holder n =
      if track = true ∧ n ∈ entries.map Prod.fst then some c else cg.holder n := by
  cases track with
  | false => rfl
  | true =>
    show (if n ∈ entries.map Prod.fst then some c else cg.holder n) = _
    simp only [true_and]

theorem take_map {F F' : Type} (h : F → F') (c : C) (track : Bool) (entries : List (Nat × F)) :
    cg.take c track (entries.map (Prod.map id h)) = cg.take c track entries := by
  have hnumbers : (entries.map (Prod.map id h)).map Prod.fst = entries.map Prod.fst := by
    rw [List.map_map]
    rfl
  unfold take
  rw [hnumbers, List.getLast?_map, Option.map_map]
  rfl

end ConsumerGroup

/-- A log of numbered entries, with groups under names. -/
@[ext] structure ConsumerLog (G C F : Type) where
  slots : List (Nat × Option F)
  last : Nat
  groups : G → Option (ConsumerGroup C)
  sorted : slots.Pairwise fun e e' => e.1 < e'.1
  bounded : ∀ e ∈ slots, e.1 ≤ last

/-- Where a read starts: at what a group has not handed out yet, or after an entry. -/
inductive ReadFrom where
  | new
  | after (n : Nat)

/-- The first elements, all of them without a limit. -/
def List.upTo {α : Type} (limit : Option Nat) (l : List α) : List α := limit.elim l l.take

theorem List.upTo_prefix {α : Type} (limit : Option Nat) (l : List α) : l.upTo limit <+: l := by
  cases limit with
  | none => exact List.prefix_refl l
  | some n => exact List.take_prefix n l

theorem List.map_upTo {α β : Type} (f : α → β) (limit : Option Nat) (l : List α) :
    (l.upTo limit).map f = (l.map f).upTo limit := by
  cases limit with
  | none => rfl
  | some n => exact List.map_take

namespace ConsumerLog
variable {G C F F' : Type} (log : ConsumerLog G C F)

def empty : ConsumerLog G C F := ⟨[], 0, fun _ => none, .nil, fun _ h => by cases h⟩

/-- The entries that are not deleted. -/
def entries : List (Nat × F) := log.slots.filterMap fun e => e.2.map (e.1, ·)

def push (n : Nat) (h : log.last < n) (f : F) : ConsumerLog G C F where
  slots := log.slots ++ [(n, some f)]
  last := n
  groups := log.groups
  sorted := List.pairwise_append.mpr ⟨log.sorted, List.pairwise_singleton _ _, fun e he e' he' => by
    rw [List.mem_singleton.mp he']
    exact Nat.lt_of_le_of_lt (log.bounded e he) h⟩
  bounded := List.forall_mem_append.mpr
    ⟨fun e he => Nat.le_of_lt (Nat.lt_of_le_of_lt (log.bounded e he) h), List.forall_mem_singleton.mpr (Nat.le_refl n)⟩

def erase (ns : List Nat) : ConsumerLog G C F where
  slots := log.slots.map fun e => (e.1, if e.1 ∈ ns then none else e.2)
  last := log.last
  groups := log.groups
  sorted := List.pairwise_map.mpr log.sorted
  bounded := List.forall_mem_map.mpr log.bounded

/-- Erase entries, and count those that were there. -/
def eraseAll (ns : List Nat) : Nat × ConsumerLog G C F := ((log.entries.filter (·.1 ∈ ns)).length, log.erase ns)

/-- Leave the last entries only. -/
def trimLength (length : Nat) : Nat × ConsumerLog G C F :=
  log.eraseAll ((log.entries.take (log.entries.length - length)).map Prod.fst)

/-- Leave the entries from a number on. -/
def trimBelow (n : Nat) : Nat × ConsumerLog G C F := log.eraseAll ((log.entries.filter (·.1 < n)).map Prod.fst)

/-- The first entries after a number. -/
def newer (n : Nat) (limit : Option Nat) : List (Nat × F) := (log.entries.filter (n < ·.1)).upTo limit

/-! ### Groups -/

section Groups
variable [DecidableEq G]

def setGroup (g : G) (cg : Option (ConsumerGroup C)) : ConsumerLog G C F :=
  { log with groups := Function.update log.groups g cg }

variable [DecidableEq C] (g : G) (cg : ConsumerGroup C) (c : C)

/-- Hand out what the group has not handed out yet. -/
def handOut (limit : Option Nat) (track : Bool) : List (Nat × F) × ConsumerLog G C F :=
  (log.newer cg.last limit, log.setGroup g (some (cg.take c track (log.newer cg.last limit))))

/-- What a consumer has after a number: an entry that is deleted has no content. -/
def history (n : Nat) (limit : Option Nat) : List (Nat × Option F) :=
  (log.slots.filter fun e => n < e.1 ∧ cg.holder e.1 = some c).upTo limit

/-- A read by a consumer. Without anything new there is no answer. -/
def readGroup (start : ReadFrom) (limit : Option Nat) (track : Bool) :
    Option (List (Nat × Option F)) × ConsumerLog G C F :=
  match start with
  | .new =>
    let p := log.handOut g cg c limit track
    (if p.1 = [] then none else some (p.1.map fun e => (e.1, some e.2)), p.2)
  | .after n => (some (log.history cg c n limit), log.setGroup g (some (cg.meet c)))

/-- Acknowledge entries, and count those that somebody had. -/
def acknowledge (ns : List Nat) : Nat × ConsumerLog G C F :=
  ((log.slots.filter fun e => e.1 ∈ ns ∧ (cg.holder e.1).isSome).length, log.setGroup g (some (cg.release ns)))

/-- Forget a consumer, and count what it had. -/
def dismiss : Nat × ConsumerLog G C F :=
  ((log.slots.filter fun e => cg.holder e.1 = some c).length, log.setGroup g (some (cg.dismiss c)))

end Groups

/-! ### Other contents -/

def map (h : F → F') : ConsumerLog G C F' where
  slots := log.slots.map fun e => (e.1, e.2.map h)
  last := log.last
  groups := log.groups
  sorted := List.pairwise_map.mpr log.sorted
  bounded := List.forall_mem_map.mpr log.bounded

section Map
variable (h : F → F')

@[simp] theorem last_map : (log.map h).last = log.last := rfl

@[simp] theorem groups_map : (log.map h).groups = log.groups := rfl

theorem entries_map : (log.map h).entries = log.entries.map (Prod.map id h) := by
  unfold entries map
  rw [List.filterMap_map, List.map_filterMap]
  refine List.filterMap_congr fun e _ => ?_
  show (e.2.map h).map _ = (e.2.map _).map _
  rw [Option.map_map, Option.map_map]
  rfl

theorem length_filter_entries_map (p : Nat → Bool) :
    ((log.map h).entries.filter fun e => p e.1).length = (log.entries.filter fun e => p e.1).length := by
  rw [entries_map, List.filter_map, List.length_map]
  rfl

theorem push_map {n : Nat} (hn : log.last < n) (f : F) : (log.push n hn f).map h = (log.map h).push n hn (h f) :=
  ConsumerLog.ext (List.map_append ..) rfl rfl

theorem erase_map (ns : List Nat) : (log.erase ns).map h = (log.map h).erase ns := by
  refine ConsumerLog.ext ?_ rfl rfl
  show (log.slots.map _).map _ = (log.slots.map _).map _
  rw [List.map_map, List.map_map]
  refine List.map_congr_left fun e _ => ?_
  show (e.1, (if e.1 ∈ ns then none else e.2).map h) = (e.1, if e.1 ∈ ns then none else e.2.map h)
  split <;> rfl

theorem eraseAll_map (ns : List Nat) :
    (log.map h).eraseAll ns = ((log.eraseAll ns).1, (log.eraseAll ns).2.map h) :=
  Prod.ext (length_filter_entries_map log h fun n => decide (n ∈ ns)) (erase_map log h ns).symm

theorem map_fst_entries_map : (log.map h).entries.map Prod.fst = log.entries.map Prod.fst := by
  rw [entries_map, List.map_map]
  rfl

theorem trimLength_map (length : Nat) :
    (log.map h).trimLength length = ((log.trimLength length).1, (log.trimLength length).2.map h) := by
  unfold trimLength
  rw [← eraseAll_map, List.map_take, List.map_take, map_fst_entries_map, entries_map, List.length_map]

theorem trimBelow_map (n : Nat) : (log.map h).trimBelow n = ((log.trimBelow n).1, (log.trimBelow n).2.map h) := by
  unfold trimBelow
  rw [← eraseAll_map, entries_map, List.filter_map, List.map_map]
  rfl

theorem newer_map (n : Nat) (limit : Option Nat) :
    (log.map h).newer n limit = (log.newer n limit).map (Prod.map id h) := by
  unfold newer
  rw [entries_map, List.filter_map, List.map_upTo]
  rfl

section Groups
variable [DecidableEq G] [DecidableEq C] (g : G) (cg : ConsumerGroup C) (c : C)

theorem handOut_map (limit : Option Nat) (track : Bool) :
    (log.map h).handOut g cg c limit track =
      ((log.handOut g cg c limit track).1.map (Prod.map id h), (log.handOut g cg c limit track).2.map h) := by
  unfold handOut
  rw [newer_map, ConsumerGroup.take_map]
  rfl

omit [DecidableEq G] in
theorem history_map (n : Nat) (limit : Option Nat) :
    (log.map h).history cg c n limit = (log.history cg c n limit).map (Prod.map id (Option.map h)) := by
  unfold history map
  rw [List.map_upTo, List.filter_map]
  rfl

theorem readGroup_map (start : ReadFrom) (limit : Option Nat) (track : Bool) :
    (log.map h).readGroup g cg c start limit track =
      ((log.readGroup g cg c start limit track).1.map (List.map (Prod.map id (Option.map h))),
        (log.readGroup g cg c start limit track).2.map h) := by
  cases start with
  | new =>
    unfold readGroup
    rw [handOut_map]
    dsimp only
    cases (log.handOut g cg c limit track).1 with
    | nil => rfl
    | cons e taken =>
      rw [if_neg (by simp), if_neg (by simp), Option.map_some, List.map_map, List.map_map]
      rfl
  | after n => exact Prod.ext (congrArg some (history_map log h cg c n limit)) rfl

omit [DecidableEq G] [DecidableEq C] in
theorem length_filter_slots_map (p : Nat → Bool) :
    ((log.map h).slots.filter fun e => p e.1).length = (log.slots.filter fun e => p e.1).length := by
  unfold map
  rw [List.filter_map, List.length_map]
  rfl

omit [DecidableEq C] in
theorem acknowledge_map (ns : List Nat) :
    (log.map h).acknowledge g cg ns = ((log.acknowledge g cg ns).1, (log.acknowledge g cg ns).2.map h) :=
  Prod.ext (length_filter_slots_map log h fun n => decide (n ∈ ns ∧ (cg.holder n).isSome = true)) rfl

theorem dismiss_map : (log.map h).dismiss g cg c = ((log.dismiss g cg c).1, (log.dismiss g cg c).2.map h) :=
  Prod.ext (length_filter_slots_map log h fun n => decide (cg.holder n = some c)) rfl

end Groups

end Map

end ConsumerLog
