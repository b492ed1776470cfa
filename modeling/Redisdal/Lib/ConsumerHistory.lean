import Mathlib.Data.List.Sort
import Redisdal.Lib.ConsumerLog

/-! # What a group hands out

The history of a log, as one of its groups sees it. Whatever order its events come in, the entries that the group
hands out are those added, in their order and none of them twice, and what it has for a consumer is what it handed
out to this one and nobody has acknowledged since. -/

/-- What happens to a log, as one of its groups sees it. -/
inductive LogEvent (C F : Type) where
  | added (n : Nat) (content : F)
  | taken (c : C) (track : Bool) (entries : List (Nat × F))
  | acknowledged (ns : List Nat)
  | erased (ns : List Nat)
  | other

namespace LogEvent
variable {C F : Type}

def adds : LogEvent C F → List (Nat × F)
  | added n content => [(n, content)]
  | _ => []

def takes : LogEvent C F → List (Nat × F)
  | taken _ _ entries => entries
  | _ => []

/-- What has been added, in order. -/
def addedEntries (events : List (LogEvent C F)) : List (Nat × F) := events.flatMap adds

/-- What the group has handed out, in order. -/
def takenEntries (events : List (LogEvent C F)) : List (Nat × F) := events.flatMap takes

variable [DecidableEq C] (c : C)

/-- What a consumer has after an event: an entry that is erased keeps its number only. -/
def pendingAfter (pending : List (Nat × Option F)) : LogEvent C F → List (Nat × Option F)
  | taken c' track entries =>
    if c' = c ∧ track = true then pending ++ entries.map (fun e => (e.1, some e.2)) else pending
  | acknowledged ns => pending.filter fun e => e.1 ∉ ns
  | erased ns => pending.map fun e => (e.1, if e.1 ∈ ns then none else e.2)
  | _ => pending

/-- What the group has handed out to a consumer, and nobody has acknowledged. -/
def pending (events : List (LogEvent C F)) : List (Nat × Option F) := events.foldl (pendingAfter c) []

omit [DecidableEq C] in
theorem addedEntries_append (events : List (LogEvent C F)) (event : LogEvent C F) :
    addedEntries (events ++ [event]) = addedEntries events ++ event.adds := by
  unfold addedEntries
  rw [List.flatMap_append, List.flatMap_singleton]

omit [DecidableEq C] in
theorem takenEntries_append (events : List (LogEvent C F)) (event : LogEvent C F) :
    takenEntries (events ++ [event]) = takenEntries events ++ event.takes := by
  unfold takenEntries
  rw [List.flatMap_append, List.flatMap_singleton]

theorem pendingAfter_taken_self (pending : List (Nat × Option F)) (entries : List (Nat × F)) :
    pendingAfter c pending (.taken c true entries) = pending ++ entries.map fun e => (e.1, some e.2) :=
  if_pos ⟨rfl, rfl⟩

theorem pendingAfter_taken_of_not {c' : C} {track : Bool} (h : ¬(c' = c ∧ track = true))
    (pending : List (Nat × Option F)) (entries : List (Nat × F)) :
    pendingAfter c pending (.taken c' track entries) = pending :=
  if_neg h

theorem pending_append (events : List (LogEvent C F)) (event : LogEvent C F) :
    pending c (events ++ [event]) = pendingAfter c (pending c events) event := by
  unfold pending
  rw [List.foldl_append, List.foldl_cons, List.foldl_nil]

end LogEvent

namespace ConsumerLog
variable {G C F : Type}

/-! ### Entries -/

section Entries
variable (log : ConsumerLog G C F)

theorem mem_entries {e : Nat × F} : e ∈ log.entries ↔ (e.1, some e.2) ∈ log.slots := by
  unfold entries
  rw [List.mem_filterMap]
  constructor
  · rintro ⟨⟨n, content⟩, hmem, he⟩
    obtain ⟨f, rfl, rfl⟩ := Option.map_eq_some_iff.mp he
    exact hmem
  · exact fun hmem => ⟨_, hmem, rfl⟩

theorem sorted_entries : log.entries.Pairwise fun e e' => e.1 < e'.1 := by
  refine List.Pairwise.filterMap _ (fun e e' hlt f hf f' hf' => ?_) log.sorted
  obtain ⟨a, -, rfl⟩ := Option.map_eq_some_iff.mp hf
  obtain ⟨a', -, rfl⟩ := Option.map_eq_some_iff.mp hf'
  exact hlt

theorem entries_push {n : Nat} (h : log.last < n) (f : F) : (log.push n h f).entries = log.entries ++ [(n, f)] :=
  List.filterMap_append

theorem entries_erase (ns : List Nat) : (log.erase ns).entries = log.entries.filter fun e => e.1 ∉ ns := by
  unfold entries erase
  rw [List.filterMap_map, List.filter_filterMap]
  refine List.filterMap_congr fun e _ => ?_
  show (if e.1 ∈ ns then none else e.2).map _ = (e.2.map _).filter _
  split
  · next hmem => cases e.2 <;> simp [Option.filter_some, hmem]
  · next hmem => cases e.2 <;> simp [Option.filter_some, hmem]

/-- Numbers of entries are numbers of one entry each. -/
theorem eq_of_fst_eq {e e' : Nat × Option F} (he : e ∈ log.slots) (he' : e' ∈ log.slots) (h : e.1 = e'.1) : e = e' := by
  have hnodup : (log.slots.map Prod.fst).Nodup := List.pairwise_map.mpr (log.sorted.imp Nat.ne_of_lt)
  exact List.inj_on_of_nodup_map hnodup he he' h

theorem mem_newer {n : Nat} {e : Nat × F} : e ∈ log.newer n none ↔ (e.1, some e.2) ∈ log.slots ∧ n < e.1 := by
  show e ∈ log.entries.filter _ ↔ _
  rw [List.mem_filter, mem_entries, decide_eq_true_eq]

theorem sorted_newer (n : Nat) : (log.newer n none).Pairwise fun e e' => e.1 < e'.1 := log.sorted_entries.filter _

theorem newer_push {n m : Nat} (h : log.last < n) (hm : m ≤ log.last) (f : F) :
    (log.push n h f).newer m none = log.newer m none ++ [(n, f)] := by
  show (log.push n h f).entries.filter _ = _
  rw [entries_push, List.filter_append]
  refine congrArg (log.entries.filter _ ++ ·) (List.filter_eq_self.mpr fun e he => ?_)
  rw [List.mem_singleton.mp he]
  exact decide_eq_true (Nat.lt_of_le_of_lt hm h)

theorem newer_erase_sublist (ns : List Nat) (n : Nat) : ((log.erase ns).newer n none).Sublist (log.newer n none) := by
  show ((log.erase ns).entries.filter _).Sublist _
  rw [entries_erase]
  exact List.Sublist.filter _ List.filter_sublist

/-- What follows the last of the first entries. -/
theorem newer_of_append {n : Nat} {taken rest : List (Nat × F)} (h : log.newer n none = taken ++ rest) :
    log.newer ((taken.getLast?.map Prod.fst).getD n) none = rest := by
  rcases List.eq_nil_or_concat taken with rfl | ⟨front, e, rfl⟩
  · exact h
  · have hsorted := log.sorted_newer n
    rw [h, List.concat_eq_append, List.append_assoc, List.singleton_append, List.pairwise_append,
      List.pairwise_cons] at hsorted
    obtain ⟨-, ⟨hrest, -⟩, hfront⟩ := hsorted
    have he : n < e.1 := (log.mem_newer.mp (h ▸ by simp : e ∈ log.newer n none)).2
    have hnewer : log.newer e.1 none = (log.newer n none).filter fun e' => e.1 < e'.1 := by
      show log.entries.filter _ = (log.entries.filter _).filter _
      rw [List.filter_filter]
      refine List.filter_congr fun e' _ => ?_
      rw [← Bool.decide_and, decide_eq_decide]
      omega
    rw [List.concat_eq_append, List.getLast?_append, List.getLast?_singleton, Option.some_or, Option.map_some,
      Option.getD_some, hnewer, h, List.concat_eq_append, List.append_assoc, List.filter_append, List.singleton_append,
      List.filter_cons_of_neg (by simp), List.filter_eq_self.mpr fun e' he' => decide_eq_true (hrest e' he'),
      List.filter_eq_nil_iff.mpr fun e' he' => ?_, List.nil_append]
    have hlt := hfront e' he' e List.mem_cons_self
    rw [decide_eq_true_eq]
    omega

end Entries

/-! ### The history of a group -/

section History
variable [DecidableEq C] {events : List (LogEvent C F)} {log : ConsumerLog G C F} {cg : ConsumerGroup C}

/-- The events tell what a group that has come so far has handed out, what is left, and who has what. -/
structure Tells (events : List (LogEvent C F)) (log : ConsumerLog G C F) (cg : ConsumerGroup C) : Prop where
  last_le : cg.last ≤ log.last
  held : ∀ n c, cg.holder n = some c → n ≤ cg.last
  increasing : (LogEvent.addedEntries events).Pairwise fun e e' => e.1 < e'.1
  bounded : ∀ e ∈ LogEvent.addedEntries events, e.1 ≤ log.last
  inOrder : (LogEvent.takenEntries events ++ log.newer cg.last none).Sublist (LogEvent.addedEntries events)
  complete : (∀ ns, .erased ns ∉ events) →
    LogEvent.takenEntries events ++ log.newer cg.last none = LogEvent.addedEntries events
  pending : ∀ c, (log.slots.filter fun e => cg.holder e.1 = some c) = LogEvent.pending c events

namespace Tells

theorem empty : Tells [] (empty : ConsumerLog G C F) (.start 0) where
  last_le := Nat.le_refl 0
  held _ _ h := by cases h
  increasing := .nil
  bounded _ h := by cases h
  inOrder := List.Sublist.refl []
  complete _ := rfl
  pending _ := rfl

theorem push (h : Tells events log cg) {n : Nat} (hn : log.last < n) (f : F) :
    Tells (events ++ [.added n f]) (log.push n hn f) cg where
  last_le := Nat.le_trans h.last_le (Nat.le_of_lt hn)
  held := h.held
  increasing := by
    rw [LogEvent.addedEntries_append]
    refine List.pairwise_append.mpr ⟨h.increasing, List.pairwise_singleton _ _, fun e he e' he' => ?_⟩
    rw [List.mem_singleton.mp he']
    exact Nat.lt_of_le_of_lt (h.bounded e he) hn
  bounded := by
    rw [LogEvent.addedEntries_append]
    exact List.forall_mem_append.mpr ⟨fun e he => Nat.le_of_lt (Nat.lt_of_le_of_lt (h.bounded e he) hn),
      List.forall_mem_singleton.mpr (Nat.le_refl n)⟩
  inOrder := by
    rw [LogEvent.addedEntries_append, LogEvent.takenEntries_append, newer_push log hn h.last_le]
    simpa [LogEvent.takes, LogEvent.adds] using h.inOrder.append_right [(n, f)]
  complete hkept := by
    have hcomplete := h.complete fun ns hns => hkept ns (List.mem_append_left _ hns)
    rw [LogEvent.addedEntries_append, LogEvent.takenEntries_append, newer_push log hn h.last_le, ← hcomplete]
    simp [LogEvent.takes, LogEvent.adds]
  pending c := by
    rw [LogEvent.pending_append, ← h.pending c]
    have hnone : cg.holder n ≠ some c := fun hheld => by
      have hle := h.held n c hheld
      have hlast := h.last_le
      omega
    show (log.slots ++ [(n, some f)]).filter _ = _
    rw [List.filter_append, List.filter_cons_of_neg (by simpa using hnone), List.filter_nil, List.append_nil]
    rfl

theorem meet (h : Tells events log cg) (c : C) : Tells events log (cg.meet c) :=
  ⟨h.last_le, h.held, h.increasing, h.bounded, h.inOrder, h.complete, h.pending⟩

theorem setGroup [DecidableEq G] (h : Tells events log cg) (g : G) (cg' : Option (ConsumerGroup C)) :
    Tells events (log.setGroup g cg') cg :=
  ⟨h.last_le, h.held, h.increasing, h.bounded, h.inOrder, h.complete, h.pending⟩

/-- An event that adds nothing and hands out nothing. -/
theorem quiet (h : Tells events log cg) {event : LogEvent C F} (hadds : event.adds = []) (htakes : event.takes = [])
    {log' : ConsumerLog G C F} {cg' : ConsumerGroup C} (hlast : log'.last = log.last) (hcg : cg'.last = cg.last)
    (hheld : ∀ n c, cg'.holder n = some c → cg.holder n = some c)
    (hnewer : (log'.newer cg.last none).Sublist (log.newer cg.last none))
    (hkept : (∀ ns, event ≠ .erased ns) → log'.newer cg.last none = log.newer cg.last none)
    (hpending : ∀ c, (log'.slots.filter fun e => cg'.holder e.1 = some c) =
      LogEvent.pendingAfter c (log.slots.filter fun e => cg.holder e.1 = some c) event) :
    Tells (events ++ [event]) log' cg' where
  last_le := by
    rw [hcg, hlast]
    exact h.last_le
  held n c hn := by
    rw [hcg]
    exact h.held n c (hheld n c hn)
  increasing := by
    rw [LogEvent.addedEntries_append, hadds, List.append_nil]
    exact h.increasing
  bounded := by
    rw [LogEvent.addedEntries_append, hadds, List.append_nil, hlast]
    exact h.bounded
  inOrder := by
    rw [LogEvent.addedEntries_append, LogEvent.takenEntries_append, hadds, htakes, List.append_nil, List.append_nil,
      hcg]
    exact (hnewer.append_left _).trans h.inOrder
  complete hnone := by
    have hcomplete := h.complete fun ns hns => hnone ns (List.mem_append_left _ hns)
    rw [LogEvent.addedEntries_append, LogEvent.takenEntries_append, hadds, htakes, List.append_nil, List.append_nil,
      hcg,
      hkept fun ns he => hnone ns (by simp [he])]
    exact hcomplete
  pending c := by rw [LogEvent.pending_append, hpending c, h.pending c]

theorem other (h : Tells events log cg) : Tells (events ++ [.other]) log cg :=
  h.quiet rfl rfl rfl rfl (fun _ _ h => h) (List.Sublist.refl _) (fun _ => rfl) fun _ => rfl

theorem release (h : Tells events log cg) (ns : List Nat) :
    Tells (events ++ [.acknowledged ns]) log (cg.release ns) := by
  refine h.quiet rfl rfl rfl rfl (fun n c hheld => ?_) (List.Sublist.refl _) (fun _ => rfl) fun c => ?_
  · unfold ConsumerGroup.release at hheld
    dsimp only at hheld
    split at hheld
    · cases hheld
    · exact hheld
  · show _ = (log.slots.filter _).filter _
    rw [List.filter_filter]
    refine List.filter_congr fun e _ => ?_
    unfold ConsumerGroup.release
    by_cases hmem : e.1 ∈ ns <;> simp [hmem]

theorem erase (h : Tells events log cg) (ns : List Nat) : Tells (events ++ [.erased ns]) (log.erase ns) cg := by
  refine h.quiet rfl rfl rfl rfl (fun _ _ h => h) (newer_erase_sublist log ns cg.last)
    (fun hne => absurd rfl (hne ns)) fun c => ?_
  show (log.slots.map _).filter _ = (log.slots.filter _).map _
  rw [List.filter_map]
  rfl

omit [DecidableEq C] in
theorem mem_slots_of_append {n : Nat} {taken rest : List (Nat × F)} (htaken : log.newer n none = taken ++ rest)
    {e : Nat × F} (he : e ∈ taken) : (e.1, some e.2) ∈ log.slots ∧ n < e.1 :=
  log.mem_newer.mp (htaken ▸ List.mem_append_left rest he)

/-- A group comes at least to each entry that it hands out. -/
theorem last_taken (h : Tells events log cg) (c : C) (track : Bool) {taken rest : List (Nat × F)}
    (htaken : log.newer cg.last none = taken ++ rest) : cg.last ≤ (cg.take c track taken).last ∧
      (∀ e ∈ taken, e.1 ≤ (cg.take c track taken).last) ∧ (cg.take c track taken).last ≤ log.last := by
  rw [ConsumerGroup.last_take]
  rcases List.eq_nil_or_concat taken with rfl | ⟨front, e, rfl⟩
  · exact ⟨Nat.le_refl _, fun e he => (by cases he), h.last_le⟩
  · rw [List.concat_eq_append] at htaken ⊢
    obtain ⟨hslot, hnewer⟩ := mem_slots_of_append htaken (List.mem_append_right front List.mem_cons_self)
    have hsorted := log.sorted_newer cg.last
    rw [htaken, List.pairwise_append, List.pairwise_append] at hsorted
    have hfront := hsorted.1.2.2
    rw [List.getLast?_append, List.getLast?_singleton, Option.some_or, Option.map_some, Option.getD_some]
    refine ⟨Nat.le_of_lt hnewer, List.forall_mem_append.mpr ⟨fun e' he' => ?_, ?_⟩, log.bounded _ hslot⟩
    · exact Nat.le_of_lt (hfront e' he' e List.mem_cons_self)
    · exact List.forall_mem_singleton.mpr (Nat.le_refl _)

/-- What a consumer has after entries are handed out. -/
theorem pending_taken (h : Tells events log cg) (c c' : C) (track : Bool) {taken rest : List (Nat × F)}
    (htaken : log.newer cg.last none = taken ++ rest) :
    (log.slots.filter fun e => (cg.take c track taken).holder e.1 = some c') =
      LogEvent.pendingAfter c' (log.slots.filter fun e => cg.holder e.1 = some c') (.taken c track taken) := by
  have hnobody : ∀ e ∈ taken, cg.holder e.1 ≠ some c' := fun e he hheld => by
    have hle := h.held e.1 c' hheld
    have hlt := (mem_slots_of_append htaken he).2
    omega
  simp only [ConsumerGroup.holder_take]
  by_cases htracked : c = c' ∧ track = true
  · obtain ⟨rfl, rfl⟩ := htracked
    rw [LogEvent.pendingAfter_taken_self]
    -- Both sides are sorted, so that it is enough that they have the same elements.
    have hantisymm : Std.Antisymm fun e e' : Nat × Option F => e.1 < e'.1 :=
      ⟨fun _ _ hlt hlt' => absurd hlt (Nat.lt_asymm hlt')⟩
    have hirrefl : Std.Irrefl fun e e' : Nat × Option F => e.1 < e'.1 := ⟨fun e => Nat.lt_irrefl e.1⟩
    refine List.Pairwise.eq_of_mem_iff (log.sorted.filter _) (List.pairwise_append.mpr ⟨log.sorted.filter _, ?_, ?_⟩) ?_
    · have hsorted := log.sorted_newer cg.last
      rw [htaken, List.pairwise_append] at hsorted
      exact List.pairwise_map.mpr hsorted.1
    · intro e he e' he'
      obtain ⟨t, ht, rfl⟩ := List.mem_map.mp he'
      have hheld := h.held e.1 c (of_decide_eq_true (List.mem_filter.mp he).2)
      exact Nat.lt_of_le_of_lt hheld (mem_slots_of_append htaken ht).2
    · intro e
      simp only [List.mem_filter, List.mem_append, List.mem_map, decide_eq_true_eq]
      constructor
      · rintro ⟨hslot, hheld⟩
        split at hheld
        · next htaken' =>
          obtain ⟨t, ht, hte⟩ := htaken'.2
          exact Or.inr ⟨t, ht, log.eq_of_fst_eq (mem_slots_of_append htaken ht).1 hslot hte⟩
        · exact Or.inl ⟨hslot, hheld⟩
      · rintro (⟨hslot, hheld⟩ | ⟨t, ht, rfl⟩)
        · exact ⟨hslot, by split <;> [rfl; exact hheld]⟩
        · exact ⟨(mem_slots_of_append htaken ht).1, if_pos ⟨trivial, t, ht, rfl⟩⟩
  · rw [LogEvent.pendingAfter_taken_of_not c' htracked]
    refine List.filter_congr fun e _ => ?_
    rw [decide_eq_decide]
    split
    · next hmem =>
      obtain ⟨t, ht, hte⟩ := List.mem_map.mp hmem.2
      exact iff_of_false (fun hc => htracked ⟨Option.some.inj hc, hmem.1⟩) (hte ▸ hnobody t ht)
    · rfl

/-- What is handed out is the first part of what was left. -/
theorem take (h : Tells events log cg) (c : C) (track : Bool) {taken rest : List (Nat × F)}
    (htaken : log.newer cg.last none = taken ++ rest) :
    Tells (events ++ [.taken c track taken]) log (cg.take c track taken) := by
  have hrest : taken ++ log.newer (cg.take c track taken).last none = log.newer cg.last none := by
    rw [ConsumerGroup.last_take, newer_of_append log htaken, htaken]
  obtain ⟨hfrom, hlast, hto⟩ := h.last_taken c track htaken
  constructor
  case last_le => exact hto
  case held =>
    intro n c' hn
    rw [ConsumerGroup.holder_take] at hn
    split at hn
    · next htracked =>
      obtain ⟨e, he, rfl⟩ := List.mem_map.mp htracked.2
      exact hlast e he
    · exact Nat.le_trans (h.held n c' hn) hfrom
  case increasing =>
    rw [LogEvent.addedEntries_append]
    simpa [LogEvent.adds] using h.increasing
  case bounded =>
    rw [LogEvent.addedEntries_append]
    simpa [LogEvent.adds] using h.bounded
  case inOrder =>
    rw [LogEvent.addedEntries_append, LogEvent.takenEntries_append, List.append_assoc]
    show (_ ++ (taken ++ _)).Sublist (_ ++ [])
    rw [hrest, List.append_nil]
    exact h.inOrder
  case complete =>
    intro hkept
    have hcomplete := h.complete fun ns hns => hkept ns (List.mem_append_left _ hns)
    rw [LogEvent.addedEntries_append, LogEvent.takenEntries_append, List.append_assoc]
    show _ ++ (taken ++ _) = _ ++ []
    rw [hrest, List.append_nil, hcomplete]
  case pending =>
    intro c'
    rw [LogEvent.pending_append, ← h.pending c']
    exact h.pending_taken c c' track htaken

omit [DecidableEq C] in
theorem filter_holder (n : Nat) (c : C) [DecidableEq C] : (log.slots.filter fun e => n < e.1 ∧ cg.holder e.1 = some c) =
    (log.slots.filter fun e => cg.holder e.1 = some c).filter fun e => n < e.1 := by
  rw [List.filter_filter]
  exact List.filter_congr fun e _ => Bool.decide_and _ _

/-- A consumer reads again what it has. -/
theorem history_eq (h : Tells events log cg) (c : C) (n : Nat) (limit : Option Nat) :
    log.history cg c n limit = ((LogEvent.pending c events).filter fun e => n < e.1).upTo limit := by
  unfold history
  rw [filter_holder, h.pending c]

end Tells

/-! ### Histories -/

variable [DecidableEq G] {g : G}

/-- What may happen to a log, as one of its groups sees it. -/
inductive LogStep (g : G) (log : ConsumerLog G C F) : LogEvent C F → ConsumerLog G C F → Prop where
  | added {n : Nat} (h : log.last < n) (f : F) : LogStep g log (.added n f) (log.push n h f)
  | taken {cg : ConsumerGroup C} (hg : log.groups g = some cg) (c : C) (limit : Option Nat) (track : Bool) :
    LogStep g log (.taken c track (log.handOut g cg c limit track).1) (log.handOut g cg c limit track).2
  | acknowledged {cg : ConsumerGroup C} (hg : log.groups g = some cg) (ns : List Nat) :
    LogStep g log (.acknowledged ns) (log.acknowledge g cg ns).2
  | erased (ns : List Nat) : LogStep g log (.erased ns) (log.eraseAll ns).2
  | met {cg : ConsumerGroup C} (hg : log.groups g = some cg) (c : C) :
    LogStep g log .other (log.setGroup g (some (cg.meet c)))
  | elsewhere {g' : G} (h : g' ≠ g) (cg : Option (ConsumerGroup C)) : LogStep g log .other (log.setGroup g' cg)
  | unchanged : LogStep g log .other log

/-- The events tell how the log came to be, as the group sees it. -/
def HistoryOf (g : G) (events : List (LogEvent C F)) (log : ConsumerLog G C F) : Prop :=
  ∃ cg, log.groups g = some cg ∧ Tells events log cg

theorem HistoryOf.start : HistoryOf g [] ((empty : ConsumerLog G C F).setGroup g (some (.start 0))) :=
  ⟨.start 0, Function.update_self .., Tells.empty.setGroup g _⟩

theorem HistoryOf.step {event : LogEvent C F} {log' : ConsumerLog G C F} (h : HistoryOf g events log)
    (hstep : LogStep g log event log') : HistoryOf g (events ++ [event]) log' := by
  obtain ⟨cg, hg, h⟩ := h
  cases hstep with
  | added hn f => exact ⟨cg, hg, h.push hn f⟩
  | @taken cg' hg' c limit track =>
    cases hg.symm.trans hg'
    refine ⟨_, Function.update_self .., Tells.setGroup ?_ g _⟩
    obtain ⟨rest, hrest⟩ := List.upTo_prefix limit (log.newer cg.last none)
    exact h.take c track hrest.symm
  | @acknowledged cg' hg' ns =>
    cases hg.symm.trans hg'
    exact ⟨_, Function.update_self .., (h.release ns).setGroup g _⟩
  | erased ns => exact ⟨cg, hg, h.erase ns⟩
  | @met cg' hg' c =>
    cases hg.symm.trans hg'
    exact ⟨_, Function.update_self .., (h.meet c).other.setGroup g _⟩
  | elsewhere hne cg' => exact ⟨cg, (Function.update_of_ne hne.symm ..).trans hg, h.other.setGroup _ cg'⟩
  | unchanged => exact ⟨cg, hg, h.other⟩

end History

end ConsumerLog
