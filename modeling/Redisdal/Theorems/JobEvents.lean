import Redisdal.Lib.ConsumerHistory
import Redisdal.Theorems.KeyspaceSessions

/-! # What calls do to the jobs of a group

A stream holds jobs, which the workers of one group read as its consumers. Each call is an event in the history of the
group: what it did to the jobs that it found, whether or not its client has seen it. -/

namespace Redisdal

/-! ### Calls on the jobs -/

namespace TypedCall
variable {K V : Type} [DecidableEq K] (key : K) (group : Bytes)

/-- The call adds, hands out, acknowledges or deletes jobs, or looks at them, or keeps to other groups or keys. -/
def WorksAt : TypedCall K V → Prop
  | .xadd k _ options => k = key → options.trim = none
  | .xreadgroup _ _ streams _ => (streams.map (·.key)).count key ≤ 1
  | .xgroupSetid k g _ | .xgroupDestroy k g | .xgroupDelconsumer k g _ => k = key → g ≠ group
  | .xack .. | .xdel .. | .xgroupCreate .. | .xgroupCreateconsumer .. => True
  | .xread .. | .xrange .. | .xrevrange .. | .xlen .. | .exists .. | .type .. | .ttl .. | .pttl .. | .persist .. => True
  | call => key ∉ call.dataKeys

/-- The call is one that adds, hands out, acknowledges or deletes jobs. -/
def ChangesJobs : TypedCall K V → Prop
  | .xadd k _ _ | .xdel k _ => k = key
  | .xack k g _ => k = key ∧ g = group
  | .xreadgroup g _ streams _ => g = group ∧ ∃ stream ∈ streams, stream.key = key ∧ stream.id = ">"
  | _ => False

variable {key group} {call : TypedCall K V}

omit [DecidableEq K] in
theorem mem_dataKeys_of_changesJobs (h : call.ChangesJobs key group) : key ∈ call.dataKeys := by
  cases call with
  | xadd | xdel => exact List.mem_singleton.mpr (Eq.symm h)
  | xack => exact List.mem_singleton.mpr h.1.symm
  | xreadgroup =>
    obtain ⟨-, stream, hmem, rfl, -⟩ := h
    exact List.mem_map_of_mem hmem
  | _ => exact h.elim

end TypedCall

section Events
variable {K V : Type} [DecidableEq K]

/-- The entries that a reply shows of one stream. -/
def shownJobs (key : K) (batches : List (StreamBatch K V)) : List (StreamEntry K V) :=
  (batches.filter fun batch => batch.key = key).flatMap (·.entries)

/-- A job with its content, as the facade shows it. -/
def StreamEntry.ofJob (e : Nat × List (K × V)) : StreamEntry K V := .ofSlot (e.1, some e.2)

/-- What is under the key of the jobs, which never expires. -/
def jobEntry (log : StreamLog (List (K × V))) : Option (ExpiringEntry (TypedDatum K V)) := some ⟨.stream log, none⟩

variable [ServerTexts]

/-- What a call that is executed does to the jobs that it finds, and what it shows of this. -/
inductive JobEvent (key : K) (group : Bytes) (log : StreamLog (List (K × V))) :
    TypedCall K V → Outcome (TypedValue K V) → LogEvent Bytes (List (K × V)) → Prop
  | added (fields : List (K × V)) (options : StreamAddOptions) (n : Nat) :
    JobEvent key group log (.xadd key fields options) (.ok (.id (some (StreamId.text n)))) (.added n fields)
  | taken (worker : Bytes) (streams : List (StreamReadRequest K)) (options : StreamReadGroupOptions)
    (batches : List (StreamBatch K V)) {cg : ConsumerGroup Bytes} (hg : log.groups group = some cg)
    (asked : ∃ stream ∈ streams, stream.key = key ∧ stream.id = ">")
    (shown : shownJobs key batches = (log.newer cg.last (options.count.map Int.toNat)).map .ofJob) :
    JobEvent key group log (.xreadgroup group worker streams options) (.ok (.batches batches))
      (.taken worker (!options.noack) (log.newer cg.last (options.count.map Int.toNat)))
  | acknowledged (ids : List Bytes) (ns : List Nat) (count : Int)
    (numbers : ids.mapM (ServerTexts.readId 0) = some ns) :
    JobEvent key group log (.xack key group ids) (.ok (.integer count)) (.acknowledged ns)
  | deleted (ids : List Bytes) (ns : List Nat) (count : Int) (numbers : ids.mapM (ServerTexts.readId 0) = some ns) :
    JobEvent key group log (.xdel key ids) (.ok (.integer count)) (.erased ns)
  | other {call : TypedCall K V} {outcome : Outcome (TypedValue K V)}
    (unchanged : ¬call.ChangesJobs key group ∨ call.Unsent ∨ ∃ e, outcome = .error e) :
    JobEvent key group log call outcome .other

/-- An event is told in the same way, whatever the text of an error. -/
theorem JobEvent.of_alike {key : K} {group : Bytes} {log : StreamLog (List (K × V))} {call : TypedCall K V}
    {outcome outcome' : Outcome (TypedValue K V)} {event : LogEvent Bytes (List (K × V))}
    (halike : OutcomeAlike outcome outcome') (h : JobEvent key group log call outcome' event) :
    JobEvent key group log call outcome event := by
  rcases halike with rfl | ⟨message, message', rfl, rfl⟩
  · exact h
  · cases h
    exact .other (Or.inr (Or.inr ⟨_, rfl⟩))

variable [DecidableEq V] (tpl : Template K V) (key : K) (group : Bytes)

/-- What a call of a client does to the jobs, by what becomes of its command. Where the reply is lost it is what the
    server did, and would have shown. -/
inductive JobStep (s : TypedKeyspace K V) (log : StreamLog (List (K × V))) (c : ClientCall K V) :
    Outcome (TypedValue K V) → LogEvent Bytes (List (K × V)) → TypedKeyspace K V → Prop
  | executed {outcome : Outcome (TypedValue K V)} {event : LogEvent Bytes (List (K × V))} {s' : TypedKeyspace K V}
    (answered : c.call.Unsent ∨ c.delivery = .delivered ∧ ¬c.TooLong tpl) (permits : s.Permits tpl c.call outcome s')
    (h : JobEvent key group log c.call outcome event) : JobStep s log c outcome event s'
  | replyLost {errstr : Bytes} {outcome : Outcome (TypedValue K V)} {event : LogEvent Bytes (List (K × V))}
    {s' : TypedKeyspace K V} (delivery : c.delivery = .replyLost errstr) (sent : ¬c.call.Unsent)
    (fits : ¬c.TooLong tpl) (permits : s.Permits tpl c.call outcome s')
    (h : JobEvent key group log c.call outcome event) : JobStep s log c (.error (transportError errstr)) event s'
  | unexecuted (e : Exn) (lost : c.TooLong tpl ∨ ∃ errstr, c.delivery = .requestLost errstr) :
    JobStep s log c (.error e) .other s

/-- Calls with these outcomes, one after the other, on a keyspace that holds jobs, and what each has done to them. -/
inductive JobRun : TypedKeyspace K V → StreamLog (List (K × V)) → List (ClientCall K V) →
    List (Outcome (TypedValue K V)) → List (LogEvent Bytes (List (K × V))) → TypedKeyspace K V →
    StreamLog (List (K × V)) → Prop
  | nil {s : TypedKeyspace K V} {log : StreamLog (List (K × V))} (hl : s.live key = jobEntry log) :
    JobRun s log [] [] [] s log
  | cons {s s' s'' : TypedKeyspace K V} {log log' log'' : StreamLog (List (K × V))} {c : ClientCall K V}
    {calls : List (ClientCall K V)} {outcome : Outcome (TypedValue K V)} {outcomes : List (Outcome (TypedValue K V))}
    {event : LogEvent Bytes (List (K × V))} {events : List (LogEvent Bytes (List (K × V)))}
    (hl : s.live key = jobEntry log) (step : JobStep tpl key group (s.advance c.elapsed) log c outcome event s')
    (change : ConsumerLog.LogStep group log event log') (rest : JobRun s' log' calls outcomes events s'' log'') :
    JobRun s log (c :: calls) (outcome :: outcomes) (event :: events) s'' log''

/-- A group is made where there was nothing, and then calls work on its jobs. -/
def GroupRun (create : ClientCall K V) (calls : List (ClientCall K V)) (outcomes : List (Outcome (TypedValue K V)))
    (events : List (LogEvent Bytes (List (K × V)))) (s : TypedKeyspace K V) (log : StreamLog (List (K × V))) : Prop :=
  ∃ (time : Nat) (s₀ : TypedKeyspace K V),
    KeyspaceRun tpl (ExpiringMap.empty.advance time) [create] [.ok (.flag true)] s₀ ∧
    JobRun tpl key group s₀ (ConsumerLog.empty.setGroup group (some (.start 0))) calls outcomes events s log

end Events

/-! ### What calls do to the stream -/

section Streams
open ConsumerLog
variable [ServerTexts] {F : Type} {log : StreamLog F} {group : Bytes}

/-- What a command leaves of a stream that is there, with an event that tells what it did. -/
def Leaves (group : Bytes) (log : StreamLog F) (event : LogEvent Bytes F) (stream : Option (StreamLog F)) : Prop :=
  ∃ log', stream = some log' ∧ LogStep group log event log'

omit [ServerTexts] in
theorem Leaves.same : Leaves group log .other (some log) := ⟨log, rfl, .unchanged⟩

namespace StreamAction

theorem run_add_leaves (now : Int) (fields : F) (id : Option Nat) (nomkstream : Bool) :
    (∃ n, ((add fields id nomkstream none).run now (some log)).1 = .ok (.id (some n)) ∧
        Leaves group log (.added n fields) ((add fields id nomkstream none).run now (some log)).2) ∨
      ∃ message, ((add fields id nomkstream none).run now (some log)).1 = .error message ∧
        ((add fields id nomkstream none).run now (some log)).2 = some log := by
  unfold run
  dsimp only
  rw [if_neg (by simp)]
  by_cases hlast : log.last < id.getD (ServerTexts.nextId now log.last)
  · exact Or.inl ⟨_, congrArg Prod.fst (dif_pos hlast), _, congrArg Prod.snd (dif_pos hlast), .added hlast fields⟩
  · exact Or.inr ⟨_, congrArg Prod.fst (dif_neg hlast), congrArg Prod.snd (dif_neg hlast)⟩

theorem run_delete_leaves (now : Int) (ids : List Bytes) :
    (∃ ns count, ids.mapM (ServerTexts.readId 0) = some ns ∧ ((delete ids).run now (some log)).1 = .ok (.count count) ∧
        Leaves group log (.erased ns) ((delete ids).run now (some log)).2) ∨
      ∃ message, ((delete ids).run now (some log)).1 = .error message ∧
        ((delete ids).run now (some log)).2 = some log := by
  unfold run
  dsimp only
  cases ids.mapM (ServerTexts.readId 0) with
  | none => exact Or.inr ⟨_, rfl, rfl⟩
  | some ns => exact Or.inl ⟨ns, _, rfl, rfl, _, rfl, .erased ns⟩

theorem run_acknowledge_leaves (now : Int) (ids : List Bytes) {cg : ConsumerGroup Bytes}
    (hg : log.groups group = some cg) :
    (∃ ns count, ids.mapM (ServerTexts.readId 0) = some ns ∧
        ((acknowledge group ids).run now (some log)).1 = .ok (.count count) ∧
        Leaves group log (.acknowledged ns) ((acknowledge group ids).run now (some log)).2) ∨
      ∃ message, ((acknowledge group ids).run now (some log)).1 = .error message ∧
        ((acknowledge group ids).run now (some log)).2 = some log := by
  unfold run
  dsimp only
  rw [hg]
  dsimp only
  cases ids.mapM (ServerTexts.readId 0) with
  | none => exact Or.inr ⟨_, rfl, rfl⟩
  | some ns => exact Or.inl ⟨ns, _, rfl, rfl, _, rfl, .acknowledged hg ns⟩

/-- A command that names another group. -/
theorem run_acknowledge_elsewhere (now : Int) (ids : List Bytes) {g : Bytes} (h : g ≠ group) :
    Leaves group log .other ((acknowledge g ids).run now (some log)).2 := by
  unfold run
  dsimp only
  cases log.groups g with
  | none => exact .same
  | some cg =>
    dsimp only
    cases ids.mapM (ServerTexts.readId 0) with
    | none => exact .same
    | some ns => exact ⟨_, rfl, .elsewhere h _⟩

omit [ServerTexts] in
theorem onGroup_leaves {g : Bytes}
    {f : StreamLog F → ConsumerGroup Bytes → Except Bytes (StreamAnswer F) × StreamLog F}
    (hf : ∀ cg, Leaves group log .other (some (f log cg).2)) :
    Leaves group log .other (onGroup (some log) g f).2 := by
  unfold onGroup
  dsimp only
  cases log.groups g with
  | none => exact .same
  | some cg => exact hf cg

theorem run_setId_elsewhere (now : Int) {g : Bytes} (h : g ≠ group) (id : Bytes) :
    Leaves group log .other ((setId g id).run now (some log)).2 := by
  refine onGroup_leaves fun cg => ?_
  cases readGroupId log.last id with
  | none => exact .same
  | some n => exact ⟨_, rfl, .elsewhere h _⟩

theorem run_deleteConsumer_elsewhere (now : Int) {g : Bytes} (h : g ≠ group) (consumer : Bytes) :
    Leaves group log .other ((deleteConsumer g consumer).run now (some log)).2 :=
  onGroup_leaves fun _ => ⟨_, rfl, .elsewhere h _⟩

theorem run_destroyGroup_elsewhere (now : Int) {g : Bytes} (h : g ≠ group) :
    Leaves group log .other ((destroyGroup g).run now (some log)).2 := ⟨_, rfl, .elsewhere h none⟩

theorem run_createGroup_none (now : Int) (group : Bytes) {id : Bytes} {n : Nat} (h : readGroupId 0 id = some n) :
    (createGroup group id true : StreamAction F).run now none =
      (.ok .ok, some (ConsumerLog.empty.setGroup group (some (.start n)))) := by
  have hlast : readGroupId ((none : Option (StreamLog F)).getD .empty).last id = some n := h
  unfold run
  dsimp only
  rw [if_neg (by simp), hlast]
  rfl

/-- A group that is there is not created again. -/
theorem run_createGroup_leaves (now : Int) {cg : ConsumerGroup Bytes} (hg : log.groups group = some cg) (g id : Bytes)
    (mkstream : Bool) : Leaves group log .other ((createGroup g id mkstream).run now (some log)).2 := by
  unfold run
  dsimp only
  rw [if_neg (by simp), Option.getD_some]
  cases readGroupId log.last id with
  | none => exact .same
  | some n =>
    dsimp only
    by_cases hsome : (log.groups g).isSome = true
    · rw [if_pos hsome]
      exact .same
    · rw [if_neg hsome]
      refine ⟨_, rfl, .elsewhere (fun h => hsome ?_) _⟩
      rw [h, hg]
      rfl

theorem run_createConsumer_leaves (now : Int) {cg : ConsumerGroup Bytes} (hg : log.groups group = some cg)
    (g consumer : Bytes) : Leaves group log .other ((createConsumer g consumer).run now (some log)).2 := by
  by_cases h : g = group
  · subst h
    show Leaves g log .other (onGroup (some log) g _).2
    unfold onGroup
    dsimp only
    rw [hg]
    exact ⟨_, rfl, .met hg consumer⟩
  · exact onGroup_leaves fun _ => ⟨_, rfl, .elsewhere h _⟩

end StreamAction

namespace StreamReading

theorem start_group_cases {g id : Bytes} {stream : Option (StreamLog F)} {r : ReadFrom}
    (h : start (some g) id stream = .ok r) : (id = ">" ∧ r = .new) ∨ (id ≠ ">" ∧ ∃ n, r = .after n) := by
  unfold start at h
  split at h
  · cases h
  · split at h
    · next hid =>
      cases h
      exact Or.inl ⟨hid, rfl⟩
    · next hid =>
      refine Or.inr ⟨hid, ?_⟩
      split at h
      · cases h
      · cases hread : ServerTexts.readId 0 id with
        | none =>
          rw [hread] at h
          cases h
        | some n =>
          rw [hread] at h
          cases h
          exact ⟨n, rfl⟩

variable {cg : ConsumerGroup Bytes} (hg : log.groups group = some cg) (limit : Option Nat) (track : Bool)
include hg

omit [ServerTexts] in
theorem read_new (worker : Bytes) :
    (read (some (group, worker)) limit track .new (some log)).1 =
        (if log.newer cg.last limit = [] then none else some ((log.newer cg.last limit).map fun e => (e.1, some e.2))) ∧
      Leaves group log (.taken worker track (log.newer cg.last limit))
        (read (some (group, worker)) limit track .new (some log)).2 := by
  unfold read
  dsimp only
  rw [hg]
  exact ⟨rfl, _, rfl, .taken hg worker limit track⟩

omit [ServerTexts] in
theorem read_after (worker : Bytes) (n : Nat) :
    (read (some (group, worker)) limit track (.after n) (some log)).1 = some (log.history cg worker n limit) ∧
      Leaves group log .other (read (some (group, worker)) limit track (.after n) (some log)).2 := by
  unfold read
  dsimp only
  rw [hg]
  exact ⟨rfl, _, rfl, .met hg worker⟩

omit hg in
omit [ServerTexts] in
theorem read_elsewhere {g : Bytes} (h : g ≠ group) (worker : Bytes) (r : ReadFrom) :
    Leaves group log .other (read (some (g, worker)) limit track r (some log)).2 := by
  unfold read
  dsimp only
  cases log.groups g with
  | none => exact .same
  | some cg => cases r <;> exact ⟨_, rfl, .elsewhere h _⟩

omit hg in
omit [ServerTexts] in
theorem read_everybody (r : ReadFrom) (stream : Option (StreamLog F)) :
    (read none limit track r stream).2 = stream := by
  rcases stream with _ | log
  · rfl
  · cases r <;> rfl

end StreamReading

end Streams

/-! ### Reads of several streams -/

section Reads
open ExpiringMap StreamReading
variable [ServerTexts] {K V : Type} [DecidableEq K] {key : K} {s : TypedKeyspace K V} {log : StreamLog (List (K × V))}

omit [DecidableEq K] in
omit [ServerTexts] in
theorem find_of_jobEntry (h : s.live key = jobEntry log) : streamView.find (s.datum key) = some (some log) := by
  rw [datum_of_lasting (d := some (.stream log)) h]
  rfl

omit [ServerTexts] in
theorem live_put_stream (h : s.live key = jobEntry log) (stream : Option (StreamLog (List (K × V)))) :
    (s.put key (streamView.write stream)).live key = stream.bind jobEntry := by
  rw [live_put_lasting (d := some (.stream log)) h]
  cases stream <;> rfl

omit [DecidableEq K] in
omit [ServerTexts] in
theorem fst_of_mem_toList {A : Type} {o : Option A} {b : K × A} (h : b ∈ (o.map (key, ·)).toList) : b.1 = key := by
  cases o with
  | none => cases h
  | some a => rw [List.mem_singleton.mp h]

omit [ServerTexts] in
theorem mem_keys_readAll {reader : Option (Bytes × Bytes)} {limit : Option Nat} {track : Bool}
    {starts : List (K × ReadFrom)} {b : K × List (Nat × Option (List (K × V)))}
    (h : b ∈ (readAll reader limit track starts s).1) : b.1 ∈ starts.map Prod.fst := by
  induction starts generalizing s with
  | nil => cases h
  | cons first rest ih =>
    rw [readAll] at h
    split at h
    · exact List.mem_cons_of_mem _ (ih h)
    · rcases List.mem_append.mp h with h | h
      · rw [fst_of_mem_toList h]
        exact List.mem_cons_self
      · exact List.mem_cons_of_mem _ (ih h)

omit [ServerTexts] in
theorem filter_key_readAll_of_notMem {reader : Option (Bytes × Bytes)} {limit : Option Nat} {track : Bool}
    {starts : List (K × ReadFrom)} (h : key ∉ starts.map Prod.fst) :
    (readAll reader limit track starts s).1.filter (fun b => b.1 = key) = [] :=
  List.filter_eq_nil_iff.mpr fun _ hb hkey => h (of_decide_eq_true hkey ▸ mem_keys_readAll hb)

omit [ServerTexts] in
/-- A read that names the key once reads there what is there when it begins. -/
theorem readAll_once (reader : Option (Bytes × Bytes)) (limit : Option Nat) (track : Bool)
    {starts : List (K × ReadFrom)} (honce : (starts.map Prod.fst).count key ≤ 1) (hkey : key ∈ starts.map Prod.fst)
    (hl : s.live key = jobEntry log) :
    ∃ r, (key, r) ∈ starts ∧
      (readAll reader limit track starts s).1.filter (fun b => b.1 = key) =
        ((read reader limit track r (some log)).1.map (key, ·)).toList ∧
      (readAll reader limit track starts s).2.live key = (read reader limit track r (some log)).2.bind jobEntry := by
  induction starts generalizing s with
  | nil => cases hkey
  | cons first rest ih =>
    obtain ⟨k, r⟩ := first
    by_cases hk : k = key
    · subst hk
      have hrest : k ∉ rest.map Prod.fst := by
        rw [List.map_cons, List.count_cons_self] at honce
        exact List.count_eq_zero.mp (by omega)
      refine ⟨r, List.mem_cons_self, ?_⟩
      rw [readAll, find_of_jobEntry hl]
      dsimp only
      have hframe : AgreeOn {k} (readAll reader limit track rest
          (s.put k (streamView.write (read reader limit track r (some log)).2))).2
          (s.put k (streamView.write (read reader limit track r (some log)).2)) :=
        TypedKeyspace.agreeOn_readAll (fun k' hk' (hmem : k' = k) => hrest (hmem ▸ hk')) _
      rw [hframe.live k rfl, live_put_stream hl, List.filter_append, filter_key_readAll_of_notMem hrest,
        List.append_nil]
      exact ⟨List.filter_eq_self.mpr fun b hb => decide_eq_true (fst_of_mem_toList hb), rfl⟩
    · rw [List.map_cons, List.count_cons_of_ne hk] at honce
      rw [List.map_cons, List.mem_cons, or_iff_right (Ne.symm hk)] at hkey
      rw [readAll]
      cases streamView.find (s.datum k) with
      | none =>
        obtain ⟨r', hmem, hread⟩ := ih honce hkey hl
        exact ⟨r', List.mem_cons_of_mem _ hmem, hread⟩
      | some stream =>
        obtain ⟨r', hmem, hbatches, hlive⟩ := ih honce hkey
          (s := s.put k (streamView.write (read reader limit track r stream).2))
          ((live_put_of_ne s k (Ne.symm hk) _).trans hl)
        refine ⟨r', List.mem_cons_of_mem _ hmem, ?_, hlive⟩
        have hother : ((read reader limit track r stream).1.map (k, ·)).toList.filter (fun b => b.1 = key) = [] :=
          List.filter_eq_nil_iff.mpr fun b hb hkey' => hk (fst_of_mem_toList hb ▸ of_decide_eq_true hkey')
        exact (List.filter_append ..).trans ((congrArg (· ++ _) hother).trans hbatches)

omit [DecidableEq K] in
theorem mem_of_starts {g : Option Bytes} {streams : List (K × Bytes)} {starts : List (K × ReadFrom)} {k : K}
    {r : ReadFrom} (h : StreamReading.starts s g streams = .ok starts) (hmem : (k, r) ∈ starts) :
    ∃ id stream, (k, id) ∈ streams ∧ streamView.find (s.datum k) = some stream ∧ start g id stream = .ok r := by
  have hstarts := Except.mapM_eq_ok_iff.mp h
  clear h
  induction hstarts with
  | nil => cases hmem
  | @cons stream first streams starts hfirst _ ih =>
    rcases List.mem_cons.mp hmem with rfl | hmem
    · split at hfirst
      · cases hfirst
      · next stream' hfind =>
        obtain ⟨r', hr', heq⟩ := Except.map_eq_ok_iff.mp hfirst
        cases heq
        exact ⟨stream.2, stream', List.mem_cons_self, hfind, hr'⟩
    · obtain ⟨id, stream', hid, hstart⟩ := ih hmem
      exact ⟨id, stream', List.mem_cons_of_mem _ hid, hstart⟩

omit [ServerTexts] in
theorem eq_of_count_le_one {A : Type} {f : A → K} {l : List A} (h : (l.map f).count key ≤ 1) {a b : A} (ha : a ∈ l)
    (hb : b ∈ l) (hfa : f a = key) (hfb : f b = key) : a = b := by
  induction l with
  | nil => cases ha
  | cons x l ih =>
    rw [List.map_cons] at h
    have hnone : f x = key → ∀ y ∈ l, f y ≠ key := fun hx y hy hfy => by
      rw [hx, List.count_cons_self] at h
      have hcount : (l.map f).count key = 0 := by omega
      exact List.count_eq_zero.mp hcount (hfy ▸ List.mem_map_of_mem hy)
    rcases List.mem_cons.mp ha with hax | ha' <;> rcases List.mem_cons.mp hb with hbx | hb'
    · rw [hax, hbx]
    · exact absurd hfb (hnone (hax ▸ hfa) b hb')
    · exact absurd hfa (hnone (hbx ▸ hfb) a ha')
    · exact ih (Nat.le_trans List.count_le_count_cons h) ha' hb'

omit [ServerTexts] in
theorem shownJobs_ofSlots (batches : List (K × List (Nat × Option (List (K × V))))) :
    shownJobs key (batches.map .ofSlots) =
      (batches.filter fun b => b.1 = key).flatMap fun b => b.2.map .ofSlot := by
  unfold shownJobs
  rw [List.filter_map, List.flatMap_map]
  rfl

variable {s' : TypedKeyspace K V} {outcome : Outcome (TypedValue K V)} {group : Bytes} {cg : ConsumerGroup Bytes}

theorem reads_jobs (hg : log.groups group = some cg) (hl : s.live key = jobEntry log) {g worker : Bytes}
    {streams : List (StreamReadRequest K)} {options : StreamReadGroupOptions}
    (honce : (streams.map (·.key)).count key ≤ 1) (hkey : key ∈ streams.map (·.key))
    (h : s.Reads outcome s' (some (g, worker)) streams options.count (!options.noack)) :
    ∃ event log', JobEvent key group log (.xreadgroup g worker streams options) outcome event ∧
      ConsumerLog.LogStep group log event log' ∧ s'.live key = jobEntry log' := by
  have hpairs : (streams.map fun stream => (stream.key, stream.id)).map Prod.fst = streams.map (·.key) := by
    rw [List.map_map]
    rfl
  unfold TypedKeyspace.Reads at h
  cases hstarts : StreamReading.starts s ((some (g, worker)).map Prod.fst)
      (streams.map fun stream => (stream.key, stream.id)) with
  | error message =>
    rw [hstarts] at h
    obtain ⟨rfl, rfl⟩ := h
    exact ⟨.other, log, .other (Or.inr (Or.inr ⟨_, rfl⟩)), .unchanged, hl⟩
  | ok starts =>
    rw [hstarts] at h
    obtain ⟨rfl, rfl⟩ := h
    have hkeys : starts.map Prod.fst = streams.map (·.key) := (TypedKeyspace.map_fst_of_starts hstarts).trans hpairs
    obtain ⟨r, hr, hbatches, hlive⟩ := readAll_once (some (g, worker)) (options.count.map Int.toNat) (!options.noack)
      (by rwa [hkeys]) (by rwa [hkeys]) hl
    obtain ⟨id, stream, hid, -, hstart⟩ := mem_of_starts hstarts hr
    obtain ⟨asked, hasked, heq⟩ := List.mem_map.mp hid
    cases heq
    by_cases hgroup : g = group
    · subst hgroup
      rcases start_group_cases hstart with ⟨hnew, rfl⟩ | ⟨hold, n, rfl⟩
      · obtain ⟨hshown, log', hlog', hstep⟩ := read_new hg (options.count.map Int.toNat) (!options.noack) worker
        rw [hlog'] at hlive
        refine ⟨_, log', .taken worker streams options _ hg ⟨asked, hasked, rfl, hnew⟩ ?_, hstep, hlive⟩
        rw [shownJobs_ofSlots, hbatches, hshown]
        cases log.newer cg.last (options.count.map Int.toNat) with
        | nil => rfl
        | cons e l =>
          rw [if_neg (List.cons_ne_nil e l), Option.map_some, Option.toList_some, List.flatMap_singleton, List.map_map]
          rfl
      · obtain ⟨-, log', hlog', hstep⟩ := read_after hg (options.count.map Int.toNat) (!options.noack) worker n
        rw [hlog'] at hlive
        refine ⟨.other, log', .other (Or.inl ?_), hstep, hlive⟩
        rintro ⟨-, stream', hstream', hkey', hid'⟩
        cases eq_of_count_le_one honce hstream' hasked hkey' rfl
        exact hold hid'
    · obtain ⟨log', hlog', hstep⟩ : Leaves group log .other _ :=
        read_elsewhere (options.count.map Int.toNat) (!options.noack) hgroup worker r
      rw [hlog'] at hlive
      exact ⟨.other, log', .other (Or.inl fun hchanges => hgroup hchanges.1), hstep, hlive⟩

omit [ServerTexts] in
/-- A read for everybody leaves every stream as it is. -/
theorem live_readAll_everybody (limit : Option Nat) (track : Bool) (starts : List (K × ReadFrom))
    (s : TypedKeyspace K V) : (readAll none limit track starts s).2.live = s.live := by
  induction starts generalizing s with
  | nil => rfl
  | cons first rest ih =>
    obtain ⟨k, r⟩ := first
    rw [readAll]
    cases hfind : streamView.find (s.datum k) with
    | none => exact ih s
    | some stream =>
      refine (ih _).trans (funext fun k' => ?_)
      rw [read_everybody]
      by_cases hk : k' = k
      · rw [hk, live_put_self]
        unfold datum at hfind
        unfold deadline
        cases hlive : s.live k with
        | none =>
          rw [hlive] at hfind
          cases hfind
          rfl
        | some e =>
          rw [hlive] at hfind
          obtain ⟨d, t⟩ := e
          cases d with
          | stream log =>
            cases hfind
            rfl
          | _ => cases hfind
      · exact live_put_of_ne s k hk _

end Reads

end Redisdal
