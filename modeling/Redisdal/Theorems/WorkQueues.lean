import Redisdal.Theorems.JobEvents

/-! # A stream as a queue of jobs

Producers add jobs to a stream, and workers read them as consumers of one group, on connections of their own. In
whatever order their calls reach the server, no job is handed out twice; what a worker was handed out and nobody has
acknowledged it can read again, whether or not the reply that carried it has arrived. -/

namespace Redisdal

/-! ### What a call does to the jobs -/

section Step
open ExpiringMap
variable [ServerTexts] {K V : Type} [DecidableEq K] [DecidableEq V] {tpl : Template K V} {key : K}
  {s s' : TypedKeyspace K V} {log : StreamLog (List (K × V))} {group : Bytes} {cg : ConsumerGroup Bytes}
  {outcome : Outcome (TypedValue K V)}

omit [DecidableEq V] in
theorem onStream_jobs {a : StreamAction (List (K × V))} {value : StreamAnswer (List (K × V)) → TypedValue K V}
    (hl : s.live key = jobEntry log) (h : s.OnStream outcome s' key (.ok a) value) :
    outcome = StreamAnswer.outcome value (a.run s.now (some log)).1 ∧
      s'.live key = (a.run s.now (some log)).2.bind jobEntry := by
  unfold TypedKeyspace.OnStream TypedKeyspace.OnView at h
  rw [find_of_jobEntry hl] at h
  obtain ⟨stream, ⟨rfl, rfl⟩, rfl⟩ := h
  exact ⟨rfl, live_put_stream hl _⟩

/-- What a call on the key of the jobs does, as far as the group sees it. -/
def Works (key : K) (group : Bytes) (log : StreamLog (List (K × V))) (call : TypedCall K V)
    (outcome : Outcome (TypedValue K V)) (s' : TypedKeyspace K V) : Prop :=
  ∃ event log', JobEvent key group log call outcome event ∧ ConsumerLog.LogStep group log event log' ∧
    s'.live key = jobEntry log'

namespace Works
variable {call : TypedCall K V}

omit [DecidableEq V] in
theorem unchanged (hl : s'.live key = jobEntry log)
    (h : ¬call.ChangesJobs key group ∨ call.Unsent ∨ ∃ e, outcome = .error e) : Works key group log call outcome s' :=
  ⟨.other, log, .other h, .unchanged, hl⟩

omit [DecidableEq V] in
theorem of_leaves {stream : Option (StreamLog (List (K × V)))} (hl : s'.live key = stream.bind jobEntry)
    {event : LogEvent Bytes (List (K × V))} (hstream : Leaves group log event stream)
    (h : JobEvent key group log call outcome event) : Works key group log call outcome s' := by
  obtain ⟨log', rfl, hstep⟩ := hstream
  exact ⟨event, log', h, hstep, hl⟩

end Works

omit [DecidableEq V] in
theorem xadd_jobs {fields : List (K × V)} {options : StreamAddOptions} (hl : s.live key = jobEntry log)
    (htrim : options.trim = none)
    (h : s.OnStream outcome s' key (StreamAction.xadd fields options) StreamAnswer.value) :
    Works key group log (.xadd key fields options) outcome s' := by
  have haction : StreamAction.xadd fields options =
      (StreamAction.readNewId options.id).map fun id => .add fields id options.nomkstream none := by
    unfold StreamAction.xadd
    rw [htrim]
    cases StreamAction.readNewId options.id <;> rfl
  rw [haction] at h
  cases hid : StreamAction.readNewId options.id with
  | error message =>
    rw [hid] at h
    obtain ⟨rfl, rfl⟩ := h
    exact .unchanged hl (Or.inr (Or.inr ⟨_, rfl⟩))
  | ok id =>
    rw [hid] at h
    obtain ⟨rfl, hlive⟩ := onStream_jobs hl h
    rcases StreamAction.run_add_leaves s.now fields id options.nomkstream with
      ⟨n, hanswer, hlog⟩ | ⟨message, hanswer, hlog⟩
    · exact .of_leaves hlive hlog (hanswer ▸ .added fields options n)
    · rw [hlog] at hlive
      exact .unchanged hlive (Or.inr (Or.inr ⟨_, by rw [hanswer]; rfl⟩))

omit [DecidableEq V] in
theorem xrange_jobs {start stop : Bytes} {reversed : Bool} {count : Option Int} (hl : s.live key = jobEntry log)
    (h : s.OnStream outcome s' key (StreamAction.xrange start stop reversed count) StreamAnswer.value) :
    s'.live key = jobEntry log := by
  cases hrange : (StreamAction.xrange start stop reversed count : Except Bytes (StreamAction (List (K × V)))) with
  | error message =>
    rw [hrange] at h
    obtain ⟨-, rfl⟩ := h
    exact hl
  | ok a =>
    rw [hrange] at h
    obtain ⟨first, -, ha⟩ := Except.bind_eq_ok_iff.mp hrange
    obtain ⟨last, -, ha⟩ := Except.bind_eq_ok_iff.mp ha
    cases ha
    exact (onStream_jobs hl h).2

omit [DecidableEq V] in
theorem reads_everybody {streams : List (StreamReadRequest K)} {count : Option Int} {track : Bool}
    (h : s.Reads outcome s' none streams count track) (k : K) : s'.live k = s.live k := by
  unfold TypedKeyspace.Reads at h
  split at h
  · obtain ⟨-, rfl⟩ := h
    rfl
  · obtain ⟨-, rfl⟩ := h
    rw [live_readAll_everybody]

/-- A call that is executed does to the jobs what it shows. -/
theorem allows_jobs {call : TypedCall K V} (hin : call.InKeyspace) (hw : call.WorksAt key group)
    (hg : log.groups group = some cg) (hl : s.live key = jobEntry log) (h : s.Allows tpl call outcome s') :
    Works key group log call outcome s' := by
  by_cases hkey : key ∈ call.dataKeys
  · cases call with
    | xadd k fields options =>
      cases List.mem_singleton.mp hkey
      rcases h with ⟨hrejected, -, rfl⟩ | ⟨-, h⟩
      · exact .unchanged hl (Or.inr (Or.inl (Or.inl hrejected)))
      · exact xadd_jobs hl (hw rfl) h
    | xdel k ids =>
      cases List.mem_singleton.mp hkey
      have hids : if ids = [] then s.Answers outcome s' (.integer 0)
          else s.OnStream outcome s' key (.ok (.delete ids)) StreamAnswer.value := h
      split at hids
      · next hempty =>
        obtain ⟨-, rfl⟩ := hids
        exact .unchanged hl (Or.inr (Or.inl (Or.inr hempty)))
      · obtain ⟨rfl, hlive⟩ := onStream_jobs hl hids
        rcases StreamAction.run_delete_leaves s.now ids with ⟨ns, count, hns, hanswer, hlog⟩ | ⟨message, hanswer, hlog⟩
        · exact .of_leaves hlive hlog (hanswer ▸ .deleted ids ns (asLongLong count) hns)
        · rw [hlog] at hlive
          exact .unchanged hlive (Or.inr (Or.inr ⟨_, by rw [hanswer]; rfl⟩))
    | xack k g ids =>
      cases List.mem_singleton.mp hkey
      have hids : if ids = [] then s.Answers outcome s' (.integer 0)
          else s.OnStream outcome s' key (.ok (.acknowledge g ids)) StreamAnswer.value := h
      split at hids
      · next hempty =>
        obtain ⟨-, rfl⟩ := hids
        exact .unchanged hl (Or.inr (Or.inl (Or.inr hempty)))
      · obtain ⟨rfl, hlive⟩ := onStream_jobs hl hids
        by_cases hgroup : g = group
        · subst hgroup
          rcases StreamAction.run_acknowledge_leaves s.now ids hg with
            ⟨ns, count, hns, hanswer, hlog⟩ | ⟨message, hanswer, hlog⟩
          · exact .of_leaves hlive hlog (hanswer ▸ .acknowledged ids ns (asLongLong count) hns)
          · rw [hlog] at hlive
            exact .unchanged hlive (Or.inr (Or.inr ⟨_, by rw [hanswer]; rfl⟩))
        · exact .of_leaves hlive (StreamAction.run_acknowledge_elsewhere s.now ids hgroup)
            (.other (Or.inl fun hc => hgroup hc.2))
    | xreadgroup g worker streams options =>
      rcases h with ⟨hrejected, -, rfl⟩ | ⟨-, h⟩
      · exact .unchanged hl (Or.inr (Or.inl (Or.inl hrejected)))
      · exact reads_jobs hg hl hw hkey h
    | xread streams options =>
      rcases h with ⟨-, -, rfl⟩ | ⟨-, h⟩
      · exact .unchanged hl (Or.inl id)
      · exact .unchanged ((reads_everybody h key).trans hl) (Or.inl id)
    | xrange k start stop count | xrevrange k stop start count =>
      cases List.mem_singleton.mp hkey
      rcases h with ⟨-, -, rfl⟩ | ⟨-, h⟩
      · exact .unchanged hl (Or.inl id)
      · exact .unchanged (xrange_jobs hl h) (Or.inl id)
    | xlen k =>
      cases List.mem_singleton.mp hkey
      exact .unchanged (onStream_jobs hl h).2 (Or.inl id)
    | xgroupCreate k g id mkstream =>
      cases List.mem_singleton.mp hkey
      exact .of_leaves (onStream_jobs hl h).2 (StreamAction.run_createGroup_leaves s.now hg g id mkstream)
        (.other (Or.inl not_false))
    | xgroupCreateconsumer k g consumer =>
      cases List.mem_singleton.mp hkey
      exact .of_leaves (onStream_jobs hl h).2 (StreamAction.run_createConsumer_leaves s.now hg g consumer)
        (.other (Or.inl not_false))
    | xgroupSetid k g id =>
      cases List.mem_singleton.mp hkey
      exact .of_leaves (onStream_jobs hl h).2 (StreamAction.run_setId_elsewhere s.now (hw rfl) id)
        (.other (Or.inl not_false))
    | xgroupDestroy k g =>
      cases List.mem_singleton.mp hkey
      exact .of_leaves (onStream_jobs hl h).2 (StreamAction.run_destroyGroup_elsewhere s.now (hw rfl))
        (.other (Or.inl not_false))
    | xgroupDelconsumer k g consumer =>
      cases List.mem_singleton.mp hkey
      exact .of_leaves (onStream_jobs hl h).2 (StreamAction.run_deleteConsumer_elsewhere s.now (hw rfl) consumer)
        (.other (Or.inl not_false))
    | «exists» | type | ttl | pttl =>
      obtain ⟨-, rfl⟩ := h
      exact .unchanged hl (Or.inl id)
    | persist k =>
      cases List.mem_singleton.mp hkey
      obtain ⟨-, rfl⟩ := h
      refine .unchanged ?_ (Or.inl id)
      unfold persist
      rw [hl]
      exact hl
    | _ => exact absurd hkey hw
  · have hframe := (TypedKeyspace.isLocal_allows tpl call hin).writes (S := {key})
      (fun k hk hmem => hkey (Set.mem_singleton_iff.mp hmem ▸ hk)) h
    exact .unchanged ((hframe.live key rfl).trans hl) (Or.inl fun hc => hkey (TypedCall.mem_dataKeys_of_changesJobs hc))

omit [ServerTexts] [DecidableEq K] [DecidableEq V] in
theorem jobEntry_advance (h : s.live key = jobEntry log) (time : Nat) : (s.advance time).live key = jobEntry log :=
  live_advance_lasting (d := some (Datum.stream log)) h time

/-- What is shown of a call that is executed tells the same, whatever the text of an error. -/
theorem permits_jobs {call : TypedCall K V} (hin : call.InKeyspace) (hw : call.WorksAt key group)
    (hg : log.groups group = some cg) (hl : s.live key = jobEntry log) (h : s.Permits tpl call outcome s') :
    Works key group log call outcome s' := by
  obtain ⟨outcome', halike, hallows⟩ := h
  obtain ⟨event, log', hevent, hstep, hlive⟩ := allows_jobs hin hw hg hl hallows
  exact ⟨event, log', hevent.of_alike halike, hstep, hlive⟩

/-- A call, whatever becomes of its command. -/
theorem callStep_jobs {c : ClientCall K V} (hin : c.call.InKeyspace) (hw : c.call.WorksAt key group)
    (hg : log.groups group = some cg) (hl : s.live key = jobEntry log) (h : CallStep tpl s c outcome s') :
    ∃ event log', JobStep tpl key group s log c outcome event s' ∧ ConsumerLog.LogStep group log event log' ∧
      s'.live key = jobEntry log' := by
  cases h with
  | unsent unsent allows =>
    obtain ⟨event, log', hevent, hstep, hlive⟩ := allows_jobs hin hw hg hl allows
    exact ⟨event, log', .executed (Or.inl unsent) ⟨outcome, Or.inl rfl, allows⟩ hevent, hstep, hlive⟩
  | delivered delivery fits permits =>
    obtain ⟨event, log', hevent, hstep, hlive⟩ := permits_jobs hin hw hg hl permits
    exact ⟨event, log', .executed (Or.inr ⟨delivery, fits⟩) permits hevent, hstep, hlive⟩
  | requestLost delivery => exact ⟨.other, log, .unexecuted _ (Or.inr ⟨_, delivery⟩), .unchanged, hl⟩
  | replyLost delivery sent fits permits =>
    obtain ⟨event, log', hevent, hstep, hlive⟩ := permits_jobs hin hw hg hl permits
    exact ⟨event, log', .replyLost delivery sent fits permits hevent, hstep, hlive⟩
  | tooLong long => exact ⟨.other, log, .unexecuted _ (Or.inl long), .unchanged, hl⟩

/-! ### What calls do to the jobs -/

theorem keyspaceRun_jobs {calls : List (ClientCall K V)} {outcomes : List (Outcome (TypedValue K V))}
    (hin : ∀ c ∈ calls, c.call.InKeyspace) (hw : ∀ c ∈ calls, c.call.WorksAt key group)
    {before : List (LogEvent Bytes (List (K × V)))} (hbefore : ConsumerLog.HistoryOf group before log)
    (hl : s.live key = jobEntry log) (h : KeyspaceRun tpl s calls outcomes s') :
    ∃ events log', JobRun tpl key group s log calls outcomes events s' log' ∧
      ConsumerLog.HistoryOf group (before ++ events) log' ∧ s'.live key = jobEntry log' := by
  induction h generalizing before log with
  | nil s => exact ⟨[], log, .nil hl, by rwa [List.append_nil], hl⟩
  | @cons s s₁ s' c calls outcome outcomes hstep _ ih =>
    obtain ⟨hinC, hin⟩ := List.forall_mem_cons.mp hin
    obtain ⟨hwC, hw⟩ := List.forall_mem_cons.mp hw
    obtain ⟨cg, hg, -⟩ := id hbefore
    obtain ⟨event, log₁, hevent, hlog, hlive⟩ := callStep_jobs hinC hwC hg (jobEntry_advance hl c.elapsed) hstep
    obtain ⟨events, log', hrun, hhistory, hlive'⟩ := ih hin hw (hbefore.step hlog) hlive
    refine ⟨event :: events, log', .cons hl hevent hlog hrun, ?_, hlive'⟩
    rwa [List.append_assoc] at hhistory

/-- The group is made, and the stream with it. -/
theorem allows_create (hzero : ServerTexts.readId 0 "0" = some 0) (hl : s.live key = none)
    (h : s.Allows tpl (.xgroupCreate key group "0" true) outcome s') :
    outcome = .ok (.flag true) ∧ s'.live key = jobEntry (ConsumerLog.empty.setGroup group (some (.start 0))) := by
  have hstream : s.OnStream outcome s' key (.ok (.createGroup group "0" true)) StreamAnswer.value := h
  have hfind : streamView.find (s.datum key) = some none := by
    rw [datum, hl]
    rfl
  unfold TypedKeyspace.OnStream TypedKeyspace.OnView at hstream
  rw [hfind] at hstream
  obtain ⟨stream, ⟨rfl, rfl⟩, rfl⟩ := hstream
  have hstart : StreamAction.readGroupId 0 "0" = some 0 := (if_neg (by decide)).trans hzero
  rw [StreamAction.run_createGroup_none s.now group hstart]
  refine ⟨rfl, ?_⟩
  rw [live_put_self, deadline, hl]
  rfl

end Step

/-! ### Workers -/

section Workers
variable [ServerTexts] {K V : Type} [DecidableEq K] [DecidableEq V] {tpl : Template K V}

omit [DecidableEq V] in
/-- A worker reads from one stream. -/
theorem reads_one {key : K} {group worker id : Bytes} {s s' : TypedKeyspace K V} {log : StreamLog (List (K × V))}
    {outcome : Outcome (TypedValue K V)} {r : ReadFrom} (hl : s.live key = jobEntry log)
    (hr : StreamReading.start (some group) id (some log) = .ok r)
    (h : s.Reads outcome s' (some (group, worker)) [⟨key, id⟩] none true) :
    outcome = .ok (.batches
      (((StreamReading.read (some (group, worker)) none true r (some log)).1.map (key, ·)).toList.map .ofSlots)) := by
  have hstarts : StreamReading.starts s (some group) [(key, id)] = .ok [(key, r)] := by
    unfold StreamReading.starts
    rw [List.mapM_cons, find_of_jobEntry hl]
    dsimp only
    rw [hr]
    rfl
  have hall : (StreamReading.readAll (some (group, worker)) none true [(key, r)] s).1 =
      ((StreamReading.read (some (group, worker)) none true r (some log)).1.map (key, ·)).toList := by
    rw [StreamReading.readAll, find_of_jobEntry hl]
    exact List.append_nil _
  unfold TypedKeyspace.Reads at h
  rw [List.map_cons, List.map_nil, Option.map_some, hstarts] at h
  rw [h.1, ← hall]
  rfl

omit [DecidableEq K] [DecidableEq V] in
theorem start_of_group {group id : Bytes} {log : StreamLog (List (K × V))} {cg : ConsumerGroup Bytes}
    (hg : log.groups group = some cg) : StreamReading.start (some group) id (some log) =
      if id = ">" then .ok .new
      else if id = "$" then .error StreamError.noDollar
      else (ServerTexts.readId 0 id).elim (.error StreamError.invalidId) fun n => .ok (.after n) := by
  unfold StreamReading.start
  rw [Option.any_some, Option.bind_some, hg]
  rfl

omit [ServerTexts] [DecidableEq K] [DecidableEq V] in
theorem ofSlots_jobs (key : K) (jobs : List (Nat × List (K × V))) :
    StreamBatch.ofSlots (key, jobs.map fun e => (e.1, some e.2)) = ⟨key, jobs.map .ofJob⟩ := by
  unfold StreamBatch.ofSlots
  rw [List.map_map]
  rfl

section Encoded
variable {σ : Type} {S : Service σ} {holds : σ → ServerMap → Prop} (hS : S.Documented holds) (hT : S.Transports)
  {encK : K → Bytes} {encV : V → Bytes} (hK : Encodes tpl.keySerializer encK) (hV : Encodes tpl.valueSerializer encV)
  {key : K} {group : Bytes} (hzero : ServerTexts.readId 0 "0" = some 0)
include hS hT hK hV hzero

/-- The group is made, then calls work on the stream, and then one more call is made. -/
theorem exists_jobRun (calls : List (ClientCall K V)) (hin : ∀ c ∈ calls, c.InKeyspace)
    (hw : ∀ c ∈ calls, c.call.WorksAt key group) (elapsed : Nat) (platform : Platform) (last : ClientCall K V)
    (hlast : last.InKeyspace) :
    ∃ outcomes events s log outcome s',
      runClientCalls S tpl (⟨elapsed, platform, .delivered, .xgroupCreate key group "0" true⟩ :: (calls ++ [last]))
        (some S.start) = .ok (.flag true) :: (outcomes ++ [outcome]) ∧
      GroupRun tpl key group ⟨elapsed, platform, .delivered, .xgroupCreate key group "0" true⟩ calls outcomes events s
        log ∧
      ConsumerLog.HistoryOf group events log ∧ s.live key = jobEntry log ∧
      CallStep tpl (s.advance last.elapsed) last outcome s' := by
  have hfits : ¬(ClientCall.mk elapsed platform .delivered (.xgroupCreate key group "0" true)).TooLong tpl := by
    have hplan :
        (TypedCall.xgroupCreate key group "0" true).plan tpl = .call (.xgroupCreate (encK key) group "0" true) _ :=
      TypedPlan.ofRequest_ok (hK.serialize key) _ _
    exact fits_of_length hplan rfl (by decide : 6 ≤ SyncConnection.intMax)
  obtain ⟨time, s', hrun⟩ := exists_startRun hS hT hK hV
    (⟨elapsed, platform, .delivered, .xgroupCreate key group "0" true⟩ :: (calls ++ [last]))
    (List.forall_mem_cons.mpr ⟨⟨trivial, fun h => h.elim⟩,
      List.forall_mem_append.mpr ⟨hin, List.forall_mem_singleton.mpr hlast⟩⟩)
  generalize runClientCalls S tpl _ _ = all at hrun ⊢
  cases hrun with
  | cons hcreate hrun =>
    obtain ⟨created, halike, hallows⟩ := hcreate.permits rfl hfits
    obtain ⟨rfl, hlive⟩ := allows_create hzero rfl hallows
    obtain ⟨outcomes, rest, s₁, rfl, hcalls, hrest⟩ := hrun.exists_of_append
    obtain ⟨events, log, hjobs, hhistory, hlive'⟩ := keyspaceRun_jobs (fun c hc => (hin c hc).1) hw .start hlive hcalls
    cases hrest with
    | cons hstep hnil =>
      cases hnil
      cases OutcomeAlike.eq_ok halike
      exact ⟨outcomes, events, _, log, _, _, rfl, ⟨time, _, .cons hcreate (.nil _), hjobs⟩, hhistory, hlive', hstep⟩

/-- A call that a worker makes in the end. -/
theorem exists_lastRead (worker : Bytes) (calls : List (ClientCall K V)) (hin : ∀ c ∈ calls, c.InKeyspace)
    (hw : ∀ c ∈ calls, c.call.WorksAt key group) (elapsed elapsed' : Nat) (platform platform' : Platform) {id : Bytes}
    (hid : id ≠ []) (r : ReadFrom) (hr : ∀ (log : StreamLog (List (K × V))) cg, log.groups group = some cg →
      StreamReading.start (some group) id (some log) = .ok r) :
    ∃ outcomes events s log,
      runClientCalls S tpl (⟨elapsed, platform, .delivered, .xgroupCreate key group "0" true⟩ ::
        (calls ++ [⟨elapsed', platform', .delivered, .xreadgroup group worker [⟨key, id⟩] {}⟩])) (some S.start) =
        .ok (.flag true) :: (outcomes ++ [.ok (.batches
          (((StreamReading.read (some (group, worker)) none true r (some log)).1.map (key, ·)).toList.map
            .ofSlots))]) ∧
      GroupRun tpl key group ⟨elapsed, platform, .delivered, .xgroupCreate key group "0" true⟩ calls outcomes events s
        log ∧
      ConsumerLog.HistoryOf group events log := by
  obtain ⟨b, bs, rfl⟩ := List.exists_cons_of_ne_nil hid
  have hfits : ¬(ClientCall.mk elapsed' platform' .delivered
      (.xreadgroup group worker [⟨key, b :: bs⟩] {} : TypedCall K V)).TooLong tpl := by
    have hplan : (TypedCall.xreadgroup group worker [⟨key, b :: bs⟩] {}).plan tpl =
        .call (.xreadgroup group worker [⟨encK key, b :: bs⟩] {}) _ :=
      TypedPlan.ofRequest_ok (serializeRequests_ok hK [⟨key, b :: bs⟩]) _ _
    exact fits_of_length hplan rfl (by decide : 7 ≤ SyncConnection.intMax)
  obtain ⟨outcomes, events, s, log, outcome, s', hrun, hjobs, hhistory, hlive, hstep⟩ :=
    exists_jobRun hS hT hK hV hzero calls hin hw elapsed platform
      ⟨elapsed', platform', .delivered, .xreadgroup group worker [⟨key, b :: bs⟩] {}⟩
      ⟨rfl, fun h => h.elim⟩
  refine ⟨outcomes, events, s, log, ?_, hjobs, hhistory⟩
  obtain ⟨cg, hg, -⟩ := hhistory
  obtain ⟨shown, halike, hallows⟩ := hstep.permits rfl hfits
  rcases hallows with ⟨hrejected, -, -⟩ | ⟨-, hreads⟩
  · simp [TypedCall.Rejected, BadCount, BadBlock] at hrejected
  · rw [reads_one (jobEntry_advance hlive elapsed') (hr log cg hg) hreads] at halike
    rw [hrun, OutcomeAlike.eq_ok halike]

end Encoded

end Workers

end Redisdal
