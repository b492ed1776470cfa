import Redisdal.Lib.Locality
import Redisdal.Theorems.KeyspaceRuns

/-! # Sessions on keys of their own

A call depends on what is under the keys it names, and changes nothing else. So calls that keep to some keys see what
they would see without those that keep away from them: clients that work on different keys do not see each other. -/

namespace Redisdal

/-- The keys of the server that a call names. The fields of a hash are keys of the serializer as well. -/
def TypedCall.dataKeys {K V : Type} (call : TypedCall K V) : List K :=
  match call with
  | .delMany ks | .sinter ks => ks
  | .xread streams _ | .xreadgroup _ _ streams _ => streams.map (·.key)
  | call => call.keyArguments.take 1

/-! ### Calls are local -/

namespace TypedKeyspace
open ExpiringMap
variable {K V : Type} [DecidableEq K] [DecidableEq V] {key : K} {keys : List K}

omit [DecidableEq K] [DecidableEq V] in
theorem isLocal_answers {value : TypedKeyspace K V → TypedValue K V}
    (hvalue : ∀ {S : Set K} {s t : TypedKeyspace K V}, (∀ k ∈ keys, k ∈ S) → AgreeOn S s t → value s = value t) :
    IsLocal keys fun s outcome s' => Answers s outcome s' (value s) :=
  .of_read (R := fun a s outcome s' => Answers s outcome s' a) value hvalue fun _ => .of_unchanged

omit [DecidableEq V] in
theorem isLocal_onView {C : Type} {view : DatumView (TypedDatum K V) C}
    {P : C → Outcome (TypedValue K V) → C → Prop} :
    IsLocal [key] fun s outcome s' => OnView s view key P outcome s' := by
  have hlocal := IsLocal.of_elim
    (P := fun outcome : Outcome (TypedValue K V) => outcome = .error (.redisError wrongType))
    (R := fun c s outcome s' => ∃ c', P c outcome c' ∧ s' = s.put key (view.write c'))
    (fun s => view.find (s.datum key)) (fun hkeys h => by rw [h.datum (hkeys key List.mem_cons_self)])
    fun c => .of_exists fun c' => .of_put _
  exact hlocal.congr fun s outcome s' => by
    unfold OnView
    cases view.find (s.datum key) <;> rfl

omit [DecidableEq V] in
theorem isLocal_expires {command : Bytes} {unit time : Int} :
    IsLocal [key] fun (s : TypedKeyspace K V) outcome s' => Expires s outcome s' key command unit time := by
  have hlimit : ∀ milliseconds : Int,
      IsLocal [key] fun (s : TypedKeyspace K V) (outcome : Outcome (TypedValue K V)) s' =>
        outcome = .ok (.flag (s.expire key milliseconds).1) ∧ s' = (s.expire key milliseconds).2 := fun milliseconds =>
    .of_read (R := fun flag s (outcome : Outcome (TypedValue K V)) s' =>
        outcome = .ok (.flag flag) ∧ s' = (s.expire key milliseconds).2)
      (fun s => (s.expire key milliseconds).1) (fun hkeys h => (h.expire (hkeys key List.mem_cons_self) _).1)
      fun _ => .of_expire milliseconds
  have hlocal := IsLocal.of_elim
    (P := fun outcome : Outcome (TypedValue K V) => outcome = .error (.redisError (Expiry.invalidTime command)))
    (fun s => Expiry.delay unit time s.now) (fun _ h => by rw [h.now]) hlimit
  exact hlocal.congr fun s outcome s' => by
    unfold Expires
    cases Expiry.delay unit time s.now <;> rfl

omit [DecidableEq V] in
theorem isLocal_deletes : IsLocal keys fun (s : TypedKeyspace K V) (outcome : Outcome (TypedValue K V)) s' =>
    outcome = .ok (.integer (asLongLong (s.eraseAll keys).1)) ∧ s' = (s.eraseAll keys).2 :=
  .of_read (R := fun (count : Nat) (s : TypedKeyspace K V) (outcome : Outcome (TypedValue K V)) s' =>
      outcome = .ok (.integer (asLongLong count)) ∧ s' = (s.eraseAll keys).2)
    (fun s => (s.eraseAll keys).1) (fun hkeys h => (h.eraseAll hkeys).1) fun _ => .of_eraseAll

omit [DecidableEq V] in
theorem isLocal_popsMany (count : Int) (pop : Nat → List V → List V × List V) :
    IsLocal [key] fun (s : TypedKeyspace K V) outcome s' => PopsMany s outcome s' key count pop :=
  .of_ite .of_unchanged isLocal_onView

omit [DecidableEq K] in
theorem find_congr {S : Set K} {s t : TypedKeyspace K V} (hkeys : ∀ k ∈ keys, k ∈ S) (h : AgreeOn S s t) :
    (keys.mapM fun key => (setView (Finset V)).find (s.datum key)) =
      keys.mapM fun key => (setView (Finset V)).find (t.datum key) := by
  induction keys with
  | nil => rfl
  | cons k ks ih =>
    obtain ⟨hk, hks⟩ := List.forall_mem_cons.mp hkeys
    rw [List.mapM_cons, List.mapM_cons, h.datum hk, ih hks]

omit [DecidableEq K] in
theorem isLocal_intersects :
    IsLocal keys fun (s : TypedKeyspace K V) outcome s' => Intersects s outcome s' keys := by
  have hlocal := IsLocal.of_elim
    (P := fun outcome : Outcome (TypedValue K V) => outcome = .error (.redisError wrongType))
    (R := fun sets s outcome s' => (∃ l, outcome = .ok (.values l) ∧ l.Nodup ∧
      ∀ v, v ∈ l ↔ sets ≠ [] ∧ ∀ members ∈ sets, v ∈ members) ∧ s' = s)
    (fun s => keys.mapM fun key => (setView (Finset V)).find (s.datum key)) find_congr fun sets => .of_unchanged
  exact hlocal.congr fun s outcome s' => by
    unfold Intersects
    cases keys.mapM fun key => (setView (Finset V)).find (s.datum key) with
    | none => rfl
    | some sets => exact and_comm

theorem isLocal_getAndSet [ServerTexts] (tpl : Template K V) (value : V) :
    IsLocal [key] fun (s : TypedKeyspace K V) outcome s' => s.Allows tpl (.getAndSet key value) outcome s' := by
  have hlocal : IsLocal [key] _ := .of_elim
    (P := fun outcome : Outcome (TypedValue K V) => outcome = .error (.redisError wrongType))
    (R := fun t (s : TypedKeyspace K V) outcome s' => ∃ text, tpl.serializeValue value = .ok text ∧
      outcome = (t.mapM tpl.deserializeValue).map .value ∧ s' = s.store key (.text text) none)
    (fun s => textView.find (s.datum key)) (fun hkeys h => by rw [h.datum (hkeys key List.mem_cons_self)])
    fun t => .of_exists fun text => .of_and (.of_store _ _)
  exact hlocal.congr fun s outcome s' => by
    unfold Allows
    dsimp only
    cases textView.find (s.datum key) <;> rfl

/-! ### Streams -/

variable [ServerTexts]

omit [DecidableEq K] [DecidableEq V] in
omit [ServerTexts] in
theorem isLocal_unlessRejected {rejected : Prop} {P : TypedKeyspace K V → Outcome (TypedValue K V) →
    TypedKeyspace K V → Prop} (h : IsLocal keys P) :
    IsLocal keys fun s outcome s' => UnlessRejected s outcome s' rejected (P s outcome s') :=
  .of_or (.of_and .of_unchanged) (.of_and h)

omit [DecidableEq V] in
theorem isLocal_onStream (action : Except Bytes (StreamAction (List (K × V))))
    (value : StreamAnswer (List (K × V)) → TypedValue K V) :
    IsLocal [key] fun s outcome s' => OnStream s outcome s' key action value := by
  cases action with
  | error message => exact .of_unchanged
  | ok a =>
    exact .of_read (R := fun now s outcome s' => OnView s streamView key (fun stream out stream' =>
      out = StreamAnswer.outcome value (a.run now stream).1 ∧ stream' = (a.run now stream).2) outcome s')
      (·.now) (fun _ h => h.now) fun _ => isLocal_onView

section Reads
variable {S : Set K} {s t : TypedKeyspace K V}

omit [DecidableEq K] [DecidableEq V] in
theorem starts_congr {group : Option Bytes} {streams : List (K × Bytes)} (hkeys : ∀ k ∈ streams.map Prod.fst, k ∈ S)
    (h : AgreeOn S s t) : StreamReading.starts s group streams = StreamReading.starts t group streams := by
  unfold StreamReading.starts
  induction streams with
  | nil => rfl
  | cons stream streams ih =>
    obtain ⟨hk, hks⟩ := List.forall_mem_cons.mp hkeys
    rw [List.mapM_cons, List.mapM_cons, h.datum hk, ih hks]

omit [DecidableEq K] [DecidableEq V] in
theorem map_fst_of_starts {group : Option Bytes} {streams : List (K × Bytes)} {starts : List (K × ReadFrom)}
    (h : StreamReading.starts s group streams = .ok starts) : starts.map Prod.fst = streams.map Prod.fst := by
  have hstarts := Except.mapM_eq_ok_iff.mp h
  clear h
  induction hstarts with
  | nil => rfl
  | cons hfirst _ ih =>
    rw [List.map_cons, List.map_cons, ih]
    split at hfirst
    · cases hfirst
    · obtain ⟨start, -, rfl⟩ := Except.map_eq_ok_iff.mp hfirst
      rfl

omit [DecidableEq V] in
omit [ServerTexts] in
theorem readAll_congr (reader : Option (Bytes × Bytes)) (limit : Option Nat) (track : Bool)
    {starts : List (K × ReadFrom)} (hkeys : ∀ k ∈ starts.map Prod.fst, k ∈ S) (h : AgreeOn S s t) :
    (StreamReading.readAll reader limit track starts s).1 = (StreamReading.readAll reader limit track starts t).1 ∧
      AgreeOn S (StreamReading.readAll reader limit track starts s).2
        (StreamReading.readAll reader limit track starts t).2 := by
  induction starts generalizing s t with
  | nil => exact ⟨rfl, h⟩
  | cons first rest ih =>
    obtain ⟨key, first⟩ := first
    obtain ⟨hk, hks⟩ := List.forall_mem_cons.mp hkeys
    rw [StreamReading.readAll, StreamReading.readAll, h.datum hk]
    cases streamView.find (t.datum key) with
    | none => exact ih hks h
    | some log =>
      obtain ⟨hbatches, hnext⟩ :=
        ih hks (h.put hk (streamView.write (StreamReading.read reader limit track first log).2))
      exact ⟨congrArg (_ ++ ·) hbatches, hnext⟩

omit [DecidableEq V] in
omit [ServerTexts] in
theorem agreeOn_readAll {reader : Option (Bytes × Bytes)} {limit : Option Nat} {track : Bool}
    {starts : List (K × ReadFrom)} (hkeys : ∀ k ∈ starts.map Prod.fst, k ∉ S) (s : TypedKeyspace K V) :
    AgreeOn S (StreamReading.readAll reader limit track starts s).2 s := by
  induction starts generalizing s with
  | nil => exact .refl s
  | cons first rest ih =>
    obtain ⟨key, first⟩ := first
    obtain ⟨hk, hks⟩ := List.forall_mem_cons.mp hkeys
    rw [StreamReading.readAll]
    cases streamView.find (s.datum key) with
    | none => exact ih hks s
    | some log => exact (ih hks _).trans (agreeOn_put s hk _)

omit [DecidableEq V] in
theorem isLocal_reads (reader : Option (Bytes × Bytes)) (streams : List (StreamReadRequest K)) (count : Option Int)
    (track : Bool) : IsLocal (streams.map (·.key)) fun (s : TypedKeyspace K V) outcome s' =>
      Reads s outcome s' reader streams count track := by
  have hpairs : (streams.map fun stream => (stream.key, stream.id)).map Prod.fst = streams.map (·.key) := by
    rw [List.map_map]
    rfl
  constructor
  case reads =>
    intro S s t s' outcome hkeys h hreads
    unfold Reads at hreads ⊢
    rw [starts_congr (by rwa [hpairs]) h] at hreads
    cases hstarts :
      StreamReading.starts t (reader.map Prod.fst) (streams.map fun stream => (stream.key, stream.id)) with
    | error message =>
      rw [hstarts] at hreads
      obtain ⟨houtcome, rfl⟩ := hreads
      exact ⟨t, ⟨houtcome, rfl⟩, h⟩
    | ok starts =>
      rw [hstarts] at hreads
      obtain ⟨houtcome, rfl⟩ := hreads
      have hstartKeys : ∀ k ∈ starts.map Prod.fst, k ∈ S := by rwa [map_fst_of_starts hstarts, hpairs]
      obtain ⟨hbatches, hnext⟩ := readAll_congr reader (count.map Int.toNat) track hstartKeys h
      exact ⟨_, ⟨by rw [houtcome, hbatches], rfl⟩, hnext⟩
  case writes =>
    intro S s s' outcome hkeys hreads
    unfold Reads at hreads
    cases hstarts :
      StreamReading.starts s (reader.map Prod.fst) (streams.map fun stream => (stream.key, stream.id)) with
    | error message =>
      rw [hstarts] at hreads
      obtain ⟨-, rfl⟩ := hreads
      exact .refl _
    | ok starts =>
      rw [hstarts] at hreads
      obtain ⟨-, rfl⟩ := hreads
      exact agreeOn_readAll (by rwa [map_fst_of_starts hstarts, hpairs]) s

end Reads

/-! ### Sorted sets -/

omit [ServerTexts] in
theorem isLocal_addsScores {members : UnorderedMap V Double} :
    IsLocal [key] fun (s : TypedKeyspace K V) outcome s' => AddsScores s outcome s' key members := by
  unfold AddsScores
  cases readScores members.pairs with
  | none => exact .of_unchanged
  | some scores => exact isLocal_onView

theorem isLocal_incrementsScore {increment : Double} {member : V} :
    IsLocal [key] fun (s : TypedKeyspace K V) outcome s' => IncrementsScore s outcome s' key increment member := by
  unfold IncrementsScore
  cases Score.ofDouble? increment with
  | none => exact .of_unchanged
  | some delta => exact isLocal_onView

/-- A call depends on what is under the keys that it names, and changes nothing else. -/
theorem isLocal_allows (tpl : Template K V) (call : TypedCall K V) (hin : call.InKeyspace) :
    IsLocal call.dataKeys fun (s : TypedKeyspace K V) outcome s' => s.Allows tpl call outcome s' := by
  cases call with
  | «exists» key => exact isLocal_answers fun hkeys h => by rw [h.live key (hkeys key List.mem_cons_self)]
  | type key => exact isLocal_answers fun hkeys h => by rw [h.datum (hkeys key List.mem_cons_self)]
  | ttl key | pttl key => exact isLocal_answers fun hkeys h => by rw [h.timeLeft (hkeys key List.mem_cons_self)]
  | ping | pingMessage => exact isLocal_answers fun _ _ => rfl
  | expire | pexpire => exact isLocal_expires
  | persist key =>
    exact .of_read (R := fun flag s (outcome : Outcome (TypedValue K V)) s' =>
        outcome = .ok (.flag flag) ∧ s' = (s.persist key).2)
      (fun s => (s.persist key).1) (fun hkeys h => (h.persist (hkeys key List.mem_cons_self)).1) fun _ => .of_persist
  | del | delMany => exact isLocal_deletes
  | set key value => exact .of_exists fun text => .of_and (.of_store _ _)
  | getAndSet key value => exact isLocal_getAndSet tpl value
  | sadd key members | srem key members => exact .of_ite (isLocal_answers fun _ _ => rfl) isLocal_onView
  | hdelMany key hashKeys => exact .of_ite (isLocal_answers fun _ _ => rfl) isLocal_onView
  | hgetMany key hashMap =>
    by_cases hempty : hashMap.entries = []
    · exact IsLocal.congr (isLocal_answers fun _ _ => rfl) fun s outcome s' => by
        rw [Allows, if_pos hempty]
    · have hkeys : (TypedCall.hgetMany key hashMap).dataKeys = [key] := by
        show (if hashMap.entries.isEmpty then [] else key :: hashMap.keys).take 1 = [key]
        rw [if_neg (by simpa using hempty)]
        rfl
      rw [hkeys]
      exact .of_ite (isLocal_answers fun _ _ => rfl) isLocal_onView
  | hsetMany key hashMap => exact .of_ite (isLocal_answers fun _ _ => rfl) isLocal_onView
  | lpopCount key count => exact isLocal_popsMany count fun n l => (l.take n, l.drop n)
  | rpopCount key count => exact isLocal_popsMany count fun n l => (l.reverse.take n, (l.reverse.drop n).reverse)
  | sinter keys => exact isLocal_intersects
  | keys | scan | hscan | eval | execCmd => exact absurd hin id
  | zadd key members => exact .of_ite (isLocal_answers fun _ _ => rfl) isLocal_addsScores
  | zrem key members => exact .of_ite (isLocal_answers fun _ _ => rfl) isLocal_onView
  | zincrby => exact isLocal_incrementsScore
  | xadd | xrange | xrevrange | xtrim => exact isLocal_unlessRejected (isLocal_onStream _ _)
  | xread streams options => exact isLocal_unlessRejected (isLocal_reads _ streams _ _)
  | xreadgroup group consumer streams options => exact isLocal_unlessRejected (isLocal_reads _ streams _ _)
  | xdel key ids => exact .of_ite (isLocal_answers fun _ _ => rfl) (isLocal_onStream _ _)
  | xack key group ids => exact .of_ite (isLocal_answers fun _ _ => rfl) (isLocal_onStream _ _)
  | xlen key => exact isLocal_onStream (.ok .length) StreamAnswer.value
  | xgroupCreate key group id mkstream =>
    exact isLocal_onStream (.ok (.createGroup group id mkstream)) StreamAnswer.value
  | xgroupSetid key group id => exact isLocal_onStream (.ok (.setId group id)) StreamAnswer.value
  | xgroupDestroy key group => exact isLocal_onStream (.ok (.destroyGroup group)) StreamAnswer.flag
  | xgroupCreateconsumer key group consumer =>
    exact isLocal_onStream (.ok (.createConsumer group consumer)) StreamAnswer.flag
  | xgroupDelconsumer key group consumer =>
    exact isLocal_onStream (.ok (.deleteConsumer group consumer)) StreamAnswer.value
  | _ => exact isLocal_onView

/-- An outcome that is permitted shows what is allowed. -/
theorem isLocal_permits (tpl : Template K V) (call : TypedCall K V) (hin : call.InKeyspace) :
    IsLocal call.dataKeys fun (s : TypedKeyspace K V) outcome s' => s.Permits tpl call outcome s' :=
  .of_shown (isLocal_allows tpl call hin)

omit [DecidableEq V] [ServerTexts] in
/-- A call on one type of data where nothing limits it. -/
theorem onView_lasting {C : Type} {view : DatumView (TypedDatum K V) C} {P : C → Outcome (TypedValue K V) → C → Prop}
    {s s' : TypedKeyspace K V} {outcome : Outcome (TypedValue K V)} {c : C}
    (hfind : view.find (view.write c) = some c) (hlive : s.live key = lasting (view.write c))
    (h : s.OnView view key P outcome s') : ∃ c', P c outcome c' ∧ s'.live key = lasting (view.write c') := by
  unfold OnView at h
  rw [datum_of_lasting hlive, hfind] at h
  obtain ⟨c', hP, rfl⟩ := h
  exact ⟨c', hP, live_put_lasting hlive _⟩

end TypedKeyspace

/-! ### Sessions -/

section Sessions
open ExpiringMap
variable {K V : Type} (S : Set K) [DecidablePred (· ∈ S)]

/-- The call keeps to the keys. -/
def ClientCall.Within (c : ClientCall K V) : Prop := ∀ k ∈ c.call.dataKeys, k ∈ S

instance (c : ClientCall K V) : Decidable (c.Within S) := inferInstanceAs (Decidable (∀ k ∈ c.call.dataKeys, k ∈ S))

/-- The calls that keep to the keys, by themselves: the time that others took passes before the next of them. -/
def session : Nat → List (ClientCall K V) → List (ClientCall K V)
  | _, [] => []
  | waited, c :: calls =>
    if c.Within S then { c with elapsed := waited + c.elapsed } :: session 0 calls
    else session (waited + c.elapsed) calls

/-- The outcomes of the calls that keep to the keys. -/
def sessionOutcomes : List (ClientCall K V) → List (Outcome (TypedValue K V)) → List (Outcome (TypedValue K V))
  | c :: calls, outcome :: outcomes =>
    if c.Within S then outcome :: sessionOutcomes calls outcomes else sessionOutcomes calls outcomes
  | _, _ => []

variable [ServerTexts] [DecidableEq K] [DecidableEq V] {tpl : Template K V} {c : ClientCall K V}

theorem isLocal_callStep (hin : c.call.InKeyspace) :
    IsLocal c.call.dataKeys fun (s : TypedKeyspace K V) outcome s' => CallStep tpl s c outcome s' where
  reads := by
    intro S s t s' outcome hkeys h hstep
    cases hstep with
    | unsent unsent allows =>
      obtain ⟨t', hallows, hnext⟩ := (TypedKeyspace.isLocal_allows tpl c.call hin).reads hkeys h allows
      exact ⟨t', .unsent unsent hallows, hnext⟩
    | delivered delivery fits permits =>
      obtain ⟨t', hpermits, hnext⟩ := (TypedKeyspace.isLocal_permits tpl c.call hin).reads hkeys h permits
      exact ⟨t', .delivered delivery fits hpermits, hnext⟩
    | requestLost delivery sent fits => exact ⟨t, .requestLost delivery sent fits, h⟩
    | replyLost delivery sent fits permits =>
      obtain ⟨t', hpermits, hnext⟩ := (TypedKeyspace.isLocal_permits tpl c.call hin).reads hkeys h permits
      exact ⟨t', .replyLost delivery sent fits hpermits, hnext⟩
    | tooLong long => exact ⟨t, .tooLong long, h⟩
  writes := by
    intro S s s' outcome hkeys hstep
    cases hstep with
    | unsent _ allows => exact (TypedKeyspace.isLocal_allows tpl c.call hin).writes hkeys allows
    | delivered _ _ permits => exact (TypedKeyspace.isLocal_permits tpl c.call hin).writes hkeys permits
    | requestLost => exact .refl s
    | replyLost _ _ _ permits => exact (TypedKeyspace.isLocal_permits tpl c.call hin).writes hkeys permits
    | tooLong => exact .refl s

/-- What a call does depends on the time at which it is made, not on the time since the last one. -/
theorem CallStep.withElapsed {s s' : TypedKeyspace K V} {outcome : Outcome (TypedValue K V)}
    (h : CallStep tpl s c outcome s') (elapsed : Nat) : CallStep tpl s { c with elapsed } outcome s' := by
  cases h with
  | unsent unsent allows => exact .unsent unsent allows
  | delivered delivery fits permits => exact .delivered delivery fits permits
  | requestLost delivery sent fits => exact .requestLost delivery sent fits
  | replyLost delivery sent fits permits => exact .replyLost delivery sent fits permits
  | tooLong long => exact .tooLong long

omit [DecidablePred (· ∈ S)] in
/-- Calls that keep away from the keys leave what is under them to time. -/
theorem KeyspaceRun.agreeOn {s s' : TypedKeyspace K V} {calls : List (ClientCall K V)}
    {outcomes : List (Outcome (TypedValue K V))} (h : KeyspaceRun tpl s calls outcomes s')
    (hin : ∀ c ∈ calls, c.call.InKeyspace) (hapart : ∀ c ∈ calls, ∀ k ∈ c.call.dataKeys, k ∉ S) :
    AgreeOn S s' (s.advance (calls.map (·.elapsed)).sum) := by
  induction h with
  | nil s =>
    rw [List.map_nil, List.sum_nil, advance_zero]
    exact .refl s
  | @cons s s₁ s' c calls outcome outcomes hstep _ ih =>
    obtain ⟨hinC, hin⟩ := List.forall_mem_cons.mp hin
    obtain ⟨hapartC, hapart⟩ := List.forall_mem_cons.mp hapart
    have hframe := (isLocal_callStep hinC).writes hapartC hstep
    rw [List.map_cons, List.sum_cons, ← advance_advance]
    exact (ih hin hapart).trans (hframe.advance _)

/-- A run, without the calls that keep away from the keys, from a keyspace that shows the same under these. -/
theorem KeyspaceRun.exists_session {s s' t : TypedKeyspace K V} {calls : List (ClientCall K V)}
    {outcomes : List (Outcome (TypedValue K V))} (h : KeyspaceRun tpl s calls outcomes s')
    (hin : ∀ c ∈ calls, c.call.InKeyspace) (hapart : ∀ c ∈ calls, c.Within S ∨ ∀ k ∈ c.call.dataKeys, k ∉ S)
    (waited : Nat) (hagree : AgreeOn S s (t.advance waited)) :
    ∃ t', KeyspaceRun tpl t (session S waited calls) (sessionOutcomes S calls outcomes) t' := by
  induction h generalizing t waited with
  | nil s => exact ⟨t, .nil t⟩
  | @cons s s₁ s' c calls outcome outcomes hstep _ ih =>
    obtain ⟨hinC, hin⟩ := List.forall_mem_cons.mp hin
    obtain ⟨hapartC, hapart⟩ := List.forall_mem_cons.mp hapart
    have hnow : AgreeOn S (s.advance c.elapsed) (t.advance (waited + c.elapsed)) := by
      rw [← advance_advance]
      exact hagree.advance c.elapsed
    unfold session sessionOutcomes
    by_cases hwithin : c.Within S
    · rw [if_pos hwithin, if_pos hwithin]
      obtain ⟨t₁, hstep', hagree'⟩ := (isLocal_callStep hinC).reads hwithin hnow hstep
      obtain ⟨t', hrest⟩ := ih hin hapart (t := t₁) 0 (by rwa [advance_zero])
      exact ⟨t', .cons (hstep'.withElapsed _) hrest⟩
    · rw [if_neg hwithin, if_neg hwithin]
      have hframe := (isLocal_callStep hinC).writes (hapartC.resolve_left hwithin) hstep
      exact ih hin hapart _ (hframe.trans hnow)

end Sessions

end Redisdal
