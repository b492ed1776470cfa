import Redisdal.Theorems.UrlRoundTrip

/-! # What a query string says

`parse_query_params` on any byte string: which parameters make it fail, with the error of the first of them,
and which values it returns otherwise. -/

namespace Redisdal.Config

/-- A parameter with which `parse_query_params` fails. -/
def Rejected (p : Bytes × Bytes) : Prop := p.1 = "db" ∨ p.1 = "index" ∧ ¬WellFormedIndex p.2

/-- The value of the last parameter with one of the names. -/
def lastValue (names : List Bytes) (params : List (Bytes × Bytes)) : Option Bytes :=
  (params.filter fun p => p.1 ∈ names).getLast?.map Prod.snd

/-- The last values, and the defaults of those that are not there. -/
def queryValues (params : List (Bytes × Bytes)) : QueryInfo where
  username := (lastValue ["username"] params).getD []
  password := (lastValue ["password", "auth"] params).getD []
  index := ((lastValue ["index"] params).map fun text => UInt32.ofNat (Bytes.natValue text)).getD 0

/-! ### One parameter -/

/-- What a parameter that is not rejected makes of the information. -/
def assign (info : QueryInfo) (p : Bytes × Bytes) : QueryInfo where
  username := if p.1 ∈ (["username"] : List Bytes) then p.2 else info.username
  password := if p.1 ∈ (["password", "auth"] : List Bytes) then p.2 else info.password
  index := if p.1 ∈ (["index"] : List Bytes) then UInt32.ofNat (Bytes.natValue p.2) else info.index

theorem wellFormedIndex_of_fromChars {text : Bytes} {v : Int} (hvalue : (fromChars uint32 text).value = .ok v)
    (hrest : (fromChars uint32 text).rest = []) : WellFormedIndex text := by
  have hnumeral : ∃ w, CharsNumeral uint32 text w := by
    by_contra hnot
    rcases fromChars_of_not_numeral (not_exists.mp hnot) with h | h
    · rw [hvalue] at h
      cases h
    · exact h hrest
  obtain ⟨w, hw⟩ := hnumeral
  have hread := fromChars_of_numeral hw
  cases hw with
  | plain hdigits =>
    refine ⟨hdigits, ?_⟩
    by_contra hbound
    have hout : ¬uint32.InRange (Bytes.natValue text) := fun hin => by
      have hmax : (Bytes.natValue text : Int) ≤ 2 ^ 32 - 1 := hin.2
      omega
    rw [hread, if_neg hout] at hvalue
    cases hvalue
  | minus hsigned => cases hsigned

theorem applyParam_index {text : Bytes} (h : WellFormedIndex text) (info : QueryInfo) :
    applyParam info "index" text = .ok { info with index := UInt32.ofNat (Bytes.natValue text) } := by
  have hindex := applyParam_assign info (.index text h)
  rw [Param.name, Param.text, Param.assign] at hindex
  rw [hindex, ← UInt32.ofNatLT_eq_ofNat (h := h.bound)]
  rfl

theorem applyParam_of_bad_index {text : Bytes} (h : ¬WellFormedIndex text) (info : QueryInfo) :
    applyParam info "index" text = .error (.invalidArgument "Invalid Redis database index") := by
  unfold applyParam
  rw [if_pos rfl]
  dsimp only
  split
  · next v hvalue =>
    by_cases hrest : (fromChars uint32 text).rest = []
    · exact absurd (wellFormedIndex_of_fromChars hvalue hrest) h
    · rw [if_pos hrest]
      rfl
  · rfl

theorem applyParam_of_rejected {p : Bytes × Bytes} (h : Rejected p) :
    ∃ what, ∀ info, applyParam info p.1 p.2 = .error (.invalidArgument what) := by
  obtain ⟨name, text⟩ := p
  rcases h with hname | ⟨hname, hbad⟩
  · cases hname
    exact ⟨_, fun _ => rfl⟩
  · cases hname
    exact ⟨_, applyParam_of_bad_index hbad⟩

theorem applyParam_of_not_rejected {p : Bytes × Bytes} (h : ¬Rejected p) (info : QueryInfo) :
    applyParam info p.1 p.2 = .ok (assign info p) := by
  obtain ⟨name, text⟩ := p
  obtain ⟨hdb, hbad⟩ := not_or.mp h
  by_cases hindex : name = "index"
  · subst hindex
    have hwell : WellFormedIndex text := by
      by_contra hnot
      exact hbad ⟨rfl, hnot⟩
    exact applyParam_index hwell info
  unfold applyParam assign
  rw [if_neg hindex, if_neg hdb]
  simp only [List.mem_cons, List.not_mem_nil, or_false, hindex, if_false]
  split
  · next hname => rcases hname with rfl | rfl <;> rfl
  · split <;> rfl

/-! ### All of them -/

/-- The loop over the parameters. -/
def applyAll (info : QueryInfo) (params : List (Bytes × Bytes)) : Outcome QueryInfo :=
  params.foldlM (fun info p => applyParam info p.1 p.2) info

theorem parseQueryParams_eq_applyAll (query : Bytes) : parseQueryParams query = applyAll {} (parameters query) := by
  unfold parseQueryParams applyAll
  rw [findAll_paramRegex, List.foldlM_map]
  rfl

/-- The first rejected parameter ends the loop with its own error; where there is none, every one is assigned. -/
theorem applyAll_cases (params : List (Bytes × Bytes)) (info : QueryInfo) :
    (∃ before bad after, params = before ++ bad :: after ∧ (∀ p ∈ before, ¬Rejected p) ∧ Rejected bad ∧
        applyAll info params = applyParam {} bad.1 bad.2) ∨
      ((∀ p ∈ params, ¬Rejected p) ∧ applyAll info params = .ok (params.foldl assign info)) := by
  induction params generalizing info with
  | nil => exact Or.inr ⟨by simp, rfl⟩
  | cons p params ih =>
    have hcons : applyAll info (p :: params) = applyParam info p.1 p.2 >>= fun info => applyAll info params :=
      List.foldlM_cons
    by_cases hp : Rejected p
    · obtain ⟨what, hwhat⟩ := applyParam_of_rejected hp
      refine Or.inl ⟨[], p, params, rfl, by simp, hp, ?_⟩
      rw [hcons, hwhat, hwhat]
      rfl
    · rw [applyParam_of_not_rejected hp, Except.ok_bind] at hcons
      rcases ih (assign info p) with ⟨before, bad, after, rfl, hbefore, hbad, hrun⟩ | ⟨hall, hrun⟩
      · exact Or.inl ⟨p :: before, bad, after, rfl, List.forall_mem_cons.mpr ⟨hp, hbefore⟩, hbad, hcons.trans hrun⟩
      · exact Or.inr ⟨List.forall_mem_cons.mpr ⟨hp, hall⟩, hcons.trans hrun⟩

theorem lastValue_cons (names : List Bytes) (p : Bytes × Bytes) (params : List (Bytes × Bytes)) :
    lastValue names (p :: params) = (lastValue names params).or (if p.1 ∈ names then some p.2 else none) := by
  unfold lastValue
  by_cases hp : p.1 ∈ names
  · rw [List.filter_cons_of_pos (by simpa using hp), List.getLast?_cons, if_pos hp]
    cases (params.filter fun p => p.1 ∈ names).getLast? <;> rfl
  · rw [List.filter_cons_of_neg (by simpa using hp), if_neg hp, Option.or_none]

theorem foldl_assign_eq (params : List (Bytes × Bytes)) (info : QueryInfo) :
    params.foldl assign info = ⟨(lastValue ["username"] params).getD info.username,
      (lastValue ["password", "auth"] params).getD info.password,
      ((lastValue ["index"] params).map fun text => UInt32.ofNat (Bytes.natValue text)).getD info.index⟩ := by
  induction params generalizing info with
  | nil => rfl
  | cons p params ih =>
    have hlast {α : Type} (names : List Bytes) (read : Bytes → α) (a : α) :
        ((lastValue names (p :: params)).map read).getD a =
          ((lastValue names params).map read).getD (if p.1 ∈ names then read p.2 else a) := by
      rw [lastValue_cons]
      cases lastValue names params with
      | some text => rfl
      | none => split <;> rfl
    have htext (names : List Bytes) (a : Bytes) := hlast names id a
    simp only [Option.map_id, id_eq] at htext
    rw [List.foldl_cons, ih, htext, htext, hlast]
    rfl

/-- The call fails where a parameter is rejected, and returns the last values otherwise. -/
theorem parseQueryParams_cases (query : Bytes) :
    ((∃ p ∈ parameters query, Rejected p) ∧ ∃ what, parseQueryParams query = .error (.invalidArgument what)) ∨
      ((∀ p ∈ parameters query, ¬Rejected p) ∧ parseQueryParams query = .ok (queryValues (parameters query))) := by
  rw [parseQueryParams_eq_applyAll]
  rcases applyAll_cases (parameters query) {} with ⟨before, bad, after, hparams, -, hbad, hrun⟩ | ⟨hall, hrun⟩
  · obtain ⟨what, hwhat⟩ := applyParam_of_rejected hbad
    exact Or.inl ⟨⟨bad, by simp [hparams], hbad⟩, what, hrun.trans (hwhat _)⟩
  · exact Or.inr ⟨hall, hrun.trans (congrArg _ (foldl_assign_eq _ _))⟩

/-- The matches of the regular expression are the parameters of the segments, from left to right. The call fails
    exactly where one of them is rejected; otherwise the last value of each name counts. -/
theorem parseQueryParams_eq_split (query : Bytes) :
    paramRegex.findAll query = (parameters query).map (fun p => [p.1, p.2]) ∧
      ((∃ what, parseQueryParams query = .error (.invalidArgument what)) ↔ ∃ p ∈ parameters query, Rejected p) ∧
      ∀ info, parseQueryParams query = .ok info ↔
        (∀ p ∈ parameters query, ¬Rejected p) ∧ info = queryValues (parameters query) := by
  refine ⟨findAll_paramRegex query, ?_⟩
  rcases parseQueryParams_cases query with ⟨hex, what, hrun⟩ | ⟨hall, hrun⟩
  · refine ⟨iff_of_true ⟨what, hrun⟩ hex, fun info => ?_⟩
    obtain ⟨p, hp, hbad⟩ := hex
    rw [hrun]
    exact iff_of_false (fun h => by cases h) fun h => h.1 p hp hbad
  · refine ⟨iff_of_false (fun h => ?_) fun h => ?_, fun info => ?_⟩
    · obtain ⟨what, hwhat⟩ := h
      rw [hrun] at hwhat
      cases hwhat
    · obtain ⟨p, hp, hbad⟩ := h
      exact hall p hp hbad
    · rw [hrun]
      exact ⟨fun h => ⟨hall, (Except.ok.inj h).symm⟩, fun h => congrArg _ h.2.symm⟩

example : parseQueryParams "a&==username=bob=x&&index=1&index=07" = .ok ⟨"bob=x", [], 7⟩ := by rfl

end Redisdal.Config
