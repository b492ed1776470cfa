import Mathlib.Data.List.TakeWhile
import Redisdal.Config

/-! # The query of a connection URL

The matches of the regular expression in `parse_query_params` are the parameters that plain splitting gives. -/

namespace Redisdal.Config

/-! ### The parameters of a query -/

def isEquals (c : UInt8) : Bool := c == Bytes.ofChar '='

/-- A character of a value. -/
def isValueChar (c : UInt8) : Bool := c != Bytes.ofChar '&'

/-- A character of a name. -/
def isNameChar (c : UInt8) : Bool := c != Bytes.ofChar '=' && c != Bytes.ofChar '&'

/-- The parameter of a segment: past its leading equals signs, the text before the next one and the text after it. -/
def segmentParam (segment : Bytes) : Option (Bytes × Bytes) :=
  match Bytes.cut (Bytes.ofChar '=') (segment.dropWhile isEquals) with
  | some (name, value) => if name = [] then none else some (name, value)
  | none => none

/-- The parameters of the segments between ampersands. -/
def parameters (query : Bytes) : List (Bytes × Bytes) := (query.splitOn (Bytes.ofChar '&')).filterMap segmentParam

theorem isEquals_iff {c : UInt8} : isEquals c = true ↔ c = Bytes.ofChar '=' := by
  simp [isEquals]

theorem isValueChar_iff {c : UInt8} : isValueChar c = true ↔ c ≠ Bytes.ofChar '&' := by
  simp [isValueChar]

theorem isNameChar_iff {c : UInt8} : isNameChar c = true ↔ c ≠ Bytes.ofChar '=' ∧ c ≠ Bytes.ofChar '&' := by
  simp [isNameChar]

theorem isNameChar_eq_false {c : UInt8} (h : isNameChar c = false) :
    c = Bytes.ofChar '=' ∨ c = Bytes.ofChar '&' := by
  by_contra hnot
  rw [isNameChar_iff.mpr (not_or.mp hnot)] at h
  cases h

theorem segmentParam_equals (segment : Bytes) : segmentParam (Bytes.ofChar '=' :: segment) = segmentParam segment := rfl

theorem segmentParam_of_not_mem {segment : Bytes} (h : Bytes.ofChar '=' ∉ segment) : segmentParam segment = none := by
  have hcut : Bytes.cut (Bytes.ofChar '=') (segment.dropWhile isEquals) = none :=
    Bytes.cut_eq_none.mpr fun hmem => h ((List.dropWhile_suffix _).subset hmem)
  unfold segmentParam
  rw [hcut]

theorem segmentParam_pair {name : Bytes} (hne : name ≠ []) (h : Bytes.ofChar '=' ∉ name) (value : Bytes) :
    segmentParam (name ++ Bytes.ofChar '=' :: value) = some (name, value) := by
  obtain ⟨c, rest, rfl⟩ := List.exists_cons_of_ne_nil hne
  have hc : ¬isEquals c = true := fun heq => h (by simp [isEquals_iff.mp heq])
  unfold segmentParam
  rw [List.cons_append, List.dropWhile_cons_of_neg hc, ← List.cons_append, Bytes.cut_append value h]
  exact if_neg hne

/-! ### The segments, character by character -/

theorem parameters_ampersand (s : Bytes) : parameters (Bytes.ofChar '&' :: s) = parameters s := by
  unfold parameters
  rw [List.splitOn_cons_eq_if_modifyHead, if_pos (beq_self_eq_true _)]
  rfl

theorem exists_splitOn (s : Bytes) : ∃ segments, s.splitOn (Bytes.ofChar '&') = s.takeWhile isValueChar :: segments ∧
    parameters (s.dropWhile isValueChar) = segments.filterMap segmentParam := by
  induction s with
  | nil => exact ⟨[], rfl, rfl⟩
  | cons c s ih =>
    obtain ⟨segments, hsplit, hrest⟩ := ih
    rw [List.splitOn_cons_eq_if_modifyHead]
    by_cases hc : c = Bytes.ofChar '&'
    · subst hc
      refine ⟨s.splitOn (Bytes.ofChar '&'), by simp [isValueChar], ?_⟩
      rw [List.dropWhile_cons_of_neg (by simp [isValueChar]), parameters_ampersand]
      rfl
    · have hvalue : isValueChar c = true := isValueChar_iff.mpr hc
      refine ⟨segments, ?_, ?_⟩
      · rw [if_neg (by simpa using hc), hsplit, List.takeWhile_cons_of_pos hvalue]
        rfl
      · rw [List.dropWhile_cons_of_pos hvalue, hrest]

theorem parameters_eq (s : Bytes) : parameters s =
    (segmentParam (s.takeWhile isValueChar)).toList ++ parameters (s.dropWhile isValueChar) := by
  obtain ⟨segments, hsplit, hrest⟩ := exists_splitOn s
  rw [hrest, parameters, hsplit]
  cases h : segmentParam (s.takeWhile isValueChar) with
  | none => rw [List.filterMap_cons_none h]; rfl
  | some p => rw [List.filterMap_cons_some h]; rfl

/-- A character that gives its segment no parameter can be dropped. -/
theorem parameters_cons {c : UInt8} {s : Bytes} (hc : c ≠ Bytes.ofChar '&')
    (h : segmentParam (c :: s.takeWhile isValueChar) = segmentParam (s.takeWhile isValueChar)) :
    parameters (c :: s) = parameters s := by
  have hvalue : isValueChar c = true := isValueChar_iff.mpr hc
  rw [parameters_eq (c :: s), List.takeWhile_cons_of_pos hvalue, List.dropWhile_cons_of_pos hvalue, h, ← parameters_eq]

/-! ### The matches -/

theorem paramRegex_eq : paramRegex = Regex.pair isNameChar isEquals isValueChar := rfl

theorem isEquals_of_isNameChar (c : UInt8) (h : isNameChar c = true) : isEquals c = false := by
  rw [← Bool.not_eq_true, isEquals_iff]
  exact (isNameChar_iff.mp h).1

/-- Past the characters of a name, there is the end, an ampersand, or an equals sign and a value. -/
theorem names_cases (s : Bytes) :
    (∃ names rest, s = names ++ rest ∧ (∀ c ∈ names, isNameChar c = true) ∧ s.dropWhile isNameChar = rest ∧
        (rest = [] ∨ ∃ rest', rest = Bytes.ofChar '&' :: rest')) ∨
      ∃ names value, s = names ++ Bytes.ofChar '=' :: value ∧ (∀ c ∈ names, isNameChar c = true) ∧
        s.takeWhile isNameChar = names ∧ s.dropWhile isNameChar = Bytes.ofChar '=' :: value := by
  have happend := (List.takeWhile_append_dropWhile (p := isNameChar) (l := s)).symm
  have hnames : ∀ c ∈ s.takeWhile isNameChar, isNameChar c = true := fun _ hc => List.mem_takeWhile_imp hc
  cases hrest : s.dropWhile isNameChar with
  | nil =>
    rw [hrest] at happend
    exact Or.inl ⟨_, [], happend, hnames, rfl, Or.inl rfl⟩
  | cons d rest =>
    rw [hrest] at happend
    have hd : isNameChar d = false := by
      have hhead := List.head?_dropWhile_not isNameChar s
      rw [hrest] at hhead
      exact hhead
    rcases isNameChar_eq_false hd with rfl | rfl
    · exact Or.inr ⟨_, rest, happend, hnames, rfl, rfl⟩
    · exact Or.inl ⟨_, _, happend, hnames, rfl, Or.inr ⟨rest, rfl⟩⟩

theorem isValueChar_of_isNameChar {c : UInt8} (h : isNameChar c = true) : isValueChar c = true :=
  isValueChar_iff.mpr (isNameChar_iff.mp h).2

/-- A name that no equals sign follows gives no match and no parameter. -/
theorem names_of_no_equals {c : UInt8} {names rest : Bytes} (hc : isNameChar c = true)
    (hnames : ∀ d ∈ names, isNameChar d = true) (hdrop : (names ++ rest).dropWhile isNameChar = rest)
    (hrest : rest = [] ∨ ∃ rest', rest = Bytes.ofChar '&' :: rest') :
    paramRegex.run (c :: (names ++ rest)) = [] ∧ parameters (c :: (names ++ rest)) = parameters (names ++ rest) := by
  constructor
  · rw [paramRegex_eq, Regex.run_pair isEquals_of_isNameChar hc, hdrop]
    rcases hrest with rfl | ⟨rest', rfl⟩
    · rfl
    · rw [Regex.run_value_of_not_sep (by decide), List.map_nil]
  · have hsegment : (names ++ rest).takeWhile isValueChar = names := by
      rw [List.takeWhile_append_of_pos fun d hd => isValueChar_of_isNameChar (hnames d hd)]
      rcases hrest with rfl | ⟨rest', rfl⟩
      · exact List.append_nil names
      · rw [List.takeWhile_cons_of_neg (by decide), List.append_nil]
    have hnone {l : Bytes} (hl : ∀ d ∈ l, isNameChar d = true) : segmentParam l = none :=
      segmentParam_of_not_mem fun hmem => (isNameChar_iff.mp (hl _ hmem)).1 rfl
    refine parameters_cons (isNameChar_iff.mp hc).2 ?_
    rw [hsegment, hnone hnames, hnone (List.forall_mem_cons.mpr ⟨hc, hnames⟩)]

/-- A name with an equals sign after it is a match and a parameter. -/
theorem names_of_equals {c : UInt8} {names value : Bytes} (hc : isNameChar c = true)
    (hnames : ∀ d ∈ names, isNameChar d = true)
    (htake : (names ++ Bytes.ofChar '=' :: value).takeWhile isNameChar = names)
    (hdrop : (names ++ Bytes.ofChar '=' :: value).dropWhile isNameChar = Bytes.ofChar '=' :: value) :
    (paramRegex.run (c :: (names ++ Bytes.ofChar '=' :: value))).head? =
        some ⟨[c :: names, value.takeWhile isValueChar], value.dropWhile isValueChar⟩ ∧
      parameters (c :: (names ++ Bytes.ofChar '=' :: value)) =
        (c :: names, value.takeWhile isValueChar) :: parameters (value.dropWhile isValueChar) := by
  constructor
  · rw [paramRegex_eq, Regex.run_pair isEquals_of_isNameChar hc, hdrop, htake, List.head?_map,
      Regex.head?_run_value (by decide)]
    rfl
  · have hall : ∀ d ∈ c :: names, isNameChar d = true := List.forall_mem_cons.mpr ⟨hc, hnames⟩
    have hvalue : ∀ d ∈ c :: names, isValueChar d = true := fun d hd => isValueChar_of_isNameChar (hall d hd)
    have hequals : isValueChar (Bytes.ofChar '=') = true := by decide
    rw [← List.cons_append, parameters_eq, List.takeWhile_append_of_pos hvalue, List.dropWhile_append_of_pos hvalue,
      List.takeWhile_cons_of_pos hequals, List.dropWhile_cons_of_pos hequals,
      segmentParam_pair (List.cons_ne_nil _ _) fun hmem => (isNameChar_iff.mp (hall _ hmem)).1 rfl]
    rfl

theorem findAllFrom_paramRegex (n : Nat) {s : Bytes} (h : s.length < n) :
    paramRegex.findAllFrom n s = (parameters s).map fun p => [p.1, p.2] := by
  induction n generalizing s with
  | zero => cases h
  | succ n ih =>
    cases s with
    | nil => rfl
    | cons c s =>
      have hs : s.length < n := Nat.lt_of_succ_lt_succ h
      cases hc : isNameChar c with
      | false =>
        rw [paramRegex_eq, Regex.findAllFrom_of_none (Regex.run_pair_of_not_name hc s), ← paramRegex_eq, ih hs]
        rcases isNameChar_eq_false hc with rfl | rfl
        · rw [parameters_cons (by decide) (segmentParam_equals _)]
        · rw [parameters_ampersand]
      | true =>
        rcases names_cases s with ⟨names, rest, rfl, hnames, hdrop, hrest⟩ | ⟨names, value, rfl, hnames, htake, hdrop⟩
        · obtain ⟨hrun, hparameters⟩ := names_of_no_equals hc hnames hdrop hrest
          rw [Regex.findAllFrom_of_none hrun, hparameters, ih hs]
        · obtain ⟨hrun, hparameters⟩ := names_of_equals hc hnames htake hdrop
          have hlen : (value.dropWhile isValueChar).length < n := by
            have hsuffix := (List.dropWhile_suffix (l := value) isValueChar).length_le
            rw [List.length_append, List.length_cons] at hs
            omega
          rw [Regex.findAllFrom_of_match hrun, hparameters, ih hlen]
          rfl

/-- The matches are the parameters, from left to right. -/
theorem findAll_paramRegex (query : Bytes) : paramRegex.findAll query = (parameters query).map fun p => [p.1, p.2] :=
  findAllFrom_paramRegex _ (Nat.lt_succ_self _)

end Redisdal.Config
