/-! # Regular expressions with captures

A backtracking matcher for expressions built from character classes, greedy repetitions of a class,
sequences and capture groups. It lists the matches at a position in the order in which a backtracking
engine tries them, so the first is the one that the engine reports. -/

/-- Regular expressions over the characters `α`. -/
inductive Regex (α : Type) where
  /-- One character of a class. -/
  | one (p : α → Bool)
  /-- A greedy repetition of a class. -/
  | star (p : α → Bool)
  | seq (r s : Regex α)
  /-- A capture group. -/
  | group (r : Regex α)

namespace Regex
variable {α : Type}

/-- A greedy repetition of a class, at least once. -/
def plus (p : α → Bool) : Regex α := .seq (.one p) (.star p)

/-- A match: the captured texts in the order of their groups, and the text after it. -/
structure Match (α : Type) where
  captures : List (List α)
  rest : List α
deriving DecidableEq

/-- What a greedy repetition of `p` leaves of `s`, the longest match first. -/
def starRests (p : α → Bool) : List α → List (List α)
  | [] => [[]]
  | c :: s => if p c then starRests p s ++ [c :: s] else [c :: s]

/-- The matches at the start of `s`, in the order in which they are tried. -/
def run : Regex α → List α → List (Match α)
  | .one p, s => match s with
    | [] => []
    | c :: rest => if p c then [⟨[], rest⟩] else []
  | .star p, s => (starRests p s).map fun rest => ⟨[], rest⟩
  | .seq r t, s => (run r s).flatMap fun m =>
      (run t m.rest).map fun m' => ⟨m.captures ++ m'.captures, m'.rest⟩
  | .group r, s => (run r s).map fun m => ⟨s.take (s.length - m.rest.length) :: m.captures, m.rest⟩

/-- The captures of the successive leftmost matches in `s`, for an expression that matches no empty text.
    Each round drops a character or a match, so `s.length` rounds reach the end. -/
def findAllFrom (r : Regex α) : Nat → List α → List (List (List α))
  | 0, _ => []
  | n + 1, s => match (run r s).head? with
    | some m => m.captures :: findAllFrom r n m.rest
    | none => match s with
      | [] => []
      | _ :: rest => findAllFrom r n rest

def findAll (r : Regex α) (s : List α) : List (List (List α)) := findAllFrom r (s.length + 1) s

/-! ### Repetitions of a class -/

/-- The longest match of a repetition comes first. -/
theorem head?_starRests (p : α → Bool) (s : List α) : (starRests p s).head? = some (s.dropWhile p) := by
  induction s with
  | nil => rfl
  | cons c s ih =>
    unfold starRests
    cases hc : p c with
    | true => rw [if_pos rfl, List.head?_append, ih, List.dropWhile_cons_of_pos hc, Option.some_or]
    | false => rw [if_neg Bool.false_ne_true, List.dropWhile_cons_of_neg (by simp [hc]), List.head?_cons]

/-- What follows a repetition and starts with none of its characters follows its longest match only. -/
theorem flatMap_starRests {β : Type} {p : α → Bool} {f : List α → List β} (h : ∀ c s, p c = true → f (c :: s) = [])
    (s : List α) : (starRests p s).flatMap f = f (s.dropWhile p) := by
  induction s with
  | nil => exact List.append_nil _
  | cons c s ih =>
    unfold starRests
    cases hc : p c with
    | true =>
      rw [if_pos rfl, List.flatMap_append, ih, List.flatMap_singleton, h c s hc, List.append_nil,
        List.dropWhile_cons_of_pos hc]
    | false => rw [if_neg Bool.false_ne_true, List.flatMap_singleton, List.dropWhile_cons_of_neg (by simp [hc])]

theorem take_sub_dropWhile (p : α → Bool) (s : List α) :
    s.take (s.length - (s.dropWhile p).length) = s.takeWhile p := by
  have hlen : s.length - (s.dropWhile p).length = (s.takeWhile p).length := by
    have happend := congrArg List.length (List.takeWhile_append_dropWhile (p := p) (l := s))
    rw [List.length_append] at happend
    omega
  rw [hlen]
  exact (List.prefix_iff_eq_take.mp (List.takeWhile_prefix p)).symm

/-! ### Names and values -/

/-- A name, a separator and a value, which may be empty. -/
def pair (name sep value : α → Bool) : Regex α := .seq (.group (.plus name)) (.seq (.one sep) (.group (.star value)))

section Pair
variable {name sep value : α → Bool}

theorem run_pair_of_not_name {c : α} (hc : name c = false) (s : List α) : run (pair name sep value) (c :: s) = [] := by
  simp only [pair, plus, run, hc, Bool.false_eq_true, if_false, List.flatMap_nil, List.map_nil]

/-- A name reaches to the first character that is none of its own. -/
theorem run_pair (hsep : ∀ c, name c = true → sep c = false) {c : α} (hc : name c = true) (s : List α) :
    run (pair name sep value) (c :: s) = (run (.seq (.one sep) (.group (.star value))) (s.dropWhile name)).map fun m =>
      ⟨(c :: s.takeWhile name) :: m.captures, m.rest⟩ := by
  have htail (d : α) (r : List α) (hd : name d = true) :
      run (.seq (.one sep) (.group (.star value))) (d :: r) = [] := by
    simp only [run, hsep d hd, Bool.false_eq_true, if_false, List.flatMap_nil]
  have hname : (c :: s).take ((c :: s).length - (s.dropWhile name).length) = c :: s.takeWhile name := by
    have htake := take_sub_dropWhile name (c :: s)
    rwa [List.dropWhile_cons_of_pos hc, List.takeWhile_cons_of_pos hc] at htake
  have hall : run (pair name sep value) (c :: s) = (starRests name s).flatMap fun r =>
      (run (.seq (.one sep) (.group (.star value))) r).map fun m =>
        ⟨(c :: s).take ((c :: s).length - r.length) :: m.captures, m.rest⟩ := by
    unfold pair plus
    rw [run, run, run, run, hc]
    simp only [if_true, List.flatMap_singleton, run, List.map_map, List.flatMap_map]
    rfl
  rw [hall, flatMap_starRests fun d r hd => by rw [htail d r hd, List.map_nil], hname]

theorem head?_run_value {d : α} (hd : sep d = true) (s : List α) :
    (run (.seq (.one sep) (.group (.star value))) (d :: s)).head? =
      some ⟨[s.takeWhile value], s.dropWhile value⟩ := by
  simp only [run, hd, if_true, List.flatMap_singleton, List.map_map, List.head?_map, head?_starRests,
    Option.map_some, Function.comp_apply, List.nil_append, take_sub_dropWhile]

theorem run_value_of_not_sep {d : α} (hd : sep d = false) (s : List α) :
    run (.seq (.one sep) (.group (.star value))) (d :: s) = [] := by
  simp only [run, hd, Bool.false_eq_true, if_false, List.flatMap_nil]

end Pair

/-! ### Successive matches -/

theorem findAllFrom_of_match {r : Regex α} {s : List α} {m : Match α} (h : (run r s).head? = some m) (n : Nat) :
    findAllFrom r (n + 1) s = m.captures :: findAllFrom r n m.rest := by
  rw [findAllFrom.eq_def]
  dsimp only
  rw [h]

theorem findAllFrom_of_none {r : Regex α} {c : α} {s : List α} (h : run r (c :: s) = []) (n : Nat) :
    findAllFrom r (n + 1) (c :: s) = findAllFrom r n s := by
  rw [findAllFrom.eq_def]
  dsimp only
  rw [h]
  rfl

/-! ### The groups of a match -/

def groups : Regex α → Nat
  | .one _ | .star _ => 0
  | .seq r t => groups r + groups t
  | .group r => groups r + 1

theorem length_captures {r : Regex α} {s : List α} {m : Match α} (h : m ∈ run r s) :
    m.captures.length = r.groups := by
  induction r generalizing s m with
  | one p =>
    cases s with
    | nil => simp [run] at h
    | cons c rest =>
      simp only [run] at h
      split at h
      · rw [List.mem_singleton.mp h]
        rfl
      · simp at h
  | star p =>
    obtain ⟨rest, -, rfl⟩ := List.mem_map.mp h
    rfl
  | seq r t ihr iht =>
    obtain ⟨m₁, h₁, h⟩ := List.mem_flatMap.mp h
    obtain ⟨m₂, h₂, rfl⟩ := List.mem_map.mp h
    rw [List.length_append, ihr h₁, iht h₂, groups]
  | group r ih =>
    obtain ⟨m', h', rfl⟩ := List.mem_map.mp h
    rw [List.length_cons, ih h', groups]

theorem length_of_mem_findAllFrom {r : Regex α} {n : Nat} {s : List α} {captures : List (List α)}
    (h : captures ∈ findAllFrom r n s) : captures.length = r.groups := by
  induction n generalizing s with
  | zero => simp [findAllFrom] at h
  | succ n ih =>
    unfold findAllFrom at h
    split at h
    · next m hm =>
      rcases List.mem_cons.mp h with rfl | h
      · exact length_captures (List.mem_of_mem_head? hm)
      · exact ih h
    · split at h
      · simp at h
      · exact ih h

theorem length_of_mem_findAll {r : Regex α} {s : List α} {captures : List (List α)} (h : captures ∈ findAll r s) :
    captures.length = r.groups :=
  length_of_mem_findAllFrom h

end Regex
