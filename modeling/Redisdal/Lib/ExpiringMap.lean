import Mathlib.Logic.Function.Basic

/-! # Maps whose entries expire

A map that keeps one datum under each key, perhaps until a deadline, next to a clock. An entry is gone as soon as its
deadline has come, whether or not anything looks at it. Two such maps over different keys and data are related when
an encoding of the keys takes the entries of one to related entries of the other; every operation keeps the relation. -/

/-- A datum, and the time at which it is gone. -/
structure ExpiringEntry (D : Type) where
  datum : D
  deadline : Option Int

@[ext] structure ExpiringMap (K D : Type) where
  entries : K → Option (ExpiringEntry D)
  now : Int

namespace ExpiringMap
variable {K D : Type}

def empty : ExpiringMap K D := ⟨fun _ => none, 0⟩

/-- The entry under a key, unless its deadline has come. -/
def live (m : ExpiringMap K D) (k : K) : Option (ExpiringEntry D) :=
  (m.entries k).filter fun e => e.deadline.all (m.now < ·)

def datum (m : ExpiringMap K D) (k : K) : Option D := (m.live k).map (·.datum)

def deadline (m : ExpiringMap K D) (k : K) : Option Int := (m.live k).bind (·.deadline)

def advance (m : ExpiringMap K D) (time : Nat) : ExpiringMap K D := { m with now := m.now + time }

/-- The time that is left: `-2` where there is nothing, `-1` where nothing limits it. -/
def timeLeft (m : ExpiringMap K D) (k : K) : Int :=
  match m.live k with
  | none => -2
  | some e => match e.deadline with
    | none => -1
    | some t => t - m.now

section Updates
variable [DecidableEq K]

def store (m : ExpiringMap K D) (k : K) (d : D) (deadline : Option Int) : ExpiringMap K D :=
  { m with entries := Function.update m.entries k (some ⟨d, deadline⟩) }

def erase (m : ExpiringMap K D) (k : K) : ExpiringMap K D := { m with entries := Function.update m.entries k none }

/-- Replace the datum under a key, which keeps its deadline. -/
def put (m : ExpiringMap K D) (k : K) : Option D → ExpiringMap K D
  | some d => m.store k d (m.deadline k)
  | none => m.erase k

/-- Limit an entry to a time from now; it is gone at once when that time is not positive. -/
def expire (m : ExpiringMap K D) (k : K) (time : Int) : Bool × ExpiringMap K D :=
  match m.live k with
  | none => (false, m)
  | some e => (true, if time ≤ 0 then m.erase k else m.store k e.datum (some (m.now + time)))

/-- Lift the limit of an entry. -/
def persist (m : ExpiringMap K D) (k : K) : Bool × ExpiringMap K D :=
  match m.live k with
  | some ⟨d, some _⟩ => (true, m.store k d none)
  | _ => (false, m)

/-- Erase keys one after the other, and count those that were there. -/
def eraseAll (m : ExpiringMap K D) : List K → Nat × ExpiringMap K D
  | [] => (0, m)
  | k :: ks => ((if (m.live k).isSome then 1 else 0) + ((m.erase k).eraseAll ks).1, ((m.erase k).eraseAll ks).2)

end Updates

/-! ### What the operations do -/

theorem live_eq_some_iff {m : ExpiringMap K D} {k : K} {e : ExpiringEntry D} :
    m.live k = some e ↔ m.entries k = some e ∧ ∀ t, e.deadline = some t → m.now < t := by
  rw [live, Option.filter_eq_some_iff]
  cases e.deadline <;> simp

@[simp] theorem now_advance (m : ExpiringMap K D) (time : Nat) : (m.advance time).now = m.now + time := rfl

section Updates
variable [DecidableEq K] (m : ExpiringMap K D) (k : K)

@[simp] theorem now_store (d : D) (deadline : Option Int) : (m.store k d deadline).now = m.now := rfl

@[simp] theorem live_store_of_ne {k' : K} (h : k' ≠ k) (d : D) (deadline : Option Int) :
    (m.store k d deadline).live k' = m.live k' := by
  unfold live store
  dsimp only
  rw [Function.update_of_ne h]

@[simp] theorem live_erase_of_ne {k' : K} (h : k' ≠ k) : (m.erase k).live k' = m.live k' := by
  unfold live erase
  dsimp only
  rw [Function.update_of_ne h]

@[simp] theorem live_erase_self : (m.erase k).live k = none := by
  unfold live erase
  dsimp only
  rw [Function.update_self]
  rfl

theorem live_store_self (d : D) (deadline : Option Int) :
    (m.store k d deadline).live k = if deadline.all (m.now < ·) then some ⟨d, deadline⟩ else none := by
  unfold live store
  dsimp only
  rw [Function.update_self, Option.filter_some]

omit [DecidableEq K] in
theorem all_deadline : (m.deadline k).all (m.now < ·) = true := by
  rw [deadline]
  cases h : m.live k with
  | none => rfl
  | some e =>
    have hnow := (live_eq_some_iff.mp h).2
    rw [Option.bind_some]
    cases hd : e.deadline with
    | none => rfl
    | some t => simpa using hnow t hd

theorem live_put_of_ne {k' : K} (h : k' ≠ k) (d : Option D) : (m.put k d).live k' = m.live k' := by
  cases d with
  | none => exact live_erase_of_ne m k h
  | some d => exact live_store_of_ne m k h d _

/-- A datum that replaces another keeps its deadline, and is there. -/
theorem live_put_self (d : Option D) : (m.put k d).live k = d.map fun d => ⟨d, m.deadline k⟩ := by
  cases d with
  | none => exact live_erase_self m k
  | some d =>
    rw [put, live_store_self, if_pos (all_deadline m k)]
    rfl

end Updates

/-! ### Related maps -/

/-- The entries under encoded keys are related to those of the other map, and the clocks agree. -/
structure Related {C A : Type} (enc : K → C) (R : A → D → Prop) (m : ExpiringMap C A) (m' : ExpiringMap K D) :
    Prop where
  now : m.now = m'.now
  entries : ∀ k, (m.entries (enc k) = none ∧ m'.entries k = none) ∨
    ∃ a d deadline, m.entries (enc k) = some ⟨a, deadline⟩ ∧ m'.entries k = some ⟨d, deadline⟩ ∧ R a d

namespace Related
variable {C A : Type} {enc : K → C} {R : A → D → Prop} {m : ExpiringMap C A} {m' : ExpiringMap K D}

theorem empty : Related enc R (empty : ExpiringMap C A) empty := ⟨rfl, fun _ => Or.inl ⟨rfl, rfl⟩⟩

theorem live (h : Related enc R m m') (k : K) : (m.live (enc k) = none ∧ m'.live k = none) ∨
    ∃ a d deadline, m.live (enc k) = some ⟨a, deadline⟩ ∧ m'.live k = some ⟨d, deadline⟩ ∧ R a d := by
  unfold ExpiringMap.live
  rw [h.now]
  rcases h.entries k with ⟨hm, hm'⟩ | ⟨a, d, deadline, hm, hm', hR⟩
  · rw [hm, hm']
    exact Or.inl ⟨rfl, rfl⟩
  · rw [hm, hm', Option.filter_some, Option.filter_some]
    dsimp only
    split
    · exact Or.inr ⟨a, d, deadline, rfl, rfl, hR⟩
    · exact Or.inl ⟨rfl, rfl⟩

theorem isSome_live (h : Related enc R m m') (k : K) : (m.live (enc k)).isSome = (m'.live k).isSome := by
  rcases h.live k with ⟨hm, hm'⟩ | ⟨a, d, deadline, hm, hm', -⟩ <;> rw [hm, hm'] <;> rfl

theorem datum (h : Related enc R m m') (k : K) : Option.Rel R (m.datum (enc k)) (m'.datum k) := by
  unfold ExpiringMap.datum
  rcases h.live k with ⟨hm, hm'⟩ | ⟨a, d, deadline, hm, hm', hR⟩ <;> rw [hm, hm']
  · exact .none
  · exact .some hR

theorem deadline (h : Related enc R m m') (k : K) : m.deadline (enc k) = m'.deadline k := by
  unfold ExpiringMap.deadline
  rcases h.live k with ⟨hm, hm'⟩ | ⟨a, d, deadline, hm, hm', -⟩ <;> rw [hm, hm'] <;> rfl

theorem timeLeft (h : Related enc R m m') (k : K) : m.timeLeft (enc k) = m'.timeLeft k := by
  unfold ExpiringMap.timeLeft
  rw [h.now]
  rcases h.live k with ⟨hm, hm'⟩ | ⟨a, d, deadline, hm, hm', -⟩ <;> rw [hm, hm']

theorem advance (h : Related enc R m m') (time : Nat) : Related enc R (m.advance time) (m'.advance time) :=
  ⟨by rw [now_advance, now_advance, h.now], h.entries⟩

variable [DecidableEq K] [DecidableEq C] (henc : Function.Injective enc)
include henc

theorem store (h : Related enc R m m') (k : K) {a : A} {d : D} (hR : R a d) (deadline : Option Int) :
    Related enc R (m.store (enc k) a deadline) (m'.store k d deadline) := by
  refine ⟨h.now, fun k' => ?_⟩
  unfold ExpiringMap.store
  dsimp only
  by_cases hk : k' = k
  · subst hk
    rw [Function.update_self, Function.update_self]
    exact Or.inr ⟨a, d, deadline, rfl, rfl, hR⟩
  · rw [Function.update_of_ne (henc.ne hk), Function.update_of_ne hk]
    exact h.entries k'

theorem erase (h : Related enc R m m') (k : K) : Related enc R (m.erase (enc k)) (m'.erase k) := by
  refine ⟨h.now, fun k' => ?_⟩
  unfold ExpiringMap.erase
  dsimp only
  by_cases hk : k' = k
  · subst hk
    rw [Function.update_self, Function.update_self]
    exact Or.inl ⟨rfl, rfl⟩
  · rw [Function.update_of_ne (henc.ne hk), Function.update_of_ne hk]
    exact h.entries k'

theorem put (h : Related enc R m m') (k : K) {a : Option A} {d : Option D} (hR : Option.Rel R a d) :
    Related enc R (m.put (enc k) a) (m'.put k d) := by
  cases hR with
  | none => exact h.erase henc k
  | some hR =>
    unfold ExpiringMap.put
    rw [h.deadline]
    exact h.store henc k hR _

theorem expire (h : Related enc R m m') (k : K) (time : Int) :
    (m.expire (enc k) time).1 = (m'.expire k time).1 ∧
      Related enc R (m.expire (enc k) time).2 (m'.expire k time).2 := by
  unfold ExpiringMap.expire
  rcases h.live k with ⟨hm, hm'⟩ | ⟨a, d, deadline, hm, hm', hR⟩ <;> rw [hm, hm']
  · exact ⟨rfl, h⟩
  · refine ⟨rfl, ?_⟩
    dsimp only
    split
    · exact h.erase henc k
    · rw [h.now]
      exact h.store henc k hR _

theorem persist (h : Related enc R m m') (k : K) :
    (m.persist (enc k)).1 = (m'.persist k).1 ∧ Related enc R (m.persist (enc k)).2 (m'.persist k).2 := by
  unfold ExpiringMap.persist
  rcases h.live k with ⟨hm, hm'⟩ | ⟨a, d, deadline, hm, hm', hR⟩ <;> rw [hm, hm']
  · exact ⟨rfl, h⟩
  · cases deadline with
    | none => exact ⟨rfl, h⟩
    | some t => exact ⟨rfl, h.store henc k hR none⟩

theorem eraseAll (h : Related enc R m m') (ks : List K) :
    (m.eraseAll (ks.map enc)).1 = (m'.eraseAll ks).1 ∧
      Related enc R (m.eraseAll (ks.map enc)).2 (m'.eraseAll ks).2 := by
  induction ks generalizing m m' with
  | nil => exact ⟨rfl, h⟩
  | cons k ks ih =>
    obtain ⟨hcount, hrelated⟩ := ih (h.erase henc k)
    refine ⟨?_, hrelated⟩
    rw [List.map_cons, ExpiringMap.eraseAll, ExpiringMap.eraseAll, h.isSome_live, hcount]

end Related

end ExpiringMap
