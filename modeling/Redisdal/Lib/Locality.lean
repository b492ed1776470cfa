import Mathlib.Data.Set.Basic
import Redisdal.Lib.ExpiringMap

/-! # What a step on an expiring map depends on

Two maps agree on some keys when nobody who looks only at these can tell them apart. A step is local to some keys when
it shows the same, and does the same, on maps that agree on them, and leaves all other keys as they are. Steps are
relations: what they show may be left open. -/

namespace ExpiringMap
variable {K D : Type}

/-! ### Time -/

theorem live_advance (m : ExpiringMap K D) (time : Nat) (k : K) :
    (m.advance time).live k = (m.live k).filter fun e => e.deadline.all (m.now + time < ·) := by
  unfold live advance
  dsimp only
  rw [Option.filter_filter]
  congr 1
  funext e
  cases e.deadline with
  | none => rfl
  | some t =>
    simp only [Option.all_some, ← Bool.decide_and, decide_eq_decide]
    omega

theorem live_advance_of_none {m : ExpiringMap K D} {k : K} (h : m.live k = none) (time : Nat) :
    (m.advance time).live k = none := by
  rw [live_advance, h]
  rfl

/-- What is under a key where nothing limits it. -/
def lasting (d : Option D) : Option (ExpiringEntry D) := d.map (⟨·, none⟩)

section Lasting
variable {m : ExpiringMap K D} {k : K} {d : Option D} (h : m.live k = lasting d)
include h

theorem live_advance_lasting (time : Nat) : (m.advance time).live k = lasting d := by
  rw [live_advance, h]
  cases d <;> rfl

theorem datum_of_lasting : m.datum k = d := by
  rw [datum, h]
  cases d <;> rfl

theorem live_put_lasting [DecidableEq K] (d' : Option D) : (m.put k d').live k = lasting d' := by
  have hdeadline : m.deadline k = none := by
    rw [deadline, h]
    cases d <;> rfl
  rw [live_put_self, hdeadline]
  rfl

end Lasting

theorem advance_advance (m : ExpiringMap K D) (time time' : Nat) :
    (m.advance time).advance time' = m.advance (time + time') := by
  refine ExpiringMap.ext rfl ?_
  rw [now_advance, now_advance, now_advance]
  omega

theorem advance_zero (m : ExpiringMap K D) : m.advance 0 = m := by
  refine ExpiringMap.ext rfl ?_
  rw [now_advance]
  omega

theorem timeLeft_of_none {m : ExpiringMap K D} {k : K} (h : m.live k = none) : m.timeLeft k = -2 := by
  unfold timeLeft
  rw [h]

theorem timeLeft_of_deadline {m : ExpiringMap K D} {k : K} {d : D} {t : Int} (h : m.live k = some ⟨d, some t⟩) :
    m.timeLeft k = t - m.now := by
  unfold timeLeft
  rw [h]

section Limits
variable [DecidableEq K] {m : ExpiringMap K D} {k : K} {time : Int} (waited : Nat)

/-- What is left of a limit after some time has passed. -/
theorem timeLeft_advance_expire (h : (m.expire k time).1 = true) :
    ((m.expire k time).2.advance waited).timeLeft k = if waited < time then time - waited else -2 := by
  cases hlive : m.live k with
  | none =>
    rw [expire, hlive] at h
    cases h
  | some e =>
    rw [expire, hlive]
    dsimp only
    by_cases hpositive : time ≤ 0
    · rw [if_pos hpositive, if_neg (by omega), timeLeft_of_none (live_advance_of_none (live_erase_self m k) waited)]
    · have hstored : (m.store k e.datum (some (m.now + time))).live k = some ⟨e.datum, some (m.now + time)⟩ := by
        rw [live_store_self, if_pos (by rw [Option.all_some, decide_eq_true_eq]; omega)]
      rw [if_neg hpositive]
      by_cases hwaited : (waited : Int) < time
      · rw [if_pos hwaited, timeLeft_of_deadline (d := e.datum) (t := m.now + time), now_advance, now_store]
        · omega
        · rw [live_advance, hstored, Option.filter_some, if_pos (by simpa using hwaited)]
      · rw [if_neg hwaited, timeLeft_of_none]
        rw [live_advance, hstored, Option.filter_some, if_neg (by simpa using hwaited)]

/-- What is not there when it is limited does not come. -/
theorem timeLeft_advance_of_absent (h : (m.expire k time).1 = false) :
    ((m.expire k time).2.advance waited).timeLeft k = -2 := by
  cases hlive : m.live k with
  | none =>
    rw [expire, hlive]
    exact timeLeft_of_none (live_advance_of_none hlive waited)
  | some e =>
    rw [expire, hlive] at h
    cases h

end Limits

/-! ### Agreement -/

/-- The maps show the same under these keys. -/
structure AgreeOn (S : Set K) (m m' : ExpiringMap K D) : Prop where
  now : m.now = m'.now
  live : ∀ k ∈ S, m.live k = m'.live k

namespace AgreeOn
variable {S : Set K} {m m' m'' : ExpiringMap K D}

theorem refl (m : ExpiringMap K D) : AgreeOn S m m := ⟨rfl, fun _ _ => rfl⟩

theorem trans (h : AgreeOn S m m') (h' : AgreeOn S m' m'') : AgreeOn S m m'' :=
  ⟨h.now.trans h'.now, fun k hk => (h.live k hk).trans (h'.live k hk)⟩

variable {k : K}

theorem datum (h : AgreeOn S m m') (hk : k ∈ S) : m.datum k = m'.datum k := by
  rw [ExpiringMap.datum, ExpiringMap.datum, h.live k hk]

theorem deadline (h : AgreeOn S m m') (hk : k ∈ S) : m.deadline k = m'.deadline k := by
  rw [ExpiringMap.deadline, ExpiringMap.deadline, h.live k hk]

theorem timeLeft (h : AgreeOn S m m') (hk : k ∈ S) : m.timeLeft k = m'.timeLeft k := by
  rw [ExpiringMap.timeLeft, ExpiringMap.timeLeft, h.live k hk, h.now]

theorem advance (h : AgreeOn S m m') (time : Nat) : AgreeOn S (m.advance time) (m'.advance time) := by
  refine ⟨by rw [now_advance, now_advance, h.now], fun k hk => ?_⟩
  rw [live_advance, live_advance, h.live k hk, h.now]

variable [DecidableEq K]

theorem store (h : AgreeOn S m m') (k : K) (d : D) (deadline : Option Int) :
    AgreeOn S (m.store k d deadline) (m'.store k d deadline) := by
  refine ⟨h.now, fun k' hk' => ?_⟩
  by_cases hk : k' = k
  · rw [hk, live_store_self, live_store_self, h.now]
  · rw [live_store_of_ne m k hk, live_store_of_ne m' k hk, h.live k' hk']

theorem erase (h : AgreeOn S m m') (k : K) : AgreeOn S (m.erase k) (m'.erase k) := by
  refine ⟨h.now, fun k' hk' => ?_⟩
  by_cases hk : k' = k
  · rw [hk, live_erase_self, live_erase_self]
  · rw [live_erase_of_ne m k hk, live_erase_of_ne m' k hk, h.live k' hk']

theorem put (h : AgreeOn S m m') (hk : k ∈ S) (d : Option D) : AgreeOn S (m.put k d) (m'.put k d) := by
  cases d with
  | none => exact h.erase k
  | some d =>
    unfold ExpiringMap.put
    rw [h.deadline hk]
    exact h.store k d _

theorem expire (h : AgreeOn S m m') (hk : k ∈ S) (time : Int) :
    (m.expire k time).1 = (m'.expire k time).1 ∧ AgreeOn S (m.expire k time).2 (m'.expire k time).2 := by
  unfold ExpiringMap.expire
  rw [h.live k hk]
  cases m'.live k with
  | none => exact ⟨rfl, h⟩
  | some e =>
    refine ⟨rfl, ?_⟩
    dsimp only
    split
    · exact h.erase k
    · rw [h.now]
      exact h.store k _ _

theorem persist (h : AgreeOn S m m') (hk : k ∈ S) :
    (m.persist k).1 = (m'.persist k).1 ∧ AgreeOn S (m.persist k).2 (m'.persist k).2 := by
  unfold ExpiringMap.persist
  rw [h.live k hk]
  rcases m'.live k with _ | ⟨d, _ | t⟩
  · exact ⟨rfl, h⟩
  · exact ⟨rfl, h⟩
  · exact ⟨rfl, h.store k d none⟩

theorem eraseAll (h : AgreeOn S m m') {ks : List K} (hks : ∀ k ∈ ks, k ∈ S) :
    (m.eraseAll ks).1 = (m'.eraseAll ks).1 ∧ AgreeOn S (m.eraseAll ks).2 (m'.eraseAll ks).2 := by
  induction ks generalizing m m' with
  | nil => exact ⟨rfl, h⟩
  | cons k ks ih =>
    obtain ⟨hk, hks⟩ := List.forall_mem_cons.mp hks
    obtain ⟨hcount, hagree⟩ := ih (h.erase k) hks
    refine ⟨?_, hagree⟩
    rw [ExpiringMap.eraseAll, ExpiringMap.eraseAll, h.live k hk, hcount]

end AgreeOn

/-! ### Updates elsewhere -/

section Frames
variable [DecidableEq K] {S : Set K} {k : K} (m : ExpiringMap K D) (hk : k ∉ S)
include hk

theorem agreeOn_store (d : D) (deadline : Option Int) : AgreeOn S (m.store k d deadline) m :=
  ⟨rfl, fun _ hk' => live_store_of_ne m k (fun h => hk (h ▸ hk')) d deadline⟩

theorem agreeOn_erase : AgreeOn S (m.erase k) m :=
  ⟨rfl, fun _ hk' => live_erase_of_ne m k fun h => hk (h ▸ hk')⟩

theorem agreeOn_put (d : Option D) : AgreeOn S (m.put k d) m := by
  cases d with
  | none => exact agreeOn_erase m hk
  | some d => exact agreeOn_store m hk d _

theorem agreeOn_expire (time : Int) : AgreeOn S (m.expire k time).2 m := by
  unfold expire
  cases m.live k with
  | none => exact .refl m
  | some e =>
    dsimp only
    split
    · exact agreeOn_erase m hk
    · exact agreeOn_store m hk _ _

theorem agreeOn_persist : AgreeOn S (m.persist k).2 m := by
  unfold persist
  rcases m.live k with _ | ⟨d, _ | t⟩
  · exact .refl m
  · exact .refl m
  · exact agreeOn_store m hk d none

end Frames

theorem agreeOn_eraseAll [DecidableEq K] {S : Set K} {ks : List K} (m : ExpiringMap K D) (hks : ∀ k ∈ ks, k ∉ S) :
    AgreeOn S (m.eraseAll ks).2 m := by
  induction ks generalizing m with
  | nil => exact .refl m
  | cons k ks ih =>
    obtain ⟨hk, hks⟩ := List.forall_mem_cons.mp hks
    exact (ih (m.erase k) hks).trans (agreeOn_erase m hk)

/-! ### Local steps -/

/-- The step depends on what is under the keys and on the time, and changes nothing else. -/
structure IsLocal {O : Type} (keys : List K) (R : ExpiringMap K D → O → ExpiringMap K D → Prop) : Prop where
  reads : ∀ {S : Set K} {m m' next : ExpiringMap K D} {out : O}, (∀ k ∈ keys, k ∈ S) → AgreeOn S m m' →
    R m out next → ∃ next', R m' out next' ∧ AgreeOn S next next'
  writes : ∀ {S : Set K} {m next : ExpiringMap K D} {out : O}, (∀ k ∈ keys, k ∉ S) → R m out next → AgreeOn S next m

namespace IsLocal
variable {O : Type} {keys : List K}

theorem congr {R R' : ExpiringMap K D → O → ExpiringMap K D → Prop} (h : IsLocal keys R)
    (hiff : ∀ m out next, R m out next ↔ R' m out next) : IsLocal keys R' where
  reads := by
    intro S m m' next out hkeys hagree hR
    obtain ⟨next', hR', hagree'⟩ := h.reads hkeys hagree ((hiff m out next).mpr hR)
    exact ⟨next', (hiff m' out next').mp hR', hagree'⟩
  writes := fun hkeys hR => h.writes hkeys ((hiff _ _ _).mpr hR)

/-- An update, next to something shown that does not depend on the map. -/
theorem of_update {P : O → Prop} {f : ExpiringMap K D → ExpiringMap K D}
    (reads : ∀ {S : Set K} {m m' : ExpiringMap K D}, (∀ k ∈ keys, k ∈ S) → AgreeOn S m m' → AgreeOn S (f m) (f m'))
    (writes : ∀ {S : Set K} (m : ExpiringMap K D), (∀ k ∈ keys, k ∉ S) → AgreeOn S (f m) m) :
    IsLocal keys fun m out next => P out ∧ next = f m where
  reads := by
    rintro S m m' next out hkeys h ⟨hP, rfl⟩
    exact ⟨f m', ⟨hP, rfl⟩, reads hkeys h⟩
  writes := by
    rintro S m next out hkeys ⟨-, rfl⟩
    exact writes m hkeys

theorem of_unchanged {P : O → Prop} : IsLocal keys fun (m : ExpiringMap K D) out next => P out ∧ next = m :=
  of_update (fun _ h => h) fun m _ => .refl m

/-- A step that first reads what is under the keys, or the time. -/
theorem of_read {α : Type} {R : α → ExpiringMap K D → O → ExpiringMap K D → Prop} (read : ExpiringMap K D → α)
    (hread : ∀ {S : Set K} {m m' : ExpiringMap K D}, (∀ k ∈ keys, k ∈ S) → AgreeOn S m m' → read m = read m')
    (h : ∀ a, IsLocal keys (R a)) : IsLocal keys fun m out next => R (read m) m out next where
  reads := by
    intro S m m' next out hkeys hagree hR
    rw [hread hkeys hagree] at hR
    exact (h (read m')).reads hkeys hagree hR
  writes := fun hkeys hR => (h (read _)).writes hkeys hR

/-- A step in two cases, by what it finds first. -/
theorem of_elim {α : Type} {P : O → Prop} {R : α → ExpiringMap K D → O → ExpiringMap K D → Prop}
    (find : ExpiringMap K D → Option α)
    (hfind : ∀ {S : Set K} {m m' : ExpiringMap K D}, (∀ k ∈ keys, k ∈ S) → AgreeOn S m m' → find m = find m')
    (h : ∀ a, IsLocal keys (R a)) :
    IsLocal keys fun m out next => (find m).elim (P out ∧ next = m) fun a => R a m out next := by
  refine of_read (R := fun found m out next => found.elim (P out ∧ next = m) fun a => R a m out next) find hfind ?_
  intro found
  cases found with
  | none => exact of_unchanged
  | some a => exact h a

theorem of_exists {ι : Type} {R : ι → ExpiringMap K D → O → ExpiringMap K D → Prop} (h : ∀ i, IsLocal keys (R i)) :
    IsLocal keys fun m out next => ∃ i, R i m out next where
  reads := by
    rintro S m m' next out hkeys hagree ⟨i, hR⟩
    obtain ⟨next', hR', hagree'⟩ := (h i).reads hkeys hagree hR
    exact ⟨next', ⟨i, hR'⟩, hagree'⟩
  writes := by
    rintro S m next out hkeys ⟨i, hR⟩
    exact (h i).writes hkeys hR

theorem of_and {p : Prop} {R : ExpiringMap K D → O → ExpiringMap K D → Prop} (h : IsLocal keys R) :
    IsLocal keys fun m out next => p ∧ R m out next where
  reads := by
    rintro S m m' next out hkeys hagree ⟨hp, hR⟩
    obtain ⟨next', hR', hagree'⟩ := h.reads hkeys hagree hR
    exact ⟨next', ⟨hp, hR'⟩, hagree'⟩
  writes := fun hkeys hR => h.writes hkeys hR.2

theorem of_or {R R' : ExpiringMap K D → O → ExpiringMap K D → Prop} (h : IsLocal keys R) (h' : IsLocal keys R') :
    IsLocal keys fun m out next => R m out next ∨ R' m out next where
  reads := by
    rintro S m m' next out hkeys hagree (hR | hR)
    · obtain ⟨next', hR', hagree'⟩ := h.reads hkeys hagree hR
      exact ⟨next', Or.inl hR', hagree'⟩
    · obtain ⟨next', hR', hagree'⟩ := h'.reads hkeys hagree hR
      exact ⟨next', Or.inr hR', hagree'⟩
  writes := fun hkeys hR => hR.elim (h.writes hkeys) (h'.writes hkeys)

/-- A step that shows something else than a local one. -/
theorem of_shown {O' : Type} {P : O' → O → Prop} {R : ExpiringMap K D → O → ExpiringMap K D → Prop}
    (h : IsLocal keys R) : IsLocal keys fun m shown next => ∃ out, P shown out ∧ R m out next where
  reads := by
    rintro S m m' next shown hkeys hagree ⟨out, hP, hR⟩
    obtain ⟨next', hR', hagree'⟩ := h.reads hkeys hagree hR
    exact ⟨next', ⟨out, hP, hR'⟩, hagree'⟩
  writes := by
    rintro S m next shown hkeys ⟨out, -, hR⟩
    exact h.writes hkeys hR

theorem of_ite {p : Prop} [Decidable p] {R R' : ExpiringMap K D → O → ExpiringMap K D → Prop}
    (h : IsLocal keys R) (h' : IsLocal keys R') :
    IsLocal keys fun m out next => if p then R m out next else R' m out next := by
  split
  · exact h
  · exact h'

section Updates
variable [DecidableEq K] {P : O → Prop} {k : K}

theorem of_store (d : D) (deadline : Option Int) :
    IsLocal [k] fun m out next => P out ∧ next = m.store k d deadline :=
  of_update (fun _ h => h.store k d deadline) fun m hkeys => agreeOn_store m (hkeys k List.mem_cons_self) d deadline

theorem of_put (d : Option D) : IsLocal [k] fun m out next => P out ∧ next = m.put k d :=
  of_update (fun hkeys h => h.put (hkeys k List.mem_cons_self) d)
    fun m hkeys => agreeOn_put m (hkeys k List.mem_cons_self) d

theorem of_expire (time : Int) : IsLocal [k] fun (m : ExpiringMap K D) out next => P out ∧ next = (m.expire k time).2 :=
  of_update (fun hkeys h => (h.expire (hkeys k List.mem_cons_self) time).2)
    fun m hkeys => agreeOn_expire m (hkeys k List.mem_cons_self) time

theorem of_persist : IsLocal [k] fun (m : ExpiringMap K D) out next => P out ∧ next = (m.persist k).2 :=
  of_update (fun hkeys h => (h.persist (hkeys k List.mem_cons_self)).2)
    fun m hkeys => agreeOn_persist m (hkeys k List.mem_cons_self)

theorem of_eraseAll : IsLocal keys fun (m : ExpiringMap K D) out next => P out ∧ next = (m.eraseAll keys).2 :=
  of_update (fun hkeys h => (h.eraseAll hkeys).2) fun m hkeys => agreeOn_eraseAll m hkeys

end Updates

end IsLocal

end ExpiringMap
