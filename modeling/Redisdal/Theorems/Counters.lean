import Redisdal.Theorems.Queues

/-! # A text as a counter

Clients that increment and decrement one key. Every call that is answered sees the sum of all that has reached the
server, its own included; a call whose command is lost adds nothing, and one whose reply is lost adds once. -/

namespace Redisdal

/-! ### Calls on a counter -/

namespace TypedCall
variable {K V : Type} [DecidableEq K] (key : K)

/-- The call counts, or looks, or keeps away from the key. -/
def CountsAt : TypedCall K V → Prop
  | .incr .. | .decr .. | .get .. | .exists .. | .type .. | .ttl .. | .pttl .. => True
  | call => key ∉ call.dataKeys

/-- What the call adds. -/
def adds : TypedCall K V → Int
  | .incr k delta => if k = key then delta else 0
  | .decr k delta => if k = key then -delta else 0
  | _ => 0

variable {key} {call : TypedCall K V}

theorem adds_of_unsent (h : call.Unsent) : call.adds key = 0 := by
  cases call with
  | incr | decr => exact absurd h (not_or.mpr ⟨id, id⟩)
  | _ => rfl

theorem adds_of_notMem (h : key ∉ call.dataKeys) : call.adds key = 0 := by
  cases call with
  | incr k delta => exact if_neg fun hk : k = key => h (hk ▸ List.mem_cons_self)
  | decr k delta => exact if_neg fun hk : k = key => h (hk ▸ List.mem_cons_self)
  | _ => rfl

end TypedCall

section Calls
variable {K V : Type} [DecidableEq K] (tpl : Template K V) (key : K)

/-- What the call adds, if its command reaches the server. -/
def ClientCall.adds (c : ClientCall K V) : Int :=
  if c.delivery.arrives = true ∧ ¬c.TooLong tpl then c.call.adds key else 0

def addedTotal (calls : List (ClientCall K V)) : Int := (calls.map (·.adds tpl key)).sum

/-- How far the calls can take the counter from where it is. -/
def reach (calls : List (ClientCall K V)) : Nat := (calls.map fun c => (c.call.adds key).natAbs).sum

theorem ClientCall.natAbs_adds_le (c : ClientCall K V) : (c.adds tpl key).natAbs ≤ (c.call.adds key).natAbs := by
  unfold ClientCall.adds
  split
  · exact Nat.le_refl _
  · exact Nat.zero_le _

end Calls

/-! ### What a call does to the counter -/

section Step
open ExpiringMap
variable {K V : Type}

/-- The key holds the number, for ever, as a text, or zero as nothing. -/
def CounterAt (s : TypedKeyspace K V) (key : K) (n : Int) : Prop :=
  ∃ t : Option Bytes, s.live key = t.map (⟨.text ·, none⟩) ∧ Counter.read t = some n

theorem lasting_text (t : Option Bytes) :
    lasting ((textView.write t : Option (TypedDatum K V))) = t.map (⟨.text ·, none⟩) := by
  cases t <;> rfl

theorem CounterAt.advance {s : TypedKeyspace K V} {key : K} {n : Int} (h : CounterAt s key n) (time : Nat) :
    CounterAt (s.advance time) key n := by
  obtain ⟨t, hlive, hread⟩ := h
  rw [← lasting_text] at hlive
  exact ⟨t, (live_advance_lasting hlive time).trans (lasting_text t), hread⟩

theorem Counter.read_decimalInt {n : Int} (h : IsLongLong n) : read (some (Bytes.decimalInt n)) = some n := by
  show (readInteger (Bytes.decimalInt n)).filter (fun n => decide (IsLongLong n)) = some n
  rw [readInteger_decimalInt, Option.filter_some, if_pos (decide_eq_true h)]

theorem Counter.increment_of_read {t : Option Bytes} {n delta : Int} (hread : read t = some n)
    (h : IsLongLong (n + delta)) : increment t delta = .ok (n + delta) := by
  unfold increment
  rw [hread]
  exact if_pos h

variable [ServerTexts] [DecidableEq K] [DecidableEq V] {tpl : Template K V} {key : K} {s s' : TypedKeyspace K V}
  {n : Int} {outcome : Outcome (TypedValue K V)}

omit [ServerTexts] [DecidableEq V] in
theorem onText_counter {P : Option Bytes → Outcome (TypedValue K V) → Option Bytes → Prop} {t : Option Bytes}
    (hlive : s.live key = t.map (⟨.text ·, none⟩)) (h : s.OnText outcome s' key P) :
    ∃ t', P t outcome t' ∧ s'.live key = t'.map (⟨.text ·, none⟩) := by
  rw [← lasting_text] at hlive
  obtain ⟨t', hP, hlive'⟩ := TypedKeyspace.onView_lasting (by cases t <;> rfl) hlive h
  exact ⟨t', hP, hlive'.trans (lasting_text t')⟩

omit [ServerTexts] [DecidableEq V] in
theorem counts_counter {change : Option Bytes → Except Bytes Int} {m : Int} (hm : IsLongLong m)
    (hchange : ∀ t, Counter.read t = some n → change t = .ok m) (hcount : CounterAt s key n)
    (h : s.Counts outcome s' key change) : outcome = .ok (.integer m) ∧ CounterAt s' key m := by
  obtain ⟨t, hlive, hread⟩ := hcount
  obtain ⟨t', hP, hlive'⟩ := onText_counter hlive h
  rw [hchange t hread] at hP
  obtain ⟨rfl, rfl⟩ := hP
  exact ⟨rfl, _, hlive', Counter.read_decimalInt hm⟩

/-- A call that is executed adds what it says. -/
theorem allows_counter {call : TypedCall K V} (hin : call.InKeyspace) (hc : call.CountsAt key)
    (hrange : n.natAbs + (call.adds key).natAbs < 2 ^ 63) (hcount : CounterAt s key n)
    (h : s.Allows tpl call outcome s') : CounterAt s' key (n + call.adds key) := by
  by_cases hkey : key ∈ call.dataKeys
  · cases call with
    | incr k delta =>
      cases List.mem_singleton.mp hkey
      have hadds : (TypedCall.incr (V := V) key delta).adds key = delta := if_pos rfl
      rw [hadds] at hrange ⊢
      have hlong : IsLongLong (n + delta) := ⟨by omega, by omega⟩
      exact (counts_counter hlong (fun t ht => Counter.increment_of_read ht hlong) hcount h).2
    | decr k delta =>
      cases List.mem_singleton.mp hkey
      have hadds : (TypedCall.decr (V := V) key delta).adds key = -delta := if_pos rfl
      rw [hadds] at hrange ⊢
      have hlong : IsLongLong (n + -delta) := ⟨by omega, by omega⟩
      refine (counts_counter hlong (fun t ht => ?_) hcount h).2
      unfold Counter.decrement
      rw [if_neg (by omega)]
      exact Counter.increment_of_read ht hlong
    | get k =>
      cases List.mem_singleton.mp hkey
      obtain ⟨t, hlive, hread⟩ := hcount
      obtain ⟨t', ⟨-, rfl⟩, hlive'⟩ := onText_counter hlive h
      exact ⟨t', hlive', hread.trans (congrArg some (add_zero n).symm)⟩
    | «exists» | type | ttl | pttl =>
      obtain ⟨-, rfl⟩ := h
      show CounterAt s' key (n + 0)
      rwa [add_zero]
    | _ => exact absurd hkey hc
  · have hframe := (TypedKeyspace.isLocal_allows tpl call hin).writes (S := {key})
      (fun k hk hmem => hkey (Set.mem_singleton_iff.mp hmem ▸ hk)) h
    obtain ⟨t, hlive, hread⟩ := hcount
    rw [TypedCall.adds_of_notMem hkey, add_zero]
    exact ⟨t, (hframe.live key rfl).trans hlive, hread⟩

theorem callStep_counter {c : ClientCall K V} (hin : c.call.InKeyspace) (hc : c.call.CountsAt key)
    (hrange : n.natAbs + (c.call.adds key).natAbs < 2 ^ 63) (hcount : CounterAt s key n)
    (h : CallStep tpl s c outcome s') : CounterAt s' key (n + c.adds tpl key) := by
  rcases h.executed with ⟨executed, allows, hunsent | harrives⟩ | ⟨rfl, hlost⟩
  · have hzero : c.adds tpl key = c.call.adds key := by
      rw [ClientCall.adds, TypedCall.adds_of_unsent hunsent, ite_self]
    rw [hzero]
    exact allows_counter hin hc hrange hcount allows
  · rw [ClientCall.adds, if_pos harrives]
    exact allows_counter hin hc hrange hcount allows
  · rwa [ClientCall.adds, if_neg hlost, add_zero]

/-! ### What calls do to the counter -/

theorem keyspaceRun_counter {calls : List (ClientCall K V)} {outcomes : List (Outcome (TypedValue K V))}
    (hin : ∀ c ∈ calls, c.call.InKeyspace) (hc : ∀ c ∈ calls, c.call.CountsAt key)
    (hrange : n.natAbs + reach key calls < 2 ^ 63) (hcount : CounterAt s key n)
    (h : KeyspaceRun tpl s calls outcomes s') : CounterAt s' key (n + addedTotal tpl key calls) := by
  induction h generalizing n with
  | nil s => rwa [addedTotal, List.map_nil, List.sum_nil, add_zero]
  | @cons s s₁ s' c calls outcome outcomes hstep _ ih =>
    obtain ⟨hinC, hin⟩ := List.forall_mem_cons.mp hin
    obtain ⟨hcC, hc⟩ := List.forall_mem_cons.mp hc
    have hreach : reach key (c :: calls) = (c.call.adds key).natAbs + reach key calls := rfl
    have hadded : addedTotal tpl key (c :: calls) = c.adds tpl key + addedTotal tpl key calls := rfl
    have hstep' := callStep_counter hinC hcC (by omega) (hcount.advance c.elapsed) hstep
    have hle := c.natAbs_adds_le tpl key
    rw [hadded, ← add_assoc]
    exact ih hin hc (by omega) hstep'

omit [ServerTexts] [DecidableEq V] in
theorem natAbs_added_le (tpl : Template K V) (key : K) (calls : List (ClientCall K V)) :
    (addedTotal tpl key calls).natAbs ≤ reach key calls := by
  induction calls with
  | nil => exact Nat.le_refl _
  | cons c calls ih =>
    have hreach : reach key (c :: calls) = (c.call.adds key).natAbs + reach key calls := rfl
    have hadded : addedTotal tpl key (c :: calls) = c.adds tpl key + addedTotal tpl key calls := rfl
    have hle := c.natAbs_adds_le tpl key
    omega

end Step

section Counter
variable [ServerTexts] {K V : Type} [DecidableEq K] [DecidableEq V] {tpl : Template K V}

end Counter

end Redisdal
