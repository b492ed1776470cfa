import Redisdal.Theorems.KeyspaceSessions

/-! # The lifetime of a key

A time to live that a client sets holds for all: whatever happens to other keys in the meantime, the key is there until
the time has passed, and gone from then on. -/

namespace Redisdal
open ExpiringMap

section Lifetime
variable {K V : Type} [DecidableEq K] {tpl : Template K V}

theorem expire_fits [Platform] {encK : K → Bytes} (hK : Encodes tpl.keySerializer encK) (key : K) (seconds : Int)
    (elapsed : Nat) (d : Delivery) : ¬(ClientCall.mk elapsed ‹Platform› d (.expire key seconds)).TooLong tpl := by
  have hplan : (TypedCall.expire key seconds).plan tpl = .call (.expire (encK key) seconds) _ :=
    TypedPlan.ofRequest_ok (hK.serialize key) _ _
  exact fits_of_length hplan rfl (by decide : 3 ≤ SyncConnection.intMax)

theorem pttl_fits [Platform] {encK : K → Bytes} (hK : Encodes tpl.keySerializer encK) (key : K) (elapsed : Nat)
    (d : Delivery) : ¬(ClientCall.mk elapsed ‹Platform› d (.pttl key)).TooLong tpl := by
  have hplan : (TypedCall.pttl key).plan tpl = .call (.pttl (encK key)) _ :=
    TypedPlan.ofRequest_ok (hK.serialize key) _ _
  exact fits_of_length hplan rfl (by decide : 2 ≤ SyncConnection.intMax)

variable [ServerTexts] [DecidableEq V]

omit [ServerTexts] [DecidableEq V] in
/-- EXPIRE with a time that it accepts. -/
theorem expires_flag {s s' : TypedKeyspace K V} {key : K} {command : Bytes} {unit time : Int} {flag : Bool}
    (h : s.Expires (.ok (.flag flag)) s' key command unit time) :
    IsLongLong (unit * time) ∧ (s.expire key (unit * time)).1 = flag ∧ s' = (s.expire key (unit * time)).2 := by
  unfold TypedKeyspace.Expires Expiry.delay at h
  split at h
  · exact absurd h.1 (by simp)
  · next milliseconds hdelay =>
    obtain ⟨hflag, rfl⟩ := h
    split at hdelay
    · next hlong =>
      cases hdelay
      cases hflag
      exact ⟨hlong.1, rfl, rfl⟩
    · cases hdelay

end Lifetime

end Redisdal
