import Redisdal.Theorems.KeyspaceSessions

/-! # A list as a queue

Producers push at the tail of a list and consumers pop at its head, on connections of their own. In whatever order
their calls reach the server, the consumers together take what was pushed, in the order in which it was pushed, and
nothing twice; only a reply that is lost on its way loses what it carries. -/

namespace Redisdal

/-! ### Calls on a queue -/

namespace TypedCall
variable {K V : Type} [DecidableEq K] (key : K)

/-- The call pushes at the tail, pops at the head, or looks, or keeps away from the key. -/
def QueuesAt : TypedCall K V → Prop
  | .rpush .. | .rpushMany .. | .lpop .. | .lpopCount .. => True
  | .llen .. | .lrange .. | .lindex .. | .exists .. | .type .. | .ttl .. | .pttl .. => True
  | call => key ∉ call.dataKeys

/-- What the call pushes. -/
def pushes : TypedCall K V → List V
  | .rpush k value => if k = key then [value] else []
  | .rpushMany k values => if k = key then values else []
  | _ => []

/-- What the call shows to have popped. -/
def pops : TypedCall K V → Outcome (TypedValue K V) → List V
  | .lpop k, .ok (.value value) => if k = key then value.toList else []
  | .lpopCount k _, .ok (.values values) => if k = key then values else []
  | _, _ => []

def PopsAt : TypedCall K V → Prop
  | .lpop k | .lpopCount k _ => k = key
  | _ => False

variable {key} {call : TypedCall K V}

theorem pops_error (e : Exn) : call.pops key (.error e) = [] := by
  cases call <;> rfl

theorem pops_of_alike {outcome outcome' : Outcome (TypedValue K V)} (h : OutcomeAlike outcome outcome') :
    call.pops key outcome = call.pops key outcome' := by
  rcases h with rfl | ⟨message, message', rfl, rfl⟩
  · rfl
  · rw [pops_error, pops_error]

theorem pops_of_not_popsAt (h : ¬call.PopsAt key) (outcome : Outcome (TypedValue K V)) :
    call.pops key outcome = [] := by
  unfold pops
  split
  · exact if_neg h
  · exact if_neg h
  · rfl

theorem pushes_of_unsent (h : call.Unsent) : call.pushes key = [] := by
  cases call with
  | rpush | rpushMany => exact absurd h (not_or.mpr ⟨id, id⟩)
  | _ => rfl

theorem pushes_of_notMem (h : key ∉ call.dataKeys) : call.pushes key = [] := by
  cases call with
  | rpush k value => exact if_neg fun hk : k = key => h (hk ▸ List.mem_cons_self)
  | rpushMany k values => exact if_neg fun hk : k = key => h (hk ▸ List.mem_cons_self)
  | _ => rfl

omit [DecidableEq K] in
theorem not_popsAt_of_notMem (h : key ∉ call.dataKeys) : ¬call.PopsAt key := by
  cases call with
  | lpop k => exact fun hk => h (hk ▸ List.mem_cons_self)
  | lpopCount k count => exact fun hk => h (hk ▸ List.mem_cons_self)
  | _ => exact id

end TypedCall

def Delivery.arrives : Delivery → Bool
  | requestLost _ => false
  | _ => true

def Delivery.losesReply : Delivery → Bool
  | replyLost _ => true
  | _ => false

section Calls
variable {K V : Type} [DecidableEq K] (tpl : Template K V) (key : K)

instance (c : ClientCall K V) : Decidable (c.TooLong tpl) :=
  inferInstanceAs (Decidable (∃ argv ∈ c.commands tpl, SyncConnection.intMax < argv.length))

/-- What the call pushes, if its command reaches the server. -/
def ClientCall.pushes (c : ClientCall K V) : List V :=
  if c.delivery.arrives = true ∧ ¬c.TooLong tpl then c.call.pushes key else []

/-- What calls push, in the order in which they reach the server. -/
def pushedValues (calls : List (ClientCall K V)) : List V := calls.flatMap (·.pushes tpl key)

/-- What calls show to have popped, in that order. -/
def poppedValues (calls : List (ClientCall K V)) (outcomes : List (Outcome (TypedValue K V))) : List V :=
  (calls.zip outcomes).flatMap fun p => p.1.call.pops key p.2

/-- What reaches the server is executed, and nothing else is. -/
theorem CallStep.executed [ServerTexts] [DecidableEq V] {tpl : Template K V} {s s' : TypedKeyspace K V}
    {c : ClientCall K V} {outcome : Outcome (TypedValue K V)} (h : CallStep tpl s c outcome s') :
    (∃ executed, s.Allows tpl c.call executed s' ∧
      (c.call.Unsent ∨ c.delivery.arrives = true ∧ ¬c.TooLong tpl)) ∨
      (s' = s ∧ ¬(c.delivery.arrives = true ∧ ¬c.TooLong tpl)) := by
  cases h with
  | unsent unsent allows => exact Or.inl ⟨_, allows, Or.inl unsent⟩
  | delivered delivery fits permits =>
    obtain ⟨executed, -, allows⟩ := permits
    exact Or.inl ⟨executed, allows, Or.inr ⟨by rw [delivery]; rfl, fits⟩⟩
  | requestLost delivery =>
    refine Or.inr ⟨rfl, fun h => ?_⟩
    rw [delivery] at h
    cases h.1
  | replyLost delivery sent fits permits =>
    obtain ⟨executed, -, allows⟩ := permits
    exact Or.inl ⟨executed, allows, Or.inr ⟨by rw [delivery]; rfl, fits⟩⟩
  | tooLong long => exact Or.inr ⟨rfl, fun h => h.2 long⟩

end Calls

/-! ### What a call does to the queue -/

section Step
open ExpiringMap
variable {K V : Type}

/-- What is under the key of a queue, which never expires. -/
def queueEntry (l : List V) : Option (ExpiringEntry (TypedDatum K V)) := (listView.write l).map (⟨·, none⟩)

variable [ServerTexts] [DecidableEq K] [DecidableEq V] {tpl : Template K V} {key : K} {s s' : TypedKeyspace K V}
  {l : List V} {outcome : Outcome (TypedValue K V)}

omit [ServerTexts] [DecidableEq V] in
theorem onList_queue {P : List V → Outcome (TypedValue K V) → List V → Prop} (hl : s.live key = queueEntry l)
    (h : s.OnList outcome s' key P) : ∃ l', P l outcome l' ∧ s'.live key = queueEntry l' :=
  TypedKeyspace.onView_lasting (by cases l <;> rfl) hl h

/-- A call that is executed takes from the head of the queue what it shows, after what it pushes is at the tail. -/
theorem allows_queue {call : TypedCall K V} (hin : call.InKeyspace) (hq : call.QueuesAt key)
    (hl : s.live key = queueEntry l) (h : s.Allows tpl call outcome s') :
    ∃ left, l ++ call.pushes key = call.pops key outcome ++ left ∧ s'.live key = queueEntry left := by
  by_cases hkey : key ∈ call.dataKeys
  · cases call with
    | rpush k value =>
      cases List.mem_singleton.mp hkey
      obtain ⟨l', ⟨rfl, rfl⟩, hlive⟩ := onList_queue hl h
      exact ⟨_, congrArg (l ++ ·) (if_pos rfl), hlive⟩
    | rpushMany k values =>
      cases List.mem_singleton.mp hkey
      obtain ⟨l', ⟨rfl, rfl⟩, hlive⟩ := onList_queue hl h
      exact ⟨_, congrArg (l ++ ·) (if_pos rfl), hlive⟩
    | lpop k =>
      cases List.mem_singleton.mp hkey
      obtain ⟨l', ⟨rfl, rfl⟩, hlive⟩ := onList_queue hl h
      refine ⟨l.tail, ?_, hlive⟩
      cases l <;> simp [TypedCall.pushes, TypedCall.pops]
    | lpopCount k count =>
      cases List.mem_singleton.mp hkey
      have hpops : s.PopsMany outcome s' key count fun n l => (l.take n, l.drop n) := h
      unfold TypedKeyspace.PopsMany at hpops
      split at hpops
      · obtain ⟨rfl, rfl⟩ := hpops
        exact ⟨l, List.append_nil l, hl⟩
      · obtain ⟨l', ⟨rfl, rfl⟩, hlive⟩ := onList_queue hl hpops
        refine ⟨l.drop count.toNat, ?_, hlive⟩
        simp [TypedCall.pushes, TypedCall.pops]
    | llen k | lrange k _ _ | lindex k _ =>
      cases List.mem_singleton.mp hkey
      obtain ⟨l', ⟨-, rfl⟩, hlive⟩ := onList_queue hl h
      exact ⟨l', List.append_nil l', hlive⟩
    | «exists» | type | ttl | pttl =>
      obtain ⟨-, rfl⟩ := h
      exact ⟨l, List.append_nil l, hl⟩
    | _ => exact absurd hkey hq
  · have hframe := (TypedKeyspace.isLocal_allows tpl call hin).writes (S := {key})
      (fun k hk hmem => hkey (Set.mem_singleton_iff.mp hmem ▸ hk)) h
    refine ⟨l, ?_, (hframe.live key rfl).trans hl⟩
    rw [TypedCall.pushes_of_notMem hkey, TypedCall.pops_of_not_popsAt (TypedCall.not_popsAt_of_notMem hkey)]
    exact List.append_nil l

/-- What is shown of a call that is executed tells the same, whatever the text of an error. -/
theorem permits_queue {call : TypedCall K V} (hin : call.InKeyspace) (hq : call.QueuesAt key)
    (hl : s.live key = queueEntry l) (h : s.Permits tpl call outcome s') :
    ∃ left, l ++ call.pushes key = call.pops key outcome ++ left ∧ s'.live key = queueEntry left := by
  obtain ⟨outcome', halike, hallows⟩ := h
  rw [TypedCall.pops_of_alike halike]
  exact allows_queue hin hq hl hallows

/-- A call, whatever becomes of its command: only a pop whose reply is lost takes something that nobody sees. -/
theorem callStep_queue {c : ClientCall K V} (hin : c.call.InKeyspace) (hq : c.call.QueuesAt key)
    (hl : s.live key = queueEntry l) (h : CallStep tpl s c outcome s') :
    ∃ taken left, l ++ c.pushes tpl key = taken ++ left ∧ s'.live key = queueEntry left ∧
      (c.call.pops key outcome).Sublist taken ∧
      (¬(c.call.PopsAt key ∧ c.delivery.losesReply = true) → c.call.pops key outcome = taken) := by
  have hunchanged : ∀ e : Exn, c.pushes tpl key = [] → ∃ taken left, l ++ c.pushes tpl key = taken ++ left ∧
      s.live key = queueEntry left ∧ (c.call.pops key (.error e)).Sublist taken ∧
      (¬(c.call.PopsAt key ∧ c.delivery.losesReply = true) → c.call.pops key (.error e) = taken) := by
    intro e hpushes
    rw [hpushes, TypedCall.pops_error]
    exact ⟨[], l, List.append_nil l, hl, List.Sublist.refl _, fun _ => rfl⟩
  cases h with
  | unsent unsent allows =>
    obtain ⟨left, happend, hlive⟩ := allows_queue hin hq hl allows
    refine ⟨_, left, ?_, hlive, List.Sublist.refl _, fun _ => rfl⟩
    rw [ClientCall.pushes, TypedCall.pushes_of_unsent unsent, ite_self, ← happend, TypedCall.pushes_of_unsent unsent]
  | delivered delivery fits permits =>
    obtain ⟨left, happend, hlive⟩ := permits_queue hin hq hl permits
    refine ⟨_, left, ?_, hlive, List.Sublist.refl _, fun _ => rfl⟩
    rw [ClientCall.pushes, if_pos ⟨by rw [delivery]; rfl, fits⟩, happend]
  | requestLost delivery sent fits =>
    refine hunchanged _ (if_neg fun h => ?_)
    rw [delivery] at h
    cases h.1
  | @replyLost errstr outcome s' delivery sent fits permits =>
    obtain ⟨left, happend, hlive⟩ := permits_queue hin hq hl permits
    refine ⟨c.call.pops key outcome, left, ?_, hlive, ?_, fun hloses => ?_⟩
    · rw [ClientCall.pushes, if_pos ⟨by rw [delivery]; rfl, fits⟩, happend]
    · rw [TypedCall.pops_error]
      exact List.nil_sublist _
    · have hpops : ¬c.call.PopsAt key := fun h => hloses ⟨h, by rw [delivery]; rfl⟩
      rw [TypedCall.pops_of_not_popsAt hpops, TypedCall.pops_of_not_popsAt hpops]
  | tooLong long => exact hunchanged _ (if_neg fun h => h.2 long)

/-! ### What calls do to the queue -/

theorem keyspaceRun_queue {calls : List (ClientCall K V)} {outcomes : List (Outcome (TypedValue K V))}
    (hin : ∀ c ∈ calls, c.call.InKeyspace) (hq : ∀ c ∈ calls, c.call.QueuesAt key) (hl : s.live key = queueEntry l)
    (h : KeyspaceRun tpl s calls outcomes s') :
    ∃ taken left, l ++ pushedValues tpl key calls = taken ++ left ∧ s'.live key = queueEntry left ∧
      (poppedValues key calls outcomes).Sublist taken ∧
      ((∀ c ∈ calls, ¬(c.call.PopsAt key ∧ c.delivery.losesReply = true)) →
        poppedValues key calls outcomes = taken) := by
  induction h generalizing l with
  | nil s => exact ⟨[], l, List.append_nil l, hl, List.Sublist.refl _, fun _ => rfl⟩
  | @cons s s₁ s' c calls outcome outcomes hstep _ ih =>
    obtain ⟨hinC, hin⟩ := List.forall_mem_cons.mp hin
    obtain ⟨hqC, hq⟩ := List.forall_mem_cons.mp hq
    obtain ⟨taken, left, happend, hlive, hsub, heq⟩ := callStep_queue hinC hqC (live_advance_lasting hl c.elapsed) hstep
    obtain ⟨taken', left', happend', hlive', hsub', heq'⟩ := ih hin hq hlive
    refine ⟨taken ++ taken', left', ?_, hlive', hsub.append hsub', fun hreplies => ?_⟩
    · calc l ++ (c.pushes tpl key ++ pushedValues tpl key calls)
          = taken ++ (left ++ pushedValues tpl key calls) := by rw [← List.append_assoc, happend, List.append_assoc]
        _ = taken ++ taken' ++ left' := by rw [happend', List.append_assoc]
    · obtain ⟨hreply, hreplies⟩ := List.forall_mem_cons.mp hreplies
      exact congrArg₂ (· ++ ·) (heq hreply) (heq' hreplies)

end Step

theorem ListDatum.range_all {α : Type} (l : List α) : ListDatum.range l 0 (-1) = l := by
  have hcount : ((-1 + l.length + 1 - max 0 0 : Int)).toNat = l.length := by omega
  show (l.drop 0).take ((-1 + l.length + 1 - max 0 0 : Int)).toNat = l
  rw [hcount, List.drop_zero, List.take_length]

section Queue
variable [ServerTexts] {K V : Type} [DecidableEq K] [DecidableEq V] {tpl : Template K V}

end Queue

end Redisdal
