/-! # Programs with exceptions over a state

A program runs on a state and either returns or throws; what it did to the state before a throw stays
done. This is how a method of an object behaves in a language with exceptions: the caller that catches
the exception sees the object as the method left it. -/

/-- A program over the state `σ` that returns an `α` or throws an `ε`. -/
@[ext] structure Program (ε σ α : Type) where
  run : σ → Except ε α × σ

namespace Program
variable {ε σ τ α β γ : Type}

protected def pure (a : α) : Program ε σ α := ⟨fun s => (.ok a, s)⟩

/-- What comes after a result: the continuation, or the same throw. -/
def resume (f : α → Program ε σ β) : Except ε α × σ → Except ε β × σ
  | (.ok a, s) => (f a).run s
  | (.error e, s) => (.error e, s)

protected def bind (p : Program ε σ α) (f : α → Program ε σ β) : Program ε σ β := ⟨fun s => resume f (p.run s)⟩

instance : Monad (Program ε σ) where
  pure := Program.pure
  bind := Program.bind

def throw (e : ε) : Program ε σ α := ⟨fun s => (.error e, s)⟩

/-- The outcome of a program whose throws `handler` catches, from the state the throw left. -/
def recover (handler : ε → Program ε σ α) : Except ε α × σ → Except ε α × σ
  | (.ok a, s) => (.ok a, s)
  | (.error e, s) => (handler e).run s

def tryCatch (p : Program ε σ α) (handler : ε → Program ε σ α) : Program ε σ α := ⟨fun s => recover handler (p.run s)⟩

def get : Program ε σ σ := ⟨fun s => (.ok s, s)⟩

def modify (f : σ → σ) : Program ε σ Unit := ⟨fun s => (.ok (), f s)⟩

/-- A computation that reads no state. -/
def ofExcept (x : Except ε α) : Program ε σ α := ⟨fun s => (x, s)⟩

/-- Decode what `p` returns. -/
def decode (p : Program ε σ α) (f : α → Except ε β) : Program ε σ β := p >>= fun a => ofExcept (f a)

/-- Run `p` next to a state that it does not touch. -/
def lift (p : Program ε σ α) : Program ε (τ × σ) α := ⟨fun s => ((p.run s.2).1, (s.1, (p.run s.2).2))⟩

/-- The outcome of a program as its caller sees it once the local variable is gone. -/
def dropLocal : Except ε α × (τ × σ) → Except ε (α × τ) × σ
  | (.ok a, (t, s)) => (.ok (a, t), s)
  | (.error e, (_, s)) => (.error e, s)

/-- Run `p` with a local variable that starts as `init`; a throw loses the variable. -/
def withLocal (init : τ) (p : Program ε (τ × σ) α) : Program ε σ (α × τ) := ⟨fun s => dropLocal (p.run (init, s))⟩

/-! ### What each construct computes -/

@[simp] theorem run_pure (a : α) (s : σ) : (pure a : Program ε σ α).run s = (.ok a, s) := rfl

@[simp] theorem run_throw (e : ε) (s : σ) : (throw e : Program ε σ α).run s = (.error e, s) := rfl

@[simp] theorem run_get (s : σ) : (get : Program ε σ σ).run s = (.ok s, s) := rfl

@[simp] theorem run_modify (f : σ → σ) (s : σ) : (modify f : Program ε σ Unit).run s = (.ok (), f s) := rfl

@[simp] theorem run_ofExcept (x : Except ε α) (s : σ) : (ofExcept x : Program ε σ α).run s = (x, s) := rfl

@[simp] theorem run_lift (p : Program ε σ α) (s : τ × σ) :
    (lift p).run s = ((p.run s.2).1, (s.1, (p.run s.2).2)) := rfl

@[simp] theorem run_bind (p : Program ε σ α) (f : α → Program ε σ β) (s : σ) :
    (p >>= f).run s = resume f (p.run s) := rfl

@[simp] theorem run_decode (p : Program ε σ α) (f : α → Except ε β) (s : σ) :
    (p.decode f).run s = resume (fun a => ofExcept (f a)) (p.run s) := rfl

@[simp] theorem run_withLocal (init : τ) (p : Program ε (τ × σ) α) (s : σ) :
    (withLocal init p).run s = dropLocal (p.run (init, s)) := rfl

@[simp] theorem resume_ok (f : α → Program ε σ β) (a : α) (s : σ) : resume f (.ok a, s) = (f a).run s := rfl

@[simp] theorem recover_error (handler : ε → Program ε σ α) (e : ε) (s : σ) :
    recover handler (.error e, s) = (handler e).run s := rfl

@[simp] theorem throw_bind (e : ε) (f : α → Program ε σ β) : (throw e >>= f) = throw e := rfl

theorem bind_pure_unit (p : Program ε σ Unit) : (p >>= fun _ => pure ()) = p := by
  ext1
  funext s
  rw [run_bind]
  rcases p.run s with ⟨_ | _, _⟩ <;> rfl

theorem ofExcept_ok_bind (a : α) (f : α → Program ε σ β) : (ofExcept (.ok a) >>= f) = f a := rfl

@[simp] theorem ofExcept_error (e : ε) : (ofExcept (.error e) : Program ε σ α) = throw e := rfl

theorem run_map (f : α → β) (p : Program ε σ α) (s : σ) :
    (f <$> p).run s = ((p.run s).1.map f, (p.run s).2) := by
  show resume (fun a => pure (f a)) (p.run s) = _
  rcases p.run s with ⟨_ | a, t⟩ <;> rfl

theorem map_decode (g : β → γ) (p : Program ε σ α) (f : α → Except ε β) :
    g <$> p.decode f = p.decode fun a => (f a).map g := by
  ext1
  funext s
  rw [run_map, run_decode, run_decode]
  rcases p.run s with ⟨_ | a, t⟩ <;> rfl

theorem decode_decode (p : Program ε σ α) (f : α → Except ε β) (g : β → Except ε γ) :
    (p.decode f).decode g = p.decode fun a => f a >>= g := by
  ext1
  funext s
  rw [run_decode, run_decode, run_decode]
  rcases p.run s with ⟨e | a, t⟩
  · rfl
  · show resume _ (f a, t) = (f a >>= g, t)
    cases f a <;> rfl

theorem snd_run_decode (p : Program ε σ α) (f : α → Except ε β) (s : σ) : ((p.decode f).run s).2 = (p.run s).2 := by
  rw [run_decode]
  rcases p.run s with ⟨e | a, t⟩ <;> rfl

/-- A program that decodes before it touches its local variable is one that returns what becomes of it. -/
theorem withLocal_lift (init : τ) (p : Program ε σ α) (f : α → Except ε β) (k : β → Program ε (τ × σ) γ)
    (result : β → γ × τ)
    (hk : ∀ a b s, f a = .ok b → (k b).run (init, s) = (.ok (result b).1, ((result b).2, s))) :
    withLocal init ((p.decode f).lift >>= k) = p.decode fun a => (f a).map result := by
  ext1
  funext s
  rw [run_withLocal, run_bind, run_lift, run_decode, run_decode]
  rcases p.run s with ⟨e | a, t⟩
  · rfl
  · simp only [resume_ok, run_ofExcept]
    cases hf : f a with
    | error e => rfl
    | ok b =>
      rw [resume_ok, hk a b t hf]
      rfl

/-! ### Loops that decode each element and then store it -/

/-- The decoded elements before the first one that fails, and its failure. -/
def decodePrefix (d : α → Except ε β) : List α → List β × Option ε
  | [] => ([], none)
  | a :: l => match d a with
    | .ok b => (b :: (decodePrefix d l).1, (decodePrefix d l).2)
    | .error e => ([], some e)

/-- How a loop ends that met the failure `f`. -/
def ending (f : Option ε) : Except ε Unit :=
  match f with
  | none => .ok ()
  | some e => .error e

/-- A loop that decodes and stores stops at the first element that fails, with everything before it stored. -/
theorem run_forM_decode (d : α → Except ε β) (store : β → σ → σ) (l : List α) (s : σ) :
    (forM l fun a => ofExcept (d a) >>= fun b => modify (store b)).run s =
      (ending (decodePrefix d l).2, (decodePrefix d l).1.foldl (fun s b => store b s) s) := by
  induction l generalizing s with
  | nil => rfl
  | cons a l ih =>
    rw [List.forM_cons]
    cases h : d a with
    | error e => simp [decodePrefix, h, ending]
    | ok b => simp [decodePrefix, h, ih]

theorem foldl_fst (store : β → τ → τ) (l : List β) (m : τ) (s : σ) :
    l.foldl (fun s b => (store b s.1, s.2)) (m, s) = (l.foldl (fun m b => store b m) m, s) := by
  induction l generalizing m with
  | nil => rfl
  | cons b l ih => exact ih _

/-- The same for a loop that stores in the first component of the state. -/
theorem run_forM_decode_fst (d : α → Except ε β) (store : β → τ → τ) (l : List α) (m : τ) (s : σ) :
    (forM l fun a => ofExcept (d a) >>= fun b => modify fun s => (store b s.1, s.2)).run (m, s) =
      (ending (decodePrefix d l).2, ((decodePrefix d l).1.foldl (fun m b => store b m) m, s)) := by
  rw [run_forM_decode d (fun b (s : τ × σ) => (store b s.1, s.2)), foldl_fst]

theorem decodePrefix_map {d : α → Except ε β} {g : α → β} {l : List α} (h : ∀ a ∈ l, d a = .ok (g a)) :
    decodePrefix d l = (l.map g, none) := by
  induction l with
  | nil => rfl
  | cons a l ih =>
    simp only [decodePrefix, h a List.mem_cons_self, ih fun b hb => h b (List.mem_cons_of_mem _ hb), List.map_cons]

theorem mem_decodePrefix {d : α → Except ε β} {l : List α} {b : β} (h : b ∈ (decodePrefix d l).1) :
    ∃ a ∈ l, d a = .ok b := by
  induction l with
  | nil => cases h
  | cons a l ih =>
    cases ha : d a with
    | error e => simp [decodePrefix, ha] at h
    | ok b' =>
      simp only [decodePrefix, ha, List.mem_cons] at h
      rcases h with rfl | h
      · exact ⟨a, List.mem_cons_self, ha⟩
      · obtain ⟨a', ha', hb⟩ := ih h
        exact ⟨a', List.mem_cons_of_mem _ ha', hb⟩

theorem exists_mem_decodePrefix {d : α → Except ε β} {l : List α} (h : (decodePrefix d l).2 = none) {a : α}
    (ha : a ∈ l) : ∃ b ∈ (decodePrefix d l).1, d a = .ok b := by
  induction l with
  | nil => cases ha
  | cons a' l ih =>
    cases hd : d a' with
    | error e => simp [decodePrefix, hd] at h
    | ok b =>
      simp only [decodePrefix, hd] at h ⊢
      rcases List.mem_cons.mp ha with rfl | ha
      · exact ⟨b, List.mem_cons_self, hd⟩
      · obtain ⟨b', hb', hd'⟩ := ih h ha
        exact ⟨b', List.mem_cons_of_mem _ hb', hd'⟩

theorem decodePrefix_eq_none {d : α → Except ε β} {l : List α} (h : ∀ a ∈ l, ∃ b, d a = .ok b) :
    (decodePrefix d l).2 = none := by
  induction l with
  | nil => rfl
  | cons a l ih =>
    obtain ⟨b, hb⟩ := h a List.mem_cons_self
    simp only [decodePrefix, hb]
    exact ih fun a' ha' => h a' (List.mem_cons_of_mem _ ha')

/-- What a loop has decoded when it ends, or the failure that it meets. -/
theorem mapM_eq_decodePrefix (d : α → Except ε β) (l : List α) :
    l.mapM d = (ending (decodePrefix d l).2).map fun _ => (decodePrefix d l).1 := by
  induction l with
  | nil => rfl
  | cons a l ih =>
    rw [List.mapM_cons]
    cases h : d a with
    | error e =>
      simp only [decodePrefix, h]
      rfl
    | ok b =>
      rw [ih]
      simp only [decodePrefix, h]
      cases (decodePrefix d l).2 <;> rfl

/-! ### Requests: computations that run before a program, and need no state -/

theorem decode_map (g : α → β) (p : Program ε σ α) (f : β → Except ε γ) :
    (g <$> p).decode f = p.decode fun a => f (g a) := by
  ext1
  funext s
  rw [run_decode, run_decode, run_map]
  rcases p.run s with ⟨_ | a, t⟩ <;> rfl

theorem ofExcept_bind_bind (x : Except ε α) (y : Except ε β) (f : α → β → Program ε σ γ) :
    (ofExcept x >>= fun a => ofExcept y >>= f a) =
      ofExcept (x >>= fun a => y >>= fun b => pure (a, b)) >>= fun p => f p.1 p.2 := by
  cases x with
  | error e => rfl
  | ok a => cases y <;> rfl

/-- The outcome of a program that decodes what another returns. -/
theorem run_decode_eq (p : Program ε σ α) (f : α → Except ε β) (s : σ) :
    (p.decode f).run s = ((p.run s).1 >>= f, (p.run s).2) := by
  rw [run_decode]
  rcases p.run s with ⟨_ | a, t⟩ <;> rfl

end Program
