import Disasm.Machine.Basic
import Mathlib.Tactic.Common
/-!
# Operations — how they end, and what they keep

An operation that is started in a state ends with a value or a failure,
and in a state. `exec` is that pair. Each way of putting operations
together has one equation here, so that what a composed operation does is
read off what its parts do. `Preserves` says that an operation keeps an
invariant however it ends, and `Keeps` that it leaves an aspect of the
state as it was.
-/

namespace Disasm

namespace Act

variable {σ τ α β : Type}

/-- How an operation that is started in a state ends, and in which state. -/
def exec (x : Act σ α) (s : σ) : Except Failure α × σ :=
  x.run s

/-! ## One equation for each way of putting operations together -/

@[simp] theorem exec_pure (a : α) (s : σ) : (pure a : Act σ α).exec s = (.ok a, s) := rfl

@[simp] theorem exec_get (s : σ) : (get : Act σ σ).exec s = (.ok s, s) := rfl

@[simp] theorem exec_set (s t : σ) : (set t : Act σ PUnit).exec s = (.ok ⟨⟩, t) := rfl

@[simp] theorem exec_modify (f : σ → σ) (s : σ) :
    (modify f : Act σ PUnit).exec s = (.ok ⟨⟩, f s) := rfl

/-- A result that is lifted ends the operation as it says. -/
@[simp] theorem exec_ofExcept (r : Except Failure α) (s : σ) :
    (ofExcept r : Act σ α).exec s = (r, s) := rfl

/-- An attempt does not fail, and changes the state as what it attempts. -/
@[simp] theorem exec_attempt (x : Act σ α) (s : σ) :
    x.attempt.exec s = (.ok (x.exec s).1, (x.exec s).2) := rfl

/-- A sequence goes on from where its first part ended, unless that part
failed. -/
theorem exec_bind (x : Act σ α) (f : α → Act σ β) (s : σ) :
    (x >>= f).exec s =
      match x.exec s with
      | (.ok a, t) => (f a).exec t
      | (.error e, t) => (.error e, t) := by
  have hrun : (x >>= f).exec s = (ExceptT.bindCont f (x.exec s).1) (x.exec s).2 := rfl
  rw [hrun]
  rcases x.exec s with ⟨e | a, t⟩
  · rfl
  · rfl

/-- A first part that succeeds hands its value on. -/
theorem exec_bind_ok {x : Act σ α} {f : α → Act σ β} {s t : σ} {a : α}
    (h : x.exec s = (.ok a, t)) : (x >>= f).exec s = (f a).exec t := by
  rw [exec_bind, h]

/-- A first part that fails is the end. -/
theorem exec_bind_error {x : Act σ α} {f : α → Act σ β} {s t : σ} {e : Failure}
    (h : x.exec s = (.error e, t)) : (x >>= f).exec s = (.error e, t) := by
  rw [exec_bind, h]

/-- What follows a failure is never done. -/
@[simp] theorem throw_bind (e : Failure) (f : α → Act σ β) :
    (throw e >>= f : Act σ β) = throw e := rfl

/-- A sequence that succeeds has two parts that do. -/
theorem ok_of_exec_bind {x : Act σ α} {f : α → Act σ β} {s u : σ} {b : β}
    (h : (x >>= f).exec s = (.ok b, u)) :
    ∃ a t, x.exec s = (.ok a, t) ∧ (f a).exec t = (.ok b, u) := by
  rw [exec_bind] at h
  rcases hx : x.exec s with ⟨e | a, t⟩
  · rw [hx] at h
    cases h
  · rw [hx] at h
    exact ⟨a, t, rfl, h⟩

/-- A value that is passed through a function changes nothing else. -/
@[simp] theorem exec_map (g : α → β) (x : Act σ α) (s : σ) :
    (g <$> x).exec s = ((x.exec s).1.map g, (x.exec s).2) := by
  rw [map_eq_pure_bind, exec_bind]
  rcases x.exec s with ⟨e | a, t⟩
  · rfl
  · rfl

/-- An operation with a remedy ends like its own, unless it fails in a way
the remedy is for. -/
theorem exec_recover (x : Act σ α) (forgives : Failure → Bool) (handle : Failure → Act σ α)
    (s : σ) :
    (x.recover forgives handle).exec s =
      match x.exec s with
      | (.ok a, t) => (.ok a, t)
      | (.error f, t) => if forgives f then (handle f).exec t else (.error f, t) := by
  rw [recover, exec_bind, exec_attempt]
  rcases x.exec s with ⟨f | a, t⟩
  · dsimp only
    split
    · rfl
    · rfl
  · rfl

/-- An end that has a value is a success with that value. -/
theorem ok_of_toOption {ε : Type} {r : Except ε α} {a : α} (h : r.toOption = some a) :
    r = .ok a := by
  cases r with
  | error f => cases h
  | ok b =>
    cases h
    rfl

/-! ## Operations that never fail -/

/-- An operation returns from every state. -/
def Total (x : Act σ α) : Prop :=
  ∀ s, ∃ a, (x.exec s).1 = .ok a

/-- Operations that never fail can be done one after the other. -/
theorem Total.bind {x : Act σ α} {f : α → Act σ β} (hx : x.Total) (hf : ∀ a, (f a).Total) :
    (x >>= f).Total := by
  intro s
  obtain ⟨a, ha⟩ := hx s
  have hxs : x.exec s = (.ok a, (x.exec s).2) := Prod.ext ha rfl
  rw [exec_bind_ok hxs]
  exact hf a _

theorem Total.pure (a : α) : (Pure.pure a : Act σ α).Total :=
  fun _ => ⟨a, rfl⟩

theorem Total.get : (MonadState.get : Act σ σ).Total :=
  fun s => ⟨s, rfl⟩

theorem Total.modify (f : σ → σ) : (modify f : Act σ PUnit).Total :=
  fun _ => ⟨⟨⟩, rfl⟩

/-- Whichever branch is taken, it never fails. -/
theorem Total.ite {p : Prop} [Decidable p] {x y : Act σ α} (hx : x.Total) (hy : y.Total) :
    (if p then x else y).Total := by
  split
  · exact hx
  · exact hy

/-- Nor does any number of them. -/
theorem Total.forM {f : α → Act σ PUnit} (h : ∀ a, (f a).Total) (as : List α) :
    (as.forM f).Total := by
  induction as with
  | nil => exact Total.pure _
  | cons a as ih => exact (h a).bind fun _ => ih

/-! ## Invariants -/

/-- An operation keeps an invariant, however it ends. -/
def Preserves (I : σ → Prop) (x : Act σ α) : Prop :=
  ∀ s, I s → I (x.exec s).2

variable {I : σ → Prop}

/-- What holds after the first part of a sequence holds after the whole, if
the second part preserves it. -/
theorem Preserves.after {x : Act σ α} {f : α → Act σ β} {s : σ}
    (hx : I (x.exec s).2) (hf : ∀ a, (f a).Preserves I) : I ((x >>= f).exec s).2 := by
  rw [exec_bind]
  rcases h : x.exec s with ⟨e | a, t⟩
  · rw [h] at hx
    exact hx
  · rw [h] at hx
    exact hf a t hx

/-- What both parts preserve, one after the other preserves. -/
theorem Preserves.bind {x : Act σ α} {f : α → Act σ β} (hx : x.Preserves I)
    (hf : ∀ a, (f a).Preserves I) : (x >>= f).Preserves I :=
  fun s hs => Preserves.after (hx s hs) hf

/-- An attempt preserves what the operation does, however that ends. -/
theorem Preserves.attempt {x : Act σ α} (hx : x.Preserves I) : x.attempt.Preserves I :=
  hx

theorem Preserves.pure (a : α) : (Pure.pure a : Act σ α).Preserves I :=
  fun _ hs => hs

/-- Failing leaves the state as it is. -/
theorem Preserves.throw (f : Failure) : (MonadExcept.throw f : Act σ α).Preserves I :=
  fun _ hs => hs

theorem Preserves.get : (MonadState.get : Act σ σ).Preserves I :=
  fun _ hs => hs

/-- What is done with the value does not touch the state. -/
theorem Preserves.map {x : Act σ α} (hx : x.Preserves I) (g : α → β) : (g <$> x).Preserves I := by
  intro s hs
  rw [exec_map]
  exact hx s hs

/-- Lifting a result leaves the state as it is. -/
theorem Preserves.ofExcept (r : Except Failure α) : (ofExcept r : Act σ α).Preserves I :=
  fun _ hs => hs

/-- It is enough that both branches preserve it. -/
theorem Preserves.ite {p : Prop} [Decidable p] {x y : Act σ α} (hx : x.Preserves I)
    (hy : y.Preserves I) : (if p then x else y).Preserves I := by
  split
  · exact hx
  · exact hy

/-- A step that is taken only sometimes, with what comes after it. -/
theorem Preserves.when {p : Prop} [Decidable p] {x : Act σ α} {y : Act σ β}
    (hx : x.Preserves I) (hy : y.Preserves I) :
    (if p then x >>= fun _ => y else y).Preserves I :=
  Preserves.ite (hx.bind fun _ => hy) hy

/-- A loop preserves what its steps on the given elements preserve. -/
theorem Preserves.forM_mem {f : α → Act σ PUnit} {as : List α} (h : ∀ a ∈ as, (f a).Preserves I) :
    (as.forM f).Preserves I := by
  induction as with
  | nil => exact Preserves.pure _
  | cons a as ih =>
    rw [List.forall_mem_cons] at h
    exact h.1.bind fun _ => ih h.2

/-- So it does if every step preserves it. -/
theorem Preserves.forM {f : α → Act σ PUnit} (h : ∀ a, (f a).Preserves I) (as : List α) :
    (as.forM f).Preserves I :=
  Preserves.forM_mem fun a _ => h a

/-- A step for the value that may be there. -/
theorem Preserves.optionForM {f : α → Act σ PUnit} (h : ∀ a, (f a).Preserves I) (a? : Option α) :
    (a?.forM f).Preserves I := by
  cases a? with
  | none => exact Preserves.pure _
  | some a => exact h a

/-- The same for a loop that passes a value on. -/
theorem Preserves.foldlM {f : β → α → Act σ β} (h : ∀ b a, (f b a).Preserves I) (b : β)
    (as : List α) : (as.foldlM f b).Preserves I := by
  induction as generalizing b with
  | nil => exact Preserves.pure _
  | cons a as ih =>
    rw [List.foldlM_cons]
    exact (h b a).bind fun b => ih b

/-- A failure that is handled preserves what the handling does. -/
theorem Preserves.recover {x : Act σ α} {forgives : Failure → Bool}
    {handle : Failure → Act σ α} (hx : x.Preserves I) (hh : ∀ f, (handle f).Preserves I) :
    (x.recover forgives handle).Preserves I := by
  refine hx.attempt.bind fun r => ?_
  rcases r with f | a
  · dsimp only
    split
    · exact hh f
    · exact Preserves.throw f
  · exact Preserves.pure a

/-- An operation leaves an aspect of the state as it was, however it ends. -/
def Keeps (aspect : σ → τ) (x : Act σ α) : Prop :=
  ∀ v, x.Preserves (aspect · = v)

/-- What is left as it was, preserves whatever depends on it alone. -/
theorem Keeps.preserves {aspect : σ → τ} {x : Act σ α} (h : x.Keeps aspect) (Q : τ → Prop) :
    x.Preserves fun s => Q (aspect s) := by
  intro s hs
  have hsame : aspect (x.exec s).2 = aspect s := h (aspect s) s rfl
  rwa [hsame]

/-- An aspect that is left as it was is the same at the end. -/
theorem Keeps.eq {aspect : σ → τ} {x : Act σ α} {s t : σ} {r : Except Failure α}
    (h : x.Keeps aspect) (hx : x.exec s = (r, t)) : aspect t = aspect s := by
  have hsame := h (aspect s) s rfl
  rwa [hx] at hsame

/-- What is left as it was, is so in every aspect. -/
theorem Keeps.through {aspect : σ → τ} {x : Act σ α} (h : x.Keeps aspect) (f : τ → β) :
    x.Keeps fun s => f (aspect s) := by
  intro v s hs
  have hsame : aspect (x.exec s).2 = aspect s := h (aspect s) s rfl
  exact (congrArg f hsame).trans hs

/-- From a state with an invariant an operation returns, and the invariant
holds again. -/
def Sustains (I : σ → Prop) (x : Act σ α) : Prop :=
  ∀ s, I s → ∃ a t, x.exec s = (.ok a, t) ∧ I t

theorem Sustains.pure (a : α) : (Pure.pure a : Act σ α).Sustains I :=
  fun s hs => ⟨a, s, rfl, hs⟩

/-- What is sustained by the first part is there for the second. -/
theorem Sustains.bind {x : Act σ α} {f : α → Act σ β} (hx : x.Sustains I)
    (hf : ∀ a, (f a).Sustains I) : (x >>= f).Sustains I := by
  intro s hs
  obtain ⟨a, t, hend, ht⟩ := hx s hs
  rw [exec_bind_ok hend]
  exact hf a t ht

theorem Sustains.map {x : Act σ α} (hx : x.Sustains I) (g : α → β) : (g <$> x).Sustains I := by
  intro s hs
  obtain ⟨a, t, hend, ht⟩ := hx s hs
  exact ⟨g a, t, by rw [exec_map, hend]; rfl, ht⟩

/-- It is enough that both branches sustain it. -/
theorem Sustains.ite {p : Prop} [Decidable p] {x y : Act σ α} (hx : x.Sustains I)
    (hy : y.Sustains I) : (if p then x else y).Sustains I := by
  split
  · exact hx
  · exact hy

/-- An operation that sustains an invariant preserves it. -/
theorem Sustains.preserves {x : Act σ α} (hx : x.Sustains I) : x.Preserves I := by
  intro s hs
  obtain ⟨a, t, hend, ht⟩ := hx s hs
  rw [hend]
  exact ht

/-! ## What an operation returns -/

/-- Every value that an operation returns meets a condition. -/
def Yields (x : Act σ α) (Q : α → Prop) : Prop :=
  ∀ s a t, x.exec s = (.ok a, t) → Q a

theorem Yields.pure {Q : α → Prop} {a : α} (h : Q a) : (Pure.pure a : Act σ α).Yields Q := by
  intro s b t hb
  cases hb
  exact h

/-- An operation that fails yields nothing. -/
theorem Yields.throw (f : Failure) {Q : α → Prop} :
    (MonadExcept.throw f : Act σ α).Yields Q := by
  intro s a t ha
  cases ha

/-- The last part decides on what is yielded. -/
theorem Yields.bind {x : Act σ α} {f : α → Act σ β} {Q : β → Prop} (h : ∀ a, (f a).Yields Q) :
    (x >>= f).Yields Q := by
  intro s b u hb
  obtain ⟨a, t, -, hb⟩ := ok_of_exec_bind hb
  exact h a t b u hb

/-- Both branches have to yield it. -/
theorem Yields.ite {p : Prop} [Decidable p] {x y : Act σ α} {Q : α → Prop} (hx : x.Yields Q)
    (hy : y.Yields Q) : (if p then x else y).Yields Q := by
  split
  · exact hx
  · exact hy

end Act

end Disasm
