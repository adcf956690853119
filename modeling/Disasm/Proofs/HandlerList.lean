import Disasm.Opening.Registry
import Disasm.Proofs.Act
/-!
# The lists of a registry — what a dispatch asks while handlers change it

A dispatch refers to the list that was in use when it began, and looks at
it again for every handler. What it finds there does not depend on what
the handlers do to the registry meanwhile: an operation that takes names
off makes another list, and the one that writes to a list writes to one
it has made itself (`list_unregister`, `list_register`). So a dispatch
asks what stood on its list when it began, and ends with the list
(`exec_openFrom`).
-/

namespace Disasm

open Act

namespace Registry

variable {H σ R : Type} {r : Registry H} {n : Nat}

/-! ## Which lists an operation changes -/

/-- In use is the list that was made last. -/
theorem list_current (r : Registry H) : r.list r.current = r.entries := by
  simp [list, current]

theorem list_of_lt_current (hn : n < r.current) : r.list n = r.former[n]?.getD [] := by
  rw [list, List.getElem?_append_left hn]

theorem current_unregister (r : Registry H) (name : String) :
    (r.unregister name).current = r.current + 1 :=
  List.length_append

theorem current_register (r : Registry H) (name : String) (handler : H) :
    (r.register name handler).current = r.current + 1 :=
  current_unregister r name

/-- Taking a name off leaves all lists as they are, the one in use too. -/
theorem list_unregister (name : String) (hn : n ≤ r.current) :
    (r.unregister name).list n = r.list n := by
  rw [list_of_lt_current (by rw [current_unregister]; omega)]
  rfl

/-- Writing to the list in use leaves the others as they are. -/
theorem list_append (e : Registered H) (hn : n < r.current) : (r.append e).list n = r.list n := by
  rw [list_of_lt_current hn]
  exact list_of_lt_current hn

/-- **A registration leaves all lists as they are that there were before.** It
writes to a list, but to one that it has made. -/
theorem list_register (name : String) (handler : H) (hn : n ≤ r.current) :
    (r.register name handler).list n = r.list n := by
  rw [register, list_append _ (by rw [current_unregister]; omega), list_unregister name hn]

/-! ## Going through a list -/

/-- Opens a file with the first of some handlers that accepts it. -/
def openWith (announce : String → Act σ Unit) (behave : H → Behaviour σ R) (path : String) :
    List (Registered H) → Act σ (Option R)
  | [] => return none
  | e :: rest => do
    if ← (behave e.handler).accepts path then
      announce e.name
      return some (← (behave e.handler).activate path)
    else openWith announce behave path rest

variable {registry : σ → Registry H} {onMachine : Act Machine Unit → Act σ Unit}
variable {announce : String → Act σ Unit} {behave : H → Behaviour σ R} {path : String}
variable {I : σ → Prop} {entries : List (Registered H)} {s : σ}

/-- **Going through a list that stays as it is** is going through what is on
it. The number of steps does not matter if it is more than is left of the
list. -/
theorem exec_openFrom (hlist : ∀ t, I t → (registry t).list n = entries)
    (hask : ∀ h, ((behave h).accepts path).Preserves I) (hs : I s) {steps index : Nat}
    (hsteps : entries.length < index + steps) :
    (openFrom registry announce behave path n steps index).exec s =
      (openWith announce behave path (entries.drop index)).exec s := by
  induction steps generalizing s index with
  | zero =>
    rw [List.drop_eq_nil_of_le (by omega)]
    rfl
  | succ steps ih =>
    -- The list is looked at in the state that the last handler left.
    rw [openFrom, exec_bind_ok (exec_get s), hlist s hs]
    rcases hnext : entries[index]? with _ | e
    · rw [List.drop_eq_nil_of_le (List.getElem?_eq_none_iff.1 hnext)]
      rfl
    · obtain ⟨hlt, rfl⟩ := List.getElem?_eq_some_iff.1 hnext
      rw [List.drop_eq_getElem_cons hlt, openWith]
      have hasked := hask entries[index].handler s hs
      rcases hanswer : ((behave entries[index].handler).accepts path).exec s with ⟨f | accepted, t⟩
      · exact (exec_bind_error hanswer).trans (exec_bind_error hanswer).symm
      rw [hanswer] at hasked
      refine (exec_bind_ok hanswer).trans (Eq.trans ?_ (exec_bind_ok hanswer).symm)
      cases accepted with
      | false => exact ih hasked (by omega)
      | true => rfl

/-- A dispatch asks the handlers that were registered when it began, if their
list stays as it is. -/
theorem exec_dispatch_of_list (hs : I s)
    (hlist : ∀ t, I t → (registry t).list (registry s).current = (registry s).entries)
    (hask : ∀ h, ((behave h).accepts path).Preserves I) :
    (dispatch registry onMachine behave path).exec s =
      (openWith (fun name => onMachine (Registry.announce path name)) behave path
        (registry s).entries).exec s := by
  rw [dispatch, exec_bind_ok (exec_get s)]
  exact exec_openFrom hlist hask hs (by omega)

/-- Handlers that do not change the registry to answer leave the list as it
is. -/
theorem exec_dispatch_of_keeps (hask : ∀ h, ((behave h).accepts path).Keeps registry) (s : σ) :
    (dispatch registry onMachine behave path).exec s =
      (openWith (fun name => onMachine (Registry.announce path name)) behave path
        (registry s).entries).exec s := by
  refine exec_dispatch_of_list (I := fun t => registry t = registry s) rfl (fun t ht => ?_)
    fun h => hask h (registry s)
  rw [ht, list_current]

end Registry

end Disasm
