import Disasm.Proofs.ProbeEnd
import Disasm.Window.Editor
/-!
# Restoring — what was accepted can be asked for again

The bytes of a file are read again long after it was probed, from a
machine that may have changed in any way. That read can fail for what the
system reports, and a window deals with that. It cannot fail for another
reason: a probe that accepts a file has handed its path on without its
being refused, and for a file of another host it has made use of the ssh
program.
-/

namespace Disasm

open Act Text

theorem Path.hasNull_ofString_text {s : String} (h : hasNull s = false) :
    hasNull (Path.ofString s).text = false := by
  have hroot : ∀ r : Root, hasNull r.text = false := by
    intro r
    cases r with
    | relative => decide
    | single => decide
    | double => decide
  have hparts : (Path.ofString s).parts.any hasNull = false := by
    rw [List.any_eq_false]
    intro name hname
    rw [Location.hasNull_of_mem_parts h hname]
    decide
  rw [Path.text]
  split
  · decide
  · rw [hasNull_append, hroot, hasNull_intercalate (by decide), hparts]
    rfl

/-- A path with a null character is refused for that. -/
theorem Machine.contentOf_of_hasNull {path : String} (h : hasNull path = true) (m : Machine) :
    ((contentOf path).exec m).1 = .error .embeddedNull := by
  have hlook : (nodeAt path).exec m = (.error .embeddedNull, m) :=
    Prod.ext (FileTree.nodeAt_of_hasNull h) rfl
  rw [contentOf, exec_bind_error hlook]

theorem Machine.halts_contentOf (path : String) (m : Machine) :
    (contentOf path).Halts (hasNull path) m := by
  refine (halts_nodeAt path m).bind fun found t _ => ?_
  obtain ⟨place, node⟩ := found
  cases node with
  | directory => exact .reported rfl t
  | link target => exact .reported rfl t
  | file content executable =>
    refine .bind_ok (exec_get t) ?_
    split
    · exact .reported rfl t
    · exact .returned _ t

/-- A host is reached in the same way for each of its files. -/
theorem Location.sshTarget_withPath {l : Location} (h : l.isRemote = true) (path : String) :
    (l.withPath path).sshTarget = l.sshTarget := by
  obtain ⟨host, hhost⟩ := Option.isSome_iff_exists.1 h
  have hsame : (l.withPath path).host = some host := hhost
  rw [sshTarget, sshTarget, hhost, hsame]
  rfl

namespace Host

variable {l : Location} {program : Json} {words : List String} {m m' : Machine} {bytes : Bytes}

/-- What another host printed was asked for through an ssh program, by words
that are not refused. -/
theorem asked_of_readRemote (h : (readRemote l program words).exec m = (.ok bytes, m')) :
    ∃ ssh target, Config.shellWord program = .ok ssh ∧ l.sshTarget = .ok target ∧
      (ssh.refused || (target :: words).any hasNull) = false := by
  obtain ⟨command, m₁, hcommand, -⟩ := ok_of_exec_bind h
  obtain ⟨ssh, hssh, hcommand⟩ := ok_of_bind (congrArg Prod.fst hcommand)
  obtain ⟨target, htarget, -⟩ := ok_of_bind hcommand
  refine ⟨ssh, target, hssh, htarget, ?_⟩
  rw [Bool.eq_false_iff]
  intro hblocked
  obtain ⟨f, hfail, -⟩ := (halts_readRemote hssh htarget words m).refusal hblocked
  rw [h] at hfail
  cases hfail

end Host

/-- Whatever the machine is like, a file can be read, or the system reports
why not. -/
def Restorable (ssh : Json) (l : Location) : Prop :=
  ∀ m, ((Host.of l ssh).readBytes l).Halts false m

namespace Probe

variable {c : Config} {l : Location} {e : Entry} {m m' : Machine} {v : Verdict} {i : Identity}

theorem restorable_here (hlocal : l.isRemote = false) (hpath : hasNull l.path = false)
    (ssh : Json) : Restorable ssh l := by
  intro m
  have hhost : Host.of l ssh = .here := by
    rw [Host.of, hlocal]
    rfl
  have hread := Machine.halts_contentOf (Path.ofString l.path).text m
  rw [Path.hasNull_ofString_text hpath] at hread
  rw [hhost]
  exact hread

/-- A remote file of which something was read can be asked for again. -/
theorem restorable_of_readStart (hremote : l.isRemote = true) {path : String} {limit : Nat}
    {start : Bytes} (hlimit : 0 < limit)
    (h : (Host.readStart (.remote l c.ssh) (l.withPath path) limit).exec m = (.ok start, m')) :
    Restorable c.ssh (l.withPath path) := by
  rw [Host.readStart, if_neg (by omega)] at h
  obtain ⟨ssh, target, hssh, htarget, hwords⟩ := Host.asked_of_readRemote h
  intro m
  have hhost : Host.of (l.withPath path) c.ssh = .remote (l.withPath path) c.ssh := if_pos hremote
  have hagain : (l.withPath path).sshTarget = .ok target :=
    (Location.sshTarget_withPath hremote path).trans htarget
  have hread := Host.halts_readRemote hssh hagain ["cat", "--", (l.withPath path).path] m
  have hfixed : hasNull "cat" = false ∧ hasNull "--" = false := by
    decide
  have hfree : (ssh.refused || (target :: ["cat", "--", (l.withPath path).path]).any hasNull) =
      false := by
    simp only [List.any_cons, List.any_nil, Bool.or_eq_false_iff] at hwords ⊢
    exact ⟨hwords.1, hwords.2.1, hfixed.1, hfixed.2, hwords.2.2.2.2.2.2.1, trivial⟩
  rw [hfree] at hread
  rw [hhost]
  exact hread

/-- A remote file is accepted only if something was read of it. -/
theorem restorable_sniffRemote (hremote : l.isRemote = true) {path : String}
    (hi : i.location = l.withPath path)
    (h : (sniffRemote c (.remote l c.ssh) i).exec m = (.ok v, m')) (hv : v.accepted? ≠ none) :
    Restorable c.ssh i.location := by
  rw [sniffRemote, exec_bind_ok (exec_attempt _ m)] at h
  rcases hread : (Host.readStart (.remote l c.ssh) i.location c.sniffLimit).exec m with
    ⟨f | start, m₁⟩
  · rw [hread] at h
    dsimp only at h
    split at h
    · exact absurd (rejected_reject (by decide) _ _ m₁ v m' h) hv
    · cases h
  · rw [hread] at h
    dsimp only at h
    rw [exec_bind_ok (exec_isBinary start c.sniffLimit m₁)] at h
    dsimp only at h
    split at h
    · rename_i hbinary
      have hlimit : 0 < c.sniffLimit := by
        rw [Nat.pos_iff_ne_zero]
        intro hzero
        rw [hzero, List.take_zero] at hbinary
        cases hbinary
      rw [hi] at hread ⊢
      exact restorable_of_readStart hremote hlimit hread
    · exact absurd (rejected_reject (by decide) _ _ m₁ v m' h) hv

theorem restorable_checkEntry (hremote : l.isRemote = true)
    (h : (checkEntry c (.remote l c.ssh) (identityOf l e)).exec m = (.ok v, m'))
    (hv : v.accepted? ≠ none) : Restorable c.ssh (identityOf l e).location := by
  have hplace : (identityOf l e).location.isRemote = true := hremote
  rw [checkEntry, if_pos hplace] at h
  obtain ⟨found, m₁, -, h⟩ := ok_of_exec_bind h
  split at h
  · exact absurd (rejected_reject (by decide) _ _ m₁ v m' h) hv
  split at h
  · exact absurd (rejected_reject (by decide) _ _ m₁ v m' h) hv
  split at h
  · exact absurd (rejected_reject (by decide) _ _ m₁ v m' h) hv
  split at h
  · exact absurd (rejected_reject (by decide) _ _ m₁ v m' h) hv
  exact restorable_sniffRemote hremote rfl h hv

theorem restorable_probeAt (h : (probeAt c l).exec m = (.ok v, m'))
    (hv : v.accepted? = some i) : Restorable c.ssh i.location := by
  have haccepted : v.accepted? ≠ none := by
    rw [hv]
    exact Option.some_ne_none i
  obtain ⟨entry, m₁, hresolve, h⟩ := ok_of_exec_bind h
  cases entry with
  | none => exact absurd (rejected_reject (by decide) _ _ m₁ v m' h) haccepted
  | some e =>
    have hi : i = identityOf l e := about_checkEntry _ _ _ h i hv
    rw [hi]
    by_cases hremote : l.isRemote = true
    · have hhost : Host.of l c.ssh = .remote l c.ssh := if_pos hremote
      rw [hhost] at h
      exact restorable_checkEntry hremote h haccepted
    · rw [Bool.not_eq_true] at hremote
      have hhost : Host.of l c.ssh = .here := by
        rw [Host.of, hremote]
        rfl
      rw [hhost, exec_resolve_here] at hresolve
      have hlocal : (identityOf l e).location.isRemote = false := hremote
      refine restorable_here hlocal ?_ c.ssh
      rcases hhere : (Host.resolveHere l.path).exec m with ⟨f | found, m₂⟩
      · rw [hhere] at hresolve
        dsimp only at hresolve
        split at hresolve
        · cases hresolve
        · cases hresolve
      · rw [hhere] at hresolve
        cases hresolve
        exact hasNull_of_resolveHere hhere

/-- **A file that was accepted can be asked for again** from any machine. -/
theorem restorable_of_accepted {raw : String} (h : ((probe c raw).exec m).1 = .ok v)
    (hv : v.accepted? = some i) : Restorable c.ssh i.location := by
  have hrun : (probe c raw).exec m = (.ok v, ((probe c raw).exec m).2) := Prod.ext h rfl
  rw [probe, exec_bind_ok (exec_attempt _ m)] at hrun
  rcases hread : ((Machine.readLocation raw).exec m).1 with f | l
  · rw [hread] at hrun
    dsimp only at hrun
    split at hrun
    · have hnone : v.accepted? = none := rejected_reject (by decide) _ _ _ _ _ hrun
      rw [hv] at hnone
      cases hnone
    · cases hrun
  · rw [hread] at hrun
    exact restorable_probeAt hrun hv

end Probe

end Disasm
