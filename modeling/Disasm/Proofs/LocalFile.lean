import Disasm.Proofs.Canonical
import Disasm.Proofs.Standpoint
import Disasm.View.Buffer
/-!
# Local files — opened by one path, probed and read again by another

A text that names no host is read as a rooted path of this machine. A
buffer opens the file along that path; the probe resolves the path first
and remembers the canonical one, along which the file is read when it is
put back. As long as the file tree and the standpoint of the machine stay
the same, both paths give the same bytes.
-/

namespace Disasm

open Act

/-! ## Rooted paths -/

namespace Path

theorem root_of_startsWith {s : String} (h : Text.startsWith s "/" = true) :
    Root.of s.toList ≠ .relative := by
  obtain ⟨rest, hrest⟩ := List.isPrefixOf_iff_prefix.1 h
  rw [← hrest]
  change Root.of ('/' :: rest) ≠ .relative
  unfold Root.of
  split
  · exact Root.noConfusion
  · exact Root.noConfusion
  · exact Root.noConfusion
  · rename_i hnot
    exact absurd rfl (hnot rest)

theorem startsWith_of_toList {s : String} {rest : List Char} (h : s.toList = '/' :: rest) :
    Text.startsWith s "/" = true := by
  rw [Text.startsWith, h]
  rfl

/-- The text of a rooted path is rooted. -/
theorem startsWith_text {p : Path} (h : p.root ≠ .relative) :
    Text.startsWith p.text "/" = true := by
  obtain ⟨rest, hrest⟩ : ∃ rest, p.root.text.toList = '/' :: rest := by
    cases hr : p.root with
    | relative => exact absurd hr h
    | single => exact ⟨[], rfl⟩
    | double => exact ⟨['/'], rfl⟩
  have hlist : (p.root.text ++ String.intercalate "/" p.parts).toList =
      '/' :: (rest ++ (String.intercalate "/" p.parts).toList) := by
    rw [String.toList_append, hrest, List.cons_append]
  have hfull : ¬(p.root.text ++ String.intercalate "/" p.parts).isEmpty = true := by
    rw [String.isEmpty_iff, ← String.toList_eq_nil_iff, hlist]
    exact List.cons_ne_nil _ _
  rw [text, if_neg hfull]
  exact startsWith_of_toList hlist

theorem startsWith_ofString {s : String} (h : Text.startsWith s "/" = true) :
    Text.startsWith (ofString s).text "/" = true :=
  startsWith_text (p := ofString s) (root_of_startsWith h)

theorem startsWith_join {cwd : String} (hcwd : Text.startsWith cwd "/" = true) (s : String) :
    Text.startsWith (join cwd s) "/" = true := by
  obtain ⟨rest, hrest⟩ := List.isPrefixOf_iff_prefix.1 hcwd
  have hlist : cwd.toList = '/' :: rest := hrest.symm
  rw [join]
  split
  · assumption
  split
  · exact startsWith_of_toList (by rw [String.toList_append, hlist, List.cons_append])
  · exact startsWith_of_toList (by
      rw [String.toList_append, String.toList_append, hlist, List.cons_append, List.cons_append])

/-- What a working directory is put in front of is rooted. -/
theorem startsWith_absolute {cwd : String} (hcwd : Text.startsWith cwd "/" = true) (s : String) :
    Text.startsWith (absolute cwd s) "/" = true :=
  startsWith_text (root_of_startsWith (startsWith_join hcwd s))

end Path

/-- A remote text is never read as a local location. -/
theorem Location.isRemote_of_readRemote {raw scheme : String} {rest : List Char} {l : Location}
    (h : readRemote raw scheme rest = .ok l) : l.isRemote = true := by
  rw [readRemote] at h
  obtain ⟨_, -, h⟩ := ok_of_bind h
  obtain ⟨_, -, h⟩ := ok_of_bind h
  dsimp only at h
  split at h
  · cases h
  obtain ⟨port, -, h⟩ := ok_of_bind h
  rw [← Except.ok.inj h]
  rfl

/-! ## Reading a file -/

namespace Machine

variable {m m' : Machine} {path : String} {content : Bytes}

/-- What is done with a file that was found. -/
theorem exec_contentOf {place : Place} {executable : Bool}
    (h : m.files.nodeAt m.here true path = .ok (place, .file content executable)) :
    (contentOf path).exec m =
      (if m.files.unreadable.contains place then .error (.system .accessDenied path)
        else .ok content, m) := by
  have hnode : (nodeAt path).exec m = (.ok (place, .file content executable), m) :=
    Prod.ext h rfl
  rw [contentOf, exec_bind_ok hnode]
  dsimp only
  rw [exec_bind_ok (exec_get m)]
  by_cases hread : m.files.unreadable.contains place = true
  · rw [if_pos hread, if_pos hread]
    rfl
  · rw [if_neg hread, if_neg hread]
    rfl

/-- A file that was read is there and may be read. -/
theorem node_of_contentOf (h : (contentOf path).exec m = (.ok content, m')) :
    ∃ place executable,
      m.files.nodeAt m.here true path = .ok (place, .file content executable) ∧
      ¬m.files.unreadable.contains place = true := by
  obtain ⟨⟨place, node⟩, m₁, hnode, hrest⟩ := ok_of_exec_bind h
  have hlook : m.files.nodeAt m.here true path = .ok (place, node) := congrArg Prod.fst hnode
  cases node with
  | directory => cases hrest
  | link target => cases hrest
  | file found executable =>
    rw [exec_contentOf hlook] at h
    split at h
    · cases h
    · rename_i hread
      cases h
      exact ⟨place, executable, hlook, hread⟩

/-- The path that a text without a host stands for, if it can be read. -/
def localPath (m : Machine) (raw : String) : String :=
  Path.absolute m.cwd ((Path.expandHome m.home m.users raw).toOption.getD raw)

theorem startsWith_localPath (hcwd : Text.startsWith m.cwd "/" = true) (raw : String) :
    Text.startsWith (m.localPath raw) "/" = true := by
  rw [localPath]
  exact Path.startsWith_absolute hcwd _

/-- A path that was made absolute was seen from the working directory, or did
not need one. -/
theorem eq_absolute_of_seenFrom {s : String} (h : Path.seenFrom m.cwd? s = .ok path) :
    path = Path.absolute m.cwd s := by
  rw [cwd?] at h
  split at h
  · rw [Path.seenFrom] at h
    split at h
    · rename_i hrooted
      rw [Path.absolute, Path.join, if_pos hrooted]
      exact (Except.ok.inj h).symm
    · cases h
  · exact (Except.ok.inj h).symm

theorem exec_readLocation (raw : String) (m : Machine) :
    (readLocation raw).exec m = (Location.read m.cwd? m.home m.users raw, m) := rfl

/-- **A text without a host is read as its local path**, if it is read. -/
theorem eq_of_readLocation {raw : String} {l : Location} (hlocal : Location.cutScheme? raw = none)
    (h : (readLocation raw).exec m = (.ok l, m')) : l = { path := m.localPath raw } ∧ m' = m := by
  rw [exec_readLocation, Location.read, hlocal] at h
  obtain ⟨hread, rfl⟩ := Prod.mk.inj h
  obtain ⟨expanded, hexpand, hread⟩ := ok_of_bind hread
  obtain ⟨path, hpath, hread⟩ := ok_of_bind hread
  rw [localPath, hexpand]
  cases hread
  exact ⟨congrArg Location.mk (eq_absolute_of_seenFrom hpath) ▸ rfl, rfl⟩

/-- A text that is read as a local location has no scheme. -/
theorem cutScheme?_of_local {m : Machine} {raw : String} {l : Location}
    (h : ((readLocation raw).exec m).1 = .ok l) (hlocal : l.isRemote = false) :
    Location.cutScheme? raw = none := by
  rcases hcut : Location.cutScheme? raw with _ | ⟨scheme, rest⟩
  · rfl
  · rw [exec_readLocation, Location.read, hcut] at h
    rw [Location.isRemote_of_readRemote h] at hlocal
    cases hlocal

/-- A machine finds a path where one of the same standpoint does. -/
theorem here_of_standpoint (h : m'.standpoint = m.standpoint) : m'.here = m.here := by
  have hcwd : m'.cwd = m.cwd := congrArg Standpoint.cwd h
  rw [here, here, hcwd]

theorem localPath_of_standpoint (h : m'.standpoint = m.standpoint) (raw : String) :
    m'.localPath raw = m.localPath raw := by
  simp only [standpoint, Standpoint.mk.injEq] at h
  obtain ⟨hcwd, -, henv, haccount, husers⟩ := h
  rw [localPath, localPath, home, home, setting?, setting?, hcwd, henv, haccount, husers]

end Machine

/-! ## Opening and probing -/

namespace Buffer

/-- A local file is read along the path of its location. -/
theorem readOriginal_local (path : String) :
    readOriginal { path } = Machine.contentOf (Path.ofString path).text := rfl

/-- A buffer that holds a local file has read it along its path. -/
theorem content_of_openAt {m m' : Machine} {raw : String} {b : Buffer}
    (hlocal : Location.cutScheme? raw = none) (h : (openAt raw).exec m = (.ok b, m')) :
    (Machine.contentOf (Path.ofString (m.localPath raw)).text).exec m = (.ok b.content, m') := by
  rw [openAt] at h
  obtain ⟨l, m₀, hlocation, h⟩ := ok_of_exec_bind h
  obtain ⟨rfl, rfl⟩ := Machine.eq_of_readLocation hlocal hlocation
  obtain ⟨content, m₁, hread, h⟩ := ok_of_exec_bind h
  rw [exec_pure, Prod.mk.injEq, Except.ok.injEq] at h
  rw [readOriginal_local] at hread
  rw [hread, ← h.1, h.2]

end Buffer

namespace Host

/-- An entry of this machine is at a canonical place, and what stands there
was taken down. -/
theorem canonical_of_resolve {l : Location} {m m' : Machine} {e : Entry}
    (h : (resolve .here l).exec m = (.ok (some e), m')) :
    ∃ place found node, m.files.canonical m.here (Path.ofString l.path).text = .ok place ∧
      m.files.nodeAt m.here true place.text = .ok (found, node) ∧ e.path = place.text ∧
      (e.isDirectory = false →
        ∃ content executable, node = .file content executable ∧ e.size = content.length) := by
  rw [resolve, exec_recover, exec_map] at h
  rcases hhere : (resolveHere l.path).exec m with ⟨f | entry, m₁⟩
  · rw [hhere] at h
    dsimp only [Except.map] at h
    split at h
    · cases h
    · cases h
  · rw [hhere] at h
    cases h
    rw [resolveHere, exec_bind_ok (exec_get m)] at hhere
    obtain ⟨place, m₂, hplace, hhere⟩ := ok_of_exec_bind hhere
    rw [exec_ofExcept, Prod.mk.injEq] at hplace
    obtain ⟨hplace, rfl⟩ := hplace
    obtain ⟨⟨found, node⟩, m₃, hnode, hhere⟩ := ok_of_exec_bind hhere
    refine ⟨place, found, node, hplace, congrArg Prod.fst hnode, ?_⟩
    rw [exec_pure, Prod.mk.injEq, Except.ok.injEq] at hhere
    rw [← hhere.1]
    cases node with
    | directory => exact ⟨rfl, fun hfile => by cases hfile⟩
    | file content executable => exact ⟨rfl, fun _ => ⟨content, executable, rfl, rfl⟩⟩
    | link target => exact ⟨rfl, fun hfile => by cases hfile⟩

end Host

namespace Probe

variable {c : Config} {h : Host} {identity : Identity}

/-- A file that is turned down is not accepted. -/
theorem rejected_reject {reason : Reason} (hreason : reason ≠ .ok) (found : Option Identity)
    (detail : String) : (reject reason found detail).Yields (·.accepted? = none) := by
  refine Yields.bind fun _ => Yields.pure ?_
  rw [Verdict.accepted?, Verdict.accepted, if_neg (by simpa using hreason)]

/-- A verdict accepts nothing but the file in question. -/
def About (identity : Identity) (v : Verdict) : Prop :=
  ∀ i, v.accepted? = some i → i = identity

theorem about_reject {reason : Reason} (hreason : reason ≠ .ok) (found : Option Identity)
    (detail : String) : (reject reason found detail).Yields (About identity) := by
  intro m v m' hv i hi
  rw [rejected_reject hreason found detail m v m' hv] at hi
  cases hi

theorem about_queryHeaders : (queryHeaders c h identity).Yields (About identity) := by
  refine Yields.bind fun backend => Yields.bind fun prepared => Yields.bind fun r => ?_
  rcases r with f | ⟨status, output, errors⟩
  · exact Yields.ite (about_reject (by decide) _ _) (Yields.throw _)
  · refine Yields.ite (about_reject (by decide) _ _) ?_
    refine Yields.bind fun _ => Yields.pure fun i hi => ?_
    exact (Option.some.inj hi).symm

theorem about_sniffRemote : (sniffRemote c h identity).Yields (About identity) := by
  refine Yields.bind fun r => ?_
  rcases r with f | start
  · exact Yields.ite (about_reject (by decide) _ _) (Yields.throw _)
  · exact Yields.bind fun found => Yields.ite about_queryHeaders (about_reject (by decide) _ _)

theorem about_checkEntry : (checkEntry c h identity).Yields (About identity) := by
  refine Yields.bind fun found => ?_
  refine Yields.ite (about_reject (by decide) _ _) ?_
  refine Yields.ite (about_reject (by decide) _ _) ?_
  refine Yields.ite (about_reject (by decide) _ _) ?_
  refine Yields.ite (about_reject (by decide) _ _) ?_
  exact Yields.ite about_sniffRemote about_queryHeaders

/-- A local file that the probe accepts was found and checked. -/
theorem entry_of_accepted {m m' : Machine} {raw : String} {verdict : Verdict}
    {original : Identity} (hlocal : Location.cutScheme? raw = none)
    (hprobe : (probe c raw).exec m = (.ok verdict, m'))
    (haccepted : verdict.accepted? = some original) :
    ∃ e m₁, (Host.resolve .here { path := m.localPath raw }).exec m = (.ok (some e), m₁) ∧
      original =
        { location := { path := e.path }, size := e.size, isDirectory := e.isDirectory } ∧
      (checkEntry c .here original).exec m₁ = (.ok verdict, m') := by
  rw [probe, exec_bind_ok (exec_attempt _ m)] at hprobe
  rcases hread : (Machine.readLocation raw).exec m with ⟨f | l, m₀⟩
  · rw [hread] at hprobe
    dsimp only at hprobe
    split at hprobe
    · rw [rejected_reject (by decide) none _ m₀ verdict m' hprobe] at haccepted
      cases haccepted
    · cases hprobe
  obtain ⟨rfl, rfl⟩ := Machine.eq_of_readLocation hlocal hread
  rw [hread] at hprobe
  obtain ⟨entry, m₁, hresolve, hcheck⟩ := ok_of_exec_bind hprobe
  cases entry with
  | none =>
    change (reject .notFound none _).exec m₁ = _ at hcheck
    rw [rejected_reject (by decide) none _ m₁ verdict m' hcheck] at haccepted
    cases haccepted
  | some e =>
    have horiginal : original =
        { location := { path := e.path }, size := e.size, isDirectory := e.isDirectory } :=
      about_checkEntry _ _ _ hcheck original haccepted
    rw [horiginal]
    exact ⟨e, m₁, hresolve, rfl, hcheck⟩

/-- **A local file that the probe accepts is known by its canonical
path.** -/
theorem canonical_of_accepted {m m' : Machine} {raw : String} {verdict : Verdict}
    {original : Identity} (hlocal : Location.cutScheme? raw = none)
    (hprobe : (probe c raw).exec m = (.ok verdict, m'))
    (haccepted : verdict.accepted? = some original) :
    ∃ place found node,
      m.files.canonical m.here (Path.ofString (m.localPath raw)).text = .ok place ∧
      m.files.nodeAt m.here true place.text = .ok (found, node) ∧
      original.location = { path := place.text } := by
  obtain ⟨e, m₁, hresolve, horiginal, -⟩ := entry_of_accepted hlocal hprobe haccepted
  obtain ⟨place, found, node, hplace, hnode, hpath, -⟩ := Host.canonical_of_resolve hresolve
  dsimp only at hplace
  refine ⟨place, found, node, hplace, hnode, ?_⟩
  rw [horiginal, hpath]

end Probe

/-! ## Reading a probed file again -/

/-- What the probe remembers of a file stands for some bytes: it is the
canonical path of the file, along which these bytes are read for as long
as file tree and standpoint are those of a machine. -/
def StandsFor (m : Machine) (raw : String) (content : Bytes) (original : Identity) : Prop :=
  ∃ place : Place,
    m.files.canonical m.here (Path.ofString (m.localPath raw)).text = .ok place ∧
    original.location = { path := place.text } ∧
    ∀ later : Machine, later.files = m.files → later.standpoint = m.standpoint →
      ((Buffer.readOriginal original.location).exec later).1 = .ok content

/-- **A file that was opened is read again along the path the probe
remembers**, whatever links led to it. -/
theorem standsFor_of_accepted {c : Config} {m m' n n' : Machine} {raw : String} {b : Buffer}
    {verdict : Verdict} {original : Identity} (hcwd : Text.startsWith m.cwd "/" = true)
    (hlocal : Location.cutScheme? raw = none) (hopen : (Buffer.openAt raw).exec m = (.ok b, m'))
    (hfiles : n.files = m.files) (hstandpoint : n.standpoint = m.standpoint)
    (hprobe : (Probe.probe c raw).exec n = (.ok verdict, n'))
    (haccepted : verdict.accepted? = some original) : StandsFor m raw b.content original := by
  obtain ⟨opened, executable, hopened, hreadable⟩ :=
    Machine.node_of_contentOf (Buffer.content_of_openAt hlocal hopen)
  obtain ⟨place, found, node, hplace, hnode, hlocation⟩ :=
    Probe.canonical_of_accepted hlocal hprobe haccepted
  rw [hfiles, Machine.here_of_standpoint hstandpoint] at hplace hnode
  rw [Machine.localPath_of_standpoint hstandpoint] at hplace
  have hroot := Path.startsWith_ofString (Machine.startsWith_localPath hcwd raw)
  -- The place that was opened and the one that the probe looked at are the same.
  obtain ⟨rfl, rfl, htext⟩ := FileTree.nodeAt_canonical hroot hopened hplace hnode
  refine ⟨place, hplace, hlocation, fun later hlater hsame => ?_⟩
  have hagain : later.files.nodeAt later.here true place.text =
      .ok (found, .file b.content executable) := by
    rw [hlater, Machine.here_of_standpoint hsame]
    exact hnode
  rw [hlocation, Buffer.readOriginal_local, htext, Machine.exec_contentOf hagain, hlater]
  exact if_neg hreadable

end Disasm
