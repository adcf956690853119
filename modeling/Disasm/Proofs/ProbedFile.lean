import Disasm.Proofs.Checks
import Disasm.Proofs.SettledPlace
/-!
# The probed file — the one that is disassembled

A probe and a run of the backend name a file in the same way: by the
directory that the child is started in and a name without a slash. Both
are cut off the path that the probe took down (`Pinpoints`), and the
system finds the file along them that it found when it was probed. One
command is run by the probe, and one by a listing, however that ends
(`ran_disassemble`).
-/

namespace Disasm

open Act

/-! ## What is run -/

namespace Machine

variable {α β : Type} {words : List String} {directory : String} {m m' : Machine}

/-- Between two machines one command was run, in a directory. -/
def Ran (words : List String) (directory : String) (before after : Machine) : Prop :=
  ∃ call, after.calls = before.calls ++ [call] ∧ call.command = words ∧ call.cwd = some directory

theorem preserves_ran {x : Act Machine α} (hx : x.Keeps calls) :
    x.Preserves (Ran words directory m) :=
  hx.preserves fun made =>
    ∃ call : Call, made = m.calls ++ [call] ∧ call.command = words ∧ call.cwd = some directory

/-- What runs nothing and returns can come first. -/
theorem Ran.after {x : Act Machine α} {f : α → Act Machine β} (hx : x.Keeps calls)
    (htotal : x.Total) (hf : ∀ a m, Ran words directory m ((f a).exec m).2) :
    Ran words directory m ((x >>= f).exec m).2 := by
  obtain ⟨a, ha⟩ := htotal m
  have hend : x.exec m = (.ok a, (x.exec m).2) := Prod.ext ha rfl
  rw [exec_bind_ok hend]
  obtain ⟨call, hcalls, hcall⟩ := hf a (x.exec m).2
  exact ⟨call, by rw [hcalls, hx.eq hend], hcall⟩

theorem Ran.ofExcept {r : Except Failure α} {a : α} {f : α → Act Machine β} (hr : r = .ok a)
    (hf : Ran words directory m ((f a).exec m).2) :
    Ran words directory m ((Act.ofExcept r >>= f).exec m).2 := by
  rw [hr, exec_bind_ok (exec_ofExcept _ m)]
  exact hf

/-- A command that is run, and what runs nothing after it. -/
theorem ran_runText {f : Except Failure (Int × String × String) → Act Machine β}
    {command : Command} (hwords : command.texts = words) (hcwd : command.cwd = some directory)
    (hf : ∀ r, (f r).Keeps calls) (m : Machine) :
    Ran words directory m (((runText command).attempt >>= f).exec m).2 := by
  refine Preserves.after ⟨_, calls_runText command m, hwords, hcwd⟩ fun r => ?_
  exact preserves_ran (hf r)

theorem keeps_calls_log (level : Int) (component message : String) :
    (log level component message).Keeps calls :=
  (keeps_unlogged level component message).through calls

end Machine

namespace Disassembler

open Machine

theorem keeps_calls_tell (progress : Bool) (message : String) :
    (tell progress message).Keeps calls :=
  fun _ => Preserves.ite (fun _ hm => hm) (Preserves.pure _)

theorem total_tell (progress : Bool) (message : String) : (tell progress message).Total :=
  Total.ite (Total.modify _) (Total.pure _)

theorem keeps_calls_fail (fault : BackendFault) (command : List String) (message : String) :
    (fail fault command message).Keeps calls :=
  fun v => (keeps_calls_log _ _ _ v).bind fun _ => Preserves.throw _

/-- **A local file is disassembled by one command**, in its directory, however
that ends. -/
theorem ran_disassemble {c : Config} {i : Identity} {backend : String}
    (hbackend : c.backend = .str backend) (hlocal : i.location.isRemote = false)
    (timeout : Option Number) (progress : Bool) (m : Machine) :
    Ran (backend :: c.arguments.map Script.shown ++ ["-d", "--", i.location.name])
      i.location.directory m ((disassemble c i timeout progress).exec m).2 := by
  have hhost : Host.of i.location c.ssh = .here := by
    rw [Host.of, hlocal]
    rfl
  have hwords : (arguments c backend i).map Script.shown =
      backend :: c.arguments.map Script.shown ++ ["-d", "--", i.location.name] := by
    simp [arguments, Script.shown]
  rw [disassemble, hhost, hbackend, hlocal]
  refine Ran.after (keeps_calls_tell _ _) (total_tell _ _) fun _ m => ?_
  refine Ran.ofExcept (a := (backend : Script)) rfl ?_
  refine Ran.ofExcept rfl ?_
  refine Ran.after (keeps_calls_log _ _ _) (total_log _ _ _) fun _ m => ?_
  refine ran_runText ?_ rfl (fun r v => ?_) m
  · exact hwords
  split
  · exact keeps_calls_fail _ _ _ v
  · exact Preserves.ite (Preserves.throw _) (keeps_calls_fail _ _ _ v)
  · refine Preserves.ite (keeps_calls_fail _ _ _ v) ?_
    exact (keeps_calls_tell _ _ v).bind fun _ => Preserves.pure _

end Disassembler

namespace Probe

open Machine

variable {c : Config} {i : Identity} {backend : String}

theorem keeps_calls_reject (reason : Reason) (found : Option Identity) (detail : String) :
    (reject reason found detail).Keeps calls :=
  fun v => (keeps_calls_log _ _ _ v).bind fun _ => Preserves.pure _

theorem ran_queryHeaders (hbackend : c.backend = .str backend) (m : Machine) :
    Ran [backend, "--file-headers", "--", i.location.name] i.location.directory m
      ((queryHeaders c .here i).exec m).2 := by
  rw [queryHeaders, hbackend]
  refine Ran.ofExcept (a := (backend : Script)) rfl ?_
  refine Ran.ofExcept rfl ?_
  refine ran_runText rfl rfl (fun r v => ?_) m
  rcases r with f | ⟨status, output, errors⟩
  · exact Preserves.ite (keeps_calls_reject _ _ _ v) (Preserves.throw _)
  · refine Preserves.ite (keeps_calls_reject _ _ _ v) ?_
    exact (keeps_calls_log _ _ _ v).bind fun _ => Preserves.pure _

/-- Only a text of characters is the name of a program of this machine. -/
theorem Host.name_of_which_here {program : Json} {found : Option String} {m m' : Machine}
    (h : (Host.which .here program).exec m = (.ok found, m')) (hfound : found.isSome = true) :
    ∃ name, program = .str name := by
  cases program with
  | str s => exact ⟨s, rfl⟩
  | _ =>
    cases h
    all_goals cases hfound

/-- A local file that is accepted is no directory and is not empty, and the
backend was asked for its headers. -/
theorem checked_of_accepted {m m' : Machine} {v : Verdict} {found : Identity}
    (hlocal : i.location.isRemote = false)
    (h : (checkEntry c .here i).exec m = (.ok v, m')) (haccepted : v.accepted? = some found) :
    i.isDirectory = false ∧ i.size ≠ 0 ∧ ∃ backend, c.backend = .str backend ∧
      Ran [backend, "--file-headers", "--", i.location.name] i.location.directory m m' := by
  have hturned : ∀ {reason : Reason} {detail : String} {m₁ : Machine}, reason ≠ .ok →
      (reject reason i detail).exec m₁ ≠ (.ok v, m') := by
    intro reason detail m₁ hreason hreject
    rw [rejected_reject hreason _ _ m₁ v m' hreject] at haccepted
    cases haccepted
  obtain ⟨program, m₁, hwhich, h⟩ := ok_of_exec_bind h
  have hhere : backendHost c .here i = .here := by
    rw [backendHost]
    split
    · rfl
    · rfl
  rw [hhere] at hwhich
  have hquiet : m₁.calls = m.calls := (Host.keeps_which_here _).eq hwhich
  split at h
  · exact absurd h (hturned (by decide))
  rename_i hthere
  obtain ⟨backend, hbackend⟩ := Host.name_of_which_here hwhich
    (by simpa [Option.isSome_iff_ne_none] using hthere)
  split at h
  · exact absurd h (hturned (by decide))
  split at h
  · exact absurd h (hturned (by decide))
  split at h
  · exact absurd h (hturned (by decide))
  rename_i hfile hfull
  rw [hlocal, if_neg (by decide)] at h
  refine ⟨Bool.eq_false_iff.2 hfile, hfull, backend, hbackend, ?_⟩
  obtain ⟨call, hcalls, hcall⟩ := ran_queryHeaders (i := i) hbackend m₁
  rw [h, hquiet] at hcalls
  exact ⟨call, hcalls, hcall⟩

/-- A directory and a name pinpoint a file that was probed: together they are
its path, and the system finds a file of its size under the name in the
directory. -/
structure Pinpoints (m : Machine) (i : Identity) (directory name : String) (place : Place) :
    Prop where
  isName : IsName name
  path : Path.join directory name = i.location.path
  directory : m.files.nodeAt m.here true directory = .ok (place.dropLast, .directory)
  file : ∃ content executable,
    m.files.nodeAt place.dropLast true name = .ok (place, .file content executable) ∧
      i.size = content.length
  full : i.size ≠ 0

/-- The path of a file at a settled place is cut into its directory and its
name. -/
theorem pinpoints_of_settled {m : Machine} {place found : Place} {content : Bytes}
    {executable : Bool} (hplace : m.files.Settled place)
    (hnode : m.files.nodeAt m.here true place.text = .ok (found, .file content executable))
    (hpath : i.location.path = place.text) (hsize : i.size = content.length)
    (hfull : i.size ≠ 0) :
    Pinpoints m i i.location.directory i.location.name place := by
  obtain ⟨parent, name, rfl, hparent, hname, hfile⟩ := hplace.file_of_nodeAt hnode
  obtain ⟨hdirectory, hbelow⟩ := FileTree.nodeAt_of_concat hparent hname hfile hnode m.here
  have hread : Path.ofString i.location.path = ⟨.single, parent ++ [name]⟩ := by
    rw [hpath]
    exact Place.ofString_eq (hparent.plain_concat hname) (List.append_ne_nil_of_right_ne_nil _
      (List.cons_ne_nil _ _))
  have hlast : i.location.name = name := by
    rw [Location.name, hread, Path.name, List.getLast?_concat]
    rfl
  have habove : i.location.directory = parent.text := by
    rw [Location.directory, hread, Path.parent, List.dropLast_concat, Place.text_single]
  rw [hlast, habove]
  refine ⟨hname.isName, ?_, ?_, ⟨content, executable, ?_, hsize⟩, hfull⟩
  · rw [hpath]
    exact Place.join_text (fun step hstep => (hparent.plain step hstep).isName) hname.isName
  · rw [List.dropLast_concat]
    exact hdirectory
  · rw [List.dropLast_concat]
    exact hbelow

end Probe

namespace Machine

variable {m : Machine} {raw : String} {place found : Place} {content : Bytes}
  {executable : Bool} {node : Node}

/-- The file that a path of the user stands for is where the names of the path
lead from the root. -/
theorem place_of_leads (hcwd : Text.startsWith m.cwd "/" = true)
    (hplace : m.files.canonical m.here (Path.ofString (m.localPath raw)).text = .ok place)
    (hfile : m.files.node? place = some (.file content executable))
    (hleads : m.files.Leads [] (pathNames (m.localPath raw)) found node) : found = place := by
  rw [FileTree.canonical, FileTree.startOf,
    if_pos (Path.startsWith_ofString (startsWith_localPath hcwd raw)),
    pathNames_ofString_localPath hcwd] at hplace
  exact FileTree.place_of_leads (fun _ => isName_of_mem_pathNames) hplace hfile hleads

theorem leads_localPath (hcwd : Text.startsWith m.cwd "/" = true)
    (hfound : m.files.nodeAt m.here true (m.localPath raw) = .ok (found, node)) :
    m.files.Leads [] (pathNames (m.localPath raw)) found node := by
  have hwalk := FileTree.walk_of_nodeAt hfound
  rw [FileTree.startOf, if_pos (startsWith_localPath hcwd raw)] at hwalk
  exact FileTree.leads_of_walk hwalk

/-- Without a tilde, the names lead where the path itself does, if its double
dots stand behind no link. -/
theorem leads_plain (hcwd : Text.startsWith m.cwd "/" = true)
    (htilde : Text.startsWith raw "~" = false)
    (hstart : m.files.Directory (FileTree.startOf m.here raw))
    (hretraces : m.files.Retraces (FileTree.startOf m.here raw) (pathNames raw))
    (hfound : m.files.nodeAt m.here true raw = .ok (found, node)) :
    m.files.Leads [] (pathNames (m.localPath raw)) found node := by
  have hleads := FileTree.leads_of_walk (FileTree.walk_of_nodeAt hfound)
  rw [pathNames_localPath hcwd htilde]
  exact hleads.along hstart (fun _ => isName_of_mem_pathNames) hretraces

end Machine

namespace Probe

open Machine

/-- **The file that was probed is the file that is disassembled.** Both
commands name it by the same directory and the same name. It is the one
that the path of the user stands for, and the one that the system finds
along that path itself, if no tilde is expanded and no double dots stand
behind a link. -/
theorem probed_file_disassembled {c : Config} {m m' : Machine} {raw : String} {v : Verdict}
    {i : Identity} (hcwd : Text.startsWith m.cwd "/" = true)
    (hlocal : Location.cutScheme? raw = none) (hprobe : (probe c raw).exec m = (.ok v, m'))
    (haccepted : v.accepted? = some i) :
    ∃ backend directory name place, c.backend = .str backend ∧
      Ran [backend, "--file-headers", "--", name] directory m m' ∧
      (∀ n timeout progress,
        Ran ([backend] ++ c.arguments.map Script.shown ++ ["-d", "--", name]) directory n
          ((Disassembler.disassemble c i timeout progress).exec n).2) ∧
      Pinpoints m i directory name place ∧
      (∀ found node, m.files.nodeAt m.here true (m.localPath raw) = .ok (found, node) →
        found = place) ∧
      (Text.startsWith raw "~" = false → m.files.Directory (FileTree.startOf m.here raw) →
        m.files.Retraces (FileTree.startOf m.here raw) (pathNames raw) →
        ∀ found node, m.files.nodeAt m.here true raw = .ok (found, node) → found = place) := by
  obtain ⟨e, m₁, hresolve, rfl, hcheck⟩ := entry_of_accepted hlocal hprobe haccepted
  obtain ⟨place, found, node, hplace, hnode, hpath, hentry⟩ := Host.canonical_of_resolve hresolve
  obtain ⟨hdirectory, hfull, backend, hbackend, call, hcalls, hcall⟩ :=
    checked_of_accepted rfl hcheck haccepted
  obtain ⟨content, executable, rfl, hsize⟩ := hentry hdirectory
  dsimp only at hplace
  have hquiet : (Host.resolve .here { path := m.localPath raw }).Keeps calls :=
    Host.keeps_resolve_here _
  have hroot := Path.startsWith_ofString (startsWith_localPath hcwd raw)
  have hsettled := FileTree.settled_of_canonical hroot hplace
  obtain ⟨-, -, -, -, -, hfile⟩ := hsettled.file_of_nodeAt hnode
  refine ⟨backend, _, _, place, hbackend, ⟨call, ?_, hcall⟩,
    fun n timeout progress => Disassembler.ran_disassemble hbackend rfl timeout progress n,
    ?_, ?_, ?_⟩
  · rw [hcalls, hquiet.eq hresolve]
  · exact pinpoints_of_settled hsettled hnode hpath hsize hfull
  · intro found node hfound
    exact place_of_leads hcwd hplace hfile (leads_localPath hcwd hfound)
  · intro htilde hstart hretraces found node hfound
    exact place_of_leads hcwd hplace hfile (leads_plain hcwd htilde hstart hretraces hfound)

/-- A machine with files behind a link, beside it and below a directory that is
named like the home of a user. -/
def linked : Machine where
  cwd := "/"
  env := [("HOME", "/d"), ("PATH", "/")]
  files := { nodes := [(["objdump"], .file [] true), (["d"], .directory),
    (["d", "e"], .directory), (["d", "e", "..f"], .file [0] false), (["d", "x"], .file [1] false),
    (["l"], .link "d/e"), (["x"], .file [2] false), (["~"], .directory),
    (["~", "x"], .file [3] false)] }
  rules := [{ stdout := Text.Utf8.encode "file format elf64" }]

theorem accepted_of_eq {c : Config} {m : Machine} {raw : String} {i : Identity}
    (h : ((probe c raw).exec m).1.toOption.bind (·.accepted?) = some i) :
    ∃ v m', (probe c raw).exec m = (.ok v, m') ∧ v.accepted? = some i := by
  rcases hprobe : (probe c raw).exec m with ⟨f | v, m'⟩
  · rw [hprobe] at h
    cases h
  · rw [hprobe] at h
    exact ⟨v, m', rfl, h⟩

theorem retraces_linked : linked.files.Retraces [] [".", "d", "..", "l", "..f"] := by
  have hname : IsPlain "d" := ⟨⟨by decide, by decide⟩, by decide, by decide⟩
  have hd : linked.files.Directory ([] ++ ["d"]) := (FileTree.directory_root _).concat hname rfl
  refine .cons (fun h => absurd h (by decide)) (Place.along_dot []) ?_
  refine .cons (fun h => absurd h (by decide)) (Place.along_plain hname []) ?_
  refine .cons (fun _ => hd) (Place.along_dots (by decide)) ?_
  exact FileTree.retraces_of_plain (by decide)

/-- A name that begins with dots, behind a link, and double dots before both. -/
theorem probed_file_disassembled_linked :
    ∃ v m' i backend directory name, (probe {} "./d/../l//..f").exec linked = (.ok v, m') ∧
      v.accepted? = some i ∧ Ran [backend, "--file-headers", "--", name] directory linked m' ∧
      (∀ n timeout progress, Ran [backend, "-d", "--", name] directory n
        ((Disassembler.disassemble {} i timeout progress).exec n).2) ∧
      Pinpoints linked i directory name ["d", "e", "..f"] := by
  have haccepts : ((probe {} "./d/../l//..f").exec linked).1.toOption.bind (·.accepted?) =
      some { location := { path := "/d/e/..f" }, size := 1 } := by
    decide +kernel
  have hfound : linked.files.nodeAt linked.here true "./d/../l//..f" =
      .ok (["d", "e", "..f"], .file [0] false) := rfl
  have hnames : pathNames "./d/../l//..f" = [".", "d", "..", "l", "..f"] := rfl
  obtain ⟨v, m', hprobe, haccepted⟩ := accepted_of_eq haccepts
  obtain ⟨backend, directory, name, place, -, hheaders, hlisting, hpinpoints, -, hplain⟩ :=
    probed_file_disassembled (by decide) (by decide +kernel) hprobe haccepted
  rw [hnames] at hplain
  cases hplain (by decide) (FileTree.directory_root _) retraces_linked _ _ hfound
  exact ⟨v, m', _, backend, directory, name, hprobe, haccepted, hheaders, hlisting, hpinpoints⟩

/-- The backend is run over one file, and along the path the system finds
another. -/
def Strays (m : Machine) (raw : String) : Prop :=
  ∃ v m' i words directory name parent place node found other,
    (probe {} raw).exec m = (.ok v, m') ∧ v.accepted? = some i ∧
    Ran (words ++ ["--", name]) directory m m' ∧
    m.files.nodeAt m.here true directory = .ok (parent, .directory) ∧
    m.files.nodeAt parent true name = .ok (place, node) ∧
    m.files.nodeAt m.here true raw = .ok (found, other) ∧ found ≠ place

theorem strays_of_eq {m : Machine} {raw directory name : String} {words : List String}
    {i : Identity} {parent place found : Place} {node other : Node} (hbefore : m.calls = [])
    (haccepts : ((probe {} raw).exec m).1.toOption.bind (·.accepted?) = some i)
    (hcalls : ((probe {} raw).exec m).2.calls.map (fun call => (call.command, call.cwd)) =
      [(words ++ ["--", name], some directory)])
    (hparent : m.files.nodeAt m.here true directory = .ok (parent, .directory))
    (hplace : m.files.nodeAt parent true name = .ok (place, node))
    (hfound : m.files.nodeAt m.here true raw = .ok (found, other)) (hne : found ≠ place) :
    Strays m raw := by
  obtain ⟨v, m', hprobe, haccepted⟩ := accepted_of_eq haccepts
  rw [hprobe] at hcalls
  obtain ⟨call, hmade, hcall⟩ := List.map_eq_singleton_iff.1 hcalls
  have hran : m'.calls = m.calls ++ [call] := by
    rw [hbefore]
    exact hmade
  exact ⟨v, m', i, words, directory, name, parent, place, node, found, other, hprobe, haccepted,
    ⟨call, hran, Prod.mk.inj hcall⟩, hparent, hplace, hfound, hne⟩

/-- Double dots behind a link, and a tilde that is the name of a directory. -/
theorem path_strays_linked : Strays linked "l/../x" ∧ Strays linked "~/x" := by
  constructor
  · have hcalls : ((probe {} "l/../x").exec linked).2.calls.map
        (fun call => (call.command, call.cwd)) =
        [(["objdump", "--file-headers"] ++ ["--", "x"], some "/")] := by
      decide +kernel
    exact strays_of_eq (i := { location := { path := "/x" }, size := 1 }) rfl
      (by decide +kernel) hcalls rfl rfl rfl (by decide)
  · have hcalls : ((probe {} "~/x").exec linked).2.calls.map
        (fun call => (call.command, call.cwd)) =
        [(["objdump", "--file-headers"] ++ ["--", "x"], some "/d")] := by
      decide +kernel
    exact strays_of_eq (i := { location := { path := "/d/x" }, size := 1 }) rfl
      (by decide +kernel) hcalls rfl rfl rfl (by decide)

end Probe

end Disasm
