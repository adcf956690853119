import Disasm.Proofs.LocalFile
import Disasm.Proofs.RemoteCommand
import Disasm.Proofs.SettledCase
/-!
# Destinations — which words of a command ssh takes for options

The words of a command that begin with a dash, up to a double dash, are
options to ssh (`optionWords`). The destination stands in front of the
double dash, so it is one of them if it begins with a dash. Whether it
does is settled by the text of the location: `leading` is the character
of the authority that the destination begins with, up to letter case.
Only a bracketed host is sure not to begin with a dash, since it has to
be an address.
-/

namespace Disasm

open Act

/-! ## Addresses -/

namespace Address

/-- A character that no bracketed host begins with. -/
structure IsForeign (c : Char) : Prop where
  no_digit : (Text.Percent.nibble? c).isSome = false
  ne_colon : c ≠ ':'
  ne_percent : c ≠ '%'
  ne_version : c ≠ 'v'

theorem isForeign_dash : IsForeign '-' :=
  ⟨by decide, by decide, by decide, by decide⟩

variable {c : Char}

theorem IsForeign.isGroup (hc : IsForeign c) (cs : List Char) : isGroup (c :: cs) = false := by
  simp [Address.isGroup, hc.no_digit]

theorem IsForeign.areGroups (hc : IsForeign c) (cs : List Char) (rest : List (List Char)) :
    areGroups ((c :: cs) :: rest) = false := by
  rw [Address.areGroups]
  split
  · rfl
  split
  · simp [hc.isGroup]
  · -- A gap is never at the front, so the first group is among the high ones.
    rename_i gap hgaps
    have hmem : gap ∈ gaps ((c :: cs) :: rest) := by
      rw [hgaps]
      exact List.mem_singleton_self gap
    have hpos : 0 < gap := by
      have hinside := (List.mem_filter.1 hmem).2
      simp only [Bool.and_eq_true, decide_eq_true_eq] at hinside
      exact hinside.1.1
    obtain ⟨before, rfl⟩ := Nat.exists_eq_add_of_lt hpos
    simp [hc.isGroup]
  · rfl

theorem IsForeign.groups? (hc : IsForeign c) {cs : List Char} {parts : List (List Char)}
    (h : groups? (c :: cs) = some parts) : ∃ first rest, parts = (c :: first) :: rest := by
  obtain ⟨first, rest, hsplit⟩ : ∃ first rest,
      (c :: cs).splitOn ':' = (c :: first) :: rest := by
    rw [List.splitOn, List.splitOnP_cons_eq_if_modifyHead, if_neg (by simpa using hc.ne_colon)]
    rcases hcs : cs.splitOnP (· == ':') with _ | ⟨first, rest⟩
    · exact absurd hcs (List.splitOnP_ne_nil _ _)
    · exact ⟨first, rest, rfl⟩
  rw [Address.groups?, hsplit] at h
  split at h
  · cases h
  rename_i hlength
  rcases rest with _ | ⟨second, rest⟩
  · simp at hlength
  split at h
  · split at h
    · cases h
      exact ⟨first, _, rfl⟩
    · cases h
  · cases h
    exact ⟨first, _, rfl⟩

/-- No address begins with it. -/
theorem IsForeign.isSix (hc : IsForeign c) (cs : List Char) : isSix (c :: cs) = false := by
  have haddress : (Text.cutFirst '%' (c :: cs)).1 = c :: (Text.cutFirst '%' cs).1 := by
    simp [Text.cutFirst, hc.ne_percent]
  rw [Address.isSix]
  dsimp only
  rw [haddress]
  rcases hgroups : Address.groups? (c :: (Text.cutFirst '%' cs).1) with _ | parts
  · exact Bool.and_false _
  · obtain ⟨first, rest, rfl⟩ := hc.groups? hgroups
    dsimp only
    rw [hc.areGroups, Bool.and_false]

end Address

/-! ## The character a destination begins with -/

theorem Text.startsWith_dash (s : String) :
    Text.startsWith s "-" = true ↔ s.toList.head? = some '-' := by
  rw [Text.startsWith]
  rcases s.toList with _ | ⟨c, cs⟩
  · decide
  · have hfront : "-".toList.isPrefixOf (c :: cs) = ('-' == c) := Bool.and_true _
    rw [hfront, List.head?_cons, Option.some_inj, beq_iff_eq, eq_comm]

namespace Location

/-- What a remote text has between its scheme and its path. -/
def authority (raw : String) : List Char :=
  match cutScheme? raw with
  | some (_, rest) => (cutAuthority (dropBreaks rest)).1
  | none => []

/-- The character that the destination begins with: the first of the user's
name or, without one, of the host. -/
def leading (authority : List Char) : Option Char :=
  match cutUser authority with
  | (some info, hostport) =>
    if (Text.cutFirst ':' info).1.isEmpty then hostport.head? else info.head?
  | (none, hostport) => hostport.head?

variable {raw scheme : String} {rest host hostport part : List Char} {l : Location}

/-- What is cut off at a separator begins as the whole does. -/
theorem head?_cutFirst {sep c : Char} (hc : c ≠ sep) (cs : List Char) :
    (Text.cutFirst sep cs).1.head? = some c ↔ cs.head? = some c := by
  rw [Text.cutFirst, List.head?_takeWhile, Option.filter_eq_some_iff]
  simp [hc]

theorem head?_of_checkBracketed (h : checkBracketed host = .ok ()) {c : Char}
    (hc : Address.IsForeign c) : host.head? ≠ some c := by
  intro hhead
  obtain ⟨cs, rfl⟩ := List.head?_eq_some_iff.1 hhead
  rw [checkBracketed, if_neg (by simpa using hc.ne_version), hc.isSix] at h
  split at h
  · cases h
  · cases h

/-- The host and the port are a part of the authority. -/
theorem mem_of_mem_cutUser {c : Char} (h : c ∈ (cutUser part).2) : c ∈ part := by
  rw [cutUser, Text.cutLast?] at h
  split at h
  · rename_i info tail hcut
    split at hcut
    · cases hcut
      have htail := List.takeWhile_subset _ (List.mem_reverse.1 h)
      exact List.mem_reverse.1 htail
    · cases hcut
  · exact h

/-- **When brackets pass**: both or neither are there, and with them the host
is one that may stand in brackets. If it does, nothing is in front of them
and a port at most behind. -/
theorem checkBrackets_eq_ok_iff :
    checkBrackets part = .ok () ↔
      ('[' ∈ part ↔ ']' ∈ part) ∧
      ('[' ∈ part → checkBracketed (cutPort (cutUser part).2).1 = .ok ()) ∧
      ('[' ∈ (cutUser part).2 → (Text.cutFirst '[' (cutUser part).2).1 = [] ∧
        ((Text.cutFirst ']' (Text.cutFirst '[' (cutUser part).2).2).2 = [] ∨
          (Text.cutFirst ']' (Text.cutFirst '[' (cutUser part).2).2).2.head? = some ':')) := by
  have hwithin : '[' ∈ (cutUser part).2 → '[' ∈ part := mem_of_mem_cutUser
  unfold checkBrackets cutPort
  generalize (cutUser part).2 = hostport at hwithin ⊢
  simp only [← List.contains_iff_mem] at hwithin ⊢
  by_cases hpair : part.contains '[' = part.contains ']'
  · rw [if_neg (fun hne => hne hpair), ← hpair]
    by_cases hopens : part.contains '[' = true
    · rw [if_neg (by rw [hopens]; decide)]
      by_cases hhost : hostport.contains '[' = true
      · rw [if_pos hhost, if_pos hhost]
        generalize Text.cutFirst '[' hostport = opened
        generalize Text.cutFirst ']' opened.2 = closed
        have hbad : (!opened.1.isEmpty || !(closed.2.isEmpty || closed.2.head? = some ':')) = true ↔
            ¬(opened.1 = [] ∧ (closed.2 = [] ∨ closed.2.head? = some ':')) := by
          rw [← List.isEmpty_iff, ← List.isEmpty_iff]
          cases opened.1.isEmpty <;> cases closed.2.isEmpty <;> simp
        by_cases hshape : opened.1 = [] ∧ (closed.2 = [] ∨ closed.2.head? = some ':')
        · rw [if_neg (fun hb => hbad.1 hb hshape)]
          exact ⟨fun h => ⟨Iff.rfl, fun _ => h, fun _ => hshape⟩, fun h => h.2.1 hopens⟩
        · rw [if_pos (hbad.2 hshape)]
          exact iff_of_false nofun fun h => hshape (h.2.2 hhost)
      · rw [if_neg hhost, if_neg hhost]
        exact ⟨fun h => ⟨Iff.rfl, fun _ => h, fun h' => absurd h' hhost⟩, fun h => h.2.1 hopens⟩
    · rw [if_pos (by simpa using hopens)]
      exact iff_of_true rfl
        ⟨Iff.rfl, fun h => absurd h hopens, fun h => absurd (hwithin h) hopens⟩
  · rw [if_pos hpair]
    exact iff_of_false nofun fun h => hpair (Bool.eq_iff_iff.2 h.1)

/-- A host begins with a dash exactly if it does with its port. -/
theorem head?_cutPort (h : checkBrackets part = .ok ()) :
    (cutPort (cutUser part).2).1.head? = some '-' ↔ (cutUser part).2.head? = some '-' := by
  obtain ⟨-, hhost, hfront⟩ := checkBrackets_eq_ok_iff.1 h
  by_cases hopens : '[' ∈ (cutUser part).2
  · -- Both are false: one begins with a bracket, the other is an address.
    have haddress := hhost (mem_of_mem_cutUser hopens)
    refine iff_of_false (head?_of_checkBracketed haddress Address.isForeign_dash) fun hdash => ?_
    have hdash' := (head?_cutFirst (show '-' ≠ '[' by decide) _).2 hdash
    rw [(hfront hopens).1] at hdash'
    cases hdash'
  · rw [cutPort, if_neg (by simpa using hopens)]
    exact head?_cutFirst (by decide) _

theorem toList_lowerHost (host : List Char) :
    (lowerHost host).toList =
      Text.lowerFrom [] (host.takeWhile (· ≠ '%')) ++ host.dropWhile (· ≠ '%') := by
  rw [lowerHost, String.toList_append, String.toList_ofList, Text.lower, String.toList_ofList,
    String.toList_ofList]

theorem head?_lowerHost {d : Char} (hd : Text.IsMark d) (host : List Char) :
    (lowerHost host).toList.head? = some d ↔ host.head? = some d := by
  have hwhole : host.takeWhile (· ≠ '%') ++ host.dropWhile (· ≠ '%') = host :=
    List.takeWhile_append_dropWhile
  rw [toList_lowerHost]
  rcases hname : host.takeWhile (· ≠ '%') with _ | ⟨c, cs⟩
  · rw [hname] at hwhole
    rw [Text.lowerFrom, hwhole]
  · have hhost : host.head? = (c :: cs).head? := by
      rw [← hwhole, hname]
      rfl
    have hfront := hd.head?_lowerFrom [] (c :: cs)
    obtain ⟨e, es, hlower⟩ :=
      List.exists_cons_of_ne_nil (Text.lowerFrom_ne_nil [] (List.cons_ne_nil c cs))
    rw [hlower] at hfront ⊢
    rw [hhost]
    exact hfront

/-- The path that is read from what follows the authority. -/
def pathOf (behind : List Char) : String :=
  let path := Text.Percent.decode (String.ofList (urlPath behind))
  if path.isEmpty then "/" else path

/-- What a remote location is read from: an authority that passes its checks,
and what follows it. -/
structure ReadFrom (authority behind : List Char) (l : Location) : Prop where
  brackets : checkBrackets authority = .ok ()
  stable : checkStable authority = .ok ()
  named : (cutPort (cutUser authority).2).1 ≠ []
  port : readPort (cutPort (cutUser authority).2).2 = .ok l.port
  host : l.host = some (lowerHost (cutPort (cutUser authority).2).1)
  user : l.user = (cutUser authority).1.map fun cs => String.ofList (Text.cutFirst ':' cs).1
  path : l.path = pathOf behind

theorem readRemote_eq_ok_iff :
    readRemote raw scheme rest = .ok l ↔
      l.scheme = scheme ∧ ReadFrom (cutAuthority (dropBreaks rest)).1
        (cutAuthority (dropBreaks rest)).2 l := by
  unfold readRemote
  generalize cutAuthority (dropBreaks rest) = cut
  obtain ⟨authority, behind⟩ := cut
  dsimp only
  constructor
  · intro h
    obtain ⟨_, hbrackets, h⟩ := ok_of_bind h
    obtain ⟨_, hstable, h⟩ := ok_of_bind h
    split at h
    · cases h
    rename_i hnamed
    obtain ⟨port, hport, h⟩ := ok_of_bind h
    rw [← Except.ok.inj h]
    exact ⟨rfl, hbrackets, hstable, by simpa using hnamed, hport, rfl, rfl, by rw [pathOf]⟩
  · rintro ⟨rfl, h⟩
    have hnamed : ¬(cutPort (cutUser authority).2).1.isEmpty = true := by
      simpa using h.named
    rw [h.brackets, h.stable, if_neg hnamed, h.port]
    obtain ⟨path, host, user, port, scheme⟩ := l
    obtain rfl : path = pathOf behind := h.path
    obtain rfl : host = some (lowerHost (cutPort (cutUser authority).2).1) := h.host
    rw [← (show user = _ from h.user), pathOf]
    rfl

theorem parts_of_readRemote (h : readRemote raw scheme rest = .ok l) :
    let part := (cutAuthority (dropBreaks rest)).1
    checkBrackets part = .ok () ∧
    readPort (cutPort (cutUser part).2).2 = .ok l.port ∧
    l.host = some (lowerHost (cutPort (cutUser part).2).1) ∧
    l.user = (cutUser part).1.map fun cs => String.ofList (Text.cutFirst ':' cs).1 := by
  intro part
  obtain ⟨-, hread⟩ := readRemote_eq_ok_iff.1 h
  exact ⟨hread.brackets, hread.port, hread.host, hread.user⟩

theorem port_le {n : Int} (h : readPort part = .ok (some n)) : 0 ≤ n ∧ n ≤ 65535 := by
  rw [readPort] at h
  split at h
  · cases h
  split at h
  · cases h
  split at h
  · cases h
  split at h
  · cases h
  rename_i hrange
  cases h
  omega

/-- **A destination begins with a dash exactly if the authority has one at
the front of the user's name or, without one, of the host.** -/
theorem dash_of_readRemote (h : readRemote raw scheme rest = .ok l) :
    ∃ target, l.sshTarget = .ok target ∧
      (Text.startsWith target "-" = true ↔
        leading (cutAuthority (dropBreaks rest)).1 = some '-') := by
  obtain ⟨hbrackets, -, hhost, huser⟩ := parts_of_readRemote h
  have hmark : Text.IsMark '-' := by decide +kernel
  have hdash := (head?_lowerHost hmark _).trans (head?_cutPort hbrackets)
  refine ⟨_, by rw [sshTarget, hhost], ?_⟩
  rw [Text.startsWith_dash, huser, leading]
  rcases hcut : cutUser (cutAuthority (dropBreaks rest)).1 with ⟨_ | info, hostport⟩
  · rw [hcut] at hdash
    exact hdash
  · rw [hcut] at hdash
    have hname := head?_cutFirst (show '-' ≠ ':' by decide) info
    dsimp only [Option.map_some, destination]
    rcases hcs : (Text.cutFirst ':' info).1 with _ | ⟨c, cs⟩
    · exact hdash
    · rw [hcs] at hname
      rw [List.isEmpty_cons, if_neg Bool.false_ne_true, ← hname, if_neg (by simp)]
      simp

end Location

/-! ## The words that are options -/

namespace Host

open Location

/-- The words of a command that ssh takes for options, their values left
out: those that begin with a dash, up to a double dash. -/
def optionWords (command : List String) : List String :=
  (command.tail.takeWhile (· ≠ "--")).filter (Text.startsWith · "-")

/-- An operation starts a command. -/
def Starts {α : Type} (x : Act Machine α) (command : List String) : Prop :=
  ∃ (m : Machine) (started : List Call), (x.exec m).2.calls = m.calls ++ started ∧
    command ∈ started.map (·.command)

/-- The commands that the operations of a remote host are for: one that is
made ready, and those that are started. -/
inductive Builds (l : Location) (program : String) : List String → Prop
  | prepare (argv : List Script) (cwd : String) (env : Option (List (String × String)))
      {p : Prepared} : prepare (.remote l (.str program)) argv cwd env = .ok p →
      Builds l program p.words
  | resolve {other : Location} {command : List String} :
      Starts (resolve (.remote l (.str program)) other) command → Builds l program command
  | which {name : Script} {command : List String} :
      Starts (which (.remote l (.str program)) (.ofScript name)) command → Builds l program command
  | readStart {other : Location} {size : Int} {command : List String} :
      Starts (readStart (.remote l (.str program)) other size) command →
      Builds l program command
  | readBytes {other : Location} {command : List String} :
      Starts (readBytes (.remote l (.str program)) other) command → Builds l program command

variable {l : Location} {program : String} {command words : List String}

/-- What is started where one command is sent is that command. -/
theorem Starts.sends {α : Type} {x : Act Machine α} (h : Starts x command)
    (hsent : ∀ m : Machine, Sent l program words m.calls (x.exec m).2.calls) :
    ∃ words, Sends l program words command := by
  obtain ⟨m, started, hcalls, hmem⟩ := h
  obtain ⟨call, hcall, hsends⟩ := hsent m
  have hone : started = [call] := List.append_cancel_left (hcalls.symm.trans hcall)
  rw [hone, List.map_singleton, List.mem_singleton] at hmem
  rw [hmem]
  exact ⟨words, hsends⟩

theorem Builds.sends (h : Builds l program command) (hremote : l.isRemote = true) :
    ∃ words, Sends l program words command := by
  have hprogram : Config.shellWord (.str program) = .ok ↑program := rfl
  cases h with
  | prepare argv cwd env hprepare =>
    obtain ⟨command, hcommand, hsends⟩ := sends_sshCommand hremote hprogram "sh"
      ((["-c", runInScript, "sh", cwd] ++ settingWords (env.getD [])).map .plain ++ argv)
      ⟨by decide, by decide⟩
    have hready := (congrArg ((Prepared.mk · none none) <$> ·) hcommand)
    rw [prepare_remote] at hprepare
    cases hready.symm.trans hprepare
    exact ⟨_, hsends⟩
  | resolve h => exact h.sends fun m => sent_resolve hremote hprogram _
  | which h => exact h.sends fun m => sent_which hremote hprogram _ (Config.shellWord_ofScript _)
  | @readStart other size _ h =>
    by_cases hsize : size ≤ 0
    · -- Without a byte to read nothing is started.
      obtain ⟨m, started, hcalls, hmem⟩ := h
      rw [Host.readStart, if_pos hsize] at hcalls
      have hnone : started = [] := List.append_right_eq_self.1 hcalls.symm
      rw [hnone] at hmem
      cases hmem
    · rw [Host.readStart, if_neg hsize] at h
      exact h.sends fun m => sent_readRemote hremote hprogram "head" _ ⟨by decide, by decide⟩
  | readBytes h =>
    exact h.sends fun m => sent_readRemote hremote hprogram "cat" _ ⟨by decide, by decide⟩

/-- A port is written in digits. -/
theorem not_dash_toString {n : Int} (h : 0 ≤ n) : Text.startsWith (toString n) "-" = false := by
  obtain ⟨k, rfl⟩ := Int.eq_ofNat_of_zero_le h
  rw [Bool.eq_false_iff, ne_eq, Text.startsWith_dash]
  intro hdash
  have hdigits : (toString (k : Int)).toList = Nat.toDigits 10 k := Nat.toList_repr
  rw [hdigits] at hdash
  have hdigit := Nat.isDigit_of_mem_toDigits (by decide) (by decide) (List.mem_of_mem_head? hdash)
  revert hdigit
  decide

/-- The words that tell ssh a port are an option and its value. -/
theorem portWords_options {port : Option Int} (hport : ∀ n, port = some n → 0 ≤ n) :
    (∀ w ∈ portWords port, w ≠ "--") ∧
      (portWords port).filter (Text.startsWith · "-") = (portWords port).take 1 := by
  rcases port with _ | n
  · simp [portWords]
  by_cases hn : n = 0
  · simp [portWords, hn]
  · have hdigits := not_dash_toString (hport n rfl)
    have hne : toString n ≠ "--" := by
      intro hend
      rw [hend] at hdigits
      exact absurd hdigits (by decide)
    rw [portWords, if_neg hn]
    refine ⟨by simpa using hne, ?_⟩
    exact congrArg ("-p" :: ·) (List.filter_cons_of_neg (by rw [hdigits]; decide))

/-- The options of a command for ssh are its own and the destination, if that
begins with a dash. -/
theorem optionWords_command {port : Option Int} (hport : ∀ n, port = some n → 0 ≤ n)
    (program target line : String) :
    optionWords ([program, "-o", "BatchMode=yes"] ++ portWords port ++ [target, "--", line]) =
      "-o" :: (portWords port).take 1 ++
        if Text.startsWith target "-" = true ∧ target ≠ "--" then [target] else [] := by
  obtain ⟨hends, hoptions⟩ := portWords_options hport
  have hfixed : ∀ w ∈ ["-o", "BatchMode=yes"], decide (w ≠ "--") = true := by decide
  have hown : ∀ w ∈ ["-o", "BatchMode=yes"] ++ portWords port, decide (w ≠ "--") = true := by
    intro w hw
    rcases List.mem_append.1 hw with hw | hw
    · exact hfixed w hw
    · simpa using hends w hw
  have hfirst : ["-o", "BatchMode=yes"].filter (Text.startsWith · "-") = ["-o"] := by decide
  have htarget : ([target, "--", line].takeWhile (· ≠ "--")).filter (Text.startsWith · "-") =
      if Text.startsWith target "-" = true ∧ target ≠ "--" then [target] else [] := by
    by_cases hend : target = "--"
    · simp [hend]
    · by_cases hdash : Text.startsWith target "-" = true
      · simp [hend, hdash]
      · simp [hend, hdash]
  have htail : ([program, "-o", "BatchMode=yes"] ++ portWords port ++ [target, "--", line]).tail =
      (["-o", "BatchMode=yes"] ++ portWords port) ++ [target, "--", line] := rfl
  rw [optionWords, htail, List.takeWhile_append_of_pos hown, List.filter_append,
    List.filter_append, hfirst, hoptions, htarget]
  rfl

/-- **What ssh takes for options in a command for a remote location.** The
destination is among them exactly if the text of the location puts a dash
at the front of it, and it is not the double dash itself. All else is as
it should be: the option in front, and one for the port if there is one. -/
theorem options_of_remote_command (cwd home : Option String) (users : List (String × String))
    (raw program : String) (l : Location) (command : List String)
    (hread : Location.read cwd home users raw = .ok l) (hremote : l.isRemote = true)
    (hbuilds : Builds l program command) :
    ∃ target line, l.sshTarget = .ok target ∧
      command = [program, "-o", "BatchMode=yes"] ++ portWords l.port ++ [target, "--", line] ∧
      (∀ n, l.port = some n → 0 ≤ n ∧ n ≤ 65535) ∧
      (Text.startsWith target "-" = true ↔ leading (authority raw) = some '-') ∧
      optionWords command = "-o" :: (portWords l.port).take 1 ++
        if leading (authority raw) = some '-' ∧ target ≠ "--" then [target] else [] := by
  obtain ⟨words, target, line, htarget, rfl, -⟩ := hbuilds.sends hremote
  rw [Location.read] at hread
  rcases hscheme : cutScheme? raw with _ | ⟨scheme, rest⟩
  · -- A text without a scheme names a file of this machine.
    rw [hscheme] at hread
    obtain ⟨expanded, -, hread⟩ := ok_of_bind hread
    obtain ⟨path, -, hread⟩ := ok_of_bind hread
    rw [← Except.ok.inj hread] at hremote
    exact absurd hremote Bool.false_ne_true
  rw [hscheme] at hread
  have hauthority : authority raw = (cutAuthority (dropBreaks rest)).1 := by
    rw [authority, hscheme]
  obtain ⟨-, hport, -, -⟩ := parts_of_readRemote hread
  have hrange : ∀ n, l.port = some n → 0 ≤ n ∧ n ≤ 65535 := by
    intro n hn
    rw [hn] at hport
    exact port_le hport
  obtain ⟨target', htarget', hdash⟩ := dash_of_readRemote hread
  cases htarget.symm.trans htarget'
  rw [← hauthority] at hdash
  refine ⟨target, line, htarget, rfl, hrange, hdash, ?_⟩
  rw [optionWords_command fun n hn => (hrange n hn).1]
  simp only [hdash]

/-- A user and a port, as they are meant to be. -/
theorem options_of_remote_command_port : ∃ l command,
    Location.read "/" "" [] "ssh://u@h:22/x" = .ok l ∧ Builds l "ssh" command ∧
      optionWords command = ["-o", "-p"] := by
  let l : Location := { path := "/x", host := some "h", user := some "u", port := some 22 }
  have hread : Location.read "/" "" [] "ssh://u@h:22/x" = .ok l :=
    ok_of_toOption (by decide +kernel)
  have hbuilds : Builds l "ssh" _ := .prepare [] "/" none rfl
  obtain ⟨target, line, -, -, -, -, hoptions⟩ := options_of_remote_command
    "/" "" [] "ssh://u@h:22/x" "ssh" _ _ hread rfl hbuilds
  have hleading : leading (authority "ssh://u@h:22/x") = some 'u' := by decide +kernel
  rw [hleading, if_neg (by simp)] at hoptions
  exact ⟨_, _, hread, hbuilds, hoptions.trans (by decide)⟩

/-- **A location can hand ssh an option**: the host of this one is taken for
a program to run. -/
theorem destination_is_option : ∃ l command,
    Location.read "/" "" [] "ssh://-oProxyCommand=id/x" = .ok l ∧ l.isRemote = true ∧
      Builds l "ssh" command ∧ optionWords command = ["-o", "-oproxycommand=id"] := by
  have hread : Location.read "/" "" [] "ssh://-oProxyCommand=id/x" =
      .ok { path := "/x", host := some "-oproxycommand=id" } :=
    ok_of_toOption (by decide +kernel)
  have hport : ∀ n, (none : Option Int) = some n → 0 ≤ n := by
    intro n hn
    cases hn
  refine ⟨_, _, hread, rfl, .prepare [] "/" none rfl, ?_⟩
  exact (optionWords_command hport "ssh" "-oproxycommand=id" _).trans (by decide)

end Host

end Disasm
