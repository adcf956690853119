import Disasm.Proofs.Destination
import Disasm.Proofs.PercentFixed
/-!
# Reopening — which remote locations are read back from their display

A display puts a location together again: scheme, user, host, port, path.
What it shows was decoded, lowered and freed of brackets when it was read,
and it leaves out what counts as nothing. So reading it is not always
reading back. `Shaped` is what is known of a location that was read; with
it a display is taken apart where it was put together
(`read_display_iff`), and each part is the same again under a condition of
its own. Together they are `Reopens`, which decides the matter
(`remote_display_reopens`).
-/

namespace Disasm

namespace Location

open Text

variable {authority behind host hostport part cs : List Char} {l : Location} {c d : Char}

/-! ## Paths -/

theorem pathOf_slash (cs : List Char) : (pathOf ('/' :: cs)).toList.head? = some '/' := by
  have hurl : urlPath ('/' :: cs) = '/' :: urlPath cs := by
    rw [urlPath, urlPath, List.takeWhile_cons_of_pos (by decide),
      List.takeWhile_cons_of_pos (by decide)]
  have hdecode : (Percent.decode (String.ofList (urlPath ('/' :: cs)))).toList =
      '/' :: Percent.decodeFrom [] (urlPath cs) := by
    rw [hurl, Percent.decode, String.toList_ofList, String.toList_ofList]
    exact Percent.decodeFrom_slash [] _
  have hfull : ¬(Percent.decode (String.ofList (urlPath ('/' :: cs)))).isEmpty = true := by
    rw [String.isEmpty_iff, ← String.toList_eq_nil_iff, hdecode]
    exact List.cons_ne_nil _ _
  rw [pathOf, if_neg hfull, hdecode]
  rfl

/-- The characters at which the path of a URL ends, and those that a URL
loses. -/
def pathMarks : List Char := ['?', '#', '\t', '\n', '\r']

/-- **A path is read as it stands exactly if nothing in it means anything else
in a URL.** -/
theorem pathOf_dropBreaks_iff {path : String} (hpath : path ≠ "") :
    pathOf (dropBreaks path.toList) = path ↔
      (∀ c ∈ path.toList, c ∉ pathMarks) ∧ ¬Percent.Escapes path.toList := by
  constructor
  · intro hsame
    unfold pathOf at hsame
    generalize hurl : urlPath (dropBreaks path.toList) = url at hsame
    dsimp only at hsame
    by_cases hempty : (Percent.decode (String.ofList url)).isEmpty = true
    · rw [if_pos hempty] at hsame
      subst hsame
      exact ⟨by simp [pathMarks], by rintro (_ | h); cases h⟩
    · rw [if_neg hempty] at hsame
      -- No step makes the path longer, so each of them leaves it alone.
      have hsub : url.Sublist path.toList := by
        rw [← hurl, urlPath]
        exact (List.takeWhile_sublist _).trans
          ((List.takeWhile_sublist _).trans List.filter_sublist)
      have hlength := Percent.length_decode_le (String.ofList url)
      rw [hsame, String.toList_ofList] at hlength
      have hkept : url = path.toList := hsub.eq_of_length_le hlength
      rw [hkept, String.ofList_toList, Percent.decode_eq_self_iff] at hsame
      refine ⟨fun c hc => ?_, hsame⟩
      rw [← hkept, ← hurl] at hc
      have hquery := List.mem_takeWhile_imp hc
      have hmark := List.mem_takeWhile_imp (List.takeWhile_subset _ hc)
      have hbreak := (List.mem_filter.1 (List.takeWhile_subset _ (List.takeWhile_subset _ hc))).2
      simp only [Bool.and_eq_true, decide_eq_true_eq] at hquery hmark hbreak
      simp [pathMarks, hquery, hmark, hbreak]
  · rintro ⟨hmarks, hescapes⟩
    have hne : ∀ c ∈ path.toList, ∀ d ∈ pathMarks, c ≠ d := by
      rintro c hc d hd rfl
      exact hmarks c hc hd
    have hbreaks : dropBreaks path.toList = path.toList := by
      rw [dropBreaks, List.filter_eq_self]
      intro c hc
      simp [hne c hc '\t' (by decide), hne c hc '\n' (by decide), hne c hc '\r' (by decide)]
    have hurl : urlPath path.toList = path.toList := by
      rw [urlPath, List.takeWhile_eq_self_iff.2, List.takeWhile_eq_self_iff.2]
      · exact fun c hc => decide_eq_true (hne c hc '#' (by decide))
      · intro c hc
        exact decide_eq_true (hne c (List.takeWhile_subset _ hc) '?' (by decide))
    have hdecode : Percent.decode path = path := (Percent.decode_eq_self_iff path).2 hescapes
    rw [pathOf, hbreaks, hurl, String.ofList_toList, hdecode, if_neg]
    rwa [String.isEmpty_iff]

/-! ## Hosts -/

/-- A host is a name and maybe a zone, which begins with a percent sign. -/
theorem exists_zone (host : List Char) :
    ∃ name zone, host = name ++ zone ∧ '%' ∉ name ∧ (zone = [] ∨ zone.head? = some '%') := by
  refine ⟨host.takeWhile (· ≠ '%'), host.dropWhile (· ≠ '%'),
    List.takeWhile_append_dropWhile.symm, ?_, ?_⟩
  · intro hmem
    exact absurd (List.mem_takeWhile_imp hmem) (by decide)
  · have hstop := List.head?_dropWhile_not (· ≠ '%') host
    generalize host.dropWhile (· ≠ '%') = zone at hstop ⊢
    rcases zone with _ | ⟨c, zone⟩
    · exact .inl rfl
    · have hc : c = '%' := by simpa using hstop
      exact .inr (congrArg some hc)

/-- Only the name is lowered. -/
theorem toList_lowerHost_append {name zone : List Char} (hname : '%' ∉ name)
    (hzone : zone = [] ∨ zone.head? = some '%') :
    (lowerHost (name ++ zone)).toList = lowerFrom [] name ++ zone := by
  rw [toList_lowerHost, List.takeWhile_append_of_pos (passes_of_notMem hname),
    List.dropWhile_append_of_pos (passes_of_notMem hname)]
  rcases hzone with rfl | hhead
  · rw [List.takeWhile_nil, List.append_nil]
    rfl
  · obtain ⟨rest, rfl⟩ := List.head?_eq_some_iff.1 hhead
    rw [List.takeWhile_cons_of_neg (by decide), List.dropWhile_cons_of_neg (by decide),
      List.append_nil]

theorem mem_lowerHost_iff (hd : IsMark d) (host : List Char) :
    d ∈ (lowerHost host).toList ↔ d ∈ host := by
  obtain ⟨name, zone, rfl, hname, hzone⟩ := exists_zone host
  rw [toList_lowerHost_append hname hzone, List.mem_append, List.mem_append,
    hd.mem_lowerFrom_iff]

theorem mem_of_mem_lowerHost (hd : IsAside d.toNat) (h : d ∈ (lowerHost host).toList) :
    d ∈ host := by
  obtain ⟨name, zone, rfl, hname, hzone⟩ := exists_zone host
  rw [toList_lowerHost_append hname hzone, List.mem_append] at h
  exact List.mem_append.2 (h.imp_left (mem_of_mem_lowerFrom hd))

theorem lowerHost_ne_empty (h : host ≠ []) : lowerHost host ≠ "" := by
  obtain ⟨name, zone, rfl, hname, hzone⟩ := exists_zone host
  rw [ne_eq, ← String.toList_eq_nil_iff, toList_lowerHost_append hname hzone,
    List.append_eq_nil_iff]
  rintro ⟨hempty, rfl⟩
  rw [List.append_nil] at h
  exact lowerFrom_ne_nil [] h hempty

/-- **A host in lower case stays as it is.** -/
theorem lowerHost_lowerHost (host : List Char) :
    lowerHost (lowerHost host).toList = lowerHost host := by
  obtain ⟨name, zone, rfl, hname, hzone⟩ := exists_zone host
  have hmark : IsMark '%' := by decide +kernel
  have hlow : '%' ∉ lowerFrom [] name := fun hmem => hname ((hmark.mem_lowerFrom_iff _ _).1 hmem)
  rw [← String.toList_inj, toList_lowerHost_append hname hzone, toList_lowerHost_append hlow hzone,
    lowerFrom_eq_self fun _ => isLow_of_mem_lowerFrom]

end Location

namespace Address

variable {cs : List Char}

/-- An address has colons between its groups. -/
theorem not_isSix_of_notMem (h : ':' ∉ cs) : isSix cs = false := by
  have hgroups : groups? (Text.cutFirst '%' cs).1 = none := by
    have hsingle : (Text.cutFirst '%' cs).1.splitOn ':' = [(Text.cutFirst '%' cs).1] := by
      refine List.splitOnP_eq_singleton fun c hc => beq_false_of_ne ?_
      rintro rfl
      exact h (List.takeWhile_subset _ hc)
    rw [groups?, hsingle]
    rfl
  rw [isSix]
  dsimp only
  rw [hgroups, Bool.and_false]

/-- Behind the `v` the digits are searched for, and then a dot. -/
theorem isFuture_cons (rest : List Char) :
    isFuture ('v' :: rest) =
      match rest.dropWhile fun c => (Text.Percent.nibble? c).isSome with
      | '.' :: tail =>
        !(rest.takeWhile fun c => (Text.Percent.nibble? c).isSome).isEmpty && !tail.isEmpty
      | _ => false := by
  have hdrop : rest.drop (rest.takeWhile fun c => (Text.Percent.nibble? c).isSome).length =
      rest.dropWhile fun c => (Text.Percent.nibble? c).isSome := by
    conv_lhs =>
      arg 2
      rw [← List.takeWhile_append_dropWhile (p := fun c => (Text.Percent.nibble? c).isSome)
        (l := rest)]
    exact List.drop_left
  rw [← hdrop]
  rfl

/-- The form that is kept for later versions, part by part. -/
theorem isFuture_iff :
    isFuture cs = true ↔ ∃ digits tail, cs = 'v' :: (digits ++ '.' :: tail) ∧ digits ≠ [] ∧
      tail ≠ [] ∧ ∀ c ∈ digits, (Text.Percent.nibble? c).isSome = true := by
  constructor
  · intro h
    obtain ⟨rest, rfl⟩ : ∃ rest, cs = 'v' :: rest := by
      unfold isFuture at h
      split at h
      · exact ⟨_, rfl⟩
      · cases h
    rw [isFuture_cons] at h
    split at h
    · rename_i tail htail
      simp only [Bool.and_eq_true, Bool.not_eq_true', List.isEmpty_eq_false_iff] at h
      refine ⟨rest.takeWhile fun c => (Text.Percent.nibble? c).isSome, tail, ?_, h.1, h.2, ?_⟩
      · rw [← htail, List.takeWhile_append_dropWhile]
      · intro c hc
        exact (List.mem_takeWhile_imp hc :)
    · cases h
  · rintro ⟨digits, tail, rfl, hdigits, htail, hhex⟩
    have hdot : Text.Percent.nibble? '.' = none := by decide
    have hstop : ('.' :: tail).takeWhile (fun c => (Text.Percent.nibble? c).isSome) = [] ∧
        ('.' :: tail).dropWhile (fun c => (Text.Percent.nibble? c).isSome) = '.' :: tail := by
      simp [hdot]
    rw [isFuture_cons, List.takeWhile_append_of_pos hhex, List.dropWhile_append_of_pos hhex,
      hstop.1, hstop.2, List.append_nil]
    simp [hdigits, htail]

end Address

namespace Location

open Text

variable {authority behind host hostport part cs : List Char} {l : Location} {c d : Char}

/-- A host of that form keeps it in lower case. -/
theorem isFuture_lowerHost (h : Address.isFuture host = true) :
    Address.isFuture (lowerHost host).toList = true := by
  obtain ⟨digits, tail, rfl, hdigits, htail, hhex⟩ := Address.isFuture_iff.1 h
  have hascii : ∀ c ∈ digits, c.toNat < 0x80 := by
    intro c hc
    obtain ⟨n, hn⟩ := Option.isSome_iff_exists.1 (hhex c hc)
    exact of_decide_eq_true (Percent.isAscii_of_nibble? hn)
  have hpercent : '%' ∉ digits := fun hmem => absurd (hhex _ hmem) (by decide)
  have hlower : ∀ c ∈ digits, (Percent.nibble? c.toLower).isSome = true := by
    have hall : ∀ n < 0x80, (Percent.nibble? (Char.ofNat n)).isSome = true →
        (Percent.nibble? (Char.ofNat n).toLower).isSome = true := by decide +kernel
    intro c hc
    have hdigit := hall c.toNat (hascii c hc)
    rw [Char.ofNat_toNat] at hdigit
    exact hdigit (hhex c hc)
  -- The front is lowered on its own, and what is behind the dot does not matter.
  obtain ⟨name, zone, rfl, hname, hzone⟩ := exists_zone tail
  have hfront : '%' ∉ ('v' :: digits ++ ['.']) ++ name := by
    simp [hpercent, hname]
  have hshape : 'v' :: (digits ++ '.' :: (name ++ zone)) =
      ('v' :: digits ++ ['.']) ++ name ++ zone := by simp
  have hfrontAscii : ∀ c ∈ 'v' :: digits ++ ['.'], c.toNat < 0x80 := by
    simpa [or_imp, forall_and] using hascii
  rw [hshape, toList_lowerHost_append hfront hzone, lowerFrom_append [] hfrontAscii,
    Address.isFuture_iff]
  generalize ('v' :: digits ++ ['.']).reverse ++ [] = before
  refine ⟨digits.map Char.toLower, lowerFrom before name ++ zone, ?_, ?_, ?_, ?_⟩
  · have hends : 'v'.toLower = 'v' ∧ '.'.toLower = '.' := by decide
    simp [hends]
  · simpa using hdigits
  · rw [ne_eq, List.append_eq_nil_iff]
    rintro ⟨hempty, rfl⟩
    rw [List.append_nil] at htail
    exact lowerFrom_ne_nil before htail hempty
  · intro c hc
    obtain ⟨d, hd, rfl⟩ := List.mem_map.1 hc
    exact hlower d hd

/-- **A bracketed host that is no address passes in lower case, too.** -/
theorem checkBracketed_lowerHost (h : checkBracketed host = .ok ()) (hcolon : ':' ∉ host) :
    checkBracketed (lowerHost host).toList = .ok () := by
  have hfuture : Address.isFuture host = true := by
    rw [checkBracketed, Address.not_isSix_of_notMem hcolon] at h
    split at h
    · split at h
      · assumption
      · cases h
    · split at h
      · cases h
      · cases h
  have hlow := isFuture_lowerHost hfuture
  obtain ⟨digits, tail, hshape, -⟩ := Address.isFuture_iff.1 hlow
  rw [checkBracketed, if_pos (by rw [hshape]; rfl), if_pos hlow]

/-! ## What was read -/

theorem mem_of_mem_cutPort (h : c ∈ (cutPort hostport).1) : c ∈ hostport := by
  have hbehind : ∀ (sep : Char) (cs : List Char), (cutFirst sep cs).2 ⊆ cs := fun sep cs =>
    List.Subset.trans (List.drop_subset _ _) (List.dropWhile_subset _)
  rw [cutPort] at h
  split at h
  · exact hbehind _ _ (List.takeWhile_subset _ h)
  · exact List.takeWhile_subset _ h

/-- The cut in front of the host is made at the last at sign. -/
theorem exists_cutUser (part : List Char) :
    ∃ info hostport, part = Option.elim info [] (· ++ ['@']) ++ hostport ∧ '@' ∉ hostport ∧
      cutUser part = (info, hostport) := by
  by_cases hat : '@' ∈ part
  · obtain ⟨tail, head, hpart, htail⟩ := List.eq_append_cons_of_mem (List.mem_reverse.2 hat)
    have hrest : '@' ∉ tail.reverse := by simpa using htail
    have hwhole : part = Option.elim (some head.reverse) [] (· ++ ['@']) ++ tail.reverse := by
      rw [← List.reverse_inj, hpart]
      simp
    exact ⟨_, _, hwhole, hrest, hwhole ▸ cutUser_append _ hrest⟩
  · exact ⟨none, part, rfl, hat, cutUser_append none hat⟩

theorem notMem_cutUser (part : List Char) : '@' ∉ (cutUser part).2 := by
  obtain ⟨info, hostport, -, hat, hcut⟩ := exists_cutUser part
  rwa [hcut]

theorem mem_of_mem_info {info : List Char} (hinfo : (cutUser part).1 = some info) (h : c ∈ info) :
    c ∈ part := by
  obtain ⟨_, hostport, hpart, -, hcut⟩ := exists_cutUser part
  rw [hcut] at hinfo
  subst hinfo
  rw [hpart]
  exact List.mem_append_left _ (List.mem_append_left _ h)

/-- The characters that no authority holds: those that end it, and those that
a URL loses. -/
def authorityMarks : List Char := ['/', '?', '#', '\t', '\n', '\r']

theorem notMem_cutAuthority (rest : List Char) :
    ∀ c ∈ (cutAuthority (dropBreaks rest)).1, c ∉ authorityMarks := by
  intro c hc
  have hends := List.mem_takeWhile_imp hc
  have hbreak := (List.mem_filter.1 (List.takeWhile_subset _ hc)).2
  simp only [endsAuthority, Bool.not_eq_true', Bool.or_eq_false_iff, decide_eq_false_iff_not,
    Bool.and_eq_true, decide_eq_true_eq] at hends hbreak
  simp [authorityMarks, hends, hbreak]

/-- A path that was read is absolute. -/
theorem head?_pathOf (rest : List Char) :
    (pathOf (cutAuthority (dropBreaks rest)).2).toList.head? = some '/' := by
  have hstop := List.head?_dropWhile_not (!endsAuthority ·) (dropBreaks rest)
  rw [cutAuthority]
  dsimp only
  generalize (dropBreaks rest).dropWhile (!endsAuthority ·) = behind at hstop ⊢
  rcases behind with _ | ⟨c, behind⟩
  · rfl
  · have hends : endsAuthority c = true := by simpa using hstop
    simp only [endsAuthority, Bool.or_eq_true, decide_eq_true_eq] at hends
    rcases hends with (rfl | rfl) | rfl
    · exact pathOf_slash behind
    · have hquery : urlPath ('?' :: behind) = [] := by
        rw [urlPath, List.takeWhile_cons_of_pos (by decide), List.takeWhile_cons_of_neg (by decide)]
      rw [pathOf, hquery]
      rfl
    · have hfragment : urlPath ('#' :: behind) = [] := by
        rw [urlPath, List.takeWhile_cons_of_neg (by decide), List.takeWhile_nil]
      rw [pathOf, hfragment]
      rfl

/-- What is known of a remote location that was read. Each part is free of the
marks that would end it, and the host is in lower case and nothing that a
bracket could begin. -/
structure Shaped (l : Location) (name : String) : Prop where
  scheme : l.scheme ∈ schemes
  host : l.host = some name
  name_ne : name ≠ ""
  name_low : lowerHost name.toList = name
  name_front : name.toList.head? ≠ some '['
  name_free : ∀ c ∈ name.toList, c ∉ '@' :: authorityMarks
  user_free : ∀ c ∈ (l.user.getD "").toList, c ∉ ':' :: authorityMarks
  stable : ∀ c ∈ (l.user.getD "").toList ++ name.toList, c.toNat ∉ unstableChars
  /-- A bracket in the user's name makes the host one that may stand in
  brackets. -/
  bracketed : '[' ∈ (l.user.getD "").toList → ':' ∉ name.toList →
    checkBracketed name.toList = .ok ()
  port : ∀ n ∈ l.port, 0 ≤ n ∧ n ≤ 65535
  path : l.path.toList.head? = some '/'

theorem marks_isMark : ∀ c ∈ ':' :: '[' :: '@' :: authorityMarks, IsMark c := by
  have hall : (':' :: '[' :: '@' :: authorityMarks).all (IsMark ·) = true := by decide +kernel
  exact fun c hc => of_decide_eq_true (List.all_eq_true.1 hall c hc)

theorem unstable_isAside : ∀ n ∈ unstableChars, IsAside n := by
  decide +kernel

theorem notMem_of_checkStable (h : checkStable part = .ok ()) :
    ∀ c ∈ part, c.toNat ∉ unstableChars := by
  rw [checkStable] at h
  split at h
  · cases h
  · rename_i hall
    simpa using hall

theorem mem_of_mem_user {user : String} (huser : user ∈ (cutUser part).1.map fun cs =>
      String.ofList (cutFirst ':' cs).1) (h : c ∈ user.toList) : c ∈ part ∧ c ≠ ':' := by
  obtain ⟨info, hinfo, rfl⟩ := Option.map_eq_some_iff.1 huser
  rw [String.toList_ofList, cutFirst] at h
  have hcolon := List.mem_takeWhile_imp h
  exact ⟨mem_of_mem_info hinfo (List.takeWhile_subset _ h), of_decide_eq_true hcolon⟩

/-- **The shape of a location that was read.** -/
theorem ReadFrom.shaped (h : ReadFrom authority behind l) (hscheme : l.scheme ∈ schemes)
    (hfree : ∀ c ∈ authority, c ∉ authorityMarks)
    (hpath : (pathOf behind).toList.head? = some '/') : ∃ name, Shaped l name := by
  have hstable := notMem_of_checkStable h.stable
  obtain ⟨-, hbracketed, -⟩ := checkBrackets_eq_ok_iff.1 h.brackets
  have huser : ∀ c ∈ (l.user.getD "").toList, c ∈ authority ∧ c ≠ ':' := by
    intro c hc
    rcases hname : l.user with _ | user
    · rw [hname] at hc
      cases hc
    · rw [hname] at hc
      exact mem_of_mem_user (h.user ▸ hname) hc
  have hhost : ∀ c ∈ (cutPort (cutUser authority).2).1, c ∈ authority := fun c hc =>
    mem_of_mem_cutUser (mem_of_mem_cutPort hc)
  -- What is in the lower case of the host and could be a mark was there before.
  have hmark : ∀ c ∈ ':' :: '[' :: '@' :: authorityMarks,
      c ∈ (lowerHost (cutPort (cutUser authority).2).1).toList ↔
        c ∈ (cutPort (cutUser authority).2).1 :=
    fun c hc => mem_lowerHost_iff (marks_isMark c hc) _
  refine ⟨_, hscheme, h.host, lowerHost_ne_empty h.named, lowerHost_lowerHost _, ?_, ?_, ?_, ?_,
    ?_, ?_, ?_⟩
  · rw [ne_eq, head?_lowerHost (marks_isMark '[' (by decide))]
    intro hhead
    have hmem := List.mem_of_head? hhead
    have hopens : '[' ∈ authority := hhost _ hmem
    have hforeign : Address.IsForeign '[' := ⟨by decide, by decide, by decide, by decide⟩
    exact head?_of_checkBracketed (hbracketed hopens) hforeign hhead
  · intro c hc hin
    have hmem := (hmark c (List.mem_cons_of_mem _ (List.mem_cons_of_mem _ hin))).1 hc
    rcases List.mem_cons.1 hin with rfl | hin
    · exact notMem_cutUser authority (mem_of_mem_cutPort hmem)
    · exact hfree c (hhost c hmem) hin
  · intro c hc hin
    rcases List.mem_cons.1 hin with rfl | hin
    · exact (huser ':' hc).2 rfl
    · exact hfree c (huser c hc).1 hin
  · intro c hc hunstable
    refine hstable c ?_ hunstable
    rcases List.mem_append.1 hc with hc | hc
    · exact (huser c hc).1
    · exact hhost c (mem_of_mem_lowerHost (unstable_isAside _ hunstable) hc)
  · intro hopens hcolon
    rw [hmark ':' (by decide)] at hcolon
    exact checkBracketed_lowerHost (hbracketed (huser '[' hopens).1) hcolon
  · intro n hn
    exact port_le (hn ▸ h.port)
  · rw [h.path]
    exact hpath

theorem shaped_of_read {cwd home : Option String} {raw : String} {users : List (String × String)}
    (h : Location.read cwd home users raw = .ok l) (hremote : l.isRemote = true) :
    ∃ name, Shaped l name := by
  unfold Location.read at h
  split at h
  · rename_i scheme rest hcut
    obtain ⟨rfl, hfrom⟩ := readRemote_eq_ok_iff.1 h
    have hscheme : l.scheme ∈ schemes := by
      obtain ⟨scheme, hmem, hfound⟩ := List.exists_of_findSome?_eq_some hcut
      dsimp only at hfound
      split at hfound
      · cases hfound
        exact hmem
      · cases hfound
    exact hfrom.shaped hscheme (notMem_cutAuthority rest) (head?_pathOf rest)
  · obtain ⟨_, -, h⟩ := ok_of_bind h
    obtain ⟨_, -, h⟩ := ok_of_bind h
    rw [← Except.ok.inj h] at hremote
    exact absurd hremote Bool.false_ne_true

/-! ## What is shown -/

/-- The user as a display shows it: an empty name is left out. -/
def shownUser (l : Location) : Option (List Char) :=
  (l.user.filter (· ≠ "")).map String.toList

/-- The port as a display shows it: a port of zero is left out. -/
def shownPort (l : Location) : Option (List Char) :=
  l.givenPort?.map fun n => (toString n).toList

/-- The authority of a display. -/
def shownAuthority (l : Location) (name : String) : List Char :=
  l.shownUser.elim [] (· ++ ['@']) ++ (name.toList ++ l.shownPort.elim [] (':' :: ·))

theorem toList_destination (l : Location) (name : String) :
    (destination l.user name).toList = l.shownUser.elim [] (· ++ ['@']) ++ name.toList := by
  rw [shownUser]
  rcases l.user with _ | user
  · rfl
  · by_cases hempty : user = ""
    · subst hempty
      rfl
    · have hkept : (some user).filter (· ≠ "") = some user := by simp [hempty]
      rw [destination, if_neg (by rwa [String.isEmpty_iff]), hkept, String.toList_append,
        String.toList_append]
      rfl

theorem display_eq {name : String} (h : l.host = some name) :
    l.display = l.scheme ++ "://" ++ (String.ofList (l.shownAuthority name) ++ l.path) := by
  rw [display, h, ← String.toList_inj, shownAuthority, shownPort]
  rcases l.givenPort? with _ | n
  · simp [toList_destination]
  · simp [toList_destination]

theorem shownUser_eq (l : Location) :
    l.shownUser = if l.user.getD "" = "" then none else some (l.user.getD "").toList := by
  rw [shownUser]
  rcases l.user with _ | user
  · rfl
  · by_cases hempty : user = ""
    · subst hempty
      rfl
    · simp [hempty]

/-- A port that is shown is one that was read, as a numeral. -/
theorem cases_shownPort (hport : ∀ n ∈ l.port, 0 ≤ n ∧ n ≤ 65535) :
    (l.shownPort = none ∧ (l.port = none ∨ l.port = some 0)) ∨
      ∃ k : Nat, k ≤ 65535 ∧ l.port = some (k : Int) ∧ l.port ≠ some 0 ∧
        l.shownPort = some (Nat.toDigits 10 k) := by
  rw [shownPort, givenPort?]
  rcases hn : l.port with _ | n
  · exact .inl ⟨rfl, .inl rfl⟩
  · obtain ⟨hnonneg, hle⟩ := hport n hn
    obtain ⟨k, rfl⟩ := Int.eq_ofNat_of_zero_le hnonneg
    by_cases hzero : k = 0
    · rw [hzero]
      exact .inl ⟨rfl, .inr rfl⟩
    · have hkept : (some (k : Int)).filter (· ≠ 0) = some (k : Int) := by simp [hzero]
      refine .inr ⟨k, by omega, rfl, by simpa using hzero, ?_⟩
      rw [hkept, ← Json.toList_ofNat k]
      rfl

theorem readPort_toDigits {k : Nat} (hk : k ≤ 65535) :
    readPort (Nat.toDigits 10 k) = .ok (some (k : Int)) := by
  have hvalue : Nat.ofDigitChars 10 (Nat.toDigits 10 k) 0 = k :=
    Nat.ofDigitChars_toDigits (by decide) (by decide)
  have hlength : (Nat.toDigits 10 k).length ≤ Numeral.maxDigits := by
    have hfive : (Nat.toDigits 10 k).length ≤ 5 :=
      (Nat.length_toDigits_le_iff (by decide) (by decide)).2 (by omega)
    exact hfive.trans (by decide)
  rw [readPort_digits (by simp) (fun c hc => Nat.isDigit_of_mem_toDigits (by decide) (by decide) hc)
    hlength (by omega), hvalue]

/-! ## Reading what is shown -/

/-- A remote location whose display leaves nothing out and shows nothing that
is read as something else. -/
structure Reopens (l : Location) : Prop where
  /-- An empty name of the user is not shown. -/
  user : l.user ≠ some ""
  /-- A port of zero is not shown. -/
  port : l.port ≠ some 0
  /-- A host is shown without the brackets it may have stood in. -/
  host : ∀ name ∈ l.host, ':' ∉ name.toList ∧ '[' ∉ name.toList
  /-- A bracket elsewhere counts as well, and goes with one that closes it. -/
  brackets : '[' ∈ (l.user.getD "").toList ↔
    ']' ∈ (l.user.getD "").toList ++ (l.host.getD "").toList
  /-- A path is shown decoded. -/
  path : ∀ c ∈ l.path.toList, c ∉ pathMarks
  escapes : ¬Percent.Escapes l.path.toList

instance (l : Location) : Decidable (Reopens l) :=
  decidable_of_iff
    (l.user ≠ some "" ∧ l.port ≠ some 0 ∧
      (∀ name ∈ l.host, ':' ∉ name.toList ∧ '[' ∉ name.toList) ∧
      ('[' ∈ (l.user.getD "").toList ↔
        ']' ∈ (l.user.getD "").toList ++ (l.host.getD "").toList) ∧
      l.path.toList.all (· ∉ pathMarks) = true ∧ ¬Percent.Escapes l.path.toList)
    ⟨fun ⟨h₁, h₂, h₃, h₄, h₅, h₆⟩ => ⟨h₁, h₂, h₃, h₄, by simpa using h₅, h₆⟩,
      fun h => ⟨h.1, h.2, h.3, h.4, by simpa using h.5, h.6⟩⟩

variable {name : String}

namespace Shaped

theorem mem_shownPort (h : Shaped l name) {port : List Char} (hport : port ∈ l.shownPort) :
    ∀ c ∈ port, c.isDigit = true := by
  rcases cases_shownPort h.port with ⟨hnone, -⟩ | ⟨k, -, -, -, hsome⟩
  · rw [hnone] at hport
    cases hport
  · rw [hsome] at hport
    cases hport
    exact fun c hc => Nat.isDigit_of_mem_toDigits (by decide) (by decide) hc

/-- The host and the port of a display. -/
theorem mem_hostport (h : Shaped l name)
    (hc : c ∈ name.toList ++ l.shownPort.elim [] (':' :: ·)) :
    c ∈ name.toList ∨ c = ':' ∨ c.isDigit = true := by
  rcases List.mem_append.1 hc with hc | hc
  · exact .inl hc
  · rcases hport : l.shownPort with _ | port
    · rw [hport] at hc
      cases hc
    · rw [hport, Option.elim_some, List.mem_cons] at hc
      exact .inr (hc.imp_right (h.mem_shownPort hport c))

/-- What the authority of a display holds: the user, the host, the digits of
the port and the separators. -/
theorem mem_shownAuthority (h : Shaped l name) (hc : c ∈ l.shownAuthority name) :
    c ∈ (l.user.getD "").toList ++ name.toList ∨ c = '@' ∨ c = ':' ∨ c.isDigit = true := by
  rw [shownAuthority, shownUser_eq, List.mem_append] at hc
  rcases hc with hc | hc
  · split at hc
    · cases hc
    · rw [Option.elim_some, List.mem_append, List.mem_singleton] at hc
      exact hc.imp (List.mem_append_left _) .inl
  · exact (h.mem_hostport hc).imp (List.mem_append_right _) .inr

theorem mem_shownAuthority_of_mem (hc : c ∈ (l.user.getD "").toList ++ name.toList) :
    c ∈ l.shownAuthority name := by
  rw [shownAuthority, shownUser_eq]
  rcases List.mem_append.1 hc with hc | hc
  · have hsome : ¬l.user.getD "" = "" := by
      intro hempty
      rw [hempty] at hc
      cases hc
    rw [if_neg hsome]
    exact List.mem_append_left _ (List.mem_append_left _ hc)
  · exact List.mem_append_right _ (List.mem_append_left _ hc)

/-- Brackets in the authority of a display are brackets of the user or the
host. -/
theorem mem_shownAuthority_iff (h : Shaped l name) (hc : c ∈ ['[', ']']) :
    c ∈ l.shownAuthority name ↔ c ∈ (l.user.getD "").toList ++ name.toList := by
  have hother : ∀ c ∈ ['[', ']'], ¬(c = '@' ∨ c = ':' ∨ c.isDigit = true) := by simp
  exact ⟨fun hmem => (h.mem_shownAuthority hmem).resolve_right (hother c hc),
    mem_shownAuthority_of_mem⟩

theorem notMem_shownAuthority (h : Shaped l name) :
    ∀ c ∈ l.shownAuthority name, c ∉ authorityMarks := by
  have hother : ∀ c ∈ authorityMarks, ¬(c = '@' ∨ c = ':' ∨ c.isDigit = true) := by
    simp [authorityMarks]
  intro c hc hmark
  rcases List.mem_append.1 ((h.mem_shownAuthority hc).resolve_right (hother c hmark)) with hc | hc
  · exact h.user_free c hc (List.mem_cons_of_mem _ hmark)
  · exact h.name_free c hc (List.mem_cons_of_mem _ hmark)

theorem checkStable_shown (h : Shaped l name) : checkStable (l.shownAuthority name) = .ok () := by
  refine if_neg ?_
  rw [Bool.not_eq_true, List.any_eq_false]
  intro c hc hunstable
  rw [List.contains_iff_mem] at hunstable
  have hwide : ∀ n ∈ unstableChars, 0x80 ≤ n := by decide
  have hhigh := hwide _ hunstable
  rcases h.mem_shownAuthority hc with hc | rfl | rfl | hdigit
  · exact h.stable c hc hunstable
  · exact absurd hhigh (by decide)
  · exact absurd hhigh (by decide)
  · have hlow := Percent.toNat_of_isAlphanum (c := c) (by simp [Char.isAlphanum, hdigit])
    omega

/-- A display is taken apart into the authority and the path it was put
together from. -/
theorem read_display_iff (h : Shaped l name) (cwd home : Option String)
    (users : List (String × String)) :
    Location.read cwd home users l.display = .ok l ↔
      ReadFrom (l.shownAuthority name) (dropBreaks l.path.toList) l := by
  have hlow : lowerAscii l.scheme = l.scheme := by
    have hall : ∀ scheme ∈ schemes, lowerAscii scheme = scheme := by decide
    exact hall _ h.scheme
  have hpass : ∀ c ∈ l.shownAuthority name,
      endsAuthority c = false ∧ (c ≠ '\t' && c ≠ '\n' && c ≠ '\r') = true := by
    intro c hc
    have hfree := h.notMem_shownAuthority c hc
    simp only [authorityMarks, List.mem_cons, List.not_mem_nil, or_false, not_or] at hfree
    simp [endsAuthority, hfree]
  have hbreaks : dropBreaks (String.ofList (l.shownAuthority name) ++ l.path).toList =
      l.shownAuthority name ++ dropBreaks l.path.toList := by
    rw [String.toList_append, String.toList_ofList, dropBreaks, List.filter_append,
      List.filter_eq_self.2 fun c hc => (hpass c hc).2]
    rfl
  have hslash : (dropBreaks l.path.toList).head? = some '/' := by
    obtain ⟨rest, hrest⟩ := List.head?_eq_some_iff.1 h.path
    rw [hrest]
    rfl
  rw [display_eq h.host, Location.read, cutScheme?_append (hlow.symm ▸ h.scheme), hlow]
  dsimp only
  rw [readRemote_eq_ok_iff, hbreaks, cutAuthority_append (fun c hc => (hpass c hc).1) hslash]
  exact and_iff_right rfl

theorem notMem_hostport (h : Shaped l name) (hname : c ∉ name.toList)
    (hother : ¬(c = ':' ∨ c.isDigit = true)) :
    c ∉ name.toList ++ l.shownPort.elim [] (':' :: ·) :=
  fun hmem => (h.mem_hostport hmem).elim hname hother

theorem cutUser_shown (h : Shaped l name) :
    cutUser (l.shownAuthority name) =
      (l.shownUser, name.toList ++ l.shownPort.elim [] (':' :: ·)) := by
  have hname : '@' ∉ name.toList := fun hmem => h.name_free '@' hmem List.mem_cons_self
  exact cutUser_append _ (h.notMem_hostport hname (by decide))

/-- The user that is read is the one that is shown. -/
theorem user_shown (h : Shaped l name) :
    (l.shownUser.map fun cs => String.ofList (cutFirst ':' cs).1) = l.user ↔ l.user ≠ some "" := by
  have hcolon : ':' ∉ (l.user.getD "").toList := fun hmem =>
    h.user_free ':' hmem List.mem_cons_self
  rw [shownUser_eq]
  rcases huser : l.user with _ | user
  · exact iff_of_true rfl nofun
  · rw [huser, Option.getD_some] at hcolon
    by_cases hempty : user = ""
    · subst hempty
      exact iff_of_false nofun fun hne => hne rfl
    · refine iff_of_true ?_ fun hsome => hempty (Option.some.inj hsome)
      rw [Option.getD_some, if_neg hempty, Option.map_some, cutFirst_of_notMem hcolon,
        String.ofList_toList]

/-- A host with a colon or a bracket of its own is not read back. -/
theorem plain_of_readFrom (h : Shaped l name)
    (hfrom : ReadFrom (l.shownAuthority name) (dropBreaks l.path.toList) l) :
    ':' ∉ name.toList ∧ '[' ∉ name.toList := by
  obtain ⟨-, -, hfront⟩ := checkBrackets_eq_ok_iff.1 hfrom.brackets
  have hhost := hfrom.host
  rw [h.host, h.cutUser_shown, Option.some_inj] at hhost
  rw [h.cutUser_shown] at hfront
  have hopens : '[' ∉ name.toList := by
    intro hmem
    -- A bracket would have to stand in front of the host.
    obtain ⟨hnothing, -⟩ := hfront (List.mem_append_left _ hmem)
    obtain ⟨c, cs, hcons⟩ := List.exists_cons_of_ne_nil (List.ne_nil_of_mem hmem)
    have hc : c = '[' := by
      by_contra hne
      have hfirst := (head?_cutFirst hne (name.toList ++ l.shownPort.elim [] (':' :: ·))).2
        (by rw [hcons]; rfl)
      rw [hnothing] at hfirst
      cases hfirst
    exact h.name_front (by rw [hcons, hc]; rfl)
  refine ⟨fun hmem => ?_, hopens⟩
  have hopens' := h.notMem_hostport hopens (by decide)
  rw [cutPort, if_neg (by simpa using hopens')] at hhost
  rw [hhost, mem_lowerHost_iff (marks_isMark ':' (by decide)), cutFirst] at hmem
  exact absurd (List.mem_takeWhile_imp hmem) (by decide)

theorem readPort_shown (h : Shaped l name) :
    readPort (l.shownPort.getD []) = .ok l.port ↔ l.port ≠ some 0 := by
  rcases cases_shownPort h.port with ⟨hshown, hport⟩ | ⟨k, hk, hport, hne, hshown⟩
  · rw [hshown]
    rcases hport with hport | hport
    · rw [hport]
      exact iff_of_true rfl nofun
    · rw [hport]
      exact iff_of_false nofun fun hne => hne rfl
  · rw [hshown]
    exact iff_of_true (hport ▸ readPort_toDigits hk) hne

theorem brackets_shown (h : Shaped l name) (hopens : '[' ∉ name.toList) :
    ('[' ∈ l.shownAuthority name ↔ ']' ∈ l.shownAuthority name) ↔
      ('[' ∈ (l.user.getD "").toList ↔
        ']' ∈ (l.user.getD "").toList ++ (l.host.getD "").toList) := by
  rw [h.mem_shownAuthority_iff (by simp), h.mem_shownAuthority_iff (by simp), h.host,
    Option.getD_some]
  have hfront : '[' ∈ (l.user.getD "").toList ++ name.toList ↔ '[' ∈ (l.user.getD "").toList := by
    rw [List.mem_append, or_iff_left hopens]
  rw [hfront]

theorem path_ne_empty (h : Shaped l name) : l.path ≠ "" := by
  intro hempty
  have hhead := h.path
  rw [hempty] at hhead
  cases hhead

/-- **The parts of a display are read back exactly if the location
`Reopens`.** -/
theorem readFrom_iff (h : Shaped l name) :
    ReadFrom (l.shownAuthority name) (dropBreaks l.path.toList) l ↔ Reopens l := by
  have hpath := pathOf_dropBreaks_iff h.path_ne_empty
  constructor
  · intro hfrom
    -- Only for a plain host is the port cut off where it was put.
    obtain ⟨hcolon, hopens⟩ := h.plain_of_readFrom hfrom
    have huser := hfrom.user
    have hport := hfrom.port
    rw [h.cutUser_shown] at huser hport
    rw [cutPort_append _ (h.notMem_hostport hopens (by decide)) hcolon] at hport
    refine ⟨h.user_shown.1 huser.symm, h.readPort_shown.1 hport, ?_, ?_,
      (hpath.1 hfrom.path.symm).1, (hpath.1 hfrom.path.symm).2⟩
    · intro other hother
      cases h.host.symm.trans hother
      exact ⟨hcolon, hopens⟩
    · exact (h.brackets_shown hopens).1 (checkBrackets_eq_ok_iff.1 hfrom.brackets).1
  · intro hopen
    obtain ⟨hcolon, hopens⟩ := hopen.host name h.host
    have hcut : cutPort (cutUser (l.shownAuthority name)).2 =
        (name.toList, l.shownPort.getD []) := by
      rw [h.cutUser_shown, cutPort_append _ (h.notMem_hostport hopens (by decide)) hcolon]
    refine ⟨checkBrackets_eq_ok_iff.2 ⟨?_, ?_, ?_⟩, h.checkStable_shown, ?_, ?_, ?_, ?_, ?_⟩
    · exact (h.brackets_shown hopens).2 hopen.brackets
    · intro hmem
      rw [h.mem_shownAuthority_iff (by simp), List.mem_append, or_iff_left hopens] at hmem
      rw [hcut]
      exact h.bracketed hmem hcolon
    · intro hmem
      rw [h.cutUser_shown] at hmem
      exact absurd hmem (h.notMem_hostport hopens (by decide))
    · rw [hcut]
      simpa using h.name_ne
    · rw [hcut]
      exact h.readPort_shown.2 hopen.port
    · rw [hcut, h.name_low, h.host]
    · rw [h.cutUser_shown]
      exact (h.user_shown.2 hopen.user).symm
    · exact (hpath.2 ⟨hopen.path, hopen.escapes⟩).symm

end Shaped

/-- **A remote location is read back from its display exactly if it
`Reopens`**, wherever it is read. -/
theorem remote_display_reopens (cwd home : Option String) (raw : String)
    (users : List (String × String))
    (l : Location) (h : Location.read cwd home users raw = .ok l) (hremote : l.isRemote = true)
    (cwd' home' : Option String) (users' : List (String × String)) :
    Location.read cwd' home' users' l.display = .ok l ↔ Reopens l := by
  obtain ⟨name, hshape⟩ := shaped_of_read h hremote
  rw [hshape.read_display_iff, hshape.readFrom_iff]

/-- A path with blanks and letters beyond ASCII, a port with zeros in front
and capital letters in the scheme and the host. -/
theorem remote_display_reopens_blank :
    ∃ l, Location.read "/w" "/" [] "SFTP://dev@Host:0022/a%20b%/%c3%a9" = .ok l ∧
      l.isRemote = true ∧ Reopens l ∧ l.display = "sftp://dev@host:22/a b%/é" ∧
      Location.read "/" "" [] l.display = .ok l := by
  have hread : Location.read "/w" "/" [] "SFTP://dev@Host:0022/a%20b%/%c3%a9" =
      .ok { path := "/a b%/é", host := some "host", user := some "dev", port := some 22,
            scheme := "sftp" } := Act.ok_of_toOption (by decide +kernel)
  have hopens : Reopens { path := "/a b%/é", host := some "host", user := some "dev",
                          port := some 22, scheme := "sftp" } := by
    decide +kernel
  exact ⟨_, hread, rfl, hopens, by decide +kernel,
    (remote_display_reopens _ _ _ _ _ hread rfl _ _ _).2 hopens⟩

/-- **A display can name another file**: a mark that is spelled out in the text
is shown as it is, and ends the path when that is read. -/
theorem display_of_other_file :
    ∃ l other, Location.read "/" "/" [] "ssh://h/a%23b" = .ok l ∧ l.isRemote = true ∧
      l.display = "ssh://h/a#b" ∧ Location.read "/" "/" [] l.display = .ok other ∧ other ≠ l :=
  ⟨{ path := "/a#b", host := some "h" }, { path := "/a", host := some "h" },
    Act.ok_of_toOption (by decide +kernel), rfl, by decide +kernel,
    Act.ok_of_toOption (by decide +kernel), by decide⟩

end Location

end Disasm
