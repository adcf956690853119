import Disasm.Proofs.HeaderLines
import Disasm.Proofs.ProbeEnd
import Disasm.Proofs.SavedSettings
import Disasm.Proofs.Utf8
/-!
# Resolve replies — what another host prints and what is read from it

To resolve a path on another host a script prints the canonical path, the
kind of the entry and its size there, and behind each of them a line feed.
The reply is cut at every character that ends a line. So it is read as it
was meant exactly if the path holds none of them, unless the size is of
more digits than a numeral may have (`resolve_printed`). What stands behind
the first of them in a path is taken for a kind and a size, and the entry
is then one of another path (`resolve_other_path`).
-/

namespace Disasm

open Act

namespace Text

/-! ## The first lines of a text -/

section Lines

variable {held line rest cs : List Char}

/-- A line feed closes the line in front of it. -/
theorem linesFrom_append_newline (hline : ∀ c ∈ line, isLineEnd c = false) :
    linesFrom held (line ++ '\n' :: rest) = (held.reverse ++ line) :: linesFrom [] rest := by
  induction line generalizing held with
  | nil =>
    rw [List.append_nil, List.nil_append, linesFrom, if_pos (by decide)]
    exact fun _ hc => absurd hc (by decide)
  | cons c line ih =>
    rw [List.forall_mem_cons] at hline
    have hc : isLineEnd c ≠ true := Bool.eq_false_iff.1 hline.1
    rw [List.cons_append, linesFrom, if_neg hc, ih hline.2, List.reverse_cons, List.append_assoc]
    · rfl
    · rintro tail rfl -
      exact hc (by decide)

/-- The first line ends where the first line end stands. -/
theorem head?_linesFrom (h : held ≠ [] ∨ cs ≠ []) :
    (linesFrom held cs).head? = some (held.reverse ++ cs.takeWhile (!isLineEnd ·)) := by
  fun_induction linesFrom held cs with
  | case1 held hempty => simp_all
  | case2 held hopen => simp
  | case3 held rest ih => rw [List.takeWhile_cons_of_neg (by decide), List.append_nil]; rfl
  | case4 held c rest hpair hend ih =>
    rw [List.takeWhile_cons_of_neg (by simp [hend]), List.append_nil]
    rfl
  | case5 held c rest hpair hplain ih =>
    rw [ih (.inl (List.cons_ne_nil _ _)), List.takeWhile_cons_of_pos (by simp [hplain]),
      List.reverse_cons, List.append_assoc]
    rfl

/-- How newlines are spelled does not move the first end of a line. -/
theorem takeWhile_newlineChars (cs : List Char) :
    (newlineChars cs).takeWhile (!isLineEnd ·) = cs.takeWhile (!isLineEnd ·) := by
  fun_induction newlineChars cs with
  | case1 => rfl
  | case2 rest ih =>
    rw [List.takeWhile_cons_of_neg (by decide), List.takeWhile_cons_of_neg (by decide)]
  | case3 c rest hpair ih =>
    by_cases hc : c = '\r'
    · subst hc
      rw [if_pos rfl, List.takeWhile_cons_of_neg (by decide),
        List.takeWhile_cons_of_neg (by decide)]
    · rw [if_neg hc, List.takeWhile_cons, List.takeWhile_cons, ih]

theorem newlineChars_ne_nil (h : cs ≠ []) : newlineChars cs ≠ [] := by
  fun_cases newlineChars cs with
  | case1 => exact absurd rfl h
  | case2 rest => exact List.cons_ne_nil _ _
  | case3 c rest hpair => exact List.cons_ne_nil _ _

theorem takeWhile_append_newline :
    (line ++ '\n' :: rest).takeWhile (!isLineEnd ·) = line.takeWhile (!isLineEnd ·) := by
  induction line with
  | nil => rfl
  | cons c line ih => rw [List.cons_append, List.takeWhile_cons, List.takeWhile_cons, ih]

end Lines

/-! ## Numerals of natural numbers -/

namespace Numeral

theorem digit?_ascii {c : Char} (h : c.isDigit = true) :
    digit? c = some (c.toNat - '0'.toNat) := by
  rw [digit?, zeros, List.find?_cons_of_pos (by simpa using Json.toNat_of_isDigit h)]
  rfl

theorem digits?_ascii {cs : List Char} (h : ∀ c ∈ cs, c.isDigit = true) :
    digits? digit? cs = some (cs.map fun c => c.toNat - '0'.toNat) := by
  induction cs with
  | nil => rfl
  | cons c cs ih =>
    rw [List.forall_mem_cons] at h
    have hc : c ≠ '_' := by
      rintro rfl
      exact absurd h.1 (by decide)
    rw [digits?, digit?_ascii h.1, ih h.2]
    · rfl
    · exact fun hc' _ => hc hc'
    · exact fun _ hc' _ => hc hc'
    · exact hc

theorem not_isBlank_of_isDigit {c : Char} (h : c.isDigit = true) : isBlank c = false := by
  have hrange := Json.toNat_of_isDigit h
  have haside : ∀ r ∈ blanks, r.2 < 0x30 ∨ 0x39 < r.1 := by decide
  rw [isBlank, CodeRanges.has, List.any_eq_false]
  intro r hr
  have hr := haside r hr
  simp only [Bool.and_eq_true, decide_eq_true_eq]
  omega

theorem not_isLineEnd_of_isDigit {c : Char} (h : c.isDigit = true) : isLineEnd c = false := by
  have hrange := Json.toNat_of_isDigit h
  simp only [isLineEnd, Bool.or_eq_false_iff, Bool.and_eq_false_iff, decide_eq_false_iff_not,
    beq_eq_false_iff_ne]
  omega

theorem trimChars_eq_self {cs : List Char} (h : ∀ c ∈ cs, isBlank c = false) :
    trimChars cs = cs := by
  have hdrop : ∀ cs : List Char, (∀ c ∈ cs, isBlank c = false) → cs.dropWhile isBlank = cs := by
    intro cs hcs
    rcases cs with _ | ⟨c, cs⟩
    · rfl
    · exact List.dropWhile_cons_of_neg (by simp [hcs c List.mem_cons_self])
  have hback : ∀ c ∈ cs.reverse, isBlank c = false := fun c hc => h c (List.mem_reverse.1 hc)
  rw [trimChars, hdrop cs h, hdrop _ hback, List.reverse_reverse]

/-- **A numeral is read as the number it writes**, unless it is too long. -/
theorem readDecimal?_toString (n : Nat) :
    readDecimal? (trim (toString (n : Int))) =
      if n < 10 ^ maxDigits then some (n : Int) else none := by
  have hchars : (toString (n : Int)).toList = Nat.toDigits 10 n := Json.toList_ofNat n
  have hdigit : ∀ c ∈ Nat.toDigits 10 n, c.isDigit = true :=
    fun c hc => Nat.isDigit_of_mem_toDigits (by decide) (by decide) hc
  have hblank : ∀ c ∈ Nat.toDigits 10 n, isBlank c = false :=
    fun c hc => not_isBlank_of_isDigit (hdigit c hc)
  have hsign : splitSign (Nat.toDigits 10 n) = (false, Nat.toDigits 10 n) := by
    rw [splitSign]
    · rintro tail htail
      exact absurd (hdigit '-' (by simp [htail])) (by decide)
    · rintro tail htail
      exact absurd (hdigit '+' (by simp [htail])) (by decide)
  have hunder : (Nat.toDigits 10 n).head? ≠ some '_' := by
    intro hhead
    exact absurd (hdigit '_' (List.mem_of_mem_head? hhead)) (by decide)
  let values := (Nat.toDigits 10 n).map fun c => c.toNat - '0'.toNat
  have hvalue : ofDigits 10 values = n := by
    have hread : Nat.ofDigitChars 10 (Nat.toDigits 10 n) 0 = n :=
      Nat.ofDigitChars_toDigits (by decide) (by decide)
    simpa only [values, ofDigits, List.foldl_map, Nat.ofDigitChars, Nat.mul_comm] using hread
  have hsome : values.isEmpty = false := by
    simp [values, Nat.toDigits_ne_nil]
  have hlong : maxDigits < values.length ↔ ¬n < 10 ^ maxDigits := by
    rw [List.length_map, ← Nat.length_toDigits_le_iff (by decide) (by decide), Nat.not_le]
  rw [readDecimal?, trim, String.toList_ofList, hchars, trimChars_eq_self hblank,
    trimChars_eq_self hblank, hsign]
  dsimp only
  rw [if_neg hunder, digits?_ascii hdigit]
  change (if (values.isEmpty || decide (maxDigits < values.length)) = true then none
    else some (signed false (ofDigits 10 values))) = _
  by_cases hn : n < 10 ^ maxDigits
  · rw [if_pos hn, if_neg (by simp [hsome, hlong, hn]), hvalue]
    rfl
  · rw [if_neg hn, if_pos (by simp [hlong, hn])]

end Numeral

end Text

/-- A command without a working directory and a time limit of its own ends as
the rule says that covers it, whether or not its output is read as text. -/
theorem Machine.exec_run_words {m : Machine} {words : List Script} {text : Bool}
    {rule : ProcessRule} {rules : List ProcessRule} (htaken : words.any Script.refused = false)
    (hrule : ProcessRule.choose? (words.map Script.shown) m.rules = some (rule, rules))
    (hstart : rule.startError = none) :
    ∃ m', (run { words, text }).exec m = (.ok ⟨rule.status, rule.stdout, rule.stderr⟩, m') := by
  have hanswer : ∀ t : Machine, t.rules = m.rules → (answer { words, text }).exec t =
      (.ok ⟨rule.status, rule.stdout, rule.stderr⟩, { t with rules }) := by
    intro t ht
    rw [answer, exec_bind_ok (exec_get t), Command.texts, ht, hrule]
    dsimp only
    rw [exec_bind_ok (exec_set t _), hstart]
    rfl
  rw [run_eq, exec_bind_ok (exec_modify _ m), Script.any_refused_eq_false.1 htaken]
  exact ⟨_, hanswer _ rfl⟩

namespace Host

open Machine Text

/-! ## The reply to the resolving script -/

/-- What the resolving script prints for an entry: the path, the kind and
the size, and a line feed behind each. -/
def printed (e : Entry) : Bytes :=
  Utf8.encode (e.path ++ "\n" ++ (if e.isDirectory then "dir" else "file") ++ "\n" ++
    toString e.size ++ "\n")

/-- Nothing in a text ends a line. -/
def IsLine (s : String) : Prop :=
  ∀ c ∈ s.toList, c ∉ lineEnds

instance (s : String) : Decidable (IsLine s) :=
  List.decidableBAll (· ∉ lineEnds) s.toList

/-- The program that is started to resolve a path on the host of a location
ends well and has printed some bytes. -/
def Prints (own : Location) (program : Json) (path : String) (output : Bytes) (m : Machine) :
    Prop :=
  ∃ words rule rules, sshCommand own program ["sh", "-c", resolveScript, "sh", path] = .ok words ∧
    words.any Script.refused = false ∧
    ProcessRule.choose? (words.map Script.shown) m.rules = some (rule, rules) ∧
    rule.startError = none ∧ rule.status = 0 ∧ rule.stdout = output

variable {own l : Location} {program : Json} {m : Machine} {output : Bytes}

/-- What the program has printed is read as the reply. -/
theorem exec_resolve_prints (h : Prints own program l.path output m) :
    ∃ m', (resolve (.remote own program) l).exec m = (.ok (readReply 0 (readText output)), m') := by
  obtain ⟨words, rule, rules, hwords, htaken, hrule, hstart, hstatus, rfl⟩ := h
  have hmade : (ofExcept (sshCommand own program
      (["sh", "-c", resolveScript, "sh"].map .plain ++ [.plain l.path]))).exec m = (.ok words, m) :=
    Prod.ext hwords rfl
  let note := log Log.debug "services.executors" ("remote: " ++ (Shell.line words).shown)
  obtain ⟨_, hnote⟩ : ∃ u, (note.exec m).1 = .ok u := total_log _ _ _ m
  have hrules : (note.exec m).2.rules = m.rules :=
    (keeps_unlogged _ _ _).through Machine.rules m.rules m rfl
  -- The note in the log leaves the rules as they were, so the program is answered by the same one.
  obtain ⟨m', hrun⟩ : ∃ m', (run { words := words }).exec (note.exec m).2 =
      (.ok ⟨0, rule.stdout, rule.stderr⟩, m') := by
    rw [← hstatus]
    exact exec_run_words htaken (hrules ▸ hrule) hstart
  refine ⟨m', ?_⟩
  have hshell : (shell own program resolveScript [l.path]).exec m =
      (.ok (0, readText rule.stdout, readText rule.stderr), m') := by
    rw [shell, exec_bind_ok hmade, exec_bind_ok (Prod.ext hnote rfl), runText, exec_bind_ok hrun]
    rfl
  rw [resolve, exec_bind_ok (exec_attempt _ m), hshell]
  rfl

variable {p : String} {isDirectory : Bool} {n : Nat}

theorem toList_printed (p : String) (isDirectory : Bool) (n : Nat) :
    (Utf8.decodeLenient (printed ⟨p, isDirectory, n⟩)).toList =
      p.toList ++ '\n' :: ((if isDirectory then "dir" else "file").toList ++
        '\n' :: (Nat.toDigits 10 n ++ ['\n'])) := by
  have hsize : (toString (n : Int)).toList = Nat.toDigits 10 n := Json.toList_ofNat n
  have hfeed : "\n".toList = ['\n'] := rfl
  rw [printed, Utf8.decodeLenient_encode]
  simp only [String.toList_append, hsize, hfeed, List.append_assoc, List.cons_append,
    List.nil_append]

/-- A path that is a line is read back with its kind and its size. -/
theorem readReply_printed (hp : IsLine p) :
    readReply 0 (readText (printed ⟨p, isDirectory, n⟩)) =
      if n < 10 ^ Numeral.maxDigits then some ⟨p, isDirectory, n⟩ else none := by
  have hplain : ∀ c ∈ p.toList, isLineEnd c = false := by
    intro c hc
    rw [← Bool.not_eq_true, isLineEnd_iff]
    exact hp c hc
  have hkind : ∀ c ∈ (if isDirectory then "dir" else "file").toList, isLineEnd c = false := by
    have hall : ∀ b : Bool, (if b then "dir" else "file").toList.all (!isLineEnd ·) = true := by
      decide
    intro c hc
    simpa using List.all_eq_true.1 (hall isDirectory) c hc
  have hsize : ∀ c ∈ Nat.toDigits 10 n, isLineEnd c = false :=
    fun c hc =>
      Numeral.not_isLineEnd_of_isDigit (Nat.isDigit_of_mem_toDigits (by decide) (by decide) hc)
  have hread : readText (printed ⟨p, isDirectory, n⟩) =
      Utf8.decodeLenient (printed ⟨p, isDirectory, n⟩) := by
    refine newlines_eq_self ?_
    have hcr : isLineEnd '\r' ≠ false := by decide
    rw [toList_printed]
    simp only [List.mem_append, List.mem_cons, List.not_mem_nil, or_false, not_or]
    exact ⟨fun h => hcr (hplain _ h), by decide, fun h => hcr (hkind _ h), by decide,
      fun h => hcr (hsize _ h), by decide⟩
  have hlines : lines (readText (printed ⟨p, isDirectory, n⟩)) =
      [p, if isDirectory then "dir" else "file", toString (n : Int)] := by
    rw [hread, lines, toList_printed, linesFrom_append_newline hplain,
      linesFrom_append_newline hkind, linesFrom_append_newline hsize, ← Json.toList_ofNat]
    simp only [List.reverse_nil, List.nil_append, List.map_cons, String.ofList_toList]
    rfl
  have hdirectory : decide (trim (if isDirectory then "dir" else "file") = "dir") =
      isDirectory := by
    cases isDirectory
    · decide
    · decide
  rw [readReply, hlines]
  simp only [ne_eq, not_true_eq_false, if_false, Numeral.readDecimal?_toString, hdirectory]
  split
  · rfl
  · rfl

/-- The path of an entry is the first line of the reply. -/
theorem path_of_readReply {status : Int} {reply : String} {e : Entry}
    (h : readReply status reply = some e) : (lines reply).head? = some e.path := by
  rw [readReply] at h
  split at h
  · rename_i path kind size rest hlines
    rw [hlines]
    split at h
    · cases h
    · obtain ⟨n, -, rfl⟩ := Option.map_eq_some_iff.1 h
      rfl
  · cases h

/-- The path of the entry that a reply is read as is the start of the path
that was printed, up to where it ends a line. -/
theorem path_of_printed {e : Entry}
    (h : readReply 0 (readText (printed ⟨p, isDirectory, n⟩)) = some e) :
    e.path.toList = p.toList.takeWhile (· ∉ lineEnds) := by
  have hends : (fun c => decide (c ∉ lineEnds)) = fun c => !isLineEnd c := by
    funext c
    rw [Bool.eq_iff_iff, decide_eq_true_eq, ← isLineEnd_iff, Bool.not_eq_true, Bool.not_eq_true']
  -- The line feed behind the path is the last that the first line can end with.
  have hfirst := path_of_readReply h
  have hreply := toList_printed p isDirectory n
  rw [lines, readText, newlines, String.toList_ofList, List.head?_map, hreply, head?_linesFrom,
    takeWhile_newlineChars, takeWhile_append_newline] at hfirst
  · rw [← Option.some.inj hfirst, List.reverse_nil, List.nil_append, String.toList_ofList, hends]
  · exact .inr (newlineChars_ne_nil (by simp))

/-- **A reply is read as it was meant exactly if the path is a line** and the
size is not too long a numeral. An entry that is read is in any case one of
the start of the path, up to where it ends a line. -/
theorem resolve_printed (own l : Location) (program : Json) (m : Machine) (p : String)
    (isDirectory : Bool) (n : Nat)
    (h : Prints own program l.path (printed ⟨p, isDirectory, n⟩) m) :
    ∃ r m', (resolve (.remote own program) l).exec m = (.ok r, m') ∧
      (r = some ⟨p, isDirectory, n⟩ ↔ IsLine p ∧ n < 10 ^ Numeral.maxDigits) ∧
      ∀ e, r = some e → e.path.toList = p.toList.takeWhile (· ∉ lineEnds) ∧
        (IsLine p → e = ⟨p, isDirectory, n⟩) := by
  obtain ⟨m', hexec⟩ := exec_resolve_prints h
  refine ⟨_, m', hexec, ⟨?_, ?_⟩, ?_⟩
  · intro hright
    have hp : IsLine p := by
      have hwhole := path_of_printed hright
      intro c hc
      rw [hwhole] at hc
      simpa using List.mem_takeWhile_imp hc
    refine ⟨hp, ?_⟩
    by_contra hlong
    rw [readReply_printed hp, if_neg hlong] at hright
    cases hright
  · rintro ⟨hp, hn⟩
    rw [readReply_printed hp, if_pos hn]
  · intro e he
    refine ⟨path_of_printed he, fun hp => ?_⟩
    rw [readReply_printed hp] at he
    split at he
    · exact (Option.some.inj he).symm
    · cases he

/-- A location on another host. -/
def elsewhere : Location where
  path := "/x"
  host := some "h"

/-- A machine on which every program prints some bytes. -/
def printing (output : Bytes) : Machine where
  cwd := "/"
  env := []
  files := {}
  rules := [{ stdout := output }]

theorem prints_printing (output : Bytes) :
    Prints elsewhere (.str "ssh") elsewhere.path output (printing output) := by
  have htarget : elsewhere.sshTarget = .ok "h" := rfl
  have hprogram : Config.shellWord (.str "ssh") = .ok "ssh" := rfl
  obtain ⟨words, hwords, hrefused⟩ := refused_sshCommand hprogram htarget
    ["sh", "-c", resolveScript, "sh", elsewhere.path]
  have hfixed : hasNull "ssh" = false ∧ hasNull "h" = false ∧ hasNull "sh" = false ∧
      hasNull "-c" = false ∧ hasNull elsewhere.path = false := by decide
  have htaken : words.any Script.refused = false := by
    rw [hrefused]
    simp [hfixed, hasNull_scripts.1]
  cases hwords
  exact ⟨_, { stdout := output }, _, rfl, htaken, rfl, rfl, rfl, rfl⟩

/-- A blank, a tab and a letter beyond ASCII do not end a line. -/
theorem resolve_printed_blank :
    Prints elsewhere (.str "ssh") elsewhere.path (printed ⟨"/a b\tü", true, 0⟩)
        (printing (printed ⟨"/a b\tü", true, 0⟩)) ∧
      ∃ m', (resolve (.remote elsewhere (.str "ssh")) elsewhere).exec
        (printing (printed ⟨"/a b\tü", true, 0⟩)) = (.ok (some ⟨"/a b\tü", true, 0⟩), m') := by
  obtain ⟨r, m', hexec, hread, -⟩ := resolve_printed elsewhere elsewhere (.str "ssh")
    (printing (printed ⟨"/a b\tü", true, 0⟩)) "/a b\tü" true 0 (prints_printing _)
  have hr : r = some ⟨"/a b\tü", true, 0⟩ := hread.2 ⟨by decide, by decide +kernel⟩
  exact ⟨prints_printing _, m', hr ▸ hexec⟩

/-- **A reply can be read as one about another file**: the path holds what is
taken for a kind and a size. -/
theorem resolve_other_path :
    ∃ m m', Prints elsewhere (.str "ssh") elsewhere.path (printed ⟨"/a\x0cfile\x0c5", false, 7⟩) m ∧
      (resolve (.remote elsewhere (.str "ssh")) elsewhere).exec m =
        (.ok (some ⟨"/a", false, 5⟩), m') := by
  have hprints := prints_printing (printed ⟨"/a\x0cfile\x0c5", false, 7⟩)
  obtain ⟨m', hexec⟩ := exec_resolve_prints hprints
  have hread : readReply 0 (readText (printed ⟨"/a\x0cfile\x0c5", false, 7⟩)) =
      some ⟨"/a", false, 5⟩ := by
    decide +kernel
  exact ⟨_, m', hprints, hread ▸ hexec⟩

end Host

end Disasm
