import Disasm.Text.Shell
import Mathlib.Tactic.Common
/-!
# How a shell reads a command line

A shell reads a command line from left to right, character by character,
and cuts it into words. Blanks part words; quotes and backslashes take the
meaning from the characters they cover. What else a bare character can do
is an `Effect`: part commands, redirect, expand, match file names, begin a
comment, assign a variable or be a word of the language. A line that has
none of these is a plain command, and `read` returns its words. The main
statement, `read_join`, is that the line written for a list of words is
read as exactly these.
-/

namespace Disasm.Text.Shell

/-- What a shell does with a command line that is not a plain command. -/
inductive Effect where
  /-- A character that parts commands, groups or redirects them. -/
  | operator (c : Char)
  /-- The start of an expansion or of a substitution. -/
  | expansion (c : Char)
  /-- A character that matches the names of files. -/
  | pattern (c : Char)
  | comment
  /-- A first word that sets a variable. -/
  | assignment
  /-- A first word that belongs to the language. -/
  | keyword (word : String)
  /-- A line that ends within quotes or after a backslash. -/
  | unclosed
  deriving Repr, DecidableEq

/-- What a bare character means to a shell. -/
inductive Role where
  | blank
  | operator
  | expansion
  | tilde
  | pattern
  | hash
  | single
  | double
  | backslash
  | plain
  deriving Repr, DecidableEq

/-- The role of a character. -/
def role : Char → Role
  | ' ' | '\t' => .blank
  | '\n' | '|' | '&' | ';' | '<' | '>' | '(' | ')' => .operator
  | '$' | '\x60' => .expansion
  | '~' => .tilde
  | '*' | '?' | '[' => .pattern
  | '#' => .hash
  | '\'' => .single
  | '"' => .double
  | '\\' => .backslash
  | _ => .plain

/-- The words of the language that can begin a command. -/
def keywords : List String :=
  ["!", "\x7b", "\x7d", "case", "do", "done", "elif", "else", "esac", "fi", "for", "if", "in",
    "then", "until", "while", "[[", "]]", "function", "select", "time"]

/-- What a shell is within. -/
inductive Mode where
  | bare
  | escaped
  | single
  | double
  | doubleEscaped
  deriving Repr, DecidableEq

/-- A shell on its way through a command line. -/
structure Scan where
  mode : Mode := .bare
  /-- The words that have ended. -/
  words : List (List Char) := []
  /-- The word that has begun. -/
  word : Option (List Char) := none
  /-- Whether any of that word was quoted. -/
  quoted : Bool := false
  deriving Repr, DecidableEq

namespace Scan

variable (s : Scan)

/-- Takes a character into the word. -/
def push (c : Char) : Scan :=
  { s with word := some (s.word.getD [] ++ [c]) }

/-- Goes within quotes, which begin a word even if they hold nothing. -/
def enter (mode : Mode) : Scan :=
  { s with mode, word := some (s.word.getD []), quoted := true }

/-- Ends the word. A first word of the language is not a command. -/
def cut : Except Effect Scan :=
  match s.word with
  | none => .ok s
  | some w =>
    if s.words.isEmpty && !s.quoted && keywords.contains (String.ofList w) then
      .error (.keyword (String.ofList w))
    else .ok { words := s.words ++ [w] }

/-- Whether an equals sign would make the first word set a variable. -/
def isVariable : Bool :=
  s.words.isEmpty && !s.quoted &&
    match s.word with
    | some (c :: cs) => (c.isAlpha || c = '_') && cs.all fun c => c.isAlphanum || c = '_'
    | _ => false

/-- Reads one character. -/
def step (c : Char) : Except Effect Scan :=
  match s.mode with
  | .bare =>
    match role c with
    | .blank => s.cut
    | .operator => .error (.operator c)
    -- A tilde expands at the start of a word only; here it never passes.
    | .expansion | .tilde => .error (.expansion c)
    | .pattern => .error (.pattern c)
    | .hash => if s.word.isNone then .error .comment else .ok (s.push c)
    | .single => .ok (s.enter .single)
    | .double => .ok (s.enter .double)
    | .backslash => .ok { s with mode := .escaped }
    | .plain => if c = '=' && s.isVariable then .error .assignment else .ok (s.push c)
  | .escaped =>
    -- A backslash before a newline takes both away.
    if c = '\n' then .ok { s with mode := .bare }
    else .ok ({ s with mode := .bare, quoted := true }.push c)
  | .single => .ok (if c = '\'' then { s with mode := .bare } else s.push c)
  | .double =>
    match role c with
    | .double => .ok { s with mode := .bare }
    | .backslash => .ok { s with mode := .doubleEscaped }
    | .expansion => .error (.expansion c)
    | _ => .ok (s.push c)
  | .doubleEscaped =>
    let s := { s with mode := .double }
    if c = '\n' then .ok s
    else if role c = .expansion ∨ role c = .double ∨ role c = .backslash then .ok (s.push c)
    else .ok ((s.push '\\').push c)

/-- Reads some characters. -/
def run (cs : List Char) : Except Effect Scan :=
  cs.foldlM step s

/-- The words at the end of a line. -/
def finish : Except Effect (List (List Char)) :=
  if s.mode = .bare then s.cut.map (·.words) else .error .unclosed

end Scan

/-- The words of a plain command, as a shell reads them. -/
def read (line : String) : Except Effect (List String) := do
  let s ← ({} : Scan).run line.toList
  return (← s.finish).map String.ofList

namespace Scan

variable {s t : Scan}

theorem run_append (cs ds : List Char) : s.run (cs ++ ds) = s.run cs >>= fun t => t.run ds := by
  rw [run, List.foldlM_append]
  rfl

/-- What has been read does not matter for what comes. -/
theorem run_append_ok {cs : List Char} (h : s.run cs = .ok t) (ds : List Char) :
    s.run (cs ++ ds) = t.run ds := by
  rw [run_append, h]
  rfl

theorem run_cons_ok {c : Char} (h : s.step c = .ok t) (cs : List Char) :
    s.run (c :: cs) = t.run cs := by
  rw [run, List.foldlM_cons, h]
  rfl

end Scan

/-! ## Reading a quoted word -/

/-- A safe character means nothing to a shell. -/
theorem role_of_isSafe {c : Char} (h : isSafe c = true) : role c = .plain := by
  unfold role
  split
  -- No character that has a role is safe.
  all_goals try exact absurd h (by decide)
  rfl

namespace Scan

variable {s : Scan} {words : List (List Char)}

/-- A safe character goes into the word. Only an equals sign in a first word
could do otherwise. -/
theorem step_safe {c : Char} (hmode : s.mode = .bare) (hc : isSafe c = true)
    (hfirst : s.words = [] → c ≠ '=') : s.step c = .ok (s.push c) := by
  have hset : ¬(decide (c = '=') && s.isVariable) = true := by
    intro h
    rw [Bool.and_eq_true, decide_eq_true_eq, isVariable] at h
    obtain ⟨hequals, hvariable⟩ := h
    simp only [Bool.and_eq_true, List.isEmpty_iff] at hvariable
    exact hfirst hvariable.1.1 hequals
  rw [step, hmode]
  dsimp only
  rw [role_of_isSafe hc]
  dsimp only
  rw [if_neg hset]

/-- A run of safe characters extends the word. -/
theorem run_safe {cs : List Char} (hmode : s.mode = .bare) (hcs : ∀ c ∈ cs, isSafe c = true)
    (hfirst : s.words = [] → '=' ∉ cs) (w : List Char) :
    ({ s with word := some w } : Scan).run cs = .ok { s with word := some (w ++ cs) } := by
  induction cs generalizing w with
  | nil =>
    rw [List.append_nil]
    rfl
  | cons c cs ih =>
    have hstep : ({ s with word := some w } : Scan).step c =
        .ok { s with word := some (w ++ [c]) } :=
      step_safe hmode (hcs c (by simp)) fun h heq => hfirst h (by simp [heq])
    have hrest := ih (fun d hd => hcs d (by simp [hd])) fun h hd => hfirst h (by simp [hd])
    rw [run_cons_ok hstep, hrest, List.append_assoc, List.singleton_append]

/-- A shell within single quotes. -/
def within (words : List (List Char)) (w : List Char) : Scan :=
  { mode := .single, words, word := some w, quoted := true }

/-- A single quote leaves the quotes, is quoted doubly, and enters them
again; any other character is taken as it is. -/
theorem run_escape (w : List Char) (c : Char) :
    (within words w).run (escape c) = .ok (within words (w ++ [c])) := by
  by_cases hc : c = '\''
  · subst hc
    rfl
  · have hstep : (within words w).step c = .ok (within words (w ++ [c])) := by
      rw [step, within]
      dsimp only
      rw [if_neg hc]
      rfl
    rw [escape, if_neg hc, run_cons_ok hstep]
    rfl

theorem run_flatMap_escape (w cs : List Char) :
    (within words w).run (cs.flatMap escape) = .ok (within words (w ++ cs)) := by
  induction cs generalizing w with
  | nil =>
    rw [List.append_nil]
    rfl
  | cons c cs ih =>
    rw [List.flatMap_cons, run_append_ok (run_escape w c), ih, List.append_assoc,
      List.singleton_append]

/-- **A written word is read back**, whatever is in it. -/
theorem run_quoteChars (cs : List Char) (hfirst : words = [] → '=' ∉ cs) :
    ∃ quoted, ({ words } : Scan).run (quoteChars cs) = .ok { words, word := some cs, quoted } := by
  rw [quoteChars]
  split
  · rename_i hempty
    rw [List.isEmpty_iff.1 hempty]
    exact ⟨true, rfl⟩
  split
  · rename_i hempty hsafe
    rw [List.all_eq_true] at hsafe
    obtain ⟨c, ds, rfl⟩ : ∃ c ds, cs = c :: ds := List.exists_cons_of_ne_nil (by simpa using hempty)
    have hstep : ({ words } : Scan).step c = .ok { words, word := some [c] } :=
      step_safe rfl (hsafe c (by simp)) fun h heq => hfirst h (by simp [heq])
    refine ⟨false, ?_⟩
    rw [run_cons_ok hstep]
    exact run_safe (s := { words }) rfl (fun d hd => hsafe d (by simp [hd]))
      (fun h hd => hfirst h (by simp [hd])) [c]
  -- What is left has a character that is not safe, and stands within single quotes.
  · have hopen : ({ words } : Scan).step '\'' = .ok (within words []) := rfl
    have hclose : (within words cs).run ['\''] =
        .ok { words, word := some cs, quoted := true } := rfl
    refine ⟨true, ?_⟩
    rw [List.cons_append, run_cons_ok hopen, run_append_ok (run_flatMap_escape [] cs)]
    exact hclose

end Scan

/-! ## Reading a command line -/

/-- A word that begins a plain command even when it is bare. -/
def Names (w : List Char) : Prop :=
  '=' ∉ w ∧ String.ofList w ∉ keywords

namespace Scan

variable {words : List (List Char)}

/-- A word ends as it is. -/
theorem cut_word {w : List Char} {quoted : Bool} (hfirst : words = [] → Names w) :
    ({ words, word := some w, quoted } : Scan).cut = .ok { words := words ++ [w] } := by
  have hplain : ¬(words.isEmpty && !quoted && keywords.contains (String.ofList w)) = true := by
    intro h
    simp only [Bool.and_eq_true, List.isEmpty_iff, List.contains_iff_mem] at h
    exact (hfirst h.1.1).2 h.2
  rw [cut]
  dsimp only
  rw [if_neg hplain]

/-- **A written line is read back word by word.** -/
theorem finish_join (words : List (List Char)) (w : List Char) (ws : List (List Char))
    (hfirst : words = [] → Names w) :
    ∃ s, ({ words } : Scan).run ([' '].intercalate ((w :: ws).map quoteChars)) = .ok s ∧
      s.finish = .ok (words ++ w :: ws) := by
  induction ws generalizing words w with
  | nil =>
    obtain ⟨quoted, hrun⟩ := run_quoteChars w fun h => (hfirst h).1
    refine ⟨_, by simpa using hrun, ?_⟩
    rw [finish, if_pos rfl, cut_word hfirst]
    rfl
  | cons v ws ih =>
    obtain ⟨quoted, hrun⟩ := run_quoteChars w fun h => (hfirst h).1
    -- The blank between two words ends the first, and from there on it is no longer the first.
    have hblank : ({ words, word := some w, quoted } : Scan).step ' ' =
        .ok { words := words ++ [w] } := cut_word hfirst
    obtain ⟨s, hs, hfinish⟩ := ih (words ++ [w]) v (by simp)
    refine ⟨s, ?_, ?_⟩
    · rw [List.map_cons, List.map_cons, List.intercalate_cons_cons, List.append_assoc,
        run_append_ok hrun, List.singleton_append, run_cons_ok hblank, ← List.map_cons]
      exact hs
    · rw [hfinish, List.append_assoc, List.singleton_append]

end Scan

/-- **The line written for a list of words is read as these words**, and
nothing in it has an effect. -/
theorem read_join (w : String) (ws : List String) (hfirst : Names w.toList) :
    read (join (w :: ws)) = .ok (w :: ws) := by
  have hline : (join (w :: ws)).toList =
      [' '].intercalate ((w.toList :: ws.map String.toList).map quoteChars) := by
    rw [join, String.toList_intercalate, List.map_map, ← List.map_cons, List.map_map]
    congr 1
    refine List.map_congr_left fun v _ => ?_
    rw [Function.comp, quote, String.toList_ofList]
    rfl
  obtain ⟨s, hrun, hfinish⟩ :=
    Scan.finish_join [] w.toList (ws.map String.toList) fun _ => hfirst
  have hback : (w.toList :: ws.map String.toList).map String.ofList = w :: ws := by
    rw [← List.map_cons, List.map_map]
    exact List.map_id'' (fun _ => String.ofList_toList) _
  rw [read, hline, hrun]
  change s.finish >>= (fun found => pure (found.map String.ofList)) = _
  rw [hfinish]
  exact congrArg Except.ok hback

/-- The same word, written for a shell and as it is. -/
example : read (join ["echo", "it's $x"]) = .ok ["echo", "it's $x"] ∧
    read "echo it's" = .error .unclosed ∧ read "echo $x" = .error (.expansion '$') := by
  decide +kernel

end Disasm.Text.Shell
