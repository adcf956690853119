import Disasm.Failure
import Disasm.Text.Shell
import Mathlib.Tactic.Common
/-!
# Scripts — points, command lines and what the system refuses

A script is its points, written in one of two ways. A command line of
scripts is the command line of their texts as long as all of them are
texts, and whatever they are, the system takes the line exactly if it takes
each of them: quoting a word neither hides nor adds a point that is
refused.
-/

namespace Disasm

/-- A unit has four hexadecimal digits, zeros in front included. -/
theorem Text.Numeral.toList_hexNat_four {n : Nat} (h : n < 0x10000) :
    (padLeft 4 '0' (hexNat n)).toList = [Nat.digitChar (n / 4096), Nat.digitChar (n / 256 % 16),
      Nat.digitChar (n / 16 % 16), Nat.digitChar (n % 16)] := by
  have hlast : ∀ k, 16 ≤ k →
      Nat.toDigits 16 k = Nat.toDigits 16 (k / 16) ++ [Nat.digitChar (k % 16)] :=
    fun k hk => Nat.toDigits_of_base_le (by decide) hk
  have hone : ∀ k, k < 16 → Nat.toDigits 16 k = [Nat.digitChar k] :=
    fun k hk => Nat.toDigits_of_lt_base hk
  have hzero : ∀ k, k = 0 → Nat.digitChar k = '0' := by
    rintro _ rfl
    rfl
  have hlist : (Text.Numeral.padLeft 4 '0' (Text.Numeral.hexNat n)).toList =
      List.replicate (4 - (Nat.toDigits 16 n).length) '0' ++ Nat.toDigits 16 n := by
    simp [Text.Numeral.padLeft, Text.Numeral.hexNat]
  have h256 : n / 16 / 16 = n / 256 := Nat.div_div_eq_div_mul n 16 16
  have h4096 : n / 256 / 16 = n / 4096 := Nat.div_div_eq_div_mul n 256 16
  rw [hlist]
  -- How many zeros are put in front depends on the size of the unit.
  rcases Nat.lt_or_ge n 16 with h1 | h1
  · rw [hone n h1, hzero (n / 4096) (by omega), hzero (n / 256 % 16) (by omega),
      hzero (n / 16 % 16) (by omega), Nat.mod_eq_of_lt h1]
    rfl
  rw [hlast n h1]
  rcases Nat.lt_or_ge (n / 16) 16 with h2 | h2
  · rw [hone _ h2, hzero (n / 4096) (by omega), hzero (n / 256 % 16) (by omega),
      Nat.mod_eq_of_lt h2]
    rfl
  rw [hlast _ h2, h256]
  rcases Nat.lt_or_ge (n / 256) 16 with h3 | h3
  · rw [hone _ h3, hzero (n / 4096) (by omega), Nat.mod_eq_of_lt h3]
    rfl
  rw [hlast _ h3, h4096, hone _ (by omega)]
  rfl

namespace Point

/-- Whether the system refuses a text for this point of it: a null character,
or a surrogate that stands for no byte. -/
def isRefused : Point → Bool
  | .char c => c = Char.ofNat 0
  | .lone s => !s.isByte

end Point

namespace Script

/-! ## Points -/

theorem any_isLone_map_char (cs : List Char) : (cs.map Point.char).any Point.isLone = false := by
  simp [Point.isLone]

theorem ofPoints_map_char (cs : List Char) :
    ofPoints (cs.map .char) = .plain (String.ofList cs) := by
  rw [ofPoints, dif_neg (by rw [any_isLone_map_char]; exact Bool.false_ne_true)]
  simp [List.filterMap_map, Function.comp_def, Point.char?]

theorem points_ofPoints (ps : List Point) : (ofPoints ps).points = ps := by
  rw [ofPoints]
  split
  · rfl
  · rename_i hplain
    rw [points, String.toList_ofList]
    induction ps with
    | nil => rfl
    | cons p ps ih =>
      rw [List.any_cons, Bool.or_eq_true, not_or] at hplain
      cases p with
      | char c => exact congrArg (Point.char c :: ·) (ih hplain.2)
      | lone s => exact absurd rfl hplain.1

theorem ofPoints_points (s : Script) : ofPoints s.points = s := by
  cases s with
  | plain s => rw [points, ofPoints_map_char, String.ofList_toList]
  | broken b => exact dif_pos b.isBroken

@[simp] theorem shown_comp_plain : shown ∘ plain = id :=
  funext fun _ => rfl

theorem map_shown_plain (words : List String) : (words.map Script.plain).map shown = words := by
  rw [List.map_map, shown_comp_plain, List.map_id]

theorem toList_shown (s : Script) : s.shown.toList = s.points.flatMap Point.shown := by
  cases s with
  | plain s => simp [shown, points, Point.shown, List.flatMap_map]
  | broken b => exact String.toList_ofList

theorem shown_dotted (s : Script) : s.dotted.shown = "." ++ s.shown := by
  rw [← String.toList_inj, String.toList_append, toList_shown, toList_shown]
  cases s with
  | plain s => simp [dotted, points, Point.shown]
  | broken b => rfl

/-- Only the empty text is shown as nothing. -/
theorem isEmpty_of_shown {s : Script} (h : s.shown = "") : s.isEmpty = true := by
  cases s with
  | plain s =>
    rw [isEmpty, show s = "" from h]
    rfl
  | broken b =>
    -- A lone surrogate is shown as its escape.
    obtain ⟨p, hp, hlone⟩ := List.any_eq_true.1 b.isBroken
    have hnone := congrArg String.toList h
    rw [toList_shown, String.toList_empty, List.flatMap_eq_nil_iff] at hnone
    cases p with
    | char c => cases hlone
    | lone s => cases hnone _ hp

/-! ## What the system refuses -/

/-- Whether the system refuses a script. -/
def refused (s : Script) : Bool :=
  s.refusal?.isSome

theorem isSome_unencodableFrom (offset : Nat) (ps : List Point) :
    (unencodableFrom offset ps).isSome = ps.any fun p => p.isLone && p.isRefused := by
  induction ps generalizing offset with
  | nil => rfl
  | cons p ps ih =>
    cases p with
    | char c => exact ih _
    | lone s =>
      rw [unencodableFrom, List.any_cons]
      split
      · rename_i hbyte
        rw [ih]
        simp [Point.isRefused, hbyte]
      · rename_i hbyte
        simp [Point.isRefused, Point.isLone, hbyte]

theorem isSome_unencodable? (s : Script) :
    s.unencodable?.isSome = s.points.any fun p => p.isLone && p.isRefused := by
  cases s with
  | plain s =>
    rw [points, List.any_map]
    exact (List.any_eq_false.2 fun _ _ => Bool.false_ne_true).symm
  | broken b => exact isSome_unencodableFrom 0 b.points

theorem hasNull_eq (s : Script) : s.hasNull = s.points.contains (.char (Char.ofNat 0)) := by
  cases s with
  | plain s =>
    rw [Bool.eq_iff_iff]
    simp [hasNull, points]
  | broken b => rfl

/-- A script is refused for a point of it. -/
theorem refused_eq_any (s : Script) : s.refused = s.points.any Point.isRefused := by
  have hparts : s.refused = (s.unencodable?.isSome || s.hasNull) := by
    rw [refused, refusal?]
    rcases s.unencodable? with _ | u
    · cases s.hasNull with
      | true => rfl
      | false => rfl
    · rfl
  rw [hparts, isSome_unencodable?, hasNull_eq, Bool.eq_iff_iff, Bool.or_eq_true,
    List.any_eq_true, List.contains_iff_mem, List.any_eq_true]
  constructor
  · rintro (⟨p, hp, hlone⟩ | hnull)
    · exact ⟨p, hp, (Bool.and_eq_true_iff.1 hlone).2⟩
    · exact ⟨_, hnull, by decide⟩
  · rintro ⟨p, hp, hrefused⟩
    cases p with
    | char c => exact .inr (of_decide_eq_true hrefused ▸ hp)
    | lone s => exact .inl ⟨_, hp, hrefused⟩

/-- A text is refused for a null character only. -/
theorem refusal?_plain (s : String) :
    (plain s).refusal? = if (plain s).hasNull then some .embeddedNull else none :=
  rfl

theorem isRefusal_of_refusal? {s : Script} {f : Failure} (h : s.refusal? = some f) :
    f.isRefusal = true := by
  rw [refusal?] at h
  split at h
  · cases h
    rfl
  · split at h
    · cases h
      rfl
    · cases h

/-- Of some scripts the first that is refused gives the reason. -/
theorem refused_of_findSome? {words : List Script} {f : Failure}
    (h : words.findSome? refusal? = some f) :
    words.any refused = true ∧ f.isRefusal = true := by
  obtain ⟨word, hword, hf⟩ := List.exists_of_findSome?_eq_some h
  exact ⟨List.any_eq_true.2 ⟨word, hword, by rw [refused, hf]; rfl⟩, isRefusal_of_refusal? hf⟩

theorem any_refused_eq_false {words : List Script} :
    words.any refused = false ↔ words.findSome? refusal? = none := by
  simp [List.any_eq_false, List.findSome?_eq_none_iff, refused]

end Script

/-! ## Command lines -/

namespace Text.Shell

/-- Parts may be worked on before or after they are put together. -/
theorem flatMap_intercalate {α β : Type} (f : α → List β) (sep : List α) (parts : List (List α)) :
    (sep.intercalate parts).flatMap f = (sep.flatMap f).intercalate (parts.map (·.flatMap f)) := by
  induction parts with
  | nil => rfl
  | cons part rest ih =>
    rcases rest with _ | ⟨next, rest⟩
    · simp
    · rw [List.map_cons] at ih
      rw [List.map_cons, List.map_cons, List.intercalate_cons_cons, List.intercalate_cons_cons,
        List.flatMap_append, List.flatMap_append, ih]

theorem toList_join (words : List String) :
    (join words).toList = List.intercalate [' '] (words.map (quoteChars ·.toList)) := by
  rw [join, String.toList_intercalate, List.map_map]
  simp [Function.comp_def, quote]

/-- A command line of texts is a text. -/
theorem line_plain (words : List String) : line (words.map .plain) = .plain (join words) := by
  have hchars := flatMap_intercalate (fun c => [Point.char c]) [' ']
    (words.map (quoteChars ·.toList))
  have hquoted : (words.map Script.plain).map quoteScript =
      (words.map (quoteChars ·.toList)).map (·.flatMap fun c => [.char c]) := by
    rw [List.map_map, List.map_map]
    exact List.map_congr_left fun s _ => List.map_eq_flatMap
  rw [line, hquoted, ← List.flatMap_singleton (fun c => [Point.char c]) ' ', ← hchars,
    ← List.map_eq_flatMap, Script.ofPoints_map_char, ← toList_join, String.ofList_toList]

/-- Characters without a single quote stand for themselves between quotes. -/
theorem flatMap_escape {cs : List Char} (h : '\'' ∉ cs) : cs.flatMap escape = cs := by
  induction cs with
  | nil => rfl
  | cons c cs ih =>
    rw [List.mem_cons, not_or] at h
    rw [List.flatMap_cons, ih h.2, escape, if_neg (Ne.symm h.1), List.singleton_append]

/-- What a lone surrogate is shown as has no single quote. -/
theorem quote_not_mem_shown (s : Surrogate) : '\'' ∉ s.shown := by
  have hdigit : ∀ d < 16, '\'' ≠ Nat.digitChar d := by decide
  have hupper := s.upper
  rw [Surrogate.shown, Numeral.toList_hexNat_four (by omega)]
  simp only [List.mem_cons, List.not_mem_nil, not_or]
  exact ⟨by decide, by decide, hdigit _ (by omega), hdigit _ (by omega), hdigit _ (by omega),
    hdigit _ (by omega), not_false⟩

theorem flatMap_shown_escapePoint (p : Point) :
    (escapePoint p).flatMap Point.shown = p.shown.flatMap escape := by
  cases p with
  | char c => simp [escapePoint, Point.shown, List.flatMap_map]
  | lone s =>
    rw [escapePoint, List.flatMap_singleton, Point.shown, flatMap_escape (quote_not_mem_shown s)]

/-- A script written for the shell is shown as what it is shown as would be
written. -/
theorem flatMap_shown_quoteScript (s : Script) :
    (quoteScript s).flatMap Point.shown = quoteChars s.shown.toList := by
  cases s with
  | plain s => simp [quoteScript, Script.shown, Point.shown, List.flatMap_map]
  | broken b =>
    -- The backslash that a surrogate is shown with is no safe character.
    have hslash : ∃ c ∈ b.points.flatMap Point.shown, isSafe c = false := by
      obtain ⟨p, hp, hlone⟩ := List.any_eq_true.1 b.isBroken
      cases p with
      | char c => cases hlone
      | lone s => exact ⟨'\\', List.mem_flatMap.2 ⟨_, hp, List.mem_cons_self⟩, by decide⟩
    obtain ⟨c, hc, hrisky⟩ := hslash
    have hempty : (b.points.flatMap Point.shown).isEmpty = false := by
      rw [List.isEmpty_eq_false_iff]
      exact List.ne_nil_of_mem hc
    have hsafe : (b.points.flatMap Point.shown).all isSafe = false :=
      List.all_eq_false.2 ⟨c, hc, by rw [hrisky]; decide⟩
    rw [Script.shown, String.toList_ofList, quoteChars, hempty, hsafe, quoteScript]
    simp [List.flatMap_assoc, flatMap_shown_escapePoint, Point.shown]

/-- **A command line is shown as the command line of what its words are shown
as.** -/
theorem shown_line (words : List Script) : (line words).shown = join (words.map Script.shown) := by
  rw [← String.toList_inj, toList_join, List.map_map, line, Script.toList_shown,
    Script.points_ofPoints, flatMap_intercalate, List.map_map]
  refine congrArg ([' '].intercalate ·) (List.map_congr_left fun s _ => ?_)
  exact flatMap_shown_quoteScript s

/-- Between separators that are not refused nothing is hidden. -/
theorem any_isRefused_intercalate {sep : List Point} (hsep : sep.any Point.isRefused = false)
    (parts : List (List Point)) :
    (sep.intercalate parts).any Point.isRefused = parts.any (·.any Point.isRefused) := by
  induction parts with
  | nil => rfl
  | cons part rest ih =>
    rcases rest with _ | ⟨next, rest⟩
    · simp
    · rw [List.intercalate_cons_cons, List.any_append, List.any_append, hsep, Bool.or_false, ih]
      rfl

/-- Quoting neither hides a point that is refused nor adds one. -/
theorem any_isRefused_quoteScript (s : Script) :
    (quoteScript s).any Point.isRefused = s.points.any Point.isRefused := by
  have hquote : (Point.char '\'').isRefused = false := by decide
  have hescape : ∀ c, (escape c).any (fun c => (Point.char c).isRefused) =
      (Point.char c).isRefused := by
    intro c
    rw [escape]
    split
    · rename_i hc
      rw [hc]
      decide
    · exact Bool.or_false _
  cases s with
  | plain s =>
    rw [quoteScript, Script.points, List.any_map, List.any_map, quoteChars]
    split
    · rename_i hempty
      rw [List.isEmpty_iff.1 hempty]
      decide
    split
    · rfl
    · simp [Function.comp_def, List.any_flatMap, hescape, hquote]
  | broken b =>
    have hpoint : ∀ p, (escapePoint p).any Point.isRefused = p.isRefused := by
      intro p
      cases p with
      | char c => exact (List.any_map ..).trans (hescape c)
      | lone s => exact Bool.or_false _
    simp [quoteScript, Script.points, List.any_flatMap, hpoint, hquote]

/-- **A command line is refused exactly if one of its words is.** -/
theorem refused_line (words : List Script) : (line words).refused = words.any Script.refused := by
  rw [Script.refused_eq_any, line, Script.points_ofPoints,
    any_isRefused_intercalate (by decide), List.any_map]
  congr 1
  funext s
  rw [Function.comp, any_isRefused_quoteScript, Script.refused_eq_any]

end Text.Shell

end Disasm
