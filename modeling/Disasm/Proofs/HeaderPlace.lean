import Disasm.Proofs.HeaderLines
import Disasm.Text.Cut
/-!
# Header places — where the line of a symbol is

The index numbers a header by the line ends before it, whichever they
are. A pane shows a text in blocks, which end at line feeds and nowhere
else. `Stands` says where a piece is in a text, for any notion of an end,
so that both countings can be compared. The block with the number of a
symbol is its header just in case all line ends up to the one behind the
header are line feeds (`lands_iff_line_feeds`).
-/

namespace Disasm

namespace Text

variable {p : Char → Bool} {cs before piece after : List Char} {i : Nat}

/-! ## Pieces between ends -/

/-- A piece stands in a text: in front of it is nothing or an end, behind it
is nothing or an end, and there is none in it. -/
structure Stands (p : Char → Bool) (before piece after : List Char) : Prop where
  start : ∀ c, before.getLast? = some c → p c = true
  plain : ∀ c ∈ piece, p c = false
  stop : ∀ c, after.head? = some c → p c = true

theorem length_splitOnP (p : Char → Bool) (cs : List Char) :
    (cs.splitOnP p).length = cs.countP p + 1 := by
  induction cs with
  | nil => rfl
  | cons c cs ih =>
    rw [List.splitOnP_cons_eq_if_modifyHead, List.countP_cons]
    split
    · rw [List.length_cons, ih]
    · rw [List.length_modifyHead, ih, Nat.add_zero]

/-- A text is a single piece, or its first piece with an end and a rest behind
it. -/
theorem plain_or_cut (p : Char → Bool) (cs : List Char) :
    (∀ c ∈ cs, p c = false) ∨
      ∃ first sep rest, cs = first ++ sep :: rest ∧ p sep = true ∧ ∀ c ∈ first, p c = false := by
  rcases hfind : cs.find? p with _ | sep
  · exact .inl fun c hc => by simpa using List.find?_eq_none.1 hfind c hc
  · obtain ⟨hsep, first, rest, hcs, hfirst⟩ := List.find?_eq_some_iff_append.1 hfind
    exact .inr ⟨first, sep, rest, hcs, hsep, fun c hc => by simpa using hfirst c hc⟩

theorem stands_of_splitOnP (h : (cs.splitOnP p)[i]? = some piece) :
    ∃ before after, cs = before ++ piece ++ after ∧ Stands p before piece after ∧
      before.countP p = i := by
  induction hlength : cs.length using Nat.strong_induction_on generalizing cs i with
  | _ n ih =>
    rcases plain_or_cut p cs with hplain | ⟨first, sep, rest, rfl, hsep, hfirst⟩
    · rw [List.splitOnP_eq_singleton hplain, List.getElem?_singleton] at h
      split at h
      · rename_i hi
        cases h
        exact ⟨[], [], by simp, ⟨by simp, hplain, by simp⟩, by simp [hi]⟩
      · cases h
    rw [List.splitOnP_append_cons_of_forall_mem hfirst sep hsep] at h
    cases i with
    | zero =>
      cases h
      exact ⟨[], sep :: rest, by simp, ⟨by simp, hfirst, by simpa using hsep⟩, by simp⟩
    | succ i =>
      have hshorter : rest.length < n := by
        rw [← hlength, List.length_append, List.length_cons]
        omega
      obtain ⟨front, after, rfl, hstands, hcount⟩ := ih _ hshorter h rfl
      refine ⟨first ++ sep :: front, after, by simp, ⟨fun c hc => ?_, hstands.plain,
        hstands.stop⟩, ?_⟩
      · rw [List.getLast?_append_of_ne_nil _ (List.cons_ne_nil _ _)] at hc
        rcases front.eq_nil_or_concat with rfl | ⟨init, last, rfl⟩
        · cases hc
          exact hsep
        · rw [List.concat_eq_append, ← List.cons_append, List.getLast?_concat] at hc
          exact hstands.start c (by rw [List.concat_eq_append, List.getLast?_concat, hc])
      · have hnone : first.countP p = 0 :=
          List.countP_eq_zero.2 fun c hc => by simp [hfirst c hc]
        rw [List.countP_append, List.countP_cons_of_pos hsep, hcount, hnone]
        omega

theorem Stands.splitOnP (h : Stands p before piece after) :
    ((before ++ piece ++ after).splitOnP p)[before.countP p]? = some piece := by
  have hfirst : ((piece ++ after).splitOnP p)[0]? = some piece := by
    cases after with
    | nil =>
      rw [List.append_nil, List.splitOnP_eq_singleton h.plain]
      rfl
    | cons sep rest =>
      rw [List.splitOnP_append_cons_of_forall_mem h.plain sep (h.stop sep rfl)]
      rfl
  rcases before.eq_nil_or_concat with rfl | ⟨front, sep, rfl⟩
  · exact hfirst
  · rw [List.concat_eq_append] at h ⊢
    have hsep : p sep = true := h.start sep List.getLast?_concat
    have hcount : (front ++ [sep]).countP p = (front.splitOnP p).length := by
      rw [length_splitOnP, List.countP_append, List.countP_singleton, if_pos hsep]
    rw [hcount, List.append_assoc, List.append_assoc, List.singleton_append,
      List.splitOnP_append_cons _ _ hsep, List.getElem?_append_right le_rfl, Nat.sub_self]
    exact hfirst

/-- **The pieces of a text are counted by the ends before them.** -/
theorem splitOnP_eq_some_iff : (cs.splitOnP p)[i]? = some piece ↔
    ∃ before after, cs = before ++ piece ++ after ∧ Stands p before piece after ∧
      before.countP p = i := by
  constructor
  · exact stands_of_splitOnP
  · rintro ⟨before, after, rfl, hstands, rfl⟩
    exact hstands.splitOnP

/-- The ends before a piece tell where it is. -/
theorem Stands.before_eq {front other back : List Char} (h : Stands p before piece after)
    (hother : Stands p front other back) (hcs : before ++ piece ++ after = front ++ other ++ back)
    (hcount : before.countP p = front.countP p) : before = front := by
  -- What one of them has more would hold no end, and yet end with one.
  have hnone : ∀ {short gap : List Char},
      (∀ c, (short ++ gap).getLast? = some c → p c = true) →
      (short ++ gap).countP p = short.countP p → gap = [] := by
    intro short gap hlast hsame
    rcases gap.eq_nil_or_concat with rfl | ⟨init, last, rfl⟩
    · rfl
    · rw [List.concat_eq_append] at hlast hsame ⊢
      have hp : p last = true := by
        refine hlast last ?_
        rw [← List.append_assoc, List.getLast?_concat]
      rw [List.countP_append, List.countP_append, List.countP_singleton, if_pos hp] at hsame
      omega
  rw [List.append_assoc, List.append_assoc] at hcs
  rcases List.append_eq_append_iff.1 hcs with ⟨gap, rfl, -⟩ | ⟨gap, rfl, -⟩
  · rw [hnone hother.start hcount.symm, List.append_nil]
  · rw [hnone h.start hcount, List.append_nil]

/-! ## Lines -/

/-- Without carriage returns, lines are the pieces between line ends, but for
an empty one at the end. -/
theorem linesFrom_splitOnP (held cs : List Char) (hcr : '\r' ∉ cs) :
    ∃ tail, (cs.splitOnP isLineEnd).modifyHead (held.reverse ++ ·) = linesFrom held cs ++ tail ∧
      ∀ piece ∈ tail, piece = [] := by
  fun_induction linesFrom held cs with
  | case1 held hempty =>
    rw [List.isEmpty_iff.1 hempty]
    exact ⟨[[]], rfl, by simp⟩
  | case2 held hopen => exact ⟨[], by simp, by simp⟩
  | case3 held rest ih => exact absurd List.mem_cons_self hcr
  | case4 held c rest hpair hend ih =>
    obtain ⟨tail, htail, hempty⟩ := ih fun h => hcr (List.mem_cons_of_mem c h)
    refine ⟨tail, ?_, hempty⟩
    rw [List.splitOnP_cons_eq_if_modifyHead, if_pos hend, List.modifyHead_cons, List.append_nil,
      List.cons_append, ← htail]
    exact congrArg (held.reverse :: ·) (congrFun List.modifyHead_id _).symm
  | case5 held c rest hpair hplain ih =>
    obtain ⟨tail, htail, hempty⟩ := ih fun h => hcr (List.mem_cons_of_mem c h)
    refine ⟨tail, ?_, hempty⟩
    rw [List.splitOnP_cons_eq_if_modifyHead, if_neg hplain, List.modifyHead_modifyHead, ← htail]
    simp [Function.comp_def]

/-- **A line that is not empty stands behind as many line ends as its number
says.** -/
theorem lines_eq_some_iff {text line : String} (hcr : '\r' ∉ text.toList) (hline : line ≠ "") :
    (lines text)[i]? = some line ↔
      ∃ before after, text.toList = before ++ line.toList ++ after ∧
        Stands isLineEnd before line.toList after ∧ before.countP isLineEnd = i := by
  have hne : line.toList ≠ [] := by rwa [Ne, String.toList_eq_nil_iff]
  obtain ⟨tail, htail, hempty⟩ := linesFrom_splitOnP [] text.toList hcr
  have hpieces : text.toList.splitOnP isLineEnd = linesFrom [] text.toList ++ tail := by
    rw [← htail]
    exact (congrFun List.modifyHead_id _).symm
  have hback : (lines text)[i]? = some line ↔
      (linesFrom [] text.toList)[i]? = some line.toList := by
    rw [lines, List.getElem?_map, Option.map_eq_some_iff]
    constructor
    · rintro ⟨cs, hcs, rfl⟩
      rwa [String.toList_ofList]
    · exact fun h => ⟨_, h, String.ofList_toList⟩
  rw [hback, ← splitOnP_eq_some_iff, hpieces, List.getElem?_append]
  split
  · rfl
  · rename_i hlast
    rw [List.getElem?_eq_none (Nat.not_lt.1 hlast)]
    refine iff_of_false (by simp) fun h => hne (hempty _ (List.mem_of_getElem? h))

/-- **A block stands behind as many line feeds as its number says.** -/
theorem splitAt_eq_some_iff {text block : String} :
    (splitAt '\n' text)[i]? = some block ↔
      ∃ before after, text.toList = before ++ block.toList ++ after ∧
        Stands (· == '\n') before block.toList after ∧ before.countP (· == '\n') = i := by
  rw [← splitOnP_eq_some_iff, ← List.splitOn_eq_splitOnP, splitAt, List.getElem?_map,
    Option.map_eq_some_iff]
  constructor
  · rintro ⟨cs, hcs, rfl⟩
    rwa [String.toList_ofList]
  · exact fun h => ⟨_, h, String.ofList_toList⟩

end Text

namespace Listing

open Text

variable {text line name : String} {digits : List Char}

/-- Nothing in a header ends a line. -/
theorem Header.plain (h : Header line digits name) : ∀ c ∈ line.toList, isLineEnd c = false := by
  have hgraphic : ∀ c : Char, 0x20 ≤ c.toNat → c.toNat < 0x80 → isLineEnd c = false := by
    intro c hlow hhigh
    simp only [isLineEnd, Bool.or_eq_false_iff, Bool.and_eq_false_iff, decide_eq_false_iff_not,
      beq_eq_false_iff_ne]
    omega
  have hrange : ∀ {c low high : Char}, low ≤ c ∧ c ≤ high → 0x20 ≤ low.toNat →
      high.toNat < 0x80 → isLineEnd c = false := by
    rintro c low high ⟨hlow, hhigh⟩ hfrom hto
    have hle : low.toNat ≤ c.toNat := UInt32.le_iff_toNat_le.1 hlow
    have hge : c.toNat ≤ high.toNat := UInt32.le_iff_toNat_le.1 hhigh
    exact hgraphic c (by omega) (by omega)
  intro c hc
  rw [h.whole, List.mem_append, List.mem_cons, List.mem_cons, List.mem_append] at hc
  rcases hc with hc | rfl | rfl | hc | hc
  · rcases h.digits c hc with hc | hc | hc
    · exact hrange hc (by decide) (by decide)
    · exact hrange hc (by decide) (by decide)
    · exact hrange hc (by decide) (by decide)
  · decide
  · decide
  · rcases h.name c hc with hc | hc | hc | rfl | rfl | rfl
    · exact hrange hc (by decide) (by decide)
    · exact hrange hc (by decide) (by decide)
    · exact hrange hc (by decide) (by decide)
    · decide
    · decide
    · decide
  · simp only [List.mem_cons, List.not_mem_nil, or_false] at hc
    rcases hc with rfl | rfl
    · decide
    · decide

theorem Header.ne_empty (h : Header line digits name) : line ≠ "" := by
  intro hempty
  have hwhole := h.whole
  rw [hempty] at hwhole
  simp at hwhole

/-- A header stands somewhere in a text, with an address written by some
digits. -/
def HeaderAt (text : String) (before : List Char) (header : String) (after digits : List Char)
    (name : String) : Prop :=
  text.toList = before ++ header.toList ++ after ∧ Stands isLineEnd before header.toList after ∧
    Header header digits name

/-- A line that announces a name is a header behind as many line ends. -/
theorem announces_iff_headerAt {i : Nat} (hcr : '\r' ∉ text.toList) :
    Announces text i digits name ↔
      ∃ before header after, HeaderAt text before header after digits name ∧
        before.countP isLineEnd = i := by
  constructor
  · rintro ⟨header, hline, hheader⟩
    obtain ⟨before, after, htext, hstands, hcount⟩ :=
      (lines_eq_some_iff hcr hheader.ne_empty).1 hline
    exact ⟨before, header, after, ⟨htext, hstands, hheader⟩, hcount⟩
  · rintro ⟨before, header, after, ⟨htext, hstands, hheader⟩, hcount⟩
    exact ⟨header, (lines_eq_some_iff hcr hheader.ne_empty).2
      ⟨before, after, htext, hstands, hcount⟩, hheader⟩

/-- A name of an index has a last header. -/
theorem exists_last_announces (h : name ∈ (index text).names) :
    ∃ i digits, Announces text i digits name ∧
      ∀ j other, Announces text j other name → j ≤ i := by
  obtain ⟨s, hs, rfl⟩ := List.mem_map.1 h
  obtain ⟨found, hfound⟩ : ∃ found, (index text).find? s.name = some found :=
    Option.isSome_iff_exists.1 (List.find?_isSome.2 ⟨s, hs, by simp⟩)
  rw [index_eq, SymbolTable.find?_addAll_iff] at hfound
  obtain ⟨hlatest, hname⟩ := hfound
  obtain ⟨i, digits, hannounces, -, hline⟩ := mem_announced.1 hlatest.mem
  rw [hname] at hannounces
  refine ⟨i, digits, hannounces, fun j other hother => ?_⟩
  obtain ⟨before, rest, happ, hrest⟩ := hlatest
  have hmem : (⟨s.name, valueOf other, j⟩ : Symbol) ∈ announced text :=
    mem_announced.2 ⟨j, other, hother, rfl, rfl⟩
  have hpairs := pairwise_announced text
  rw [happ, List.pairwise_append] at hpairs
  rw [happ, List.mem_append, List.mem_cons] at hmem
  rcases hmem with hmem | hsame | hmem
  · have hlt := hpairs.2.2 _ hmem found List.mem_cons_self
    dsimp only at hlt
    omega
  · rw [← hsame] at hline
    dsimp only at hline
    omega
  · rw [hname] at hrest
    exact absurd (List.mem_map_of_mem hmem) hrest

/-! ## Blocks -/

/-- The block with the number of a symbol is a header of it, with the address
that the index gives. -/
def Lands (text name : String) : Prop :=
  ∃ (i : Nat) (block : String) (digits : List Char),
    (index text).line? name = some (i : Int) ∧ (splitAt '\n' text)[i]? = some block ∧
      Header block digits name ∧ (index text).address? name = some (valueOf digits : Int)

theorem countP_le_lineEnds (cs : List Char) : cs.countP (· == '\n') ≤ cs.countP isLineEnd := by
  refine List.countP_mono_left fun c _ hc => ?_
  rw [eq_of_beq hc]
  decide

/-- As many line feeds as line ends: they are the same. -/
theorem lineFeeds_iff_countP (cs : List Char) :
    (∀ c ∈ cs, isLineEnd c = true → c = '\n') ↔
      cs.countP isLineEnd ≤ cs.countP (· == '\n') := by
  induction cs with
  | nil => simp
  | cons c cs ih =>
    have hle := countP_le_lineEnds cs
    rw [List.forall_mem_cons, ih, List.countP_cons, List.countP_cons]
    by_cases hfeed : c = '\n'
    · rw [hfeed]
      have hend : isLineEnd '\n' = true := by decide
      simp [hend]
    · by_cases hend : isLineEnd c = true
      · simp [hfeed, hend]
        omega
      · simp [hfeed, hend]

/-- **A jump lands on the header of a symbol just in case every line end in
front of the header, and the one behind it, is a line feed.** The header is
the last one of the name: it has the address that the index gives, and its
number is that of the line ends in front of it. -/
theorem lands_iff_line_feeds (hcr : '\r' ∉ text.toList) (hname : name ∈ (index text).names) :
    ∃ before header after digits, HeaderAt text before header after digits name ∧
      (index text).address? name = some (valueOf digits : Int) ∧
      (index text).line? name = some (before.countP isLineEnd : Int) ∧
      (Lands text name ↔
        ∀ c ∈ before ++ after.head?.toList, isLineEnd c = true → c = '\n') := by
  obtain ⟨i, digits, hannounces, hlast⟩ := exists_last_announces hname
  have hfound := find?_index hannounces hlast
  obtain ⟨before, header, after, hplace, rfl⟩ := (announces_iff_headerAt hcr).1 hannounces
  have haddress : (index text).address? name = some (valueOf digits : Int) := by
    rw [SymbolTable.address?, hfound]
    rfl
  have hline : (index text).line? name = some (before.countP isLineEnd : Int) := by
    rw [SymbolTable.line?, hfound]
    rfl
  refine ⟨before, header, after, digits, hplace, haddress, hline, ?_⟩
  obtain ⟨htext, hstands, hheader⟩ := hplace
  rw [List.forall_mem_append]
  constructor
  · rintro ⟨j, block, others, hj, hblock, hheading, -⟩
    obtain rfl : j = before.countP isLineEnd := by
      rw [hline] at hj
      exact_mod_cast (Option.some.inj hj).symm
    obtain ⟨front, back, hcut, hfeeds, hcount⟩ := splitAt_eq_some_iff.1 hblock
    -- A header between line feeds is a line, so its number is at most that of the last header.
    have hends : Stands isLineEnd front block.toList back := by
      refine ⟨fun c hc => ?_, hheading.plain, fun c hc => ?_⟩
      · rw [eq_of_beq (hfeeds.start c hc)]
        decide
      · rw [eq_of_beq (hfeeds.stop c hc)]
        decide
    have hle := hlast _ _ ((announces_iff_headerAt hcr).2
      ⟨front, block, back, ⟨hcut, hends, hheading⟩, rfl⟩)
    have hfew := countP_le_lineEnds front
    obtain rfl : before = front :=
      hstands.before_eq hends (htext.symm.trans hcut) (by omega)
    have hlines : (lines text)[before.countP isLineEnd]? = some block :=
      (lines_eq_some_iff hcr hheading.ne_empty).2 ⟨before, back, hcut, hends, rfl⟩
    obtain rfl : header = block := by
      rw [(lines_eq_some_iff hcr hheader.ne_empty).2 ⟨before, after, htext, hstands, rfl⟩] at hlines
      exact Option.some.inj hlines
    have hback : after = back := List.append_cancel_left (htext.symm.trans hcut)
    refine ⟨(lineFeeds_iff_countP before).2 hcount.ge, fun c hc _ => ?_⟩
    rw [hback] at hc
    exact eq_of_beq (hfeeds.stop c (by simpa using hc))
  · rintro ⟨hbefore, hafter⟩
    have hfeeds : Stands (· == '\n') before header.toList after := by
      refine ⟨fun c hc => ?_, fun c hc => ?_, fun c hc => ?_⟩
      · exact beq_of_eq (hbefore c (List.mem_of_getLast? hc) (hstands.start c hc))
      · rw [beq_eq_false_iff_ne]
        rintro rfl
        exact absurd (hheader.plain _ hc) (by decide)
      · exact beq_of_eq (hafter c (by simpa using hc) (hstands.stop c hc))
    have hcount : before.countP (· == '\n') = before.countP isLineEnd :=
      le_antisymm (countP_le_lineEnds before) ((lineFeeds_iff_countP before).1 hbefore)
    exact ⟨_, header, digits, hline,
      splitAt_eq_some_iff.2 ⟨before, after, htext, hfeeds, hcount⟩, hheader, haddress⟩

/-- With line feeds alone a jump to the second of two symbols lands. -/
theorem lands_iff_line_feeds_second :
    '\r' ∉ "\n1f <a>:\n\n2A <b>:".toList ∧ "b" ∈ (index "\n1f <a>:\n\n2A <b>:").names ∧
      Lands "\n1f <a>:\n\n2A <b>:" "b" := by
  have hcr : '\r' ∉ "\n1f <a>:\n\n2A <b>:".toList := by decide
  have hname : "b" ∈ (index "\n1f <a>:\n\n2A <b>:").names := by decide +kernel
  have hall : "\n1f <a>:\n\n2A <b>:".toList.all (fun c => !isLineEnd c || c == '\n') = true := by
    decide
  have hfeeds : ∀ c ∈ "\n1f <a>:\n\n2A <b>:".toList, isLineEnd c = true → c = '\n' := by
    intro c hc hend
    simpa [hend] using List.all_eq_true.1 hall c hc
  obtain ⟨before, header, after, digits, ⟨htext, -⟩, -, -, hlands⟩ :=
    lands_iff_line_feeds hcr hname
  refine ⟨hcr, hname, hlands.2 fun c hc => hfeeds c ?_⟩
  rw [htext, List.append_assoc, List.mem_append, List.mem_append]
  rcases List.mem_append.1 hc with hc | hc
  · exact .inl hc
  · exact .inr (.inr (List.mem_of_mem_head? (by simpa using hc)))

/-- **A form feed makes a jump miss**: the one to the second symbol lands on
the header of the third. -/
theorem jump_misses_behind_form_feed :
    ∃ text, '\r' ∉ text.toList ∧ "b" ∈ (index text).names ∧ ¬Lands text "b" ∧
      (index text).line? "b" = some 3 ∧ (splitAt '\n' text)[3]? = some "2 <c>:" := by
  have hline : (index "0 <a>:\n\x0c\n1 <b>:\n2 <c>:").line? "b" = some 3 := by decide +kernel
  have hthird : (splitAt '\n' "0 <a>:\n\x0c\n1 <b>:\n2 <c>:")[3]? = some "2 <c>:" := by
    decide +kernel
  have hheader : header? "2 <c>:".toList = some (2, "c") := by decide +kernel
  refine ⟨"0 <a>:\n\x0c\n1 <b>:\n2 <c>:", by decide, by decide +kernel, ?_, hline, hthird⟩
  rintro ⟨i, block, digits, hi, hblock, hheading, -⟩
  obtain rfl : i = 3 := by
    rw [hline] at hi
    exact_mod_cast (Option.some.inj hi).symm
  rw [hthird] at hblock
  cases hblock
  have hother := (header?_eq_some_iff _ _ _).2 ⟨digits, hheading, rfl⟩
  rw [hheader] at hother
  simp at hother

end Listing

end Disasm
