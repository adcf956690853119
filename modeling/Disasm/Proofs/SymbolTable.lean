import Disasm.Listing.SymbolTable
import Mathlib.Data.List.Induction
import Mathlib.Data.List.Sort
import Mathlib.Data.String.Basic
/-!
# Symbol tables — what is in them after some symbols were added

A table that symbols were added to one after the other holds each name
once, at the place where it came first (`pairwise_addAll`), with the
address and the line that came last (`find?_addAll`). In address order it
holds the same symbols, and of two of them the one with the smaller
address comes first, or the one with the smaller name if the addresses are
the same (`strict_sorted`).
-/

namespace Disasm.SymbolTable

variable {s : Symbol} {ss : List Symbol} {a b name : String}

/-- The names of a table in the order it keeps them. -/
def names (t : SymbolTable) : List String :=
  t.symbols.map (·.name)

/-! ## One symbol more -/

theorem find?_insert (s : Symbol) (ss : List Symbol) (name : String) :
    (insert s ss).find? (·.name = name) =
      if s.name = name then some s else ss.find? (·.name = name) := by
  induction ss with
  | nil =>
    by_cases hs : s.name = name
    · simp [insert, hs]
    · simp [insert, hs]
  | cons t rest ih =>
    rw [insert]
    by_cases hst : t.name = s.name
    · by_cases hs : s.name = name
      · simp [hst, hs]
      · simp [hst, hs]
    · rw [if_neg hst, List.find?_cons, List.find?_cons, ih]
      by_cases ht : t.name = name
      · have hs : ¬s.name = name := fun h => hst (ht.trans h.symm)
        simp [ht, hs]
      · simp [ht]

/-- **A symbol that is added answers for its name from then on**, and for no
other. -/
theorem find?_add (t : SymbolTable) (s : Symbol) (name : String) :
    (t.add s).find? name = if s.name = name then some s else t.find? name :=
  find?_insert s t.symbols name

/-- A name keeps its place, and a new one comes last. -/
theorem names_add (t : SymbolTable) (s : Symbol) :
    (t.add s).names = if s.name ∈ t.names then t.names else t.names ++ [s.name] := by
  have hinsert : ∀ ss : List Symbol, (insert s ss).map (·.name) =
      if s.name ∈ ss.map (·.name) then ss.map (·.name) else ss.map (·.name) ++ [s.name] := by
    intro ss
    induction ss with
    | nil => rfl
    | cons t rest ih =>
      rw [insert]
      by_cases hst : t.name = s.name
      · simp [hst]
      · have hne : ¬s.name = t.name := fun h => hst h.symm
        rw [if_neg hst, List.map_cons, ih]
        by_cases hmem : s.name ∈ rest.map (·.name)
        · simp [hmem]
        · simp [hmem, hne]
  exact hinsert t.symbols

/-! ## Many symbols -/

/-- The table that symbols were added to one after the other. -/
def addAll (ss : List Symbol) : SymbolTable :=
  ss.foldl add {}

theorem addAll_concat (ss : List Symbol) (s : Symbol) : addAll (ss ++ [s]) = (addAll ss).add s := by
  rw [addAll, List.foldl_append]
  rfl

/-- **Of several symbols of one name the last is in the table.** -/
theorem find?_addAll (ss : List Symbol) (name : String) :
    (addAll ss).find? name = ss.reverse.find? (·.name = name) := by
  induction ss using List.reverseRecOn with
  | nil => rfl
  | append_singleton ss s ih =>
    rw [addAll_concat, find?_add, ih, List.reverse_append]
    by_cases hs : s.name = name
    · simp [hs]
    · simp [hs]

/-- Of the symbols of its name, this is the last that was added. -/
def Latest (ss : List Symbol) (s : Symbol) : Prop :=
  ∃ before rest, ss = before ++ s :: rest ∧ s.name ∉ rest.map (·.name)

theorem Latest.mem (h : Latest ss s) : s ∈ ss := by
  obtain ⟨before, rest, rfl, -⟩ := h
  simp

/-- **A table answers for a name by its last definition.** -/
theorem find?_addAll_iff : (addAll ss).find? name = some s ↔ Latest ss s ∧ s.name = name := by
  rw [find?_addAll, List.find?_eq_some_iff_append]
  constructor
  · rintro ⟨hname, later, earlier, hss, hlater⟩
    have hname : s.name = name := by simpa using hname
    refine ⟨⟨earlier.reverse, later.reverse, ?_, ?_⟩, hname⟩
    · rw [← List.reverse_reverse ss, hss]
      simp
    · rw [List.map_reverse, List.mem_reverse, List.mem_map]
      rintro ⟨other, hother, hsame⟩
      have hne := hlater other hother
      simp [hsame, hname] at hne
  · rintro ⟨⟨before, rest, rfl, hrest⟩, rfl⟩
    refine ⟨by simp, rest.reverse, before.reverse, by simp, fun other hother => ?_⟩
    have hne : other.name ≠ s.name := fun hsame =>
      hrest (List.mem_map.2 ⟨other, List.mem_reverse.1 hother, hsame⟩)
    simpa using hne

/-- Two last definitions of one name are the same. -/
theorem Latest.eq {other : Symbol} (h : Latest ss s) (hother : Latest ss other)
    (hname : other.name = s.name) : other = s := by
  have hs := find?_addAll_iff.2 ⟨h, rfl⟩
  have hsame := find?_addAll_iff.2 ⟨hother, hname⟩
  exact Option.some.inj (hsame.symm.trans hs)

theorem mem_names_addAll : name ∈ (addAll ss).names ↔ name ∈ ss.map (·.name) := by
  induction ss using List.reverseRecOn with
  | nil => rfl
  | append_singleton ss s ih =>
    rw [addAll_concat, names_add, List.map_append, List.mem_append, ← ih]
    split
    · rename_i hmem
      constructor
      · exact Or.inl
      · rintro (h | h)
        · exact h
        · rw [List.mem_singleton.1 h]
          exact hmem
    · rw [List.mem_append]
      rfl

/-- In a list of symbols the first of one name comes before all of another. -/
def Precedes (ss : List Symbol) (a b : String) : Prop :=
  ∃ before s after, ss = before ++ s :: after ∧ s.name = a ∧ a ≠ b ∧ b ∉ before.map (·.name)

theorem Precedes.concat (h : Precedes ss a b) (s : Symbol) : Precedes (ss ++ [s]) a b := by
  obtain ⟨before, first, after, rfl, hfirst, hne, hb⟩ := h
  exact ⟨before, first, after ++ [s], by simp, hfirst, hne, hb⟩

/-- A name that is there precedes one that is not. -/
theorem precedes_of_not_mem (ha : a ∈ ss.map (·.name)) (hb : b ∉ ss.map (·.name)) :
    Precedes ss a b := by
  obtain ⟨s, hs, rfl⟩ := List.mem_map.1 ha
  obtain ⟨before, after, rfl⟩ := List.append_of_mem hs
  rw [List.map_append, List.mem_append, List.map_cons, List.mem_cons, not_or, not_or] at hb
  exact ⟨before, s, after, rfl, rfl, fun h => hb.2.1 h.symm, hb.1⟩

/-- **Names stand in the order in which they came first.** -/
theorem pairwise_addAll (ss : List Symbol) : (addAll ss).names.Pairwise (Precedes ss) := by
  induction ss using List.reverseRecOn with
  | nil => exact List.Pairwise.nil
  | append_singleton ss s ih =>
    have hold : (addAll ss).names.Pairwise (Precedes (ss ++ [s])) := ih.imp fun h => h.concat s
    rw [addAll_concat, names_add]
    split
    · exact hold
    · rename_i hnew
      rw [mem_names_addAll] at hnew
      refine List.pairwise_append.2 ⟨hold, List.pairwise_singleton _ _, fun a ha b hb => ?_⟩
      rw [mem_names_addAll] at ha
      rw [List.mem_singleton.1 hb]
      exact (precedes_of_not_mem ha hnew).concat s

theorem nodup_addAll (ss : List Symbol) : (addAll ss).names.Nodup :=
  (pairwise_addAll ss).imp fun ⟨_, _, _, _, _, hne, _⟩ => hne

/-- The order has not been worked out for a table that was just made. -/
theorem ordered_addAll (ss : List Symbol) : (addAll ss).ordered = none := by
  induction ss using List.reverseRecOn with
  | nil => rfl
  | append_singleton ss s _ =>
    rw [addAll_concat]
    rfl

/-! ## Symbols by address -/

/-- Of two symbols the first comes before the second: by address, then by
name. -/
def Before (x y : Int × String) : Prop :=
  x.1 < y.1 ∨ x.1 = y.1 ∧ x.2 < y.2

theorem notAfter_iff (x y : Int × String) :
    notAfter x y = true ↔ x.1 < y.1 ∨ x.1 = y.1 ∧ x.2 ≤ y.2 := by
  rw [notAfter, Bool.or_eq_true, Bool.and_eq_true, decide_eq_true_iff, beq_iff_eq,
    Bool.not_eq_true', decide_eq_false_iff_not, not_lt]

theorem notAfter_trans (x y z : Int × String) (hxy : notAfter x y = true)
    (hyz : notAfter y z = true) : notAfter x z = true := by
  rw [notAfter_iff] at hxy hyz ⊢
  rcases hxy with hxy | ⟨hxy, hnames⟩
  · rcases hyz with hyz | ⟨hyz, -⟩
    · exact .inl (by omega)
    · exact .inl (by omega)
  · rcases hyz with hyz | ⟨hyz, hnames'⟩
    · exact .inl (by omega)
    · exact .inr ⟨by omega, hnames.trans hnames'⟩

theorem notAfter_total (x y : Int × String) : (notAfter x y || notAfter y x) = true := by
  rw [Bool.or_eq_true, notAfter_iff, notAfter_iff]
  rcases lt_trichotomy x.1 y.1 with h | h | h
  · exact .inl (.inl h)
  · rcases le_total x.2 y.2 with hnames | hnames
    · exact .inl (.inr ⟨h, hnames⟩)
    · exact .inr (.inr ⟨h.symm, hnames⟩)
  · exact .inr (.inl h)

/-- **In address order each symbol comes before the next.** -/
theorem strict_sorted {t : SymbolTable} (h : t.names.Nodup) : t.sorted.Pairwise Before := by
  have hsorted : t.sorted.Pairwise fun x y => notAfter x y = true :=
    List.pairwise_mergeSort notAfter_trans notAfter_total _
  have hnames : t.sorted.Pairwise fun x y => x.2 ≠ y.2 := by
    refine List.Pairwise.of_map Prod.snd (fun _ _ h => h) ?_
    have hperm : (t.sorted.map Prod.snd).Perm t.names := by
      have hsame := (List.mergeSort_perm (t.symbols.map fun s => (s.address, s.name))
        notAfter).map Prod.snd
      rwa [List.map_map] at hsame
    exact hperm.nodup_iff.2 h
  refine hsorted.imp₂ (fun x y hle hne => ?_) hnames
  rcases (notAfter_iff x y).1 hle with hlt | ⟨heq, hle⟩
  · exact .inl hlt
  · exact .inr ⟨heq, lt_of_le_of_ne hle hne⟩

/-- **The symbols in address order are those of the table**, each with its
address. -/
theorem mem_sorted {t : SymbolTable} (h : t.names.Nodup) (address : Int) :
    (address, name) ∈ t.sorted ↔ t.address? name = some address := by
  rw [sorted, List.mem_mergeSort, List.mem_map, address?, Option.map_eq_some_iff]
  constructor
  · rintro ⟨s, hs, heq⟩
    cases heq
    refine ⟨s, ?_, rfl⟩
    rcases hfound : t.find? s.name with _ | found
    · exact absurd (List.find?_eq_none.1 hfound s hs) (by simp)
    · have hname : found.name = s.name := by simpa using List.find?_some hfound
      have hsame : found = s :=
        List.inj_on_of_nodup_map h (List.mem_of_find?_eq_some hfound) hs hname
      rw [hsame]
  · rintro ⟨s, hs, rfl⟩
    have hname : s.name = name := by simpa using List.find?_some hs
    exact ⟨s, List.mem_of_find?_eq_some hs, by rw [hname]⟩

/-- What a table that was just made gives in address order. -/
theorem byAddress_addAll (ss : List Symbol) : (addAll ss).byAddress.1 = (addAll ss).sorted := by
  rw [byAddress, ordered_addAll]

end Disasm.SymbolTable
