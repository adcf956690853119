import Disasm.Proofs.SymbolTable
import Mathlib.Data.List.Dedup
/-!
# Table answers — what a symbol table says between its updates

A table is used by adding symbols and asking questions in any order. Two
of the questions leave something behind: the address order is worked out
once and kept. `Kept` is the invariant that makes this harmless. Whatever
was done before, the order that is kept is the one that would be worked
out now (`Kept.after`), so every answer is the one that the last
definitions of the names give (`answers_fit_last_definitions`). What such
an answer is, `Fits` says without any table.
-/

namespace Disasm.SymbolTable

/-! ## Uses and answers -/

/-- What is done with a table: a symbol is added or a question is asked. -/
inductive Use where
  | add (s : Symbol)
  | address (name : String)
  | contains (name : String)
  | line (name : String)
  | byAddress
  | symbolAt (address : Int)
  | items
  | size
  deriving DecidableEq

/-- What comes of a use. -/
inductive Answer where
  | added
  | address (a : Option Int)
  | contained (b : Bool)
  | line (n : Option Int)
  | ordered (pairs : List (Int × String))
  | symbol (name : Option String)
  | items (entries : List (String × Int))
  | size (n : Nat)
  deriving DecidableEq

/-- What a table answers to a use, and the table after it. -/
def respond (t : SymbolTable) : Use → Answer × SymbolTable
  | .add s => (.added, t.add s)
  | .address name => (.address (t.address? name), t)
  | .contains name => (.contained (t.find? name).isSome, t)
  | .line name => (.line (t.line? name), t)
  | .byAddress => (.ordered t.byAddress.1, t.byAddress.2)
  | .symbolAt address => (.symbol (t.symbolAt address).1, (t.symbolAt address).2)
  | .items => (.items (t.symbols.map fun s => (s.name, s.address)), t)
  | .size => (.size t.size, t)

/-- The table that is there after some uses, beginning with an empty one. -/
def after (uses : List Use) : SymbolTable :=
  uses.foldl (fun t u => (t.respond u).2) {}

/-- The symbol that a use adds. -/
def Use.symbol? : Use → Option Symbol
  | .add s => some s
  | _ => none

/-- The symbols that were added by some uses, in their order. -/
def added (uses : List Use) : List Symbol :=
  uses.filterMap Use.symbol?

/-! ## What an answer should be -/

/-- The names of the last definitions with their addresses, each name once
and each pair before the next. -/
structure Ordered (ss : List Symbol) (pairs : List (Int × String)) : Prop where
  strict : pairs.Pairwise Before
  once : (pairs.map (·.2)).Nodup
  mem_iff : ∀ address name, (address, name) ∈ pairs ↔
    ∃ s, Latest ss s ∧ s.name = name ∧ s.address = address

/-- A symbol that starts at or below an address, and no such symbol comes
after it. -/
structure Closest (ss : List Symbol) (address : Int) (s : Symbol) : Prop where
  latest : Latest ss s
  le : s.address ≤ address
  greatest : ∀ other, Latest ss other → other.address ≤ address →
    other = s ∨ Before (other.address, other.name) (s.address, s.name)

/-- An answer is the one that the last definitions of some symbols give. -/
def Fits (ss : List Symbol) : Use → Answer → Prop
  | .add _, .added => True
  | .address name, .address r => ∀ a, r = some a ↔ ∃ s, Latest ss s ∧ s.name = name ∧ s.address = a
  | .contains name, .contained b => b = true ↔ ∃ s, Latest ss s ∧ s.name = name
  | .line name, .line r => ∀ n, r = some n ↔ ∃ s, Latest ss s ∧ s.name = name ∧ s.line = n
  | .byAddress, .ordered pairs => Ordered ss pairs
  | .symbolAt address, .symbol r =>
    (r = none ↔ ∀ s, Latest ss s → address < s.address) ∧
      ∀ name, r = some name ↔ ∃ s, Closest ss address s ∧ s.name = name
  | .items, .items entries =>
    (entries.map (·.1)).Pairwise (Precedes ss) ∧
      ∀ name address, (name, address) ∈ entries ↔
        ∃ s, Latest ss s ∧ s.name = name ∧ s.address = address
  | .size, .size n => n = (ss.map (·.name)).dedup.length
  | _, _ => False

/-! ## What is kept -/

variable {t : SymbolTable} {ss : List Symbol} {s : Symbol} {name : String}

/-- A table holds some symbols that were added, and an address order that it
keeps is that of these symbols. -/
structure Kept (ss : List Symbol) (t : SymbolTable) : Prop where
  symbols : t.symbols = (addAll ss).symbols
  ordered : t.ordered = none ∨ t.ordered = some t.sorted

theorem Kept.add (h : Kept ss t) (s : Symbol) : Kept (ss ++ [s]) (t.add s) where
  symbols := by
    rw [addAll_concat]
    exact congrArg (insert s) h.symbols
  ordered := .inl rfl

/-- **The order that a table gives is never an old one.** -/
theorem Kept.byAddress (h : Kept ss t) : t.byAddress.1 = t.sorted ∧ Kept ss t.byAddress.2 := by
  rw [SymbolTable.byAddress]
  rcases h.ordered with hnone | hsome
  · rw [hnone]
    exact ⟨rfl, h.symbols, .inr rfl⟩
  · rw [hsome]
    exact ⟨rfl, h⟩

theorem Kept.respond (h : Kept ss t) (u : Use) :
    Kept (ss ++ u.symbol?.toList) (t.respond u).2 := by
  -- A question adds nothing; two of them leave the order behind.
  have hasked : ∀ {u : Use}, u.symbol? = none → ss ++ u.symbol?.toList = ss := by
    intro u hu
    rw [hu, Option.toList_none, List.append_nil]
  cases u with
  | add s => exact h.add s
  | byAddress =>
    rw [hasked rfl]
    exact h.byAddress.2
  | symbolAt address =>
    rw [hasked rfl]
    exact h.byAddress.2
  | _ =>
    rw [hasked rfl]
    exact h

theorem Kept.after (uses : List Use) : Kept (added uses) (after uses) := by
  induction uses using List.reverseRecOn with
  | nil => exact ⟨rfl, .inl rfl⟩
  | append_singleton uses u ih =>
    have hstep := ih.respond u
    have hadded : added (uses ++ [u]) = added uses ++ u.symbol?.toList := by
      rw [added, List.filterMap_append, added]
      cases u <;> rfl
    rw [SymbolTable.after, List.foldl_append, hadded]
    exact hstep

/-! ## What a table knows -/

namespace Kept

theorem find?_iff (h : Kept ss t) : t.find? name = some s ↔ Latest ss s ∧ s.name = name := by
  rw [← find?_addAll_iff, SymbolTable.find?, SymbolTable.find?, h.symbols]

theorem address?_iff (h : Kept ss t) (a : Int) :
    t.address? name = some a ↔ ∃ s, Latest ss s ∧ s.name = name ∧ s.address = a := by
  simp only [SymbolTable.address?, Option.map_eq_some_iff, h.find?_iff, and_assoc]

theorem line?_iff (h : Kept ss t) (n : Int) :
    t.line? name = some n ↔ ∃ s, Latest ss s ∧ s.name = name ∧ s.line = n := by
  simp only [SymbolTable.line?, Option.map_eq_some_iff, h.find?_iff, and_assoc]

theorem names_eq (h : Kept ss t) : t.names = (addAll ss).names := by
  rw [names, names, h.symbols]

theorem nodup (h : Kept ss t) : t.names.Nodup := by
  rw [h.names_eq]
  exact nodup_addAll ss

/-- **In address order a table shows its last definitions.** -/
theorem ordered_sorted (h : Kept ss t) : Ordered ss t.sorted where
  strict := strict_sorted h.nodup
  once := by
    have hperm := (List.mergeSort_perm (t.symbols.map fun s => (s.address, s.name))
      notAfter).map Prod.snd
    rw [List.map_map] at hperm
    exact hperm.nodup_iff.2 h.nodup
  mem_iff address name := (mem_sorted h.nodup address).trans (h.address?_iff address)

/-- The names of the entries stand in the order in which they came first. -/
theorem fits_items (h : Kept ss t) :
    Fits ss .items (.items (t.symbols.map fun s => (s.name, s.address))) := by
  constructor
  · have hnames : (t.symbols.map fun s => (s.name, s.address)).map (·.1) = (addAll ss).names := by
      rw [List.map_map, ← h.names_eq]
      rfl
    rw [hnames]
    exact pairwise_addAll ss
  · intro name address
    rw [← h.ordered_sorted.mem_iff, sorted, List.mem_mergeSort]
    simp only [List.mem_map, Prod.mk.injEq, and_comm]

theorem fits_size (h : Kept ss t) : Fits ss .size (.size t.size) := by
  have hperm : t.names.Perm (ss.map (·.name)).dedup := by
    refine (List.perm_ext_iff_of_nodup h.nodup (List.nodup_dedup _)).2 fun name => ?_
    rw [h.names_eq, mem_names_addAll, List.mem_dedup]
  have hlength := hperm.length_eq
  rwa [names, List.length_map] at hlength

end Kept

/-! ## The closest symbol -/

theorem Before.not_after {x y : Int × String} (hxy : Before x y) : ¬Before y x := by
  rcases hxy with hxy | ⟨hxy, hnames⟩
  · rintro (hyx | ⟨hyx, -⟩) <;> omega
  · rintro (hyx | ⟨-, hback⟩)
    · omega
    · exact lt_asymm hnames hback

/-- The last pair in order is the one that all others come before. -/
theorem getLast?_iff {pairs : List (Int × String)} (h : pairs.Pairwise Before)
    (x : Int × String) :
    pairs.getLast? = some x ↔ x ∈ pairs ∧ ∀ y ∈ pairs, y = x ∨ Before y x := by
  have hlast : ∀ z, pairs.getLast? = some z → ∀ y ∈ pairs, y = z ∨ Before y z := by
    intro z hz y hy
    obtain ⟨front, rfl⟩ := List.getLast?_eq_some_iff.1 hz
    rcases List.mem_append.1 hy with hy | hy
    · exact .inr ((List.pairwise_append.1 h).2.2 y hy z (by simp))
    · exact .inl (List.mem_singleton.1 hy)
  constructor
  · exact fun hx => ⟨List.mem_of_getLast? hx, hlast x hx⟩
  · rintro ⟨hx, hgreatest⟩
    obtain ⟨z, hz⟩ := Option.isSome_iff_exists.1 (List.getLast?_isSome.2 (List.ne_nil_of_mem hx))
    rcases hgreatest z (List.mem_of_getLast? hz) with rfl | hzx
    · exact hz
    · rcases hlast z hz x hx with rfl | hxz
      · exact hz
      · exact absurd hxz hzx.not_after

/-- A name up to the last one is found at its address and above it. -/
theorem notAfter_lastName_iff {x : Int × String} (hx : x.2 ≤ lastName) (address : Int) :
    notAfter x (address, lastName) = true ↔ x.1 ≤ address := by
  rw [notAfter_iff]
  constructor
  · rintro (h | ⟨h, -⟩) <;> omega
  · intro h
    rcases lt_or_eq_of_le h with h | h
    · exact .inl h
    · exact .inr ⟨h, hx⟩

/-- In order, what comes in front of the first pair above an address is all
that is not above it. -/
theorem takeWhile_notAfter {pairs : List (Int × String)} (h : pairs.Pairwise Before)
    (hnames : ∀ x ∈ pairs, x.2 ≤ lastName) (address : Int) :
    pairs.takeWhile (notAfter · (address, lastName)) = pairs.filter (·.1 ≤ address) := by
  induction pairs with
  | nil => rfl
  | cons x pairs ih =>
    obtain ⟨hfirst, hrest⟩ := List.pairwise_cons.1 h
    rw [List.forall_mem_cons] at hnames
    have hx := notAfter_lastName_iff hnames.1 address
    by_cases hle : x.1 ≤ address
    · rw [List.takeWhile_cons, if_pos (hx.2 hle), List.filter_cons_of_pos (by simpa using hle),
        ih hrest hnames.2]
    · rw [List.takeWhile_cons, if_neg (mt hx.1 hle), List.filter_cons_of_neg (by simpa using hle),
        eq_comm, List.filter_eq_nil_iff]
      intro y hy
      have habove : x.1 ≤ y.1 := by
        rcases hfirst y hy with hlt | ⟨heq, -⟩ <;> omega
      simp only [decide_eq_true_eq]
      omega

/-- **The symbol at an address is the closest one.** -/
theorem Kept.fits_symbolAt (h : Kept ss t) (hnames : ∀ s ∈ ss, s.name ≤ lastName)
    (address : Int) : Fits ss (.symbolAt address) (.symbol (t.symbolAt address).1) := by
  have hordered := h.ordered_sorted
  have hbound : ∀ x ∈ t.sorted, x.2 ≤ lastName := by
    rintro ⟨a, name⟩ hx
    obtain ⟨s, hs, rfl, -⟩ := (hordered.mem_iff a name).1 hx
    exact hnames s hs.mem
  have hfound : (t.symbolAt address).1 =
      (t.sorted.filter (·.1 ≤ address)).getLast?.map (·.2) := by
    change (t.byAddress.1.takeWhile (notAfter · (address, lastName))).getLast?.map (·.2) = _
    rw [h.byAddress.1, takeWhile_notAfter hordered.strict hbound]
  have hmem : ∀ x, x ∈ t.sorted.filter (·.1 ≤ address) ↔
      ∃ s, Latest ss s ∧ x = (s.address, s.name) ∧ s.address ≤ address := by
    rintro ⟨a, name⟩
    rw [List.mem_filter, hordered.mem_iff]
    constructor
    · rintro ⟨⟨s, hs, rfl, rfl⟩, hle⟩
      exact ⟨s, hs, rfl, by simpa using hle⟩
    · rintro ⟨s, hs, heq, hle⟩
      cases heq
      exact ⟨⟨s, hs, rfl, rfl⟩, by simpa using hle⟩
  have hlast := getLast?_iff (hordered.strict.filter (·.1 ≤ address))
  rw [hfound]
  refine ⟨?_, fun name => ?_⟩
  · rw [Option.map_eq_none_iff, List.getLast?_eq_none_iff, List.eq_nil_iff_forall_not_mem]
    constructor
    · intro hnone s hs
      by_contra hle
      exact hnone _ ((hmem _).2 ⟨s, hs, rfl, by omega⟩)
    · intro habove x hx
      obtain ⟨s, hs, -, hle⟩ := (hmem x).1 hx
      have := habove s hs
      omega
  · rw [Option.map_eq_some_iff]
    constructor
    · rintro ⟨x, hx, rfl⟩
      obtain ⟨hx, hgreatest⟩ := (hlast x).1 hx
      obtain ⟨s, hs, rfl, hle⟩ := (hmem x).1 hx
      refine ⟨s, ⟨hs, hle, fun other hother habove => ?_⟩, rfl⟩
      rcases hgreatest _ ((hmem _).2 ⟨other, hother, rfl, habove⟩) with heq | hbefore
      · exact .inl (hs.eq hother (Prod.mk.inj heq).2)
      · exact .inr hbefore
    · rintro ⟨s, ⟨hs, hle, hgreatest⟩, rfl⟩
      refine ⟨_, (hlast (s.address, s.name)).2 ⟨(hmem _).2 ⟨s, hs, rfl, hle⟩, ?_⟩, rfl⟩
      intro y hy
      obtain ⟨other, hother, rfl, habove⟩ := (hmem y).1 hy
      rcases hgreatest other hother habove with rfl | hbefore
      · exact .inl rfl
      · exact .inr hbefore

/-! ## Any course of uses -/

/-- **Whatever was done with a table before, it answers by the last
definitions.** Addresses and lines are known for the names that were added
and are those of the last time. The address order holds each of these names
once, and the symbol at an address is the greatest that starts at or below
it, by address and then by name. -/
theorem answers_fit_last_definitions (uses : List Use)
    (hnames : ∀ s ∈ added uses, s.name ≤ lastName) (u : Use) :
    Fits (added uses) u ((after uses).respond u).1 := by
  have hkept := Kept.after uses
  cases u with
  | add s => trivial
  | address name => exact fun a => hkept.address?_iff a
  | contains name =>
    refine Option.isSome_iff_exists.trans (exists_congr fun s => ?_)
    exact hkept.find?_iff
  | line name => exact fun n => hkept.line?_iff n
  | byAddress =>
    have hordered := hkept.ordered_sorted
    rw [← hkept.byAddress.1] at hordered
    exact hordered
  | symbolAt address => exact hkept.fits_symbolAt hnames address
  | items => exact hkept.fits_items
  | size => exact hkept.fits_size

/-- A symbol moves to the address of another one after the order was asked
for. -/
theorem answers_fit_last_definitions_moved :
    let uses : List Use := [.add ⟨"m", 7, 0⟩, .symbolAt 7, .add ⟨"b", -5, 1⟩, .byAddress,
      .add ⟨"m", -5, 2⟩]
    (∀ s ∈ added uses, s.name ≤ lastName) ∧ Fits (added uses) (.symbolAt 6) (.symbol "m") ∧
      Fits (added uses) .byAddress (.ordered [(-5, "b"), (-5, "m")]) := by
  intro uses
  have hnames : ∀ s ∈ added uses, s.name ≤ lastName := by decide
  have hfound := answers_fit_last_definitions uses hnames (.symbolAt 6)
  have hordered := answers_fit_last_definitions uses hnames .byAddress
  have hsorted : (after uses).sorted = [(-5, "b"), (-5, "m")] := by
    have hafter : notAfter (-5, "m") (-5, "b") = false := by decide
    change [((-5 : Int), "m"), (-5, "b")].mergeSort notAfter = _
    simp [List.mergeSort, hafter]
  have hsymbol : ((after uses).respond (.symbolAt 6)).1 = .symbol "m" := by
    change Answer.symbol
      (((after uses).sorted.takeWhile (notAfter · (6, lastName))).getLast?.map (·.2)) = _
    rw [hsorted]
    decide
  have hpairs : ((after uses).respond .byAddress).1 = .ordered [(-5, "b"), (-5, "m")] :=
    congrArg Answer.ordered hsorted
  rw [hsymbol] at hfound
  rw [hpairs] at hordered
  exact ⟨hnames, hfound, hordered⟩

end Disasm.SymbolTable
