import Disasm.Proofs.JsonLiteral
import Mathlib.Data.List.Nodup
/-!
# Printed JSON — what is printed is read back

A value is printed with line breaks and indentation, and the reader skips
them. `Storable` says which values survive: those without doubles, without
integers that are too long, without halves of a surrogate pair side by side,
with no name twice in an object, and nested no deeper than the reader goes.
For each kind of value, what was printed is taken off the front of the
text, whatever comes behind it; the whole text then reads as the value
(`read_pretty`), and it has no character outside printable ASCII but line
breaks (`isPrinted_renderAt`).
-/

namespace Disasm.Json

/-! ## Blanks -/

/-- A text of blanks alone. -/
def Blank (gap : List Char) : Prop :=
  ∀ c ∈ gap, (c = ' ' || c = '\t' || c = '\n' || c = '\r') = true

/-- Blanks in front of something are skipped. -/
theorem Blank.skipBlanks {gap : List Char} (h : Blank gap) (rest : List Char) :
    skipBlanks (gap ++ rest) = Json.skipBlanks rest :=
  List.dropWhile_append_of_pos h

/-- A line is broken with a line feed and spaces. -/
theorem mem_lineBreak {indent : Option Nat} {level : Nat} {c : Char}
    (h : c ∈ (lineBreak indent level).toList) : c = '\n' ∨ c = ' ' := by
  cases indent with
  | none => cases h
  | some width =>
    simp only [lineBreak, String.toList_append, String.toList_ofList, List.mem_append,
      List.mem_replicate] at h
    exact h.imp List.mem_singleton.1 And.right

theorem blank_lineBreak (indent : Option Nat) (level : Nat) :
    Blank (lineBreak indent level).toList := by
  intro c hc
  rcases mem_lineBreak hc with rfl | rfl
  · rfl
  · rfl

/-- A comma comes before the blanks behind it. -/
theorem toList_comma (indent : Option Nat) (level : Nat) :
    ∃ gap, (comma indent level).toList = ',' :: gap ∧ Blank gap := by
  cases indent with
  | none =>
    refine ⟨[' '], (by decide : ", ".toList = [',', ' ']), fun c hc => ?_⟩
    rw [List.mem_singleton.1 hc]
    rfl
  | some width =>
    refine ⟨(lineBreak (some width) level).toList, ?_, blank_lineBreak _ level⟩
    rw [comma, String.toList_append]
    rfl

/-- What ends a number: blanks and then a sign that is not part of one. -/
theorem Blank.endsNumber {gap : List Char} (h : Blank gap) {c : Char} (rest : List Char)
    (hc : c.isDigit = false ∧ c ≠ '.' ∧ c ≠ 'e' ∧ c ≠ 'E') : EndsNumber (gap ++ c :: rest) := by
  rcases gap with _ | ⟨b, gap⟩
  · exact endsNumber_cons hc rest
  · have hblank : b = ' ' ∨ b = '\t' ∨ b = '\n' ∨ b = '\r' := by
      simpa [or_assoc] using h b List.mem_cons_self
    refine endsNumber_cons ?_ _
    rcases hblank with rfl | rfl | rfl | rfl
    all_goals decide

/-! ## Values -/

/-- The values that are read back from where they are printed: no doubles,
no integer that is too long, no text with the halves of a pair side by side,
no name twice, and nested up to a depth. -/
inductive Storable : Nat → Json → Prop
  | null {depth : Nat} : Storable depth .null
  | bool {depth : Nat} (b : Bool) : Storable depth (.bool b)
  | int {depth : Nat} {n : Int} : InRange n → Storable depth (.int n)
  | str {depth : Nat} (s : String) : Storable depth (.str s)
  | arr {depth : Nat} {items : List Json} :
      (∀ v ∈ items, Storable depth v) → Storable (depth + 1) (.arr items)
  | obj {depth : Nat} {members : List (String × Json)} :
      (members.map Prod.fst).Nodup → (∀ e ∈ members, Storable depth e.2) →
      Storable (depth + 1) (.obj members)
  | stray {depth : Nat} {b : Broken} : Unpaired b.points → Storable depth (.stray b)
  | odd {depth : Nat} {members : List (Script × Json)} :
      (∃ e ∈ members, e.1.plain? = none) → (∀ e ∈ members, Unpaired e.1.points) →
      (members.map Prod.fst).Nodup → (∀ e ∈ members, Storable depth e.2) →
      Storable (depth + 1) (.odd members)

/-- Members with their names as scripts. -/
def scripted (members : List (String × Json)) : List (Script × Json) :=
  members.map fun (name, v) => (.plain name, v)

/-- Members whose names are texts make an object of texts. -/
theorem object_scripted (members : List (String × Json)) :
    object (scripted members) = .obj members := by
  have hplain : (scripted members).all (·.1.plain?.isSome) = true := by
    simp [scripted, Script.plain?]
  rw [object, if_pos hplain]
  simp [named, scripted, List.filterMap_map, Script.plain?]

/-- A name with a lone surrogate makes an object of another kind. -/
theorem object_of_broken {members : List (Script × Json)}
    (h : ∃ e ∈ members, e.1.plain? = none) : object members = .odd members := by
  obtain ⟨e, he, hbroken⟩ := h
  refine if_neg fun hplain => ?_
  have hsome := List.all_eq_true.1 hplain e he
  rw [hbroken] at hsome
  cases hsome

section Steps

variable {fuel depth : Nat} {c : Char} {cs tail rest : List Char}

/-- A quotation mark begins a text. -/
theorem value_string {s : Script} (h : string cs = .ok (s, rest)) :
    value (fuel + 1) depth ('"' :: cs) = .ok (.ofScript s, rest) := by
  rw [value, h]
  rfl

/-- A bracket begins a list, whose items are one level deeper. -/
theorem value_arr {vs : List Json} (h : skipBlanks cs = tail) (hopen : ']' ∉ tail.head?)
    (hitems : items fuel depth tail = .ok (vs, rest)) :
    value (fuel + 1) (depth + 1) ('[' :: cs) = .ok (.arr vs, rest) := by
  rw [value, if_neg (by omega), h]
  split
  · exact absurd rfl hopen
  · rw [Nat.add_sub_cancel, hitems]
    rfl

/-- A list can be closed at once. -/
theorem value_arr_nil (h : skipBlanks cs = ']' :: rest) :
    value (fuel + 1) (depth + 1) ('[' :: cs) = .ok (.arr [], rest) := by
  rw [value, if_neg (by omega), h]
  rfl

/-- So can an object. -/
theorem value_obj_nil (h : skipBlanks cs = '\x7d' :: rest) :
    value (fuel + 1) (depth + 1) ('\x7b' :: cs) = .ok (.obj [], rest) := by
  rw [value, if_neg (by omega), h]
  rfl

/-- A brace begins an object, whose values are one level deeper. -/
theorem value_obj {ms : List (Script × Json)} (h : skipBlanks cs = tail)
    (hopen : '\x7d' ∉ tail.head?)
    (hmembers : members fuel depth [] tail = .ok (ms, rest)) :
    value (fuel + 1) (depth + 1) ('\x7b' :: cs) = .ok (object ms, rest) := by
  rw [value, if_neg (by omega), h]
  split
  · exact absurd rfl hopen
  · rw [Nat.add_sub_cancel, hmembers]
    rfl

/-- Everything else is an atom. -/
theorem value_atom (hquote : c ≠ '"') (hbracket : c ≠ '[') (hbrace : c ≠ '\x7b') :
    value (fuel + 1) depth (c :: cs) = atom (c :: cs) := by
  rw [value]
  · exact fun _ h => hquote (List.cons.inj h).1
  · exact fun _ h => hbracket (List.cons.inj h).1
  · exact fun _ h => hbrace (List.cons.inj h).1

/-- A bracket behind a value closes the list. -/
theorem items_last {v : Json} {after : List Char} (hv : value fuel depth cs = .ok (v, after))
    (hafter : skipBlanks after = ']' :: rest) : items (fuel + 1) depth cs = .ok ([v], rest) := by
  simp only [items, bind, Except.bind, hv, hafter, pure, Except.pure]

/-- A comma behind it carries the list on. -/
theorem items_next {v : Json} {vs : List Json} {after further : List Char}
    (hv : value fuel depth cs = .ok (v, after)) (hafter : skipBlanks after = ',' :: further)
    (hvs : items fuel depth (skipBlanks further) = .ok (vs, rest)) :
    items (fuel + 1) depth cs = .ok (v :: vs, rest) := by
  simp only [items, bind, Except.bind, hv, hafter, hvs, pure, Except.pure]

variable {held : List (Script × Json)} {name : Script} {v : Json} {after colon further : List Char}

/-- A brace behind a member closes the object. -/
theorem members_last (hname : string cs = .ok (name, after))
    (hcolon : skipBlanks after = ':' :: colon)
    (hv : value fuel depth (skipBlanks colon) = .ok (v, further))
    (hfurther : skipBlanks further = '\x7d' :: rest) :
    members (fuel + 1) depth held ('"' :: cs) = .ok (setMember held name v, rest) := by
  simp only [members, bind, Except.bind, hname, hcolon, hv, hfurther, pure, Except.pure]

/-- A comma behind it carries the object on. -/
theorem members_next (hname : string cs = .ok (name, after))
    (hcolon : skipBlanks after = ':' :: colon)
    (hv : value fuel depth (skipBlanks colon) = .ok (v, further))
    (hfurther : skipBlanks further = ',' :: tail) :
    members (fuel + 1) depth held ('"' :: cs) =
      members fuel depth (setMember held name v) (skipBlanks tail) := by
  simp only [members, bind, Except.bind, hname, hcolon, hv, hfurther]

end Steps

/-! ## Reading what was printed -/

/-- A character that a value begins with: no blank, and nothing that closes
a list. -/
def Opens (c : Char) : Prop :=
  c ≠ ']' ∧ (c = ' ' || c = '\t' || c = '\n' || c = '\r') = false

instance (c : Char) : Decidable (Opens c) :=
  inferInstanceAs (Decidable (_ ∧ _))

/-- A character that is no blank stops the skipping of blanks. -/
theorem skipBlanks_cons {c : Char} (h : (c = ' ' || c = '\t' || c = '\n' || c = '\r') = false)
    (rest : List Char) : skipBlanks (c :: rest) = c :: rest :=
  List.dropWhile_cons_of_neg (by simpa using h)

/-- A digit can open a value. -/
theorem opens_of_isDigit {c : Char} (h : c.isDigit = true) : Opens c := by
  refine ⟨?_, ?_⟩
  · rintro rfl
    cases h
  · simp only [Bool.or_eq_false_iff, decide_eq_false_iff_not]
    refine ⟨⟨⟨?_, ?_⟩, ?_⟩, ?_⟩
    all_goals
      rintro rfl
      cases h

/-- An integer opens with a digit or a sign. -/
theorem head_toString (n : Int) : ∃ c tail, (toString n).toList = c :: tail ∧
    Opens c ∧ c ≠ '"' ∧ c ≠ '[' ∧ c ≠ '\x7b' := by
  cases n with
  | ofNat k =>
    obtain ⟨d, ds, hds⟩ := List.exists_cons_of_ne_nil (Nat.toDigits_ne_nil (n := k) (b := 10))
    have hd : d.isDigit = true :=
      Nat.isDigit_of_mem_toDigits (by decide) (by decide) (hds ▸ List.mem_cons_self)
    refine ⟨d, ds, (toList_ofNat k).trans hds, opens_of_isDigit hd, ?_, ?_, ?_⟩
    all_goals
      rintro rfl
      cases hd
  | negSucc k =>
    exact ⟨'-', _, toList_negSucc k, by decide, by decide, by decide, by decide⟩

section Commas

variable (indent : Option Nat) (level : Nat)

/-- Texts with commas between them. -/
def joined (texts : List String) : List Char :=
  (String.intercalate (comma indent level) texts).toList

variable {indent level}

theorem joined_singleton (t : String) : joined indent level [t] = t.toList := by
  rw [joined, String.intercalate_singleton]

theorem joined_cons (t u : String) (us : List String) :
    joined indent level (t :: u :: us) =
      t.toList ++ ((comma indent level).toList ++ joined indent level (u :: us)) := by
  rw [joined, String.intercalate_cons_cons, String.toList_append, String.toList_append,
    List.append_assoc]
  rfl

/-- Texts begin as the first of them does. -/
theorem head_joined (indent : Option Nat) (level : Nat) {t : String} {c : Char}
    {tail : List Char} (h : t.toList = c :: tail) (ts : List String) :
    ∃ tail, joined indent level (t :: ts) = c :: tail := by
  cases ts with
  | nil => exact ⟨tail, by rw [joined_singleton, h]⟩
  | cons u us => exact ⟨_, by rw [joined_cons, h, List.cons_append]⟩

/-- Whatever is enclosed, the opening mark comes first. -/
theorem toList_enclose (indent : Option Nat) (level : Nat) (left right : String)
    (texts : List String) :
    ∃ tail, (enclose indent level left right texts).toList = left.toList ++ tail := by
  cases texts with
  | nil => exact ⟨_, String.toList_append⟩
  | cons t ts =>
    rw [enclose, if_neg (by simp), String.append_assoc, String.append_assoc, String.append_assoc,
      String.toList_append]
    exact ⟨_, rfl⟩

/-- Nothing is enclosed by marks that touch. -/
theorem toList_enclose_nil {left right : String} {l r : Char} (hleft : left.toList = [l])
    (hright : right.toList = [r]) (rest : List Char) :
    (enclose indent level left right []).toList ++ rest = l :: r :: rest := by
  have hlist : (enclose indent level left right []).toList = left.toList ++ right.toList :=
    String.toList_append
  rw [hlist, hleft, hright]
  rfl

/-- Around texts there are line breaks. -/
theorem toList_enclose_cons {left right : String} {l r : Char} (hleft : left.toList = [l])
    (hright : right.toList = [r]) (t : String) (ts : List String) (rest : List Char) :
    (enclose indent level left right (t :: ts)).toList ++ rest =
      l :: ((lineBreak indent (level + 1)).toList ++ (joined indent (level + 1) (t :: ts) ++
        ((lineBreak indent level).toList ++ r :: rest))) := by
  rw [enclose, if_neg (by simp)]
  simp only [String.toList_append, List.append_assoc, hleft, hright]
  rfl

/-- The blanks behind a comma are skipped, up to the text that follows. -/
theorem skipBlanks_joined {gap : List Char} (hgap : Blank gap) {t : String} {c : Char}
    {tail : List Char} (h : t.toList = c :: tail) (hc : Opens c) (ts : List String)
    (more : List Char) :
    skipBlanks (gap ++ (joined indent level (t :: ts) ++ more)) =
      joined indent level (t :: ts) ++ more := by
  obtain ⟨tail, hhead⟩ := head_joined indent level h ts
  rw [hgap.skipBlanks, hhead, List.cons_append, skipBlanks_cons hc.2]

end Commas

/-- **What is printed opens a value.** -/
theorem head_renderAt (indent : Option Nat) (level : Nat) {depth : Nat} {v : Json}
    (h : Storable depth v) : ∃ c tail, (renderAt indent level v).toList = c :: tail ∧ Opens c := by
  cases h with
  | null => exact ⟨'n', ['u', 'l', 'l'], by rw [renderAt]; rfl, by decide⟩
  | bool b =>
    cases b with
    | true => exact ⟨'t', ['r', 'u', 'e'], by rw [renderAt]; rfl, by decide⟩
    | false => exact ⟨'f', ['a', 'l', 's', 'e'], by rw [renderAt]; rfl, by decide⟩
  | @int _ n _ =>
    obtain ⟨c, tail, hhead, hopens, -⟩ := head_toString n
    exact ⟨c, tail, hhead, hopens⟩
  | str s => exact ⟨'"', _, String.toList_ofList, by decide⟩
  | stray _ => exact ⟨'"', _, String.toList_ofList, by decide⟩
  | @arr _ vs _ =>
    obtain ⟨tail, htail⟩ := toList_enclose indent level "[" "]" (renderItems indent (level + 1) vs)
    exact ⟨'[', tail, by rw [renderAt, htail]; rfl, by decide⟩
  | @obj _ ms _ _ =>
    obtain ⟨tail, htail⟩ := toList_enclose indent level "\x7b" "\x7d"
      (renderMembers indent (level + 1) ms)
    exact ⟨'\x7b', tail, by rw [renderAt, htail]; rfl, by decide⟩
  | @odd _ ms _ _ _ _ =>
    obtain ⟨tail, htail⟩ := toList_enclose indent level "\x7b" "\x7d"
      (renderOdd indent (level + 1) ms)
    exact ⟨'\x7b', tail, by rw [renderAt, htail]; rfl, by decide⟩

/-- A printed value is taken off the front of a text. -/
def Reads (indent : Option Nat) (depth : Nat) (v : Json) : Prop :=
  ∀ level fuel rest, EndsNumber rest →
    2 * ((renderAt indent level v).toList ++ rest).length < fuel →
    value fuel depth ((renderAt indent level v).toList ++ rest) = .ok (v, rest)

section Joined

variable {indent : Option Nat} {depth : Nat} (level : Nat)

/-- Items are read one after the other, up to the bracket behind them. -/
theorem items_joined {v : Json} {vs : List Json} (hreads : ∀ u ∈ v :: vs, Reads indent depth u)
    (hstorable : ∀ u ∈ v :: vs, Storable depth u)
    {gap : List Char} (hgap : Blank gap) (rest : List Char) (fuel : Nat)
    (hfuel : 2 * (joined indent level (renderItems indent level (v :: vs)) ++
      (gap ++ ']' :: rest)).length + 1 < fuel) :
    items fuel depth (joined indent level (renderItems indent level (v :: vs)) ++
      (gap ++ ']' :: rest)) = .ok (v :: vs, rest) := by
  induction vs generalizing v fuel with
  | nil =>
    obtain ⟨fuel, rfl⟩ : ∃ k, fuel = k + 1 := ⟨fuel - 1, by omega⟩
    rw [renderItems, renderItems, joined_singleton] at hfuel ⊢
    have hend : EndsNumber (gap ++ ']' :: rest) := hgap.endsNumber rest (by decide)
    have hread := hreads v List.mem_cons_self level fuel _ hend (by omega)
    exact items_last hread (hgap.skipBlanks _)
  | cons u us ih =>
    obtain ⟨fuel, rfl⟩ : ∃ k, fuel = k + 1 := ⟨fuel - 1, by omega⟩
    obtain ⟨sep, hsep, hblank⟩ := toList_comma indent level
    obtain ⟨c, tail, hhead, hopens⟩ := head_renderAt indent level (hstorable u (by simp))
    rw [renderItems, renderItems, joined_cons, hsep, List.append_assoc, List.append_assoc,
      List.cons_append] at hfuel ⊢
    have hend := endsNumber_cons (c := ',') (by decide) (sep ++ (joined indent level
      (renderAt indent level u :: renderItems indent level us) ++ (gap ++ ']' :: rest)))
    have hread := hreads v List.mem_cons_self level fuel _ hend (by omega)
    refine items_next hread (skipBlanks_cons rfl _) ?_
    rw [skipBlanks_joined hblank hhead hopens]
    refine ih (fun w hw => hreads w (List.mem_cons_of_mem _ hw))
      (fun w hw => hstorable w (List.mem_cons_of_mem _ hw)) fuel ?_
    rw [renderItems]
    simp only [List.length_append, List.length_cons] at hfuel ⊢
    omega

/-- The name of a member that comes next was not held before. -/
theorem not_mem_of_nodup {held es : List (Script × Json)} {name : Script} {v : Json}
    (h : ((held ++ (name, v) :: es).map Prod.fst).Nodup) : name ∉ held.map Prod.fst := by
  rw [List.map_append, List.map_cons, List.nodup_append] at h
  exact fun hmem => h.2.2 name hmem name List.mem_cons_self rfl

/-- A member with a new name goes to the end. -/
theorem setMember_new {held : List (Script × Json)} {name : Script}
    (h : name ∉ held.map Prod.fst) (v : Json) : setMember held name v = held ++ [(name, v)] := by
  induction held with
  | nil => rfl
  | cons first rest ih =>
    rw [List.map_cons, List.mem_cons, not_or] at h
    rw [setMember, if_neg (Ne.symm h.1), ih h.2]
    rfl

/-- The text of a member: its name as a literal, and its value. -/
theorem toList_member (indent : Option Nat) (level : Nat) (name : Script) (v : Json)
    (rest : List Char) :
    (literal name ++ ": " ++ renderAt indent level v).toList ++ rest =
      '"' :: (name.points.flatMap escapePoint ++
        '"' :: ':' :: ' ' :: ((renderAt indent level v).toList ++ rest)) := by
  simp [literal]

/-- A member is printed as its name, a colon, a space and its value. -/
theorem head_member (indent : Option Nat) (level : Nat) (name : Script) (v : Json) :
    (literal name ++ ": " ++ renderAt indent level v).toList =
      '"' :: (name.points.flatMap escapePoint ++
        '"' :: ':' :: ' ' :: (renderAt indent level v).toList) := by
  simp [literal]

/-- A member is read off a text: its name, the colon, and its value. -/
theorem value_member {name : Script} (hname : Unpaired name.points) {v : Json}
    (hstorable : Storable depth v)
    (hread : Reads indent depth v) {rest : List Char} (hrest : EndsNumber rest) (fuel : Nat)
    (hfuel : 2 * ((renderAt indent level v).toList ++ rest).length < fuel) :
    ∃ after colon,
      string (name.points.flatMap escapePoint ++
        '"' :: ':' :: ' ' :: ((renderAt indent level v).toList ++ rest)) = .ok (name, after) ∧
      skipBlanks after = ':' :: colon ∧
      value fuel depth (skipBlanks colon) = .ok (v, rest) := by
  obtain ⟨c, tail, hhead, hopens⟩ := head_renderAt indent level hstorable
  have hskip : skipBlanks (' ' :: ((renderAt indent level v).toList ++ rest)) =
      (renderAt indent level v).toList ++ rest := by
    have hblank : Blank [' '] := by
      intro b hb
      rw [List.mem_singleton.1 hb]
      rfl
    rw [← List.singleton_append, hblank.skipBlanks, hhead, List.cons_append,
      skipBlanks_cons hopens.2]
  refine ⟨_, _, string_literal name hname _, skipBlanks_cons rfl _, ?_⟩
  rw [hskip]
  exact hread level fuel rest hrest hfuel

/-- Members are read one after the other, behind those already held. -/
theorem members_joined {e : Script × Json} {es : List (Script × Json)}
    (hpaired : ∀ e' ∈ e :: es, Unpaired e'.1.points)
    (hreads : ∀ e' ∈ e :: es, Reads indent depth e'.2)
    (hstorable : ∀ e' ∈ e :: es, Storable depth e'.2) (held : List (Script × Json))
    (hnames : ((held ++ e :: es).map Prod.fst).Nodup)
    {gap : List Char} (hgap : Blank gap) (rest : List Char) (fuel : Nat)
    (hfuel : 2 * (joined indent level (renderOdd indent level (e :: es)) ++
      (gap ++ '\x7d' :: rest)).length + 1 < fuel) :
    members fuel depth held (joined indent level (renderOdd indent level (e :: es)) ++
      (gap ++ '\x7d' :: rest)) = .ok (held ++ e :: es, rest) := by
  induction es generalizing e held fuel with
  | nil =>
    obtain ⟨fuel, rfl⟩ : ∃ k, fuel = k + 1 := ⟨fuel - 1, by omega⟩
    obtain ⟨name, v⟩ := e
    have hnew := not_mem_of_nodup hnames
    rw [renderOdd, renderOdd, joined_singleton, toList_member] at hfuel ⊢
    have hend : EndsNumber (gap ++ '\x7d' :: rest) := hgap.endsNumber rest (by decide)
    simp only [List.length_append, List.length_cons] at hfuel
    obtain ⟨after, colon, hname, hcolon, hv⟩ := value_member level (hpaired _ List.mem_cons_self)
      (hstorable _ List.mem_cons_self) (hreads _ List.mem_cons_self) hend fuel
      (by simp only [List.length_append, List.length_cons]; omega)
    rw [members_last hname hcolon hv (hgap.skipBlanks _), setMember_new hnew]
  | cons e' es ih =>
    obtain ⟨fuel, rfl⟩ : ∃ k, fuel = k + 1 := ⟨fuel - 1, by omega⟩
    obtain ⟨name, v⟩ := e
    obtain ⟨name', v'⟩ := e'
    have hnew := not_mem_of_nodup hnames
    obtain ⟨sep, hsep, hblank⟩ := toList_comma indent level
    have hhead := head_member indent level name' v'
    rw [renderOdd, renderOdd, joined_cons, hsep, List.append_assoc, List.append_assoc,
      List.cons_append, toList_member] at hfuel ⊢
    have hend := endsNumber_cons (c := ',') (by decide) (sep ++ (joined indent level
      ((literal name' ++ ": " ++ renderAt indent level v') :: renderOdd indent level es) ++
      (gap ++ '\x7d' :: rest)))
    simp only [List.length_append, List.length_cons] at hfuel
    obtain ⟨after, colon, hname, hcolon, hv⟩ := value_member level (hpaired _ List.mem_cons_self)
      (hstorable _ List.mem_cons_self) (hreads _ List.mem_cons_self) hend fuel
      (by simp only [List.length_append, List.length_cons]; omega)
    rw [members_next hname hcolon hv (skipBlanks_cons rfl _), setMember_new hnew,
      skipBlanks_joined hblank hhead (by decide)]
    have hrest := ih (fun w hw => hpaired w (List.mem_cons_of_mem _ hw))
      (fun w hw => hreads w (List.mem_cons_of_mem _ hw))
      (fun w hw => hstorable w (List.mem_cons_of_mem _ hw)) (held ++ [(name, v)])
      (by simpa using hnames) fuel
      (by rw [renderOdd]; simp only [List.length_append, List.length_cons]; omega)
    rw [renderOdd] at hrest
    rw [hrest, List.append_assoc]
    rfl

end Joined

section Kinds

variable {indent : Option Nat} {depth : Nat}

/-- A word of the grammar is taken off a text by its letters. -/
theorem reads_word {v : Json} {c : Char} {cs : List Char}
    (hlist : ∀ level, (renderAt indent level v).toList = c :: cs)
    (hopen : c ≠ '"' ∧ c ≠ '[' ∧ c ≠ '\x7b')
    (hatom : ∀ rest, atom (c :: (cs ++ rest)) = .ok (v, rest)) : Reads indent depth v := by
  intro level fuel rest _ hfuel
  obtain ⟨fuel, rfl⟩ : ∃ k, fuel = k + 1 := ⟨fuel - 1, by omega⟩
  rw [hlist, List.cons_append, value_atom hopen.1 hopen.2.1 hopen.2.2]
  exact hatom rest

/-- Integers are read back. -/
theorem reads_int {n : Int} (hn : InRange n) : Reads indent depth (.int n) := by
  intro level fuel rest hrest hfuel
  obtain ⟨fuel, rfl⟩ : ∃ k, fuel = k + 1 := ⟨fuel - 1, by omega⟩
  obtain ⟨c, tail, hhead, -, hquote, hbracket, hbrace⟩ := head_toString n
  have hatom := atom_toString hn hrest
  have hlist : (renderAt indent level (.int n)).toList = c :: tail := by
    rw [renderAt]
    exact hhead
  rw [hhead, List.cons_append] at hatom
  rw [hlist, List.cons_append, value_atom hquote hbracket hbrace]
  exact hatom

/-- Texts are read back if no two of their surrogates make a pair. -/
theorem reads_ofScript {s : Script} (hs : Unpaired s.points) :
    Reads indent depth (.ofScript s) := by
  intro level fuel rest _ hfuel
  obtain ⟨fuel, rfl⟩ : ∃ k, fuel = k + 1 := ⟨fuel - 1, by omega⟩
  have hlist : (literal s).toList ++ rest =
      '"' :: (s.points.flatMap escapePoint ++ '"' :: rest) := by
    simp [literal]
  have hrender : renderAt indent level (.ofScript s) = literal s := by
    cases s with
    | plain s => rw [ofScript, renderAt]
    | broken b => rw [ofScript, renderAt]
  rw [hrender, hlist]
  exact value_string (string_literal s hs rest)

/-- A list is read back if its items are. -/
theorem reads_arr {vs : List Json} (hvs : ∀ v ∈ vs, Storable depth v)
    (hreads : ∀ v ∈ vs, Reads indent depth v) : Reads indent (depth + 1) (.arr vs) := by
  intro level fuel rest _ hfuel
  obtain ⟨fuel, rfl⟩ : ∃ k, fuel = k + 1 := ⟨fuel - 1, by omega⟩
  rw [renderAt] at hfuel ⊢
  cases vs with
  | nil =>
    rw [renderItems, toList_enclose_nil rfl rfl]
    exact value_arr_nil (skipBlanks_cons rfl _)
  | cons v vs =>
    obtain ⟨c, tail, hhead, hopens⟩ := head_renderAt indent (level + 1) (hvs v List.mem_cons_self)
    have hread := items_joined (level + 1) hreads hvs (blank_lineBreak indent level) rest fuel
    rw [renderItems] at hfuel hread ⊢
    rw [toList_enclose_cons rfl rfl] at hfuel ⊢
    simp only [List.length_append, List.length_cons] at hfuel hread
    refine value_arr (skipBlanks_joined (blank_lineBreak _ _) hhead hopens _ _) ?_
      (hread (by omega))
    obtain ⟨more, hjoined⟩ := head_joined indent (level + 1) hhead
      (renderItems indent (level + 1) vs)
    rw [hjoined]
    exact fun hclose => hopens.1 (Option.some.inj hclose)

/-- Members between braces are taken off a text as the object of them. -/
theorem reads_members {v : Json} {ms : List (Script × Json)} (hv : object ms = v)
    (hrender : ∀ level, renderAt indent level v =
      enclose indent level "\x7b" "\x7d" (renderOdd indent (level + 1) ms))
    (hpaired : ∀ e ∈ ms, Unpaired e.1.points) (hnames : (ms.map Prod.fst).Nodup)
    (hms : ∀ e ∈ ms, Storable depth e.2) (hreads : ∀ e ∈ ms, Reads indent depth e.2) :
    Reads indent (depth + 1) v := by
  intro level fuel rest _ hfuel
  obtain ⟨fuel, rfl⟩ : ∃ k, fuel = k + 1 := ⟨fuel - 1, by omega⟩
  rw [hrender] at hfuel ⊢
  subst hv
  cases ms with
  | nil =>
    rw [renderOdd, toList_enclose_nil rfl rfl]
    exact value_obj_nil (skipBlanks_cons rfl _)
  | cons e es =>
    obtain ⟨name, v⟩ := e
    have hhead := head_member indent (level + 1) name v
    have hread := members_joined (level + 1) hpaired hreads hms [] hnames
      (blank_lineBreak indent level) rest fuel
    rw [renderOdd] at hfuel hread ⊢
    rw [toList_enclose_cons rfl rfl] at hfuel ⊢
    simp only [List.length_append, List.length_cons] at hfuel hread
    refine value_obj (skipBlanks_joined (blank_lineBreak _ _) hhead (by decide) _ _) ?_
      (hread (by omega))
    obtain ⟨more, hjoined⟩ := head_joined indent (level + 1) hhead
      (renderOdd indent (level + 1) es)
    rw [hjoined]
    exact fun hclose => absurd (Option.some.inj hclose) (by decide)

/-- Members are printed in one way, whether their names are known to be texts or
not. -/
theorem renderOdd_scripted (level : Nat) (ms : List (String × Json)) :
    renderOdd indent level (scripted ms) = renderMembers indent level ms := by
  induction ms with
  | nil => rw [scripted, List.map_nil, renderOdd, renderMembers]
  | cons e es ih =>
    obtain ⟨name, v⟩ := e
    rw [renderMembers, ← ih, scripted, List.map_cons, renderOdd]
    rfl

/-- An object is read back if its values are and no name occurs twice. -/
theorem reads_obj {ms : List (String × Json)} (hnames : (ms.map Prod.fst).Nodup)
    (hms : ∀ e ∈ ms, Storable depth e.2) (hreads : ∀ e ∈ ms, Reads indent depth e.2) :
    Reads indent (depth + 1) (.obj ms) := by
  have hscripts : (scripted ms).map Prod.fst = (ms.map Prod.fst).map Script.plain := by
    simp [scripted, Function.comp_def]
  refine reads_members (object_scripted ms) (fun level => ?_) ?_ ?_ ?_ ?_
  · rw [renderAt, renderOdd_scripted]
  · exact List.forall_mem_map.2 fun e _ => unpaired_plain e.1
  · rw [hscripts]
    exact List.Nodup.map (fun s t h => Script.plain.inj h) hnames
  · exact List.forall_mem_map.2 hms
  · exact List.forall_mem_map.2 hreads

end Kinds

/-- **A storable value is taken off the front of any text that it was printed
in**, at any level of indentation. -/
theorem value_renderAt (indent : Option Nat) {depth : Nat} {v : Json} (h : Storable depth v) :
    Reads indent depth v := by
  induction h with
  | null =>
    have hlist : ∀ level, (renderAt indent level .null).toList = ['n', 'u', 'l', 'l'] := by
      intro level
      rw [renderAt]
      rfl
    exact reads_word hlist (by decide) fun rest => rfl
  | bool b =>
    cases b with
    | true =>
      have hlist : ∀ level, (renderAt indent level (.bool true)).toList = ['t', 'r', 'u', 'e'] := by
        intro level
        rw [renderAt]
        rfl
      exact reads_word hlist (by decide) fun rest => rfl
    | false =>
      have hlist : ∀ level,
          (renderAt indent level (.bool false)).toList = ['f', 'a', 'l', 's', 'e'] := by
        intro level
        rw [renderAt]
        rfl
      exact reads_word hlist (by decide) fun rest => rfl
  | int hn => exact reads_int hn
  | str s => exact reads_ofScript (s := .plain s) (unpaired_plain s)
  | arr hvs ih => exact reads_arr hvs ih
  | obj hnames hms ih => exact reads_obj hnames hms ih
  | @stray _ b hb => exact reads_ofScript (s := .broken b) hb
  | odd hbroken hpaired hnames hms ih =>
    exact reads_members (object_of_broken hbroken) (fun level => by rw [renderAt]) hpaired hnames
      hms ih

/-- **What was printed is read back.** -/
theorem read_pretty {v : Json} {depth : Nat} (h : Storable depth v) :
    read v.pretty depth = .ok v := by
  obtain ⟨c, tail, hhead, hopens⟩ := head_renderAt (some 2) 0 h
  have hskip : skipBlanks v.pretty.toList = v.pretty.toList := by
    rw [pretty, hhead, skipBlanks_cons hopens.2]
  have hread : value (2 * v.pretty.toList.length + 2) depth (v.pretty.toList ++ []) =
      .ok (v, []) := by
    refine value_renderAt (some 2) h 0 _ [] (fun c hc => by cases hc) ?_
    rw [List.append_nil, pretty]
    omega
  rw [List.append_nil] at hread
  rw [read]
  dsimp only
  rw [hskip, hread]
  rfl

/-! ## What is printed is ASCII -/

/-- A character that a printed text may have: one of printable ASCII, or the
end of a line. -/
def IsPrinted (c : Char) : Prop :=
  (0x20 ≤ c.toNat ∧ c.toNat ≤ 0x7E) ∨ c = '\n'

instance (c : Char) : Decidable (IsPrinted c) :=
  inferInstanceAs (Decidable (_ ∨ _))

theorem isPrinted_of_all {cs : List Char} (h : (cs.all fun c => decide (IsPrinted c)) = true) :
    ∀ c ∈ cs, IsPrinted c :=
  fun c hc => of_decide_eq_true (List.all_eq_true.1 h c hc)

theorem isPrinted_of_isDigit {c : Char} (h : c.isDigit = true) : IsPrinted c := by
  have hrange := toNat_of_isDigit h
  exact .inl ⟨by omega, by omega⟩

/-- A unit is escaped in lower-case letters and digits. -/
theorem isPrinted_unitEscape {n : Nat} (h : n < 0x10000) : ∀ c ∈ unitEscape n, IsPrinted c := by
  have hdigit : ∀ d < 16, IsPrinted (Nat.digitChar d) := by decide
  rw [unitEscape_eq h]
  simp only [List.forall_mem_cons]
  exact ⟨by decide, by decide, hdigit _ (by omega), hdigit _ (by omega), hdigit _ (by omega),
    hdigit _ (by omega), fun c hc => by cases hc⟩

/-- Every character of a text is written as itself or escaped. -/
theorem Written.isPrinted {p : Point} {cs : List Char} {ms : List Mark} (h : Written p cs ms) :
    ∀ e ∈ cs, IsPrinted e := by
  cases h with
  | @short c letter hletter hu =>
    simp only [List.forall_mem_cons]
    refine ⟨by decide, ?_, fun c hc => by cases hc⟩
    -- The letters of one-letter escapes, one by one.
    rw [escaped?] at hletter
    split at hletter
    · rename_i hsame
      rcases hsame with rfl | rfl | rfl
      all_goals decide
    iterate 5
      split at hletter
      · rename_i hsame
        rw [hsame]
        decide
    cases hletter
  | plain _ _ hlow hhigh =>
    simp only [List.forall_mem_cons]
    exact ⟨.inl ⟨hlow, hhigh⟩, fun c hc => by cases hc⟩
  | unit hsmall _ => exact isPrinted_unitEscape hsmall
  | @pair c n hn =>
    have hbound := toNat_lt c
    rw [List.forall_mem_append]
    exact ⟨isPrinted_unitEscape (by omega), isPrinted_unitEscape (by omega)⟩

/-- So a literal is printed in ASCII. -/
theorem isPrinted_literal (s : Script) : ∀ c ∈ (literal s).toList, IsPrinted c := by
  have hlist : (literal s).toList = '"' :: s.points.flatMap escapePoint ++ ['"'] :=
    String.toList_ofList
  rw [hlist, List.forall_mem_append, List.forall_mem_cons, List.forall_mem_singleton]
  refine ⟨⟨by decide, ?_⟩, by decide⟩
  intro e he
  obtain ⟨p, -, he⟩ := List.mem_flatMap.1 he
  obtain ⟨ms, hp⟩ := written_escapePoint p
  exact hp.isPrinted e he

theorem isPrinted_toString (n : Int) : ∀ c ∈ (toString n).toList, IsPrinted c := by
  have hdigits : ∀ k : Nat, ∀ c ∈ Nat.toDigits 10 k, IsPrinted c := fun k c hc =>
    isPrinted_of_isDigit (Nat.isDigit_of_mem_toDigits (by decide) (by decide) hc)
  cases n with
  | ofNat k =>
    rw [toList_ofNat]
    exact hdigits k
  | negSucc k =>
    rw [toList_negSucc, List.forall_mem_cons]
    exact ⟨by decide, hdigits (k + 1)⟩

section Brackets

variable {indent : Option Nat} {level : Nat}

theorem isPrinted_lineBreak : ∀ c ∈ (lineBreak indent level).toList, IsPrinted c := by
  intro c hc
  rcases mem_lineBreak hc with rfl | rfl
  · decide
  · decide

theorem isPrinted_comma : ∀ c ∈ (comma indent level).toList, IsPrinted c := by
  cases indent with
  | none =>
    rw [comma]
    exact isPrinted_of_all rfl
  | some width =>
    rw [comma, String.toList_append, List.forall_mem_append]
    exact ⟨isPrinted_of_all rfl, isPrinted_lineBreak⟩

theorem isPrinted_joined {ts : List String} (h : ∀ t ∈ ts, ∀ c ∈ t.toList, IsPrinted c) :
    ∀ c ∈ joined indent level ts, IsPrinted c := by
  induction ts with
  | nil => exact fun c hc => by cases hc
  | cons t ts ih =>
    cases ts with
    | nil =>
      rw [joined_singleton]
      exact h t List.mem_cons_self
    | cons u us =>
      rw [joined_cons, List.forall_mem_append, List.forall_mem_append]
      exact ⟨h t List.mem_cons_self, isPrinted_comma,
        ih fun w hw => h w (List.mem_cons_of_mem _ hw)⟩

/-- Marks, breaks and commas add nothing that is not printed. -/
theorem isPrinted_enclose {left right : String} {l r : Char} (hleft : left.toList = [l])
    (hright : right.toList = [r]) (hl : IsPrinted l) (hr : IsPrinted r) {ts : List String}
    (h : ∀ t ∈ ts, ∀ c ∈ t.toList, IsPrinted c) :
    ∀ c ∈ (enclose indent level left right ts).toList, IsPrinted c := by
  have hempty : ∀ c ∈ ([] : List Char), IsPrinted c := fun c hc => by cases hc
  rw [← List.append_nil (enclose indent level left right ts).toList]
  cases ts with
  | nil =>
    rw [toList_enclose_nil hleft hright]
    simp only [List.forall_mem_cons]
    exact ⟨hl, hr, hempty⟩
  | cons t ts =>
    rw [toList_enclose_cons hleft hright]
    simp only [List.forall_mem_cons, List.forall_mem_append]
    exact ⟨hl, isPrinted_lineBreak, isPrinted_joined h, isPrinted_lineBreak, hr, hempty⟩

/-- The items of a list are printed one by one. -/
theorem mem_renderItems {vs : List Json} {t : String} (h : t ∈ renderItems indent level vs) :
    ∃ v ∈ vs, t = renderAt indent level v := by
  induction vs with
  | nil => cases h
  | cons v vs ih =>
    rw [renderItems] at h
    rcases List.mem_cons.1 h with rfl | h
    · exact ⟨v, List.mem_cons_self, rfl⟩
    · obtain ⟨u, hu, ht⟩ := ih h
      exact ⟨u, List.mem_cons_of_mem _ hu, ht⟩

/-- So are the members of an object. -/
theorem mem_renderOdd {ms : List (Script × Json)} {t : String}
    (h : t ∈ renderOdd indent level ms) :
    ∃ e ∈ ms, t = literal e.1 ++ ": " ++ renderAt indent level e.2 := by
  induction ms with
  | nil => cases h
  | cons e es ih =>
    obtain ⟨name, v⟩ := e
    rw [renderOdd] at h
    rcases List.mem_cons.1 h with rfl | h
    · exact ⟨(name, v), List.mem_cons_self, rfl⟩
    · obtain ⟨e, he, ht⟩ := ih h
      exact ⟨e, List.mem_cons_of_mem _ he, ht⟩

theorem isPrinted_members {ms : List (Script × Json)}
    (h : ∀ e ∈ ms, ∀ level, ∀ c ∈ (renderAt indent level e.2).toList, IsPrinted c) :
    ∀ c ∈ (enclose indent level "\x7b" "\x7d" (renderOdd indent (level + 1) ms)).toList,
      IsPrinted c := by
  refine isPrinted_enclose rfl rfl (by decide) (by decide) fun t ht => ?_
  obtain ⟨e, he, rfl⟩ := mem_renderOdd ht
  rw [String.toList_append, String.toList_append, List.forall_mem_append, List.forall_mem_append]
  exact ⟨⟨isPrinted_literal e.1, isPrinted_of_all rfl⟩, h e he (level + 1)⟩

end Brackets

/-- **A storable value is printed in printable ASCII and line breaks**, at
any level of indentation. -/
theorem isPrinted_renderAt (indent : Option Nat) {depth : Nat} {v : Json} (h : Storable depth v) :
    ∀ level, ∀ c ∈ (renderAt indent level v).toList, IsPrinted c := by
  induction h with
  | null =>
    intro level
    rw [renderAt]
    exact isPrinted_of_all rfl
  | bool b =>
    intro level
    rw [renderAt]
    cases b with
    | true => exact isPrinted_of_all rfl
    | false => exact isPrinted_of_all rfl
  | @int _ n _ =>
    intro level
    rw [renderAt]
    exact isPrinted_toString n
  | str s =>
    intro level
    rw [renderAt]
    exact isPrinted_literal s
  | arr _ ih =>
    intro level
    rw [renderAt]
    refine isPrinted_enclose rfl rfl (by decide) (by decide) fun t ht => ?_
    obtain ⟨v, hv, rfl⟩ := mem_renderItems ht
    exact ih v hv (level + 1)
  | obj _ _ ih =>
    intro level
    rw [renderAt, ← renderOdd_scripted]
    exact isPrinted_members (List.forall_mem_map.2 ih)
  | stray _ =>
    intro level
    rw [renderAt]
    exact isPrinted_literal _
  | odd _ _ _ _ ih =>
    intro level
    rw [renderAt]
    exact isPrinted_members ih

end Disasm.Json
