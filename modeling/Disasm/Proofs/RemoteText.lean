import Disasm.Location.Reader
import Disasm.Proofs.ProbeEnd
import Disasm.Proofs.SettledCase
import Disasm.Proofs.Utf8
import Mathlib.Data.List.TakeWhile
/-!
# Remote texts — what a URL is read as

A remote location is written as a scheme, maybe a user, a host, maybe a
port, and a path in which bytes are spelled by percent signs. Every
reading step looks for the delimiters of one part, so each of them could
take a character that was meant for another. `Url` is a text in the
documented form, with what it was meant to say; `read_url` says that it is
read as that, or refused for the host or the port it has.
-/

namespace Disasm

/-! ## Spelling bytes -/

namespace Text.Percent

/-- The characters of a path that stand for themselves: those that no URL
reserves, and the slash. -/
def isPlain (c : Char) : Bool :=
  c.isAlphanum || c = '-' || c = '.' || c = '_' || c = '~' || c = '/'

/-- A hexadecimal digit of a value, in either case. -/
def IsHexDigit (n : Nat) (c : Char) : Prop :=
  c = n.digitChar ∨ c = n.digitChar.toUpper

/-- The ways to spell bytes. What does not stand for itself is written as a
percent sign and two digits; what does may be. -/
inductive Spells : Bytes → List Char → Prop
  | nil : Spells [] []
  | plain {c : Char} {bs : Bytes} {cs : List Char} :
      isPlain c = true → Spells bs cs → Spells (UInt8.ofNat c.toNat :: bs) (c :: cs)
  | escaped {b : UInt8} {hi lo : Char} {bs : Bytes} {cs : List Char} :
      IsHexDigit (b.toNat / 16) hi → IsHexDigit (b.toNat % 16) lo → Spells bs cs →
      Spells (b :: bs) ('%' :: hi :: lo :: cs)

variable {bs : Bytes} {cs : List Char} {c hi lo : Char} {n : Nat}

/-- A digit is read as what it is worth, in either case. -/
theorem IsHexDigit.nibble? (h : IsHexDigit n c) (hn : n < 16) : nibble? c = some n := by
  have hall : ∀ d < 16, Percent.nibble? d.digitChar = some d ∧
      Percent.nibble? d.digitChar.toUpper = some d := by
    decide
  rcases h with rfl | rfl
  · exact (hall n hn).1
  · exact (hall n hn).2

theorem IsHexDigit.isPlain (h : IsHexDigit n c) (hn : n < 16) : isPlain c = true := by
  have hall : ∀ d < 16, Percent.isPlain d.digitChar = true ∧
      Percent.isPlain d.digitChar.toUpper = true := by
    decide
  rcases h with rfl | rfl
  · exact (hall n hn).1
  · exact (hall n hn).2

/-- Two digits of a byte write it. -/
theorem octet?_digits {b : UInt8} (hhi : IsHexDigit (b.toNat / 16) hi)
    (hlo : IsHexDigit (b.toNat % 16) lo) : octet? hi lo = some b := by
  have hb : b.toNat < 256 := b.toNat_lt
  have hsum : b.toNat / 16 * 16 + b.toNat % 16 = b.toNat := by omega
  unfold octet?
  rw [hhi.nibble? (by omega), hlo.nibble? (by omega)]
  show some (UInt8.ofNat (b.toNat / 16 * 16 + b.toNat % 16)) = some b
  rw [hsum, UInt8.ofNat_toNat]

/-- **Bytes are read off their spelling.** -/
theorem Spells.bytes (h : Spells bs cs) : bytes cs = bs := by
  induction h with
  | nil => rfl
  | plain hc _ ih =>
    rw [Percent.bytes, ih]
    rintro hi lo rest rfl _
    exact absurd hc (by decide)
  | escaped hhi hlo _ ih => rw [Percent.bytes, octet?_digits hhi hlo, ih]

/-- A spelling is made of plain characters and percent signs. -/
theorem Spells.plain_or_percent (h : Spells bs cs) : ∀ c ∈ cs, isPlain c = true ∨ c = '%' := by
  induction h with
  | nil => simp
  | plain hc _ ih => exact List.forall_mem_cons.2 ⟨.inl hc, ih⟩
  | @escaped b hi lo bs cs hhi hlo _ ih =>
    have hb : b.toNat < 256 := b.toNat_lt
    refine List.forall_mem_cons.2 ⟨.inr rfl, List.forall_mem_cons.2 ⟨.inl ?_, ?_⟩⟩
    · exact hhi.isPlain (by omega)
    · exact List.forall_mem_cons.2 ⟨.inl (hlo.isPlain (by omega)), ih⟩

theorem toNat_of_isAlphanum (h : c.isAlphanum = true) : c.toNat < 0x80 := by
  unfold Char.isAlphanum Char.isAlpha Char.isUpper Char.isLower Char.isDigit at h
  simp only [Bool.or_eq_true, Bool.and_eq_true, decide_eq_true_eq] at h
  rcases h with (⟨-, h⟩ | ⟨-, h⟩) | ⟨-, h⟩
  all_goals
    have hle : c.toNat ≤ _ := h
    exact Nat.lt_of_le_of_lt hle (by decide)

/-- What is not escaped is ASCII. -/
theorem toNat_of_isPlain (h : isPlain c = true) : c.toNat < 0x80 := by
  unfold isPlain at h
  simp only [Bool.or_eq_true, decide_eq_true_eq] at h
  rcases h with ((((h | rfl) | rfl) | rfl) | rfl) | rfl
  · exact toNat_of_isAlphanum h
  all_goals decide

/-- One run of ASCII characters is decoded at once. -/
theorem decodeFrom_ascii (run : List Char) (h : ∀ c ∈ cs, isAscii c = true) :
    decodeFrom run cs = (Utf8.decodeLenient (Percent.bytes (run.reverse ++ cs))).toList := by
  induction cs generalizing run with
  | nil => rw [decodeFrom, List.append_nil]
  | cons c cs ih =>
    rw [List.forall_mem_cons] at h
    rw [decodeFrom, if_pos h.1, ih (c :: run) h.2, List.reverse_cons, List.append_assoc]
    rfl

/-- **A text is decoded from the spelling of its bytes.** -/
theorem Spells.decode {s spelling : String} (h : Spells (Utf8.encode s) spelling.toList) :
    decode spelling = s := by
  have hascii : ∀ c ∈ spelling.toList, isAscii c = true := by
    intro c hc
    rcases h.plain_or_percent c hc with hplain | rfl
    · exact decide_eq_true (toNat_of_isPlain hplain)
    · decide
  rw [Percent.decode, decodeFrom_ascii [] hascii, List.reverse_nil, List.nil_append, h.bytes,
    Utf8.decodeLenient_encode, String.ofList_toList]

end Text.Percent

/-! ## Cuts -/

namespace Text

variable {sep : Char} {head tail cs : List Char}

/-- Text without a separator is passed over by a search for it. -/
theorem passes_of_notMem (h : sep ∉ cs) : ∀ c ∈ cs, decide (c ≠ sep) = true := by
  intro c hc
  exact decide_eq_true fun heq => h (heq ▸ hc)

/-- Without the separator everything stands in front of it. -/
theorem cutFirst_of_notMem (h : sep ∉ cs) : cutFirst sep cs = (cs, []) := by
  rw [cutFirst, List.takeWhile_eq_self_iff.2 (passes_of_notMem h),
    List.dropWhile_eq_nil_iff.2 (passes_of_notMem h)]
  rfl

/-- The first separator is where the text is cut. -/
theorem cutFirst_append (h : sep ∉ head) (tail : List Char) :
    cutFirst sep (head ++ sep :: tail) = (head, tail) := by
  rw [cutFirst, List.takeWhile_append_of_pos (passes_of_notMem h),
    List.dropWhile_append_of_pos (passes_of_notMem h)]
  simp

/-- Without the separator there is nothing to cut. -/
theorem cutLast?_of_notMem (h : sep ∉ cs) : cutLast? sep cs = none := by
  rw [cutLast?, if_neg (by simpa using h)]

/-- The last separator is where the text is cut. -/
theorem cutLast?_append (head : List Char) (h : sep ∉ tail) :
    cutLast? sep (head ++ sep :: tail) = some (head, tail) := by
  have hrev : (head ++ sep :: tail).reverse = tail.reverse ++ sep :: head.reverse := by
    simp
  rw [cutLast?, if_pos (by simp), hrev, cutFirst_append (by simpa using h)]
  simp

/-- The two lower cases agree on ASCII. -/
theorem lowerFrom_ascii (before : List Char) (h : ∀ c ∈ cs, c.toNat < 0x80) :
    lowerFrom before cs = cs.map Char.toLower := by
  have hwhole := lowerFrom_append before h []
  rwa [List.append_nil, lowerFrom, List.append_nil] at hwhole

end Text

/-! ## Cutting a remote text -/

namespace Location

open Text

/-- A scheme is known in any case. -/
theorem cutScheme?_append {scheme : String} (h : lowerAscii scheme ∈ schemes) (behind : String) :
    cutScheme? (scheme ++ "://" ++ behind) = some (lowerAscii scheme, behind.toList) := by
  obtain ⟨low, hlow⟩ : ∃ low, low = lowerAscii scheme := ⟨_, rfl⟩
  have hchars : scheme.toList.map Char.toLower = low.toList := by
    rw [hlow, lowerAscii, String.toList_ofList]
  have hlength : scheme.toList.length = low.toList.length := by
    rw [← hchars, List.length_map]
  have hcolon : "://".toList.map Char.toLower = "://".toList := by decide
  have hfront : ∀ rest : List Char,
      (low ++ "://").toList.isPrefixOf (low.toList ++ "://".toList ++ rest) = true := by
    intro rest
    rw [String.toList_append, List.isPrefixOf_iff_prefix]
    exact List.prefix_append _ _
  have hdrop : ∀ rest : List Char,
      (scheme.toList ++ "://".toList ++ rest).drop (low ++ "://").toList.length = rest := by
    intro rest
    rw [String.toList_append, List.length_append, ← hlength, ← List.length_append,
      List.drop_left]
  rw [← hlow] at h ⊢
  unfold cutScheme?
  rw [String.toList_append, String.toList_append, List.map_append, List.map_append, hchars, hcolon]
  -- The longer scheme is tried last, and is not begun by the shorter one.
  simp only [schemes, List.mem_cons, List.not_mem_nil, or_false] at h
  rcases h with rfl | rfl
  · rw [schemes, List.findSome?_cons]
    simp only [hfront, hdrop, if_true]
  · have hother : ∀ rest : List Char, ("ssh" ++ "://").toList.isPrefixOf
        ("sftp".toList ++ "://".toList ++ rest) = false := by
      intro rest
      rfl
    rw [schemes, List.findSome?_cons, List.findSome?_cons]
    simp only [hfront, hdrop, hother, if_true, Bool.false_eq_true, if_false]

/-- The authority ends where the path begins. -/
theorem cutAuthority_append {authority behind : List Char}
    (h : ∀ c ∈ authority, endsAuthority c = false) (hbehind : behind.head? = some '/') :
    cutAuthority (authority ++ behind) = (authority, behind) := by
  have hgo : ∀ c ∈ authority, (!endsAuthority c) = true := by
    intro c hc
    rw [h c hc]
    rfl
  obtain ⟨cs, rfl⟩ := List.head?_eq_some_iff.1 hbehind
  rw [cutAuthority, List.takeWhile_append_of_pos hgo, List.dropWhile_append_of_pos hgo,
    List.takeWhile_cons_of_neg (by decide), List.dropWhile_cons_of_neg (by decide),
    List.append_nil]

/-- The cut is made at the last at sign. -/
theorem cutUser_append (info : Option (List Char)) {hostport : List Char} (h : '@' ∉ hostport) :
    cutUser (info.elim [] (· ++ ['@']) ++ hostport) = (info, hostport) := by
  unfold cutUser
  rcases info with _ | info
  · rw [Option.elim_none, List.nil_append, cutLast?_of_notMem h]
  · rw [Option.elim_some, List.append_assoc, List.singleton_append, cutLast?_append _ h]

/-- Without brackets the host ends at the first colon. -/
theorem cutPort_append {host : List Char} (port : Option (List Char))
    (hopens : '[' ∉ host ++ port.elim [] (':' :: ·)) (hcolon : ':' ∉ host) :
    cutPort (host ++ port.elim [] (':' :: ·)) = (host, port.getD []) := by
  rw [cutPort, if_neg (by simpa using hopens)]
  rcases port with _ | port
  · rw [Option.elim_none, List.append_nil, cutFirst_of_notMem hcolon]
    rfl
  · rw [Option.elim_some, cutFirst_append hcolon]
    rfl

/-! ## The parts of a remote text -/

/-- A text of ASCII letters, digits and the marks that are given. -/
def Over (marks : List Char) (s : String) : Prop :=
  ∀ c ∈ s.toList, c.isAlphanum = true ∨ c ∈ marks

instance (marks : List Char) (s : String) : Decidable (Over marks s) :=
  List.decidableBAll (fun c : Char => c.isAlphanum = true ∨ c ∈ marks) s.toList

/-- A remote text in the documented form, part by part. -/
structure Url where
  scheme : String
  user : Option String
  host : String
  port : Option String
  path : String
  /-- The path as it is written. -/
  spelling : String
  scheme_mem : lowerAscii scheme ∈ schemes
  user_over : ∀ name ∈ user, name ≠ "" ∧ Over ['.', '_', '-'] name
  host_over : Over ['.', '-'] host
  port_over : ∀ t ∈ port, t ≠ "" ∧ Over ['+', '-', '.', '_'] t
  /-- The path is absolute, and the slash in front is written as itself. -/
  rooted : spelling.toList.head? = some '/'
  spells : Percent.Spells (Utf8.encode path) spelling.toList

namespace Url

/-- What names the host. -/
def authority (u : Url) : String :=
  u.user.elim "" (· ++ "@") ++ (u.host ++ u.port.elim "" (":" ++ ·))

/-- The text that a user writes. -/
def text (u : Url) : String :=
  u.scheme ++ "://" ++ (u.authority ++ u.spelling)

/-- What the text means, with the number of its port. -/
def meaning (u : Url) (port : Option Int) : Location where
  path := u.path
  host := some (lowerAscii u.host)
  user := u.user
  port
  scheme := lowerAscii u.scheme

variable {u : Url} {c : Char}

/-! ## No part takes a character of another -/

/-- The characters at which a remote text is cut, or which it loses. -/
def delimiters : List Char :=
  ['\t', '\n', '\r', '/', '?', '#', '[', ']', '@', ':', '%']

/-- The characters of a user, a host or a port. -/
def isWord (c : Char) : Bool :=
  c.isAlphanum || ['+', '-', '.', '_'].contains c

/-- A character of a word is ASCII. -/
theorem toNat_of_isWord (h : isWord c = true) : c.toNat < 0x80 := by
  have hmarks : ['+', '-', '.', '_'].all (·.toNat < 0x80) = true := by decide
  unfold isWord at h
  rw [Bool.or_eq_true, List.contains_iff_mem] at h
  rcases h with h | h
  · exact Percent.toNat_of_isAlphanum h
  · exact of_decide_eq_true (List.all_eq_true.1 hmarks c h)

/-- It is no delimiter. -/
theorem notMem_of_isWord (h : isWord c = true) : c ∉ delimiters := by
  have hall : delimiters.all (!isWord ·) = true := by decide
  intro hc
  have hnot := List.all_eq_true.1 hall c hc
  rw [h] at hnot
  cases hnot

/-- Letters, digits and some of the marks make words. -/
theorem isWord_of_over {marks : List Char} {s : String} (h : Over marks s)
    (hmarks : marks ⊆ ['+', '-', '.', '_']) : ∀ c ∈ s.toList, isWord c = true := by
  intro c hc
  unfold isWord
  rw [Bool.or_eq_true, List.contains_iff_mem]
  exact (h c hc).imp_right (hmarks ·)

theorem isWord_user (u : Url) : ∀ name ∈ u.user, ∀ c ∈ name.toList, isWord c = true := by
  intro name hname
  exact isWord_of_over (u.user_over name hname).2 (by simp)

theorem isWord_host (u : Url) : ∀ c ∈ u.host.toList, isWord c = true :=
  isWord_of_over u.host_over (by simp)

theorem isWord_port (u : Url) : ∀ t ∈ u.port, ∀ c ∈ t.toList, isWord c = true := by
  intro t ht
  exact isWord_of_over (u.port_over t ht).2 (by simp)

/-- The host and the port as they are written. -/
def hostport (u : Url) : List Char :=
  u.host.toList ++ u.port.elim [] (':' :: ·.toList)

/-- An authority is the user, if there is one, and the host with its port. -/
theorem toList_authority (u : Url) :
    u.authority.toList = u.user.elim [] (·.toList ++ ['@']) ++ u.hostport := by
  rw [authority, hostport, String.toList_append, String.toList_append]
  rcases u.user with _ | name <;> rcases u.port with _ | t <;> simp

/-- Host and port are words, with a colon between them. -/
theorem mem_hostport (h : c ∈ u.hostport) : isWord c = true ∨ c = ':' := by
  rw [hostport, List.mem_append] at h
  rcases h with h | h
  · exact .inl (u.isWord_host c h)
  · rcases hport : u.port with _ | t
    · simp [hport] at h
    · rw [hport, Option.elim_some, List.mem_cons] at h
      exact h.symm.imp_left (u.isWord_port t hport c)

/-- Behind a user stands an at sign. -/
theorem mem_authority (h : c ∈ u.authority.toList) : isWord c = true ∨ c = '@' ∨ c = ':' := by
  rw [toList_authority, List.mem_append] at h
  rcases h with h | h
  · rcases huser : u.user with _ | name
    · simp [huser] at h
    · rw [huser, Option.elim_some, List.mem_append, List.mem_singleton] at h
      exact h.imp (u.isWord_user name huser c) .inl
  · exact (mem_hostport h).imp_right .inr

theorem toNat_of_mem_authority (h : c ∈ u.authority.toList) : c.toNat < 0x80 := by
  rcases mem_authority h with hword | rfl | rfl
  · exact toNat_of_isWord hword
  · decide
  · decide

/-- So a host and its port hold no delimiter but the colon. -/
theorem notMem_hostport (u : Url) {d : Char} (hd : d ∈ delimiters ∧ d ≠ ':') :
    d ∉ u.hostport := by
  intro h
  rcases mem_hostport h with hword | heq
  · exact notMem_of_isWord hword hd.1
  · exact hd.2 heq

/-- An authority holds none but the colon and the at sign. -/
theorem notMem_authority (u : Url) {d : Char} (hd : d ∈ delimiters ∧ d ≠ '@' ∧ d ≠ ':') :
    d ∉ u.authority.toList := by
  intro h
  rcases mem_authority h with hword | heq | heq
  · exact notMem_of_isWord hword hd.1
  · exact hd.2.1 heq
  · exact hd.2.2 heq

/-- What spells a path is no delimiter but a slash and a percent sign. -/
theorem notMem_spelling (u : Url) {d : Char} (hd : d ∈ delimiters ∧ d ≠ '/' ∧ d ≠ '%') :
    d ∉ u.spelling.toList := by
  intro h
  rcases u.spells.plain_or_percent d h with hplain | heq
  · have hall : delimiters.all (fun d => d == '/' || !Percent.isPlain d) = true := by decide
    have hnot := List.all_eq_true.1 hall d hd.1
    simp [hplain, hd.2.1] at hnot
  · exact hd.2.2 heq

/-! ## Each step of the reading -/

/-- The scheme is what stands in front of the first two slashes. -/
theorem cutScheme?_text (u : Url) :
    cutScheme? u.text = some (lowerAscii u.scheme, (u.authority ++ u.spelling).toList) :=
  cutScheme?_append u.scheme_mem _

/-- There are no line breaks to drop: they are escaped in the path, and the rest
is made of words. -/
theorem dropBreaks_text (u : Url) :
    dropBreaks (u.authority ++ u.spelling).toList = u.authority.toList ++ u.spelling.toList := by
  rw [String.toList_append, dropBreaks, List.filter_eq_self]
  intro c hc
  have hne : ∀ d, d ∈ delimiters ∧ d ≠ '@' ∧ d ≠ ':' → d ∈ delimiters ∧ d ≠ '/' ∧ d ≠ '%' →
      c ≠ d := by
    intro d hauthority hspelling
    rcases List.mem_append.1 hc with hc | hc
    · exact ne_of_mem_of_not_mem hc (u.notMem_authority hauthority)
    · exact ne_of_mem_of_not_mem hc (u.notMem_spelling hspelling)
  have htab := hne '\t' (by decide) (by decide)
  have hfeed := hne '\n' (by decide) (by decide)
  have hreturn := hne '\r' (by decide) (by decide)
  simp [htab, hfeed, hreturn]

/-- The authority ends where the path begins, which is with a slash. -/
theorem cutAuthority_text (u : Url) :
    cutAuthority (u.authority.toList ++ u.spelling.toList) =
      (u.authority.toList, u.spelling.toList) := by
  refine cutAuthority_append (fun c hc => ?_) u.rooted
  have hslash : c ≠ '/' := ne_of_mem_of_not_mem hc (u.notMem_authority (by decide))
  have hquery : c ≠ '?' := ne_of_mem_of_not_mem hc (u.notMem_authority (by decide))
  have hmark : c ≠ '#' := ne_of_mem_of_not_mem hc (u.notMem_authority (by decide))
  simp [endsAuthority, hslash, hquery, hmark]

/-- There are no brackets to check. -/
theorem checkBrackets_authority (u : Url) : checkBrackets u.authority.toList = .ok () := by
  have hopens : u.authority.toList.contains '[' = false := by
    simpa using u.notMem_authority (d := '[') (by decide)
  have hcloses : u.authority.toList.contains ']' = false := by
    simpa using u.notMem_authority (d := ']') (by decide)
  unfold checkBrackets
  simp only [hopens, hcloses]
  rfl

/-- Nor are there characters that turn into delimiters. -/
theorem checkStable_authority (u : Url) : checkStable u.authority.toList = .ok () := by
  refine if_neg ?_
  rw [Bool.not_eq_true, List.any_eq_false]
  intro c hc
  have hwide : ∀ n ∈ unstableChars, 0x80 ≤ n := by decide
  have hlow := toNat_of_mem_authority hc
  intro hin
  have := hwide c.toNat (List.contains_iff_mem.1 hin)
  omega

/-- The user is what stands in front of the at sign. -/
theorem cutUser_authority (u : Url) :
    cutUser u.authority.toList = (u.user.map String.toList, u.hostport) := by
  have hcut := cutUser_append (u.user.map String.toList) (u.notMem_hostport (d := '@') (by decide))
  rw [toList_authority]
  rwa [Option.elim_map] at hcut

/-- The port is what stands behind the colon. -/
theorem cutPort_hostport (u : Url) :
    cutPort u.hostport = (u.host.toList, u.port.elim [] String.toList) := by
  have hopens : '[' ∉ u.hostport := u.notMem_hostport (by decide)
  have hcolon : ':' ∉ u.host.toList := fun h =>
    notMem_of_isWord (u.isWord_host ':' h) (by decide)
  unfold hostport at hopens ⊢
  rcases hport : u.port with _ | t
  · rw [hport] at hopens
    exact cutPort_append none hopens hcolon
  · rw [hport] at hopens
    exact cutPort_append (some t.toList) hopens hcolon

/-- A host is read in lower case. -/
theorem lowerHost_host (u : Url) : lowerHost u.host.toList = lowerAscii u.host := by
  have hzone : ∀ c ∈ u.host.toList, decide (c ≠ '%') = true :=
    passes_of_notMem fun h => notMem_of_isWord (u.isWord_host '%' h) (by decide)
  have hascii : ∀ c ∈ u.host.toList, c.toNat < 0x80 := fun c hc =>
    toNat_of_isWord (u.isWord_host c hc)
  rw [lowerHost, List.takeWhile_eq_self_iff.2 hzone, List.dropWhile_eq_nil_iff.2 hzone,
    String.ofList_toList, lower, lowerFrom_ascii [] hascii, lowerAscii]
  exact String.append_empty

/-- There is no password to leave out. -/
theorem cutName_user (u : Url) :
    (u.user.map String.toList).map (fun cs => String.ofList (cutFirst ':' cs).1) = u.user := by
  rcases huser : u.user with _ | name
  · rfl
  · have hcolon : ':' ∉ name.toList := fun h =>
      notMem_of_isWord (u.isWord_user name huser ':' h) (by decide)
    show some (String.ofList (cutFirst ':' name.toList).1) = some name
    rw [cutFirst_of_notMem hcolon, String.ofList_toList]

/-- Nothing is cut off the path: number signs and question marks are escaped. -/
theorem urlPath_spelling (u : Url) : urlPath u.spelling.toList = u.spelling.toList := by
  have hmark : ∀ c ∈ u.spelling.toList, decide (c ≠ '#') = true :=
    passes_of_notMem (u.notMem_spelling (by decide))
  have hquery : ∀ c ∈ u.spelling.toList, decide (c ≠ '?') = true :=
    passes_of_notMem (u.notMem_spelling (by decide))
  rw [urlPath, List.takeWhile_eq_self_iff.2 hmark, List.takeWhile_eq_self_iff.2 hquery]

theorem path_ne_empty (u : Url) : u.path ≠ "" := by
  intro hempty
  have hspells := u.spells
  rw [hempty] at hspells
  have hbytes := hspells.bytes
  obtain ⟨cs, hcs⟩ := List.head?_eq_some_iff.1 u.rooted
  -- The slash in front is a byte, and the empty path has none.
  rw [hcs, Percent.bytes] at hbytes
  · cases hbytes
  · rintro hi lo rest ⟨⟩

/-- **A remote text is read part by part**: what is left to decide is
whether it names a host, and its port. -/
theorem read_text (u : Url) (cwd home : Option String) (users : List (String × String)) :
    Location.read cwd home users u.text =
      if u.host = "" then .error (.url (.missingHost u.text))
      else (readPort (u.port.elim [] String.toList)).map u.meaning := by
  have hpath : (Percent.decode (String.ofList u.spelling.toList)).isEmpty = false := by
    rw [String.ofList_toList, u.spells.decode]
    simpa using u.path_ne_empty
  unfold Location.read
  rw [u.cutScheme?_text]
  show readRemote u.text (lowerAscii u.scheme) (u.authority ++ u.spelling).toList = _
  unfold readRemote
  rw [u.dropBreaks_text, u.cutAuthority_text]
  dsimp only
  rw [u.checkBrackets_authority, u.checkStable_authority, u.cutUser_authority]
  dsimp only
  rw [u.cutPort_hostport]
  dsimp only
  rw [u.lowerHost_host, u.cutName_user, u.urlPath_spelling]
  by_cases hhost : u.host = ""
  · rw [if_pos hhost, if_pos (by simp [hhost])]
    rfl
  · rw [if_neg hhost, if_neg (by simpa using hhost), hpath, String.ofList_toList, u.spells.decode]
    rcases readPort (u.port.elim [] String.toList) with f | port
    · rfl
    · rfl

end Url

/-! ## Ports -/

theorem ofDigitChars_zeros (k : Nat) : Nat.ofDigitChars 10 (List.replicate k '0') 0 = 0 := by
  induction k with
  | zero => rfl
  | succ k ih => exact ih

/-- Digits of a number up to the largest port are read as that number. -/
theorem readPort_digits {cs : List Char} (hne : cs ≠ []) (hdigits : ∀ c ∈ cs, c.isDigit = true)
    (hlength : cs.length ≤ Numeral.maxDigits) (hvalue : Nat.ofDigitChars 10 cs 0 ≤ 65535) :
    readPort cs = .ok (some (Nat.ofDigitChars 10 cs 0 : Nat)) := by
  have hall : cs.all Char.isDigit = true := List.all_eq_true.2 hdigits
  unfold readPort
  rw [if_neg (by simpa using hne), hall, if_neg (by decide), if_neg (by omega),
    if_neg (by omega)]

/-- A number up to the largest port is read from its decimal digits, with
zeros in front of them or without. -/
theorem readPort_padLeft {n width : Nat} (hn : n ≤ 65535) (hwidth : width ≤ Numeral.maxDigits) :
    readPort (Numeral.padLeft width '0' (toString n)).toList = .ok (some (n : Int)) := by
  have hfive : (Nat.toDigits 10 n).length ≤ 5 :=
    (Nat.length_toDigits_le_iff (by decide) (by decide)).2 (by omega)
  have htext : (Numeral.padLeft width '0' (toString n)).toList =
      List.replicate (width - (Nat.toDigits 10 n).length) '0' ++ Nat.toDigits 10 n := by
    rw [Numeral.padLeft, String.toList_append, String.toList_ofList,
      Nat.toString_eq_ofList_toDigits, String.toList_ofList, String.length_ofList]
  have hvalue : Nat.ofDigitChars 10
      (List.replicate (width - (Nat.toDigits 10 n).length) '0' ++ Nat.toDigits 10 n) 0 = n := by
    rw [Nat.ofDigitChars_append, ofDigitChars_zeros,
      Nat.ofDigitChars_toDigits (by decide) (by decide)]
  rw [htext, readPort_digits (by simp) ?_ ?_ (by omega), hvalue]
  · intro c hc
    rcases List.mem_append.1 hc with hc | hc
    · rw [List.eq_of_mem_replicate hc]
      rfl
    · exact Nat.isDigit_of_mem_toDigits (by decide) (by decide) hc
  · have hmax : Numeral.maxDigits = 4300 := rfl
    rw [List.length_append, List.length_replicate]
    omega

/-- A port that is no number, or too large a one, is refused. -/
theorem readPort_refused {cs : List Char} (hne : cs ≠ [])
    (h : (∃ c ∈ cs, c.isDigit = false) ∨ 65535 < Nat.ofDigitChars 10 cs 0) :
    ∃ f, readPort cs = .error f := by
  rw [readPort, if_neg (by simpa using hne)]
  split
  · exact ⟨_, rfl⟩
  rename_i hall
  have hdigits : ∀ c ∈ cs, c.isDigit = true := by simpa using hall
  split
  · exact ⟨_, rfl⟩
  rcases h with ⟨c, hc, hdigit⟩ | h
  · rw [hdigits c hc] at hdigit
    cases hdigit
  · rw [if_pos h]
    exact ⟨_, rfl⟩

/-- **A remote text in the documented form is read as what it says**, in
whatever case its scheme and its digits are and whatever its path holds.
A text without a host, or with a port that is no number up to 65535, is a
wrong value. -/
theorem read_url (cwd home : Option String) (users : List (String × String)) (u : Url) :
    (u.host ≠ "" → u.port = none → Location.read cwd home users u.text = .ok (u.meaning none)) ∧
    (u.host ≠ "" → ∀ n : Nat, n ≤ 65535 → ∀ width ≤ Numeral.maxDigits,
      u.port = some (Numeral.padLeft width '0' (toString n)) →
        Location.read cwd home users u.text = .ok (u.meaning (some n))) ∧
    (u.host = "" → ∃ f, Location.read cwd home users u.text = .error f ∧ f.isValue = true) ∧
    ∀ t, u.port = some t →
      (∃ c ∈ t.toList, c.isDigit = false) ∨ 65535 < Nat.ofDigitChars 10 t.toList 0 →
        ∃ f, Location.read cwd home users u.text = .error f ∧ f.isValue = true := by
  have hread := u.read_text cwd home users
  have hvalue : ∀ f, Location.read cwd home users u.text = .error f → f.isValue = true := by
    intro f hf
    rw [Location.read, u.cutScheme?_text] at hf
    exact isValue_of_readRemote hf
  refine ⟨fun hhost hport => ?_, fun hhost n hn width hwidth hport => ?_, fun hhost => ?_,
    fun t hport h => ?_⟩
  · rw [hread, if_neg hhost, hport]
    rfl
  · rw [hread, if_neg hhost, hport, Option.elim_some, readPort_padLeft hn hwidth]
    rfl
  · rw [if_pos hhost] at hread
    exact ⟨_, hread, hvalue _ hread⟩
  · have herror : ∃ f, Location.read cwd home users u.text = .error f := by
      by_cases hhost : u.host = ""
      · exact ⟨_, hread.trans (if_pos hhost)⟩
      · have hne : t.toList ≠ [] := by simpa using (u.port_over t hport).1
        obtain ⟨f, hf⟩ := readPort_refused hne h
        rw [if_neg hhost, hport, Option.elim_some, hf] at hread
        exact ⟨f, hread⟩
    obtain ⟨f, hf⟩ := herror
    exact ⟨f, hf, hvalue f hf⟩

/-- A text whose path holds every delimiter, and whose letters are of
either case. -/
def Url.mixed (host port : String) (hhost : Over ['.', '-'] host)
    (hport : port ≠ "" ∧ Over ['+', '-', '.', '_'] port) : Url where
  scheme := "sFTp"
  user := some "a.b_c-1"
  host
  port := some port
  path := "/?#%@:[]/\n\x00é~"
  spelling := "/%3f%23%25%40%3A%5b%5D/%0a%00%c3%A9~"
  scheme_mem := by decide
  user_over := by
    rintro _ ⟨⟩
    decide
  host_over := hhost
  port_over := by
    rintro _ ⟨⟩
    exact hport
  rooted := by decide
  spells := by
    have hbytes : Utf8.encode "/?#%@:[]/\n\x00é~" =
        [0x2F, 0x3F, 0x23, 0x25, 0x40, 0x3A, 0x5B, 0x5D, 0x2F, 0x0A, 0x00, 0xC3, 0xA9, 0x7E] := by
      decide
    rw [hbytes]
    refine .plain (c := '/') rfl ?_
    refine .escaped (.inl rfl) (.inl rfl) (.escaped (.inl rfl) (.inl rfl) ?_)
    refine .escaped (.inl rfl) (.inl rfl) (.escaped (.inl rfl) (.inl rfl) ?_)
    refine .escaped (.inl rfl) (.inr rfl) (.escaped (.inl rfl) (.inl rfl) ?_)
    refine .escaped (.inl rfl) (.inr rfl) (.plain (c := '/') rfl ?_)
    refine .escaped (.inl rfl) (.inl rfl) (.escaped (.inl rfl) (.inl rfl) ?_)
    refine .escaped (.inl rfl) (.inl rfl) (.escaped (.inr rfl) (.inl rfl) ?_)
    exact .plain (c := '~') rfl .nil

theorem read_url_mixed :
    Location.read "/" "/" [] "sFTp://a.b_c-1@Ho-st.0:0022/%3f%23%25%40%3A%5b%5D/%0a%00%c3%A9~" =
      .ok { path := "/?#%@:[]/\n\x00é~", host := some "ho-st.0", user := some "a.b_c-1",
            port := some 22, scheme := "sftp" } ∧
    (∃ f, Location.read "/" "/" [] (Url.mixed "" "22" (by decide) (by decide)).text = .error f ∧
      f.isValue = true) ∧
    (∃ f, Location.read "/" "/" [] (Url.mixed "h" "2_2" (by decide) (by decide)).text = .error f ∧
      f.isValue = true) ∧
    ∃ f, Location.read "/" "/" [] (Url.mixed "h" "65536" (by decide) (by decide)).text =
      .error f ∧ f.isValue = true := by
  have htext : (Url.mixed "Ho-st.0" "0022" (by decide) (by decide)).text =
      "sFTp://a.b_c-1@Ho-st.0:0022/%3f%23%25%40%3A%5b%5D/%0a%00%c3%A9~" := by
    decide +kernel
  have hmeaning : (Url.mixed "Ho-st.0" "0022" (by decide) (by decide)).meaning (some 22) =
      { path := "/?#%@:[]/\n\x00é~", host := some "ho-st.0", user := some "a.b_c-1",
        port := some 22, scheme := "sftp" } := by
    decide +kernel
  refine ⟨?_, ?_, ?_, ?_⟩
  · rw [← htext, ← hmeaning]
    exact (read_url "/" "/" [] (Url.mixed "Ho-st.0" "0022" (by decide) (by decide))).2.1
      (by decide) 22 (by decide) 4 (by decide) (by decide +kernel)
  · exact (read_url "/" "/" [] (Url.mixed "" "22" (by decide) (by decide))).2.2.1 rfl
  · exact (read_url "/" "/" [] (Url.mixed "h" "2_2" (by decide) (by decide))).2.2.2 "2_2" rfl
      (.inl ⟨'_', by decide, by decide⟩)
  · exact (read_url "/" "/" [] (Url.mixed "h" "65536" (by decide) (by decide))).2.2.2 "65536" rfl
      (.inr (by decide))

end Location

end Disasm
