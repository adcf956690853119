import Disasm.Proofs.RemoteText
import Disasm.Proofs.SavedSettings
/-!
# Percent decoding — what it leaves alone

Decoding makes no text longer, and one with an escape in it shorter: a
percent sign and two hexadecimal digits become one byte, and no byte
becomes more than one character. A text without an escape is the bytes of
its characters, run by run, and comes back as it was. So decoding leaves a
text alone exactly if it holds no escape (`decode_eq_self_iff`).
-/

namespace Disasm.Text

namespace Utf8

variable {skip : Nat} {bs : Bytes}

/-- No byte becomes more than one piece. -/
theorem length_piecesFrom_le (skip : Nat) (bs : Bytes) :
    (piecesFrom skip bs).length ≤ bs.length := by
  fun_induction piecesFrom skip bs with
  | case1 => exact Nat.le_refl 0
  | case2 skip b rest ih =>
    rw [List.length_cons]
    omega
  | case3 b rest p ih =>
    rw [List.length_cons, List.length_cons]
    omega

theorem decodeLenient_slash (bs : Bytes) :
    (decodeLenient (0x2F :: bs)).toList = '/' :: (decodeLenient bs).toList := by
  rw [decodeLenient, decodeLenient, String.toList_ofList, String.toList_ofList]
  rfl

theorem length_decodeLenient_le (bs : Bytes) : (decodeLenient bs).toList.length ≤ bs.length := by
  rw [decodeLenient, String.toList_ofList, List.length_map]
  exact length_piecesFrom_le 0 bs

end Utf8

namespace Percent

variable {c : Char} {cs front rest : List Char}

/-- A percent sign with two hexadecimal digits behind it stands in a text. -/
inductive Escapes : List Char → Prop
  | here {hi lo : Char} {b : UInt8} {rest : List Char} :
      octet? hi lo = some b → Escapes ('%' :: hi :: lo :: rest)
  | later {c : Char} {cs : List Char} : Escapes cs → Escapes (c :: cs)

theorem length_bytes_le (cs : List Char) : (bytes cs).length ≤ cs.length := by
  fun_induction bytes cs with
  | case1 => exact Nat.le_refl 0
  | case2 hi lo rest b hb ih =>
    simp only [List.length_cons]
    omega
  | case3 hi lo rest hb ih =>
    simp only [List.length_cons] at ih ⊢
    omega
  | case4 c rest hpercent ih =>
    simp only [List.length_cons]
    omega

/-- An escape takes three characters for a byte. -/
theorem length_bytes_lt (h : Escapes cs) : (bytes cs).length < cs.length := by
  fun_induction bytes cs with
  | case1 => cases h
  | case2 hi lo rest b hb ih =>
    have hrest := length_bytes_le rest
    simp only [List.length_cons]
    omega
  | case3 hi lo rest hb ih =>
    cases h with
    | here hsome => cases hb.symm.trans hsome
    | later hlater =>
      have hshort := ih hlater
      simp only [List.length_cons] at hshort ⊢
      omega
  | case4 c rest hpercent ih =>
    cases h with
    | here hsome => exact absurd rfl (hpercent _ _ _ rfl)
    | later hlater =>
      have hshort := ih hlater
      simp only [List.length_cons]
      omega

/-- Without escapes a text within ASCII is its own bytes. -/
theorem bytes_of_plain (h : ¬Escapes cs) (hascii : ∀ c ∈ cs, isAscii c = true) :
    bytes cs = cs.flatMap String.utf8EncodeChar := by
  have hchar : ∀ c, isAscii c = true → String.utf8EncodeChar c = [UInt8.ofNat c.toNat] :=
    fun c hc => Utf8.encodeChar_ascii (of_decide_eq_true hc)
  fun_induction bytes cs with
  | case1 => rfl
  | case2 hi lo rest b hb ih => exact absurd (.here hb) h
  | case3 hi lo rest hb ih =>
    rw [List.forall_mem_cons] at hascii
    rw [List.flatMap_cons, hchar '%' rfl, ih (fun hlater => h (.later hlater)) hascii.2]
    rfl
  | case4 c rest hpercent ih =>
    rw [List.forall_mem_cons] at hascii
    rw [List.flatMap_cons, hchar c hascii.1, ih (fun hlater => h (.later hlater)) hascii.2]
    rfl

/-- A run of ASCII characters is left alone exactly if it has no escape. -/
theorem decode_run_iff (hascii : ∀ c ∈ cs, isAscii c = true) :
    (Utf8.decodeLenient (bytes cs)).toList = cs ↔ ¬Escapes cs := by
  constructor
  · intro hsame hescapes
    have hlength := Utf8.length_decodeLenient_le (bytes cs)
    have hshort := length_bytes_lt hescapes
    rw [hsame] at hlength
    omega
  · intro hplain
    have hencode : bytes cs = Utf8.encode (String.ofList cs) := by
      rw [bytes_of_plain hplain hascii, Utf8.encode, String.toList_ofList]
    rw [hencode, Utf8.decodeLenient_encode, String.toList_ofList]

theorem isAscii_of_nibble? {n : Nat} (h : nibble? c = some n) : isAscii c = true := by
  have hbound : c ≤ '9' ∨ c ≤ 'f' ∨ c ≤ 'F' := by
    unfold nibble? at h
    split at h
    · rename_i hdigit
      exact .inl hdigit.2
    split at h
    · rename_i hletter
      exact .inr (.inl hletter.2)
    split at h
    · rename_i hletter
      exact .inr (.inr hletter.2)
    · cases h
  have hcode : c.toNat ≤ 0x39 ∨ c.toNat ≤ 0x66 ∨ c.toNat ≤ 0x46 := hbound
  exact decide_eq_true (by omega)

theorem isAscii_of_octet? {hi lo : Char} {b : UInt8} (h : octet? hi lo = some b) :
    isAscii hi = true ∧ isAscii lo = true := by
  obtain ⟨_, hhi, h⟩ := Option.bind_eq_some_iff.1 h
  obtain ⟨_, hlo, -⟩ := Option.bind_eq_some_iff.1 h
  exact ⟨isAscii_of_nibble? hhi, isAscii_of_nibble? hlo⟩

/-- A character past ASCII is in no escape. -/
theorem escapes_append_iff (hc : isAscii c = false) :
    Escapes (front ++ c :: rest) ↔ Escapes front ∨ Escapes rest := by
  induction front with
  | nil =>
    constructor
    · intro h
      cases h with
      | here hsome => exact absurd hc (by decide)
      | later hlater => exact .inr hlater
    · rintro (h | h)
      · cases h
      · exact .later h
  | cons d front ih =>
    constructor
    · intro h
      have hcases : Escapes (d :: front) ∨ Escapes (front ++ c :: rest) := by
        -- An escape at the front would need the character as one of its digits.
        rcases front with _ | ⟨hi, _ | ⟨lo, front⟩⟩
        · cases h with
          | here hsome => rw [(isAscii_of_octet? hsome).1] at hc; cases hc
          | later hlater => exact .inr hlater
        · cases h with
          | here hsome => rw [(isAscii_of_octet? hsome).2] at hc; cases hc
          | later hlater => exact .inr hlater
        · cases h with
          | here hsome => exact .inl (.here hsome)
          | later hlater => exact .inr hlater
      rcases hcases with hfront | hlater
      · exact .inl hfront
      · exact (ih.1 hlater).imp_left .later
    · rintro (h | h)
      · cases h with
        | here hsome => exact .here hsome
        | later hlater => exact .later (ih.2 (.inl hlater))
      · exact .later (ih.2 (.inr h))

theorem length_decodeFrom_le (run cs : List Char) :
    (decodeFrom run cs).length ≤ run.length + cs.length := by
  have hrun : ∀ run : List Char,
      (Utf8.decodeLenient (bytes run.reverse)).toList.length ≤ run.length := by
    intro run
    have hbytes := length_bytes_le run.reverse
    have hdecoded := Utf8.length_decodeLenient_le (bytes run.reverse)
    rw [List.length_reverse] at hbytes
    omega
  fun_induction decodeFrom run cs with
  | case1 run =>
    have := hrun run
    simpa using this
  | case2 run c rest hc ih =>
    simp only [List.length_cons] at ih ⊢
    omega
  | case3 run c rest hc ih =>
    have := hrun run
    simp only [List.length_append, List.length_cons, List.length_nil] at ih ⊢
    omega

theorem decodeFrom_eq_iff (run cs : List Char) (hrun : ∀ c ∈ run, isAscii c = true) :
    decodeFrom run cs = run.reverse ++ cs ↔ ¬Escapes (run.reverse ++ cs) := by
  fun_induction decodeFrom run cs with
  | case1 run =>
    rw [List.append_nil]
    exact decode_run_iff fun c hc => hrun c (List.mem_reverse.1 hc)
  | case2 run c rest hc ih =>
    have hwhole := ih (List.forall_mem_cons.2 ⟨hc, hrun⟩)
    rwa [List.reverse_cons, List.append_assoc] at hwhole
  | case3 run c rest hc ih =>
    have hwide : isAscii c = false := by simpa using hc
    have hhead : (Utf8.decodeLenient (bytes run.reverse)).toList = run.reverse ↔
        ¬Escapes run.reverse := decode_run_iff fun c hc => hrun c (List.mem_reverse.1 hc)
    have htail : decodeFrom [] rest = rest ↔ ¬Escapes rest := ih nofun
    rw [escapes_append_iff hwide, not_or, ← hhead, ← htail]
    constructor
    · intro hwhole
      -- Neither part gets longer, so the parts are the same if the wholes are.
      have hfirst := Utf8.length_decodeLenient_le (bytes run.reverse)
      have hbytes := length_bytes_le run.reverse
      have hsecond := length_decodeFrom_le [] rest
      have hlength := congrArg List.length hwhole
      simp only [List.length_append, List.length_cons, List.length_nil] at hlength hsecond
      obtain ⟨hsame, hrest⟩ := List.append_inj hwhole (by omega)
      exact ⟨hsame, (List.cons.inj hrest).2⟩
    · rintro ⟨hsame, hrest⟩
      rw [hsame, hrest]

/-- **Decoding leaves a text alone exactly if it holds no escape.** -/
theorem decode_eq_self_iff (s : String) : decode s = s ↔ ¬Escapes s.toList := by
  rw [← String.toList_inj, decode, String.toList_ofList]
  exact decodeFrom_eq_iff [] s.toList fun _ hc => absurd hc List.not_mem_nil

instance (cs : List Char) : Decidable (Escapes cs) :=
  decidable_of_iff (decode (String.ofList cs) ≠ String.ofList cs) <| by
    rw [ne_eq, decode_eq_self_iff, String.toList_ofList, not_not]

theorem length_decode_le (s : String) : (decode s).toList.length ≤ s.toList.length := by
  have hlength := length_decodeFrom_le [] s.toList
  rw [decode, String.toList_ofList]
  simpa using hlength

/-- A slash in front stands for itself, whatever comes behind it. -/
theorem decodeFrom_slash (run cs : List Char) :
    decodeFrom (run ++ ['/']) cs = '/' :: decodeFrom run cs := by
  have hbytes : ∀ cs : List Char, bytes ('/' :: cs) = 0x2F :: bytes cs := by
    intro cs
    rw [bytes]
    · rfl
    · rintro hi lo rest ⟨⟩
  fun_induction decodeFrom run cs with
  | case1 run =>
    rw [decodeFrom, List.reverse_append, List.reverse_singleton, List.singleton_append, hbytes,
      Utf8.decodeLenient_slash]
  | case2 run c rest hc ih =>
    rw [decodeFrom, if_pos hc]
    exact ih
  | case3 run c rest hc ih =>
    rw [decodeFrom, if_neg hc, List.reverse_append, List.reverse_singleton,
      List.singleton_append, hbytes, Utf8.decodeLenient_slash]
    rfl

end Percent

end Disasm.Text
