import Disasm.Opening.Listing
import Disasm.Proofs.ResolveReply
/-!
# Sniffing — the same answer for the same first bytes

Bytes can be at hand, come from a reader or stand in a file. However a
source holds them, what is searched are the first `limit` of them, and a
reader is asked for just those, once (`Holds.exec_sample`). So the answer
says where the first null byte below the limit is (`IsFirstNul`). It hangs
on nothing else, and a hit is found again under every larger limit.

A local file is sniffed at before it is probed, and a remote one while it
is. The first bytes of the remote one are cut off by the host it is on,
which makes no difference to the answer.
-/

namespace Disasm

open Act

namespace Sniff

variable {m : Machine} {s : Source} {d d' : Bytes} {limit limit' : Int} {i : Nat}
variable {offset : Option Nat}

/-! ## The first null byte -/

/-- Where the first null byte below a limit is, if there is one. -/
def IsFirstNul (d : Bytes) (limit : Int) : Option Nat → Prop
  | some i => (i : Int) < limit ∧ d[i]? = some 0 ∧ ∀ j < i, d[j]? ≠ some 0
  | none => ∀ i : Nat, (i : Int) < limit → d[i]? ≠ some 0

theorem getElem?_take_toNat (d : Bytes) (h : (i : Int) < limit) :
    (d.take limit.toNat)[i]? = d[i]? :=
  List.getElem?_take_of_lt (by omega)

/-- Searching the first bytes finds it. -/
theorem isFirstNul_nulOffset? (d : Bytes) (limit : Int) :
    IsFirstNul d limit (nulOffset? (d.take limit.toNat)) := by
  rcases hoffset : nulOffset? (d.take limit.toNat) with _ | i
  · rw [nulOffset?, List.findIdx?_eq_none_iff] at hoffset
    intro i hi hnul
    rw [← getElem?_take_toNat d hi] at hnul
    exact absurd rfl (of_decide_eq_false (hoffset 0 (List.mem_of_getElem? hnul)))
  · rw [nulOffset?, List.findIdx?_eq_some_iff_getElem] at hoffset
    obtain ⟨hi, hnul, hbefore⟩ := hoffset
    have hlimit : (i : Int) < limit := by
      rw [List.length_take] at hi
      omega
    refine ⟨hlimit, ?_, ?_⟩
    · rw [← getElem?_take_toNat d hlimit, List.getElem?_eq_getElem hi, of_decide_eq_true hnul]
    · intro j hj hzero
      have hbelow : (j : Int) < limit := by omega
      rw [← getElem?_take_toNat d hbelow, List.getElem?_eq_getElem (hj.trans hi),
        Option.some_inj] at hzero
      exact hbefore j hj (decide_eq_true hzero)

theorem IsFirstNul.isSome_iff (h : IsFirstNul d limit offset) :
    offset.isSome = true ↔ ∃ i : Nat, (i : Int) < limit ∧ d[i]? = some 0 := by
  rcases offset with _ | i
  · refine iff_of_false Bool.false_ne_true ?_
    rintro ⟨i, hi, hnul⟩
    exact h i hi hnul
  · exact iff_of_true rfl ⟨i, h.1, h.2.1⟩

/-- There is one place for the first null byte at most. -/
theorem IsFirstNul.unique {other : Option Nat} (h : IsFirstNul d limit offset)
    (h' : IsFirstNul d limit other) : offset = other := by
  rcases offset with _ | i <;> rcases other with _ | j
  · rfl
  · exact absurd h'.2.1 (h j h'.1)
  · exact absurd h.2.1 (h' i h.1)
  · have hij : ¬i < j := fun hlt => h'.2.2 i hlt h.2.1
    have hji : ¬j < i := fun hlt => h.2.2 j hlt h'.2.1
    rw [show i = j by omega]

/-- A hit is one under every larger limit. -/
theorem IsFirstNul.mono (h : IsFirstNul d limit (some i)) (hle : limit ≤ limit') :
    IsFirstNul d limit' (some i) :=
  ⟨lt_of_lt_of_le h.1 hle, h.2⟩

/-! ## Sources -/

/-- A source holds these bytes. -/
inductive Holds (m : Machine) : Source → Bytes → Prop
  | bytes (d : Bytes) : Holds m (.bytes d) d
  | reader (content : Option Bytes) : Holds m (.reader content) (content.getD [])
  | file {path : String} {d : Bytes} : m.CanRead path d → Holds m (.file path) d

/-- The sizes that a source is asked for: a reader is asked once, unless there
is nothing to ask for. -/
def requests (limit : Int) : Source → List Int
  | .reader _ => if 0 < limit then [limit] else []
  | _ => []

/-- The first bytes of a source are those that it holds, and taking them
changes nothing. -/
theorem Holds.exec_sample (h : Holds m s d) (hlimit : limit ≤ 2 ^ 31) :
    (s.sample limit).exec m = (.ok ⟨d.take limit.toNat, requests limit s⟩, m) := by
  by_cases hpos : limit ≤ 0
  · have hzero : limit.toNat = 0 := by omega
    have hnone : requests limit s = [] := by
      cases s with
      | reader content => exact if_neg (by omega)
      | bytes content => rfl
      | file path => rfl
    rw [Source.sample.eq_def, if_pos hpos, hzero, hnone]
    rfl
  · rw [Source.sample.eq_def, if_neg hpos]
    cases h with
    | bytes => rfl
    | reader content =>
      rw [requests, if_pos (by omega)]
      rfl
    | @file path _ hfile =>
      have hfits : ¬Machine.maxRead < limit := by
        rw [Machine.maxRead]
        omega
      have hstart : (Machine.readStart path limit).exec m = (.ok (d.take limit.toNat), m) := by
        rw [Machine.readStart, exec_bind_ok hfile.exec_contentOf, if_neg hfits]
        rfl
      exact exec_bind_ok hstart

theorem Holds.exec_firstNul (h : Holds m s d) (hlimit : limit ≤ 2 ^ 31)
    (hoffset : IsFirstNul d limit offset) :
    (firstNul s limit).exec m = (.ok (offset, requests limit s), m) := by
  rw [firstNul, exec_bind_ok (h.exec_sample hlimit), exec_pure,
    (isFirstNul_nulOffset? d limit).unique hoffset]

theorem Holds.exec_isBinary (h : Holds m s d) (hlimit : limit ≤ 2 ^ 31)
    (hoffset : IsFirstNul d limit offset) :
    (isBinary s limit).exec m = (.ok (offset.isSome, requests limit s), m) := by
  rw [isBinary, exec_bind_ok (h.exec_firstNul hlimit hoffset)]
  rfl

/-- What bytes with the same start have in common. -/
theorem IsFirstNul.of_take_eq (h : IsFirstNul d limit offset)
    (hsame : d'.take limit.toNat = d.take limit.toNat) : IsFirstNul d' limit offset := by
  have hfound := isFirstNul_nulOffset? d' limit
  rwa [hsame, (isFirstNul_nulOffset? d limit).unique h] at hfound

end Sniff

/-! ## The two callers -/

namespace Opening

variable {c : Config} {l : Location} {m : Machine} {d : Bytes} {offset : Option Nat}

theorem exec_sniffs_canRead (hfile : m.CanRead l.path d) (hlimit : (c.sniffLimit : Int) ≤ 2 ^ 31)
    (hoffset : Sniff.IsFirstNul d c.sniffLimit offset) :
    (sniffs c l).exec m = (.ok offset.isSome, m) := by
  rw [sniffs, exec_recover, exec_map, (Sniff.Holds.file hfile).exec_isBinary hlimit hoffset]
  rfl

/-- A local file that can be read is probed exactly if it looks binary. -/
theorem exec_looksDisassemblable_canRead {path : String}
    (hl : ((Machine.readLocation path).exec m).1 = .ok l) (hlocal : l.isRemote = false)
    (hfile : m.CanRead l.path d) (hlimit : (c.sniffLimit : Int) ≤ 2 ^ 31)
    (hoffset : Sniff.IsFirstNul d c.sniffLimit offset) :
    (looksDisassemblable c path).exec m =
      (if offset.isSome then Verdict.accepted <$> Probe.probeAt c l else pure false).exec m := by
  have hread : (Machine.readLocation path).exec m = (.ok l, m) := Prod.ext hl rfl
  rw [looksDisassemblable, exec_bind_ok hread, hlocal]
  dsimp only
  rw [if_neg Bool.false_ne_true, exec_bind_ok (exec_sniffs_canRead hfile hlimit hoffset),
    map_eq_pure_bind]

end Opening

namespace Host

/-- The program that is started for the first bytes of a file on the host of
a location ends well and has printed some bytes. -/
def PrintsStart (own l : Location) (program : Json) (size : Int) (output : Bytes) (m : Machine) :
    Prop :=
  ∃ words rule rules, sshCommand own program
      (["head", "-c", toString size, "--", l.path].map .plain) = .ok words ∧
    words.any Script.refused = false ∧
    ProcessRule.choose? (words.map Script.shown) m.rules = some (rule, rules) ∧
    rule.startError = none ∧ rule.status = 0 ∧ rule.stdout = output

/-- What is asked of another host is what it prints; nothing is asked if
nothing is wanted. -/
theorem readStart_printed {own l : Location} {program : Json} {m : Machine} {size : Int}
    {d : Bytes} (h : 0 < size → PrintsStart own l program size (d.take size.toNat) m) :
    ((Host.remote own program).readStart l size |>.exec m).1 = .ok (d.take size.toNat) := by
  rw [readStart]
  by_cases hsize : size ≤ 0
  · have hzero : size.toNat = 0 := by omega
    rw [if_pos hsize, hzero, List.take_zero]
    rfl
  · obtain ⟨words, rule, rules, hwords, htaken, hrule, hstart, hstatus, hout⟩ := h (by omega)
    have hmade : (ofExcept (sshCommand own program
        (["head", "-c", toString size, "--", l.path].map .plain))).exec m = (.ok words, m) :=
      Prod.ext hwords rfl
    obtain ⟨m', hrun⟩ : ∃ m', (Machine.run { words, text := false }).exec m =
        (.ok ⟨rule.status, rule.stdout, rule.stderr⟩, m') :=
      Machine.exec_run_words htaken hrule hstart
    rw [if_neg hsize, readRemote, exec_bind_ok hmade, exec_bind_ok hrun,
      if_neg (fun hbad => hbad hstatus), hout]
    rfl

end Host

namespace Probe

/-- A remote file is shown to the backend exactly if what was read of it
looks binary. -/
theorem exec_sniffRemote_printed {c : Config} {own : Location} {identity : Identity} {m : Machine}
    {d : Bytes} {offset : Option Nat}
    (h : (((Host.remote own c.ssh).readStart identity.location c.sniffLimit).exec m).1 =
      .ok (d.take c.sniffLimit)) (hlimit : (c.sniffLimit : Int) ≤ 2 ^ 31)
    (hoffset : Sniff.IsFirstNul d c.sniffLimit offset) :
    (sniffRemote c (.remote own c.ssh) identity).exec m =
      (if offset.isSome then queryHeaders c (.remote own c.ssh) identity
        else reject .formatUnrecognized identity "no NUL byte in prefix").exec
        (((Host.remote own c.ssh).readStart identity.location c.sniffLimit).exec m).2 := by
  generalize hread : ((Host.remote own c.ssh).readStart identity.location c.sniffLimit).exec m =
    answer at h ⊢
  obtain ⟨start, m'⟩ := answer
  cases h
  -- The other host has cut the bytes off already, and they are cut once more.
  have htwice : (d.take c.sniffLimit).take (c.sniffLimit : Int).toNat =
      d.take (c.sniffLimit : Int).toNat := by
    rw [Int.toNat_natCast, List.take_take, Nat.min_self]
  have hbinary := (Sniff.Holds.bytes (d.take c.sniffLimit) (m := m')).exec_isBinary hlimit
    (hoffset.of_take_eq htwice)
  rw [sniffRemote, exec_bind_ok (exec_attempt _ m), hread]
  dsimp only
  rw [exec_bind_ok hbinary]

end Probe

namespace Sniff

/-- **Sniffing hangs on the first bytes alone.** There is one answer for all
sources whose bytes begin alike: where the first null byte below the limit
is, and whether there is one. A reader is asked once, and not at all if the
limit is not positive. A hit is what every larger limit gives too. Where the
limit is that of a configuration, a local file with these bytes is probed,
and a remote one with these bytes is shown to the backend, exactly if the
answer is yes. -/
theorem sniffing_law (d : Bytes) (limit : Int) (hlimit : limit ≤ 2 ^ 31) :
    ∃ (offset : Option Nat) (binary : Bool), IsFirstNul d limit offset ∧
      (binary = true ↔ ∃ i : Nat, (i : Int) < limit ∧ d[i]? = some 0) ∧
      (∀ m s d', Holds m s d' → d'.take limit.toNat = d.take limit.toNat →
        (firstNul s limit).exec m = (.ok (offset, requests limit s), m) ∧
        (isBinary s limit).exec m = (.ok (binary, requests limit s), m)) ∧
      (∀ i limit', offset = some i → limit ≤ limit' → limit' ≤ 2 ^ 31 → ∀ m s, Holds m s d →
        (firstNul s limit').exec m = (.ok (some i, requests limit' s), m)) ∧
      ∀ c : Config, (c.sniffLimit : Int) = limit →
        (∀ m path l, ((Machine.readLocation path).exec m).1 = .ok l → l.isRemote = false →
          m.CanRead l.path d →
          (Opening.looksDisassemblable c path).exec m =
            (if binary then Verdict.accepted <$> Probe.probeAt c l else pure false).exec m) ∧
        ∀ m own identity,
          (0 < limit → Host.PrintsStart own identity.location c.ssh limit (d.take limit.toNat) m) →
          (Probe.sniffRemote c (.remote own c.ssh) identity).exec m =
            (if binary then Probe.queryHeaders c (.remote own c.ssh) identity
              else Probe.reject .formatUnrecognized identity "no NUL byte in prefix").exec
              (((Host.remote own c.ssh).readStart identity.location limit).exec m).2 := by
  have hoffset := isFirstNul_nulOffset? d limit
  refine ⟨nulOffset? (d.take limit.toNat), _, hoffset, hoffset.isSome_iff, ?_, ?_, ?_⟩
  · intro m s d' hholds hsame
    exact ⟨hholds.exec_firstNul hlimit (hoffset.of_take_eq hsame),
      hholds.exec_isBinary hlimit (hoffset.of_take_eq hsame)⟩
  · intro i limit' hi hle hlimit' m s hholds
    rw [hi] at hoffset
    exact hholds.exec_firstNul hlimit' (hoffset.mono hle)
  · rintro c rfl
    refine ⟨?_, ?_⟩
    · intro m path l hl hlocal hfile
      exact Opening.exec_looksDisassemblable_canRead hl hlocal hfile hlimit hoffset
    · intro m own identity hprints
      exact Probe.exec_sniffRemote_printed (Host.readStart_printed hprints) hlimit hoffset

/-- Bytes whose only null byte is the third. -/
def thirdNul : Bytes := [0x7F, 0x45, 0, 0x46]

/-- A null byte that is the last one looked at: in a file, by a reader, and on
another host, where nothing is printed behind it. -/
theorem sniffing_law_last_byte :
    (Settings.lone thirdNul).CanRead "/s" thirdNul ∧
    Host.PrintsStart Host.elsewhere Host.elsewhere (.str "ssh") 3 [0x7F, 0x45, 0]
      (Host.printing [0x7F, 0x45, 0]) ∧
    (∀ m, (firstNul (.reader (some thirdNul)) 3).exec m = (.ok (some 2, [3]), m)) ∧
    (firstNul (.file "/s") 9).exec (Settings.lone thirdNul) =
      (.ok (some 2, []), Settings.lone thirdNul) ∧
    (Opening.looksDisassemblable { sniffLimit := 3 } "/s").exec (Settings.lone thirdNul) =
      (Verdict.accepted <$> Probe.probeAt { sniffLimit := 3 } { path := "/s" }).exec
        (Settings.lone thirdNul) ∧
    ∃ m', (Probe.sniffRemote { sniffLimit := 3 } (.remote Host.elsewhere (.str "ssh"))
        { location := Host.elsewhere }).exec (Host.printing [0x7F, 0x45, 0]) =
      (Probe.queryHeaders { sniffLimit := 3 } (.remote Host.elsewhere (.str "ssh"))
        { location := Host.elsewhere }).exec m' := by
  have hfile : (Settings.lone thirdNul).CanRead "/s" thirdNul := (Settings.hasFile_lone _).canRead
  have hprints : Host.PrintsStart Host.elsewhere Host.elsewhere (.str "ssh") 3 [0x7F, 0x45, 0]
      (Host.printing [0x7F, 0x45, 0]) :=
    ⟨_, { stdout := [0x7F, 0x45, 0] }, _, rfl, by decide +kernel, rfl, rfl, rfl, rfl⟩
  obtain ⟨offset, binary, -, hbinary, hanswer, hlarger, hcallers⟩ :=
    sniffing_law thirdNul 3 (by decide)
  have hoffset : offset = some 2 := by
    have hreader := (hanswer (Settings.lone []) _ _ (.reader (some thirdNul)) rfl).1
    exact (congrArg (fun r => r.1.toOption.bind Prod.fst) hreader).symm
  subst hoffset
  obtain rfl : binary = true := hbinary.2 ⟨2, by decide, rfl⟩
  obtain ⟨hlocal, hremote⟩ := hcallers { sniffLimit := 3 } rfl
  exact ⟨hfile, hprints, fun m => (hanswer m _ _ (.reader (some thirdNul)) rfl).1,
    hlarger 2 9 rfl (by decide) (by decide) _ _ (.file hfile),
    hlocal _ "/s" { path := "/s" } rfl rfl hfile, _, hremote _ _ _ fun _ => hprints⟩

end Sniff

end Disasm
