import Disasm.Proofs.JsonMembers
import Disasm.Proofs.SavedSettings
/-!
# Stable settings — what was made normal stays as it is

Whatever values the fields are given, a configuration that is made of them
is stored as settings in normal form, and settings in normal form are the
ones that making a configuration leaves alone (`normal_iff`). Loading ends
in such a configuration. A file that holds an object is put over the
defaults and not touched, and of the values that stand in it for one name
the last counts; any other file is replaced by the defaults. Either way a
second loading finds a file it leaves alone (`settings_settle`).
-/

namespace Disasm

open Act

namespace Machine

variable {m m' : Machine} {path : String} {content new : Bytes}

/-- A file that could be read and was written to can be read. -/
theorem CanRead.of_writeFile (h : m.CanRead path content)
    (hwrite : (writeFile path new).exec m = (.ok ⟨⟩, m')) : m'.CanRead path new := by
  obtain ⟨place, executable, hnode, hread⟩ := h
  have halike := (FileTree.Alike.refl m.files).put (FileTree.node?_of_nodeAt hnode) new
  have hroom : m.HasRoom new := by
    rcases cases_writeFile hwrite with ⟨_, hf, -⟩ | ⟨-, hroom, -⟩ | ⟨_, hf, -⟩
    · cases hf
    · exact hroom
    · cases hf
  rcases hmay : m.files.unwritable.contains place
  · cases (exec_writeFile hnode hmay hroom).symm.trans hwrite
    exact ⟨place, executable, FileTree.nodeAt_put hnode new, halike.unreadable ▸ hread⟩
  · have hopen : (openForWriting path).exec m = (.error (.system .accessDenied path), m) := by
      rw [openForWriting, exec_bind_ok (exec_get m), FileTree.seek_of_nodeAt hnode]
      rw [exec_bind_ok (exec_ofExcept _ m)]
      dsimp only
      rw [if_pos hmay]
      rfl
    rw [writeFile, exec_bind_error hopen] at hwrite
    cases hwrite

end Machine

namespace Settings

variable {s : Settings} {c : Config} {m m' : Machine} {store : Path} {content : Bytes}

/-! ## Normal form -/

/-- Settings in normal form: a backend that counts as true, a positive
integer, a truth value, a suffix with its dot and a list of texts. The two
other fields may have any value. -/
structure Normal (s : Settings) : Prop where
  backend : s.backend.truthy = true
  sniffLimit : ∃ n : Int, 0 < n ∧ s.sniffLimit = .int n
  refuseRemote : ∃ b, s.refuseRemote = .bool b
  marker : ∃ t : Script, Text.startsWith t.shown "." = true ∧ s.marker = .ofScript t
  extraArguments : ∃ args : List Script, s.extraArguments = .arr (args.map .ofScript)

theorem normal_of_normalize (h : s.normalize = .ok c) : c.toSettings.Normal := by
  rw [normalize] at h
  obtain ⟨marker, hmarker, h⟩ := ok_of_bind h
  obtain ⟨args, hargs, h⟩ := ok_of_bind h
  cases h
  have hlimit := normalLimit_pos s.sniffLimit
  refine ⟨?_, ⟨normalLimit s.sniffLimit, ?_, rfl⟩, ⟨_, rfl⟩, ⟨marker, ?_, rfl⟩, ⟨args, rfl⟩⟩
  · dsimp only [Config.toSettings]
    split
    · assumption
    · rfl
  · omega
  · exact startsWith_normalMarker hmarker

/-- A configuration is made of settings in normal form, and they are what it
is stored as. -/
theorem Normal.kept (h : s.Normal) : ∃ c, s.normalize = .ok c ∧ c.toSettings = s := by
  obtain ⟨backend, limit, refuse, marker, extra, ssh, last⟩ := s
  obtain ⟨hbackend, ⟨n, hn, hlimit⟩, ⟨b, hrefuse⟩, ⟨t, ht, hmarker⟩, ⟨args, hextra⟩⟩ := h
  dsimp only at hbackend hlimit hrefuse hmarker hextra
  subst hlimit hrefuse hmarker hextra
  refine ⟨⟨backend, n.toNat, b, t, args, ssh, last⟩, ?_, ?_⟩
  · rw [normalize]
    dsimp only
    rw [normalMarker_ofScript, normalSuffix_of_startsWith ht, normalArguments_texts,
      if_pos hbackend, normalLimit, if_pos hn]
    rfl
  · simp only [Config.toSettings]
    congr
    omega

/-- **Settings are in normal form if making a configuration leaves them
alone.** -/
theorem normal_iff (s : Settings) : s.Normal ↔ ∃ c, s.normalize = .ok c ∧ c.toSettings = s := by
  constructor
  · exact Normal.kept
  · rintro ⟨c, hc, rfl⟩
    exact normal_of_normalize hc

theorem ofFields_fields (s : Settings) : Config.ofFields s.fields = s.normalize := by
  have hknown : unknownField? s.fields = none := rfl
  rw [Config.ofFields, replace, hknown]
  dsimp only
  rw [update_fields]

/-- The configuration made anew of what a configuration is stored as, which is
copied for that. -/
def rebuild (c : Config) (depth : Nat) : Except Failure Config := do
  let copied ← c.toSettings.copy depth
  Config.ofFields copied.fields

/-- A configuration is stored in normal form and made again by what it is
stored as. If that is copied first, only a value that is nested too deep for
the copy can prevent it. -/
structure Settled (c : Config) : Prop where
  normal : c.toSettings.Normal
  kept : Config.ofFields c.toSettings.fields = .ok c
  rebuilt : ∀ depth, rebuild c depth = .ok c ∨
    rebuild c depth = .error .nestedTooDeep ∧ ∃ f ∈ c.toSettings.fields, depth < f.2.copyCost

theorem rebuild_of_kept (h : Config.ofFields c.toSettings.fields = .ok c) (depth : Nat) :
    rebuild c depth = .ok c ∨
      rebuild c depth = .error .nestedTooDeep ∧
        ∃ f ∈ c.toSettings.fields, depth < f.2.copyCost := by
  rw [rebuild, copy]
  by_cases hfits : c.toSettings.fields.all (·.2.copyCost ≤ depth) = true
  · rw [if_pos hfits]
    exact .inl h
  · refine .inr ⟨by rw [if_neg hfits]; rfl, ?_⟩
    simpa using hfits

theorem settled_of_normalize (h : s.normalize = .ok c) : Settled c where
  normal := normal_of_normalize h
  kept := (ofFields_fields _).trans (normalize_toSettings h)
  rebuilt := rebuild_of_kept ((ofFields_fields _).trans (normalize_toSettings h))

/-- Named fields that make a configuration are put over the defaults first. -/
theorem exists_of_ofFields {given : List (String × Json)} (h : Config.ofFields given = .ok c) :
    ∃ s : Settings, s.normalize = .ok c := by
  rw [Config.ofFields, replace] at h
  split at h
  · cases h
  · exact ⟨_, h⟩

/-! ## Members as they stand in the file -/

theorem given?_eq_lookup {members : List (String × Json)} (h : (members.map Prod.fst).Nodup)
    (name : String) : given? members name = members.lookup name := by
  induction members with
  | nil => rfl
  | cons first rest ih =>
    obtain ⟨other, value⟩ := first
    obtain ⟨hnew, hrest⟩ := List.nodup_cons.1 h
    rw [given?_cons, ih hrest, List.lookup_cons]
    by_cases hname : other = name
    · -- A name that comes first does not come again.
      subst hname
      have hnone : rest.lookup other = none := by
        rw [List.lookup_eq_none_iff]
        intro e he
        exact bne_iff_ne.2 fun hname => hnew (List.mem_map.2 ⟨e, he, hname.symm⟩)
      simp [hnone]
    · have hne : (name == other) = false := beq_false_of_ne (Ne.symm hname)
      simp [hname, hne]

theorem given?_named (es : List (Script × Json)) (name : String) :
    given? (Json.named es) name = es.reverse.lookup (.plain name) := by
  have hreverse : (Json.named es).reverse = Json.named es.reverse :=
    (List.filterMap_reverse ..).symm
  rw [given?, hreverse, Json.lookup_named]

theorem given?_gather (es : List (Script × Json)) (name : String) :
    given? (Json.named (Json.gather [] es)) name = given? (Json.named es) name := by
  have hnames : (([] : List (Script × Json)).map Prod.fst).Nodup := List.nodup_nil
  rw [given?_eq_lookup (Json.nodup_named (Json.nodup_gather hnames es)), Json.lookup_named,
    Json.lookup_gather, given?_named]
  exact Option.or_none

theorem overridden_gather (s : Settings) (es : List (Script × Json)) :
    s.overridden (Json.named (Json.gather [] es)) = s.overridden (Json.named es) := by
  simp only [overridden, given?_gather]

/-- The members of the object that a settings file holds, as they stand in
its text, where values may be nested to a depth. -/
def entriesIn (depth : Nat) (content : Bytes) : Option (List (Script × Json)) :=
  match Text.Utf8.decodeStrict content with
  | .ok text => (Json.entriesOf (Text.newlines text) depth).toOption
  | .error _ => none

theorem reading_object_iff {depth : Nat} {v : Json} :
    reading depth content = .ok (.ok v) ∧ v.fields?.isSome ↔
      ∃ es, entriesIn depth content = some es ∧ Json.object (Json.gather [] es) = v := by
  rw [reading, entriesIn]
  rcases Text.Utf8.decodeStrict content with u | text
  · constructor
    · rintro ⟨h, -⟩
      cases h
    · rintro ⟨es, hes, -⟩
      cases hes
  · simp only [Except.map, Except.ok.injEq]
    rw [Json.read_object_iff]
    rcases Json.entriesOf (Text.newlines text) depth with f | es
    · simp [Except.toOption]
    · simp [Except.toOption]

/-! ## Loading -/

theorem canRead_of_load {place : Place} {executable : Bool}
    (hnode : m.files.nodeAt m.here true store.text = .ok (place, .file content executable))
    (h : (load store).exec m = (.ok c, m')) : m.CanRead store.text content := by
  refine ⟨place, executable, hnode, ?_⟩
  -- A file that may not be read fails before anything is made of it.
  by_contra hread
  have hstore : (readStore store).exec m = (.error (.system .accessDenied store.text), m) := by
    rw [readStore]
    refine exec_bind_error ?_
    rw [Machine.exec_contentOf hnode, if_pos (by simpa using hread)]
  rw [load_eq, exec_bind_ok (Machine.exec_existsAt hnode)] at h
  change (readStore store >>= fun s => get >>= fun m =>
    adopt store (Json.read s m.depth)).exec m = _ at h
  rw [exec_bind_error hstore] at h
  cases h

theorem canRead_of_saveDefaults (hfile : m.CanRead store.text content)
    (h : (saveDefaults store).exec m = (.ok c, m')) :
    c = {} ∧ m'.CanRead store.text defaults.stored := by
  obtain ⟨⟨⟩, m₁, hsave, h⟩ := ok_of_exec_bind h
  cases h
  rw [exec_save (copy_defaults m)] at hsave
  exact ⟨rfl, hfile.of_writeFile hsave⟩

theorem canRead_of_adopt {r : Except Json.ReadFault Json} (hfile : m.CanRead store.text content)
    (hr : ∀ v, r = .ok v → v.fields? = none) (h : (adopt store r).exec m = (.ok c, m')) :
    c = {} ∧ m'.CanRead store.text defaults.stored := by
  rcases r with (_ | _ | _) | v
  · -- The warning may go to the settings file itself, which is then written anew.
    obtain ⟨m₁, other, hlog, hthere⟩ := hfile.exec_log Log.warning "config_manager"
      ("settings file " ++ store.text ++ " is corrupt, restoring defaults")
    rw [adopt, exec_bind_ok hlog] at h
    exact canRead_of_saveDefaults hthere h
  · cases h
  · cases h
  · rw [adopt_bare (hr v rfl)] at h
    exact canRead_of_saveDefaults hfile h

/-- Loading that returns either puts an object over the defaults or replaces
what it found. -/
theorem cases_load (hfile : m.CanRead store.text content)
    (h : (load store).exec m = (.ok c, m')) :
    (∃ es, entriesIn m.depth content = some es ∧
      (defaults.overridden (Json.named es)).normalize = .ok c ∧ m' = m) ∨
    entriesIn m.depth content = none ∧ c = {} ∧ m'.CanRead store.text defaults.stored := by
  rw [exec_load_canRead hfile] at h
  rcases hread : reading m.depth content with u | r
  · rw [hread] at h
    cases h
  rw [hread] at h
  by_cases hobj : ∃ v, r = .ok v ∧ v.fields?.isSome
  · obtain ⟨v, rfl, hobject⟩ := hobj
    obtain ⟨es, hes, rfl⟩ := reading_object_iff.1 ⟨hread, hobject⟩
    dsimp only at h
    rw [adopt_object (Json.fields?_object _), exec_ofExcept, update_eq_overridden,
      overridden_gather] at h
    exact .inl ⟨es, hes, congrArg Prod.fst h, (congrArg Prod.snd h).symm⟩
  · refine .inr ⟨?_, canRead_of_adopt hfile (fun v hr => ?_) h⟩
    · rw [Option.eq_none_iff_forall_ne_some]
      intro es hes
      obtain ⟨hes, hobject⟩ := reading_object_iff.2 ⟨es, hes, rfl⟩
      rw [hread] at hes
      exact hobj ⟨_, Except.ok.inj hes, hobject⟩
    · rw [← Option.not_isSome_iff_eq_none]
      exact fun hobject => hobj ⟨v, hr, hobject⟩

/-- **Settings settle.** Whatever a configuration was made of, it is stored
in normal form, and what it is stored as makes it again, unless it is copied
and has a value that is nested too deep for the copy; the settings in
normal form are those that are stored as they were given. A settings file that was loaded gave
such a configuration. If it holds an object, the configuration is made of
the defaults with the last value that stands in the object for each field,
and nothing on the machine changes; if not, the configuration is the default
one, which the file then holds. Loading again returns the same configuration
and changes nothing. -/
theorem settings_settle :
    (∀ (given : List (String × Json)) (c : Config), Config.ofFields given = .ok c → Settled c) ∧
    (∀ s : Settings, s.Normal ↔ ∃ c, Config.ofFields s.fields = .ok c ∧ c.toSettings = s) ∧
    ∀ (m m' : Machine) (store : Path) (place : Place) (content : Bytes) (executable : Bool)
      (c : Config),
      m.files.nodeAt m.here true store.text = .ok (place, .file content executable) →
      (load store).exec m = (.ok c, m') →
        Settled c ∧
        (∀ es, entriesIn m.depth content = some es →
          Config.ofFields (defaults.overridden (Json.named es)).fields = .ok c ∧ m' = m) ∧
        (entriesIn m.depth content = none →
          c = {} ∧ m'.CanRead store.text c.toSettings.stored) ∧
        (load store).exec m' = (.ok c, m') := by
  refine ⟨?_, ?_, ?_⟩
  · intro given c h
    obtain ⟨s, hs⟩ := exists_of_ofFields h
    exact settled_of_normalize hs
  · intro s
    rw [ofFields_fields]
    exact normal_iff s
  · intro m m' store place content executable c hnode hload
    have hfile := canRead_of_load hnode hload
    rcases cases_load hfile hload with ⟨es, hes, hc, rfl⟩ | ⟨hnone, rfl, hthere⟩
    · refine ⟨settled_of_normalize hc, ?_, ?_, hload⟩
      · intro _ hsame
        cases hes.symm.trans hsame
        exact ⟨(ofFields_fields _).trans hc, rfl⟩
      · intro hnone
        rw [hes] at hnone
        cases hnone
    · have hdefaults : defaults.normalize = .ok {} := rfl
      refine ⟨settled_of_normalize hdefaults, ?_, fun _ => ⟨rfl, hthere⟩, ?_⟩
      · intro es hes
        rw [hes] at hnone
        cases hnone
      · rw [typed_defaults.exec_load hthere, hdefaults]

/-- An object that gives the suffix twice, and a field there is not. -/
def repeating : Bytes :=
  Text.Utf8.encode "\x7b\"view_extension\": \"a\", \"x\": 1, \"view_extension\": \"b\"\x7d"

/-- The later suffix counts and the file stays; an empty list is replaced,
and what it is replaced by is loaded as it is. -/
theorem settings_settle_repeating :
    (∃ c : Config, c.marker = ".b" ∧ Config.ofFields c.toSettings.fields = .ok c ∧
      (load (Path.ofString "/s")).exec (lone repeating) = (.ok c, lone repeating)) ∧
    ∃ m', (load (Path.ofString "/s")).exec (lone [0x5B, 0x5D]) = (.ok {}, m') ∧
      m'.CanRead (Path.ofString "/s").text defaults.stored ∧
      (load (Path.ofString "/s")).exec m' = (.ok {}, m') := by
  constructor
  · have hmarker : ((load (Path.ofString "/s")).exec (lone repeating)).1.toOption.map
        Config.marker = some ".b" := by decide +kernel
    obtain ⟨es, hes⟩ := Option.isSome_iff_exists.1
      (by decide +kernel : (entriesIn (lone repeating).depth repeating).isSome = true)
    rcases hload : (load (Path.ofString "/s")).exec (lone repeating) with ⟨f | c, m'⟩
    · rw [hload] at hmarker
      cases hmarker
    · rw [hload] at hmarker
      obtain ⟨hsettled, hobject, -⟩ := settings_settle.2.2 _ _ _ ["s"] _ false _ rfl hload
      obtain ⟨-, rfl⟩ := hobject es hes
      exact ⟨c, Option.some.inj hmarker, hsettled.kept, rfl⟩
  · obtain ⟨m', hload, -⟩ := exec_adopt_replaced (hasFile_lone [0x5B, 0x5D])
      (.bare rfl : Replaced (.ok (.arr []))) rfl
    have hread : reading (lone [0x5B, 0x5D]).depth [0x5B, 0x5D] = .ok (.ok (.arr [])) := rfl
    have hload : (load (Path.ofString "/s")).exec (lone [0x5B, 0x5D]) = (.ok {}, m') := by
      rw [exec_load (hasFile_lone _), hread]
      exact hload
    obtain ⟨-, -, hreplaced, hagain⟩ := settings_settle.2.2 _ _ _ ["s"] _ false _ rfl hload
    exact ⟨m', hload, (hreplaced rfl).2, hagain⟩

/-- Empty lists in one another. -/
def nest : Nat → Json
  | 0 => .arr []
  | n + 1 => .arr [nest n]

/-- Each list takes two steps of the stack. -/
theorem copyCost_nest (n : Nat) : (nest n).copyCost = 2 * n := by
  induction n with
  | zero => rfl
  | succ n ih =>
    have hstep : (nest (n + 1)).copyCost = max ((nest n).copyCost + 2) 0 := rfl
    rw [hstep, ih]
    omega

/-- **What is nested deep is not copied**: a configuration can be made of it,
and none of what that is stored as. -/
theorem nested_not_rebuilt :
    Config.ofFields [("last_opened", nest 600)] = .ok { lastOpened := nest 600 } ∧
      rebuild { lastOpened := nest 600 } Json.usualDepth = .error .nestedTooDeep := by
  refine ⟨rfl, ?_⟩
  have hdeep : ¬(nest 600).copyCost ≤ Json.usualDepth := by
    rw [copyCost_nest, Json.usualDepth]
    omega
  have hfields : ¬(({ lastOpened := nest 600 } : Config).toSettings.fields.all
      (·.2.copyCost ≤ Json.usualDepth)) = true := by
    simp [fields, Config.toSettings, hdeep]
  rw [rebuild, copy, if_neg hfields]
  rfl

end Settings

end Disasm
