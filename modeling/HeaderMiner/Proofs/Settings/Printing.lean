import HeaderMiner.Proofs.Settings.Acceptance
import HeaderMiner.Proofs.Settings.Precedence
import HeaderMiner.Proofs.Text.Durations
import HeaderMiner.Proofs.Yaml.Documents
/-!
# Printed settings read back

A value is read back from the node that is written for it, whatever its kind, as long as there is one
way only for it to be missing (`Kind.ofYaml?_toYaml`).  A printed configuration has a member for every
setting, so all of them are given by it (`Settings.ofYaml?_text`), and nothing that is left out has a say
when it is loaded alone (`Sources.load_printed`).
-/

namespace HeaderMiner

open Yaml

/-! ## values -/

namespace Kind

/-- whether a value of the kind is always there -/
def isPresent : Kind → Bool
  | .optional _ => false
  | _ => true

/-- whether a value of the kind is missing in one way at most -/
def isFlat : Kind → Bool
  | .optional k => k.isPresent
  | _ => true

variable {k : Kind}

theorem isValue_toYaml (k : Kind) (v : k.Value) : IsValue (k.toYaml v) := by
  induction k with
  | texts =>
    refine .sequence fun n hn => ?_
    obtain ⟨s, -, rfl⟩ := List.mem_map.1 hn
    exact isItem_text s
  | port | word | long => exact .item (isItem_natural _)
  | flag =>
    cases v
    all_goals exact .item (isItem_plain (by decide) (by decide))
  | optional k ih =>
    cases v with
    | none => exact .item (isItem_plain (by decide) (by decide))
    | some v => exact ih v
  | _ => exact .item (isItem_text _)

theorem natural?_plain {bound n : Nat} (h : n < bound) :
    (Node.plain (toString n)).natural? bound = some n :=
  Plain.bounded?_toString h

theorem mapM_text (l : List String) : (l.map Node.text).mapM Node.text? = some l := by
  induction l with
  | nil => rfl
  | cons s l ih =>
    rw [List.map_cons, List.mapM_cons, ih]
    rfl

theorem parse_name (b : BackendType) : BackendType.parse b.name = .ok b := by
  cases b <;> rfl

theorem ofYaml?_toYaml_of_isPresent (h : k.isPresent = true) (v : k.Value) :
    k.ofYaml? (k.toYaml v) = some v := by
  cases k with
  | network => exact Network.ofName?_name v
  | backend =>
    show (BackendType.parse (BackendType.name v)).toOption = some v
    rw [parse_name]
    rfl
  | port =>
    show ((Node.plain (toString (UInt16.toNat v))).natural? (2 ^ 16)).map UInt16.ofNat = some v
    rw [natural?_plain (UInt16.toNat_lt v), Option.map_some, UInt16.ofNat_toNat]
  | word =>
    show ((Node.plain (toString (UInt32.toNat v))).natural? (2 ^ 32)).map UInt32.ofNat = some v
    rw [natural?_plain (UInt32.toNat_lt v), Option.map_some, UInt32.ofNat_toNat]
  | long =>
    show ((Node.plain (toString (UInt64.toNat v))).natural? (2 ^ 64)).map UInt64.ofNat = some v
    rw [natural?_plain (UInt64.toNat_lt v), Option.map_some, UInt64.ofNat_toNat]
  | flag => cases v <;> decide
  | text | path => rfl
  | texts => exact mapM_text v
  | duration => exact Duration.parse?_text v
  | level => exact Log.Level.ofName?_name v
  | form => exact Log.Form.ofName?_name v
  | optional _ => cases h

theorem isMissing?_text (s : String) : (Node.text s).isMissing? = some false := by
  rw [Node.text]
  cases hs : styleOf s with
  | plain =>
    have htyped : Plain.isTyped s = false := by
      refine Bool.eq_false_iff.2 fun ht => ?_
      rw [styleOf, ht, Bool.true_or, if_pos rfl] at hs
      split at hs <;> split at hs <;> cases hs
    simp only [Plain.isTyped, Bool.or_eq_false_iff] at htyped
    show some (s.isEmpty || Plain.isNull s) = some false
    rw [htyped.1.1.1.1, htyped.1.1.1.2]
    rfl
  | _ => rfl

theorem isMissing?_natural (n : Nat) : (Node.plain (toString n)).isMissing? = some false := by
  have hread : Plain.natural? (toString n).toList = some n := by
    rw [show (toString n).toList = Nat.toDigits 10 n from Nat.toList_repr, Plain.natural?_toDigits]
  show some ((toString n).isEmpty || Plain.isNull (toString n)) = some false
  generalize toString n = s at hread
  -- what stands for nothing is no number
  refine congrArg some (Bool.eq_false_iff.2 fun h => ?_)
  simp only [Plain.isNull, Bool.or_eq_true, beq_iff_eq, String.isEmpty_iff] at h
  rcases h with rfl | ((rfl | rfl) | rfl) | rfl
  all_goals cases hread

theorem isMissing?_toYaml (h : k.isPresent = true) (v : k.Value) :
    (k.toYaml v).isMissing? = some false := by
  cases k with
  | port | word | long => exact isMissing?_natural _
  | flag => cases v <;> decide
  | texts => rfl
  | optional _ => cases h
  | _ => exact isMissing?_text _

theorem ofYaml?_toYaml (h : k.isFlat = true) (v : k.Value) : k.ofYaml? (k.toYaml v) = some v := by
  cases k with
  | optional k =>
    cases v with
    | none => rfl
    | some v =>
      show (do if ← (k.toYaml v).isMissing? then return none
               else (k.ofYaml? (k.toYaml v)).map some) = some (some v)
      rw [isMissing?_toYaml h v, ofYaml?_toYaml_of_isPresent h v]
      rfl
  | _ => exact ofYaml?_toYaml_of_isPresent rfl v

end Kind

theorem Setting.isFlat_kind (s : Setting) : s.kind.isFlat = true := by
  cases s <;> rfl

/-! ## printed configurations -/

namespace Setting

theorem isName_key (s : Setting) : IsName s.key.toList := by
  refine ⟨?_, List.all_eq_true.1 ?_⟩
  all_goals
    revert s
    decide

theorem length_key (s : Setting) : s.key.toList.length ≤ 1024 := by
  revert s
  decide

end Setting

namespace Given

/-- members with the keys of settings give these, and leave all others as they are -/
theorem foldlM_settings {α : Type} {read : (k : Kind) → α → Option k.Value} {value : Setting → α}
    {c : Settings} {ss : List Setting} {g : Given} (hn : ss.Nodup)
    (hread : ∀ s ∈ ss, read s.kind (value s) = some (c s)) (hg : ∀ s ∈ ss, g s = none) :
    ss.foldlM (fun g s => g.addMember read s.key (value s)) g =
      some fun t => if t ∈ ss then some (c t) else g t := by
  induction ss generalizing g with
  | nil => rfl
  | cons s ss ih =>
    obtain ⟨hs, hn⟩ := List.nodup_cons.1 hn
    rw [List.forall_mem_cons] at hread hg
    have hne {t : Setting} (ht : t ∈ ss) : s ≠ t := by
      rintro rfl
      exact hs ht
    have hstep : g.addMember read s.key (value s) = some (g.set s (c s)) := by
      rw [addMember, Setting.ofKey?_key]
      dsimp only
      rw [hg.1, hread.1]
      rfl
    have hnext := ih (g := g.set s (c s)) hn hread.2 fun t ht => by
      rw [set_of_ne g _ (hne ht), hg.2 t ht]
    rw [List.foldlM_cons, hstep, Option.bind_eq_bind, Option.bind_some, hnext]
    refine congrArg some (funext fun t => ?_)
    by_cases ht : t ∈ ss
    · rw [if_pos ht, if_pos (List.mem_cons_of_mem s ht)]
    · rw [if_neg ht]
      by_cases hts : t = s
      · rw [hts, set_self, if_pos List.mem_cons_self]
      · rw [set_of_ne g _ (Ne.symm hts), if_neg (by simp [hts, ht])]

end Given

namespace Settings

variable {c : Settings}

theorem isMember_of_mem {m : String × Node} (hm : m ∈ c.members) : IsMember m := by
  obtain ⟨s, -, rfl⟩ := List.mem_map.1 hm
  exact ⟨s.isName_key, s.length_key, Kind.isValue_toYaml s.kind (c s)⟩

/-- the last member is a scalar, so breaks may follow it where they do not count -/
theorem extra_of_mem_getLast? {extra : List Char} (hx : ∀ b ∈ extra, IsLineEnd b)
    {m : String × Node} (hm : m ∈ c.members.getLast?) (hopen : m.2.endsOpen = false) :
    Extra m.2 extra := by
  obtain rfl : (Setting.logFile.key, (Kind.optional .path).toYaml (c .logFile)) = m :=
    Option.some.inj hm
  have hscalar : ∃ style v, (Kind.optional .path).toYaml (c .logFile) = .scalar style none v := by
    cases (c .logFile : Option String) with
    | none => exact ⟨.plain, "null", rfl⟩
    | some path => exact ⟨styleOf path, path, rfl⟩
  obtain ⟨style, v, hv⟩ := hscalar
  dsimp only at hopen ⊢
  rw [hv] at hopen ⊢
  refine ⟨hx, fun _ => ⟨style, v, rfl, ?_⟩⟩
  rintro rfl
  exact hopen

/-- a printed configuration gives every setting its value, also with breaks behind it -/
theorem ofYaml?_text {extra : String} (hx : ∀ b ∈ extra.toList, IsLineEnd b) :
    (Node.parse? (c.text ++ extra)).bind Given.ofYaml? = some fun s => some (c s) := by
  have hne : c.members ≠ [] := List.cons_ne_nil _ _
  rw [text, Node.parse?_record (fun m => isMember_of_mem) hne hx
    fun m => extra_of_mem_getLast? hx]
  rw [Option.bind_some, Given.ofYaml?, members, List.map_map, List.foldlM_map]
  have hfold : Setting.all.foldlM
      (fun g s => g.addMember Kind.ofYaml? s.key (s.kind.toYaml (c s))) Given.empty =
      some fun t => if t ∈ Setting.all then some (c t) else Given.empty t := by
    apply Given.foldlM_settings (by decide)
    · exact fun s _ => Kind.ofYaml?_toYaml s.isFlat_kind (c s)
    · exact fun _ _ => rfl
  refine hfold.trans (congrArg some (funext fun t => ?_))
  exact if_pos (Setting.mem_all t)

end Settings

theorem isJsonPath_yml (stem : String) : isJsonPath (stem ++ ".yml") = false := by
  have hlist : (stem ++ ".yml").toList.reverse = 'l' :: 'm' :: 'y' :: '.' :: stem.toList.reverse := by
    rw [String.toList_append, List.reverse_append]
    rfl
  rw [isJsonPath, fileName, hlist, List.dropWhile_cons_of_neg (by decide), List.reverse_reverse,
    List.takeWhile_cons_of_pos (by decide)]
  rfl

theorem CommandLine.read_configFile {path : String} (h : path ≠ "") :
    read ["--config-file=" ++ path] = .ok { configFile := some path } := by
  have hlist : ("--config-file=" ++ path).toList =
      '-' :: '-' :: ("config-file=".toList ++ path.toList) := by
    rw [String.toList_append]
    rfl
  have hassign : assign {} .configFile path = .ok { configFile := some path } := by
    rw [assign, if_neg (by simpa using h)]
    rfl
  have hfollow : Reader.follow {} .configFile (some (String.ofList path.toList)) =
      .ok { result := { configFile := some path } } := by
    rw [String.ofList_toList, Reader.follow, hassign]
    rfl
  have hstep : Reader.step {} ("--config-file=" ++ path) =
      .ok { result := { configFile := some path } } := by
    rw [Reader.step, hlist]
    exact hfollow
  rw [read, List.foldlM_cons, hstep]
  rfl

/-! ## loading it again -/

section Unset

variable {environment : String → Option String} (h : ∀ name, environment ("HS_" ++ name) = none)
include h

/-- the names of all variables begin alike -/
theorem Setting.variableText?_of_unset (s : Setting) : s.variableText? environment = none := by
  cases s with
  | network => exact h "NETWORK"
  | pass => exact h "RPC_PASS"
  | _ => rfl

theorem Given.ofEnvironment_of_unset : ofEnvironment environment = .empty := by
  funext s
  rw [ofEnvironment, Setting.variableText?_of_unset h]
  rfl

end Unset

namespace Sources

variable {s : Sources} {l : Loaded}

theorem validate_of_load (h : s.load = .ok l) : l.settings.validate = .ok () := by
  unfold load at h
  obtain ⟨line, -, h⟩ := bind_eq_ok_iff.1 h
  obtain ⟨o, -, h⟩ := bind_eq_ok_iff.1 h
  obtain ⟨c, -, h⟩ := bind_eq_ok_iff.1 h
  obtain ⟨⟨⟩, hv, h⟩ := bind_eq_ok_iff.1 h
  obtain rfl := Except.ok.inj h
  exact mapError_eq_ok_iff.1 hv

theorem load_of_full {c : Settings} {path text : String}
    (hline : CommandLine.read s.arguments = .ok { configFile := some path })
    (henv : ∀ name, s.environment ("HS_" ++ name) = none) (hfile : s.file path = .ok text)
    (hg : Given.ofText? path text = some fun t => some (c t)) (hc : c.validate = .ok ()) :
    s.load = .ok ⟨c, false⟩ := by
  have hreads : s.Reads { configFile := some path } := by
    refine ⟨fun t _ text ht => ?_, fun p hp => ?_⟩
    · rw [Setting.variableText?_of_unset henv] at ht
      cases ht
    · obtain rfl : path = p := Option.some.inj hp
      exact ⟨text, _, hfile, hg⟩
  have hspoken : CommandLine.spoken { configFile := some path } s.environment = .empty := by
    rw [CommandLine.spoken, Given.ofEnvironment_of_unset henv]
    rfl
  have hprevails : s.prevailing { configFile := some path } = c := by
    rw [prevailing, hspoken, fromFile_of_some rfl hfile hg]
    rfl
  rw [load_eq hline hreads, hprevails, hc]
  rfl

/-- Whatever is loaded comes back from its own text: saved under any name that ends in `.yml`, as it is
or with the line break that printing adds, and named on a command line that says nothing else, it is
loaded again, where no variable is set.  All settings are the same then, and so are the URL, the
parameters and the backend that they stand for. -/
theorem load_printed (h : s.load = .ok l) (stem : String) :
    CommandLine.read ["--config-file=" ++ (stem ++ ".yml")] =
        .ok { configFile := some (stem ++ ".yml") } ∧
    ∀ s' : Sources, CommandLine.read s'.arguments = .ok { configFile := some (stem ++ ".yml") } →
      (∀ name, s'.environment ("HS_" ++ name) = none) →
      (s'.file (stem ++ ".yml") = .ok l.settings.text ∨
        s'.file (stem ++ ".yml") = .ok (l.settings.text ++ "\n")) →
      ∃ l', s'.load = .ok l' ∧ (∀ t, l'.settings t = l.settings t) ∧
        l'.settings.rpcUrl = l.settings.rpcUrl ∧ l'.settings.params = l.settings.params ∧
        ∀ cores, l'.settings.makeBackend cores = l.settings.makeBackend cores := by
  refine ⟨CommandLine.read_configFile ?_, fun s' hline henv hfile => ?_⟩
  · intro hempty
    have hlen := congrArg String.length hempty
    rw [String.length_append] at hlen
    exact absurd hlen (by simp)
  · have hbreaks : ∃ extra : String, (∀ b ∈ extra.toList, IsLineEnd b) ∧
        s'.file (stem ++ ".yml") = .ok (l.settings.text ++ extra) := by
      rcases hfile with hfile | hfile
      · exact ⟨"", nofun, by rw [String.append_empty, hfile]⟩
      · exact ⟨"\n", by simp [IsLineEnd], hfile⟩
    obtain ⟨extra, hx, hfile⟩ := hbreaks
    have hg : Given.ofText? (stem ++ ".yml") (l.settings.text ++ extra) =
        some fun t => some (l.settings t) := by
      rw [Given.ofText?, isJsonPath_yml, if_neg (by decide)]
      exact Settings.ofYaml?_text hx
    have hload := load_of_full hline henv hfile hg (validate_of_load h)
    exact ⟨_, hload, fun _ => rfl, rfl, rfl, fun _ => rfl⟩

namespace Trial

/-- texts that look like other values, a list, a duration of two amounts, and a path -/
def printing : Sources where
  arguments := ["--user=true", "--pass= #7\n", "--external-arg=-x", "-d=0",
    "--poll-interval=1h 30m", "--log-file=logs/all: of them.log", "--print-config"]

def wished : CommandLine where
  given := (((((Given.empty.set .user "true").set .pass " #7\n").set .externalArgs ["-x"]).set
    .device (some (0 : UInt32))).set .pollInterval (Duration.ofSeconds 5400)).set .logFile
      (some "logs/all: of them.log")
  printConfig := true

def printed : Settings := wished.given.complete

theorem read_printing : CommandLine.read printing.arguments = .ok wished := rfl

theorem isAccepted_printed : printed.IsAccepted where
  url := ⟨_, Url.parse_localhost⟩
  pollInterval := by decide
  command h := nomatch h
  device _ _ h := absurd rfl h

theorem load_printing : printing.load = .ok ⟨printed, true⟩ := by
  have hreads : printing.Reads wished := by
    refine ⟨fun t _ text ht => ?_, nofun⟩
    rw [Setting.variableText?_of_unset fun _ => rfl] at ht
    cases ht
  have hprevails : printing.prevailing wished = printed := by
    rw [prevailing, CommandLine.spoken, Given.ofEnvironment_of_unset fun _ => rfl,
      fromFile_of_none rfl, Given.orElse_empty, Given.orElse_empty]
    rfl
  rw [load_eq read_printing hreads, hprevails, isAccepted_printed.validate]
  rfl

def reloading : Sources where
  arguments := ["--config-file=saved.yml"]
  file := fun _ => .ok (printed.text ++ "\n")

end Trial

theorem load_printed_all_kinds : Trial.printing.load = .ok ⟨Trial.printed, true⟩ ∧
    ∃ l', Trial.reloading.load = .ok l' ∧ l'.settings .user = "true" ∧
      l'.settings .pass = " #7\n" ∧ l'.settings .externalArgs = ["-x"] ∧
      l'.settings .pollInterval = Duration.ofSeconds 5400 := by
  obtain ⟨hline, hall⟩ := load_printed Trial.load_printing "saved"
  obtain ⟨l', hload, hsame, -⟩ := hall Trial.reloading hline (fun _ => rfl) (.inr rfl)
  exact ⟨Trial.load_printing, l', hload, hsame .user, hsame .pass, hsame .externalArgs,
    hsame .pollInterval⟩

end Sources

end HeaderMiner
